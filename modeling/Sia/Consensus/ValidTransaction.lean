import Sia.Consensus.Store
import Sia.Consensus.Env
import Sia.Lib.Except

/-! Transaction validity: `StandaloneValid` of `types/validtransaction.go`, which needs only the
height, and `validTransaction` of `modules/consensus/validtransaction.go`, which reads the
consensus buckets; with `checkMinerPayouts`, the one block rule that moves coins. Each check
returns the first error the source returns, in the source's order. Signature verification and
the Merkle proof of a storage proof are the `Env`'s, so validity here holds for any of their
implementations. -/
namespace Sia.Consensus

/-- The errors of transaction validation, after their variables in the source. -/
inductive TransactionError where
  | transactionTooLarge
  | storageProofWithOutputs
  | doubleSpend
  | zeroOutput
  | nonZeroClaimStart
  | zeroMinerFee
  | fileContractWindowStartViolation
  | fileContractWindowEndViolation
  | fileContractOutputSumViolation
  | invalidFoundationUpdateEncoding
  | uninitializedFoundationUpdate
  | timelockNotSatisfied
  | invalidSignatures
  | missingSiacoinOutput
  | wrongUnlockConditions
  | siacoinInputOutputMismatch
  | unrecognizedFileContractID
  | unfinishedFileContract
  | invalidStorageProof
  | nilItem
  | lateRevision
  | lowRevisionNumber
  | alteredRevisionPayouts
  | siafundInputOutputMismatch
  | unsignedFoundationUpdate
  deriving DecidableEq, Repr

/-- `types.BlockSizeLimit`. -/
def blockSizeLimit : ℕ := 2000000

/-- `types.OakHardforkTxnSizeLimit`. -/
def oakHardforkTxnSizeLimit : ℕ := 64000

/-- `crypto.SegmentSize`. -/
def segmentSize : UInt64 := 64

/-- `crypto.CalculateLeaves`: the number of segments, at least one. -/
def calculateLeaves (dataSize : UInt64) : UInt64 :=
  let numSegments := dataSize / segmentSize
  if dataSize = 0 ∨ dataSize % segmentSize ≠ 0 then numSegments + 1 else numSegments

/-- A check that fails with `e` when `bad` holds. -/
def failIf (bad : Prop) [Decidable bad] (e : TransactionError) : Except TransactionError Unit :=
  if bad then .error e else .ok ()

variable {H : Type} [DecidableEq H] [HashBytes H] (env : Env H)

section Standalone

variable (t : Transaction H) (currentHeight : ℕ)

/-- After the Oak hardfork a transaction must also fit in 64 KB. -/
def fitsInABlock : Except TransactionError Unit := do
  let size := t.marshalSia.length
  failIf (size > blockSizeLimit - 5000) .transactionTooLarge
  failIf (currentHeight ≥ env.oakHardforkBlock ∧ size > oakHardforkTxnSizeLimit) .transactionTooLarge

/-- A transaction with a storage proof creates no outputs, contracts or revisions. -/
def followsStorageProofRules : Except TransactionError Unit :=
  if t.storageProofs.isEmpty then .ok ()
  else do
    failIf (t.siacoinOutputs ≠ []) .storageProofWithOutputs
    failIf (t.fileContracts ≠ []) .storageProofWithOutputs
    failIf (t.fileContractRevisions ≠ []) .storageProofWithOutputs
    failIf (t.siafundOutputs ≠ []) .storageProofWithOutputs

/-- No output is spent twice, and no contract is both proven and revised or acted on twice. -/
def noRepeats : Except TransactionError Unit := do
  failIf (¬ (t.siacoinInputs.map (·.parentID)).Nodup) .doubleSpend
  failIf (¬ (t.storageProofs.map (·.parentID) ++ t.fileContractRevisions.map (·.parentID)).Nodup)
    .doubleSpend
  failIf (¬ (t.siafundInputs.map (·.parentID)).Nodup) .doubleSpend

def followsMinimumValues : Except TransactionError Unit := do
  t.siacoinOutputs.forM fun sco => failIf (sco.value = 0) .zeroOutput
  t.fileContracts.forM fun fc => failIf (fc.payout = 0) .zeroOutput
  t.siafundOutputs.forM fun sfo => do
    failIf (sfo.claimStart ≠ 0) .nonZeroClaimStart
    failIf (sfo.value = 0) .zeroOutput
  t.minerFees.forM fun fee => failIf (fee = 0) .zeroMinerFee

/-- A new contract's window starts in the future and both payout lists hold exactly the
post-tax payout. -/
def correctFileContracts : Except TransactionError Unit :=
  t.fileContracts.forM fun fc => do
    failIf (fc.windowStart.toNat ≤ currentHeight) .fileContractWindowStartViolation
    failIf (fc.windowEnd ≤ fc.windowStart) .fileContractWindowEndViolation
    let outputPortion := postTax env.params currentHeight fc.payout
    failIf ((fc.validProofOutputs.map (·.value)).sum ≠ outputPortion) .fileContractOutputSumViolation
    failIf ((fc.missedProofOutputs.map (·.value)).sum ≠ outputPortion) .fileContractOutputSumViolation

def correctFileContractRevisions : Except TransactionError Unit :=
  t.fileContractRevisions.forM fun fcr => do
    failIf (fcr.newWindowStart.toNat ≤ currentHeight) .fileContractWindowStartViolation
    failIf (fcr.newWindowEnd ≤ fcr.newWindowStart) .fileContractWindowEndViolation
    failIf ((fcr.newValidProofOutputs.map (·.value)).sum ≠
      (fcr.newMissedProofOutputs.map (·.value)).sum) .fileContractOutputSumViolation

/-- From the hardfork on, a Foundation update must decode and may not name the void address. -/
def correctArbitraryData : Except TransactionError Unit :=
  if currentHeight < env.params.foundationHardforkHeight then .ok ()
  else t.arbitraryData.forM fun arb =>
    if specifierFoundation.isPrefixOf arb then
      match env.decodeFoundationUpdate (arb.drop 16) with
      | none => .error .invalidFoundationUpdateEncoding
      | some update =>
        failIf (update.newPrimary = env.zeroHash ∨ update.newFailsafe = env.zeroHash)
          .uninitializedFoundationUpdate
    else .ok ()

def validUnlockConditions : Except TransactionError Unit := do
  let check (uc : UnlockConditions) := failIf (uc.timelock.toNat > currentHeight) .timelockNotSatisfied
  t.siacoinInputs.forM (check ·.unlockConditions)
  t.fileContractRevisions.forM (check ·.unlockConditions)
  t.siafundInputs.forM (check ·.unlockConditions)

def standaloneValid : Except TransactionError Unit := do
  fitsInABlock env t currentHeight
  followsStorageProofRules t
  noRepeats t
  followsMinimumValues t
  correctFileContracts env t currentHeight
  correctFileContractRevisions t currentHeight
  correctArbitraryData env t currentHeight
  validUnlockConditions t currentHeight
  failIf (env.validSignatures t currentHeight = false) .invalidSignatures

end Standalone

section Consensus

variable (db : ConsensusDB H) (t : Transaction H)

/-- Every input spends a stored output under its unlock hash, and the inputs sum to what the
transaction spends. -/
def validSiacoins : Except TransactionError Unit := do
  let inputSum ← t.siacoinInputs.foldlM (fun sum sci =>
    match getSiacoinOutput db sci.parentID with
    | none => .error .missingSiacoinOutput
    | some sco => do
      failIf (env.unlockHash sci.unlockConditions ≠ sco.unlockHash) .wrongUnlockConditions
      pure (sum + sco.value)) 0
  failIf (inputSum ≠ t.siacoinOutputSum) .siacoinInputOutputMismatch

/-- The segment a proof for `fcid` must cover, drawn from the block before the proof window. The
trigger height is computed in `uint64`, and a trigger block missing from the path reads as the
zero ID. -/
def storageProofSegment (fcid : H) : Except TransactionError UInt64 :=
  match getFileContract db fcid with
  | none => .error .unrecognizedFileContractID
  | some fc =>
    let triggerHeight := fc.windowStart - 1
    if triggerHeight.toNat > db.blockHeight then .error .unfinishedFileContract
    else
      let triggerID := (getPath db triggerHeight.toNat).getD env.zeroHash
      .ok (env.segmentIndex triggerID fcid (calculateLeaves fc.fileSize))

/-- One storage proof. The final segment is only as long as the file needs; the rules before
block 100,000 differ in how a full final segment is measured, and do not accept an unverified
proof of an empty file. -/
def validStorageProof (sp : StorageProof H) : Except TransactionError Unit := do
  let segmentIndex ← storageProofSegment env db sp.parentID
  match getFileContract db sp.parentID with
  | none => .error .nilItem
  | some fc =>
    let leaves := calculateLeaves fc.fileSize
    let legacy := env.legacyStorageProofs db.blockHeight
    let finalLen := if segmentIndex = leaves - 1 then fc.fileSize % segmentSize else segmentSize
    let segmentLen :=
      if legacy then (if env.fullFinalSegments db.blockHeight then segmentSize else finalLen)
      else if finalLen = 0 then segmentSize else finalLen
    let verified := env.verifySegment (sp.segment.toList.take segmentLen.toNat) sp.hashSet leaves
      segmentIndex fc.fileMerkleRoot
    if legacy then failIf (verified = false) .invalidStorageProof
    else failIf (verified = false ∧ fc.fileSize > 0) .invalidStorageProof

def validStorageProofs : Except TransactionError Unit :=
  t.storageProofs.forM (validStorageProof env db)

/-- A revision comes before the proof window, raises the revision number, is authorised by the
contract's unlock hash and keeps the total of both payout lists. -/
def validFileContractRevisions : Except TransactionError Unit :=
  t.fileContractRevisions.forM fun fcr =>
    match getFileContract db fcr.parentID with
    | none => .error .nilItem
    | some fc => do
      failIf (db.blockHeight > fc.windowStart.toNat) .lateRevision
      failIf (fc.revisionNumber ≥ fcr.newRevisionNumber) .lowRevisionNumber
      failIf (env.unlockHash fcr.unlockConditions ≠ fc.unlockHash) .wrongUnlockConditions
      let oldPayout := (fc.validProofOutputs.map (·.value)).sum
      failIf ((fcr.newValidProofOutputs.map (·.value)).sum ≠ oldPayout) .alteredRevisionPayouts
      failIf ((fcr.newMissedProofOutputs.map (·.value)).sum ≠ oldPayout) .alteredRevisionPayouts

/-- The spent siafund outputs, as `getSiafundOutput` reports them, hold as many siafunds as the
new ones. -/
def validSiafunds : Except TransactionError Unit := do
  let inputSum ← t.siafundInputs.foldlM (fun sum sfi =>
    match getSiafundOutput db (lastGenesisUnlockHash env.params) env.devAddr sfi.parentID with
    | none => .error .nilItem
    | some sfo => do
      failIf (env.unlockHash sfi.unlockConditions ≠ sfo.unlockHash) .wrongUnlockConditions
      pure (sum + sfo.value)) 0
  failIf ((t.siafundOutputs.map (·.value)).sum ≠ inputSum) .siafundInputOutputMismatch

/-- Some input controlled by the primary or failsafe address has a signature covering the whole
transaction. -/
def foundationUpdateIsSigned : Bool :=
  let (primary, failsafe) := db.foundationUnlockHashes
  t.siacoinInputs.any fun sci =>
    let uh := env.unlockHash sci.unlockConditions
    (uh = primary ∨ uh = failsafe) &&
      t.transactionSignatures.any fun sig =>
        sig.parentID = sci.parentID && sig.coveredFields.wholeTransaction

def validArbitraryData (currentHeight : ℕ) : Except TransactionError Unit :=
  if currentHeight < env.params.foundationHardforkHeight then .ok ()
  else t.arbitraryData.forM fun arb =>
    if specifierFoundation.isPrefixOf arb then
      failIf (foundationUpdateIsSigned env db t = false) .unsignedFoundationUpdate
    else .ok ()

/-- `validTransaction`, checked against the state the transaction would be applied to. -/
def validTransaction : Except TransactionError Unit := do
  let currentHeight := db.blockHeight
  standaloneValid env t currentHeight
  validSiacoins env db t
  validStorageProofs env db t
  validFileContractRevisions env db t
  validSiafunds env db t
  validArbitraryData env db t currentHeight

end Consensus

/-! ### What a successful validation establishes -/

section Specs

variable {t : Transaction H} {currentHeight : ℕ} {db : ConsensusDB H}

omit [DecidableEq H] [HashBytes H] in
theorem failIf_eq_ok {bad : Prop} [Decidable bad] {e : TransactionError} :
    failIf bad e = .ok () ↔ ¬ bad := by
  by_cases holds : bad <;> simp [failIf, holds]

theorem validTransaction_eq_ok (valid : validTransaction env db t = .ok ()) :
    standaloneValid env t db.blockHeight = .ok () ∧ validSiacoins env db t = .ok () ∧
      validStorageProofs env db t = .ok () ∧ validFileContractRevisions env db t = .ok () ∧
      validSiafunds env db t = .ok () ∧ validArbitraryData env db t db.blockHeight = .ok () := by
  obtain ⟨⟨⟩, standalone, valid⟩ := Except.bind_eq_ok.mp valid
  obtain ⟨⟨⟩, siacoins, valid⟩ := Except.bind_eq_ok.mp valid
  obtain ⟨⟨⟩, proofs, valid⟩ := Except.bind_eq_ok.mp valid
  obtain ⟨⟨⟩, revisions, valid⟩ := Except.bind_eq_ok.mp valid
  obtain ⟨⟨⟩, siafunds, data⟩ := Except.bind_eq_ok.mp valid
  exact ⟨standalone, siacoins, proofs, revisions, siafunds, data⟩

theorem standaloneValid_eq_ok (valid : standaloneValid env t currentHeight = .ok ()) :
    fitsInABlock env t currentHeight = .ok () ∧ followsStorageProofRules t = .ok () ∧
      noRepeats t = .ok () ∧ followsMinimumValues t = .ok () ∧
      correctFileContracts env t currentHeight = .ok () ∧
      correctFileContractRevisions t currentHeight = .ok () ∧
      correctArbitraryData env t currentHeight = .ok () ∧
      validUnlockConditions t currentHeight = .ok () ∧
      env.validSignatures t currentHeight = true := by
  obtain ⟨⟨⟩, fits, valid⟩ := Except.bind_eq_ok.mp valid
  obtain ⟨⟨⟩, proofRules, valid⟩ := Except.bind_eq_ok.mp valid
  obtain ⟨⟨⟩, repeats, valid⟩ := Except.bind_eq_ok.mp valid
  obtain ⟨⟨⟩, minimums, valid⟩ := Except.bind_eq_ok.mp valid
  obtain ⟨⟨⟩, contracts, valid⟩ := Except.bind_eq_ok.mp valid
  obtain ⟨⟨⟩, revisions, valid⟩ := Except.bind_eq_ok.mp valid
  obtain ⟨⟨⟩, data, valid⟩ := Except.bind_eq_ok.mp valid
  obtain ⟨⟨⟩, timelocks, signed⟩ := Except.bind_eq_ok.mp valid
  exact ⟨fits, proofRules, repeats, minimums, contracts, revisions, data, timelocks,
    Bool.not_eq_false _ ▸ failIf_eq_ok.mp signed⟩

omit [DecidableEq H] [HashBytes H] in
/-- A new contract's window opens after the current height and closes after it opens; each
payout list holds the post-tax payout. -/
theorem correctFileContracts_eq_ok (valid : correctFileContracts env t currentHeight = .ok ()) :
    ∀ fc ∈ t.fileContracts, currentHeight < fc.windowStart.toNat ∧
      fc.windowStart < fc.windowEnd ∧
      (fc.validProofOutputs.map (·.value)).sum = postTax env.params currentHeight fc.payout ∧
      (fc.missedProofOutputs.map (·.value)).sum = postTax env.params currentHeight fc.payout := by
  intro fc mem
  obtain ⟨⟨⟩, start, checked⟩ := Except.bind_eq_ok.mp (Except.forM_eq_ok.mp valid fc mem)
  obtain ⟨⟨⟩, ends, checked⟩ := Except.bind_eq_ok.mp checked
  obtain ⟨⟨⟩, validSum, missedSum⟩ := Except.bind_eq_ok.mp checked
  exact ⟨not_le.mp (failIf_eq_ok.mp start), UInt64.not_le.mp (failIf_eq_ok.mp ends),
    not_not.mp (failIf_eq_ok.mp validSum), not_not.mp (failIf_eq_ok.mp missedSum)⟩

omit [DecidableEq H] [HashBytes H] in
/-- A revision's window opens after the current height and closes after it opens; its payout
lists have equal totals. -/
theorem correctFileContractRevisions_eq_ok
    (valid : correctFileContractRevisions t currentHeight = .ok ()) :
    ∀ fcr ∈ t.fileContractRevisions, currentHeight < fcr.newWindowStart.toNat ∧
      fcr.newWindowStart < fcr.newWindowEnd ∧
      (fcr.newValidProofOutputs.map (·.value)).sum =
        (fcr.newMissedProofOutputs.map (·.value)).sum := by
  intro fcr mem
  obtain ⟨⟨⟩, start, checked⟩ := Except.bind_eq_ok.mp (Except.forM_eq_ok.mp valid fcr mem)
  obtain ⟨⟨⟩, ends, sums⟩ := Except.bind_eq_ok.mp checked
  exact ⟨not_le.mp (failIf_eq_ok.mp start), UInt64.not_le.mp (failIf_eq_ok.mp ends),
    not_not.mp (failIf_eq_ok.mp sums)⟩

end Specs

/-- `Block.CalculateSubsidy`: the coinbase and every miner fee of the block. -/
def calculateSubsidy (p : Params H) (b : Block H) (height : ℕ) : Currency :=
  calculateCoinbase p height + (b.transactions.map (·.minerFees.sum)).sum

/-- `checkMinerPayouts`: non-zero payouts that sum to the subsidy. -/
def checkMinerPayouts (p : Params H) (b : Block H) (height : ℕ) : Bool :=
  b.minerPayouts.all (·.value ≠ 0) && calculateSubsidy p b height = (b.minerPayouts.map (·.value)).sum

end Sia.Consensus
