import Sia.Consensus.Env
import Sia.Consensus.Diffs

/-! `modules/consensus/applytransaction.go`: applying a transaction that has already been
validated. Every component appends its diffs to the processed block and commits them in the
apply direction, so the state and the diff lists move together; a Go loop is a `foldlM` over
the component list, and one iteration is its own definition. The Foundation update is the one
effect that records no diff. -/
namespace Sia.Consensus

variable {H : Type} [DecidableEq H] [HashBytes H] (env : Env H)

/-! ### Recording a diff

Each `append` to a diff list followed by the commit of that diff. -/

section Record

variable (s : ConsensusDB H × ProcessedBlock H)

def recordSiacoinOutputDiff (scod : SiacoinOutputDiff H) :
    Option (ConsensusDB H × ProcessedBlock H) := do
  let db ← commitSiacoinOutputDiff s.1 scod .apply
  pure (db, { s.2 with siacoinOutputDiffs := s.2.siacoinOutputDiffs ++ [scod] })

def recordFileContractDiff (fcd : FileContractDiff H) :
    Option (ConsensusDB H × ProcessedBlock H) := do
  let db ← commitFileContractDiff s.1 fcd .apply
  pure (db, { s.2 with fileContractDiffs := s.2.fileContractDiffs ++ [fcd] })

def recordSiafundOutputDiff (sfod : SiafundOutputDiff H) :
    Option (ConsensusDB H × ProcessedBlock H) := do
  let db ← commitSiafundOutputDiff s.1 sfod .apply
  pure (db, { s.2 with siafundOutputDiffs := s.2.siafundOutputDiffs ++ [sfod] })

def recordDelayedSiacoinOutputDiff (dscod : DelayedSiacoinOutputDiff H) :
    Option (ConsensusDB H × ProcessedBlock H) := do
  let db ← commitDelayedSiacoinOutputDiff s.1 dscod .apply
  pure (db, { s.2 with delayedSiacoinOutputDiffs := s.2.delayedSiacoinOutputDiffs ++ [dscod] })

def recordSiafundPoolDiff (sfpd : SiafundPoolDiff) :
    Option (ConsensusDB H × ProcessedBlock H) := do
  let db ← commitSiafundPoolDiff s.1 sfpd .apply
  pure (db, { s.2 with siafundPoolDiffs := s.2.siafundPoolDiffs ++ [sfpd] })

end Record

/-! ### The components of a transaction -/

section Components

variable (t : Transaction H)

/-- Spending an input records the output as it is stored; a missing output is a DEBUG panic. -/
def applySiacoinInput (s : ConsensusDB H × ProcessedBlock H) (sci : SiacoinInput H) :
    Option (ConsensusDB H × ProcessedBlock H) := do
  let sco ← getSiacoinOutput s.1 sci.parentID
  recordSiacoinOutputDiff s ⟨.revert, sci.parentID, sco⟩

def applySiacoinInputs (s : ConsensusDB H × ProcessedBlock H) :
    Option (ConsensusDB H × ProcessedBlock H) :=
  t.siacoinInputs.foldlM applySiacoinInput s

def applySiacoinOutputs (s : ConsensusDB H × ProcessedBlock H) :
    Option (ConsensusDB H × ProcessedBlock H) :=
  t.siacoinOutputs.zipIdx.foldlM
    (fun s (sco, i) => recordSiacoinOutputDiff s ⟨.apply, env.siacoinOutputID t i, sco⟩) s

/-- A new contract, then the tax on its payout into the siafund pool, at the height of the
parent block. -/
def applyFileContract (s : ConsensusDB H × ProcessedBlock H) (entry : FileContract H × ℕ) :
    Option (ConsensusDB H × ProcessedBlock H) := do
  let (fc, i) := entry
  let s ← recordFileContractDiff s ⟨.apply, env.fileContractID t i, fc⟩
  let sfp := s.1.siafundPool
  recordSiafundPoolDiff s ⟨.apply, sfp, sfp + tax env.params s.1.blockHeight fc.payout⟩

def applyFileContracts (s : ConsensusDB H × ProcessedBlock H) :
    Option (ConsensusDB H × ProcessedBlock H) :=
  t.fileContracts.zipIdx.foldlM (applyFileContract env t) s

/-- A revision removes the stored contract and adds the revised one under the same ID, keeping
the old payout. -/
def applyFileContractRevision (s : ConsensusDB H × ProcessedBlock H)
    (fcr : FileContractRevision H) : Option (ConsensusDB H × ProcessedBlock H) := do
  let fc ← getFileContract s.1 fcr.parentID
  let s ← recordFileContractDiff s ⟨.revert, fcr.parentID, fc⟩
  let newFC : FileContract H :=
    { fileSize := fcr.newFileSize, fileMerkleRoot := fcr.newFileMerkleRoot,
      windowStart := fcr.newWindowStart, windowEnd := fcr.newWindowEnd, payout := fc.payout,
      validProofOutputs := fcr.newValidProofOutputs,
      missedProofOutputs := fcr.newMissedProofOutputs, unlockHash := fcr.newUnlockHash,
      revisionNumber := fcr.newRevisionNumber }
  recordFileContractDiff s ⟨.apply, fcr.parentID, newFC⟩

def applyFileContractRevisions (s : ConsensusDB H × ProcessedBlock H) :
    Option (ConsensusDB H × ProcessedBlock H) :=
  t.fileContractRevisions.foldlM applyFileContractRevision s

/-- The valid proof outputs become delayed outputs maturing `MaturityDelay` blocks later, then
the contract is removed. -/
def applyStorageProof (s : ConsensusDB H × ProcessedBlock H) (sp : StorageProof H) :
    Option (ConsensusDB H × ProcessedBlock H) := do
  let fc ← getFileContract s.1 sp.parentID
  let maturityHeight := s.2.height + env.params.maturityDelay
  let s ← fc.validProofOutputs.zipIdx.foldlM
    (fun s (vpo, i) => recordDelayedSiacoinOutputDiff s
      ⟨.apply, env.storageProofOutputID sp.parentID true i, vpo, maturityHeight⟩) s
  recordFileContractDiff s ⟨.revert, sp.parentID, fc⟩

def applyStorageProofs (s : ConsensusDB H × ProcessedBlock H) :
    Option (ConsensusDB H × ProcessedBlock H) :=
  t.storageProofs.foldlM (applyStorageProof env) s

/-- Spending a siafund output pays its claim, `(pool - ClaimStart) / SiafundCount` per siafund,
as a delayed output. `Currency.Sub` panics in the DEBUG build when the claim start exceeds the
pool. -/
def applySiafundInput (s : ConsensusDB H × ProcessedBlock H) (sfi : SiafundInput H) :
    Option (ConsensusDB H × ProcessedBlock H) := do
  let sfo ← getSiafundOutput s.1 (lastGenesisUnlockHash env.params) env.devAddr sfi.parentID
  if s.1.siafundPool < sfo.claimStart then none
  let claimPortion := (s.1.siafundPool - sfo.claimStart) / siafundCount * sfo.value
  let s ← recordDelayedSiacoinOutputDiff s
    ⟨.apply, env.siaClaimOutputID sfi.parentID, ⟨claimPortion, sfi.claimUnlockHash⟩,
      s.2.height + env.params.maturityDelay⟩
  recordSiafundOutputDiff s ⟨.revert, sfi.parentID, sfo⟩

def applySiafundInputs (s : ConsensusDB H × ProcessedBlock H) :
    Option (ConsensusDB H × ProcessedBlock H) :=
  t.siafundInputs.foldlM (applySiafundInput env) s

/-- A new siafund output starts claiming from the current pool. -/
def applySiafundOutputs (s : ConsensusDB H × ProcessedBlock H) :
    Option (ConsensusDB H × ProcessedBlock H) :=
  t.siafundOutputs.zipIdx.foldlM
    (fun s (sfo, i) => recordSiafundOutputDiff s
      ⟨.apply, env.siafundOutputID t i, { sfo with claimStart := s.1.siafundPool }⟩) s

end Components

/-! ### The Foundation update -/

/-- One iteration of `transferFoundationOutputs`: the subsidy paid at `height`, if still
unspent, is re-addressed to the new primary. The output is removed and added again, with no
diff. -/
def transferFoundationOutput (newPrimary : H) (db : ConsensusDB H) (height : ℕ) :
    Option (ConsensusDB H) :=
  match getPath db height with
  | none => none
  | some blockID =>
    let id := env.foundationSubsidyID blockID
    match getSiacoinOutput db id with
    | none => some db
    | some sco => do
      let db ← removeSiacoinOutput db id
      addSiacoinOutput db id { sco with unlockHash := newPrimary }

def transferFoundationOutputs (db : ConsensusDB H) (currentHeight : ℕ) (newPrimary : H) :
    Option (ConsensusDB H) :=
  (foundationSubsidyHeights env.params currentHeight).foldlM
    (transferFoundationOutput env newPrimary) db

/-- One arbitrary-data entry: a Foundation update is applied only if no update has been applied
at this height yet, saving the current addresses first so that a revert can restore them. -/
def applyFoundationData (height : ℕ) (db : ConsensusDB H) (arb : List UInt8) :
    Option (ConsensusDB H) :=
  if specifierFoundation.isPrefixOf arb then
    match env.decodeFoundationUpdate (arb.drop 16) with
    | none => none
    | some update =>
      if height ∈ db.priorFoundationUnlockHashes then some db
      else
        let db := setFoundationUnlockHashes (setPriorFoundationUnlockHashes db height)
          update.newPrimary update.newFailsafe
        transferFoundationOutputs env db height update.newPrimary
  else some db

/-- No arbitrary data was recognised before the Foundation hardfork. -/
def applyArbitraryData (db : ConsensusDB H) (pb : ProcessedBlock H) (t : Transaction H) :
    Option (ConsensusDB H) :=
  if pb.height < env.params.foundationHardforkHeight then some db
  else t.arbitraryData.foldlM (applyFoundationData env pb.height) db

/-- `applyTransaction`: the components in the order the source applies them. -/
def applyTransaction (s : ConsensusDB H × ProcessedBlock H) (t : Transaction H) :
    Option (ConsensusDB H × ProcessedBlock H) := do
  let s ← applySiacoinInputs t s
  let s ← applySiacoinOutputs env t s
  let s ← applyFileContracts env t s
  let s ← applyFileContractRevisions t s
  let s ← applyStorageProofs env t s
  let s ← applySiafundInputs env t s
  let s ← applySiafundOutputs env t s
  let db ← applyArbitraryData env s.1 s.2 t
  pure (db, s.2)

end Sia.Consensus
