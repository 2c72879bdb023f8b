import Sia.Types.Transaction
import Sia.Lib.Except

/-! The host's checks of a revision the renter proposes (`verifyRevision` of
`modules/host/negotiaterevisecontract.go`, `verifyPaymentRevision` of `negotiatedownload.go`,
`verifyEAFundRevision` of `payment.go`). A revision of a host's contract has two valid outputs
(renter, host) and three missed ones (renter, host, void); the verifiers reject any other shape
first and then read the outputs by position. Block heights and revision numbers are `uint64`,
so a subtraction below zero wraps as in the source. Error messages are not modelled, only which
error is returned. -/
namespace Sia.Host

open Except (failIf)

variable {H : Type}

/-- `modules.SectorSize` of the standard build: 4 MiB. -/
def sectorSize : UInt64 := 4194304

/-- `revisionSubmissionBuffer` of the standard build: one day of blocks. -/
def revisionSubmissionBuffer : UInt64 := 144

/-- The errors the revision checks return. -/
inductive HostError where
  | badContractOutputCounts
  | lateRevision
  | hostPayoutAddressChanged
  | voidAddressChanged
  | badContractParent
  | badParentID
  | badUnlockConditions
  | badRevisionNumber
  | badFileSize
  | badWindowStart
  | badWindowEnd
  | badUnlockHash
  | highRenterValidOutput
  | lowHostValidOutput
  | highRenterMissedOutput
  | lowHostMissedOutput
  | lowVoidOutput
  | voidPayoutChanged
  | badFileMerkleRoot
  | invalidPayoutSums
  deriving DecidableEq, Repr

/-- The hashing the checks call: `UnlockConditions.UnlockHash` and `cachedMerkleRoot` of a list
of sector roots. -/
structure Hashing (H : Type) where
  unlockHash : UnlockConditions → H
  cachedMerkleRoot : List H → H

/-- A revision with the five outputs of a host's contract. -/
structure ContractRevision (H : Type) where
  revision : FileContractRevision H
  valid_length : revision.newValidProofOutputs.length = 2
  missed_length : revision.newMissedProofOutputs.length = 3

/-- The revision seen with its outputs in place, if it has the right number of them. -/
def shape (revision : FileContractRevision H) : Option (ContractRevision H) :=
  if valid : revision.newValidProofOutputs.length = 2 then
    if missed : revision.newMissedProofOutputs.length = 3 then some ⟨revision, valid, missed⟩
    else none
  else none

namespace ContractRevision

variable (r : ContractRevision H)

def validRenterOutput : SiacoinOutput H :=
  r.revision.newValidProofOutputs.get ⟨0, by simp [r.valid_length]⟩

def validHostOutput : SiacoinOutput H :=
  r.revision.newValidProofOutputs.get ⟨1, by simp [r.valid_length]⟩

def missedRenterOutput : SiacoinOutput H :=
  r.revision.newMissedProofOutputs.get ⟨0, by simp [r.missed_length]⟩

def missedHostOutput : SiacoinOutput H :=
  r.revision.newMissedProofOutputs.get ⟨1, by simp [r.missed_length]⟩

/-- `MissedVoidOutput`, which cannot fail on a revision with three missed outputs. -/
def missedVoidOutput : SiacoinOutput H :=
  r.revision.newMissedProofOutputs.get ⟨2, by simp [r.missed_length]⟩

/-- `TotalPayout`: the sums of the valid and of the missed outputs. -/
def validTotal : Currency := (r.revision.newValidProofOutputs.map (·.value)).sum

def missedTotal : Currency := (r.revision.newMissedProofOutputs.map (·.value)).sum

theorem validTotal_eq : r.validTotal = r.validRenterOutput.value + r.validHostOutput.value := by
  obtain ⟨⟨_, _, _, _, _, _, _, valid, missed, _⟩, validLength, _⟩ := r
  match valid, validLength with
  | [renter, host], _ => simp [validTotal, validRenterOutput, validHostOutput]

theorem missedTotal_eq : r.missedTotal =
    r.missedRenterOutput.value + r.missedHostOutput.value + r.missedVoidOutput.value := by
  obtain ⟨⟨_, _, _, _, _, _, _, valid, missed, _⟩, _, missedLength⟩ := r
  match missed, missedLength with
  | [renter, host, void], _ =>
    simp [missedTotal, missedRenterOutput, missedHostOutput, missedVoidOutput, Nat.add_assoc]

end ContractRevision

theorem shape_revision {revision : FileContractRevision H} {r : ContractRevision H}
    (shaped : shape revision = some r) : r.revision = revision := by
  unfold shape at shaped
  split_ifs at shaped
  cases shaped
  rfl

/-- The part of `storageObligation` the revision checks and the loop RPCs read and write. The
revision the renter and host last signed heads the last transaction of the revision set; every
revision the host stores passed these checks or contract formation, so it has the five
outputs. -/
structure StorageObligation (H : Type) where
  sectorRoots : List H
  originTransactionSet : List (Transaction H)
  revisionTransactionSet : List (Transaction H)
  current : ContractRevision H
  signed : (revisionTransactionSet.getLast?).bind (·.fileContractRevisions.head?) =
    some current.revision
  potentialDownloadRevenue : Currency
  potentialStorageRevenue : Currency
  potentialUploadRevenue : Currency
  riskedCollateral : Currency

/-- `expiration`: the start of the proof window of the current revision. -/
def StorageObligation.expiration (so : StorageObligation H) : UInt64 :=
  so.current.revision.newWindowStart

/-- `proofDeadline`: the end of the proof window of the current revision. -/
def StorageObligation.proofDeadline (so : StorageObligation H) : UInt64 :=
  so.current.revision.newWindowEnd

variable [DecidableEq H] (hashing : Hashing H)

/-- `verifyPayoutSums`: both revisions balance their valid and missed outputs, and keep the
total. -/
def verifyPayoutSums (old new : ContractRevision H) : Except HostError Unit := do
  failIf (old.validTotal ≠ old.missedTotal) .invalidPayoutSums
  failIf (new.validTotal ≠ new.missedTotal) .invalidPayoutSums
  failIf (old.validTotal ≠ new.validTotal) .invalidPayoutSums

/-- `verifyRevision`: a revision for an upload or a write, paying at least `expectedExchange`
from the renter to the host and risking at most `expectedCollateral` more of the host's
collateral. The Merkle root is checked last, against the obligation's sector roots. -/
def verifyRevision (so : StorageObligation H) (revision : FileContractRevision H)
    (blockHeight : UInt64) (expectedExchange expectedCollateral : Currency) :
    Except HostError Unit := do
  let some r := shape revision | throw .badContractOutputCounts
  failIf (so.expiration - revisionSubmissionBuffer ≤ blockHeight) .lateRevision
  let old := so.current
  failIf (r.validHostOutput.unlockHash ≠ old.validHostOutput.unlockHash) .hostPayoutAddressChanged
  failIf (r.missedHostOutput.unlockHash ≠ old.missedHostOutput.unlockHash)
    .hostPayoutAddressChanged
  failIf (r.missedVoidOutput.unlockHash ≠ old.missedVoidOutput.unlockHash) .voidAddressChanged
  failIf (old.revision.parentID ≠ revision.parentID) .badContractParent
  failIf (hashing.unlockHash old.revision.unlockConditions ≠
    hashing.unlockHash revision.unlockConditions) .badUnlockConditions
  failIf (old.revision.newRevisionNumber ≥ revision.newRevisionNumber) .badRevisionNumber
  failIf (revision.newFileSize ≠ UInt64.ofNat so.sectorRoots.length * sectorSize) .badFileSize
  failIf (old.revision.newWindowStart ≠ revision.newWindowStart) .badWindowStart
  failIf (old.revision.newWindowEnd ≠ revision.newWindowEnd) .badWindowEnd
  failIf (old.revision.newUnlockHash ≠ revision.newUnlockHash) .badUnlockHash
  failIf (r.validRenterOutput.value > old.validRenterOutput.value) .highRenterValidOutput
  let fromRenter := old.validRenterOutput.value - r.validRenterOutput.value
  failIf (fromRenter < expectedExchange) .highRenterValidOutput
  failIf (old.validHostOutput.value > r.validHostOutput.value) .lowHostValidOutput
  let toHost := r.validHostOutput.value - old.validHostOutput.value
  failIf (toHost ≠ fromRenter) .lowHostValidOutput
  failIf (r.validRenterOutput.value > r.missedRenterOutput.value) .highRenterMissedOutput
  -- a host missed output that grows posts negative collateral, which is allowed
  failIf (r.missedHostOutput.value ≤ old.missedHostOutput.value ∧
    old.missedHostOutput.value - r.missedHostOutput.value > expectedCollateral) .lowHostMissedOutput
  failIf (revision.newRevisionNumber ≤ old.revision.newRevisionNumber) .badRevisionNumber
  failIf (revision.newFileMerkleRoot ≠ hashing.cachedMerkleRoot so.sectorRoots) .badFileMerkleRoot

/-- `verifyPaymentRevision`: a revision paying at least `expectedTransfer` from the renter to the
host, with the same amount moved from the renter's missed output to the void and every other
field kept. -/
def verifyPaymentRevision (existing : ContractRevision H) (payment : FileContractRevision H)
    (blockHeight : UInt64) (expectedTransfer : Currency) : Except HostError Unit := do
  failIf (payment.newRevisionNumber ≤ existing.revision.newRevisionNumber) .badRevisionNumber
  let some r := shape payment | throw .badContractOutputCounts
  failIf (existing.revision.newWindowStart - revisionSubmissionBuffer ≤ blockHeight) .lateRevision
  failIf (r.validHostOutput.unlockHash ≠ existing.validHostOutput.unlockHash)
    .hostPayoutAddressChanged
  failIf (r.missedHostOutput.unlockHash ≠ existing.missedHostOutput.unlockHash)
    .hostPayoutAddressChanged
  failIf (r.missedVoidOutput.unlockHash ≠ existing.missedVoidOutput.unlockHash)
    .voidAddressChanged
  failIf (r.validRenterOutput.value > existing.validRenterOutput.value) .highRenterValidOutput
  let fromRenter := existing.validRenterOutput.value - r.validRenterOutput.value
  failIf (fromRenter < expectedTransfer) .highRenterValidOutput
  failIf (existing.validHostOutput.value > r.validHostOutput.value) .lowHostValidOutput
  let toHost := r.validHostOutput.value - existing.validHostOutput.value
  failIf (toHost ≠ fromRenter) .lowHostValidOutput
  failIf (r.missedVoidOutput.value ≠ existing.missedVoidOutput.value + toHost) .lowVoidOutput
  failIf (r.validRenterOutput.value > r.missedRenterOutput.value) .highRenterMissedOutput
  failIf (r.missedHostOutput.value < existing.missedHostOutput.value) .lowHostMissedOutput
  failIf (payment.parentID ≠ existing.revision.parentID) .badParentID
  failIf (hashing.unlockHash payment.unlockConditions ≠
    hashing.unlockHash existing.revision.unlockConditions) .badUnlockConditions
  failIf (payment.newFileSize ≠ existing.revision.newFileSize) .badFileSize
  failIf (payment.newFileMerkleRoot ≠ existing.revision.newFileMerkleRoot) .badFileMerkleRoot
  failIf (payment.newWindowStart ≠ existing.revision.newWindowStart) .badWindowStart
  failIf (payment.newWindowEnd ≠ existing.revision.newWindowEnd) .badWindowEnd
  failIf (payment.newUnlockHash ≠ existing.revision.newUnlockHash) .badUnlockHash
  failIf (r.missedHostOutput.value ≠ existing.missedHostOutput.value) .lowHostMissedOutput
  -- the source composes `ErrInvalidPayoutSums` with the failure, which is that error here
  verifyPayoutSums existing r

/-- `verifyEAFundRevision`: as a payment, but the money moved to the host also moves to the
host's missed output, and the void keeps its value. -/
def verifyEAFundRevision (existing : ContractRevision H) (payment : FileContractRevision H)
    (blockHeight : UInt64) (expectedTransfer : Currency) : Except HostError Unit := do
  failIf (payment.newRevisionNumber ≤ existing.revision.newRevisionNumber) .badRevisionNumber
  let some r := shape payment | throw .badContractOutputCounts
  failIf (existing.revision.newWindowStart - revisionSubmissionBuffer ≤ blockHeight) .lateRevision
  failIf (r.validHostOutput.unlockHash ≠ existing.validHostOutput.unlockHash)
    .hostPayoutAddressChanged
  failIf (r.missedHostOutput.unlockHash ≠ existing.missedHostOutput.unlockHash)
    .hostPayoutAddressChanged
  failIf (r.missedVoidOutput.unlockHash ≠ existing.missedVoidOutput.unlockHash)
    .voidAddressChanged
  failIf (r.validRenterOutput.value > existing.validRenterOutput.value) .highRenterValidOutput
  let fromRenter := existing.validRenterOutput.value - r.validRenterOutput.value
  failIf (fromRenter < expectedTransfer) .highRenterValidOutput
  failIf (existing.validHostOutput.value > r.validHostOutput.value) .lowHostValidOutput
  let toHost := r.validHostOutput.value - existing.validHostOutput.value
  failIf (toHost ≠ fromRenter) .lowHostValidOutput
  failIf (r.missedHostOutput.value ≠ existing.missedHostOutput.value + toHost) .lowHostMissedOutput
  failIf (r.validRenterOutput.value > r.missedRenterOutput.value) .highRenterMissedOutput
  failIf (existing.missedVoidOutput.value ≠ r.missedVoidOutput.value) .voidPayoutChanged
  failIf (payment.parentID ≠ existing.revision.parentID) .badParentID
  failIf (hashing.unlockHash payment.unlockConditions ≠
    hashing.unlockHash existing.revision.unlockConditions) .badUnlockConditions
  failIf (payment.newFileSize ≠ existing.revision.newFileSize) .badFileSize
  failIf (payment.newFileMerkleRoot ≠ existing.revision.newFileMerkleRoot) .badFileMerkleRoot
  failIf (payment.newWindowStart ≠ existing.revision.newWindowStart) .badWindowStart
  failIf (payment.newWindowEnd ≠ existing.revision.newWindowEnd) .badWindowEnd
  failIf (payment.newUnlockHash ≠ existing.revision.newUnlockHash) .badUnlockHash
  -- the source composes `ErrInvalidPayoutSums` with the failure, which is that error here
  verifyPayoutSums existing r

/-! ### What the checks establish -/

omit [DecidableEq H] in
theorem verifyPayoutSums_eq_ok {old new : ContractRevision H} :
    verifyPayoutSums old new = .ok () ↔
      old.validTotal = old.missedTotal ∧ new.validTotal = new.missedTotal ∧
        old.validTotal = new.validTotal := by
  simp only [verifyPayoutSums, Except.failIf_bind_eq_ok, Except.failIf_eq_ok, not_not]

/-- A revision `verifyRevision` accepts has the five outputs, a higher revision number, the
same proof window, which does not open within the submission buffer, and moves at least the
expected amount from the renter's valid output to the host's, exactly, so the valid total is
kept; the host's missed output falls by at most the collateral bound, and the renter's missed
output is at least its valid one. Nothing ties the missed total to the valid one. -/
theorem verifyRevision_eq_ok {so : StorageObligation H} {revision : FileContractRevision H}
    {blockHeight : UInt64} {expectedExchange expectedCollateral : Currency}
    (accepted : verifyRevision hashing so revision blockHeight expectedExchange expectedCollateral =
      .ok ()) :
    ∃ r : ContractRevision H, r.revision = revision ∧
      so.current.revision.newRevisionNumber < revision.newRevisionNumber ∧
      blockHeight < so.expiration - revisionSubmissionBuffer ∧
      revision.newWindowStart = so.current.revision.newWindowStart ∧
      revision.newWindowEnd = so.current.revision.newWindowEnd ∧
      expectedExchange + r.validRenterOutput.value ≤ so.current.validRenterOutput.value ∧
      r.validHostOutput.value + r.validRenterOutput.value =
        so.current.validHostOutput.value + so.current.validRenterOutput.value ∧
      r.validTotal = so.current.validTotal ∧
      so.current.missedHostOutput.value ≤ r.missedHostOutput.value + expectedCollateral ∧
      r.validRenterOutput.value ≤ r.missedRenterOutput.value := by
  cases shaped : shape revision with
  | none => simp [verifyRevision, shaped] at accepted
  | some r =>
    simp only [verifyRevision, shaped, Except.failIf_bind_eq_ok, Except.failIf_eq_ok] at accepted
    obtain ⟨late, -, -, -, -, -, older, -, start, finish, -, renterValid, exchanged, hostValid,
      moved, incentive, collateral, -, -⟩ := accepted
    -- the payouts are `Currency`, which `omega` reads only once unfolded to `ℕ`
    unfold Currency at *
    refine ⟨r, shape_revision shaped, UInt64.not_le.mp older, UInt64.not_le.mp late,
      (not_not.mp start).symm, (not_not.mp finish).symm, by omega, by omega, ?_, by omega,
      by omega⟩
    rw [r.validTotal_eq, so.current.validTotal_eq]
    omega

/-- A payment revision `verifyPaymentRevision` accepts also balances: its valid and missed
totals both equal the existing revision's, and what leaves the renter's valid output goes to the
host's valid output and to the void, with the host's missed output untouched. -/
theorem verifyPaymentRevision_eq_ok {existing : ContractRevision H}
    {payment : FileContractRevision H} {blockHeight : UInt64} {expectedTransfer : Currency}
    (accepted : verifyPaymentRevision hashing existing payment blockHeight expectedTransfer = .ok ()) :
    ∃ r : ContractRevision H, r.revision = payment ∧
      existing.revision.newRevisionNumber < payment.newRevisionNumber ∧
      blockHeight < existing.revision.newWindowStart - revisionSubmissionBuffer ∧
      payment.newWindowStart = existing.revision.newWindowStart ∧
      payment.newWindowEnd = existing.revision.newWindowEnd ∧
      expectedTransfer + r.validRenterOutput.value ≤ existing.validRenterOutput.value ∧
      r.validHostOutput.value + r.validRenterOutput.value =
        existing.validHostOutput.value + existing.validRenterOutput.value ∧
      r.missedHostOutput.value = existing.missedHostOutput.value ∧
      r.validTotal = r.missedTotal ∧ r.validTotal = existing.validTotal ∧
      existing.validTotal = existing.missedTotal ∧
      r.validRenterOutput.value ≤ r.missedRenterOutput.value := by
  cases shaped : shape payment with
  | none => simp [verifyPaymentRevision, shaped] at accepted
  | some r =>
    simp only [verifyPaymentRevision, shaped, Except.failIf_bind_eq_ok] at accepted
    obtain ⟨older, late, -, -, -, renterValid, exchanged, hostValid, moved, -, incentive, -, -, -,
      -, -, start, finish, -, hostMissed, sums⟩ := accepted
    obtain ⟨balanced, balanced', kept⟩ := verifyPayoutSums_eq_ok.mp sums
    unfold Currency at *
    exact ⟨r, shape_revision shaped, UInt64.not_le.mp older, UInt64.not_le.mp late,
      not_not.mp start, not_not.mp finish, by omega, by omega, not_not.mp hostMissed,
      balanced', kept.symm, balanced, by omega⟩

/-! ### An upload revision the host signs and consensus rejects -/

/-- Hashing over natural-number hashes that maps everything to `0`. -/
def sampleHashing : Hashing ℕ := ⟨fun _ => 0, fun _ => 0⟩

/-- A contract with 100 for the renter and 50 for the host on both output lists and an empty
void output, at revision 1, with its proof window opening at height 1000. -/
def sampleRevision : FileContractRevision ℕ where
  parentID := 1
  unlockConditions := ⟨0, [], 0⟩
  newRevisionNumber := 1
  newFileSize := 0
  newFileMerkleRoot := 0
  newWindowStart := 1000
  newWindowEnd := 1144
  newValidProofOutputs := [⟨100, 10⟩, ⟨50, 20⟩]
  newMissedProofOutputs := [⟨100, 10⟩, ⟨50, 20⟩, ⟨0, 30⟩]
  newUnlockHash := 5

/-- The transaction carrying only `sampleRevision`. -/
def sampleRevisionTransaction : Transaction ℕ where
  siacoinInputs := []
  siacoinOutputs := []
  fileContracts := []
  fileContractRevisions := [sampleRevision]
  storageProofs := []
  siafundInputs := []
  siafundOutputs := []
  minerFees := []
  arbitraryData := []
  transactionSignatures := []

def sampleObligation : StorageObligation ℕ where
  sectorRoots := []
  originTransactionSet := []
  revisionTransactionSet := [sampleRevisionTransaction]
  current := ⟨sampleRevision, rfl, rfl⟩
  signed := rfl
  potentialDownloadRevenue := 0
  potentialStorageRevenue := 0
  potentialUploadRevenue := 0
  riskedCollateral := 0

/-- The renter pays 10 to the host on the valid outputs, and raises the void's missed output to
5 while leaving its own missed output at 100. -/
def unbalancedRevision : FileContractRevision ℕ :=
  { sampleRevision with
    newRevisionNumber := 2
    newValidProofOutputs := [⟨90, 10⟩, ⟨60, 20⟩]
    newMissedProofOutputs := [⟨100, 10⟩, ⟨50, 20⟩, ⟨5, 30⟩] }

/-- `verifyRevision` accepts a payment of 10 whose missed outputs total 155 against 150 valid, so
consensus rejects the signed revision (its missed total no longer equals the contract's payout),
and whose renter gets 100 if the host misses its proof against 90 if it proves. -/
theorem verifyRevision_accepts_unbalanced_revision :
    verifyRevision sampleHashing sampleObligation unbalancedRevision 0 10 0 = .ok () ∧
      (unbalancedRevision.newValidProofOutputs.map (·.value)).sum = 150 ∧
      (unbalancedRevision.newMissedProofOutputs.map (·.value)).sum = 155 ∧
      (sampleRevision.newValidProofOutputs.map (·.value)).sum = 150 ∧
      (sampleRevision.newMissedProofOutputs.map (·.value)).sum = 150 := by
  refine ⟨rfl, rfl, rfl, rfl, rfl⟩

end Sia.Host
