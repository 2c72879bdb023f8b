import Sia.Host.Revision
import Sia.Lib.Finmap

/-! The host's financial metrics (`modules/host/storageobligations.go`). The obligation calls keep
`financialMetrics` up to date field by field as they store obligations in
`bucketStorageObligations`; `resetFinancialMetrics` recomputes it from the stored obligations by a
scan whose steps commute. The model is of the release build, where a `Currency.Sub` below zero
gives zero after a `build.Critical` that only logs. The contract manager, the transaction pool and
the action item queue are outside the model: what their calls return is an input. Adding,
modifying and succeeding an obligation keep the metrics equal to their recomputation; removing one
as failed or rejected does not. -/
namespace Sia

/-- `storageObligationStatus`. -/
inductive StorageObligationStatus where
  | obligationUnresolved
  | obligationRejected
  | obligationSucceeded
  | obligationFailed
  deriving DecidableEq, Repr

/-- `modules.HostFinancialMetrics`; the defaults are Go's zero value. -/
@[ext]
structure HostFinancialMetrics where
  accountFunding : Currency := 0
  potentialAccountFunding : Currency := 0
  contractCount : UInt64 := 0
  contractCompensation : Currency := 0
  potentialContractCompensation : Currency := 0
  lockedStorageCollateral : Currency := 0
  lostRevenue : Currency := 0
  lostStorageCollateral : Currency := 0
  potentialStorageRevenue : Currency := 0
  riskedStorageCollateral : Currency := 0
  storageRevenue : Currency := 0
  transactionFeeExpenses : Currency := 0
  downloadBandwidthRevenue : Currency := 0
  potentialDownloadBandwidthRevenue : Currency := 0
  potentialUploadBandwidthRevenue : Currency := 0
  uploadBandwidthRevenue : Currency := 0
  deriving DecidableEq, Repr

namespace HostFinancialMetrics

/-- Metrics added field by field: a recomputation adds one such term for each obligation. -/
def plus (a b : HostFinancialMetrics) : HostFinancialMetrics :=
  ⟨a.accountFunding + b.accountFunding, a.potentialAccountFunding + b.potentialAccountFunding,
    a.contractCount + b.contractCount, a.contractCompensation + b.contractCompensation,
    a.potentialContractCompensation + b.potentialContractCompensation,
    a.lockedStorageCollateral + b.lockedStorageCollateral, a.lostRevenue + b.lostRevenue,
    a.lostStorageCollateral + b.lostStorageCollateral,
    a.potentialStorageRevenue + b.potentialStorageRevenue,
    a.riskedStorageCollateral + b.riskedStorageCollateral, a.storageRevenue + b.storageRevenue,
    a.transactionFeeExpenses + b.transactionFeeExpenses,
    a.downloadBandwidthRevenue + b.downloadBandwidthRevenue,
    a.potentialDownloadBandwidthRevenue + b.potentialDownloadBandwidthRevenue,
    a.potentialUploadBandwidthRevenue + b.potentialUploadBandwidthRevenue,
    a.uploadBandwidthRevenue + b.uploadBandwidthRevenue⟩

theorem plus_right_comm (a b c : HostFinancialMetrics) : (a.plus b).plus c = (a.plus c).plus b := by
  ext <;> simp only [plus] <;> ac_rfl

end HostFinancialMetrics

namespace Host

variable {H : Type}

/-- `storageObligation` as `putStorageObligation` stores it: the fields the obligation calls and
the financial code read. (`StorageObligation` holds the obligations that have a revision.) -/
structure StoredObligation (H : Type) where
  sectorRoots : List H
  contractCost : Currency
  lockedCollateral : Currency
  potentialAccountFunding : Currency
  potentialDownloadRevenue : Currency
  potentialStorageRevenue : Currency
  potentialUploadRevenue : Currency
  riskedCollateral : Currency
  transactionFeesAdded : Currency
  originTransactionSet : List (Transaction H)
  revisionTransactionSet : List (Transaction H)
  obligationStatus : StorageObligationStatus

namespace StoredObligation

/-- `id`: the ID of the first contract of the last origin transaction, through the hash
derivation `fileContractID`; `none` where the origin set is empty and the source panics. -/
def id (fileContractID : Transaction H → ℕ → H) (so : StoredObligation H) : Option H :=
  so.originTransactionSet.getLast?.map (fileContractID · 0)

/-- A bound of the proof window: of the first revision of the last revision transaction if there
is one, else of the first contract of the last origin transaction; `none` where the source indexes
past the end of a slice. -/
def window (so : StoredObligation H) (ofRevision : FileContractRevision H → UInt64)
    (ofContract : FileContract H → UInt64) : Option UInt64 :=
  match so.revisionTransactionSet.getLast? with
  | some txn => txn.fileContractRevisions.head?.map ofRevision
  | none => (so.originTransactionSet.getLast?.bind (·.fileContracts.head?)).map ofContract

/-- `expiration`. -/
def expiration (so : StoredObligation H) : Option UInt64 := so.window (·.newWindowStart) (·.windowStart)

/-- `proofDeadline`. -/
def proofDeadline (so : StoredObligation H) : Option UInt64 := so.window (·.newWindowEnd) (·.windowEnd)

end StoredObligation

/-- `resubmissionTimeout`. -/
def resubmissionTimeout : UInt64 := 3

/-- `errNoBuffer`. -/
def errNoBuffer : String := "file contract rejected because storage proof window is too close"

/-- `errNoStorageObligation`. -/
def errNoStorageObligation : String := "storage obligation not found in database"

/-- `errInsaneStorageObligationRevision`. -/
def errInsaneStorageObligationRevision : String := "revision to storage obligation does not make sense"

/-- The part of `Host` the obligation calls read and write. -/
structure ObligationState (H : Type) where
  financialMetrics : HostFinancialMetrics
  /-- `bucketStorageObligations`, keyed by obligation ID. -/
  obligations : Finmap fun _ : H => StoredObligation H
  lockedStorageObligations : Finset H
  blockHeight : UInt64

/-- What the calls outside the model return: `AddSectorBatch`, the `AddSector` calls of a
modification, `AcceptTransactionSet` and `managedQueueActionItemsForNewSO`. -/
structure Calls where
  addSectorBatch : Except String Unit
  addSectors : Except String Unit
  acceptTransactionSet : Except String Unit
  queueActionItems : Except String Unit

/-! ### The incremental updates -/

/-- `updateFinancialMetricsAddSO`. -/
def updateFinancialMetricsAddSO (fm : HostFinancialMetrics) (so : StoredObligation H) :
    HostFinancialMetrics :=
  { fm with
    contractCount := fm.contractCount + 1
    potentialContractCompensation := fm.potentialContractCompensation + so.contractCost
    lockedStorageCollateral := fm.lockedStorageCollateral + so.lockedCollateral
    potentialStorageRevenue := fm.potentialStorageRevenue + so.potentialStorageRevenue
    potentialAccountFunding := fm.potentialAccountFunding + so.potentialAccountFunding
    potentialDownloadBandwidthRevenue :=
      fm.potentialDownloadBandwidthRevenue + so.potentialDownloadRevenue
    potentialUploadBandwidthRevenue := fm.potentialUploadBandwidthRevenue + so.potentialUploadRevenue
    riskedStorageCollateral := fm.riskedStorageCollateral + so.riskedCollateral
    transactionFeeExpenses := fm.transactionFeeExpenses + so.transactionFeesAdded }

/-- `updateFinancialMetricsUpdateSO`: the new values are added to each field, then the old ones
taken away. -/
def updateFinancialMetricsUpdateSO (fm : HostFinancialMetrics) (oldSO newSO : StoredObligation H) :
    HostFinancialMetrics :=
  { fm with
    potentialContractCompensation :=
      fm.potentialContractCompensation + newSO.contractCost - oldSO.contractCost
    lockedStorageCollateral :=
      fm.lockedStorageCollateral + newSO.lockedCollateral - oldSO.lockedCollateral
    potentialAccountFunding :=
      fm.potentialAccountFunding + newSO.potentialAccountFunding - oldSO.potentialAccountFunding
    potentialStorageRevenue :=
      fm.potentialStorageRevenue + newSO.potentialStorageRevenue - oldSO.potentialStorageRevenue
    potentialDownloadBandwidthRevenue := fm.potentialDownloadBandwidthRevenue +
      newSO.potentialDownloadRevenue - oldSO.potentialDownloadRevenue
    potentialUploadBandwidthRevenue := fm.potentialUploadBandwidthRevenue +
      newSO.potentialUploadRevenue - oldSO.potentialUploadRevenue
    riskedStorageCollateral :=
      fm.riskedStorageCollateral + newSO.riskedCollateral - oldSO.riskedCollateral
    transactionFeeExpenses :=
      fm.transactionFeeExpenses + newSO.transactionFeesAdded - oldSO.transactionFeesAdded }

/-- The block each ending of `removeStorageObligation` repeats: "Remove the obligation statistics
as potential risk and income." -/
def removePotentials (fm : HostFinancialMetrics) (so : StoredObligation H) : HostFinancialMetrics :=
  { fm with
    potentialAccountFunding := fm.potentialAccountFunding - so.potentialAccountFunding
    potentialContractCompensation := fm.potentialContractCompensation - so.contractCost
    lockedStorageCollateral := fm.lockedStorageCollateral - so.lockedCollateral
    potentialStorageRevenue := fm.potentialStorageRevenue - so.potentialStorageRevenue
    potentialDownloadBandwidthRevenue :=
      fm.potentialDownloadBandwidthRevenue - so.potentialDownloadRevenue
    potentialUploadBandwidthRevenue := fm.potentialUploadBandwidthRevenue - so.potentialUploadRevenue
    riskedStorageCollateral := fm.riskedStorageCollateral - so.riskedCollateral }

/-- What `removeStorageObligation` does to the metrics, by the status the obligation ends with. -/
def updateFinancialMetricsRemoveSO (fm : HostFinancialMetrics) (so : StoredObligation H)
    (sos : StorageObligationStatus) : HostFinancialMetrics :=
  -- a rejection takes the fees back, and the potentials only when the fees cover them
  let fm := if sos = .obligationRejected ∧ so.transactionFeesAdded ≤ fm.transactionFeeExpenses then
      removePotentials
        { fm with transactionFeeExpenses := fm.transactionFeeExpenses - so.transactionFeesAdded } so
    else fm
  let fm := if sos = .obligationSucceeded then
      { removePotentials fm so with
        accountFunding := fm.accountFunding + so.potentialAccountFunding
        contractCompensation := fm.contractCompensation + so.contractCost
        storageRevenue := fm.storageRevenue + so.potentialStorageRevenue
        downloadBandwidthRevenue := fm.downloadBandwidthRevenue + so.potentialDownloadRevenue
        uploadBandwidthRevenue := fm.uploadBandwidthRevenue + so.potentialUploadRevenue }
    else fm
  let fm := if sos = .obligationFailed then
      { removePotentials fm so with
        lostStorageCollateral := fm.lostStorageCollateral + so.riskedCollateral
        lostRevenue := fm.lostRevenue + so.contractCost + so.potentialStorageRevenue +
          so.potentialDownloadRevenue + so.potentialUploadRevenue + so.potentialAccountFunding }
    else fm
  { fm with contractCount := fm.contractCount - 1 }

/-! ### The recomputation -/

/-- One obligation of the scan in `resetFinancialMetrics`. -/
def resetObligation (fm : HostFinancialMetrics) (so : StoredObligation H) : HostFinancialMetrics :=
  -- transaction fees are always added
  let fm := { fm with transactionFeeExpenses := fm.transactionFeeExpenses + so.transactionFeesAdded }
  match so.obligationStatus with
  | .obligationUnresolved =>
    { fm with
      contractCount := fm.contractCount + 1
      potentialAccountFunding := fm.potentialAccountFunding + so.potentialAccountFunding
      potentialContractCompensation := fm.potentialContractCompensation + so.contractCost
      lockedStorageCollateral := fm.lockedStorageCollateral + so.lockedCollateral
      potentialStorageRevenue := fm.potentialStorageRevenue + so.potentialStorageRevenue
      riskedStorageCollateral := fm.riskedStorageCollateral + so.riskedCollateral
      potentialDownloadBandwidthRevenue :=
        fm.potentialDownloadBandwidthRevenue + so.potentialDownloadRevenue
      potentialUploadBandwidthRevenue :=
        fm.potentialUploadBandwidthRevenue + so.potentialUploadRevenue }
  | .obligationSucceeded =>
    { fm with
      accountFunding := fm.accountFunding + so.potentialAccountFunding
      contractCompensation := fm.contractCompensation + so.contractCost
      storageRevenue := fm.storageRevenue + so.potentialStorageRevenue
      downloadBandwidthRevenue := fm.downloadBandwidthRevenue + so.potentialDownloadRevenue
      uploadBandwidthRevenue := fm.uploadBandwidthRevenue + so.potentialUploadRevenue }
  | .obligationFailed =>
    -- only the contract compensation, unless collateral was at risk
    let fm := { fm with contractCompensation := fm.contractCompensation + so.contractCost }
    if so.riskedCollateral ≠ 0 then
      { fm with
        lostRevenue := fm.lostRevenue + so.potentialStorageRevenue + so.potentialDownloadRevenue +
          so.potentialUploadRevenue + so.potentialAccountFunding
        lostStorageCollateral := fm.lostStorageCollateral + so.riskedCollateral }
    else fm
  | .obligationRejected => fm

/-- Each obligation adds a term of its own to the metrics. -/
theorem resetObligation_eq_plus (fm : HostFinancialMetrics) (so : StoredObligation H) :
    resetObligation fm so = fm.plus (resetObligation {} so) := by
  cases status : so.obligationStatus with
  | obligationFailed =>
    -- the lost revenue is added as one sum
    by_cases risked : so.riskedCollateral = 0 <;>
      ext <;> simp [resetObligation, HostFinancialMetrics.plus, status, risked, Nat.add_assoc]
  | _ => ext <;> simp [resetObligation, HostFinancialMetrics.plus, status]

instance : RightCommutative (resetObligation : HostFinancialMetrics → StoredObligation H → _) :=
  ⟨fun fm a b => by
    rw [resetObligation_eq_plus (resetObligation fm a), resetObligation_eq_plus fm,
      resetObligation_eq_plus (resetObligation fm b), resetObligation_eq_plus fm b,
      HostFinancialMetrics.plus_right_comm]⟩

/-- `resetFinancialMetrics`: the metrics recomputed from zero over the stored obligations, in
whatever order the scan meets them. -/
def resetFinancialMetrics (h : ObligationState H) : ObligationState H :=
  { h with financialMetrics := h.obligations.values.foldl resetObligation {} }

/-- The metrics equal their recomputation. -/
def Agrees (h : ObligationState H) : Prop :=
  h.financialMetrics = (resetFinancialMetrics h).financialMetrics

/-! ### The updates against the recomputation

Each lemma starts from metrics that count an unresolved obligation as the recomputation does, and
compares what a call does to them with what the recomputation gives for the obligation it
stores. -/

theorem resetObligation_unresolved {fm : HostFinancialMetrics} {so : StoredObligation H}
    (unresolved : so.obligationStatus = .obligationUnresolved) :
    resetObligation fm so = updateFinancialMetricsAddSO fm so := by
  ext <;> simp [resetObligation, updateFinancialMetricsAddSO, unresolved]

/-- Replacing one unresolved obligation by another moves every field from the old values to the
new ones, and none falls below zero on the way. -/
theorem updateFinancialMetricsUpdateSO_resetObligation {fm : HostFinancialMetrics}
    {oldSO newSO : StoredObligation H} (oldUnresolved : oldSO.obligationStatus = .obligationUnresolved)
    (newUnresolved : newSO.obligationStatus = .obligationUnresolved) :
    updateFinancialMetricsUpdateSO (resetObligation fm oldSO) oldSO newSO = resetObligation fm newSO := by
  rw [resetObligation_unresolved oldUnresolved, resetObligation_unresolved newUnresolved]
  ext <;> simp [updateFinancialMetricsUpdateSO, updateFinancialMetricsAddSO] <;> grind

/-- Succeeding moves the potential revenue to the revenue, as the recomputation counts it. -/
theorem updateFinancialMetricsRemoveSO_succeeded {fm : HostFinancialMetrics} {so : StoredObligation H}
    (unresolved : so.obligationStatus = .obligationUnresolved) :
    updateFinancialMetricsRemoveSO (resetObligation fm so) so .obligationSucceeded =
      resetObligation fm { so with obligationStatus := .obligationSucceeded, sectorRoots := [] } := by
  rw [resetObligation_unresolved unresolved]
  ext <;> simp [updateFinancialMetricsRemoveSO, updateFinancialMetricsAddSO, removePotentials,
    resetObligation]

/-- Failing books the contract cost as lost revenue, where the recomputation counts it as
compensation; and the recomputation loses no revenue when no collateral was at risk. -/
theorem updateFinancialMetricsRemoveSO_failed (fm : HostFinancialMetrics) {so : StoredObligation H}
    (unresolved : so.obligationStatus = .obligationUnresolved) :
    (updateFinancialMetricsRemoveSO (resetObligation fm so) so .obligationFailed).contractCompensation +
        so.contractCost =
      (resetObligation fm { so with obligationStatus := .obligationFailed, sectorRoots := [] }).contractCompensation ∧
    (updateFinancialMetricsRemoveSO (resetObligation fm so) so .obligationFailed).lostRevenue =
      (resetObligation fm { so with obligationStatus := .obligationFailed, sectorRoots := [] }).lostRevenue +
        so.contractCost + if so.riskedCollateral = 0 then so.potentialStorageRevenue +
          so.potentialDownloadRevenue + so.potentialUploadRevenue + so.potentialAccountFunding else 0 := by
  rw [resetObligation_unresolved unresolved]
  by_cases risked : so.riskedCollateral = 0 <;>
    simp [updateFinancialMetricsRemoveSO, updateFinancialMetricsAddSO, removePotentials,
      resetObligation, risked] <;> grind

/-- Rejecting takes back the transaction fees, which the recomputation always counts. -/
theorem updateFinancialMetricsRemoveSO_rejected (fm : HostFinancialMetrics) {so : StoredObligation H}
    (unresolved : so.obligationStatus = .obligationUnresolved) :
    (updateFinancialMetricsRemoveSO (resetObligation fm so) so .obligationRejected).transactionFeeExpenses +
        so.transactionFeesAdded =
      (resetObligation fm
        { so with obligationStatus := .obligationRejected, sectorRoots := [] }).transactionFeeExpenses := by
  rw [resetObligation_unresolved unresolved]
  simp [updateFinancialMetricsRemoveSO, updateFinancialMetricsAddSO, removePotentials, resetObligation]

@[simp] theorem resetFinancialMetrics_financialMetrics (h : ObligationState H) :
    (resetFinancialMetrics h).financialMetrics = h.obligations.values.foldl resetObligation {} := rfl

/-! ### The calls -/

variable [DecidableEq H] (fileContractID : Transaction H → ℕ → H)

/-- `putStorageObligation`: the obligation stored under its ID, over what was there. -/
def putStorageObligation (obligations : Finmap fun _ : H => StoredObligation H)
    (so : StoredObligation H) : Option (Finmap fun _ : H => StoredObligation H) :=
  (so.id fileContractID).map fun soid => obligations.insert soid so

/-- `removeStorageObligation`: the metrics move by the status the obligation ends with, and the
obligation stays stored with that status and no sector roots. -/
def removeStorageObligation (h : ObligationState H) (so : StoredObligation H)
    (sos : StorageObligationStatus) : Option (ObligationState H) := do
  let obligations ← putStorageObligation fileContractID h.obligations
    { so with obligationStatus := sos, sectorRoots := [] }
  pure { h with
    financialMetrics := updateFinancialMetricsRemoveSO h.financialMetrics so sos
    obligations := obligations }

/-- `managedAddStorageObligation`. A failure of the transaction pool leaves the obligation stored;
a failure to queue its action items removes it as rejected. -/
def managedAddStorageObligation (h : ObligationState H) (so : StoredObligation H) (calls : Calls) :
    Option (ObligationState H × Except String Unit) := do
  let soid ← so.id fileContractID
  if soid ∉ h.lockedStorageObligations then
    return (h, .error "addStorageObligation called with an obligation that is not locked")
  let expiration ← so.expiration
  if h.blockHeight + revisionSubmissionBuffer ≥ expiration then
    return (h, .error errNoBuffer)
  let proofDeadline ← so.proofDeadline
  if expiration + resubmissionTimeout ≥ proofDeadline then
    return (h, .error "fill me in")
  -- a renewal's sectors are added again first, and their failure aborts the database update
  if so.sectorRoots ≠ [] then
    if let .error err := calls.addSectorBatch then
      return (h, .error err)
  let obligations ← putStorageObligation fileContractID h.obligations so
  let h := { h with
    obligations := obligations
    financialMetrics := updateFinancialMetricsAddSO h.financialMetrics so }
  if let .error err := calls.acceptTransactionSet then
    return (h, .error err)
  if let .error err := calls.queueActionItems then
    let h ← removeStorageObligation fileContractID h so .obligationRejected
    return (h, .error err)
  return (h, .ok ())

/-- `managedModifyStorageObligation`, with the sectors gained as pairs of root and data. The
sectors it removes only reach the contract manager. -/
def managedModifyStorageObligation (h : ObligationState H) (so : StoredObligation H)
    (sectorsGained : List (H × List UInt8)) (calls : Calls) :
    Option (ObligationState H × Except String Unit) := do
  if sectorsGained.any fun gained => gained.2.length.toUInt64 ≠ sectorSize then
    return (h, .error errInsaneStorageObligationRevision)
  let soid ← so.id fileContractID
  if soid ∉ h.lockedStorageObligations then
    return (h, .error "modifyStorageObligation called with an obligation that is not locked")
  let expiration ← so.expiration
  if expiration - revisionSubmissionBuffer ≤ h.blockHeight then
    return (h, .error errNoBuffer)
  if let .error err := calls.addSectors then
    return (h, .error err)
  let some oldSO := h.obligations.lookup soid
    | return (h, .error errNoStorageObligation)
  let obligations ← putStorageObligation fileContractID h.obligations so
  return ({ h with
    obligations := obligations
    financialMetrics := updateFinancialMetricsUpdateSO h.financialMetrics oldSO so }, .ok ())

/-- `managedAddRenewedStorageObligation`. When the transaction pool rejects the renewal, the old
obligation is put back, its metrics are moved back, and the new one is removed as rejected. -/
def managedAddRenewedStorageObligation (h : ObligationState H) (oldSO newSO : StoredObligation H)
    (calls : Calls) : Option (ObligationState H × Except String Unit) := do
  let oldID ← oldSO.id fileContractID
  let newID ← newSO.id fileContractID
  if oldID ∉ h.lockedStorageObligations ∨ newID ∉ h.lockedStorageObligations then
    return (h, .error
      "managedAddRenewedStorageObligation called with an obligation that is not locked")
  let some oldSOBefore := h.obligations.lookup oldID
    | return (h, .error "managedAddRenewedStorageObligation: failed to modify oldSO")
  let renewed ← putStorageObligation fileContractID h.obligations oldSO
  let renewed ← putStorageObligation fileContractID renewed newSO
  let h := { h with
    obligations := renewed
    financialMetrics := updateFinancialMetricsAddSO
      (updateFinancialMetricsUpdateSO h.financialMetrics oldSOBefore oldSO) newSO }
  if let .error err := calls.acceptTransactionSet then
    let restored ← putStorageObligation fileContractID h.obligations oldSOBefore
    let h := { h with
      obligations := restored
      financialMetrics := updateFinancialMetricsUpdateSO h.financialMetrics oldSO oldSOBefore }
    let h ← removeStorageObligation fileContractID h newSO .obligationRejected
    return (h, .error err)
  if let .error err := calls.queueActionItems then
    let h ← removeStorageObligation fileContractID h newSO .obligationRejected
    return (h, .error err)
  return (h, .ok ())

/-! ### What each call stores -/

variable {fileContractID}

theorem putStorageObligation_of_id {m : Finmap fun _ : H => StoredObligation H}
    {so : StoredObligation H} {k : H} (named : so.id fileContractID = some k) :
    putStorageObligation fileContractID m so = some (m.insert k so) := by
  simp [putStorageObligation, named]

theorem removeStorageObligation_of_id {h : ObligationState H} {so : StoredObligation H} {k : H}
    (named : so.id fileContractID = some k) (sos : StorageObligationStatus) :
    removeStorageObligation fileContractID h so sos = some { h with
      financialMetrics := updateFinancialMetricsRemoveSO h.financialMetrics so sos
      obligations := h.obligations.insert k { so with obligationStatus := sos, sectorRoots := [] } } := by
  have stillNamed : ({ so with obligationStatus := sos, sectorRoots := [] } : StoredObligation H).id
      fileContractID = some k := named
  simp [removeStorageObligation, putStorageObligation_of_id stillNamed]

/-- An accepted obligation is stored under its ID and added to the metrics. -/
theorem managedAddStorageObligation_ok {h h' : ObligationState H} {so : StoredObligation H}
    {calls : Calls} (added : managedAddStorageObligation fileContractID h so calls = some (h', .ok ())) :
    ∃ k, so.id fileContractID = some k ∧
      h' = { h with
        obligations := h.obligations.insert k so
        financialMetrics := updateFinancialMetricsAddSO h.financialMetrics so } := by
  cases named : so.id fileContractID with
  | none => simp [managedAddStorageObligation, named] at added
  | some k =>
    refine ⟨k, rfl, ?_⟩
    cases ending : so.expiration <;> cases deadline : so.proofDeadline <;>
      simp only [managedAddStorageObligation, named, ending, deadline, putStorageObligation_of_id named,
        removeStorageObligation_of_id named, Option.pure_def, Option.bind_eq_bind, Option.bind_some,
        Option.bind_none] at added
    -- every branch but the last returns an error or panics
    all_goals repeat' split at added
    all_goals simp_all

/-- A modification either fails and leaves the state as it was, or stores the obligation over the
one under its ID and moves the metrics from the old values to the new. -/
theorem managedModifyStorageObligation_spec {h h' : ObligationState H} {so : StoredObligation H}
    {sectorsGained : List (H × List UInt8)} {calls : Calls} {result : Except String Unit}
    (modified : managedModifyStorageObligation fileContractID h so sectorsGained calls =
      some (h', result)) :
    (result ≠ .ok () ∧ h' = h) ∨
      (result = .ok () ∧ ∃ k oldSO, so.id fileContractID = some k ∧
        h.obligations.lookup k = some oldSO ∧
        h' = { h with
          obligations := h.obligations.insert k so
          financialMetrics := updateFinancialMetricsUpdateSO h.financialMetrics oldSO so }) := by
  cases named : so.id fileContractID <;> cases ending : so.expiration <;>
    simp only [managedModifyStorageObligation, named, ending, putStorageObligation, Option.map_some,
      Option.pure_def, Option.bind_eq_bind, Option.bind_some, Option.bind_none] at modified
  -- the checks return an error with the state unchanged; the last branch stores
  all_goals repeat' split at modified
  all_goals cases modified
  all_goals simp_all

/-- An accepted renewal stores the old obligation's new values and the new obligation, moving the
metrics from the old obligation's stored values. -/
theorem managedAddRenewedStorageObligation_ok {h h' : ObligationState H}
    {oldSO newSO : StoredObligation H} {calls : Calls}
    (renewed : managedAddRenewedStorageObligation fileContractID h oldSO newSO calls =
      some (h', .ok ())) :
    ∃ oldID newID oldSOBefore, oldSO.id fileContractID = some oldID ∧
      newSO.id fileContractID = some newID ∧ h.obligations.lookup oldID = some oldSOBefore ∧
      h' = { h with
        obligations := (h.obligations.insert oldID oldSO).insert newID newSO
        financialMetrics := updateFinancialMetricsAddSO
          (updateFinancialMetricsUpdateSO h.financialMetrics oldSOBefore oldSO) newSO } := by
  cases oldNamed : oldSO.id fileContractID with
  | none => simp [managedAddRenewedStorageObligation, oldNamed] at renewed
  | some oldID =>
    cases newNamed : newSO.id fileContractID with
    | none => simp [managedAddRenewedStorageObligation, oldNamed, newNamed] at renewed
    | some newID =>
      cases found : h.obligations.lookup oldID with
      | none =>
        simp only [managedAddRenewedStorageObligation, oldNamed, newNamed, found,
          Option.pure_def, Option.bind_eq_bind, Option.bind_some] at renewed
        split at renewed <;> simp_all
      | some oldSOBefore =>
        refine ⟨oldID, newID, oldSOBefore, rfl, rfl, found, ?_⟩
        cases beforeNamed : oldSOBefore.id fileContractID <;>
          simp only [managedAddRenewedStorageObligation, oldNamed, newNamed, found, beforeNamed,
            removeStorageObligation_of_id newNamed, putStorageObligation, Option.map_some,
            Option.map_none, Option.pure_def, Option.bind_eq_bind, Option.bind_some,
            Option.bind_none] at renewed
        -- the rejections and the failed queueing return errors
        all_goals repeat' split at renewed
        all_goals simp_all

/-! ### Agreement -/

/-- Storing an unresolved obligation under a new ID, with its values added to the metrics. -/
theorem Agrees.insert_fresh {h : ObligationState H} {so : StoredObligation H} {k : H}
    (agrees : Agrees h) (fresh : k ∉ h.obligations)
    (unresolved : so.obligationStatus = .obligationUnresolved) :
    Agrees { h with
      obligations := h.obligations.insert k so
      financialMetrics := updateFinancialMetricsAddSO h.financialMetrics so } := by
  dsimp only [Agrees, resetFinancialMetrics_financialMetrics] at agrees ⊢
  -- the scan of the new bucket counts the obligation last
  rw [agrees, Finmap.foldl_values_insert, Finmap.erase_of_notMem fresh,
    resetObligation_unresolved unresolved]

/-- Storing an unresolved obligation over another, with the metrics moved from the old values. -/
theorem Agrees.replace {h : ObligationState H} {oldSO newSO : StoredObligation H} {k : H}
    (agrees : Agrees h) (found : h.obligations.lookup k = some oldSO)
    (oldUnresolved : oldSO.obligationStatus = .obligationUnresolved)
    (newUnresolved : newSO.obligationStatus = .obligationUnresolved) :
    Agrees { h with
      obligations := h.obligations.insert k newSO
      financialMetrics := updateFinancialMetricsUpdateSO h.financialMetrics oldSO newSO } := by
  dsimp only [Agrees, resetFinancialMetrics_financialMetrics] at agrees ⊢
  rw [agrees, Finmap.foldl_values_of_lookup _ _ found,
    updateFinancialMetricsUpdateSO_resetObligation oldUnresolved newUnresolved,
    Finmap.foldl_values_insert]

/-- Removing a stored unresolved obligation, against the recomputation: both start from the
metrics of the other obligations, the call from the removed obligation's unresolved values, the
recomputation from its values with the new status. -/
theorem removeStorageObligation_against_reset {h : ObligationState H} {so : StoredObligation H}
    {k : H} (agrees : Agrees h) (named : so.id fileContractID = some k)
    (found : h.obligations.lookup k = some so) (sos : StorageObligationStatus) :
    ∃ h', removeStorageObligation fileContractID h so sos = some h' ∧
      h'.financialMetrics = updateFinancialMetricsRemoveSO
        (resetObligation ((h.obligations.erase k).values.foldl resetObligation {}) so) so sos ∧
      (resetFinancialMetrics h').financialMetrics =
        resetObligation ((h.obligations.erase k).values.foldl resetObligation {})
          { so with obligationStatus := sos, sectorRoots := [] } := by
  refine ⟨_, removeStorageObligation_of_id named sos, ?_, ?_⟩
  · dsimp only [Agrees, resetFinancialMetrics_financialMetrics] at agrees ⊢
    rw [agrees, Finmap.foldl_values_of_lookup _ _ found]
  · dsimp only [resetFinancialMetrics_financialMetrics]
    rw [Finmap.foldl_values_insert]

/-- Removing a stored unresolved obligation as succeeded keeps the metrics in agreement. -/
theorem Agrees.remove_succeeded {h : ObligationState H} {so : StoredObligation H} {k : H}
    (agrees : Agrees h) (named : so.id fileContractID = some k)
    (found : h.obligations.lookup k = some so)
    (unresolved : so.obligationStatus = .obligationUnresolved) :
    ∃ h', removeStorageObligation fileContractID h so .obligationSucceeded = some h' ∧ Agrees h' := by
  obtain ⟨h', removed, metrics, recomputed⟩ :=
    removeStorageObligation_against_reset agrees named found .obligationSucceeded
  refine ⟨h', removed, ?_⟩
  rw [Agrees, metrics, recomputed, updateFinancialMetricsRemoveSO_succeeded unresolved]

theorem managedAddStorageObligation_agrees {h h' : ObligationState H} {so : StoredObligation H}
    {calls : Calls} (agrees : Agrees h) (fresh : ∀ k ∈ so.id fileContractID, k ∉ h.obligations)
    (unresolved : so.obligationStatus = .obligationUnresolved)
    (added : managedAddStorageObligation fileContractID h so calls = some (h', .ok ())) :
    Agrees h' := by
  obtain ⟨k, named, rfl⟩ := managedAddStorageObligation_ok added
  exact agrees.insert_fresh (fresh k named) unresolved

theorem managedModifyStorageObligation_agrees {h h' : ObligationState H} {so : StoredObligation H}
    {sectorsGained : List (H × List UInt8)} {calls : Calls} {result : Except String Unit}
    (agrees : Agrees h)
    (stored : ∀ k ∈ so.id fileContractID, ∀ oldSO, h.obligations.lookup k = some oldSO →
      oldSO.obligationStatus = .obligationUnresolved)
    (unresolved : so.obligationStatus = .obligationUnresolved)
    (modified : managedModifyStorageObligation fileContractID h so sectorsGained calls =
      some (h', result)) :
    Agrees h' := by
  rcases managedModifyStorageObligation_spec modified with ⟨-, rfl⟩ | ⟨-, k, oldSO, named, found, rfl⟩
  · exact agrees
  · exact agrees.replace found (stored k named oldSO found) unresolved

theorem managedAddRenewedStorageObligation_agrees {h h' : ObligationState H}
    {oldSO newSO : StoredObligation H} {calls : Calls} (agrees : Agrees h)
    (stored : ∀ k ∈ oldSO.id fileContractID, ∀ oldSOBefore, h.obligations.lookup k = some oldSOBefore →
      oldSOBefore.obligationStatus = .obligationUnresolved)
    (oldUnresolved : oldSO.obligationStatus = .obligationUnresolved)
    (fresh : ∀ k ∈ newSO.id fileContractID, k ∉ h.obligations)
    (newUnresolved : newSO.obligationStatus = .obligationUnresolved)
    (renewed : managedAddRenewedStorageObligation fileContractID h oldSO newSO calls =
      some (h', .ok ())) :
    Agrees h' := by
  obtain ⟨oldID, newID, oldSOBefore, oldNamed, newNamed, found, rfl⟩ :=
    managedAddRenewedStorageObligation_ok renewed
  have moved := agrees.replace found (stored oldID oldNamed oldSOBefore found) oldUnresolved
  -- the new ID is not the old one, which is stored
  have apart : newID ∉ h.obligations.insert oldID oldSO := by
    rw [Finmap.mem_insert, not_or]
    exact ⟨fun same => fresh newID newNamed (same ▸ Finmap.mem_of_lookup_eq_some found),
      fresh newID newNamed⟩
  exact moved.insert_fresh apart newUnresolved

/-- Starting from metrics that agree with their recomputation, a new obligation with a contract
cost that is accepted and then fails leaves the contract compensation short of the recomputation
by that cost. -/
theorem failed_obligation_breaks_metrics {h h₁ : ObligationState H} {so : StoredObligation H}
    {calls : Calls} (agrees : Agrees h) (fresh : ∀ k ∈ so.id fileContractID, k ∉ h.obligations)
    (unresolved : so.obligationStatus = .obligationUnresolved) (paid : 0 < so.contractCost)
    (added : managedAddStorageObligation fileContractID h so calls = some (h₁, .ok ())) :
    Agrees h₁ ∧ ∃ h₂, removeStorageObligation fileContractID h₁ so .obligationFailed = some h₂ ∧
      h₂.financialMetrics.contractCompensation + so.contractCost =
        (resetFinancialMetrics h₂).financialMetrics.contractCompensation ∧ ¬ Agrees h₂ := by
  obtain ⟨k, named, rfl⟩ := managedAddStorageObligation_ok added
  have agrees₁ := agrees.insert_fresh (fresh k named) unresolved
  obtain ⟨h₂, removed, metrics, recomputed⟩ :=
    removeStorageObligation_against_reset agrees₁ named (Finmap.lookup_insert _) .obligationFailed
  have gap := (updateFinancialMetricsRemoveSO_failed
    (((h.obligations.insert k so).erase k).values.foldl resetObligation {}) unresolved).1
  rw [← metrics, ← recomputed] at gap
  refine ⟨agrees₁, h₂, removed, gap, fun same => ?_⟩
  rw [Agrees] at same
  rw [← same] at gap
  unfold Currency at gap paid
  omega

/-- An origin transaction forming one contract whose proof window runs from height 200 to 300. -/
def sampleOriginTransaction : Transaction ℕ :=
  ⟨[], [], [⟨0, 0, 200, 300, 0, [], [], 0, 0⟩], [], [], [], [], [], [], []⟩

/-- A new obligation whose contract cost is its only value. -/
def sampleNewObligation : StoredObligation ℕ :=
  ⟨[], 1, 0, 0, 0, 0, 0, 0, 0, [sampleOriginTransaction], [], .obligationUnresolved⟩

/-- A host at height 0 holding the lock of obligation 0, with no obligations and zero metrics. -/
def sampleObligationState : ObligationState ℕ := ⟨{}, ∅, {0}, 0⟩

/-- Every call outside the model succeeds. -/
def sampleCalls : Calls := ⟨.ok (), .ok (), .ok (), .ok ()⟩

theorem sampleNewObligation_failure_off :
    ∃ h₁, managedAddStorageObligation (fun _ i => i) sampleObligationState sampleNewObligation
        sampleCalls = some (h₁, .ok ()) ∧
      Agrees h₁ ∧ ∃ h₂, removeStorageObligation (fun _ i => i) h₁ sampleNewObligation
        .obligationFailed = some h₂ ∧
        h₂.financialMetrics.contractCompensation + sampleNewObligation.contractCost =
          (resetFinancialMetrics h₂).financialMetrics.contractCompensation ∧ ¬ Agrees h₂ := by
  obtain ⟨h₁, added⟩ : ∃ h₁, managedAddStorageObligation (fun _ i => i) sampleObligationState
      sampleNewObligation sampleCalls = some (h₁, .ok ()) := ⟨_, rfl⟩
  exact ⟨h₁, added, failed_obligation_breaks_metrics (by rfl) (fun _ _ => Finmap.notMem_empty)
    rfl (by decide) added⟩

end Host

end Sia
