import Sia.FeeManager.Entries

/-! The fee manager's state and the calls that change it (`modules/feemanager/feemanager.go`,
`processfees.go` and `watchdog.go`), each with the entries it appends to the persist file. The
watchdog tracks the transactions the fee manager created and the fees each one pays; a
transaction leaves it when it is confirmed or dropped. Writes to the persist file succeed; the
wallet, the clock and the random UIDs are inputs. `build.Critical` is taken as the release build
takes it: it logs, and the code goes on. -/
namespace Sia

variable {U H : Type}

namespace FeeManager

/-- `trackedTransaction` -/
structure TrackedTransaction (U H : Type) where
  feeUIDs : List U
  txn : Transaction H

/-- `watchdog` -/
structure Watchdog (U H : Type) where
  feeUIDToTxnID : Finmap fun _ : U => H
  txns : Finmap fun _ : H => TrackedTransaction U H

end FeeManager

/-- A `FeeManager`: its fees, its watchdog, and what of its persist subsystem outlives a call. -/
structure FeeManager (U H : Type) where
  fees : Finmap fun _ : U => FeeManager.AppFee U H
  watchdog : FeeManager.Watchdog U H
  nextPayoutHeight : UInt64
  /-- `persistSubsystem.partialTxns`, which only loading the persist file fills. -/
  partialTxns : Finmap fun _ : H => FeeManager.PartialTransactions H

namespace FeeManager

/-- The fee manager `NewCustomFeeManager` makes before it reads the persist file. -/
def new : FeeManager U H := ⟨∅, ⟨∅, ∅⟩, 0, ∅⟩

/-- The errors the calls return. -/
inductive FeeError (U : Type) where
  /-- `feeNotFoundError`: "fee not found", with the UID -/
  | feeNotFound (feeUID : U)
  /-- "Cannot cancel a fee if the payment has already been completed" -/
  | paymentCompleted
  /-- "Cannot cancel a fee if the transaction has already been created" -/
  | transactionCreated
  /-- "Cannot cancel a fee that is being tracked by the watchdog" -/
  | trackedByWatchdog
  /-- "fee %v is already marked as transaction created but was submitted for processing" -/
  | alreadyMarkedCreated (feeUID : U)
  /-- "unable to build transaction for fee" -/
  | buildTransaction
  /-- `errTxnNotFound`: "transaction not found in the watchdog" -/
  | txnNotFound
  /-- `errTxnExists`: "transaction already exists in the watchdog" -/
  | txnExists

/-- `PayoutInterval`: `types.BlocksPerMonth` of the standard build. -/
def payoutInterval : UInt64 := 4320

section Calls

variable [DecidableEq U] [DecidableEq H] [HashBytes H] (transactionID : Transaction H → H)

/-! ### The watchdog -/

/-- `addFeesToTransaction` -/
def Watchdog.addFeesToTransaction (w : Watchdog U H) (feeUIDs : List U)
    (tt : TrackedTransaction U H) : Watchdog U H :=
  let txnID := transactionID tt.txn
  ⟨feeUIDs.foldl (fun m feeUID => m.insert feeUID txnID) w.feeUIDToTxnID,
    w.txns.insert txnID { tt with feeUIDs := tt.feeUIDs ++ feeUIDs }⟩

/-- `callAddFeesToTransaction` -/
def Watchdog.callAddFeesToTransaction (w : Watchdog U H) (feeUIDs : List U) (txnID : H) :
    Except (FeeError U) (Watchdog U H) :=
  match w.txns.lookup txnID with
  | none => .error .txnNotFound
  | some tt => .ok (w.addFeesToTransaction transactionID feeUIDs tt)

/-- `clearTransaction`: a fee leaves the map only while it still names this transaction. -/
def Watchdog.clearTransaction (w : Watchdog U H) (tt : TrackedTransaction U H) : Watchdog U H :=
  let txnID := transactionID tt.txn
  ⟨tt.feeUIDs.foldl (fun m feeUID => if m.lookup feeUID = some txnID then m.erase feeUID else m)
      w.feeUIDToTxnID,
    w.txns.erase txnID⟩

/-- `callClearTransaction` -/
def Watchdog.callClearTransaction (w : Watchdog U H) (txnID : H) :
    Except (FeeError U) (Watchdog U H) :=
  match w.txns.lookup txnID with
  | none => .error .txnNotFound
  | some tt => .ok (w.clearTransaction transactionID tt)

/-- `callMonitorTransaction` -/
def Watchdog.callMonitorTransaction (w : Watchdog U H) (feeUIDs : List U) (txn : Transaction H) :
    Except (FeeError U) (Watchdog U H) :=
  if transactionID txn ∈ w.txns then .error .txnExists
  else .ok (w.addFeesToTransaction transactionID feeUIDs ⟨[], txn⟩)

theorem Watchdog.lookup_addFeesToTransaction (w : Watchdog U H) (feeUIDs : List U)
    (tt : TrackedTransaction U H) :
    (w.addFeesToTransaction transactionID feeUIDs tt).txns.lookup (transactionID tt.txn) =
      some { tt with feeUIDs := tt.feeUIDs ++ feeUIDs } :=
  Finmap.lookup_insert _

theorem Watchdog.addFeesToTransaction_nil (w : Watchdog U H) (tt : TrackedTransaction U H)
    (tracked : w.txns.lookup (transactionID tt.txn) = some tt) :
    w.addFeesToTransaction transactionID [] tt = w := by
  simp only [addFeesToTransaction, List.foldl_nil, List.append_nil]
  rw [← Finmap.insert_erase_eq, Finmap.insert_erase_of_lookup tracked]

/-- Fees added in two calls are the fees added in one. -/
theorem Watchdog.addFeesToTransaction_append (w : Watchdog U H) (first later : List U)
    (tt : TrackedTransaction U H) :
    (w.addFeesToTransaction transactionID first tt).addFeesToTransaction transactionID later
        { tt with feeUIDs := tt.feeUIDs ++ first } =
      w.addFeesToTransaction transactionID (first ++ later) tt := by
  simp only [addFeesToTransaction, List.foldl_append, Finmap.insert_insert, List.append_assoc]

theorem Watchdog.lookup_clearTransaction (w : Watchdog U H) (tt : TrackedTransaction U H) :
    (w.clearTransaction transactionID tt).txns.lookup (transactionID tt.txn) = none :=
  Finmap.lookup_erase _ _

/-! ### The fee manager's calls -/

/-- A change to the fee a UID names, made through the map's pointer; a missing fee is skipped. -/
def setFee (f : AppFee U H → AppFee U H) (fees : Finmap fun _ : U => AppFee U H) (feeUID : U) :
    Finmap fun _ : U => AppFee U H :=
  match fees.lookup feeUID with
  | none => fees
  | some fee => fees.insert feeUID (f fee)

theorem mem_setFee {f : AppFee U H → AppFee U H} {fees : Finmap fun _ : U => AppFee U H}
    {feeUID other : U} : other ∈ setFee f fees feeUID ↔ other ∈ fees := by
  unfold setFee
  split
  · rfl
  · next found =>
    rw [Finmap.mem_insert]
    constructor
    · rintro (rfl | kept)
      · exact Finmap.mem_iff.mpr ⟨_, found⟩
      · exact kept
    · exact .inr

theorem mem_foldl_setFee {f : AppFee U H → AppFee U H} (feeUIDs : List U)
    {fees : Finmap fun _ : U => AppFee U H} {other : U} :
    other ∈ feeUIDs.foldl (setFee f) fees ↔ other ∈ fees := by
  induction feeUIDs generalizing fees with
  | nil => rfl
  | cons feeUID rest ih => rw [List.foldl_cons, ih, mem_setFee]

theorem lookup_setFee (f : AppFee U H → AppFee U H) (fees : Finmap fun _ : U => AppFee U H)
    (feeUID other : U) :
    (setFee f fees feeUID).lookup other =
      if other = feeUID then (fees.lookup other).map f else fees.lookup other := by
  unfold setFee
  split
  · next missing =>
    split
    · next same => rw [same, missing]; rfl
    · rfl
  · next fee found =>
    split
    · next same => rw [same, Finmap.lookup_insert, found]; rfl
    · next other => rw [Finmap.lookup_insert_of_ne _ other]

theorem lookup_foldl_setFee_of_notMem (f : AppFee U H → AppFee U H) (feeUIDs : List U)
    (fees : Finmap fun _ : U => AppFee U H) {other : U} (absent : other ∉ feeUIDs) :
    (feeUIDs.foldl (setFee f) fees).lookup other = fees.lookup other := by
  induction feeUIDs generalizing fees with
  | nil => rfl
  | cons feeUID rest ih =>
    rw [List.mem_cons, not_or] at absent
    rw [List.foldl_cons, ih _ absent.2, lookup_setFee, if_neg absent.1]

/-- Setting a flag on the fees of a list: each fee of the list gets it once, however often it is
named. -/
theorem lookup_foldl_setFee_of_mem (f : AppFee U H → AppFee U H)
    (idempotent : ∀ fee, f (f fee) = f fee) (feeUIDs : List U)
    (fees : Finmap fun _ : U => AppFee U H) {other : U} (member : other ∈ feeUIDs) :
    (feeUIDs.foldl (setFee f) fees).lookup other = (fees.lookup other).map f := by
  induction feeUIDs generalizing fees with
  | nil => exact absurd member List.not_mem_nil
  | cons feeUID rest ih =>
    rw [List.foldl_cons]
    by_cases later : other ∈ rest
    · rw [ih _ later, lookup_setFee]
      split
      · rw [Option.map_map]
        congr 1
        funext fee
        exact idempotent fee
      · rfl
    · have same : other = feeUID := (List.mem_cons.mp member).resolve_right later
      rw [lookup_foldl_setFee_of_notMem f rest _ later, lookup_setFee, if_pos same]

/-- `AddFee`: `synced`, `timestamp` and `feeUID` are what `Synced`, `time.Now` and `uniqueID`
return. -/
def addFee (fm : FeeManager U H) (address : H) (amount : Currency)
    (recurring synced : Bool) (timestamp : Int) (feeUID : U) :
    FeeManager U H × List (PersistEntry U H) :=
  let payoutHeight := if synced then fm.nextPayoutHeight + payoutInterval else 0
  let fee : AppFee U H := ⟨address, amount, feeUID, false, payoutHeight, recurring, timestamp, false⟩
  ({ fm with fees := fm.fees.insert feeUID fee }, [.addFee fee])

/-- `CancelFee` -/
def cancelFee (fm : FeeManager U H) (feeUID : U) (timestamp : Int) :
    Except (FeeError U) (FeeManager U H × List (PersistEntry U H)) :=
  match fm.fees.lookup feeUID with
  | none => .error (.feeNotFound feeUID)
  | some fee =>
    if fee.paymentCompleted then .error .paymentCompleted
    else if fee.transactionCreated then .error .transactionCreated
    else if (fm.watchdog.feeUIDToTxnID.lookup feeUID).isSome then .error .trackedByWatchdog
    else .ok ({ fm with fees := fm.fees.erase feeUID }, [.cancelFee feeUID timestamp])

/-- The update `threadedProcessFees` makes to a fee whose payout height is zero: the new height in
memory, then its entry; a fee cancelled in between is skipped. -/
def updatePayoutHeight (fm : FeeManager U H) (feeUID : U) (payoutHeight : UInt64) :
    FeeManager U H × List (PersistEntry U H) :=
  match fm.fees.lookup feeUID with
  | none => (fm, [])
  | some fee =>
    ({ fm with fees := fm.fees.insert feeUID { fee with payoutHeight := payoutHeight } },
      [.updateFee feeUID payoutHeight])

/-- The loop of `managedProcessFees` that marks every fee of the batch as having its transaction
created. It stops at the first fee that is missing or already marked, and the fees it marked
before stay marked. -/
def markTransactionCreated (fees : Finmap fun _ : U => AppFee U H) :
    List U → (Finmap fun _ : U => AppFee U H) × Except (FeeError U) Unit
  | [] => (fees, .ok ())
  | feeUID :: rest =>
    match fees.lookup feeUID with
    | none => (fees, .error (.feeNotFound feeUID))
    | some fee =>
      if fee.transactionCreated then (fees, .error (.alreadyMarkedCreated feeUID))
      else markTransactionCreated (fees.insert feeUID { fee with transactionCreated := true }) rest

/-- A batch that marks cleanly marks every fee of it, and each was there unmarked before. -/
theorem markTransactionCreated_eq_ok (fees : Finmap fun _ : U => AppFee U H) (feeUIDs : List U)
    (marked : (markTransactionCreated fees feeUIDs).2 = .ok ()) :
    (markTransactionCreated fees feeUIDs).1 =
        feeUIDs.foldl (setFee fun fee => { fee with transactionCreated := true }) fees ∧
      ∀ feeUID ∈ feeUIDs, ∃ fee, fees.lookup feeUID = some fee ∧ fee.transactionCreated = false := by
  induction feeUIDs generalizing fees with
  | nil => exact ⟨rfl, by simp⟩
  | cons feeUID rest ih =>
    cases found : fees.lookup feeUID with
    | none => simp [markTransactionCreated, found] at marked
    | some fee =>
      by_cases created : fee.transactionCreated
      · simp [markTransactionCreated, found, created] at marked
      · simp only [markTransactionCreated, found, created, Bool.false_eq_true, ↓reduceIte] at marked ⊢
        obtain ⟨folded, unmarked⟩ := ih _ marked
        refine ⟨by rw [folded, List.foldl_cons, setFee, found], ?_⟩
        intro other member
        rcases List.mem_cons.mp member with rfl | later
        · exact ⟨fee, found, by simpa using created⟩
        · -- a UID named twice finds its fee marked the second time
          obtain ⟨fee', found', unmarked'⟩ := unmarked other later
          by_cases same : other = feeUID
          · subst same
            rw [Finmap.lookup_insert] at found'
            cases found'
            simp at unmarked'
          · rw [Finmap.lookup_insert_of_ne _ same] at found'
            exact ⟨fee', found', unmarked'⟩

/-- `managedProcessFees`, with `createAndPersistTransaction`: `sent` is the transaction
`SendSiacoinsMulti` builds from the batch's outputs, `none` when it fails. The watchdog monitors
the transaction, an error there ignored, then the transaction's pieces and its created entries
are written; when the wallet fails, the batch's fees are unmarked. The source returns from the
already-marked case still holding `fm.mu`; the model returns as from a missing fee. -/
def managedProcessFees (fm : FeeManager U H) (feeUIDs : List U)
    (sent : Option (Transaction H)) (timestamp : Int) :
    FeeManager U H × List (PersistEntry U H) × Except (FeeError U) Unit :=
  match markTransactionCreated fm.fees feeUIDs with
  | (fees, .error err) => ({ fm with fees }, [], .error err)
  | (fees, .ok ()) =>
    match sent with
    | none =>
      ({ fm with
          fees := feeUIDs.foldl (setFee fun fee => { fee with transactionCreated := false }) fees },
        [], .error .buildTransaction)
    | some txn =>
      let watchdog := match fm.watchdog.callMonitorTransaction transactionID feeUIDs txn with
        | .ok w => w
        | .error _ => fm.watchdog
      ({ fm with fees, watchdog },
        (createTransactionEntrys transactionID txn).map .transaction ++
          createTransactionFeeUIDEntrys feeUIDs (transactionID txn) .transactionCreated timestamp,
        .ok ())

/-- `managedConfirmTransaction` -/
def managedConfirmTransaction (fm : FeeManager U H) (tt : TrackedTransaction U H)
    (timestamp : Int) : FeeManager U H × List (PersistEntry U H) :=
  ({ fm with
      fees := tt.feeUIDs.foldl (setFee fun fee => { fee with paymentCompleted := true }) fm.fees
      watchdog := fm.watchdog.clearTransaction transactionID tt },
    createTransactionFeeUIDEntrys tt.feeUIDs (transactionID tt.txn) .transactionConfirmed timestamp)

/-- `managedDropTransaction`: the fees are unmarked, so that a later batch pays them. -/
def managedDropTransaction (fm : FeeManager U H) (tt : TrackedTransaction U H)
    (timestamp : Int) : FeeManager U H × List (PersistEntry U H) :=
  ({ fm with
      fees := tt.feeUIDs.foldl (setFee fun fee => { fee with transactionCreated := false }) fm.fees
      watchdog := fm.watchdog.clearTransaction transactionID tt },
    createTransactionFeeUIDEntrys tt.feeUIDs (transactionID tt.txn) .transactionDropped timestamp)

/-- `callDropTransaction` -/
def callDropTransaction (fm : FeeManager U H) (txnID : H) (timestamp : Int) :
    Except (FeeError U) (FeeManager U H × List (PersistEntry U H)) :=
  match fm.watchdog.txns.lookup txnID with
  | none => .error .txnNotFound
  | some tt => .ok (fm.managedDropTransaction transactionID tt timestamp)

/-! ### Runs -/

/-- The calls a fee manager serves: the API's, one fee update and one batch of
`threadedProcessFees`, and a confirmation that `threadedMonitorTransactions` sees in the wallet. -/
inductive Event (U H : Type) where
  | addFee (address : H) (amount : Currency) (recurring synced : Bool) (timestamp : Int)
      (feeUID : U)
  | cancelFee (feeUID : U) (timestamp : Int)
  | updatePayoutHeight (feeUID : U) (payoutHeight : UInt64)
  | processFees (feeUIDs : List U) (sent : Option (Transaction H)) (timestamp : Int)
  | confirmTransaction (txnID : H) (timestamp : Int)
  | dropTransaction (txnID : H) (timestamp : Int)

/-- One call: the state it leaves and the entries it writes; a call that returns an error keeps
whatever it changed before. -/
def step (fm : FeeManager U H) : Event U H → FeeManager U H × List (PersistEntry U H)
  | .addFee address amount recurring synced timestamp feeUID =>
    fm.addFee address amount recurring synced timestamp feeUID
  | .cancelFee feeUID timestamp =>
    match fm.cancelFee feeUID timestamp with
    | .ok called => called
    | .error _ => (fm, [])
  | .updatePayoutHeight feeUID payoutHeight => fm.updatePayoutHeight feeUID payoutHeight
  | .processFees feeUIDs sent timestamp =>
    let processed := fm.managedProcessFees transactionID feeUIDs sent timestamp
    (processed.1, processed.2.1)
  | .confirmTransaction txnID timestamp =>
    match fm.watchdog.txns.lookup txnID with
    | none => (fm, [])
    | some tt => fm.managedConfirmTransaction transactionID tt timestamp
  | .dropTransaction txnID timestamp =>
    match fm.callDropTransaction transactionID txnID timestamp with
    | .ok called => called
    | .error _ => (fm, [])

/-- Calls one after another: the state they leave and every entry they wrote, in order. -/
def run (fm : FeeManager U H) : List (Event U H) →
    FeeManager U H × List (PersistEntry U H)
  | [] => (fm, [])
  | event :: events =>
    let stepped := fm.step transactionID event
    let rest := stepped.1.run events
    (rest.1, stepped.2 ++ rest.2)

/-! ### What a call can change -/

theorem unmark_mark (fee : AppFee U H) (unmarked : fee.transactionCreated = false) :
    { { fee with transactionCreated := true } with transactionCreated := false } = fee := by
  cases fee
  simp_all

/-- A batch the wallet could not pay for leaves the fees as they were. -/
theorem revert_markTransactionCreated (fees : Finmap fun _ : U => AppFee U H) (feeUIDs : List U)
    (marked : (markTransactionCreated fees feeUIDs).2 = .ok ()) :
    feeUIDs.foldl (setFee fun fee => { fee with transactionCreated := false })
      (markTransactionCreated fees feeUIDs).1 = fees := by
  obtain ⟨folded, unmarked⟩ := markTransactionCreated_eq_ok fees feeUIDs marked
  apply Finmap.ext_lookup
  intro other
  by_cases member : other ∈ feeUIDs
  · obtain ⟨fee, found, created⟩ := unmarked other member
    rw [lookup_foldl_setFee_of_mem (fun fee => { fee with transactionCreated := false })
        (fun _ => rfl) _ _ member, folded,
      lookup_foldl_setFee_of_mem (fun fee => { fee with transactionCreated := true })
        (fun _ => rfl) _ _ member, found]
    simp only [Option.map_some, unmark_mark fee created]
  · rw [lookup_foldl_setFee_of_notMem _ _ _ member, folded,
      lookup_foldl_setFee_of_notMem _ _ _ member]

/-- Marking a batch whose first part marks cleanly goes on with the rest from the marked fees. -/
theorem markTransactionCreated_append (fees : Finmap fun _ : U => AppFee U H) (pre rest : List U)
    (marked : (markTransactionCreated fees pre).2 = .ok ()) :
    markTransactionCreated fees (pre ++ rest) =
      markTransactionCreated (markTransactionCreated fees pre).1 rest := by
  induction pre generalizing fees with
  | nil => rfl
  | cons feeUID pre ih =>
    cases found : fees.lookup feeUID with
    | none => simp [markTransactionCreated, found] at marked
    | some fee =>
      by_cases created : fee.transactionCreated
      · simp [markTransactionCreated, found, created] at marked
      · simp only [markTransactionCreated, List.cons_append, found, created, Bool.false_eq_true,
          ↓reduceIte] at marked ⊢
        exact ih _ marked

/-- A batch of distinct UIDs, each naming an unmarked fee, marks cleanly. -/
theorem markTransactionCreated_ok (fees : Finmap fun _ : U => AppFee U H) (feeUIDs : List U)
    (distinct : feeUIDs.Nodup)
    (unmarked : ∀ feeUID ∈ feeUIDs, ∃ fee, fees.lookup feeUID = some fee ∧
      fee.transactionCreated = false) :
    (markTransactionCreated fees feeUIDs).2 = .ok () := by
  induction feeUIDs generalizing fees with
  | nil => rfl
  | cons feeUID rest ih =>
    obtain ⟨fee, found, created⟩ := unmarked feeUID List.mem_cons_self
    obtain ⟨fresh, restDistinct⟩ := List.nodup_cons.mp distinct
    simp only [markTransactionCreated, found, created, Bool.false_eq_true, ↓reduceIte]
    apply ih _ restDistinct
    intro other member
    have different : other ≠ feeUID := fun same => fresh (same ▸ member)
    rw [Finmap.lookup_insert_of_ne _ different]
    exact unmarked other (List.mem_cons_of_mem _ member)

/-- A batch whose last UID names no fee: `managedProcessFees` returns the fee-not-found error
and writes nothing, but the fees before it in the batch stay marked as having their
transaction created. -/
theorem processFees_keeps_marks_of_failed_batch (fm : FeeManager U H) (pre : List U)
    (missing : U) (sent : Option (Transaction H)) (timestamp : Int) (distinct : pre.Nodup)
    (unmarked : ∀ feeUID ∈ pre, ∃ fee, fm.fees.lookup feeUID = some fee ∧
      fee.transactionCreated = false)
    (absent : missing ∉ fm.fees) :
    let processed := fm.managedProcessFees transactionID (pre ++ [missing]) sent timestamp
    processed.2.2 = .error (.feeNotFound missing) ∧ processed.2.1 = [] ∧
      ∀ feeUID ∈ pre, ∃ fee, fm.fees.lookup feeUID = some fee ∧ fee.transactionCreated = false ∧
        processed.1.fees.lookup feeUID = some { fee with transactionCreated := true } := by
  have marked := markTransactionCreated_ok fm.fees pre distinct unmarked
  obtain ⟨folded, -⟩ := markTransactionCreated_eq_ok fm.fees pre marked
  have stillAbsent : (markTransactionCreated fm.fees pre).1.lookup missing = none := by
    rw [folded, Finmap.lookup_eq_none, mem_foldl_setFee]
    exact absent
  have failing : markTransactionCreated fm.fees (pre ++ [missing]) =
      ((markTransactionCreated fm.fees pre).1, .error (.feeNotFound missing)) := by
    rw [markTransactionCreated_append _ _ _ marked, markTransactionCreated, stillAbsent]
  simp only [managedProcessFees, failing, true_and]
  intro feeUID member
  obtain ⟨fee, found, created⟩ := unmarked feeUID member
  refine ⟨fee, found, created, ?_⟩
  rw [folded, lookup_foldl_setFee_of_mem (fun fee => { fee with transactionCreated := true })
    (fun _ => rfl) _ _ member, found, Option.map_some]

/-- A fee manager holding one unmarked fee, UID 1. -/
def oneFeeManager : FeeManager ℕ (Vector UInt8 32) :=
  { FeeManager.new with
    fees := (∅ : Finmap fun _ : ℕ => AppFee ℕ (Vector UInt8 32)).insert 1
      ⟨Vector.replicate 32 1, 1000, 1, false, 0, false, 0, false⟩ }

/-- The batch `[1, 2]`, where no fee has UID 2, fails and leaves fee 1 marked. -/
theorem oneFeeManager_failed_batch_marks :
    [1].Nodup ∧
      (∀ feeUID ∈ [1], ∃ fee, oneFeeManager.fees.lookup feeUID = some fee ∧
        fee.transactionCreated = false) ∧
      2 ∉ oneFeeManager.fees ∧
      let processed := oneFeeManager.managedProcessFees (fun _ => Vector.replicate 32 0)
        ([1] ++ [2]) none 0
      processed.2.2 = .error (.feeNotFound 2) ∧ processed.2.1 = [] ∧
        ∀ feeUID ∈ [1], ∃ fee, oneFeeManager.fees.lookup feeUID = some fee ∧
          fee.transactionCreated = false ∧
          processed.1.fees.lookup feeUID = some { fee with transactionCreated := true } := by
  have distinct : [1].Nodup := List.nodup_singleton 1
  have unmarked : ∀ feeUID ∈ [1], ∃ fee, oneFeeManager.fees.lookup feeUID = some fee ∧
      fee.transactionCreated = false := by
    intro feeUID member
    rw [List.mem_singleton] at member
    subst member
    exact ⟨_, Finmap.lookup_insert _, rfl⟩
  have absent : 2 ∉ oneFeeManager.fees := by
    simp [oneFeeManager, Finmap.notMem_empty]
  exact ⟨distinct, unmarked, absent, processFees_keeps_marks_of_failed_batch
    (fun _ => Vector.replicate 32 0) oneFeeManager [1] 2 none 0 distinct unmarked absent⟩

theorem cancelFee_eq_ok {fm : FeeManager U H} {feeUID : U} {timestamp : Int}
    {called : FeeManager U H × List (PersistEntry U H)}
    (cancelled : fm.cancelFee feeUID timestamp = .ok called) :
    called = ({ fm with fees := fm.fees.erase feeUID }, [.cancelFee feeUID timestamp]) := by
  unfold cancelFee at cancelled
  split at cancelled
  · cases cancelled
  · split_ifs at cancelled <;> cases cancelled
    rfl

/-- What a call can do to the state: it changes the fees, and adds fees to a transaction in the
watchdog or clears one from it. -/
theorem step_shape (fm : FeeManager U H) (event : Event U H) :
    ∃ fees watchdog, (fm.step transactionID event).1 = { fm with fees, watchdog } ∧
      (watchdog = fm.watchdog ∨
        (∃ feeUIDs tt, watchdog = fm.watchdog.addFeesToTransaction transactionID feeUIDs tt) ∨
        ∃ tt, watchdog = fm.watchdog.clearTransaction transactionID tt) := by
  cases event with
  | addFee => exact ⟨_, _, rfl, .inl rfl⟩
  | cancelFee feeUID timestamp =>
    cases cancelled : fm.cancelFee feeUID timestamp with
    | error => exact ⟨_, _, by simp only [step, cancelled] <;> rfl, .inl rfl⟩
    | ok called =>
      exact ⟨_, _, by simp only [step, cancelled, cancelFee_eq_ok cancelled] <;> rfl, .inl rfl⟩
  | updatePayoutHeight feeUID payoutHeight =>
    cases found : fm.fees.lookup feeUID with
    | none => exact ⟨_, _, by simp only [step, updatePayoutHeight, found] <;> rfl, .inl rfl⟩
    | some fee => exact ⟨_, _, by simp only [step, updatePayoutHeight, found] <;> rfl, .inl rfl⟩
  | processFees feeUIDs sent timestamp =>
    rcases marking : markTransactionCreated fm.fees feeUIDs with ⟨fees, _ | ⟨⟩⟩
    · exact ⟨_, _, by simp only [step, managedProcessFees, marking] <;> rfl, .inl rfl⟩
    · cases sent with
      | none => exact ⟨_, _, by simp only [step, managedProcessFees, marking] <;> rfl, .inl rfl⟩
      | some txn =>
        by_cases tracked : transactionID txn ∈ fm.watchdog.txns
        · exact ⟨_, _, by simp only [step, managedProcessFees, marking,
            Watchdog.callMonitorTransaction, tracked, ↓reduceIte] <;> rfl, .inl rfl⟩
        · exact ⟨_, _, by simp only [step, managedProcessFees, marking,
            Watchdog.callMonitorTransaction, tracked, ↓reduceIte] <;> rfl, .inr (.inl ⟨_, _, rfl⟩)⟩
  | confirmTransaction txnID timestamp =>
    cases found : fm.watchdog.txns.lookup txnID with
    | none => exact ⟨_, _, by simp only [step, found] <;> rfl, .inl rfl⟩
    | some tt => exact ⟨_, _, by simp only [step, found, managedConfirmTransaction] <;> rfl,
        .inr (.inr ⟨tt, rfl⟩)⟩
  | dropTransaction txnID timestamp =>
    cases found : fm.watchdog.txns.lookup txnID with
    | none => exact ⟨_, _, by simp only [step, callDropTransaction, found] <;> rfl, .inl rfl⟩
    | some tt => exact ⟨_, _, by simp only [step, callDropTransaction, found,
        managedDropTransaction] <;> rfl, .inr (.inr ⟨tt, rfl⟩)⟩

/-- The watchdog files every transaction under its ID. -/
def Watchdog.KeysNamed (w : Watchdog U H) : Prop :=
  ∀ txnID tt, w.txns.lookup txnID = some tt → transactionID tt.txn = txnID

theorem Watchdog.KeysNamed.addFeesToTransaction {w : Watchdog U H}
    (keys : w.KeysNamed transactionID) (feeUIDs : List U) (tt : TrackedTransaction U H) :
    (w.addFeesToTransaction transactionID feeUIDs tt).KeysNamed transactionID := by
  intro txnID tt' found
  by_cases same : txnID = transactionID tt.txn
  · subst same
    rw [Watchdog.lookup_addFeesToTransaction] at found
    cases found
    rfl
  · exact keys _ _ (by rwa [Watchdog.addFeesToTransaction, Finmap.lookup_insert_of_ne _ same] at found)

theorem Watchdog.KeysNamed.clearTransaction {w : Watchdog U H}
    (keys : w.KeysNamed transactionID) (tt : TrackedTransaction U H) :
    (w.clearTransaction transactionID tt).KeysNamed transactionID := by
  intro txnID tt' found
  by_cases same : txnID = transactionID tt.txn
  · subst same
    rw [Watchdog.lookup_clearTransaction] at found
    cases found
  · exact keys _ _ (by rwa [Watchdog.clearTransaction, Finmap.lookup_erase_ne same] at found)

theorem step_keysNamed (fm : FeeManager U H) (event : Event U H)
    (keys : fm.watchdog.KeysNamed transactionID) :
    (fm.step transactionID event).1.watchdog.KeysNamed transactionID := by
  obtain ⟨fees, watchdog, stepped, kept | ⟨feeUIDs, tt, added⟩ | ⟨tt, cleared⟩⟩ :=
    step_shape transactionID fm event
  · rw [stepped, kept]
    exact keys
  · rw [stepped, added]
    exact keys.addFeesToTransaction transactionID feeUIDs tt
  · rw [stepped, cleared]
    exact keys.clearTransaction transactionID tt

theorem run_partialTxns (fm : FeeManager U H) (events : List (Event U H)) :
    (fm.run transactionID events).1.partialTxns = fm.partialTxns := by
  induction events generalizing fm with
  | nil => rfl
  | cons event events ih =>
    obtain ⟨fees, watchdog, stepped, _⟩ := step_shape transactionID fm event
    simp only [run]
    rw [ih, stepped]

end Calls

end FeeManager

end Sia
