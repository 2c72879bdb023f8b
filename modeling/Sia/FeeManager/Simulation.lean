import Sia.FeeManager.Replay

/-! What loading the persist file rebuilds, against the state the calls left. A call's entries
replayed from the state before it give the state after it for fees added, cancelled and
updated, for a batch paid by a transaction whose encoding is not a multiple of 192 bytes, and
for a confirmed transaction. They do not for a dropped transaction: `applyEntryTxnDropped` marks
the fees paid where `managedDropTransaction` unmarks them. -/
namespace Sia

namespace FeeManager

variable {U H : Type} [DecidableEq U] [DecidableEq H] [HashBytes H] [HashRead H]
  (l : AllocLimits) (transactionID : Transaction H → H)

theorem replay_managedProcessFees (fm : FeeManager U H) (feeUIDs : List U) (txn : Transaction H)
    (timestamp : Int) (marked : (markTransactionCreated fm.fees feeUIDs).2 = .ok ())
    (fits : txn.fits l = true) (unaligned : txn.marshalSia.length % persistTransactionSize ≠ 0)
    (untracked : transactionID txn ∉ fm.watchdog.txns)
    (unread : transactionID txn ∉ fm.partialTxns) :
    (fm.managedProcessFees transactionID feeUIDs (some txn) timestamp).2.1.foldlM
        (applyEntry l transactionID) fm =
      .ok (fm.managedProcessFees transactionID feeUIDs (some txn) timestamp).1 := by
  obtain ⟨folded, unmarked⟩ := markTransactionCreated_eq_ok fm.fees feeUIDs marked
  have present : ∀ feeUID ∈ feeUIDs, feeUID ∈ fm.fees := fun feeUID member =>
    (unmarked feeUID member).elim fun fee found => Finmap.mem_iff.mpr ⟨fee, found.1⟩
  have ran : markTransactionCreated fm.fees feeUIDs =
      (feeUIDs.foldl (setFee TxnEntryType.transactionCreated.mark) fm.fees, .ok ()) := by
    rw [← marked]
    exact Prod.ext folded rfl
  simp only [managedProcessFees, ran, Watchdog.callMonitorTransaction, untracked, ↓reduceIte,
    createTransactionFeeUIDEntrys, List.foldlM_append,
    foldlM_applyEntry_createTransactionEntrys l transactionID fm txn fits unaligned untracked unread,
    Except.ok_bind]
  have flat := flatten_packFeeUIDs [] feeUIDs (.inl rfl)
  rw [List.nil_append] at flat
  rw [foldlM_applyEntry_created l transactionID timestamp (transactionID txn) _ _
      { (⟨[], txn⟩ : TrackedTransaction U H) with feeUIDs := [] ++ [] } rfl
      (Watchdog.lookup_addFeesToTransaction transactionID _ _ _)
      (by rw [flat]; exact present),
    Watchdog.addFeesToTransaction_append, flat, List.nil_append]

theorem replay_managedConfirmTransaction (fm : FeeManager U H) (tt : TrackedTransaction U H)
    (timestamp : Int) (tracked : fm.watchdog.txns.lookup (transactionID tt.txn) = some tt)
    (nonempty : tt.feeUIDs ≠ []) (present : ∀ feeUID ∈ tt.feeUIDs, feeUID ∈ fm.fees) :
    (fm.managedConfirmTransaction transactionID tt timestamp).2.foldlM
        (applyEntry l transactionID) fm =
      .ok (fm.managedConfirmTransaction transactionID tt timestamp).1 := by
  obtain ⟨group, rest, flat, written⟩ := createTransactionFeeUIDEntrys_cons tt.feeUIDs nonempty
    (transactionID tt.txn) .transactionConfirmed timestamp
  simp only [managedConfirmTransaction, written]
  rw [foldlM_applyEntry_confirmed l transactionID timestamp _ group rest fm tt rfl tracked
    (by rw [flat]; exact present), flat]
  rfl

/-- Dropping a tracked transaction: the call unmarks its fees, while the replay of what it wrote
marks them paid; the watchdog agrees. -/
theorem replay_managedDropTransaction (fm : FeeManager U H) (tt : TrackedTransaction U H)
    (timestamp : Int) (tracked : fm.watchdog.txns.lookup (transactionID tt.txn) = some tt)
    (nonempty : tt.feeUIDs ≠ []) (present : ∀ feeUID ∈ tt.feeUIDs, feeUID ∈ fm.fees) :
    (fm.managedDropTransaction transactionID tt timestamp).2.foldlM
        (applyEntry l transactionID) fm =
      .ok { (fm.managedDropTransaction transactionID tt timestamp).1 with
        fees := tt.feeUIDs.foldl (setFee TxnEntryType.transactionConfirmed.mark) fm.fees } := by
  obtain ⟨group, rest, flat, written⟩ := createTransactionFeeUIDEntrys_cons tt.feeUIDs nonempty
    (transactionID tt.txn) .transactionDropped timestamp
  simp only [managedDropTransaction, written]
  rw [foldlM_applyEntry_dropped, foldlM_applyEntry_confirmed l transactionID timestamp _ group
    rest fm tt rfl tracked (by rw [flat]; exact present), flat]

/-- The calls whose entries, replayed from the state before them, give the state after them.
Not among them: a batch that stops at a fee after marking others, one paid by a transaction that
is tracked already, does not decode or is a multiple of 192 bytes long, the confirmation of a
transaction without fees or with fees gone, and the drop of a tracked transaction. -/
def Replayable (fm : FeeManager U H) : Event U H → Prop
  | .processFees feeUIDs sent _ =>
    match markTransactionCreated fm.fees feeUIDs with
    | (fees, .error _) => fees = fm.fees
    | (_, .ok ()) => ∀ txn, sent = some txn →
      txn.fits l = true ∧ txn.marshalSia.length % persistTransactionSize ≠ 0 ∧
        transactionID txn ∉ fm.watchdog.txns
  | .confirmTransaction txnID _ => ∀ tt, fm.watchdog.txns.lookup txnID = some tt →
    tt.feeUIDs ≠ [] ∧ ∀ feeUID ∈ tt.feeUIDs, feeUID ∈ fm.fees
  | .dropTransaction txnID _ => txnID ∉ fm.watchdog.txns
  | _ => True

theorem replay_step (fm : FeeManager U H) (event : Event U H)
    (keys : fm.watchdog.KeysNamed transactionID) (unread : fm.partialTxns = ∅)
    (replayable : Replayable l transactionID fm event) :
    (fm.step transactionID event).2.foldlM (applyEntry l transactionID) fm =
      .ok (fm.step transactionID event).1 := by
  cases event with
  | addFee => rfl
  | cancelFee feeUID timestamp =>
    cases cancelled : fm.cancelFee feeUID timestamp with
    | error => simp only [step, cancelled]; rfl
    | ok called => simp only [step, cancelled, cancelFee_eq_ok cancelled]; rfl
  | updatePayoutHeight feeUID payoutHeight =>
    cases found : fm.fees.lookup feeUID with
    | none => simp only [step, updatePayoutHeight, found]; rfl
    | some fee =>
      simp only [step, updatePayoutHeight, found, List.foldlM_cons, applyEntry,
        applyEntryUpdateFee]
      rfl
  | processFees feeUIDs sent timestamp =>
    simp only [step]
    rcases marking : markTransactionCreated fm.fees feeUIDs with ⟨fees, _ | ⟨⟩⟩
    · -- stopped at the first fee: nothing marked, nothing written
      simp only [Replayable, marking] at replayable
      simp only [managedProcessFees, marking, replayable]
      rfl
    · have marked : (markTransactionCreated fm.fees feeUIDs).2 = .ok () := by rw [marking]
      cases sent with
      | none =>
        have reverted := revert_markTransactionCreated fm.fees feeUIDs marked
        rw [marking] at reverted
        simp only [managedProcessFees, marking, reverted]
        rfl
      | some txn =>
        simp only [Replayable, marking] at replayable
        obtain ⟨fits, unaligned, untracked⟩ := replayable txn rfl
        exact replay_managedProcessFees l transactionID fm feeUIDs txn timestamp marked fits
          unaligned untracked (by rw [unread]; exact Finmap.notMem_empty)
  | confirmTransaction txnID timestamp =>
    cases found : fm.watchdog.txns.lookup txnID with
    | none => simp only [step, found]; rfl
    | some tt =>
      obtain ⟨nonempty, present⟩ := replayable tt found
      have tracked : fm.watchdog.txns.lookup (transactionID tt.txn) = some tt := by
        rw [keys txnID tt found]
        exact found
      simp only [step, found]
      exact replay_managedConfirmTransaction l transactionID fm tt timestamp tracked nonempty
        present
  | dropTransaction txnID timestamp =>
    simp only [step, callDropTransaction, Finmap.lookup_eq_none.mpr replayable]
    rfl

/-- Runs of replayable calls. -/
def RunReplayable : FeeManager U H → List (Event U H) → Prop
  | _, [] => True
  | fm, event :: events =>
    Replayable l transactionID fm event ∧
      RunReplayable (fm.step transactionID event).1 events

/-- The entries a run of replayable calls writes replay to the state it leaves. -/
theorem replay_run (fm : FeeManager U H) (events : List (Event U H))
    (keys : fm.watchdog.KeysNamed transactionID) (unread : fm.partialTxns = ∅)
    (replayable : RunReplayable l transactionID fm events) :
    (fm.run transactionID events).2.foldlM (applyEntry l transactionID) fm =
      .ok (fm.run transactionID events).1 := by
  induction events generalizing fm with
  | nil => rfl
  | cons event events ih =>
    obtain ⟨now, later⟩ := replayable
    obtain ⟨fees, watchdog, stepped, _⟩ := step_shape transactionID fm event
    have unread' : (fm.step transactionID event).1.partialTxns = ∅ := by rw [stepped]; exact unread
    simp only [run, List.foldlM_append, replay_step l transactionID fm event keys unread now,
      Except.ok_bind]
    exact ih _ (step_keysNamed transactionID fm event keys) unread' later

/-! ### A dropped payment -/

/-- A fee payment: 700 to the developer's address and 300 to Nebulous's. -/
def feePayment : Transaction (Vector UInt8 32) :=
  { siacoinInputs := [], siacoinOutputs := [⟨700, Vector.replicate 32 1⟩, ⟨300, Vector.replicate 32 2⟩],
    fileContracts := [], fileContractRevisions := [], storageProofs := [], siafundInputs := [],
    siafundOutputs := [], minerFees := [], arbitraryData := [], transactionSignatures := [] }

/-- A fee added, paid in a batch of its own, and its payment dropped. -/
def droppedPayment (transactionID : Transaction (Vector UInt8 32) → Vector UInt8 32) :
    List (Event ℕ (Vector UInt8 32)) :=
  [.addFee (Vector.replicate 32 1) 1000 false false 0 1, .processFees [1] (some feePayment) 0,
    .dropTransaction (transactionID feePayment) 0]

theorem feePayment_fits : feePayment.fits sampleLimits = true := by decide

theorem feePayment_length : feePayment.marshalSia.length = 164 := by decide +kernel

theorem callInitPersist_marks_dropped_fee_paid
    (transactionID : Transaction (Vector UInt8 32) → Vector UInt8 32) :
    (((FeeManager.new.run transactionID (droppedPayment transactionID)).1.fees.lookup 1).map
        fun fee => (fee.paymentCompleted, fee.transactionCreated)) = some (false, false) ∧
    ∃ loaded, FeeManager.callInitPersist sampleLimits transactionID 0
        (FeeManager.new.run transactionID (droppedPayment transactionID)).2 = .ok loaded ∧
      (loaded.fees.lookup 1).map (fun fee => (fee.paymentCompleted, fee.transactionCreated)) =
        some (true, true) := by
  set fee : AppFee ℕ (Vector UInt8 32) := ⟨Vector.replicate 32 1, 1000, 1, false, 0, false, 0, false⟩
  set added : FeeManager ℕ (Vector UInt8 32) :=
    { FeeManager.new with fees := (∅ : Finmap fun _ : ℕ => AppFee ℕ (Vector UInt8 32)).insert 1 fee }
  set batch : Event ℕ (Vector UInt8 32) := .processFees [1] (some feePayment) 0
  set drop : Event ℕ (Vector UInt8 32) := .dropTransaction (transactionID feePayment) 0
  set paid := (added.step transactionID batch).1
  -- the batch marks the fee and hands the payment to the watchdog
  have marking : markTransactionCreated added.fees [1] =
      (added.fees.insert 1 { fee with transactionCreated := true }, .ok ()) := by
    simp only [markTransactionCreated, added, Finmap.lookup_insert, fee, Bool.false_eq_true,
      ↓reduceIte, Finmap.insert_insert]
  have tracked : paid.watchdog.txns.lookup (transactionID feePayment) =
      some ⟨[] ++ [1], feePayment⟩ := by
    simp only [paid, batch, step, managedProcessFees, marking, Watchdog.callMonitorTransaction,
      added, FeeManager.new, Finmap.notMem_empty, ↓reduceIte]
    exact Watchdog.lookup_addFeesToTransaction transactionID _ _ _
  have paidFees : paid.fees = added.fees.insert 1 { fee with transactionCreated := true } := by
    simp only [paid, batch, step, managedProcessFees, marking]
  -- the batch replays exactly
  have replayedBatch : (added.step transactionID batch).2.foldlM
      (applyEntry sampleLimits transactionID) added = .ok paid := by
    refine replay_step sampleLimits transactionID added batch (fun _ _ found => ?_) rfl ?_
    · simp [added, FeeManager.new] at found
    · simp only [Replayable, batch, marking]
      rintro txn ⟨⟩
      exact ⟨feePayment_fits, by rw [feePayment_length]; decide, Finmap.notMem_empty⟩
  -- the drop does not
  have dropped := replay_managedDropTransaction sampleLimits transactionID paid
    ⟨[] ++ [1], feePayment⟩ 0 tracked (by simp) (by
      intro feeUID member
      rw [paidFees]
      simp only [List.nil_append, List.mem_singleton] at member
      rw [member]
      exact Finmap.mem_insert.mpr (.inl rfl))
  have droppedStep : paid.step transactionID drop =
      paid.managedDropTransaction transactionID ⟨[] ++ [1], feePayment⟩ 0 := by
    simp only [drop, step, callDropTransaction, tracked]
  have ran : FeeManager.new.run transactionID (droppedPayment transactionID) =
      ((paid.step transactionID drop).1, [.addFee fee] ++
        ((added.step transactionID batch).2 ++ ((paid.step transactionID drop).2 ++ []))) := by
    simp only [droppedPayment, run]
    rfl
  have addedReplayed : [PersistEntry.addFee fee].foldlM (applyEntry sampleLimits transactionID)
      ({ FeeManager.new with nextPayoutHeight := 0 } : FeeManager ℕ (Vector UInt8 32)) =
      .ok added := rfl
  rw [ran, droppedStep]
  constructor
  · -- the call unmarks the fee
    simp only [managedDropTransaction, List.nil_append, List.foldl_cons, List.foldl_nil,
      lookup_setFee, paidFees, Finmap.lookup_insert, ↓reduceIte, Option.map_some]
    rfl
  · -- the replay marks it paid
    simp only [callInitPersist, List.foldlM_append, addedReplayed, replayedBatch, dropped,
      List.foldlM_nil, Except.ok_bind]
    refine ⟨_, rfl, ?_⟩
    simp only [List.nil_append, List.foldl_cons, List.foldl_nil, lookup_setFee, paidFees,
      Finmap.lookup_insert, ↓reduceIte, Option.map_some]
    rfl

end FeeManager

/-- Loading the file that a run of replayable calls wrote, from a new fee manager with the
header's next payout height, rebuilds the state the run left. -/
theorem FeeManager.callInitPersist_run {U H : Type} [DecidableEq U] [DecidableEq H] [HashBytes H]
    [HashRead H] (l : AllocLimits) (transactionID : Transaction H → H) (nextPayoutHeight : UInt64)
    (events : List (FeeManager.Event U H))
    (replayable : FeeManager.RunReplayable l transactionID
      { FeeManager.new with nextPayoutHeight } events) :
    FeeManager.callInitPersist l transactionID nextPayoutHeight
        ({ FeeManager.new with nextPayoutHeight }.run transactionID events).2 =
      .ok ({ FeeManager.new with nextPayoutHeight }.run transactionID events).1 := by
  have keys : ({ FeeManager.new with nextPayoutHeight } : FeeManager U H).watchdog.KeysNamed
      transactionID := fun txnID tt found => by
    simp [FeeManager.new] at found
  have unread := FeeManager.run_partialTxns transactionID
    ({ FeeManager.new with nextPayoutHeight } : FeeManager U H) events
  have cleared : ∀ fm : FeeManager U H, fm.partialTxns = ∅ → { fm with partialTxns := ∅ } = fm := by
    rintro ⟨fees, watchdog, nextPayoutHeight, partialTxns⟩ empty
    subst empty
    rfl
  simp only [FeeManager.callInitPersist, FeeManager.replay_run l transactionID _ events keys rfl
    replayable, Except.ok_bind, cleared _ unread]
  rfl


end Sia
