import Sia.FeeManager.State

/-! Loading the persist file (`callInitPersist` and the handlers of `persistentries.go`): the
entries are applied in order to a new fee manager, and the transactions still partial at the end
are dropped. -/
namespace Sia

namespace FeeManager

variable {U H : Type} [DecidableEq U] [DecidableEq H]

/-- The loop of `applyTxnAndFeeUIDs` over the slots it reads: each fee gets the flag and its UID
is returned; a slot past those written does not unmarshal, and a missing fee fails the entry. -/
def applyFeeUIDs (entryType : TxnEntryType) :
    (Finmap fun _ : U => AppFee U H) → List (Option U) →
      Except (PersistError H) ((Finmap fun _ : U => AppFee U H) × List U)
  | fees, [] => .ok (fees, [])
  | _, none :: _ => .error .unmarshalFeeUID
  | fees, some feeUID :: rest =>
    match fees.lookup feeUID with
    | none => .error .feeNotFound
    | some fee => do
      let (fees, feeUIDs) ← applyFeeUIDs entryType (fees.insert feeUID (entryType.mark fee)) rest
      pure (fees, feeUID :: feeUIDs)

/-- `applyTxnAndFeeUIDs`: the first `NumFeeUIDs` slots of the entry. -/
def applyTxnAndFeeUIDs (fees : Finmap fun _ : U => AppFee U H)
    (etf : EntryTransactionAndFeeUIDs U H) (entryType : TxnEntryType) :
    Except (PersistError H) ((Finmap fun _ : U => AppFee U H) × List U) :=
  applyFeeUIDs entryType fees ((List.range etf.numFeeUIDs).map (etf.feeUIDsBytes[·]?))

theorem applyFeeUIDs_map_some (entryType : TxnEntryType) (feeUIDs : List U)
    (fees : Finmap fun _ : U => AppFee U H) (present : ∀ feeUID ∈ feeUIDs, feeUID ∈ fees) :
    applyFeeUIDs (H := H) entryType fees (feeUIDs.map some) =
      .ok (feeUIDs.foldl (setFee entryType.mark) fees, feeUIDs) := by
  induction feeUIDs generalizing fees with
  | nil => rfl
  | cons feeUID rest ih =>
    obtain ⟨fee, found⟩ := Finmap.mem_iff.mp (present feeUID List.mem_cons_self)
    have kept : ∀ other ∈ rest, other ∈ fees.insert feeUID (entryType.mark fee) :=
      fun other member => Finmap.mem_insert.mpr (.inr (present other (List.mem_cons_of_mem _ member)))
    simp only [List.map_cons, applyFeeUIDs, found, ih _ kept, Except.ok_bind, List.foldl_cons,
      setFee]
    rfl

/-- An entry as `createTransactionFeeUIDEntrys` writes it reads back its UIDs. -/
theorem applyTxnAndFeeUIDs_written (fees : Finmap fun _ : U => AppFee U H) (feeUIDs : List U)
    (timestamp : Int) (txnID : H) (entryType : TxnEntryType)
    (present : ∀ feeUID ∈ feeUIDs, feeUID ∈ fees) :
    applyTxnAndFeeUIDs fees ⟨feeUIDs, feeUIDs.length, timestamp, txnID⟩ entryType =
      .ok (feeUIDs.foldl (setFee entryType.mark) fees, feeUIDs) := by
  have slots : (List.range feeUIDs.length).map (feeUIDs[·]?) = feeUIDs.map some := by
    apply List.ext_getElem (by simp)
    intro i _ _
    simp only [List.getElem_map, List.getElem_range]
    rw [List.getElem?_eq_getElem]
  rw [applyTxnAndFeeUIDs, slots, applyFeeUIDs_map_some _ _ _ present]

section Apply

variable [HashBytes H] [HashRead H] (l : AllocLimits) (transactionID : Transaction H → H)

/-- `applyEntryTransaction`: a piece of a transaction the watchdog already tracks fails; the
piece that completes a transaction hands it to the watchdog with no fees. -/
def applyEntryTransaction (fm : FeeManager U H) (et : EntryTransaction H) :
    Except (PersistError H) (FeeManager U H) := do
  if et.txnID ∈ fm.watchdog.txns then throw (.txnExists et.txnID)
  let (partialTxns, built) ← managedBuildTransaction l fm.partialTxns et
  match built with
  | none => pure { fm with partialTxns }
  | some txn =>
    match fm.watchdog.callMonitorTransaction transactionID [] txn with
    | .ok watchdog => pure { fm with partialTxns, watchdog }
    | .error _ => throw (.txnExists (transactionID txn))

/-- `applyEntryTxnConfirmed`: the transaction leaves the watchdog with the first of its entries;
the error of the later ones is ignored. -/
def applyEntryTxnConfirmed (fm : FeeManager U H) (etf : EntryTransactionAndFeeUIDs U H) :
    Except (PersistError H) (FeeManager U H) := do
  let (fees, _) ← applyTxnAndFeeUIDs fm.fees etf .transactionConfirmed
  let watchdog := match fm.watchdog.callClearTransaction transactionID etf.txnID with
    | .ok watchdog => watchdog
    | .error _ => fm.watchdog
  pure { fm with fees, watchdog }

/-- `applyEntryTxnCreated`: the entry's fees join the transaction in the watchdog, an error
there ignored. -/
def applyEntryTxnCreated (fm : FeeManager U H) (etf : EntryTransactionAndFeeUIDs U H) :
    Except (PersistError H) (FeeManager U H) := do
  let (fees, feeUIDs) ← applyTxnAndFeeUIDs fm.fees etf .transactionCreated
  let watchdog := match fm.watchdog.callAddFeesToTransaction transactionID feeUIDs etf.txnID with
    | .ok watchdog => watchdog
    | .error _ => fm.watchdog
  pure { fm with fees, watchdog }

/-- `applyEntryTxnDropped`, which hands `applyTxnAndFeeUIDs` the confirmed entry type. -/
def applyEntryTxnDropped (fm : FeeManager U H) (etf : EntryTransactionAndFeeUIDs U H) :
    Except (PersistError H) (FeeManager U H) := do
  let (fees, _) ← applyTxnAndFeeUIDs fm.fees etf .transactionConfirmed
  let watchdog := match fm.watchdog.callClearTransaction transactionID etf.txnID with
    | .ok watchdog => watchdog
    | .error _ => fm.watchdog
  pure { fm with fees, watchdog }

/-- `applyEntryUpdateFee` -/
def applyEntryUpdateFee (fm : FeeManager U H) (feeUID : U) (payoutHeight : UInt64) :
    Except (PersistError H) (FeeManager U H) :=
  match fm.fees.lookup feeUID with
  | none => .error .updateForMissingFee
  | some fee => .ok { fm with fees := fm.fees.insert feeUID { fee with payoutHeight := payoutHeight } }

/-- `applyEntry`, with `applyEntryAddFee` and `applyEntryCancelFee` inline. -/
def applyEntry (fm : FeeManager U H) : PersistEntry U H → Except (PersistError H) (FeeManager U H)
  | .addFee fee => .ok { fm with fees := fm.fees.insert fee.feeUID fee }
  | .cancelFee feeUID _ => .ok { fm with fees := fm.fees.erase feeUID }
  | .transaction et => applyEntryTransaction l transactionID fm et
  | .transactionAndFeeUIDs .transactionConfirmed etf => applyEntryTxnConfirmed transactionID fm etf
  | .transactionAndFeeUIDs .transactionCreated etf => applyEntryTxnCreated transactionID fm etf
  | .transactionAndFeeUIDs .transactionDropped etf => applyEntryTxnDropped transactionID fm etf
  | .updateFee feeUID payoutHeight => applyEntryUpdateFee fm feeUID payoutHeight

/-! ### Replaying the pieces of a transaction -/

theorem applyEntry_transaction_pending (fm : FeeManager U H) (et : EntryTransaction H) {f : ℕ}
    {bytes : List UInt8} (untracked : et.txnID ∉ fm.watchdog.txns)
    (pending : (fm.partialTxns.lookup et.txnID).getD ⟨et.finalIndex, [], et.txnID⟩ =
      ⟨f, bytes, et.txnID⟩) (notFinal : et.index ≠ f) :
    applyEntry l transactionID fm (.transaction et) =
      .ok { fm with partialTxns :=
        fm.partialTxns.insert et.txnID ⟨f, bytes ++ et.txnBytes.toList, et.txnID⟩ } := by
  simp only [applyEntry, applyEntryTransaction, managedBuildTransaction, pending, untracked,
    ne_eq, notFinal, not_false_eq_true, ↓reduceIte]
  rfl

theorem applyEntry_transaction_complete (fm : FeeManager U H) (et : EntryTransaction H)
    {bytes rest : List UInt8} {txn : Transaction H} (untracked : et.txnID ∉ fm.watchdog.txns)
    (pending : (fm.partialTxns.lookup et.txnID).getD ⟨et.finalIndex, [], et.txnID⟩ =
      ⟨et.index, bytes, et.txnID⟩)
    (decoded : (Transaction.unmarshalSia l).run (bytes ++ et.txnBytes.toList) = .ok (txn, rest))
    (fresh : transactionID txn ∉ fm.watchdog.txns) :
    applyEntry l transactionID fm (.transaction et) =
      .ok { fm with partialTxns := fm.partialTxns.erase et.txnID,
                    watchdog := fm.watchdog.addFeesToTransaction transactionID [] ⟨[], txn⟩ } := by
  simp only [applyEntry, applyEntryTransaction, managedBuildTransaction, pending, untracked,
    if_false, ne_eq, not_true_eq_false, decoded, Except.ok_bind, Watchdog.callMonitorTransaction,
    fresh]
  rfl

/-- A piece of a transaction with no partial behaves as if an empty one were there. -/
theorem applyEntry_transaction_unread (fm : FeeManager U H) (et : EntryTransaction H)
    (unread : et.txnID ∉ fm.partialTxns) :
    applyEntry l transactionID fm (.transaction et) =
      applyEntry l transactionID
        { fm with partialTxns := fm.partialTxns.insert et.txnID ⟨et.finalIndex, [], et.txnID⟩ }
        (.transaction et) := by
  simp only [applyEntry, applyEntryTransaction, managedBuildTransaction, Finmap.lookup_insert,
    Finmap.lookup_eq_none.mpr unread, Option.getD_none, Option.getD_some, Finmap.insert_insert,
    Finmap.erase_insert_of_notMem _ unread, Finmap.erase_of_notMem unread]

/-- So do all the pieces of a transaction. -/
theorem foldlM_applyEntry_unread (fm : FeeManager U H) (txnID : H) (f : ℕ)
    (unread : txnID ∉ fm.partialTxns) (ets : List (EntryTransaction H)) (nonempty : ets ≠ [])
    (pieces : ∀ et ∈ ets, et.txnID = txnID ∧ et.finalIndex = f) :
    (ets.map .transaction).foldlM (applyEntry l transactionID) fm =
      (ets.map .transaction).foldlM (applyEntry l transactionID)
        { fm with partialTxns := fm.partialTxns.insert txnID ⟨f, [], txnID⟩ } := by
  cases ets with
  | nil => exact absurd rfl nonempty
  | cons et ets =>
    obtain ⟨named, final⟩ := pieces et List.mem_cons_self
    subst named final
    rw [List.map_cons, List.foldlM_cons, List.foldlM_cons,
      applyEntry_transaction_unread l transactionID fm et unread]

/-- Pieces that are not the last collect their bytes. -/
theorem foldlM_applyEntry_pending (fm : FeeManager U H) (txnID : H) (f : ℕ)
    (untracked : txnID ∉ fm.watchdog.txns) (ets : List (EntryTransaction H))
    (pieces : ∀ et ∈ ets, et.txnID = txnID ∧ et.index ≠ f) (bytes : List UInt8) :
    (ets.map .transaction).foldlM (applyEntry l transactionID)
        { fm with partialTxns := fm.partialTxns.insert txnID ⟨f, bytes, txnID⟩ } =
      .ok { fm with partialTxns :=
        fm.partialTxns.insert txnID ⟨f, bytes ++ ets.flatMap (·.txnBytes.toList), txnID⟩ } := by
  induction ets generalizing bytes with
  | nil =>
    simp only [List.map_nil, List.foldlM_nil, List.flatMap_nil, List.append_nil]
    rfl
  | cons et ets ih =>
    obtain ⟨named, notFinal⟩ := pieces et List.mem_cons_self
    have pending : ((fm.partialTxns.insert txnID ⟨f, bytes, txnID⟩).lookup et.txnID).getD
        ⟨et.finalIndex, [], et.txnID⟩ = ⟨f, bytes, et.txnID⟩ := by
      rw [named, Finmap.lookup_insert]
      rfl
    rw [List.map_cons, List.foldlM_cons,
      applyEntry_transaction_pending l transactionID _ et (by rw [named]; exact untracked) pending
        notFinal]
    simp only [Except.ok_bind, named, Finmap.insert_insert]
    rw [ih (fun et' member => pieces et' (List.mem_cons_of_mem _ member)), List.flatMap_cons,
      List.append_assoc]

/-- Replaying the pieces of a transaction whose encoding is not a multiple of 192 bytes long, and
decodes, hands the transaction to the watchdog and leaves no partial. -/
theorem foldlM_applyEntry_createTransactionEntrys (fm : FeeManager U H) (txn : Transaction H)
    (fits : txn.fits l = true) (unaligned : txn.marshalSia.length % persistTransactionSize ≠ 0)
    (untracked : transactionID txn ∉ fm.watchdog.txns)
    (unread : transactionID txn ∉ fm.partialTxns) :
    ((createTransactionEntrys transactionID txn).map .transaction).foldlM
        (applyEntry l transactionID) fm =
      .ok { fm with watchdog := fm.watchdog.addFeesToTransaction transactionID [] ⟨[], txn⟩ } := by
  set f := txn.marshalSia.length / persistTransactionSize with final
  have count : (txn.marshalSia.length + persistTransactionSize - 1) / persistTransactionSize =
      f + 1 := by
    simp only [final, persistTransactionSize] at unaligned ⊢
    omega
  have pieces : ∀ et ∈ createTransactionEntrys transactionID txn,
      et.txnID = transactionID txn ∧ et.finalIndex = f := by
    simp only [createTransactionEntrys, List.mem_map]
    rintro _ ⟨index, _, rfl⟩
    exact ⟨rfl, rfl⟩
  rw [foldlM_applyEntry_unread l transactionID fm _ f unread _
      (by rw [createTransactionEntrys, count]; simp) pieces,
    createTransactionEntrys, count, List.range_succ, List.map_append, List.map_append,
    List.foldlM_append,
    foldlM_applyEntry_pending l transactionID fm _ f untracked _ (by
      simp only [List.mem_map, List.mem_range]
      rintro _ ⟨index, below, rfl⟩
      exact ⟨rfl, Nat.ne_of_lt below⟩), Except.ok_bind]
  -- the last piece completes the encoding, padded with zeros
  set flat := ((List.range f).map (transactionPiece transactionID txn)).flatMap
    (·.txnBytes.toList) with collected
  have decoded : (Transaction.unmarshalSia l).run
      (([] ++ flat) ++ (transactionPiece transactionID txn f).txnBytes.toList) =
      .ok (txn, List.replicate ((f + 1) * persistTransactionSize - txn.marshalSia.length) 0) := by
    have whole := flatMap_transactionPieces transactionID txn (f + 1)
    rw [List.range_succ, List.map_append, List.flatMap_append, List.map_singleton,
      List.flatMap_singleton, List.take_of_length_le (by
        simp only [final, persistTransactionSize] at unaligned ⊢; omega)] at whole
    rw [List.nil_append, collected, whole]
    exact Transaction.reads_marshalSia l fits _
  have pending : ((fm.partialTxns.insert (transactionID txn) ⟨f, [] ++ flat,
      transactionID txn⟩).lookup (transactionID txn)).getD ⟨f, [], transactionID txn⟩ =
      ⟨f, [] ++ flat, transactionID txn⟩ := by
    rw [Finmap.lookup_insert]
    rfl
  rw [List.map_singleton, List.map_singleton, List.foldlM_cons,
    applyEntry_transaction_complete l transactionID
      { fm with partialTxns := fm.partialTxns.insert (transactionID txn) ⟨f, [] ++ flat,
        transactionID txn⟩ }
      (transactionPiece transactionID txn f) untracked pending decoded untracked]
  simp only [List.foldlM_nil, Except.ok_bind, transactionPiece_txnID,
    Finmap.erase_insert_of_notMem _ unread]
  rfl

/-- When the encoding is a multiple of 192 bytes long no piece is the last: replaying the pieces
leaves the whole encoding partial, and the watchdog never gets the transaction. -/
theorem foldlM_applyEntry_createTransactionEntrys_aligned (fm : FeeManager U H)
    (txn : Transaction H) (aligned : txn.marshalSia.length % persistTransactionSize = 0)
    (untracked : transactionID txn ∉ fm.watchdog.txns)
    (unread : transactionID txn ∉ fm.partialTxns) :
    ((createTransactionEntrys transactionID txn).map .transaction).foldlM
        (applyEntry l transactionID) fm =
      .ok { fm with
        partialTxns := fm.partialTxns.insert (transactionID txn)
          ⟨txn.marshalSia.length / persistTransactionSize, txn.marshalSia, transactionID txn⟩ } := by
  set f := txn.marshalSia.length / persistTransactionSize with final
  have positive := length_marshalSia_pos txn
  have count : (txn.marshalSia.length + persistTransactionSize - 1) / persistTransactionSize = f := by
    simp only [final, persistTransactionSize] at aligned ⊢
    omega
  have pieces : ∀ et ∈ createTransactionEntrys transactionID txn,
      et.txnID = transactionID txn ∧ et.finalIndex = f := by
    simp only [createTransactionEntrys, List.mem_map]
    rintro _ ⟨index, _, rfl⟩
    exact ⟨rfl, rfl⟩
  have nonempty : createTransactionEntrys transactionID txn ≠ [] := by
    rw [createTransactionEntrys, count, Ne, List.map_eq_nil_iff, List.range_eq_nil]
    simp only [final, persistTransactionSize] at aligned ⊢
    omega
  rw [foldlM_applyEntry_unread l transactionID fm _ f unread _ nonempty pieces,
    createTransactionEntrys, count,
    foldlM_applyEntry_pending l transactionID fm _ f untracked _ (by
      simp only [List.mem_map, List.mem_range]
      rintro _ ⟨index, below, rfl⟩
      exact ⟨rfl, Nat.ne_of_lt below⟩),
    List.nil_append, flatMap_transactionPieces, List.take_of_length_le (by
      simp only [final, persistTransactionSize] at aligned ⊢; omega),
    Nat.sub_eq_zero_of_le (by simp only [final, persistTransactionSize] at aligned ⊢; omega),
    List.replicate_zero, List.append_nil]

/-! ### Replaying the fee entries of a transaction -/

/-- The entries of one transaction event, one per group of UIDs. -/
theorem foldlM_applyEntry_created (timestamp : Int) (txnID : H) (groups : List (List U))
    (fm : FeeManager U H) (tt : TrackedTransaction U H) (named : transactionID tt.txn = txnID)
    (tracked : fm.watchdog.txns.lookup txnID = some tt)
    (present : ∀ feeUID ∈ groups.flatten, feeUID ∈ fm.fees) :
    (groups.map fun group => PersistEntry.transactionAndFeeUIDs .transactionCreated
        ⟨group, group.length, timestamp, txnID⟩).foldlM (applyEntry l transactionID) fm =
      .ok { fm with
        fees := groups.flatten.foldl (setFee TxnEntryType.transactionCreated.mark) fm.fees
        watchdog := fm.watchdog.addFeesToTransaction transactionID groups.flatten tt } := by
  induction groups generalizing fm tt with
  | nil =>
    rw [← named] at tracked
    simp only [List.map_nil, List.foldlM_nil, List.flatten_nil, List.foldl_nil,
      Watchdog.addFeesToTransaction_nil transactionID _ _ tracked]
    rfl
  | cons group rest ih =>
    have presentGroup : ∀ feeUID ∈ group, feeUID ∈ fm.fees :=
      fun feeUID member => present feeUID (List.mem_flatten_of_mem List.mem_cons_self member)
    rw [List.map_cons, List.foldlM_cons]
    simp only [applyEntry, applyEntryTxnCreated,
      applyTxnAndFeeUIDs_written _ _ _ _ _ presentGroup, Except.ok_bind, pure_bind,
      Watchdog.callAddFeesToTransaction, tracked]
    -- the later groups find the transaction holding this group's fees
    have joined : (fm.watchdog.addFeesToTransaction transactionID group tt).txns.lookup txnID =
        some { tt with feeUIDs := tt.feeUIDs ++ group } := by
      rw [← named]
      exact Watchdog.lookup_addFeesToTransaction transactionID _ _ _
    rw [ih _ { tt with feeUIDs := tt.feeUIDs ++ group } named joined (fun feeUID member => (mem_foldl_setFee group).mpr
      (present feeUID (List.mem_flatten.mpr (List.mem_flatten.mp member |>.elim
        fun later ⟨mem, inner⟩ => ⟨later, List.mem_cons_of_mem _ mem, inner⟩))))]
    simp only [List.flatten_cons, List.foldl_append, Watchdog.addFeesToTransaction_append]

/-- Confirmed entries of a transaction the watchdog no longer tracks only mark the fees paid. -/
theorem foldlM_applyEntry_confirmed_untracked (timestamp : Int) (txnID : H)
    (groups : List (List U)) (fm : FeeManager U H) (untracked : txnID ∉ fm.watchdog.txns)
    (present : ∀ feeUID ∈ groups.flatten, feeUID ∈ fm.fees) :
    (groups.map fun group => PersistEntry.transactionAndFeeUIDs .transactionConfirmed
        ⟨group, group.length, timestamp, txnID⟩).foldlM (applyEntry l transactionID) fm =
      .ok { fm with
        fees := groups.flatten.foldl (setFee TxnEntryType.transactionConfirmed.mark) fm.fees } := by
  induction groups generalizing fm with
  | nil => rfl
  | cons group rest ih =>
    have presentGroup : ∀ feeUID ∈ group, feeUID ∈ fm.fees :=
      fun feeUID member => present feeUID (List.mem_flatten_of_mem List.mem_cons_self member)
    rw [List.map_cons, List.foldlM_cons]
    simp only [applyEntry, applyEntryTxnConfirmed,
      applyTxnAndFeeUIDs_written _ _ _ _ _ presentGroup, Except.ok_bind, pure_bind,
      Watchdog.callClearTransaction, Finmap.lookup_eq_none.mpr untracked]
    rw [ih { fm with fees := group.foldl (setFee TxnEntryType.transactionConfirmed.mark) fm.fees }
      untracked (fun feeUID member => (mem_foldl_setFee group).mpr
      (present feeUID (List.mem_flatten.mpr (List.mem_flatten.mp member |>.elim
        fun later ⟨mem, inner⟩ => ⟨later, List.mem_cons_of_mem _ mem, inner⟩))))]
    simp only [List.flatten_cons, List.foldl_append]

/-- The first confirmed entry takes the transaction out of the watchdog. -/
theorem foldlM_applyEntry_confirmed (timestamp : Int) (txnID : H) (group : List U)
    (rest : List (List U)) (fm : FeeManager U H) (tt : TrackedTransaction U H)
    (named : transactionID tt.txn = txnID) (tracked : fm.watchdog.txns.lookup txnID = some tt)
    (present : ∀ feeUID ∈ (group :: rest).flatten, feeUID ∈ fm.fees) :
    ((group :: rest).map fun group => PersistEntry.transactionAndFeeUIDs .transactionConfirmed
        ⟨group, group.length, timestamp, txnID⟩).foldlM (applyEntry l transactionID) fm =
      .ok { fm with
        fees := (group :: rest).flatten.foldl (setFee TxnEntryType.transactionConfirmed.mark) fm.fees
        watchdog := fm.watchdog.clearTransaction transactionID tt } := by
  have presentGroup : ∀ feeUID ∈ group, feeUID ∈ fm.fees :=
    fun feeUID member => present feeUID (List.mem_flatten_of_mem List.mem_cons_self member)
  have cleared : txnID ∉ (fm.watchdog.clearTransaction transactionID tt).txns := by
    rw [← Finmap.lookup_eq_none, ← named]
    exact Watchdog.lookup_clearTransaction transactionID _ _
  rw [List.map_cons, List.foldlM_cons]
  simp only [applyEntry, applyEntryTxnConfirmed,
    applyTxnAndFeeUIDs_written _ _ _ _ _ presentGroup, Except.ok_bind, pure_bind,
    Watchdog.callClearTransaction, tracked]
  rw [foldlM_applyEntry_confirmed_untracked l transactionID _ _ _ _ cleared
    (fun feeUID member => (mem_foldl_setFee group).mpr
      (present feeUID (List.mem_flatten.mpr (List.mem_flatten.mp member |>.elim
        fun later ⟨mem, inner⟩ => ⟨later, List.mem_cons_of_mem _ mem, inner⟩))))]
  simp only [List.flatten_cons, List.foldl_append]

/-- Replay cannot tell a dropped transaction from a confirmed one. -/
theorem applyEntry_dropped (fm : FeeManager U H) (etf : EntryTransactionAndFeeUIDs U H) :
    applyEntry l transactionID fm (.transactionAndFeeUIDs .transactionDropped etf) =
      applyEntry l transactionID fm (.transactionAndFeeUIDs .transactionConfirmed etf) := rfl

/-- The dropped entries of a transaction replay as its confirmed entries would. -/
theorem foldlM_applyEntry_dropped (timestamp : Int) (txnID : H) (groups : List (List U))
    (fm : FeeManager U H) :
    (groups.map fun group => PersistEntry.transactionAndFeeUIDs .transactionDropped
        ⟨group, group.length, timestamp, txnID⟩).foldlM (applyEntry l transactionID) fm =
      (groups.map fun group => PersistEntry.transactionAndFeeUIDs .transactionConfirmed
        ⟨group, group.length, timestamp, txnID⟩).foldlM (applyEntry l transactionID) fm := by
  induction groups generalizing fm with
  | nil => rfl
  | cons group rest ih =>
    simp only [List.map_cons, List.foldlM_cons, applyEntry_dropped, ih]

end Apply

end FeeManager

section Load

open FeeManager

variable {U H : Type} [DecidableEq U] [DecidableEq H] [HashBytes H] [HashRead H] (l : AllocLimits)
  (transactionID : Transaction H → H)

/-- `callInitPersist` on an existing file: the header's next payout height, every entry applied in
order to the new fee manager, then `managedClearPartialTxnMap`. -/
def FeeManager.callInitPersist (nextPayoutHeight : UInt64) (entries : List (PersistEntry U H)) :
    Except (PersistError H) (FeeManager U H) := do
  let fm ← entries.foldlM (applyEntry l transactionID) { FeeManager.new with nextPayoutHeight }
  pure { fm with partialTxns := ∅ }

end Load

end Sia
