import Sia.Types.Decoding

/-! `modules/feemanager/persistentries.go`: the entries of the fee manager's persist file. A new
fee, a cancellation and a payout-height update are one entry each. A transaction is written as
pieces of 192 bytes, each tagged with its index and with the index of the last piece, and the
fee UIDs of a transaction event go to entries of as many 48-byte slots as fit in 192 bytes. The
256-byte framing of an entry (its specifier and marshalled payload) is not modelled: an entry
reads back as it was written.

`createTransactionEntrys` takes the encoding's length divided by 192 as the final index while it
numbers the pieces from zero, so when the length is a multiple of 192 no piece carries the final
index and `managedBuildTransaction` never completes the transaction. -/
namespace Sia.FeeManager

open Bytes Bytes.Decoder Encoding

def persistTransactionSize : ℕ := 192

def persistFeeUIDsSize : ℕ := 192

def marshalledFeeUIDSize : ℕ := 48

variable {U H : Type}

/-- `modules.AppFee`, without the `AppUID` nothing here reads. -/
structure AppFee (U H : Type) where
  address : H
  amount : Currency
  feeUID : U
  paymentCompleted : Bool
  payoutHeight : UInt64
  recurring : Bool
  timestamp : Int
  transactionCreated : Bool
  deriving DecidableEq

structure EntryTransaction (H : Type) where
  finalIndex : ℕ
  index : ℕ
  txnBytes : Vector UInt8 persistTransactionSize
  txnID : H

/-- The specifiers of the entries that link a transaction with fee UIDs. -/
inductive TxnEntryType where
  | transactionConfirmed
  | transactionCreated
  | transactionDropped
  deriving DecidableEq

/-- The flag `applyTxnAndFeeUIDs` sets on a fee for the entry type it is given. -/
def TxnEntryType.mark : TxnEntryType → AppFee U H → AppFee U H
  | .transactionConfirmed, fee => { fee with paymentCompleted := true }
  | .transactionCreated, fee => { fee with transactionCreated := true }
  | .transactionDropped, fee => { fee with transactionCreated := false }

structure EntryTransactionAndFeeUIDs (U H : Type) where
  /-- The UIDs marshalled into `FeeUIDsBytes`, one slot each. -/
  feeUIDsBytes : List U
  numFeeUIDs : ℕ
  timestamp : Int
  txnID : H

/-- `persistEntry`, by the type its specifier names. -/
inductive PersistEntry (U H : Type) where
  | addFee (fee : AppFee U H)
  | cancelFee (feeUID : U) (timestamp : Int)
  | transaction (et : EntryTransaction H)
  | transactionAndFeeUIDs (entryType : TxnEntryType) (etf : EntryTransactionAndFeeUIDs U H)
  | updateFee (feeUID : U) (payoutHeight : UInt64)

/-! ### Writing entries -/

section Create

variable [HashBytes H] (transactionID : Transaction H → H)

/-- An iteration of `createTransactionEntrys`' loop: the piece numbered `index` holds bytes
`[192 index, 192 index + 192)` of the encoding, cut at its end and zero-padded. -/
def transactionPiece (txn : Transaction H) (index : ℕ) : EntryTransaction H :=
  ⟨txn.marshalSia.length / persistTransactionSize, index,
    copyBytes persistTransactionSize
      ((txn.marshalSia.drop (index * persistTransactionSize)).take persistTransactionSize),
    transactionID txn⟩

@[simp] theorem transactionPiece_finalIndex (txn : Transaction H) (index : ℕ) :
    (transactionPiece transactionID txn index).finalIndex =
      txn.marshalSia.length / persistTransactionSize := rfl

@[simp] theorem transactionPiece_index (txn : Transaction H) (index : ℕ) :
    (transactionPiece transactionID txn index).index = index := rfl

@[simp] theorem transactionPiece_txnID (txn : Transaction H) (index : ℕ) :
    (transactionPiece transactionID txn index).txnID = transactionID txn := rfl

/-- `createTransactionEntrys`: the loop `for i := 0; i < txnSize; i += 192` writes the piece
numbered `i / 192`. -/
def createTransactionEntrys (txn : Transaction H) : List (EntryTransaction H) :=
  (List.range ((txn.marshalSia.length + persistTransactionSize - 1) / persistTransactionSize)).map
    (transactionPiece transactionID txn)

/-- The first `c` pieces, one after another: the first `192 c` bytes of the encoding, then zeros. -/
theorem flatMap_transactionPieces (txn : Transaction H) (c : ℕ) :
    ((List.range c).map (transactionPiece transactionID txn)).flatMap (·.txnBytes.toList) =
      txn.marshalSia.take (c * persistTransactionSize) ++
        List.replicate (c * persistTransactionSize - txn.marshalSia.length) 0 := by
  rw [List.flatMap_map, ← flatMap_copyBytes_chunks]
  rfl

/-- All the pieces of a transaction are its encoding and then zeros up to a multiple of 192
bytes. -/
theorem flatMap_createTransactionEntrys (txn : Transaction H) :
    (createTransactionEntrys transactionID txn).flatMap (·.txnBytes.toList) =
      txn.marshalSia ++ List.replicate
        ((txn.marshalSia.length + persistTransactionSize - 1) / persistTransactionSize *
          persistTransactionSize - txn.marshalSia.length) 0 := by
  rw [createTransactionEntrys, flatMap_transactionPieces,
    List.take_of_length_le (by simp only [persistTransactionSize]; omega)]

/-- Some piece carries the final index exactly when the encoding is not a multiple of 192 bytes
long: otherwise the last piece is numbered one below it. -/
theorem exists_final_piece_iff (txn : Transaction H) :
    (∃ et ∈ createTransactionEntrys transactionID txn, et.index = et.finalIndex) ↔
      txn.marshalSia.length % persistTransactionSize ≠ 0 := by
  simp only [createTransactionEntrys, transactionPiece, List.mem_map, List.mem_range,
    persistTransactionSize]
  constructor
  · rintro ⟨_, ⟨index, below, rfl⟩, final⟩
    dsimp only at final
    omega
  · intro unaligned
    exact ⟨_, ⟨txn.marshalSia.length / 192, by omega, rfl⟩, rfl⟩

end Create

/-- The loop of `createTransactionFeeUIDEntrys` over the UIDs left: a UID joins the pending
entry, which is written once its slots fill `persistFeeUIDsSize` bytes or no UID follows
(`i+1 < len(feeUIDs)` fails). -/
def packFeeUIDs (pending : List U) : List U → List (List U)
  | [] => []
  | feeUID :: rest =>
    let pending := pending ++ [feeUID]
    if marshalledFeeUIDSize * pending.length < persistFeeUIDsSize ∧ 0 < rest.length then
      packFeeUIDs pending rest
    else pending :: packFeeUIDs [] rest

/-- Packing loses no UID and keeps their order: a pending UID is always followed by another. -/
theorem flatten_packFeeUIDs (pending feeUIDs : List U) (started : pending = [] ∨ feeUIDs ≠ []) :
    (packFeeUIDs pending feeUIDs).flatten = pending ++ feeUIDs := by
  induction feeUIDs generalizing pending with
  | nil =>
    rcases started with rfl | nonempty
    · rfl
    · exact absurd rfl nonempty
  | cons feeUID rest ih =>
    simp only [packFeeUIDs]
    split
    · next room =>
      rw [ih _ (.inr (List.ne_nil_of_length_pos room.2)), List.append_assoc, List.singleton_append]
    · rw [List.flatten_cons]
      by_cases ended : rest = []
      · subst ended
        simp [packFeeUIDs]
      · rw [ih [] (.inr ended), List.nil_append, List.append_assoc, List.singleton_append]

/-- Every entry's UIDs fit its `persistFeeUIDsSize` bytes, so copying them never cuts one off. -/
theorem packFeeUIDs_fit (pending feeUIDs : List U)
    (room : marshalledFeeUIDSize * pending.length < persistFeeUIDsSize) :
    ∀ group ∈ packFeeUIDs pending feeUIDs,
      marshalledFeeUIDSize * group.length ≤ persistFeeUIDsSize := by
  induction feeUIDs generalizing pending with
  | nil => simp [packFeeUIDs]
  | cons feeUID rest ih =>
    have grown : marshalledFeeUIDSize * (pending ++ [feeUID]).length ≤ persistFeeUIDsSize := by
      simp only [marshalledFeeUIDSize, persistFeeUIDsSize, List.length_append,
        List.length_singleton] at room ⊢
      omega
    simp only [packFeeUIDs]
    split
    · next more => exact ih _ more.1
    · intro group member
      rcases List.mem_cons.mp member with rfl | later
      · exact grown
      · exact ih [] (by rw [List.length_nil]; decide) group later

theorem packFeeUIDs_ne_nil (pending feeUIDs : List U) (nonempty : feeUIDs ≠ []) :
    packFeeUIDs pending feeUIDs ≠ [] := by
  induction feeUIDs generalizing pending with
  | nil => exact absurd rfl nonempty
  | cons feeUID rest ih =>
    simp only [packFeeUIDs]
    split
    · next more => exact ih _ (List.ne_nil_of_length_pos more.2)
    · exact List.cons_ne_nil _ _

/-- `createTransactionFeeUIDEntrys`, behind `createTxnConfirmedEntrys`, `createTxnCreatedEntrys`
and `createTxnDroppedEntrys`. -/
def createTransactionFeeUIDEntrys (feeUIDs : List U) (txnID : H) (entryType : TxnEntryType)
    (timeStamp : Int) : List (PersistEntry U H) :=
  (packFeeUIDs [] feeUIDs).map fun group =>
    .transactionAndFeeUIDs entryType ⟨group, group.length, timeStamp, txnID⟩

/-- The entries of a transaction event with fees, as groups: a first one and the rest. -/
theorem createTransactionFeeUIDEntrys_cons (feeUIDs : List U) (nonempty : feeUIDs ≠ [])
    (txnID : H) (entryType : TxnEntryType) (timestamp : Int) :
    ∃ group rest, (group :: rest).flatten = feeUIDs ∧
      createTransactionFeeUIDEntrys feeUIDs txnID entryType timestamp =
        (group :: rest).map fun group => PersistEntry.transactionAndFeeUIDs entryType
          ⟨group, group.length, timestamp, txnID⟩ := by
  obtain ⟨group, rest, packed⟩ := List.exists_cons_of_ne_nil (packFeeUIDs_ne_nil [] feeUIDs nonempty)
  refine ⟨group, rest, ?_, by rw [createTransactionFeeUIDEntrys, packed]⟩
  rw [← packed, flatten_packFeeUIDs [] feeUIDs (.inl rfl), List.nil_append]

/-! ### Reading transaction pieces -/

/-- `partialTransactions`: the bytes of the pieces of one transaction read so far. -/
structure PartialTransactions (H : Type) where
  finalIndex : ℕ
  txnBytes : List UInt8
  txnID : H

/-- Why applying an entry fails. -/
inductive PersistError (H : Type) where
  /-- "unable to unmarshal transaction" -/
  | unmarshalTransaction (err : DecodeError)
  /-- `errTxnExists`: "transaction already exists in the watchdog" -/
  | txnExists (txnID : H)
  /-- "could not unmarshal feeUID" -/
  | unmarshalFeeUID
  /-- "fee not found in map but has transaction created persist entry" -/
  | feeNotFound
  /-- "Fee Update found for non existent or cancelled fee" -/
  | updateForMissingFee

section Build

variable [HashBytes H] [HashRead H] [DecidableEq H] (l : AllocLimits)

/-- `managedBuildTransaction`: the piece's bytes go after those read so far; the piece whose index
is the final one decodes them all, and the transaction leaves the map. -/
def managedBuildTransaction (partialTxns : Finmap fun _ : H => PartialTransactions H)
    (et : EntryTransaction H) :
    Except (PersistError H) ((Finmap fun _ : H => PartialTransactions H) × Option (Transaction H)) :=
  let pTxn := (partialTxns.lookup et.txnID).getD ⟨et.finalIndex, [], et.txnID⟩
  let pTxn := { pTxn with txnBytes := pTxn.txnBytes ++ et.txnBytes.toList }
  if et.index ≠ pTxn.finalIndex then .ok (partialTxns.insert et.txnID pTxn, none)
  else
    match (Transaction.unmarshalSia l).run pTxn.txnBytes with
    | .error err => .error (.unmarshalTransaction err)
    | .ok (txn, _) => .ok (partialTxns.erase et.txnID, some txn)

end Build

end Sia.FeeManager
