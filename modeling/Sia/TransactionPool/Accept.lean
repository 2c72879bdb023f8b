import Sia.TransactionPool.FindSets
import Sia.TransactionPool.Standard
import Sia.Consensus.Subscribe
import Sia.Lib.GoMap

/-! `modules/transactionpool/accept.go`: how a transaction set enters the pool. The pool files
each set under the hash of its transactions and marks the objects the set touches in
`knownObjects`. A set that touches a marked object conflicts with the set that marked it;
`handleConflicts` then drops the transactions those sets already hold and, if any were dropped,
starts again with what is left, else merges the conflict sets and the new transactions into one
superset that must pass the checks as a whole. Consensus validity (`txnFn`) is a parameter, as
is the fee curve `requiredFeesToExtendTpoolAtSize`, which Go computes in floating point. The
order in which Go ranges over a map is a `GoMap.RangeOrder`.

A successful accept never drops a pooled transaction, pools every unconfirmed transaction it is
given (or one with the same ID), and keeps the pool's size counter, its naming of sets and the
standard rules. -/
namespace Sia

open Consensus (ConsensusChangeDiffs)

/-- The pool: its maps, its size counter, the chain height and the fee estimate, and the two
records of its database it reads back, the confirmed transactions and the most recent block
(`none` before the first consensus change, `errNilRecentBlock`). Maps only read by key are
functions. -/
structure TransactionPool (H : Type) where
  knownObjects : H → Option H
  transactionHeights : H → Option UInt64
  transactionSets : Finmap (fun _ : H => List (Transaction H))
  transactionSetDiffs : H → Option (ConsensusChangeDiffs H)
  transactionListSize : ℤ
  blockHeight : UInt64
  recentMedians : List Currency
  recentMedianFee : Currency
  confirmedTransactions : Finset H
  recentBlockID : Option H

namespace TransactionPool

/-- The hashes the pool names things by, beside those of `findSets`: a set's ID
(`crypto.HashObject(ts)`) and a block's ID. -/
structure PoolIDs (H : Type) extends TransactionIDs H where
  setID : List (Transaction H) → H
  blockID : Block H → H
  genesisID : H
  /-- `types.BlockID{}`, what `getRecentBlockID` leaves when the database holds no block ID. -/
  emptyBlockID : H

/-- `TransactionPoolSizeForFee`. -/
def transactionPoolSizeForFee : ℤ := 500000

variable {H : Type} [DecidableEq H]

/-- A transaction is pooled when a set of the pool holds it. -/
def Pooled (tp : TransactionPool H) (t : Transaction H) : Prop :=
  ∃ setID ts, tp.transactionSets.lookup setID = some ts ∧ t ∈ ts

section Conflicts

variable (ids : PoolIDs H) (order : GoMap.RangeOrder H)

/-- The objects one transaction adds to `oidMap` in `relatedObjectIDs`, loop by loop. -/
def relatedObjects (t : Transaction H) : List H :=
  t.siacoinInputs.map (·.parentID) ++
    (List.range t.siacoinOutputs.length).map (ids.siacoinOutputID t) ++
    (List.range t.fileContracts.length).map (ids.fileContractID t) ++
    t.fileContractRevisions.map (·.parentID) ++ t.storageProofs.map (·.parentID) ++
    t.siafundInputs.map (·.parentID) ++
    (List.range t.siafundOutputs.length).map (ids.siafundOutputID t)

/-- `relatedObjectIDs(ts)`: the keys of `oidMap`, in the order `range` visits them. -/
def relatedObjectIDs (ts : List (Transaction H)) : List H :=
  order.keys (ts.flatMap (relatedObjects ids)).toFinset

variable (tp : TransactionPool H)

/-- The sets that marked one of `oids`, once for each object found. -/
def conflictsOf (oids : List H) : List H := oids.filterMap tp.knownObjects

/-- The inner loop of `conflictMap`: every transaction of one conflict set, keyed by ID. -/
def markConflict (m : Finmap (fun _ : H => H)) (conflict : H) : Finmap (fun _ : H => H) :=
  ((tp.transactionSets.lookup conflict).getD []).foldl
    (fun m t => m.insert (ids.transactionID t) conflict) m

/-- `conflictMap`: the ID of every transaction of a conflict set, to the last conflict read that
holds it. -/
def conflictMap (conflicts : List H) : Finmap (fun _ : H => H) :=
  conflicts.foldl (tp.markConflict ids) ∅

/-- `dedupSet`: the transactions no conflict set holds, by ID. -/
def dedupSet (ts : List (Transaction H)) (conflicts : List H) : List (Transaction H) :=
  ts.filter fun t => ids.transactionID t ∉ tp.conflictMap ids conflicts

end Conflicts

/-- The first height a transaction is seen at: set only where none is recorded. -/
def recordHeight (ids : PoolIDs H) (height : UInt64) (heights : H → Option UInt64) (t : Transaction H) :
    H → Option UInt64 :=
  if (heights (ids.transactionID t)).isSome then heights
  else Function.update heights (ids.transactionID t) (some height)

/-- The IDs of the objects a set's diffs name. -/
def diffIDs (cc : ConsensusChangeDiffs H) : List H :=
  cc.siacoinOutputDiffs.map (·.id) ++ cc.fileContractDiffs.map (·.id) ++
    cc.siafundOutputDiffs.map (·.id)

/-! ### The conflict map -/

section ConflictMap

variable {ids : PoolIDs H} (tp : TransactionPool H)

theorem lookup_markConflict (m : Finmap (fun _ : H => H)) (conflict id : H) :
    (tp.markConflict ids m conflict).lookup id =
      if ∃ t ∈ (tp.transactionSets.lookup conflict).getD [], ids.transactionID t = id then
        some conflict
      else m.lookup id := by
  unfold markConflict
  generalize (tp.transactionSets.lookup conflict).getD [] = ts
  induction ts generalizing m with
  | nil => simp
  | cons t ts ih =>
    rw [List.foldl_cons, ih]
    by_cases same : ids.transactionID t = id
    · subst same
      simp
    · simp [same, Finmap.lookup_insert_of_ne _ (Ne.symm same)]

/-- An entry of the conflict map names a conflict read that holds a transaction with its ID. -/
theorem lookup_foldl_markConflict {conflicts : List H} {m : Finmap (fun _ : H => H)} {id c : H}
    (found : (conflicts.foldl (tp.markConflict ids) m).lookup id = some c) :
    (c ∈ conflicts ∧ ∃ t ∈ (tp.transactionSets.lookup c).getD [], ids.transactionID t = id) ∨
      m.lookup id = some c := by
  induction conflicts generalizing m with
  | nil => exact .inr found
  | cons conflict rest ih =>
    rcases ih found with ⟨later, holds⟩ | first
    · exact .inl ⟨List.mem_cons_of_mem _ later, holds⟩
    · rw [lookup_markConflict] at first
      split at first
      · cases first
        exact .inl ⟨List.mem_cons_self, ‹_›⟩
      · exact .inr first

theorem mem_foldl_markConflict (conflicts : List H) (m : Finmap (fun _ : H => H)) (id : H) :
    id ∈ conflicts.foldl (tp.markConflict ids) m ↔
      (∃ c ∈ conflicts, ∃ t ∈ (tp.transactionSets.lookup c).getD [], ids.transactionID t = id) ∨
        id ∈ m := by
  induction conflicts generalizing m with
  | nil => simp
  | cons conflict rest ih =>
    rw [List.foldl_cons, ih, ← Finmap.lookup_isSome, ← Finmap.lookup_isSome, lookup_markConflict]
    by_cases holds : ∃ t ∈ (tp.transactionSets.lookup conflict).getD [], ids.transactionID t = id
    · simp [holds]
    · simp [holds]

/-- A transaction's ID is in the conflict map exactly when a conflict set holds a transaction with
that ID. -/
theorem mem_conflictMap (conflicts : List H) (id : H) :
    id ∈ tp.conflictMap ids conflicts ↔
      ∃ c ∈ conflicts, ∃ t ∈ (tp.transactionSets.lookup c).getD [], ids.transactionID t = id := by
  rw [conflictMap, mem_foldl_markConflict]
  simp [Finmap.notMem_empty]

/-- Every conflict the map names is a pooled set. -/
theorem mem_transactionSets_of_mem_values {conflicts : List H} {c : H}
    (named : c ∈ (tp.conflictMap ids conflicts).values) : c ∈ tp.transactionSets := by
  obtain ⟨id, found⟩ := Finmap.mem_values.mp named
  rcases tp.lookup_foldl_markConflict found with ⟨-, t, member, -⟩ | none
  · by_contra absent
    rw [Finmap.lookup_eq_none.mpr absent] at member
    cases member
  · simp at none

theorem pooled_of_mem_getD {c : H} {t : Transaction H}
    (member : t ∈ (tp.transactionSets.lookup c).getD []) : tp.Pooled t := by
  cases found : tp.transactionSets.lookup c with
  | none => simp [found] at member
  | some set =>
    rw [found, Option.getD_some] at member
    exact ⟨c, set, found, member⟩

theorem mem_dedupSet {ts : List (Transaction H)} {conflicts : List H} {t : Transaction H} :
    t ∈ tp.dedupSet ids ts conflicts ↔ t ∈ ts ∧
      ¬ ∃ c ∈ conflicts, ∃ t' ∈ (tp.transactionSets.lookup c).getD [],
        ids.transactionID t' = ids.transactionID t := by
  simp only [dedupSet, List.mem_filter, decide_eq_true_eq, mem_conflictMap]

end ConflictMap

variable [HashBytes H]

/-- `len(encoding.Marshal(ts))`: a length prefix, then every transaction. -/
def encodedSize (ts : List (Transaction H)) : ℕ :=
  (Encoding.writeList Transaction.marshalSia ts).length

/-- Every set's encoded size, the total the size counter tracks. -/
def totalSize (tp : TransactionPool H) : ℕ :=
  Finmap.total (fun _ ts => encodedSize ts) tp.transactionSets

section Accept

variable (ids : PoolIDs H) (order : GoMap.RangeOrder H) (feesAtSize : ℤ → Currency)
  (txnFn : List (Transaction H) → Except String (ConsensusChangeDiffs H))

section Checks

variable (tp : TransactionPool H)

/-- `requiredFeesToExtendTpool`: nothing while the pool is small. -/
def requiredFeesToExtendTpool : Currency :=
  if tp.transactionListSize < transactionPoolSizeForFee then 0
  else feesAtSize tp.transactionListSize

/-- The fee check `acceptTransactionSet` and `handleConflicts` both make: the fees per byte the
pool asks for, times the set's size, must not exceed the set's miner fees. -/
def checkFees (ts : List (Transaction H)) (setSize : ℕ) : Except PoolError Unit :=
  Except.failIf
    (tp.requiredFeesToExtendTpool feesAtSize * setSize > (ts.flatMap (·.minerFees)).sum)
    .lowMinerFees

/-- `checkTransactionSetComposition`: a set already filed is a duplicate; otherwise the standard
rules give its size. -/
def checkTransactionSetComposition (ts : List (Transaction H)) : Except PoolError ℕ :=
  if ids.setID ts ∈ tp.transactionSets then .error .duplicateTransactionSet
  else isStandardTransactionSet ts

/-- One iteration of the loop that removes the conflict sets. -/
def removeSet (conflict : H) : TransactionPool H :=
  { tp with
    transactionListSize :=
      tp.transactionListSize - encodedSize ((tp.transactionSets.lookup conflict).getD [])
    transactionSets := tp.transactionSets.erase conflict
    transactionSetDiffs := Function.update tp.transactionSetDiffs conflict none }

end Checks

/-- Filing a set: under its hash, with `marked` pointing at it, its diffs, its size counted and a
height recorded for each transaction first seen. -/
def addSet (tp : TransactionPool H) (ts : List (Transaction H)) (marked : List H)
    (cc : ConsensusChangeDiffs H) : TransactionPool H :=
  let setID := ids.setID ts
  { tp with
    transactionSets := tp.transactionSets.insert setID ts
    knownObjects := SetFinder.mark setID tp.knownObjects marked
    transactionSetDiffs := Function.update tp.transactionSetDiffs setID (some cc)
    transactionListSize := tp.transactionListSize + encodedSize ts
    transactionHeights := ts.foldl (recordHeight ids tp.blockHeight) tp.transactionHeights }

/-- `handleConflicts(ts, conflicts, txnFn)`. -/
def handleConflicts (tp : TransactionPool H) (ts : List (Transaction H)) (conflicts : List H) :
    Except PoolError (List (Transaction H) × TransactionPool H) :=
  let dedup := tp.dedupSet ids ts conflicts
  if dedup = [] then .error .duplicateTransactionSet
  else if dedup.length < ts.length then
    -- some transactions were already pooled: start again with the conflicts of the rest
    handleConflicts tp dedup (tp.conflictsOf (relatedObjectIDs ids order dedup))
  else do
    let supersetMap := (tp.conflictMap ids conflicts).values.toFinset
    let superset := (order.keys supersetMap).flatMap
      (fun conflict => (tp.transactionSets.lookup conflict).getD []) ++ dedup
    let setSize ← tp.checkTransactionSetComposition ids superset
    tp.checkFees feesAtSize superset setSize
    let cc ← (txnFn superset).mapError fun err =>
      .consensusConflict ("provided transaction set has prereqs, but is still invalid: " ++ err)
    let tp := (order.keys supersetMap).foldl removeSet tp
    pure (superset, tp.addSet ids superset (diffIDs cc) cc)
termination_by ts.length

/-- `acceptTransactionSet(ts, txnFn)`: the superset pooled and the pool after it. -/
def acceptTransactionSet (tp : TransactionPool H) (ts : List (Transaction H)) :
    Except PoolError (List (Transaction H) × TransactionPool H) :=
  if ts = [] then .error .emptySet else
  let ts := ts.filter fun t => ids.transactionID t ∉ tp.confirmedTransactions
  if ts = [] then .error .duplicateTransactionSet else do
  let setSize ← tp.checkTransactionSetComposition ids ts
  tp.checkFees feesAtSize ts setSize
  let oids := relatedObjectIDs ids order ts
  let conflicts := tp.conflictsOf oids
  if conflicts ≠ [] then tp.handleConflicts ids order feesAtSize txnFn ts conflicts else do
  let cc ← (txnFn ts).mapError fun err =>
    .consensusConflict ("provided transaction set is invalid: " ++ err)
  pure (ts, tp.addSet ids ts oids cc)

/-! ### Removing and filing sets -/

section Files

variable (tp : TransactionPool H)

@[simp] theorem removeSet_transactionSets (c : H) :
    (tp.removeSet c).transactionSets = tp.transactionSets.erase c := rfl

@[simp] theorem removeSet_confirmedTransactions (c : H) :
    (tp.removeSet c).confirmedTransactions = tp.confirmedTransactions := rfl

@[simp] theorem addSet_transactionSets (ts : List (Transaction H)) (marked : List H)
    (cc : ConsensusChangeDiffs H) :
    (tp.addSet ids ts marked cc).transactionSets = tp.transactionSets.insert (ids.setID ts) ts :=
  rfl

@[simp] theorem addSet_confirmedTransactions (ts : List (Transaction H)) (marked : List H)
    (cc : ConsensusChangeDiffs H) :
    (tp.addSet ids ts marked cc).confirmedTransactions = tp.confirmedTransactions := rfl

theorem foldl_removeSet_transactionSets (merged : List H) :
    (merged.foldl removeSet tp).transactionSets =
      merged.foldl (fun m c => m.erase c) tp.transactionSets := by
  induction merged generalizing tp with
  | nil => rfl
  | cons c rest ih => exact ih (tp.removeSet c)

theorem foldl_removeSet_confirmedTransactions (merged : List H) :
    (merged.foldl removeSet tp).confirmedTransactions = tp.confirmedTransactions := by
  induction merged generalizing tp with
  | nil => rfl
  | cons c rest ih => exact ih (tp.removeSet c)

theorem lookup_foldl_removeSet (merged : List H) (c : H) :
    (merged.foldl removeSet tp).transactionSets.lookup c =
      if c ∈ merged then none else tp.transactionSets.lookup c := by
  rw [foldl_removeSet_transactionSets]
  simpa using Finmap.lookup_foldl_erase (fun c : H => c) merged tp.transactionSets c

/-- Removing pooled sets, each once, takes their sizes off the counter and the total alike. -/
theorem foldl_removeSet_sized {merged : List H} {tp : TransactionPool H} (nodup : merged.Nodup)
    (present : ∀ c ∈ merged, c ∈ tp.transactionSets)
    (sized : tp.transactionListSize = tp.totalSize) :
    (merged.foldl removeSet tp).transactionListSize = (merged.foldl removeSet tp).totalSize := by
  induction merged generalizing tp with
  | nil => exact sized
  | cons c rest ih =>
    obtain ⟨fresh, restNodup⟩ := List.nodup_cons.mp nodup
    obtain ⟨set, found⟩ := Finmap.mem_iff.mp (present c List.mem_cons_self)
    apply ih restNodup
    · intro c' later
      exact Finmap.mem_erase.mpr ⟨fun same => fresh (same ▸ later),
        present c' (List.mem_cons_of_mem _ later)⟩
    · have erased := Finmap.total_erase (fun _ ts => encodedSize ts) found
      simp only [removeSet, totalSize, found, Option.getD_some] at erased sized ⊢
      omega

/-- Filing a set under an unused ID adds its size to the counter and the total alike. -/
theorem addSet_sized {ts : List (Transaction H)} {marked : List H} {cc : ConsensusChangeDiffs H}
    (fresh : ids.setID ts ∉ tp.transactionSets) (sized : tp.transactionListSize = tp.totalSize) :
    (tp.addSet ids ts marked cc).transactionListSize = (tp.addSet ids ts marked cc).totalSize := by
  have inserted := Finmap.total_insert_of_notMem (fun _ ts => encodedSize ts) ts fresh
  simp only [addSet, totalSize] at inserted sized ⊢
  omega

end Files

/-! ### What a successful accept does -/

/-- A successful accept removes the sets `merged`, each pooled and each named once, and files
`superset`, their transactions followed by `added`, under an ID not in use, after the standard
rules passed it. Every transaction of the set given is added or already pooled under its ID. -/
inductive Merges (tp : TransactionPool H) (ts superset : List (Transaction H))
    (tp' : TransactionPool H) : Prop where
  | intro (merged : List H) (added : List (Transaction H)) (marked : List H)
      (cc : ConsensusChangeDiffs H) (nodup : merged.Nodup)
      (present : ∀ c ∈ merged, c ∈ tp.transactionSets) (subset : ∀ t ∈ added, t ∈ ts)
      (covered : ∀ t ∈ ts, t ∈ added ∨
        ∃ t', tp.Pooled t' ∧ ids.transactionID t' = ids.transactionID t)
      (fresh : ids.setID superset ∉ tp.transactionSets)
      (standard : ∃ n, isStandardTransactionSet superset = .ok n)
      (superset_eq : superset =
        merged.flatMap (fun c => (tp.transactionSets.lookup c).getD []) ++ added)
      (after : tp' = (merged.foldl removeSet tp).addSet ids superset marked cc)

section Merging

variable {ids order feesAtSize txnFn} {tp tp' : TransactionPool H}
  {superset : List (Transaction H)}

theorem checkTransactionSetComposition_eq_ok {ts : List (Transaction H)} {n : ℕ}
    (composed : tp.checkTransactionSetComposition ids ts = .ok n) :
    ids.setID ts ∉ tp.transactionSets ∧ isStandardTransactionSet ts = .ok n := by
  unfold checkTransactionSetComposition at composed
  split at composed
  · cases composed
  · exact ⟨‹_›, composed⟩

/-- A merge found after deduplication is one for the whole set: what was dropped is pooled. -/
theorem Merges.of_dedupSet {ts : List (Transaction H)} {conflicts : List H}
    (inner : Merges ids tp (tp.dedupSet ids ts conflicts) superset tp') :
    Merges ids tp ts superset tp' := by
  obtain ⟨merged, added, marked, cc, nodup, present, subset, covered, fresh, standard, rfl, rfl⟩ :=
    inner
  refine ⟨merged, added, marked, cc, nodup, present, fun t member => ?_, fun t member => ?_,
    fresh, standard, rfl, rfl⟩
  · exact (tp.mem_dedupSet.mp (subset t member)).1
  · by_cases kept : t ∈ tp.dedupSet ids ts conflicts
    · exact covered t kept
    · -- a conflict set holds a transaction with the same ID
      have held : ∃ c ∈ conflicts, ∃ t' ∈ (tp.transactionSets.lookup c).getD [],
          ids.transactionID t' = ids.transactionID t := by
        by_contra none
        exact kept (tp.mem_dedupSet.mpr ⟨member, none⟩)
      obtain ⟨c, -, t', inSet, sameID⟩ := held
      cases found : tp.transactionSets.lookup c with
      | none => simp [found] at inSet
      | some set =>
        rw [found, Option.getD_some] at inSet
        exact .inr ⟨t', ⟨c, set, found, inSet⟩, sameID⟩

theorem handleConflicts_merges {ts : List (Transaction H)} {conflicts : List H}
    (ran : tp.handleConflicts ids order feesAtSize txnFn ts conflicts = .ok (superset, tp')) :
    Merges ids tp ts superset tp' := by
  rw [handleConflicts] at ran
  dsimp only at ran
  split at ran
  · cases ran
  split at ran
  · rename_i shorter
    exact (handleConflicts_merges ran).of_dedupSet
  · rename_i kept
    obtain ⟨setSize, composed, ran⟩ := Except.bind_eq_ok.mp ran
    obtain ⟨⟨⟩, -, ran⟩ := Except.bind_eq_ok.mp ran
    obtain ⟨cc, -, ran⟩ := Except.bind_eq_ok.mp ran
    cases ran
    obtain ⟨fresh, standard⟩ := checkTransactionSetComposition_eq_ok composed
    -- nothing was dropped, so the deduplicated set is the set given
    have same : tp.dedupSet ids ts conflicts = ts := by
      apply List.filter_eq_self.mpr
      rw [← List.length_filter_eq_length_iff]
      have shorter := List.length_filter_le (fun t => decide (ids.transactionID t ∉
        tp.conflictMap ids conflicts)) ts
      exact le_antisymm shorter (not_lt.mp kept)
    refine ⟨_, _, _, cc, order.nodup_keys _, fun c listed => ?_, fun t member => ?_,
      fun t member => .inl (by rw [same]; exact member), fresh, ⟨setSize, standard⟩, rfl, rfl⟩
    · have named := Multiset.mem_toFinset.mp (order.mem_keys.mp listed)
      exact tp.mem_transactionSets_of_mem_values named
    · rwa [same] at member
termination_by ts.length
decreasing_by assumption

/-- What every successful `acceptTransactionSet` does, with the confirmed transactions of the set
given dropped first. -/
theorem acceptTransactionSet_merges {ts : List (Transaction H)}
    (ran : tp.acceptTransactionSet ids order feesAtSize txnFn ts = .ok (superset, tp')) :
    Merges ids tp (ts.filter fun t => ids.transactionID t ∉ tp.confirmedTransactions)
      superset tp' := by
  unfold acceptTransactionSet at ran
  split at ran
  · cases ran
  dsimp only at ran
  split at ran
  · cases ran
  obtain ⟨setSize, composed, ran⟩ := Except.bind_eq_ok.mp ran
  obtain ⟨⟨⟩, -, ran⟩ := Except.bind_eq_ok.mp ran
  split at ran
  · exact handleConflicts_merges ran
  · obtain ⟨cc, -, ran⟩ := Except.bind_eq_ok.mp ran
    cases ran
    obtain ⟨fresh, standard⟩ := checkTransactionSetComposition_eq_ok composed
    exact ⟨[], _, _, cc, List.nodup_nil, by simp, fun _ member => member,
      fun _ member => .inl member, fresh, ⟨setSize, standard⟩, by simp, rfl⟩

/-! ### What every accepted set keeps -/

/-- Every filed set has its consensus diff. -/
def Diffed (tp : TransactionPool H) : Prop :=
  ∀ setID ∈ tp.transactionSets, (tp.transactionSetDiffs setID).isSome

/-- What every pool the node reaches keeps: the size counter is the encoded size of the sets,
each set is filed under its hash and passes the standard rules, no pooled transaction is
confirmed, and every filed set has its consensus diff. -/
structure Invariant (ids : PoolIDs H) (tp : TransactionPool H) : Prop where
  sized : tp.transactionListSize = tp.totalSize
  named : ∀ setID ts, tp.transactionSets.lookup setID = some ts → ids.setID ts = setID
  standard : ∀ setID ts, tp.transactionSets.lookup setID = some ts →
    ∃ n, isStandardTransactionSet ts = .ok n
  unconfirmed : ∀ t, tp.Pooled t → ids.transactionID t ∉ tp.confirmedTransactions
  diffed : tp.Diffed

theorem Diffed.removeSet {c : H} (diffed : tp.Diffed) : (tp.removeSet c).Diffed := by
  intro setID member
  obtain ⟨other, kept⟩ := Finmap.mem_erase.mp member
  simp only [TransactionPool.removeSet, Function.update_of_ne other]
  exact diffed setID kept

theorem Diffed.addSet {ts : List (Transaction H)} {marked : List H} {cc : ConsensusChangeDiffs H}
    (diffed : tp.Diffed) : (tp.addSet ids ts marked cc).Diffed := by
  intro setID member
  by_cases same : setID = ids.setID ts
  · simp [TransactionPool.addSet, same]
  · have kept : setID ∈ tp.transactionSets := (Finmap.mem_insert.mp member).resolve_left same
    simp only [TransactionPool.addSet, Function.update_of_ne same]
    exact diffed setID kept

theorem lookup_addSet_foldl_removeSet (merged : List H) (superset : List (Transaction H))
    (marked : List H) (cc : ConsensusChangeDiffs H) (c : H) :
    ((merged.foldl removeSet tp).addSet ids superset marked cc).transactionSets.lookup c =
      if c = ids.setID superset then some superset
      else if c ∈ merged then none else tp.transactionSets.lookup c := by
  rw [addSet_transactionSets]
  split
  · next same => rw [same, Finmap.lookup_insert]
  · next other => rw [Finmap.lookup_insert_of_ne _ other, lookup_foldl_removeSet]

variable {ts : List (Transaction H)}

/-- The superset is filed under its hash. -/
theorem Merges.lookup_superset (merges : Merges ids tp ts superset tp') :
    tp'.transactionSets.lookup (ids.setID superset) = some superset := by
  obtain ⟨merged, added, marked, cc, -, -, -, -, -, -, -, rfl⟩ := merges
  rw [lookup_addSet_foldl_removeSet, if_pos rfl]

/-- A merge drops no pooled transaction: a merged set's transactions move into the superset. -/
theorem Merges.pooled_of_pooled (merges : Merges ids tp ts superset tp') {t : Transaction H}
    (pooled : tp.Pooled t) : tp'.Pooled t := by
  have filed := merges.lookup_superset
  obtain ⟨merged, added, marked, cc, -, -, -, -, fresh, -, superset_eq, rfl⟩ := merges
  obtain ⟨c, set, found, member⟩ := pooled
  by_cases wasMerged : c ∈ merged
  · refine ⟨_, superset, filed, ?_⟩
    rw [superset_eq]
    exact List.mem_append_left _ (List.mem_flatMap.mpr ⟨c, wasMerged, by rw [found]; exact member⟩)
  · have other : c ≠ ids.setID superset := fun same =>
      fresh (same ▸ Finmap.mem_of_lookup_eq_some found)
    refine ⟨c, set, ?_, member⟩
    rw [lookup_addSet_foldl_removeSet, if_neg other, if_neg wasMerged, found]

theorem Merges.confirmedTransactions (merges : Merges ids tp ts superset tp') :
    tp'.confirmedTransactions = tp.confirmedTransactions := by
  obtain ⟨merged, added, marked, cc, -, -, -, -, -, -, -, rfl⟩ := merges
  rw [addSet_confirmedTransactions, foldl_removeSet_confirmedTransactions]

/-- Everything pooled after a merge was pooled before it or given to it. -/
theorem Merges.pooled_cases (merges : Merges ids tp ts superset tp') {t : Transaction H}
    (pooled : tp'.Pooled t) : tp.Pooled t ∨ t ∈ ts := by
  obtain ⟨merged, added, marked, cc, -, -, subset, -, -, -, superset_eq, rfl⟩ := merges
  obtain ⟨c, set, found, member⟩ := pooled
  rw [lookup_addSet_foldl_removeSet] at found
  split_ifs at found with same wasMerged
  · cases found
    rw [superset_eq, List.mem_append, List.mem_flatMap] at member
    rcases member with ⟨c', -, inSet⟩ | fresh
    · exact .inl (pooled_of_mem_getD _ inSet)
    · exact .inr (subset t fresh)
  · exact .inl ⟨c, set, found, member⟩

/-- A merge of unconfirmed transactions keeps the invariant. -/
theorem Merges.invariant (merges : Merges ids tp ts superset tp') (inv : tp.Invariant ids)
    (unconfirmedInput : ∀ t ∈ ts, ids.transactionID t ∉ tp.confirmedTransactions) :
    tp'.Invariant ids := by
  have cases' : ∀ t, tp'.Pooled t → tp.Pooled t ∨ t ∈ ts := fun _ => merges.pooled_cases
  obtain ⟨merged, added, marked, cc, nodup, present, -, -, fresh, standard, -, rfl⟩ := merges
  have freshAfter : ids.setID superset ∉ (merged.foldl removeSet tp).transactionSets := by
    rw [← Finmap.lookup_eq_none, lookup_foldl_removeSet]
    split
    · rfl
    · exact Finmap.lookup_eq_none.mpr fresh
  constructor
  · exact addSet_sized _ _ freshAfter (foldl_removeSet_sized nodup present inv.sized)
  · intro c set found
    rw [lookup_addSet_foldl_removeSet] at found
    split_ifs at found with same
    · cases found
      exact same.symm
    · exact inv.named c set found
  · intro c set found
    rw [lookup_addSet_foldl_removeSet] at found
    split_ifs at found
    · cases found
      exact standard
    · exact inv.standard c set found
  · intro t pooled
    rw [addSet_confirmedTransactions, foldl_removeSet_confirmedTransactions]
    rcases cases' t pooled with before | given
    · exact inv.unconfirmed t before
    · exact unconfirmedInput t given
  · exact (OptionLoop.foldl_invariant Diffed (fun _ _ diffed => diffed.removeSet) merged
      inv.diffed).addSet

/-- A successful accept keeps the invariant. -/
theorem acceptTransactionSet_invariant (inv : tp.Invariant ids)
    (ran : tp.acceptTransactionSet ids order feesAtSize txnFn ts = .ok (superset, tp')) :
    tp'.Invariant ids :=
  (acceptTransactionSet_merges ran).invariant inv fun _ kept => by
    simpa using (List.mem_filter.mp kept).2

/-- A successful accept drops no pooled transaction, pools every unconfirmed transaction it is
given or one with the same ID, and files the superset it returns under its hash. -/
theorem acceptTransactionSet_pools
    (ran : tp.acceptTransactionSet ids order feesAtSize txnFn ts = .ok (superset, tp')) :
    (∀ t, tp.Pooled t → tp'.Pooled t) ∧
      (∀ t ∈ ts, ids.transactionID t ∉ tp.confirmedTransactions →
        ∃ t', tp'.Pooled t' ∧ ids.transactionID t' = ids.transactionID t) ∧
      tp'.transactionSets.lookup (ids.setID superset) = some superset := by
  have merges := acceptTransactionSet_merges ran
  have keeps : ∀ t, tp.Pooled t → tp'.Pooled t := fun _ => merges.pooled_of_pooled
  have filed := merges.lookup_superset
  refine ⟨keeps, fun t given unconfirmed => ?_, filed⟩
  have kept : t ∈ ts.filter fun t => ids.transactionID t ∉ tp.confirmedTransactions := by
    simpa using And.intro given unconfirmed
  obtain ⟨merged, added, marked, cc, -, -, -, covered, -, -, superset_eq, -⟩ := merges
  rcases covered t kept with fresh | ⟨t', pooled, sameID⟩
  · refine ⟨t, ⟨_, superset, filed, ?_⟩, rfl⟩
    rw [superset_eq]
    exact List.mem_append_right _ fresh
  · exact ⟨t', keeps t' pooled, sameID⟩

/-- IDs over `ℕ` for the samples: a set is named by its length and a block by its timestamp. -/
def samplePoolIDs : PoolIDs ℕ :=
  { sampleIDs with
    setID := fun ts => 1000 + ts.length
    blockID := fun b => b.timestamp.toNat
    genesisID := 0
    emptyBlockID := 0 }

def emptyDiffs : ConsensusChangeDiffs ℕ := ⟨[], [], [], [], []⟩

/-- An empty pool at height 10, whose recent block is block 5. -/
def emptyPool : TransactionPool ℕ where
  knownObjects _ := none
  transactionHeights _ := none
  transactionSets := ∅
  transactionSetDiffs _ := none
  transactionListSize := 0
  blockHeight := 10
  recentMedians := []
  recentMedianFee := 0
  confirmedTransactions := ∅
  recentBlockID := some 5

set_option maxRecDepth 4000 in
theorem emptyPool_accepts_creatingSeven :
    ∃ superset tp', emptyPool.acceptTransactionSet samplePoolIDs (GoMap.RangeOrder.sorted (· ≤ ·))
        (fun _ => 0) (fun _ => .ok emptyDiffs) [creatingSeven] = .ok (superset, tp') ∧
      (∀ t, emptyPool.Pooled t → tp'.Pooled t) ∧
      (∀ t ∈ [creatingSeven], samplePoolIDs.transactionID t ∉ emptyPool.confirmedTransactions →
        ∃ t', tp'.Pooled t' ∧ samplePoolIDs.transactionID t' = samplePoolIDs.transactionID t) ∧
      tp'.transactionSets.lookup (samplePoolIDs.setID superset) = some superset := by
  obtain ⟨superset, tp', ran⟩ : ∃ superset tp', emptyPool.acceptTransactionSet samplePoolIDs
      (GoMap.RangeOrder.sorted (· ≤ ·)) (fun _ => 0) (fun _ => .ok emptyDiffs) [creatingSeven] =
        .ok (superset, tp') := ⟨_, _, rfl⟩
  exact ⟨superset, tp', ran, acceptTransactionSet_pools ran⟩

end Merging

end Accept

end TransactionPool

end Sia