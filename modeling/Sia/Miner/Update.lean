import Sia.Miner.SplitSetHeap
import Sia.Lib.OptionLoop
import Mathlib.Algebra.Order.BigOperators.Group.List
import Mathlib.Algebra.Order.Group.Nat

/-! `modules/miner/update.go`: the miner's choice of unconfirmed transactions for its block. Each
applied transaction set becomes one split set; a split set goes to the block heap while the block
has room under `BlockSizeLimit - 5e3`, else it may evict lower-fee sets to the overflow heap. A
reverted set leaves its heap, and the block heap then promotes sets from the overflow heap. The
block's transactions are kept in `unsolvedTransactions`, with their positions in
`unsolvedBlockIndex`.

The state is the part of `Miner` these functions read and write. A Go map read with its default
(`fullSets`, `splitSetIDFromTxID`, `unsolvedBlockIndex`) is a function giving the default for a
missing key, and `delete` sets it back to the default; `splitSets` holds pointers, so a missing key
is a nil set. A transaction's ID is the parameter `txID`. A Go panic is `none`; Go's iteration
over a map is iteration over a list. -/
namespace Sia

/-- `types.BlockSizeLimit`. -/
def BlockSizeLimit : ℕ := 2000000

/-- `types.BlockSizeLimit - 5e3`, the bound the block heap's size is kept under. -/
def blockHeapLimit : ℕ := BlockSizeLimit - 5000

/-- `modules.UnconfirmedTransactionSet`, without the consensus change the miner does not read. -/
structure UnconfirmedTransactionSet (H : Type) where
  id : H
  ids : List H
  sizes : List ℕ
  transactions : List (Transaction H)

/-- `modules.TransactionPoolDiff`. -/
structure TransactionPoolDiff (H : Type) where
  appliedTransactions : List (UnconfirmedTransactionSet H)
  revertedTransactions : List H

/-- The transaction selection state of `Miner`. -/
structure Miner (H : Type) where
  fullSets : H → List SplitSetID
  blockMapHeap : MapHeap H
  overflowMapHeap : MapHeap H
  setCounter : ℕ
  splitSets : SplitSetID → Option (SplitSet H)
  splitSetIDFromTxID : H → SplitSetID
  unsolvedBlockIndex : H → ℕ
  /-- `persist.UnsolvedBlock.Transactions`. -/
  unsolvedTransactions : List (Transaction H)

variable {H : Type} [DecidableEq H]

/-- A fresh miner: empty maps, a min-heap for the block and a max-heap for the overflow. -/
def Miner.new : Miner H where
  fullSets := fun _ => []
  blockMapHeap := .empty true
  overflowMapHeap := .empty false
  setCounter := 0
  splitSets := fun _ => none
  splitSetIDFromTxID := fun _ => 0
  unsolvedBlockIndex := fun _ => 0
  unsolvedTransactions := []

/-- `a - b + c` in `uint64` arithmetic. -/
def uint64SubAdd (a b c : ℕ) : ℕ := (((a : ℤ) - b + c) % 2 ^ 64).toNat

/-- Without a wrap, `a - b + c` is the natural number. -/
theorem uint64SubAdd_of_le {a b c : ℕ} (within : b ≤ a) (small : a - b + c < 2 ^ 64) :
    uint64SubAdd a b c = a - b + c := by
  unfold uint64SubAdd
  omega

section Selection

variable (txID : Transaction H → H)

namespace Miner

/-- The size and the fees of the `i`-th transaction of a set: `Sizes[i]` and `Transactions[i]`,
indexed by a position of `IDs`. -/
def setPart (newSet : UnconfirmedTransactionSet H) (i : ℕ) : Option (ℕ × Currency) := do
  let size ← newSet.sizes[i]?
  let tx ← newSet.transactions[i]?
  pure (size, tx.minerFees.sum)

/-- `getNewSplitSets`: one split set per applied set, numbered by the counter. `Div64` by a zero
size divides a `big.Int` by zero. -/
def getNewSplitSets (m : Miner H) : List (UnconfirmedTransactionSet H) → Option (Miner H × List (MapElement H))
  | [] => some (m, [])
  | newSet :: rest => do
    let setCounter := m.setCounter + 1
    let m := { m with setCounter, fullSets := Function.update m.fullSets newSet.id [setCounter] }
    let parts ← (List.range newSet.ids.length).mapM (setPart newSet)
    let size := (parts.map Prod.fst).sum
    let totalFees := (parts.map Prod.snd).sum
    if size = 0 then none
    else do
      let elem : MapElement H := ⟨⟨totalFees / size, size, newSet.transactions⟩, setCounter⟩
      let (m, elements) ← getNewSplitSets m rest
      pure (m, elem :: elements)

/-- `pushToBlock`: the set joins the block heap, and its transactions the end of the block. -/
def pushToBlock (m : Miner H) (elem : MapElement H) : Option (Miner H) := do
  let blockMapHeap ← m.blockMapHeap.push elem
  let (unsolvedBlockIndex, unsolvedTransactions) := elem.set.transactions.foldl
    (fun (index, txs) tx => (Function.update index (txID tx) txs.length, txs ++ [tx]))
    (m.unsolvedBlockIndex, m.unsolvedTransactions)
  pure { m with blockMapHeap, unsolvedBlockIndex, unsolvedTransactions }

/-- `pushToOverflow`. -/
def pushToOverflow (m : Miner H) (elem : MapElement H) : Option (Miner H) := do
  let overflowMapHeap ← m.overflowMapHeap.push elem
  pure { m with overflowMapHeap }

/-- `popFromOverflow`. -/
def popFromOverflow (m : Miner H) : Option (MapElement H × Miner H) := do
  let (elem, overflowMapHeap) ← m.overflowMapHeap.pop
  pure (elem, { m with overflowMapHeap })

/-- `removeTxFromUnsolvedBlock`: the last transaction of the block moves into the hole, and its ID
is returned; a missing index reads as `0`. -/
def removeTxFromUnsolvedBlock (m : Miner H) (id : H) : Option (Miner H × H) :=
  let index := m.unsolvedBlockIndex id
  let length := m.unsolvedTransactions.length
  let unsolvedBlockIndex := Function.update m.unsolvedBlockIndex id 0
  if index + 1 = length then
    some ({ m with unsolvedBlockIndex, unsolvedTransactions := m.unsolvedTransactions.take index }, id)
  else do
    -- `Transactions[length-1]` and `Transactions[index]` must be in range
    let lastTx ← m.unsolvedTransactions[length - 1]?
    if length ≤ index then none
    else
      let lastTxID := txID lastTx
      some ({ m with
        unsolvedTransactions := (m.unsolvedTransactions.set index lastTx).take (length - 1)
        unsolvedBlockIndex := Function.update unsolvedBlockIndex lastTxID index }, lastTxID)

/-- `fixSplitSetOrdering`: the set's transactions take the set's positions in the block, sorted,
in the set's order. A missing split set is a nil pointer. -/
def fixSplitSetOrdering (m : Miner H) (id : SplitSetID) : Option (Miner H) := do
  let set ← m.splitSets id
  let setTxs := set.transactions
  if setTxs.length < 2 then pure m
  else
    let setTxIndices := (setTxs.map fun tx => m.unsolvedBlockIndex (txID tx)).mergeSort
    (setTxs.zip setTxIndices).foldlM (fun m (tx, expectedIndex) =>
      if m.unsolvedBlockIndex (txID tx) = expectedIndex then some m
      else if m.unsolvedTransactions.length ≤ expectedIndex then none
      else some { m with
        unsolvedTransactions := m.unsolvedTransactions.set expectedIndex tx
        unsolvedBlockIndex := Function.update m.unsolvedBlockIndex (txID tx) expectedIndex }) m

/-- `removeSplitSetFromUnsolvedBlock`: each transaction of the set leaves the block, and each other
set that a moved transaction belongs to has its order fixed, once. -/
def removeSplitSetFromUnsolvedBlock (m : Miner H) (id : SplitSetID) : Option (Miner H) := do
  let set ← m.splitSets id
  let (m, swappedTxs) ← set.transactions.foldlM (fun (m, swapped) tx => do
      let (m, moved) ← m.removeTxFromUnsolvedBlock txID (txID tx)
      pure (m, swapped.insert moved)) (m, ([] : List H))
  let (m, _) ← swappedTxs.foldlM (fun (m, setsFixed) moved => do
      let setID := m.splitSetIDFromTxID moved
      if setID ∈ setsFixed ∨ setID = id then pure (m, setsFixed)
      else do
        let m ← m.fixSplitSetOrdering txID setID
        pure (m, setID :: setsFixed)) (m, ([] : List SplitSetID))
  pure m

/-- `popFromBlock`. -/
def popFromBlock (m : Miner H) : Option (MapElement H × Miner H) := do
  let (elem, blockMapHeap) ← m.blockMapHeap.pop
  let m ← ({ m with blockMapHeap } : Miner H).removeSplitSetFromUnsolvedBlock txID elem.id
  pure (elem, m)

end Miner

end Selection

/-! ### The block's transactions are edited apart from the heaps -/

namespace Miner

/-- Two states with the same heaps. -/
def SameHeaps (m m' : Miner H) : Prop :=
  m'.blockMapHeap = m.blockMapHeap ∧ m'.overflowMapHeap = m.overflowMapHeap

omit [DecidableEq H] in
theorem SameHeaps.trans {m m' m'' : Miner H} (first : SameHeaps m m') (second : SameHeaps m' m'') :
    SameHeaps m m'' :=
  ⟨second.1.trans first.1, second.2.trans first.2⟩

variable {txID : Transaction H → H} {m m' : Miner H}

theorem removeTxFromUnsolvedBlock_sameHeaps {id moved : H}
    (removed : m.removeTxFromUnsolvedBlock txID id = some (m', moved)) : SameHeaps m m' := by
  unfold removeTxFromUnsolvedBlock at removed
  simp only at removed
  split at removed
  · cases removed
    exact ⟨rfl, rfl⟩
  obtain ⟨lastTx, _, rest⟩ := Option.bind_eq_some_iff.mp removed
  split at rest
  · cases rest
  · cases rest
    exact ⟨rfl, rfl⟩

theorem fixSplitSetOrdering_sameHeaps {id : SplitSetID}
    (fixed : m.fixSplitSetOrdering txID id = some m') : SameHeaps m m' := by
  unfold fixSplitSetOrdering at fixed
  obtain ⟨set, _, rest⟩ := Option.bind_eq_some_iff.mp fixed
  simp only at rest
  split at rest
  · cases rest
    exact ⟨rfl, rfl⟩
  -- every pass of the loop writes the block's transactions only
  refine OptionLoop.foldlM_invariant (SameHeaps m) ?_ ⟨rfl, rfl⟩ rest
  rintro c ⟨tx, expectedIndex⟩ c' _ same step
  split at step
  · cases step
    exact same
  split at step
  · cases step
  · cases step
    exact same

theorem removeSplitSetFromUnsolvedBlock_sameHeaps {id : SplitSetID}
    (removed : m.removeSplitSetFromUnsolvedBlock txID id = some m') : SameHeaps m m' := by
  unfold removeSplitSetFromUnsolvedBlock at removed
  obtain ⟨set, _, rest⟩ := Option.bind_eq_some_iff.mp removed
  obtain ⟨⟨m1, swappedTxs⟩, removals, rest⟩ := Option.bind_eq_some_iff.mp rest
  obtain ⟨⟨m2, _⟩, fixes, rest⟩ := Option.bind_eq_some_iff.mp rest
  cases rest
  have first : SameHeaps m m1 := OptionLoop.foldlM_invariant (fun c => SameHeaps m c.1)
    (fun c tx c' _ same step => by
      obtain ⟨⟨m'', moved⟩, removedTx, next⟩ := Option.bind_eq_some_iff.mp step
      cases next
      exact same.trans (removeTxFromUnsolvedBlock_sameHeaps removedTx)) ⟨rfl, rfl⟩ removals
  exact OptionLoop.foldlM_invariant (fun c => SameHeaps m c.1)
    (fun c moved c' _ same step => by
      obtain ⟨m0, setsFixed⟩ := c
      by_cases skip : m0.splitSetIDFromTxID moved ∈ setsFixed ∨ m0.splitSetIDFromTxID moved = id
      · simp only [skip, if_true, Option.pure_def, Option.some.injEq] at step
        subst step
        exact same
      · simp only [skip, if_false] at step
        obtain ⟨m'', fixedSet, next⟩ := Option.bind_eq_some_iff.mp step
        cases next
        exact same.trans (fixSplitSetOrdering_sameHeaps fixedSet)) first fixes

/-- A `popFromBlock` that does not panic takes one set off the block heap. -/
theorem popFromBlock_length {elem : MapElement H} (popped : m.popFromBlock txID = some (elem, m')) :
    m'.blockMapHeap.data.length + 1 = m.blockMapHeap.data.length := by
  unfold popFromBlock at popped
  obtain ⟨⟨elem', blockMapHeap⟩, heapPopped, rest⟩ := Option.bind_eq_some_iff.mp popped
  obtain ⟨m'', removed, same⟩ := Option.bind_eq_some_iff.mp rest
  cases same
  rw [(removeSplitSetFromUnsolvedBlock_sameHeaps removed).1]
  exact MapHeap.pop_length heapPopped

theorem pushToBlock_overflowMapHeap {elem : MapElement H} (pushed : m.pushToBlock txID elem = some m') :
    m'.overflowMapHeap = m.overflowMapHeap := by
  unfold pushToBlock at pushed
  obtain ⟨blockMapHeap, _, same⟩ := Option.bind_eq_some_iff.mp pushed
  cases same
  rfl

omit [DecidableEq H] in
/-- A `popFromOverflow` that does not panic takes one set off the overflow heap. -/
theorem popFromOverflow_length {elem : MapElement H} (popped : m.popFromOverflow = some (elem, m')) :
    m'.overflowMapHeap.data.length + 1 = m.overflowMapHeap.data.length := by
  unfold popFromOverflow at popped
  obtain ⟨⟨elem', overflowMapHeap⟩, heapPopped, same⟩ := Option.bind_eq_some_iff.mp popped
  cases same
  exact MapHeap.pop_length heapPopped

end Miner

/-! ### Adding and deleting split sets -/

section Loops

variable (txID : Transaction H → H)

namespace Miner

/-- The loop of `addMapElementTxns`: while the candidate does not fit, the lowest-fee set leaves
the block heap for `bottomSets`, and the candidate goes to the overflow heap once their average fee
is above its own. Go declares `averageFeeOfBottomSets` again inside the loop (`:=`), so the one the
loop reads stays at its zero value. -/
def evictFor (elem : MapElement H) (averageFeeOfBottomSets : Currency) (bottomSets : List (MapElement H))
    (sizeOfBottomSets : ℕ) (m : Miner H) : Option (Miner H) :=
  let candidateSet := elem.set
  if uint64SubAdd m.blockMapHeap.size sizeOfBottomSets candidateSet.size < blockHeapLimit then do
    -- the candidate goes into the block, and the sets removed into the overflow
    let m ← m.pushToBlock txID elem
    bottomSets.foldlM pushToOverflow m
  else
    match m.blockMapHeap.peek with
    | none => do
      -- the candidate goes into the overflow, and the sets removed back into the block
      let m ← m.pushToOverflow elem
      bottomSets.foldlM (pushToBlock txID) m
    | some _ =>
      match _popped : m.popFromBlock txID with
      | none => none
      | some (nextSet, m') =>
        let bottomSets := bottomSets ++ [nextSet]
        let totalFeeFromNextSet := nextSet.set.averageFee * nextSet.set.size
        let totalBottomFees := averageFeeOfBottomSets * sizeOfBottomSets + totalFeeFromNextSet
        let sizeOfBottomSets := sizeOfBottomSets + nextSet.set.size
        if sizeOfBottomSets = 0 then none
        else if candidateSet.averageFee < totalBottomFees / sizeOfBottomSets then do
          let m' ← m'.pushToOverflow elem
          bottomSets.foldlM (pushToBlock txID) m'
        else evictFor elem averageFeeOfBottomSets bottomSets sizeOfBottomSets m'
termination_by m.blockMapHeap.data.length
decreasing_by
  have := popFromBlock_length _popped
  omega

/-- `addMapElementTxns`. -/
def addMapElementTxns (m : Miner H) (elem : MapElement H) : Option (Miner H) :=
  if m.blockMapHeap.size + elem.set.size < blockHeapLimit then m.pushToBlock txID elem
  else evictFor txID elem 0 [] 0 m

/-- `addNewTxns`: each new split set is recorded, with its transactions' IDs, and placed. -/
def addNewTxns (m : Miner H) (diff : TransactionPoolDiff H) : Option (Miner H) := do
  let (m, newElements) ← m.getNewSplitSets diff.appliedTransactions
  newElements.foldlM (fun m elem =>
    ({ m with
        splitSets := Function.update m.splitSets elem.id (some elem.set)
        splitSetIDFromTxID := elem.set.transactions.foldl
          (fun ids tx => Function.update ids (txID tx) elem.id) m.splitSetIDFromTxID } : Miner H).addMapElementTxns
      txID elem) m

/-- The promotion loop of `deleteMapElementTxns`. Its init statement peeks at the overflow heap
once and the loop has no post statement, so `overflowElem` and `canPromote` keep their first
values: every pass tests the size of the set first peeked, and pops whatever the overflow heap
holds. -/
def promote (overflowElem : Option (MapElement H)) (m : Miner H) : Option (Miner H) :=
  match overflowElem with
  | some elem =>
    if m.blockMapHeap.size + elem.set.size < blockHeapLimit then
      match _popped : m.popFromOverflow with
      | none => none
      | some (promotedElem, m') =>
        match _pushed : m'.pushToBlock txID promotedElem with
        | none => none
        | some m'' => promote overflowElem m''
    else some m
  | none => some m
termination_by m.overflowMapHeap.data.length
decreasing_by
  have := popFromOverflow_length _popped
  rw [pushToBlock_overflowMapHeap _pushed]
  omega

/-- `deleteMapElementTxns`: a set leaves the overflow heap, or leaves the block heap and the block,
after which sets are promoted from the overflow heap. -/
def deleteMapElementTxns (m : Miner H) (id : SplitSetID) : Option (Miner H) :=
  if (m.overflowMapHeap.selectID id).isSome then do
    let (_, overflowMapHeap) ← m.overflowMapHeap.removeSetByID id
    pure { m with overflowMapHeap }
  else if (m.blockMapHeap.selectID id).isSome then do
    let (_, blockMapHeap) ← m.blockMapHeap.removeSetByID id
    let m ← ({ m with blockMapHeap } : Miner H).removeSplitSetFromUnsolvedBlock txID id
    promote txID m.overflowMapHeap.peek m
  else some m

/-- `deleteReverts`: the split sets of each reverted set are deleted and forgotten. -/
def deleteReverts (m : Miner H) (diff : TransactionPoolDiff H) : Option (Miner H) :=
  diff.revertedTransactions.foldlM (fun m id => do
    let splitSetIndexes := m.fullSets id
    let m ← splitSetIndexes.foldlM (fun m ss => do
        let m ← m.deleteMapElementTxns txID ss
        pure { m with splitSets := Function.update m.splitSets ss none }) m
    pure { m with fullSets := Function.update m.fullSets id [] }) m

/-- `ReceiveUpdatedUnconfirmedTransactions`. -/
def receiveUpdatedUnconfirmedTransactions (m : Miner H) (diff : TransactionPoolDiff H) :
    Option (Miner H) := do
  let m ← m.deleteReverts txID diff
  m.addNewTxns txID diff

end Miner

end Loops

/-! ### The promotion loop re-tests a stale peek -/

namespace Miner

variable {txID : Transaction H → H}

/-- `pushToBlock` never panics, adds the set's size to the block heap's, and leaves the overflow
heap as it was. -/
theorem pushToBlock_size (m : Miner H) (elem : MapElement H) :
    ∃ m', m.pushToBlock txID elem = some m' ∧
      m'.blockMapHeap.size = m.blockMapHeap.size + elem.set.size ∧ m'.overflowMapHeap = m.overflowMapHeap := by
  obtain ⟨blockMapHeap, pushed, size⟩ := m.blockMapHeap.push_size elem
  let placed := elem.set.transactions.foldl
    (fun (index, txs) tx => (Function.update index (txID tx) txs.length, txs ++ [tx]))
    (m.unsolvedBlockIndex, m.unsolvedTransactions)
  refine ⟨{ m with blockMapHeap, unsolvedBlockIndex := placed.1, unsolvedTransactions := placed.2 }, ?_,
    size, rfl⟩
  simp only [pushToBlock, pushed, Option.bind_eq_bind, Option.bind_some]
  rfl

/-- One pass of the promotion loop moves the overflow heap's first set into the block. -/
theorem promote_of_popped {e p : MapElement H} {m m' m'' : Miner H}
    (fits : m.blockMapHeap.size + e.set.size < blockHeapLimit)
    (popped : m.popFromOverflow = some (p, m')) (pushed : m'.pushToBlock txID p = some m'') :
    promote txID (some e) m = promote txID (some e) m'' := by
  rw [promote, if_pos fits]
  split
  next empty => simp [popped] at empty
  next p' m0 popped' =>
    obtain ⟨rfl, rfl⟩ : p = p' ∧ m' = m0 := by simpa [popped] using popped'
    split
    next failed => simp [pushed] at failed
    next m0' pushed' =>
      obtain rfl : m'' = m0' := by simpa [pushed] using pushed'
      rfl

/-- Once the set first peeked fits in the block together with the whole overflow heap, the loop
moves every set of the overflow heap into the block and then pops the empty heap: its test never
sees the overflow heap run out. -/
theorem promote_of_fits (e : MapElement H) {m : Miner H} (wf : m.overflowMapHeap.Wf)
    (fits : m.blockMapHeap.size + m.overflowMapHeap.size + e.set.size < blockHeapLimit) :
    promote txID (some e) m = none := by
  -- induction on the number of sets left in the overflow heap
  induction hn : m.overflowMapHeap.data.length generalizing m with
  | zero =>
    have empty : m.popFromOverflow = none := by
      simp [popFromOverflow, MapHeap.pop_of_nil (List.eq_nil_of_length_eq_zero hn)]
    rw [promote, if_pos (by omega)]
    split
    next => rfl
    next p m' popped => simp [empty] at popped
  | succ n ih =>
    obtain ⟨overflow, popped, wf', _, _, size', _⟩ := wf.pop (by omega)
    have within : m.overflowMapHeap.data[0].set.size ≤ m.overflowMapHeap.size := by
      rw [wf.size_eq]
      exact List.le_sum_of_mem (List.mem_map_of_mem (List.getElem_mem _))
    obtain ⟨m', pushed, blockSize, same⟩ : ∃ m', pushToBlock txID { m with overflowMapHeap := overflow }
        m.overflowMapHeap.data[0] = some m' ∧ _ ∧ _ :=
      pushToBlock_size { m with overflowMapHeap := overflow } m.overflowMapHeap.data[0]
    dsimp only at blockSize same
    rw [promote_of_popped (by omega) (by simp [popFromOverflow, popped]) pushed]
    -- the first set has moved from one heap to the other, and the sum of the sizes is the same
    refine ih (by rw [same]; exact wf') (by rw [blockSize, same, size']; omega) ?_
    have := MapHeap.pop_length popped
    rw [same]
    omega

/-- Deleting a set of the block heap panics whenever, once the set is out, the overflow heap's
first set fits in the block together with the whole overflow heap. -/
theorem deleteMapElementTxns_of_fits {m : Miner H} {id : SplitSetID} {elem p : MapElement H}
    (blockWf : m.blockMapHeap.Wf) (overflowWf : m.overflowMapHeap.Wf)
    (notOverflow : m.overflowMapHeap.selectID id = none) (inBlock : m.blockMapHeap.selectID id = some elem)
    (peeked : m.overflowMapHeap.peek = some p)
    (fits : m.blockMapHeap.size - elem.set.size + m.overflowMapHeap.size + p.set.size < blockHeapLimit) :
    m.deleteMapElementTxns txID id = none := by
  obtain ⟨blockMapHeap, removed, _, _, _, size, _⟩ := blockWf.removeSetByID inBlock
  simp only [deleteMapElementTxns, notOverflow, inBlock, Option.isSome_none, Option.isSome_some,
    Bool.false_eq_true, if_false, if_true, removed, Option.bind_eq_bind, Option.bind_some]
  -- the block's transactions are edited apart from the heaps, so the loop starts on these heaps
  cases unsolved : ({ m with blockMapHeap } : Miner H).removeSplitSetFromUnsolvedBlock txID id with
  | none => rfl
  | some m' =>
    obtain ⟨sameBlock, sameOverflow⟩ := removeSplitSetFromUnsolvedBlock_sameHeaps unsolved
    rw [Option.bind_some, sameOverflow, peeked]
    refine promote_of_fits p (by rw [sameOverflow]; exact overflowWf) ?_
    rw [sameBlock, sameOverflow]
    simp only [size] at fits ⊢
    omega

/-- One pass of the eviction loop that does not place the candidate yet: the block heap's
lowest-fee set joins the bottom sets. -/
theorem evictFor_of_popped {elem nextSet : MapElement H} {averageFeeOfBottomSets : Currency}
    {bottomSets : List (MapElement H)} {sizeOfBottomSets : ℕ} {m m' : Miner H}
    (full : ¬ uint64SubAdd m.blockMapHeap.size sizeOfBottomSets elem.set.size < blockHeapLimit)
    (popped : m.popFromBlock txID = some (nextSet, m')) :
    evictFor txID elem averageFeeOfBottomSets bottomSets sizeOfBottomSets m =
      if sizeOfBottomSets + nextSet.set.size = 0 then none
      else if elem.set.averageFee < (averageFeeOfBottomSets * sizeOfBottomSets +
          nextSet.set.averageFee * nextSet.set.size) / (sizeOfBottomSets + nextSet.set.size) then
        (m'.pushToOverflow elem).bind fun m' => (bottomSets ++ [nextSet]).foldlM (pushToBlock txID) m'
      else evictFor txID elem averageFeeOfBottomSets (bottomSets ++ [nextSet])
        (sizeOfBottomSets + nextSet.set.size) m' := by
  -- a set was popped, so the block heap was not empty when the loop peeked at it
  have nonempty : m.blockMapHeap.peek.isSome := by
    unfold popFromBlock at popped
    obtain ⟨⟨_, _⟩, heapPopped, _⟩ := Option.bind_eq_some_iff.mp popped
    cases data : m.blockMapHeap.data with
    | nil => simp [MapHeap.pop_of_nil data] at heapPopped
    | cons first rest => simp [MapHeap.peek, data]
  rw [evictFor, if_neg full]
  obtain ⟨first, peeked⟩ := Option.isSome_iff_exists.mp nonempty
  simp only [peeked]
  split
  next failed => simp [popped] at failed
  next nextSet' m'' popped' =>
    obtain ⟨rfl, rfl⟩ : nextSet = nextSet' ∧ m' = m'' := by simpa [popped] using popped'
    rfl

end Miner

/-! ### A revert after an overflow panics -/

namespace Miner

variable {txID : Transaction H → H}

/-- Two one-transaction sets in one diff: `A` fits in the block alone but not beside `O`, and has
the higher average fee. `O` evicts `A` for a moment, finds the bottom sets' fee above its own, and
goes to the overflow heap, so each heap ends up holding one set. -/
theorem receive_overflowing_pair {idA idO x y : H} {a o : Transaction H} {sizeA sizeO : ℕ}
    (distinctSets : idA ≠ idO) (distinctTxs : txID a ≠ txID o) (positiveA : 0 < sizeA)
    (positiveO : 0 < sizeO) (fitsAlone : sizeA < blockHeapLimit) (smallO : sizeO < blockHeapLimit)
    (overflows : blockHeapLimit ≤ sizeA + sizeO) (cheaper : o.minerFees.sum / sizeO < a.minerFees.sum / sizeA) :
    ∃ m, Miner.new.receiveUpdatedUnconfirmedTransactions txID
        ⟨[⟨idA, [x], [sizeA], [a]⟩, ⟨idO, [y], [sizeO], [o]⟩], []⟩ = some m ∧
      m.fullSets idA = [1] ∧
      (MapHeap.empty true).push ⟨⟨a.minerFees.sum / sizeA, sizeA, [a]⟩, 1⟩ = some m.blockMapHeap ∧
      (MapHeap.empty false).push ⟨⟨o.minerFees.sum / sizeO, sizeO, [o]⟩, 2⟩ = some m.overflowMapHeap := by
  have limit : blockHeapLimit = 1995000 := rfl
  -- the diff makes split set 1 of `A` and split set 2 of `O`, and `A` goes to the empty block
  simp [receiveUpdatedUnconfirmedTransactions, deleteReverts, addNewTxns, getNewSplitSets, setPart,
    Nat.pos_iff_ne_zero.mp positiveA, Nat.pos_iff_ne_zero.mp positiveO, Miner.new]
  rw [addMapElementTxns, if_pos (by simp [MapHeap.empty]; omega)]
  simp [pushToBlock, MapHeap.push_of_nil, MapHeap.empty]
  -- `O` does not fit beside `A`, so `A` leaves the block heap and the block
  rw [addMapElementTxns, if_neg (by simp; omega)]
  rw [evictFor_of_popped (by dsimp only; rw [uint64SubAdd_of_le (by omega) (by omega)]; omega)
    (by simp [popFromBlock, MapHeap.pop_of_singleton, removeSplitSetFromUnsolvedBlock,
      removeTxFromUnsolvedBlock, distinctTxs]; exact ⟨rfl, rfl⟩)]
  -- the bottom sets' average fee is `A`'s, above `O`'s: `O` goes to the overflow and `A` back
  rw [if_neg (by simp; omega), if_pos (by simp [Nat.mul_div_cancel _ positiveA]; exact cheaper)]
  simp [pushToOverflow, pushToBlock, MapHeap.push_of_nil, Function.update_of_ne distinctSets]

/-- Reverting `A` after the pair panics: `A` leaves the block, and the promotion loop moves `O`
into the block and then, testing the size of `O` again against a block that now holds `O`, pops the
empty overflow heap. -/
theorem revert_after_overflow_panics (txID : Transaction H → H) (idA idO x y : H) (a o : Transaction H)
    (sizeA sizeO : ℕ) (distinctSets : idA ≠ idO) (distinctTxs : txID a ≠ txID o)
    (positiveA : 0 < sizeA) (positiveO : 0 < sizeO) (fitsAlone : sizeA < blockHeapLimit)
    (overflows : blockHeapLimit ≤ sizeA + sizeO) (fitsTwice : sizeO + sizeO < blockHeapLimit)
    (cheaper : o.minerFees.sum / sizeO < a.minerFees.sum / sizeA) :
    ∃ m, Miner.new.receiveUpdatedUnconfirmedTransactions txID
        ⟨[⟨idA, [x], [sizeA], [a]⟩, ⟨idO, [y], [sizeO], [o]⟩], []⟩ = some m ∧
      m.receiveUpdatedUnconfirmedTransactions txID ⟨[], [idA]⟩ = none := by
  obtain ⟨m, received, fullA, pushedA, pushedO⟩ := receive_overflowing_pair (x := x) (y := y)
    distinctSets distinctTxs positiveA positiveO fitsAlone (by omega) overflows cheaper
  refine ⟨m, received, ?_⟩
  obtain ⟨blockWf, _, blockSelect, blockSize⟩ := MapHeap.push_empty pushedA
  obtain ⟨overflowWf, overflowData, overflowSelect, overflowSize⟩ := MapHeap.push_empty pushedO
  have inBlock : m.blockMapHeap.selectID 1 = some ⟨⟨a.minerFees.sum / sizeA, sizeA, [a]⟩, 1⟩ := by
    simp [blockSelect]
  have peeked : m.overflowMapHeap.peek = some ⟨⟨o.minerFees.sum / sizeO, sizeO, [o]⟩, 2⟩ := by
    simp [MapHeap.peek, overflowData]
  -- once `A` is out the block heap is empty, and `O` fits in it twice
  have panics : m.deleteMapElementTxns txID 1 = none :=
    deleteMapElementTxns_of_fits blockWf overflowWf (by simp [overflowSelect]) inBlock peeked
      (by simp only [blockSize, overflowSize]; omega)
  simp [receiveUpdatedUnconfirmedTransactions, deleteReverts, fullA, panics]

/-- A transaction that only pays miner fees. -/
def feeOnlyTransaction (fees : List Currency) : Transaction ℕ :=
  { siacoinInputs := [], siacoinOutputs := [], fileContracts := [], fileContractRevisions := [],
    storageProofs := [], siafundInputs := [], siafundOutputs := [], minerFees := fees, arbitraryData := [],
    transactionSignatures := [] }

/-- Sets of 1994950 and 100 bytes, the first paying one hasting a byte and the second nothing,
where a transaction's ID is its number of fees. -/
theorem pair_revert_panics :
    ∃ m, Miner.new.receiveUpdatedUnconfirmedTransactions (fun tx => tx.minerFees.length)
        ⟨[⟨1, [1], [1994950], [feeOnlyTransaction [1994950]]⟩, ⟨2, [2], [100], [feeOnlyTransaction []]⟩],
          []⟩ = some m ∧
      m.receiveUpdatedUnconfirmedTransactions (fun tx => tx.minerFees.length) ⟨[], [1]⟩ = none :=
  revert_after_overflow_panics _ 1 2 1 2 _ _ 1994950 100 (by decide) (by decide) (by decide) (by decide)
    (by decide) (by decide) (by decide) (by decide)

end Miner

end Sia
