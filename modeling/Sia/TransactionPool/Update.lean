import Sia.TransactionPool.Accept
import Mathlib.Algebra.Order.BigOperators.Group.List

/-! `modules/transactionpool/update.go`: what the pool does when the consensus set changes.
`ProcessConsensusChange` checks that the reverted blocks lead back from the recent block and the
applied blocks forward from there, moves the height and the confirmed-transactions bucket, and
estimates the fee from each applied block. It then empties the pool and offers back, one
transaction at a time, the transactions of the reverted blocks and the unconfirmed rest of each
pooled set, except the sets whose transactions have all been pooled for `MaxTransactionAge`
blocks. `findSets` splits each applied block; `sort.Slice` is a stable sort here, which gives
the same fee, since entries of equal fee are interchangeable in the scan.

Whatever the pool held, a change leaves it with the invariant of `acceptTransactionSet` and with
no transaction of an applied block, and every run of accepts, changes and purges keeps the
invariant. A change that follows the recent block and applies a block never panics. -/
namespace Sia

namespace TransactionPool

open Consensus (ConsensusChange ConsensusChangeDiffs)

/-- `types.BlockSizeLimit`. -/
def blockSizeLimit : ℕ := 2000000

/-- `blockFeeEstimationDepth`. -/
def blockFeeEstimationDepth : ℕ := 6

/-- `MaxTransactionAge` of the standard release. -/
def maxTransactionAge : UInt64 := 24

/-- `feeSummary`: a fee per byte and the bytes it was paid on. -/
structure FeeSummary where
  fee : Currency
  size : ℤ

/-- The scan of the sorted fees: the fee at which the running size first passes a quarter of a
block, with the size converted to `uint64` as Go converts an `int`. -/
def quarterFee (progress : ℤ) : List FeeSummary → Option Currency
  | [] => none
  | f :: rest =>
    if (UInt64.ofInt (progress + f.size)).toNat > blockSizeLimit / 4 then some f.fee
    else quarterFee (progress + f.size) rest

/-- The loop that drops the oldest medians while more than `blockFeeEstimationDepth` are kept. -/
def trimMedians : List Currency → List Currency
  | [] => []
  | m :: rest => if (m :: rest).length > blockFeeEstimationDepth then trimMedians rest else m :: rest

variable {H : Type} [DecidableEq H]

/-- The reverted blocks lead back from `recent`: each is the recent block, and its parent becomes
the recent one. -/
inductive RevertsFrom (blockID : Block H → H) : H → List (Block H) → H → Prop where
  | nil (recent : H) : RevertsFrom blockID recent [] recent
  | cons {recent last : H} {block : Block H} {rest : List (Block H)}
      (current : blockID block = recent) (earlier : RevertsFrom blockID block.parentID rest last) :
      RevertsFrom blockID recent (block :: rest) last

/-- The applied blocks lead forward from `recent`: each has the recent block as its parent, and
becomes the recent one. -/
inductive AppliesFrom (blockID : Block H → H) : H → List (Block H) → Prop where
  | nil (recent : H) : AppliesFrom blockID recent []
  | cons {recent : H} {block : Block H} {rest : List (Block H)} (parent : block.parentID = recent)
      (later : AppliesFrom blockID (blockID block) rest) : AppliesFrom blockID recent (block :: rest)

/-- `purge`: every map emptied and the size counter zeroed. -/
def purge (tp : TransactionPool H) : TransactionPool H :=
  { tp with
    knownObjects := fun _ => none
    transactionSets := ∅
    transactionSetDiffs := fun _ => none
    transactionHeights := fun _ => none
    transactionListSize := 0 }

variable [HashBytes H]

/-- The summary of one set of an applied block: its fees over its size, each transaction's
encoding added in turn, by `Div64`, which panics on a zero size. -/
def setFeeSummary (set : List (Transaction H)) : Option FeeSummary :=
  let sizeSum : ℤ := (set.map fun txn => (txn.marshalSia.length : ℤ)).sum
  let feeSum := (set.flatMap (·.minerFees)).sum
  if sizeSum.toNat = 0 then none else some ⟨feeSum / sizeSum.toNat, sizeSum⟩

section Change

variable (ids : PoolIDs H) (setOrder : ℕ → List ℕ → List ℕ)

/-- The fee an applied block adds to the estimate, `none` inside when the scan finds none. The
block's unused space counts at no fee. -/
def blockFee (block : Block H) : Option (Option Currency) := do
  let txnSets ← findSets ids.toTransactionIDs setOrder block.transactions
  let fees ← txnSets.mapM setFeeSummary
  let remaining := (blockSizeLimit : ℤ) - (fees.map (·.size)).sum
  let fees := fees ++ [⟨0, remaining⟩]
  pure (quarterFee 0 (fees.mergeSort fun a b => decide (a.fee ≤ b.fee)))

/-- One reverted block: the check against the recent block, which panics, then the height, the
confirmed transactions and the medians. -/
def revertBlock (reset : Bool) (acc : TransactionPool H × H) (block : Block H) :
    Option (TransactionPool H × H) :=
  if ids.blockID block ≠ acc.2 ∧ reset = false then none
  else
    let tp := acc.1
    some ({ tp with
      blockHeight := if tp.blockHeight > 0 ∨ ids.blockID block ≠ ids.genesisID then
        tp.blockHeight - 1 else tp.blockHeight
      confirmedTransactions := block.transactions.foldl
        (fun confirmed txn => confirmed.erase (ids.transactionID txn)) tp.confirmedTransactions
      recentMedians := tp.recentMedians.dropLast }, block.parentID)

/-- One applied block: the check against the recent block, then the height, the confirmed
transactions and the block's fee among the medians. -/
def applyBlock (reset : Bool) (acc : TransactionPool H × H) (block : Block H) :
    Option (TransactionPool H × H) :=
  if block.parentID ≠ acc.2 ∧ reset = false then none
  else do
    let tp := acc.1
    let fee ← blockFee ids setOrder block
    some ({ tp with
      blockHeight := if tp.blockHeight > 0 ∨ ids.blockID block ≠ ids.genesisID then
        tp.blockHeight + 1 else tp.blockHeight
      confirmedTransactions := block.transactions.foldl
        (fun confirmed txn => insert (ids.transactionID txn) confirmed) tp.confirmedTransactions
      recentMedians := trimMedians (tp.recentMedians ++ fee.toList) }, ids.blockID block)

/-- The age loop over one set: the set is old while each transaction was seen and is at least
`MaxTransactionAge` blocks old, by `uint64` subtraction. An unseen transaction is given the
height below the current one, and ends the loop. -/
def setIsOld (height : UInt64) (oldHeights : H → Option UInt64) :
    (H → Option UInt64) → List (Transaction H) → Bool × (H → Option UInt64)
  | heights, [] => (true, heights)
  | heights, txn :: rest =>
    let id := ids.transactionID txn
    let heights := if (oldHeights id).isNone then Function.update heights id (some (height - 1))
      else heights
    if height - (oldHeights id).getD 0 < maxTransactionAge ∨ (oldHeights id).isNone then
      (false, heights)
    else setIsOld height oldHeights heights rest

/-- One set of the prune loop: an old set is emptied and its transactions' heights deleted. -/
def pruneSet (height : UInt64) (oldHeights : H → Option UInt64)
    (acc : List (List (Transaction H)) × (H → Option UInt64)) (tSet : List (Transaction H)) :
    List (List (Transaction H)) × (H → Option UInt64) :=
  let checked := setIsOld ids height oldHeights acc.2 tSet
  if checked.1 then
    (acc.1 ++ [[]], tSet.foldl (fun heights txn => Function.update heights (ids.transactionID txn) none)
      checked.2)
  else (acc.1 ++ [tSet], checked.2)

variable (order : GoMap.RangeOrder H) (feesAtSize : ℤ → Currency)
  (txnFn : List (Transaction H) → Except String (ConsensusChangeDiffs H))

/-- `acceptTransactionSet` with its error ignored. -/
def tryAccept (tp : TransactionPool H) (ts : List (Transaction H)) : TransactionPool H :=
  match tp.acceptTransactionSet ids order feesAtSize txnFn ts with
  | .ok (_, tp') => tp'
  | .error _ => tp

/-- The transactions of a reverted block offered back, except those applied again. -/
def readdReverted (txids : Finset H) (tp : TransactionPool H) (block : Block H) :
    TransactionPool H :=
  block.transactions.foldl (fun tp txn =>
    if ids.transactionID txn ∈ txids then tp else tryAccept ids order feesAtSize txnFn tp [txn]) tp

/-- An unconfirmed set offered back one transaction at a time, each given back the height it had
(zero, Go's value for a missing key, if none). -/
def readdSet (oldHeights : H → Option UInt64) (tp : TransactionPool H) (set : List (Transaction H)) :
    TransactionPool H :=
  set.foldl (fun tp txn =>
    let tp := tryAccept ids order feesAtSize txnFn tp [txn]
    { tp with
      transactionHeights := Function.update tp.transactionHeights (ids.transactionID txn)
        (some ((oldHeights (ids.transactionID txn)).getD 0)) }) tp

/-- `ProcessConsensusChange(cc)`, with `cc.TryTransactionSet` as `txnFn`. -/
def processConsensusChange (tp : TransactionPool H) (cc : ConsensusChange H) :
    Option (TransactionPool H) := do
  let reset := tp.recentBlockID.isNone
  let reverted ← cc.revertedBlocks.foldlM (revertBlock ids reset)
    (tp, tp.recentBlockID.getD ids.emptyBlockID)
  let applied ← cc.appliedBlocks.foldlM (applyBlock ids setOrder reset) reverted
  let tp := applied.1
  let safeMedians := tp.recentMedians.mergeSort fun a b => decide (a ≤ b)
  -- `safeMedians[len(safeMedians)/2]` panics on no medians
  let recentMedianFee ← safeMedians[safeMedians.length / 2]?
  let tp := { tp with recentMedianFee, recentBlockID := some applied.2 }
  let txids := ((cc.appliedBlocks.flatMap (·.transactions)).map ids.transactionID).toFinset
  let unconfirmedSets := (order.keys tp.transactionSets.keys).map fun setID =>
    ((tp.transactionSets.lookup setID).getD []).filter fun txn => ids.transactionID txn ∉ txids
  let oldHeights := tp.transactionHeights
  let tp := tp.purge
  let pruned := unconfirmedSets.foldl (pruneSet ids tp.blockHeight oldHeights)
    ([], tp.transactionHeights)
  let tp := { tp with transactionHeights := pruned.2 }
  let tp := cc.revertedBlocks.reverse.foldl (readdReverted ids order feesAtSize txnFn txids) tp
  pure (pruned.1.foldl (readdSet ids order feesAtSize txnFn oldHeights) tp)

end Change

/-- What reaches the pool: a set submitted (`AcceptTransactionSet`), a consensus change with
its `TryTransactionSet`, or `PurgeTransactionPool`. -/
inductive PoolEvent (H : Type) where
  | accept (ts : List (Transaction H))
      (txnFn : List (Transaction H) → Except String (ConsensusChangeDiffs H))
  | consensusChange (cc : ConsensusChange H)
      (txnFn : List (Transaction H) → Except String (ConsensusChangeDiffs H))
  | purge

section Run

variable (ids : PoolIDs H) (setOrder : ℕ → List ℕ → List ℕ) (order : GoMap.RangeOrder H)
  (feesAtSize : ℤ → Currency)

def step (tp : TransactionPool H) : PoolEvent H → Option (TransactionPool H)
  | .accept ts txnFn => some (tryAccept ids order feesAtSize txnFn tp ts)
  | .consensusChange cc txnFn => processConsensusChange ids setOrder order feesAtSize txnFn tp cc
  | .purge => some tp.purge

def run (tp : TransactionPool H) (events : List (PoolEvent H)) : Option (TransactionPool H) :=
  events.foldlM (step ids setOrder order feesAtSize) tp

end Run

/-! ### A change leaves the pool consistent -/

section Keeps

variable {ids : PoolIDs H} {setOrder : ℕ → List ℕ → List ℕ} {order : GoMap.RangeOrder H}
  {feesAtSize : ℤ → Currency} {txnFn : List (Transaction H) → Except String (ConsensusChangeDiffs H)}
  {tp tp' : TransactionPool H}

theorem purge_invariant (tp : TransactionPool H) : tp.purge.Invariant ids where
  sized := rfl
  named _ _ found := by simp [purge] at found
  standard _ _ found := by simp [purge] at found
  unconfirmed _ pooled := by
    obtain ⟨_, _, found, -⟩ := pooled
    simp [purge] at found
  diffed _ member := absurd member Finmap.notMem_empty

/-- The invariant says nothing of the heights. -/
theorem Invariant.withHeights (inv : tp.Invariant ids) (heights : H → Option UInt64) :
    ({ tp with transactionHeights := heights } : TransactionPool H).Invariant ids :=
  ⟨inv.sized, inv.named, inv.standard, inv.unconfirmed, inv.diffed⟩

theorem tryAccept_invariant (inv : tp.Invariant ids) (ts : List (Transaction H)) :
    (tryAccept ids order feesAtSize txnFn tp ts).Invariant ids := by
  unfold tryAccept
  split
  · next ran => exact acceptTransactionSet_invariant inv ran
  · exact inv

theorem tryAccept_confirmedTransactions (ts : List (Transaction H)) :
    (tryAccept ids order feesAtSize txnFn tp ts).confirmedTransactions =
      tp.confirmedTransactions := by
  unfold tryAccept
  split
  · next ran => exact (acceptTransactionSet_merges ran).confirmedTransactions
  · rfl

/-- What offering transactions back keeps: the invariant, and the confirmed transactions. -/
def Kept (ids : PoolIDs H) (confirmed : Finset H) (tp : TransactionPool H) : Prop :=
  tp.Invariant ids ∧ tp.confirmedTransactions = confirmed

theorem Kept.tryAccept {confirmed : Finset H} (kept : Kept ids confirmed tp)
    (ts : List (Transaction H)) :
    Kept ids confirmed (tryAccept ids order feesAtSize txnFn tp ts) :=
  ⟨tryAccept_invariant kept.1 ts, by rw [tryAccept_confirmedTransactions]; exact kept.2⟩

theorem Kept.readdReverted {confirmed : Finset H} (kept : Kept ids confirmed tp) (txids : Finset H)
    (block : Block H) : Kept ids confirmed (readdReverted ids order feesAtSize txnFn txids tp block) := by
  apply OptionLoop.foldl_invariant (Kept ids confirmed) _ _ kept
  intro tp txn keptBefore
  split
  · exact keptBefore
  · exact keptBefore.tryAccept [txn]

theorem Kept.readdSet {confirmed : Finset H} (kept : Kept ids confirmed tp)
    (oldHeights : H → Option UInt64) (set : List (Transaction H)) :
    Kept ids confirmed (readdSet ids order feesAtSize txnFn oldHeights tp set) := by
  apply OptionLoop.foldl_invariant (Kept ids confirmed) _ _ kept
  intro tp txn keptBefore
  have accepted : Kept ids confirmed (TransactionPool.tryAccept ids order feesAtSize txnFn tp [txn]) :=
    keptBefore.tryAccept [txn]
  exact ⟨accepted.1.withHeights _, accepted.2⟩

variable (ids) in
theorem Kept.purged (tp : TransactionPool H) (heights : H → Option UInt64) :
    Kept ids tp.confirmedTransactions { tp.purge with transactionHeights := heights } :=
  ⟨(purge_invariant tp).withHeights heights, rfl⟩

theorem Kept.foldl_readdReverted {confirmed : Finset H} (kept : Kept ids confirmed tp)
    (txids : Finset H) (blocks : List (Block H)) :
    Kept ids confirmed (blocks.foldl (TransactionPool.readdReverted ids order feesAtSize txnFn txids) tp) :=
  OptionLoop.foldl_invariant (Kept ids confirmed)
    (fun _ block keptBefore => keptBefore.readdReverted txids block) blocks kept

theorem Kept.foldl_readdSet {confirmed : Finset H} (kept : Kept ids confirmed tp)
    (oldHeights : H → Option UInt64) (sets : List (List (Transaction H))) :
    Kept ids confirmed (sets.foldl (TransactionPool.readdSet ids order feesAtSize txnFn oldHeights) tp) :=
  OptionLoop.foldl_invariant (Kept ids confirmed)
    (fun _ set keptBefore => keptBefore.readdSet oldHeights set) sets kept

omit [HashBytes H] in
theorem mem_foldl_insert {α : Type} (f : α → H) :
    ∀ (l : List α) (s : Finset H) (x : H),
      x ∈ l.foldl (fun confirmed a => insert (f a) confirmed) s ↔ x ∈ s ∨ ∃ a ∈ l, f a = x
  | [], s, x => by simp
  | a :: rest, s, x => by
    rw [List.foldl_cons, mem_foldl_insert f rest, Finset.mem_insert]
    constructor
    · rintro ((rfl | inS) | ⟨b, inRest, rfl⟩)
      · exact .inr ⟨a, List.mem_cons_self, rfl⟩
      · exact .inl inS
      · exact .inr ⟨b, List.mem_cons_of_mem _ inRest, rfl⟩
    · rintro (inS | ⟨b, member, rfl⟩)
      · exact .inl (.inr inS)
      · rcases List.mem_cons.mp member with rfl | inRest
        · exact .inl (.inl rfl)
        · exact .inr ⟨b, inRest, rfl⟩

theorem applyBlock_confirmedTransactions {reset : Bool} {acc r : TransactionPool H × H}
    {block : Block H} (applied : applyBlock ids setOrder reset acc block = some r) :
    r.1.confirmedTransactions = block.transactions.foldl
      (fun confirmed txn => insert (ids.transactionID txn) confirmed) acc.1.confirmedTransactions := by
  unfold applyBlock at applied
  split at applied
  · cases applied
  · obtain ⟨fee, -, applied⟩ := Option.bind_eq_some_iff.mp applied
    cases applied
    rfl

/-- After the apply loop, every transaction of an applied block is confirmed. -/
theorem foldlM_applyBlock_confirms {reset : Bool} :
    ∀ {blocks : List (Block H)} {acc r : TransactionPool H × H},
      blocks.foldlM (applyBlock ids setOrder reset) acc = some r →
        acc.1.confirmedTransactions ⊆ r.1.confirmedTransactions ∧
          ∀ block ∈ blocks, ∀ txn ∈ block.transactions,
            ids.transactionID txn ∈ r.1.confirmedTransactions
  | [], acc, r, ran => by
    cases ran
    exact ⟨subset_rfl, by simp⟩
  | block :: rest, acc, r, ran => by
    rw [List.foldlM_cons] at ran
    obtain ⟨r₁, first, ran⟩ := Option.bind_eq_some_iff.mp ran
    obtain ⟨grows, later⟩ := foldlM_applyBlock_confirms ran
    have inserted := applyBlock_confirmedTransactions first
    refine ⟨fun x member => grows ?_, fun block' member txn inBlock => ?_⟩
    · rw [inserted, mem_foldl_insert]
      exact .inl member
    · rcases List.mem_cons.mp member with rfl | inRest
      · apply grows
        rw [inserted, mem_foldl_insert]
        exact .inr ⟨txn, inBlock, rfl⟩
      · exact later block' inRest txn inBlock

/-- A returned change leaves a pool with the invariant, whose confirmed transactions are those
the apply loop leaves. -/
theorem processConsensusChange_kept {cc : ConsensusChange H}
    (ran : processConsensusChange ids setOrder order feesAtSize txnFn tp cc = some tp') :
    ∃ reverted applied,
      cc.appliedBlocks.foldlM (applyBlock ids setOrder tp.recentBlockID.isNone) reverted =
        some applied ∧ Kept ids applied.1.confirmedTransactions tp' := by
  unfold processConsensusChange at ran
  obtain ⟨reverted, -, ran⟩ := Option.bind_eq_some_iff.mp ran
  obtain ⟨applied, appliedRan, ran⟩ := Option.bind_eq_some_iff.mp ran
  obtain ⟨fee, -, ran⟩ := Option.bind_eq_some_iff.mp ran
  refine ⟨reverted, applied, appliedRan, ?_⟩
  -- the purged pool has the invariant, and offering transactions back keeps it
  rw [← Option.some.inj ran]
  exact ((Kept.purged ids _ _).foldl_readdReverted _ _).foldl_readdSet _ _

/-- Whatever the pool held, a processed change leaves it with the invariant, and no pooled
transaction shares its ID with a transaction of an applied block. -/
theorem processConsensusChange_clears_confirmed {cc : ConsensusChange H}
    (ran : processConsensusChange ids setOrder order feesAtSize txnFn tp cc = some tp') :
    tp'.Invariant ids ∧ ∀ t, tp'.Pooled t → ∀ block ∈ cc.appliedBlocks,
      ∀ txn ∈ block.transactions, ids.transactionID txn ≠ ids.transactionID t := by
  obtain ⟨_, applied, appliedRan, kept⟩ := processConsensusChange_kept ran
  refine ⟨kept.1, fun t pooled block member txn inBlock same => ?_⟩
  apply kept.1.unconfirmed t pooled
  rw [kept.2, ← same]
  exact (foldlM_applyBlock_confirms appliedRan).2 block member txn inBlock

def sampleBlock (parent time : ℕ) (txns : List (Transaction ℕ)) : Block ℕ :=
  ⟨parent, Vector.replicate 8 0, time.toUInt64, [], txns⟩

/-- A reorg of the empty sample pool: block 5, which holds `creatingSeven`, is reverted to its
parent 4, and an empty block 6 is applied on 4. -/
def sampleChange : ConsensusChange ℕ :=
  ⟨[sampleBlock 4 5 [creatingSeven]], [sampleBlock 4 6 []], [], [], emptyDiffs⟩

theorem sampleChange_clears_confirmed :
    ∃ tp', processConsensusChange samplePoolIDs (fun _ parentSets => parentSets)
        (GoMap.RangeOrder.sorted (· ≤ ·)) (fun _ => 0) (fun _ => .ok emptyDiffs) emptyPool sampleChange =
          some tp' ∧
      tp'.Invariant samplePoolIDs ∧ ∀ t, tp'.Pooled t → ∀ block ∈ sampleChange.appliedBlocks,
        ∀ txn ∈ block.transactions, samplePoolIDs.transactionID txn ≠ samplePoolIDs.transactionID t := by
  obtain ⟨tp', ran⟩ := Option.isSome_iff_exists.mp (by decide +kernel :
    (processConsensusChange samplePoolIDs (fun _ parentSets => parentSets)
      (GoMap.RangeOrder.sorted (· ≤ ·)) (fun _ => 0) (fun _ => .ok emptyDiffs) emptyPool sampleChange).isSome)
  exact ⟨tp', ran, processConsensusChange_clears_confirmed ran⟩

theorem step_invariant {event : PoolEvent H} (inv : tp.Invariant ids)
    (stepped : step ids setOrder order feesAtSize tp event = some tp') : tp'.Invariant ids := by
  cases event with
  | accept ts txnFn =>
    cases stepped
    exact tryAccept_invariant inv ts
  | consensusChange cc txnFn =>
    obtain ⟨_, _, -, kept⟩ := processConsensusChange_kept stepped
    exact kept.1
  | purge =>
    cases stepped
    exact purge_invariant tp

/-- Every run of accepts, changes and purges from a pool with the invariant keeps it. -/
theorem run_invariant {events : List (PoolEvent H)} (inv : tp.Invariant ids)
    (ran : run ids setOrder order feesAtSize tp events = some tp') : tp'.Invariant ids :=
  OptionLoop.foldlM_invariant (Invariant ids)
    (fun _ _ _ _ invBefore stepped => step_invariant invBefore stepped) inv ran

/-- `creatingSeven` submitted, the sample reorg, then a purge. -/
def sampleEvents : List (PoolEvent ℕ) :=
  [.accept [creatingSeven] (fun _ => .ok emptyDiffs),
    .consensusChange sampleChange (fun _ => .ok emptyDiffs), .purge]

theorem sampleEvents_invariant :
    ∃ tp', run samplePoolIDs (fun _ parentSets => parentSets) (GoMap.RangeOrder.sorted (· ≤ ·))
        (fun _ => 0) emptyPool sampleEvents = some tp' ∧ tp'.Invariant samplePoolIDs := by
  obtain ⟨tp', ran⟩ := Option.isSome_iff_exists.mp (by decide +kernel :
    (run samplePoolIDs (fun _ parentSets => parentSets) (GoMap.RangeOrder.sorted (· ≤ ·)) (fun _ => 0)
      emptyPool sampleEvents).isSome)
  exact ⟨tp', ran, run_invariant (purge_invariant emptyPool) ran⟩

end Keeps

/-! ### A change that follows the recent block returns -/

section Returns

variable {ids : PoolIDs H} {setOrder : ℕ → List ℕ → List ℕ} {order : GoMap.RangeOrder H}
  {feesAtSize : ℤ → Currency} {txnFn : List (Transaction H) → Except String (ConsensusChangeDiffs H)}

omit [DecidableEq H] [HashBytes H] in
/-- The scan finds a fee once the running size passes a quarter block; it does so at the last
entry at the latest when the sizes add up to a total that passes it. -/
theorem quarterFee_isSome {total : ℤ} (passes : blockSizeLimit / 4 < (UInt64.ofInt total).toNat) :
    ∀ {progress : ℤ} {fees : List FeeSummary}, fees ≠ [] →
      progress + (fees.map (·.size)).sum = total → (quarterFee progress fees).isSome
  | _, [], nonempty, _ => absurd rfl nonempty
  | progress, f :: rest, _, sum => by
    simp only [List.map_cons, List.sum_cons] at sum
    unfold quarterFee
    split
    · rfl
    · next below =>
      -- the last entry brings the running size to the total
      have more : rest ≠ [] := by
        rintro rfl
        simp only [List.map_nil, List.sum_nil, add_zero] at sum
        apply below
        rw [sum]
        exact passes
      exact quarterFee_isSome passes more (by rw [← sum]; ring)

omit [DecidableEq H] [HashBytes H] in
theorem trimMedians_ne_nil : ∀ {medians : List Currency}, medians ≠ [] → trimMedians medians ≠ []
  | [], nonempty => nonempty
  | m :: rest, _ => by
    unfold trimMedians
    split
    · next longer =>
      -- more than six medians leave at least six
      refine trimMedians_ne_nil fun empty => ?_
      simp [empty, blockFeeEstimationDepth] at longer
    · exact List.cons_ne_nil m rest

omit [DecidableEq H] in
/-- `Div64` divides by the set's size, which is positive for a set with a transaction. -/
theorem setFeeSummary_ne_none {set : List (Transaction H)} (nonempty : set ≠ []) :
    setFeeSummary set ≠ none := by
  obtain ⟨txn, rest, rfl⟩ := List.exists_cons_of_ne_nil nonempty
  have positive := length_marshalSia_pos txn
  have restSize : 0 ≤ (rest.map fun txn => (txn.marshalSia.length : ℤ)).sum :=
    List.sum_nonneg fun _ member => by
      obtain ⟨_, -, rfl⟩ := List.mem_map.mp member
      exact Int.natCast_nonneg _
  simp only [setFeeSummary, List.map_cons, List.sum_cons]
  rw [if_neg (by omega)]
  exact Option.some_ne_none _

variable (ids) in
/-- Every block has a fee: `findSets` returns nonempty sets, each has a summary, and with the
unused space the sizes add up to a full block. -/
theorem blockFee_eq_some (ordered : ∀ i parentSets, (setOrder i parentSets).Perm parentSets)
    (block : Block H) : ∃ fee, blockFee ids setOrder block = some (some fee) := by
  obtain ⟨sets, found, -⟩ :=
    findSets_partition ids.toTransactionIDs setOrder ordered block.transactions
  obtain ⟨fees, summarized⟩ : ∃ fees, sets.mapM setFeeSummary = some fees := by
    refine Option.ne_none_iff_exists'.mp fun failed => ?_
    obtain ⟨set, member, unsummarized⟩ := OptionLoop.mapM_eq_none_iff.mp failed
    exact setFeeSummary_ne_none (findSets_ne_nil found set member) unsummarized
  let padded := fees ++ [⟨0, (blockSizeLimit : ℤ) - (fees.map (·.size)).sum⟩]
  have sorted := List.mergeSort_perm padded fun a b => decide (a.fee ≤ b.fee)
  have full : 0 + ((padded.mergeSort fun a b => decide (a.fee ≤ b.fee)).map (·.size)).sum =
      blockSizeLimit := by
    rw [zero_add, (sorted.map _).sum_eq]
    simp [padded]
  have nonempty : (padded.mergeSort fun a b => decide (a.fee ≤ b.fee)) ≠ [] :=
    List.ne_nil_of_length_pos (by rw [sorted.length_eq]; simp [padded])
  obtain ⟨fee, scanned⟩ := Option.isSome_iff_exists.mp
    (quarterFee_isSome (by decide) nonempty full)
  refine ⟨fee, ?_⟩
  simp only [blockFee, found, summarized, Option.pure_def, Option.bind_eq_bind, Option.bind_some]
  rw [scanned]

omit [HashBytes H] in
/-- Reverted blocks that lead back from the recent block pass the check. -/
theorem foldlM_revertBlock (reset : Bool) {last : H} :
    ∀ {blocks : List (Block H)} (tp : TransactionPool H) {recent : H},
      RevertsFrom ids.blockID recent blocks last →
        ∃ tp', blocks.foldlM (revertBlock ids reset) (tp, recent) = some (tp', last)
  | [], tp, _, .nil _ => ⟨tp, rfl⟩
  | block :: _, tp, recent, .cons current earlier => by
    obtain ⟨tp₁, stepped⟩ :
        ∃ tp₁, revertBlock ids reset (tp, recent) block = some (tp₁, block.parentID) :=
      ⟨_, by rw [revertBlock, if_neg (by simp [current])]⟩
    rw [List.foldlM_cons, stepped]
    exact foldlM_revertBlock reset tp₁ earlier

/-- A block whose parent is the recent block passes the check, and its fee joins the medians. -/
theorem applyBlock_of_parent (ordered : ∀ i parentSets, (setOrder i parentSets).Perm parentSets)
    (reset : Bool) (tp : TransactionPool H) {recent : H} {block : Block H}
    (parent : block.parentID = recent) :
    ∃ tp', applyBlock ids setOrder reset (tp, recent) block = some (tp', ids.blockID block) ∧
      tp'.recentMedians ≠ [] := by
  obtain ⟨fee, priced⟩ := blockFee_eq_some ids ordered block
  rw [applyBlock, if_neg (by simp [parent]), Option.bind_eq_bind, priced]
  exact ⟨_, rfl, trimMedians_ne_nil (by simp)⟩

/-- Applied blocks that lead forward from the recent block pass the check, and once one is
applied there is a median. -/
theorem foldlM_applyBlock (ordered : ∀ i parentSets, (setOrder i parentSets).Perm parentSets)
    (reset : Bool) :
    ∀ {blocks : List (Block H)} (tp : TransactionPool H) {recent : H},
      AppliesFrom ids.blockID recent blocks → (tp.recentMedians ≠ [] ∨ blocks ≠ []) →
        ∃ r, blocks.foldlM (applyBlock ids setOrder reset) (tp, recent) = some r ∧
          r.1.recentMedians ≠ []
  | [], tp, recent, .nil _, medians => ⟨(tp, recent), rfl, medians.resolve_right (by simp)⟩
  | block :: _, tp, _, .cons parent later, _ => by
    obtain ⟨tp₁, stepped, medians⟩ := applyBlock_of_parent ordered reset tp parent
    rw [List.foldlM_cons, stepped]
    exact foldlM_applyBlock ordered reset tp₁ later (.inl medians)

/-- A change whose reverted blocks lead back from the recent block, and whose applied blocks,
at least one, lead forward from there, never panics: the sanity checks pass, every set of an
applied block has a size to divide by, and there is a median to read. -/
theorem processConsensusChange_isSome
    (ordered : ∀ i parentSets, (setOrder i parentSets).Perm parentSets) {tp : TransactionPool H}
    {cc : ConsensusChange H} {recent mid : H} (recorded : tp.recentBlockID = some recent)
    (reverts : RevertsFrom ids.blockID recent cc.revertedBlocks mid)
    (applies : AppliesFrom ids.blockID mid cc.appliedBlocks) (advances : cc.appliedBlocks ≠ []) :
    (processConsensusChange ids setOrder order feesAtSize txnFn tp cc).isSome := by
  obtain ⟨reverted, revertRan⟩ := foldlM_revertBlock false tp reverts
  obtain ⟨applied, applyRan, medians⟩ :=
    foldlM_applyBlock ordered false reverted applies (.inr advances)
  have inRange : (applied.1.recentMedians.mergeSort fun a b => decide (a ≤ b)).length / 2 <
      (applied.1.recentMedians.mergeSort fun a b => decide (a ≤ b)).length := by
    have := List.length_pos_of_ne_nil medians
    rw [List.length_mergeSort]
    omega
  simp only [processConsensusChange, recorded, Option.isNone_some, Option.getD_some, revertRan,
    applyRan, Option.bind_eq_bind, Option.bind_some]
  rw [List.getElem?_eq_getElem inRange]
  rfl

theorem sampleChange_returns :
    (processConsensusChange samplePoolIDs (fun _ parentSets => parentSets)
      (GoMap.RangeOrder.sorted (· ≤ ·)) (fun _ => 0) (fun _ => .ok emptyDiffs) emptyPool sampleChange).isSome :=
  processConsensusChange_isSome (fun _ _ => List.Perm.refl _) rfl (.cons rfl (.nil _))
    (.cons rfl (.nil _)) (List.cons_ne_nil _ _)

end Returns

/-! ### The age of a set -/

section Age

variable {ids : PoolIDs H} {height : UInt64} {oldHeights : H → Option UInt64}

omit [HashBytes H] in
/-- The age loop finds a set old exactly when each transaction was seen, at least
`MaxTransactionAge` blocks below the current height by `uint64` subtraction. -/
theorem setIsOld_eq_true_iff :
    ∀ (heights : H → Option UInt64) (tSet : List (Transaction H)),
      (setIsOld ids height oldHeights heights tSet).1 = true ↔
        ∀ txn ∈ tSet, ∃ seen, oldHeights (ids.transactionID txn) = some seen ∧
          maxTransactionAge ≤ height - seen
  | heights, [] => by simp [setIsOld]
  | heights, txn :: rest => by
    rw [List.forall_mem_cons]
    cases found : oldHeights (ids.transactionID txn) with
    | none => simp [setIsOld, found]
    | some seen =>
      by_cases young : height - seen < maxTransactionAge
      · simp [setIsOld, found, young]
      · have aged : maxTransactionAge ≤ height - seen := UInt64.not_lt.mp young
        simp [setIsOld, found, young, aged, setIsOld_eq_true_iff _ rest]

omit [HashBytes H] in
/-- The age check subtracts in `uint64`: a set whose transactions were all seen above the
current height, as after a reorg that lowered it, counts as old, and the prune loop drops it. -/
theorem pruneSet_drops_seen_above (acc : List (List (Transaction H)) × (H → Option UInt64))
    {tSet : List (Transaction H)}
    (above : ∀ txn ∈ tSet, ∃ seen, oldHeights (ids.transactionID txn) = some seen ∧
      height < seen ∧ seen.toNat + maxTransactionAge.toNat ≤ height.toNat + 2 ^ 64) :
    (pruneSet ids height oldHeights acc tSet).1 = acc.1 ++ [[]] := by
  have old : (setIsOld ids height oldHeights acc.2 tSet).1 = true := by
    rw [setIsOld_eq_true_iff]
    intro txn member
    obtain ⟨seen, found, later, bounded⟩ := above txn member
    refine ⟨seen, found, ?_⟩
    -- `height - seen` wraps to `2^64 - (seen - height)`
    have wrapped : (height - seen).toNat = 2 ^ 64 - seen.toNat + height.toNat := by
      rw [UInt64.toNat_sub, Nat.mod_eq_of_lt]
      have := UInt64.lt_iff_toNat_lt.mp later
      have := height.toNat_lt
      omega
    rw [UInt64.le_iff_toNat_le, wrapped]
    omega
  simp only [pruneSet, old, if_true]

/-- At height 3, a set seen at height 10 is dropped as old. -/
theorem sampleFutureSet_dropped :
    (pruneSet samplePoolIDs 3 (fun _ => some 10) ([], fun _ => none) [creatingSeven]).1 = [[]] :=
  pruneSet_drops_seen_above _ fun _ _ => ⟨10, rfl, by decide, by decide⟩

end Age

end TransactionPool

end Sia
