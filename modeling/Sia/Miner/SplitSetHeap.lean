import Sia.Types.Transaction
import Mathlib.Data.List.Perm.Basic
import Mathlib.Algebra.BigOperators.Group.List.Basic

/-! `modules/miner/splitsetheap.go`: a binary heap of split sets ordered by average fee, a min-heap
for the sets in the block and a max-heap for the overflow. An element is a pointer shared by the
heap's slice and its map `selectID`; swapping two elements writes their `index` fields, which the
model keeps per heap, by element ID, in `index`. A Go panic (an index out of range, a nil
element) is `none`. Sizes are `uint64` in Go and natural numbers here: the sums of set sizes the
miner forms stay far below `2^64`.

What every operation keeps is `Wf`: the IDs in the slice are distinct, each element's `index` is
its position, `selectID` holds exactly the elements of the slice, and `size` is the sum of their
sizes. A swap permutes the slice and rewrites the two indices, so the sifts keep `Wf` step by step,
and `push`, `pop` and `remove` keep it by adding or cutting the last element. -/
namespace Sia

/-- `splitSetID`: the value of the miner's counter when the split set was made. -/
abbrev SplitSetID := ℕ

/-- `splitSet`. -/
structure SplitSet (H : Type) where
  averageFee : Currency
  size : ℕ
  transactions : List (Transaction H)

/-- `mapElement`, but for its `index`, which the heap holding the element keeps. -/
structure MapElement (H : Type) where
  set : SplitSet H
  id : SplitSetID

/-- `mapHeap`, with the `index` fields of its elements. -/
structure MapHeap (H : Type) where
  selectID : SplitSetID → Option (MapElement H)
  data : List (MapElement H)
  index : SplitSetID → ℕ
  size : ℕ
  minHeap : Bool

variable {H : Type}

namespace MapHeap

/-- The empty heap `New` makes. -/
def empty (minHeap : Bool) : MapHeap H := ⟨fun _ => none, [], fun _ => 0, 0, minHeap⟩

/-- `less`: the element at `i` comes first, by lower fee in a min-heap and higher in a max-heap. -/
def less (mh : MapHeap H) (i j : ℕ) : Option Bool := do
  let a ← mh.data[i]?
  let b ← mh.data[j]?
  pure (if mh.minHeap then a.set.averageFee < b.set.averageFee else b.set.averageFee < a.set.averageFee)

/-- `swap`: the two elements trade places and their `index` fields follow. -/
def swap (mh : MapHeap H) (i j : ℕ) : Option (MapHeap H) := do
  let a ← mh.data[i]?
  let b ← mh.data[j]?
  pure { mh with
    data := (mh.data.set i b).set j a
    index := Function.update (Function.update mh.index b.id i) a.id j }

/-- `up`: the element at `j` moves up while it comes before its parent. Go's `(0 - 1) / 2` is `0`,
as is ℕ's. -/
def up (mh : MapHeap H) (j : ℕ) : Option (MapHeap H) :=
  let i := (j - 1) / 2
  if i = j then some mh
  else do
    let first ← mh.less j i
    if !first then some mh
    else do
      let mh ← mh.swap i j
      mh.up i
termination_by j
decreasing_by omega

/-- The loop of `down` from `i`: the element moves down while a child comes before it, to the
left child unless the right one comes first. -/
def downFrom (mh : MapHeap H) (n i : ℕ) : Option (MapHeap H × ℕ) :=
  if n ≤ 2 * i + 1 then some (mh, i)
  else do
    let leftFirst ← if 2 * i + 2 < n then mh.less (2 * i + 1) (2 * i + 2) else pure true
    let j := if !leftFirst then 2 * i + 2 else 2 * i + 1
    let first ← mh.less j i
    if !first then some (mh, i)
    else do
      let mh ← mh.swap i j
      mh.downFrom n j
termination_by n - i
decreasing_by all_goals (split <;> omega)

/-- `down`: the heap, and whether the element moved. -/
def down (mh : MapHeap H) (i0 n : ℕ) : Option (MapHeap H × Bool) := do
  let (mh, i) ← mh.downFrom n i0
  pure (mh, i0 < i)

/-- `push`: the element joins the end of the slice and the map, and moves up. -/
def push (mh : MapHeap H) (elem : MapElement H) : Option (MapHeap H) :=
  let n := mh.data.length
  ({ mh with
      index := Function.update mh.index elem.id n
      data := mh.data ++ [elem]
      selectID := Function.update mh.selectID elem.id (some elem)
      size := mh.size + elem.set.size } : MapHeap H).up n

/-- Cutting the last element, at `n`, off the slice and the map. -/
def cutLast (mh : MapHeap H) (n : ℕ) : Option (MapElement H × MapHeap H) := do
  let elem ← mh.data[n]?
  pure (elem, { mh with
    data := mh.data.take n
    selectID := Function.update mh.selectID elem.id none
    size := mh.size - elem.set.size })

/-- `pop`: the first element goes to the end, the one swapped in moves down, and the end is cut.
On an empty heap `swap(0, -1)` indexes out of range. -/
def pop (mh : MapHeap H) : Option (MapElement H × MapHeap H) :=
  if mh.data = [] then none
  else do
    let n := mh.data.length - 1
    let mh ← mh.swap 0 n
    let (mh, _) ← mh.down 0 n
    mh.cutLast n

/-- `remove`: the element at `i` goes to the end, the one swapped in moves down and up, and the end
is cut. -/
def remove (mh : MapHeap H) (i : ℕ) : Option (MapElement H × MapHeap H) :=
  if mh.data = [] then none
  else do
    let n := mh.data.length - 1
    let mh ← if n ≠ i then do
        let mh ← mh.swap i n
        let (mh, _) ← mh.down i n
        mh.up i
      else pure mh
    mh.cutLast n

/-- `removeSetByID`: the element's `index` locates it; an ID not in the map is a nil element. -/
def removeSetByID (mh : MapHeap H) (s : SplitSetID) : Option (MapElement H × MapHeap H) :=
  match mh.selectID s with
  | some elem => mh.remove (mh.index elem.id)
  | none => none

/-- `peek`. -/
def peek (mh : MapHeap H) : Option (MapElement H) := mh.data.head?

end MapHeap

/-! ### The bookkeeping every operation keeps -/

namespace MapHeap

/-- The bookkeeping of a heap: distinct IDs in the slice, each element's `index` its position,
`selectID` holding exactly the elements of the slice, and `size` the sum of their sizes. -/
structure Wf (mh : MapHeap H) : Prop where
  nodup : (mh.data.map MapElement.id).Nodup
  index_eq : ∀ (k : ℕ) (h : k < mh.data.length), mh.index mh.data[k].id = k
  selectID_eq : ∀ s e, mh.selectID s = some e ↔ e ∈ mh.data ∧ e.id = s
  size_eq : mh.size = (mh.data.map fun e => e.set.size).sum

/-- A heap whose slice is a permutation of another's, with the same map, size and order. -/
structure Reorders (mh mh' : MapHeap H) : Prop where
  perm : mh'.data.Perm mh.data
  selectID : mh'.selectID = mh.selectID
  size : mh'.size = mh.size
  minHeap : mh'.minHeap = mh.minHeap

theorem Reorders.refl (mh : MapHeap H) : Reorders mh mh := ⟨.refl _, rfl, rfl, rfl⟩

theorem Reorders.trans {mh mh' mh'' : MapHeap H} (first : Reorders mh mh') (second : Reorders mh' mh'') :
    Reorders mh mh'' :=
  ⟨second.perm.trans first.perm, second.selectID.trans first.selectID, second.size.trans first.size,
    second.minHeap.trans first.minHeap⟩

variable {mh mh' : MapHeap H}

/-- Two positions of a slice with distinct IDs hold one ID only if they are one position. -/
theorem Wf.id_inj (wf : mh.Wf) {a b : ℕ} (ha : a < mh.data.length) (hb : b < mh.data.length)
    (same : mh.data[a].id = mh.data[b].id) : a = b := by
  exact (List.Nodup.getElem_inj_iff (wf.nodup.of_map _)).mp
    (List.inj_on_of_nodup_map wf.nodup (List.getElem_mem ha) (List.getElem_mem hb) same)

theorem swap_some {i j : ℕ} (hi : i < mh.data.length) (hj : j < mh.data.length) :
    mh.swap i j = some { mh with
      data := (mh.data.set i mh.data[j]).set j mh.data[i]
      index := Function.update (Function.update mh.index mh.data[j].id i) mh.data[i].id j } := by
  simp [swap, hi, hj]

theorem length_of_swap {i j : ℕ} (swapped : mh.swap i j = some mh') :
    i < mh.data.length ∧ j < mh.data.length := by
  unfold swap at swapped
  cases hi : mh.data[i]? with
  | none => simp [hi] at swapped
  | some a =>
    cases hj : mh.data[j]? with
    | none => simp [hi, hj] at swapped
    | some b => exact ⟨(List.getElem?_eq_some_iff.mp hi).1, (List.getElem?_eq_some_iff.mp hj).1⟩

/-- A swap reorders the slice and keeps the bookkeeping. -/
theorem Wf.swap (wf : mh.Wf) {i j : ℕ} (swapped : mh.swap i j = some mh') : mh'.Wf ∧ Reorders mh mh' := by
  obtain ⟨hi, hj⟩ := length_of_swap swapped
  rw [swap_some hi hj, Option.some.injEq] at swapped
  subst swapped
  have perm : ((mh.data.set i mh.data[j]).set j mh.data[i]).Perm mh.data := List.set_set_perm hi hj
  refine ⟨⟨(perm.map _).nodup_iff.mpr wf.nodup, ?_, ?_, ?_⟩, ⟨perm, rfl, rfl, rfl⟩⟩
  · intro k hk
    simp only [List.length_set] at hk
    simp only [List.getElem_set]
    by_cases atJ : j = k
    · simp [atJ]
    · by_cases atI : i = k
      · subst atI
        have other : mh.data[j].id ≠ mh.data[i].id := fun same => atJ (wf.id_inj hj hi same)
        simp [atJ, Function.update_of_ne other]
      · have fromJ : mh.data[k].id ≠ mh.data[i].id := fun same => atI (wf.id_inj hi hk same.symm)
        have fromI : mh.data[k].id ≠ mh.data[j].id := fun same => atJ (wf.id_inj hj hk same.symm)
        simp [atJ, atI, Function.update_of_ne fromJ, Function.update_of_ne fromI, wf.index_eq k hk]
  · intro s e
    rw [wf.selectID_eq, perm.mem_iff]
  · rw [wf.size_eq, (perm.map _).sum_eq]

/-- A swap leaves every other position as it was. -/
theorem swap_getElem?_of_ne {i j k : ℕ} (swapped : mh.swap i j = some mh') (notI : i ≠ k) (notJ : j ≠ k) :
    mh'.data[k]? = mh.data[k]? := by
  obtain ⟨hi, hj⟩ := length_of_swap swapped
  rw [swap_some hi hj, Option.some.injEq] at swapped
  subst swapped
  simp only [List.getElem?_set_ne notJ, List.getElem?_set_ne notI]

/-- `up` keeps the bookkeeping and leaves the positions after `j` as they were. -/
theorem Wf.up (wf : mh.Wf) {j : ℕ} (moved : mh.up j = some mh') :
    mh'.Wf ∧ Reorders mh mh' ∧ ∀ k, j < k → mh'.data[k]? = mh.data[k]? := by
  induction j using Nat.strong_induction_on generalizing mh with
  | _ j ih =>
    rw [MapHeap.up] at moved
    split at moved
    · cases moved
      exact ⟨wf, .refl _, fun _ _ => rfl⟩
    rename_i notRoot
    obtain ⟨first, _, rest⟩ := Option.bind_eq_some_iff.mp moved
    split at rest
    · cases rest
      exact ⟨wf, .refl _, fun _ _ => rfl⟩
    obtain ⟨swappedHeap, swapped, rest⟩ := Option.bind_eq_some_iff.mp rest
    obtain ⟨wf', reorder⟩ := wf.swap swapped
    obtain ⟨wf'', reorder', frame⟩ := ih _ (by omega) wf' rest
    refine ⟨wf'', reorder.trans reorder', fun k above => ?_⟩
    rw [frame k (by omega), swap_getElem?_of_ne swapped (by omega) (by omega)]

/-- The loop of `down` keeps the bookkeeping and leaves the positions from `n` on as they were. -/
theorem Wf.downFrom {mh mh' : MapHeap H} (wf : mh.Wf) {n i i' : ℕ}
    (moved : mh.downFrom n i = some (mh', i')) :
    mh'.Wf ∧ Reorders mh mh' ∧ ∀ k, n ≤ k → mh'.data[k]? = mh.data[k]? := by
  rw [MapHeap.downFrom] at moved
  split at moved
  · cases moved
    exact ⟨wf, .refl _, fun _ _ => rfl⟩
  rename_i inside
  -- one step to a child `j` inside the first `n` positions, then the loop from `j`
  have step : ∀ j, i < j → j < n →
      (mh.less j i >>= fun first =>
        if !first then some (mh, i) else mh.swap i j >>= fun mh => mh.downFrom n j) = some (mh', i') →
      mh'.Wf ∧ Reorders mh mh' ∧ ∀ k, n ≤ k → mh'.data[k]? = mh.data[k]? := by
    intro j after within rest
    obtain ⟨first, _, rest⟩ := Option.bind_eq_some_iff.mp rest
    split at rest
    · cases rest
      exact ⟨wf, .refl _, fun _ _ => rfl⟩
    obtain ⟨swappedHeap, swapped, rest⟩ := Option.bind_eq_some_iff.mp rest
    obtain ⟨wf', reorder⟩ := wf.swap swapped
    obtain ⟨wf'', reorder', frame⟩ := Wf.downFrom wf' rest
    refine ⟨wf'', reorder.trans reorder', fun k beyond => ?_⟩
    rw [frame k beyond, swap_getElem?_of_ne swapped (by omega) (by omega)]
  simp only at moved
  split at moved
  · obtain ⟨leftFirst, _, rest⟩ := Option.bind_eq_some_iff.mp moved
    exact step _ (by split <;> omega) (by split <;> omega) rest
  · simp only [pure_bind, Bool.not_true, Bool.false_eq_true, if_false] at moved
    exact step _ (by omega) (by omega) moved
termination_by n - i

/-! ### The sifts do not panic inside the slice -/

theorem less_some {i j : ℕ} (hi : i < mh.data.length) (hj : j < mh.data.length) :
    ∃ first, mh.less i j = some first := by
  simp [less, hi, hj]

theorem up_isSome : ∀ {mh : MapHeap H} {j : ℕ}, j < mh.data.length → ∃ mh', mh.up j = some mh' := by
  intro mh j
  induction j using Nat.strong_induction_on generalizing mh with
  | _ j ih =>
    intro inside
    rw [MapHeap.up]
    split
    · exact ⟨mh, rfl⟩
    obtain ⟨first, compared⟩ := less_some inside (by omega : (j - 1) / 2 < mh.data.length)
    rw [compared, Option.bind_eq_bind, Option.bind_some]
    split
    · exact ⟨mh, rfl⟩
    rw [swap_some (by omega) inside, Option.bind_eq_bind, Option.bind_some]
    exact ih _ (by omega) (by simpa using (by omega : (j - 1) / 2 < mh.data.length))

theorem downFrom_isSome {mh : MapHeap H} {n i : ℕ} (within : n ≤ mh.data.length) :
    ∃ r, mh.downFrom n i = some r := by
  rw [MapHeap.downFrom]
  split
  · exact ⟨_, rfl⟩
  rename_i inside
  -- one step to a child `j` inside the first `n` positions, then the loop from `j`
  have step : ∀ j, i < j → j < n →
      ∃ r, (mh.less j i >>= fun first =>
        if !first then some (mh, i) else mh.swap i j >>= fun mh => mh.downFrom n j) = some r := by
    intro j after inside'
    obtain ⟨first, compared⟩ := less_some (by omega : j < mh.data.length)
      (by omega : i < mh.data.length)
    rw [compared, Option.bind_eq_bind, Option.bind_some]
    split
    · exact ⟨_, rfl⟩
    rw [swap_some (by omega) (by omega), Option.bind_eq_bind, Option.bind_some]
    exact downFrom_isSome (by simpa using within)
  simp only
  split
  · obtain ⟨leftFirst, compared⟩ := less_some (by omega : 2 * i + 1 < mh.data.length)
      (by omega : 2 * i + 2 < mh.data.length)
    rw [compared, Option.bind_eq_bind, Option.bind_some]
    exact step _ (by split <;> omega) (by split <;> omega)
  · simp only [pure_bind, Bool.not_true, Bool.false_eq_true, if_false]
    exact step _ (by omega) (by omega)
termination_by n - i

/-! ### Adding and cutting the last element -/

/-- A slice of length `n + 1` is its first `n` elements and the last. -/
theorem data_eq_take_append {n : ℕ} (last : mh.data.length = n + 1) :
    mh.data = mh.data.take n ++ [mh.data[n]] := by
  rw [← List.take_succ_eq_append_getElem, ← last, List.take_length]

/-- Cutting the last element keeps the bookkeeping. -/
theorem Wf.cutLast (wf : mh.Wf) {n : ℕ} (last : mh.data.length = n + 1) :
    ∃ mh', mh.cutLast n = some (mh.data[n], mh') ∧ mh'.Wf ∧ mh'.data = mh.data.take n ∧
      mh'.selectID = Function.update mh.selectID mh.data[n].id none ∧
      mh'.size = mh.size - mh.data[n].set.size ∧ mh'.index = mh.index ∧ mh'.minHeap = mh.minHeap := by
  have whole := data_eq_take_append last
  have ids := wf.nodup
  rw [whole, List.map_append, List.nodup_append] at ids
  -- the last ID is none of the others
  have fresh : ∀ e ∈ mh.data.take n, e.id ≠ mh.data[n].id := fun e mem same =>
    ids.2.2 e.id (List.mem_map_of_mem mem) mh.data[n].id (by simp) same
  have inside : n < mh.data.length := by omega
  refine ⟨{ mh with
      data := mh.data.take n
      selectID := Function.update mh.selectID mh.data[n].id none
      size := mh.size - mh.data[n].set.size },
    by simp [MapHeap.cutLast, inside], ⟨ids.1, ?_, ?_, ?_⟩, rfl, rfl, rfl, rfl, rfl⟩
  · intro k hk
    simp only [List.length_take] at hk
    simp only [List.getElem_take]
    exact wf.index_eq k (by omega)
  · intro s e
    dsimp only
    by_cases cut : s = mh.data[n].id
    · subst cut
      simp only [Function.update_self, reduceCtorEq, false_iff, not_and]
      exact fun mem => fresh e mem
    · rw [Function.update_of_ne cut, wf.selectID_eq]
      constructor
      · rintro ⟨mem, rfl⟩
        rw [whole, List.mem_append, List.mem_singleton] at mem
        rcases mem with kept | rfl
        · exact ⟨kept, rfl⟩
        · exact absurd rfl cut
      · rintro ⟨mem, rfl⟩
        exact ⟨List.mem_of_mem_take mem, rfl⟩
  · dsimp only
    have sum := congrArg (fun l : List (MapElement H) => (l.map fun e => e.set.size).sum) whole
    simp only [List.map_append, List.sum_append, List.map_cons, List.map_nil, List.sum_cons,
      List.sum_nil, Nat.add_zero] at sum
    rw [wf.size_eq]
    omega

/-- `push` of an element whose ID the heap does not hold keeps the bookkeeping, and the slice is
the old one and the element, reordered. -/
theorem Wf.push (wf : mh.Wf) {elem : MapElement H} (fresh : mh.selectID elem.id = none) :
    ∃ mh', mh.push elem = some mh' ∧ mh'.Wf ∧ mh'.data.Perm (mh.data ++ [elem]) ∧
      mh'.selectID = Function.update mh.selectID elem.id (some elem) ∧
      mh'.size = mh.size + elem.set.size ∧ mh'.minHeap = mh.minHeap := by
  have absent : ∀ e ∈ mh.data, e.id ≠ elem.id := fun e mem same =>
    by simpa [fresh] using (wf.selectID_eq elem.id e).mpr ⟨mem, same⟩
  let appended : MapHeap H := { mh with
    index := Function.update mh.index elem.id mh.data.length
    data := mh.data ++ [elem]
    selectID := Function.update mh.selectID elem.id (some elem)
    size := mh.size + elem.set.size }
  have appendedWf : appended.Wf := by
    refine ⟨?_, ?_, ?_, ?_⟩
    · simp only [appended, List.map_append, List.map_cons, List.map_nil]
      exact List.nodup_append.mpr ⟨wf.nodup, by simp, by
        simpa using fun e mem same => absent e mem same⟩
    · intro k hk
      simp only [appended, List.length_append, List.length_singleton] at hk
      simp only [appended, List.getElem_append]
      split
      · rename_i before
        rw [Function.update_of_ne (absent _ (List.getElem_mem before)), wf.index_eq k before]
      · simp only [List.getElem_singleton, Function.update_self]
        omega
    · intro s e
      simp only [appended, List.mem_append, List.mem_singleton]
      by_cases added : s = elem.id
      · subst added
        simp only [Function.update_self, Option.some.injEq]
        constructor
        · rintro rfl
          exact ⟨.inr rfl, rfl⟩
        · rintro ⟨mem | rfl, same⟩
          · exact absurd same (absent e mem)
          · rfl
      · rw [Function.update_of_ne added, wf.selectID_eq]
        constructor
        · rintro ⟨mem, rfl⟩
          exact ⟨.inl mem, rfl⟩
        · rintro ⟨mem | rfl, rfl⟩
          · exact ⟨mem, rfl⟩
          · exact absurd rfl added
    · simp [appended, wf.size_eq]
  obtain ⟨mh', moved⟩ : ∃ h', appended.up mh.data.length = some h' := up_isSome (by simp [appended])
  obtain ⟨wf', reorder, _⟩ := appendedWf.up moved
  exact ⟨mh', moved, wf', reorder.perm, reorder.selectID, reorder.size, reorder.minHeap⟩

/-- `pop` of a nonempty heap keeps the bookkeeping and takes out the element that was first. -/
theorem Wf.pop (wf : mh.Wf) (nonempty : 0 < mh.data.length) :
    ∃ mh', mh.pop = some (mh.data[0], mh') ∧ mh'.Wf ∧ (mh'.data ++ [mh.data[0]]).Perm mh.data ∧
      mh'.selectID = Function.update mh.selectID mh.data[0].id none ∧
      mh'.size = mh.size - mh.data[0].set.size ∧ mh'.minHeap = mh.minHeap := by
  obtain ⟨n, last⟩ : ∃ n, mh.data.length = n + 1 := ⟨mh.data.length - 1, by omega⟩
  have inside : n < mh.data.length := by omega
  -- the first element goes to the end
  obtain ⟨swappedHeap, swapped⟩ : ∃ h', mh.swap 0 n = some h' := ⟨_, swap_some nonempty inside⟩
  obtain ⟨wf1, reorder1⟩ := wf.swap swapped
  have atEnd : swappedHeap.data[n]? = some mh.data[0] := by
    rw [swap_some nonempty inside, Option.some.injEq] at swapped
    subst swapped
    simp [inside]
  -- the element swapped in moves down inside the first `n` positions
  obtain ⟨⟨downHeap, i⟩, moved⟩ : ∃ r, swappedHeap.downFrom n 0 = some r :=
    downFrom_isSome (by simp [reorder1.perm.length_eq, last])
  obtain ⟨wf2, reorder2, frame⟩ := wf1.downFrom moved
  have length2 : downHeap.data.length = n + 1 := by rw [reorder2.perm.length_eq, reorder1.perm.length_eq, last]
  have last2 : downHeap.data[n] = mh.data[0] := by
    have := frame n (Nat.le_refl n)
    rw [atEnd, List.getElem?_eq_getElem (by omega)] at this
    exact Option.some.inj this
  obtain ⟨cutHeap, cut, wf3, data3, select3, size3, _, minHeap3⟩ := wf2.cutLast length2
  rw [last2] at cut select3 size3
  refine ⟨cutHeap, ?_, wf3, ?_, ?_, ?_, ?_⟩
  · have notEmpty : mh.data ≠ [] := List.ne_nil_of_length_pos nonempty
    simp only [MapHeap.pop, notEmpty, if_false, show mh.data.length - 1 = n by omega, swapped,
      MapHeap.down, moved, Option.bind_eq_bind, Option.bind_some]
    exact cut
  · rw [data3, ← last2, ← data_eq_take_append length2]
    exact reorder2.perm.trans reorder1.perm
  · rw [select3, reorder2.selectID, reorder1.selectID]
  · rw [size3, reorder2.size, reorder1.size]
  · rw [minHeap3, reorder2.minHeap, reorder1.minHeap]

/-- `remove` at a position inside the slice keeps the bookkeeping and takes out that position's
element. -/
theorem Wf.remove (wf : mh.Wf) {i : ℕ} (inside : i < mh.data.length) :
    ∃ mh', mh.remove i = some (mh.data[i], mh') ∧ mh'.Wf ∧ (mh'.data ++ [mh.data[i]]).Perm mh.data ∧
      mh'.selectID = Function.update mh.selectID mh.data[i].id none ∧
      mh'.size = mh.size - mh.data[i].set.size ∧ mh'.minHeap = mh.minHeap := by
  obtain ⟨n, last⟩ : ∃ n, mh.data.length = n + 1 := ⟨mh.data.length - 1, by omega⟩
  have notEmpty : mh.data ≠ [] := List.ne_nil_of_length_pos (by omega)
  by_cases atEnd : n = i
  · -- the last element is cut where it is
    subst atEnd
    obtain ⟨cutHeap, cut, wf', data', select', size', _, minHeap'⟩ := wf.cutLast last
    refine ⟨cutHeap, ?_, wf', ?_, select', size', minHeap'⟩
    · simp only [MapHeap.remove, notEmpty, if_false, show mh.data.length - 1 = n by omega, ne_eq,
        not_true_eq_false, pure_bind]
      exact cut
    · rw [data', ← data_eq_take_append last]
  have before : i < n := by omega
  have within : n < mh.data.length := by omega
  -- the element goes to the end, and the one swapped in moves down, then up
  obtain ⟨swappedHeap, swapped⟩ : ∃ h', mh.swap i n = some h' := ⟨_, swap_some inside within⟩
  obtain ⟨wf1, reorder1⟩ := wf.swap swapped
  have atLast : swappedHeap.data[n]? = some mh.data[i] := by
    rw [swap_some inside within, Option.some.injEq] at swapped
    subst swapped
    simp [within]
  obtain ⟨⟨downHeap, k⟩, movedDown⟩ : ∃ r, swappedHeap.downFrom n i = some r :=
    downFrom_isSome (by simp [reorder1.perm.length_eq, last])
  obtain ⟨wf2, reorder2, frame2⟩ := wf1.downFrom movedDown
  obtain ⟨upHeap, movedUp⟩ : ∃ h', downHeap.up i = some h' :=
    up_isSome (by rw [reorder2.perm.length_eq, reorder1.perm.length_eq]; exact inside)
  obtain ⟨wf3, reorder3, frame3⟩ := wf2.up movedUp
  have length3 : upHeap.data.length = n + 1 := by
    rw [reorder3.perm.length_eq, reorder2.perm.length_eq, reorder1.perm.length_eq, last]
  have last3 : upHeap.data[n] = mh.data[i] := by
    have := frame3 n before
    rw [frame2 n (Nat.le_refl n), atLast, List.getElem?_eq_getElem (by omega)] at this
    exact Option.some.inj this
  obtain ⟨cutHeap, cut, wf4, data4, select4, size4, _, minHeap4⟩ := wf3.cutLast length3
  rw [last3] at cut select4 size4
  refine ⟨cutHeap, ?_, wf4, ?_, ?_, ?_, ?_⟩
  · simp only [MapHeap.remove, notEmpty, if_false, show mh.data.length - 1 = n by omega, ne_eq, atEnd,
      not_false_eq_true, if_true, swapped, MapHeap.down, movedDown, movedUp, Option.bind_eq_bind,
      Option.pure_def, Option.bind_some]
    exact cut
  · rw [data4, ← last3, ← data_eq_take_append length3]
    exact reorder3.perm.trans (reorder2.perm.trans reorder1.perm)
  · rw [select4, reorder3.selectID, reorder2.selectID, reorder1.selectID]
  · rw [size4, reorder3.size, reorder2.size, reorder1.size]
  · rw [minHeap4, reorder3.minHeap, reorder2.minHeap, reorder1.minHeap]

/-- `removeSetByID` of an ID the heap holds keeps the bookkeeping and takes out its element. -/
theorem Wf.removeSetByID (wf : mh.Wf) {s : SplitSetID} {e : MapElement H} (held : mh.selectID s = some e) :
    ∃ mh', mh.removeSetByID s = some (e, mh') ∧ mh'.Wf ∧ (mh'.data ++ [e]).Perm mh.data ∧
      mh'.selectID = Function.update mh.selectID s none ∧ mh'.size = mh.size - e.set.size ∧
      mh'.minHeap = mh.minHeap := by
  obtain ⟨mem, rfl⟩ := (wf.selectID_eq s e).mp held
  obtain ⟨k, inside, rfl⟩ := List.getElem_of_mem mem
  obtain ⟨mh', removed, rest⟩ := wf.remove inside
  refine ⟨mh', ?_, rest⟩
  rw [MapHeap.removeSetByID, held]
  dsimp only
  rw [wf.index_eq k inside]
  exact removed

/-! ### Lengths, and the heaps of at most one element -/

theorem swap_length {i j : ℕ} (swapped : mh.swap i j = some mh') : mh'.data.length = mh.data.length := by
  obtain ⟨hi, hj⟩ := length_of_swap swapped
  rw [swap_some hi hj, Option.some.injEq] at swapped
  subst swapped
  simp

theorem downFrom_length {mh mh' : MapHeap H} {n i i' : ℕ} (moved : mh.downFrom n i = some (mh', i')) :
    mh'.data.length = mh.data.length := by
  rw [MapHeap.downFrom] at moved
  split at moved
  · cases moved
    rfl
  rename_i inside
  have step : ∀ j, i < j → j < n →
      (mh.less j i >>= fun first =>
        if !first then some (mh, i) else mh.swap i j >>= fun mh => mh.downFrom n j) = some (mh', i') →
      mh'.data.length = mh.data.length := by
    intro j after within rest
    obtain ⟨first, _, rest⟩ := Option.bind_eq_some_iff.mp rest
    split at rest
    · cases rest
      rfl
    obtain ⟨swappedHeap, swapped, rest⟩ := Option.bind_eq_some_iff.mp rest
    rw [downFrom_length rest, swap_length swapped]
  simp only at moved
  split at moved
  · obtain ⟨leftFirst, _, rest⟩ := Option.bind_eq_some_iff.mp moved
    exact step _ (by split <;> omega) (by split <;> omega) rest
  · simp only [pure_bind, Bool.not_true, Bool.false_eq_true, if_false] at moved
    exact step _ (by omega) (by omega) moved
termination_by n - i

/-- A `pop` that does not panic takes one element off the slice. -/
theorem pop_length {elem : MapElement H} (popped : mh.pop = some (elem, mh')) :
    mh'.data.length + 1 = mh.data.length := by
  unfold MapHeap.pop at popped
  split at popped
  · cases popped
  rename_i nonempty
  obtain ⟨swappedHeap, swapped, rest⟩ := Option.bind_eq_some_iff.mp popped
  obtain ⟨⟨downHeap, moved⟩, down, rest⟩ := Option.bind_eq_some_iff.mp rest
  obtain ⟨⟨downHeap', i⟩, downFrom, same⟩ := Option.bind_eq_some_iff.mp down
  cases same
  obtain ⟨last, _, cut⟩ := Option.bind_eq_some_iff.mp rest
  cases cut
  have length := downFrom_length downFrom
  rw [swap_length swapped] at length
  have positive := List.length_pos_of_ne_nil nonempty
  simp only [List.length_take, length]
  omega

/-- `up` only swaps, so it keeps the heap's size. -/
theorem up_size {mh mh' : MapHeap H} {j : ℕ} (moved : mh.up j = some mh') : mh'.size = mh.size := by
  induction j using Nat.strong_induction_on generalizing mh with
  | _ j ih =>
    rw [MapHeap.up] at moved
    split at moved
    · cases moved
      rfl
    obtain ⟨first, _, rest⟩ := Option.bind_eq_some_iff.mp moved
    split at rest
    · cases rest
      rfl
    obtain ⟨swappedHeap, swapped, rest⟩ := Option.bind_eq_some_iff.mp rest
    obtain ⟨hi, hj⟩ := length_of_swap swapped
    rw [swap_some hi hj, Option.some.injEq] at swapped
    subst swapped
    -- the swap leaves the size as it was
    have := ih _ (by omega) rest
    exact this

/-- `push` never panics, and adds the element's size to the heap's. -/
theorem push_size (mh : MapHeap H) (elem : MapElement H) :
    ∃ mh', mh.push elem = some mh' ∧ mh'.size = mh.size + elem.set.size := by
  obtain ⟨mh', moved⟩ : ∃ h', ({ mh with
      index := Function.update mh.index elem.id mh.data.length
      data := mh.data ++ [elem]
      selectID := Function.update mh.selectID elem.id (some elem)
      size := mh.size + elem.set.size } : MapHeap H).up mh.data.length = some h' := up_isSome (by simp)
  exact ⟨mh', moved, up_size moved⟩

theorem push_of_nil (empty : mh.data = []) (elem : MapElement H) :
    mh.push elem = some { mh with
      index := Function.update mh.index elem.id 0
      data := [elem]
      selectID := Function.update mh.selectID elem.id (some elem)
      size := mh.size + elem.set.size } := by
  simp [MapHeap.push, empty, MapHeap.up]

/-- The heap `push` makes of one element on an empty heap. -/
theorem push_empty {minHeap : Bool} {elem : MapElement H} (pushed : (empty minHeap).push elem = some mh) :
    mh.Wf ∧ mh.data = [elem] ∧ mh.selectID = Function.update (fun _ => none) elem.id (some elem) ∧
      mh.size = elem.set.size := by
  rw [push_of_nil rfl, Option.some.injEq] at pushed
  subst pushed
  refine ⟨⟨by simp, ?_, ?_, by simp [empty]⟩, rfl, rfl, by simp [empty]⟩
  · intro k inside
    simp only [List.length_singleton, Nat.lt_one_iff] at inside
    subst inside
    simp
  · intro s e
    by_cases same : s = elem.id
    · subst same
      simp only [Function.update_self, Option.some.injEq, List.mem_singleton]
      constructor
      · rintro rfl
        exact ⟨rfl, rfl⟩
      · rintro ⟨rfl, -⟩
        rfl
    · simp only [Function.update_of_ne same, empty, reduceCtorEq, List.mem_singleton, false_iff, not_and]
      rintro rfl
      exact Ne.symm same

theorem pop_of_nil (empty : mh.data = []) : mh.pop = none := by
  simp [MapHeap.pop, empty]

theorem pop_of_singleton {elem : MapElement H} (single : mh.data = [elem]) :
    mh.pop = some (elem, { mh with
      index := Function.update (Function.update mh.index elem.id 0) elem.id 0
      data := []
      selectID := Function.update mh.selectID elem.id none
      size := mh.size - elem.set.size }) := by
  simp [MapHeap.pop, single, MapHeap.swap, MapHeap.down, MapHeap.downFrom, MapHeap.cutLast]

theorem remove_of_singleton {elem : MapElement H} (single : mh.data = [elem]) :
    mh.remove 0 = some (elem, { mh with
      data := []
      selectID := Function.update mh.selectID elem.id none
      size := mh.size - elem.set.size }) := by
  simp [MapHeap.remove, single, MapHeap.cutLast]

end MapHeap

end Sia
