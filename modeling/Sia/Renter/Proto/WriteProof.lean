import Sia.Host.LoopRPC
import Mathlib.Data.List.Sort

/-! The Merkle diff proof of a write: the proof `managedRPCLoopWrite` of `modules/host/newrpc.go`
sends, and `calculateProofRanges`, `modifyProofRanges` and `modifyLeaves` of
`modules/renter/proto/session.go`, with which the renter checks it. The host proves the old roots
at the indices its action loop marks as changed; the renter works the indices out from the
actions alone, checks the proof against the old root, then moves the leaves as the actions do and
checks it against the new root. A proof range is the pair of `uint64` bounds `Start` and `End`.
`none` is a panic. -/
namespace Sia.Host

variable {H : Type}

/-- The ranges both sides build from their map `sectorsChanged`: one for each index that existed
before, sorted by start. -/
def proofRangesOf (oldNumSectors : UInt64) (sectorsChanged : List UInt64) :
    List (UInt64 × UInt64) :=
  ((sectorsChanged.dedup.filter (· < oldNumSectors)).mergeSort (· ≤ ·)).map
    fun start => (start, start + 1)

/-- `OldLeafHashes`: the old root at the start of each range. Every range starts below the old
count, so the lookup does not fail. -/
def oldLeafHashes (oldRoots : List H) (proofRanges : List (UInt64 × UInt64)) : Option (List H) :=
  proofRanges.mapM fun r => oldRoots[r.1.toNat]?

end Sia.Host

namespace Sia.Renter.Proto

open Host

variable {H : Type}

/-- One action of `calculateProofRanges`' loop: the count of sectors after it and the indices it
marks. An update panics; an unknown action is skipped. -/
def changedSectors : UInt64 × List UInt64 → WriteAction → Option (UInt64 × List UInt64)
  | (newNumSectors, sectorsChanged), action =>
    match action.type with
    | .append => some (newNumSectors + 1, newNumSectors :: sectorsChanged)
    -- a trim counts down one sector, whatever its `A`
    | .trim => some (newNumSectors - 1, (newNumSectors - 1) :: sectorsChanged)
    | .swap => some (newNumSectors, action.b :: action.a :: sectorsChanged)
    | .update => none
    | .other => some (newNumSectors, sectorsChanged)

/-- `calculateProofRanges(actions, oldNumSectors)`. -/
def calculateProofRanges (actions : List WriteAction) (oldNumSectors : UInt64) :
    Option (List (UInt64 × UInt64)) :=
  (actions.foldlM changedSectors (oldNumSectors, [])).map fun (_, sectorsChanged) =>
    proofRangesOf oldNumSectors sectorsChanged

/-- One action of `modifyProofRanges`: an append adds the new sector's range, and a trim of `A`
drops the last `A` ranges; `len - A` wraps past the slice's capacity when `A` exceeds the length,
and the slice panics. -/
def modifyProofRange : List (UInt64 × UInt64) × UInt64 → WriteAction →
    Option (List (UInt64 × UInt64) × UInt64)
  | (proofRanges, numSectors), action =>
    match action.type with
    | .append => some (proofRanges ++ [(numSectors, numSectors + 1)], numSectors + 1)
    | .trim =>
      if action.a.toNat ≤ proofRanges.length then
        some (proofRanges.take (proofRanges.length - action.a.toNat), numSectors - 1)
      else none
    | _ => some (proofRanges, numSectors)

/-- `modifyProofRanges(proofRanges, actions, numSectors)`. -/
def modifyProofRanges (proofRanges : List (UInt64 × UInt64)) (actions : List WriteAction)
    (numSectors : UInt64) : Option (List (UInt64 × UInt64)) :=
  (actions.foldlM modifyProofRange (proofRanges, numSectors)).map (·.1)

/-- The first loop of `modifyLeaves`: the sector index of each leaf, an append's new sector, every
sector a trim removes counting down from the current count, and both sides of a swap. -/
def leafIndices : List UInt64 × UInt64 → WriteAction → List UInt64 × UInt64
  | (indices, numSectors), action =>
    match action.type with
    | .append => (indices ++ [numSectors], numSectors + 1)
    | .trim =>
      (indices ++ (List.range action.a.toNat).map (fun j => numSectors - UInt64.ofNat j),
        numSectors - action.a)
    | .swap => (indices ++ [action.a, action.b], numSectors)
    | _ => (indices, numSectors)

/-- `indexMap` over the sorted indices: each index to the position where it first appears, as the
loop that skips repeats leaves it; a missing key reads as Go's zero value. -/
def indexMapOf (indices : List UInt64) (index : UInt64) : ℕ :=
  if index ∈ indices then indices.idxOf index else 0

/-- One action of `modifyLeaves`' second loop. A swap indexes the leaves at the positions
`indexMap` gives, and panics past their end; so does an update. -/
def modifyLeaf (merkleRoot : List UInt8 → H) (indexMap : UInt64 → ℕ) (leafHashes : List H)
    (action : WriteAction) : Option (List H) :=
  match action.type with
  | .append => some (leafHashes ++ [merkleRoot action.data])
  | .trim =>
    if action.a.toNat ≤ leafHashes.length then
      some (leafHashes.take (leafHashes.length - action.a.toNat))
    else none
  | .swap =>
    match leafHashes[indexMap action.a]?, leafHashes[indexMap action.b]? with
    | some x, some y => some ((leafHashes.set (indexMap action.a) y).set (indexMap action.b) x)
    | _, _ => none
  | .update => none
  | .other => some leafHashes

/-- `modifyLeaves(leafHashes, actions, numSectors)`, with `crypto.MerkleRoot` of a sector. -/
def modifyLeaves (merkleRoot : List UInt8 → H) (leafHashes : List H) (actions : List WriteAction)
    (numSectors : UInt64) : Option (List H) :=
  let indices := (actions.foldl leafIndices ([], numSectors)).1.mergeSort (· ≤ ·)
  actions.foldlM (modifyLeaf merkleRoot (indexMapOf indices)) leafHashes

/-! ### Where the renter's ranges follow the host's -/

section Agreement

theorem length_swapAt {α : Type} (xs : List α) (i j : ℕ) : (swapAt xs i j).length = xs.length := by
  unfold swapAt
  split <;> simp

variable (io : HostIO H) (prices : HostPrices)

/-- After an action the host accepts, other than an update or a trim of several sectors, the
renter's count is still the host's number of roots and both have marked the same indices. -/
theorem changedSectors_follows {st st' : WriteState H} {action : WriteAction}
    (accepted : applyWriteAction io prices st action = some (.ok st'))
    (single : action.type = .trim → action.a = 1) (noUpdate : action.type ≠ .update) :
    changedSectors (UInt64.ofNat st.newRoots.length, st.sectorsChanged) action =
      some (UInt64.ofNat st'.newRoots.length, st'.sectorsChanged) := by
  obtain ⟨type, a, b, data⟩ := action
  cases type with
  | append =>
    simp only [applyWriteAction] at accepted
    split at accepted
    · cases accepted
    · cases accepted
      simp [changedSectors, UInt64.ofNat_add]
  | trim =>
    obtain rfl : a = 1 := single rfl
    simp only [applyWriteAction] at accepted
    split at accepted
    · cases accepted
    · next enough =>
      cases accepted
      -- the host trims only a contract with a sector, so its count is positive
      have positive : 1 ≤ st.newRoots.length := by
        rcases Nat.eq_zero_or_pos st.newRoots.length with empty | positive
        · rw [empty] at enough
          exact absurd (by decide) enough
        · exact positive
      have one : (1 : UInt64).toNat = 1 := rfl
      simp only [changedSectors, one, List.length_take, Nat.min_eq_left (Nat.sub_le _ _),
        UInt64.ofNat_sub positive]
      rfl
  | swap =>
    simp only [applyWriteAction] at accepted
    split at accepted
    · cases accepted
    · cases accepted
      simp [changedSectors, length_swapAt]
  | update => exact absurd rfl noUpdate
  | other => simp [applyWriteAction] at accepted

/-- Along an accepted run of such actions the renter's loop follows the host's. -/
theorem foldlM_changedSectors_follows :
    ∀ (actions : List WriteAction) (st st' : WriteState H),
      applyWriteActions io prices st actions = some (.ok st') →
      (∀ action ∈ actions, action.type = .trim → action.a = 1) →
      (∀ action ∈ actions, action.type ≠ .update) →
      actions.foldlM changedSectors (UInt64.ofNat st.newRoots.length, st.sectorsChanged) =
        some (UInt64.ofNat st'.newRoots.length, st'.sectorsChanged)
  | [], st, st', accepted, _, _ => by
    cases accepted
    rfl
  | action :: rest, st, st', accepted, single, noUpdate => by
    simp only [applyWriteActions] at accepted
    split at accepted
    · cases accepted
    · cases accepted
    · next st₁ first =>
      rw [List.foldlM_cons, changedSectors_follows io prices first (single action
        List.mem_cons_self) (noUpdate action List.mem_cons_self), Option.bind_eq_bind,
        Option.bind_some]
      exact foldlM_changedSectors_follows rest st₁ st' accepted
        (fun action member => single action (List.mem_cons_of_mem _ member))
        (fun action member => noUpdate action (List.mem_cons_of_mem _ member))

/-- When every trim removes one sector and nothing is updated, `calculateProofRanges` gives
exactly the ranges the host proves. -/
theorem calculateProofRanges_agrees {roots : List H} {actions : List WriteAction}
    {st : WriteState H}
    (accepted : applyWriteActions io prices ⟨roots, [], 0, [], []⟩ actions = some (.ok st))
    (single : ∀ action ∈ actions, action.type = .trim → action.a = 1)
    (noUpdate : ∀ action ∈ actions, action.type ≠ .update) :
    calculateProofRanges actions (UInt64.ofNat roots.length) =
      some (proofRangesOf (UInt64.ofNat roots.length) st.sectorsChanged) := by
  have followed := foldlM_changedSectors_follows io prices actions _ st accepted single noUpdate
  rw [calculateProofRanges]
  rw [followed]
  rfl

end Agreement

/-! ### A trim of several sectors -/

/-- The ranges of one changed index that existed before. -/
theorem proofRangesOf_single {oldNumSectors index : UInt64} (below : index < oldNumSectors) :
    proofRangesOf oldNumSectors [index] = [(index, index + 1)] := by
  simp [proofRangesOf, below]

variable (io : HostIO H) (prices : HostPrices)

/-- A trim of `k ≥ 2` of the `n` sectors: the host accepts it and proves the old index `n - k`,
the first sector removed, while `calculateProofRanges`, which counts the trim as one sector,
expects the old index `n - 1`. -/
theorem calculateProofRanges_misplaces_multi_trim (roots : List H) {k : UInt64} (several : 2 ≤ k)
    (fits : k.toNat ≤ roots.length) (small : roots.length < 2 ^ 64) (b : UInt64)
    (data : List UInt8) :
    (∃ st, applyWriteActions io prices ⟨roots, [], 0, [], []⟩ [⟨.trim, k, b, data⟩] =
        some (.ok st) ∧
      proofRangesOf (UInt64.ofNat roots.length) st.sectorsChanged =
        [(UInt64.ofNat roots.length - k, UInt64.ofNat roots.length - k + 1)]) ∧
    calculateProofRanges [⟨.trim, k, b, data⟩] (UInt64.ofNat roots.length) =
      some [(UInt64.ofNat roots.length - 1, UInt64.ofNat roots.length)] ∧
    UInt64.ofNat roots.length - k ≠ UInt64.ofNat roots.length - 1 := by
  have count : (UInt64.ofNat roots.length).toNat = roots.length := by
    rw [UInt64.toNat_ofNat_of_lt' small]
  have atLeastTwo : 2 ≤ k.toNat := UInt64.le_iff_toNat_le.mp several
  -- the host keeps the first `n - k` roots and marks index `n - k`
  have accepted : ¬ UInt64.ofNat roots.length < k := by
    rw [UInt64.lt_iff_toNat_lt, count]
    omega
  have kept : UInt64.ofNat (roots.length - k.toNat) = UInt64.ofNat roots.length - k := by
    rw [UInt64.ofNat_sub fits, UInt64.ofNat_toNat]
  have keptBelow : UInt64.ofNat roots.length - k < UInt64.ofNat roots.length := by
    have keptSmall : roots.length - k.toNat < 2 ^ 64 := by omega
    rw [← kept, UInt64.lt_iff_toNat_lt, count, UInt64.toNat_ofNat_of_lt' keptSmall]
    omega
  -- the renter counts one sector down and marks index `n - 1`
  have one : (1 : UInt64).toNat = 1 := rfl
  have positive : (1 : UInt64) ≤ UInt64.ofNat roots.length := by
    rw [UInt64.le_iff_toNat_le, count]
    exact Nat.le_trans (by decide) (Nat.le_trans atLeastTwo fits)
  have lastBelow : UInt64.ofNat roots.length - 1 < UInt64.ofNat roots.length := by
    rw [UInt64.lt_iff_toNat_lt, UInt64.toNat_sub_of_le _ _ positive, count]
    omega
  refine ⟨⟨⟨roots.take (roots.length - k.toNat), [UInt64.ofNat (roots.length - k.toNat)], 0,
    [] ++ roots.drop (roots.length - k.toNat), []⟩, ?_, ?_⟩, ?_, ?_⟩
  · simp only [applyWriteActions, applyWriteAction, accepted, if_false]
  · dsimp only
    rw [kept]
    exact proofRangesOf_single keptBelow
  · simp only [calculateProofRanges, List.foldlM_cons, List.foldlM_nil, changedSectors,
      Option.bind_eq_bind, Option.bind_some, Option.pure_def, Option.map_some]
    rw [proofRangesOf_single lastBelow, UInt64.sub_add_cancel]
  · -- the two indices differ by `k - 1` sectors
    intro same
    have onCounts := congrArg UInt64.toNat same
    have within : k ≤ UInt64.ofNat roots.length := UInt64.not_lt.mp accepted
    rw [UInt64.toNat_sub_of_le _ _ within, UInt64.toNat_sub_of_le _ _ positive, count, one]
      at onCounts
    omega

theorem sampleTrim_misplaced :
    (2 : UInt64) ≤ 2 ∧ (2 : UInt64).toNat ≤ [0, 0].length ∧ [0, 0].length < 2 ^ 64 ∧
      (∃ st, applyWriteActions sampleHostIO samplePrices ⟨[0, 0], [], 0, [], []⟩
          [⟨.trim, 2, 0, []⟩] = some (.ok st) ∧
        proofRangesOf (UInt64.ofNat [0, 0].length) st.sectorsChanged =
          [(UInt64.ofNat [0, 0].length - 2, UInt64.ofNat [0, 0].length - 2 + 1)]) ∧
      calculateProofRanges [⟨.trim, 2, 0, []⟩] (UInt64.ofNat [0, 0].length) =
        some [(UInt64.ofNat [0, 0].length - 1, UInt64.ofNat [0, 0].length)] ∧
      UInt64.ofNat [0, 0].length - 2 ≠ UInt64.ofNat [0, 0].length - 1 :=
  ⟨by decide, by decide, by decide,
    calculateProofRanges_misplaces_multi_trim sampleHostIO samplePrices [0, 0] (by decide)
      (by decide) (by decide) 0 []⟩

/-! ### Two swaps of the same sectors -/

/-- The leaf indices of two swaps of sectors 0 and 1, sorted: each appears twice. -/
theorem sorted_indices_two_swaps (d d' : List UInt8) (numSectors : UInt64) :
    ((([⟨.swap, 0, 1, d⟩, ⟨.swap, 0, 1, d'⟩] : List WriteAction).foldl leafIndices
      ([], numSectors)).1.mergeSort (· ≤ ·)) = [0, 0, 1, 1] := by
  have indices : (([⟨.swap, 0, 1, d⟩, ⟨.swap, 0, 1, d'⟩] : List WriteAction).foldl leafIndices
      ([], numSectors)).1 = [0, 1, 0, 1] := rfl
  rw [indices, List.mergeSort_eq_insertionSort (· ≤ ·)]
  decide

/-- Swapping sectors 0 and 1 twice on a contract of at least two sectors: the host accepts it and
proves the two old roots, the renter's ranges are the host's, yet `indexMap` sends sector 1 to
position 2 of the sorted indices, past the two leaves, and `modifyLeaves` panics. -/
theorem modifyLeaves_repeated_swap_panics (merkleRoot : List UInt8 → H) (roots : List H)
    (two : 2 ≤ roots.length) (small : roots.length < 2 ^ 64) (d d' : List UInt8) :
    ∃ st, applyWriteActions io prices ⟨roots, [], 0, [], []⟩
        [⟨.swap, 0, 1, d⟩, ⟨.swap, 0, 1, d'⟩] = some (.ok st) ∧
      calculateProofRanges [⟨.swap, 0, 1, d⟩, ⟨.swap, 0, 1, d'⟩] (UInt64.ofNat roots.length) =
        some (proofRangesOf (UInt64.ofNat roots.length) st.sectorsChanged) ∧
      oldLeafHashes roots (proofRangesOf (UInt64.ofNat roots.length) st.sectorsChanged) =
        some [roots[0], roots[1]] ∧
      modifyLeaves merkleRoot [roots[0], roots[1]] [⟨.swap, 0, 1, d⟩, ⟨.swap, 0, 1, d'⟩]
        (UInt64.ofNat roots.length) = none := by
  have count : (UInt64.ofNat roots.length).toNat = roots.length := by
    rw [UInt64.toNat_ofNat_of_lt' small]
  have one : (1 : UInt64).toNat = 1 := rfl
  have zeroIn : ¬ (0 : UInt64) ≥ UInt64.ofNat roots.length := by
    rw [ge_iff_le, UInt64.le_iff_toNat_le, count, UInt64.toNat_zero]
    omega
  have oneIn : ¬ (1 : UInt64) ≥ UInt64.ofNat roots.length := by
    rw [ge_iff_le, UInt64.le_iff_toNat_le, count, one]
    omega
  -- both swaps are in range, and swapping twice restores the roots
  have swapped : swapAt (swapAt roots 0 1) 0 1 = roots := by
    obtain ⟨r₀, r₁, rest, rfl⟩ : ∃ r₀ r₁ rest, roots = r₀ :: r₁ :: rest := by
      match roots, two with
      | r₀ :: r₁ :: rest, _ => exact ⟨r₀, r₁, rest, rfl⟩
    rfl
  have once : (swapAt roots 0 1).length = roots.length := length_swapAt roots 0 1
  have accepted : applyWriteActions io prices ⟨roots, [], 0, [], []⟩
      [⟨.swap, 0, 1, d⟩, ⟨.swap, 0, 1, d'⟩] = some (.ok ⟨roots, [1, 0, 1, 0], 0, [], []⟩) := by
    simp only [applyWriteActions, applyWriteAction, UInt64.toNat_zero, one, zeroIn, oneIn,
      or_self, if_false, once, swapped]
  have ranges : proofRangesOf (UInt64.ofNat roots.length) [1, 0, 1, 0] = [(0, 1), (1, 2)] := by
    have zeroBelow : (0 : UInt64) < UInt64.ofNat roots.length := UInt64.not_le.mp zeroIn
    have oneBelow : (1 : UInt64) < UInt64.ofNat roots.length := UInt64.not_le.mp oneIn
    have distinct : ([1, 0, 1, 0] : List UInt64).dedup = [1, 0] := by decide
    have sorted : List.mergeSort [1, 0] (fun a b : UInt64 => decide (a ≤ b)) = [0, 1] := by
      rw [List.mergeSort_eq_insertionSort (· ≤ ·)]
      decide
    simp only [proofRangesOf, distinct, List.filter_cons, zeroBelow, oneBelow, decide_true,
      if_true, List.filter_nil, sorted, List.map_cons, List.map_nil]
    rfl
  refine ⟨_, accepted, calculateProofRanges_agrees io prices accepted (by simp) (by simp), ?_, ?_⟩
  · have first : 0 < roots.length := by omega
    have second : 1 < roots.length := by omega
    rw [ranges]
    simp [oldLeafHashes, List.getElem?_eq_getElem first, List.getElem?_eq_getElem second]
  · -- sector 1 first appears at position 2 of the sorted indices
    have secondAt : indexMapOf [0, 0, 1, 1] 1 = 2 := by decide
    have firstAt : indexMapOf [0, 0, 1, 1] 0 = 0 := by decide
    simp only [modifyLeaves, sorted_indices_two_swaps, List.foldlM_cons, modifyLeaf, firstAt,
      secondAt]
    simp

end Sia.Renter.Proto
