import Mathlib.Data.List.Nodup

/-! Go slice expressions on a list. `s[low:]`, `s[:high]` and `s[low:high]` panic unless
`low ≤ high ≤ cap(s)`; here the capacity is the length, so a result is `none` exactly when
the expression panics on a slice with no spare capacity. -/
namespace Slice

variable {α : Type*}

/-- `s[low:]`. -/
def sliceFrom (s : List α) (low : ℕ) : Option (List α) :=
  if low ≤ s.length then some (s.drop low) else none

/-- `s[:high]`. -/
def sliceTo (s : List α) (high : ℕ) : Option (List α) :=
  if high ≤ s.length then some (s.take high) else none

/-- `s[low:high]`. -/
def slice (s : List α) (low high : ℕ) : Option (List α) :=
  if low ≤ high ∧ high ≤ s.length then some ((s.drop low).take (high - low)) else none

theorem sliceFrom_eq_none_iff {s : List α} {low : ℕ} : sliceFrom s low = none ↔ s.length < low := by
  unfold sliceFrom
  split <;> simp_all

theorem slice_eq_none_iff {s : List α} {low high : ℕ} :
    slice s low high = none ↔ high < low ∨ s.length < high := by
  unfold slice
  split
  · rename_i bounds
    simp only [reduceCtorEq, false_iff]
    omega
  · rename_i bounds
    simp only [true_iff]
    omega

/-- `s[low:][:length]` takes the same bytes as `s[low:low+length]`. -/
theorem sliceFrom_bind_sliceTo (s : List α) (low length : ℕ) :
    (sliceFrom s low).bind (sliceTo · length) = slice s low (low + length) := by
  unfold sliceFrom sliceTo slice
  by_cases fits : low + length ≤ s.length
  · have start : low ≤ s.length := by omega
    simp only [start, if_true, Option.bind_some, List.length_drop, Nat.add_sub_cancel_left]
    rw [if_pos (by omega), if_pos ⟨by omega, fits⟩]
  · by_cases start : low ≤ s.length
    · simp only [start, if_true, Option.bind_some, List.length_drop]
      rw [if_neg (by omega), if_neg (by omega)]
    · simp only [start, if_false, Option.bind_none]
      rw [if_neg (by omega)]

/-- The middle part of a concatenation, sliced out at its bounds. -/
theorem slice_append_middle {pre mid post : List α} {low high : ℕ}
    (start : low = pre.length) (stop : high = pre.length + mid.length) :
    slice (pre ++ mid ++ post) low high = some mid := by
  subst start stop
  simp [slice]

theorem length_of_slice_eq_some {s r : List α} {low high : ℕ} (sliced : slice s low high = some r) :
    r.length = high - low := by
  unfold slice at sliced
  split at sliced
  · rename_i bounds
    cases sliced
    simp only [List.length_take, List.length_drop]
    omega
  · cases sliced

/-! ### Slices that share a backing array

A slice is a window into an array, and its capacity runs to the array's end. Re-slicing keeps
the array, and `append` writes into it in place while the capacity holds the new elements, so
that every other slice of the array sees the write. -/

/-- A slice header: `len` elements from `off` in its backing array. -/
structure Header where
  off : ℕ
  len : ℕ
  deriving DecidableEq, Repr

namespace Header

/-- The elements the slice shows. -/
def read (array : List α) (s : Header) : List α := (array.drop s.off).take s.len

/-- `cap(s)` -/
def cap (array : List α) (s : Header) : ℕ := array.length - s.off

/-- `s[low:high]`, in the same array; `none` is a panic. -/
def reslice (array : List α) (s : Header) (low high : ℕ) : Option Header :=
  if low ≤ high ∧ high ≤ s.cap array then some ⟨s.off + low, high - low⟩ else none

end Header

/-- `append(s, xs...)`: the backing array afterwards and the elements of the result. Within the
capacity the elements go into the array after the window; past it the result is a new array
and the old one is left as it was. -/
def append (array : List α) (s : Header) (xs : List α) : List α × List α :=
  if s.len + xs.length ≤ s.cap array then
    (array.take (s.off + s.len) ++ xs ++ array.drop (s.off + s.len + xs.length), s.read array ++ xs)
  else (array, s.read array ++ xs)

/-- `append` never changes the length of the array it writes into. -/
theorem length_append_fst (array : List α) (s : Header) (xs : List α) :
    (append array s xs).1.length = array.length := by
  unfold append Header.cap
  split
  · simp only [List.length_append, List.length_take, List.length_drop]
    omega
  · rfl

/-- `append(s[:i], s[i+1:]...)` on a slice `s` of the first `n` elements of its array, the
idiom for removing element `i`: the result is the elements without the `i`-th, and, since the
front part's capacity holds them, they are written over the array. `s` then shows the elements
without the `i`-th followed by its last element a second time. -/
theorem append_remove (array : List α) {n i : ℕ} (inside : n ≤ array.length) (index : i < n) :
    append array ⟨0, i⟩ (Header.read array ⟨i + 1, n - (i + 1)⟩) =
      (array.take i ++ (array.take n).drop (i + 1) ++ array.drop (n - 1),
        (array.take n).eraseIdx i) ∧
      Header.read (append array ⟨0, i⟩ (Header.read array ⟨i + 1, n - (i + 1)⟩)).1 ⟨0, n⟩ =
        (array.take n).eraseIdx i ++ (array.take n).drop (n - 1) := by
  have tail : Header.read array ⟨i + 1, n - (i + 1)⟩ = (array.take n).drop (i + 1) := by
    rw [Header.read, List.drop_take, List.take_drop]
  have fits : i + (Header.read array ⟨i + 1, n - (i + 1)⟩).length ≤
      Header.cap array ⟨0, i⟩ := by
    simp only [tail, Header.cap, List.length_drop, List.length_take]
    omega
  have result : Header.read array ⟨0, i⟩ ++ (array.take n).drop (i + 1) =
      (array.take n).eraseIdx i := by
    rw [Header.read, List.drop_zero, List.eraseIdx_eq_take_drop_succ, List.take_take,
      Nat.min_eq_left (Nat.le_of_lt index)]
  have written : array.drop (0 + i + (Header.read array ⟨i + 1, n - (i + 1)⟩).length) =
      array.drop (n - 1) := by
    rw [tail, List.length_drop, List.length_take]
    congr 1
    omega
  refine ⟨?_, ?_⟩
  · rw [append, if_pos fits, written, tail, result, Nat.zero_add]
  · rw [append, if_pos fits, written, tail, Nat.zero_add, Header.read, List.drop_zero]
    dsimp only
    -- the front part ends one element short of `n`; the last element follows it again
    have front : (array.take i ++ (array.take n).drop (i + 1)).length = n - 1 := by
      simp only [List.length_append, List.length_take, List.length_drop]
      omega
    rw [List.take_append, List.take_of_length_le (by rw [front]; omega), front, ← result,
      Header.read, List.drop_zero, List.drop_take, List.drop_take]

/-- Removing an element other than the last from a list without duplicates gives another list,
whatever is appended after it: the element at the removed index moves. -/
theorem eraseIdx_append_ne {l rest : List α} {i : ℕ} (nodup : l.Nodup) (index : i + 1 < l.length) :
    l.eraseIdx i ++ rest ≠ l := by
  intro same
  have erased : i < (l.eraseIdx i).length := by
    rw [List.length_eraseIdx_of_lt (Nat.lt_of_succ_lt index)]
    omega
  have atIndex := congrArg (fun l' => l'[i]?) same
  simp only [List.getElem?_append_left erased, List.getElem?_eraseIdx_of_ge (Nat.le_refl i),
    List.getElem?_eq_getElem index, List.getElem?_eq_getElem (Nat.lt_of_succ_lt index),
    Option.some_inj, nodup.getElem_inj_iff] at atIndex
  omega

end Slice
