import Mathlib.Data.List.Basic
import Mathlib.Algebra.BigOperators.Group.List.Basic

/-! Data laid out in stripes. A list is cut into segments of `s` elements; a stripe of `d`
segments is cut into its `d` shards; and each of `w` pieces collects, stripe after stripe, its
shard of that stripe. Cutting the pieces back into segments gives the stripes' shards again, and a
shard of a stripe is a segment of the data. Pieces may be masked, the missing ones emptied; and
copying equal-length lists into a buffer at consecutive offsets concatenates them. -/
namespace Stripes

variable {α β : Type*}

/-- The `k`-th segment of `s` elements of `x`, as `x[k*s:][:s]` reads it; shorter, or empty, past
the end of `x`. -/
def segment (s k : ℕ) (x : List α) : List α := (x.drop (k * s)).take s

/-- The first `d` segments of `x`. -/
def chunks (s : ℕ) : ℕ → List α → List (List α)
  | 0, _ => []
  | d + 1, x => x.take s :: chunks s d (x.drop s)

/-- `n` lists, each `s` long. -/
def Uniform (n s : ℕ) (xs : List (List α)) : Prop := xs.length = n ∧ ∀ x ∈ xs, x.length = s

/-- `w` pieces, piece `i` the concatenation of the rows' `i`-th shards. -/
def columns (w : ℕ) (rows : List (List (List α))) : List (List α) :=
  (List.range w).map fun i => (rows.map fun row => row.getD i []).flatten

/-- The lists of `xs` that `present` keeps, the others emptied. -/
def mask (present : List Bool) (xs : List (List α)) : List (List α) :=
  List.zipWith (fun keep x => if keep then x else []) present xs

/-- Go's `copy(dst[off:], src)`: as much of `src` as fits, written over `dst` from `off` on. -/
def copyAt (dst : List α) (off : ℕ) (src : List α) : List α :=
  dst.take off ++ src.take (dst.length - off) ++ dst.drop (off + src.length)

/-! ### Segments and chunks -/

theorem segment_zero_append {s : ℕ} {x : List α} (len : x.length = s) (y : List α) :
    segment s 0 (x ++ y) = x := by
  simp [segment, ← len]

theorem segment_succ_append {s : ℕ} {x : List α} (len : x.length = s) (k : ℕ) (y : List α) :
    segment s (k + 1) (x ++ y) = segment s k y := by
  rw [segment, segment, Nat.succ_mul, Nat.add_comm, ← List.drop_drop, List.drop_left' len]

/-- The `k`-th segment of a concatenation of `s`-long lists is the `k`-th of them. -/
theorem segment_flatten {s : ℕ} :
    ∀ {xs : List (List α)}, (∀ x ∈ xs, x.length = s) → ∀ k, segment s k xs.flatten = xs.getD k []
  | [], _, k => by simp [segment]
  | x :: xs, len, 0 => by
    rw [List.flatten_cons, segment_zero_append (len x List.mem_cons_self)]
    rfl
  | x :: xs, len, k + 1 => by
    rw [List.flatten_cons, segment_succ_append (len x List.mem_cons_self),
      segment_flatten (fun y mem => len y (List.mem_cons_of_mem x mem))]
    rfl

/-- The first elements from segment `k` on, when they reach past it: all of segment `k`, then
the rest from segment `k + 1` on. -/
theorem take_drop_of_le {s n : ℕ} (le : s ≤ n) (k : ℕ) (x : List α) :
    (x.drop (k * s)).take n = segment s k x ++ (x.drop ((k + 1) * s)).take (n - s) := by
  obtain ⟨more, rfl⟩ := Nat.exists_eq_add_of_le le
  rw [List.take_add, List.drop_drop, Nat.succ_mul, Nat.add_sub_cancel_left]
  rfl

/-- The first elements from segment `k` on, when they stay inside it. -/
theorem take_drop_of_ge {s n : ℕ} (ge : n ≤ s) (k : ℕ) (x : List α) :
    (x.drop (k * s)).take n = (segment s k x).take n := by
  rw [segment, List.take_take, Nat.min_eq_left ge]

/-- Every segment below the last of `r` is whole. -/
theorem length_segment {s k r : ℕ} {x : List α} (below : k < r) (len : x.length = r * s) :
    (segment s k x).length = s := by
  have room : (k + 1) * s ≤ r * s := Nat.mul_le_mul_right s below
  rw [segment, List.length_take, List.length_drop, len, Nat.min_eq_left]
  rw [Nat.succ_mul] at room
  omega

theorem chunks_eq_map (s d : ℕ) (x : List α) :
    chunks s d x = (List.range d).map fun i => segment s i x := by
  induction d generalizing x with
  | zero => rfl
  | succ d ih =>
    rw [chunks, ih, List.range_succ_eq_map, List.map_cons, List.map_map]
    congr 1
    · simp [segment]
    · apply List.map_congr_left
      intro i _
      rw [Function.comp_apply, segment, segment, List.drop_drop, Nat.succ_mul, Nat.add_comm]

theorem getElem?_chunks {s d i : ℕ} (below : i < d) (x : List α) :
    (chunks s d x)[i]? = some (segment s i x) := by
  simp [chunks_eq_map, below]

theorem length_chunks (s d : ℕ) (x : List α) : (chunks s d x).length = d := by
  simp [chunks_eq_map]

theorem flatten_chunks {s : ℕ} : ∀ {d : ℕ} {x : List α}, x.length = d * s → (chunks s d x).flatten = x
  | 0, x, len => by
    rw [Nat.zero_mul, List.length_eq_zero_iff] at len
    rw [len]
    rfl
  | d + 1, x, len => by
    have rest : (x.drop s).length = d * s := by
      rw [List.length_drop, len, Nat.succ_mul, Nat.add_sub_cancel]
    rw [chunks, List.flatten_cons, flatten_chunks rest, List.take_append_drop]

theorem uniform_chunks {s d : ℕ} {x : List α} (len : x.length = d * s) :
    Uniform d s (chunks s d x) := by
  refine ⟨length_chunks s d x, fun y mem => ?_⟩
  rw [chunks_eq_map, List.mem_map] at mem
  obtain ⟨i, range, rfl⟩ := mem
  exact length_segment (List.mem_range.mp range) len

/-- Shard `i` of stripe `k`, for stripes of `d` segments, is segment `k * d + i` of the data. -/
theorem segment_segment {s d i : ℕ} (below : i < d) (k : ℕ) (x : List α) :
    segment s i (segment (d * s) k x) = segment s (k * d + i) x := by
  have room : (i + 1) * s ≤ d * s := Nat.mul_le_mul_right s below
  have inside : s ≤ d * s - i * s := by rw [Nat.succ_mul] at room; omega
  rw [segment, segment, segment, List.drop_take, List.take_take, Nat.min_eq_left inside,
    List.drop_drop, Nat.add_mul, Nat.mul_assoc, Nat.add_comm]

theorem Uniform.append {n m s : ℕ} {xs ys : List (List α)} (left : Uniform n s xs)
    (right : Uniform m s ys) : Uniform (n + m) s (xs ++ ys) := by
  refine ⟨by rw [List.length_append, left.1, right.1], fun x mem => ?_⟩
  rcases List.mem_append.mp mem with inLeft | inRight
  · exact left.2 x inLeft
  · exact right.2 x inRight

theorem length_flatten_of_uniform {n s : ℕ} {xs : List (List α)} (uniform : Uniform n s xs) :
    xs.flatten.length = n * s := by
  obtain ⟨rfl, lengths⟩ := uniform
  induction xs with
  | nil => simp
  | cons x xs ih =>
    rw [List.flatten_cons, List.length_append, lengths x List.mem_cons_self,
      ih fun y mem => lengths y (List.mem_cons_of_mem x mem), List.length_cons, Nat.succ_mul,
      Nat.add_comm]

theorem segment_of_length_le {s k : ℕ} {x : List α} (short : x.length ≤ k * s) :
    segment s k x = [] := by
  rw [segment, List.drop_eq_nil_of_le short, List.take_nil]

theorem length_segment_le (s k : ℕ) (x : List α) : (segment s k x).length ≤ s := by
  rw [segment, List.length_take]
  exact Nat.min_le_left _ _

/-! ### Pieces that collect the rows' shards -/

@[simp] theorem length_columns (w : ℕ) (rows : List (List (List α))) :
    (columns w rows).length = w := by
  simp [columns]

theorem columns_nil (w : ℕ) : columns w ([] : List (List (List α))) = List.replicate w [] := by
  simp [columns, List.map_const']

/-- Appending a row's shards to the pieces, one to each. -/
theorem zipWith_append_columns {w : ℕ} (rows : List (List (List α))) {row : List (List α)}
    (len : row.length = w) :
    List.zipWith (· ++ ·) (columns w rows) row = columns w (rows ++ [row]) := by
  apply List.ext_getElem
  · simp [len]
  · intro i below _
    have inside : i < row.length := by simp [len] at below; omega
    simp [columns, List.getElem?_eq_getElem inside]

/-- Cutting the pieces into segments gives back the rows, when every row has `w` shards of `s`
elements. -/
theorem map_segment_columns {w s : ℕ} {rows : List (List (List α))}
    (uniform : ∀ row ∈ rows, Uniform w s row) {k : ℕ} (below : k < rows.length) :
    (columns w rows).map (segment s k) = rows[k] := by
  have shards : (rows[k]).length = w := (uniform _ (List.getElem_mem below)).1
  apply List.ext_getElem
  · simp [shards]
  · intro i inside _
    have lengths : ∀ x ∈ rows.map (fun row => row.getD i []), x.length = s := by
      intro x mapped
      obtain ⟨row, mem, rfl⟩ := List.mem_map.mp mapped
      have row_uniform := uniform row mem
      have present : i < row.length := by have := row_uniform.1; simp at inside; omega
      rw [← List.getElem_eq_getD (h := present)]
      exact row_uniform.2 _ (List.getElem_mem present)
    have present : i < rows[k].length := by simp at inside; omega
    simp only [columns, List.getElem_map, List.getElem_range]
    rw [segment_flatten lengths, ← List.getElem_eq_getD (h := by simpa using below),
      List.getElem_map, ← List.getElem_eq_getD (h := present)]

/-- Every piece holds one shard of every row. -/
theorem length_of_mem_columns {w s : ℕ} {rows : List (List (List α))}
    (uniform : ∀ row ∈ rows, Uniform w s row) {x : List α} (mem : x ∈ columns w rows) :
    x.length = rows.length * s := by
  obtain ⟨i, range, rfl⟩ := List.mem_map.mp mem
  have inside : i < w := List.mem_range.mp range
  induction rows with
  | nil => simp
  | cons row rows ih =>
    have first := uniform row List.mem_cons_self
    have present : i < row.length := by have := first.1; omega
    rw [List.map_cons, List.flatten_cons, List.length_append,
      ih (fun r mem => uniform r (List.mem_cons_of_mem row mem)) (List.mem_map.mpr ⟨i, range, rfl⟩),
      ← List.getElem_eq_getD (h := present), first.2 _ (List.getElem_mem present), List.length_cons,
      Nat.succ_mul, Nat.add_comm]

/-! ### Masks -/

theorem length_mask {present : List Bool} {xs : List (List α)} (len : present.length = xs.length) :
    (mask present xs).length = xs.length := by
  simp [mask, len]

/-- A map that keeps the empty list commutes with a mask. -/
theorem map_mask {f g : List α → List β} (empty : f [] = []) :
    ∀ {present : List Bool} {xs : List (List α)}, (∀ x ∈ xs, f x = g x) →
      (mask present xs).map f = mask present (xs.map g)
  | [], _, _ => rfl
  | _ :: _, [], _ => rfl
  | keep :: present, x :: xs, agree => by
    have rest : (mask present xs).map f = mask present (xs.map g) :=
      map_mask empty fun y mem => agree y (List.mem_cons_of_mem x mem)
    cases keep <;> simp only [mask, List.zipWith_cons_cons, List.map_cons] at rest ⊢ <;>
      simp [rest, empty, agree x List.mem_cons_self]

theorem mem_mask {present : List Bool} {xs : List (List α)} {x : List α} (mem : x ∈ mask present xs) :
    x = [] ∨ x ∈ xs := by
  obtain ⟨i, below, rfl⟩ := List.getElem_of_mem mem
  simp only [mask, List.getElem_zipWith]
  split
  · exact .inr (List.getElem_mem _)
  · exact .inl rfl

/-- A mask that keeps one list keeps one of `xs`. -/
theorem exists_mem_mask : ∀ {present : List Bool} {xs : List (List α)},
    present.length = xs.length → 0 < present.count true → ∃ x ∈ xs, x ∈ mask present xs
  | [], _, _, kept => by simp at kept
  | _ :: _, [], len, _ => by simp at len
  | keep :: present, x :: xs, len, kept => by
    cases keep
    · have ⟨y, mem, masked⟩ : ∃ y ∈ xs, y ∈ mask present xs :=
        exists_mem_mask (by simpa using len) (by simpa using kept)
      exact ⟨y, List.mem_cons_of_mem x mem, by simp [mask] at masked ⊢; exact .inr masked⟩
    · exact ⟨x, List.mem_cons_self, by simp [mask]⟩

/-! ### Copying into a buffer -/

theorem copyAt_append {pre rest src : List α} (len : src.length ≤ rest.length) :
    copyAt (pre ++ rest) pre.length src = pre ++ src ++ rest.drop src.length := by
  rw [copyAt, List.take_left, List.length_append, Nat.add_sub_cancel_left, List.take_of_length_le len,
    List.drop_append, List.drop_of_length_le (by omega), Nat.add_sub_cancel_left, List.nil_append]

/-- Copying `s`-long lists into a zeroed buffer at consecutive offsets `i * s` concatenates them. -/
theorem foldl_copyAt_zipIdx {s : ℕ} {z : α} :
    ∀ {xs : List (List α)} {pre : List α} {k : ℕ}, (∀ x ∈ xs, x.length = s) → pre.length = k * s →
      (xs.zipIdx k).foldl (fun buf (x, i) => copyAt buf (i * s) x)
        (pre ++ List.replicate (xs.length * s) z) = pre ++ xs.flatten
  | [], pre, k, _, _ => by simp
  | x :: xs, pre, k, len, offset => by
    have first : x.length = s := len x List.mem_cons_self
    have copied : copyAt (pre ++ List.replicate ((xs.length + 1) * s) z) (k * s) x =
        (pre ++ x) ++ List.replicate (xs.length * s) z := by
      rw [← offset, copyAt_append (by simp [first, Nat.succ_mul]), List.drop_replicate, first,
        Nat.succ_mul, Nat.add_sub_cancel]
    rw [List.zipIdx_cons, List.foldl_cons]
    dsimp only
    rw [List.length_cons, copied,
      foldl_copyAt_zipIdx (fun y mem => len y (List.mem_cons_of_mem x mem))
        (by rw [List.length_append, offset, first, Nat.succ_mul]),
      List.flatten_cons, List.append_assoc]

end Stripes
