import Sia.Lib.ByteFile

/-! Lists cut into groups of a fixed size, and lists of records that each take a fixed number of
bytes. A cache that keeps a summary of each complete group of a list, and the elements after the
last complete group as they are, is determined by the list; the lemmas here say how the groups and
the remainder change when the list grows by one element, has one element replaced or loses its
last one. Records of a fixed width are found by multiplying their index by the width, and reading,
writing or cutting their encoding there acts on the list of records. -/
namespace Chunks

variable {α : Type}

/-- The complete groups of `k` consecutive elements, in order. -/
def groups (k : ℕ) (l : List α) : List (List α) :=
  (List.range (l.length / k)).map fun j => (l.drop (k * j)).take k

/-- The elements after the last complete group. -/
def rest (k : ℕ) (l : List α) : List α :=
  l.drop (k * (l.length / k))

@[simp] theorem length_groups (k : ℕ) (l : List α) : (groups k l).length = l.length / k := by
  simp [groups]

theorem getElem_groups (k : ℕ) (l : List α) {j : ℕ} (inRange : j < (groups k l).length) :
    (groups k l)[j] = (l.drop (k * j)).take k := by
  simp [groups]

theorem length_rest (k : ℕ) (l : List α) : (rest k l).length = l.length % k := by
  have split := Nat.mod_add_div l.length k
  simp only [rest, List.length_drop]
  omega

theorem length_rest_lt {k : ℕ} (pos : 0 < k) (l : List α) : (rest k l).length < k := by
  rw [length_rest]
  exact Nat.mod_lt _ pos

@[simp] theorem groups_nil (k : ℕ) : groups k ([] : List α) = [] := by
  simp [groups]

@[simp] theorem rest_nil (k : ℕ) : rest k ([] : List α) = [] := by
  simp [rest]

/-- The first `q` groups of `k`, joined, are the first `k * q` elements. -/
theorem flatten_chunks (k : ℕ) (l : List α) :
    ∀ q, ((List.range q).map fun j => (l.drop (k * j)).take k).flatten = l.take (k * q)
  | 0 => by simp
  | q + 1 => by
    rw [List.range_succ, List.map_append, List.flatten_append, flatten_chunks k l q, List.map_singleton,
      List.flatten_singleton, Nat.mul_succ, List.take_add]

/-- The groups and the remainder, joined, give back the list. -/
theorem flatten_groups_append_rest (k : ℕ) (l : List α) : (groups k l).flatten ++ rest k l = l := by
  rw [groups, flatten_chunks, rest, List.take_append_drop]

/-- Every group is complete. -/
theorem length_of_mem_groups {k : ℕ} {l g : List α} (mem : g ∈ groups k l) : g.length = k := by
  obtain ⟨j, inRange, rfl⟩ := List.mem_map.mp mem
  have next : k * (j + 1) ≤ k * (l.length / k) := Nat.mul_le_mul_left k (List.mem_range.mp inRange)
  have := Nat.mul_div_le l.length k
  rw [Nat.mul_succ] at next
  simp only [List.length_take, List.length_drop]
  omega

/-- A complete group ends before the remainder starts. -/
theorem group_end_le {k j : ℕ} {n : ℕ} (inRange : j < n / k) : k * j + k ≤ k * (n / k) := by
  have next : k * (j + 1) ≤ k * (n / k) := Nat.mul_le_mul_left k inRange
  rwa [Nat.mul_succ] at next

/-- A group that lies in `l` is the same group of any extension of `l`. -/
theorem chunk_append {k j : ℕ} {l : List α} (inside : k * j + k ≤ l.length) (m : List α) :
    ((l ++ m).drop (k * j)).take k = (l.drop (k * j)).take k := by
  rw [List.drop_append_of_le_length (by omega),
    List.take_append_of_le_length (by rw [List.length_drop]; omega)]

/-- A group that lies in the first `m` elements is the same group of them. -/
theorem chunk_take {k j m : ℕ} {l : List α} (inside : k * j + k ≤ m) :
    ((l.take m).drop (k * j)).take k = (l.drop (k * j)).take k := by
  rw [List.drop_take, List.take_take, Nat.min_eq_left (by omega)]

/-- Growing by one element completes a group exactly when the remainder was one short. -/
theorem length_append_singleton_div {k : ℕ} (pos : 0 < k) (l : List α) (a : α) :
    (l ++ [a]).length / k =
      if (rest k l).length + 1 = k then l.length / k + 1 else l.length / k := by
  have split : l.length + 1 = (l.length % k + 1) + k * (l.length / k) := by
    have := Nat.mod_add_div l.length k
    omega
  rw [List.length_append, List.length_singleton, split, Nat.add_mul_div_left _ _ pos, length_rest]
  split
  · next full => rw [full, Nat.div_self pos, Nat.add_comm]
  · next short =>
    have below : l.length % k + 1 < k := by
      have := Nat.mod_lt l.length pos
      omega
    rw [Nat.div_eq_of_lt below, Nat.zero_add]

/-- The groups of a list stay the groups of an extension that completes no new group. -/
theorem groups_append_of_div {k : ℕ} {l : List α} (m : List α)
    (same : (l ++ m).length / k = l.length / k) : groups k (l ++ m) = groups k l := by
  unfold groups
  rw [same]
  apply List.map_congr_left
  intro j mem
  have inside := group_end_le (List.mem_range.mp mem)
  exact chunk_append (by have := Nat.mul_div_le l.length k; omega) m

theorem groups_append_singleton {k : ℕ} (pos : 0 < k) (l : List α) (a : α) :
    groups k (l ++ [a]) =
      if (rest k l).length + 1 = k then groups k l ++ [rest k l ++ [a]] else groups k l := by
  have count := length_append_singleton_div pos l a
  split
  · next full =>
    rw [if_pos full] at count
    have restLength := length_rest k l
    have split := Nat.mod_add_div l.length k
    unfold groups
    rw [count, List.range_succ, List.map_append, List.map_singleton]
    congr 1
    · apply List.map_congr_left
      intro j mem
      have inside := group_end_le (List.mem_range.mp mem)
      exact chunk_append (by have := Nat.mul_div_le l.length k; omega) [a]
    · -- the new group is the old remainder with the new element
      rw [List.drop_append_of_le_length (Nat.mul_div_le l.length k)]
      rw [List.take_of_length_le (by rw [List.length_append, List.length_drop]; simp; omega)]
      rfl
  · next short =>
    rw [if_neg short] at count
    exact groups_append_of_div [a] count

theorem rest_append_singleton {k : ℕ} (pos : 0 < k) (l : List α) (a : α) :
    rest k (l ++ [a]) = if (rest k l).length + 1 = k then [] else rest k l ++ [a] := by
  have count := length_append_singleton_div pos l a
  have restLength := length_rest k l
  have split := Nat.mod_add_div l.length k
  by_cases full : (rest k l).length + 1 = k
  · rw [if_pos full] at count ⊢
    unfold rest
    rw [count, List.drop_eq_nil_iff, List.length_append, List.length_singleton, Nat.mul_succ]
    omega
  · rw [if_neg full] at count ⊢
    unfold rest
    rw [count, List.drop_append_of_le_length (Nat.mul_div_le l.length k)]

/-- Replacing an element changes only the group that holds it. -/
theorem groups_set (k : ℕ) (l : List α) (i : ℕ) (a : α) :
    groups k (l.set i a) = (groups k l).set (i / k) (((l.set i a).drop (k * (i / k))).take k) := by
  apply List.ext_getElem (by simp)
  intro j inSet _
  rw [List.getElem_set]
  split
  · next here => rw [getElem_groups, here]
  · next elsewhere =>
    rw [getElem_groups, getElem_groups, List.drop_set]
    split
    · rfl
    · next after =>
      -- the element lies past this group, where the cut does not reach
      rw [List.take_set, List.set_eq_of_length_le]
      have beyond : k * j + k ≤ i := by
        have notBefore : k * j ≤ i := by omega
        by_contra inGroup
        apply elsewhere
        have pos : 0 < k := Nat.pos_of_ne_zero (by rintro rfl; simp at inSet)
        exact (Nat.div_eq_of_lt_le (by rw [Nat.mul_comm]; exact notBefore)
          (by rw [Nat.mul_comm, Nat.mul_succ]; omega))
      rw [List.length_take]
      omega

theorem rest_set_of_le {k : ℕ} {l : List α} {i : ℕ} (after : k * (l.length / k) ≤ i) (a : α) :
    rest k (l.set i a) = (rest k l).set (i - k * (l.length / k)) a := by
  simp only [rest, List.length_set]
  rw [List.drop_set, if_neg (by omega)]

/-- A change after the last complete group leaves the groups as they are. -/
theorem groups_set_of_le {k : ℕ} {l : List α} {i : ℕ} (after : k * (l.length / k) ≤ i) (a : α) :
    groups k (l.set i a) = groups k l := by
  have beyond : l.length / k ≤ i / k := by
    rcases Nat.eq_zero_or_pos k with rfl | pos
    · simp
    · exact (Nat.le_div_iff_mul_le pos).mpr (by rw [Nat.mul_comm]; exact after)
  rw [groups_set, List.set_eq_of_length_le (by rw [length_groups]; exact beyond)]

theorem rest_set_of_lt {k : ℕ} {l : List α} {i : ℕ} (before : i < k * (l.length / k)) (a : α) :
    rest k (l.set i a) = rest k l := by
  simp only [rest, List.length_set]
  rw [List.drop_set, if_pos before]

/-- Dropping the last element of a partial remainder keeps every group. -/
theorem groups_dropLast_of_rest_ne_nil {k : ℕ} {l : List α} (unfinished : rest k l ≠ []) :
    groups k l.dropLast = groups k l := by
  have restLength := length_rest k l
  have nonempty : 0 < (rest k l).length := List.length_pos_of_ne_nil unfinished
  have split := Nat.mod_add_div l.length k
  have same : l.dropLast.length / k = l.length / k := by
    rw [List.length_dropLast]
    rcases Nat.eq_zero_or_pos k with zero | pos
    · simp [zero]
    apply Nat.div_eq_of_lt_le
    · rw [Nat.mul_comm]; omega
    · rw [Nat.succ_mul, Nat.mul_comm]
      have := Nat.mod_lt l.length pos
      omega
  unfold groups
  rw [same, List.dropLast_eq_take]
  apply List.map_congr_left
  intro j mem
  have inside := group_end_le (List.mem_range.mp mem)
  exact chunk_take (by omega)

theorem rest_dropLast_of_rest_ne_nil {k : ℕ} {l : List α} (unfinished : rest k l ≠ []) :
    rest k l.dropLast = (rest k l).dropLast := by
  have same := groups_dropLast_of_rest_ne_nil unfinished
  have count : l.dropLast.length / k = l.length / k := by
    rw [← length_groups k l.dropLast, same, length_groups]
  unfold rest
  rw [count, List.dropLast_eq_take, List.dropLast_eq_take, List.drop_take, List.length_drop]
  congr 1
  have := Nat.mul_div_le l.length k
  omega

/-- Dropping the last element of a list made of complete groups opens its last group. -/
theorem groups_dropLast_of_rest_eq_nil {k : ℕ} (pos : 0 < k) {l : List α} (full : rest k l = [])
    (nonempty : l ≠ []) : groups k l.dropLast = (groups k l).dropLast := by
  have restLength := length_rest k l
  rw [full, List.length_nil] at restLength
  have split := Nat.mod_add_div l.length k
  have lengthPos : 0 < l.length := List.length_pos_of_ne_nil nonempty
  have groupsPos : 0 < l.length / k := by
    rcases Nat.eq_zero_or_pos (l.length / k) with zero | positive
    · rw [zero, Nat.mul_zero] at split; omega
    · exact positive
  have whole : k * (l.length / k) = l.length := by omega
  have count : l.dropLast.length / k = l.length / k - 1 := by
    have lower : (l.length / k - 1) * k = l.length - k := by rw [Nat.sub_one_mul, Nat.mul_comm, whole]
    have upper : (l.length / k - 1 + 1) * k = l.length := by
      rw [Nat.sub_add_cancel groupsPos, Nat.mul_comm, whole]
    rw [List.length_dropLast]
    apply Nat.div_eq_of_lt_le
    · rw [lower]; omega
    · rw [upper]; omega
  have rangeDropLast : (List.range (l.length / k)).dropLast = List.range (l.length / k - 1) := by
    rw [List.dropLast_eq_take, List.length_range, List.take_range, Nat.min_eq_left (Nat.sub_le _ _)]
  unfold groups
  rw [count, ← List.map_dropLast, rangeDropLast, List.dropLast_eq_take]
  apply List.map_congr_left
  intro j mem
  have lower : k * (l.length / k - 1) = l.length - k := by rw [Nat.mul_sub_one, whole]
  have next : k * (j + 1) ≤ k * (l.length / k - 1) := Nat.mul_le_mul_left k (List.mem_range.mp mem)
  rw [Nat.mul_succ, lower] at next
  exact chunk_take (by omega)

/-! ### Records of a fixed width -/

section Records

variable {β : Type} {k : ℕ} {enc : α → List β}

theorem length_flatMap_of_width (width : ∀ a, (enc a).length = k) (l : List α) :
    (l.flatMap enc).length = k * l.length := by
  induction l with
  | nil => simp
  | cons a l ih => rw [List.flatMap_cons, List.length_append, ih, width, List.length_cons, Nat.mul_succ,
      Nat.add_comm]

theorem drop_flatMap_of_width (width : ∀ a, (enc a).length = k) (l : List α) (i : ℕ) :
    (l.flatMap enc).drop (k * i) = (l.drop i).flatMap enc := by
  induction l generalizing i with
  | nil => simp
  | cons a l ih =>
    cases i with
    | zero => simp
    | succ i =>
      have shift : k * (i + 1) = (enc a).length + k * i := by rw [width, Nat.mul_succ, Nat.add_comm]
      rw [List.flatMap_cons, shift, List.drop_append, List.drop_eq_nil_of_le (by omega), List.nil_append,
        Nat.add_sub_cancel_left, ih, List.drop_succ_cons]

theorem take_flatMap_of_width (width : ∀ a, (enc a).length = k) (l : List α) (i : ℕ) :
    (l.flatMap enc).take (k * i) = (l.take i).flatMap enc := by
  induction l generalizing i with
  | nil => simp
  | cons a l ih =>
    cases i with
    | zero => simp
    | succ i =>
      have shift : k * (i + 1) = (enc a).length + k * i := by rw [width, Nat.mul_succ, Nat.add_comm]
      rw [List.flatMap_cons, shift, List.take_append, List.take_of_length_le (by omega),
        Nat.add_sub_cancel_left, ih, List.take_succ_cons, List.flatMap_cons]

end Records

section Bytes

variable {k : ℕ} {enc : α → List UInt8}

/-- Reading `m` records from record `i` on. -/
theorem readAt_flatMap_of_width (width : ∀ a, (enc a).length = k) (l : List α) (i m : ℕ) :
    ByteFile.readAt (l.flatMap enc) (k * i) (k * m) = ((l.drop i).take m).flatMap enc := by
  rw [ByteFile.readAt, drop_flatMap_of_width width, take_flatMap_of_width width]

/-- Writing a record over record `i` replaces it. -/
theorem writeAt_flatMap_of_width (width : ∀ a, (enc a).length = k) {l : List α} {i : ℕ}
    (inRange : i < l.length) (a : α) :
    ByteFile.writeAt (l.flatMap enc) (k * i) (enc a) = (l.set i a).flatMap enc := by
  have inside : k * i ≤ (l.flatMap enc).length := by
    rw [length_flatMap_of_width width]
    exact Nat.mul_le_mul_left k (Nat.le_of_lt inRange)
  have after : k * i + (enc a).length = k * (i + 1) := by rw [width, Nat.mul_succ]
  rw [ByteFile.writeAt_of_le inside, after, take_flatMap_of_width width,
    drop_flatMap_of_width width, List.set_eq_take_append_cons_drop, if_pos inRange,
    List.flatMap_append, List.flatMap_cons, List.append_assoc]

/-- Writing a record at the end appends it. -/
theorem writeAt_flatMap_length (width : ∀ a, (enc a).length = k) (l : List α) (a : α) :
    ByteFile.writeAt (l.flatMap enc) (k * l.length) (enc a) = (l ++ [a]).flatMap enc := by
  rw [← length_flatMap_of_width width, ByteFile.writeAt_length, List.flatMap_append,
    List.flatMap_singleton]

/-- Cutting the encoding after `m` records keeps them. -/
theorem truncate_flatMap_of_width (width : ∀ a, (enc a).length = k) {l : List α} {m : ℕ}
    (inRange : m ≤ l.length) : ByteFile.truncate (l.flatMap enc) (k * m) = (l.take m).flatMap enc := by
  rw [ByteFile.truncate_of_le (by rw [length_flatMap_of_width width]; exact Nat.mul_le_mul_left k inRange),
    take_flatMap_of_width width]

end Bytes

end Chunks
