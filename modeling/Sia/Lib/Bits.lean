import Mathlib.Data.Nat.Bitwise

/-! Bit fields of natural numbers as fixed-width machine code reads them: the number of trailing
zeros among the low bits, a word with its low bits cleared by a mask, and the loops that scan
positions down from the top for the first one where a test holds. -/
namespace Bits

/-- `bits.TrailingZerosN` for `N = width`: the index of the lowest set bit of `x` among its low
`width` bits, or `width` when they are all clear. -/
def trailingZeros (width x : ℕ) : ℕ := ((List.range width).find? fun i => x.testBit i).getD width

/-- The low `m + 1` bits of `x` are a one over `m` zeros exactly when the bits below `m` are clear
and bit `m` is set. -/
theorem mod_two_pow_succ_eq_iff {x m : ℕ} :
    x % 2 ^ (m + 1) = 2 ^ m ↔ (∀ j < m, x.testBit j = false) ∧ x.testBit m = true := by
  constructor
  · intro low
    have bit : ∀ j, (decide (j < m + 1) && x.testBit j) = decide (m = j) := fun j => by
      rw [← Nat.testBit_mod_two_pow, low, Nat.testBit_two_pow]
    refine ⟨fun j below => ?_, ?_⟩
    · simpa [Nat.lt_succ_of_lt below, Nat.ne_of_gt below] using bit j
    · simpa using bit m
  · rintro ⟨clear, set⟩
    apply Nat.eq_of_testBit_eq
    intro j
    rw [Nat.testBit_mod_two_pow, Nat.testBit_two_pow]
    rcases Nat.lt_trichotomy j m with below | same | above
    · simp [clear j below, Nat.ne_of_gt below]
    · simp [same, set]
    · simp [Nat.not_lt.mpr above, Nat.ne_of_lt above]

theorem trailingZeros_le (width x : ℕ) : trailingZeros width x ≤ width := by
  unfold trailingZeros
  cases found : (List.range width).find? (fun i => x.testBit i) with
  | none => simp
  | some i =>
    obtain ⟨-, inside, -⟩ := List.find?_range_eq_some.mp found
    simpa using Nat.le_of_lt (List.mem_range.mp inside)

theorem trailingZeros_eq {width x m : ℕ} (inside : m < width) (low : x % 2 ^ (m + 1) = 2 ^ m) :
    trailingZeros width x = m := by
  obtain ⟨clear, set⟩ := mod_two_pow_succ_eq_iff.mp low
  have found : (List.range width).find? (fun i => x.testBit i) = some m :=
    List.find?_range_eq_some.mpr
      ⟨set, List.mem_range.mpr inside, fun j below => by simp [clear j below]⟩
  simp [trailingZeros, found]

theorem mod_two_pow_succ_of_trailingZeros {width x m : ℕ} (inside : m < width)
    (count : trailingZeros width x = m) : x % 2 ^ (m + 1) = 2 ^ m := by
  unfold trailingZeros at count
  cases found : (List.range width).find? (fun i => x.testBit i) with
  | none =>
    rw [found, Option.getD_none] at count
    omega
  | some i =>
    rw [found, Option.getD_some] at count
    subst count
    obtain ⟨set, -, clear⟩ := List.find?_range_eq_some.mp found
    exact mod_two_pow_succ_eq_iff.mpr ⟨fun j below => by simpa using clear j below, set⟩

/-- `x & ^(2^s - 1)` on a `width`-bit word: `x` with its low `s` bits cleared. -/
theorem and_complement_low {x width s : ℕ} (small : x < 2 ^ width) (le : s ≤ width) :
    x &&& (2 ^ width - 1 - (2 ^ s - 1)) = x / 2 ^ s * 2 ^ s := by
  have split : 2 ^ width = 2 ^ (width - s) * 2 ^ s := by
    rw [← Nat.pow_add, Nat.sub_add_cancel le]
  have mask : 2 ^ width - 1 - (2 ^ s - 1) = (2 ^ (width - s) - 1) * 2 ^ s := by
    rw [Nat.sub_mul, Nat.one_mul, ← split]
    have := Nat.one_le_two_pow (n := s)
    omega
  apply Nat.eq_of_testBit_eq
  intro i
  rw [Nat.testBit_and, mask, Nat.testBit_mul_two_pow, Nat.testBit_mul_two_pow,
    Nat.testBit_two_pow_sub_one, Nat.testBit_div_two_pow]
  by_cases high : s ≤ i
  · rw [Nat.sub_add_cancel high]
    by_cases inside : i < width
    · simp [high, show i - s < width - s by omega]
    · -- the word has no bits at or above its width
      have beyond : x.testBit i = false :=
        Nat.testBit_lt_two_pow (Nat.lt_of_lt_of_le small (Nat.pow_le_pow_right (by decide)
          (Nat.le_of_not_lt inside)))
      simp [beyond]
  · simp [high]

theorem trailingZeros_lt {width x i : ℕ} (inside : i < width) (set : x.testBit i = true) :
    trailingZeros width x < width := by
  obtain ⟨m, found⟩ : ∃ m, (List.range width).find? (fun j => x.testBit j) = some m :=
    Option.isSome_iff_exists.mp (List.find?_isSome.mpr ⟨i, List.mem_range.mpr inside, set⟩)
  obtain ⟨-, below, -⟩ := List.find?_range_eq_some.mp found
  simpa [trailingZeros, found] using below

theorem range_succ_reverse (n : ℕ) :
    (List.range (n + 1)).reverse = n :: (List.range n).reverse := by
  rw [List.range_succ, List.reverse_append, List.reverse_singleton, List.singleton_append]

/-- A scan down from position `n - 1` stops at the highest position where the test holds. -/
theorem find?_range_reverse {p : ℕ → Bool} {n m : ℕ} (inside : m < n) (found : p m = true)
    (above : ∀ i, m < i → i < n → p i = false) : (List.range n).reverse.find? p = some m := by
  induction n with
  | zero => omega
  | succ n ih =>
    rw [range_succ_reverse]
    by_cases top : m = n
    · subst top
      exact List.find?_cons_of_pos found
    · rw [List.find?_cons_of_neg (by simp [above n (by omega) (by omega)])]
      exact ih (by omega) fun i lower upper => above i lower (by omega)

/-- A scan down from position `n - 1` that goes on while the position is at least `m` passes
`n - m` positions. -/
theorem length_takeWhile_range_reverse {p : ℕ → Bool} {n m : ℕ} (le : m ≤ n)
    (spec : ∀ i < n, p i = decide (m ≤ i)) :
    ((List.range n).reverse.takeWhile p).length = n - m := by
  induction n with
  | zero => simp
  | succ n ih =>
    rw [range_succ_reverse]
    by_cases top : m = n + 1
    · rw [List.takeWhile_cons_of_neg (by simp [spec n (by omega), top])]
      simp [top]
    · rw [List.takeWhile_cons_of_pos (by simp [spec n (by omega)]; omega), List.length_cons,
        ih (by omega) fun i below => spec i (by omega)]
      omega

/-! ### Single bits of a 64-bit word -/

theorem testBit_toNat (w : UInt64) (k : ℕ) : w.toNat.testBit k = w.toBitVec.getLsbD k := rfl

theorem toNat_one_shiftLeft {s : UInt64} (small : s.toNat < 64) :
    (1 <<< s : UInt64).toNat = 2 ^ s.toNat := by
  rw [UInt64.toNat_shiftLeft, Nat.mod_eq_of_lt small, UInt64.toNat_one, Nat.one_shiftLeft]
  exact Nat.mod_eq_of_lt (Nat.pow_lt_pow_right (by decide) small)

/-- `w | 1<<s`: bit `s` set, the others kept. -/
theorem testBit_or_shiftLeft (w : UInt64) {s : UInt64} (small : s.toNat < 64) (k : ℕ) :
    (w ||| 1 <<< s).toNat.testBit k = (w.toNat.testBit k || decide (k = s.toNat)) := by
  rw [UInt64.toNat_or, Nat.testBit_or, toNat_one_shiftLeft small, Nat.testBit_two_pow]
  simp [eq_comm]

/-- `w & ^(1<<s)`: bit `s` cleared, the others kept. -/
theorem testBit_and_not_shiftLeft (w : UInt64) {s : UInt64} (small : s.toNat < 64) {k : ℕ}
    (inside : k < 64) :
    (w &&& ~~~(1 <<< s)).toNat.testBit k = (w.toNat.testBit k && decide (k ≠ s.toNat)) := by
  rw [testBit_toNat, testBit_toNat]
  simp only [UInt64.toBitVec_and, UInt64.toBitVec_not, BitVec.getLsbD_and, BitVec.getLsbD_not]
  rw [← testBit_toNat (1 <<< s), toNat_one_shiftLeft small, Nat.testBit_two_pow, ← testBit_toNat]
  simp [inside, eq_comm]

theorem testBit_not (w : UInt64) {k : ℕ} (inside : k < 64) :
    (~~~w).toNat.testBit k = !w.toNat.testBit k := by
  rw [testBit_toNat, testBit_toNat, UInt64.toBitVec_not, BitVec.getLsbD_not]
  simp [inside]

/-- A word with all 64 bits set is `^uint64(0)`. -/
theorem eq_allOnes {w : UInt64} (set : ∀ k < 64, w.toNat.testBit k = true) : w = ~~~0 := by
  apply UInt64.toBitVec_inj.mp
  apply BitVec.eq_of_getLsbD_eq
  intro k inside
  rw [← testBit_toNat, set k inside, UInt64.toBitVec_not, BitVec.getLsbD_not]
  simp [inside]

/-- `TrailingZeros` of the complement of a word that is not full: its lowest clear bit, with every
bit below it set. -/
theorem trailingZeros_not {w : UInt64} (notFull : w ≠ ~~~0) :
    trailingZeros 64 (~~~w).toNat < 64 ∧ w.toNat.testBit (trailingZeros 64 (~~~w).toNat) = false ∧
      ∀ k < trailingZeros 64 (~~~w).toNat, w.toNat.testBit k = true := by
  obtain ⟨i, inside, clear⟩ : ∃ i < 64, w.toNat.testBit i = false := by
    by_contra full
    exact notFull (eq_allOnes fun k inside => by
      by_contra clear
      exact full ⟨k, inside, by simpa using clear⟩)
  have first : trailingZeros 64 (~~~w).toNat < 64 :=
    trailingZeros_lt inside (by rw [testBit_not w inside, clear]; rfl)
  obtain ⟨below, atFirst⟩ :=
    mod_two_pow_succ_eq_iff.mp (mod_two_pow_succ_of_trailingZeros first rfl)
  refine ⟨first, ?_, fun k lower => ?_⟩
  · rw [testBit_not w first] at atFirst
    simpa using atFirst
  · have clearBelow := below k lower
    rw [testBit_not w (by omega)] at clearBelow
    simpa using clearBelow

end Bits
