import Mathlib.Data.Rat.Floor

/-! `types/target.go`: a target is a 256-bit number that a block's ID must not exceed, and its
inverse is the block's difficulty. Depths and thresholds add and scale difficulties on
`big.Rat`, whose `Inv` panics on zero (`none` here), and each result goes back to a target by
`RatToTarget`: rounded down, and clamped to `RootDepth` past 256 bits. -/
namespace Sia

/-- `types.Target`: its 32 bytes read as a big-endian number. -/
abbrev Target := Fin (2 ^ 256)

namespace Target

/-- `types.RootDepth`: every byte 255. -/
def rootDepth : Target := Fin.last _

/-- `IntToTarget` on a non-negative integer: `RootDepth` for one of more than 256 bits. -/
def intToTarget (i : ℕ) : Target := if h : i < 2 ^ 256 then ⟨i, h⟩ else rootDepth

/-- `RatToTarget`: a negative input panics in the DEBUG build; otherwise its integer part,
`Num / Denom`. -/
def ratToTarget (r : ℚ) : Option Target :=
  if r.num < 0 then none else some (intToTarget (r.num / r.den).toNat)

/-- `(*big.Rat).Inv`, which panics on zero. -/
def ratInv (r : ℚ) : Option ℚ := if r = 0 then none else some r⁻¹

/-- `Inverse`: the difficulty of a target. -/
def inverse (x : Target) : Option ℚ := ratInv (x.val : ℚ)

/-- `AddDifficulties`: the target whose difficulty is the sum of both, `1/(1/x + 1/y)`. -/
def addDifficulties (x y : Target) : Option Target := do
  let sumDifficulty := (← x.inverse) + (← y.inverse)
  ratToTarget (← ratInv sumDifficulty)

/-- `MulDifficulty`: the target whose difficulty is `y` times that of `x`, `1/(y · 1/x)`. -/
def mulDifficulty (x : Target) (y : ℚ) : Option Target := do
  let product := y * (← x.inverse)
  ratToTarget (← ratInv product)

/-- `Difficulty`: `RootDepth` over the target, and `RootDepth` itself for the zero target. -/
def difficulty (x : Target) : ℕ := if x.val = 0 then rootDepth.val else rootDepth.val / x.val

/-! ### Closed forms -/

theorem intToTarget_val {i : ℕ} (fits : i < 2 ^ 256) : (intToTarget i).val = i := by
  rw [intToTarget, dif_pos fits]

theorem ratToTarget_of_nonneg {r : ℚ} (nonneg : 0 ≤ r) :
    ratToTarget r = some (intToTarget ⌊r⌋₊) := by
  have numNonneg : ¬ r.num < 0 := not_lt.mpr (Rat.num_nonneg.mpr nonneg)
  rw [ratToTarget, if_neg numNonneg, ← Rat.floor_def', Int.floor_toNat]

theorem inverse_of_pos {x : Target} (positive : 0 < x.val) :
    x.inverse = some (x.val : ℚ)⁻¹ := by
  have nonzero : (x.val : ℚ) ≠ 0 := Nat.cast_ne_zero.mpr positive.ne'
  rw [inverse, ratInv, if_neg nonzero]

theorem intToTarget_val_self (x : Target) : intToTarget x.val = x := by
  rw [intToTarget, dif_pos x.isLt]

/-- `IntToTarget` keeps the order of the integers. -/
theorem intToTarget_mono {i j : ℕ} (le : i ≤ j) : intToTarget i ≤ intToTarget j := by
  unfold intToTarget
  split
  · next iFits =>
    split
    · exact Fin.mk_le_mk.mpr le
    · exact Fin.le_last _
  · next iPast =>
    have jPast : ¬ j < 2 ^ 256 := by omega
    simp only [jPast, dite_false, Fin.le_refl]

/-- Scaling a positive target's difficulty by a positive `y` gives the integer part of the target
over `y`. -/
theorem mulDifficulty_of_pos {x : Target} {y : ℚ} (xPositive : 0 < x.val) (yPositive : 0 < y) :
    x.mulDifficulty y = some (intToTarget ⌊(x.val : ℚ) / y⌋₊) := by
  have xCast : (0 : ℚ) < x.val := Nat.cast_pos.mpr xPositive
  have productPositive : 0 < y * (x.val : ℚ)⁻¹ := by positivity
  have quotient : (y * (x.val : ℚ)⁻¹)⁻¹ = (x.val : ℚ) / y := by
    rw [mul_inv, inv_inv, div_eq_mul_inv, mul_comm]
  simp only [mulDifficulty, inverse_of_pos xPositive, Option.bind_eq_bind, Option.bind_some,
    ratInv, if_neg productPositive.ne']
  rw [quotient]
  exact ratToTarget_of_nonneg (div_nonneg xCast.le yPositive.le)

/-- `MulDifficulty` of the zero target panics: its inverse divides by zero. -/
theorem mulDifficulty_of_zero {x : Target} (zero : x.val = 0) (y : ℚ) : x.mulDifficulty y = none := by
  simp [mulDifficulty, inverse, ratInv, zero]

/-- Adding difficulties to a positive target gives the integer part of `1/(1/x + 1/y)`. -/
theorem addDifficulties_of_pos {x y : Target} (xPositive : 0 < x.val) (yPositive : 0 < y.val) :
    x.addDifficulties y = some (intToTarget ⌊((x.val : ℚ)⁻¹ + (y.val : ℚ)⁻¹)⁻¹⌋₊) := by
  have sumPositive : 0 < (x.val : ℚ)⁻¹ + (y.val : ℚ)⁻¹ := by positivity
  simp only [addDifficulties, inverse_of_pos xPositive, inverse_of_pos yPositive,
    Option.bind_eq_bind, Option.bind_some, ratInv, if_neg sumPositive.ne']
  exact ratToTarget_of_nonneg (inv_nonneg.mpr sumPositive.le)

/-- `AddDifficulties` returns only for positive targets: `Inv` panics on a zero one. -/
theorem pos_of_addDifficulties {x y z : Target} (added : x.addDifficulties y = some z) :
    0 < x.val ∧ 0 < y.val := by
  constructor <;>
  · by_contra zero
    simp [addDifficulties, inverse, ratInv, Nat.eq_zero_of_not_pos zero] at added

/-- A sum of difficulties has a target below either one's: a block's child is strictly deeper
than the block. -/
theorem addDifficulties_lt {x y z : Target} (added : x.addDifficulties y = some z) : z < x := by
  obtain ⟨xPositive, yPositive⟩ := pos_of_addDifficulties added
  rw [addDifficulties_of_pos xPositive yPositive, Option.some_inj] at added
  -- `1/(1/x + 1/y) < x` once `1/y > 0`, so its integer part is below `x` and below `2^256`
  have below : ((x.val : ℚ)⁻¹ + (y.val : ℚ)⁻¹)⁻¹ < x.val := by
    have xInvPositive : 0 < (x.val : ℚ)⁻¹ := by positivity
    have yInvPositive : 0 < (y.val : ℚ)⁻¹ := by positivity
    calc ((x.val : ℚ)⁻¹ + (y.val : ℚ)⁻¹)⁻¹ < ((x.val : ℚ)⁻¹)⁻¹ :=
          inv_strictAnti₀ xInvPositive (lt_add_of_pos_right _ yInvPositive)
      _ = x.val := inv_inv _
  have floorBelow : ⌊((x.val : ℚ)⁻¹ + (y.val : ℚ)⁻¹)⁻¹⌋₊ < x.val :=
    (Nat.floor_lt (by positivity)).mpr below
  rw [← added, Fin.lt_def, intToTarget_val (floorBelow.trans x.isLt)]
  exact floorBelow

end Target

end Sia
