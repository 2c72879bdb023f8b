import Sia.Types.Target

/-! The difficulty adjustment of `modules/consensus`: `childTargetOak` of `difficulty.go`, which sets
the target of a block's children from the Oak hardfork on, the running totals it reads, which
`storeBlockTotals` keeps, and before the hardfork `setChildTarget` of `processedblock.go`, which
scales the target by a clamped adjustment every half window. `newChild` picks one of the two by
the parent's height.

The arithmetic is Go's: `int64` values wrap (`Int64`), block heights and timestamps are `uint64`
(`UInt64`), difficulties and hash rates are unbounded `big.Int`s, and `big.Rat`'s `SetFrac` and
`Inv` panic on zero (`none`). The clamps are what the results are about: past the hardfork a
child's target stays between the current target over `OakMaxRise` and over `OakMaxDrop`, and
before it the adjustment stays between `MaxTargetAdjustmentDown` and `MaxTargetAdjustmentUp`. -/
namespace Sia.Consensus

open Target

/-- The build constants the difficulty adjustment reads, with what every build profile gives
them: a positive half window, block shift and decay denominator, an adjustment range around one,
and a positive maximal drop below the maximal rise. -/
structure DifficultyParams where
  blockFrequency : UInt64
  genesisTimestamp : UInt64
  targetWindow : UInt64
  maxTargetAdjustmentUp : ℚ
  maxTargetAdjustmentDown : ℚ
  oakHardforkBlock : UInt64
  oakHardforkFixBlock : UInt64
  oakDecayNum : Int64
  oakDecayDenom : Int64
  oakMaxBlockShift : Int64
  oakMaxRise : ℚ
  oakMaxDrop : ℚ
  asicHardforkHeight : UInt64
  asicHardforkTotalTime : Int64
  asicHardforkTotalTarget : Target
  halfWindow_pos : 0 < targetWindow / 2
  adjustmentDown_pos : 0 < maxTargetAdjustmentDown
  adjustmentDown_le_one : maxTargetAdjustmentDown ≤ 1
  one_le_adjustmentUp : 1 ≤ maxTargetAdjustmentUp
  decayDenom_pos : 0 < oakDecayDenom.toInt
  maxBlockShift_pos : 0 < oakMaxBlockShift.toInt
  maxDrop_pos : 0 < oakMaxDrop
  maxDrop_le_maxRise : oakMaxDrop ≤ oakMaxRise

/-- `new(big.Rat).SetFrac(a, b)`, which panics on a zero denominator. -/
def setFrac (a b : ℕ) : Option ℚ := if b = 0 then none else some ((a : ℚ) / b)

/-- The release constants. -/
def standardDifficulty : DifficultyParams where
  blockFrequency := 600
  genesisTimestamp := 1433600000
  targetWindow := 1000
  maxTargetAdjustmentUp := 25 / 10
  maxTargetAdjustmentDown := 10 / 25
  oakHardforkBlock := 135000
  oakHardforkFixBlock := 139000
  oakDecayNum := 995
  oakDecayDenom := 1000
  oakMaxBlockShift := 3
  oakMaxRise := 1004 / 1000
  oakMaxDrop := 1000 / 1004
  asicHardforkHeight := 179000
  asicHardforkTotalTime := 120000
  asicHardforkTotalTarget := intToTarget (32 * 2 ^ 184)
  halfWindow_pos := by decide
  adjustmentDown_pos := by norm_num
  adjustmentDown_le_one := by norm_num
  one_le_adjustmentUp := by norm_num
  decayDenom_pos := by decide
  maxBlockShift_pos := by decide
  maxDrop_pos := by norm_num
  maxDrop_le_maxRise := by norm_num

namespace DifficultyParams

variable (p : DifficultyParams)

/-! ### The Oak adjustment -/

/-- The delta of `childTargetOak`: the total time expected at the parent's height less the time
seen. Before `OakHardforkFixBlock` the original code compares the absolute expected time with
the decayed total time; from it on, the expected time since genesis with the parent's
timestamp. -/
def delta (parentTotalTime : Int64) (parentHeight parentTimestamp : UInt64) : Int64 :=
  if parentHeight < p.oakHardforkFixBlock then
    (p.blockFrequency * parentHeight).toInt64 - parentTotalTime
  else
    (p.blockFrequency * parentHeight).toInt64 + p.genesisTimestamp.toInt64 - parentTimestamp.toInt64

/-- The target block time of `childTargetOak`: the block frequency shifted by the signed square
of the delta over `10e6`, clamped to between a third of the block frequency and three times it. -/
def targetBlockTime (delta : Int64) : Int64 :=
  let square := if delta < 0 then delta * delta * -1 else delta * delta
  let shift := square / 10000000
  let targetBlockTime := p.blockFrequency.toInt64 + shift
  let targetBlockTime :=
    if targetBlockTime < p.blockFrequency.toInt64 / p.oakMaxBlockShift then
      p.blockFrequency.toInt64 / p.oakMaxBlockShift
    else targetBlockTime
  if targetBlockTime > p.blockFrequency.toInt64 * p.oakMaxBlockShift then
    p.blockFrequency.toInt64 * p.oakMaxBlockShift
  else targetBlockTime

/-- The visible hash rate of `childTargetOak`: the difficulty of the total target over the total
time, the time raised to at least one second and the rate to at least one hash per second. The
divisor `Div64` takes is the raised time, never zero. -/
def visibleHashrate (parentTotalTime : Int64) (parentTotalTarget : Target) : ℕ :=
  let parentTotalTime := if parentTotalTime < 1 then 1 else parentTotalTime
  let visibleHashrate := parentTotalTarget.difficulty / parentTotalTime.toUInt64.toNat
  if visibleHashrate = 0 then visibleHashrate + 1 else visibleHashrate

/-- `childTargetOak`: the target at which the visible hash rate finds a block in the target block
time, kept within a `OakMaxRise` rise and a `OakMaxDrop` drop of the current target's difficulty,
except for the children of the block before the ASIC hardfork. -/
def childTargetOak (parentTotalTime : Int64) (parentTotalTarget currentTarget : Target)
    (parentHeight parentTimestamp : UInt64) : Option Target := do
  let targetBlockTime := p.targetBlockTime (p.delta parentTotalTime parentHeight parentTimestamp)
  let visibleHashrate := visibleHashrate parentTotalTime parentTotalTarget
  let targetBlockTime := if targetBlockTime = 0 then 1 else targetBlockTime
  let maxNewTarget ← currentTarget.mulDifficulty p.oakMaxRise
  let minNewTarget ← currentTarget.mulDifficulty p.oakMaxDrop
  let newTarget ← ratToTarget
    (← setFrac rootDepth.val (visibleHashrate * targetBlockTime.toUInt64.toNat))
  let notASIC := parentHeight + 1 ≠ p.asicHardforkHeight
  let newTarget := if newTarget < maxNewTarget ∧ notASIC then maxNewTarget else newTarget
  pure (if minNewTarget < newTarget ∧ notASIC then minNewTarget else newTarget)

/-- `storeBlockTotals` without the database: the parent's totals decayed by
`OakDecayNum / OakDecayDenom`, with the block's time and its parent's child target added. Just
before the Oak hardfork the total time is first reset to the block frequency times the height,
as the hardfork shipped; at the block before the ASIC hardfork both totals are reset. -/
def blockTotals (currentHeight : UInt64) (prevTotalTime : Int64)
    (parentTimestamp currentTimestamp : UInt64) (prevTotalTarget targetOfCurrentBlock : Target) :
    Option (Int64 × Target) := do
  let prevTotalTime :=
    if currentHeight = p.oakHardforkBlock - 1 then (p.blockFrequency * currentHeight).toInt64
    else prevTotalTime
  let newTotalTime := prevTotalTime * p.oakDecayNum / p.oakDecayDenom +
    (currentTimestamp.toInt64 - parentTimestamp.toInt64)
  let decayed ← prevTotalTarget.mulDifficulty ((p.oakDecayNum.toInt : ℚ) / p.oakDecayDenom.toInt)
  let newTotalTarget ← decayed.addDifficulties targetOfCurrentBlock
  if currentHeight + 1 = p.asicHardforkHeight then
    pure (p.asicHardforkTotalTime, p.asicHardforkTotalTarget)
  else pure (newTotalTime, newTotalTarget)

/-! ### The adjustment before the hardfork -/

/-- `clampTargetAdjustment`. -/
def clampTargetAdjustment (base : ℚ) : ℚ :=
  if p.maxTargetAdjustmentUp < base then p.maxTargetAdjustmentUp
  else if base < p.maxTargetAdjustmentDown then p.maxTargetAdjustmentDown
  else base

/-- `setChildTarget` for a block at `height` whose parent's child target is `parentChildTarget`:
between adjustments the target is kept; every `TargetWindow / 2` blocks it is scaled by the
clamped `targetAdjustmentBase` of the block, `base`, which only those heights read. -/
def setChildTarget (height : UInt64) (parentChildTarget : Target) (base : Option ℚ) :
    Option Target :=
  if height % (p.targetWindow / 2) ≠ 0 then some parentChildTarget
  else do
    let adjustment := p.clampTargetAdjustment (← base)
    ratToTarget ((parentChildTarget.val : ℚ) * adjustment)

/-- The child target `newChild` sets: `setChildTarget` below the Oak hardfork, `childTargetOak`
from it on, with the parent's totals `prevTotalTime` and `prevTotalTarget`. -/
def newChildTarget (parentHeight parentTimestamp : UInt64) (parentChildTarget : Target)
    (prevTotalTime : Int64) (prevTotalTarget : Target) (base : Option ℚ) : Option Target :=
  if parentHeight < p.oakHardforkBlock then p.setChildTarget (parentHeight + 1) parentChildTarget base
  else p.childTargetOak prevTotalTime prevTotalTarget parentChildTarget parentHeight parentTimestamp

/-! ### The Oak clamp -/

theorem visibleHashrate_pos (parentTotalTime : Int64) (parentTotalTarget : Target) :
    0 < visibleHashrate parentTotalTime parentTotalTarget := by
  -- a zero rate is raised to one
  have raised : ∀ n : ℕ, 0 < if n = 0 then n + 1 else n := by
    intro n
    split <;> omega
  exact raised _

theorem toNat_toUInt64_pos {x : Int64} (nonzero : x ≠ 0) : 0 < x.toUInt64.toNat := by
  have bitsNonzero : x.toUInt64 ≠ 0 := by
    intro zero
    apply nonzero
    have bits : x.toBitVec = 0 := by rw [← Int64.toBitVec_toUInt64, zero]; rfl
    exact Int64.toBitVec_inj.mp bits
  exact Nat.pos_of_ne_zero fun zero => bitsNonzero (UInt64.toNat_inj.mp zero)

/-- The target block time handed to `SetFrac` is never zero, so neither is the denominator. -/
theorem denominator_pos (hashrate : ℕ) (positive : 0 < hashrate) (time : Int64) :
    0 < hashrate * (if time = 0 then 1 else time).toUInt64.toNat := by
  have timePositive : 0 < (if time = 0 then 1 else time).toUInt64.toNat := by
    apply toNat_toUInt64_pos
    split
    · decide
    · assumption
  exact Nat.mul_pos positive timePositive

/-- The target the hash rate and block time call for, before the clamps: the root depth over
their product, rounded down. -/
theorem newTarget_eq {d : ℕ} (positive : 0 < d) :
    (setFrac rootDepth.val d).bind ratToTarget = some (intToTarget ⌊((rootDepth.val : ℚ) / d)⌋₊) := by
  rw [setFrac, if_neg (Nat.pos_iff_ne_zero.mp positive), Option.bind_some]
  exact ratToTarget_of_nonneg (by positivity)

/-- Raising to `lo` and then lowering to `hi` leaves a target between the two. -/
theorem clamp_between {lo hi x : Target} (ordered : lo ≤ hi) :
    lo ≤ (if hi < (if x < lo then lo else x) then hi else if x < lo then lo else x) ∧
      (if hi < (if x < lo then lo else x) then hi else if x < lo then lo else x) ≤ hi := by
  rw [Fin.le_def] at ordered
  split <;> split <;> simp only [Fin.le_def, Fin.lt_def] at * <;> omega

/-- `childTargetOak` of a positive current target: both clamps' bounds exist, and so does the
target the hash rate calls for. -/
theorem childTargetOak_of_pos (parentTotalTime : Int64) (parentTotalTarget : Target)
    {currentTarget : Target} (parentHeight parentTimestamp : UInt64) (positive : 0 < currentTarget.val) :
    ∃ newTarget, p.childTargetOak parentTotalTime parentTotalTarget currentTarget parentHeight
        parentTimestamp = some
      (let maxNewTarget := intToTarget ⌊(currentTarget.val : ℚ) / p.oakMaxRise⌋₊
        let minNewTarget := intToTarget ⌊(currentTarget.val : ℚ) / p.oakMaxDrop⌋₊
        let notASIC := parentHeight + 1 ≠ p.asicHardforkHeight
        let newTarget := if newTarget < maxNewTarget ∧ notASIC then maxNewTarget else newTarget
        if minNewTarget < newTarget ∧ notASIC then minNewTarget else newTarget) := by
  have risePositive : 0 < p.oakMaxRise := lt_of_lt_of_le p.maxDrop_pos p.maxDrop_le_maxRise
  have denominator := denominator_pos _ (visibleHashrate_pos parentTotalTime parentTotalTarget)
    (p.targetBlockTime (p.delta parentTotalTime parentHeight parentTimestamp))
  simp only [childTargetOak, mulDifficulty_of_pos positive risePositive,
    mulDifficulty_of_pos positive p.maxDrop_pos, Option.bind_eq_bind, Option.bind_some]
  rw [← Option.bind_assoc, newTarget_eq denominator, Option.bind_some]
  exact ⟨_, rfl⟩

/-- From the Oak hardfork on, a positive current target gives a child target, and it lies between
the current target over `OakMaxRise` and over `OakMaxDrop`: the difficulty moves by at most those
factors from one block to the next. Only the children of the block before the ASIC hardfork skip
the clamp. -/
theorem childTargetOak_clamped (parentTotalTime : Int64) (parentTotalTarget : Target)
    {currentTarget : Target} (parentHeight parentTimestamp : UInt64) (positive : 0 < currentTarget.val)
    (notASIC : parentHeight + 1 ≠ p.asicHardforkHeight) :
    ∃ t, p.childTargetOak parentTotalTime parentTotalTarget currentTarget parentHeight parentTimestamp =
        some t ∧
      intToTarget ⌊(currentTarget.val : ℚ) / p.oakMaxRise⌋₊ ≤ t ∧
      t ≤ intToTarget ⌊(currentTarget.val : ℚ) / p.oakMaxDrop⌋₊ := by
  -- the larger factor gives the smaller target
  have ordered : intToTarget ⌊(currentTarget.val : ℚ) / p.oakMaxRise⌋₊ ≤
      intToTarget ⌊(currentTarget.val : ℚ) / p.oakMaxDrop⌋₊ := by
    apply intToTarget_mono
    apply Nat.floor_le_floor
    exact div_le_div_of_nonneg_left (Nat.cast_nonneg _) p.maxDrop_pos p.maxDrop_le_maxRise
  obtain ⟨newTarget, computed⟩ :=
    p.childTargetOak_of_pos parentTotalTime parentTotalTarget parentHeight parentTimestamp positive
  refine ⟨_, computed, ?_⟩
  simp only [notASIC, ne_eq, not_false_eq_true, and_true]
  exact clamp_between ordered

theorem childTargetOak_clamped_standard :
    0 < (intToTarget (2 ^ 200)).val ∧ (200000 : UInt64) + 1 ≠ standardDifficulty.asicHardforkHeight ∧
      ∃ t, standardDifficulty.childTargetOak 120000 (intToTarget (2 ^ 189)) (intToTarget (2 ^ 200))
          200000 1553600000 = some t ∧
        intToTarget ⌊((intToTarget (2 ^ 200)).val : ℚ) / standardDifficulty.oakMaxRise⌋₊ ≤ t ∧
        t ≤ intToTarget ⌊((intToTarget (2 ^ 200)).val : ℚ) / standardDifficulty.oakMaxDrop⌋₊ :=
  ⟨by decide, by decide,
    childTargetOak_clamped standardDifficulty 120000 _ 200000 1553600000 (by decide) (by decide)⟩

/-- `childTargetOak` panics exactly on a zero current target, whose `Inverse` divides by zero;
the hash rate and the block time never make it panic. -/
theorem childTargetOak_eq_none_iff (parentTotalTime : Int64) (parentTotalTarget currentTarget : Target)
    (parentHeight parentTimestamp : UInt64) :
    p.childTargetOak parentTotalTime parentTotalTarget currentTarget parentHeight parentTimestamp = none ↔
      currentTarget.val = 0 := by
  constructor
  · intro panics
    by_contra nonzero
    obtain ⟨newTarget, computed⟩ := p.childTargetOak_of_pos parentTotalTime parentTotalTarget
      parentHeight parentTimestamp (Nat.pos_of_ne_zero nonzero)
    rw [computed] at panics
    exact Option.some_ne_none _ panics
  · intro zero
    simp [childTargetOak, mulDifficulty_of_zero zero]

/-! ### The clamp before the hardfork -/

theorem clampTargetAdjustment_between (base : ℚ) :
    p.maxTargetAdjustmentDown ≤ p.clampTargetAdjustment base ∧
      p.clampTargetAdjustment base ≤ p.maxTargetAdjustmentUp := by
  have ordered := p.adjustmentDown_le_one.trans p.one_le_adjustmentUp
  unfold clampTargetAdjustment
  split
  · exact ⟨ordered, le_refl _⟩
  · next notAbove =>
    split
    · exact ⟨le_refl _, ordered⟩
    · next notBelow => exact ⟨not_lt.mp notBelow, not_lt.mp notAbove⟩

/-- Before the Oak hardfork a child's target is its parent's, or, every half window, the parent's
scaled by the clamped adjustment: for any adjustment base, even one from timestamps that wrapped,
it lies between the parent's target times `MaxTargetAdjustmentDown` and times
`MaxTargetAdjustmentUp`, and it never panics. -/
theorem setChildTarget_clamped (height : UInt64) (parentChildTarget : Target) (base : ℚ) :
    ∃ t, p.setChildTarget height parentChildTarget (some base) = some t ∧
      intToTarget ⌊(parentChildTarget.val : ℚ) * p.maxTargetAdjustmentDown⌋₊ ≤ t ∧
      t ≤ intToTarget ⌊(parentChildTarget.val : ℚ) * p.maxTargetAdjustmentUp⌋₊ := by
  have parentNonneg : (0 : ℚ) ≤ parentChildTarget.val := Nat.cast_nonneg _
  unfold setChildTarget
  split
  · -- between adjustments the parent's target is kept, and it lies between the two scalings
    refine ⟨_, rfl, ?_, ?_⟩
    · conv_rhs => rw [← intToTarget_val_self parentChildTarget]
      apply intToTarget_mono
      apply Nat.floor_le_of_le
      exact mul_le_of_le_one_right parentNonneg p.adjustmentDown_le_one
    · conv_lhs => rw [← intToTarget_val_self parentChildTarget]
      apply intToTarget_mono
      apply Nat.le_floor
      exact le_mul_of_one_le_right parentNonneg p.one_le_adjustmentUp
  · obtain ⟨above, below⟩ := p.clampTargetAdjustment_between base
    have adjustmentNonneg := p.adjustmentDown_pos.le.trans above
    rw [Option.bind_eq_bind, Option.bind_some,
      ratToTarget_of_nonneg (mul_nonneg parentNonneg adjustmentNonneg)]
    refine ⟨_, rfl, ?_, ?_⟩
    · exact intToTarget_mono (Nat.floor_le_floor (mul_le_mul_of_nonneg_left above parentNonneg))
    · exact intToTarget_mono (Nat.floor_le_floor (mul_le_mul_of_nonneg_left below parentNonneg))

end DifficultyParams

end Sia.Consensus
