import Sia.Consensus.Maintenance
import Sia.Consensus.ValidTransaction
import Mathlib.Algebra.BigOperators.Group.Finset.Basic
import Mathlib.Tactic.Positivity

/-! The coin supply. `CalculateNumSiacoins` is a closed form; the chain mints one coinbase per
block, the genesis block's included, and a Foundation subsidy at every subsidy height. The two
parts of the closed form are taken apart, each is shown to grow by exactly one height's issue
from one height to the next, and the sums follow by induction on the height. The averaging
halves before it multiplies, which is exact because `SiacoinPrecision` is even. -/
namespace Sia

variable {H : Type}

/-- The subsidy `applyFoundationSubsidy` pays at `height`, zero at a height that pays none. -/
def foundationSubsidy (p : Params H) (height : ℕ) : Currency :=
  if height < p.foundationHardforkHeight then 0
  else if (height - p.foundationHardforkHeight) % p.foundationSubsidyFrequency ≠ 0 then 0
  else if height = p.foundationHardforkHeight then initialFoundationSubsidy
  else foundationSubsidyPerBlock * p.foundationSubsidyFrequency

/-- The coinbase part of `CalculateNumSiacoins`, as the source computes it. -/
def minedSiacoins (p : Params H) (height : ℕ) : Currency :=
  let deflationBlocks := initialCoinbase - p.minimumCoinbase
  let avgDeflationSiacoins := (calculateCoinbase p 0 + calculateCoinbase p height) / 2
  if height ≤ deflationBlocks then avgDeflationSiacoins * (height + 1)
  else avgDeflationSiacoins * (deflationBlocks + 1) +
    calculateCoinbase p height * (height - deflationBlocks)

/-- The Foundation part of `CalculateNumSiacoins`, as the source computes it. -/
def foundationSiacoins (p : Params H) (height : ℕ) : Currency :=
  if height ≥ p.foundationHardforkHeight then
    initialFoundationSubsidy + foundationSubsidyPerBlock * p.foundationSubsidyFrequency *
      ((height - p.foundationHardforkHeight) / p.foundationSubsidyFrequency)
  else 0

theorem calculateNumSiacoins_eq (p : Params H) (height : ℕ) :
    calculateNumSiacoins p height = minedSiacoins p height + foundationSiacoins p height := rfl

/-! ### The coinbase schedule -/

theorem two_mul_half_siacoinPrecision : 2 * (siacoinPrecision / 2) = siacoinPrecision := by
  norm_num [siacoinPrecision]

theorem mul_siacoinPrecision (x : ℕ) : x * siacoinPrecision = 2 * x * (siacoinPrecision / 2) := by
  rw [Nat.mul_assoc, Nat.mul_left_comm, two_mul_half_siacoinPrecision]

/-- Halving a sum of two coinbases loses nothing. -/
theorem add_mul_siacoinPrecision_div_two (x y : ℕ) :
    (x * siacoinPrecision + y * siacoinPrecision) / 2 = (x + y) * (siacoinPrecision / 2) := by
  rw [← two_mul_half_siacoinPrecision,
    show x * (2 * (siacoinPrecision / 2)) + y * (2 * (siacoinPrecision / 2)) =
      2 * ((x + y) * (siacoinPrecision / 2)) by ring,
    Nat.mul_div_cancel_left _ two_pos, Nat.mul_div_cancel_left _ two_pos]

theorem calculateCoinbase_of_le (p : Params H) {height : ℕ}
    (deflating : height ≤ initialCoinbase - p.minimumCoinbase) :
    calculateCoinbase p height = (initialCoinbase - height) * siacoinPrecision := by
  have floor := p.minimumCoinbase_le
  simp only [calculateCoinbase]
  rw [if_neg (by omega)]

theorem calculateCoinbase_of_lt (p : Params H) {height : ℕ}
    (deflated : initialCoinbase - p.minimumCoinbase < height) :
    calculateCoinbase p height = p.minimumCoinbase * siacoinPrecision := by
  have floor := p.minimumCoinbase_le
  simp only [calculateCoinbase]
  rw [if_pos (by omega)]

/-- During deflation the average of the first and the current coinbase, times the number of
blocks so far. -/
theorem minedSiacoins_of_le (p : Params H) {height : ℕ}
    (deflating : height ≤ initialCoinbase - p.minimumCoinbase) :
    minedSiacoins p height =
      (initialCoinbase + (initialCoinbase - height)) * (siacoinPrecision / 2) * (height + 1) := by
  have first := calculateCoinbase_of_le p (Nat.zero_le (initialCoinbase - p.minimumCoinbase))
  rw [minedSiacoins, if_pos deflating, first, calculateCoinbase_of_le p deflating,
    Nat.sub_zero, add_mul_siacoinPrecision_div_two]

/-- After deflation, every block from the last deflating one on adds the minimum coinbase. -/
theorem minedSiacoins_of_ge (p : Params H) {height : ℕ}
    (deflated : initialCoinbase - p.minimumCoinbase ≤ height) :
    minedSiacoins p height =
      (initialCoinbase + p.minimumCoinbase) * (siacoinPrecision / 2) *
        (initialCoinbase - p.minimumCoinbase + 1) +
      p.minimumCoinbase * siacoinPrecision * (height - (initialCoinbase - p.minimumCoinbase)) := by
  have floor := p.minimumCoinbase_le
  have first := calculateCoinbase_of_le p (Nat.zero_le (initialCoinbase - p.minimumCoinbase))
  rcases deflated.eq_or_lt with last | past
  · -- the last deflating height: the closed form's first branch, with nothing after it
    subst last
    rw [minedSiacoins_of_le p le_rfl,
      show initialCoinbase - (initialCoinbase - p.minimumCoinbase) = p.minimumCoinbase by omega]
    simp
  · rw [minedSiacoins, if_neg (by omega), first, calculateCoinbase_of_lt p past, Nat.sub_zero,
      add_mul_siacoinPrecision_div_two]

/-- One more height adds its coinbase. -/
theorem minedSiacoins_succ (p : Params H) (height : ℕ) :
    minedSiacoins p (height + 1) = minedSiacoins p height + calculateCoinbase p (height + 1) := by
  have floor := p.minimumCoinbase_le
  by_cases deflating : height + 1 ≤ initialCoinbase - p.minimumCoinbase
  · have before : height ≤ initialCoinbase - p.minimumCoinbase := by omega
    rw [minedSiacoins_of_le p deflating, minedSiacoins_of_le p before,
      calculateCoinbase_of_le p deflating, mul_siacoinPrecision]
    -- write the start as the remaining coinbase plus the blocks so far
    obtain ⟨rest, start⟩ : ∃ rest, initialCoinbase = rest + height + 1 :=
      ⟨initialCoinbase - (height + 1), by omega⟩
    rw [show initialCoinbase - (height + 1) = rest by omega,
      show initialCoinbase - height = rest + 1 by omega, start]
    ring
  · have deflated : initialCoinbase - p.minimumCoinbase ≤ height := by omega
    have past : initialCoinbase - p.minimumCoinbase < height + 1 := by omega
    rw [minedSiacoins_of_ge p past.le, minedSiacoins_of_ge p deflated,
      calculateCoinbase_of_lt p past,
      show height + 1 - (initialCoinbase - p.minimumCoinbase) =
        height - (initialCoinbase - p.minimumCoinbase) + 1 by omega]
    ring

theorem minedSiacoins_eq_sum (p : Params H) (height : ℕ) :
    minedSiacoins p height = ∑ i ∈ Finset.range (height + 1), calculateCoinbase p i := by
  induction height with
  | zero =>
    rw [minedSiacoins_of_le p (Nat.zero_le _), Finset.sum_range_succ, Finset.sum_range_zero,
      calculateCoinbase_of_le p (Nat.zero_le _), Nat.sub_zero, mul_siacoinPrecision]
    ring
  | succ height ih => rw [Finset.sum_range_succ, ← ih, minedSiacoins_succ]

/-! ### The Foundation schedule -/

theorem foundationSubsidy_pos (p : Params H) {height : ℕ}
    (after : p.foundationHardforkHeight ≤ height)
    (due : (height - p.foundationHardforkHeight) % p.foundationSubsidyFrequency = 0) :
    0 < foundationSubsidy p height := by
  have frequent := p.frequency_pos
  unfold foundationSubsidy
  rw [if_neg (by omega), if_neg (not_not.mpr due)]
  split
  · unfold initialFoundationSubsidy siacoinPrecision blocksPerYear
    positivity
  · unfold foundationSubsidyPerBlock siacoinPrecision
    positivity

/-- One more height adds the subsidy due there: the first at the hardfork, then one each time
the count of frequencies since the hardfork goes up. -/
theorem foundationSiacoins_succ (p : Params H) (height : ℕ) :
    foundationSiacoins p (height + 1) = foundationSiacoins p height +
      foundationSubsidy p (height + 1) := by
  unfold foundationSiacoins foundationSubsidy
  rcases Nat.lt_or_ge (height + 1) p.foundationHardforkHeight with before | after
  · rw [if_neg (by omega), if_neg (by omega), if_pos before]
  rcases after.eq_or_lt with hardfork | later
  · rw [if_pos after, if_neg (by omega), if_neg (by omega), ← hardfork, Nat.sub_self,
      Nat.zero_div, Nat.zero_mod, if_neg (not_not.mpr rfl), if_pos rfl]
    ring
  · have past : ¬height + 1 = p.foundationHardforkHeight := by omega
    rw [if_pos after, if_pos (by omega), if_neg (by omega), if_neg past,
      show height + 1 - p.foundationHardforkHeight =
        height - p.foundationHardforkHeight + 1 by omega, Nat.succ_div]
    -- the count goes up exactly at the heights whose distance the frequency divides
    by_cases divides : p.foundationSubsidyFrequency ∣ height - p.foundationHardforkHeight + 1
    · rw [if_pos divides, if_neg (not_not.mpr (Nat.mod_eq_zero_of_dvd divides))]
      ring
    · rw [if_neg divides, if_pos (fun zero => divides (Nat.dvd_of_mod_eq_zero zero))]
      ring

theorem foundationSiacoins_eq_sum (p : Params H) (height : ℕ) :
    foundationSiacoins p height = ∑ i ∈ Finset.range (height + 1), foundationSubsidy p i := by
  induction height with
  | zero =>
    rw [Finset.sum_range_one]
    unfold foundationSiacoins foundationSubsidy
    by_cases start : p.foundationHardforkHeight = 0
    · simp [start]
    · rw [if_neg (by omega), if_pos (by omega)]
  | succ height ih => rw [Finset.sum_range_succ, ← ih, foundationSiacoins_succ]

end Sia

namespace Sia.Consensus

variable {H : Type}

theorem checkMinerPayouts_sum {p : Params H} {b : Block H} {height : ℕ}
    (valid : checkMinerPayouts p b height = true) :
    (b.minerPayouts.map (·.value)).sum =
      calculateCoinbase p height + (b.transactions.map (·.minerFees.sum)).sum := by
  simp only [checkMinerPayouts, Bool.and_eq_true, decide_eq_true_eq] at valid
  exact valid.2.symm

variable [LinearOrder H] (env : Env H)

/-- `applyFoundationSubsidy` records one delayed output of `foundationSubsidy` to the primary
address, and nothing where that is zero. -/
theorem applyFoundationSubsidy_eq (s : ConsensusDB H × ProcessedBlock H) :
    applyFoundationSubsidy env s =
      if foundationSubsidy env.params s.2.height = 0 then some s
      else recordDelayedSiacoinOutputDiff s
        ⟨.apply, env.foundationSubsidyID (env.blockID s.2.block),
          ⟨foundationSubsidy env.params s.2.height, s.1.foundationUnlockHashes.1⟩,
          s.2.height + env.params.maturityDelay⟩ := by
  by_cases before : s.2.height < env.params.foundationHardforkHeight
  · simp [applyFoundationSubsidy, foundationSubsidy, before]
  by_cases off : (s.2.height - env.params.foundationHardforkHeight) %
      env.params.foundationSubsidyFrequency ≠ 0
  · simp [applyFoundationSubsidy, foundationSubsidy, before, off]
  have paid := foundationSubsidy_pos env.params (not_lt.mp before) (not_not.mp off)
  rw [if_neg paid.ne']
  simp only [applyFoundationSubsidy, if_neg before, if_neg off]
  unfold foundationSubsidy
  rw [if_neg before, if_neg off]

/-- The closed form counts every coinbase from the genesis block's on and every subsidy due up to
the height; the subsidies are what `applyFoundationSubsidy` records, and a valid block's payouts
are its coinbase plus the fees its transactions give up. -/
theorem calculateNumSiacoins_eq_issued :
    (∀ height, calculateNumSiacoins env.params height =
      ∑ i ∈ Finset.range (height + 1),
        (calculateCoinbase env.params i + foundationSubsidy env.params i)) ∧
    (∀ s : ConsensusDB H × ProcessedBlock H, applyFoundationSubsidy env s =
      if foundationSubsidy env.params s.2.height = 0 then some s
      else recordDelayedSiacoinOutputDiff s
        ⟨.apply, env.foundationSubsidyID (env.blockID s.2.block),
          ⟨foundationSubsidy env.params s.2.height, s.1.foundationUnlockHashes.1⟩,
          s.2.height + env.params.maturityDelay⟩) ∧
    (∀ (b : Block H) (height : ℕ), checkMinerPayouts env.params b height = true →
      (b.minerPayouts.map (·.value)).sum =
        calculateCoinbase env.params height + (b.transactions.map (·.minerFees.sum)).sum) := by
  refine ⟨fun height => ?_, applyFoundationSubsidy_eq env, fun _ _ => checkMinerPayouts_sum⟩
  rw [calculateNumSiacoins_eq, Finset.sum_add_distrib, minedSiacoins_eq_sum,
    foundationSiacoins_eq_sum]

end Sia.Consensus
