import Sia.Types.Transaction

/-! Monetary constants and the coin arithmetic of `types/`: the coinbase schedule, the total
supply `CalculateNumSiacoins`, and the siafund tax on contract payouts. Build-dependent
constants live in `Params`, whose fields also record the facts about the genesis allocation
that every release profile satisfies. -/
namespace Sia

/-- `types.SiacoinPrecision`: hastings per siacoin. -/
def siacoinPrecision : Currency := 10 ^ 24

/-- `types.SiafundCount`: the fixed number of siafunds. -/
def siafundCount : Currency := 10000

def initialCoinbase : ℕ := 300000

def blocksPerYear : ℕ := 365 * (24 * 6)

def foundationSubsidyPerBlock : Currency := siacoinPrecision * 30000

def initialFoundationSubsidy : Currency := siacoinPrecision * 30000 * blocksPerYear

/-- The constants that `build.Release` selects, with the facts the consensus code relies on:
the subsidy frequency divides heights, the coinbase floor is below the start, and the genesis
siafund allocation holds every siafund, each output non-empty and with a zero claim start. -/
structure Params (H : Type) where
  maturityDelay : ℕ
  foundationHardforkHeight : ℕ
  foundationSubsidyFrequency : ℕ
  minimumCoinbase : ℕ
  taxHardforkHeight : ℕ
  genesisSiafundAllocation : List (SiafundOutput H)
  initialFoundationUnlockHash : H
  initialFoundationFailsafeUnlockHash : H
  maturityDelay_pos : 0 < maturityDelay
  frequency_pos : 0 < foundationSubsidyFrequency
  minimumCoinbase_le : minimumCoinbase ≤ initialCoinbase
  genesis_count : (genesisSiafundAllocation.map (·.value)).sum = siafundCount
  genesis_claimStart : ∀ sfo ∈ genesisSiafundAllocation, sfo.claimStart = 0
  genesis_positive : ∀ sfo ∈ genesisSiafundAllocation, 0 < sfo.value

variable {H : Type}

/-- `types.CalculateCoinbase`: `max(InitialCoinbase - height, MinimumCoinbase)` siacoins. The
first test guards the `uint64` subtraction. -/
def calculateCoinbase (p : Params H) (height : ℕ) : Currency :=
  let base := initialCoinbase - height
  (if height > initialCoinbase ∨ base < p.minimumCoinbase then p.minimumCoinbase else base) *
    siacoinPrecision

/-- `types.CalculateNumSiacoins`: the closed form of every coinbase and Foundation subsidy up to
`height`. The genesis block carries no siacoin outputs, so `numGenesisSiacoins` is zero. -/
def calculateNumSiacoins (p : Params H) (height : ℕ) : Currency :=
  let deflationBlocks := initialCoinbase - p.minimumCoinbase
  let avgDeflationSiacoins := (calculateCoinbase p 0 + calculateCoinbase p height) / 2
  let mined :=
    if height ≤ deflationBlocks then avgDeflationSiacoins * (height + 1)
    else avgDeflationSiacoins * (deflationBlocks + 1) +
      calculateCoinbase p height * (height - deflationBlocks)
  let foundation :=
    if height ≥ p.foundationHardforkHeight then
      initialFoundationSubsidy + foundationSubsidyPerBlock * p.foundationSubsidyFrequency *
        ((height - p.foundationHardforkHeight) / p.foundationSubsidyFrequency)
    else 0
  mined + foundation

/-- `Currency.RoundDown`: the largest multiple of `y` not above `x`. -/
def roundDown (x y : Currency) : Currency := x - x % y

/-- `Currency.MulTax`: 3.9%, rounded down. -/
def mulTax (x : Currency) : Currency := x * 39 / 1000

/-- `Currency.MulFloat(0.039)`: the product with the exact binary value of the float `0.039`,
`5620492334958379 / 2^57`, truncated. -/
def mulFloat039 (x : Currency) : Currency := x * 5620492334958379 / 2 ^ 57

/-- `types.Tax`: the siafund pool's share of a payout, a multiple of `SiafundCount`. -/
def tax (p : Params H) (height : ℕ) (payout : Currency) : Currency :=
  if height < p.taxHardforkHeight then roundDown (mulFloat039 payout) siafundCount
  else roundDown (mulTax payout) siafundCount

/-- `types.PostTax`: what remains of a payout for the proof outputs. -/
def postTax (p : Params H) (height : ℕ) (payout : Currency) : Currency :=
  payout - tax p height payout

theorem roundDown_le (x y : Currency) : roundDown x y ≤ x := Nat.sub_le _ _

theorem roundDown_dvd (x y : Currency) : y ∣ roundDown x y := by
  unfold roundDown
  exact Nat.dvd_sub_mod x

theorem tax_le (p : Params H) (height : ℕ) (payout : Currency) : tax p height payout ≤ payout := by
  unfold tax
  split
  · exact (roundDown_le _ _).trans (Nat.div_le_of_le_mul (by omega))
  · exact (roundDown_le _ _).trans (Nat.div_le_of_le_mul (by omega))

theorem tax_dvd (p : Params H) (height : ℕ) (payout : Currency) :
    siafundCount ∣ tax p height payout := by
  unfold tax
  split <;> exact roundDown_dvd _ _

theorem postTax_add_tax (p : Params H) (height : ℕ) (payout : Currency) :
    postTax p height payout + tax p height payout = payout :=
  Nat.sub_add_cancel (tax_le p height payout)

end Sia
