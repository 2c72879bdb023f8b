import Sia.Types.Currency

/-! What the consensus code takes from `types/` and `crypto/` beyond plain data: the constants
of the build, the hash-derived identifiers, and the cryptographic checks. Hashing and signature
verification are parameters, so every result holds for any implementation of them; where a
result needs the identifiers to be collision-free it says so. -/
namespace Sia.Consensus

/-- The release constants and hash-level functions the consensus package calls. -/
structure Env (H : Type) where
  params : Params H
  /-- `types.OakHardforkBlock`, which tightens the transaction size limit. -/
  oakHardforkBlock : ℕ
  /-- `devAddr` of `consensusdb.go`. -/
  devAddr : H
  /-- The all-zero hash: `types.UnlockHash{}`, and the parent ID of the genesis block. -/
  zeroHash : H
  genesisTimestamp : UInt64
  blockID : Block H → H
  siacoinOutputID : Transaction H → ℕ → H
  fileContractID : Transaction H → ℕ → H
  siafundOutputID : Transaction H → ℕ → H
  storageProofOutputID : H → ProofStatus → ℕ → H
  siaClaimOutputID : H → H
  /-- `Block.MinerPayoutID`, as a function of the block's ID. -/
  minerPayoutID : H → ℕ → H
  foundationSubsidyID : H → H
  unlockHash : UnlockConditions → H
  /-- `encoding.Unmarshal` of a `FoundationUnlockHashUpdate` from the bytes after the specifier. -/
  decodeFoundationUpdate : List UInt8 → Option (FoundationUnlockHashUpdate H)
  /-- `Transaction.validSignatures` of `types/signatures.go`. -/
  validSignatures : Transaction H → ℕ → Bool
  /-- The segment index `storageProofSegment` draws: the hash of the trigger block's ID and the
  contract's ID, reduced modulo the number of leaves. -/
  segmentIndex : H → H → UInt64 → UInt64
  /-- `crypto.VerifySegment(segment, hashSet, numLeaves, index, root)`. -/
  verifySegment : List UInt8 → List H → UInt64 → UInt64 → H → Bool
  /-- Whether `validStorageProofs` still runs the rules from before block 100,000 at this
  height (`build.Release` decides the threshold). -/
  legacyStorageProofs : ℕ → Bool
  /-- Whether the rules from before block 21,000 still prove whole final segments. -/
  fullFinalSegments : ℕ → Bool

/-- `types.SpecifierFoundation`: the bytes of `"foundation"`, zero-padded to sixteen. -/
def specifierFoundation : List UInt8 := [102, 111, 117, 110, 100, 97, 116, 105, 111, 110, 0, 0, 0, 0, 0, 0]

variable {H : Type}

theorem genesisSiafundAllocation_ne_nil (p : Params H) : p.genesisSiafundAllocation ≠ [] := by
  intro empty
  have count := p.genesis_count
  rw [empty] at count
  simp [siafundCount] at count

/-- `gsa[len(gsa)-1].UnlockHash`, the genesis output whose owner `getSiafundOutput` rewrites. -/
def lastGenesisUnlockHash (p : Params H) : H :=
  (p.genesisSiafundAllocation.getLast (genesisSiafundAllocation_ne_nil p)).unlockHash

/-- The heights `FoundationHardforkHeight, + FoundationSubsidyFrequency, ...` below `current`,
the loop of `transferFoundationOutputs`. -/
def foundationSubsidyHeights (p : Params H) (current : ℕ) : List ℕ :=
  (List.range ((current - p.foundationHardforkHeight + p.foundationSubsidyFrequency - 1) /
    p.foundationSubsidyFrequency)).map fun k => p.foundationHardforkHeight + p.foundationSubsidyFrequency * k

/-- The loop runs `⌈(current - FoundationHardforkHeight) / FoundationSubsidyFrequency⌉` times. -/
theorem lt_ceilDiv_iff {d f k : ℕ} (positive : 0 < f) : k < (d + f - 1) / f ↔ f * k < d := by
  rw [Nat.lt_iff_add_one_le, Nat.le_div_iff_mul_le positive, Nat.add_mul, Nat.one_mul,
    Nat.mul_comm]
  omega

theorem mem_foundationSubsidyHeights (p : Params H) (current height : ℕ) :
    height ∈ foundationSubsidyHeights p current ↔
      p.foundationHardforkHeight ≤ height ∧ height < current ∧
        (height - p.foundationHardforkHeight) % p.foundationSubsidyFrequency = 0 := by
  have positive := p.frequency_pos
  simp only [foundationSubsidyHeights, List.mem_map, List.mem_range, lt_ceilDiv_iff positive]
  constructor
  · rintro ⟨k, below, rfl⟩
    refine ⟨by omega, by omega, ?_⟩
    simp
  · rintro ⟨above, below, divides⟩
    have multiple := Nat.mul_div_cancel' (Nat.dvd_of_mod_eq_zero divides)
    exact ⟨(height - p.foundationHardforkHeight) / p.foundationSubsidyFrequency, by omega,
      by omega⟩

end Sia.Consensus
