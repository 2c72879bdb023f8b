import Sia.Consensus.Chain

/-! Running blocks. `generateBlock` is the step `Step.generate` as a function: a new child of the
current block passes the block checks and `generateAndApplyDiff`, as `applyUntilBlock` of
`fork.go` generates a block whose diffs were never generated. A run of it from
`createConsensusDB` only reaches reachable states, so evaluating a run on concrete blocks names
a reachable state.

Under the constants of the testing release, where `applyUntilBlock` checks consistency after
every block, such a run ends in a block that updates the Foundation addresses at the height the
first subsidy matures. Generating the block transfers the subsidies before maintenance matures
that one; replaying it transfers them after every diff, so the replay moves the matured subsidy
to the new primary where generation had left it at the old one. -/
namespace Sia.Consensus

variable {H : Type} [LinearOrder H] [HashBytes H] (env : Env H)

/-- A new child `b` of the current block, through the checks of `Step.generate` and
`generateAndApplyDiff`; a block that errors or panics is no block. -/
def generateBlock (cs : ConsensusSet H) (b : Block H) :
    Option (ConsensusSet H × ProcessedBlock H) :=
  if env.blockID b ∈ cs.blockMap then none
  else
    match cs.blockMap.lookup b.parentID with
    | none => none
    | some parent =>
      if checkMinerPayouts env.params b (parent.height + 1) = false then none
      else
        match generateAndApplyDiff env cs.db (newChild parent b) with
        | some (.ok (db, pb)) => some (⟨db, cs.blockMap.insert (env.blockID b) pb⟩, pb)
        | _ => none

/-- The blocks one after another, each a new child of the block before it. -/
def generateBlocks (cs : ConsensusSet H) (bs : List (Block H)) : Option (ConsensusSet H) :=
  bs.foldlM (fun cs b => (generateBlock env cs b).map (·.1)) cs

variable {env}

theorem generateBlock_eq_some {cs cs' : ConsensusSet H} {b : Block H} {pb : ProcessedBlock H}
    (generated : generateBlock env cs b = some (cs', pb)) :
    ∃ parent db, env.blockID b ∉ cs.blockMap ∧ cs.blockMap.lookup b.parentID = some parent ∧
      checkMinerPayouts env.params b (parent.height + 1) = true ∧
      generateAndApplyDiff env cs.db (newChild parent b) = some (.ok (db, pb)) ∧
      cs' = ⟨db, cs.blockMap.insert (env.blockID b) pb⟩ := by
  unfold generateBlock at generated
  split_ifs at generated with known
  split at generated
  · cases generated
  next parent found =>
    split_ifs at generated with unpaid
    split at generated
    next db pb' ran =>
      cases generated
      exact ⟨parent, db, known, found, Bool.not_eq_false _ ▸ unpaid, ran, rfl⟩
    · cases generated

theorem generateBlock_step {cs cs' : ConsensusSet H} {b : Block H} {pb : ProcessedBlock H}
    (generated : generateBlock env cs b = some (cs', pb)) : Step env cs cs' := by
  obtain ⟨parent, db, fresh, found, paid, ran, rfl⟩ := generateBlock_eq_some generated
  exact .generate fresh found paid ran

/-- A run of generated blocks stays among the reachable states; by induction on the blocks,
one `Step.generate` each. -/
theorem reachable_generateBlocks {cs cs' : ConsensusSet H} {bs : List (Block H)}
    (reachable : Reachable env cs) (ran : generateBlocks env cs bs = some cs') :
    Reachable env cs' := by
  induction bs generalizing cs with
  | nil =>
    cases ran
    exact reachable
  | cons b bs ih =>
    simp only [generateBlocks, List.foldlM_cons, Option.bind_eq_bind, Option.bind_eq_some_iff,
      Option.map_eq_some_iff] at ran
    obtain ⟨next, ⟨⟨next', pb⟩, generated, rfl⟩, rest⟩ := ran
    exact ih (reachable.step (generateBlock_step generated)) rest

/-! ### The testing release -/

/-- The constants of the testing release. The genesis siafunds go to three addresses as
there; the hashes of `types/constants.go` are small numbers. -/
def testingParams : Params ℕ :=
  { maturityDelay := 3, foundationHardforkHeight := 50, foundationSubsidyFrequency := 5,
    minimumCoinbase := 299990, taxHardforkHeight := 10,
    genesisSiafundAllocation := [⟨2000, 5, 0⟩, ⟨7000, 6, 0⟩, ⟨1000, 1, 0⟩],
    initialFoundationUnlockHash := 2, initialFoundationFailsafeUnlockHash := 3,
    maturityDelay_pos := by decide, frequency_pos := by decide,
    minimumCoinbase_le := by decide, genesis_count := by decide,
    genesis_claimStart := by decide, genesis_positive := by decide }

/-- The testing release over natural-number hashes. A block's ID is its timestamp; every unlock
condition hashes to the initial primary, and an update's first two bytes are its addresses. -/
def testingEnv : Env ℕ :=
  { params := testingParams, oakHardforkBlock := 20, devAddr := 4, zeroHash := 0,
    genesisTimestamp := 1000, blockID := fun b => b.timestamp.toNat,
    siacoinOutputID := fun _ i => i + 10, fileContractID := fun _ i => i + 20,
    siafundOutputID := fun _ i => i + 30, storageProofOutputID := fun _ _ i => i + 40,
    siaClaimOutputID := fun id => id + 50, minerPayoutID := fun id i => id * 10 + i + 100000,
    foundationSubsidyID := fun id => id + 70, unlockHash := fun _ => 2,
    decodeFoundationUpdate := fun bytes =>
      match bytes with
      | primary :: failsafe :: _ => some ⟨primary.toNat, failsafe.toNat⟩
      | _ => none,
    validSignatures := fun _ _ => true,
    segmentIndex := fun _ _ _ => 0, verifySegment := fun _ _ _ _ _ => true,
    legacyStorageProofs := fun _ => false, fullFinalSegments := fun _ => false }

/-- The block at `height` of a chain of empty blocks, paying its coinbase to the primary. -/
def testingBlock (height : ℕ) : Block ℕ :=
  ⟨999 + height, Vector.replicate 8 0, (1000 + height).toUInt64,
    [⟨calculateCoinbase testingParams height, 2⟩], []⟩

/-- Heights 1 to 52: the first subsidy is paid at 50 and matures at 53. -/
def testingBlocks : List (Block ℕ) := (List.range 52).map fun h => testingBlock (h + 1)

/-- Moves the payout of block 1 to the primary again, signed by it, and updates the Foundation
addresses to 7 and 8. -/
def foundationUpdate : Transaction ℕ :=
  { siacoinInputs := [⟨110010, ⟨0, [], 0⟩⟩],
    siacoinOutputs := [⟨calculateCoinbase testingParams 1, 2⟩],
    fileContracts := [], fileContractRevisions := [], storageProofs := [], siafundInputs := [],
    siafundOutputs := [], minerFees := [], arbitraryData := [specifierFoundation ++ [7, 8]],
    transactionSignatures := [⟨110010, 0, 0, ⟨true, [], [], [], [], [], [], [], [], [], []⟩, []⟩] }

/-- Block 53, carrying the update. -/
def updateBlock : Block ℕ :=
  ⟨1052, Vector.replicate 8 0, 1053, [⟨calculateCoinbase testingParams 53, 2⟩], [foundationUpdate]⟩

set_option maxRecDepth 100000 in
theorem replay_moves_matured_subsidy :
    ∃ (cs : ConsensusSet ℕ) (parent pb : ProcessedBlock ℕ) (db reverted replayed : ConsensusDB ℕ),
      Reachable testingEnv cs ∧ cs.blockMap.lookup updateBlock.parentID = some parent ∧
      generateAndApplyDiff testingEnv cs.db (newChild parent updateBlock) = some (.ok (db, pb)) ∧
      Reachable testingEnv ⟨db, cs.blockMap.insert (testingEnv.blockID updateBlock) pb⟩ ∧
      commitDiffSet testingEnv db pb (cs.blockMap.insert (testingEnv.blockID updateBlock) pb)
        .revert = some reverted ∧
      commitDiffSet testingEnv reverted pb (cs.blockMap.insert (testingEnv.blockID updateBlock) pb)
        .apply = some replayed ∧
      (db.siacoinOutputs.lookup
        (testingEnv.foundationSubsidyID (testingEnv.blockID (testingBlock 50)))).map
          (·.unlockHash) = some 2 ∧
      (replayed.siacoinOutputs.lookup
        (testingEnv.foundationSubsidyID (testingEnv.blockID (testingBlock 50)))).map
          (·.unlockHash) = some 7 := by
  -- The kernel runs the whole scenario; only the scan of the maturing bucket, which holds the
  -- payout of block 50 and the subsidy, needs the structural sort.
  have ran : ((createConsensusDB testingEnv).bind fun genesis =>
      (generateBlocks testingEnv genesis testingBlocks).bind fun cs =>
      (generateBlock testingEnv cs updateBlock).bind fun (next, pb) =>
      (commitDiffSet testingEnv next.db pb next.blockMap .revert).bind fun reverted =>
      (commitDiffSet testingEnv reverted pb next.blockMap .apply).map fun replayed =>
        ((next.db.siacoinOutputs.lookup 1120).map (·.unlockHash),
          (replayed.siacoinOutputs.lookup 1120).map (·.unlockHash))) = some (some 2, some 7) := by
    simp only [generateBlock, generateAndApplyDiff, applyMaintenance, applyMaturedSiacoinOutputs,
      dscoBucket, dscoBucketIDs, Finset.sort_eq_insertionSort]
    decide +kernel
  simp only [Option.bind_eq_some_iff] at ran
  obtain ⟨genesis, created, cs, chained, ⟨next, pb⟩, generated, reverted, revertedEq, replayedRan⟩ :=
    ran
  obtain ⟨replayed, replayedEq, read⟩ := Option.map_eq_some_iff.mp replayedRan
  obtain ⟨before, after⟩ := Prod.mk.inj read
  have reachable : Reachable testingEnv cs :=
    reachable_generateBlocks (.genesis created) chained
  have stepped := reachable.step (generateBlock_step generated)
  obtain ⟨parent, db, -, found, -, diffed, rfl⟩ := generateBlock_eq_some generated
  exact ⟨cs, parent, pb, db, reverted, replayed, reachable, found, diffed, stepped, revertedEq,
    replayedEq, before, after⟩

end Sia.Consensus
