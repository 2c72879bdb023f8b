import Sia.Consensus.Windows

/-! The consensus set over whole runs. A ghost map records, for every block in the block map,
the view of the state the block left when it was generated. The invariant `Chain` links the view
of each generated block to its parent's by `View.replay` and `View.revert`, keeps every recorded
view settled (delayed outputs in open buckets, saved Foundation addresses and the path below the
height, contract windows closing after it), and makes the current state the recorded view of
the current block. Reverting moves to the parent's view and replaying to the child's, so the
invariant survives every fork; the expiration index, which no view holds, is kept in step by
every step directly. -/
namespace Sia.Consensus

variable {H : Type} [LinearOrder H] [HashBytes H] (env : Env H)

/-- The bookkeeping every state a block leaves keeps, read on its view. -/
structure View.Settled (v : View H) : Prop where
  filed : ∀ k ∈ v.dsco, k.1 ∈ v.dscoBuckets
  saved : ∀ height ∈ v.foundation.2, height ≤ v.blockHeight
  pathed : ∀ height ∈ v.blockPath, height ≤ v.blockHeight
  ends : ∀ id fc, v.fileContracts.lookup id = some fc → v.blockHeight < fc.windowEnd.toNat

omit [LinearOrder H] [HashBytes H] in
/-- The current block is read off the view. -/
theorem currentBlockID_eq (db : ConsensusDB H) :
    currentBlockID db = db.view.blockPath.lookup db.view.blockHeight := rfl

/-! ### A generated block -/

section Generation

variable {db db' : ConsensusDB H} {parent pb : ProcessedBlock H} {b : Block H}

theorem generateAndApplyDiff_indexed (indexed : Indexed db)
    (ran : generateAndApplyDiff env db (newChild parent b) = some (.ok (db', pb))) :
    Indexed db' := by
  obtain ⟨db1, final, opened, recorded, -, -, rfl⟩ := generateAndApplyDiff_recorded env ran
  obtain ⟨-, rfl⟩ := createDSCOBucket_eq_some.mp opened
  exact recorded.indexed indexed

/-- The generated block is the child it was asked for, and it stands on top of the path. -/
theorem generateAndApplyDiff_child
    (ran : generateAndApplyDiff env db (newChild parent b) = some (.ok (db', pb))) :
    pb.block = b ∧ pb.height = parent.height + 1 ∧ db'.blockHeight = db.blockHeight + 1 ∧
      db'.blockPath = db.blockPath.insert (db.blockHeight + 1) (env.blockID b) := by
  obtain ⟨db1, final, opened, recorded, -, -, rfl⟩ := generateAndApplyDiff_recorded env ran
  obtain ⟨-, rfl⟩ := createDSCOBucket_eq_some.mp opened
  have block : pb.block = b := recorded.block
  obtain ⟨bh, path⟩ := recorded.path
  dsimp only at bh path
  refine ⟨block, recorded.height, ?_, ?_⟩
  · show final.blockHeight + 1 = _
    rw [bh]
  · show final.blockPath.insert (final.blockHeight + 1) (env.blockID pb.block) = _
    rw [bh, path, block]

/-- A block generated on a settled state at its parent's height leaves a settled state. -/
theorem generateAndApplyDiff_settled (settled : db.view.Settled) (indexed : Indexed db)
    (height : db.blockHeight = parent.height)
    (ran : generateAndApplyDiff env db (newChild parent b) = some (.ok (db', pb))) :
    db'.view.Settled := by
  obtain ⟨-, child, above, pathed⟩ := generateAndApplyDiff_child env ran
  have replayed := generateAndApplyDiff_replays env settled.filed ran
  -- nothing was saved at the child's height yet
  have fresh : pb.height ∉ db.view.foundation.2 := fun saved => by
    have below := settled.saved _ saved
    simp only [ConsensusDB.view] at below
    omega
  refine ⟨?_, ?_, ?_, generateAndApplyDiff_endsAfter env settled.ends indexed height ran⟩
  · obtain ⟨db1, final, opened, recorded, -, -, rfl⟩ := generateAndApplyDiff_recorded env ran
    obtain ⟨-, rfl⟩ := createDSCOBucket_eq_some.mp opened
    exact recorded.filed fun k mem => Finset.mem_insert_of_mem (settled.filed k mem)
  · have foundation : db'.view.foundation = foundationBlock env pb db.view.foundation := by
      rw [replayed, View.replay_eq]
    intro saved mem
    rw [foundation] at mem
    show saved ≤ db'.blockHeight
    rcases savedOnce_foundationBlock env fresh with same | ⟨addresses, same⟩
    · rw [same] at mem
      have below := settled.saved saved mem
      simp only [ConsensusDB.view] at below
      omega
    · rw [same] at mem
      rcases Finmap.mem_insert.mp mem with rfl | old
      · omega
      · have below := settled.saved saved old
        simp only [ConsensusDB.view] at below
        omega
  · intro onPath mem
    show onPath ≤ db'.blockHeight
    change onPath ∈ db'.blockPath at mem
    rw [pathed] at mem
    rcases Finmap.mem_insert.mp mem with rfl | old
    · omega
    · have below := settled.pathed onPath old
      simp only [ConsensusDB.view] at below
      omega

end Generation

/-! ### The chain invariant -/

omit [HashBytes H] in
/-- Replaying passes the sanity check only for a child of the current block. -/
theorem commitDiffSetSanity_apply {db : ConsensusDB H} {pb : ProcessedBlock H}
    {blockMap : Bucket H (ProcessedBlock H)}
    (sane : commitDiffSetSanity env db pb blockMap .apply = true) :
    ∃ parent, blockMap.lookup pb.block.parentID = some parent ∧
      currentBlockID db = some (env.blockID parent.block) := by
  simp only [commitDiffSetSanity, Bool.and_eq_true] at sane
  obtain ⟨-, linked⟩ := sane
  cases found : blockMap.lookup pb.block.parentID with
  | none => simp only [found, Bool.false_eq_true] at linked
  | some parent =>
    simp only [found, decide_eq_true_eq] at linked
    exact ⟨parent, rfl, linked⟩

/-- `post id` is the view block `id` left when it was generated. -/
structure Chain (cs : ConsensusSet H) (post : H → View H) : Prop where
  keyed : ∀ id pb, cs.blockMap.lookup id = some pb → env.blockID pb.block = id
  settled : ∀ id pb, cs.blockMap.lookup id = some pb →
    (post id).Settled ∧ (post id).blockHeight = pb.height ∧
      (post id).blockPath.lookup pb.height = some id
  linked : ∀ id pb, cs.blockMap.lookup id = some pb → 0 < pb.height →
    ∃ parent, cs.blockMap.lookup pb.block.parentID = some parent ∧
      post id = (post pb.block.parentID).replay env pb ∧
      (post id).revert env pb = post pb.block.parentID
  rooted : ∀ id pb, cs.blockMap.lookup id = some pb → pb.height = 0 →
    pb.block.parentID = env.zeroHash
  unrooted : env.zeroHash ∉ cs.blockMap
  current : ∃ id ∈ cs.blockMap, currentBlockID cs.db = some id ∧ cs.db.view = post id
  indexed : Indexed cs.db

namespace Chain

variable {env} {cs : ConsensusSet H} {post : H → View H}

omit [HashBytes H] in
/-- A state whose view is the recorded view of a stored block has that block as current. -/
theorem currentBlockID_of_view (chain : Chain env cs post) {db : ConsensusDB H} {id : H}
    {pb : ProcessedBlock H} (found : cs.blockMap.lookup id = some pb) (viewed : db.view = post id) :
    currentBlockID db = some id := by
  obtain ⟨-, height, pathed⟩ := chain.settled id pb found
  rw [currentBlockID_eq, viewed, height, pathed]

omit [HashBytes H] in
/-- The current state is the recorded view of whichever block is current. -/
theorem view_of_current (chain : Chain env cs post) {id : H}
    (current : currentBlockID cs.db = some id) : cs.db.view = post id := by
  obtain ⟨id', -, current', viewed⟩ := chain.current
  rw [Option.some.inj (current'.symm.trans current)] at viewed
  exact viewed

/-- `revertToBlock`: the state moves back to the parent's recorded view. -/
theorem revert (chain : Chain env cs post) {id : H} {pb : ProcessedBlock H} {db : ConsensusDB H}
    (current : currentBlockID cs.db = some id) (found : cs.blockMap.lookup id = some pb)
    (above : 0 < cs.db.blockHeight)
    (ran : commitDiffSet env cs.db pb cs.blockMap .revert = some db) :
    Chain env ⟨db, cs.blockMap⟩ post := by
  have viewed := chain.view_of_current current
  obtain ⟨-, height, -⟩ := chain.settled id pb found
  have positive : 0 < pb.height := by
    rw [← height, ← viewed]
    exact above
  obtain ⟨parent, parentFound, -, back⟩ := chain.linked id pb found positive
  have reverted : db.view = post pb.block.parentID := by
    rw [commitDiffSet_revert env ran, viewed, back]
  exact { chain with
    current := ⟨pb.block.parentID, Finmap.mem_of_lookup_eq_some parentFound,
      chain.currentBlockID_of_view parentFound reverted, reverted⟩
    indexed := commitDiffSet_indexed env chain.indexed ran }

/-- A replay starts at the recorded view of the block's parent and ends at the block's own. -/
theorem replay_views (chain : Chain env cs post) {id : H} {pb : ProcessedBlock H}
    {db : ConsensusDB H} (found : cs.blockMap.lookup id = some pb)
    (ran : commitDiffSet env cs.db pb cs.blockMap .apply = some db) :
    0 < pb.height ∧ cs.db.view = post pb.block.parentID ∧ db.view = post id := by
  obtain ⟨parent, parentFound, current⟩ :=
    commitDiffSetSanity_apply env (commitDiffSet_steps env ran).1
  rw [chain.keyed _ parent parentFound] at current
  -- the genesis block's parent is never stored, so the block is not the genesis block
  have positive : 0 < pb.height := by
    apply Nat.pos_of_ne_zero
    intro genesis
    apply chain.unrooted
    rw [← chain.rooted id pb found genesis]
    exact Finmap.mem_of_lookup_eq_some parentFound
  obtain ⟨-, -, forward, -⟩ := chain.linked id pb found positive
  have viewed := chain.view_of_current current
  refine ⟨positive, viewed, ?_⟩
  rw [commitDiffSet_apply env ran, viewed, forward]

/-- `applyUntilBlock` on a generated block: the state moves to the block's recorded view. -/
theorem replay (chain : Chain env cs post) {id : H} {pb : ProcessedBlock H} {db : ConsensusDB H}
    (found : cs.blockMap.lookup id = some pb)
    (ran : commitDiffSet env cs.db pb cs.blockMap .apply = some db) :
    Chain env ⟨db, cs.blockMap⟩ post := by
  obtain ⟨-, -, replayed⟩ := chain.replay_views found ran
  exact { chain with
    current := ⟨id, Finmap.mem_of_lookup_eq_some found,
      chain.currentBlockID_of_view found replayed, replayed⟩
    indexed := commitDiffSet_indexed env chain.indexed ran }

/-- `applyUntilBlock` on a new child of the current block: the block is stored with the view it
leaves, which replays from the parent's and reverts to it. -/
theorem generate (nonzero : ∀ b, env.blockID b ≠ env.zeroHash) (chain : Chain env cs post)
    {b : Block H} {parent pb : ProcessedBlock H} {db : ConsensusDB H}
    (fresh : env.blockID b ∉ cs.blockMap)
    (parentFound : cs.blockMap.lookup b.parentID = some parent)
    (ran : generateAndApplyDiff env cs.db (newChild parent b) = some (.ok (db, pb))) :
    Chain env ⟨db, cs.blockMap.insert (env.blockID b) pb⟩
      (Function.update post (env.blockID b) db.view) := by
  obtain ⟨current, -⟩ := generateAndApplyDiff_steps env ran
  have viewed : cs.db.view = post b.parentID := chain.view_of_current current
  obtain ⟨settled, height, -⟩ := chain.settled b.parentID parent parentFound
  rw [← viewed] at settled height
  have parentHeight : cs.db.blockHeight = parent.height := height
  obtain ⟨block, child, above, pathed⟩ := generateAndApplyDiff_child env ran
  -- the child's height is new to the parent's saved addresses and path
  have unsaved : pb.height ∉ cs.db.priorFoundationUnlockHashes := fun saved => by
    have below := settled.saved _ saved
    simp only [ConsensusDB.view] at below
    omega
  have unpathed : cs.db.blockHeight + 1 ∉ cs.db.blockPath := fun onPath => by
    have below := settled.pathed _ onPath
    simp only [ConsensusDB.view] at below
    omega
  have replayed := generateAndApplyDiff_replays env settled.filed ran
  have reverted := generateAndApplyDiff_reverts env settled.filed unsaved unpathed ran
  have stored : ∀ id pb', cs.blockMap.lookup id = some pb' → id ≠ env.blockID b :=
    fun id pb' found same => fresh (same ▸ Finmap.mem_of_lookup_eq_some found)
  have apart : b.parentID ≠ env.blockID b := stored _ _ parentFound
  -- a block of the extended map is the new one or was stored before
  have lookupNew : ∀ id pb', (cs.blockMap.insert (env.blockID b) pb).lookup id = some pb' →
      (id = env.blockID b ∧ pb = pb') ∨ (id ≠ env.blockID b ∧ cs.blockMap.lookup id = some pb') := by
    intro id pb' found
    by_cases same : id = env.blockID b
    · subst same
      rw [Finmap.lookup_insert] at found
      exact .inl ⟨rfl, Option.some.inj found⟩
    · rw [Finmap.lookup_insert_of_ne _ same] at found
      exact .inr ⟨same, found⟩
  refine
    { keyed := ?keyed
      settled := ?settled
      linked := ?linked
      rooted := ?rooted
      unrooted := ?unrooted
      current := ?current
      indexed := generateAndApplyDiff_indexed env chain.indexed ran }
  case keyed =>
    intro id pb' found
    rcases lookupNew id pb' found with ⟨rfl, rfl⟩ | ⟨-, old⟩
    · rw [block]
    · exact chain.keyed id pb' old
  case settled =>
    intro id pb' found
    rcases lookupNew id pb' found with ⟨rfl, rfl⟩ | ⟨other, old⟩
    · rw [Function.update_self]
      refine ⟨generateAndApplyDiff_settled env settled chain.indexed parentHeight ran, ?_, ?_⟩
      · show db.blockHeight = pb.height
        omega
      · show db.blockPath.lookup pb.height = some (env.blockID b)
        rw [pathed, show pb.height = cs.db.blockHeight + 1 by omega, Finmap.lookup_insert]
    · rw [Function.update_of_ne other]
      exact chain.settled id pb' old
  case linked =>
    intro id pb' found positive
    rcases lookupNew id pb' found with ⟨rfl, rfl⟩ | ⟨other, old⟩
    · refine ⟨parent, ?_, ?_, ?_⟩
      · rw [block, Finmap.lookup_insert_of_ne _ apart]
        exact parentFound
      · rw [Function.update_self, block, Function.update_of_ne apart, ← viewed]
        exact replayed
      · rw [Function.update_self, block, Function.update_of_ne apart, ← viewed]
        exact reverted
    · obtain ⟨parent', parentFound', forward, back⟩ := chain.linked id pb' old positive
      have other' : pb'.block.parentID ≠ env.blockID b := stored _ _ parentFound'
      refine ⟨parent', ?_, ?_, ?_⟩
      · rw [Finmap.lookup_insert_of_ne _ other']
        exact parentFound'
      · rw [Function.update_of_ne other, Function.update_of_ne other']
        exact forward
      · rw [Function.update_of_ne other, Function.update_of_ne other']
        exact back
  case rooted =>
    intro id pb' found genesis
    rcases lookupNew id pb' found with ⟨rfl, rfl⟩ | ⟨-, old⟩
    · omega
    · exact chain.rooted id pb' old genesis
  case unrooted =>
    intro mem
    rcases Finmap.mem_insert.mp mem with same | old
    · exact nonzero b same.symm
    · exact chain.unrooted old
  case current =>
    refine ⟨env.blockID b, Finmap.mem_insert.mpr (.inl rfl), ?_, by rw [Function.update_self]⟩
    show db.blockPath.lookup db.blockHeight = _
    rw [pathed, above, Finmap.lookup_insert]

end Chain

/-! ### Genesis -/

omit [HashBytes H] in
/-- The genesis state: the genesis block alone in the block map and on the path, no contracts,
no saved Foundation addresses, and the genesis payout filed in the bucket opened for it. -/
theorem createConsensusDB_eq_some {cs : ConsensusSet H} (created : createConsensusDB env = some cs) :
    cs.blockMap = Finmap.singleton (env.blockID (blockRoot env).block) (blockRoot env) ∧
      cs.db.blockHeight = 0 ∧
      cs.db.blockPath = (∅ : Bucket ℕ H).insert 0 (env.blockID (blockRoot env).block) ∧
      cs.db.fileContracts = ∅ ∧ cs.db.fcex = ∅ ∧ cs.db.priorFoundationUnlockHashes = ∅ ∧
      DelayedFiled cs.db := by
  unfold createConsensusDB at created
  obtain ⟨db1, coins, created⟩ := Option.bind_eq_some_iff.mp created
  obtain ⟨db2, funds, created⟩ := Option.bind_eq_some_iff.mp created
  obtain ⟨db3, opened, created⟩ := Option.bind_eq_some_iff.mp created
  obtain ⟨db4, paid, created⟩ := Option.bind_eq_some_iff.mp created
  cases created
  -- the genesis block has no siacoin outputs
  have empty : db1 = emptyConsensusDB env := by
    simpa [blockRoot] using coins.symm
  -- committing the siafund allocation touches only the siafund outputs
  have untouched : db2.blockHeight = 0 ∧ db2.blockPath = ∅ ∧ db2.fileContracts = ∅ ∧
      db2.fcex = ∅ ∧ db2.priorFoundationUnlockHashes = ∅ ∧ db2.dsco = ∅ := by
    refine OptionLoop.foldlM_invariant
      (fun db => db.blockHeight = 0 ∧ db.blockPath = ∅ ∧ db.fileContracts = ∅ ∧ db.fcex = ∅ ∧
        db.priorFoundationUnlockHashes = ∅ ∧ db.dsco = ∅)
      (fun _ _ _ _ holds step => ?_) ?_ funds
    · rw [commitSiafundOutputDiff_eq_some step]
      exact holds
    · rw [empty]
      exact ⟨rfl, rfl, rfl, rfl, rfl, rfl⟩
  obtain ⟨height, path, contracts, fcex, prior, dsco⟩ := untouched
  obtain ⟨-, rfl⟩ := createDSCOBucket_eq_some.mp opened
  obtain ⟨-, -, -, rfl⟩ := addDSCO_eq_some.mp paid
  refine ⟨rfl, height, by rw [← path], contracts, fcex, prior, ?_⟩
  -- the only delayed output is the genesis payout, in the bucket just opened
  intro k mem
  change k ∈ db2.dsco.insert _ _ at mem
  rw [dsco] at mem
  rcases Finmap.mem_insert.mp mem with rfl | absent
  · exact Finset.mem_insert_self _ _
  · exact absurd absent (Finmap.notMem_empty)

omit [HashBytes H] in
/-- The genesis state records its own view for the genesis block. -/
theorem chain_genesis (nonzero : ∀ b, env.blockID b ≠ env.zeroHash) {cs : ConsensusSet H}
    (created : createConsensusDB env = some cs) : Chain env cs fun _ => cs.db.view := by
  obtain ⟨map, height, path, contracts, fcex, prior, filed⟩ := createConsensusDB_eq_some env created
  have genesis : ∀ id pb, cs.blockMap.lookup id = some pb →
      id = env.blockID (blockRoot env).block ∧ pb = blockRoot env := by
    intro id pb found
    rw [map] at found
    have mem := Finmap.mem_of_lookup_eq_some found
    rw [Finmap.mem_singleton] at mem
    subst mem
    rw [Finmap.lookup_singleton_eq] at found
    exact ⟨rfl, (Option.some.inj found).symm⟩
  have pathAt : cs.db.blockPath.lookup 0 = some (env.blockID (blockRoot env).block) := by
    rw [path, Finmap.lookup_insert]
  have settled : cs.db.view.Settled :=
    { filed := filed
      saved := fun saved mem => by
        change saved ∈ cs.db.priorFoundationUnlockHashes at mem
        rw [prior] at mem
        exact absurd mem Finmap.notMem_empty
      pathed := fun onPath mem => by
        change onPath ∈ cs.db.blockPath at mem
        rw [path] at mem
        rcases Finmap.mem_insert.mp mem with rfl | absent
        · exact Nat.zero_le _
        · exact absurd absent Finmap.notMem_empty
      ends := fun id fc found => by
        change cs.db.fileContracts.lookup id = some fc at found
        rw [contracts, Finmap.lookup_empty] at found
        cases found }
  refine
    { keyed := fun id pb found => ?_
      settled := fun id pb found => ?_
      linked := fun id pb found positive => ?_
      rooted := fun id pb found _ => ?_
      unrooted := fun mem => ?_
      current := ⟨_, by rw [map]; exact (Finmap.mem_singleton _ _ _).mpr rfl,
        by show cs.db.blockPath.lookup cs.db.blockHeight = _; rw [height, pathAt], rfl⟩
      indexed := by rw [Indexed, fcex, contracts]; rfl }
  · obtain ⟨rfl, rfl⟩ := genesis id pb found
    rfl
  · obtain ⟨rfl, rfl⟩ := genesis id pb found
    exact ⟨settled, height, pathAt⟩
  · obtain ⟨rfl, rfl⟩ := genesis id pb found
    exact absurd positive (Nat.lt_irrefl 0)
  · obtain ⟨rfl, rfl⟩ := genesis id pb found
    rfl
  · rw [map, Finmap.mem_singleton] at mem
    exact nonzero _ mem.symm

/-- Induction over the reachable states with their chain of recorded views. A property of the
block map and the recorded views that the genesis state has and every newly generated block
keeps holds in every reachable state: reverts and replays change neither. -/
theorem reachable_chain_induction (nonzero : ∀ b, env.blockID b ≠ env.zeroHash)
    (P : Bucket H (ProcessedBlock H) → (H → View H) → Prop)
    (genesis : ∀ {cs : ConsensusSet H}, createConsensusDB env = some cs →
      P cs.blockMap fun _ => cs.db.view)
    (generate : ∀ {cs : ConsensusSet H} {post : H → View H} {b : Block H}
      {parent pb : ProcessedBlock H} {db : ConsensusDB H}, Chain env cs post → P cs.blockMap post →
      env.blockID b ∉ cs.blockMap → cs.blockMap.lookup b.parentID = some parent →
      generateAndApplyDiff env cs.db (newChild parent b) = some (.ok (db, pb)) →
      P (cs.blockMap.insert (env.blockID b) pb) (Function.update post (env.blockID b) db.view))
    {cs : ConsensusSet H} (reachable : Reachable env cs) :
    ∃ post, Chain env cs post ∧ P cs.blockMap post := by
  induction reachable with
  | genesis created => exact ⟨_, chain_genesis env nonzero created, genesis created⟩
  | step _ step ih =>
    obtain ⟨post, chain, holds⟩ := ih
    cases step with
    | revert current found above ran => exact ⟨post, chain.revert current found above ran, holds⟩
    | replay found ran => exact ⟨post, chain.replay found ran, holds⟩
    | generate fresh parentFound _ ran =>
      exact ⟨_, chain.generate nonzero fresh parentFound ran,
        generate chain holds fresh parentFound ran⟩

/-- Every reachable state has a chain of recorded views: the invariant holds at genesis and
every step keeps it. -/
theorem reachable_chain (nonzero : ∀ b, env.blockID b ≠ env.zeroHash) {cs : ConsensusSet H}
    (reachable : Reachable env cs) : ∃ post, Chain env cs post := by
  obtain ⟨post, chain, -⟩ := reachable_chain_induction env nonzero (fun _ _ => True)
    (fun _ => trivial) (fun _ _ _ _ _ => trivial) reachable
  exact ⟨post, chain⟩

/-- Natural-number hashes as the 32 little-endian bytes of the number. -/
instance : HashBytes ℕ := ⟨fun n => Bytes.leBytes 32 n, fun n => Bytes.length_leBytes 32 n⟩

/-- The release constants, with the whole siafund allocation at one address. -/
def sampleParams : Params ℕ :=
  { maturityDelay := 144, foundationHardforkHeight := 298000, foundationSubsidyFrequency := 4320,
    minimumCoinbase := 30000, taxHardforkHeight := 21000,
    genesisSiafundAllocation := [⟨10000, 1, 0⟩],
    initialFoundationUnlockHash := 2, initialFoundationFailsafeUnlockHash := 3,
    maturityDelay_pos := by decide, frequency_pos := by decide,
    minimumCoinbase_le := by decide, genesis_count := by decide,
    genesis_claimStart := by decide, genesis_positive := by decide }

/-- An environment over natural-number hashes whose identifiers are simple functions, for
evaluating the model. -/
def sampleEnv : Env ℕ :=
  { params := sampleParams, oakHardforkBlock := 179000, devAddr := 4, zeroHash := 0,
    genesisTimestamp := 1433600000, blockID := fun _ => 1,
    siacoinOutputID := fun _ i => i + 10, fileContractID := fun _ i => i + 20,
    siafundOutputID := fun _ i => i + 30, storageProofOutputID := fun _ _ i => i + 40,
    siaClaimOutputID := fun id => id + 50, minerPayoutID := fun _ i => i + 60,
    foundationSubsidyID := fun id => id + 70, unlockHash := fun _ => 9,
    decodeFoundationUpdate := fun _ => none, validSignatures := fun _ _ => true,
    segmentIndex := fun _ _ _ => 0, verifySegment := fun _ _ _ _ _ => true,
    legacyStorageProofs := fun _ => false, fullFinalSegments := fun _ => false }

/-- The genesis state of `sampleEnv`. -/
def sampleGenesis : ConsensusSet ℕ := (createConsensusDB sampleEnv).get (by decide)

end Sia.Consensus
