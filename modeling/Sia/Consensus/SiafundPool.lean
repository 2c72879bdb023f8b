import Sia.Consensus.Chain

/-! The siafund pool. `types.Tax` rounds the pool's share of a payout down to a multiple of
`SiafundCount`, in both tax regimes, so `applyFileContracts` adds a multiple of `SiafundCount`
to the pool; `applySiafundOutputs` starts a new output's claim at the pool as it is, and
`applySiafundInputs` removes the output it pays. So the pool and every claim start stay
multiples of `SiafundCount`, no claim starts above the pool, and applying a block never shrinks
the pool. The claim `applySiafundInputs` pays, `(pool - ClaimStart) / SiafundCount * Value`, is
then the claim `checkSiacoinCount` counts, `(pool - ClaimStart) * Value / SiafundCount`. -/
namespace Sia.Consensus

open OptionLoop

variable {H : Type}

section Components

variable [DecidableEq H]

/-- The pool and every claim start are multiples of `SiafundCount`, and no claim starts above
the pool. -/
structure View.PoolSound (v : View H) : Prop where
  pool_dvd : siafundCount ∣ v.siafundPool
  claims : ∀ id c, v.siafundClaims.lookup id = some c → siafundCount ∣ c.2 ∧ c.2 ≤ v.siafundPool

/-- From `v` to `v'` the pool does not shrink, and a sound pool stays sound. -/
structure PoolGrows (v v' : View H) : Prop where
  le : v.siafundPool ≤ v'.siafundPool
  sound : v.PoolSound → v'.PoolSound

namespace PoolGrows

variable {v v' v'' : View H}

theorem refl (v : View H) : PoolGrows v v := ⟨le_rfl, id⟩

theorem trans (first : PoolGrows v v') (second : PoolGrows v' v'') : PoolGrows v v'' :=
  ⟨first.le.trans second.le, second.sound ∘ first.sound⟩

/-- The shape of every update of the pool: it grows by a multiple of `SiafundCount`, and each
claim is an old one or starts at the new pool. -/
theorem of_claims (added : ∃ tax, siafundCount ∣ tax ∧ v'.siafundPool = v.siafundPool + tax)
    (claims : ∀ id c, v'.siafundClaims.lookup id = some c →
      v.siafundClaims.lookup id = some c ∨ c.2 = v'.siafundPool) :
    PoolGrows v v' := by
  obtain ⟨tax, taxed, pool⟩ := added
  have grows : v.siafundPool ≤ v'.siafundPool := pool ▸ Nat.le_add_right _ _
  refine ⟨grows, fun sound => ?_⟩
  have divides : siafundCount ∣ v'.siafundPool := pool ▸ Nat.dvd_add sound.pool_dvd taxed
  refine ⟨divides, fun id c found => ?_⟩
  rcases claims id c found with old | fresh
  · obtain ⟨dvd, below⟩ := sound.claims id c old
    exact ⟨dvd, below.trans grows⟩
  · rw [fresh]
    exact ⟨divides, le_rfl⟩

/-- A step that leaves the claims and the pool as they were. -/
theorem of_eq (claims : v'.siafundClaims = v.siafundClaims)
    (pool : v'.siafundPool = v.siafundPool) : PoolGrows v v' :=
  of_claims ⟨0, dvd_zero _, pool⟩ fun _ _ found => .inl (claims ▸ found)

end PoolGrows

/-! ### The components of a transaction -/

variable {s s' : ConsensusDB H × ProcessedBlock H}

/-- A loop each of whose steps grows the pool grows it. -/
theorem foldlM_poolGrows {α : Type}
    {step : ConsensusDB H × ProcessedBlock H → α → Option (ConsensusDB H × ProcessedBlock H)}
    {xs : List α} (each : ∀ a x b, x ∈ xs → step a x = some b → PoolGrows a.1.view b.1.view)
    (ran : xs.foldlM step s = some s') : PoolGrows s.1.view s'.1.view :=
  foldlM_rel (fun a b => PoolGrows a.1.view b.1.view) (fun a => .refl a.1.view)
    PoolGrows.trans each ran

theorem recordSiacoinOutputDiff_poolGrows {d : SiacoinOutputDiff H}
    (ran : recordSiacoinOutputDiff s d = some s') : PoolGrows s.1.view s'.1.view := by
  rw [recordSiacoinOutputDiff_keeps ran]
  exact .of_eq rfl rfl

theorem recordDelayedSiacoinOutputDiff_poolGrows {d : DelayedSiacoinOutputDiff H}
    (ran : recordDelayedSiacoinOutputDiff s d = some s') : PoolGrows s.1.view s'.1.view := by
  rw [recordDelayedSiacoinOutputDiff_keeps ran]
  exact .of_eq rfl rfl

variable (env : Env H) (t : Transaction H)

theorem applySiacoinInputs_poolGrows (ran : applySiacoinInputs t s = some s') :
    PoolGrows s.1.view s'.1.view := by
  refine foldlM_poolGrows (fun _ _ _ _ step => ?_) ran
  obtain ⟨sco, -, recorded⟩ := Option.bind_eq_some_iff.mp step
  exact recordSiacoinOutputDiff_poolGrows recorded

theorem applySiacoinOutputs_poolGrows (ran : applySiacoinOutputs env t s = some s') :
    PoolGrows s.1.view s'.1.view :=
  foldlM_poolGrows (fun _ ⟨_, _⟩ _ _ step => recordSiacoinOutputDiff_poolGrows step) ran

/-- Spending a siafund output drops its claim and leaves the pool. -/
theorem applySiafundInput_poolGrows {sfi : SiafundInput H}
    (ran : applySiafundInput env s sfi = some s') : PoolGrows s.1.view s'.1.view := by
  obtain ⟨sfo, mid, -, -, paid, spent⟩ := applySiafundInput_eq_some env ran
  refine (recordDelayedSiacoinOutputDiff_poolGrows paid).trans ?_
  rw [commitSiafundOutputDiff_eq_some (recordSiafundOutputDiff_eq_some spent).1]
  refine .of_claims ⟨0, dvd_zero _, rfl⟩ fun id c found => .inl ?_
  simp only [ConsensusDB.view, Finmap.lookup_mapValues, commitChange, SiafundOutputDiff.change,
    journalChange, Journal.Change.redo] at found ⊢
  by_cases same : id = sfi.parentID
  · rw [same, Finmap.lookup_erase, Option.map_none] at found
    cases found
  · rwa [Finmap.lookup_erase_ne same] at found

theorem applySiafundInputs_poolGrows (ran : applySiafundInputs env t s = some s') :
    PoolGrows s.1.view s'.1.view :=
  foldlM_poolGrows (fun _ _ _ _ step => applySiafundInput_poolGrows env step) ran

/-- A new siafund output starts claiming at the pool as it is. -/
theorem applySiafundOutputs_poolGrows (ran : applySiafundOutputs env t s = some s') :
    PoolGrows s.1.view s'.1.view := by
  refine foldlM_poolGrows (fun a ⟨sfo, i⟩ b _ step => ?_) ran
  rw [commitSiafundOutputDiff_eq_some (recordSiafundOutputDiff_eq_some step).1]
  refine .of_claims ⟨0, dvd_zero _, rfl⟩ fun id c found => ?_
  simp only [ConsensusDB.view, Finmap.lookup_mapValues, commitChange, SiafundOutputDiff.change,
    journalChange, Journal.Change.redo] at found ⊢
  by_cases same : id = env.siafundOutputID t i
  · rw [same, Finmap.lookup_insert, Option.map_some, Option.some.injEq] at found
    exact .inr (found ▸ rfl)
  · rw [Finmap.lookup_insert_of_ne _ same] at found
    exact .inl found

/-- The Foundation update re-addresses outputs and touches neither the claims nor the pool. -/
theorem applyArbitraryData_poolGrows {db db' : ConsensusDB H} {pb : ProcessedBlock H}
    (ran : applyArbitraryData env db pb t = some db') : PoolGrows db.view db'.view := by
  have viewed := (applyArbitraryData_moved env ran).1
  exact .of_eq (by rw [viewed]) (by rw [viewed])

variable [HashBytes H]

theorem recordFileContractDiff_poolGrows {d : FileContractDiff H}
    (ran : recordFileContractDiff s d = some s') : PoolGrows s.1.view s'.1.view := by
  obtain ⟨fcex, committed⟩ :=
    commitFileContractDiff_eq_some (recordFileContractDiff_eq_some ran).1
  rw [committed]
  exact .of_eq rfl rfl

/-- A new contract pays its tax into the pool, a multiple of `SiafundCount`. -/
theorem applyFileContract_poolGrows {entry : FileContract H × ℕ}
    (ran : applyFileContract env t s entry = some s') : PoolGrows s.1.view s'.1.view := by
  obtain ⟨mid, contract, taxed⟩ := Option.bind_eq_some_iff.mp ran
  obtain ⟨-, -, -, pooled⟩ :=
    commitSiafundPoolDiff_eq_some (recordSiafundPoolDiff_eq_some taxed).1
  refine (recordFileContractDiff_poolGrows contract).trans ?_
  rw [pooled]
  exact .of_claims ⟨_, tax_dvd env.params mid.1.blockHeight entry.1.payout, rfl⟩
    fun _ _ found => .inl found

theorem applyFileContracts_poolGrows (ran : applyFileContracts env t s = some s') :
    PoolGrows s.1.view s'.1.view :=
  foldlM_poolGrows (fun _ _ _ _ step => applyFileContract_poolGrows env t step) ran

theorem applyFileContractRevisions_poolGrows (ran : applyFileContractRevisions t s = some s') :
    PoolGrows s.1.view s'.1.view := by
  refine foldlM_poolGrows (fun _ _ _ _ step => ?_) ran
  obtain ⟨fc, -, step⟩ := Option.bind_eq_some_iff.mp step
  obtain ⟨mid, removed, added⟩ := Option.bind_eq_some_iff.mp step
  exact (recordFileContractDiff_poolGrows removed).trans (recordFileContractDiff_poolGrows added)

theorem applyStorageProofs_poolGrows (ran : applyStorageProofs env t s = some s') :
    PoolGrows s.1.view s'.1.view := by
  refine foldlM_poolGrows (fun _ _ _ _ step => ?_) ran
  obtain ⟨fc, -, step⟩ := Option.bind_eq_some_iff.mp step
  obtain ⟨mid, delayed, removed⟩ := Option.bind_eq_some_iff.mp step
  exact (foldlM_poolGrows (fun _ ⟨_, _⟩ _ _ paid => recordDelayedSiacoinOutputDiff_poolGrows paid)
    delayed).trans (recordFileContractDiff_poolGrows removed)

theorem applyTransaction_poolGrows (ran : applyTransaction env s t = some s') :
    PoolGrows s.1.view s'.1.view := by
  obtain ⟨s1, inputs, ran⟩ := Option.bind_eq_some_iff.mp ran
  obtain ⟨s2, outputs, ran⟩ := Option.bind_eq_some_iff.mp ran
  obtain ⟨s3, contracts, ran⟩ := Option.bind_eq_some_iff.mp ran
  obtain ⟨s4, revisions, ran⟩ := Option.bind_eq_some_iff.mp ran
  obtain ⟨s5, proofs, ran⟩ := Option.bind_eq_some_iff.mp ran
  obtain ⟨s6, claims, ran⟩ := Option.bind_eq_some_iff.mp ran
  obtain ⟨s7, created, ran⟩ := Option.bind_eq_some_iff.mp ran
  obtain ⟨db, data, ran⟩ := Option.bind_eq_some_iff.mp ran
  cases ran
  exact (applySiacoinInputs_poolGrows t inputs).trans <|
    (applySiacoinOutputs_poolGrows env t outputs).trans <|
    (applyFileContracts_poolGrows env t contracts).trans <|
    (applyFileContractRevisions_poolGrows t revisions).trans <|
    (applyStorageProofs_poolGrows env t proofs).trans <|
    (applySiafundInputs_poolGrows env t claims).trans <|
    (applySiafundOutputs_poolGrows env t created).trans
    (applyArbitraryData_poolGrows env t data)

end Components

/-! ### Generating a block -/

section Generation

variable [LinearOrder H] [HashBytes H] (env : Env H) {s s' : ConsensusDB H × ProcessedBlock H}

theorem applyTransactions_poolGrows :
    ∀ {s s' : ConsensusDB H × ProcessedBlock H} {txs : List (Transaction H)},
      applyTransactions env s txs = some (.ok s') → PoolGrows s.1.view s'.1.view
  | s, s', [], ran => by
    simp only [applyTransactions, Option.some.injEq, Except.ok.injEq] at ran
    subst ran
    exact .refl _
  | s, s', t :: rest, ran => by
    obtain ⟨mid, -, applied, ran⟩ := applyTransactions_cons_eq_some env ran
    exact (applyTransaction_poolGrows env t applied).trans (applyTransactions_poolGrows ran)

omit [HashBytes H] in
theorem applyFoundationSubsidy_poolGrows (ran : applyFoundationSubsidy env s = some s') :
    PoolGrows s.1.view s'.1.view := by
  rcases applyFoundationSubsidy_eq_some env ran with rfl | ⟨d, -, paid⟩
  · exact .refl _
  · exact recordDelayedSiacoinOutputDiff_poolGrows paid

omit [HashBytes H] in
theorem applyMaturedSiacoinOutputs_poolGrows (ran : applyMaturedSiacoinOutputs env s = some s') :
    PoolGrows s.1.view s'.1.view := by
  simp only [applyMaturedSiacoinOutputs] at ran
  split_ifs at ran
  · cases ran
    exact .refl _
  · obtain ⟨mid, spendable, ran⟩ := Option.bind_eq_some_iff.mp ran
    obtain ⟨mid', unloaded, ran⟩ := Option.bind_eq_some_iff.mp ran
    obtain ⟨db, deleted, ran⟩ := Option.bind_eq_some_iff.mp ran
    cases ran
    obtain ⟨-, rfl⟩ := deleteDSCOBucket_eq_some.mp deleted
    exact (foldlM_poolGrows (fun _ _ _ _ step => recordSiacoinOutputDiff_poolGrows step)
      spendable).trans <|
      (foldlM_poolGrows (fun _ _ _ _ step => recordDelayedSiacoinOutputDiff_poolGrows step)
        unloaded).trans (.of_eq rfl rfl)

theorem applyFileContractMaintenance_poolGrows
    (ran : applyFileContractMaintenance env s = some s') : PoolGrows s.1.view s'.1.view := by
  obtain ⟨results, -, ran⟩ := Option.bind_eq_some_iff.mp ran
  obtain ⟨mid, delayed, ran⟩ := Option.bind_eq_some_iff.mp ran
  obtain ⟨mid', removed, ran⟩ := Option.bind_eq_some_iff.mp ran
  cases ran
  exact (foldlM_poolGrows (fun _ _ _ _ step => recordDelayedSiacoinOutputDiff_poolGrows step)
    delayed).trans <|
    (foldlM_poolGrows (fun _ _ _ _ step => recordFileContractDiff_poolGrows step) removed).trans
      (.of_eq rfl rfl)

/-- Maintenance pays delayed outputs and expires contracts; no claim and no pool change. -/
theorem applyMaintenance_poolGrows (ran : applyMaintenance env s = some s') :
    PoolGrows s.1.view s'.1.view := by
  obtain ⟨s1, payouts, ran⟩ := Option.bind_eq_some_iff.mp ran
  obtain ⟨s2, subsidy, ran⟩ := Option.bind_eq_some_iff.mp ran
  obtain ⟨s3, matured, expired⟩ := Option.bind_eq_some_iff.mp ran
  exact (foldlM_poolGrows (fun _ ⟨_, _⟩ _ _ step => recordDelayedSiacoinOutputDiff_poolGrows step)
    payouts).trans <|
    (applyFoundationSubsidy_poolGrows env subsidy).trans <|
    (applyMaturedSiacoinOutputs_poolGrows env matured).trans
    (applyFileContractMaintenance_poolGrows env expired)

/-- Generating a block grows the pool. -/
theorem generateAndApplyDiff_poolGrows {db db' : ConsensusDB H} {pb pb' : ProcessedBlock H}
    (ran : generateAndApplyDiff env db pb = some (.ok (db', pb'))) : PoolGrows db.view db'.view := by
  obtain ⟨-, db1, s, final, maintained, opened, applied, kept, -, rfl⟩ :=
    generateAndApplyDiff_steps env ran
  obtain ⟨-, rfl⟩ := createDSCOBucket_eq_some.mp opened
  have txs := applyTransactions_poolGrows env applied
  have upkeep := applyMaintenance_poolGrows env kept
  have pushed : PoolGrows final.view (updateCurrentPath env final pb' .apply).view := .of_eq rfl rfl
  refine ((PoolGrows.trans ?_ txs).trans (upkeep.trans pushed))
  -- opening the bucket of the block's delayed outputs
  exact .of_eq rfl rfl

end Generation

/-! ### Over whole runs -/

section Runs

variable [LinearOrder H] [HashBytes H] (env : Env H)

omit [HashBytes H] in
/-- The genesis pool is empty and the genesis siafund outputs claim from it. -/
theorem createConsensusDB_poolSound {cs : ConsensusSet H}
    (created : createConsensusDB env = some cs) : cs.db.view.PoolSound := by
  unfold createConsensusDB at created
  obtain ⟨db1, coins, created⟩ := Option.bind_eq_some_iff.mp created
  obtain ⟨db2, funds, created⟩ := Option.bind_eq_some_iff.mp created
  obtain ⟨db3, opened, created⟩ := Option.bind_eq_some_iff.mp created
  obtain ⟨db4, paid, created⟩ := Option.bind_eq_some_iff.mp created
  cases created
  have empty : db1 = emptyConsensusDB env := by
    simpa [blockRoot] using coins.symm
  -- the allocation is committed output by output, each claiming from zero
  have unclaimed : db2.siafundPool = 0 ∧
      ∀ id sfo, db2.siafundOutputs.lookup id = some sfo → sfo.claimStart = 0 := by
    refine foldlM_invariant (fun db => db.siafundPool = 0 ∧
        ∀ id sfo, db.siafundOutputs.lookup id = some sfo → sfo.claimStart = 0)
      (fun db d db' mem holds step => ?_) ?_ funds
    · obtain ⟨pool, starts⟩ := holds
      rw [commitSiafundOutputDiff_eq_some step]
      refine ⟨pool, fun id sfo found => ?_⟩
      simp only [blockRoot, List.mem_map] at mem
      obtain ⟨⟨allocated, i⟩, listed, rfl⟩ := mem
      simp only [commitChange, SiafundOutputDiff.change, journalChange, Journal.Change.redo]
        at found
      by_cases same : id = env.siafundOutputID (genesisTransaction env) i
      · rw [same, Finmap.lookup_insert, Option.some.injEq] at found
        subst found
        exact env.params.genesis_claimStart allocated (List.fst_mem_of_mem_zipIdx listed)
      · rw [Finmap.lookup_insert_of_ne _ same] at found
        exact starts id sfo found
    · rw [empty]
      exact ⟨rfl, fun id sfo found => by cases found⟩
  obtain ⟨pool, starts⟩ := unclaimed
  obtain ⟨-, rfl⟩ := createDSCOBucket_eq_some.mp opened
  obtain ⟨-, -, -, rfl⟩ := addDSCO_eq_some.mp paid
  have zero : siafundCount ∣ db2.siafundPool := pool ▸ dvd_zero _
  refine ⟨zero, fun id c found => ?_⟩
  simp only [ConsensusDB.view, Finmap.lookup_mapValues, Option.map_eq_some_iff] at found
  obtain ⟨sfo, stored, rfl⟩ := found
  have start : (siafundClaim sfo).2 = 0 := starts id sfo stored
  rw [start]
  exact ⟨dvd_zero _, Nat.zero_le _⟩

/-- Every stored block's recorded view has a sound pool, no smaller than its parent's. -/
structure PoolRecorded (blockMap : Bucket H (ProcessedBlock H)) (post : H → View H) : Prop where
  sound : ∀ id ∈ blockMap, (post id).PoolSound
  grows : ∀ id pb, blockMap.lookup id = some pb → 0 < pb.height →
    (post pb.block.parentID).siafundPool ≤ (post id).siafundPool

omit [HashBytes H] in
theorem poolRecorded_genesis {cs : ConsensusSet H} (created : createConsensusDB env = some cs) :
    PoolRecorded cs.blockMap fun _ => cs.db.view :=
  ⟨fun _ _ => createConsensusDB_poolSound env created, fun _ _ _ _ => le_rfl⟩

/-- A generated block is recorded with the view it leaves, which grew from its parent's. -/
theorem PoolRecorded.generate {cs : ConsensusSet H} {post : H → View H} {b : Block H}
    {parent pb : ProcessedBlock H} {db : ConsensusDB H} (chain : Chain env cs post)
    (recorded : PoolRecorded cs.blockMap post) (fresh : env.blockID b ∉ cs.blockMap)
    (parentFound : cs.blockMap.lookup b.parentID = some parent)
    (ran : generateAndApplyDiff env cs.db (newChild parent b) = some (.ok (db, pb))) :
    PoolRecorded (cs.blockMap.insert (env.blockID b) pb)
      (Function.update post (env.blockID b) db.view) := by
  obtain ⟨current, -⟩ := generateAndApplyDiff_steps env ran
  have viewed : cs.db.view = post b.parentID := chain.view_of_current current
  have grows := generateAndApplyDiff_poolGrows env ran
  rw [viewed] at grows
  obtain ⟨block, -⟩ := generateAndApplyDiff_child env ran
  have unstored : ∀ id ∈ cs.blockMap, id ≠ env.blockID b := fun id mem same => fresh (same ▸ mem)
  have apart := unstored _ (Finmap.mem_of_lookup_eq_some parentFound)
  refine ⟨fun id mem => ?_, fun id pb' found positive => ?_⟩
  · rcases Finmap.mem_insert.mp mem with rfl | old
    · rw [Function.update_self]
      exact grows.sound (recorded.sound _ (Finmap.mem_of_lookup_eq_some parentFound))
    · rw [Function.update_of_ne (unstored id old)]
      exact recorded.sound id old
  · by_cases same : id = env.blockID b
    · rw [same, Finmap.lookup_insert, Option.some.injEq] at found
      subst found
      rw [same, block, Function.update_self, Function.update_of_ne apart]
      exact grows.le
    · rw [Finmap.lookup_insert_of_ne _ same] at found
      -- the parent of an older block is older too
      obtain ⟨parent', parentFound', -, -⟩ := chain.linked id pb' found positive
      rw [Function.update_of_ne same,
        Function.update_of_ne (unstored _ (Finmap.mem_of_lookup_eq_some parentFound'))]
      exact recorded.grows id pb' found positive

/-- Applying a block, generated or replayed, never shrinks the pool; only a revert lowers the
height. -/
theorem PoolRecorded.pool_le_of_step {cs cs' : ConsensusSet H} {post : H → View H}
    (chain : Chain env cs post) (recorded : PoolRecorded cs.blockMap post)
    (step : Step env cs cs') (higher : cs.db.blockHeight < cs'.db.blockHeight) :
    cs.db.siafundPool ≤ cs'.db.siafundPool := by
  cases step with
  | @revert id pb db current found above ran =>
    have lowered : db.blockHeight = cs.db.blockHeight - 1 := by
      have heights := congrArg View.blockHeight (commitDiffSet_revert env ran)
      rw [View.revert_eq] at heights
      exact heights
    have : cs.db.blockHeight < db.blockHeight := higher
    omega
  | replay found ran =>
    obtain ⟨positive, before, after⟩ := chain.replay_views found ran
    have grows := recorded.grows _ _ found positive
    rw [← before, ← after] at grows
    exact grows
  | generate fresh parentFound _ ran => exact (generateAndApplyDiff_poolGrows env ran).le

theorem reachable_poolRecorded (nonzero : ∀ b, env.blockID b ≠ env.zeroHash)
    {cs : ConsensusSet H} (reachable : Reachable env cs) :
    ∃ post, Chain env cs post ∧ PoolRecorded cs.blockMap post :=
  reachable_chain_induction env nonzero PoolRecorded
    (fun created => poolRecorded_genesis env created)
    (fun chain recorded fresh parentFound ran => recorded.generate env chain fresh parentFound ran)
    reachable

end Runs

end Sia.Consensus
