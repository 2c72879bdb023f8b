import Sia.Consensus.View
import Sia.Consensus.DiffSet
import Sia.Lib.OptionLoop

/-! What `commitDiffSet` does when it does not panic. Committing a diff in the apply direction
redoes its journal change on the diff's bucket, and in the revert direction undoes it, whatever
the diff's own direction; so a whole block's diffs are redone in recorded order or undone newest
first, and on views `commitDiffSet` is `View.replay` or `View.revert`. Every commit keeps the
expiration index in step with the contracts. -/
namespace Sia.Consensus

open Journal OptionLoop

variable {H : Type}

/-- A diff's change committed in a direction. -/
def commitChange {K V : Type} [DecidableEq K] (dir : DiffDirection) (c : Change K V)
    (m : Bucket K V) : Bucket K V :=
  match dir with
  | .apply => c.redo m
  | .revert => c.undo m

/-! ### One diff -/

section Single

variable [DecidableEq H] {db db' : ConsensusDB H} {dir : DiffDirection}

theorem commitSiacoinOutputDiff_eq_some {d : SiacoinOutputDiff H}
    (ran : commitSiacoinOutputDiff db d dir = some db') :
    db' = { db with siacoinOutputs := commitChange dir d.change db.siacoinOutputs } := by
  obtain ⟨direction, id, sco⟩ := d
  cases dir <;> cases direction <;>
    simp only [commitSiacoinOutputDiff, SiacoinOutputDiff.change, journalChange, commitChange,
      Change.redo, Change.undo, if_true, reduceCtorEq, if_false] at ran ⊢
  · exact (addSiacoinOutput_eq_some.mp ran).2
  · exact (removeSiacoinOutput_eq_some.mp ran).2
  · exact (removeSiacoinOutput_eq_some.mp ran).2
  · exact (addSiacoinOutput_eq_some.mp ran).2

theorem commitSiafundOutputDiff_eq_some {d : SiafundOutputDiff H}
    (ran : commitSiafundOutputDiff db d dir = some db') :
    db' = { db with siafundOutputs := commitChange dir d.change db.siafundOutputs } := by
  obtain ⟨direction, id, sfo⟩ := d
  cases dir <;> cases direction <;>
    simp only [commitSiafundOutputDiff, SiafundOutputDiff.change, journalChange, commitChange,
      Change.redo, Change.undo, if_true, reduceCtorEq, if_false] at ran ⊢
  · exact (addSiafundOutput_eq_some.mp ran).2.2
  · exact (removeSiafundOutput_eq_some.mp ran).2
  · exact (removeSiafundOutput_eq_some.mp ran).2
  · exact (addSiafundOutput_eq_some.mp ran).2.2

theorem commitDelayedSiacoinOutputDiff_eq_some {d : DelayedSiacoinOutputDiff H}
    (ran : commitDelayedSiacoinOutputDiff db d dir = some db') :
    db' = { db with dsco := commitChange dir d.change db.dsco } := by
  obtain ⟨direction, id, sco, maturityHeight⟩ := d
  cases dir <;> cases direction <;>
    simp only [commitDelayedSiacoinOutputDiff, DelayedSiacoinOutputDiff.change, journalChange,
      commitChange, Change.redo, Change.undo, if_true, reduceCtorEq, if_false] at ran ⊢
  · exact (addDSCO_eq_some.mp ran).2.2.2
  · exact (removeDSCO_eq_some.mp ran).2.2
  · exact (removeDSCO_eq_some.mp ran).2.2
  · exact (addDSCO_eq_some.mp ran).2.2.2

/-- The pool a diff leaves when committed in a direction. -/
def poolAfter (dir : DiffDirection) (d : SiafundPoolDiff) : Currency :=
  match dir with
  | .apply => d.adjusted
  | .revert => d.previous

/-- The pool a diff expects before it is committed in a direction. -/
def poolBefore (dir : DiffDirection) (d : SiafundPoolDiff) : Currency :=
  match dir with
  | .apply => d.previous
  | .revert => d.adjusted

omit [DecidableEq H] in
theorem commitSiafundPoolDiff_eq_some {d : SiafundPoolDiff}
    (ran : commitSiafundPoolDiff db d dir = some db') :
    d.direction = .apply ∧ d.previous ≤ d.adjusted ∧ db.siafundPool = poolBefore dir d ∧
      db' = { db with siafundPool := poolAfter dir d } := by
  unfold commitSiafundPoolDiff at ran
  by_cases shrinks : d.adjusted < d.previous
  · rw [if_pos shrinks] at ran
    cases ran
  rw [if_neg shrinks] at ran
  by_cases applied : d.direction = .apply
  · rw [if_neg (not_not.mpr applied)] at ran
    refine ⟨applied, Nat.le_of_not_lt shrinks, ?_⟩
    -- the pool check compares with the value the direction starts from
    cases dir with
    | apply =>
      by_cases holds : db.siafundPool = d.previous
      · simp only [holds, if_true, Option.some.injEq] at ran
        exact ⟨holds, ran.symm⟩
      · simp only [holds, if_false, reduceCtorEq] at ran
    | revert =>
      by_cases holds : db.siafundPool = d.adjusted
      · simp only [holds, if_true, Option.some.injEq] at ran
        exact ⟨holds, ran.symm⟩
      · simp only [holds, if_false, reduceCtorEq] at ran
  · rw [if_pos applied] at ran
    cases ran

theorem addFileContract_indexed {id : H} {fc : FileContract H} (indexed : Indexed db)
    (ran : addFileContract db id fc = some db') : Indexed db' := by
  obtain ⟨-, fresh, rfl⟩ := addFileContract_eq_some.mp ran
  simp only [Indexed] at indexed ⊢
  rw [expirations_insert fresh, indexed]

theorem removeFileContract_indexed [HashBytes H] {id : H} (indexed : Indexed db)
    (ran : removeFileContract db id = some db') : Indexed db' := by
  obtain ⟨fc, found, -, rfl⟩ := removeFileContract_eq_some.mp ran
  simp only [Indexed] at indexed ⊢
  rw [expirations_erase found, indexed]

variable [HashBytes H]

/-- A contract diff moves the contracts by its change, and the expiration index with them. -/
theorem commitFileContractDiff_eq_some {d : FileContractDiff H}
    (ran : commitFileContractDiff db d dir = some db') :
    ∃ fcex, db' = { db with fileContracts := commitChange dir d.change db.fileContracts,
                            fcex := fcex } := by
  obtain ⟨direction, id, fc⟩ := d
  cases dir <;> cases direction <;>
    simp only [commitFileContractDiff, FileContractDiff.change, journalChange, commitChange,
      Change.redo, Change.undo, if_true, reduceCtorEq, if_false] at ran ⊢
  · exact ⟨_, (addFileContract_eq_some.mp ran).2.2⟩
  · obtain ⟨_, _, _, rfl⟩ := removeFileContract_eq_some.mp ran
    exact ⟨_, rfl⟩
  · obtain ⟨_, _, _, rfl⟩ := removeFileContract_eq_some.mp ran
    exact ⟨_, rfl⟩
  · exact ⟨_, (addFileContract_eq_some.mp ran).2.2⟩

theorem commitFileContractDiff_indexed {d : FileContractDiff H} (indexed : Indexed db)
    (ran : commitFileContractDiff db d dir = some db') : Indexed db' := by
  unfold commitFileContractDiff at ran
  split at ran
  · exact addFileContract_indexed indexed ran
  · exact removeFileContract_indexed indexed ran

end Single

/-! ### A block's diffs -/

section Loops

variable [DecidableEq H] {db db' : ConsensusDB H} {dir : DiffDirection}

theorem foldl_commitChange_apply {K V D : Type} [DecidableEq K] (change : D → Change K V)
    (ds : List D) (m : Bucket K V) :
    ds.foldl (fun m d => commitChange .apply (change d) m) m = (ds.map change).foldl Change.redo m := by
  rw [List.foldl_map]
  rfl

theorem foldl_reverse_commitChange_revert {K V D : Type} [DecidableEq K] (change : D → Change K V)
    (ds : List D) (m : Bucket K V) :
    ds.reverse.foldl (fun m d => commitChange .revert (change d) m) m =
      (ds.map change).foldr Change.undo m := by
  rw [List.foldl_reverse, List.foldr_map]
  rfl

theorem commitSiacoinOutputDiffs {ds : List (SiacoinOutputDiff H)}
    (ran : ds.foldlM (commitSiacoinOutputDiff · · dir) db = some db') :
    db' = { db with
      siacoinOutputs := ds.foldl (fun m d => commitChange dir d.change m) db.siacoinOutputs } :=
  foldlM_set (·.siacoinOutputs) (fun m db => { db with siacoinOutputs := m }) (fun _ _ => rfl)
    (fun _ => rfl) (fun _ _ _ => rfl) _ (fun _ _ _ _ step => commitSiacoinOutputDiff_eq_some step) ran

theorem commitSiafundOutputDiffs {ds : List (SiafundOutputDiff H)}
    (ran : ds.foldlM (commitSiafundOutputDiff · · dir) db = some db') :
    db' = { db with
      siafundOutputs := ds.foldl (fun m d => commitChange dir d.change m) db.siafundOutputs } :=
  foldlM_set (·.siafundOutputs) (fun m db => { db with siafundOutputs := m }) (fun _ _ => rfl)
    (fun _ => rfl) (fun _ _ _ => rfl) _ (fun _ _ _ _ step => commitSiafundOutputDiff_eq_some step) ran

theorem commitDelayedSiacoinOutputDiffs {ds : List (DelayedSiacoinOutputDiff H)}
    (ran : ds.foldlM (commitDelayedSiacoinOutputDiff · · dir) db = some db') :
    db' = { db with dsco := ds.foldl (fun m d => commitChange dir d.change m) db.dsco } :=
  foldlM_set (·.dsco) (fun m db => { db with dsco := m }) (fun _ _ => rfl) (fun _ => rfl)
    (fun _ _ _ => rfl) _ (fun _ _ _ _ step => commitDelayedSiacoinOutputDiff_eq_some step) ran

omit [DecidableEq H] in
theorem commitSiafundPoolDiffs {ds : List SiafundPoolDiff}
    (ran : ds.foldlM (commitSiafundPoolDiff · · dir) db = some db') :
    db' = { db with siafundPool := ds.foldl (fun _ d => poolAfter dir d) db.siafundPool } :=
  foldlM_set (·.siafundPool) (fun c db => { db with siafundPool := c }) (fun _ _ => rfl)
    (fun _ => rfl) (fun _ _ _ => rfl) _ (fun _ _ _ _ step => (commitSiafundPoolDiff_eq_some step).2.2.2)
    ran

variable [HashBytes H]

/-- The contracts move by the diffs' changes; only the expiration index moves besides. -/
theorem commitFileContractDiffs {ds : List (FileContractDiff H)}
    (ran : ds.foldlM (commitFileContractDiff · · dir) db = some db') :
    ∃ fcex, db' = { db with
      fileContracts := ds.foldl (fun m d => commitChange dir d.change m) db.fileContracts,
      fcex := fcex } := by
  obtain ⟨contracts, fcex, rfl⟩ := foldlM_rel
    (fun a b => ∃ contracts fcex, b = { a with fileContracts := contracts, fcex := fcex })
    (fun a => ⟨a.fileContracts, a.fcex, rfl⟩)
    (by
      rintro a b c ⟨contracts, fcex, rfl⟩ ⟨contracts', fcex', rfl⟩
      exact ⟨contracts', fcex', rfl⟩)
    (fun c d c' _ step => by
      obtain ⟨fcex, moved⟩ := commitFileContractDiff_eq_some step
      exact ⟨_, fcex, moved⟩) ran
  have moved := foldlM_map (·.fileContracts) (fun m d => commitChange dir d.change m)
    (fun c d c' _ step => by
      obtain ⟨fcex, rfl⟩ := commitFileContractDiff_eq_some step
      rfl) ran
  exact ⟨fcex, by rw [← moved]⟩

theorem commitFileContractDiffs_indexed {ds : List (FileContractDiff H)} (indexed : Indexed db)
    (ran : ds.foldlM (commitFileContractDiff · · dir) db = some db') : Indexed db' :=
  foldlM_invariant Indexed (fun _ _ _ _ holds step => commitFileContractDiff_indexed holds step)
    indexed ran

/-- Replaying a block's diffs redoes them on the view. -/
theorem commitNodeDiffs_apply {pb : ProcessedBlock H}
    (ran : commitNodeDiffs db pb .apply = some db') : db'.view = db.view.redoDiffs pb := by
  unfold commitNodeDiffs at ran
  obtain ⟨db1, siacoins, ran⟩ := Option.bind_eq_some_iff.mp ran
  obtain ⟨db2, contracts, ran⟩ := Option.bind_eq_some_iff.mp ran
  obtain ⟨db3, siafunds, ran⟩ := Option.bind_eq_some_iff.mp ran
  obtain ⟨db4, delayed, pool⟩ := Option.bind_eq_some_iff.mp ran
  obtain rfl := commitSiacoinOutputDiffs siacoins
  obtain ⟨fcex, rfl⟩ := commitFileContractDiffs contracts
  obtain rfl := commitSiafundOutputDiffs siafunds
  obtain rfl := commitDelayedSiacoinOutputDiffs delayed
  obtain rfl := commitSiafundPoolDiffs pool
  simp only [ConsensusDB.view, View.redoDiffs, foldl_commitChange_apply]
  -- the values and claims are projections of the redone buckets
  rw [← Change.foldl_redo_mapValues, ← Change.foldl_redo_mapValues, List.map_map, List.map_map]
  rfl

/-- Reverting a block's diffs undoes them, newest first, on the view. -/
theorem commitNodeDiffs_revert {pb : ProcessedBlock H}
    (ran : commitNodeDiffs db pb .revert = some db') : db'.view = db.view.undoDiffs pb := by
  unfold commitNodeDiffs at ran
  obtain ⟨db1, siacoins, ran⟩ := Option.bind_eq_some_iff.mp ran
  obtain ⟨db2, contracts, ran⟩ := Option.bind_eq_some_iff.mp ran
  obtain ⟨db3, siafunds, ran⟩ := Option.bind_eq_some_iff.mp ran
  obtain ⟨db4, delayed, pool⟩ := Option.bind_eq_some_iff.mp ran
  obtain rfl := commitSiacoinOutputDiffs siacoins
  obtain ⟨fcex, rfl⟩ := commitFileContractDiffs contracts
  obtain rfl := commitSiafundOutputDiffs siafunds
  obtain rfl := commitDelayedSiacoinOutputDiffs delayed
  obtain rfl := commitSiafundPoolDiffs pool
  simp only [ConsensusDB.view, View.undoDiffs, foldl_reverse_commitChange_revert]
  -- the pool is restored from the oldest diff
  simp only [List.foldl_reverse]
  rw [← Change.foldr_undo_mapValues, ← Change.foldr_undo_mapValues, List.map_map, List.map_map]
  rfl

theorem commitNodeDiffs_indexed {pb : ProcessedBlock H} (indexed : Indexed db)
    (ran : commitNodeDiffs db pb dir = some db') : Indexed db' := by
  unfold commitNodeDiffs at ran
  obtain ⟨db1, siacoins, ran⟩ := Option.bind_eq_some_iff.mp ran
  obtain ⟨db2, contracts, ran⟩ := Option.bind_eq_some_iff.mp ran
  obtain ⟨db3, siafunds, ran⟩ := Option.bind_eq_some_iff.mp ran
  obtain ⟨db4, delayed, pool⟩ := Option.bind_eq_some_iff.mp ran
  -- only the contract diffs touch the contracts or the index
  obtain rfl := commitSiacoinOutputDiffs siacoins
  have indexed2 := commitFileContractDiffs_indexed (by exact indexed) contracts
  obtain rfl := commitSiafundOutputDiffs siafunds
  obtain rfl := commitDelayedSiacoinOutputDiffs delayed
  obtain rfl := commitSiafundPoolDiffs pool
  exact indexed2

end Loops

/-! ### The Foundation update

Moving unspent subsidies to a new primary changes only their unlock hashes; on views, the
update is `foundationData`. -/

section Foundation

variable [DecidableEq H] {db db' : ConsensusDB H} (env : Env H)

/-- `db'` is `db` with only the unlock hashes of some unspent siacoin outputs changed. -/
def Readdressed (db db' : ConsensusDB H) : Prop :=
  ∃ outputs : Bucket H (SiacoinOutput H), db' = { db with siacoinOutputs := outputs } ∧
    outputs.mapValues (·.value) = db.siacoinOutputs.mapValues (·.value)

omit [DecidableEq H] in
theorem Readdressed.refl (db : ConsensusDB H) : Readdressed db db :=
  ⟨db.siacoinOutputs, rfl, rfl⟩

omit [DecidableEq H] in
theorem Readdressed.trans {db'' : ConsensusDB H} (first : Readdressed db db')
    (second : Readdressed db' db'') : Readdressed db db'' := by
  obtain ⟨outputs, rfl, same⟩ := first
  obtain ⟨outputs', rfl, same'⟩ := second
  exact ⟨outputs', rfl, same'.trans same⟩

omit [DecidableEq H] in
theorem Readdressed.view_eq (moved : Readdressed db db') : db'.view = db.view := by
  obtain ⟨outputs, rfl, same⟩ := moved
  simp only [ConsensusDB.view, same]

theorem transferFoundationOutput_readdressed {newPrimary : H} {height : ℕ}
    (ran : transferFoundationOutput env newPrimary db height = some db') : Readdressed db db' := by
  unfold transferFoundationOutput at ran
  cases path : getPath db height with
  | none => simp only [path, reduceCtorEq] at ran
  | some blockID =>
    simp only [path] at ran
    cases found : getSiacoinOutput db (env.foundationSubsidyID blockID) with
    | none =>
      simp only [found, Option.some.injEq] at ran
      subst ran
      exact .refl db
    | some sco =>
      simp only [found] at ran
      obtain ⟨mid, removed, added⟩ := Option.bind_eq_some_iff.mp ran
      obtain ⟨-, rfl⟩ := removeSiacoinOutput_eq_some.mp removed
      obtain ⟨-, rfl⟩ := addSiacoinOutput_eq_some.mp added
      refine ⟨_, rfl, ?_⟩
      -- the output goes back under its ID with its value
      rw [Finmap.insert_erase_eq]
      apply Finmap.ext_lookup
      intro x
      by_cases same : x = env.foundationSubsidyID blockID
      · subst same
        simp only [Finmap.lookup_mapValues, Finmap.lookup_insert, Option.map_some]
        rw [show db.siacoinOutputs.lookup _ = some sco from found, Option.map_some]
      · simp only [Finmap.lookup_mapValues, Finmap.lookup_insert_of_ne _ same]

theorem transferFoundationOutputs_readdressed {height : ℕ} {newPrimary : H}
    (ran : transferFoundationOutputs env db height newPrimary = some db') : Readdressed db db' :=
  foldlM_rel Readdressed Readdressed.refl Readdressed.trans
    (fun _ _ _ _ step => transferFoundationOutput_readdressed env step) ran

/-- `db'` is `db` with the Foundation state moved by `f`, and perhaps unspent outputs
re-addressed. -/
def FoundationMoved (f : FoundationState H → FoundationState H) (db db' : ConsensusDB H) : Prop :=
  db'.view = { db.view with foundation := f db.view.foundation } ∧
    db'.fileContracts = db.fileContracts ∧ db'.fcex = db.fcex

omit [DecidableEq H] in
/-- A loop whose steps each move the Foundation state moves it by the fold of their moves. -/
theorem foldlM_foundationMoved {α : Type} {step : ConsensusDB H → α → Option (ConsensusDB H)}
    (g : FoundationState H → α → FoundationState H)
    (each : ∀ a x b, step a x = some b → FoundationMoved (g · x) a b) :
    ∀ {xs : List α} {db db' : ConsensusDB H}, xs.foldlM step db = some db' →
      FoundationMoved (xs.foldl g ·) db db'
  | [], db, db', ran => by
    cases ran
    exact ⟨rfl, rfl, rfl⟩
  | x :: xs, db, db', ran => by
    rw [List.foldlM_cons] at ran
    obtain ⟨mid, first, rest⟩ := Option.bind_eq_some_iff.mp ran
    obtain ⟨viewed, contracts, index⟩ := each db x mid first
    obtain ⟨viewed', contracts', index'⟩ := foldlM_foundationMoved g each rest
    refine ⟨?_, contracts'.trans contracts, index'.trans index⟩
    rw [viewed', viewed]
    rfl

theorem applyFoundationData_moved {height : ℕ} {arb : List UInt8}
    (ran : applyFoundationData env height db arb = some db') :
    FoundationMoved (foundationData env height · arb) db db' := by
  unfold applyFoundationData at ran
  by_cases tagged : specifierFoundation.isPrefixOf arb
  · rw [if_pos tagged] at ran
    cases decoded : env.decodeFoundationUpdate (arb.drop 16) with
    | none => simp only [decoded, reduceCtorEq] at ran
    | some update =>
      simp only [decoded] at ran
      by_cases seen : height ∈ db.priorFoundationUnlockHashes
      · -- only the first update of a block is applied
        simp only [seen, if_true, Option.some.injEq] at ran
        subst ran
        refine ⟨?_, rfl, rfl⟩
        simp only [ConsensusDB.view, foundationData, tagged, if_true, decoded, seen]
      · simp only [seen, if_false] at ran
        obtain ⟨outputs, rfl, same⟩ := transferFoundationOutputs_readdressed env ran
        refine ⟨?_, rfl, rfl⟩
        simp only [ConsensusDB.view, foundationData, tagged, if_true, decoded, seen, if_false,
          setFoundationUnlockHashes, setPriorFoundationUnlockHashes, same]
  · rw [if_neg tagged, Option.some.injEq] at ran
    subst ran
    refine ⟨?_, rfl, rfl⟩
    simp only [ConsensusDB.view, foundationData, tagged, Bool.false_eq_true, if_false]

/-- A transaction's arbitrary data moves the Foundation state by `foundationTx`. -/
theorem applyArbitraryData_moved {pb : ProcessedBlock H} {t : Transaction H}
    (ran : applyArbitraryData env db pb t = some db') :
    FoundationMoved (foundationTx env pb.height · t) db db' := by
  unfold applyArbitraryData at ran
  by_cases early : pb.height < env.params.foundationHardforkHeight
  · rw [if_pos early, Option.some.injEq] at ran
    subst ran
    refine ⟨?_, rfl, rfl⟩
    simp only [foundationTx, early, if_true]
  · rw [if_neg early] at ran
    have moved := foldlM_foundationMoved (foundationData env pb.height)
      (fun _ _ _ step => applyFoundationData_moved env step) ran
    simpa only [FoundationMoved, foundationTx, early, if_false] using moved

end Foundation

/-! ### A whole block -/

section Block

variable [LinearOrder H] (env : Env H) {db db' : ConsensusDB H} {pb : ProcessedBlock H}
  {blockMap : Bucket H (ProcessedBlock H)}

theorem commitFoundationUpdate_apply (ran : commitFoundationUpdate env db pb .apply = some db') :
    FoundationMoved (foundationBlock env pb) db db' :=
  foldlM_foundationMoved (foundationTx env pb.height) (fun _ _ _ step => applyArbitraryData_moved env step)
    ran

theorem commitFoundationUpdate_revert (ran : commitFoundationUpdate env db pb .revert = some db') :
    FoundationMoved (foundationRevert pb.height) db db' := by
  unfold commitFoundationUpdate at ran
  cases prior : getPriorFoundationUnlockHashes db pb.height with
  | none =>
    simp only [prior, Option.some.injEq] at ran
    subst ran
    refine ⟨?_, rfl, rfl⟩
    simp only [getPriorFoundationUnlockHashes] at prior
    simp only [ConsensusDB.view, foundationRevert, prior]
  | some addresses =>
    simp only [prior] at ran
    obtain ⟨outputs, rfl, same⟩ := transferFoundationOutputs_readdressed env ran
    refine ⟨?_, rfl, rfl⟩
    simp only [getPriorFoundationUnlockHashes] at prior
    simp only [ConsensusDB.view, foundationRevert, prior, same, deletePriorFoundationUnlockHashes,
      setFoundationUnlockHashes]

variable [HashBytes H]

/-- The sanity checks pass, and the steps after them succeed. -/
theorem commitDiffSet_steps {dir : DiffDirection}
    (ran : commitDiffSet env db pb blockMap dir = some db') :
    commitDiffSetSanity env db pb blockMap dir = true ∧
      ∃ db1 db2 db3 db4, createUpcomingDelayedOutputMaps env db pb dir = some db1 ∧
        commitNodeDiffs db1 pb dir = some db2 ∧
        deleteObsoleteDelayedOutputMaps env db2 pb dir = some db3 ∧
        commitFoundationUpdate env db3 pb dir = some db4 ∧ db' = updateCurrentPath env db4 pb dir := by
  unfold commitDiffSet at ran
  cases sane : commitDiffSetSanity env db pb blockMap dir with
  | false =>
    simp only [sane, if_true] at ran
    cases ran
  | true =>
    simp only [sane, Bool.true_eq_false, if_false] at ran
    obtain ⟨db1, created, ran⟩ := Option.bind_eq_some_iff.mp ran
    obtain ⟨db2, committed, ran⟩ := Option.bind_eq_some_iff.mp ran
    obtain ⟨db3, deleted, ran⟩ := Option.bind_eq_some_iff.mp ran
    obtain ⟨db4, moved, ran⟩ := Option.bind_eq_some_iff.mp ran
    exact ⟨rfl, db1, db2, db3, db4, created, committed, deleted, moved, (Option.some.inj ran).symm⟩

omit [LinearOrder H] [HashBytes H] in
theorem view_pushPath (id : H) :
    (pushPath db id).view = { db.view with
      blockHeight := db.view.blockHeight + 1,
      blockPath := db.view.blockPath.insert (db.view.blockHeight + 1) id } := rfl

omit [LinearOrder H] [HashBytes H] in
theorem view_popPath :
    (popPath db).view = { db.view with
      blockHeight := db.view.blockHeight - 1,
      blockPath := db.view.blockPath.erase db.view.blockHeight } := rfl

/-- Replaying a block moves the view by `View.replay`. -/
theorem commitDiffSet_apply (ran : commitDiffSet env db pb blockMap .apply = some db') :
    db'.view = db.view.replay env pb := by
  obtain ⟨-, db1, db2, db3, db4, created, committed, deleted, moved, rfl⟩ :=
    commitDiffSet_steps env ran
  have opened : db1.view = { db.view with
      dscoBuckets := insert (pb.height + env.params.maturityDelay) db.view.dscoBuckets } := by
    obtain ⟨-, rfl⟩ := createDSCOBucket_eq_some.mp created
    rfl
  have redone : db2.view = db1.view.redoDiffs pb := commitNodeDiffs_apply committed
  have closed : db3.view = if env.params.maturityDelay ≤ pb.height then
      { db2.view with dscoBuckets := db2.view.dscoBuckets.erase pb.height,
                      dsco := db2.view.dsco.filterKeys (·.1 ≠ pb.height) }
    else db2.view := by
    unfold deleteObsoleteDelayedOutputMaps at deleted
    by_cases matured : env.params.maturityDelay ≤ pb.height
    · rw [if_pos matured] at deleted ⊢
      obtain ⟨-, rfl⟩ := deleteDSCOBucket_eq_some.mp deleted
      rfl
    · rw [if_neg matured] at deleted ⊢
      cases deleted
      rfl
  have updated := (commitFoundationUpdate_apply env moved).1
  show (pushPath db4 (env.blockID pb.block)).view = _
  rw [view_pushPath, updated, closed, redone, opened]
  rfl

/-- Reverting a block moves the view by `View.revert`. -/
theorem commitDiffSet_revert (ran : commitDiffSet env db pb blockMap .revert = some db') :
    db'.view = db.view.revert env pb := by
  obtain ⟨-, db1, db2, db3, db4, created, committed, deleted, moved, rfl⟩ :=
    commitDiffSet_steps env ran
  have reopened : db1.view = if env.params.maturityDelay ≤ pb.height then
      { db.view with dscoBuckets := insert pb.height db.view.dscoBuckets }
    else db.view := by
    unfold createUpcomingDelayedOutputMaps at created
    by_cases matured : env.params.maturityDelay ≤ pb.height
    · rw [if_pos (show pb.height ≥ env.params.maturityDelay from matured)] at created
      rw [if_pos matured]
      obtain ⟨-, rfl⟩ := createDSCOBucket_eq_some.mp created
      rfl
    · rw [if_neg (show ¬ pb.height ≥ env.params.maturityDelay from matured)] at created
      rw [if_neg matured]
      cases created
      rfl
  have undone : db2.view = db1.view.undoDiffs pb := commitNodeDiffs_revert committed
  have closed : db3.view = { db2.view with
      dscoBuckets := db2.view.dscoBuckets.erase (pb.height + env.params.maturityDelay),
      dsco := db2.view.dsco.filterKeys (·.1 ≠ pb.height + env.params.maturityDelay) } := by
    obtain ⟨-, rfl⟩ := deleteDSCOBucket_eq_some.mp deleted
    rfl
  have restored := (commitFoundationUpdate_revert env moved).1
  show (popPath db4).view = _
  rw [view_popPath, restored, closed, undone, reopened]
  rfl

theorem commitDiffSet_indexed {dir : DiffDirection} (indexed : Indexed db)
    (ran : commitDiffSet env db pb blockMap dir = some db') : Indexed db' := by
  obtain ⟨-, db1, db2, db3, db4, created, committed, deleted, moved, rfl⟩ :=
    commitDiffSet_steps env ran
  -- only the node diffs and the Foundation update touch contracts or the index
  have indexed1 : Indexed db1 := by
    unfold createUpcomingDelayedOutputMaps at created
    cases dir with
    | apply =>
      obtain ⟨-, rfl⟩ := createDSCOBucket_eq_some.mp created
      exact indexed
    | revert =>
      split_ifs at created
      · obtain ⟨-, rfl⟩ := createDSCOBucket_eq_some.mp created
        exact indexed
      · cases created
        exact indexed
  have indexed3 : Indexed db3 := by
    have indexed2 := commitNodeDiffs_indexed indexed1 committed
    unfold deleteObsoleteDelayedOutputMaps at deleted
    cases dir with
    | apply =>
      split_ifs at deleted
      · obtain ⟨-, rfl⟩ := deleteDSCOBucket_eq_some.mp deleted
        exact indexed2
      · cases deleted
        exact indexed2
    | revert =>
      obtain ⟨-, rfl⟩ := deleteDSCOBucket_eq_some.mp deleted
      exact indexed2
  have untouched : db4.fileContracts = db3.fileContracts ∧ db4.fcex = db3.fcex := by
    cases dir with
    | apply => exact (commitFoundationUpdate_apply env moved).2
    | revert => exact (commitFoundationUpdate_revert env moved).2
  cases dir <;>
  · show Indexed (updateCurrentPath env db4 pb _)
    simp only [Indexed, updateCurrentPath, pushPath, popPath, untouched.1, untouched.2]
    exact indexed3

end Block

end Sia.Consensus
