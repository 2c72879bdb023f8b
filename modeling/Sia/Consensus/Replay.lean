import Sia.Consensus.Generate

/-! Replaying and reverting a generated block. The diffs `generateAndApplyDiff` records are an
exact journal of what it changed, so on views `View.replay` of the state before the block
rebuilds the state after it, and `View.revert` of the state after it restores the state before
it. What the journal does not carry comes from the state's own bookkeeping: every delayed output
sits in an open bucket, and the block's height is new to the path and to the saved Foundation
addresses. -/
namespace Sia.Consensus

open Journal OptionLoop

variable {H : Type}

section Foundation

variable (env : Env H) {height : ℕ} {fs : FoundationState H}

/-- The Foundation state after some of a block's updates: unchanged, or with the addresses it
replaced saved once, at the block's height. -/
def SavedOnce (height : ℕ) (fs fs' : FoundationState H) : Prop :=
  fs' = fs ∨ ∃ addresses, fs' = (addresses, fs.2.insert height fs.1)

theorem savedOnce_foundationData (fresh : height ∉ fs.2) (fs' : FoundationState H)
    (arb : List UInt8) (saved : SavedOnce height fs fs') :
    SavedOnce height fs (foundationData env height fs' arb) := by
  unfold foundationData
  split
  · split
    · exact saved
    · split
      · exact saved
      · rename_i unsaved
        -- only the first update of the block saves; it finds the height unsaved
        rcases saved with rfl | ⟨addresses, rfl⟩
        · exact .inr ⟨_, rfl⟩
        · exact absurd (Finmap.mem_insert.mpr (.inl rfl)) unsaved
  · exact saved

theorem savedOnce_foundationTx (fresh : height ∉ fs.2) (fs' : FoundationState H)
    (t : Transaction H) (saved : SavedOnce height fs fs') :
    SavedOnce height fs (foundationTx env height fs' t) := by
  unfold foundationTx
  split
  · exact saved
  · exact foldl_invariant (SavedOnce height fs)
      (fun fs' arb => savedOnce_foundationData env fresh fs' arb) _ saved

theorem savedOnce_foundationBlock {pb : ProcessedBlock H} (fresh : pb.height ∉ fs.2) :
    SavedOnce pb.height fs (foundationBlock env pb fs) :=
  foldl_invariant (SavedOnce pb.height fs)
    (fun fs' t => savedOnce_foundationTx env fresh fs' t) _ (.inl rfl)

theorem foundationRevert_of_savedOnce {fs' : FoundationState H}
    (fresh : height ∉ fs.2) (saved : SavedOnce height fs fs') : foundationRevert height fs' = fs := by
  rcases saved with rfl | ⟨addresses, rfl⟩
  · simp only [foundationRevert, Finmap.lookup_eq_none.mpr fresh]
  · simp only [foundationRevert, Finmap.lookup_insert, Finmap.erase_insert_of_notMem _ fresh]

/-- Reverting a block restores the Foundation state its replay started from, provided no
addresses were saved at its height before. -/
theorem foundationRevert_foundationBlock {pb : ProcessedBlock H} (fresh : pb.height ∉ fs.2) :
    foundationRevert pb.height (foundationBlock env pb fs) = fs :=
  foundationRevert_of_savedOnce fresh (savedOnce_foundationBlock env fresh)

end Foundation

section Journal

variable [DecidableEq H] {f : FoundationState H → FoundationState H} {g : Finset ℕ → Finset ℕ}
  {db db' : ConsensusDB H} {parent pb : ProcessedBlock H} {b : Block H}

/-- A block recorded from scratch: its diff lists are exactly the journals of the step. -/
theorem Recorded.logged (recorded : Recorded f g (db, newChild parent b) (db', pb)) :
    Logged db.view.siacoinValues (pb.siacoinOutputDiffs.map (·.valueChange)) db'.view.siacoinValues ∧
      Logged db.fileContracts (pb.fileContractDiffs.map (·.change)) db'.fileContracts ∧
      Logged db.view.siafundClaims (pb.siafundOutputDiffs.map (·.claimChange))
        db'.view.siafundClaims ∧
      Logged db.dsco (pb.delayedSiacoinOutputDiffs.map (·.change)) db'.dsco ∧
      Overwrites (·.previous) (·.adjusted) db.siafundPool pb.siafundPoolDiffs db'.siafundPool := by
  obtain ⟨coins, coinsListed, coinsLogged⟩ := recorded.siacoins
  obtain ⟨contracts, contractsListed, contractsLogged⟩ := recorded.contracts
  obtain ⟨funds, fundsListed, fundsLogged⟩ := recorded.siafunds
  obtain ⟨delayed, delayedListed, delayedLogged⟩ := recorded.delayed
  obtain ⟨pool, poolListed, poolLogged⟩ := recorded.pool
  simp only [newChild, List.nil_append] at coinsListed contractsListed fundsListed
  simp only [newChild, List.nil_append] at delayedListed poolListed
  rw [coinsListed, contractsListed, fundsListed, delayedListed, poolListed]
  exact ⟨coinsLogged, contractsLogged, fundsLogged, delayedLogged, poolLogged⟩

/-- Redoing the diffs of a block recorded from scratch rebuilds every journaled part of the
view. -/
theorem Recorded.redoDiffs_eq (recorded : Recorded f g (db, newChild parent b) (db', pb)) :
    db.view.redoDiffs pb =
      { db'.view with foundation := db.view.foundation, dscoBuckets := db.view.dscoBuckets } := by
  obtain ⟨coins, contracts, funds, delayed, pool⟩ := recorded.logged
  obtain ⟨height, path⟩ := recorded.path
  apply View.ext
  · exact height.symm
  · exact path.symm
  · exact coins.redo_eq
  · exact contracts.redo_eq
  · exact funds.redo_eq
  · exact pool.redo_eq
  · rfl
  · rfl
  · exact delayed.redo_eq

/-- Undoing them, newest first, restores every journaled part of the view. -/
theorem Recorded.undoDiffs_eq (recorded : Recorded f g (db, newChild parent b) (db', pb)) :
    db'.view.undoDiffs pb =
      { db.view with foundation := db'.view.foundation, dscoBuckets := db'.view.dscoBuckets } := by
  obtain ⟨coins, contracts, funds, delayed, pool⟩ := recorded.logged
  obtain ⟨height, path⟩ := recorded.path
  apply View.ext
  · exact height
  · exact path
  · exact coins.undo_eq
  · exact contracts.undo_eq
  · exact funds.undo_eq
  · exact pool.undo_eq
  · rfl
  · rfl
  · exact delayed.undo_eq

end Journal

section Block

variable [LinearOrder H] [HashBytes H] (env : Env H) {db db' : ConsensusDB H}
  {parent pb : ProcessedBlock H} {b : Block H}

/-- Replaying a generated block from its diffs rebuilds the view generation produced. -/
theorem generateAndApplyDiff_replays (filed : DelayedFiled db)
    (ran : generateAndApplyDiff env db (newChild parent b) = some (.ok (db', pb))) :
    db'.view = db.view.replay env pb := by
  obtain ⟨db1, final, opened, recorded, -, -, rfl⟩ := generateAndApplyDiff_recorded env ran
  obtain ⟨-, rfl⟩ := createDSCOBucket_eq_some.mp opened
  have height : pb.height = parent.height + 1 := recorded.height
  have redone := recorded.redoDiffs_eq
  have buckets := recorded.buckets
  obtain ⟨bh, path⟩ := recorded.path
  dsimp only at buckets bh path
  rw [← height] at buckets
  show (pushPath final (env.blockID pb.block)).view = _
  rw [view_pushPath, View.replay_eq]
  apply View.ext
  · exact congrArg (· + 1) bh
  · show final.blockPath.insert (final.blockHeight + 1) _ = db.blockPath.insert (db.blockHeight + 1) _
    rw [bh, path]
  · exact (congrArg View.siacoinValues redone).symm
  · exact (congrArg View.fileContracts redone).symm
  · exact (congrArg View.siafundClaims redone).symm
  · exact (congrArg View.siafundPool redone).symm
  · exact recorded.foundation
  · exact buckets
  · have dsco : (db.view.redoDiffs pb).dsco = final.dsco := congrArg View.dsco redone
    change final.dsco = if env.params.maturityDelay ≤ pb.height
      then (db.view.redoDiffs pb).dsco.filterKeys (fun k => k.1 ≠ pb.height)
      else (db.view.redoDiffs pb).dsco
    rw [dsco]
    split
    · -- the bucket maturing at this height is closed, so no output is filed under it
      rename_i matured
      have filedFinal : DelayedFiled final :=
        recorded.filed fun k mem => Finset.mem_insert_of_mem (filed k mem)
      symm
      apply Finmap.filterKeys_eq_self
      intro k mem
      have filedHere : k.1 ∈ final.dscoBuckets := filedFinal k mem
      rw [buckets, if_pos matured] at filedHere
      exact Finset.ne_of_mem_erase filedHere
    · rfl

/-- Reverting a generated block from its diffs restores the view before it, when no output was
filed under the bucket the block opens, and the block's height was free on the path and among
the saved Foundation addresses. -/
theorem generateAndApplyDiff_reverts (filed : DelayedFiled db)
    (fresh : pb.height ∉ db.priorFoundationUnlockHashes)
    (unpathed : db.blockHeight + 1 ∉ db.blockPath)
    (ran : generateAndApplyDiff env db (newChild parent b) = some (.ok (db', pb))) :
    db'.view.revert env pb = db.view := by
  obtain ⟨db1, final, opened, recorded, found, -, rfl⟩ := generateAndApplyDiff_recorded env ran
  obtain ⟨unopened, rfl⟩ := createDSCOBucket_eq_some.mp opened
  have height : pb.height = parent.height + 1 := recorded.height
  have undone := recorded.undoDiffs_eq
  have buckets := recorded.buckets
  obtain ⟨bh, path⟩ := recorded.path
  dsimp only at buckets bh path found
  rw [← height] at buckets found unopened
  show (pushPath final (env.blockID pb.block)).view.revert env pb = _
  rw [view_pushPath, View.revert_eq]
  apply View.ext
  · exact bh
  · show (final.blockPath.insert (final.blockHeight + 1) _).erase (final.blockHeight + 1) = _
    rw [bh, path]
    exact Finmap.erase_insert_of_notMem _ unpathed
  · have coins := congrArg View.siacoinValues undone
    exact coins
  · have contracts := congrArg View.fileContracts undone
    exact contracts
  · have funds := congrArg View.siafundClaims undone
    exact funds
  · have pool := congrArg View.siafundPool undone
    exact pool
  · show foundationRevert pb.height final.view.foundation = db.view.foundation
    rw [recorded.foundation]
    exact foundationRevert_foundationBlock env fresh
  · -- the matured bucket reopens as it was, and the bucket the block opened closes
    show (if _ then insert pb.height final.dscoBuckets else final.dscoBuckets).erase _ = _
    rw [buckets]
    split
    · rename_i matured
      rw [Finset.insert_erase (found matured)]
      exact Finset.erase_insert unopened
    · exact Finset.erase_insert unopened
  · have dsco : (final.view.undoDiffs pb).dsco = db.dsco := congrArg View.dsco undone
    change (final.view.undoDiffs pb).dsco.filterKeys
      (fun k => k.1 ≠ pb.height + env.params.maturityDelay) = db.dsco
    rw [dsco]
    exact Finmap.filterKeys_eq_self fun k mem same => unopened (same ▸ filed k mem)

end Block

end Sia.Consensus
