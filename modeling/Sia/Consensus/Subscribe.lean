import Sia.Consensus.Fork

/-! `modules/consensus/subscribe.go`: what subscribers are sent. A change entry of the change log
names the blocks a fork reverted and the blocks it applied; `computeConsensusChange` sends each
block with its diffs, a reverted block's flipped and newest first, and appends them all into
one list per kind. A subscriber such as the wallet (`updateConfirmedSet`) puts the object an
apply diff names, deletes the one a revert diff names, and sets the pool from each pool diff.

The Foundation update re-addresses unspent subsidies with no diff. A subscriber that follows the
chain through the block carrying an update, after a subsidy matured, keeps the subsidy under
the old primary while the consensus set holds it under the new one. -/
namespace Sia.Consensus

open Journal

variable {H : Type}

/-- `modules.ConsensusChangeDiffs`. -/
structure ConsensusChangeDiffs (H : Type) where
  siacoinOutputDiffs : List (SiacoinOutputDiff H)
  fileContractDiffs : List (FileContractDiff H)
  siafundOutputDiffs : List (SiafundOutputDiff H)
  delayedSiacoinOutputDiffs : List (DelayedSiacoinOutputDiff H)
  siafundPoolDiffs : List SiafundPoolDiff

/-- `changeEntry`: the IDs of the blocks one fork reverted and applied. -/
structure ChangeEntry (H : Type) where
  revertedBlocks : List H
  appliedBlocks : List H

/-- `modules.ConsensusChange` without its ID, child target, timestamp and sync flag, which
no diff depends on. -/
structure ConsensusChange (H : Type) where
  revertedBlocks : List (Block H)
  appliedBlocks : List (Block H)
  revertedDiffs : List (ConsensusChangeDiffs H)
  appliedDiffs : List (ConsensusChangeDiffs H)
  diffs : ConsensusChangeDiffs H

/-- `!d.Direction`. -/
def DiffDirection.flip : DiffDirection → DiffDirection
  | .apply => .revert
  | .revert => .apply

/-- `computeConsensusChangeDiffs`: a block's diffs as stored when it is applied; flipped, each
list in reverse, when it is reverted (element `i` is written to `len - i - 1`). -/
def computeConsensusChangeDiffs (pb : ProcessedBlock H) (apply : Bool) : ConsensusChangeDiffs H :=
  if apply then
    ⟨pb.siacoinOutputDiffs, pb.fileContractDiffs, pb.siafundOutputDiffs,
      pb.delayedSiacoinOutputDiffs, pb.siafundPoolDiffs⟩
  else
    ⟨(pb.siacoinOutputDiffs.map fun d => { d with direction := d.direction.flip }).reverse,
      (pb.fileContractDiffs.map fun d => { d with direction := d.direction.flip }).reverse,
      (pb.siafundOutputDiffs.map fun d => { d with direction := d.direction.flip }).reverse,
      (pb.delayedSiacoinOutputDiffs.map fun d => { d with direction := d.direction.flip }).reverse,
      (pb.siafundPoolDiffs.map fun d => { d with direction := d.direction.flip }).reverse⟩

/-- `(*ConsensusChange).AppendDiffs`, on the diffs it extends. -/
def ConsensusChangeDiffs.appendDiffs (cc diffs : ConsensusChangeDiffs H) : ConsensusChangeDiffs H :=
  ⟨cc.siacoinOutputDiffs ++ diffs.siacoinOutputDiffs,
    cc.fileContractDiffs ++ diffs.fileContractDiffs,
    cc.siafundOutputDiffs ++ diffs.siafundOutputDiffs,
    cc.delayedSiacoinOutputDiffs ++ diffs.delayedSiacoinOutputDiffs,
    cc.siafundPoolDiffs ++ diffs.siafundPoolDiffs⟩

/-- One iteration of either loop of `computeConsensusChange`: the block and its diffs in the
direction the loop sends them, which also go to the end of the change's lists. -/
def ConsensusChange.addBlock (apply : Bool) (cc : ConsensusChange H) (pb : ProcessedBlock H) :
    ConsensusChange H :=
  let diffs := computeConsensusChangeDiffs pb apply
  if apply then
    { cc with appliedBlocks := cc.appliedBlocks ++ [pb.block],
              appliedDiffs := cc.appliedDiffs ++ [diffs], diffs := cc.diffs.appendDiffs diffs }
  else
    { cc with revertedBlocks := cc.revertedBlocks ++ [pb.block],
              revertedDiffs := cc.revertedDiffs ++ [diffs], diffs := cc.diffs.appendDiffs diffs }

/-- The change a subscriber has not been sent anything of. -/
def ConsensusChange.empty : ConsensusChange H := ⟨[], [], [], [], ⟨[], [], [], [], []⟩⟩

variable [DecidableEq H]

/-- `computeConsensusChange`: the reverted blocks, then the applied ones, each looked up in the
block map (a missing block is an error); the child target is read off the last applied block,
so an entry that applies nothing indexes out of range. -/
def computeConsensusChange (blockMap : Bucket H (ProcessedBlock H)) (ce : ChangeEntry H) :
    Option (ConsensusChange H) := do
  let cc ← ce.revertedBlocks.foldlM
    (fun cc id => (blockMap.lookup id).map (ConsensusChange.addBlock false cc)) .empty
  let cc ← ce.appliedBlocks.foldlM
    (fun cc id => (blockMap.lookup id).map (ConsensusChange.addBlock true cc)) cc
  match ce.appliedBlocks.getLast? with
  | none => none
  | some _ => pure cc

/-! ### What a subscriber rebuilds -/

/-- The consensus objects a subscriber keeps from the diffs it is sent. -/
structure SubscriberState (H : Type) where
  siacoinOutputs : Bucket H (SiacoinOutput H)
  fileContracts : Bucket H (FileContract H)
  siafundOutputs : Bucket H (SiafundOutput H)
  delayedSiacoinOutputs : Bucket (ℕ × H) (SiacoinOutput H)
  siafundPool : Currency

/-- The objects of a consensus state, as a subscriber keeps them. -/
def ConsensusDB.subscriberState (db : ConsensusDB H) : SubscriberState H :=
  ⟨db.siacoinOutputs, db.fileContracts, db.siafundOutputs, db.dsco, db.siafundPool⟩

/-- Every diff in order: an apply diff puts its object and a revert diff deletes it, and a pool
diff sets the pool to its adjusted value when applied and to its previous value when reverted,
as the wallet's `updateConfirmedSet` does for the outputs it owns. -/
def SubscriberState.processDiffs (s : SubscriberState H) (diffs : ConsensusChangeDiffs H) :
    SubscriberState H :=
  { siacoinOutputs := (diffs.siacoinOutputDiffs.map (·.change)).foldl Change.redo s.siacoinOutputs
    fileContracts := (diffs.fileContractDiffs.map (·.change)).foldl Change.redo s.fileContracts
    siafundOutputs := (diffs.siafundOutputDiffs.map (·.change)).foldl Change.redo s.siafundOutputs
    delayedSiacoinOutputs :=
      (diffs.delayedSiacoinOutputDiffs.map (·.change)).foldl Change.redo s.delayedSiacoinOutputs
    siafundPool := diffs.siafundPoolDiffs.foldl (fun _ d => poolAfter d.direction d) s.siafundPool }

/-- `ProcessConsensusChange` of a subscriber that keeps every object. -/
def SubscriberState.processConsensusChange (s : SubscriberState H) (cc : ConsensusChange H) :
    SubscriberState H :=
  s.processDiffs cc.diffs

/-! ### A Foundation update after a subsidy matured -/

/-- Block 54, carrying the update that moves the Foundation to the addresses 7 and 8. -/
def transferBlock : Block ℕ :=
  ⟨1053, Vector.replicate 8 0, 1054, [⟨calculateCoinbase testingParams 54, 2⟩], [foundationUpdate]⟩

set_option maxRecDepth 100000 in
theorem subscriber_keeps_transferred_subsidy :
    ∃ (cs cs' : ConsensusSet ℕ) (cc : ConsensusChange ℕ),
      Reachable testingEnv cs ∧ Step testingEnv cs cs' ∧ Reachable testingEnv cs' ∧
      currentBlockID cs.db = some transferBlock.parentID ∧
      currentBlockID cs'.db = some (testingEnv.blockID transferBlock) ∧
      computeConsensusChange cs'.blockMap ⟨[], [testingEnv.blockID transferBlock]⟩ = some cc ∧
      ((cs.db.subscriberState.processConsensusChange cc).siacoinOutputs.lookup
        (testingEnv.foundationSubsidyID (testingEnv.blockID (testingBlock 50)))).map
          (·.unlockHash) = some 2 ∧
      (cs'.db.siacoinOutputs.lookup
        (testingEnv.foundationSubsidyID (testingEnv.blockID (testingBlock 50)))).map
          (·.unlockHash) = some 7 := by
  -- The kernel runs the chain; as for the replay, only the scan of the bucket maturing at 53,
  -- which holds the payout of block 50 and the subsidy, needs the structural sort.
  have ran : ((createConsensusDB testingEnv).bind fun genesis =>
      (generateBlocks testingEnv genesis testingBlocks).bind fun before =>
      (generateBlock testingEnv before (testingBlock 53)).bind fun (cs, _) =>
      (generateBlock testingEnv cs transferBlock).bind fun (next, _) =>
      (computeConsensusChange next.blockMap ⟨[], [1054]⟩).map fun cc =>
        (currentBlockID cs.db, currentBlockID next.db,
          ((cs.db.subscriberState.processConsensusChange cc).siacoinOutputs.lookup 1120).map
            (·.unlockHash),
          (next.db.siacoinOutputs.lookup 1120).map (·.unlockHash))) =
      some (some 1053, some 1054, some 2, some 7) := by
    simp only [generateBlock, generateAndApplyDiff, applyMaintenance, applyMaturedSiacoinOutputs,
      dscoBucket, dscoBucketIDs, Finset.sort_eq_insertionSort]
    decide +kernel
  simp only [Option.bind_eq_some_iff] at ran
  obtain ⟨genesis, created, before, chained, ⟨cs, matured⟩, maturing, ⟨next, pb⟩, generated,
    changed⟩ := ran
  obtain ⟨cc, computed, read⟩ := Option.map_eq_some_iff.mp changed
  simp only [Prod.mk.injEq] at read
  obtain ⟨parentCurrent, current, kept, moved⟩ := read
  have reachable : Reachable testingEnv cs :=
    (reachable_generateBlocks (.genesis created) chained).step (generateBlock_step maturing)
  have stepped := generateBlock_step generated
  exact ⟨cs, next, cc, reachable, stepped, reachable.step stepped, parentCurrent, current,
    computed, kept, moved⟩

end Sia.Consensus
