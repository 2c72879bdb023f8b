import Sia.Lib.Journal
import Sia.Consensus.Diffs
import Sia.Consensus.Env

/-! What a revert or a replay must restore. Replaying a block reruns its Foundation update, and
re-addresses unspent Foundation subsidies, after its diffs; reverting it re-addresses them to the
old primary; and `getSiafundOutput` records the developer address in place of the last genesis
owner. Unlock hashes of unspent outputs are therefore not restored, and the view of a state keeps
everything else: values and claim starts of the outputs, and every other bucket whole, except
the expiration index, which is a function of the contracts (`Indexed`). On views, replaying a
block redoes its diffs as journal changes and reverting it undoes them. -/
namespace Sia.Consensus

open Journal

variable {H : Type}

/-- The Foundation's primary and failsafe addresses, with the addresses saved at each height
whose block changed them. -/
abbrev FoundationState (H : Type) := (H × H) × Bucket ℕ (H × H)

/-- The consensus state up to the unlock hashes of unspent outputs and the expiration index. -/
@[ext]
structure View (H : Type) where
  blockHeight : ℕ
  blockPath : Bucket ℕ H
  siacoinValues : Bucket H Currency
  fileContracts : Bucket H (FileContract H)
  siafundClaims : Bucket H (Currency × Currency)
  siafundPool : Currency
  foundation : FoundationState H
  dscoBuckets : Finset ℕ
  dsco : Bucket (ℕ × H) (SiacoinOutput H)

/-- What an unspent siafund output is worth to the pool: its siafunds and its claim start. -/
def siafundClaim (sfo : SiafundOutput H) : Currency × Currency := (sfo.value, sfo.claimStart)

def ConsensusDB.view (db : ConsensusDB H) : View H :=
  { blockHeight := db.blockHeight, blockPath := db.blockPath,
    siacoinValues := db.siacoinOutputs.mapValues (·.value), fileContracts := db.fileContracts,
    siafundClaims := db.siafundOutputs.mapValues siafundClaim, siafundPool := db.siafundPool,
    foundation := (db.foundationUnlockHashes, db.priorFoundationUnlockHashes),
    dscoBuckets := db.dscoBuckets, dsco := db.dsco }

variable [DecidableEq H]

/-! ### The expiration index -/

/-- The expiration entries a set of contracts calls for: one per contract, under its window
end. -/
def expirations (contracts : Bucket H (FileContract H)) : Finset (UInt64 × H) :=
  (contracts.entries.map fun e => (e.2.windowEnd, e.1)).toFinset

/-- The `fcex_h` buckets file exactly the stored contracts, each under its window end. -/
def Indexed (db : ConsensusDB H) : Prop := db.fcex = expirations db.fileContracts

theorem mem_expirations {contracts : Bucket H (FileContract H)} {w : UInt64} {id : H} :
    (w, id) ∈ expirations contracts ↔ ∃ fc, contracts.lookup id = some fc ∧ fc.windowEnd = w := by
  simp only [expirations, Multiset.mem_toFinset, Multiset.mem_map, Prod.mk.injEq]
  constructor
  · rintro ⟨⟨key, fc⟩, mem, rfl, rfl⟩
    exact ⟨fc, Finmap.mem_lookup_iff.mpr mem, rfl⟩
  · rintro ⟨fc, found, rfl⟩
    exact ⟨⟨id, fc⟩, Finmap.mem_lookup_iff.mp found, rfl, rfl⟩

theorem expirations_insert {contracts : Bucket H (FileContract H)} {id : H} {fc : FileContract H}
    (fresh : id ∉ contracts) :
    expirations (contracts.insert id fc) = insert (fc.windowEnd, id) (expirations contracts) := by
  ext ⟨w, key⟩
  simp only [Finset.mem_insert, mem_expirations, Prod.mk.injEq]
  by_cases same : key = id
  · subst same
    simp [Finmap.lookup_eq_none.mpr fresh, eq_comm]
  · simp [Finmap.lookup_insert_of_ne _ same, same]

theorem expirations_erase {contracts : Bucket H (FileContract H)} {id : H} {fc : FileContract H}
    (found : contracts.lookup id = some fc) :
    expirations (contracts.erase id) = (expirations contracts).erase (fc.windowEnd, id) := by
  ext ⟨w, key⟩
  simp only [Finset.mem_erase, mem_expirations, ne_eq, Prod.mk.injEq]
  by_cases same : key = id
  · subst same
    simp [found, eq_comm]
  · simp [Finmap.lookup_erase_ne same, same]

/-- Every delayed output sits in a bucket that exists. -/
def DelayedFiled (db : ConsensusDB H) : Prop := ∀ k ∈ db.dsco, k.1 ∈ db.dscoBuckets

/-! ### Diffs as changes of the view -/

/-- The change a siacoin output diff makes to the values of unspent outputs. -/
def SiacoinOutputDiff.valueChange (d : SiacoinOutputDiff H) : Change H Currency :=
  d.change.map (·.value)

/-- The change a siafund output diff makes to the claims of unspent siafund outputs. -/
def SiafundOutputDiff.claimChange (d : SiafundOutputDiff H) : Change H (Currency × Currency) :=
  d.change.map siafundClaim

variable (env : Env H)

/-- One arbitrary-data entry of a replayed block on the Foundation state; an entry that does not
decode leaves it, as the replay then panics anyway. -/
def foundationData (height : ℕ) (fs : FoundationState H) (arb : List UInt8) : FoundationState H :=
  if specifierFoundation.isPrefixOf arb then
    match env.decodeFoundationUpdate (arb.drop 16) with
    | none => fs
    | some update =>
      if height ∈ fs.2 then fs
      else ((update.newPrimary, update.newFailsafe), fs.2.insert height fs.1)
  else fs

/-- The Foundation state after the arbitrary data of one transaction of a block at `height`. -/
def foundationTx (height : ℕ) (fs : FoundationState H) (t : Transaction H) : FoundationState H :=
  if height < env.params.foundationHardforkHeight then fs
  else t.arbitraryData.foldl (foundationData env height) fs

/-- The Foundation state after the arbitrary data of a whole block. -/
def foundationBlock (pb : ProcessedBlock H) (fs : FoundationState H) : FoundationState H :=
  pb.block.transactions.foldl (foundationTx env pb.height) fs

/-- Reverting a block restores the addresses saved at its height, if it changed them. -/
def foundationRevert (height : ℕ) (fs : FoundationState H) : FoundationState H :=
  match fs.2.lookup height with
  | none => fs
  | some prior => (prior, fs.2.erase height)

namespace View

variable (pb : ProcessedBlock H) (v : View H)

/-- Every diff of the block redone, kind after kind, in recorded order. -/
def redoDiffs : View H :=
  { v with
    siacoinValues := (pb.siacoinOutputDiffs.map (·.valueChange)).foldl Change.redo v.siacoinValues,
    fileContracts := (pb.fileContractDiffs.map (·.change)).foldl Change.redo v.fileContracts,
    siafundClaims := (pb.siafundOutputDiffs.map (·.claimChange)).foldl Change.redo v.siafundClaims,
    dsco := (pb.delayedSiacoinOutputDiffs.map (·.change)).foldl Change.redo v.dsco,
    siafundPool := pb.siafundPoolDiffs.foldl (fun _ d => d.adjusted) v.siafundPool }

/-- Every diff of the block undone, newest first. -/
def undoDiffs : View H :=
  { v with
    siacoinValues := (pb.siacoinOutputDiffs.map (·.valueChange)).foldr Change.undo v.siacoinValues,
    fileContracts := (pb.fileContractDiffs.map (·.change)).foldr Change.undo v.fileContracts,
    siafundClaims := (pb.siafundOutputDiffs.map (·.claimChange)).foldr Change.undo v.siafundClaims,
    dsco := (pb.delayedSiacoinOutputDiffs.map (·.change)).foldr Change.undo v.dsco,
    siafundPool := pb.siafundPoolDiffs.foldr (fun d _ => d.previous) v.siafundPool }

/-- The view `commitDiffSet` produces when it replays the block. -/
def replay : View H :=
  let v := { v with dscoBuckets := insert (pb.height + env.params.maturityDelay) v.dscoBuckets }
  let v := v.redoDiffs pb
  let v := if env.params.maturityDelay ≤ pb.height then
      { v with dscoBuckets := v.dscoBuckets.erase pb.height,
               dsco := v.dsco.filterKeys (·.1 ≠ pb.height) }
    else v
  { v with foundation := foundationBlock env pb v.foundation,
           blockHeight := v.blockHeight + 1,
           blockPath := v.blockPath.insert (v.blockHeight + 1) (env.blockID pb.block) }

/-- The view `commitDiffSet` produces when it reverts the block. -/
def revert : View H :=
  let v := if env.params.maturityDelay ≤ pb.height then
      { v with dscoBuckets := insert pb.height v.dscoBuckets }
    else v
  let v := v.undoDiffs pb
  let v := { v with dscoBuckets := v.dscoBuckets.erase (pb.height + env.params.maturityDelay),
                    dsco := v.dsco.filterKeys (·.1 ≠ pb.height + env.params.maturityDelay) }
  { v with foundation := foundationRevert pb.height v.foundation,
           blockHeight := v.blockHeight - 1,
           blockPath := v.blockPath.erase v.blockHeight }

/-- Replay field by field: the diffs move the journaled fields, and the buckets, the Foundation
state and the path move as the block's height says. -/
theorem replay_eq : v.replay env pb =
    { v.redoDiffs pb with
      blockHeight := v.blockHeight + 1
      blockPath := v.blockPath.insert (v.blockHeight + 1) (env.blockID pb.block)
      foundation := foundationBlock env pb v.foundation
      dscoBuckets := if env.params.maturityDelay ≤ pb.height
        then (insert (pb.height + env.params.maturityDelay) v.dscoBuckets).erase pb.height
        else insert (pb.height + env.params.maturityDelay) v.dscoBuckets
      dsco := if env.params.maturityDelay ≤ pb.height
        then (v.redoDiffs pb).dsco.filterKeys (·.1 ≠ pb.height) else (v.redoDiffs pb).dsco } := by
  unfold replay
  split <;> rfl

/-- Revert field by field. -/
theorem revert_eq : v.revert env pb =
    { v.undoDiffs pb with
      blockHeight := v.blockHeight - 1
      blockPath := v.blockPath.erase v.blockHeight
      foundation := foundationRevert pb.height v.foundation
      dscoBuckets := (if env.params.maturityDelay ≤ pb.height then insert pb.height v.dscoBuckets
        else v.dscoBuckets).erase (pb.height + env.params.maturityDelay)
      dsco := (v.undoDiffs pb).dsco.filterKeys (·.1 ≠ pb.height + env.params.maturityDelay) } := by
  unfold revert
  split <;> rfl

end View

end Sia.Consensus
