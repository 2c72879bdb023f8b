import Sia.Lib.Journal
import Sia.Consensus.Store

/-! The diff records of `modules/consensus.go`, their commit functions from
`modules/consensus/diffs.go`, and the processed block that stores a block's diffs. A diff's own
direction says whether applying the block adds or removes the object; committing it in a
direction adds when the two agree and removes otherwise. Each diff is also read as a journal
change on its bucket, so a list of them can be replayed and undone. -/
namespace Sia.Consensus

structure SiacoinOutputDiff (H : Type) where
  direction : DiffDirection
  id : H
  siacoinOutput : SiacoinOutput H
  deriving DecidableEq, Repr

structure FileContractDiff (H : Type) where
  direction : DiffDirection
  id : H
  fileContract : FileContract H
  deriving DecidableEq, Repr

structure SiafundOutputDiff (H : Type) where
  direction : DiffDirection
  id : H
  siafundOutput : SiafundOutput H
  deriving DecidableEq, Repr

structure DelayedSiacoinOutputDiff (H : Type) where
  direction : DiffDirection
  id : H
  siacoinOutput : SiacoinOutput H
  maturityHeight : ℕ
  deriving DecidableEq, Repr

structure SiafundPoolDiff where
  direction : DiffDirection
  previous : Currency
  adjusted : Currency
  deriving DecidableEq, Repr

/-- `processedBlock`: a block with its height and the diffs generated when it was first
applied. Depth, child target and checksum are bookkeeping of other subsystems. -/
structure ProcessedBlock (H : Type) where
  block : Block H
  height : ℕ
  diffsGenerated : Bool
  siacoinOutputDiffs : List (SiacoinOutputDiff H)
  fileContractDiffs : List (FileContractDiff H)
  siafundOutputDiffs : List (SiafundOutputDiff H)
  delayedSiacoinOutputDiffs : List (DelayedSiacoinOutputDiff H)
  siafundPoolDiffs : List SiafundPoolDiff

variable {H : Type} [DecidableEq H]

open Journal

/-- The journal change a diff stands for when its block is applied. -/
def journalChange {K V : Type} (direction : DiffDirection) (key : K) (value : V) : Change K V :=
  match direction with
  | .apply => .put key value
  | .revert => .delete key value

def SiacoinOutputDiff.change (d : SiacoinOutputDiff H) : Change H (SiacoinOutput H) :=
  journalChange d.direction d.id d.siacoinOutput

def FileContractDiff.change (d : FileContractDiff H) : Change H (FileContract H) :=
  journalChange d.direction d.id d.fileContract

def SiafundOutputDiff.change (d : SiafundOutputDiff H) : Change H (SiafundOutput H) :=
  journalChange d.direction d.id d.siafundOutput

def DelayedSiacoinOutputDiff.change (d : DelayedSiacoinOutputDiff H) :
    Change (ℕ × H) (SiacoinOutput H) :=
  journalChange d.direction (d.maturityHeight, d.id) d.siacoinOutput

section Commit

variable (db : ConsensusDB H)

def commitSiacoinOutputDiff (scod : SiacoinOutputDiff H) (dir : DiffDirection) :
    Option (ConsensusDB H) :=
  if scod.direction = dir then addSiacoinOutput db scod.id scod.siacoinOutput
  else removeSiacoinOutput db scod.id

def commitFileContractDiff [HashBytes H] (fcd : FileContractDiff H) (dir : DiffDirection) :
    Option (ConsensusDB H) :=
  if fcd.direction = dir then addFileContract db fcd.id fcd.fileContract
  else removeFileContract db fcd.id

def commitSiafundOutputDiff (sfod : SiafundOutputDiff H) (dir : DiffDirection) :
    Option (ConsensusDB H) :=
  if sfod.direction = dir then addSiafundOutput db sfod.id sfod.siafundOutput
  else removeSiafundOutput db sfod.id

def commitDelayedSiacoinOutputDiff (dscod : DelayedSiacoinOutputDiff H) (dir : DiffDirection) :
    Option (ConsensusDB H) :=
  if dscod.direction = dir then addDSCO db dscod.maturityHeight dscod.id dscod.siacoinOutput
  else removeDSCO db dscod.maturityHeight dscod.id

/-- The pool only ever grows, pool diffs are always recorded in the apply direction, and the
pool must hold the value the diff starts from. -/
def commitSiafundPoolDiff (sfpd : SiafundPoolDiff) (dir : DiffDirection) :
    Option (ConsensusDB H) :=
  if sfpd.adjusted < sfpd.previous then none
  else if sfpd.direction ≠ .apply then none
  else match dir with
    | .apply => if db.siafundPool = sfpd.previous then some (setSiafundPool db sfpd.adjusted) else none
    | .revert => if db.siafundPool = sfpd.adjusted then some (setSiafundPool db sfpd.previous) else none

/-- `commitNodeDiffs`: each kind of diff in turn, in recorded order when applying and newest
first when reverting. -/
def commitNodeDiffs [HashBytes H] (pb : ProcessedBlock H) (dir : DiffDirection) :
    Option (ConsensusDB H) :=
  let order {α : Type} (xs : List α) := match dir with
    | .apply => xs
    | .revert => xs.reverse
  do
    let db ← (order pb.siacoinOutputDiffs).foldlM (commitSiacoinOutputDiff · · dir) db
    let db ← (order pb.fileContractDiffs).foldlM (commitFileContractDiff · · dir) db
    let db ← (order pb.siafundOutputDiffs).foldlM (commitSiafundOutputDiff · · dir) db
    let db ← (order pb.delayedSiacoinOutputDiffs).foldlM (commitDelayedSiacoinOutputDiff · · dir) db
    (order pb.siafundPoolDiffs).foldlM (commitSiafundPoolDiff · · dir) db

end Commit

end Sia.Consensus
