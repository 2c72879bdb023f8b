import Sia.Consensus.Maintenance
import Sia.Consensus.ValidTransaction

/-! The block-level functions of `modules/consensus/diffs.go`: `generateAndApplyDiff`, which
validates and applies a block for the first time and records its diffs, and `commitDiffSet`,
which replays or reverts a block from the recorded diffs. Both move the delayed-output buckets
and the current path; the Foundation update, which has no diffs, is redone by rerunning
`applyArbitraryData` on the block's transactions, and undone from the saved prior addresses. -/
namespace Sia.Consensus

variable {H : Type} [LinearOrder H] [HashBytes H] (env : Env H)

section Commit

variable (db : ConsensusDB H) (pb : ProcessedBlock H)

/-- Applying a block opens the bucket for the outputs it delays; reverting it reopens the bucket
its maturing outputs came from. -/
def createUpcomingDelayedOutputMaps (dir : DiffDirection) : Option (ConsensusDB H) :=
  match dir with
  | .apply => createDSCOBucket db (pb.height + env.params.maturityDelay)
  | .revert =>
    if pb.height ≥ env.params.maturityDelay then createDSCOBucket db pb.height else some db

/-- Applying a block closes the bucket that matured at its height; reverting it closes the bucket
it opened. -/
def deleteObsoleteDelayedOutputMaps (dir : DiffDirection) : Option (ConsensusDB H) :=
  match dir with
  | .apply =>
    if pb.height ≥ env.params.maturityDelay then deleteDSCOBucket db pb.height else some db
  | .revert => deleteDSCOBucket db (pb.height + env.params.maturityDelay)

def updateCurrentPath (dir : DiffDirection) : ConsensusDB H :=
  match dir with
  | .apply => pushPath db (env.blockID pb.block)
  | .revert => popPath db

/-- Replaying reruns the block's arbitrary data; reverting restores the addresses saved at this
height, if the block changed them, and moves the unspent subsidies back to the old primary. -/
def commitFoundationUpdate (dir : DiffDirection) : Option (ConsensusDB H) :=
  match dir with
  | .apply => pb.block.transactions.foldlM (fun db t => applyArbitraryData env db pb t) db
  | .revert =>
    match getPriorFoundationUnlockHashes db pb.height with
    | none => some db
    | some (primary, failsafe) =>
      let db := deletePriorFoundationUnlockHashes (setFoundationUnlockHashes db primary failsafe)
        pb.height
      transferFoundationOutputs env db pb.height primary

/-- The DEBUG checks of `commitDiffSetSanity`: the diffs exist, and the block is the child of the
current block when applying and the current block when reverting. -/
def commitDiffSetSanity (blockMap : Bucket H (ProcessedBlock H)) (dir : DiffDirection) : Bool :=
  pb.diffsGenerated &&
    match dir with
    | .apply =>
      match blockMap.lookup pb.block.parentID with
      | none => false
      | some parent => currentBlockID db = some (env.blockID parent.block)
    | .revert => currentBlockID db = some (env.blockID pb.block)

def commitDiffSet (blockMap : Bucket H (ProcessedBlock H)) (dir : DiffDirection) :
    Option (ConsensusDB H) := do
  if commitDiffSetSanity env db pb blockMap dir = false then none
  let db ← createUpcomingDelayedOutputMaps env db pb dir
  let db ← commitNodeDiffs db pb dir
  let db ← deleteObsoleteDelayedOutputMaps env db pb dir
  let db ← commitFoundationUpdate env db pb dir
  pure (updateCurrentPath env db pb dir)

end Commit

/-- The loop of `generateAndApplyDiff` over the block's transactions: each is validated against
the state the previous ones left, and the first invalid one stops the block. The outer `Option`
is a panic, the inner `Except` the error returned. -/
def applyTransactions (s : ConsensusDB H × ProcessedBlock H) :
    List (Transaction H) → Option (Except TransactionError (ConsensusDB H × ProcessedBlock H))
  | [] => some (.ok s)
  | t :: rest =>
    match validTransaction env s.1 t with
    | .error e => some (.error e)
    | .ok () =>
      match applyTransaction env s t with
      | none => none
      | some s => applyTransactions s rest

/-- Validates and applies a block on top of the current block, recording every diff. -/
def generateAndApplyDiff (db : ConsensusDB H) (pb : ProcessedBlock H) :
    Option (Except TransactionError (ConsensusDB H × ProcessedBlock H)) :=
  if currentBlockID db ≠ some pb.block.parentID then none
  else
    match createDSCOBucket db (pb.height + env.params.maturityDelay) with
    | none => none
    | some db =>
      match applyTransactions env (db, pb) pb.block.transactions with
      | none => none
      | some (.error e) => some (.error e)
      | some (.ok s) =>
        (applyMaintenance env s).map fun (db, pb) =>
          let pb := { pb with diffsGenerated := true }
          .ok (updateCurrentPath env db pb .apply, pb)

end Sia.Consensus
