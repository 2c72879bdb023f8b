import Sia.Consensus.DiffSet

/-! The consensus set as a transition system. Its state is the consensus buckets and the block
map of blocks whose diffs have been generated. `createConsensusDB` builds the genesis state;
after that the state moves one block at a time, as `forkBlockchain` does: the current block is
reverted from its diffs, a generated child of the current block is replayed from its diffs, or
a new child is validated and applied by `generateAndApplyDiff`. A fork is any sequence of these
steps, so an invariant of every step holds across any reorganisation. Header checks other than
`checkMinerPayouts` (work, timestamps, size) only decide which blocks arrive; the model lets
every block arrive. -/
namespace Sia.Consensus

structure ConsensusSet (H : Type) where
  db : ConsensusDB H
  /-- The `BlockMap` bucket, holding the processed blocks whose diffs have been generated. -/
  blockMap : Bucket H (ProcessedBlock H)

variable {H : Type} [LinearOrder H] [HashBytes H] (env : Env H)

/-- The genesis transaction: the siafund allocation and nothing else. -/
def genesisTransaction : Transaction H :=
  { siacoinInputs := [], siacoinOutputs := [], fileContracts := [], fileContractRevisions := [],
    storageProofs := [], siafundInputs := [], siafundOutputs := env.params.genesisSiafundAllocation,
    minerFees := [], arbitraryData := [], transactionSignatures := [] }

/-- `types.GenesisBlock`. -/
def genesisBlock : Block H :=
  { parentID := env.zeroHash, nonce := Vector.replicate 8 0, timestamp := env.genesisTimestamp,
    minerPayouts := [], transactions := [genesisTransaction env] }

/-- `cs.blockRoot`: the genesis block with the diffs of its siafund outputs. -/
def blockRoot : ProcessedBlock H :=
  { block := genesisBlock env, height := 0, diffsGenerated := true, siacoinOutputDiffs := [],
    fileContractDiffs := [],
    siafundOutputDiffs := (genesisTransaction env).siafundOutputs.zipIdx.map fun (sfo, i) =>
      ⟨.apply, env.siafundOutputID (genesisTransaction env) i, sfo⟩,
    delayedSiacoinOutputDiffs := [], siafundPoolDiffs := [] }

/-- The buckets before anything is written. The source stores height `-1` so that pushing the
genesis block lands at height 0; the model starts the path with the genesis block. The
Foundation addresses start as the release's initial ones. -/
def emptyConsensusDB : ConsensusDB H :=
  { blockHeight := 0, blockPath := {}, siacoinOutputs := {}, fileContracts := {},
    siafundOutputs := {}, siafundPool := 0,
    foundationUnlockHashes :=
      (env.params.initialFoundationUnlockHash, env.params.initialFoundationFailsafeUnlockHash),
    priorFoundationUnlockHashes := {}, dscoBuckets := ∅, dsco := {}, fcex := ∅ }

/-- `createConsensusDB`: the genesis outputs, the genesis miner payout as an unspendable delayed
output, and the genesis block on the path and in the block map. -/
def createConsensusDB : Option (ConsensusSet H) := do
  let root := blockRoot env
  let db := emptyConsensusDB env
  let db ← root.siacoinOutputDiffs.foldlM (commitSiacoinOutputDiff · · .apply) db
  let db ← root.siafundOutputDiffs.foldlM (commitSiafundOutputDiff · · .apply) db
  let db ← createDSCOBucket db env.params.maturityDelay
  let db ← addDSCO db env.params.maturityDelay
    (env.minerPayoutID (env.blockID root.block) 0) ⟨calculateCoinbase env.params 0, env.zeroHash⟩
  let genesisID := env.blockID root.block
  pure ⟨{ db with blockPath := db.blockPath.insert 0 genesisID }, Finmap.singleton genesisID root⟩

/-- `newChild`: the processed block of `b` on top of `parent`, with no diffs yet. -/
def newChild (parent : ProcessedBlock H) (b : Block H) : ProcessedBlock H :=
  { block := b, height := parent.height + 1, diffsGenerated := false, siacoinOutputDiffs := [],
    fileContractDiffs := [], siafundOutputDiffs := [], delayedSiacoinOutputDiffs := [],
    siafundPoolDiffs := [] }

/-- One block of a fork. A step that panics or returns an error is rolled back with the bolt
transaction, so it is no step. -/
inductive Step : ConsensusSet H → ConsensusSet H → Prop
  /-- `revertToBlock`: the current block goes; the genesis block never does. -/
  | revert {cs : ConsensusSet H} {id : H} {pb : ProcessedBlock H} {db : ConsensusDB H} :
      currentBlockID cs.db = some id → cs.blockMap.lookup id = some pb → 0 < cs.db.blockHeight →
      commitDiffSet env cs.db pb cs.blockMap .revert = some db → Step cs ⟨db, cs.blockMap⟩
  /-- `applyUntilBlock` on a block whose diffs were generated before. -/
  | replay {cs : ConsensusSet H} {id : H} {pb : ProcessedBlock H} {db : ConsensusDB H} :
      cs.blockMap.lookup id = some pb →
      commitDiffSet env cs.db pb cs.blockMap .apply = some db → Step cs ⟨db, cs.blockMap⟩
  /-- `applyUntilBlock` on a new child of the current block that passes the block rules. -/
  | generate {cs : ConsensusSet H} {b : Block H} {parent pb : ProcessedBlock H}
      {db : ConsensusDB H} :
      env.blockID b ∉ cs.blockMap → cs.blockMap.lookup b.parentID = some parent →
      checkMinerPayouts env.params b (parent.height + 1) = true →
      generateAndApplyDiff env cs.db (newChild parent b) = some (.ok (db, pb)) →
      Step cs ⟨db, cs.blockMap.insert (env.blockID b) pb⟩

/-- The states the consensus set reaches from genesis. -/
inductive Reachable : ConsensusSet H → Prop
  | genesis {cs : ConsensusSet H} : createConsensusDB env = some cs → Reachable cs
  | step {cs cs' : ConsensusSet H} : Reachable cs → Step env cs cs' → Reachable cs'

end Sia.Consensus
