import Sia.Consensus.ApplyTransaction
import Mathlib.Data.Finset.Sort

/-! `modules/consensus/maintenance.go`: what a block does besides its transactions. Miner
payouts and the Foundation subsidy become delayed outputs, the delayed outputs of this height
mature, and contracts whose window ends here without a proof pay their missed outputs. Scans of
a bolt bucket visit keys in order, so the model lists a bucket's IDs sorted by the order on `H`;
every scan reads the state before anything is committed, as the source collects first. -/
namespace Sia.Consensus

variable {H : Type} [LinearOrder H] [HashBytes H] (env : Env H)

/-- The IDs in the delayed-output bucket of `height`, in key order. -/
def dscoBucketIDs (db : ConsensusDB H) (height : ℕ) : List H :=
  ((db.dsco.keys.filter (·.1 = height)).image Prod.snd).sort

/-- The entries of the delayed-output bucket of `height`, as its `ForEach` visits them. -/
def dscoBucket (db : ConsensusDB H) (height : ℕ) : List (H × SiacoinOutput H) :=
  (dscoBucketIDs db height).filterMap fun id => (db.dsco.lookup (height, id)).map (id, ·)

/-- The contracts filed in the expiration bucket of `height`, in key order. -/
def expiringContracts (db : ConsensusDB H) (height : ℕ) : List H :=
  ((db.fcex.filter (·.1.toNat = height)).image Prod.snd).sort

def applyMinerPayouts (s : ConsensusDB H × ProcessedBlock H) :
    Option (ConsensusDB H × ProcessedBlock H) :=
  let pb := s.2
  pb.block.minerPayouts.zipIdx.foldlM
    (fun s (mp, i) => recordDelayedSiacoinOutputDiff s
      ⟨.apply, env.minerPayoutID (env.blockID pb.block) i, mp,
        pb.height + env.params.maturityDelay⟩) s

/-- Every `FoundationSubsidyFrequency` blocks from the hardfork on, a subsidy to the current
primary address; the first one is the larger initial subsidy. -/
def applyFoundationSubsidy (s : ConsensusDB H × ProcessedBlock H) :
    Option (ConsensusDB H × ProcessedBlock H) :=
  let p := env.params
  let pb := s.2
  if pb.height < p.foundationHardforkHeight then some s
  else if (pb.height - p.foundationHardforkHeight) % p.foundationSubsidyFrequency ≠ 0 then some s
  else
    let value := if pb.height = p.foundationHardforkHeight then initialFoundationSubsidy
      else foundationSubsidyPerBlock * p.foundationSubsidyFrequency
    recordDelayedSiacoinOutputDiff s
      ⟨.apply, env.foundationSubsidyID (env.blockID pb.block), ⟨value, s.1.foundationUnlockHashes.1⟩,
        pb.height + p.maturityDelay⟩

/-- The outputs maturing at this height move from their delayed bucket to the spendable set,
and the emptied bucket is deleted. Scanning a bucket that does not exist dereferences nil; an
output already spendable is a DEBUG panic. -/
def applyMaturedSiacoinOutputs (s : ConsensusDB H × ProcessedBlock H) :
    Option (ConsensusDB H × ProcessedBlock H) :=
  let pb := s.2
  if pb.height < env.params.maturityDelay then some s
  else if pb.height ∉ s.1.dscoBuckets then none
  else
    let entries := dscoBucket s.1 pb.height
    if entries.any fun e => decide (e.1 ∈ s.1.siacoinOutputs) then none
    else do
      let s ← (entries.map fun (id, sco) => (⟨.apply, id, sco⟩ : SiacoinOutputDiff H)).foldlM
        recordSiacoinOutputDiff s
      let s ← (entries.map fun (id, sco) => (⟨.revert, id, sco, pb.height⟩ :
        DelayedSiacoinOutputDiff H)).foldlM recordDelayedSiacoinOutputDiff s
      let db ← deleteDSCOBucket s.1 pb.height
      pure (db, s.2)

/-- The diffs of one contract whose window ends at this height without a proof: its missed
proof outputs as delayed outputs, and its removal. -/
def applyMissedStorageProof (db : ConsensusDB H) (pb : ProcessedBlock H) (fcid : H) :
    Option (List (DelayedSiacoinOutputDiff H) × FileContractDiff H) := do
  let fc ← getFileContract db fcid
  if fc.windowEnd.toNat ≠ pb.height then none
  let dscods ← fc.missedProofOutputs.zipIdx.mapM fun (mpo, i) =>
    let spoid := env.storageProofOutputID fcid false i
    if spoid ∈ db.siacoinOutputs then none
    else some ⟨.apply, spoid, mpo, pb.height + env.params.maturityDelay⟩
  pure (dscods, ⟨.revert, fcid, fc⟩)

/-- Every contract filed under this height expires: all missed outputs are committed first,
then all removals, then the expiration bucket goes. A bucket that was never created and one
that is empty behave alike, so expiration buckets are only the set of their entries. -/
def applyFileContractMaintenance (s : ConsensusDB H × ProcessedBlock H) :
    Option (ConsensusDB H × ProcessedBlock H) := do
  let pb := s.2
  let results ← (expiringContracts s.1 pb.height).mapM (applyMissedStorageProof env s.1 pb)
  let s ← (results.flatMap (·.1)).foldlM recordDelayedSiacoinOutputDiff s
  let s ← (results.map (·.2)).foldlM recordFileContractDiff s
  pure ({ s.1 with fcex := s.1.fcex.filter (·.1.toNat ≠ pb.height) }, s.2)

def applyMaintenance (s : ConsensusDB H × ProcessedBlock H) :
    Option (ConsensusDB H × ProcessedBlock H) := do
  let s ← applyMinerPayouts env s
  let s ← applyFoundationSubsidy env s
  let s ← applyMaturedSiacoinOutputs env s
  applyFileContractMaintenance env s

end Sia.Consensus
