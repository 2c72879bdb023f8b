import Sia.Consensus.Subscribe

/-! The history half of `modules/wallet/update.go`: the processed transactions the wallet records
for the blocks a consensus change applies, and removes again for the blocks it reverts. The wallet
does not read the outputs consensus creates: it recomputes them from each block, from the outputs
the change's diffs spend and from the siafund pool it keeps, so each recorded output is compared
below with the one consensus records. Which addresses are the wallet's, transaction IDs and the
genesis block's ID are parameters. -/
namespace Sia.Wallet

open Consensus

/-- The `types.Specifier` of a processed input's or output's fund type. -/
inductive FundType where
  | minerPayout
  | minerFee
  | siacoinInput
  | siacoinOutput
  | siafundInput
  | siafundOutput
  | claimOutput
  deriving DecidableEq, Repr

/-- `modules.ProcessedInput` -/
structure ProcessedInput (H : Type) where
  parentID : H
  fundType : FundType
  walletAddress : Bool
  relatedAddress : H
  value : Currency
  deriving DecidableEq, Repr

/-- `modules.ProcessedOutput` -/
structure ProcessedOutput (H : Type) where
  id : H
  fundType : FundType
  maturityHeight : ℕ
  walletAddress : Bool
  relatedAddress : H
  value : Currency
  deriving DecidableEq, Repr

/-- `modules.ProcessedTransaction` -/
structure ProcessedTransaction (H : Type) where
  transaction : Transaction H
  transactionID : H
  confirmationHeight : ℕ
  confirmationTimestamp : UInt64
  inputs : List (ProcessedInput H)
  outputs : List (ProcessedOutput H)
  deriving DecidableEq, Repr

/-- `types.Transaction{}`, the transaction of a miner-payout record. -/
def emptyTransaction {H : Type} : Transaction H := ⟨[], [], [], [], [], [], [], [], [], []⟩

/-- The wallet's buckets that the history code reads and writes. The siafund pool is always
stored: the wallet writes zero when it creates or loads a database without one. -/
structure WalletDB (H : Type) where
  siafundPool : Currency
  consensusHeight : ℕ
  processedTransactions : List (ProcessedTransaction H)

variable {H : Type} [DecidableEq H]

/-! ### The outputs a change spends -/

/-- `computeSpentSiacoinOutputSet`: every output a revert diff removes, by ID, a later diff of
one ID replacing an earlier one as a Go map assignment does. -/
def computeSpentSiacoinOutputSet (diffs : List (SiacoinOutputDiff H)) :
    Bucket H (SiacoinOutput H) :=
  diffs.foldl (fun outputs diff =>
    if diff.direction = .revert then outputs.insert diff.id diff.siacoinOutput else outputs) ∅

/-- `computeSpentSiafundOutputSet` -/
def computeSpentSiafundOutputSet (diffs : List (SiafundOutputDiff H)) :
    Bucket H (SiafundOutput H) :=
  diffs.foldl (fun outputs diff =>
    if diff.direction = .revert then outputs.insert diff.id diff.siafundOutput else outputs) ∅

section Compute

-- the consensus constants and identifiers, the wallet's `isWalletAddress`, `Transaction.ID` and
-- `types.GenesisID`
variable (env : Env H) (isWalletAddress : H → Bool) (transactionID : Transaction H → H)
  (genesisID : H)

/-- A read of a spent-output map: an ID the change does not spend reads as the zero output. -/
def spentSiacoinOutput (spent : Bucket H (SiacoinOutput H)) (id : H) : SiacoinOutput H :=
  (spent.lookup id).getD ⟨0, env.zeroHash⟩

def spentSiafundOutput (spent : Bucket H (SiafundOutput H)) (id : H) : SiafundOutput H :=
  (spent.lookup id).getD ⟨0, env.zeroHash, 0⟩

/-- The first loop of `computeProcessedTransactionsFromBlock`: one record of every miner payout,
kept when one of them pays the wallet. -/
def minerPayoutTransaction (block : Block H) (consensusHeight : ℕ) : ProcessedTransaction H :=
  { transaction := emptyTransaction
    transactionID := env.blockID block
    confirmationHeight := consensusHeight
    confirmationTimestamp := block.timestamp
    inputs := []
    outputs := block.minerPayouts.zipIdx.map fun (mp, i) =>
      ⟨env.minerPayoutID (env.blockID block) i, .minerPayout,
        consensusHeight + env.params.maturityDelay, isWalletAddress mp.unlockHash, mp.unlockHash,
        mp.value⟩ }

/-- Whether a transaction touches the wallet: an input it spends, an output it creates, or a
proof output of a contract or revision it carries pays one of the wallet's addresses. -/
def isRelevant (txn : Transaction H) : Bool :=
  txn.siacoinInputs.any (fun sci => isWalletAddress (env.unlockHash sci.unlockConditions)) ||
  txn.siacoinOutputs.any (fun sco => isWalletAddress sco.unlockHash) ||
  txn.siafundInputs.any (fun sfi => isWalletAddress (env.unlockHash sfi.unlockConditions)) ||
  txn.siafundOutputs.any (fun sfo => isWalletAddress sfo.unlockHash) ||
  txn.fileContracts.any (fun fc =>
    fc.validProofOutputs.any (fun o => isWalletAddress o.unlockHash) ||
    fc.missedProofOutputs.any (fun o => isWalletAddress o.unlockHash)) ||
  txn.fileContractRevisions.any (fun fcr =>
    fcr.newValidProofOutputs.any (fun o => isWalletAddress o.unlockHash) ||
    fcr.newMissedProofOutputs.any (fun o => isWalletAddress o.unlockHash))

/-- The proof outputs of a contract or revision with ID `id`, maturing `MaturityDelay` blocks
after its window ends. -/
def proofOutputs (id : H) (windowEnd : UInt64) (valid missed : List (SiacoinOutput H)) :
    List (ProcessedOutput H) :=
  (valid.zipIdx.map fun (o, j) =>
    ⟨env.storageProofOutputID id true j, .siacoinOutput,
      windowEnd.toNat + env.params.maturityDelay, isWalletAddress o.unlockHash, o.unlockHash,
      o.value⟩) ++
  (missed.zipIdx.map fun (o, j) =>
    ⟨env.storageProofOutputID id false j, .siacoinOutput,
      windowEnd.toNat + env.params.maturityDelay, isWalletAddress o.unlockHash, o.unlockHash,
      o.value⟩)

/-- The claim output recorded for a siafund input: keyed by the input's parent ID and worth the
growth of the wallet's pool since the spent output's claim start, times its siafunds. -/
def claimOutput (spentSiafundOutputs : Bucket H (SiafundOutput H)) (siafundPool : Currency)
    (consensusHeight : ℕ) (sfi : SiafundInput H) : ProcessedOutput H :=
  let sfo := spentSiafundOutput env spentSiafundOutputs sfi.parentID
  ⟨sfi.parentID, .claimOutput, consensusHeight + env.params.maturityDelay,
    isWalletAddress (env.unlockHash sfi.unlockConditions), sfi.claimUnlockHash,
    (siafundPool - sfo.claimStart) * sfo.value⟩

/-- The record of one relevant transaction. Each loop appends to the inputs or the outputs in
turn, so the inputs are the siacoin inputs then the siafund inputs, and the outputs are the
siacoin outputs, one claim per siafund input, the siafund outputs, the miner fees, and the proof
outputs of the contracts and then of the revisions. -/
def processedTransaction (block : Block H) (spentSiacoinOutputs : Bucket H (SiacoinOutput H))
    (spentSiafundOutputs : Bucket H (SiafundOutput H)) (siafundPool : Currency)
    (consensusHeight : ℕ) (txn : Transaction H) : ProcessedTransaction H :=
  { transaction := txn
    transactionID := transactionID txn
    confirmationHeight := consensusHeight
    confirmationTimestamp := block.timestamp
    inputs :=
      (txn.siacoinInputs.map fun sci =>
        ⟨sci.parentID, .siacoinInput, isWalletAddress (env.unlockHash sci.unlockConditions),
          env.unlockHash sci.unlockConditions,
          (spentSiacoinOutput env spentSiacoinOutputs sci.parentID).value⟩) ++
      (txn.siafundInputs.map fun sfi =>
        ⟨sfi.parentID, .siafundInput, isWalletAddress (env.unlockHash sfi.unlockConditions),
          env.unlockHash sfi.unlockConditions,
          (spentSiafundOutput env spentSiafundOutputs sfi.parentID).value⟩)
    outputs :=
      (txn.siacoinOutputs.zipIdx.map fun (sco, i) =>
        ⟨env.siacoinOutputID txn i, .siacoinOutput, consensusHeight,
          isWalletAddress sco.unlockHash, sco.unlockHash, sco.value⟩) ++
      txn.siafundInputs.map
        (claimOutput env isWalletAddress spentSiafundOutputs siafundPool consensusHeight) ++
      (txn.siafundOutputs.zipIdx.map fun (sfo, i) =>
        ⟨env.siafundOutputID txn i, .siafundOutput, consensusHeight,
          isWalletAddress sfo.unlockHash, sfo.unlockHash, sfo.value⟩) ++
      (txn.minerFees.map fun fee =>
        ⟨env.zeroHash, .minerFee, consensusHeight + env.params.maturityDelay, false, env.zeroHash,
          fee⟩) ++
      (txn.fileContracts.zipIdx.flatMap fun (fc, i) =>
        proofOutputs env isWalletAddress (env.fileContractID txn i) fc.windowEnd
          fc.validProofOutputs fc.missedProofOutputs) ++
      (txn.fileContractRevisions.flatMap fun fcr =>
        proofOutputs env isWalletAddress fcr.parentID fcr.newWindowEnd fcr.newValidProofOutputs
          fcr.newMissedProofOutputs) }

/-- `computeProcessedTransactionsFromBlock`: the miner-payout record if it is relevant, then one
record per relevant transaction. The pool is the wallet's stored pool, read once per siafund
input; nothing in the loop writes it. -/
def computeProcessedTransactionsFromBlock (block : Block H)
    (spentSiacoinOutputs : Bucket H (SiacoinOutput H))
    (spentSiafundOutputs : Bucket H (SiafundOutput H)) (siafundPool : Currency)
    (consensusHeight : ℕ) : List (ProcessedTransaction H) :=
  (if block.minerPayouts.any (fun mp => isWalletAddress mp.unlockHash) then
    [minerPayoutTransaction env isWalletAddress block consensusHeight] else []) ++
  ((block.transactions.filter (isRelevant env isWalletAddress)).map
    (processedTransaction env isWalletAddress transactionID block spentSiacoinOutputs
      spentSiafundOutputs siafundPool consensusHeight))

/-- One iteration of `applyHistory`: the height moves up for every block but the genesis block,
and the block's records are appended at that height. -/
def applyBlockHistory (spentSiacoinOutputs : Bucket H (SiacoinOutput H))
    (spentSiafundOutputs : Bucket H (SiafundOutput H)) (db : WalletDB H) (block : Block H) :
    WalletDB H :=
  let consensusHeight :=
    if env.blockID block ≠ genesisID then db.consensusHeight + 1 else db.consensusHeight
  { db with
    consensusHeight
    processedTransactions := db.processedTransactions ++
      computeProcessedTransactionsFromBlock env isWalletAddress transactionID block
        spentSiacoinOutputs spentSiafundOutputs db.siafundPool consensusHeight }

/-- `applyHistory`: the spent outputs of the whole change, then every applied block in order. -/
def applyHistory (db : WalletDB H) (cc : ConsensusChange H) : WalletDB H :=
  cc.appliedBlocks.foldl
    (applyBlockHistory env isWalletAddress transactionID genesisID
      (computeSpentSiacoinOutputSet cc.diffs.siacoinOutputDiffs)
      (computeSpentSiafundOutputSet cc.diffs.siafundOutputDiffs)) db

/-- One iteration of `revertHistory`. The block's transactions, last first, each remove the last
record when it is theirs (an empty log stops the loop, which removes nothing more anyway); then
the first miner payout finds the block's own record last, if it is, and removes it once. The
height moves down for every block but the genesis block. -/
def revertBlockHistory (db : WalletDB H) (block : Block H) : WalletDB H :=
  let removeIfLast (pts : List (ProcessedTransaction H)) (id : H) :=
    if pts.getLast?.map (·.transactionID) = some id then pts.dropLast else pts
  let pts := block.transactions.reverse.foldl (fun pts txn => removeIfLast pts (transactionID txn))
    db.processedTransactions
  let pts := if block.minerPayouts = [] then pts else removeIfLast pts (env.blockID block)
  { db with
    processedTransactions := pts
    consensusHeight :=
      if env.blockID block ≠ genesisID then db.consensusHeight - 1 else db.consensusHeight }

/-- `revertHistory`: the reverted blocks in the order the change lists them, newest first. -/
def revertHistory (db : WalletDB H) (reverted : List (Block H)) : WalletDB H :=
  reverted.foldl (revertBlockHistory env transactionID genesisID) db

end Compute

/-! ### What the wallet records for a siafund input -/

section Records

variable {env : Env H} {isWalletAddress : H → Bool} {transactionID : Transaction H → H}

theorem processedTransaction_mem {block : Block H} {spentSiacoinOutputs spentSiafundOutputs}
    {siafundPool : Currency} {consensusHeight : ℕ} {txn : Transaction H}
    (included : txn ∈ block.transactions) (relevant : isRelevant env isWalletAddress txn = true) :
    processedTransaction env isWalletAddress transactionID block spentSiacoinOutputs
        spentSiafundOutputs siafundPool consensusHeight txn ∈
      computeProcessedTransactionsFromBlock env isWalletAddress transactionID block
        spentSiacoinOutputs spentSiafundOutputs siafundPool consensusHeight :=
  List.mem_append_right _ (List.mem_map_of_mem (List.mem_filter.mpr ⟨included, relevant⟩))

theorem claimOutput_mem_outputs {block : Block H} {spentSiacoinOutputs spentSiafundOutputs}
    {siafundPool : Currency} {consensusHeight : ℕ} {txn : Transaction H} {sfi : SiafundInput H}
    (spends : sfi ∈ txn.siafundInputs) :
    claimOutput env isWalletAddress spentSiafundOutputs siafundPool consensusHeight sfi ∈
      (processedTransaction env isWalletAddress transactionID block spentSiacoinOutputs
        spentSiafundOutputs siafundPool consensusHeight txn).outputs := by
  simp only [processedTransaction, List.mem_append]
  exact .inl (.inl (.inl (.inl (.inr (List.mem_map_of_mem spends)))))

theorem spentSiafundOutput_of_lookup {spent : Bucket H (SiafundOutput H)} {id : H}
    {sfo : SiafundOutput H} (found : spent.lookup id = some sfo) :
    spentSiafundOutput env spent id = sfo := by
  rw [spentSiafundOutput, found, Option.getD_some]

end Records

/-! ### Against the claims consensus pays -/

/-- Dividing the pool's growth by `SiafundCount` before multiplying by the siafunds makes a
positive claim strictly smaller. -/
theorem div_siafundCount_mul_lt {growth value : ℕ} (positive : 0 < growth * value) :
    growth / siafundCount * value < growth * value := by
  have growthPositive : 0 < growth := Nat.pos_of_mul_pos_right positive
  have valuePositive : 0 < value := Nat.pos_of_mul_pos_left positive
  have divided : growth / siafundCount < growth := Nat.div_lt_self growthPositive (by decide)
  exact Nat.mul_lt_mul_of_pos_right divided valuePositive

section Claims

variable {env : Env H} {isWalletAddress : H → Bool} {transactionID : Transaction H → H}

/-- The claim the wallet records for a siafund input of a relevant transaction, beside the claim
consensus records when it applies that input, with the wallet's pool the pool consensus reads and
the spent output the one consensus spends. The wallet keys its claim by the input's parent ID,
the ID of the siafund output being spent, where consensus keys it by `SiaClaimOutputID`; and it
multiplies the pool's growth by the siafunds without dividing by `SiafundCount`, so a positive
claim is recorded larger than consensus pays it. -/
theorem claimOutput_disagrees_with_consensus {block : Block H} {txn : Transaction H}
    {sfi : SiafundInput H} {sfo : SiafundOutput H}
    {spentSiacoinOutputs : Bucket H (SiacoinOutput H)}
    {spentSiafundOutputs : Bucket H (SiafundOutput H)} {consensusHeight : ℕ}
    {s s' : ConsensusDB H × ProcessedBlock H}
    (included : txn ∈ block.transactions) (relevant : isRelevant env isWalletAddress txn = true)
    (spends : sfi ∈ txn.siafundInputs)
    (spent : spentSiafundOutputs.lookup sfi.parentID = some sfo)
    (stored : getSiafundOutput s.1 (lastGenesisUnlockHash env.params) env.devAddr sfi.parentID =
      some sfo)
    (applied : applySiafundInput env s sfi = some s') :
    ∃ pt ∈ computeProcessedTransactionsFromBlock env isWalletAddress transactionID block
        spentSiacoinOutputs spentSiafundOutputs s.1.siafundPool consensusHeight,
      ∃ po ∈ pt.outputs, ∃ claim,
        s'.2.delayedSiacoinOutputDiffs = s.2.delayedSiacoinOutputDiffs ++ [claim] ∧
        po.fundType = .claimOutput ∧ po.relatedAddress = claim.siacoinOutput.unlockHash ∧
        po.id = sfi.parentID ∧ claim.id = env.siaClaimOutputID sfi.parentID ∧
        po.value = (s.1.siafundPool - sfo.claimStart) * sfo.value ∧
        claim.siacoinOutput.value =
          (s.1.siafundPool - sfo.claimStart) / siafundCount * sfo.value ∧
        (0 < po.value → claim.siacoinOutput.value < po.value) := by
  obtain ⟨read, mid, found, -, paid, recorded⟩ := applySiafundInput_eq_some env applied
  obtain rfl : read = sfo := Option.some.inj (found.symm.trans stored)
  have delayed := (recordDelayedSiacoinOutputDiff_eq_some paid).2
  have claimed : s'.2.delayedSiacoinOutputDiffs = mid.2.delayedSiacoinOutputDiffs := by
    rw [(recordSiafundOutputDiff_eq_some recorded).2]
  have value : (claimOutput env isWalletAddress spentSiafundOutputs s.1.siafundPool
      consensusHeight sfi).value = (s.1.siafundPool - read.claimStart) * read.value := by
    simp only [claimOutput, spentSiafundOutput_of_lookup spent]
  refine ⟨_, processedTransaction_mem included relevant, _, claimOutput_mem_outputs spends, _,
    by rw [claimed, delayed], rfl, rfl, rfl, rfl, value, rfl, ?_⟩
  rw [value]
  exact div_siafundCount_mul_lt

end Claims

/-- A siafund input spending the genesis output with ID 31, claiming to the address 2. -/
def claimInput : SiafundInput ℕ := ⟨31, ⟨0, [], 0⟩, 2⟩

/-- The output it spends: 2000 siafunds claiming from an empty pool. -/
def spentSiafunds : SiafundOutput ℕ := ⟨2000, 5, 0⟩

def claimTransaction : Transaction ℕ := { emptyTransaction with siafundInputs := [claimInput] }

def claimBlock : Block ℕ := ⟨0, Vector.replicate 8 0, 0, [], [claimTransaction]⟩

/-- The consensus state the input is applied to, with 30000 in the pool. -/
def claimState : ConsensusDB ℕ × ProcessedBlock ℕ :=
  ({ emptyConsensusDB testingEnv with
      siafundOutputs := Finmap.singleton 31 spentSiafunds, siafundPool := 30000,
      dscoBuckets := {3} },
    ⟨claimBlock, 0, false, [], [], [], [], []⟩)

/-- The state after it: the claim of 6000 matures at height 3 under `SiaClaimOutputID` 81. -/
def claimedState : ConsensusDB ℕ × ProcessedBlock ℕ :=
  ({ claimState.1 with
      siafundOutputs := ∅, dsco := Finmap.singleton (3, 81) ⟨6000, 2⟩ },
    { claimState.2 with
      siafundOutputDiffs := [⟨.revert, 31, spentSiafunds⟩],
      delayedSiacoinOutputDiffs := [⟨.apply, 81, ⟨6000, 2⟩, 3⟩] })

theorem claimBlock_claim_disagrees :
    claimTransaction ∈ claimBlock.transactions ∧
      isRelevant testingEnv (fun a => a == 2) claimTransaction = true ∧
      claimInput ∈ claimTransaction.siafundInputs ∧
      (Finmap.singleton 31 spentSiafunds : Bucket ℕ (SiafundOutput ℕ)).lookup claimInput.parentID =
        some spentSiafunds ∧
      getSiafundOutput claimState.1 (lastGenesisUnlockHash testingEnv.params) testingEnv.devAddr
        claimInput.parentID = some spentSiafunds ∧
      applySiafundInput testingEnv claimState claimInput = some claimedState ∧
      ∃ pt ∈ computeProcessedTransactionsFromBlock testingEnv (fun a => a == 2) (fun _ => 0)
          claimBlock ∅ (Finmap.singleton 31 spentSiafunds) claimState.1.siafundPool 1,
        ∃ po ∈ pt.outputs, ∃ claim,
          claimedState.2.delayedSiacoinOutputDiffs =
            claimState.2.delayedSiacoinOutputDiffs ++ [claim] ∧
          po.fundType = .claimOutput ∧ po.relatedAddress = claim.siacoinOutput.unlockHash ∧
          po.id = claimInput.parentID ∧ claim.id = testingEnv.siaClaimOutputID claimInput.parentID ∧
          po.value = (claimState.1.siafundPool - spentSiafunds.claimStart) * spentSiafunds.value ∧
          claim.siacoinOutput.value =
            (claimState.1.siafundPool - spentSiafunds.claimStart) / siafundCount *
              spentSiafunds.value ∧
          (0 < po.value → claim.siacoinOutput.value < po.value) :=
  ⟨by decide, rfl, by decide, rfl, rfl, rfl,
    claimOutput_disagrees_with_consensus
      (show claimTransaction ∈ claimBlock.transactions by decide) rfl (by decide) rfl rfl rfl⟩

end Sia.Wallet
