import Sia.Consensus.Chain
import Sia.Host.Revision

/-! Renewing a contract over RHP3. The renter builds the new contract with
`createRenewedContract` of `modules/renter/proto/renew.go`, from the payouts of
`modules.RenterPayoutsPreTax` and the base costs of `modules.RenewBaseCosts`; the host checks it
with `verifyRenewedContract` of `modules/host/rpcrenewcontract.go`. The host re-derives the
collateral from the host's valid payout and clamps the base collateral again; when the renter's
host entry agrees with the price table, both sides compute the same collateral and base
collateral, so every contract the renter builds inside the host's window passes every check but
the collateral budget. Block heights are `uint64` and wrap as in the source; every `Currency`
subtraction is guarded by a comparison before it. -/
namespace Sia

open Except (failIf)

variable {H : Type}

/-- The fields of `modules.RPCPriceTable` a renewal reads. -/
structure RPCPriceTable where
  renewContractCost : Currency
  writeStoreCost : Currency
  contractPrice : Currency
  collateralCost : Currency
  maxCollateral : Currency
  maxDuration : UInt64
  windowSize : UInt64

/-- The fields of a `modules.HostDBEntry` and its external settings a renewal reads. -/
structure HostDBEntry (H : Type) where
  publicKey : SiaPublicKey
  windowSize : UInt64
  unlockHash : H
  collateral : Currency
  maxCollateral : Currency
  contractPrice : Currency
  storagePrice : Currency

/-- The fields of `modules.Allowance` a renewal reads. -/
structure Allowance where
  hosts : UInt64
  expectedStorage : UInt64

/-- The fields of `modules.ContractParams` a renewal reads. -/
structure ContractParams (H : Type) where
  allowance : Allowance
  host : HostDBEntry H
  funding : Currency
  startHeight : UInt64
  endHeight : UInt64
  refundAddress : H

/-- `modules.RenewBaseCosts`: the RPC cost, plus storage cost and collateral for the data of
the last revision over the blocks the renewal adds beyond the old window end. -/
def renewBaseCosts (lastRev : FileContractRevision H) (pt : RPCPriceTable) (endHeight : UInt64) :
    Currency × Currency :=
  let paidForUntil := lastRev.newWindowEnd
  let payForUntil := endHeight + pt.windowSize
  let storage := lastRev.newFileSize
  if paidForUntil ≥ payForUntil ∨ storage = 0 then (pt.renewContractCost, 0)
  else
    let timeExtension := payForUntil - paidForUntil
    (pt.renewContractCost + pt.writeStoreCost * storage.toNat * timeExtension.toNat,
      pt.collateralCost * storage.toNat * timeExtension.toNat)

/-- The errors of the renter's side of a renewal. -/
inductive PayoutError where
  | fundingExceeded
  | insufficientFunds
  deriving DecidableEq, Repr

/-- `modules.RenterPayoutsPreTax`: the renter's payout, the host's payout and the host's
collateral, which is what the funding left after the prices buys, plus the base collateral,
capped at five times the expected storage over the period and at the host's maximum. -/
def renterPayoutsPreTax (host : HostDBEntry H) (funding txnFee basePrice baseCollateral : Currency)
    (period expectedStorage : UInt64) : Except PayoutError (Currency × Currency × Currency) := do
  -- a zero storage price is replaced to avoid dividing by zero
  let storagePrice := if host.storagePrice = 0 then 1 else host.storagePrice
  failIf (funding ≤ host.contractPrice + txnFee + basePrice) .fundingExceeded
  let renterPayout := funding - host.contractPrice - txnFee - basePrice
  let maxStorageSizeTime := renterPayout / storagePrice
  let hostCollateral := maxStorageSizeTime * host.collateral + baseCollateral
  let maxRenterCollateral := host.collateral * period.toNat * expectedStorage.toNat * 5
  let hostCollateral := if hostCollateral > maxRenterCollateral then maxRenterCollateral
    else hostCollateral
  let hostCollateral := if hostCollateral > host.maxCollateral then host.maxCollateral
    else hostCollateral
  pure (renterPayout, hostCollateral + host.contractPrice + basePrice, hostCollateral)

/-- `createFileContractUnlockConds`: the renter's key, then the host's, both required. -/
def createFileContractUnlockConds (hpk ourPK : SiaPublicKey) : UnlockConditions :=
  ⟨0, [ourPK, hpk], 2⟩

/-- `createRenewedContract`: the new contract keeps the data of the last revision, opens its
proof window at the end height, and pays the renter what the tax leaves after the host's
payout. The host's missed output returns its unused collateral and the contract price; the
void takes the base price and the risked base collateral. The expected storage per host
divides by the allowance's host count, which panics at zero. -/
def createRenewedContract (p : Params H) (zeroHash : H) (lastRev : FileContractRevision H) (uh : H)
    (params : ContractParams H) (txnFee basePrice baseCollateral : Currency) :
    Option (Except PayoutError (FileContract H)) :=
  if params.allowance.hosts = 0 then none
  else some do
    let period := params.endHeight - params.startHeight
    let (renterPayout, hostPayout, hostCollateral) ← renterPayoutsPreTax params.host params.funding
      txnFee basePrice baseCollateral period
      (params.allowance.expectedStorage / params.allowance.hosts)
    let totalPayout := renterPayout + hostPayout
    let baseCollateral := if hostCollateral < baseCollateral then hostCollateral else baseCollateral
    let renterShare := postTax p params.startHeight.toNat totalPayout
    failIf (renterShare < hostPayout) .insufficientFunds
    pure
      { fileSize := lastRev.newFileSize
        fileMerkleRoot := lastRev.newFileMerkleRoot
        windowStart := params.endHeight
        windowEnd := params.endHeight + params.host.windowSize
        payout := totalPayout
        unlockHash := uh
        revisionNumber := 0
        validProofOutputs :=
          [⟨renterShare - hostPayout, params.refundAddress⟩, ⟨hostPayout, params.host.unlockHash⟩]
        missedProofOutputs :=
          [⟨renterShare - hostPayout, params.refundAddress⟩,
            ⟨hostCollateral - baseCollateral + params.host.contractPrice, params.host.unlockHash⟩,
            ⟨basePrice + baseCollateral, zeroHash⟩] }

/-! ### The renter's contract -/

section Renter

variable {p : Params H} {zeroHash uh : H} {lastRev : FileContractRevision H}
  {params : ContractParams H} {txnFee basePrice baseCollateral : Currency}

/-- The host's payout is its collateral, the contract price and the base price, and the
collateral never exceeds the host's maximum. -/
theorem renterPayoutsPreTax_eq_ok {host : HostDBEntry H} {funding : Currency}
    {period expectedStorage : UInt64} {renterPayout hostPayout hostCollateral : Currency}
    (paid : renterPayoutsPreTax host funding txnFee basePrice baseCollateral period expectedStorage =
      .ok (renterPayout, hostPayout, hostCollateral)) :
    hostPayout = hostCollateral + host.contractPrice + basePrice ∧
      hostCollateral ≤ host.maxCollateral := by
  simp only [renterPayoutsPreTax, Except.failIf_bind_eq_ok] at paid
  obtain ⟨-, paid⟩ := paid
  simp only [pure, Except.pure, Except.ok.injEq, Prod.mk.injEq] at paid
  obtain ⟨-, rfl, rfl⟩ := paid
  refine ⟨rfl, ?_⟩
  -- the last clamp is at the host's maximum
  split_ifs <;> unfold Currency at * <;> omega

/-- A contract `createRenewedContract` builds, read off the host collateral its payouts chose:
the host is paid that collateral, the contract price and the base price out of what the tax
leaves of the payout, and the renter the rest. -/
theorem createRenewedContract_eq_some_ok {fc : FileContract H}
    (created : createRenewedContract p zeroHash lastRev uh params txnFee basePrice baseCollateral =
      some (.ok fc)) :
    ∃ hostCollateral ≤ params.host.maxCollateral,
      hostCollateral + params.host.contractPrice + basePrice ≤
        postTax p params.startHeight.toNat fc.payout ∧
      fc.fileSize = lastRev.newFileSize ∧ fc.fileMerkleRoot = lastRev.newFileMerkleRoot ∧
      fc.windowStart = params.endHeight ∧
      fc.windowEnd = params.endHeight + params.host.windowSize ∧ fc.unlockHash = uh ∧
      fc.validProofOutputs =
        [⟨postTax p params.startHeight.toNat fc.payout -
            (hostCollateral + params.host.contractPrice + basePrice), params.refundAddress⟩,
          ⟨hostCollateral + params.host.contractPrice + basePrice, params.host.unlockHash⟩] ∧
      fc.missedProofOutputs =
        [⟨postTax p params.startHeight.toNat fc.payout -
            (hostCollateral + params.host.contractPrice + basePrice), params.refundAddress⟩,
          ⟨hostCollateral - (if hostCollateral < baseCollateral then hostCollateral
              else baseCollateral) + params.host.contractPrice, params.host.unlockHash⟩,
          ⟨basePrice + (if hostCollateral < baseCollateral then hostCollateral
              else baseCollateral), zeroHash⟩] := by
  unfold createRenewedContract at created
  split_ifs at created
  obtain ⟨⟨renterPayout, hostPayout, hostCollateral⟩, paid, built⟩ :=
    Except.bind_eq_ok.mp (Option.some.inj created)
  obtain ⟨rfl, capped⟩ := renterPayoutsPreTax_eq_ok paid
  obtain ⟨funded, built⟩ := Except.failIf_bind_eq_ok.mp built
  cases built
  exact ⟨hostCollateral, capped, Nat.le_of_not_lt funded, rfl, rfl, rfl, rfl, rfl, rfl, rfl⟩

/-- Both output lists of a renewed contract add up to what the tax leaves of its payout. -/
theorem createRenewedContract_balanced {fc : FileContract H}
    (created : createRenewedContract p zeroHash lastRev uh params txnFee basePrice baseCollateral =
      some (.ok fc)) :
    (fc.validProofOutputs.map (·.value)).sum = postTax p params.startHeight.toNat fc.payout ∧
      (fc.missedProofOutputs.map (·.value)).sum = postTax p params.startHeight.toNat fc.payout := by
  obtain ⟨hostCollateral, -, covered, -, -, -, -, -, valid, missed⟩ :=
    createRenewedContract_eq_some_ok created
  rw [valid, missed]
  simp only [List.map_cons, List.map_nil, List.sum_cons, List.sum_nil]
  constructor
  · unfold Currency at *
    omega
  · split_ifs <;> unfold Currency at * <;> omega

end Renter

namespace Host

/-- The errors `verifyRenewedContract` returns. -/
inductive RenewError where
  | badFileSize
  | badFileMerkleRoot
  | earlyWindow
  | smallWindow
  | longDuration
  | badContractOutputCounts
  | badPayoutUnlockHashes
  | lowHostValidOutput
  | maxCollateralReached
  | collateralBudgetExceeded
  | lowHostMissedOutput
  | lowVoidOutput
  | badUnlockHash
  deriving DecidableEq, Repr

/-- A contract with the two valid and three missed outputs of a host's contract. -/
structure ContractOutputs (H : Type) where
  contract : FileContract H
  valid_length : contract.validProofOutputs.length = 2
  missed_length : contract.missedProofOutputs.length = 3

/-- The contract seen with its outputs in place, if it has the right number of them. -/
def contractOutputs (fc : FileContract H) : Option (ContractOutputs H) :=
  if valid : fc.validProofOutputs.length = 2 then
    if missed : fc.missedProofOutputs.length = 3 then some ⟨fc, valid, missed⟩
    else none
  else none

namespace ContractOutputs

variable (c : ContractOutputs H)

def validHostOutput : SiacoinOutput H :=
  c.contract.validProofOutputs.get ⟨1, by simp [c.valid_length]⟩

def validHostPayout : Currency := c.validHostOutput.value

def missedHostOutput : SiacoinOutput H :=
  c.contract.missedProofOutputs.get ⟨1, by simp [c.missed_length]⟩

/-- `MissedVoidOutput`, which cannot fail on a contract with three missed outputs. -/
def missedVoidOutput : SiacoinOutput H :=
  c.contract.missedProofOutputs.get ⟨2, by simp [c.missed_length]⟩

end ContractOutputs

/-- `fileSize` of an obligation: the size in the revision heading the last revision
transaction, which is the current revision (`signed`). -/
def StorageObligation.fileSize (so : StorageObligation H) : UInt64 :=
  so.current.revision.newFileSize

/-- `merkleRoot` of an obligation, read as `fileSize` is. -/
def StorageObligation.merkleRoot (so : StorageObligation H) : H :=
  so.current.revision.newFileMerkleRoot

/-- `renewContractCollateral`: the host's valid payout less the contract price and the base
price is the collateral the host adds. -/
def renewContractCollateral (pt : RPCPriceTable) (rev : FileContractRevision H)
    (fc : ContractOutputs H) : Except RenewError Currency := do
  failIf (fc.validHostPayout < pt.contractPrice) .lowHostValidOutput
  let diff := fc.validHostPayout - pt.contractPrice
  let rbc := (renewBaseCosts rev pt fc.contract.windowStart).1
  failIf (diff < rbc) .lowHostValidOutput
  pure (diff - rbc)

variable [DecidableEq H] (zeroHash : H) (hashing : Hashing H)

/-- `verifyRenewedContract`: the contract keeps the obligation's data, its window opens after
the submission buffer and within the host's maximum duration and lasts the price table's window,
its outputs pay the host's address and the void, its collateral fits the price table's maximum
and the host's budget, its host and void outputs cover the base costs, and its unlock hash is
the renter's and host's keys. The collateral it adds is returned. -/
def verifyRenewedContract (so : StorageObligation H) (newContract : FileContract H)
    (oldRevision : FileContractRevision H) (blockHeight : UInt64) (collateralBudget : Currency)
    (unlockHash : H) (pt : RPCPriceTable) (renterPK hostPK : SiaPublicKey)
    (lockedCollateral : Currency) : Except RenewError Currency := do
  failIf (newContract.fileSize ≠ so.fileSize) .badFileSize
  failIf (newContract.fileMerkleRoot ≠ so.merkleRoot) .badFileMerkleRoot
  failIf (newContract.windowStart ≤ blockHeight + revisionSubmissionBuffer) .earlyWindow
  failIf (newContract.windowEnd < newContract.windowStart + pt.windowSize) .smallWindow
  failIf (newContract.windowStart > blockHeight + pt.maxDuration) .longDuration
  let some fc := contractOutputs newContract | throw .badContractOutputCounts
  failIf (fc.validHostOutput.unlockHash ≠ unlockHash ∨ fc.missedHostOutput.unlockHash ≠ unlockHash ∨
    fc.missedVoidOutput.unlockHash ≠ zeroHash) .badPayoutUnlockHashes
  let expectedCollateral ← renewContractCollateral pt oldRevision fc
  failIf (expectedCollateral > pt.maxCollateral) .maxCollateralReached
  failIf (lockedCollateral + expectedCollateral > collateralBudget) .collateralBudgetExceeded
  let (basePrice, baseCollateral) := renewBaseCosts oldRevision pt newContract.windowStart
  -- the renter may have expected less collateral than the base collateral
  let baseCollateral := if expectedCollateral < baseCollateral then expectedCollateral
    else baseCollateral
  failIf (fc.validHostPayout < basePrice + baseCollateral + pt.contractPrice) .lowHostValidOutput
  let expectedHostMissedOutput := fc.validHostPayout - basePrice - baseCollateral
  failIf (fc.missedHostOutput.value < expectedHostMissedOutput) .lowHostMissedOutput
  failIf (fc.missedVoidOutput.value < basePrice + baseCollateral) .lowVoidOutput
  failIf (newContract.unlockHash ≠ hashing.unlockHash ⟨0, [renterPK, hostPK], 2⟩) .badUnlockHash
  pure expectedCollateral

/-! ### What the host accepts -/

omit [DecidableEq H] in
/-- The collateral the host computes is what its valid payout holds beyond the contract price and
the base price. -/
theorem renewContractCollateral_eq_ok {pt : RPCPriceTable} {rev : FileContractRevision H}
    {fc : ContractOutputs H} {collateral : Currency} :
    renewContractCollateral pt rev fc = .ok collateral ↔
      fc.validHostPayout = collateral + pt.contractPrice +
        (renewBaseCosts rev pt fc.contract.windowStart).1 := by
  simp only [renewContractCollateral, Except.failIf_bind_eq_ok, pure, Except.pure,
    Except.ok.injEq]
  unfold Currency at *
  omega

omit [DecidableEq H] in
/-- A contract with its outputs in place is the contract itself, with the outputs the checks
read at their positions. -/
theorem contractOutputs_eq_some {fc : FileContract H} {c : ContractOutputs H}
    (shaped : contractOutputs fc = some c) :
    c.contract = fc ∧ fc.validProofOutputs[1]? = some c.validHostOutput ∧
      fc.missedProofOutputs[1]? = some c.missedHostOutput ∧
      fc.missedProofOutputs[2]? = some c.missedVoidOutput := by
  unfold contractOutputs at shaped
  split_ifs at shaped
  cases shaped
  simp [ContractOutputs.validHostOutput, ContractOutputs.missedHostOutput,
    ContractOutputs.missedVoidOutput]

/-- A contract the host accepts pays the host at least the base price and the contract price,
and the collateral it adds stays within the price table's maximum and the host's budget. -/
theorem verifyRenewedContract_eq_ok {so : StorageObligation H} {newContract : FileContract H}
    {oldRevision : FileContractRevision H} {blockHeight : UInt64}
    {collateralBudget lockedCollateral collateral : Currency} {unlockHash : H}
    {pt : RPCPriceTable} {renterPK hostPK : SiaPublicKey}
    (accepted : verifyRenewedContract zeroHash hashing so newContract oldRevision blockHeight
      collateralBudget unlockHash pt renterPK hostPK lockedCollateral = .ok collateral) :
    ∃ host, newContract.validProofOutputs[1]? = some host ∧
      host.value = collateral + pt.contractPrice +
        (renewBaseCosts oldRevision pt newContract.windowStart).1 ∧
      collateral ≤ pt.maxCollateral ∧ lockedCollateral + collateral ≤ collateralBudget := by
  cases shaped : contractOutputs newContract with
  | none => simp [verifyRenewedContract, shaped] at accepted
  | some fc =>
    simp only [verifyRenewedContract, shaped, Except.failIf_bind_eq_ok] at accepted
    obtain ⟨-, -, -, -, -, -, computed⟩ := accepted
    -- the collateral is bound before the remaining checks
    obtain ⟨expected, collateralComputed, rest⟩ := Except.bind_eq_ok.mp computed
    simp only [Except.failIf_bind_eq_ok, pure, Except.pure, Except.ok.injEq] at rest
    obtain ⟨capped, budgeted, -, -, -, -, rfl⟩ := rest
    obtain ⟨contract, validHost, -, -⟩ := contractOutputs_eq_some shaped
    refine ⟨fc.validHostOutput, validHost, ?_, Nat.le_of_not_lt capped, Nat.le_of_not_lt budgeted⟩
    have paid := renewContractCollateral_eq_ok.mp collateralComputed
    rw [contract] at paid
    exact paid

/-- A contract the renter builds against the host's own price table, with its end height inside
the host's window, passes every check of the host but the collateral budget; the host computes
the collateral the renter's payouts chose. -/
theorem verifyRenewedContract_createRenewedContract {p : Params H} {so : StorageObligation H}
    {pt : RPCPriceTable} {params : ContractParams H} {txnFee : Currency} {renterPK : SiaPublicKey}
    {unlockHash : H} {fc : FileContract H} {blockHeight : UInt64}
    {collateralBudget lockedCollateral : Currency}
    (price : params.host.contractPrice = pt.contractPrice)
    (cap : params.host.maxCollateral = pt.maxCollateral)
    (window : params.host.windowSize = pt.windowSize)
    (address : params.host.unlockHash = unlockHash)
    (created : createRenewedContract p zeroHash so.current.revision
      (hashing.unlockHash (createFileContractUnlockConds params.host.publicKey renterPK)) params
      txnFee (renewBaseCosts so.current.revision pt params.endHeight).1
      (renewBaseCosts so.current.revision pt params.endHeight).2 = some (.ok fc))
    (early : blockHeight + revisionSubmissionBuffer < params.endHeight)
    (late : params.endHeight ≤ blockHeight + pt.maxDuration) :
    ∃ collateral, fc.validProofOutputs[1]? = some ⟨collateral + pt.contractPrice +
        (renewBaseCosts so.current.revision pt params.endHeight).1, unlockHash⟩ ∧
      verifyRenewedContract zeroHash hashing so fc so.current.revision blockHeight collateralBudget
        unlockHash pt renterPK params.host.publicKey lockedCollateral =
      if lockedCollateral + collateral ≤ collateralBudget then .ok collateral
      else .error .collateralBudgetExceeded := by
  obtain ⟨hostCollateral, capped, covered, sized, rooted, started, ended, hashed, valid, missed⟩ :=
    createRenewedContract_eq_some_ok created
  refine ⟨hostCollateral, by rw [valid, price, address]; rfl, ?_⟩
  have validLength : fc.validProofOutputs.length = 2 := by
    rw [valid]
    rfl
  have missedLength : fc.missedProofOutputs.length = 3 := by
    rw [missed]
    rfl
  obtain ⟨c, shaped⟩ : ∃ c, contractOutputs fc = some c := by
    refine ⟨⟨fc, validLength, missedLength⟩, ?_⟩
    unfold contractOutputs
    rw [dif_pos validLength, dif_pos missedLength]
  obtain ⟨contract, validHost, missedHost, void⟩ := contractOutputs_eq_some shaped
  rw [valid] at validHost
  rw [missed] at missedHost void
  simp only [List.getElem?_cons_succ, List.getElem?_cons_zero, Option.some.injEq]
    at validHost missedHost void
  have computed : renewContractCollateral pt so.current.revision c = .ok hostCollateral := by
    rw [renewContractCollateral_eq_ok, contract, started, ContractOutputs.validHostPayout,
      ← validHost, price]
  -- name the base price and the base collateral the renter risked, which the host recomputes
  obtain ⟨basePrice, basePriceEq⟩ :
      ∃ b, b = (renewBaseCosts so.current.revision pt params.endHeight).1 := ⟨_, rfl⟩
  obtain ⟨risked, riskedEq⟩ : ∃ r, r =
      if hostCollateral < (renewBaseCosts so.current.revision pt params.endHeight).2 then
        hostCollateral
      else (renewBaseCosts so.current.revision pt params.endHeight).2 := ⟨_, rfl⟩
  rw [← basePriceEq] at validHost
  rw [← riskedEq] at missedHost
  rw [← basePriceEq, ← riskedEq] at void
  have riskedLe : risked ≤ hostCollateral := by
    rw [riskedEq]
    split_ifs <;> unfold Currency at * <;> omega
  have opened : ¬ params.endHeight ≤ blockHeight + revisionSubmissionBuffer :=
    UInt64.not_le.mpr early
  have lasting : ¬ params.endHeight + params.host.windowSize < params.endHeight + pt.windowSize := by
    rw [window]
    exact UInt64.lt_irrefl _
  have bounded : ¬ params.endHeight > blockHeight + pt.maxDuration := UInt64.not_lt.mpr late
  have withinMax : ¬ hostCollateral > pt.maxCollateral := by
    rw [← cap]
    exact Nat.not_lt.mpr capped
  have paysHost :
      ¬ hostCollateral + pt.contractPrice + basePrice < basePrice + risked + pt.contractPrice := by
    unfold Currency at *
    omega
  have returnsCollateral : ¬ hostCollateral - risked + pt.contractPrice <
      hostCollateral + pt.contractPrice + basePrice - basePrice - risked := by
    unfold Currency at *
    omega
  simp only [verifyRenewedContract, shaped, computed, ContractOutputs.validHostPayout, ← validHost,
    ← missedHost, ← void, StorageObligation.fileSize, StorageObligation.merkleRoot, sized, rooted,
    hashed, started, ended, price, ← basePriceEq, ← riskedEq, opened, lasting, bounded, withinMax,
    paysHost, returnsCollateral, address, createFileContractUnlockConds, failIf, ne_eq,
    not_true_eq_false, or_self, lt_self_iff_false, if_false, Except.ok_bind]
  -- only the budget can refuse the contract
  by_cases budget : lockedCollateral + hostCollateral ≤ collateralBudget
  · have fits : ¬ lockedCollateral + hostCollateral > collateralBudget := Nat.not_lt.mpr budget
    simp only [fits, budget, if_true, if_false, Except.ok_bind]
    rfl
  · have exceeds : lockedCollateral + hostCollateral > collateralBudget := Nat.lt_of_not_le budget
    simp only [exceeds, budget, if_true, if_false]
    rfl

end Host

/-! ### Renter and host agree -/

variable [DecidableEq H]

theorem renewal_accepted_by_host (p : Params H) (zeroHash : H) (hashing : Host.Hashing H) :
    (∀ (so : Host.StorageObligation H) (pt : RPCPriceTable) (params : ContractParams H)
      (txnFee : Currency) (renterPK : SiaPublicKey) (unlockHash : H) (fc : FileContract H)
      (blockHeight : UInt64) (collateralBudget lockedCollateral : Currency),
      params.host.contractPrice = pt.contractPrice →
      params.host.maxCollateral = pt.maxCollateral →
      params.host.windowSize = pt.windowSize → params.host.unlockHash = unlockHash →
      createRenewedContract p zeroHash so.current.revision
        (hashing.unlockHash (createFileContractUnlockConds params.host.publicKey renterPK)) params
        txnFee (renewBaseCosts so.current.revision pt params.endHeight).1
        (renewBaseCosts so.current.revision pt params.endHeight).2 = some (.ok fc) →
      blockHeight + Host.revisionSubmissionBuffer < params.endHeight →
      params.endHeight ≤ blockHeight + pt.maxDuration →
      (fc.validProofOutputs.map (·.value)).sum = postTax p params.startHeight.toNat fc.payout ∧
      (fc.missedProofOutputs.map (·.value)).sum = postTax p params.startHeight.toNat fc.payout ∧
      ∃ collateral, fc.validProofOutputs[1]? = some ⟨collateral + pt.contractPrice +
          (renewBaseCosts so.current.revision pt params.endHeight).1, unlockHash⟩ ∧
        Host.verifyRenewedContract zeroHash hashing so fc so.current.revision blockHeight
          collateralBudget unlockHash pt renterPK params.host.publicKey lockedCollateral =
        if lockedCollateral + collateral ≤ collateralBudget then .ok collateral
        else .error .collateralBudgetExceeded) ∧
    ∀ (so : Host.StorageObligation H) (newContract : FileContract H)
      (oldRevision : FileContractRevision H) (blockHeight : UInt64)
      (collateralBudget : Currency) (unlockHash : H) (pt : RPCPriceTable)
      (renterPK hostPK : SiaPublicKey) (lockedCollateral collateral : Currency),
      Host.verifyRenewedContract zeroHash hashing so newContract oldRevision blockHeight
        collateralBudget unlockHash pt renterPK hostPK lockedCollateral = .ok collateral →
      ∃ host, newContract.validProofOutputs[1]? = some host ∧
        (renewBaseCosts oldRevision pt newContract.windowStart).1 + pt.contractPrice ≤ host.value ∧
        collateral ≤ pt.maxCollateral := by
  constructor
  · intro so pt params txnFee renterPK unlockHash fc blockHeight collateralBudget lockedCollateral
      price cap window address created early late
    obtain ⟨valid, missed⟩ := createRenewedContract_balanced created
    exact ⟨valid, missed, Host.verifyRenewedContract_createRenewedContract zeroHash hashing price cap
      window address created early late⟩
  · intro so newContract oldRevision blockHeight collateralBudget unlockHash pt renterPK hostPK
      lockedCollateral collateral accepted
    obtain ⟨host, paid, payout, capped, -⟩ := Host.verifyRenewedContract_eq_ok zeroHash hashing accepted
    refine ⟨host, paid, ?_, capped⟩
    rw [payout]
    unfold Currency at *
    omega

/-- The release constants over natural-number hashes, as the consensus samples use them. -/
def releaseParams : Params ℕ := Consensus.sampleParams

/-- The sample contract holding one sector, its window ending at 1144. -/
def storedRevision : FileContractRevision ℕ := { Host.sampleRevision with newFileSize := 4194304 }

def storedObligation : Host.StorageObligation ℕ :=
  { Host.sampleObligation with
    sectorRoots := [0]
    revisionTransactionSet :=
      [{ Host.sampleRevisionTransaction with fileContractRevisions := [storedRevision] }]
    current := ⟨storedRevision, rfl, rfl⟩
    signed := rfl }

/-- Prices of 1 per byte-block of storage and 2 of collateral, a renewal cost of 1 and a contract
price of 10. -/
def samplePriceTable : RPCPriceTable := ⟨1, 1, 10, 2, 1000000000000, 10000, 144⟩

def sampleRenterKey : SiaPublicKey := ⟨Vector.replicate 16 0, []⟩

/-- A renewal to height 22000 of the stored contract, funded with 10^12, with the host's entry
matching the price table. -/
def sampleContractParams : ContractParams ℕ :=
  ⟨⟨1, 100⟩, ⟨sampleRenterKey, 144, 20, 1, 1000000000000, 10, 1⟩, 1000000000000, 21000, 22000, 10⟩

/-- What the renter builds: the collateral is capped at five times the expected storage over the
period, 500000, below the base collateral, which is clamped to it. -/
def sampleRenewedContract : FileContract ℕ :=
  { fileSize := 4194304, fileMerkleRoot := 0, windowStart := 22000, windowEnd := 22144,
    payout := 1000000500000,
    validProofOutputs := [⟨872919605989, 10⟩, ⟨88080884011, 20⟩],
    missedProofOutputs := [⟨872919605989, 10⟩, ⟨10, 20⟩, ⟨88080884001, 0⟩],
    unlockHash := 0, revisionNumber := 0 }

theorem sampleRenewal_accepted :
    createRenewedContract releaseParams 0 storedObligation.current.revision
        (Host.sampleHashing.unlockHash
          (createFileContractUnlockConds sampleContractParams.host.publicKey sampleRenterKey))
        sampleContractParams 0 (renewBaseCosts storedRevision samplePriceTable 22000).1
        (renewBaseCosts storedRevision samplePriceTable 22000).2 =
      some (.ok sampleRenewedContract) ∧
    (sampleRenewedContract.validProofOutputs.map (·.value)).sum =
      postTax releaseParams 21000 sampleRenewedContract.payout ∧
    (sampleRenewedContract.missedProofOutputs.map (·.value)).sum =
      postTax releaseParams 21000 sampleRenewedContract.payout ∧
    ∃ collateral, sampleRenewedContract.validProofOutputs[1]? = some ⟨collateral + 10 +
        (renewBaseCosts storedRevision samplePriceTable 22000).1, 20⟩ ∧
      Host.verifyRenewedContract 0 Host.sampleHashing storedObligation sampleRenewedContract
        storedRevision 20000 1000000000000 20 samplePriceTable sampleRenterKey sampleRenterKey 0 =
      if 0 + collateral ≤ 1000000000000 then .ok collateral
      else .error .collateralBudgetExceeded :=
  have created : createRenewedContract releaseParams 0 storedObligation.current.revision
      (Host.sampleHashing.unlockHash
        (createFileContractUnlockConds sampleContractParams.host.publicKey sampleRenterKey))
      sampleContractParams 0 (renewBaseCosts storedRevision samplePriceTable 22000).1
      (renewBaseCosts storedRevision samplePriceTable 22000).2 =
      some (.ok sampleRenewedContract) := by rfl
  ⟨created, (renewal_accepted_by_host releaseParams 0 Host.sampleHashing).1 storedObligation
    samplePriceTable sampleContractParams 0 sampleRenterKey 20 sampleRenewedContract 20000
    1000000000000 0 rfl rfl rfl rfl created (by decide) (by decide)⟩

end Sia
