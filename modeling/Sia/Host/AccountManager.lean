import Sia.Types.Transaction
import Sia.Lib.Except
import Mathlib.Data.Finset.Insert

/-! Replay protection of ephemeral-account withdrawals (`modules/host/accountmanager.go` and
`accountspersister.go`): the two fingerprint buckets, their rotation on consensus changes, and
the checks `callWithdraw` and `managedWithdraw` make before a withdrawal is accepted. Balances
and the queues of blocked calls are not modelled: a withdrawal that passes the fingerprint checks
returns nil unless its account cannot be opened, which is an input. -/
namespace Sia.Host

open Except (failIf)

/-- `bucketBlockRange`: the heights one fingerprint bucket spans. -/
def bucketBlockRange : UInt64 := 20

/-- `currentBucketRange`: the first and last height of the bucket that holds a height. -/
def currentBucketRange (currentBlockHeight : UInt64) : UInt64 × UInt64 :=
  let threshold := currentBlockHeight + (bucketBlockRange - currentBlockHeight % bucketBlockRange)
  (threshold - bucketBlockRange, threshold - 1)

/-- Below the last bucket of `uint64`, the bucket of a height starts at the height rounded down
to a multiple of `20` and ends 19 later. -/
theorem currentBucketRange_toNat {blockHeight : UInt64} (fits : blockHeight.toNat + 20 < 2 ^ 64) :
    (currentBucketRange blockHeight).1.toNat = blockHeight.toNat - blockHeight.toNat % 20 ∧
      (currentBucketRange blockHeight).2.toNat =
        blockHeight.toNat - blockHeight.toNat % 20 + 19 := by
  have rem_lt : blockHeight.toNat % 20 < 20 := Nat.mod_lt _ (by decide)
  have rem : (blockHeight % 20).toNat = blockHeight.toNat % 20 := UInt64.toNat_mod _ _
  have gap : (20 - blockHeight % 20).toNat = 20 - blockHeight.toNat % 20 := by
    rw [UInt64.toNat_sub_of_le _ _ (by rw [UInt64.le_iff_toNat_le, rem]; simp; omega), rem]; rfl
  have threshold : (blockHeight + (20 - blockHeight % 20)).toNat =
      blockHeight.toNat - blockHeight.toNat % 20 + 20 := by
    rw [UInt64.toNat_add, gap, Nat.mod_eq_of_lt (by omega)]
    omega
  simp only [currentBucketRange, bucketBlockRange]
  constructor <;>
  · rw [UInt64.toNat_sub_of_le _ _ (by rw [UInt64.le_iff_toNat_le, threshold]; simp), threshold]
    simp

/-- The fingerprints of accepted withdrawals, by the bucket of their expiry. -/
structure FingerprintMap (F : Type) where
  current : Finset F
  next : Finset F

namespace FingerprintMap

variable {F : Type} [DecidableEq F]

/-- `fingerprintMap.add`: into the current bucket when the expiry lies in the bucket of the
height, into the next one otherwise. -/
def add (fm : FingerprintMap F) (fp : F) (expiry blockHeight : UInt64) : FingerprintMap F :=
  if expiry ≤ (currentBucketRange blockHeight).2 then { fm with current := insert fp fm.current }
  else { fm with next := insert fp fm.next }

/-- `fingerprintMap.has`. -/
def has (fm : FingerprintMap F) (fp : F) : Prop := fp ∈ fm.current ∨ fp ∈ fm.next

instance (fm : FingerprintMap F) (fp : F) : Decidable (fm.has fp) :=
  inferInstanceAs (Decidable (fp ∈ fm.current ∨ fp ∈ fm.next))

/-- `fingerprintMap.rotate`: the next bucket becomes the current one, and the current one is
dropped. -/
def rotate (fm : FingerprintMap F) : FingerprintMap F := ⟨fm.next, ∅⟩

theorem add_of_le_bucketEnd {fm : FingerprintMap F} {fp : F} {expiry blockHeight : UInt64}
    (inBucket : expiry ≤ (currentBucketRange blockHeight).2) :
    fm.add fp expiry blockHeight = { fm with current := insert fp fm.current } := by
  simp [add, inBucket]

theorem has_add {fm : FingerprintMap F} {fp : F} {expiry blockHeight : UInt64} :
    (fm.add fp expiry blockHeight).has fp := by
  unfold add has
  split <;> simp

end FingerprintMap

/-- `modules.WithdrawalMessage`; its fingerprint is a hash of all of it. -/
structure WithdrawalMessage (A : Type) where
  account : A
  expiry : UInt64
  amount : Currency
  nonce : Vector UInt8 8

inductive WithdrawError where
  | withdrawalExpired
  | withdrawalExtremeFuture
  | badSignature
  | withdrawalsInactive
  | withdrawalSpent
  | openAccountFailed
  deriving DecidableEq, Repr

/-- `ValidateExpiry`: not expired at `blockHeight` and not later than `expiry`. -/
def WithdrawalMessage.validateExpiry {A : Type} (wm : WithdrawalMessage A)
    (blockHeight expiry : UInt64) : Except WithdrawError Unit := do
  failIf (blockHeight > wm.expiry) .withdrawalExpired
  failIf (wm.expiry > expiry) .withdrawalExtremeFuture

/-- `Validate` composes the expiry and signature errors: the list of those that fail. -/
def WithdrawalMessage.validate {A : Type} (wm : WithdrawalMessage A) (blockHeight expiry : UInt64)
    (signed : Bool) : List WithdrawError :=
  (match wm.validateExpiry blockHeight expiry with
    | .error e => [e]
    | .ok () => []) ++ if signed then [] else [.badSignature]

theorem WithdrawalMessage.validateExpiry_eq_ok {A : Type} {wm : WithdrawalMessage A}
    {blockHeight expiry : UInt64} :
    wm.validateExpiry blockHeight expiry = .ok () ↔
      blockHeight ≤ wm.expiry ∧ wm.expiry ≤ expiry := by
  simp only [validateExpiry, Except.failIf_bind_eq_ok, Except.failIf_eq_ok, GT.gt, UInt64.not_lt]

theorem WithdrawalMessage.validate_eq_nil_iff {A : Type} {wm : WithdrawalMessage A}
    {blockHeight expiry : UInt64}
    {signed : Bool} :
    wm.validate blockHeight expiry signed = [] ↔
      wm.validateExpiry blockHeight expiry = .ok () ∧ signed = true := by
  unfold validate
  cases wm.validateExpiry blockHeight expiry with
  | error e => simp
  | ok u => cases signed <;> simp

/-- What a consensus change tells the account manager besides the heights. -/
structure ConsensusChange where
  synced : Bool

/-- The account manager's replay-protection state. -/
structure AccountManager (F : Type) where
  fingerprints : FingerprintMap F
  withdrawalsInactive : Bool

variable {F A : Type} [DecidableEq F]

/-- `callConsensusChanged`; `rotated` is whether `callRotateFingerprintBuckets` succeeds on disk.
A failed rotation deactivates withdrawals, and the next synced change rotates whatever the
heights. -/
def callConsensusChanged (am : AccountManager F) (cc : ConsensusChange)
    (oldHeight newHeight : UInt64) (rotated : Bool) : AccountManager F :=
  if !cc.synced then { am with withdrawalsInactive := true }
  else
    let min := (currentBucketRange newHeight).1
    let shouldRotate := oldHeight < newHeight ∧ oldHeight < min ∧ min ≤ newHeight
    if !am.withdrawalsInactive ∧ ¬ shouldRotate then am
    else if rotated then ⟨am.fingerprints.rotate, false⟩
    else { am with withdrawalsInactive := true }

/-- `managedWithdraw` up to its result: the fingerprint is recorded before the account is
opened, so it stays recorded when opening fails. -/
def managedWithdraw (am : AccountManager F) (fp : F) (expiry blockHeight : UInt64)
    (opened : Bool) : AccountManager F × Option WithdrawError :=
  if am.withdrawalsInactive then (am, some .withdrawalsInactive)
  else if am.fingerprints.has fp then (am, some .withdrawalSpent)
  else
    ({ am with fingerprints := am.fingerprints.add fp expiry blockHeight },
      if opened then none else some .openAccountFailed)

/-- `callWithdraw` at height `bh`: validation against `bh + bucketBlockRange`, then
`managedWithdraw`. An empty error list is the nil result. -/
def callWithdraw (hash : WithdrawalMessage A → F) (am : AccountManager F)
    (msg : WithdrawalMessage A) (signed : Bool) (bh : UInt64) (opened : Bool) :
    AccountManager F × List WithdrawError :=
  match msg.validate bh (bh + bucketBlockRange) signed with
  | [] =>
    let (am, err) := managedWithdraw am (hash msg) msg.expiry bh opened
    (am, err.toList)
  | errs => (am, errs)

omit [DecidableEq F] in
theorem callConsensusChanged_of_le {am : AccountManager F} {oldHeight newHeight : UInt64}
    {rotated : Bool} (active : am.withdrawalsInactive = false) (lower : newHeight ≤ oldHeight) :
    callConsensusChanged am ⟨true⟩ oldHeight newHeight rotated = am := by
  have notRaised : ¬ oldHeight < newHeight := UInt64.not_lt.mpr lower
  simp [callConsensusChanged, active, notRaised]

omit [DecidableEq F] in
theorem callConsensusChanged_of_crossing {am : AccountManager F} {oldHeight newHeight : UInt64}
    (raised : oldHeight < newHeight)
    (crossing : oldHeight < (currentBucketRange newHeight).1 ∧
      (currentBucketRange newHeight).1 ≤ newHeight) :
    callConsensusChanged am ⟨true⟩ oldHeight newHeight true =
      ⟨am.fingerprints.rotate, false⟩ := by
  simp [callConsensusChanged, raised, crossing]

theorem callWithdraw_eq_accept {hash : WithdrawalMessage A → F} {am : AccountManager F}
    {msg : WithdrawalMessage A} {bh : UInt64} (active : am.withdrawalsInactive = false)
    (fresh : ¬ am.fingerprints.has (hash msg))
    (valid : msg.validate bh (bh + bucketBlockRange) true = []) :
    callWithdraw hash am msg true bh true =
      ({ am with fingerprints := am.fingerprints.add (hash msg) msg.expiry bh }, []) := by
  simp [callWithdraw, valid, managedWithdraw, active, fresh]

/-! ### The host's runs -/

/-- The account manager together with the host's block height, which the RPC handlers pass to
`callWithdraw` and `ProcessConsensusChange` passes as the old height. -/
structure HostState (F : Type) where
  accounts : AccountManager F
  blockHeight : UInt64

/-- What can happen to the host: a withdrawal request whose signature does or does not verify
and whose account can or cannot be opened, or a consensus change to a new height whose on-disk
rotation does or does not succeed. -/
inductive Event (A : Type) where
  | withdraw (msg : WithdrawalMessage A) (signed opened : Bool)
  | consensusChanged (cc : ConsensusChange) (newHeight : UInt64) (rotated : Bool)

/-- One event, with the errors a withdrawal returns. -/
def step (hash : WithdrawalMessage A → F) (s : HostState F) :
    Event A → HostState F × List WithdrawError
  | .withdraw msg signed opened =>
    let (accounts, errs) := callWithdraw hash s.accounts msg signed s.blockHeight opened
    ({ s with accounts := accounts }, errs)
  | .consensusChanged cc newHeight rotated =>
    (⟨callConsensusChanged s.accounts cc s.blockHeight newHeight rotated, newHeight⟩, [])

/-- The withdrawal an event has accepted: a request whose call returned nil. -/
def acceptedBy : Event A → List WithdrawError → List (WithdrawalMessage A)
  | .withdraw msg _ _, [] => [msg]
  | _, _ => []

/-- A run of events: the final state and the withdrawals accepted, in order. -/
def run (hash : WithdrawalMessage A → F) :
    HostState F → List (Event A) → HostState F × List (WithdrawalMessage A)
  | s, [] => (s, [])
  | s, e :: es =>
    let (s', errs) := step hash s e
    let (t, accepted) := run hash s' es
    (t, acceptedBy e errs ++ accepted)

/-! ### A withdrawal accepted twice across a reorganisation -/

omit [DecidableEq F] in
/-- At a bucket boundary, a reorganisation one block down leaves the buckets alone and the
return to the boundary rotates them again. -/
theorem callConsensusChanged_reorg_rotates {am : AccountManager F} {h : UInt64}
    (active : am.withdrawalsInactive = false) (boundary : h.toNat % 20 = 0)
    (positive : 0 < h.toNat) (fits : h.toNat + 20 < 2 ^ 64) :
    callConsensusChanged (callConsensusChanged am ⟨true⟩ h (h - 1) true)
        ⟨true⟩ (h - 1) h true =
      ⟨am.fingerprints.rotate, false⟩ := by
  have start := (currentBucketRange_toNat fits).1
  have pred : (h - 1).toNat = h.toNat - 1 :=
    UInt64.toNat_sub_of_le _ _ (by rw [UInt64.le_iff_toNat_le]; simp; omega)
  have dropped : h - 1 ≤ h := by
    rw [UInt64.le_iff_toNat_le, pred]
    omega
  have raised : h - 1 < h := by
    rw [UInt64.lt_iff_toNat_lt, pred]
    omega
  have crossing : h - 1 < (currentBucketRange h).1 ∧ (currentBucketRange h).1 ≤ h := by
    rw [UInt64.lt_iff_toNat_lt, UInt64.le_iff_toNat_le, start, pred]
    omega
  rw [callConsensusChanged_of_le active dropped, callConsensusChanged_of_crossing raised crossing]

/-- After a withdrawal at a bucket boundary whose expiry lies in the current bucket, a
reorganisation one block down and back up rotates the buckets a second time, and the same
message is accepted again. -/
theorem withdrawal_replayed_across_reorg (hash : WithdrawalMessage A → F) {s : HostState F}
    {msg : WithdrawalMessage A} (active : s.accounts.withdrawalsInactive = false)
    (fresh : ¬ s.accounts.fingerprints.has (hash msg))
    (boundary : s.blockHeight.toNat % 20 = 0) (positive : 0 < s.blockHeight.toNat)
    (fits : s.blockHeight.toNat + 20 < 2 ^ 64) (unexpired : s.blockHeight ≤ msg.expiry)
    (inBucket : msg.expiry.toNat ≤ s.blockHeight.toNat + 19) :
    (run hash s [.withdraw msg true true, .consensusChanged ⟨true⟩ (s.blockHeight - 1) true,
      .consensusChanged ⟨true⟩ s.blockHeight true, .withdraw msg true true]).2 =
      [msg, msg] := by
  have valid : msg.validate s.blockHeight (s.blockHeight + bucketBlockRange) true = [] := by
    refine WithdrawalMessage.validate_eq_nil_iff.mpr ⟨WithdrawalMessage.validateExpiry_eq_ok.mpr
      ⟨unexpired, ?_⟩, rfl⟩
    rw [UInt64.le_iff_toNat_le, UInt64.toNat_add, show bucketBlockRange.toNat = 20 from rfl,
      Nat.mod_eq_of_lt fits]
    omega
  -- the fingerprint goes to the current bucket, which the second rotation drops
  have inCurrent : msg.expiry ≤ (currentBucketRange s.blockHeight).2 := by
    rw [UInt64.le_iff_toNat_le, (currentBucketRange_toNat fits).2]
    omega
  have forgotten : ¬ (FingerprintMap.rotate { s.accounts.fingerprints with
      current := insert (hash msg) s.accounts.fingerprints.current }).has (hash msg) := by
    simpa [FingerprintMap.rotate, FingerprintMap.has] using fun mem => fresh (Or.inr mem)
  simp only [run, step, callWithdraw_eq_accept active fresh valid,
    FingerprintMap.add_of_le_bucketEnd inCurrent]
  rw [callConsensusChanged_reorg_rotates ?_ boundary positive fits,
    callWithdraw_eq_accept ?_ ?_ valid]
  · simp only [acceptedBy, List.singleton_append, List.nil_append, List.append_nil]
  · rfl
  · exact forgotten
  · exact active

def sampleWithdrawal : WithdrawalMessage ℕ := ⟨0, 30, 1, Vector.replicate 8 0⟩

/-- A synced host at height 20 that has accepted no withdrawal. -/
def sampleHost : HostState ℕ := ⟨⟨⟨∅, ∅⟩, false⟩, 20⟩

theorem sampleWithdrawal_replayed :
    sampleHost.accounts.withdrawalsInactive = false ∧
      ¬ sampleHost.accounts.fingerprints.has sampleWithdrawal.expiry.toNat ∧
      sampleHost.blockHeight.toNat % 20 = 0 ∧ 0 < sampleHost.blockHeight.toNat ∧
      sampleHost.blockHeight.toNat + 20 < 2 ^ 64 ∧
      sampleHost.blockHeight ≤ sampleWithdrawal.expiry ∧
      sampleWithdrawal.expiry.toNat ≤ sampleHost.blockHeight.toNat + 19 ∧
      (run (·.expiry.toNat) sampleHost [.withdraw sampleWithdrawal true true,
        .consensusChanged ⟨true⟩ (sampleHost.blockHeight - 1) true,
        .consensusChanged ⟨true⟩ sampleHost.blockHeight true,
        .withdraw sampleWithdrawal true true]).2 = [sampleWithdrawal, sampleWithdrawal] :=
  ⟨rfl, by decide, by decide, by decide, by decide, by decide, by decide,
    withdrawal_replayed_across_reorg (·.expiry.toNat) rfl (by decide) (by decide) (by decide)
      (by decide) (by decide) (by decide)⟩

end Sia.Host
