import Sia.Types.Transaction
import Mathlib.Algebra.BigOperators.Group.Multiset.Basic

/-! The balance a worker keeps for its ephemeral account with a host
(`modules/renter/workeraccount.go`). A deposit or a withdrawal is first tracked as pending and
later committed, successful or not; the account's signed balance is kept as two currencies,
`balance` and `negativeBalance`, which each commit rebalances against the other. `Currency.Sub`
is the release build's: below zero it logs and returns zero, which is ℕ's truncated
subtraction. The mutex is the account's: every call below runs whole under it. -/
namespace Sia.Renter

/-- The balance fields of `account`. -/
structure Account where
  balance : Currency
  negativeBalance : Currency
  pendingDeposits : Currency
  pendingWithdrawals : Currency
  deriving DecidableEq, Repr

namespace Account

variable (a : Account)

/-- `availableBalance` -/
def availableBalance : Currency :=
  let total := a.balance + a.pendingDeposits
  if total ≤ a.negativeBalance then 0
  else
    let total := total - a.negativeBalance
    if a.pendingWithdrawals < total then total - a.pendingWithdrawals else 0

/-- `maxExpectedBalance`: the subtraction goes below zero only by a logged `build.Critical`. -/
def maxExpectedBalance : Currency := a.balance + a.pendingDeposits - a.negativeBalance

/-- `minExpectedBalance` -/
def minExpectedBalance : Currency :=
  if a.balance ≤ a.negativeBalance then 0
  else
    let balance := a.balance - a.negativeBalance
    if balance ≤ a.pendingWithdrawals then 0 else balance - a.pendingWithdrawals

/-- `managedCommitDeposit` -/
def managedCommitDeposit (amount : Currency) (success : Bool) : Account :=
  let a := { a with pendingDeposits := a.pendingDeposits - amount }
  if success then
    if amount ≤ a.negativeBalance then { a with negativeBalance := a.negativeBalance - amount }
    else { a with negativeBalance := 0, balance := a.balance + (amount - a.negativeBalance) }
  else a

/-- `managedCommitWithdrawal` -/
def managedCommitWithdrawal (amount : Currency) (success : Bool) : Account :=
  let a := { a with pendingWithdrawals := a.pendingWithdrawals - amount }
  if success then
    if amount ≤ a.balance then { a with balance := a.balance - amount }
    else { a with balance := 0, negativeBalance := a.negativeBalance + (amount - a.balance) }
  else a

/-- `managedResetBalance`: the host's balance is trusted and every delta is forgotten. -/
def managedResetBalance (balance : Currency) : Account := ⟨balance, 0, 0, 0⟩

/-- `managedTrackDeposit` -/
def managedTrackDeposit (amount : Currency) : Account :=
  { a with pendingDeposits := a.pendingDeposits + amount }

/-- `managedTrackWithdrawal` -/
def managedTrackWithdrawal (amount : Currency) : Account :=
  { a with pendingWithdrawals := a.pendingWithdrawals + amount }

/-! ### The clamped balances

`availableBalance` and `minExpectedBalance` clamp in stages; each stage is the signed
difference cut at zero, whatever state the account is in. -/

theorem availableBalance_eq :
    (a.availableBalance : ℤ) =
      max 0 ((a.balance : ℤ) - a.negativeBalance + a.pendingDeposits - a.pendingWithdrawals) := by
  unfold availableBalance
  dsimp only
  split
  · rename_i short
    unfold Currency at short
    omega
  · rename_i covered
    unfold Currency at covered
    split
    · omega
    · rename_i drawn
      unfold Currency at drawn
      omega

theorem minExpectedBalance_eq :
    (a.minExpectedBalance : ℤ) =
      max 0 ((a.balance : ℤ) - a.negativeBalance - a.pendingWithdrawals) := by
  unfold minExpectedBalance
  dsimp only
  split
  · rename_i short
    unfold Currency at short
    omega
  · rename_i covered
    unfold Currency at covered
    split
    · rename_i drawn
      unfold Currency at drawn
      omega
    · omega

end Account

/-! ### Runs of tracked and committed calls -/

/-- The calls the worker's jobs make on the account: each deposit or withdrawal is tracked
before the job runs and committed, with its outcome, after it. -/
inductive AccountEvent where
  | trackDeposit (amount : Currency)
  | commitDeposit (amount : Currency) (success : Bool)
  | trackWithdrawal (amount : Currency)
  | commitWithdrawal (amount : Currency) (success : Bool)
  deriving DecidableEq, Repr

namespace Account

def step (a : Account) : AccountEvent → Account
  | .trackDeposit amount => a.managedTrackDeposit amount
  | .commitDeposit amount success => a.managedCommitDeposit amount success
  | .trackWithdrawal amount => a.managedTrackWithdrawal amount
  | .commitWithdrawal amount success => a.managedCommitWithdrawal amount success

def run (a : Account) (events : List AccountEvent) : Account := events.foldl step a

end Account

/-- The ledger the calls keep without storing it: the amounts tracked and not yet committed,
and the signed balance the host should hold, the start plus the successful deposits minus the
successful withdrawals. -/
structure Ledger where
  deposits : Multiset Currency
  withdrawals : Multiset Currency
  net : ℤ

namespace Ledger

def step (g : Ledger) : AccountEvent → Ledger
  | .trackDeposit amount => { g with deposits := amount ::ₘ g.deposits }
  | .commitDeposit amount success =>
    { g with deposits := g.deposits.erase amount, net := if success then g.net + amount else g.net }
  | .trackWithdrawal amount => { g with withdrawals := amount ::ₘ g.withdrawals }
  | .commitWithdrawal amount success =>
    { g with withdrawals := g.withdrawals.erase amount,
             net := if success then g.net - amount else g.net }

/-- A commit matches an earlier track of the same amount that is still outstanding. -/
def Admits (g : Ledger) : AccountEvent → Prop
  | .commitDeposit amount _ => amount ∈ g.deposits
  | .commitWithdrawal amount _ => amount ∈ g.withdrawals
  | _ => True

/-- Every commit of the run matches an outstanding track. -/
def Matched : Ledger → List AccountEvent → Prop
  | _, [] => True
  | g, event :: rest => g.Admits event ∧ Matched (g.step event) rest

def run (g : Ledger) (events : List AccountEvent) : Ledger := events.foldl step g

/-- The account agrees with the ledger: its two balances are never both set, their signed
difference is the ledger's net, and the pending fields are the outstanding sums. -/
structure Holds (a : Account) (g : Ledger) : Prop where
  oneSided : a.balance = 0 ∨ a.negativeBalance = 0
  net : (a.balance : ℤ) - a.negativeBalance = g.net
  pendingDeposits : a.pendingDeposits = g.deposits.sum
  pendingWithdrawals : a.pendingWithdrawals = g.withdrawals.sum

/-- `managedResetBalance(b)` starts a ledger with nothing outstanding and `b` as its net. -/
theorem holds_reset (b : Currency) : Holds (Account.managedResetBalance b) ⟨0, 0, b⟩ where
  oneSided := .inr rfl
  net := by simp [Account.managedResetBalance]
  pendingDeposits := rfl
  pendingWithdrawals := rfl

/-- A matched commit subtracts an amount that the pending sum contains, so the truncated
subtraction is exact. -/
theorem sum_erase_of_mem {s : Multiset Currency} {amount : Currency} (mem : amount ∈ s) :
    (s.erase amount).sum = s.sum - amount := by
  rw [← Multiset.sum_erase mem, Nat.add_sub_cancel_left]

theorem Holds.step {a : Account} {g : Ledger} (holds : Holds a g) {event : AccountEvent}
    (admits : g.Admits event) : Holds (a.step event) (g.step event) := by
  obtain ⟨oneSided, net, deposits, withdrawals⟩ := holds
  cases event with
  | trackDeposit amount =>
    refine ⟨oneSided, net, ?_, withdrawals⟩
    simp [Account.step, Account.managedTrackDeposit, Ledger.step, deposits, Nat.add_comm]
  | trackWithdrawal amount =>
    refine ⟨oneSided, net, deposits, ?_⟩
    simp [Account.step, Account.managedTrackWithdrawal, Ledger.step, withdrawals, Nat.add_comm]
  | commitDeposit amount success =>
    have pending : a.pendingDeposits - amount = (g.deposits.erase amount).sum := by
      rw [deposits, sum_erase_of_mem admits]
    cases success with
    | false => exact ⟨oneSided, net, pending, withdrawals⟩
    | true =>
      -- a successful deposit first pays off the negative balance, then adds to the balance
      simp only [Account.step, Account.managedCommitDeposit, Ledger.step, ↓reduceIte]
      split
      · rename_i paysOff
        unfold Currency at paysOff
        refine ⟨oneSided.imp_right fun cleared => by rw [cleared, Nat.zero_sub], ?_, pending,
          withdrawals⟩
        dsimp only
        omega
      · rename_i exceeds
        unfold Currency at exceeds
        refine ⟨.inr rfl, ?_, pending, withdrawals⟩
        dsimp only
        omega
  | commitWithdrawal amount success =>
    have pending : a.pendingWithdrawals - amount = (g.withdrawals.erase amount).sum := by
      rw [withdrawals, sum_erase_of_mem admits]
    cases success with
    | false => exact ⟨oneSided, net, deposits, pending⟩
    | true =>
      -- a successful withdrawal first draws on the balance, then adds to the negative balance
      simp only [Account.step, Account.managedCommitWithdrawal, Ledger.step, ↓reduceIte]
      split
      · rename_i covered
        unfold Currency at covered
        refine ⟨oneSided.imp_left fun empty => by rw [empty, Nat.zero_sub], ?_, deposits,
          pending⟩
        dsimp only
        omega
      · rename_i exceeds
        unfold Currency at exceeds
        refine ⟨.inl rfl, ?_, deposits, pending⟩
        dsimp only
        omega

/-- Over every matched run the account keeps agreeing with its ledger. -/
theorem Holds.run {a : Account} {g : Ledger} (holds : Holds a g) {events : List AccountEvent}
    (matched : Matched g events) : Holds (a.run events) (g.run events) := by
  induction events generalizing a g with
  | nil => exact holds
  | cons event rest ih => exact ih (holds.step matched.1) matched.2

end Ledger

/-! ### The bound behind `maxExpectedBalance`

The source notes that `negativeBalance` never exceeds the pending deposits; a withdrawal that
the available balance covered when it was tracked, followed by the failure of the deposit that
covered it, takes it past `balance + pendingDeposits`. -/

/-- From `managedResetBalance(b)`: a deposit of `d` is tracked, a withdrawal of everything
available is tracked and succeeds, and the deposit then fails. The run is matched, yet
`negativeBalance` ends at `d`, above `balance + pendingDeposits = 0`, and `maxExpectedBalance`
clamps the signed balance `-d` to zero. -/
theorem negativeBalance_exceeds_after_failed_deposit (b d : Currency) (positive : 0 < d) :
    let start := Account.managedResetBalance b
    let events := [.trackDeposit d, .trackWithdrawal (b + d), .commitWithdrawal (b + d) true,
      .commitDeposit d false]
    Ledger.Matched ⟨0, 0, b⟩ events ∧
      (start.managedTrackDeposit d).availableBalance = b + d ∧
      (start.run events).balance + (start.run events).pendingDeposits <
        (start.run events).negativeBalance ∧
      (start.run events).maxExpectedBalance = 0 := by
  have beyond : ¬ b + d ≤ b := by
    unfold Currency at *
    omega
  have available : ¬ (b = 0 ∧ d = 0) ∧ 0 < b + d := by
    unfold Currency at *
    omega
  refine ⟨?_, ?_, ?_, ?_⟩
  · simp [Ledger.Matched, Ledger.Admits, Ledger.step]
  · simp [Account.availableBalance, Account.managedTrackDeposit, Account.managedResetBalance,
      available]
  · simp [Account.run, Account.step, Account.managedTrackDeposit, Account.managedTrackWithdrawal,
      Account.managedCommitWithdrawal, Account.managedCommitDeposit, Account.managedResetBalance,
      beyond, positive]
  · simp [Account.run, Account.step, Account.managedTrackDeposit, Account.managedTrackWithdrawal,
      Account.managedCommitWithdrawal, Account.managedCommitDeposit, Account.managedResetBalance,
      Account.maxExpectedBalance, beyond]

theorem negativeBalance_exceeds_five_three :
    0 < 3 ∧
      let start := Account.managedResetBalance 5
      let events := [.trackDeposit 3, .trackWithdrawal (5 + 3), .commitWithdrawal (5 + 3) true,
        .commitDeposit 3 false]
      Ledger.Matched ⟨0, 0, 5⟩ events ∧
        (start.managedTrackDeposit 3).availableBalance = 5 + 3 ∧
        (start.run events).balance + (start.run events).pendingDeposits <
          (start.run events).negativeBalance ∧
        (start.run events).maxExpectedBalance = 0 :=
  ⟨by decide, negativeBalance_exceeds_after_failed_deposit 5 3 (by decide)⟩

end Sia.Renter
