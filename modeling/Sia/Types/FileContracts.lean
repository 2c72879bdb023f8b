import Sia.Types.Transaction

/-! The payment helpers of `types.FileContractRevision` (`types/filecontracts.go`).
`PaymentRevision`, `EAFundRevision` and `ExecuteProgramRevision` copy the revision and its two
output slices, then move money between outputs through setters that write at fixed positions:
the renter's output is the first, the host's the second and the void the third missed output.
A getter or setter past the end of a slice panics (none); `MissedVoidOutput` and
`SetMissedVoidPayout` check for the void output and return an error instead. Since the slices
are copied first, the revision given is never written, and the model's revisions are values.

`Currency.Sub` below zero gives zero (and a critical log), as natural-number subtraction does. -/
namespace Sia

variable {H : Type}

/-- The helpers' errors; `withContext` is `errors.AddContext`. -/
inductive RevisionError where
  | revisionCostTooHigh
  | missingVoidOutput
  | revisionNotIncremented
  | withContext (err : RevisionError) (context : String)
  deriving DecidableEq, Repr

/-- The value of output `i`; none where Go's index panics. -/
def outputValue (outputs : List (SiacoinOutput H)) (i : ℕ) : Option Currency :=
  outputs[i]?.map SiacoinOutput.value

/-- Writing the value of output `i` through the slice; none where Go's index panics. -/
def setOutputValue (outputs : List (SiacoinOutput H)) (i : ℕ) (value : Currency) :
    Option (List (SiacoinOutput H)) :=
  if i < outputs.length then some (outputs.modify i fun o => { o with value := value }) else none

namespace FileContractRevision

variable (fcr : FileContractRevision H)

def validRenterPayout : Option Currency := outputValue fcr.newValidProofOutputs 0

def validHostPayout : Option Currency := outputValue fcr.newValidProofOutputs 1

def missedRenterPayout : Option Currency := outputValue fcr.newMissedProofOutputs 0

def missedHostPayout : Option Currency := outputValue fcr.newMissedProofOutputs 1

/-- `MissedVoidOutput`: an error, not a panic, without a third missed output. -/
def missedVoidOutput : Except RevisionError (SiacoinOutput H) :=
  match fcr.newMissedProofOutputs[2]? with
  | some void => .ok void
  | none => .error .missingVoidOutput

def missedVoidPayout : Except RevisionError Currency :=
  fcr.missedVoidOutput.map SiacoinOutput.value

/-- The setters of the valid outputs' values, at position `i`. -/
def setValidPayout (i : ℕ) (value : Currency) : Option (FileContractRevision H) :=
  (setOutputValue fcr.newValidProofOutputs i value).map fun outputs =>
    { fcr with newValidProofOutputs := outputs }

/-- The setters of the missed outputs' values, at position `i`. -/
def setMissedPayout (i : ℕ) (value : Currency) : Option (FileContractRevision H) :=
  (setOutputValue fcr.newMissedProofOutputs i value).map fun outputs =>
    { fcr with newMissedProofOutputs := outputs }

def setValidRenterPayout (value : Currency) : Option (FileContractRevision H) :=
  fcr.setValidPayout 0 value

def setValidHostPayout (value : Currency) : Option (FileContractRevision H) :=
  fcr.setValidPayout 1 value

def setMissedRenterPayout (value : Currency) : Option (FileContractRevision H) :=
  fcr.setMissedPayout 0 value

def setMissedHostPayout (value : Currency) : Option (FileContractRevision H) :=
  fcr.setMissedPayout 1 value

/-- `SetMissedVoidPayout` checks for the void output and returns an error, where the other
setters panic. -/
def setMissedVoidPayout (value : Currency) : Except RevisionError (FileContractRevision H) :=
  if fcr.newMissedProofOutputs.length ≤ 2 then .error .missingVoidOutput
  else .ok { fcr with
    newMissedProofOutputs := fcr.newMissedProofOutputs.modify 2 fun o => { o with value := value } }

/-- `TotalPayout`: the sums of the valid and of the missed outputs. -/
def totalPayout : Currency × Currency :=
  ((fcr.newValidProofOutputs.map SiacoinOutput.value).sum,
    (fcr.newMissedProofOutputs.map SiacoinOutput.value).sum)

/-- `PaymentRevision`: `amount` moves from the renter to the host on the valid outputs and from
the renter to the void on the missed ones, and the revision number goes up by one. -/
def paymentRevision (amount : Currency) : Option (Except RevisionError (FileContractRevision H)) :=
  do
  let validRenter ← fcr.validRenterPayout
  if validRenter < amount then
    return .error (.withContext .revisionCostTooHigh "valid proof output smaller than cost")
  let missedRenter ← fcr.missedRenterPayout
  if missedRenter < amount then
    return .error (.withContext .revisionCostTooHigh "missed proof output smaller than cost")
  let rev ← fcr.setValidRenterPayout (validRenter - amount)
  let validHost ← fcr.validHostPayout
  let rev ← rev.setValidHostPayout (validHost + amount)
  let rev ← rev.setMissedRenterPayout (missedRenter - amount)
  match fcr.missedVoidOutput with
  | .error err => return .error err
  | .ok void =>
    -- the error `SetMissedVoidPayout` returns is dropped
    let rev := (rev.setMissedVoidPayout (void.value + amount)).toOption.getD rev
    return .ok { rev with newRevisionNumber := rev.newRevisionNumber + 1 }

/-- `EAFundRevision`: as `PaymentRevision`, but the renter's missed amount goes to the host. -/
def eaFundRevision (amount : Currency) : Option (Except RevisionError (FileContractRevision H)) :=
  do
  let validRenter ← fcr.validRenterPayout
  if validRenter < amount then
    return .error (.withContext .revisionCostTooHigh "valid proof output smaller than cost")
  let missedRenter ← fcr.missedRenterPayout
  if missedRenter < amount then
    return .error (.withContext .revisionCostTooHigh "missed proof output smaller than cost")
  let rev ← fcr.setValidRenterPayout (validRenter - amount)
  let validHost ← fcr.validHostPayout
  let rev ← rev.setValidHostPayout (validHost + amount)
  let rev ← rev.setMissedRenterPayout (missedRenter - amount)
  let missedHost ← rev.missedHostPayout
  let rev ← rev.setMissedHostPayout (missedHost + amount)
  return .ok { rev with newRevisionNumber := rev.newRevisionNumber + 1 }

/-- `ExecuteProgramRevision`: the new root, size and revision number, with `transfer` moved from
the host's missed output to the void. -/
def executeProgramRevision (revisionNumber : UInt64) (transfer : Currency) (newRoot : H)
    (newSize : UInt64) : Option (Except RevisionError (FileContractRevision H)) := do
  let newRevision := { fcr with
    newFileMerkleRoot := newRoot, newFileSize := newSize, newRevisionNumber := revisionNumber }
  if fcr.newRevisionNumber ≥ revisionNumber then return .error .revisionNotIncremented
  let missedHost ← newRevision.missedHostPayout
  if missedHost < transfer then return .error .revisionCostTooHigh
  let newRevision ← newRevision.setMissedHostPayout (missedHost - transfer)
  match newRevision.missedVoidPayout with
  | .error err => return .error (.withContext err "failed to get void payout")
  | .ok voidPayout =>
    match newRevision.setMissedVoidPayout (voidPayout + transfer) with
    | .error err => return .error (.withContext err "failed to set void payout")
    | .ok newRevision => return .ok newRevision

/-- A helper's answer as a caller sees it: no panic, an error exactly when `fails` holds, and a
returned revision that satisfies `returned`. -/
def Answers (answer : Option (Except RevisionError (FileContractRevision H))) (fails : Prop)
    (returned : FileContractRevision H → Prop) : Prop :=
  ∃ result, answer = some result ∧ ((∃ err, result = .error err) ↔ fails) ∧
    ∀ r, result = .ok r → returned r

theorem Answers.mono {answer : Option (Except RevisionError (FileContractRevision H))}
    {fails : Prop} {returned kept : FileContractRevision H → Prop}
    (answers : Answers answer fails returned) (weaker : ∀ r, returned r → kept r) :
    Answers answer fails kept := by
  obtain ⟨result, answered, failing, returns⟩ := answers
  exact ⟨result, answered, failing, fun r ok => weaker r (returns r ok)⟩

/-- Two checks that fail with an error, then a revision that passed both. -/
theorem answers_of_checks {first second : Prop} [Decidable first] [Decidable second]
    {e₁ e₂ : RevisionError} {r : FileContractRevision H} {returned : FileContractRevision H → Prop}
    (holds : ¬ first → ¬ second → returned r) :
    Answers (if first then some (.error e₁) else if second then some (.error e₂) else some (.ok r))
      (first ∨ second) returned := by
  by_cases failsFirst : first
  · refine ⟨.error e₁, if_pos failsFirst, ⟨fun _ => .inl failsFirst, fun _ => ⟨e₁, rfl⟩⟩, ?_⟩
    rintro _ ⟨⟩
  · by_cases failsSecond : second
    · refine ⟨.error e₂, by rw [if_neg failsFirst, if_pos failsSecond],
        ⟨fun _ => .inr failsSecond, fun _ => ⟨e₂, rfl⟩⟩, ?_⟩
      rintro _ ⟨⟩
    · refine ⟨.ok r, by rw [if_neg failsFirst, if_neg failsSecond], ⟨?_, ?_⟩, ?_⟩
      · rintro ⟨_, ⟨⟩⟩
      · rintro (failed | failed)
        · exact absurd failed failsFirst
        · exact absurd failed failsSecond
      · rintro _ ⟨⟩
        exact holds failsFirst failsSecond

/-! ### The helpers on a revision with the usual outputs -/

section Outputs

variable {fcr : FileContractRevision H} {renter host missedRenter missedHost void : SiacoinOutput H}
  {valid missed : List (SiacoinOutput H)}

theorem paymentRevision_eq (validOutputs : fcr.newValidProofOutputs = renter :: host :: valid)
    (missedOutputs : fcr.newMissedProofOutputs = missedRenter :: missedHost :: void :: missed)
    (amount : Currency) :
    fcr.paymentRevision amount =
      if renter.value < amount then
        some (.error (.withContext .revisionCostTooHigh "valid proof output smaller than cost"))
      else if missedRenter.value < amount then
        some (.error (.withContext .revisionCostTooHigh "missed proof output smaller than cost"))
      else some (.ok { fcr with
        newValidProofOutputs :=
          { renter with value := renter.value - amount } :: { host with value := host.value + amount } ::
            valid
        newMissedProofOutputs :=
          { missedRenter with value := missedRenter.value - amount } :: missedHost ::
            { void with value := void.value + amount } :: missed
        newRevisionNumber := fcr.newRevisionNumber + 1 }) := by
  simp [paymentRevision, validRenterPayout, missedRenterPayout, validHostPayout, missedVoidOutput,
    setValidRenterPayout, setValidHostPayout, setMissedRenterPayout, setValidPayout,
    setMissedPayout, setMissedVoidPayout, setOutputValue, outputValue, validOutputs, missedOutputs]
  split_ifs <;> rfl

theorem eaFundRevision_eq (validOutputs : fcr.newValidProofOutputs = renter :: host :: valid)
    (missedOutputs : fcr.newMissedProofOutputs = missedRenter :: missedHost :: void :: missed)
    (amount : Currency) :
    fcr.eaFundRevision amount =
      if renter.value < amount then
        some (.error (.withContext .revisionCostTooHigh "valid proof output smaller than cost"))
      else if missedRenter.value < amount then
        some (.error (.withContext .revisionCostTooHigh "missed proof output smaller than cost"))
      else some (.ok { fcr with
        newValidProofOutputs :=
          { renter with value := renter.value - amount } :: { host with value := host.value + amount } ::
            valid
        newMissedProofOutputs :=
          { missedRenter with value := missedRenter.value - amount } ::
            { missedHost with value := missedHost.value + amount } :: void :: missed
        newRevisionNumber := fcr.newRevisionNumber + 1 }) := by
  simp [eaFundRevision, validRenterPayout, missedRenterPayout, validHostPayout, missedHostPayout,
    setValidRenterPayout, setValidHostPayout, setMissedRenterPayout, setMissedHostPayout,
    setValidPayout, setMissedPayout, setOutputValue, outputValue, validOutputs, missedOutputs]

theorem executeProgramRevision_eq
    (missedOutputs : fcr.newMissedProofOutputs = missedRenter :: missedHost :: void :: missed)
    (revisionNumber : UInt64) (transfer : Currency) (newRoot : H) (newSize : UInt64) :
    fcr.executeProgramRevision revisionNumber transfer newRoot newSize =
      if revisionNumber ≤ fcr.newRevisionNumber then some (.error .revisionNotIncremented)
      else if missedHost.value < transfer then some (.error .revisionCostTooHigh)
      else some (.ok { fcr with
        newFileMerkleRoot := newRoot, newFileSize := newSize, newRevisionNumber := revisionNumber
        newMissedProofOutputs :=
          missedRenter :: { missedHost with value := missedHost.value - transfer } ::
            { void with value := void.value + transfer } :: missed }) := by
  simp [executeProgramRevision, missedHostPayout, missedVoidPayout, missedVoidOutput,
    setMissedHostPayout, setMissedPayout, setMissedVoidPayout, setOutputValue, outputValue,
    missedOutputs]
  split_ifs <;> rfl

/-- `PaymentRevision` fails exactly when the renter cannot pay; otherwise `amount` moves from the
renter to the host and from the renter's missed output to the void, both sums stay, the
revision number goes up by one, and nothing else changes. -/
theorem paymentRevision_answers (validOutputs : fcr.newValidProofOutputs = renter :: host :: valid)
    (missedOutputs : fcr.newMissedProofOutputs = missedRenter :: missedHost :: void :: missed)
    (amount : Currency) :
    Answers (fcr.paymentRevision amount) (renter.value < amount ∨ missedRenter.value < amount)
      fun r => r.totalPayout = fcr.totalPayout ∧ r.newRevisionNumber = fcr.newRevisionNumber + 1 ∧
        r.newValidProofOutputs = { renter with value := renter.value - amount } ::
          { host with value := host.value + amount } :: valid ∧
        r.newMissedProofOutputs = { missedRenter with value := missedRenter.value - amount } ::
          missedHost :: { void with value := void.value + amount } :: missed ∧
        { r with newValidProofOutputs := fcr.newValidProofOutputs,
                 newMissedProofOutputs := fcr.newMissedProofOutputs,
                 newRevisionNumber := fcr.newRevisionNumber } = fcr := by
  rw [paymentRevision_eq validOutputs missedOutputs]
  apply answers_of_checks
  intro validCovers missedCovers
  refine ⟨?_, rfl, rfl, rfl, rfl⟩
  simp only [totalPayout, validOutputs, missedOutputs, List.map_cons, List.sum_cons, Prod.mk.injEq]
  unfold Currency at *
  omega

/-- `EAFundRevision` fails exactly when the renter cannot pay; otherwise `amount` moves from the
renter to the host on both output lists, both sums stay, the revision number goes up by one, and
nothing else changes. -/
theorem eaFundRevision_answers (validOutputs : fcr.newValidProofOutputs = renter :: host :: valid)
    (missedOutputs : fcr.newMissedProofOutputs = missedRenter :: missedHost :: void :: missed)
    (amount : Currency) :
    Answers (fcr.eaFundRevision amount) (renter.value < amount ∨ missedRenter.value < amount)
      fun r => r.totalPayout = fcr.totalPayout ∧ r.newRevisionNumber = fcr.newRevisionNumber + 1 ∧
        r.newValidProofOutputs = { renter with value := renter.value - amount } ::
          { host with value := host.value + amount } :: valid ∧
        r.newMissedProofOutputs = { missedRenter with value := missedRenter.value - amount } ::
          { missedHost with value := missedHost.value + amount } :: void :: missed ∧
        { r with newValidProofOutputs := fcr.newValidProofOutputs,
                 newMissedProofOutputs := fcr.newMissedProofOutputs,
                 newRevisionNumber := fcr.newRevisionNumber } = fcr := by
  rw [eaFundRevision_eq validOutputs missedOutputs]
  apply answers_of_checks
  intro validCovers missedCovers
  refine ⟨?_, rfl, rfl, rfl, rfl⟩
  simp only [totalPayout, validOutputs, missedOutputs, List.map_cons, List.sum_cons, Prod.mk.injEq]
  unfold Currency at *
  omega

/-- `ExecuteProgramRevision` fails exactly when the revision number does not grow or the host's
missed output cannot cover `transfer`; otherwise `transfer` moves from the host's missed output
to the void, both sums stay, and only the root, size and revision number change besides. -/
theorem executeProgramRevision_answers
    (missedOutputs : fcr.newMissedProofOutputs = missedRenter :: missedHost :: void :: missed)
    (revisionNumber : UInt64) (transfer : Currency) (newRoot : H) (newSize : UInt64) :
    Answers (fcr.executeProgramRevision revisionNumber transfer newRoot newSize)
      (revisionNumber ≤ fcr.newRevisionNumber ∨ missedHost.value < transfer)
      fun r => r.totalPayout = fcr.totalPayout ∧ r.newRevisionNumber = revisionNumber ∧
        r.newFileMerkleRoot = newRoot ∧ r.newFileSize = newSize ∧
        r.newMissedProofOutputs = missedRenter ::
          { missedHost with value := missedHost.value - transfer } ::
            { void with value := void.value + transfer } :: missed ∧
        { r with newMissedProofOutputs := fcr.newMissedProofOutputs,
                 newRevisionNumber := fcr.newRevisionNumber,
                 newFileMerkleRoot := fcr.newFileMerkleRoot, newFileSize := fcr.newFileSize } = fcr := by
  rw [executeProgramRevision_eq missedOutputs]
  apply answers_of_checks
  intro _ covers
  refine ⟨?_, rfl, rfl, rfl, rfl, rfl⟩
  simp only [totalPayout, missedOutputs, List.map_cons, List.sum_cons, Prod.mk.injEq, true_and]
  unfold Currency at *
  omega

/-! ### The three helpers together -/

theorem revision_helpers_conserve_payouts (fcr : FileContractRevision H)
    (renter host missedRenter missedHost void : SiacoinOutput H)
    (valid missed : List (SiacoinOutput H))
    (validOutputs : fcr.newValidProofOutputs = renter :: host :: valid)
    (missedOutputs : fcr.newMissedProofOutputs = missedRenter :: missedHost :: void :: missed)
    (amount transfer : Currency) (revisionNumber newSize : UInt64) (newRoot : H) :
    Answers (fcr.paymentRevision amount) (renter.value < amount ∨ missedRenter.value < amount)
      (fun r => r.totalPayout = fcr.totalPayout ∧ r.newRevisionNumber = fcr.newRevisionNumber + 1 ∧
        r.newValidProofOutputs = { renter with value := renter.value - amount } ::
          { host with value := host.value + amount } :: valid ∧
        r.newMissedProofOutputs = { missedRenter with value := missedRenter.value - amount } ::
          missedHost :: { void with value := void.value + amount } :: missed ∧
        { r with newValidProofOutputs := fcr.newValidProofOutputs,
                 newMissedProofOutputs := fcr.newMissedProofOutputs,
                 newRevisionNumber := fcr.newRevisionNumber } = fcr) ∧
    Answers (fcr.eaFundRevision amount) (renter.value < amount ∨ missedRenter.value < amount)
      (fun r => r.totalPayout = fcr.totalPayout ∧ r.newRevisionNumber = fcr.newRevisionNumber + 1 ∧
        r.newValidProofOutputs = { renter with value := renter.value - amount } ::
          { host with value := host.value + amount } :: valid ∧
        r.newMissedProofOutputs = { missedRenter with value := missedRenter.value - amount } ::
          { missedHost with value := missedHost.value + amount } :: void :: missed ∧
        { r with newValidProofOutputs := fcr.newValidProofOutputs,
                 newMissedProofOutputs := fcr.newMissedProofOutputs,
                 newRevisionNumber := fcr.newRevisionNumber } = fcr) ∧
    Answers (fcr.executeProgramRevision revisionNumber transfer newRoot newSize)
      (revisionNumber ≤ fcr.newRevisionNumber ∨ missedHost.value < transfer)
      (fun r => r.totalPayout = fcr.totalPayout ∧ r.newRevisionNumber = revisionNumber ∧
        r.newFileMerkleRoot = newRoot ∧ r.newFileSize = newSize ∧
        r.newMissedProofOutputs = missedRenter ::
          { missedHost with value := missedHost.value - transfer } ::
            { void with value := void.value + transfer } :: missed ∧
        { r with newMissedProofOutputs := fcr.newMissedProofOutputs,
                 newRevisionNumber := fcr.newRevisionNumber,
                 newFileMerkleRoot := fcr.newFileMerkleRoot,
                 newFileSize := fcr.newFileSize } = fcr) :=
  ⟨paymentRevision_answers validOutputs missedOutputs amount,
    eaFundRevision_answers validOutputs missedOutputs amount,
    executeProgramRevision_answers missedOutputs revisionNumber transfer newRoot newSize⟩

/-- A revision of a contract with 100 for the renter and 50 for the host on both output lists and
an empty void output. -/
def samplePaidRevision : FileContractRevision ℕ where
  parentID := 1
  unlockConditions := ⟨0, [], 0⟩
  newRevisionNumber := 7
  newFileSize := 0
  newFileMerkleRoot := 0
  newWindowStart := 1000
  newWindowEnd := 1144
  newValidProofOutputs := [⟨100, 10⟩, ⟨50, 20⟩]
  newMissedProofOutputs := [⟨100, 10⟩, ⟨50, 20⟩, ⟨0, 30⟩]
  newUnlockHash := 5

theorem samplePaidRevision_helpers :
    Answers (samplePaidRevision.paymentRevision 40) (100 < 40 ∨ 100 < 40)
        (fun r => r.totalPayout = samplePaidRevision.totalPayout) ∧
      Answers (samplePaidRevision.eaFundRevision 40) (100 < 40 ∨ 100 < 40)
        (fun r => r.totalPayout = samplePaidRevision.totalPayout) ∧
      Answers (samplePaidRevision.executeProgramRevision 8 30 3 4194304) (8 ≤ 7 ∨ 50 < 30)
        (fun r => r.totalPayout = samplePaidRevision.totalPayout) := by
  have helpers := revision_helpers_conserve_payouts samplePaidRevision ⟨100, 10⟩ ⟨50, 20⟩
    ⟨100, 10⟩ ⟨50, 20⟩ ⟨0, 30⟩ [] [] rfl rfl 40 30 8 4194304 3
  exact ⟨helpers.1.mono fun _ kept => kept.1, helpers.2.1.mono fun _ kept => kept.1,
    helpers.2.2.mono fun _ kept => kept.1⟩

end Outputs

end FileContractRevision

end Sia
