import Sia.Types.Transaction

/-! The transaction builder of `modules/wallet/transactionbuilder.go`: the builder keeps, beside
the transaction, the indices of the siacoin and siafund inputs it will sign. `MarkWalletInputs`
adds the inputs the wallet can spend, and `Sign` signs every marked input with the wallet's key.
Signing itself (`addSignatures`) is a parameter, as are the wallet's keys by unlock hash and the
unlock hash of unlock conditions. -/
namespace Sia.Wallet

variable {H K : Type}

/-- `transactionBuilder`. -/
structure TransactionBuilder (H : Type) where
  parents : List (Transaction H)
  signed : Bool
  transaction : Transaction H
  newParents : List ℕ
  siacoinInputs : List ℕ
  siafundInputs : List ℕ
  transactionSignatures : List ℕ

/-- `registerTransaction`; its deep copy through the encoder is the identity. -/
def registerTransaction (t : Transaction H) (parents : List (Transaction H)) : TransactionBuilder H :=
  ⟨parents, false, t, [], [], [], []⟩

/-- `errBuilderAlreadySigned`. -/
def errBuilderAlreadySigned : String :=
  "sign has already been called on this transaction builder, multiple calls can cause issues"

/-- The error `Sign` returns for a marked input the wallet has no key for. -/
def errCannotSign : String := "transaction builder added an input that it cannot sign"

/-- The indices `0, ..., n - 1` that the covered fields list. -/
def allIndices (n : ℕ) : List UInt64 := (List.range n).map UInt64.ofNat

/-- The covered fields `Sign` builds before it adds any signature: the whole transaction, or
every element already in it; the signatures are listed either way. -/
def coveredFields (t : Transaction H) (wholeTransaction : Bool) : CoveredFields :=
  if wholeTransaction then
    ⟨true, [], [], [], [], [], [], [], [], [], allIndices t.transactionSignatures.length⟩
  else
    ⟨false, allIndices t.siacoinInputs.length, allIndices t.siacoinOutputs.length,
      allIndices t.fileContracts.length, allIndices t.fileContractRevisions.length,
      allIndices t.storageProofs.length, allIndices t.siafundInputs.length,
      allIndices t.siafundOutputs.length, allIndices t.minerFees.length,
      allIndices t.arbitraryData.length, allIndices t.transactionSignatures.length⟩

/-- The unlock conditions and parent ID of the siacoin input at an index. -/
def siacoinInputAt (t : Transaction H) (i : ℕ) : Option (UnlockConditions × H) :=
  t.siacoinInputs[i]?.map fun input => (input.unlockConditions, input.parentID)

/-- The unlock conditions and parent ID of the siafund input at an index. -/
def siafundInputAt (t : Transaction H) (i : ℕ) : Option (UnlockConditions × H) :=
  t.siafundInputs[i]?.map fun input => (input.unlockConditions, input.parentID)

section Wallet

variable (unlockHash : UnlockConditions → H) (keys : H → Option K)

/-- `managedCanSpendUnlockHash`: the wallet holds a key for the unlock hash. -/
def canSpendUnlockHash (uh : H) : Bool := (keys uh).isSome

/-- The first loop of `MarkWalletInputs` over the siacoin inputs and their indices: a spendable
input not marked yet is appended to `siacoinInputs`. -/
def markSiacoinLoop (siacoinInputs : List ℕ) (marked : Bool) :
    List (SiacoinInput H × ℕ) → List ℕ × Bool
  | [] => (siacoinInputs, marked)
  | (scInput, i) :: rest =>
    if !canSpendUnlockHash keys (unlockHash scInput.unlockConditions) then
      markSiacoinLoop siacoinInputs marked rest
    else if siacoinInputs.contains i then markSiacoinLoop siacoinInputs marked rest
    else markSiacoinLoop (siacoinInputs ++ [i]) true rest

/-- The second loop of `MarkWalletInputs` over the siafund inputs: for a spendable input not in
`siafundInputs`, the source assigns `append(tb.siafundInputs, i)` to `tb.siacoinInputs`, so the
siafund list never changes and is a parameter here. -/
def markSiafundLoop (siafundInputs : List ℕ) (siacoinInputs : List ℕ) (marked : Bool) :
    List (SiafundInput H × ℕ) → List ℕ × Bool
  | [] => (siacoinInputs, marked)
  | (sfInput, i) :: rest =>
    if !canSpendUnlockHash keys (unlockHash sfInput.unlockConditions) then
      markSiafundLoop siafundInputs siacoinInputs marked rest
    else if siafundInputs.contains i then markSiafundLoop siafundInputs siacoinInputs marked rest
    else markSiafundLoop siafundInputs (siafundInputs ++ [i]) true rest

/-- `MarkWalletInputs`, returning whether it marked any input. -/
def TransactionBuilder.markWalletInputs (tb : TransactionBuilder H) : TransactionBuilder H × Bool :=
  match markSiacoinLoop unlockHash keys tb.siacoinInputs false tb.transaction.siacoinInputs.zipIdx with
  | (siacoinInputs, marked) =>
    match markSiafundLoop unlockHash keys tb.siafundInputs siacoinInputs marked
        tb.transaction.siafundInputs.zipIdx with
    | (siacoinInputs, marked) => ({ tb with siacoinInputs := siacoinInputs }, marked)

variable (addSignatures :
  Transaction H → CoveredFields → UnlockConditions → H → K → ℕ → Transaction H × List ℕ)

/-- A signing loop of `Sign` over marked input indices, for the siacoin or the siafund inputs as
`inputAt` reads them. An index past the inputs panics; an input the wallet has no key for is an
error. -/
def signInputs (inputAt : Transaction H → ℕ → Option (UnlockConditions × H)) (cf : CoveredFields)
    (height : ℕ) : TransactionBuilder H → List ℕ → Option (TransactionBuilder H × Except String Unit)
  | tb, [] => some (tb, .ok ())
  | tb, inputIndex :: rest =>
    match inputAt tb.transaction inputIndex with
    | none => none
    | some (uc, parentID) =>
      match keys (unlockHash uc) with
      | none => some (tb, .error errCannotSign)
      | some key =>
        match addSignatures tb.transaction cf uc parentID key height with
        | (txn, newSigIndices) => signInputs inputAt cf height
            { tb with transaction := txn, transactionSignatures := tb.transactionSignatures ++ newSigIndices,
                      signed := true } rest

/-- `Sign` at the consensus height `height`; `none` is a panic. -/
def TransactionBuilder.sign (height : ℕ) (wholeTransaction : Bool) (tb : TransactionBuilder H) :
    Option (TransactionBuilder H × Except String (List (Transaction H))) :=
  if tb.signed then some (tb, .error errBuilderAlreadySigned)
  else
    match signInputs unlockHash keys addSignatures siacoinInputAt
        (coveredFields tb.transaction wholeTransaction) height tb tb.siacoinInputs with
    | none => none
    | some (tb', .error err) => some (tb', .error err)
    | some (tb', .ok ()) =>
      match signInputs unlockHash keys addSignatures siafundInputAt
          (coveredFields tb.transaction wholeTransaction) height tb' tb.siafundInputs with
      | none => none
      | some (tb'', .error err) => some (tb'', .error err)
      | some (tb'', .ok ()) => some (tb'', .ok (tb''.parents ++ [tb''.transaction]))

/-! ### Marking a spendable siafund input -/

/-- The indices of the siafund inputs the wallet can spend. -/
def spendableSiafundInputs (inputs : List (SiafundInput H × ℕ)) : List ℕ :=
  (inputs.filter fun input => canSpendUnlockHash keys (unlockHash input.1.unlockConditions)).map (·.2)

/-- On a builder with no siafund input marked, the siafund loop leaves `siacoinInputs` holding
the last spendable siafund index alone. -/
theorem markSiafundLoop_unmarked (siacoinInputs : List ℕ) (marked : Bool)
    (inputs : List (SiafundInput H × ℕ)) :
    markSiafundLoop unlockHash keys [] siacoinInputs marked inputs =
      match (spendableSiafundInputs unlockHash keys inputs).getLast? with
      | some j => ([j], true)
      | none => (siacoinInputs, marked) := by
  induction inputs generalizing siacoinInputs marked with
  | nil => rfl
  | cons input rest ih =>
    obtain ⟨sfInput, i⟩ := input
    by_cases spendable : canSpendUnlockHash keys (unlockHash sfInput.unlockConditions) = true
    · have listed : spendableSiafundInputs unlockHash keys ((sfInput, i) :: rest) =
          i :: spendableSiafundInputs unlockHash keys rest := by
        simp [spendableSiafundInputs, spendable]
      rw [markSiafundLoop, if_neg (by simp [spendable]), if_neg (by simp), ih, listed,
        List.getLast?_cons]
      cases (spendableSiafundInputs unlockHash keys rest).getLast? <;> rfl
    · have listed : spendableSiafundInputs unlockHash keys ((sfInput, i) :: rest) =
          spendableSiafundInputs unlockHash keys rest := by
        simp [spendableSiafundInputs, spendable]
      rw [markSiafundLoop, if_pos (by simpa using spendable), ih, listed]

/-- `Sign` panics on a first marked siacoin index past the transaction's siacoin inputs. -/
theorem sign_past_siacoinInputs {tb : TransactionBuilder H} (unsigned : tb.signed = false)
    {j : ℕ} {rest : List ℕ} (marked : tb.siacoinInputs = j :: rest)
    (beyond : tb.transaction.siacoinInputs.length ≤ j) (height : ℕ) (wholeTransaction : Bool) :
    tb.sign unlockHash keys addSignatures height wholeTransaction = none := by
  have missing : siacoinInputAt tb.transaction j = none := by
    rw [siacoinInputAt, List.getElem?_eq_none beyond, Option.map_none]
  rw [TransactionBuilder.sign, unsigned, marked]
  simp [signInputs, missing]

theorem markWalletInputs_files_siafund_as_siacoin (t : Transaction H)
    (parents : List (Transaction H)) (height : ℕ) {j : ℕ}
    (lastSpendable : (spendableSiafundInputs unlockHash keys t.siafundInputs.zipIdx).getLast? = some j) :
    ((registerTransaction t parents).markWalletInputs unlockHash keys).1.siafundInputs = [] ∧
      ((registerTransaction t parents).markWalletInputs unlockHash keys).1.siacoinInputs = [j] ∧
      (t.siacoinInputs.length ≤ j →
        ((registerTransaction t parents).markWalletInputs unlockHash keys).1.sign unlockHash keys
          addSignatures height false = none) := by
  have siacoin : ((registerTransaction t parents).markWalletInputs unlockHash keys).1.siacoinInputs =
      [j] := by
    simp only [TransactionBuilder.markWalletInputs, registerTransaction]
    rw [markSiafundLoop_unmarked, lastSpendable]
  refine ⟨rfl, siacoin, fun beyond => ?_⟩
  exact sign_past_siacoinInputs unlockHash keys addSignatures rfl siacoin beyond height false

end Wallet

/-- A transaction whose only input is a siafund input. -/
def siafundOnlyTransaction : Transaction ℕ :=
  ⟨[], [], [], [], [], [⟨0, ⟨0, [], 0⟩, 0⟩], [], [], [], []⟩

theorem siafundOnlyTransaction_sign_panics :
    ((registerTransaction siafundOnlyTransaction []).markWalletInputs (fun _ => 0)
        (fun _ => some ())).1.siafundInputs = [] ∧
      ((registerTransaction siafundOnlyTransaction []).markWalletInputs (fun _ => 0)
        (fun _ => some ())).1.siacoinInputs = [0] ∧
      ((registerTransaction siafundOnlyTransaction []).markWalletInputs (fun _ => 0)
        (fun _ => some ())).1.sign (fun _ => 0) (fun _ => some ())
          (fun t _ _ _ _ _ => (t, [])) 0 false = none := by
  have lastSpendable : (spendableSiafundInputs (fun _ => 0) (fun _ => some ())
      siafundOnlyTransaction.siafundInputs.zipIdx).getLast? = some 0 := rfl
  obtain ⟨siafund, siacoin, panics⟩ := markWalletInputs_files_siafund_as_siacoin (fun _ => 0)
    (fun (_ : ℕ) => some ()) (fun t _ _ _ _ _ => (t, [])) siafundOnlyTransaction [] 0 lastSpendable
  exact ⟨siafund, siacoin, panics (Nat.le_refl _)⟩

end Sia.Wallet
