import Mathlib.Data.Finmap
import Sia.Types.Encoding
import Sia.Lib.Except
import Sia.Lib.OptionLoop

/-! `types/signatures.go`: covered fields, the signature hash and `validSignatures`. A signature
names a parent object (a siacoin input, a file contract revision or a siafund input), one of
its public keys, a timelock and the fields of the transaction it covers. `validSignatures`
checks the covered fields, registers every parent with the signatures it still needs, then
checks the signatures in order against per-parent counters and used-key sets, and sweeps for
parents left short. A Go index out of range is a panic, `none` here: the signature hash indexes
the transaction by the covered fields, and the covered-field check runs first. The hash and
ed25519 verification are the `SigEnv`'s. -/
namespace Sia

open Encoding Except OptionLoop

/-- The errors of signature checking, after their variables in the source
(`ErrInvalidSignature` is `crypto`'s, `ErrDoubleSpend` that of `validtransaction.go`). -/
inductive SignatureError where
  | entropyKey
  | frivolousSignature
  | invalidPubKeyIndex
  | missingSignatures
  | prematureSignature
  | publicKeyOveruse
  | sortedUniqueViolation
  | wholeTransactionViolation
  | doubleSpend
  | invalidSignature
  deriving DecidableEq, Repr

/-- `types.SignatureEd25519`, the specifier "ed25519". -/
def signatureEd25519 : Specifier := #v[101, 100, 50, 53, 53, 49, 57, 0, 0, 0, 0, 0, 0, 0, 0, 0]

/-- `types.SignatureEntropy`, the specifier "entropy". -/
def signatureEntropy : Specifier := #v[101, 110, 116, 114, 111, 112, 121, 0, 0, 0, 0, 0, 0, 0, 0, 0]

/-- What signature checking takes from the release and from `crypto`: the hardfork heights that
choose the replay prefix, the hash of everything written to `crypto.NewHash`, and whether
`crypto.VerifyHash` accepts a signature of a hash under a key. -/
structure SigEnv (H : Type) where
  asicHardforkHeight : ℕ
  foundationHardforkHeight : ℕ
  hash : List UInt8 → H
  verifyHash : H → Vector UInt8 32 → Vector UInt8 64 → Bool

/-- Go's `copy` into a zeroed array of `n` bytes: the first `n` bytes, padded with zeros. -/
def copyBytes (n : ℕ) (bytes : List UInt8) : Vector UInt8 n := Vector.ofFn fun i => bytes.getD i 0

variable {H : Type}

/-! ### Covered fields -/

/-- The loop of `sortedUnique` after the first element: each element must exceed the largest so
far, which it becomes. -/
def sortedUnique.loop : UInt64 → List UInt64 → Option UInt64
  | biggest, [] => some biggest
  | biggest, elem :: rest => if elem ≤ biggest then none else loop elem rest

/-- `sortedUnique`: strictly increasing and below `max`. A Go length is below `2^63`, so
`uint64(max)` is `max`. -/
def sortedUnique (elems : List UInt64) (max : ℕ) : Bool :=
  match elems with
  | [] => true
  | first :: rest =>
    match sortedUnique.loop first rest with
    | none => false
    | some biggest => decide (biggest.toNat < max)

/-- The `fieldMaxs` of `validCoveredFields`: each covered list with the length of the field it
indexes, `TransactionSignatures` last. -/
def CoveredFields.fieldMaxs (t : Transaction H) (cf : CoveredFields) : List (List UInt64 × ℕ) :=
  [(cf.siacoinInputs, t.siacoinInputs.length), (cf.siacoinOutputs, t.siacoinOutputs.length),
    (cf.fileContracts, t.fileContracts.length),
    (cf.fileContractRevisions, t.fileContractRevisions.length),
    (cf.storageProofs, t.storageProofs.length), (cf.siafundInputs, t.siafundInputs.length),
    (cf.siafundOutputs, t.siafundOutputs.length), (cf.minerFees, t.minerFees.length),
    (cf.arbitraryData, t.arbitraryData.length),
    (cf.transactionSignatures, t.transactionSignatures.length)]

/-- One iteration of `validCoveredFields`. -/
def validCoveredField (t : Transaction H) (sig : TransactionSignature H) :
    Except SignatureError Unit := do
  let cf := sig.coveredFields
  let fieldMaxs := cf.fieldMaxs t
  if cf.wholeTransaction then
    -- every field but the signatures must be empty
    failIf (fieldMaxs.dropLast.any fun fm => fm.1.length ≠ 0) .wholeTransactionViolation
  else
    failIf (fieldMaxs.all fun fm => fm.1.length = 0) .wholeTransactionViolation
  failIf (fieldMaxs.any fun fm => !sortedUnique fm.1 fm.2) .sortedUniqueViolation

def Transaction.validCoveredFields (t : Transaction H) : Except SignatureError Unit :=
  t.transactionSignatures.forM (validCoveredField t)

/-- Well-formed covered fields: under `WholeTransaction` every field but the signatures is empty,
otherwise some field is covered; every covered list is strictly increasing and indexes its
field. -/
structure CoveredFields.Valid (t : Transaction H) (cf : CoveredFields) : Prop where
  whole : cf.wholeTransaction = true → ∀ fm ∈ (cf.fieldMaxs t).dropLast, fm.1 = []
  covers : cf.wholeTransaction = false → ∃ fm ∈ cf.fieldMaxs t, fm.1 ≠ []
  sorted : ∀ fm ∈ cf.fieldMaxs t, fm.1.Pairwise (· < ·) ∧ ∀ i ∈ fm.1, i.toNat < fm.2

theorem sortedUnique_cons_cons {first next : UInt64} {rest : List UInt64} {max : ℕ} :
    sortedUnique (first :: next :: rest) max =
      (decide (first < next) && sortedUnique (next :: rest) max) := by
  by_cases rising : first < next
  · have above : ¬ next ≤ first := by
      rw [UInt64.le_iff_toNat_le]
      rw [UInt64.lt_iff_toNat_lt] at rising
      omega
    simp [sortedUnique, sortedUnique.loop, above, rising]
  · have below : next ≤ first := by
      rw [UInt64.le_iff_toNat_le]
      rw [UInt64.lt_iff_toNat_lt] at rising
      omega
    simp [sortedUnique, sortedUnique.loop, below, rising]

/-- The loop compares neighbours only; strictness is transitive, so that is every pair. -/
theorem sortedUnique_eq_true {elems : List UInt64} {max : ℕ} :
    sortedUnique elems max = true ↔ elems.Pairwise (· < ·) ∧ ∀ i ∈ elems, i.toNat < max := by
  cases elems with
  | nil => simp [sortedUnique]
  | cons first rest =>
    induction rest generalizing first with
    | nil => simp [sortedUnique, sortedUnique.loop]
    | cons next rest ih =>
      rw [sortedUnique_cons_cons, Bool.and_eq_true, decide_eq_true_iff, ih]
      constructor
      · rintro ⟨rising, sorted, below⟩
        have later : ∀ i ∈ next :: rest, first < i := by
          intro i mem
          rcases List.mem_cons.mp mem with rfl | tail
          · exact rising
          · exact UInt64.lt_trans rising (List.rel_of_pairwise_cons sorted tail)
        refine ⟨List.Pairwise.cons later sorted, ?_⟩
        intro i mem
        rcases List.mem_cons.mp mem with rfl | tail
        · exact (UInt64.lt_iff_toNat_lt.mp rising).trans (below next List.mem_cons_self)
        · exact below i tail
      · rintro ⟨sorted, below⟩
        exact ⟨List.rel_of_pairwise_cons sorted List.mem_cons_self, sorted.of_cons,
          fun i mem => below i (List.mem_cons_of_mem first mem)⟩

theorem validCoveredField_eq_ok {t : Transaction H} {sig : TransactionSignature H} :
    validCoveredField t sig = .ok () ↔ sig.coveredFields.Valid t := by
  have sorted : (sig.coveredFields.fieldMaxs t).any (fun fm => !sortedUnique fm.1 fm.2) = false ↔
      ∀ fm ∈ sig.coveredFields.fieldMaxs t, fm.1.Pairwise (· < ·) ∧ ∀ i ∈ fm.1, i.toNat < fm.2 := by
    simp only [List.any_eq_false, Bool.not_eq_true', Bool.not_eq_false, sortedUnique_eq_true]
  cases whole : sig.coveredFields.wholeTransaction with
  | true =>
    simp only [validCoveredField, whole, if_true, failIf_bind_eq_ok, failIf_eq_ok,
      Bool.not_eq_true, sorted]
    simp only [List.any_eq_false, decide_eq_true_eq, ne_eq, not_not, List.length_eq_zero_iff]
    constructor
    · rintro ⟨empty, valid⟩
      exact ⟨fun _ => empty, by simp [whole], valid⟩
    · rintro ⟨empty, -, valid⟩
      exact ⟨empty whole, valid⟩
  | false =>
    simp only [validCoveredField, whole, Bool.false_eq_true, if_false, failIf_bind_eq_ok,
      failIf_eq_ok, Bool.not_eq_true, sorted]
    simp only [List.all_eq_false, decide_eq_true_eq, List.length_eq_zero_iff]
    constructor
    · rintro ⟨covered, valid⟩
      exact ⟨by simp [whole], fun _ => covered, valid⟩
    · rintro ⟨-, covered, valid⟩
      exact ⟨covered whole, valid⟩

theorem validCoveredFields_eq_ok {t : Transaction H} :
    t.validCoveredFields = .ok () ↔ ∀ sig ∈ t.transactionSignatures, sig.coveredFields.Valid t := by
  simp only [Transaction.validCoveredFields, forM_eq_ok, validCoveredField_eq_ok]

/-! ### The signature hash -/

/-- `replayPrefix`: `FoundationHardforkReplayProtectionPrefix` from the Foundation hardfork on,
`ASICHardforkReplayProtectionPrefix` from the ASIC hardfork on, nothing before. -/
def replayPrefix (env : SigEnv H) (height : ℕ) : List UInt8 :=
  if height ≥ env.foundationHardforkHeight then [1]
  else if height ≥ env.asicHardforkHeight then [0]
  else []

/-- The elements at the covered indices; an index out of range panics. -/
def coveredItems {α : Type} (xs : List α) (indices : List UInt64) : Option (List α) :=
  indices.mapM fun i => xs[i.toNat]?

variable [HashBytes H] (env : SigEnv H)

/-- The bytes `wholeSigHash` writes: every field but the signatures, each input after the
replay prefix, then the signature's own header and the signatures it covers. -/
def Transaction.wholeSigHashBytes (t : Transaction H) (sig : TransactionSignature H)
    (height : ℕ) : Option (List UInt8) := do
  let sigs ← coveredItems t.transactionSignatures sig.coveredFields.transactionSignatures
  pure (writeList (fun sci => replayPrefix env height ++ SiacoinInput.marshalSia sci)
      t.siacoinInputs ++
    writeList SiacoinOutput.marshalSia t.siacoinOutputs ++
    writeList FileContract.marshalSia t.fileContracts ++
    writeList FileContractRevision.marshalSia t.fileContractRevisions ++
    writeList StorageProof.marshalSia t.storageProofs ++
    writeList (fun sfi => replayPrefix env height ++ SiafundInput.marshalSia sfi)
      t.siafundInputs ++
    writeList SiafundOutput.marshalSia t.siafundOutputs ++
    writeList currencyMarshalSia t.minerFees ++
    writeList writePrefixedBytes t.arbitraryData ++
    HashBytes.bytes sig.parentID ++ writeUint64 sig.publicKeyIndex ++ writeUint64 sig.timelock ++
    sigs.flatMap TransactionSignature.marshalSia)

/-- The bytes `partialSigHash` writes: the covered elements, field by field. -/
def Transaction.partialSigHashBytes (t : Transaction H) (cf : CoveredFields) (height : ℕ) :
    Option (List UInt8) := do
  let scis ← coveredItems t.siacoinInputs cf.siacoinInputs
  let scos ← coveredItems t.siacoinOutputs cf.siacoinOutputs
  let fcs ← coveredItems t.fileContracts cf.fileContracts
  let fcrs ← coveredItems t.fileContractRevisions cf.fileContractRevisions
  let sps ← coveredItems t.storageProofs cf.storageProofs
  let sfis ← coveredItems t.siafundInputs cf.siafundInputs
  let sfos ← coveredItems t.siafundOutputs cf.siafundOutputs
  let fees ← coveredItems t.minerFees cf.minerFees
  let arbs ← coveredItems t.arbitraryData cf.arbitraryData
  let sigs ← coveredItems t.transactionSignatures cf.transactionSignatures
  pure (scis.flatMap (fun sci => replayPrefix env height ++ SiacoinInput.marshalSia sci) ++
    scos.flatMap SiacoinOutput.marshalSia ++ fcs.flatMap FileContract.marshalSia ++
    fcrs.flatMap FileContractRevision.marshalSia ++ sps.flatMap StorageProof.marshalSia ++
    sfis.flatMap (fun sfi => replayPrefix env height ++ SiafundInput.marshalSia sfi) ++
    sfos.flatMap SiafundOutput.marshalSia ++ fees.flatMap currencyMarshalSia ++
    arbs.flatMap writePrefixedBytes ++ sigs.flatMap TransactionSignature.marshalSia)

/-- `Transaction.SigHash`: the hash of what signature `i` covers. -/
def Transaction.sigHash (t : Transaction H) (i height : ℕ) : Option H := do
  let sig ← t.transactionSignatures[i]?
  let bytes ← if sig.coveredFields.wholeTransaction then t.wholeSigHashBytes env sig height
    else t.partialSigHashBytes env sig.coveredFields height
  pure (env.hash bytes)

omit [HashBytes H] in
theorem coveredItems_isSome {α : Type} {xs : List α} :
    ∀ {indices : List UInt64}, (∀ i ∈ indices, i.toNat < xs.length) →
      ∃ items, coveredItems xs indices = some items
  | [], _ => ⟨[], rfl⟩
  | i :: rest, inRange => by
    obtain ⟨items, found⟩ :=
      coveredItems_isSome fun j mem => inRange j (List.mem_cons_of_mem i mem)
    have item : xs[i.toNat]? = some (xs.get ⟨i.toNat, inRange i List.mem_cons_self⟩) :=
      List.getElem?_eq_getElem _
    refine ⟨xs.get ⟨i.toNat, inRange i List.mem_cons_self⟩ :: items, ?_⟩
    simp only [coveredItems, List.mapM_cons] at found ⊢
    rw [item, found]
    rfl

/-- Under well-formed covered fields the signature hash indexes nothing out of range. -/
theorem sigHash_isSome {t : Transaction H} {i height : ℕ} {sig : TransactionSignature H}
    (found : t.transactionSignatures[i]? = some sig) (valid : sig.coveredFields.Valid t) :
    ∃ hash, t.sigHash env i height = some hash := by
  have inRange : ∀ fm ∈ sig.coveredFields.fieldMaxs t, ∀ j ∈ fm.1, j.toNat < fm.2 :=
    fun fm mem => (valid.sorted fm mem).2
  simp only [CoveredFields.fieldMaxs, List.mem_cons, List.mem_nil_iff, or_false,
    forall_eq_or_imp, forall_eq] at inRange
  obtain ⟨scis, scos, fcs, fcrs, sps, sfis, sfos, fees, arbs, sigs⟩ := inRange
  obtain ⟨_, sigsFound⟩ := coveredItems_isSome sigs
  apply Option.isSome_iff_exists.mp
  cases whole : sig.coveredFields.wholeTransaction with
  | true => simp [Transaction.sigHash, found, whole, Transaction.wholeSigHashBytes, sigsFound]
  | false =>
    obtain ⟨_, scisFound⟩ := coveredItems_isSome scis
    obtain ⟨_, scosFound⟩ := coveredItems_isSome scos
    obtain ⟨_, fcsFound⟩ := coveredItems_isSome fcs
    obtain ⟨_, fcrsFound⟩ := coveredItems_isSome fcrs
    obtain ⟨_, spsFound⟩ := coveredItems_isSome sps
    obtain ⟨_, sfisFound⟩ := coveredItems_isSome sfis
    obtain ⟨_, sfosFound⟩ := coveredItems_isSome sfos
    obtain ⟨_, feesFound⟩ := coveredItems_isSome fees
    obtain ⟨_, arbsFound⟩ := coveredItems_isSome arbs
    simp [Transaction.sigHash, found, whole, Transaction.partialSigHashBytes, scisFound, scosFound,
      fcsFound, fcrsFound, spsFound, sfisFound, sfosFound, feesFound, arbsFound, sigsFound]

/-! ### `validSignatures` -/

/-- `inputSignatures`: what a parent object still needs. The source's `index` is never read. -/
structure InputSignatures where
  remainingSignatures : UInt64
  possibleKeys : List SiaPublicKey
  usedKeys : Finset UInt64

/-- The bookkeeping of an accepted signature: its key is used, and one signature fewer is
needed. -/
def InputSignatures.sign (inSig : InputSignatures) (publicKeyIndex : UInt64) : InputSignatures :=
  { inSig with usedKeys := insert publicKeyIndex inSig.usedKeys,
               remainingSignatures := inSig.remainingSignatures - 1 }

/-- The `sigMap` of `validSignatures`. -/
abbrev SigMap (H : Type) := Finmap fun _ : H => InputSignatures

/-- The parent objects signatures sign for, with their unlock conditions: siacoin inputs, file
contract revisions and siafund inputs, in the order `validSignatures` registers them. -/
def Transaction.signedParents (t : Transaction H) : List (H × UnlockConditions) :=
  t.siacoinInputs.map (fun sci => (sci.parentID, sci.unlockConditions)) ++
    t.fileContractRevisions.map (fun fcr => (fcr.parentID, fcr.unlockConditions)) ++
    t.siafundInputs.map (fun sfi => (sfi.parentID, sfi.unlockConditions))

variable [DecidableEq H]

/-- One iteration of the three registration loops; a parent registered twice is a double
spend. -/
def addInputSignatures (sigMap : SigMap H) (parent : H × UnlockConditions) :
    Except SignatureError (SigMap H) :=
  if parent.1 ∈ sigMap then .error .doubleSpend
  else .ok (sigMap.insert parent.1 ⟨parent.2.signaturesRequired, parent.2.publicKeys, ∅⟩)

/-- The registration loops, one per kind of parent. -/
def Transaction.sigMap (t : Transaction H) : Except SignatureError (SigMap H) := do
  let sigMap ← (t.siacoinInputs.map fun sci => (sci.parentID, sci.unlockConditions)).foldlM
    addInputSignatures ∅
  let sigMap ← (t.fileContractRevisions.map fun fcr => (fcr.parentID, fcr.unlockConditions)).foldlM
    addInputSignatures sigMap
  (t.siafundInputs.map fun sfi => (sfi.parentID, sfi.unlockConditions)).foldlM
    addInputSignatures sigMap

/-- The key's verdict on signature `i`: entropy keys never sign, ed25519 signatures must verify
against the signature hash, and other algorithms are accepted. -/
def verifySignature (t : Transaction H) (height : ℕ) (publicKey : SiaPublicKey)
    (sig : TransactionSignature H) (i : ℕ) : Option (Except SignatureError Unit) :=
  if publicKey.algorithm = signatureEntropy then some (.error .entropyKey)
  else if publicKey.algorithm = signatureEd25519 then
    (t.sigHash env i height).map fun sigHash =>
      if env.verifyHash sigHash (copyBytes 32 publicKey.key) (copyBytes 64 sig.signature) then
        .ok ()
      else .error .invalidSignature
  else some (.ok ())

/-- One iteration of the signature loop, for signature `i`. -/
def checkSignature (t : Transaction H) (currentHeight : ℕ) (sigMap : SigMap H)
    (sig : TransactionSignature H) (i : ℕ) : Option (Except SignatureError (SigMap H)) :=
  match sigMap.lookup sig.parentID with
  | none => some (.error .frivolousSignature)
  | some inSig =>
    if inSig.remainingSignatures = 0 then some (.error .frivolousSignature)
    else if sig.publicKeyIndex ∈ inSig.usedKeys then some (.error .publicKeyOveruse)
    else if sig.publicKeyIndex.toNat ≥ inSig.possibleKeys.length then
      some (.error .invalidPubKeyIndex)
    else if sig.timelock.toNat > currentHeight then some (.error .prematureSignature)
    else
      match inSig.possibleKeys[sig.publicKeyIndex.toNat]? with
      | none => none
      | some publicKey =>
        (verifySignature env t currentHeight publicKey sig i).map fun verdict =>
          verdict.map fun () => sigMap.insert sig.parentID (inSig.sign sig.publicKeyIndex)

/-- The signature loop over signatures paired with their indices. -/
def checkSignatures (t : Transaction H) (currentHeight : ℕ) :
    SigMap H → List (TransactionSignature H × ℕ) → Option (Except SignatureError (SigMap H))
  | sigMap, [] => some (.ok sigMap)
  | sigMap, (sig, i) :: rest =>
    match checkSignature env t currentHeight sigMap sig i with
    | some (.ok sigMap) => checkSignatures t currentHeight sigMap rest
    | stopped => stopped

/-- `Transaction.validSignatures`. -/
def validSignatures (t : Transaction H) (currentHeight : ℕ) :
    Option (Except SignatureError Unit) :=
  match t.validCoveredFields with
  | .error e => some (.error e)
  | .ok () =>
    match t.sigMap with
    | .error e => some (.error e)
    | .ok sigMap =>
      (checkSignatures env t currentHeight sigMap t.transactionSignatures.zipIdx).map fun result =>
        result >>= fun sigMap =>
          -- every parent must have received all its signatures
          failIf (¬ ∀ entry ∈ sigMap.entries, entry.2.remainingSignatures = 0) .missingSignatures

/-! ### Registering the parents -/

omit [HashBytes H] in
/-- Registering parents succeeds only when no parent is named twice or registered already; it
adds each parent with its required count, its keys and no used key. -/
theorem foldlM_addInputSignatures_eq_ok :
    ∀ {parents : List (H × UnlockConditions)} {m m' : SigMap H},
      parents.foldlM addInputSignatures m = .ok m' →
        (parents.map Prod.fst).Nodup ∧ (∀ p ∈ parents, p.1 ∉ m) ∧
        ∀ id s, m'.lookup id = some s ↔ m.lookup id = some s ∨
          ∃ uc, (id, uc) ∈ parents ∧ s = ⟨uc.signaturesRequired, uc.publicKeys, ∅⟩
  | [], m, m', ran => by
    cases ran
    simp
  | (parent, uc) :: rest, m, m', ran => by
    rw [List.foldlM_cons, bind_eq_ok] at ran
    obtain ⟨m1, added, ran⟩ := ran
    unfold addInputSignatures at added
    split_ifs at added with known
    cases added
    obtain ⟨distinct, fresh, lookup⟩ := foldlM_addInputSignatures_eq_ok ran
    -- every later parent is absent from a map that holds this one
    have apart : ∀ q ∈ rest, q.1 ≠ parent := fun q mem same =>
      fresh q mem (same ▸ Finmap.mem_insert.mpr (.inl rfl))
    refine ⟨List.nodup_cons.mpr ⟨fun mem => ?_, distinct⟩, fun q mem => ?_, fun id s => ?_⟩
    · obtain ⟨q, qmem, same⟩ := List.mem_map.mp mem
      exact apart q qmem same
    · rcases List.mem_cons.mp mem with rfl | later
      · exact known
      · exact fun old => fresh q later (Finmap.mem_insert.mpr (.inr old))
    rw [lookup]
    by_cases same : id = parent
    · subst same
      rw [Finmap.lookup_insert, Finmap.lookup_eq_none.mpr known]
      constructor
      · rintro (found | ⟨uc', mem, rfl⟩)
        · exact .inr ⟨uc, List.mem_cons_self, (Option.some.inj found).symm⟩
        · exact absurd rfl (apart _ mem)
      · rintro (found | ⟨uc', mem, rfl⟩)
        · cases found
        rcases List.mem_cons.mp mem with same | later
        · cases same
          exact .inl rfl
        · exact absurd rfl (apart _ later)
    · rw [Finmap.lookup_insert_of_ne _ same]
      simp [same]

omit [HashBytes H] in
theorem foldlM_addInputSignatures_ok :
    ∀ {parents : List (H × UnlockConditions)} {m : SigMap H}, (parents.map Prod.fst).Nodup →
      (∀ p ∈ parents, p.1 ∉ m) → ∃ m', parents.foldlM addInputSignatures m = .ok m'
  | [], m, _, _ => ⟨m, rfl⟩
  | (parent, uc) :: rest, m, distinct, fresh => by
    have known : parent ∉ m := fresh _ List.mem_cons_self
    obtain ⟨absent, distinct⟩ := List.nodup_cons.mp distinct
    have later : ∀ q ∈ rest, q.1 ∉ m.insert parent ⟨uc.signaturesRequired, uc.publicKeys, ∅⟩ := by
      intro q mem inserted
      rcases Finmap.mem_insert.mp inserted with same | old
      · exact absent (same ▸ List.mem_map.mpr ⟨q, mem, rfl⟩)
      · exact fresh q (List.mem_cons_of_mem _ mem) old
    obtain ⟨m', ran⟩ := foldlM_addInputSignatures_ok distinct later
    refine ⟨m', ?_⟩
    rw [List.foldlM_cons]
    simp only [addInputSignatures, if_neg known]
    exact ran

omit [HashBytes H] in
/-- The three registration loops are one loop over the signed parents. -/
theorem Transaction.sigMap_eq (t : Transaction H) :
    t.sigMap = t.signedParents.foldlM addInputSignatures ∅ := by
  simp only [Transaction.sigMap, Transaction.signedParents, List.foldlM_append, bind_assoc]

/-! ### One signature -/

/-- A key's verdict on signature `i`: it is not an entropy key, and an ed25519 signature
verifies against the signature hash. -/
def KeyAccepts (t : Transaction H) (height : ℕ) (key : SiaPublicKey)
    (sig : TransactionSignature H) (i : ℕ) : Prop :=
  key.algorithm ≠ signatureEntropy ∧ (key.algorithm = signatureEd25519 →
    ∃ hash, t.sigHash env i height = some hash ∧
      env.verifyHash hash (copyBytes 32 key.key) (copyBytes 64 sig.signature) = true)

/-- The checks signature `i` passes against the keys of the parent it names. -/
structure SignatureChecks (t : Transaction H) (height : ℕ) (keys : List SiaPublicKey)
    (sig : TransactionSignature H) (i : ℕ) : Prop where
  index_lt : sig.publicKeyIndex.toNat < keys.length
  timelock_le : sig.timelock.toNat ≤ height
  accepted : ∀ key, keys[sig.publicKeyIndex.toNat]? = some key → KeyAccepts env t height key sig i

variable {env} {t : Transaction H} {height i : ℕ} {sig : TransactionSignature H}

variable (sig) in
omit [DecidableEq H] in
theorem verifySignature_spec (key : SiaPublicKey)
    (hashed : ∃ hash, t.sigHash env i height = some hash) :
    ∃ verdict, verifySignature env t height key sig i = some verdict ∧
      (verdict = .ok () ↔ KeyAccepts env t height key sig i) := by
  obtain ⟨hash, found⟩ := hashed
  have apart : signatureEd25519 ≠ signatureEntropy := by decide
  unfold verifySignature KeyAccepts
  by_cases entropy : key.algorithm = signatureEntropy
  · exact ⟨_, if_pos entropy, by simp [entropy]⟩
  rw [if_neg entropy]
  by_cases ed : key.algorithm = signatureEd25519
  · rw [if_pos ed, found, Option.map_some]
    refine ⟨_, rfl, ?_⟩
    cases verifies : env.verifyHash hash (copyBytes 32 key.key) (copyBytes 64 sig.signature) <;>
      simp [ed, apart, verifies]
  · exact ⟨_, if_neg ed, by simp [entropy, ed]⟩

variable (sig) in
/-- One step of the signature loop: it accepts exactly a signature that names a registered parent
still short of signatures, with a key the parent has not used, and passes the checks; then it
records the key and the signature. -/
theorem checkSignature_spec {m : SigMap H} (hashed : ∃ hash, t.sigHash env i height = some hash) :
    ∃ r, checkSignature env t height m sig i = some r ∧ ∀ m', r = .ok m' ↔
      ∃ s, m.lookup sig.parentID = some s ∧ s.remainingSignatures ≠ 0 ∧
        sig.publicKeyIndex ∉ s.usedKeys ∧ SignatureChecks env t height s.possibleKeys sig i ∧
        m' = m.insert sig.parentID (s.sign sig.publicKeyIndex) := by
  unfold checkSignature
  cases found : m.lookup sig.parentID with
  | none => exact ⟨_, rfl, fun m' => by simp⟩
  | some s =>
    simp only [Option.some.injEq, exists_eq_left']
    by_cases zero : s.remainingSignatures = 0
    · exact ⟨_, if_pos zero, fun m' => by simp [zero]⟩
    rw [if_neg zero]
    by_cases used : sig.publicKeyIndex ∈ s.usedKeys
    · exact ⟨_, if_pos used, fun m' => by simp [used]⟩
    rw [if_neg used]
    by_cases out : sig.publicKeyIndex.toNat ≥ s.possibleKeys.length
    · refine ⟨_, if_pos out, fun m' => ⟨nofun, ?_⟩⟩
      rintro ⟨-, -, checks, -⟩
      exact absurd checks.index_lt (not_lt.mpr out)
    rw [if_neg out]
    by_cases late : sig.timelock.toNat > height
    · refine ⟨_, if_pos late, fun m' => ⟨nofun, ?_⟩⟩
      rintro ⟨-, -, checks, -⟩
      exact absurd checks.timelock_le (not_le.mpr late)
    rw [if_neg late]
    have key : s.possibleKeys[sig.publicKeyIndex.toNat]? =
        some (s.possibleKeys.get ⟨sig.publicKeyIndex.toNat, not_le.mp out⟩) :=
      List.getElem?_eq_getElem _
    obtain ⟨verdict, verified, accepts⟩ := verifySignature_spec sig
      (s.possibleKeys.get ⟨sig.publicKeyIndex.toNat, not_le.mp out⟩) hashed
    simp only [key, verified, Option.map_some]
    refine ⟨_, rfl, fun m' => ?_⟩
    -- the checks hold except perhaps the key's verdict, which is the verdict the step returns
    have checks : SignatureChecks env t height s.possibleKeys sig i ↔ verdict = .ok () := by
      rw [accepts]
      constructor
      · intro checks
        exact checks.accepted _ key
      · intro accepted
        refine ⟨not_le.mp out, not_lt.mp late, fun key' found' => ?_⟩
        rw [key, Option.some.injEq] at found'
        exact found' ▸ accepted
    rw [checks]
    cases verdict with
    | error e => simp [Except.map]
    | ok u => simp [zero, used, eq_comm, Except.map]

/-! ### The signature loop -/

/-- The keys of the signatures among `L` that name `id`. -/
def namedKeys (id : H) (L : List (TransactionSignature H × ℕ)) : List UInt64 :=
  (L.filter (·.1.parentID = id)).map (·.1.publicKeyIndex)

/-- What the loop asks of the signatures among `L` that name a parent whose bookkeeping is `s`:
no more than it still needs, with distinct keys it has not used. -/
def ParentPasses (id : H) (s : InputSignatures) (L : List (TransactionSignature H × ℕ)) : Prop :=
  (namedKeys id L).length ≤ s.remainingSignatures.toNat ∧ (namedKeys id L).Nodup ∧
    ∀ k ∈ namedKeys id L, k ∉ s.usedKeys

variable (env) in
/-- The signatures `L` pass the loop from `m`: each names a registered parent and passes the
checks against its keys, and every parent gets what it asks. -/
structure SignaturesPass (t : Transaction H) (height : ℕ) (m : SigMap H)
    (L : List (TransactionSignature H × ℕ)) : Prop where
  checked : ∀ e ∈ L, ∃ s, m.lookup e.1.parentID = some s ∧
    SignatureChecks env t height s.possibleKeys e.1 e.2
  parents : ∀ id s, m.lookup id = some s → ParentPasses id s L

omit [HashBytes H] in
theorem namedKeys_cons_self {L : List (TransactionSignature H × ℕ)} :
    namedKeys sig.parentID ((sig, i) :: L) = sig.publicKeyIndex :: namedKeys sig.parentID L := by
  simp [namedKeys]

omit [HashBytes H] in
theorem namedKeys_cons_other {id : H} {L : List (TransactionSignature H × ℕ)}
    (other : sig.parentID ≠ id) : namedKeys id ((sig, i) :: L) = namedKeys id L := by
  simp [namedKeys, other]

theorem remainingSignatures_ne_zero {s : InputSignatures} :
    s.remainingSignatures ≠ 0 ↔ 1 ≤ s.remainingSignatures.toNat := by
  rw [ne_eq, ← UInt64.toNat_inj, UInt64.toNat_zero]
  omega

/-- A parent still short of signatures needs one fewer after one more: the counter does not
wrap. -/
theorem InputSignatures.sign_remainingSignatures {s : InputSignatures} {k : UInt64}
    (nonzero : s.remainingSignatures ≠ 0) :
    (s.sign k).remainingSignatures.toNat = s.remainingSignatures.toNat - 1 :=
  UInt64.toNat_sub_of_le _ _ (UInt64.le_iff_toNat_le.mpr (remainingSignatures_ne_zero.mp nonzero))

omit [HashBytes H] in
theorem parentPasses_cons_self {s : InputSignatures} {L : List (TransactionSignature H × ℕ)} :
    ParentPasses sig.parentID s ((sig, i) :: L) ↔
      s.remainingSignatures ≠ 0 ∧ sig.publicKeyIndex ∉ s.usedKeys ∧
        ParentPasses sig.parentID (s.sign sig.publicKeyIndex) L := by
  simp only [ParentPasses, namedKeys_cons_self, List.length_cons, List.nodup_cons, List.mem_cons,
    forall_eq_or_imp]
  constructor
  · rintro ⟨long, ⟨fresh, distinct⟩, unused, unusedRest⟩
    have nonzero : s.remainingSignatures ≠ 0 := remainingSignatures_ne_zero.mpr (by omega)
    refine ⟨nonzero, unused, ?_, distinct, fun k mem used => ?_⟩
    · rw [InputSignatures.sign_remainingSignatures nonzero]
      omega
    rcases Finset.mem_insert.mp used with rfl | old
    · exact fresh mem
    · exact unusedRest k mem old
  · rintro ⟨nonzero, unused, long, distinct, unusedRest⟩
    rw [InputSignatures.sign_remainingSignatures nonzero] at long
    have positive := remainingSignatures_ne_zero.mp nonzero
    refine ⟨by omega, ⟨fun mem => unusedRest _ mem (Finset.mem_insert_self _ _), distinct⟩, unused,
      fun k mem => fun old => unusedRest k mem (Finset.mem_insert_of_mem old)⟩

omit [HashBytes H] in
theorem parentPasses_cons_other {id : H} {s : InputSignatures}
    {L : List (TransactionSignature H × ℕ)} (other : sig.parentID ≠ id) :
    ParentPasses id s ((sig, i) :: L) ↔ ParentPasses id s L := by
  simp only [ParentPasses, namedKeys_cons_other other]

/-- The loop's demands, one signature at a time: the first signature passes the step, and the
rest pass from the bookkeeping it leaves. -/
theorem signaturesPass_cons {m : SigMap H} {s : InputSignatures}
    {L : List (TransactionSignature H × ℕ)} (found : m.lookup sig.parentID = some s) :
    SignaturesPass env t height m ((sig, i) :: L) ↔
      s.remainingSignatures ≠ 0 ∧ sig.publicKeyIndex ∉ s.usedKeys ∧
        SignatureChecks env t height s.possibleKeys sig i ∧
        SignaturesPass env t height (m.insert sig.parentID (s.sign sig.publicKeyIndex)) L := by
  -- the new bookkeeping keeps every parent's keys
  have keys : ∀ id (P : List SiaPublicKey → Prop),
      (∃ s', (m.insert sig.parentID (s.sign sig.publicKeyIndex)).lookup id = some s' ∧
        P s'.possibleKeys) ↔ ∃ s', m.lookup id = some s' ∧ P s'.possibleKeys := by
    intro id P
    by_cases same : id = sig.parentID
    · subst same
      simp [found, InputSignatures.sign]
    · rw [Finmap.lookup_insert_of_ne _ same]
  have parents : (∀ id s', m.lookup id = some s' → ParentPasses id s' ((sig, i) :: L)) ↔
      (s.remainingSignatures ≠ 0 ∧ sig.publicKeyIndex ∉ s.usedKeys) ∧
        ∀ id s', (m.insert sig.parentID (s.sign sig.publicKeyIndex)).lookup id = some s' →
          ParentPasses id s' L := by
    constructor
    · intro passes
      obtain ⟨nonzero, unused, rest⟩ := parentPasses_cons_self.mp (passes _ _ found)
      refine ⟨⟨nonzero, unused⟩, fun id s' found' => ?_⟩
      by_cases same : id = sig.parentID
      · subst same
        rw [Finmap.lookup_insert, Option.some.injEq] at found'
        exact found' ▸ rest
      · rw [Finmap.lookup_insert_of_ne _ same] at found'
        exact (parentPasses_cons_other (Ne.symm same)).mp (passes id s' found')
    · rintro ⟨⟨nonzero, unused⟩, passes⟩ id s' found'
      by_cases same : id = sig.parentID
      · subst same
        rw [found, Option.some.injEq] at found'
        subst found'
        exact parentPasses_cons_self.mpr ⟨nonzero, unused, passes _ _ (Finmap.lookup_insert _)⟩
      · refine (parentPasses_cons_other (Ne.symm same)).mpr (passes id s' ?_)
        rw [Finmap.lookup_insert_of_ne _ same]
        exact found'
  constructor
  · rintro ⟨checked, passes⟩
    obtain ⟨⟨nonzero, unused⟩, passes⟩ := parents.mp passes
    obtain ⟨s', found', checks⟩ := checked _ List.mem_cons_self
    rw [found, Option.some.injEq] at found'
    subst found'
    exact ⟨nonzero, unused, checks, fun e mem => (keys e.1.parentID
      (SignatureChecks env t height · e.1 e.2)).mpr (checked e (List.mem_cons_of_mem _ mem)),
      passes⟩
  · rintro ⟨nonzero, unused, checks, checked, passes⟩
    refine ⟨fun e mem => ?_, parents.mpr ⟨⟨nonzero, unused⟩, passes⟩⟩
    rcases List.mem_cons.mp mem with rfl | later
    · exact ⟨s, found, checks⟩
    · exact (keys e.1.parentID (SignatureChecks env t height · e.1 e.2)).mp (checked e later)

/-- The signature loop, by induction on the signatures, one step each. When every signature's
hash exists it never panics; it accepts exactly signatures that pass, and leaves each parent
needing its count less the signatures that name it. -/
theorem checkSignatures_spec : ∀ {L : List (TransactionSignature H × ℕ)} {m : SigMap H},
    (∀ e ∈ L, ∃ hash, t.sigHash env e.2 height = some hash) →
    ∃ r, checkSignatures env t height m L = some r ∧
      ((∃ m', r = .ok m') ↔ SignaturesPass env t height m L) ∧
      ∀ m', r = .ok m' → ∀ id, (m'.lookup id).map (·.remainingSignatures.toNat) =
        (m.lookup id).map fun s => s.remainingSignatures.toNat - (namedKeys id L).length
  | [], m, _ => by
    refine ⟨.ok m, rfl, ⟨fun _ => ⟨nofun, fun id s _ => ?_⟩, fun _ => ⟨m, rfl⟩⟩, ?_⟩
    · simp [ParentPasses, namedKeys]
    · rintro m' ⟨⟩ id
      simp [namedKeys]
  | (sig, i) :: rest, m, hashed => by
    obtain ⟨r1, stepped, accepted⟩ :=
      checkSignature_spec sig (m := m) (hashed _ List.mem_cons_self)
    cases r1 with
    | error e =>
      -- a refused signature stops the loop, and the signatures do not pass
      refine ⟨.error e, by simp [checkSignatures, stepped], ⟨nofun, fun passes => ?_⟩, nofun⟩
      obtain ⟨s, found, -⟩ := passes.checked _ List.mem_cons_self
      obtain ⟨nonzero, unused, checks, -⟩ := (signaturesPass_cons found).mp passes
      have wrong := (accepted _).mpr ⟨s, found, nonzero, unused, checks, rfl⟩
      cases wrong
    | ok m1 =>
      obtain ⟨s, found, nonzero, unused, checks, rfl⟩ := (accepted m1).mp rfl
      obtain ⟨r, ran, passes, counted⟩ := checkSignatures_spec
        (m := m.insert sig.parentID (s.sign sig.publicKeyIndex))
        fun e mem => hashed e (List.mem_cons_of_mem _ mem)
      refine ⟨r, by simp [checkSignatures, stepped, ran], ?_, fun m' done id => ?_⟩
      · rw [passes, signaturesPass_cons found]
        exact ⟨fun rest => ⟨nonzero, unused, checks, rest⟩, fun ⟨_, _, _, rest⟩ => rest⟩
      rw [counted m' done id]
      by_cases same : id = sig.parentID
      · subst same
        have positive := remainingSignatures_ne_zero.mp nonzero
        rw [Finmap.lookup_insert, found, namedKeys_cons_self, Option.map_some, Option.map_some,
          InputSignatures.sign_remainingSignatures nonzero, List.length_cons]
        congr 1
        omega
      · rw [Finmap.lookup_insert_of_ne _ same, namedKeys_cons_other (Ne.symm same)]

/-! ### `validSignatures` -/

variable (env) in
/-- What `validSignatures` demands of a transaction's signatures: well-formed covered fields;
parents named once across siacoin inputs, revisions and siafund inputs; for each parent, as many
signatures as it requires, with distinct keys; and each signature naming a parent and passing
the checks against that parent's keys. -/
structure SignaturesValid (t : Transaction H) (height : ℕ) : Prop where
  covered : ∀ sig ∈ t.transactionSignatures, sig.coveredFields.Valid t
  distinct : (t.signedParents.map Prod.fst).Nodup
  signed : ∀ id uc, (id, uc) ∈ t.signedParents →
    ((t.transactionSignatures.filter (·.parentID = id)).map (·.publicKeyIndex)).Nodup ∧
      (t.transactionSignatures.filter (·.parentID = id)).length = uc.signaturesRequired.toNat
  checked : ∀ i sig, t.transactionSignatures[i]? = some sig →
    ∃ uc, (sig.parentID, uc) ∈ t.signedParents ∧ SignatureChecks env t height uc.publicKeys sig i

omit [HashBytes H] in
/-- The loop's per-parent keys, read on the signatures without their indices. -/
theorem namedKeys_zipIdx {id : H} {sigs : List (TransactionSignature H)} :
    namedKeys id sigs.zipIdx = (sigs.filter (·.parentID = id)).map (·.publicKeyIndex) := by
  conv_rhs => rw [← List.zipIdx_map_fst 0 sigs]
  rw [List.filter_map, List.map_map]
  rfl

omit [HashBytes H] in
theorem forall_entries_iff {m : SigMap H} {P : InputSignatures → Prop} :
    (∀ e ∈ m.entries, P e.2) ↔ ∀ id s, m.lookup id = some s → P s :=
  ⟨fun all id s found => all ⟨id, s⟩ (Finmap.mem_lookup_iff.mp found),
    fun all ⟨id, s⟩ mem => all id s (Finmap.mem_lookup_iff.mpr mem)⟩

/-- The registered parents pass the loop exactly when each signature names one and passes its
checks, and each gets no more signatures than it requires, with distinct keys. -/
theorem signaturesPass_registered {m : SigMap H}
    (registered : ∀ id s, m.lookup id = some s ↔
      ∃ uc, (id, uc) ∈ t.signedParents ∧ s = ⟨uc.signaturesRequired, uc.publicKeys, ∅⟩) :
    SignaturesPass env t height m t.transactionSignatures.zipIdx ↔
      (∀ i sig, t.transactionSignatures[i]? = some sig →
        ∃ uc, (sig.parentID, uc) ∈ t.signedParents ∧
          SignatureChecks env t height uc.publicKeys sig i) ∧
      ∀ id uc, (id, uc) ∈ t.signedParents →
        (namedKeys id t.transactionSignatures.zipIdx).length ≤ uc.signaturesRequired.toNat ∧
          (namedKeys id t.transactionSignatures.zipIdx).Nodup := by
  have checked : (∀ e ∈ t.transactionSignatures.zipIdx, ∃ s, m.lookup e.1.parentID = some s ∧
      SignatureChecks env t height s.possibleKeys e.1 e.2) ↔
      ∀ i sig, t.transactionSignatures[i]? = some sig → ∃ uc, (sig.parentID, uc) ∈ t.signedParents ∧
        SignatureChecks env t height uc.publicKeys sig i := by
    constructor
    · intro all i sig found
      obtain ⟨s, stored, checks⟩ := all (sig, i) (List.mk_mem_zipIdx_iff_getElem?.mpr found)
      obtain ⟨uc, mem, rfl⟩ := (registered _ _).mp stored
      exact ⟨uc, mem, checks⟩
    · rintro all ⟨sig, i⟩ mem
      obtain ⟨uc, mem, checks⟩ := all i sig (List.mk_mem_zipIdx_iff_getElem?.mp mem)
      exact ⟨_, (registered _ _).mpr ⟨uc, mem, rfl⟩, checks⟩
  have parents : (∀ id s, m.lookup id = some s → ParentPasses id s t.transactionSignatures.zipIdx) ↔
      ∀ id uc, (id, uc) ∈ t.signedParents →
        (namedKeys id t.transactionSignatures.zipIdx).length ≤ uc.signaturesRequired.toNat ∧
          (namedKeys id t.transactionSignatures.zipIdx).Nodup := by
    -- a freshly registered parent has used no key
    constructor
    · intro all id uc mem
      obtain ⟨long, distinct, -⟩ := all id _ ((registered _ _).mpr ⟨uc, mem, rfl⟩)
      exact ⟨long, distinct⟩
    · intro all id s stored
      obtain ⟨uc, mem, rfl⟩ := (registered _ _).mp stored
      obtain ⟨long, distinct⟩ := all id uc mem
      exact ⟨long, distinct, fun k _ used => Finset.notMem_empty k used⟩
  rw [← checked, ← parents]
  exact ⟨fun ⟨c, p⟩ => ⟨c, p⟩, fun ⟨c, p⟩ => ⟨c, p⟩⟩

/-- `validSignatures` never panics: the signature hash indexes only what the covered-field check
admitted, and a key only after its index is checked. It returns nil exactly when the signatures
are valid. -/
theorem validSignatures_spec (t : Transaction H) (height : ℕ) :
    validSignatures env t height ≠ none ∧
      (validSignatures env t height = some (.ok ()) ↔ SignaturesValid env t height) := by
  unfold validSignatures
  cases covered : t.validCoveredFields with
  | error e =>
    refine ⟨nofun, ⟨nofun, fun valid => ?_⟩⟩
    rw [validCoveredFields_eq_ok.mpr valid.covered] at covered
    cases covered
  | ok u =>
    have allValid := validCoveredFields_eq_ok.mp covered
    have hashed : ∀ e ∈ t.transactionSignatures.zipIdx,
        ∃ hash, t.sigHash env e.2 height = some hash := by
      rintro ⟨sig, i⟩ mem
      have found := List.mk_mem_zipIdx_iff_getElem?.mp mem
      exact sigHash_isSome env found (allValid sig (List.mem_of_getElem? found))
    rw [Transaction.sigMap_eq]
    cases registered : t.signedParents.foldlM addInputSignatures ∅ with
    | error e =>
      refine ⟨nofun, ⟨nofun, fun valid => ?_⟩⟩
      obtain ⟨m, ok⟩ := foldlM_addInputSignatures_ok valid.distinct fun _ _ => Finmap.notMem_empty
      rw [registered] at ok
      cases ok
    | ok m =>
      obtain ⟨distinct, -, lookup⟩ := foldlM_addInputSignatures_eq_ok registered
      have fresh : ∀ id s, m.lookup id = some s ↔
          ∃ uc, (id, uc) ∈ t.signedParents ∧ s = ⟨uc.signaturesRequired, uc.publicKeys, ∅⟩ := by
        intro id s
        rw [lookup, Finmap.lookup_empty]
        simp
      obtain ⟨r, ran, passes, counted⟩ := checkSignatures_spec (m := m) hashed
      simp only [ran, Option.map_some, ne_eq, reduceCtorEq, not_false_eq_true, true_and,
        Option.some.injEq, bind_eq_ok, failIf_eq_ok, not_not]
      constructor
      · rintro ⟨m', done, swept⟩
        obtain ⟨checked, parents⟩ := (signaturesPass_registered fresh).mp (passes.mp ⟨m', done⟩)
        refine ⟨allValid, distinct, fun id uc mem => ?_, checked⟩
        obtain ⟨long, keys⟩ := parents id uc mem
        -- the sweep found the parent's counter at zero
        have swept' := (forall_entries_iff (P := (·.remainingSignatures = 0))).mp swept
        have remaining := counted m' done id
        rw [(fresh id _).mpr ⟨uc, mem, rfl⟩, Option.map_some] at remaining
        obtain ⟨s', found', same⟩ := Option.map_eq_some_iff.mp remaining
        have zero := swept' id s' found'
        rw [← UInt64.toNat_inj, UInt64.toNat_zero] at zero
        rw [namedKeys_zipIdx] at long keys same
        rw [List.length_map] at long same
        dsimp only at same
        exact ⟨keys, by omega⟩
      · intro valid
        obtain ⟨m', done⟩ := passes.mpr ((signaturesPass_registered fresh).mpr
          ⟨valid.checked, fun id uc mem => by
            obtain ⟨keys, count⟩ := valid.signed id uc mem
            rw [namedKeys_zipIdx, List.length_map]
            exact ⟨count.le, keys⟩⟩)
        refine ⟨m', done, (forall_entries_iff (P := (·.remainingSignatures = 0))).mpr
          fun id s' found' => ?_⟩
        have remaining := counted m' done id
        rw [found', Option.map_some] at remaining
        obtain ⟨s, stored, same⟩ := Option.map_eq_some_iff.mp remaining.symm
        obtain ⟨uc, mem, rfl⟩ := (fresh id s).mp stored
        obtain ⟨-, count⟩ := valid.signed id uc mem
        rw [namedKeys_zipIdx, List.length_map, count, Nat.sub_self] at same
        rw [← UInt64.toNat_inj, UInt64.toNat_zero]
        exact same.symm

end Sia
