import Mathlib.Data.Nat.Digits.Lemmas
import Sia.Lib.Bits
import Sia.Types.Encoding

/-! The encoded sizes of `types/encoding.go`: the `MarshalSiaSize` methods, written by hand
beside each encoder so that `fitsInABlock` can bound a transaction without encoding it, and the
loops of `Currency.MarshalSia` and `Currency.MarshalSiaSize` over the machine words of the value.
Every size is the length of what the encoder writes. -/
namespace Sia

namespace Encoding

open Bytes

/-- `_S`: the bytes of a `big.Word` on a 64-bit platform. -/
def wordBytes : ℕ := 8

/-- `crypto.HashSize`. -/
def hashSize : ℕ := 32

/-- `big.Int.Bits` of a non-negative value: its words, least significant first, the most
significant one nonzero. -/
def bits (c : Currency) : List ℕ := Nat.digits (256 ^ wordBytes) c

/-- `bits[i/_S] >> (uint(i%_S)*8)`: the word that holds byte `i`, shifted down to it. -/
def shiftedWord (words : List ℕ) (i : ℕ) : ℕ :=
  words.getD (i / wordBytes) 0 >>> (i % wordBytes * 8)

/-- `Currency.MarshalSia` as the source writes it: the first loop seeks down from the top byte
position to the highest one whose shifted word is nonzero, ending at `-1` when there is none;
the second writes, from there down, each shifted word truncated to a byte. -/
def currencyMarshalSiaWords (c : Currency) : List UInt8 :=
  let count := (((List.range ((bits c).length * wordBytes)).reverse.find? fun i =>
    shiftedWord (bits c) i ≠ 0).map (· + 1)).getD 0
  writeInt count ++ (List.range count).reverse.map fun i => UInt8.ofNat (shiftedWord (bits c) i)

/-- The zero bytes that the labelled loop of `Currency.MarshalSiaSize` counts off, over the words
from the most significant: in each word from its top byte down, until the word shifted down to
the byte is nonzero, where it breaks out of both loops. -/
def zeroBytes : List ℕ → ℕ
  | [] => 0
  | word :: lower =>
    let inWord := ((List.range wordBytes).reverse.takeWhile fun j => word >>> (j * 8) = 0).length
    if inWord < wordBytes then inWord else inWord + zeroBytes lower

/-- `Currency.MarshalSiaSize`: the bytes of all words less the zero bytes above the top nonzero
one, and the length prefix. -/
def currencyMarshalSiaSize (c : Currency) : ℕ :=
  8 + ((bits c).length * wordBytes - zeroBytes (bits c).reverse)

/-- The shifted word read off the value: its word, shifted down to the byte within the word. -/
theorem shiftedWord_bits_eq (c i : Currency) :
    shiftedWord (bits c) i =
      c / (256 ^ wordBytes) ^ (i / wordBytes) % 256 ^ wordBytes / 256 ^ (i % wordBytes) := by
  rw [shiftedWord, bits, Nat.getD_digits _ _ (by decide), Nat.shiftRight_eq_div_pow,
    Nat.mul_comm, Nat.pow_mul]

theorem div_pow_byte (c i : ℕ) :
    c / (256 ^ wordBytes) ^ (i / wordBytes) / 256 ^ (i % wordBytes) = c / 256 ^ i := by
  rw [Nat.div_div_eq_div_mul, ← Nat.pow_mul, ← Nat.pow_add, Nat.div_add_mod]

/-- Below the top of its word, the shifted word is the value itself shifted down. -/
theorem shiftedWord_bits {c i : Currency}
    (small : c < 256 ^ (wordBytes * (i / wordBytes + 1))) :
    shiftedWord (bits c) i = c / 256 ^ i := by
  have word : c / (256 ^ wordBytes) ^ (i / wordBytes) < 256 ^ wordBytes := by
    rw [Nat.div_lt_iff_lt_mul (by positivity), ← Nat.pow_mul, ← Nat.pow_add]
    rwa [Nat.mul_add, Nat.mul_one, Nat.add_comm] at small
  rw [shiftedWord_bits_eq, Nat.mod_eq_of_lt word, div_pow_byte]

theorem shiftedWord_bits_eq_zero {c i : Currency} (above : c < 256 ^ i) :
    shiftedWord (bits c) i = 0 := by
  apply Nat.eq_zero_of_le_zero
  calc shiftedWord (bits c) i
      = c / (256 ^ wordBytes) ^ (i / wordBytes) % 256 ^ wordBytes / 256 ^ (i % wordBytes) :=
        shiftedWord_bits_eq c i
    _ ≤ c / (256 ^ wordBytes) ^ (i / wordBytes) / 256 ^ (i % wordBytes) :=
        Nat.div_le_div_right (Nat.mod_le _ _)
    _ = 0 := by rw [div_pow_byte, Nat.div_eq_of_lt above]

/-- Every word of the value is below the top of its byte string. -/
theorem length_digits_le (c : Currency) :
    (Nat.digits 256 c).length ≤ wordBytes * (bits c).length := by
  have below : c < (256 ^ wordBytes) ^ (bits c).length :=
    Nat.lt_base_pow_length_digits (by decide)
  rw [← Nat.pow_mul] at below
  exact (Nat.digits_length_le_iff (by decide) c).mpr below

/-- The top word is nonzero, so the byte string reaches into it. -/
theorem lt_length_digits {c : Currency} (ne : c ≠ 0) :
    wordBytes * ((bits c).length - 1) < (Nat.digits 256 c).length := by
  have nonempty : 0 < (bits c).length :=
    List.length_pos_iff.mpr (Nat.digits_ne_nil_iff_ne_zero.mpr ne)
  have topWord : (256 ^ wordBytes) ^ ((bits c).length - 1) ≤ c :=
    (Nat.lt_digits_length_iff (by decide) c).mp
      (show (bits c).length - 1 < (bits c).length by omega)
  rw [← Nat.pow_mul] at topWord
  exact (Nat.lt_digits_length_iff (by decide) c).mpr topWord

/-- The byte of every position is the value's byte there. -/
theorem ofNat_shiftedWord_bits (c i : Currency) :
    UInt8.ofNat (shiftedWord (bits c) i) = UInt8.ofNat (c / 256 ^ i % 256) := by
  have inWord : i % wordBytes < wordBytes := Nat.mod_lt _ (by decide)
  have split : 256 ^ wordBytes = 256 ^ (i % wordBytes) * 256 ^ (wordBytes - i % wordBytes) := by
    rw [← Nat.pow_add, Nat.add_sub_cancel' inWord.le]
  have low : 256 ∣ 256 ^ (wordBytes - i % wordBytes) :=
    dvd_pow_self 256 (Nat.sub_ne_zero_of_lt inWord)
  have byte : ∀ x, x % 256 ^ wordBytes / 256 ^ (i % wordBytes) % 256 =
      x / 256 ^ (i % wordBytes) % 256 := fun x => by
    rw [split, Nat.mod_mul_right_div_self, Nat.mod_mod_of_dvd _ low]
  apply UInt8.toNat_inj.mp
  rw [UInt8.toNat_ofNat', UInt8.toNat_ofNat', shiftedWord_bits_eq, byte, div_pow_byte]
  exact (Nat.mod_mod _ _).symm

/-- The seek loop of `Currency.MarshalSia` counts the value's bytes. -/
theorem count_shiftedWord_bits (c : Currency) :
    (((List.range ((bits c).length * wordBytes)).reverse.find? fun i =>
      shiftedWord (bits c) i ≠ 0).map (· + 1)).getD 0 = (Nat.digits 256 c).length := by
  by_cases zero : c = 0
  · subst zero
    rfl
  have upper := length_digits_le c
  have lower := lt_length_digits zero
  have small : c < 256 ^ (Nat.digits 256 c).length := Nat.lt_base_pow_length_digits (by decide)
  have top : 256 ^ ((Nat.digits 256 c).length - 1) ≤ c :=
    (Nat.lt_digits_length_iff (by decide) c).mp (by omega)
  simp only [wordBytes] at upper lower
  have found : shiftedWord (bits c) ((Nat.digits 256 c).length - 1) ≠ 0 := by
    rw [shiftedWord_bits (lt_of_lt_of_le small (Nat.pow_le_pow_right (by decide)
      (by simp only [wordBytes]; omega)))]
    exact (Nat.div_pos top (by positivity)).ne'
  rw [Bits.find?_range_reverse (m := (Nat.digits 256 c).length - 1) (by simp only [wordBytes]; omega) (by simpa using found)
    fun i above _ => by
      simpa using shiftedWord_bits_eq_zero (lt_of_lt_of_le small (Nat.pow_le_pow_right (by decide) (by omega)))]
  simp only [Option.map_some, Option.getD_some]
  omega

theorem currencyMarshalSiaWords_eq (c : Currency) :
    currencyMarshalSiaWords c = currencyMarshalSia c := by
  rw [currencyMarshalSiaWords, count_shiftedWord_bits, currencyMarshalSia, writePrefixedBytes,
    length_beMinimal, beMinimal_eq_bytes c, length_beMinimal, List.map_reverse]
  simp only [ofNat_shiftedWord_bits]

/-- The labelled loop of `Currency.MarshalSiaSize` breaks in the top word, after the zero bytes
above the value's top byte. -/
theorem zeroBytes_bits {c : Currency} (ne : c ≠ 0) :
    zeroBytes (bits c).reverse = wordBytes * (bits c).length - (Nat.digits 256 c).length := by
  obtain ⟨lowerWords, topWord, split⟩ :=
    (List.eq_nil_or_concat' (bits c)).resolve_left (Nat.digits_ne_nil_iff_ne_zero.mpr ne)
  have count : (bits c).length = lowerWords.length + 1 := by simp [split]
  have upper := length_digits_le c
  have lower := lt_length_digits ne
  rw [count, Nat.mul_succ] at upper
  rw [count, Nat.add_sub_cancel] at lower
  have wordPos : 0 < wordBytes := by decide
  have small : c < 256 ^ (Nat.digits 256 c).length := Nat.lt_base_pow_length_digits (by decide)
  have top : 256 ^ ((Nat.digits 256 c).length - 1) ≤ c :=
    (Nat.lt_digits_length_iff (by decide) c).mp (by omega)
  have position : ∀ j < wordBytes,
      (wordBytes * lowerWords.length + j) / wordBytes = lowerWords.length ∧
        (wordBytes * lowerWords.length + j) % wordBytes = j := by
    intro j inside
    simp only [wordBytes] at inside ⊢
    omega
  -- byte `j` of the top word is the value's byte at position `wordBytes * lowerWords.length + j`
  have shifted : ∀ j < wordBytes,
      topWord >>> (j * 8) = shiftedWord (bits c) (wordBytes * lowerWords.length + j) := by
    intro j inside
    rw [shiftedWord, (position j inside).1, (position j inside).2, split,
      List.getD_append_right _ _ _ _ (le_refl _), Nat.sub_self]
    rfl
  have scan : ((List.range wordBytes).reverse.takeWhile fun j => topWord >>> (j * 8) = 0).length =
      wordBytes - ((Nat.digits 256 c).length - wordBytes * lowerWords.length) := by
    refine Bits.length_takeWhile_range_reverse (by omega) fun j inside => ?_
    rw [shifted j inside]
    by_cases high : (Nat.digits 256 c).length ≤ wordBytes * lowerWords.length + j
    · rw [shiftedWord_bits_eq_zero (lt_of_lt_of_le small (Nat.pow_le_pow_right (by decide) high)),
        decide_eq_true rfl, decide_eq_true (by omega)]
    · have inWord : c < 256 ^ (wordBytes * ((wordBytes * lowerWords.length + j) / wordBytes + 1)) := by
        rw [(position j inside).1, Nat.mul_succ]
        exact lt_of_lt_of_le small (Nat.pow_le_pow_right (by decide) upper)
      have nonzero : c / 256 ^ (wordBytes * lowerWords.length + j) ≠ 0 :=
        (Nat.div_pos ((Nat.pow_le_pow_right (by decide) (by omega)).trans top)
          (by positivity)).ne'
      rw [shiftedWord_bits inWord, decide_eq_false nonzero, decide_eq_false (by omega)]
  rw [split, List.reverse_append, List.reverse_singleton, List.singleton_append, zeroBytes, scan,
    if_pos (by omega), List.length_append, List.length_singleton, Nat.mul_succ]
  omega

theorem currencyMarshalSiaSize_eq (c : Currency) :
    currencyMarshalSiaSize c = (currencyMarshalSia c).length := by
  rw [currencyMarshalSia, writePrefixedBytes, List.length_append, length_writeInt,
    length_beMinimal, currencyMarshalSiaSize]
  by_cases zero : c = 0
  · subst zero
    simp [bits, zeroBytes]
  · have upper := length_digits_le c
    rw [zeroBytes_bits zero, Nat.mul_comm]
    omega

@[simp] theorem length_writePrefixedBytes (bytes : List UInt8) :
    (writePrefixedBytes bytes).length = 8 + bytes.length := by
  simp [writePrefixedBytes]

@[simp] theorem length_writeList {α : Type} (write : α → List UInt8) (xs : List α) :
    (writeList write xs).length = 8 + (xs.map fun x => (write x).length).sum := by
  simp [writeList, List.length_flatMap]

end Encoding

open Encoding

variable {H : Type} [HashBytes H]

/-- `UnlockConditions.MarshalSiaSize`. -/
def UnlockConditions.marshalSiaSize (uc : UnlockConditions) : ℕ :=
  8 + 8 + (uc.publicKeys.map fun spk => spk.algorithm.toList.length + (8 + spk.key.length)).sum +
    8

/-- `CoveredFields.MarshalSiaSize`. -/
def CoveredFields.marshalSiaSize (cf : CoveredFields) : ℕ :=
  1 + (8 + cf.siacoinInputs.length * 8) + (8 + cf.siacoinOutputs.length * 8) +
    (8 + cf.fileContracts.length * 8) + (8 + cf.fileContractRevisions.length * 8) +
    (8 + cf.storageProofs.length * 8) + (8 + cf.siafundInputs.length * 8) +
    (8 + cf.siafundOutputs.length * 8) + (8 + cf.minerFees.length * 8) +
    (8 + cf.arbitraryData.length * 8) + (8 + cf.transactionSignatures.length * 8)

/-- The loop over siacoin outputs that the contract, revision and transaction sizes each repeat:
the value's size and the unlock hash. -/
def siacoinOutputsSize (outputs : List (SiacoinOutput H)) : ℕ :=
  (outputs.map fun sco =>
    currencyMarshalSiaSize sco.value + (HashBytes.bytes sco.unlockHash).length).sum

/-- `FileContract.MarshalSiaSize`. -/
def FileContract.marshalSiaSize (fc : FileContract H) : ℕ :=
  8 + (HashBytes.bytes fc.fileMerkleRoot).length + (8 + 8) + currencyMarshalSiaSize fc.payout +
    8 + siacoinOutputsSize fc.validProofOutputs + 8 + siacoinOutputsSize fc.missedProofOutputs +
    (HashBytes.bytes fc.unlockHash).length + 8

/-- `FileContractRevision.MarshalSiaSize`. -/
def FileContractRevision.marshalSiaSize (fcr : FileContractRevision H) : ℕ :=
  (HashBytes.bytes fcr.parentID).length + fcr.unlockConditions.marshalSiaSize + 8 + 8 +
    (HashBytes.bytes fcr.newFileMerkleRoot).length + (8 + 8) +
    8 + siacoinOutputsSize fcr.newValidProofOutputs +
    8 + siacoinOutputsSize fcr.newMissedProofOutputs +
    (HashBytes.bytes fcr.newUnlockHash).length

/-- `Transaction.MarshalSiaSize`: a length prefix and a loop for each field. -/
def Transaction.marshalSiaSize (t : Transaction H) : ℕ :=
  8 + (t.siacoinInputs.map fun sci =>
      (HashBytes.bytes sci.parentID).length + sci.unlockConditions.marshalSiaSize).sum +
  8 + siacoinOutputsSize t.siacoinOutputs +
  8 + (t.fileContracts.map FileContract.marshalSiaSize).sum +
  8 + (t.fileContractRevisions.map FileContractRevision.marshalSiaSize).sum +
  8 + (t.storageProofs.map fun sp =>
      (HashBytes.bytes sp.parentID).length + sp.segment.toList.length +
        (8 + sp.hashSet.length * hashSize)).sum +
  8 + (t.siafundInputs.map fun sfi =>
      (HashBytes.bytes sfi.parentID).length + (HashBytes.bytes sfi.claimUnlockHash).length +
        sfi.unlockConditions.marshalSiaSize).sum +
  8 + (t.siafundOutputs.map fun sfo =>
      currencyMarshalSiaSize sfo.value + (HashBytes.bytes sfo.unlockHash).length +
        currencyMarshalSiaSize sfo.claimStart).sum +
  8 + (t.minerFees.map currencyMarshalSiaSize).sum +
  8 + (t.arbitraryData.map fun data => 8 + data.length).sum +
  8 + (t.transactionSignatures.map fun ts =>
      (HashBytes.bytes ts.parentID).length + 8 + 8 + ts.coveredFields.marshalSiaSize +
        (8 + ts.signature.length)).sum

theorem UnlockConditions.marshalSiaSize_eq (uc : UnlockConditions) :
    uc.marshalSiaSize = uc.marshalSia.length := by
  simp only [UnlockConditions.marshalSiaSize, UnlockConditions.marshalSia, SiaPublicKey.marshalSia,
    List.length_append, length_writeUint64, length_writeList, length_writePrefixedBytes]
  omega

theorem CoveredFields.marshalSiaSize_eq (cf : CoveredFields) :
    cf.marshalSiaSize = cf.marshalSia.length := by
  simp only [CoveredFields.marshalSiaSize, CoveredFields.marshalSia, writeBool, List.length_append,
    List.length_flatMap, List.map_cons, List.map_nil, List.sum_cons, List.sum_nil, length_writeList,
    length_writeUint64, List.map_const', List.sum_replicate_nat, List.length_singleton]
  omega

/-! The encoders without a size method of their own are measured inline, in the loops of the
methods above; each lemma gives that inline sum. -/

theorem SiacoinOutput.length_marshalSia (sco : SiacoinOutput H) :
    sco.marshalSia.length =
      currencyMarshalSiaSize sco.value + (HashBytes.bytes sco.unlockHash).length := by
  rw [SiacoinOutput.marshalSia, List.length_append, currencyMarshalSiaSize_eq]

theorem SiafundOutput.length_marshalSia (sfo : SiafundOutput H) :
    sfo.marshalSia.length = currencyMarshalSiaSize sfo.value +
      (HashBytes.bytes sfo.unlockHash).length + currencyMarshalSiaSize sfo.claimStart := by
  rw [SiafundOutput.marshalSia, List.length_append, List.length_append, currencyMarshalSiaSize_eq,
    currencyMarshalSiaSize_eq]

theorem SiacoinInput.length_marshalSia (sci : SiacoinInput H) :
    sci.marshalSia.length =
      (HashBytes.bytes sci.parentID).length + sci.unlockConditions.marshalSiaSize := by
  rw [SiacoinInput.marshalSia, List.length_append, UnlockConditions.marshalSiaSize_eq]

/-- The source measures the claim unlock hash before the unlock conditions, which the encoder
writes first. -/
theorem SiafundInput.length_marshalSia (sfi : SiafundInput H) :
    sfi.marshalSia.length = (HashBytes.bytes sfi.parentID).length +
      (HashBytes.bytes sfi.claimUnlockHash).length + sfi.unlockConditions.marshalSiaSize := by
  rw [SiafundInput.marshalSia, List.length_append, List.length_append,
    UnlockConditions.marshalSiaSize_eq]
  omega

theorem StorageProof.length_marshalSia (sp : StorageProof H) :
    sp.marshalSia.length = (HashBytes.bytes sp.parentID).length + sp.segment.toList.length +
      (8 + sp.hashSet.length * hashSize) := by
  simp only [StorageProof.marshalSia, List.length_append, length_writeList, HashBytes.length_bytes,
    List.map_const', List.sum_replicate_nat, hashSize]

theorem TransactionSignature.length_marshalSia (ts : TransactionSignature H) :
    ts.marshalSia.length = (HashBytes.bytes ts.parentID).length + 8 + 8 +
      ts.coveredFields.marshalSiaSize + (8 + ts.signature.length) := by
  rw [TransactionSignature.marshalSia, List.length_append, List.length_append, List.length_append,
    List.length_append, length_writeUint64, length_writeUint64, length_writePrefixedBytes,
    CoveredFields.marshalSiaSize_eq]

theorem FileContract.marshalSiaSize_eq (fc : FileContract H) :
    fc.marshalSiaSize = fc.marshalSia.length := by
  simp only [FileContract.marshalSiaSize, FileContract.marshalSia, siacoinOutputsSize,
    List.length_append, length_writeUint64, length_writeList, SiacoinOutput.length_marshalSia,
    currencyMarshalSiaSize_eq]
  omega

theorem FileContractRevision.marshalSiaSize_eq (fcr : FileContractRevision H) :
    fcr.marshalSiaSize = fcr.marshalSia.length := by
  simp only [FileContractRevision.marshalSiaSize, FileContractRevision.marshalSia,
    siacoinOutputsSize, List.length_append, length_writeUint64, length_writeList,
    SiacoinOutput.length_marshalSia, UnlockConditions.marshalSiaSize_eq]
  omega

theorem Transaction.marshalSiaSize_eq (t : Transaction H) :
    t.marshalSiaSize = t.marshalSia.length := by
  -- the loops that call a size method, measured as the encoder's length
  have contracts : (FileContract.marshalSiaSize : FileContract H → ℕ) =
      fun fc => fc.marshalSia.length := funext FileContract.marshalSiaSize_eq
  have revisions : (FileContractRevision.marshalSiaSize : FileContractRevision H → ℕ) =
      fun fcr => fcr.marshalSia.length := funext FileContractRevision.marshalSiaSize_eq
  have fees : currencyMarshalSiaSize = fun c => (currencyMarshalSia c).length :=
    funext currencyMarshalSiaSize_eq
  simp only [Transaction.marshalSiaSize, Transaction.marshalSia, Transaction.marshalSiaNoSignatures,
    siacoinOutputsSize, List.length_append, length_writeList, length_writePrefixedBytes,
    SiacoinInput.length_marshalSia, SiacoinOutput.length_marshalSia,
    contracts, revisions, fees, StorageProof.length_marshalSia, SiafundInput.length_marshalSia,
    SiafundOutput.length_marshalSia, TransactionSignature.length_marshalSia]
  omega

/-- Every size method measures what its encoder writes, the currency's with the word loops of
the source. -/
theorem marshalSiaSize_agrees :
    (∀ t : Transaction H, t.marshalSiaSize = t.marshalSia.length) ∧
    (∀ c : Currency, currencyMarshalSiaSize c = (currencyMarshalSiaWords c).length) ∧
    (∀ fc : FileContract H, fc.marshalSiaSize = fc.marshalSia.length) ∧
    (∀ fcr : FileContractRevision H, fcr.marshalSiaSize = fcr.marshalSia.length) ∧
    (∀ uc : UnlockConditions, uc.marshalSiaSize = uc.marshalSia.length) ∧
    (∀ cf : CoveredFields, cf.marshalSiaSize = cf.marshalSia.length) := by
  refine ⟨Transaction.marshalSiaSize_eq, fun c => ?_, FileContract.marshalSiaSize_eq,
    FileContractRevision.marshalSiaSize_eq, UnlockConditions.marshalSiaSize_eq,
    CoveredFields.marshalSiaSize_eq⟩
  rw [currencyMarshalSiaWords_eq, currencyMarshalSiaSize_eq]

end Sia
