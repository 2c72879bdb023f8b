import Sia.Lib.Decoder
import Sia.Consensus.ValidTransaction

/-! The Sia binary decoders of `types/encoding.go`, and their round trip with the encoders. Each
`UnmarshalSia` opens a decoder with an allocation limit (`NewDecoder(r, limit)`) and reads the
fields in the order `MarshalSia` writes them; a slice is `make([]T, d.NextPrefix(size))` and a
loop over it, where `size` is `unsafe.Sizeof(T{})`. `NextPrefix` reads an eight-byte length and
refuses one whose allocation the decoder's limit does not admit; that check belongs to the
`encoding` package, outside the source, so it is a parameter. The first error stops the decode,
as `d.Err()` reports the first error. A value decodes back from its encoding, leaving exactly
the bytes after it, whenever every slice length in it passes the check. -/
namespace Sia

open Bytes Bytes.Decoder Encoding

/-- Reading a hash back from its 32 bytes, as `d.ReadFull(h[:])` fills the array. -/
class HashRead (H : Type) [HashBytes H] where
  ofBytes : List UInt8 → H
  ofBytes_bytes : ∀ h, ofBytes (HashBytes.bytes h) = h

/-- The allocation check of `NextPrefix`, and the limit `encoding.DefaultAllocLimit` that every
decoder but the block's is opened with. -/
structure AllocLimits where
  /-- Whether a decoder with limit `limit` accepts a prefix of `n` elements of `elemSize` bytes. -/
  admits : (limit elemSize n : ℕ) → Bool
  defaultAllocLimit : ℕ

/-- A slice of `n` elements passes `NextPrefix`: its length fits the eight-byte prefix and the
decoder admits it. -/
def AllocLimits.admitsLength (l : AllocLimits) (limit elemSize n : ℕ) : Bool :=
  decide (n < 2 ^ 64) && l.admits limit elemSize n

/-- `BlockSizeLimit*3`, the limit of `Block.UnmarshalSia`'s decoder. -/
def blockAllocLimit : ℕ := Consensus.blockSizeLimit * 3

/-! `unsafe.Sizeof` of the slice elements on a 64-bit platform: a slice header takes 24 bytes, a
`Currency` (a `big.Int`) 32, a hash 32 and a `BlockHeight` 8. -/

def sizeofSiaPublicKey : ℕ := 40
def sizeofSiacoinInput : ℕ := 72
def sizeofSiacoinOutput : ℕ := 64
def sizeofFileContract : ℕ := 176
def sizeofFileContractRevision : ℕ := 216
def sizeofStorageProof : ℕ := 120
def sizeofSiafundInput : ℕ := 104
def sizeofSiafundOutput : ℕ := 96
def sizeofCurrency : ℕ := 32
def sizeofByteSlice : ℕ := 24
def sizeofTransactionSignature : ℕ := 320
def sizeofTransaction : ℕ := 240
def sizeofHash : ℕ := 32
def sizeofUint64 : ℕ := 8

variable {H : Type} [HashBytes H] [HashRead H] (l : AllocLimits)

/-! ### The decoders -/

def readHash : Decoder H := do
  let bytes ← readFull 32
  pure (HashRead.ofBytes bytes)

/-- `NextUint64`. -/
def nextUint64 : Decoder UInt64 := do
  let n ← readLE 8
  pure (UInt64.ofNat n)

/-- `ReadPrefixedBytes` of a decoder opened with the default limit. -/
def readPrefixedBytes : Decoder (List UInt8) :=
  readPrefixed (l.admits l.defaultAllocLimit 1)

/-- A slice read by a decoder opened with the default limit. -/
def readSlice {α : Type} (elemSize : ℕ) (dec : Decoder α) : Decoder (List α) :=
  readList (l.admits l.defaultAllocLimit elemSize) dec

/-- `Currency.UnmarshalSia`: `SetBytes` of the prefixed big-endian bytes. -/
def currencyUnmarshalSia : Decoder Currency := do
  let bytes ← readPrefixedBytes l
  pure (beValue bytes)

def SiacoinOutput.unmarshalSia : Decoder (SiacoinOutput H) := do
  let value ← currencyUnmarshalSia l
  let unlockHash ← readHash
  pure ⟨value, unlockHash⟩

def SiafundOutput.unmarshalSia : Decoder (SiafundOutput H) := do
  let value ← currencyUnmarshalSia l
  let unlockHash ← readHash
  let claimStart ← currencyUnmarshalSia l
  pure ⟨value, unlockHash, claimStart⟩

def SiaPublicKey.unmarshalSia : Decoder SiaPublicKey := do
  let algorithm ← readArray 16
  let key ← readPrefixedBytes l
  pure ⟨algorithm, key⟩

def UnlockConditions.unmarshalSia : Decoder UnlockConditions := do
  let timelock ← nextUint64
  let publicKeys ← readSlice l sizeofSiaPublicKey (SiaPublicKey.unmarshalSia l)
  let signaturesRequired ← nextUint64
  pure ⟨timelock, publicKeys, signaturesRequired⟩

def SiacoinInput.unmarshalSia : Decoder (SiacoinInput H) := do
  let parentID ← readHash
  let unlockConditions ← UnlockConditions.unmarshalSia l
  pure ⟨parentID, unlockConditions⟩

def SiafundInput.unmarshalSia : Decoder (SiafundInput H) := do
  let parentID ← readHash
  let unlockConditions ← UnlockConditions.unmarshalSia l
  let claimUnlockHash ← readHash
  pure ⟨parentID, unlockConditions, claimUnlockHash⟩

def FileContract.unmarshalSia : Decoder (FileContract H) := do
  let fileSize ← nextUint64
  let fileMerkleRoot ← readHash
  let windowStart ← nextUint64
  let windowEnd ← nextUint64
  let payout ← currencyUnmarshalSia l
  let validProofOutputs ← readSlice l sizeofSiacoinOutput (SiacoinOutput.unmarshalSia l)
  let missedProofOutputs ← readSlice l sizeofSiacoinOutput (SiacoinOutput.unmarshalSia l)
  let unlockHash ← readHash
  let revisionNumber ← nextUint64
  pure ⟨fileSize, fileMerkleRoot, windowStart, windowEnd, payout, validProofOutputs,
    missedProofOutputs, unlockHash, revisionNumber⟩

def FileContractRevision.unmarshalSia : Decoder (FileContractRevision H) := do
  let parentID ← readHash
  let unlockConditions ← UnlockConditions.unmarshalSia l
  let newRevisionNumber ← nextUint64
  let newFileSize ← nextUint64
  let newFileMerkleRoot ← readHash
  let newWindowStart ← nextUint64
  let newWindowEnd ← nextUint64
  let newValidProofOutputs ← readSlice l sizeofSiacoinOutput (SiacoinOutput.unmarshalSia l)
  let newMissedProofOutputs ← readSlice l sizeofSiacoinOutput (SiacoinOutput.unmarshalSia l)
  let newUnlockHash ← readHash
  pure ⟨parentID, unlockConditions, newRevisionNumber, newFileSize, newFileMerkleRoot,
    newWindowStart, newWindowEnd, newValidProofOutputs, newMissedProofOutputs, newUnlockHash⟩

def StorageProof.unmarshalSia : Decoder (StorageProof H) := do
  let parentID ← readHash
  let segment ← readArray 64
  let hashSet ← readSlice l sizeofHash readHash
  pure ⟨parentID, segment, hashSet⟩

/-- The covered fields from the flag and the ten index lists, in the order of the source's
`fields` array. -/
def CoveredFields.ofFields (wholeTransaction : Bool) (fields : List (List UInt64)) :
    CoveredFields :=
  ⟨wholeTransaction, fields.getD 0 [], fields.getD 1 [], fields.getD 2 [], fields.getD 3 [],
    fields.getD 4 [], fields.getD 5 [], fields.getD 6 [], fields.getD 7 [], fields.getD 8 [],
    fields.getD 9 []⟩

/-- The ten index lists, in the order `MarshalSia` writes them. -/
def CoveredFields.fields (cf : CoveredFields) : List (List UInt64) :=
  [cf.siacoinInputs, cf.siacoinOutputs, cf.fileContracts, cf.fileContractRevisions,
    cf.storageProofs, cf.siafundInputs, cf.siafundOutputs, cf.minerFees, cf.arbitraryData,
    cf.transactionSignatures]

/-- One flag byte, true only if it is 1, then the loop over the ten fields. -/
def CoveredFields.unmarshalSia : Decoder CoveredFields := do
  let buf ← readFull 1
  let fields ← readMany (readSlice l sizeofUint64 nextUint64) 10
  pure (CoveredFields.ofFields (buf.getD 0 0 == 1) fields)

def TransactionSignature.unmarshalSia : Decoder (TransactionSignature H) := do
  let parentID ← readHash
  let publicKeyIndex ← nextUint64
  let timelock ← nextUint64
  let coveredFields ← CoveredFields.unmarshalSia l
  let signature ← readPrefixedBytes l
  pure ⟨parentID, publicKeyIndex, timelock, coveredFields, signature⟩

def Transaction.unmarshalSia : Decoder (Transaction H) := do
  let siacoinInputs ← readSlice l sizeofSiacoinInput (SiacoinInput.unmarshalSia l)
  let siacoinOutputs ← readSlice l sizeofSiacoinOutput (SiacoinOutput.unmarshalSia l)
  let fileContracts ← readSlice l sizeofFileContract (FileContract.unmarshalSia l)
  let fileContractRevisions ←
    readSlice l sizeofFileContractRevision (FileContractRevision.unmarshalSia l)
  let storageProofs ← readSlice l sizeofStorageProof (StorageProof.unmarshalSia l)
  let siafundInputs ← readSlice l sizeofSiafundInput (SiafundInput.unmarshalSia l)
  let siafundOutputs ← readSlice l sizeofSiafundOutput (SiafundOutput.unmarshalSia l)
  let minerFees ← readSlice l sizeofCurrency (currencyUnmarshalSia l)
  let arbitraryData ← readSlice l sizeofByteSlice (readPrefixedBytes l)
  let transactionSignatures ←
    readSlice l sizeofTransactionSignature (TransactionSignature.unmarshalSia l)
  pure ⟨siacoinInputs, siacoinOutputs, fileContracts, fileContractRevisions, storageProofs,
    siafundInputs, siafundOutputs, minerFees, arbitraryData, transactionSignatures⟩

/-- The block's own slices are read under `BlockSizeLimit*3`. -/
def Block.unmarshalSia : Decoder (Block H) := do
  let parentID ← readHash
  let nonce ← readArray 8
  let timestamp ← nextUint64
  let minerPayouts ←
    readList (l.admits blockAllocLimit sizeofSiacoinOutput) (SiacoinOutput.unmarshalSia l)
  let transactions ←
    readList (l.admits blockAllocLimit sizeofTransaction) (Transaction.unmarshalSia l)
  pure ⟨parentID, nonce, timestamp, minerPayouts, transactions⟩

/-! ### Which values fit the allocation limits -/

def currencyFits (c : Currency) : Bool := l.admitsLength l.defaultAllocLimit 1 (beMinimal c).length

/-- A slice read under the default limit: its length passes and so does every element. -/
def sliceFits {α : Type} (elemSize : ℕ) (fits : α → Bool) (xs : List α) : Bool :=
  l.admitsLength l.defaultAllocLimit elemSize xs.length && xs.all fits

def SiacoinOutput.fits (sco : SiacoinOutput H) : Bool := currencyFits l sco.value

def SiafundOutput.fits (sfo : SiafundOutput H) : Bool :=
  currencyFits l sfo.value && currencyFits l sfo.claimStart

def SiaPublicKey.fits (spk : SiaPublicKey) : Bool :=
  l.admitsLength l.defaultAllocLimit 1 spk.key.length

def UnlockConditions.fits (uc : UnlockConditions) : Bool :=
  sliceFits l sizeofSiaPublicKey (SiaPublicKey.fits l) uc.publicKeys

def FileContract.fits (fc : FileContract H) : Bool :=
  currencyFits l fc.payout &&
    sliceFits l sizeofSiacoinOutput (SiacoinOutput.fits l) fc.validProofOutputs &&
    sliceFits l sizeofSiacoinOutput (SiacoinOutput.fits l) fc.missedProofOutputs

def FileContractRevision.fits (fcr : FileContractRevision H) : Bool :=
  fcr.unlockConditions.fits l &&
    sliceFits l sizeofSiacoinOutput (SiacoinOutput.fits l) fcr.newValidProofOutputs &&
    sliceFits l sizeofSiacoinOutput (SiacoinOutput.fits l) fcr.newMissedProofOutputs

def StorageProof.fits (sp : StorageProof H) : Bool :=
  l.admitsLength l.defaultAllocLimit sizeofHash sp.hashSet.length

def CoveredFields.fits (cf : CoveredFields) : Bool :=
  cf.fields.all fun field => l.admitsLength l.defaultAllocLimit sizeofUint64 field.length

def TransactionSignature.fits (ts : TransactionSignature H) : Bool :=
  ts.coveredFields.fits l && l.admitsLength l.defaultAllocLimit 1 ts.signature.length

def Transaction.fits (t : Transaction H) : Bool :=
  sliceFits l sizeofSiacoinInput (·.unlockConditions.fits l) t.siacoinInputs &&
    sliceFits l sizeofSiacoinOutput (SiacoinOutput.fits l) t.siacoinOutputs &&
    sliceFits l sizeofFileContract (FileContract.fits l) t.fileContracts &&
    sliceFits l sizeofFileContractRevision (FileContractRevision.fits l)
      t.fileContractRevisions &&
    sliceFits l sizeofStorageProof (StorageProof.fits l) t.storageProofs &&
    sliceFits l sizeofSiafundInput (·.unlockConditions.fits l) t.siafundInputs &&
    sliceFits l sizeofSiafundOutput (SiafundOutput.fits l) t.siafundOutputs &&
    sliceFits l sizeofCurrency (currencyFits l) t.minerFees &&
    sliceFits l sizeofByteSlice (fun data => l.admitsLength l.defaultAllocLimit 1 data.length)
      t.arbitraryData &&
    sliceFits l sizeofTransactionSignature (TransactionSignature.fits l) t.transactionSignatures

def Block.fits (b : Block H) : Bool :=
  l.admitsLength blockAllocLimit sizeofSiacoinOutput b.minerPayouts.length &&
    b.minerPayouts.all (SiacoinOutput.fits l) &&
    l.admitsLength blockAllocLimit sizeofTransaction b.transactions.length &&
    b.transactions.all (Transaction.fits l)

/-! ### Reading back the primitives -/

theorem AllocLimits.admitsLength_eq_true {limit elemSize n : ℕ} :
    l.admitsLength limit elemSize n = true ↔ n < 2 ^ 64 ∧ l.admits limit elemSize n = true := by
  simp [AllocLimits.admitsLength]

theorem readHash_reads (h : H) : Reads readHash HashBytes.bytes h := by
  intro rest
  rw [readHash, readFull_run_bind (HashBytes.length_bytes h), HashRead.ofBytes_bytes]
  rfl

theorem nextUint64_reads (x : UInt64) : Reads nextUint64 writeUint64 x := by
  intro rest
  have small : x.toNat < 256 ^ 8 := by simpa using x.toNat_lt
  rw [nextUint64, writeUint64, (readLE_reads small).run_bind, UInt64.ofNat_toNat]
  rfl

theorem readList_writeList {α : Type} {limit elemSize : ℕ} {dec : Decoder α}
    {enc : α → List UInt8} {xs : List α}
    (admitted : l.admitsLength limit elemSize xs.length = true)
    (each : ∀ x ∈ xs, Reads dec enc x) :
    Reads (readList (l.admits limit elemSize) dec) (writeList enc) xs := by
  obtain ⟨small, admits⟩ := (l.admitsLength_eq_true).mp admitted
  exact readList_reads small admits each

theorem readSlice_reads {α : Type} {elemSize : ℕ} {fits : α → Bool} {dec : Decoder α}
    {enc : α → List UInt8} {xs : List α} (sliced : sliceFits l elemSize fits xs = true)
    (each : ∀ x ∈ xs, fits x = true → Reads dec enc x) :
    Reads (readSlice l elemSize dec) (writeList enc) xs := by
  simp only [sliceFits, Bool.and_eq_true, List.all_eq_true] at sliced
  exact readList_writeList l sliced.1 fun x mem => each x mem (sliced.2 x mem)

theorem readPrefixedBytes_reads {bytes : List UInt8}
    (admitted : l.admitsLength l.defaultAllocLimit 1 bytes.length = true) :
    Reads (readPrefixedBytes l) writePrefixedBytes bytes := by
  obtain ⟨small, admits⟩ := (l.admitsLength_eq_true).mp admitted
  exact readPrefixed_reads small admits

theorem currency_reads {c : Currency} (fits : currencyFits l c = true) :
    Reads (currencyUnmarshalSia l) currencyMarshalSia c := by
  intro rest
  rw [currencyUnmarshalSia, currencyMarshalSia, (readPrefixedBytes_reads l fits).run_bind,
    beValue_beMinimal]
  rfl

/-! ### Reading back the records, field by field -/

theorem SiacoinOutput.reads_marshalSia {sco : SiacoinOutput H} (fits : sco.fits l = true) :
    Reads (SiacoinOutput.unmarshalSia l) SiacoinOutput.marshalSia sco := by
  intro rest
  simp only [SiacoinOutput.unmarshalSia, SiacoinOutput.marshalSia, List.append_assoc]
  rw [(currency_reads l fits).run_bind, (readHash_reads _).run_bind]
  rfl

theorem SiafundOutput.reads_marshalSia {sfo : SiafundOutput H} (fits : sfo.fits l = true) :
    Reads (SiafundOutput.unmarshalSia l) SiafundOutput.marshalSia sfo := by
  simp only [SiafundOutput.fits, Bool.and_eq_true] at fits
  intro rest
  simp only [SiafundOutput.unmarshalSia, SiafundOutput.marshalSia, List.append_assoc]
  rw [(currency_reads l fits.1).run_bind, (readHash_reads _).run_bind,
    (currency_reads l fits.2).run_bind]
  rfl

theorem SiaPublicKey.reads_marshalSia {spk : SiaPublicKey} (fits : spk.fits l = true) :
    Reads (SiaPublicKey.unmarshalSia l) SiaPublicKey.marshalSia spk := by
  intro rest
  simp only [SiaPublicKey.unmarshalSia, SiaPublicKey.marshalSia, List.append_assoc]
  rw [(readArray_reads _).run_bind, (readPrefixedBytes_reads l fits).run_bind]
  rfl

theorem UnlockConditions.reads_marshalSia {uc : UnlockConditions} (fits : uc.fits l = true) :
    Reads (UnlockConditions.unmarshalSia l) UnlockConditions.marshalSia uc := by
  have keys := readSlice_reads l fits fun _ _ keyFits => SiaPublicKey.reads_marshalSia l keyFits
  intro rest
  simp only [UnlockConditions.unmarshalSia, UnlockConditions.marshalSia, List.append_assoc]
  rw [(nextUint64_reads _).run_bind, keys.run_bind, (nextUint64_reads _).run_bind]
  rfl

theorem SiacoinInput.reads_marshalSia {sci : SiacoinInput H}
    (fits : sci.unlockConditions.fits l = true) :
    Reads (SiacoinInput.unmarshalSia l) SiacoinInput.marshalSia sci := by
  intro rest
  simp only [SiacoinInput.unmarshalSia, SiacoinInput.marshalSia, List.append_assoc]
  rw [(readHash_reads _).run_bind, (UnlockConditions.reads_marshalSia l fits).run_bind]
  rfl

theorem SiafundInput.reads_marshalSia {sfi : SiafundInput H}
    (fits : sfi.unlockConditions.fits l = true) :
    Reads (SiafundInput.unmarshalSia l) SiafundInput.marshalSia sfi := by
  intro rest
  simp only [SiafundInput.unmarshalSia, SiafundInput.marshalSia, List.append_assoc]
  rw [(readHash_reads _).run_bind, (UnlockConditions.reads_marshalSia l fits).run_bind,
    (readHash_reads _).run_bind]
  rfl

/-- The proof outputs of contracts and revisions, read as a slice of outputs. -/
theorem readSlice_outputs_reads {outputs : List (SiacoinOutput H)}
    (fits : sliceFits l sizeofSiacoinOutput (SiacoinOutput.fits l) outputs = true) :
    Reads (readSlice l sizeofSiacoinOutput (SiacoinOutput.unmarshalSia l))
      (writeList SiacoinOutput.marshalSia) outputs :=
  readSlice_reads l fits fun _ _ outputFits => SiacoinOutput.reads_marshalSia l outputFits

theorem FileContract.reads_marshalSia {fc : FileContract H} (fits : fc.fits l = true) :
    Reads (FileContract.unmarshalSia l) FileContract.marshalSia fc := by
  simp only [FileContract.fits, Bool.and_eq_true, and_assoc] at fits
  obtain ⟨payout, valid, missed⟩ := fits
  intro rest
  simp only [FileContract.unmarshalSia, FileContract.marshalSia, List.append_assoc]
  rw [(nextUint64_reads _).run_bind, (readHash_reads _).run_bind, (nextUint64_reads _).run_bind,
    (nextUint64_reads _).run_bind, (currency_reads l payout).run_bind,
    (readSlice_outputs_reads l valid).run_bind, (readSlice_outputs_reads l missed).run_bind,
    (readHash_reads _).run_bind, (nextUint64_reads _).run_bind]
  rfl

theorem FileContractRevision.reads_marshalSia {fcr : FileContractRevision H}
    (fits : fcr.fits l = true) :
    Reads (FileContractRevision.unmarshalSia l) FileContractRevision.marshalSia fcr := by
  simp only [FileContractRevision.fits, Bool.and_eq_true, and_assoc] at fits
  obtain ⟨conditions, valid, missed⟩ := fits
  intro rest
  simp only [FileContractRevision.unmarshalSia, FileContractRevision.marshalSia,
    List.append_assoc]
  rw [(readHash_reads _).run_bind, (UnlockConditions.reads_marshalSia l conditions).run_bind,
    (nextUint64_reads _).run_bind, (nextUint64_reads _).run_bind, (readHash_reads _).run_bind,
    (nextUint64_reads _).run_bind, (nextUint64_reads _).run_bind,
    (readSlice_outputs_reads l valid).run_bind, (readSlice_outputs_reads l missed).run_bind,
    (readHash_reads _).run_bind]
  rfl

theorem StorageProof.reads_marshalSia {sp : StorageProof H} (fits : sp.fits l = true) :
    Reads (StorageProof.unmarshalSia l) StorageProof.marshalSia sp := by
  have hashes : Reads (readSlice l sizeofHash readHash) (writeList HashBytes.bytes) sp.hashSet :=
    readList_writeList l fits fun h _ => readHash_reads h
  intro rest
  simp only [StorageProof.unmarshalSia, StorageProof.marshalSia, List.append_assoc]
  rw [(readHash_reads _).run_bind, (readArray_reads _).run_bind, hashes.run_bind]
  rfl

/-- The flag byte reads back as the flag. -/
theorem writeBool_getD_eq (b : Bool) : ((writeBool b).getD 0 0 == 1) = b := by
  cases b <;> rfl

theorem CoveredFields.ofFields_fields (cf : CoveredFields) :
    CoveredFields.ofFields cf.wholeTransaction cf.fields = cf := rfl

theorem CoveredFields.marshalSia_eq (cf : CoveredFields) :
    cf.marshalSia = writeBool cf.wholeTransaction ++ cf.fields.flatMap (writeList writeUint64) :=
  rfl

theorem CoveredFields.reads_marshalSia {cf : CoveredFields} (fits : cf.fits l = true) :
    Reads (CoveredFields.unmarshalSia l) CoveredFields.marshalSia cf := by
  simp only [CoveredFields.fits, List.all_eq_true] at fits
  -- the loop over the ten fields reads the ten index lists
  have fields : Reads (readMany (readSlice l sizeofUint64 nextUint64) 10)
      (fun fields => fields.flatMap (writeList writeUint64)) cf.fields :=
    readMany_reads fun field mem =>
      readList_writeList l (fits field mem) fun x _ => nextUint64_reads x
  have flag : (writeBool cf.wholeTransaction).length = 1 := rfl
  intro rest
  rw [CoveredFields.marshalSia_eq, CoveredFields.unmarshalSia, List.append_assoc,
    readFull_run_bind flag, fields.run_bind, writeBool_getD_eq, CoveredFields.ofFields_fields]
  rfl

theorem TransactionSignature.reads_marshalSia {ts : TransactionSignature H}
    (fits : ts.fits l = true) :
    Reads (TransactionSignature.unmarshalSia l) TransactionSignature.marshalSia ts := by
  simp only [TransactionSignature.fits, Bool.and_eq_true] at fits
  intro rest
  simp only [TransactionSignature.unmarshalSia, TransactionSignature.marshalSia,
    List.append_assoc]
  rw [(readHash_reads _).run_bind, (nextUint64_reads _).run_bind, (nextUint64_reads _).run_bind,
    (CoveredFields.reads_marshalSia l fits.1).run_bind,
    (readPrefixedBytes_reads l fits.2).run_bind]
  rfl

theorem Transaction.reads_marshalSia {t : Transaction H} (fits : t.fits l = true) :
    Reads (Transaction.unmarshalSia l) Transaction.marshalSia t := by
  simp only [Transaction.fits, Bool.and_eq_true, and_assoc] at fits
  obtain ⟨siacoinInputs, siacoinOutputs, fileContracts, fileContractRevisions, storageProofs,
    siafundInputs, siafundOutputs, minerFees, arbitraryData, signatures⟩ := fits
  intro rest
  simp only [Transaction.unmarshalSia, Transaction.marshalSia,
    Transaction.marshalSiaNoSignatures, List.append_assoc]
  rw [(readSlice_reads l siacoinInputs fun _ _ => SiacoinInput.reads_marshalSia l).run_bind,
    (readSlice_outputs_reads l siacoinOutputs).run_bind,
    (readSlice_reads l fileContracts fun _ _ => FileContract.reads_marshalSia l).run_bind,
    (readSlice_reads l fileContractRevisions fun _ _ =>
      FileContractRevision.reads_marshalSia l).run_bind,
    (readSlice_reads l storageProofs fun _ _ => StorageProof.reads_marshalSia l).run_bind,
    (readSlice_reads l siafundInputs fun _ _ => SiafundInput.reads_marshalSia l).run_bind,
    (readSlice_reads l siafundOutputs fun _ _ => SiafundOutput.reads_marshalSia l).run_bind,
    (readSlice_reads l minerFees fun _ _ => currency_reads l).run_bind,
    (readSlice_reads l arbitraryData fun _ _ => readPrefixedBytes_reads l).run_bind,
    (readSlice_reads l signatures fun _ _ => TransactionSignature.reads_marshalSia l).run_bind]
  rfl

theorem Block.reads_marshalSia {b : Block H} (fits : b.fits l = true) :
    Reads (Block.unmarshalSia l) Block.marshalSia b := by
  simp only [Block.fits, Bool.and_eq_true, List.all_eq_true, and_assoc] at fits
  obtain ⟨payoutsAdmitted, payouts, transactionsAdmitted, transactions⟩ := fits
  intro rest
  simp only [Block.unmarshalSia, Block.marshalSia, List.append_assoc]
  rw [(readHash_reads _).run_bind, (readArray_reads _).run_bind, (nextUint64_reads _).run_bind,
    (readList_writeList l payoutsAdmitted fun sco mem =>
      SiacoinOutput.reads_marshalSia l (payouts sco mem)).run_bind,
    (readList_writeList l transactionsAdmitted fun t mem =>
      Transaction.reads_marshalSia l (transactions t mem)).run_bind]
  rfl

/-- Blocks and transactions decode back from their encoding, consuming exactly it, whenever
every slice length in them passes the decoders' allocation check. -/
theorem marshalSia_round_trip (l : AllocLimits) :
    (∀ b : Block H, b.fits l = true → ∀ rest : List UInt8,
      (Block.unmarshalSia l).run (b.marshalSia ++ rest) = .ok (b, rest)) ∧
    (∀ t : Transaction H, t.fits l = true → ∀ rest : List UInt8,
      (Transaction.unmarshalSia l).run (t.marshalSia ++ rest) = .ok (t, rest)) :=
  ⟨fun _ fits => Block.reads_marshalSia l fits, fun _ fits => Transaction.reads_marshalSia l fits⟩

/-- Hashes as the 32-byte arrays they are in the source. -/
instance : HashBytes (Vector UInt8 32) := ⟨Vector.toList, fun v => v.length_toList⟩

instance : HashRead (Vector UInt8 32) :=
  ⟨fun bytes => Vector.ofFn fun i => bytes.getD i 0, Decoder.ofFn_getD_toList⟩

/-- Limits that admit a slice whose elements take at most a mebibyte. -/
def sampleLimits : AllocLimits := ⟨fun limit elemSize n => decide (n * elemSize ≤ limit), 1048576⟩

def sampleTransaction : Transaction (Vector UInt8 32) :=
  { siacoinInputs := [⟨Vector.replicate 32 1, ⟨0, [⟨Vector.replicate 16 2, [3, 4]⟩], 1⟩⟩],
    siacoinOutputs := [⟨300, Vector.replicate 32 5⟩], fileContracts := [],
    fileContractRevisions := [], storageProofs := [], siafundInputs := [], siafundOutputs := [],
    minerFees := [20], arbitraryData := [[6, 7]],
    transactionSignatures :=
      [⟨Vector.replicate 32 1, 0, 0, ⟨true, [], [], [], [], [], [], [], [], [], []⟩, [8]⟩] }

def sampleBlock : Block (Vector UInt8 32) :=
  ⟨Vector.replicate 32 0, Vector.replicate 8 9, 1000, [⟨320, Vector.replicate 32 5⟩],
    [sampleTransaction]⟩

theorem sample_round_trip :
    sampleBlock.fits sampleLimits = true ∧ sampleTransaction.fits sampleLimits = true ∧
      (∀ rest : List UInt8, (Block.unmarshalSia sampleLimits).run (sampleBlock.marshalSia ++ rest) =
        .ok (sampleBlock, rest)) ∧
      ∀ rest : List UInt8, (Transaction.unmarshalSia sampleLimits).run
        (sampleTransaction.marshalSia ++ rest) = .ok (sampleTransaction, rest) :=
  have blockFits : sampleBlock.fits sampleLimits = true := by decide
  have transactionFits : sampleTransaction.fits sampleLimits = true := by decide
  ⟨blockFits, transactionFits, (marshalSia_round_trip sampleLimits).1 _ blockFits,
    (marshalSia_round_trip sampleLimits).2 _ transactionFits⟩

end Sia
