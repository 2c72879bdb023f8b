import Sia.Types.Signatures

/-! The host registry's on-disk records (`modules/host/registry/persist.go`): a value is saved as
a 256-byte `persistedEntry` and read back from it when the registry is opened with `New`. The
record keeps a compressed key and a 32-bit expiry. -/
namespace Sia.Host.Registry

open Encoding

/-- `modules.RegistryDataSize`. -/
def registryDataSize : ℕ := 113

/-- `PersistedEntrySize`. -/
def persistedEntrySize : ℕ := 256

inductive RegistryError where
  | unsupportedKeyLength
  | unsupportedSignatureAlgorithm
  | unknownSignatureAlgorithm
  | tooMuchData
  | entryWrongSize
  deriving DecidableEq, Repr

/-- `copy(a[:], src)` into a zeroed array. -/
def readArray (n : ℕ) (src : List UInt8) : Vector UInt8 n :=
  Vector.ofFn fun i => src.getD i 0

theorem readArray_toList_append {n : ℕ} (v : Vector UInt8 n) (rest : List UInt8) :
    readArray n (v.toList ++ rest) = v := by
  refine Vector.ext fun i lt => ?_
  have inV : i < v.toList.length := by simpa using lt
  simp [readArray, List.getD_eq_getElem?_getD, List.getElem?_append_left inV, lt]

@[simp] theorem readArray_toList {n : ℕ} (v : Vector UInt8 n) : readArray n v.toList = v := by
  simpa using readArray_toList_append v []

theorem toList_readArray_of_length {n : ℕ} {xs : List UInt8} (exact : xs.length = n) :
    (readArray n xs).toList = xs := by
  apply List.ext_getElem
  · simp [exact]
  · intro i _ inXs
    simp [readArray, List.getD_eq_getElem?_getD, List.getElem?_eq_getElem inXs]

/-- The zero padding after a shorter source is cut off again by taking its length. -/
theorem take_readArray {n : ℕ} {xs : List UInt8} (fits : xs.length ≤ n) :
    (readArray n xs).toList.take xs.length = xs := by
  apply List.ext_getElem
  · simp [readArray, fits]
  · intro i lt inXs
    simp [readArray, List.getD_eq_getElem?_getD, List.getElem?_eq_getElem inXs]

structure CompressedPublicKey where
  algorithm : UInt8
  key : Vector UInt8 32
  deriving DecidableEq, Repr

/-- A registry value; its mutex and the flag set when it is pruned are not modelled. -/
structure Value where
  key : SiaPublicKey
  tweak : Vector UInt8 32
  expiry : UInt64
  staticIndex : ℕ
  data : List UInt8
  revision : UInt64
  signature : Vector UInt8 64
  deriving DecidableEq, Repr

structure PersistedEntry where
  key : CompressedPublicKey
  tweak : Vector UInt8 32
  expiry : UInt32
  dataLen : UInt8
  data : Vector UInt8 113
  revision : UInt64
  signature : Vector UInt8 64
  type : UInt8
  deriving DecidableEq, Repr

open Except (failIf ok_bind)

/-- `newCompressedPublicKey`. -/
def newCompressedPublicKey (spk : SiaPublicKey) : Except RegistryError CompressedPublicKey := do
  failIf (spk.key.length ≠ 32) .unsupportedKeyLength
  failIf (spk.algorithm ≠ signatureEd25519) .unsupportedSignatureAlgorithm
  return ⟨1, readArray 32 spk.key⟩

/-- `newSiaPublicKey`. -/
def newSiaPublicKey (cpk : CompressedPublicKey) : Except RegistryError SiaPublicKey := do
  failIf (cpk.algorithm ≠ 1) .unknownSignatureAlgorithm
  return ⟨signatureEd25519, cpk.key.toList⟩

theorem newCompressedPublicKey_eq_ok {spk : SiaPublicKey} (keyLength : spk.key.length = 32)
    (ed25519 : spk.algorithm = signatureEd25519) :
    newCompressedPublicKey spk = .ok ⟨1, readArray 32 spk.key⟩ := by
  simp [newCompressedPublicKey, failIf, keyLength, ed25519]

/-- Compressing an ed25519 key loses nothing: the key is expanded back to itself. -/
theorem newSiaPublicKey_compressed {spk : SiaPublicKey} (keyLength : spk.key.length = 32)
    (ed25519 : spk.algorithm = signatureEd25519) :
    newSiaPublicKey ⟨1, readArray 32 spk.key⟩ = .ok spk := by
  rw [newSiaPublicKey, failIf, if_neg (not_not_intro rfl), ok_bind,
    toList_readArray_of_length keyLength, ← ed25519]
  rfl

/-- `newPersistedEntry`: the expiry is converted to `compressedBlockHeight`, a `uint32`. -/
def newPersistedEntry (v : Value) : Except RegistryError PersistedEntry := do
  failIf (v.data.length > registryDataSize) .tooMuchData
  let cpk ← newCompressedPublicKey v.key
  return ⟨cpk, v.tweak, v.expiry.toUInt32, UInt8.ofNat v.data.length, readArray 113 v.data,
    v.revision, v.signature, 0⟩

/-- `persistedEntry.Value`. -/
def PersistedEntry.value (entry : PersistedEntry) (index : ℕ) : Except RegistryError Value := do
  failIf (entry.dataLen.toNat > registryDataSize) .tooMuchData
  let spk ← newSiaPublicKey entry.key
  return ⟨spk, entry.tweak, entry.expiry.toUInt64, index, entry.data.toList.take entry.dataLen.toNat,
    entry.revision, entry.signature⟩

/-- `writeUint32`: four little-endian bytes. -/
def writeUint32 (x : UInt32) : List UInt8 := Bytes.leBytes 4 x.toNat

@[simp] theorem length_writeUint32 (x : UInt32) : (writeUint32 x).length = 4 :=
  Bytes.length_leBytes 4 _

@[simp] theorem ofNat_leValue_writeUint32 (x : UInt32) :
    UInt32.ofNat (Bytes.leValue (writeUint32 x)) = x := by
  rw [writeUint32, Bytes.leValue_leBytes, Nat.mod_eq_of_lt (lt_of_lt_of_eq x.toNat_lt (by norm_num))]
  simp

@[simp] theorem ofNat_leValue_writeUint64 (x : UInt64) :
    UInt64.ofNat (Bytes.leValue (writeUint64 x)) = x := by
  rw [writeUint64, Bytes.leValue_leBytes, Nat.mod_eq_of_lt (lt_of_lt_of_eq x.toNat_lt (by norm_num))]
  simp

/-- `persistedEntry.Marshal`. -/
def PersistedEntry.marshal (entry : PersistedEntry) : Except RegistryError (List UInt8) := do
  failIf (entry.dataLen.toNat > registryDataSize) .tooMuchData
  return entry.key.algorithm :: entry.key.key.toList ++ entry.tweak.toList ++
    writeUint32 entry.expiry ++ writeUint64 entry.revision ++ entry.signature.toList ++
    [entry.dataLen] ++ entry.data.toList ++ [entry.type]

/-- `persistedEntry.Unmarshal`. -/
def PersistedEntry.unmarshal (b : List UInt8) : Except RegistryError PersistedEntry := do
  failIf (b.length ≠ persistedEntrySize) .entryWrongSize
  let dataLen := b.getD 141 0
  failIf (dataLen.toNat > 113) .tooMuchData
  return ⟨⟨b.getD 0 0, readArray 32 (b.drop 1)⟩, readArray 32 (b.drop 33),
    UInt32.ofNat (Bytes.leValue ((b.drop 65).take 4)),
    dataLen, readArray 113 ((b.drop 142).take 113),
    UInt64.ofNat (Bytes.leValue ((b.drop 69).take 8)), readArray 64 (b.drop 77), b.getD 255 0⟩

/-- An entry whose data length fits is read back from its 256 bytes unchanged. -/
theorem unmarshal_marshal {entry : PersistedEntry} (small : entry.dataLen.toNat ≤ registryDataSize) :
    (entry.marshal >>= PersistedEntry.unmarshal) = .ok entry := by
  have fits : ¬ 113 < entry.dataLen.toNat := Nat.not_lt.mpr small
  simp [PersistedEntry.marshal, failIf, fits, registryDataSize]
  simp [PersistedEntry.unmarshal, failIf, persistedEntrySize, List.getD_eq_getElem?_getD,
    List.drop_append, readArray_toList_append, fits, List.drop_eq_nil_of_le]

/-- What `New` reads back of a value that `staticSaveEntry` wrote: the entry marshaled to disk,
unmarshaled and turned back into a value at the same index. -/
def reloadValue (v : Value) : Except RegistryError Value := do
  let entry ← newPersistedEntry v
  let bytes ← entry.marshal
  let entry ← PersistedEntry.unmarshal bytes
  entry.value v.staticIndex

section Reload

variable {v : Value} (small : v.data.length ≤ registryDataSize) (keyLength : v.key.key.length = 32)
  (ed25519 : v.key.algorithm = signatureEd25519)
include small keyLength ed25519

/-- Every value that `staticSaveEntry` can write is read back by `New` unchanged except for its
expiry, which comes back modulo `2^32`. -/
theorem reloadValue_eq : reloadValue v = .ok { v with expiry := v.expiry.toUInt32.toUInt64 } := by
  have dataFits : v.data.length ≤ 113 := small
  have lengthByte : (UInt8.ofNat v.data.length).toNat = v.data.length :=
    UInt8.toNat_ofNat_of_lt' (by simp [UInt8.size]; omega)
  have saved : newPersistedEntry v = .ok ⟨⟨1, readArray 32 v.key.key⟩, v.tweak, v.expiry.toUInt32,
      UInt8.ofNat v.data.length, readArray 113 v.data, v.revision, v.signature, 0⟩ := by
    simp [newPersistedEntry, failIf, Nat.not_lt.mpr small, newCompressedPublicKey_eq_ok keyLength ed25519]
  have stored := @unmarshal_marshal ⟨⟨1, readArray 32 v.key.key⟩, v.tweak, v.expiry.toUInt32,
      UInt8.ofNat v.data.length, readArray 113 v.data, v.revision, v.signature, 0⟩
    (lengthByte.trans_le small)
  rw [reloadValue, saved, ok_bind, ← bind_assoc, stored, ok_bind]
  simp [PersistedEntry.value, failIf, lengthByte, Nat.not_lt.mpr small,
    newSiaPublicKey_compressed keyLength ed25519, take_readArray dataFits]

end Reload

/-- A value registered a little past block `2^32`. -/
def lateValue : Value :=
  ⟨⟨signatureEd25519, List.replicate 32 0⟩, Vector.replicate 32 0, 4294967301, 1, [], 0,
    Vector.replicate 64 0⟩

end Sia.Host.Registry
