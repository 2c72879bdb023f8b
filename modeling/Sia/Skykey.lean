import Sia.Lib.NetUrl
import Sia.Lib.Radix
import Sia.Types.Decoding
import Mathlib.Data.Bool.AllAny

/-! `skykey/skykey.go`: a skykey is a name, a type byte and 56 bytes of entropy, the 32-byte key
and the 24-byte nonce of an XChaCha20 cipher. It has a binary form (`marshalSia`), a string form
(`ToString`: a `skykey:` URL whose opaque part is the padded base64 of the type and entropy and whose
query is `name=` and the raw name), an ID that hashes the key without the nonce, subkeys that
swap the nonce, and the encrypted identifier of a private-ID key.

A Go string is its bytes. `crypto.HashAll` and the XChaCha20 keystream are the parameters
`Primitives`; an integer in the encoding `HashAll` hashes is eight little-endian bytes. A panic
(a slice of the entropy past its end) is `none` under the error, in `SkykeyResult`. The context that
`errors.AddContext` adds to an error is left out. -/
namespace Sia

open Bytes Bytes.Decoder Encoding NetUrl Radix

def SkykeyIDLen : ℕ := 16

def MaxKeyNameLen : ℕ := 128

def maxEntropyLen : ℕ := 256

/-- `chacha.KeySize` -/
def KeySize : ℕ := 32

/-- `chacha.XNonceSize` -/
def XNonceSize : ℕ := 24

/-- `SkykeyScheme`: "skykey". -/
def SkykeyScheme : List UInt8 := ['s', 'k', 'y', 'k', 'e', 'y'].map byte

/-- The query key of a skykey's name: "name". -/
def nameKey : List UInt8 := ['n', 'a', 'm', 'e'].map byte

abbrev SkykeyType := UInt8

def TypeInvalid : SkykeyType := 0x00

def TypePublicID : SkykeyType := 0x01

def TypePrivateID : SkykeyType := 0x02

def typeDeletedSkykey : SkykeyType := 0xFF

/-- `SkykeySpecifier`: "Skykey". -/
def SkykeySpecifier : Specifier := #v[83, 107, 121, 107, 101, 121, 0, 0, 0, 0, 0, 0, 0, 0, 0, 0]

/-- `skyfileEncryptionIDSpecifier`: "SkyfileEncID". -/
def skyfileEncryptionIDSpecifier : Specifier :=
  #v[83, 107, 121, 102, 105, 108, 101, 69, 110, 99, 73, 68, 0, 0, 0, 0]

/-- `skyfileEncryptionIDDerivation`: "SFEncIDDerivPath". -/
def skyfileEncryptionIDDerivation : Specifier :=
  #v[83, 70, 69, 110, 99, 73, 68, 68, 101, 114, 105, 118, 80, 97, 116, 104]

structure Skykey where
  name : List UInt8
  type : SkykeyType
  entropy : List UInt8
  deriving DecidableEq, Repr

inductive SkykeyError where
  /-- "Unsupported Skykey type" -/
  | unsupportedSkykeyType
  /-- `errors.Compose(errUnmarshalDataErr, err)`: "Unable to unmarshal Skykey data". -/
  | unmarshalDataErr (err : SkykeyError)
  /-- "Cannot marshal or unmarshal Skykey of TypeInvalid type" -/
  | cannotMarshalTypeInvalidSkykey
  /-- "Invalid skykey entropy length" -/
  | invalidEntropyLength
  /-- "Operation not supported by this SkykeyType" -/
  | skykeyTypeDoesNotSupportFunction
  /-- "Invalid length for encryptionID or nonce in MatchesSkyfileEncryptionID" -/
  | invalidIDorNonceLength
  /-- "Skykey name exceeds max length" -/
  | skykeyNameToolong
  /-- "Unknown URI scheme for skykey" -/
  | unknownURIScheme
  /-- "Incorrect nonce size" -/
  | incorrectNonceSize
  /-- `crypto`'s "Incorrect entropy length for XChaCha20 cipher" -/
  | incorrectEntropyLength
  /-- `crypto.ErrInvalidCipherType` -/
  | invalidCipherType
  | decode (err : DecodeError)
  | url (err : UrlError)
  | base64 (err : CorruptInputError)
  deriving DecidableEq

/-- The `crypto` cipher types a skykey type names. -/
inductive CipherType where
  | xChaCha20
  | invalid
  deriving DecidableEq

/-- `SkykeyType.CipherType`. -/
def SkykeyType.cipherType (t : SkykeyType) : CipherType :=
  if t = TypePublicID ∨ t = TypePrivateID then .xChaCha20 else .invalid

/-- `xChaCha20CipherKey`: the key and the nonce the cipher is made from. -/
structure XChaCha20CipherKey where
  key : List UInt8
  nonce : List UInt8

/-- `crypto.NewSiaKey` for the cipher types a skykey names. -/
def newSiaKey : CipherType → List UInt8 → Except SkykeyError XChaCha20CipherKey
  | .xChaCha20, entropy =>
    if entropy.length ≠ KeySize + XNonceSize then .error .incorrectEntropyLength
    else .ok ⟨entropy.take KeySize, entropy.drop KeySize⟩
  | .invalid, _ => .error .invalidCipherType

/-- `crypto.HashAll` of the objects' encoding, and the XChaCha20 keystream of a key and a nonce
(20 rounds), byte by byte from block 0. -/
structure Primitives where
  hashAll : List UInt8 → Vector UInt8 32
  keystream : List UInt8 → List UInt8 → ℕ → UInt8

/-- A function that returns an error or panics (`none`). -/
abbrev SkykeyResult := ExceptT SkykeyError Option

/-- A Go panic. -/
def panicked {α : Type} : SkykeyResult α := ExceptT.lift none

/-- `s[:n]`: a panic past the end. The slices cut here have no capacity beyond their length. -/
def slicePrefix (s : List UInt8) (n : ℕ) : SkykeyResult (List UInt8) :=
  if n ≤ s.length then pure (s.take n) else panicked

/-- `s[n:]`: a panic past the end. -/
def sliceSuffix (s : List UInt8) (n : ℕ) : SkykeyResult (List UInt8) :=
  if n ≤ s.length then pure (s.drop n) else panicked

/-- An error returned, without a panic. -/
def returned {α : Type} (x : Except SkykeyError α) : SkykeyResult α := ExceptT.mk (some x)

namespace Skykey

/-- `Skykey.CipherType`. -/
def cipherType (sk : Skykey) : CipherType := SkykeyType.cipherType sk.type

/-- `IsValid`. -/
def isValid (sk : Skykey) : Except SkykeyError Unit := do
  if MaxKeyNameLen < sk.name.length then throw .skykeyNameToolong
  if sk.type = TypePublicID ∨ sk.type = TypePrivateID then
    if sk.entropy.length ≠ KeySize + XNonceSize then throw .invalidEntropyLength
  else throw .unsupportedSkykeyType
  let _ ← newSiaKey sk.cipherType sk.entropy
  pure ()

/-- `CipherKey`. -/
def cipherKey (sk : Skykey) : Except SkykeyError XChaCha20CipherKey := newSiaKey sk.cipherType sk.entropy

/-! ### The binary form -/

/-- `marshalDataOnly`: the type byte and the entropy, without a length. -/
def marshalDataOnly (sk : Skykey) : Except SkykeyError (List UInt8) := do
  let entropyLen ←
    if sk.type = TypePublicID ∨ sk.type = TypePrivateID then pure (KeySize + XNonceSize)
    else if sk.type = TypeInvalid then throw .cannotMarshalTypeInvalidSkykey
    else throw .unsupportedSkykeyType
  if sk.entropy.length ≠ entropyLen then throw .invalidEntropyLength
  pure (sk.type :: sk.entropy.take entropyLen)

/-- `marshalSia`: the data, then the name with its length. -/
def marshalSia (sk : Skykey) : Except SkykeyError (List UInt8) := do
  let data ← sk.marshalDataOnly
  pure (data ++ writePrefixedBytes sk.name)

end Skykey

/-- A reader of the binary form: the bytes not read yet, and the first error. -/
abbrev SkykeyReader := StateT (List UInt8) (Except SkykeyError)

/-- A read of the `encoding` decoder, whose errors it returns. -/
def decoded {α : Type} (d : Decoder α) : SkykeyReader α := fun r => (d r).mapError .decode

/-- `d.ReadByte()` with its error dropped: a missing byte reads as `TypeInvalid`. -/
def readTypeByte : SkykeyReader SkykeyType := fun r => .ok (r.headD TypeInvalid, r.tail)

/-- `unmarshalDataOnly`: the type byte, then the entropy, whose length the type fixes; a deleted
key's entropy carries its length. -/
def unmarshalDataOnly : SkykeyReader (SkykeyType × List UInt8) := do
  let type ← readTypeByte
  let entropyLen ←
    if type = TypePublicID ∨ type = TypePrivateID then pure (KeySize + XNonceSize)
    else if type = TypeInvalid then throw .cannotMarshalTypeInvalidSkykey
    else if type = typeDeletedSkykey then do
      let n ← decoded (readLE 8)
      -- avoid panicking due to overallocation
      if maxEntropyLen < n then throw .invalidEntropyLength
      pure n
    else throw .unsupportedSkykeyType
  let entropy ← decoded (readFull entropyLen)
  pure (type, entropy)

namespace Skykey

/-- `unmarshalSia` into the key `sk`: a deleted key keeps `sk`'s name, any other reads its name and
must be valid. -/
def unmarshalSia (l : AllocLimits) (sk : Skykey) : SkykeyReader Skykey := do
  let (type, entropy) ← fun r => (unmarshalDataOnly r).mapError .unmarshalDataErr
  if type = typeDeletedSkykey then return { sk with type, entropy }
  let name ← decoded (readPrefixedBytes l)
  let sk : Skykey := ⟨name, type, entropy⟩
  match sk.isValid with
  | .ok () => pure sk
  | .error e => throw e

/-! ### The string form -/

/-- `toURL`: the padded base64 of the data as the opaque part, and the raw name in the query. -/
def toURL (sk : Skykey) : Except SkykeyError URL := do
  let b ← sk.marshalDataOnly
  let skykeyString := (base64URL.encodePadded b).map byte
  pure { scheme := SkykeyScheme, encodedOpaque := skykeyString,
         rawQuery := if sk.name ≠ [] then nameKey ++ byte '=' :: sk.name else [] }

/-- `ToString`. -/
def toString (sk : Skykey) : Except SkykeyError (List UInt8) := do
  let skURL ← sk.toURL
  pure skURL.string

end Skykey

/-- The bytes of a Go string as the base64 decoder reads them, one character a byte. -/
def bytesAsChars (s : List UInt8) : List Char := s.map fun b => Char.ofNat b.toNat

/-- `FromString`, with the authority parser of `url.Parse`. The name is the first value of `name`
in the query; the data is the opaque part of a `skykey:` URL or the path of one without a scheme. -/
def fromString (parseAuthority : List UInt8 → Option UrlError) (s : List UInt8) :
    Except SkykeyError Skykey := do
  let sURL ← (Parse parseAuthority s).mapError .url
  let skData ←
    if sURL.scheme = SkykeyScheme then pure sURL.encodedOpaque
    else if sURL.scheme = [] then pure sURL.path
    else throw .unknownURIScheme
  let name := get sURL.query nameKey
  if MaxKeyNameLen < name.length then throw .skykeyNameToolong
  let keyBytes ← (base64URL.decodePadded (bytesAsChars skData)).mapError .base64
  let ((type, entropy), _) ← unmarshalDataOnly keyBytes
  pure ⟨name, type, entropy⟩

/-! ### IDs and subkeys -/

section Derivation

variable (p : Primitives)

/-- `XORKeyStream` from block `counter`: each byte is XORed with the keystream at its offset. -/
def xorKeyStream (ck : XChaCha20CipherKey) (counter : ℕ) (data : List UInt8) : List UInt8 :=
  data.mapIdx fun i b => b ^^^ p.keystream ck.key ck.nonce (64 * counter + i)

/-- `DecryptBytes`: the keystream from block 0. -/
def decryptBytes (ck : XChaCha20CipherKey) (ciphertext : List UInt8) : List UInt8 :=
  xorKeyStream p ck 0 ciphertext

/-- `DecryptBytesInPlace`: the keystream from block `blockIndex`. -/
def decryptBytesInPlace (ck : XChaCha20CipherKey) (ct : List UInt8) (blockIndex : ℕ) : List UInt8 :=
  xorKeyStream p ck blockIndex ct

namespace Skykey

/-- `ID`: the first 16 bytes of the hash of the specifier, the type and the key; the nonce is left
out, so that a key and its subkeys share their ID. Another type hashes all of its entropy after a
`build.Critical` that only logs. -/
def ID (sk : Skykey) : Option (Vector UInt8 16) := do
  let entropy ←
    if sk.type = TypePublicID ∨ sk.type = TypePrivateID then
      if KeySize ≤ sk.entropy.length then some (sk.entropy.take KeySize) else none
    else some sk.entropy
  let h := p.hashAll (SkykeySpecifier.toList ++ writeUint64 sk.type.toUInt64 ++ writePrefixedBytes entropy)
  pure (Vector.ofFn fun i => h.get (i.castLE (by decide)))

/-- `Nonce`: the entropy after the key, copied into a zeroed slice of `XNonceSize` bytes. -/
def nonce (sk : Skykey) : SkykeyResult (List UInt8) := do
  let tail ← sliceSuffix sk.entropy KeySize
  pure ((tail ++ List.replicate XNonceSize 0).take XNonceSize)

/-- `SubkeyWithNonce`: the key's name, type and key with another nonce. -/
def subkeyWithNonce (sk : Skykey) (nonce : List UInt8) : SkykeyResult Skykey := do
  if nonce.length ≠ XNonceSize then throw .incorrectNonceSize
  let key ← slicePrefix sk.entropy KeySize
  let entropy := key ++ nonce
  -- sanity check that a cipher key can be made from it
  let _ ← returned (newSiaKey sk.cipherType entropy)
  pure ⟨sk.name, sk.type, entropy⟩

end Skykey

/-- The nonce `DeriveSubkey` derives: the hash of the nonce and the derivation, cut to
`XNonceSize` bytes. -/
def derivedNonce (nonce derivation : List UInt8) : List UInt8 :=
  (p.hashAll (writePrefixedBytes nonce ++ writePrefixedBytes derivation)).toList.take XNonceSize

namespace Skykey

/-- `DeriveSubkey`: the subkey with the derived nonce. -/
def deriveSubkey (sk : Skykey) (derivation : List UInt8) : SkykeyResult Skykey := do
  let nonce ← sk.nonce
  sk.subkeyWithNonce (derivedNonce p nonce derivation)

/-- `GenerateSkyfileEncryptionID`: the encryption ID specifier, encrypted with the key derived
from this file-specific key. `SkykeyIDLen` is `SpecifierLen`, so its `build.Critical` never
fires. -/
def generateSkyfileEncryptionID (sk : Skykey) : SkykeyResult (List UInt8) := do
  if sk.type ≠ TypePrivateID then throw .skykeyTypeDoesNotSupportFunction
  let encIDSkykey ← sk.deriveSubkey p skyfileEncryptionIDDerivation.toList
  let ck ← returned encIDSkykey.cipherKey
  pure (decryptBytesInPlace p ck skyfileEncryptionIDSpecifier.toList 0)

/-- `MatchesSkyfileEncryptionID`: whether the ID decrypts to the specifier under the key derived
from this key's subkey with the nonce. -/
def matchesSkyfileEncryptionID (sk : Skykey) (encryptionID nonce : List UInt8) : SkykeyResult Bool := do
  if encryptionID.length ≠ SkykeyIDLen ∨ nonce.length ≠ XNonceSize then
    throw .invalidIDorNonceLength
  -- this only applies to private-ID keys
  if sk.type ≠ TypePrivateID then return false
  let fileSkykey ← sk.subkeyWithNonce nonce
  let encIDSkykey ← fileSkykey.deriveSubkey p skyfileEncryptionIDDerivation.toList
  let ck ← returned encIDSkykey.cipherKey
  let plaintextBytes := decryptBytes p ck encryptionID
  pure (plaintextBytes == skyfileEncryptionIDSpecifier.toList)

end Skykey

end Derivation

/-! ### What `IsValid` accepts -/

namespace Skykey

/-- What `IsValid` accepts: a name of at most `MaxKeyNameLen` bytes, a public-ID or private-ID
type, and the key and nonce of an XChaCha20 cipher. -/
structure Valid (sk : Skykey) : Prop where
  name_le : sk.name.length ≤ MaxKeyNameLen
  typed : sk.type = TypePublicID ∨ sk.type = TypePrivateID
  entropy_length : sk.entropy.length = KeySize + XNonceSize

theorem cipherType_of_typed {t : SkykeyType} (typed : t = TypePublicID ∨ t = TypePrivateID) :
    SkykeyType.cipherType t = .xChaCha20 := by
  simp [SkykeyType.cipherType, typed]

theorem newSiaKey_xChaCha20 {entropy : List UInt8} (length : entropy.length = KeySize + XNonceSize) :
    newSiaKey .xChaCha20 entropy = .ok ⟨entropy.take KeySize, entropy.drop KeySize⟩ := by
  simp [newSiaKey, length]

theorem isValid_eq_ok {sk : Skykey} : sk.isValid = .ok () ↔ sk.Valid := by
  constructor
  · intro ok
    by_cases long : MaxKeyNameLen < sk.name.length
    · simp only [isValid, if_pos long] at ok
      nomatch ok
    by_cases typed : sk.type = TypePublicID ∨ sk.type = TypePrivateID
    · by_cases length : sk.entropy.length = KeySize + XNonceSize
      · exact ⟨Nat.not_lt.mp long, typed, length⟩
      · simp only [isValid, if_neg long, if_pos typed, if_pos length] at ok
        nomatch ok
    · simp only [isValid, if_neg long, if_neg typed] at ok
      nomatch ok
  · rintro ⟨short, typed, length⟩
    simp [isValid, Nat.not_lt.mpr short, typed, length, cipherType, cipherType_of_typed typed,
      newSiaKey_xChaCha20 length]

/-! ### The binary form reads back -/

theorem marshalDataOnly_of_valid {sk : Skykey} (valid : sk.Valid) :
    sk.marshalDataOnly = .ok (sk.type :: sk.entropy) := by
  simp [marshalDataOnly, valid.typed, ← valid.entropy_length]
  rfl

end Skykey

theorem readTypeByte_run (type : SkykeyType) (rest : List UInt8) :
    readTypeByte.run (type :: rest) = .ok (type, rest) := rfl

/-- The data of a public-ID or private-ID key reads back, leaving what follows it. -/
theorem unmarshalDataOnly_run {type : SkykeyType} {entropy : List UInt8} (rest : List UInt8)
    (typed : type = TypePublicID ∨ type = TypePrivateID)
    (length : entropy.length = KeySize + XNonceSize) :
    unmarshalDataOnly.run (type :: (entropy ++ rest)) = .ok ((type, entropy), rest) := by
  have entropyRead : (decoded (readFull (KeySize + XNonceSize))).run (entropy ++ rest) =
      .ok (entropy, rest) := by
    simp [decoded, StateT.run, readFull, ← length]
    rfl
  rw [unmarshalDataOnly, Except.run_bind_of_run (readTypeByte_run type (entropy ++ rest))]
  simp only [if_pos typed, pure_bind]
  rw [Except.run_bind_of_run entropyRead]
  rfl

/-- The name of a key reads back from its length and bytes, when the decoder admits the length. -/
theorem readName_run (l : AllocLimits) {name : List UInt8} (short : name.length ≤ MaxKeyNameLen)
    (admitted : ∀ n ≤ MaxKeyNameLen, l.admits l.defaultAllocLimit 1 n = true) (rest : List UInt8) :
    (decoded (readPrefixedBytes l)).run (writePrefixedBytes name ++ rest) = .ok (name, rest) := by
  have small : name.length < 2 ^ 64 := Nat.lt_of_le_of_lt short (by decide)
  have reads := readPrefixed_reads small (admitted name.length short) rest
  show ((readPrefixed (l.admits l.defaultAllocLimit 1)).run
    (leBytes 8 name.length ++ name ++ rest)).mapError SkykeyError.decode = _
  rw [reads]
  rfl

theorem Skykey.typed_ne_deleted {t : SkykeyType} (typed : t = TypePublicID ∨ t = TypePrivateID) :
    t ≠ typeDeletedSkykey := by
  rcases typed with rfl | rfl <;> decide

/-- The binary form of a valid key reads back into any key, leaving what follows it. -/
theorem Skykey.unmarshalSia_marshalSia (l : AllocLimits)
    (admitted : ∀ n ≤ MaxKeyNameLen, l.admits l.defaultAllocLimit 1 n = true)
    {sk : Skykey} (valid : sk.Valid) (receiver : Skykey) (rest : List UInt8) :
    ∃ bytes, sk.marshalSia = .ok bytes ∧ (receiver.unmarshalSia l).run (bytes ++ rest) = .ok (sk, rest) := by
  refine ⟨sk.type :: (sk.entropy ++ writePrefixedBytes sk.name), ?_, ?_⟩
  · simp only [marshalSia, marshalDataOnly_of_valid valid, Except.ok_bind]
    rfl
  have dataRead : StateT.run (fun r => (unmarshalDataOnly r).mapError SkykeyError.unmarshalDataErr)
      (sk.type :: (sk.entropy ++ (writePrefixedBytes sk.name ++ rest))) =
      .ok ((sk.type, sk.entropy), writePrefixedBytes sk.name ++ rest) := by
    show (unmarshalDataOnly.run _).mapError _ = _
    rw [unmarshalDataOnly_run _ valid.typed valid.entropy_length]
    rfl
  have checked : sk.isValid = .ok () := isValid_eq_ok.mpr valid
  rw [List.cons_append, List.append_assoc, unmarshalSia, Except.run_bind_of_run dataRead]
  simp only [if_neg (typed_ne_deleted valid.typed)]
  rw [Except.run_bind_of_run (readName_run l valid.name_le admitted rest)]
  simp only [checked]
  rfl

/-! ### The string form reads back, but for the name -/

/-- The characters of padded base64 are ASCII, and none of them is `/`, `?`, `#` or a control
byte. -/
theorem base64Char_plain : ∀ c ∈ '=' :: base64URL.chars, c.toNat < 256 ∧ byte c ≠ byte '/' ∧
    byte c ≠ byte '?' ∧ byte c ≠ byte '#' ∧ isCTL (byte c) = false :=
  -- decided as a `List.all`: a bare `decide` may pick the instance that ranges over every `Char`
  List.all_iff_forall_prop.mp (by decide)

theorem bytesAsChars_map_byte {cs : List Char} (ascii : ∀ c ∈ cs, c.toNat < 256) :
    bytesAsChars (cs.map byte) = cs := by
  rw [bytesAsChars, List.map_map, List.map_congr_left (g := id), List.map_id]
  intro c mem
  simp only [Function.comp_apply, byte, Nat.toUInt8, UInt8.toNat_ofNat', Nat.mod_eq_of_lt (ascii c mem),
    Char.ofNat_toNat, id]

/-- The URL that `toURL` builds from a valid key. -/
theorem Skykey.toString_of_valid {sk : Skykey} (valid : sk.Valid) :
    sk.toString = .ok (URL.string
      { scheme := SkykeyScheme
        encodedOpaque := (base64URL.encodePadded (sk.type :: sk.entropy)).map byte
        rawQuery := if sk.name ≠ [] then nameKey ++ byte '=' :: sk.name else [] }) := by
  simp only [toString, toURL, marshalDataOnly_of_valid valid, Except.ok_bind]
  rfl

/-- The name the query of a valid key's string gives back: each `+` becomes a space. -/
theorem get_query_name {name : List UInt8}
    (plain : ∀ b ∈ name, b ≠ byte '#' ∧ isQuerySeparator b = false ∧ b ≠ byte '%' ∧ isCTL b = false) :
    get (parseQuery (if name ≠ [] then nameKey ++ byte '=' :: name else [])) nameKey =
      name.map (unescapedByte true) := by
  by_cases empty : name = []
  · subst empty
    rfl
  · have keyPlain : ∀ b ∈ nameKey, isQuerySeparator b = false ∧ b ≠ byte '=' ∧ b ≠ byte '%' :=
      List.all_iff_forall_prop.mp (by decide)
    have keyUnescaped : nameKey.map (unescapedByte true) = nameKey := by decide
    rw [if_pos empty, parseQuery_pair keyPlain fun b mem => ⟨(plain b mem).2.1, (plain b mem).2.2.1⟩,
      keyUnescaped, get_cons_self]

/-- `FromString` reads back the `ToString` of a valid key whose name has no `#`, query separator,
`%` or control byte, but with each `+` of the name turned into a space. -/
theorem fromString_toString (parseAuthority : List UInt8 → Option UrlError) {sk : Skykey}
    (valid : sk.Valid)
    (plain : ∀ b ∈ sk.name, b ≠ byte '#' ∧ isQuerySeparator b = false ∧ b ≠ byte '%' ∧ isCTL b = false) :
    ∃ s, sk.toString = .ok s ∧
      fromString parseAuthority s = .ok { sk with name := sk.name.map (unescapedByte true) } := by
  refine ⟨_, Skykey.toString_of_valid valid, ?_⟩
  have encoded : ∀ c ∈ base64URL.encodePadded (sk.type :: sk.entropy), c ∈ '=' :: base64URL.chars :=
    fun c mem => (base64URL.mem_encodePadded mem).elim (List.mem_cons_of_mem _) (fun same => same ▸ List.mem_cons_self)
  have opaquePlain : ∀ b ∈ (base64URL.encodePadded (sk.type :: sk.entropy)).map byte,
      b ≠ byte '/' ∧ b ≠ byte '?' ∧ b ≠ byte '#' ∧ isCTL b = false := by
    intro b mem
    obtain ⟨c, inside, rfl⟩ := List.mem_map.mp mem
    exact (base64Char_plain c (encoded c inside)).2
  have rootless : ((base64URL.encodePadded (sk.type :: sk.entropy)).map byte).head? ≠ some (byte '/') :=
    fun first => (opaquePlain _ (List.mem_of_head? first)).1 rfl
  have queryPlain : ∀ b ∈ (if sk.name ≠ [] then nameKey ++ byte '=' :: sk.name else []),
      b ≠ byte '#' ∧ isCTL b = false := by
    intro b mem
    have keyPlain : ∀ b ∈ nameKey ++ [byte '='], b ≠ byte '#' ∧ isCTL b = false :=
      List.all_iff_forall_prop.mp (by decide)
    split at mem
    · rw [← List.singleton_append, ← List.append_assoc] at mem
      rcases List.mem_append.mp mem with key | named
      · exact keyPlain b key
      · exact ⟨(plain b named).1, (plain b named).2.2.2⟩
    · simp at mem
  have schemeLower : SkykeyScheme ≠ [] ∧ ∀ b ∈ SkykeyScheme, isLower b = true :=
    ⟨List.cons_ne_nil _ _, List.all_iff_forall_prop.mp (by decide)⟩
  have parsed := Parse_string parseAuthority
    { scheme := SkykeyScheme
      encodedOpaque := (base64URL.encodePadded (sk.type :: sk.entropy)).map byte
      rawQuery := if sk.name ≠ [] then nameKey ++ byte '=' :: sk.name else [] }
    schemeLower.1 schemeLower.2 rootless
    (fun b mem => (opaquePlain b mem).2) queryPlain ⟨rfl, rfl, rfl⟩
  have decodedData : base64URL.decodePadded
      (bytesAsChars ((base64URL.encodePadded (sk.type :: sk.entropy)).map byte)) =
      .ok (sk.type :: sk.entropy) := by
    rw [bytesAsChars_map_byte fun c mem => (base64Char_plain c (encoded c mem)).1]
    exact base64URL.decodePadded_encodePadded (by decide) _
  have dataRead : unmarshalDataOnly (sk.type :: sk.entropy) = .ok ((sk.type, sk.entropy), []) := by
    have read := unmarshalDataOnly_run [] valid.typed valid.entropy_length
    rwa [List.append_nil] at read
  have short : ¬ MaxKeyNameLen < (sk.name.map (unescapedByte true)).length := by
    rw [List.length_map]
    exact Nat.not_lt.mpr valid.name_le
  simp only [fromString, parsed, Except.mapError, Except.ok_bind, if_pos, pure_bind, URL.query,
    get_query_name plain, short, if_false, decodedData, dataRead]
  rfl

/-- A valid key whose name holds a `+`, and no `#`, query separator, `%` or control byte, does not
come back from its string: `FromString` reads the `+` of the raw query as a space. -/
theorem fromString_toString_replaces_plus (parseAuthority : List UInt8 → Option UrlError)
    (sk : Skykey) (valid : sk.isValid = .ok ())
    (plain : ∀ b ∈ sk.name, b ≠ byte '#' ∧ isQuerySeparator b = false ∧ b ≠ byte '%' ∧ isCTL b = false)
    (plus : byte '+' ∈ sk.name) :
    ∃ s, sk.toString = .ok s ∧
      fromString parseAuthority s = .ok { sk with name := sk.name.map (unescapedByte true) } ∧
      fromString parseAuthority s ≠ .ok sk := by
  obtain ⟨s, written, read⟩ := fromString_toString parseAuthority (Skykey.isValid_eq_ok.mp valid) plain
  refine ⟨s, written, read, ?_⟩
  rw [read]
  intro same
  have names : sk.name.map (unescapedByte true) = sk.name := congrArg Skykey.name (Except.ok.inj same)
  -- no `+` is left in the name read back
  have gone : byte '+' ∉ sk.name.map (unescapedByte true) := by
    intro mem
    obtain ⟨b, _, spaced⟩ := List.mem_map.mp mem
    unfold unescapedByte at spaced
    split at spaced
    · exact absurd spaced (by decide)
    · rename_i notPlus
      simp [spaced] at notPlus
  rw [names] at gone
  exact gone plus

/-- A private-ID key named "a+b". -/
def plusNamedSkykey : Skykey := ⟨[97, 43, 98], TypePrivateID, List.replicate 56 0⟩

theorem plusNamedSkykey_renamed :
    ∃ s, plusNamedSkykey.toString = .ok s ∧
      fromString (fun _ => none) s =
        .ok { plusNamedSkykey with name := plusNamedSkykey.name.map (unescapedByte true) } ∧
      fromString (fun _ => none) s ≠ .ok plusNamedSkykey :=
  fromString_toString_replaces_plus (fun _ => none) plusNamedSkykey rfl
    (List.all_iff_forall_prop.mp (by decide)) (by decide)

/-! ### Subkeys share the ID, and the encryption ID is recognised -/

section Subkeys

variable (p : Primitives)

theorem derivedNonce_length (nonce derivation : List UInt8) :
    (derivedNonce p nonce derivation).length = XNonceSize := by
  simp [derivedNonce, XNonceSize]

theorem slicePrefix_of_le {s : List UInt8} {n : ℕ} (within : n ≤ s.length) :
    slicePrefix s n = pure (s.take n) := if_pos within

theorem sliceSuffix_of_le {s : List UInt8} {n : ℕ} (within : n ≤ s.length) :
    sliceSuffix s n = pure (s.drop n) := if_pos within

@[simp] theorem returned_ok {α : Type} (x : α) : returned (.ok x) = pure x := rfl

/-- XORing with one keystream twice gives the data back. -/
theorem xorKeyStream_xorKeyStream (ck : XChaCha20CipherKey) (counter : ℕ) (data : List UInt8) :
    xorKeyStream p ck counter (xorKeyStream p ck counter data) = data := by
  rw [xorKeyStream, xorKeyStream, List.mapIdx_mapIdx]
  apply List.ext_getElem (by simp)
  intro i _ _
  simp [UInt8.xor_assoc, UInt8.xor_self, UInt8.xor_zero]

namespace Skykey

variable {sk : Skykey}

theorem key_le (valid : sk.Valid) : KeySize ≤ sk.entropy.length := by
  rw [valid.entropy_length]
  exact Nat.le_add_right _ _

theorem cipherKey_of_valid (valid : sk.Valid) :
    sk.cipherKey = .ok ⟨sk.entropy.take KeySize, sk.entropy.drop KeySize⟩ := by
  rw [cipherKey, cipherType, cipherType_of_typed valid.typed, newSiaKey_xChaCha20 valid.entropy_length]

theorem nonce_of_valid (valid : sk.Valid) : sk.nonce = pure (sk.entropy.drop KeySize) := by
  have length : (sk.entropy.drop KeySize).length = XNonceSize := by
    simp [valid.entropy_length]
  rw [nonce, sliceSuffix_of_le (key_le valid), pure_bind, List.take_left' length]

/-- The subkey of a valid key with a nonce of `XNonceSize` bytes: the key's name, type and key,
and the nonce. -/
theorem subkeyWithNonce_of_valid (valid : sk.Valid) {nonce : List UInt8}
    (length : nonce.length = XNonceSize) :
    sk.subkeyWithNonce nonce = pure ⟨sk.name, sk.type, sk.entropy.take KeySize ++ nonce⟩ := by
  have entropyLength : (sk.entropy.take KeySize ++ nonce).length = KeySize + XNonceSize := by
    simp [length, key_le valid]
  simp only [subkeyWithNonce, length, ne_eq, not_true_eq_false, if_false, slicePrefix_of_le (key_le valid),
    pure_bind, cipherType, cipherType_of_typed valid.typed, newSiaKey_xChaCha20 entropyLength,
    returned_ok]

theorem subkey_valid (valid : sk.Valid) {nonce : List UInt8} (length : nonce.length = XNonceSize) :
    Valid ⟨sk.name, sk.type, sk.entropy.take KeySize ++ nonce⟩ :=
  ⟨valid.name_le, valid.typed, by simp [length, key_le valid]⟩

/-- A key and a subkey with another nonce hash the same key. -/
theorem ID_subkey (valid : sk.Valid) (nonce : List UInt8) :
    ID p ⟨sk.name, sk.type, sk.entropy.take KeySize ++ nonce⟩ = ID p sk := by
  have key : (sk.entropy.take KeySize).length = KeySize := by simp [key_le valid]
  simp [ID, valid.typed, key_le valid, List.take_left' key]

theorem ID_isSome (valid : sk.Valid) : (ID p sk).isSome := by
  simp [ID, valid.typed, key_le valid]

/-- Every subkey of a valid key with a nonce of `XNonceSize` bytes has the key's ID. -/
theorem subkeyWithNonce_ID (valid : sk.Valid) {nonce : List UInt8} (length : nonce.length = XNonceSize) :
    ∃ fk, sk.subkeyWithNonce nonce = pure fk ∧ ID p fk = ID p sk ∧ (ID p sk).isSome :=
  ⟨_, subkeyWithNonce_of_valid valid length, ID_subkey p valid nonce, ID_isSome p valid⟩

/-- A valid key's subkey with a derivation's nonce: the hash of the nonce and the derivation, cut
to `XNonceSize` bytes. -/
theorem deriveSubkey_of_valid (valid : sk.Valid) (derivation : List UInt8) :
    sk.deriveSubkey p derivation = pure ⟨sk.name, sk.type,
      sk.entropy.take KeySize ++ derivedNonce p (sk.entropy.drop KeySize) derivation⟩ := by
  rw [deriveSubkey, nonce_of_valid valid, pure_bind,
    subkeyWithNonce_of_valid valid (derivedNonce_length p _ _)]

/-- The cipher key of a subkey: the key's key and the subkey's nonce. -/
theorem cipherKey_subkey (valid : sk.Valid) {nonce : List UInt8} (length : nonce.length = XNonceSize) :
    cipherKey ⟨sk.name, sk.type, sk.entropy.take KeySize ++ nonce⟩ = .ok ⟨sk.entropy.take KeySize, nonce⟩ := by
  have key : (sk.entropy.take KeySize).length = KeySize := by simp [key_le valid]
  rw [cipherKey_of_valid (subkey_valid valid length), List.take_left' key, List.drop_left' key]

/-- A private-ID key's encryption ID: the specifier XORed with the keystream of its key and the
nonce derived from its nonce. -/
theorem generateSkyfileEncryptionID_of_valid (valid : sk.Valid) (priv : sk.type = TypePrivateID) :
    sk.generateSkyfileEncryptionID p = pure (xorKeyStream p ⟨sk.entropy.take KeySize,
      derivedNonce p (sk.entropy.drop KeySize) skyfileEncryptionIDDerivation.toList⟩ 0
      skyfileEncryptionIDSpecifier.toList) := by
  have private_ : ¬ sk.type ≠ TypePrivateID := fun other => other priv
  simp only [generateSkyfileEncryptionID, if_neg private_, deriveSubkey_of_valid p valid,
    pure_bind, cipherKey_subkey valid (derivedNonce_length p _ _), returned_ok]
  rfl

/-- A private-ID key recognises the encryption ID that its subkey with a nonce generates, with
that nonce: both derive one cipher key, and decrypting undoes the keystream. -/
theorem matchesSkyfileEncryptionID_generated (valid : sk.Valid) (priv : sk.type = TypePrivateID)
    {nonce : List UInt8} (length : nonce.length = XNonceSize) :
    ∃ fk encryptionID, sk.subkeyWithNonce nonce = pure fk ∧
      fk.generateSkyfileEncryptionID p = pure encryptionID ∧
      sk.matchesSkyfileEncryptionID p encryptionID nonce = pure true := by
  have fileValid := subkey_valid valid length
  refine ⟨_, _, subkeyWithNonce_of_valid valid length,
    generateSkyfileEncryptionID_of_valid p fileValid priv, ?_⟩
  have idLength : (xorKeyStream p ⟨(sk.entropy.take KeySize ++ nonce).take KeySize,
      derivedNonce p ((sk.entropy.take KeySize ++ nonce).drop KeySize)
        skyfileEncryptionIDDerivation.toList⟩ 0 skyfileEncryptionIDSpecifier.toList).length = SkykeyIDLen := by
    simp [xorKeyStream]
    rfl
  have private_ : ¬ sk.type ≠ TypePrivateID := fun other => other priv
  simp only [matchesSkyfileEncryptionID, idLength, length, ne_eq, not_true_eq_false, or_self, if_false,
    if_neg private_, subkeyWithNonce_of_valid valid length, pure_bind,
    deriveSubkey_of_valid p fileValid, cipherKey_subkey fileValid (derivedNonce_length p _ _), returned_ok,
    decryptBytes, xorKeyStream_xorKeyStream]
  rw [beq_self_eq_true]


end Skykey

end Subkeys

end Sia
