import Sia.Types.Encoding
import Sia.Lib.Slice

/-! The base sector of a skyfile (`modules/skynet.go`, `modules/skynethelpers.go`): the 99-byte
`SkyfileLayout`, then the fanout, the JSON metadata and, for a small file, the file itself.
`ParseSkyfileMetadata` reads a base sector downloaded from a host, so every byte of it is chosen
by whoever uploaded it. The JSON codec is a parameter; a Go panic is `none`. -/
namespace Sia.Skynet

open Slice Encoding

/-- `SkyfileLayoutSize`. -/
def skyfileLayoutSize : ℕ := 99

/-- `modules.SectorSize`. -/
def sectorSize : UInt64 := 4194304

theorem sectorSize_toNat : sectorSize.toNat = 4194304 := rfl

structure SkyfileLayout where
  version : UInt8
  filesize : UInt64
  metadataSize : UInt64
  fanoutSize : UInt64
  fanoutDataPieces : UInt8
  fanoutParityPieces : UInt8
  cipherType : Vector UInt8 8
  keyData : Vector UInt8 64
  deriving DecidableEq, Repr

/-- `binary.LittleEndian.Uint64`, which panics on fewer than eight bytes. -/
def readUint64 (b : List UInt8) : Option UInt64 :=
  if b.length < 8 then none else some (UInt64.ofNat (Bytes.leValue (b.take 8)))

/-- `copy(a[:], src)` into a zeroed array: the bytes both have, and zeros after them. -/
def copyBytes (n : ℕ) (src : List UInt8) : Vector UInt8 n :=
  Vector.ofFn fun i => src.getD i 0

/-- `SkyfileLayout.Decode` into a zeroed layout. Reading a field past the end panics; the cipher
type and key are copied from whatever of them the bytes hold. -/
def SkyfileLayout.decode (b : List UInt8) : Option SkyfileLayout := do
  let version ← b[0]?
  let filesize ← (sliceFrom b 1).bind readUint64
  let metadataSize ← (sliceFrom b 9).bind readUint64
  let fanoutSize ← (sliceFrom b 17).bind readUint64
  let fanoutDataPieces ← b[25]?
  let fanoutParityPieces ← b[26]?
  let cipherType ← sliceFrom b 27
  let keyData ← sliceFrom b 35
  pure ⟨version, filesize, metadataSize, fanoutSize, fanoutDataPieces, fanoutParityPieces,
    copyBytes 8 cipherType, copyBytes 64 keyData⟩

/-- `SkyfileLayout.Encode`. -/
def SkyfileLayout.encode (sl : SkyfileLayout) : List UInt8 :=
  sl.version :: writeUint64 sl.filesize ++ writeUint64 sl.metadataSize ++
    writeUint64 sl.fanoutSize ++ [sl.fanoutDataPieces, sl.fanoutParityPieces] ++
    sl.cipherType.toList ++ sl.keyData.toList

theorem readUint64_writeUint64_append (x : UInt64) (rest : List UInt8) :
    readUint64 (writeUint64 x ++ rest) = some x := by
  have value : Bytes.leValue (writeUint64 x) = x.toNat := by
    rw [writeUint64, Bytes.leValue_leBytes,
      Nat.mod_eq_of_lt (lt_of_lt_of_eq x.toNat_lt (by norm_num))]
  simp [readUint64, value]

theorem copyBytes_toList_append {n : ℕ} (v : Vector UInt8 n) (rest : List UInt8) :
    copyBytes n (v.toList ++ rest) = v := by
  refine Vector.ext fun i lt => ?_
  have inV : i < v.toList.length := by simpa using lt
  simp [copyBytes, List.getD_eq_getElem?_getD, List.getElem?_append_left inV, lt]

/-- `Decode` reads back what `Encode` wrote, whatever follows it. -/
theorem SkyfileLayout.decode_encode_append (sl : SkyfileLayout) (rest : List UInt8) :
    SkyfileLayout.decode (sl.encode ++ rest) = some sl := by
  simp [SkyfileLayout.decode, SkyfileLayout.encode, sliceFrom, readUint64_writeUint64_append,
    List.drop_append, List.getElem?_append, List.drop_eq_nil_of_le]
  rw [if_pos (by omega), if_pos (by omega), if_pos (by omega)]
  simp [readUint64_writeUint64_append, copyBytes_toList_append]

@[simp] theorem SkyfileLayout.length_encode (sl : SkyfileLayout) :
    sl.encode.length = skyfileLayoutSize := by
  simp [SkyfileLayout.encode, skyfileLayoutSize]

/-- `BuildBaseSector`: the four parts, zero-padded to a sector, and their length. Parts larger
than a sector are a critical error, which a release build logs before returning nil. -/
def buildBaseSector (layoutBytes fanoutBytes metadataBytes fileBytes : List UInt8) :
    List UInt8 × UInt64 :=
  let totalSize := layoutBytes.length + fanoutBytes.length + metadataBytes.length + fileBytes.length
  if UInt64.ofNat totalSize > sectorSize then ([], 0)
  else
    (layoutBytes ++ fanoutBytes ++ metadataBytes ++ fileBytes ++
      List.replicate (sectorSize.toNat - totalSize) 0, UInt64.ofNat totalSize)

theorem buildBaseSector_of_fits {layoutBytes fanoutBytes metadataBytes fileBytes : List UInt8}
    (fits : layoutBytes.length + fanoutBytes.length + metadataBytes.length + fileBytes.length ≤
      sectorSize.toNat) :
    ∃ padding, (buildBaseSector layoutBytes fanoutBytes metadataBytes fileBytes).1 =
        layoutBytes ++ fanoutBytes ++ metadataBytes ++ fileBytes ++ padding ∧
      (layoutBytes ++ fanoutBytes ++ metadataBytes ++ fileBytes ++ padding).length =
        sectorSize.toNat := by
  have sector := sectorSize_toNat
  have small : ¬ UInt64.ofNat (layoutBytes.length + fanoutBytes.length + metadataBytes.length +
      fileBytes.length) > sectorSize := by
    rw [gt_iff_lt, UInt64.lt_iff_toNat_lt, UInt64.toNat_ofNat', Nat.mod_eq_of_lt (by omega)]
    omega
  refine ⟨List.replicate (sectorSize.toNat - (layoutBytes.length + fanoutBytes.length +
    metadataBytes.length + fileBytes.length)) 0, ?_, ?_⟩
  · simp only [buildBaseSector, small, if_false]
  · simp only [List.length_append, List.length_replicate]
    omega

/-- Fanout and metadata sizes within a sector never wrap the offsets after them. -/
theorem offsets_toNat {sl : SkyfileLayout} (fanoutSmall : sl.fanoutSize ≤ sectorSize)
    (metadataSmall : sl.metadataSize ≤ sectorSize) :
    ((99 : UInt64) + sl.fanoutSize).toNat = 99 + sl.fanoutSize.toNat ∧
      ((99 : UInt64) + sl.fanoutSize + sl.metadataSize).toNat =
        99 + sl.fanoutSize.toNat + sl.metadataSize.toNat := by
  have fanoutBound := UInt64.le_iff_toNat_le.mp fanoutSmall
  have metadataBound := UInt64.le_iff_toNat_le.mp metadataSmall
  have sector := sectorSize_toNat
  have fanoutEnd : ((99 : UInt64) + sl.fanoutSize).toNat = 99 + sl.fanoutSize.toNat := by
    rw [UInt64.toNat_add, Nat.mod_eq_of_lt (by simp; omega)]
    rfl
  refine ⟨fanoutEnd, ?_⟩
  rw [UInt64.toNat_add, fanoutEnd, Nat.mod_eq_of_lt (by omega)]

/-- The size check of `ParseSkyfileMetadata` passes when the fanout and metadata fit in the
base sector, itself no larger than a sector. -/
theorem sizes_accepted {sl : SkyfileLayout} {length : ℕ}
    (fanoutSmall : sl.fanoutSize ≤ sectorSize)
    (metadataSmall : sl.metadataSize ≤ sectorSize)
    (fits : 99 + sl.fanoutSize.toNat + sl.metadataSize.toNat ≤ length)
    (bound : length ≤ sectorSize.toNat) :
    ¬ ((99 : UInt64) + sl.fanoutSize + sl.metadataSize > UInt64.ofNat length ∨
      sl.fanoutSize > sectorSize ∨ sl.metadataSize > sectorSize) := by
  have sector := sectorSize_toNat
  have metadataEnd := (offsets_toNat fanoutSmall metadataSmall).2
  simp only [gt_iff_lt, UInt64.not_lt.mpr fanoutSmall, UInt64.not_lt.mpr metadataSmall, or_false,
    UInt64.lt_iff_toNat_lt, UInt64.toNat_ofNat', metadataEnd,
    Nat.mod_eq_of_lt (show length < 2 ^ 64 by omega)]
  omega

inductive ParseError where
  | unsupportedVersion (version : UInt8)
  | largeFanoutOrMetadata
  | unparsableMetadata
  deriving DecidableEq, Repr

variable {M : Type} (unmarshal : List UInt8 → Option M)

/-- `ParseSkyfileMetadata` with `json.Unmarshal` as `unmarshal`: the layout, the fanout bytes,
the metadata and the payload, which is nil (here empty) unless the fanout is. Offsets are
`uint64`. -/
def parseSkyfileMetadata (baseSector : List UInt8) :
    Option (Except ParseError (SkyfileLayout × List UInt8 × M × List UInt8)) := do
  let sl ← SkyfileLayout.decode baseSector
  let offset : UInt64 := 99
  if sl.version ≠ 1 then return .error (.unsupportedVersion sl.version)
  if offset + sl.fanoutSize + sl.metadataSize > UInt64.ofNat baseSector.length ∨
      sl.fanoutSize > sectorSize ∨ sl.metadataSize > sectorSize then
    return .error .largeFanoutOrMetadata
  -- the fanout is copied into a fresh slice of the same length
  let fanoutBytes ← slice baseSector offset.toNat (offset + sl.fanoutSize).toNat
  let offset := offset + sl.fanoutSize
  let metadataBytes ← slice baseSector offset.toNat (offset + sl.metadataSize).toNat
  let some sm := unmarshal metadataBytes | return .error .unparsableMetadata
  let offset := offset + sl.metadataSize
  if sl.fanoutSize = 0 then
    let payload ← slice baseSector offset.toNat (offset + sl.filesize).toNat
    return .ok (sl, fanoutBytes, sm, payload)
  return .ok (sl, fanoutBytes, sm, [])

/-- A base sector built from an encoded version-1 layout whose sizes are those of the fanout,
metadata and file it is built with parses back into them, given that the JSON codec reads the
metadata back. -/
theorem parseSkyfileMetadata_buildBaseSector {sl : SkyfileLayout}
    {fanout metadataBytes fileBytes : List UInt8} {sm : M} (v1 : sl.version = 1)
    (fanoutLength : sl.fanoutSize.toNat = fanout.length)
    (metadataLength : sl.metadataSize.toNat = metadataBytes.length)
    (fileLength : sl.filesize.toNat = fileBytes.length)
    (fits : skyfileLayoutSize + fanout.length + metadataBytes.length + fileBytes.length ≤
      sectorSize.toNat)
    (parsed : unmarshal metadataBytes = some sm) :
    parseSkyfileMetadata unmarshal (buildBaseSector sl.encode fanout metadataBytes fileBytes).1 =
      some (.ok (sl, fanout, sm, if fanout = [] then fileBytes else [])) := by
  have layout : sl.encode.length = 99 := sl.length_encode
  have sector := sectorSize_toNat
  have layoutSize : skyfileLayoutSize = 99 := rfl
  obtain ⟨padding, built, full⟩ := buildBaseSector_of_fits
    (show sl.encode.length + fanout.length + metadataBytes.length + fileBytes.length ≤
      sectorSize.toNat by rwa [layout])
  rw [built]
  have fanoutSmall : sl.fanoutSize ≤ sectorSize := by
    rw [UInt64.le_iff_toNat_le, fanoutLength]
    omega
  have metadataSmall : sl.metadataSize ≤ sectorSize := by
    rw [UInt64.le_iff_toNat_le, metadataLength]
    omega
  obtain ⟨fanoutEnd, metadataEnd⟩ := offsets_toNat fanoutSmall metadataSmall
  have fileEnd : ((99 : UInt64) + sl.fanoutSize + sl.metadataSize + sl.filesize).toNat =
      99 + fanout.length + metadataBytes.length + fileBytes.length := by
    rw [UInt64.toNat_add, metadataEnd, fanoutLength, metadataLength, fileLength,
      Nat.mod_eq_of_lt (by omega)]
  have decoded : SkyfileLayout.decode (sl.encode ++ fanout ++ metadataBytes ++ fileBytes ++
      padding) = some sl := by
    simp only [List.append_assoc, SkyfileLayout.decode_encode_append]
  have sizes := sizes_accepted fanoutSmall metadataSmall
    (by simp only [List.length_append, layout, fanoutLength, metadataLength]; omega) full.le
  -- each part is sliced out at the offsets the layout gives
  have fanoutSlice : slice (sl.encode ++ fanout ++ (metadataBytes ++ fileBytes ++ padding))
      (UInt64.toNat 99) (99 + sl.fanoutSize).toNat = some fanout :=
    slice_append_middle (by rw [layout]; rfl) (by rw [fanoutEnd, fanoutLength, layout])
  have metadataSlice : slice (sl.encode ++ fanout ++ metadataBytes ++ (fileBytes ++ padding))
      (99 + sl.fanoutSize).toNat (99 + sl.fanoutSize + sl.metadataSize).toNat =
        some metadataBytes :=
    slice_append_middle (by simp [fanoutEnd, fanoutLength, layout])
      (by simp [metadataEnd, fanoutLength, metadataLength, layout, Nat.add_assoc])
  have fileSlice : slice (sl.encode ++ fanout ++ metadataBytes ++ fileBytes ++ padding)
      (99 + sl.fanoutSize + sl.metadataSize).toNat
      (99 + sl.fanoutSize + sl.metadataSize + sl.filesize).toNat = some fileBytes :=
    slice_append_middle (by simp [metadataEnd, fanoutLength, metadataLength, layout, Nat.add_assoc])
      (by simp [fileEnd, layout, Nat.add_assoc])
  simp only [List.append_assoc] at fanoutSlice metadataSlice fileSlice decoded sizes
  simp only [parseSkyfileMetadata, List.append_assoc, decoded, Option.pure_def, Option.bind_eq_bind,
    Option.bind_some, v1, ne_eq, not_true_eq_false, if_false, sizes, fanoutSlice, metadataSlice,
    parsed, fileSlice]
  have noFanout : sl.fanoutSize = 0 ↔ fanout = [] := by
    rw [← UInt64.toNat_inj, fanoutLength, ← List.length_eq_zero_iff]
    rfl
  by_cases empty : fanout = [] <;> simp [noFanout, empty]

/-! ### A base sector whose file size runs past its end -/

/-- A version-1 base sector without fanout whose metadata parses, but whose file size runs past
its end, makes `ParseSkyfileMetadata` slice out of range: the end of the payload either lies
past the sector or wraps below its start. -/
theorem parseSkyfileMetadata_panics_of_long_filesize {b : List UInt8} {sl : SkyfileLayout}
    {sm : M} (decoded : SkyfileLayout.decode b = some sl) (v1 : sl.version = 1)
    (noFanout : sl.fanoutSize = 0) (metadataSmall : sl.metadataSize ≤ sectorSize)
    (metadataFits : 99 + sl.metadataSize.toNat ≤ b.length)
    (sectorBound : b.length ≤ sectorSize.toNat)
    (parsed : unmarshal ((b.drop 99).take sl.metadataSize.toNat) = some sm)
    (long : b.length < 99 + sl.metadataSize.toNat + sl.filesize.toNat) :
    parseSkyfileMetadata unmarshal b = none := by
  have zero : sl.fanoutSize.toNat = 0 := by simp [noFanout]
  have fanoutSmall : sl.fanoutSize ≤ sectorSize := by simp [noFanout, UInt64.le_iff_toNat_le]
  obtain ⟨fanoutEnd, metadataEnd⟩ := offsets_toNat fanoutSmall metadataSmall
  have sizes := sizes_accepted fanoutSmall metadataSmall (by omega) sectorBound
  have fanoutSlice : slice b (UInt64.toNat 99) (99 + sl.fanoutSize).toNat = some [] := by
    rw [fanoutEnd, zero]
    simp [slice]
    omega
  have metadataSlice : slice b (99 + sl.fanoutSize).toNat
      (99 + sl.fanoutSize + sl.metadataSize).toNat =
        some ((b.drop 99).take sl.metadataSize.toNat) := by
    rw [fanoutEnd, metadataEnd, zero]
    simp [slice]
    omega
  have payloadPanics : slice b (99 + sl.fanoutSize + sl.metadataSize).toNat
      (99 + sl.fanoutSize + sl.metadataSize + sl.filesize).toNat = none := by
    rw [slice_eq_none_iff, UInt64.toNat_add (99 + sl.fanoutSize + sl.metadataSize), metadataEnd,
      zero]
    have := sl.filesize.toNat_lt
    by_cases wraps : 2 ^ 64 ≤ 99 + sl.metadataSize.toNat + sl.filesize.toNat
    · left
      omega
    · right
      rw [Nat.mod_eq_of_lt (by omega)]
      omega
  simp only [parseSkyfileMetadata, decoded, Option.pure_def, Option.bind_eq_bind, Option.bind_some,
    v1, ne_eq, not_true_eq_false, if_false, sizes, fanoutSlice, metadataSlice, parsed,
    payloadPanics, Option.bind_none]
  simp [noFanout]

/-- A version-1 layout of a 1000-byte file with two bytes of metadata and no fanout. -/
def shortLayout : SkyfileLayout :=
  ⟨1, 1000, 2, 0, 0, 0, Vector.replicate 8 0, Vector.replicate 64 0⟩

/-- The layout followed by the metadata "{}" and nothing else: 101 bytes. -/
def truncatedBaseSector : List UInt8 := shortLayout.encode ++ [123, 125]

/-- A JSON decoder that reads "{}" as the empty metadata. -/
def emptyMetadataUnmarshal (bytes : List UInt8) : Option Unit :=
  if bytes = [123, 125] then some () else none

theorem truncatedBaseSector_panics :
    SkyfileLayout.decode truncatedBaseSector = some shortLayout ∧ shortLayout.version = 1 ∧
      shortLayout.fanoutSize = 0 ∧ shortLayout.metadataSize ≤ sectorSize ∧
      99 + shortLayout.metadataSize.toNat ≤ truncatedBaseSector.length ∧
      truncatedBaseSector.length ≤ sectorSize.toNat ∧
      emptyMetadataUnmarshal ((truncatedBaseSector.drop 99).take shortLayout.metadataSize.toNat) =
        some () ∧
      truncatedBaseSector.length <
        99 + shortLayout.metadataSize.toNat + shortLayout.filesize.toNat ∧
      parseSkyfileMetadata emptyMetadataUnmarshal truncatedBaseSector = none := by
  have decoded : SkyfileLayout.decode truncatedBaseSector = some shortLayout :=
    SkyfileLayout.decode_encode_append _ _
  have parsed : emptyMetadataUnmarshal
      ((truncatedBaseSector.drop 99).take shortLayout.metadataSize.toNat) = some () := by
    decide
  exact ⟨decoded, rfl, rfl, by decide, by decide, by decide, parsed, by decide,
    parseSkyfileMetadata_panics_of_long_filesize emptyMetadataUnmarshal decoded rfl rfl
      (by decide) (by decide) (by decide) parsed (by decide)⟩

end Sia.Skynet
