import Sia.Lib.ByteFile
import Sia.Lib.Bytes
import Sia.Types.Transaction

/-! `persist/appendonly.go`: a file that starts with a 4096-byte metadata page (a header and a
version specifier, then the length of the good part of the file, counted from its start) and
grows by appends after the page. `Write` truncates the file to the length it holds in memory,
appends, syncs, advances the length in memory, and writes the new length into the page.
Any of these file operations may fail, and the call then returns at that point; a failed
`WriteAt` is taken to have written nothing. The file is the bytes a reload reads: every write
reaches it, the outcome a crash allows when the writes were synced. -/
namespace Sia.Persist

/-- `MetadataPageSize` -/
def metadataPageSize : ℕ := 4096

/-- `lengthSize` -/
def lengthSize : ℕ := 8

/-- `types.SpecifierLen` -/
def specifierLen : ℕ := 16

/-- `appendOnlyPersistMetadata` -/
structure AppendOnlyPersistMetadata where
  header : Specifier
  version : Specifier
  length : UInt64

/-- `encoding.Marshal` of the metadata: the two specifiers, then the length as eight
little-endian bytes. -/
def AppendOnlyPersistMetadata.marshal (m : AppendOnlyPersistMetadata) : List UInt8 :=
  m.header.toList ++ m.version.toList ++ Bytes.leBytes lengthSize m.length.toNat

/-- `AppendOnlyPersist`: the persist file's bytes and the metadata held in memory. -/
structure AppendOnlyPersist where
  file : List UInt8
  metadata : AppendOnlyPersistMetadata

/-- The file operations of `Write`, in the order it makes them. -/
inductive WriteOp where
  | truncate
  | writeData
  | syncData
  | writeLength
  | syncLength
  deriving DecidableEq, Repr

/-- The errors of `Write`. -/
inductive WriteError where
  /-- "could not truncate file before write" -/
  | truncate
  /-- "unable to append new data to blacklist persist file" -/
  | appendData
  /-- "unable to fsync file" -/
  | fsync
  /-- "unable to write length" -/
  | writeLength
  deriving DecidableEq, Repr

/-- The errors of `load`. -/
inductive LoadError where
  /-- "unable to read metadata bytes from file": fewer than 40 bytes. -/
  | readMetadata
  /-- "unable to unmarshal header": `Specifier.UnmarshalText` takes ASCII only. -/
  | unmarshalHeader
  /-- "unable to unmarshal version" -/
  | unmarshalVersion
  /-- `ErrWrongHeader` -/
  | wrongHeader
  /-- `ErrWrongVersion` -/
  | wrongVersion
  deriving DecidableEq, Repr

namespace AppendOnlyPersist

/-- `Write`, with the operation that fails, if one does; it returns the number of bytes it wrote
and its error. -/
def write (aop : AppendOnlyPersist) (b : List UInt8) (fault : Option WriteOp) :
    AppendOnlyPersist × ℕ × Except WriteError Unit :=
  let length := aop.metadata.length
  if fault = some .truncate then (aop, 0, .error .truncate) else
  let file := ByteFile.truncate aop.file length.toNat
  if fault = some .writeData then ({ aop with file }, 0, .error .appendData) else
  let file := ByteFile.writeAt file length.toNat b
  let numBytes := b.length
  if fault = some .syncData then ({ aop with file }, numBytes, .error .fsync) else
  -- the length moves on in memory before it is written to the page
  let metadata := { aop.metadata with length := length + numBytes.toUInt64 }
  if fault = some .writeLength then (⟨file, metadata⟩, numBytes, .error .writeLength) else
  let file :=
    ByteFile.writeAt file (2 * specifierLen) (Bytes.leBytes lengthSize metadata.length.toNat)
  if fault = some .syncLength then (⟨file, metadata⟩, numBytes, .error .fsync)
  else (⟨file, metadata⟩, numBytes, .ok ())

/-- Calls of `Write` one after another, each with its bytes and its fault. -/
def writeAll (aop : AppendOnlyPersist) (writes : List (List UInt8 × Option WriteOp)) :
    AppendOnlyPersist :=
  writes.foldl (fun aop w => (aop.write w.1 w.2).1) aop

end AppendOnlyPersist

/-- `init`: a new file holding the marshalled metadata, whose length is the page size. -/
def init (header version : Specifier) : AppendOnlyPersist :=
  let metadata : AppendOnlyPersistMetadata := ⟨header, version, metadataPageSize.toUInt64⟩
  ⟨ByteFile.writeAt [] 0 metadata.marshal, metadata⟩

/-- `isASCII`, which `Specifier.UnmarshalText` checks. -/
def isASCII (bytes : List UInt8) : Bool := bytes.all (· < 128)

/-- `load`, from the bytes of an existing file: the metadata is read and checked against the
expected header and version, the file is truncated to the stored length, and the reader yields
the bytes between the page and that length. -/
def load (header version : Specifier) (file : List UInt8) :
    Except LoadError (AppendOnlyPersist × List UInt8) :=
  let metadataSize := 2 * specifierLen + lengthSize
  if file.length < metadataSize then .error .readMetadata else
  let raw := file.take metadataSize
  if !isASCII (raw.take specifierLen) then .error .unmarshalHeader else
  if !isASCII ((raw.drop specifierLen).take specifierLen) then .error .unmarshalVersion else
  let metadata : AppendOnlyPersistMetadata :=
    ⟨Bytes.copyBytes specifierLen raw, Bytes.copyBytes specifierLen (raw.drop specifierLen),
      (Bytes.leValue (raw.drop (2 * specifierLen))).toUInt64⟩
  if metadata.header ≠ header then .error .wrongHeader else
  if metadata.version ≠ version then .error .wrongVersion else
  -- `goodBytes` is a `uint64`, so `goodBytes <= 0` holds only at zero
  if metadata.length - metadataPageSize.toUInt64 = 0 then .ok (⟨file, metadata⟩, []) else
  let file := ByteFile.truncate file metadata.length.toNat
  .ok (⟨file, metadata⟩, file.drop metadataPageSize)

/-- `initOrLoadPersist`: a missing file is initialised and read as empty. -/
def initOrLoadPersist (header version : Specifier) :
    Option (List UInt8) → Except LoadError (AppendOnlyPersist × List UInt8)
  | none => .ok (init header version, [])
  | some file => load header version file

/-! ### What a reload reads

The file holds, after the page, the bytes of every write that advanced the length in memory;
the page holds the length of the last write whose length reached the file. -/

/-- Whether `Write` got past `Length += numBytes` before its fault. -/
def advances : Option WriteOp → Bool
  | none | some .writeLength | some .syncLength => true
  | _ => false

/-- Whether `Write` wrote the new length to the page before its fault. -/
def records : Option WriteOp → Bool
  | none | some .syncLength => true
  | _ => false

/-- The bytes a run of writes has made good in memory (`data`) and in the page (`durable`). -/
structure Appended where
  data : List UInt8
  durable : List UInt8

def Appended.write (g : Appended) (b : List UInt8) (fault : Option WriteOp) : Appended :=
  let data := if advances fault then g.data ++ b else g.data
  ⟨data, if records fault then data else g.durable⟩

def Appended.writeAll (g : Appended) (writes : List (List UInt8 × Option WriteOp)) : Appended :=
  writes.foldl (fun g w => g.write w.1 w.2) g

/-- The page as `Write` and `init` leave it: the specifiers, then a length. -/
def pageBytes (header version : Specifier) (length : ℕ) : List UInt8 :=
  header.toList ++ version.toList ++ Bytes.leBytes lengthSize length

theorem length_pageBytes (header version : Specifier) (length : ℕ) :
    (pageBytes header version length).length = 2 * specifierLen + lengthSize := by
  simp [pageBytes, specifierLen, lengthSize]

/-- A persist that agrees with what its writes made good: the length in memory covers `data`,
which follows the page; the page names the specifiers and the length of `durable`, a prefix of
`data`. -/
structure Holds (aop : AppendOnlyPersist) (header version : Specifier) (g : Appended) : Prop where
  headerKept : aop.metadata.header = header
  versionKept : aop.metadata.version = version
  covers : aop.metadata.length.toNat = metadataPageSize + g.data.length
  region : (ByteFile.truncate aop.file aop.metadata.length.toNat).drop metadataPageSize = g.data
  page : aop.file.take (2 * specifierLen + lengthSize) =
    pageBytes header version (metadataPageSize + g.durable.length)
  durablePrefix : g.durable <+: g.data

theorem holds_init (header version : Specifier) :
    Holds (init header version) header version ⟨[], []⟩ where
  headerKept := rfl
  versionKept := rfl
  covers := rfl
  region := List.drop_eq_nil_of_le (by rw [ByteFile.length_truncate]; rfl)
  page := by
    have small : metadataPageSize.toUInt64.toNat = metadataPageSize := rfl
    simp only [init, ByteFile.writeAt, AppendOnlyPersistMetadata.marshal, small, pageBytes]
    rw [if_neg (by simp), List.take_of_length_le (by simp [specifierLen, lengthSize])]
    simp
  durablePrefix := List.prefix_refl _

namespace Holds

variable {aop : AppendOnlyPersist} {header version : Specifier} {g : Appended}

theorem file_length (holds : Holds aop header version g) :
    2 * specifierLen + lengthSize ≤ aop.file.length := by
  have taken := congrArg List.length holds.page
  rw [length_pageBytes, List.length_take] at taken
  omega

/-- The page lies within the good part of the file, so a cut at the length keeps it. -/
theorem truncate_page (holds : Holds aop header version g) :
    (ByteFile.truncate aop.file aop.metadata.length.toNat).take (2 * specifierLen + lengthSize) =
      pageBytes header version (metadataPageSize + g.durable.length) := by
  have inside : 2 * specifierLen + lengthSize ≤ aop.metadata.length.toNat := by
    rw [holds.covers, metadataPageSize, specifierLen, lengthSize]
    omega
  rw [ByteFile.take_truncate inside holds.file_length, holds.page]

/-- `os.Truncate` to the length in memory: only bytes past the good part go. -/
theorem truncated (holds : Holds aop header version g) :
    Holds { aop with file := ByteFile.truncate aop.file aop.metadata.length.toNat } header version
      g where
  headerKept := holds.headerKept
  versionKept := holds.versionKept
  covers := holds.covers
  region := by
    rw [ByteFile.truncate_truncate _ (Nat.le_refl _)]
    exact holds.region
  page := holds.truncate_page
  durablePrefix := holds.durablePrefix

/-- A file cut to the length in memory, with the data of a write appended at that length; the
length is not moved. -/
theorem appended (holds : Holds aop header version g)
    (cut : aop.file.length = aop.metadata.length.toNat) (b : List UInt8) :
    Holds { aop with file := aop.file ++ b } header version g where
  headerKept := holds.headerKept
  versionKept := holds.versionKept
  covers := holds.covers
  region := by
    rw [ByteFile.truncate_of_le (by simp [← cut]), List.take_append_of_le_length (by rw [cut]),
      List.take_of_length_le (by rw [cut])]
    have whole := holds.region
    rwa [ByteFile.truncate_of_le (by rw [cut]), List.take_of_length_le (by rw [cut])] at whole
  page := by
    rw [List.take_append_of_le_length holds.file_length]
    exact holds.page
  durablePrefix := holds.durablePrefix

/-- With the file cut at the length in memory, the good part is the file past the page. -/
theorem drop_of_cut (holds : Holds aop header version g)
    (cut : aop.file.length = aop.metadata.length.toNat) :
    aop.file.drop metadataPageSize = g.data := by
  have region := holds.region
  rwa [ByteFile.truncate_of_le (by rw [cut]), List.take_of_length_le (by rw [cut])] at region

/-- The appended data counted in memory: the length moves on by the write's size. -/
theorem advanced (holds : Holds aop header version g)
    (cut : aop.file.length = aop.metadata.length.toNat) (b : List UInt8)
    (fits : metadataPageSize + g.data.length + b.length < 2 ^ 64) :
    Holds ⟨aop.file ++ b, { aop.metadata with length := aop.metadata.length + b.length.toUInt64 }⟩
      header version ⟨g.data ++ b, g.durable⟩ := by
  have grown : (aop.metadata.length + b.length.toUInt64).toNat =
      metadataPageSize + (g.data ++ b).length := by
    rw [UInt64.toNat_add, holds.covers, Nat.toUInt64, UInt64.toNat_ofNat',
      Nat.mod_eq_of_lt (by omega), Nat.mod_eq_of_lt (by omega), List.length_append, Nat.add_assoc]
  have whole : (aop.file ++ b).length = metadataPageSize + (g.data ++ b).length := by
    rw [List.length_append, cut, holds.covers, List.length_append, Nat.add_assoc]
  refine ⟨holds.headerKept, holds.versionKept, grown, ?_, ?_,
    holds.durablePrefix.trans (List.prefix_append _ _)⟩
  · rw [grown, ← whole, ByteFile.truncate_of_le (Nat.le_refl _), List.take_length,
      List.drop_append_of_le_length (by rw [cut, holds.covers]; omega), holds.drop_of_cut cut]
  · rw [List.take_append_of_le_length holds.file_length]
    exact holds.page

/-- The length in memory written into the page: everything counted is now recorded. -/
theorem recorded (holds : Holds aop header version g)
    (cut : aop.file.length = aop.metadata.length.toNat) :
    Holds ⟨ByteFile.writeAt aop.file (2 * specifierLen)
        (Bytes.leBytes lengthSize aop.metadata.length.toNat), aop.metadata⟩
      header version ⟨g.data, g.data⟩ := by
  have long := holds.file_length
  have field : (Bytes.leBytes lengthSize aop.metadata.length.toNat).length = lengthSize :=
    Bytes.length_leBytes _ _
  have inside : 2 * specifierLen ≤ aop.file.length := by omega
  have kept : (ByteFile.writeAt aop.file (2 * specifierLen)
      (Bytes.leBytes lengthSize aop.metadata.length.toNat)).length = aop.file.length := by
    rw [ByteFile.length_writeAt_of_le inside, field]
    omega
  have specifiers : aop.file.take (2 * specifierLen) = header.toList ++ version.toList := by
    have page := congrArg (List.take (2 * specifierLen)) holds.page
    rw [List.take_take, Nat.min_eq_left (by omega)] at page
    rw [page, pageBytes, List.take_append_of_le_length (by simp [specifierLen]),
      List.take_of_length_le (by simp [specifierLen])]
  refine ⟨holds.headerKept, holds.versionKept, holds.covers, ?_, ?_, List.prefix_refl _⟩
  · -- the length field lies in the page, before the good part
    dsimp only
    rw [ByteFile.truncate_of_le (by rw [kept, cut]), List.take_of_length_le (by rw [kept, cut]),
      ByteFile.drop_writeAt_of_le (by rw [field]; simp [specifierLen, lengthSize, metadataPageSize]),
      holds.drop_of_cut cut]
  · rw [ByteFile.writeAt_of_le inside, List.take_append_of_le_length (by simp [field]; omega),
      List.take_of_length_le (by simp [field]), specifiers, holds.covers]
    rfl

/-- One `Write`, whichever operation fails: the persist keeps agreeing with what the writes
made good. -/
theorem write (holds : Holds aop header version g) (b : List UInt8) (fault : Option WriteOp)
    (fits : metadataPageSize + g.data.length + b.length < 2 ^ 64) :
    Holds (aop.write b fault).1 header version (g.write b fault) := by
  have cutHolds := holds.truncated
  have cut : (ByteFile.truncate aop.file aop.metadata.length.toNat).length =
      aop.metadata.length.toNat := ByteFile.length_truncate _ _
  have appended : ByteFile.writeAt (ByteFile.truncate aop.file aop.metadata.length.toNat)
      aop.metadata.length.toNat b = ByteFile.truncate aop.file aop.metadata.length.toNat ++ b := by
    have atEnd := ByteFile.writeAt_length (ByteFile.truncate aop.file aop.metadata.length.toNat) b
    rwa [cut] at atEnd
  have grown := cutHolds.advanced cut b fits
  -- after the append the file ends exactly at the new length
  have ends : (ByteFile.truncate aop.file aop.metadata.length.toNat ++ b).length =
      (aop.metadata.length + b.length.toUInt64).toNat := by
    rw [grown.covers, List.length_append, cut, holds.covers, List.length_append, Nat.add_assoc]
  rcases fault with _ | _ | _ | _ | _ | _ <;>
    simp only [AppendOnlyPersist.write, Appended.write, advances, records, reduceCtorEq,
      Option.some.injEq, ↓reduceIte, appended, Bool.false_eq_true]
  · exact grown.recorded ends
  · exact holds
  · exact cutHolds
  · exact cutHolds.appended cut b
  · exact grown
  · exact grown.recorded ends

/-- A run of writes keeps the persist agreeing with what they made good, as long as the file
stays within what a `uint64` length can count. -/
theorem writeAll (holds : Holds aop header version g) (writes : List (List UInt8 × Option WriteOp))
    (fits : metadataPageSize + g.data.length + (writes.map fun w => w.1.length).sum < 2 ^ 64) :
    Holds (aop.writeAll writes) header version (g.writeAll writes) := by
  induction writes generalizing aop g with
  | nil => exact holds
  | cons w rest ih =>
    obtain ⟨b, fault⟩ := w
    simp only [List.map_cons, List.sum_cons] at fits
    apply ih (holds.write b fault (by omega))
    -- a write adds at most its own bytes to what is made good
    have grows : (g.write b fault).data.length ≤ g.data.length + b.length := by
      simp only [Appended.write]
      split <;> simp
    omega

/-- A reload reads back exactly the bytes whose length reached the page. -/
theorem load (holds : Holds aop header version g) (asciiHeader : isASCII header.toList)
    (asciiVersion : isASCII version.toList) (fits : metadataPageSize + g.data.length < 2 ^ 64) :
    ∃ loaded, Persist.load header version aop.file = .ok (loaded, g.durable) := by
  have long := holds.file_length
  have shorter : g.durable.length ≤ g.data.length := holds.durablePrefix.length_le
  set stored := metadataPageSize + g.durable.length with stored_def
  -- the page read back: the two specifiers and the stored length
  have raw : aop.file.take (2 * specifierLen + lengthSize) =
      header.toList ++ (version.toList ++ Bytes.leBytes lengthSize stored) := by
    rw [holds.page, pageBytes, List.append_assoc]
  have headerLength : header.toList.length = specifierLen := header.length_toList
  have versionLength : version.toList.length = specifierLen := version.length_toList
  have rawHeader : (aop.file.take (2 * specifierLen + lengthSize)).take specifierLen =
      header.toList := by
    rw [raw, List.take_left' headerLength]
  have rawVersion : ((aop.file.take (2 * specifierLen + lengthSize)).drop specifierLen).take
      specifierLen = version.toList := by
    rw [raw, List.drop_left' headerLength, List.take_left' versionLength]
  have rawLength : ((aop.file.take (2 * specifierLen + lengthSize)).drop (2 * specifierLen)) =
      Bytes.leBytes lengthSize stored := by
    rw [raw, ← List.append_assoc, List.drop_left' (by simp [specifierLen])]
  have value : (Bytes.leValue (Bytes.leBytes lengthSize stored)).toUInt64.toNat = stored := by
    have small : stored < 2 ^ 64 := by omega
    rw [Bytes.leValue_leBytes, show 256 ^ lengthSize = 2 ^ 64 from rfl, Nat.mod_eq_of_lt small,
      Nat.toUInt64, UInt64.toNat_ofNat', Nat.mod_eq_of_lt small]
  have header' : Bytes.copyBytes specifierLen (aop.file.take (2 * specifierLen + lengthSize)) =
      header := by
    rw [raw]
    exact Bytes.copyBytes_toList_append header _
  have version' : Bytes.copyBytes specifierLen
      ((aop.file.take (2 * specifierLen + lengthSize)).drop specifierLen) = version := by
    rw [raw, List.drop_left' headerLength]
    exact Bytes.copyBytes_toList_append version _
  unfold Persist.load
  simp only [if_neg (Nat.not_lt.mpr long), rawHeader, rawVersion, asciiHeader, asciiVersion,
    Bool.not_true, Bool.false_eq_true, ↓reduceIte, header', version', ne_eq, not_true_eq_false,
    rawLength]
  set x := (Bytes.leValue (Bytes.leBytes lengthSize stored)).toUInt64 with x_def
  have atLeast : metadataPageSize.toUInt64 ≤ x := by
    rw [UInt64.le_iff_toNat_le, value]
    exact Nat.le_add_right _ _
  have goodBytes : (x - metadataPageSize.toUInt64).toNat = g.durable.length := by
    rw [UInt64.toNat_sub_of_le _ _ atLeast, value, stored_def]
    exact Nat.add_sub_cancel_left _ _
  by_cases empty : g.durable = []
  · have zero : x - metadataPageSize.toUInt64 = 0 :=
      UInt64.toNat_inj.mp (by rw [goodBytes, empty]; rfl)
    rw [if_pos zero, empty]
    exact ⟨_, rfl⟩
  · have nonzero : x - metadataPageSize.toUInt64 ≠ 0 := fun zero =>
      empty (List.eq_nil_of_length_eq_zero (by rw [← goodBytes, zero]; rfl))
    rw [if_neg nonzero, value]
    refine ⟨_, congrArg Except.ok (Prod.ext rfl ?_)⟩
    dsimp only
    -- the cut at the stored length keeps the durable prefix of the good bytes
    have within : stored ≤ aop.metadata.length.toNat := by
      rw [holds.covers]
      omega
    rw [← ByteFile.truncate_truncate aop.file within,
      ByteFile.truncate_of_le (by rw [ByteFile.length_truncate]; exact within), List.drop_take,
      holds.region, stored_def, Nat.add_sub_cancel_left,
      ← List.prefix_iff_eq_take.mp holds.durablePrefix]

end Holds

/-- A `Write` whose length write fails returns an error after the length in memory has already
counted its bytes; the next `Write` truncates to that length, appends after the failed bytes and
records it. A reload then reads the failed write's bytes between the other two. -/
theorem failed_write_survives_reload (header version : Specifier)
    (asciiHeader : isASCII header.toList) (asciiVersion : isASCII version.toList)
    (b₁ b₂ b₃ : List UInt8) (fits : metadataPageSize + b₁.length + b₂.length + b₃.length < 2 ^ 64) :
    let first := (init header version).write b₁ none
    let second := first.1.write b₂ (some .writeLength)
    let third := second.1.write b₃ none
    first.2.2 = .ok () ∧ second.2.2 = .error .writeLength ∧ third.2.2 = .ok () ∧
      ∃ loaded, load header version third.1.file = .ok (loaded, b₁ ++ b₂ ++ b₃) := by
  have first := (holds_init header version).write b₁ none (by simp; omega)
  have second := first.write b₂ (some .writeLength) (by simp [Appended.write, advances]; omega)
  have third := second.write b₃ none (by simp [Appended.write, advances]; omega)
  obtain ⟨loaded, loads⟩ := third.load asciiHeader asciiVersion
    (by simp [Appended.write, advances]; omega)
  refine ⟨by simp [AppendOnlyPersist.write], by simp [AppendOnlyPersist.write],
    by simp [AppendOnlyPersist.write], loaded, ?_⟩
  simpa [Appended.write, advances, records] using loads

/-- The specifier of `"append"`, zero-padded. -/
def sampleSpecifier : Specifier := #v[97, 112, 112, 101, 110, 100, 0, 0, 0, 0, 0, 0, 0, 0, 0, 0]

theorem sampleSpecifier_failed_write_survives :
    isASCII sampleSpecifier.toList ∧ isASCII sampleSpecifier.toList ∧
      metadataPageSize + [1].length + [2].length + [3].length < 2 ^ 64 ∧
      let first := (init sampleSpecifier sampleSpecifier).write [1] none
      let second := first.1.write [2] (some .writeLength)
      let third := second.1.write [3] none
      first.2.2 = .ok () ∧ second.2.2 = .error .writeLength ∧ third.2.2 = .ok () ∧
        ∃ loaded, load sampleSpecifier sampleSpecifier third.1.file = .ok (loaded, [1] ++ [2] ++ [3]) :=
  ⟨by decide, by decide, by decide,
    failed_write_survives_reload sampleSpecifier sampleSpecifier (by decide) (by decide) [1] [2] [3]
      (by decide)⟩

end Sia.Persist
