import Sia.Lib.ByteFile
import Mathlib.Data.Int.Notation

/-! The on-disk layout of a SiaFile (`modules/renter/filesystem/siafile/persist.go`): the JSON
metadata from offset 0, the public-key table ending at `ChunkOffset`, and the chunks, each
`StaticPagesPerChunk` pages, from `ChunkOffset` on. Saving a header that no longer fits before
`ChunkOffset` moves the chunks back a page at a time. Writes go through the write-ahead log as
insert updates, applied in order; the marshalers are parameters. -/
namespace Sia.Renter

open ByteFile

/-- `pageSize`. -/
def pageSize : ℕ := 4096

/-- The metadata fields the layout depends on; `rest` stands for the others, which the
marshaled metadata also holds. -/
structure Metadata (R : Type) where
  chunkOffset : ℕ
  pubKeyTableOffset : ℤ
  staticPagesPerChunk : ℕ
  rest : R

/-- A write-ahead-log insert update: write the data at the offset. -/
abbrev InsertUpdate := ℕ × List UInt8

/-- `createInsertUpdate`: a negative index is a critical error, and the update writes nothing at
offset 0 instead. -/
def createInsertUpdate (index : ℤ) (data : List UInt8) : InsertUpdate :=
  if index < 0 then (0, []) else (index.toNat, data)

@[simp] theorem createInsertUpdate_natCast (index : ℕ) (data : List UInt8) :
    createInsertUpdate index data = (index, data) := by
  have nonneg : ¬ (index : ℤ) < 0 := Int.not_lt.mpr (Int.natCast_nonneg index)
  simp only [createInsertUpdate, nonneg, if_false, Int.toNat_natCast]

/-- `applyUpdates` for insert updates, in order. -/
def applyUpdates (file : List UInt8) (updates : List InsertUpdate) : List UInt8 :=
  updates.foldl (fun file update => writeAt file update.1 update.2) file

variable {R : Type}

/-- `chunkOffset`. -/
def Metadata.chunkOffsetOf (md : Metadata R) (chunkIndex : ℕ) : ℕ :=
  md.chunkOffset + chunkIndex * md.staticPagesPerChunk * pageSize

/-- `PubKeyTableOffset = ChunkOffset - len(pubKeyTable)`: the key table right before the chunks,
where `saveHeaderUpdates` places it before and after every page it allocates. -/
def Metadata.placeKeyTable (md : Metadata R) (pubKeyTable : List UInt8) : Metadata R :=
  { md with pubKeyTableOffset := md.chunkOffset - pubKeyTable.length }

/-- `saveChunkUpdate`: a marshaled chunk written at its offset. -/
def saveChunkUpdate (md : Metadata R) (chunkIndex : ℕ) (chunkBytes : List UInt8) : InsertUpdate :=
  createInsertUpdate (md.chunkOffsetOf chunkIndex) chunkBytes

/-- `allocateHeaderPage`: the chunk data read from the file as it is on disk now, to be written
back one page further on. -/
def allocateHeaderPage (file : List UInt8) (md : Metadata R) : InsertUpdate × Metadata R :=
  let chunkData := file.drop md.chunkOffset
  let md := { md with chunkOffset := md.chunkOffset + pageSize }
  (createInsertUpdate md.chunkOffset chunkData, md)

variable (marshalMetadata : Metadata R → List UInt8)

/-- The loop of `saveHeaderUpdates`: while the marshaled metadata and the key table overlap the
chunks, allocate another header page and marshal again. The loop reads the file on every
iteration, before any of its updates is applied. `none` is a loop that has not ended within
`fuel` iterations. -/
def allocateHeaderPages (file : List UInt8) (pubKeyTable : List UInt8) :
    ℕ → Metadata R → List InsertUpdate → Option (Metadata R × List InsertUpdate × List UInt8)
  | 0, _, _ => none
  | fuel + 1, md, updates =>
    let metadata := marshalMetadata md
    if metadata.length + pubKeyTable.length > md.chunkOffset then
      let (chunkUpdate, md) := allocateHeaderPage file md
      allocateHeaderPages file pubKeyTable fuel (md.placeKeyTable pubKeyTable)
        (updates ++ [chunkUpdate])
    else some (md, updates, metadata)

/-- `saveHeaderUpdates`: the page moves, then the metadata at offset 0 and the key table right
before the chunks. -/
def saveHeaderUpdates (file : List UInt8) (md : Metadata R) (pubKeyTable : List UInt8)
    (fuel : ℕ) : Option (Metadata R × List InsertUpdate) :=
  (allocateHeaderPages marshalMetadata file pubKeyTable fuel (md.placeKeyTable pubKeyTable) []).map
    fun (md, updates, metadata) =>
      (md, updates ++ [createInsertUpdate 0 metadata,
        createInsertUpdate md.pubKeyTableOffset pubKeyTable])

/-! ### A header that grows by two pages at once -/

/-- When the header outgrows its space by more than a page, the second page allocation reads the
chunks from the old file at the offset the first one moved them to, so after the updates the
chunk region starts with what was a page into the old chunk region: every chunk has moved
forward by a page. -/
theorem saveHeaderUpdates_two_pages_shifts_chunks {file pubKeyTable : List UInt8} {md : Metadata R} {fuel : ℕ}
    (enoughFuel : 3 ≤ fuel) (chunks : md.chunkOffset + pageSize ≤ file.length)
    (first : md.chunkOffset <
      (marshalMetadata (md.placeKeyTable pubKeyTable)).length + pubKeyTable.length)
    (second : md.chunkOffset + pageSize < (marshalMetadata
      ({ md with chunkOffset := md.chunkOffset + pageSize }.placeKeyTable pubKeyTable)).length +
        pubKeyTable.length)
    (third : (marshalMetadata ({ md with chunkOffset := md.chunkOffset + pageSize + pageSize }.placeKeyTable
      pubKeyTable)).length + pubKeyTable.length ≤ md.chunkOffset + pageSize + pageSize) :
    ∃ updates, saveHeaderUpdates marshalMetadata file md pubKeyTable fuel =
        some ({ md with chunkOffset := md.chunkOffset + pageSize + pageSize }.placeKeyTable
          pubKeyTable, updates) ∧
      (applyUpdates file updates).drop (md.chunkOffset + pageSize + pageSize) =
        file.drop (md.chunkOffset + pageSize) := by
  obtain ⟨fuel, rfl⟩ : ∃ rest, fuel = rest + 3 := ⟨fuel - 3, by omega⟩
  refine ⟨[createInsertUpdate ↑(md.chunkOffset + pageSize) (file.drop md.chunkOffset),
    createInsertUpdate ↑(md.chunkOffset + pageSize + pageSize) (file.drop (md.chunkOffset + pageSize)),
    createInsertUpdate 0 (marshalMetadata
      ({ md with chunkOffset := md.chunkOffset + pageSize + pageSize }.placeKeyTable pubKeyTable)),
    createInsertUpdate (↑(md.chunkOffset + pageSize + pageSize) - ↑pubKeyTable.length)
      pubKeyTable], ?_, ?_⟩
  · simp only [Metadata.placeKeyTable] at first second third
    simp only [saveHeaderUpdates, allocateHeaderPages, allocateHeaderPage, Metadata.placeKeyTable,
      gt_iff_lt, first, second, if_true, Nat.not_lt.mpr third, if_false]
    rfl
  · -- each snapshot was read before the earlier move was applied
    have page : 0 < pageSize := by decide
    have keyTable : pubKeyTable.length ≤ md.chunkOffset + pageSize + pageSize := by omega
    have keyTableUpdate : createInsertUpdate (↑(md.chunkOffset + pageSize + pageSize) -
        ↑pubKeyTable.length) pubKeyTable =
          (md.chunkOffset + pageSize + pageSize - pubKeyTable.length, pubKeyTable) := by
      simp only [createInsertUpdate]
      rw [if_neg (by omega)]
      congr 1
      omega
    have firstMove : writeAt file (md.chunkOffset + pageSize) (file.drop md.chunkOffset) =
        file.take (md.chunkOffset + pageSize) ++ file.drop md.chunkOffset := by
      have tail : file.drop (md.chunkOffset + pageSize + (file.drop md.chunkOffset).length) = [] :=
        List.drop_eq_nil_of_le (by simp; omega)
      rw [writeAt_of_le (by omega), tail, List.append_nil]
    have movedLength : (file.take (md.chunkOffset + pageSize) ++ file.drop md.chunkOffset).length =
        file.length + pageSize := by
      simp only [List.length_append, List.length_take, List.length_drop]
      omega
    have secondMove : (writeAt (file.take (md.chunkOffset + pageSize) ++ file.drop md.chunkOffset)
        (md.chunkOffset + pageSize + pageSize) (file.drop (md.chunkOffset + pageSize))).drop
          (md.chunkOffset + pageSize + pageSize) = file.drop (md.chunkOffset + pageSize) :=
      drop_writeAt_self (by rw [movedLength]; omega) (by rw [movedLength]; simp; omega)
    have headerUpdate : createInsertUpdate 0 (marshalMetadata
        ({ md with chunkOffset := md.chunkOffset + pageSize + pageSize }.placeKeyTable pubKeyTable)) =
          (0, marshalMetadata
            ({ md with chunkOffset := md.chunkOffset + pageSize + pageSize }.placeKeyTable
              pubKeyTable)) := by
      simp [createInsertUpdate]
    simp only [applyUpdates, List.foldl_cons, List.foldl_nil, createInsertUpdate_natCast,
      keyTableUpdate, firstMove, headerUpdate]
    -- the header writes end where the chunks now start
    rw [drop_writeAt_of_le (by omega), drop_writeAt_of_le (by simp at third ⊢; omega), secondMove]
/-- A file with one header page and two one-page chunks, of bytes `1` and `2`. -/
def twoChunkFile : List UInt8 :=
  List.replicate 4096 0 ++ List.replicate 4096 1 ++ List.replicate 4096 2

def twoChunkMetadata : Metadata Unit := ⟨4096, 4096, 1, ()⟩

/-- Metadata that marshals to two pages and a byte, wherever the chunks are. -/
def twoPageMarshal (_ : Metadata Unit) : List UInt8 := List.replicate 8193 123

theorem twoChunkFile_shifted :
    3 ≤ 3 ∧ twoChunkMetadata.chunkOffset + pageSize ≤ twoChunkFile.length ∧
      twoChunkMetadata.chunkOffset <
        (twoPageMarshal (twoChunkMetadata.placeKeyTable [])).length + ([] : List UInt8).length ∧
      twoChunkMetadata.chunkOffset + pageSize < (twoPageMarshal
        ({ twoChunkMetadata with chunkOffset := twoChunkMetadata.chunkOffset + pageSize }.placeKeyTable
          [])).length + ([] : List UInt8).length ∧
      (twoPageMarshal ({ twoChunkMetadata with
        chunkOffset := twoChunkMetadata.chunkOffset + pageSize + pageSize }.placeKeyTable
          [])).length + ([] : List UInt8).length ≤ twoChunkMetadata.chunkOffset + pageSize + pageSize ∧
      (∃ updates, saveHeaderUpdates twoPageMarshal twoChunkFile twoChunkMetadata [] 3 =
          some ({ twoChunkMetadata with
            chunkOffset := twoChunkMetadata.chunkOffset + pageSize + pageSize }.placeKeyTable [],
              updates) ∧
        (applyUpdates twoChunkFile updates).drop
            (twoChunkMetadata.chunkOffset + pageSize + pageSize) =
          twoChunkFile.drop (twoChunkMetadata.chunkOffset + pageSize)) ∧
      twoChunkFile.drop (twoChunkMetadata.chunkOffset + pageSize) ≠
        twoChunkFile.drop twoChunkMetadata.chunkOffset := by
  have fileLength : twoChunkFile.length = 12288 := by
    simp only [twoChunkFile, List.length_append, List.length_replicate]
  have marshaled : ∀ md, (twoPageMarshal md).length = 8193 := fun md => by
    simp only [twoPageMarshal, List.length_replicate]
  have offsets : twoChunkMetadata.chunkOffset = 4096 := rfl
  have page : pageSize = 4096 := rfl
  refine ⟨Nat.le_refl 3, by omega, by simp only [marshaled, List.length_nil]; omega, by simp only [marshaled, List.length_nil]; omega,
    by simp only [marshaled, List.length_nil]; omega,
    saveHeaderUpdates_two_pages_shifts_chunks twoPageMarshal (Nat.le_refl 3) (by omega)
      (by simp only [marshaled, List.length_nil]; omega) (by simp only [marshaled, List.length_nil]; omega)
      (by simp only [marshaled, List.length_nil]; omega), ?_⟩
  intro same
  have lengths := congrArg List.length same
  simp only [List.length_drop, fileLength, offsets, page] at lengths
  omega

end Sia.Renter
