import Sia.Renter.SiaFile
import Sia.Types.Decoding
import Sia.Lib.Except

/-! The chunks of a SiaFile (`modules/renter/filesystem/siafile/encoding.go`): the binary record
of one chunk, its extension info, stuck flag and pieces behind a `uint16` count, each piece
tagged with the index of its piece set; and the decoder that regroups the records by index
while reading a chunk's zero-padded pages. A Merkle root is written and read through
`HashBytes` and `HashRead`. -/
namespace Sia.Renter

open Bytes

variable {H : Type}

/-- `piece`: the host's offset in the public-key table and the Merkle root of the piece (the
exported `Piece` names the host by its key instead). -/
structure StoredPiece (H : Type) where
  hostTableOffset : UInt32
  merkleRoot : H
  deriving DecidableEq, Repr

/-- The fields of `chunk` that `marshalChunk` writes; `Index` is the chunk's place in the file. -/
structure Chunk (H : Type) where
  extensionInfo : Vector UInt8 16
  pieces : List (List (StoredPiece H))
  stuck : Bool
  deriving DecidableEq, Repr

/-- `marshaledPieceSize`: the piece index, the table offset and the hash. -/
def marshaledPieceSize : ℕ := 4 + 4 + 32

/-- `marshaledChunkOverhead`: the extension info, the count prefix and the stuck byte. -/
def marshaledChunkOverhead : ℕ := 16 + 2 + 1

def marshaledChunkSize (numPieces : ℕ) : ℕ :=
  marshaledChunkOverhead + marshaledPieceSize * numPieces

/-- `chunk.numPieces`: the pieces of all piece sets. -/
def Chunk.numPieces (c : Chunk H) : ℕ := (c.pieces.map List.length).sum

/-- The pieces in the order `marshalChunk` writes them, each with the index of its set. -/
def Chunk.records (c : Chunk H) : List (ℕ × StoredPiece H) :=
  c.pieces.zipIdx.flatMap fun (pieceSet, pieceIndex) => pieceSet.map (pieceIndex, ·)

section Marshal

variable [HashBytes H]

/-- `putPiece`. -/
def putPiece (pieceIndex : UInt32) (p : StoredPiece H) : List UInt8 :=
  leBytes 4 pieceIndex.toNat ++ leBytes 4 p.hostTableOffset.toNat ++ HashBytes.bytes p.merkleRoot

/-- `marshalChunk`. The buffer is allocated at `marshaledChunkSize` and every `buf.Next` hands out
the next bytes of it, so what is written is the fields one after the other. -/
def marshalChunk (c : Chunk H) : List UInt8 :=
  c.extensionInfo.toList ++ [if c.stuck then 1 else 0] ++ leBytes 2 c.numPieces ++
    c.records.flatMap fun (pieceIndex, p) => putPiece (UInt32.ofNat pieceIndex) p

end Marshal

/-- The errors of `unmarshalChunk`, with the texts of the source; `eof` and `unexpectedEOF` are
what `io.ReadFull` returns on an empty and on a short buffer. -/
inductive ChunkError where
  | eof
  | unexpectedEOF
  | message (text : String)
  | withContext (err : ChunkError) (context : String)
  deriving DecidableEq, Repr

section Unmarshal

variable [HashBytes H] [HashRead H]

/-- `unmarshalPiece`. -/
def unmarshalPiece (raw : List UInt8) : Except ChunkError (UInt32 × StoredPiece H) :=
  if raw.length ≠ marshaledPieceSize then
    .error (.message ("unexpected piece size, should be " ++ toString marshaledPieceSize ++
      " but was " ++ toString raw.length))
  else
    .ok (UInt32.ofNat (leValue (raw.take 4)),
      ⟨UInt32.ofNat (leValue ((raw.drop 4).take 4)), HashRead.ofBytes (raw.drop 8)⟩)

/-- The loop of `unmarshalChunk`: `toLoad` more records from the buffer, each appended to the
piece set it names. -/
def loadPieces (numPieces : UInt32) :
    ℕ → List UInt8 → List (List (StoredPiece H)) → Except ChunkError (List (List (StoredPiece H)))
  | 0, _, pieces => .ok pieces
  | toLoad + 1, buf, pieces => do
    let (pieceIndex, p) ← unmarshalPiece (buf.take marshaledPieceSize)
    if pieceIndex ≥ numPieces then
      .error (.message ("unexpected piece index, should be below " ++ toString numPieces ++
        " but was " ++ toString pieceIndex))
    else
      loadPieces numPieces toLoad (buf.drop marshaledPieceSize)
        (pieces.modify pieceIndex.toNat (· ++ [p]))

/-- `unmarshalChunk`. Reading the stuck byte of an exhausted buffer indexes an empty slice,
which panics (`none`). -/
def unmarshalChunk (numPieces : UInt32) (raw : List UInt8) : Option (Except ChunkError (Chunk H)) :=
  if raw.length < 16 then
    some (.error (.withContext (if raw = [] then .eof else .unexpectedEOF)
      "failed to unmarshal ExtensionInfo"))
  else
    match raw.drop 16 with
    | [] => none
    | stuckByte :: buf =>
      if (buf.take 2).length ≠ 2 then some (.error (.message "length prefix missing"))
      else
        some ((loadPieces numPieces (leValue (buf.take 2)) (buf.drop 2)
            (List.replicate numPieces.toNat [])).map fun pieces =>
          ⟨copyBytes 16 raw, pieces, stuckByte == 1⟩)

end Unmarshal

/-! ### The chunk codec round trip -/

theorem length_records (c : Chunk H) : c.records.length = c.numPieces := by
  suffices general : ∀ (sets : List (List (StoredPiece H))) (start : ℕ),
      ((sets.zipIdx start).flatMap fun (pieceSet, pieceIndex) => pieceSet.map (pieceIndex, ·)).length =
        (sets.map List.length).sum from general c.pieces 0
  intro sets
  induction sets with
  | nil => simp
  | cons pieceSet rest ih =>
    intro start
    simp [List.zipIdx_cons, ih]

theorem modify_append_length {α : Type} (pre : List α) (a : α) (rest : List α) (f : α → α) :
    (pre ++ a :: rest).modify pre.length f = pre ++ f a :: rest := by
  induction pre with
  | nil => simp
  | cons b pre ih => simp [ih]

/-- The records of one set all land in that set. -/
theorem foldl_setRecords (pre mid : List (List (StoredPiece H))) (done pieceSet : List (StoredPiece H)) :
    (pieceSet.map (pre.length, ·)).foldl
        (fun acc (record : ℕ × StoredPiece H) => acc.modify record.1 (· ++ [record.2]))
        (pre ++ done :: mid) = pre ++ (done ++ pieceSet) :: mid := by
  induction pieceSet generalizing done with
  | nil => simp
  | cons p ps ih =>
    rw [List.map_cons, List.foldl_cons, modify_append_length]
    simpa using ih (done ++ [p])

/-- Appending each record to the set it names fills the sets in order: after the records of
`sets`, numbered from `pre.length`, every set of `mid` has its records appended. -/
theorem foldl_records (sets : List (List (StoredPiece H))) (pre mid : List (List (StoredPiece H)))
    (sized : mid.length = sets.length) :
    ((sets.zipIdx pre.length).flatMap fun (pieceSet, pieceIndex) =>
        pieceSet.map (pieceIndex, ·)).foldl (fun acc (record : ℕ × StoredPiece H) =>
          acc.modify record.1 (· ++ [record.2])) (pre ++ mid) =
      pre ++ List.zipWith (· ++ ·) mid sets := by
  induction sets generalizing pre mid with
  | nil =>
    rw [List.length_nil, List.length_eq_zero_iff] at sized
    simp [sized]
  | cons pieceSet rest ih =>
    obtain ⟨first, mid, rfl⟩ : ∃ first tail, mid = first :: tail :=
      List.exists_cons_of_length_eq_add_one sized
    have next := ih (pre ++ [first ++ pieceSet]) mid (by simpa using sized)
    rw [List.length_append, List.length_singleton] at next
    rw [List.zipIdx_cons, List.flatMap_cons, List.foldl_append, foldl_setRecords]
    simpa using next

theorem records_lt {c : Chunk H} {record : ℕ × StoredPiece H} (member : record ∈ c.records) :
    record.1 < c.pieces.length := by
  obtain ⟨⟨pieceSet, pieceIndex⟩, inSets, inSet⟩ := List.mem_flatMap.mp member
  obtain ⟨p, -, rfl⟩ := List.mem_map.mp inSet
  simpa using List.snd_lt_of_mem_zipIdx inSets

/-- Decoding the records regroups them: `toLoad` records read back from what the loop
appends. -/
theorem records_regroup (c : Chunk H) :
    c.records.foldl (fun acc (record : ℕ × StoredPiece H) => acc.modify record.1 (· ++ [record.2]))
      (List.replicate c.pieces.length []) = c.pieces := by
  have filled := foldl_records c.pieces [] (List.replicate c.pieces.length []) (by simp)
  simp only [List.length_nil, List.nil_append] at filled
  rw [Chunk.records, filled]
  apply List.ext_getElem (by simp)
  intro i inside _
  simp

theorem ofNat_leValue_leBytes_uint32 (x : UInt32) :
    UInt32.ofNat (leValue (leBytes 4 x.toNat)) = x := by
  rw [leValue_leBytes, Nat.mod_eq_of_lt (by simpa using x.toNat_lt), UInt32.ofNat_toNat]

section Codec

variable [HashBytes H]

@[simp] theorem length_putPiece (pieceIndex : UInt32) (p : StoredPiece H) :
    (putPiece pieceIndex p).length = marshaledPieceSize := by
  simp [putPiece, HashBytes.length_bytes, marshaledPieceSize]

variable [HashRead H]

theorem unmarshalPiece_putPiece (pieceIndex : UInt32) (p : StoredPiece H) :
    unmarshalPiece (putPiece pieceIndex p) = .ok (pieceIndex, p) := by
  have index : (putPiece pieceIndex p).take 4 = leBytes 4 pieceIndex.toNat := by
    simp [putPiece]
  have offset : ((putPiece pieceIndex p).drop 4).take 4 = leBytes 4 p.hostTableOffset.toNat := by
    simp [putPiece]
  have root : (putPiece pieceIndex p).drop 8 = HashBytes.bytes p.merkleRoot := by
    simp [putPiece, List.drop_append]
  rw [unmarshalPiece, if_neg (by simp), index, offset, root, ofNat_leValue_leBytes_uint32,
    ofNat_leValue_leBytes_uint32, HashRead.ofBytes_bytes]

/-- The loop reads back every record written, appending each to its set. -/
theorem loadPieces_records (numPieces : UInt32) (records : List (ℕ × StoredPiece H))
    (inRange : ∀ record ∈ records, record.1 < numPieces.toNat) (rest : List UInt8)
    (acc : List (List (StoredPiece H))) :
    loadPieces numPieces records.length
        ((records.flatMap fun (pieceIndex, p) => putPiece (UInt32.ofNat pieceIndex) p) ++ rest) acc =
      .ok (records.foldl (fun acc (record : ℕ × StoredPiece H) => acc.modify record.1 (· ++ [record.2]))
        acc) := by
  induction records generalizing acc with
  | nil => rfl
  | cons record records ih =>
    obtain ⟨pieceIndex, p⟩ := record
    have small : pieceIndex < numPieces.toNat := inRange _ List.mem_cons_self
    have index : (UInt32.ofNat pieceIndex).toNat = pieceIndex :=
      UInt32.toNat_ofNat_of_lt' (lt_of_lt_of_le small (UInt32.toNat_lt numPieces).le)
    have inside : ¬ UInt32.ofNat pieceIndex ≥ numPieces := by
      rw [ge_iff_le, UInt32.le_iff_toNat_le, index]
      omega
    have split : (List.flatMap (fun (record : ℕ × StoredPiece H) => putPiece (UInt32.ofNat record.1)
        record.2) ((pieceIndex, p) :: records) ++ rest) = putPiece (UInt32.ofNat pieceIndex) p ++
        ((records.flatMap fun (record : ℕ × StoredPiece H) => putPiece (UInt32.ofNat record.1)
          record.2) ++ rest) := by
      simp
    rw [List.length_cons, loadPieces, split, List.take_left' (length_putPiece _ _),
      List.drop_left' (length_putPiece _ _), unmarshalPiece_putPiece]
    simp only [Except.ok_bind, if_neg inside, index, List.foldl_cons]
    exact ih (fun r member => inRange r (List.mem_cons_of_mem _ member)) _

omit [HashRead H] in
theorem length_marshalChunk (c : Chunk H) :
    (marshalChunk c).length = marshaledChunkSize c.numPieces := by
  simp only [marshalChunk, List.length_append, Vector.length_toList, List.length_singleton,
    length_leBytes, List.length_flatMap, length_putPiece, List.map_const', List.sum_replicate_nat,
    length_records, marshaledChunkSize, marshaledChunkOverhead, marshaledPieceSize]
  omega

/-- The chunk comes back from its record followed by anything at all: the decoder reads the
header and exactly as many records as the count says. -/
theorem unmarshalChunk_marshalChunk (c : Chunk H) (numPieces : UInt32)
    (sets : c.pieces.length = numPieces.toNat) (count : c.numPieces < 2 ^ 16)
    (padding : List UInt8) :
    unmarshalChunk numPieces (marshalChunk c ++ padding) = some (.ok c) := by
  set records := c.records.flatMap fun (pieceIndex, p) => putPiece (UInt32.ofNat pieceIndex) p
  have header : marshalChunk c ++ padding = c.extensionInfo.toList ++
      (if c.stuck then 1 else 0) :: (leBytes 2 c.numPieces ++ (records ++ padding)) := by
    simp [marshalChunk, records]
  have body : (marshalChunk c ++ padding).drop 16 =
      (if c.stuck then 1 else 0) :: (leBytes 2 c.numPieces ++ (records ++ padding)) := by
    rw [header, List.drop_left' Vector.length_toList]
  have long : ¬ (marshalChunk c ++ padding).length < 16 := by
    rw [header]
    simp
  have extension : copyBytes 16 (marshalChunk c ++ padding) = c.extensionInfo := by
    apply Vector.toList_inj.mp
    rw [toList_copyBytes, header, List.take_left' Vector.length_toList]
    simp
  have prefixed : leValue (leBytes 2 c.numPieces) = c.numPieces := by
    rw [leValue_leBytes, Nat.mod_eq_of_lt (by simpa using count)]
  have loaded := loadPieces_records numPieces c.records
    (fun record member => sets ▸ records_lt member) padding (List.replicate numPieces.toNat [])
  rw [← sets, records_regroup, length_records] at loaded
  rw [unmarshalChunk, if_neg long, body]
  simp only [List.take_left' (length_leBytes 2 _), List.drop_left' (length_leBytes 2 _),
    length_leBytes, ne_eq, not_true_eq_false, if_false, prefixed]
  have stuckByte : ((if c.stuck then 1 else 0 : UInt8) == 1) = c.stuck := by
    cases c.stuck <;> rfl
  rw [← sets, loaded, extension]
  simp only [Except.map, stuckByte]

/-- A chunk read back from its pages: the record, zero-padded to the pages, decodes to the chunk,
and the record has the size the page count is reserved for. -/
theorem chunk_codec_round_trip (c : Chunk H) (numPieces : UInt32) (pagesPerChunk : ℕ)
    (sets : c.pieces.length = numPieces.toNat) (count : c.numPieces ≤ 65535) :
    unmarshalChunk numPieces (marshalChunk c ++
        List.replicate (pagesPerChunk * pageSize - (marshalChunk c).length) 0) = some (.ok c) ∧
      (marshalChunk c).length = marshaledChunkSize c.numPieces :=
  ⟨unmarshalChunk_marshalChunk c numPieces sets (by omega) _, length_marshalChunk c⟩

end Codec

/-- A chunk of two piece sets, one piece uploaded, on one page. -/
def sampleChunk : Chunk (Vector UInt8 32) :=
  ⟨Vector.replicate 16 0, [[⟨0, Vector.replicate 32 7⟩], []], true⟩

theorem sampleChunk_round_trip :
    sampleChunk.pieces.length = (2 : UInt32).toNat ∧ sampleChunk.numPieces ≤ 65535 ∧
      (unmarshalChunk 2 (marshalChunk sampleChunk ++
          List.replicate (1 * pageSize - (marshalChunk sampleChunk).length) 0) =
        some (.ok sampleChunk) ∧
      (marshalChunk sampleChunk).length = marshaledChunkSize sampleChunk.numPieces) :=
  have sets : sampleChunk.pieces.length = (2 : UInt32).toNat := by decide
  have count : sampleChunk.numPieces ≤ 65535 := by decide
  ⟨sets, count, chunk_codec_round_trip sampleChunk 2 1 sets count⟩

end Sia.Renter
