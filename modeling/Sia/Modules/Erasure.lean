import Sia.Lib.Stripes
import Sia.Lib.OptionLoop

/-! `modules/erasure.go`: the Reed-Solomon erasure coders over the klauspost/reedsolomon library.
`RSCode` encodes a chunk as `MinPieces()` data pieces and parity pieces. `RSSubCode` flattens its
data pieces and encodes every `staticSegmentSize * MinPieces()` bytes as a stripe of its own, so
that each segment of the pieces decodes alone. The library is not part of the repository: it is
the parameter `Encoder`, and what the coders rely on is `Encoder.Lawful` (`Split` cuts data into
equal shards, `Encode` keeps the data shards and adds parity shards, `Reconstruct` rebuilds a
codeword from any `d` of its `d + p` shards, `Join` writes the data shards' first bytes). Go
changes the pieces in place and writes to an `io.Writer`; the model returns the pieces and what
the writer holds. A slice's capacity is taken to be its length, and indexing past it panics, which
the model returns as `none`. -/
namespace Sia.Modules

open Stripes

/-- The errors of the coders, with the values their messages format. -/
inductive ErasureError (ε : Type) where
  /-- Returned as "invalid number of pieces given %v < %v". -/
  | invalidNumberOfPieces (given min : ℕ)
  /-- Returned as "not enough segments expected %v but was %v". -/
  | notEnoughSegments (expected was : ℕ)
  /-- Returned as "pieceSize not divisible by segmentSize". -/
  | pieceSizeNotDivisible
  /-- Returned as "pieces don't have right size expected %v but was %v". -/
  | wrongPieceSize (expected was : ℕ)
  /-- Returned as "expected pieces to have len %v but was %v". -/
  | wrongPieceCount (expected was : ℕ)
  /-- An error of the library, passed on. -/
  | library (e : ε)

/-- The methods of klauspost/reedsolomon's `Encoder` that the coders call. Each returns the shards
it leaves behind where the library changes them in place; `join` returns what it writes. -/
structure Encoder (ε : Type) where
  dataShards : ℕ
  parityShards : ℕ
  split : List UInt8 → Except ε (List (List UInt8))
  encode : List (List UInt8) → Except ε (List (List UInt8))
  reconstruct : List (List UInt8) → Except ε (List (List UInt8))
  reconstructData : List (List UInt8) → Except ε (List (List UInt8))
  join : List (List UInt8) → ℕ → Except ε (List UInt8)

namespace Encoder

variable {ε : Type} (enc : Encoder ε)

/-- The library's behaviour on shards of `s > 0` bytes that the coders rely on. `Split` of `d`
shards' worth of data gives those shards and `p` padding shards; `Encode` keeps the data shards
and writes `p` parity shards; `Reconstruct` rebuilds a codeword from any `d` of its shards, and
`ReconstructData` at least its data shards; `Join` writes the data shards' first bytes. -/
structure Lawful : Prop where
  split_eq : ∀ {s : ℕ} {data : List UInt8}, 0 < s → data.length = enc.dataShards * s →
    ∃ pad, Uniform enc.parityShards s pad ∧
      enc.split data = .ok (chunks s enc.dataShards data ++ pad)
  encode_eq : ∀ {s : ℕ} {ds pad : List (List UInt8)}, 0 < s → Uniform enc.dataShards s ds →
    Uniform enc.parityShards s pad →
    ∃ par, Uniform enc.parityShards s par ∧ enc.encode (ds ++ pad) = .ok (ds ++ par)
  reconstruct_eq : ∀ {s : ℕ} {ds pad cw : List (List UInt8)} {present : List Bool}, 0 < s →
    Uniform enc.dataShards s ds → Uniform enc.parityShards s pad → enc.encode (ds ++ pad) = .ok cw →
    present.length = enc.dataShards + enc.parityShards → enc.dataShards ≤ present.count true →
    enc.reconstruct (mask present cw) = .ok cw
  reconstructData_eq : ∀ {s : ℕ} {ds pad cw : List (List UInt8)} {present : List Bool}, 0 < s →
    Uniform enc.dataShards s ds → Uniform enc.parityShards s pad → enc.encode (ds ++ pad) = .ok cw →
    present.length = enc.dataShards + enc.parityShards → enc.dataShards ≤ present.count true →
    ∃ rest, enc.reconstructData (mask present cw) = .ok (ds ++ rest)
  join_eq : ∀ {s n : ℕ} {ds rest : List (List UInt8)}, 0 < s → Uniform enc.dataShards s ds →
    n ≤ enc.dataShards * s → enc.join (ds ++ rest) n = .ok (ds.flatten.take n)

end Encoder

/-- `RSCode`: the encoder and the piece counts that `newRSCode` takes from
`reedsolomon.New(nData, nParity)`, which refuses fewer than one data shard. -/
structure RSCode (ε : Type) where
  enc : Encoder ε
  numPieces : ℕ
  dataPieces : ℕ
  numPieces_eq : numPieces = enc.dataShards + enc.parityShards
  dataPieces_eq : dataPieces = enc.dataShards
  dataPieces_pos : 0 < dataPieces

/-- `for i, segment := range encodedSegments { pieces[i] = append(pieces[i], segment...) }`: the
loop runs over the segments, and a segment past the last piece panics. -/
def appendSegments : List (List UInt8) → List (List UInt8) → Option (List (List UInt8))
  | pieces, [] => some pieces
  | [], _ :: _ => none
  | piece :: pieces, shard :: shards =>
    (appendSegments pieces shards).map ((piece ++ shard) :: ·)

/-- `for i := range pieces { pieces[i] = append(pieces[i], segment[i]...) }`: the loop runs over
the pieces, and a piece past the last segment panics. -/
def appendEach : List (List UInt8) → List (List UInt8) → Option (List (List UInt8))
  | [], _ => some []
  | _ :: _, [] => none
  | piece :: pieces, shard :: shards =>
    (appendEach pieces shards).map ((piece ++ shard) :: ·)

/-- `data := make([]byte, len(pieces)*pieceSize)`, then `copy(data[i*pieceSize:], piece)` for
each piece in turn. -/
def flattenPieces (pieceSize : ℕ) (pieces : List (List UInt8)) : List UInt8 :=
  pieces.zipIdx.foldl (fun data (piece, i) => copyAt data (i * pieceSize) piece)
    (List.replicate (pieces.length * pieceSize) 0)

/-- The length of the first piece that is set, as the loop at the start of `Reconstruct` and of
`Recover` finds it; 0 when none is. -/
def firstPieceSize (pieces : List (List UInt8)) : ℕ :=
  ((pieces.find? fun piece => 0 < piece.length).map List.length).getD 0

namespace RSCode

variable {ε : Type} (rs : RSCode ε)

def minPieces : ℕ := rs.dataPieces

/-- `EncodeShards`: zero pieces of the first piece's length are added up to `NumPieces()`, and the
library encodes them. -/
def encodeShards (pieces : List (List UInt8)) : Except (ErasureError ε) (List (List UInt8)) :=
  if short : pieces.length < rs.minPieces then
    .error (.invalidNumberOfPieces pieces.length rs.minPieces)
  else
    have nonempty : 0 < pieces.length := by
      have := rs.dataPieces_pos
      simp only [minPieces] at short
      omega
    let pieceSize := pieces[0].length
    let pieces := pieces ++ List.replicate (rs.numPieces - pieces.length) (List.replicate pieceSize 0)
    (rs.enc.encode pieces).mapError .library

def encode (data : List UInt8) : Except (ErasureError ε) (List (List UInt8)) := do
  let pieces ← (rs.enc.split data).mapError .library
  rs.encodeShards pieces

def reconstruct (pieces : List (List UInt8)) : Except (ErasureError ε) (List (List UInt8)) :=
  (rs.enc.reconstruct pieces).mapError .library

/-- `Recover`: what it writes to `w`, `Join` writing only once the data shards are rebuilt. -/
def recover (pieces : List (List UInt8)) (n : ℕ) : Except (ErasureError ε) (List UInt8) := do
  let pieces ← (rs.enc.reconstructData pieces).mapError .library
  (rs.enc.join pieces n).mapError .library

end RSCode

/-- `RSSubCode`: an `RSCode` whose every `staticSegmentSize` bytes of encoded data decode alone.
`NewRSSubCode` accepts the segment size 64 only. -/
structure RSSubCode (ε : Type) extends RSCode ε where
  staticSegmentSize : ℕ
  staticSegmentSize_eq : staticSegmentSize = 64

namespace RSSubCode

variable {ε : Type}

/-- The loop of `EncodeShards` over a `bytes.Buffer` of the data: the next
`staticSegmentSize * MinPieces()` bytes are encoded as one stripe, and its shards are appended to
the pieces in turn. -/
def encodeStripes (rs : RSSubCode ε) (data : List UInt8) (pieces : List (List UInt8)) :
    Option (Except (ErasureError ε) (List (List UInt8))) :=
  if 0 < data.length then
    -- s := buf.Next(int(rs.staticSegmentSize) * rs.MinPieces()), encoded by rs.RSCode.Encode
    match rs.toRSCode.encode (data.take (rs.staticSegmentSize * rs.minPieces)) with
    | .error e => some (.error e)
    | .ok encodedSegments =>
      match appendSegments pieces encodedSegments with
      | none => none
      | some pieces => rs.encodeStripes (data.drop (rs.staticSegmentSize * rs.minPieces)) pieces
  else some (.ok pieces)
termination_by data.length
decreasing_by
  have := rs.dataPieces_pos
  simp only [List.length_drop, RSCode.minPieces, rs.staticSegmentSize_eq]
  omega

/-- `EncodeShards`: the pieces are checked and flattened, then encoded stripe by stripe into the
pieces, emptied for the purpose, and parity pieces after them. -/
def encodeShards (rs : RSSubCode ε) (pieces : List (List UInt8)) :
    Option (Except (ErasureError ε) (List (List UInt8))) :=
  if wrong : pieces.length ≠ rs.minPieces then
    some (.error (.notEnoughSegments rs.minPieces pieces.length))
  else
    have nonempty : 0 < pieces.length := by
      have := rs.dataPieces_pos
      simp only [RSCode.minPieces, ne_eq, not_not] at wrong
      omega
    let pieceSize := pieces[0].length
    if pieceSize % rs.staticSegmentSize ≠ 0 then some (.error .pieceSizeNotDivisible)
    else
      match pieces.find? (fun piece => piece.length ≠ pieceSize) with
      | some piece => some (.error (.wrongPieceSize pieceSize piece.length))
      | none =>
        -- pieces[i] = pieces[i][:0], and make([][]byte, rs.NumPieces()-len(pieces)) appended
        rs.encodeStripes (flattenPieces pieceSize pieces)
          (pieces.map (fun _ => []) ++ List.replicate (rs.numPieces - pieces.length) [])

/-- `Encode`: the library splits the data, and the first `MinPieces()` pieces are encoded. -/
def encode (rs : RSSubCode ε) (data : List UInt8) :
    Option (Except (ErasureError ε) (List (List UInt8))) :=
  match rs.enc.split data with
  | .error e => some (.error (.library e))
  | .ok pieces =>
    if rs.minPieces ≤ pieces.length then rs.encodeShards (pieces.take rs.minPieces) else none

/-- `piece[off:off+staticSegmentSize]` in `Recover`, or empty for a piece too short to hold it. -/
def readSegment (rs : RSSubCode ε) (segmentIndex : ℕ) (piece : List UInt8) : List UInt8 :=
  if segmentIndex * rs.staticSegmentSize + rs.staticSegmentSize ≤ piece.length then
    Stripes.segment rs.staticSegmentSize segmentIndex piece
  else []

/-- Segment `segmentIndex` of a piece in `Reconstruct`: empty for a piece that was passed empty
(`isNil`), and otherwise `piece[off:][:staticSegmentSize]`. That slice reads past the piece,
truncated and refilled up to `off`, into its backing array, where the piece's own bytes from `off`
on are untouched; it panics past the end of the array. -/
def reconstructSegment (rs : RSSubCode ε) (segmentIndex : ℕ) (piece : List UInt8) :
    Option (List UInt8) :=
  if piece.length = 0 then some []
  else if segmentIndex * rs.staticSegmentSize + rs.staticSegmentSize ≤ piece.length then
    some (Stripes.segment rs.staticSegmentSize segmentIndex piece)
  else none

/-- The loop of `Reconstruct` over the segment indices: the library rebuilds each stripe, and its
shards are appended to the pieces. -/
def reconstructSegments (rs : RSSubCode ε) (original : List (List UInt8)) :
    List ℕ → List (List UInt8) → Option (List (List UInt8) × Except (ErasureError ε) Unit)
  | [], pieces => some (pieces, .ok ())
  | segmentIndex :: rest, pieces =>
    match original.mapM (rs.reconstructSegment segmentIndex) with
    | none => none
    | some stripe =>
      match rs.toRSCode.reconstruct stripe with
      | .error e => some (pieces, .error e)
      | .ok stripe =>
        match appendEach pieces stripe with
        | none => none
        | some pieces => rs.reconstructSegments original rest pieces

/-- `Reconstruct`: the pieces it leaves, and its result. -/
def reconstruct (rs : RSSubCode ε) (pieces : List (List UInt8)) :
    Option (List (List UInt8) × Except (ErasureError ε) Unit) :=
  if pieces.length ≠ rs.numPieces then
    some (pieces, .error (.wrongPieceCount rs.numPieces pieces.length))
  else
    let pieceSize := firstPieceSize pieces
    if pieceSize % rs.staticSegmentSize ≠ 0 then some (pieces, .error .pieceSizeNotDivisible)
    else
      -- pieces[i] = pieces[i][:0]
      rs.reconstructSegments pieces (List.range (pieceSize / rs.staticSegmentSize))
        (pieces.map fun _ => [])

/-- The loop of `Recover` over the segment indices while bytes remain: the library decodes each
stripe and writes at most `decodedSegmentSize` bytes of it to `w`. -/
def recoverSegments (rs : RSSubCode ε) (pieces : List (List UInt8)) :
    List ℕ → ℕ → ℕ → List UInt8 → List UInt8 × Except (ErasureError ε) Unit
  | [], _, _, w => (w, .ok ())
  | segmentIndex :: rest, n, decodedSegmentSize, w =>
    if 0 < n then
      let decodedSegmentSize := if n < decodedSegmentSize then n else decodedSegmentSize
      match rs.toRSCode.recover (pieces.map (rs.readSegment segmentIndex)) decodedSegmentSize with
      | .error e => (w, .error e)
      | .ok written =>
        rs.recoverSegments pieces rest (n - decodedSegmentSize) decodedSegmentSize (w ++ written)
    else (w, .ok ())

/-- `Recover`: what `w` holds afterwards, and its result. -/
def recover (rs : RSSubCode ε) (pieces : List (List UInt8)) (n : ℕ) (w : List UInt8) :
    List UInt8 × Except (ErasureError ε) Unit :=
  if pieces.length ≠ rs.numPieces then (w, .error (.wrongPieceCount rs.numPieces pieces.length))
  else
    let pieceSize := firstPieceSize pieces
    if pieceSize % rs.staticSegmentSize ≠ 0 then (w, .error .pieceSizeNotDivisible)
    else
      rs.recoverSegments pieces (List.range (pieceSize / rs.staticSegmentSize)) n
        (rs.staticSegmentSize * rs.minPieces) w

end RSSubCode

/-! ### One stripe -/

theorem appendSegments_eq : ∀ {pieces segments : List (List UInt8)},
    pieces.length = segments.length →
      appendSegments pieces segments = some (List.zipWith (· ++ ·) pieces segments)
  | [], [], _ => rfl
  | [], _ :: _, len => by simp at len
  | _ :: _, [], len => by simp at len
  | piece :: pieces, shard :: shards, len => by
    rw [appendSegments, appendSegments_eq (by simpa using len)]
    rfl

theorem appendEach_eq : ∀ {pieces segments : List (List UInt8)},
    pieces.length = segments.length →
      appendEach pieces segments = some (List.zipWith (· ++ ·) pieces segments)
  | [], [], _ => rfl
  | [], _ :: _, len => by simp at len
  | _ :: _, [], len => by simp at len
  | piece :: pieces, shard :: shards, len => by
    rw [appendEach, appendEach_eq (by simpa using len)]
    rfl

theorem flattenPieces_eq {pieceSize : ℕ} {pieces : List (List UInt8)}
    (equal : ∀ piece ∈ pieces, piece.length = pieceSize) :
    flattenPieces pieceSize pieces = pieces.flatten := by
  have copied := foldl_copyAt_zipIdx (z := (0 : UInt8)) equal
    (show ([] : List UInt8).length = 0 * pieceSize by simp)
  simpa [flattenPieces] using copied

/-- With every piece empty or `len` long, and one of them `len` long unless `len` is 0, the first
piece that is set is `len` long. -/
theorem firstPieceSize_eq {pieces : List (List UInt8)} {len : ℕ}
    (sizes : ∀ piece ∈ pieces, piece = [] ∨ piece.length = len)
    (someSet : len = 0 ∨ ∃ piece ∈ pieces, piece.length = len) : firstPieceSize pieces = len := by
  cases found : pieces.find? (fun piece => 0 < piece.length) with
  | none =>
    -- no piece is set, so `len` is 0
    have unset := List.find?_eq_none.mp found
    rcases someSet with zero | ⟨piece, mem, sized⟩
    · simp [firstPieceSize, found, zero]
    · have empty := unset piece mem
      simp only [decide_eq_true_eq] at empty
      simp only [firstPieceSize, found, Option.map_none, Option.getD_none]
      omega
  | some piece =>
    have set := List.find?_some found
    rcases sizes piece (List.mem_of_find?_eq_some found) with rfl | sized
    · simp at set
    · simp [firstPieceSize, found, sized]

namespace RSCode

variable {ε : Type} {rs : RSCode ε}

theorem minPieces_eq (rs : RSCode ε) : rs.minPieces = rs.enc.dataShards := rs.dataPieces_eq

/-- `row` is the codeword the library gives the chunks of `stripe`, padded as `Split` pads them. -/
def Codeword (rs : RSCode ε) (s : ℕ) (stripe : List UInt8) (row : List (List UInt8)) : Prop :=
  ∃ pad, Uniform rs.enc.parityShards s pad ∧
    rs.enc.encode (chunks s rs.enc.dataShards stripe ++ pad) = .ok row

section Lawful

variable (lawful : rs.enc.Lawful) {s : ℕ} (pos : 0 < s) {stripe : List UInt8}
  (len : stripe.length = rs.minPieces * s)

include lawful pos len in
/-- `Encode` of `d` segments' worth of data gives the codeword of its chunks. -/
theorem encode_stripe : ∃ row, rs.encode stripe = .ok row ∧ rs.Codeword s stripe row := by
  rw [minPieces_eq] at len
  obtain ⟨pad, padded, split⟩ := lawful.split_eq pos len
  have data := uniform_chunks len
  obtain ⟨par, -, encoded⟩ := lawful.encode_eq pos data padded
  refine ⟨_, ?_, pad, padded, encoded⟩
  -- `Split` gives all `d + p` shards, so `EncodeShards` adds none
  have shards : (chunks s rs.enc.dataShards stripe ++ pad).length = rs.numPieces := by
    rw [List.length_append, data.1, padded.1, rs.numPieces_eq]
  have fits : rs.minPieces ≤ rs.numPieces := by
    rw [rs.numPieces_eq, minPieces_eq]
    omega
  simp [encode, split, encodeShards, fits, shards, encoded, Except.mapError, bind, Except.bind]

include lawful pos len in
/-- A codeword is the stripe's chunks followed by `p` parity shards. -/
theorem Codeword.eq_append {row : List (List UInt8)} (codeword : rs.Codeword s stripe row) :
    ∃ par, Uniform rs.enc.parityShards s par ∧ row = chunks s rs.enc.dataShards stripe ++ par := by
  obtain ⟨pad, padded, encoded⟩ := codeword
  rw [minPieces_eq] at len
  obtain ⟨par, parity, encoded'⟩ := lawful.encode_eq pos (uniform_chunks len) padded
  rw [encoded] at encoded'
  exact ⟨par, parity, Except.ok.inj encoded'⟩

include lawful pos len in
theorem Codeword.uniform {row : List (List UInt8)} (codeword : rs.Codeword s stripe row) :
    Uniform rs.numPieces s row := by
  obtain ⟨par, parity, rfl⟩ := codeword.eq_append lawful pos len
  rw [rs.numPieces_eq]
  exact (uniform_chunks (minPieces_eq rs ▸ len)).append parity

variable {present : List Bool} (count : present.length = rs.numPieces)
  (enough : rs.minPieces ≤ present.count true)

include lawful pos len count enough in
/-- The library rebuilds a codeword from the shards a mask keeps. -/
theorem Codeword.reconstruct {row : List (List UInt8)} (codeword : rs.Codeword s stripe row) :
    rs.reconstruct (mask present row) = .ok row := by
  obtain ⟨pad, padded, encoded⟩ := codeword
  rw [minPieces_eq] at len enough
  rw [rs.numPieces_eq] at count
  simp [RSCode.reconstruct, lawful.reconstruct_eq pos (uniform_chunks len) padded encoded count enough,
    Except.mapError]

include lawful pos len count enough in
/-- `Recover` of the shards a mask keeps writes the stripe's first bytes. -/
theorem Codeword.recover {row : List (List UInt8)} (codeword : rs.Codeword s stripe row) {t : ℕ}
    (within : t ≤ rs.minPieces * s) : rs.recover (mask present row) t = .ok (stripe.take t) := by
  obtain ⟨pad, padded, encoded⟩ := codeword
  rw [minPieces_eq] at len enough within
  rw [rs.numPieces_eq] at count
  obtain ⟨rest, rebuilt⟩ :=
    lawful.reconstructData_eq pos (uniform_chunks len) padded encoded count enough
  simp [RSCode.recover, rebuilt, lawful.join_eq pos (uniform_chunks len) within, flatten_chunks len,
    Except.mapError, bind, Except.bind]

end Lawful

end RSCode

/-! ### The stripe loops -/

namespace RSSubCode

variable {ε : Type} {rs : RSSubCode ε}

theorem staticSegmentSize_pos (rs : RSSubCode ε) : 0 < rs.staticSegmentSize := by
  rw [rs.staticSegmentSize_eq]
  decide

/-- The encode loop, over data of `r` stripes, appends the stripes' codewords to the pieces. -/
theorem encodeStripes_spec (lawful : rs.enc.Lawful) : ∀ (r : ℕ) {data : List UInt8}
    (done : List (List (List UInt8))),
    data.length = r * (rs.staticSegmentSize * rs.minPieces) →
    ∃ rows, List.Forall₂ (rs.Codeword rs.staticSegmentSize)
        (chunks (rs.staticSegmentSize * rs.minPieces) r data) rows ∧
      rs.encodeStripes data (columns rs.numPieces done) =
        some (.ok (columns rs.numPieces (done ++ rows)))
  | 0, data, done, len => by
    rw [Nat.zero_mul, List.length_eq_zero_iff] at len
    subst len
    refine ⟨[], .nil, ?_⟩
    rw [encodeStripes, List.append_nil]
    simp
  | r + 1, data, done, len => by
    have pos := rs.staticSegmentSize_pos
    have stripeLength : (data.take (rs.staticSegmentSize * rs.minPieces)).length =
        rs.minPieces * rs.staticSegmentSize := by
      rw [List.length_take, len, Nat.mul_comm rs.minPieces, Nat.min_eq_left (Nat.le_mul_of_pos_left _ (by omega))]
    obtain ⟨row, encoded, codeword⟩ := rs.toRSCode.encode_stripe lawful pos stripeLength
    have shards := (codeword.uniform lawful pos stripeLength).1
    have appended : appendSegments (columns rs.numPieces done) row =
        some (columns rs.numPieces (done ++ [row])) := by
      rw [appendSegments_eq (by rw [length_columns, shards]), zipWith_append_columns done shards]
    have restLength : (data.drop (rs.staticSegmentSize * rs.minPieces)).length =
        r * (rs.staticSegmentSize * rs.minPieces) := by
      rw [List.length_drop, len, Nat.succ_mul, Nat.add_sub_cancel]
    obtain ⟨rows, codewords, ran⟩ := encodeStripes_spec lawful r (done ++ [row]) restLength
    have nonempty : 0 < data.length := by
      rw [len]
      exact Nat.mul_pos (Nat.succ_pos r) (Nat.mul_pos pos rs.dataPieces_pos)
    refine ⟨row :: rows, by rw [chunks]; exact .cons codeword codewords, ?_⟩
    rw [encodeStripes, if_pos nonempty, encoded]
    simp only [appended]
    rw [ran, List.append_assoc, List.singleton_append]

/-- `d` pieces of one length that is a whole number of segments hold that many stripes. -/
theorem length_flatten_of_aligned {data : List (List UInt8)} {pieceLength : ℕ}
    (count : data.length = rs.minPieces) (equal : ∀ piece ∈ data, piece.length = pieceLength)
    (aligned : pieceLength % rs.staticSegmentSize = 0) :
    data.flatten.length =
      pieceLength / rs.staticSegmentSize * (rs.staticSegmentSize * rs.minPieces) := by
  rw [length_flatten_of_uniform ⟨count, equal⟩, ← Nat.mul_assoc,
    Nat.div_mul_cancel (Nat.dvd_of_mod_eq_zero aligned), Nat.mul_comm]

/-- `EncodeShards` of `d` equal pieces, whose length is a multiple of the segment size, gives the
pieces that collect the codewords of the flattened data's stripes. -/
theorem encodeShards_spec (lawful : rs.enc.Lawful) {data : List (List UInt8)} {pieceLength : ℕ}
    (count : data.length = rs.minPieces) (equal : ∀ piece ∈ data, piece.length = pieceLength)
    (aligned : pieceLength % rs.staticSegmentSize = 0) :
    ∃ rows, List.Forall₂ (rs.Codeword rs.staticSegmentSize)
        (chunks (rs.staticSegmentSize * rs.minPieces) (pieceLength / rs.staticSegmentSize)
          data.flatten) rows ∧
      rs.encodeShards data = some (.ok (columns rs.numPieces rows)) := by
  have nonempty : 0 < data.length := by rw [count]; exact rs.dataPieces_pos
  have first : data[0].length = pieceLength := equal _ (List.getElem_mem nonempty)
  -- the data pieces are emptied and the parity pieces added: `NumPieces()` empty pieces
  have emptied : data.map (fun _ => ([] : List UInt8)) ++
      List.replicate (rs.numPieces - data.length) [] = columns rs.numPieces [] := by
    have fits : data.length ≤ rs.numPieces := by
      rw [count, rs.numPieces_eq, RSCode.minPieces_eq]
      omega
    rw [columns_nil, List.map_const', List.replicate_append_replicate, Nat.add_sub_cancel' fits]
  have unchecked : data.find? (fun piece => piece.length ≠ pieceLength) = none :=
    List.find?_eq_none.mpr fun piece mem => by simp [equal piece mem]
  obtain ⟨rows, codewords, ran⟩ :=
    encodeStripes_spec lawful _ [] (length_flatten_of_aligned count equal aligned)
  refine ⟨rows, codewords, ?_⟩
  rw [encodeShards, dif_neg (by simpa using count)]
  simp only [first, aligned, unchecked, flattenPieces_eq equal, emptied, ran, List.nil_append]
  simp

theorem recoverSegments_zero (pieces : List (List UInt8)) :
    ∀ (indices : List ℕ) (decodedSegmentSize : ℕ) (w : List UInt8),
      rs.recoverSegments pieces indices 0 decodedSegmentSize w = (w, .ok ())
  | [], _, _ => rfl
  | _ :: _, _, _ => by simp [recoverSegments]

/-- The recover loop over stripes `j` to `j + r - 1`, each of which decodes to its part of `data`,
writes the first `n` bytes of `data` from stripe `j` on. -/
theorem recoverSegments_spec {pieces : List (List UInt8)} {data : List UInt8} {m : ℕ}
    (decodes : ∀ j < m, ∀ t ≤ rs.staticSegmentSize * rs.minPieces,
      rs.toRSCode.recover (pieces.map (rs.readSegment j)) t =
        .ok ((Stripes.segment (rs.staticSegmentSize * rs.minPieces) j data).take t)) :
    ∀ (r j n : ℕ) (w : List UInt8), j + r ≤ m → n ≤ r * (rs.staticSegmentSize * rs.minPieces) →
      rs.recoverSegments pieces (List.range' j r) n (rs.staticSegmentSize * rs.minPieces) w =
        (w ++ (data.drop (j * (rs.staticSegmentSize * rs.minPieces))).take n, .ok ())
  | 0, j, n, w, _, le => by
    obtain rfl : n = 0 := by omega
    simp [recoverSegments]
  | r + 1, j, n, w, inside, le => by
    rw [List.range'_succ]
    by_cases zero : n = 0
    · subst zero
      rw [recoverSegments_zero]
      simp
    by_cases short : n < rs.staticSegmentSize * rs.minPieces
    · -- the last stripe: `n` bytes of it, and nothing remains
      simp only [recoverSegments, if_pos (Nat.pos_of_ne_zero zero), if_pos short,
        decodes j (by omega) n (Nat.le_of_lt short), Nat.sub_self, recoverSegments_zero,
        take_drop_of_ge (Nat.le_of_lt short)]
    · -- a whole stripe, then the rest from the next stripe on
      have whole := decodes j (by omega) _ (Nat.le_refl _)
      rw [List.take_of_length_le (length_segment_le _ _ _)] at whole
      simp only [recoverSegments, if_pos (Nat.pos_of_ne_zero zero), if_neg short, whole]
      rw [Nat.succ_mul] at le
      rw [recoverSegments_spec decodes r (j + 1) _ _ (by omega) (by omega),
        take_drop_of_le (Nat.le_of_not_lt short), List.append_assoc]

/-- The reconstruct loop over stripes `j` to `j + r - 1`, each of which the library rebuilds from
what is read of the pieces, appends the rebuilt rows to the pieces. -/
theorem reconstructSegments_spec {original : List (List UInt8)} {rows : List (List (List UInt8))}
    (shape : ∀ row ∈ rows, row.length = rs.numPieces)
    (rebuilds : ∀ j (below : j < rows.length), ∃ stripe,
      original.mapM (rs.reconstructSegment j) = some stripe ∧
        rs.toRSCode.reconstruct stripe = .ok rows[j]) :
    ∀ (r j : ℕ), j + r ≤ rows.length →
      rs.reconstructSegments original (List.range' j r) (columns rs.numPieces (rows.take j)) =
        some (columns rs.numPieces (rows.take (j + r)), .ok ())
  | 0, j, _ => by simp [reconstructSegments]
  | r + 1, j, inside => by
    have below : j < rows.length := by omega
    obtain ⟨stripe, read, rebuilt⟩ := rebuilds j below
    have shards := shape _ (List.getElem_mem below)
    have appended : appendEach (columns rs.numPieces (rows.take j)) rows[j] =
        some (columns rs.numPieces (rows.take (j + 1))) := by
      rw [appendEach_eq (by rw [length_columns, shards]), zipWith_append_columns _ shards,
        List.take_add_one, List.getElem?_eq_getElem below, Option.toList_some]
    rw [List.range'_succ]
    simp only [reconstructSegments, read, rebuilt, appended]
    rw [reconstructSegments_spec shape rebuilds r (j + 1) (by omega), show j + 1 + r = j + (r + 1) by omega]

end RSSubCode

/-! ### Round trips -/

namespace RSSubCode

variable {ε : Type} {rs : RSSubCode ε}

/-- `rows` are the codewords of the stripes of `data`, one row per stripe, each of `NumPieces()`
shards of a segment. -/
structure Striped (rs : RSSubCode ε) (data : List UInt8) (rows : List (List (List UInt8))) :
    Prop where
  length : data.length = rows.length * (rs.staticSegmentSize * rs.minPieces)
  codeword : ∀ k (below : k < rows.length), rs.Codeword rs.staticSegmentSize
    (Stripes.segment (rs.staticSegmentSize * rs.minPieces) k data) rows[k]
  uniform : ∀ row ∈ rows, Uniform rs.numPieces rs.staticSegmentSize row

theorem striped_of_forall₂ (lawful : rs.enc.Lawful) {r : ℕ} {data : List UInt8}
    {rows : List (List (List UInt8))} (len : data.length = r * (rs.staticSegmentSize * rs.minPieces))
    (codewords : List.Forall₂ (rs.Codeword rs.staticSegmentSize)
      (chunks (rs.staticSegmentSize * rs.minPieces) r data) rows) : rs.Striped data rows := by
  have pos := rs.staticSegmentSize_pos
  have count : rows.length = r := by rw [← codewords.length_eq, length_chunks]
  have stripeLength : ∀ k < r, (Stripes.segment (rs.staticSegmentSize * rs.minPieces) k data).length =
      rs.minPieces * rs.staticSegmentSize := fun k below => by
    rw [length_segment below len, Nat.mul_comm]
  have codeword : ∀ k (below : k < rows.length), rs.Codeword rs.staticSegmentSize
      (Stripes.segment (rs.staticSegmentSize * rs.minPieces) k data) rows[k] := fun k below => by
    have related := codewords.get (by rw [length_chunks]; omega) below
    have stripe := getElem?_chunks (s := rs.staticSegmentSize * rs.minPieces) (count ▸ below) data
    rw [List.getElem?_eq_getElem (by rw [length_chunks]; omega), Option.some.injEq] at stripe
    simpa [stripe] using related
  refine ⟨by rw [count, len], codeword, fun row mem => ?_⟩
  obtain ⟨k, below, rfl⟩ := List.getElem_of_mem mem
  exact (codeword k below).uniform lawful pos (stripeLength k (count ▸ below))

section Striped

variable {data : List UInt8} {rows : List (List (List UInt8))} (striped : rs.Striped data rows)
  {present : List Bool} (count : present.length = rs.numPieces)
  (enough : rs.minPieces ≤ present.count true)

include striped in
theorem Striped.length_of_mem {piece : List UInt8} (mem : piece ∈ columns rs.numPieces rows) :
    piece.length = rows.length * rs.staticSegmentSize :=
  length_of_mem_columns striped.uniform mem

include striped in
/-- Stripe `k` of the data is `d` segments long. -/
theorem Striped.stripe_length {k : ℕ} (below : k < rows.length) :
    (Stripes.segment (rs.staticSegmentSize * rs.minPieces) k data).length =
      rs.minPieces * rs.staticSegmentSize := by
  rw [length_segment below striped.length, Nat.mul_comm]

include striped in
/-- A stored piece holds segment `j` of every stripe `j` there is. -/
theorem Striped.segment_fits {j : ℕ} (below : j < rows.length) {piece : List UInt8}
    (stored : piece ∈ columns rs.numPieces rows) :
    j * rs.staticSegmentSize + rs.staticSegmentSize ≤ piece.length := by
  rw [striped.length_of_mem stored, ← Nat.succ_mul]
  exact Nat.mul_le_mul_right _ below

include striped count enough in
/-- The first piece that a mask leaves set holds one segment of every stripe. -/
theorem Striped.firstPieceSize_mask :
    firstPieceSize (mask present (columns rs.numPieces rows)) = rows.length * rs.staticSegmentSize := by
  have keeps : 0 < present.count true := Nat.lt_of_lt_of_le rs.dataPieces_pos enough
  apply firstPieceSize_eq
  · intro piece mem
    rcases mem_mask mem with empty | stored
    · exact .inl empty
    · exact .inr (striped.length_of_mem stored)
  · obtain ⟨piece, stored, kept⟩ :=
      @exists_mem_mask _ present (columns rs.numPieces rows) (by rw [count, length_columns]) keeps
    exact .inr ⟨piece, kept, striped.length_of_mem stored⟩

include striped count enough in
/-- The pieces a mask leaves pass the checks at the start of `Reconstruct` and `Recover`: there are
`NumPieces()` of them, and the first one set holds one segment of every stripe. -/
theorem Striped.mask_checks :
    (mask present (columns rs.numPieces rows)).length = rs.numPieces ∧
      firstPieceSize (mask present (columns rs.numPieces rows)) % rs.staticSegmentSize = 0 ∧
      firstPieceSize (mask present (columns rs.numPieces rows)) / rs.staticSegmentSize =
        rows.length := by
  rw [striped.firstPieceSize_mask count enough, length_mask (by rw [count, length_columns]),
    length_columns]
  exact ⟨rfl, Nat.mul_mod_left _ _, Nat.mul_div_cancel _ rs.staticSegmentSize_pos⟩

include striped in
/-- What `Recover` reads of stripe `j` from masked pieces is the stripe's codeword, masked. -/
theorem Striped.map_readSegment {j : ℕ} (below : j < rows.length) :
    (mask present (columns rs.numPieces rows)).map (rs.readSegment j) = mask present rows[j] := by
  have pos := rs.staticSegmentSize_pos
  rw [map_mask (g := Stripes.segment rs.staticSegmentSize j) (by simp [readSegment]; omega)
    (fun piece stored => by rw [readSegment, if_pos (striped.segment_fits below stored)]),
    map_segment_columns striped.uniform below]

include striped in
/-- What `Reconstruct` reads of stripe `j` from masked pieces is the stripe's codeword, masked. -/
theorem Striped.mapM_reconstructSegment {j : ℕ} (below : j < rows.length) :
    (mask present (columns rs.numPieces rows)).mapM (rs.reconstructSegment j) =
      some (mask present rows[j]) := by
  have pos := rs.staticSegmentSize_pos
  -- a stored piece is set, since it holds a segment of every stripe
  have set : ∀ piece ∈ columns rs.numPieces rows, piece.length ≠ 0 := fun piece stored => by
    have fits := striped.segment_fits below stored
    omega
  let read := fun piece : List UInt8 =>
    if piece.length = 0 then [] else Stripes.segment rs.staticSegmentSize j piece
  have readMask : (mask present (columns rs.numPieces rows)).map read = mask present rows[j] := by
    rw [map_mask (g := Stripes.segment rs.staticSegmentSize j) (by simp [read])
      (fun piece stored => by simp only [read, if_neg (set piece stored)]),
      map_segment_columns striped.uniform below]
  rw [← readMask]
  apply OptionLoop.mapM_eq_some_map
  intro piece mem
  rcases mem_mask mem with rfl | stored
  · simp [reconstructSegment, read]
  · simp only [reconstructSegment, read, if_neg (set piece stored),
      if_pos (striped.segment_fits below stored)]

include striped count enough in
/-- `Recover` of the pieces a mask leaves writes the data's first `n` bytes. -/
theorem Striped.recover (lawful : rs.enc.Lawful) {n : ℕ}
    (within : n ≤ rows.length * (rs.staticSegmentSize * rs.minPieces)) (w : List UInt8) :
    rs.recover (mask present (columns rs.numPieces rows)) n w = (w ++ data.take n, .ok ()) := by
  have pos := rs.staticSegmentSize_pos
  obtain ⟨shape, aligned, segments⟩ := striped.mask_checks count enough
  have decodes : ∀ j < rows.length, ∀ t ≤ rs.staticSegmentSize * rs.minPieces,
      rs.toRSCode.recover ((mask present (columns rs.numPieces rows)).map (rs.readSegment j)) t =
        .ok ((Stripes.segment (rs.staticSegmentSize * rs.minPieces) j data).take t) := by
    intro j below t inside
    rw [striped.map_readSegment below]
    exact (striped.codeword j below).recover lawful pos (striped.stripe_length below) count enough
      (by rwa [Nat.mul_comm])
  rw [RSSubCode.recover, if_neg (not_not.mpr shape), if_neg (not_not.mpr aligned), segments,
    List.range_eq_range', recoverSegments_spec decodes rows.length 0 n w (by omega) within]
  simp

include striped count enough in
/-- `Reconstruct` of the pieces a mask leaves restores every piece. -/
theorem Striped.reconstruct (lawful : rs.enc.Lawful) :
    rs.reconstruct (mask present (columns rs.numPieces rows)) =
      some (columns rs.numPieces rows, .ok ()) := by
  have pos := rs.staticSegmentSize_pos
  obtain ⟨shape, aligned, segments⟩ := striped.mask_checks count enough
  have emptied : (mask present (columns rs.numPieces rows)).map (fun _ => ([] : List UInt8)) =
      columns rs.numPieces (rows.take 0) := by
    rw [List.take_zero, columns_nil, List.map_const', shape]
  have rebuilds : ∀ j (below : j < rows.length), ∃ stripe,
      (mask present (columns rs.numPieces rows)).mapM (rs.reconstructSegment j) = some stripe ∧
        rs.toRSCode.reconstruct stripe = .ok rows[j] := fun j below =>
    ⟨_, striped.mapM_reconstructSegment below,
      (striped.codeword j below).reconstruct lawful pos (striped.stripe_length below) count enough⟩
  rw [RSSubCode.reconstruct, if_neg (not_not.mpr shape), if_neg (not_not.mpr aligned), segments,
    List.range_eq_range', emptied,
    reconstructSegments_spec (fun row mem => (striped.uniform row mem).1) rebuilds rows.length 0
      (by omega),
    Nat.zero_add, List.take_length]

include striped in
/-- Segment `k` of data piece `i` is segment `k * d + i` of the data. -/
theorem Striped.layout (lawful : rs.enc.Lawful) {i : ℕ} (below : i < rs.minPieces) (k : ℕ) :
    (columns rs.numPieces rows)[i]?.map (Stripes.segment rs.staticSegmentSize k) =
      some (Stripes.segment rs.staticSegmentSize (k * rs.minPieces + i) data) := by
  have pos := rs.staticSegmentSize_pos
  have inside : i < rs.numPieces := by
    rw [rs.numPieces_eq, ← RSCode.minPieces_eq]
    omega
  have dataShard : i < rs.enc.dataShards := RSCode.minPieces_eq rs.toRSCode ▸ below
  by_cases stored : k < rows.length
  · -- shard `i` of stripe `k`, a data shard
    obtain ⟨par, -, row⟩ := (striped.codeword k stored).eq_append lawful pos
      (striped.stripe_length stored)
    rw [← List.getElem?_map, map_segment_columns striped.uniform stored, row,
      List.getElem?_append_left (by rw [length_chunks]; exact dataShard),
      getElem?_chunks dataShard, Nat.mul_comm rs.staticSegmentSize rs.minPieces,
      segment_segment below]
  · -- past the last stripe, both segments are empty
    have piece := striped.length_of_mem (List.getElem_mem (l := columns rs.numPieces rows)
      (by rw [length_columns]; exact inside))
    have beyond : rows.length * rs.staticSegmentSize ≤ k * rs.staticSegmentSize :=
      Nat.mul_le_mul_right _ (Nat.le_of_not_lt stored)
    have dataBeyond : data.length ≤ (k * rs.minPieces + i) * rs.staticSegmentSize := by
      rw [striped.length, Nat.mul_comm rs.staticSegmentSize, ← Nat.mul_assoc, Nat.add_mul]
      exact Nat.le_add_right_of_le (Nat.mul_le_mul_right _ (Nat.mul_le_mul_right _ (Nat.le_of_not_lt stored)))
    rw [List.getElem?_eq_getElem (by rw [length_columns]; exact inside), Option.map_some,
      segment_of_length_le (by rw [piece]; exact beyond), segment_of_length_le dataBeyond]

end Striped

/-- The segmented Reed-Solomon round trip, for a lawful library: `EncodeShards` of `d` equal data
pieces whose length is a multiple of 64 lays the data out segment by segment, and from any masking
of the encoded pieces that keeps `d` of them, `Recover` writes the data's first `n` bytes and
`Reconstruct` restores every piece. -/
theorem subCode_round_trip (rs : RSSubCode ε) (lawful : rs.enc.Lawful) {data : List (List UInt8)}
    {pieceLength : ℕ} (count : data.length = rs.minPieces)
    (equal : ∀ piece ∈ data, piece.length = pieceLength) (aligned : pieceLength % 64 = 0) :
    ∃ encoded, rs.encodeShards data = some (.ok encoded) ∧
      (∀ i < rs.minPieces, ∀ k, encoded[i]?.map (Stripes.segment 64 k) =
        some (Stripes.segment 64 (k * rs.minPieces + i) data.flatten)) ∧
      ∀ present : List Bool, present.length = rs.numPieces → rs.minPieces ≤ present.count true →
        (∀ n ≤ rs.minPieces * pieceLength, ∀ w,
          rs.recover (mask present encoded) n w = (w ++ data.flatten.take n, .ok ())) ∧
        rs.reconstruct (mask present encoded) = some (encoded, .ok ()) := by
  have segmentSize := rs.staticSegmentSize_eq
  have whole : pieceLength % rs.staticSegmentSize = 0 := by rwa [segmentSize]
  obtain ⟨rows, codewords, encoded⟩ := encodeShards_spec lawful count equal whole
  have striped :=
    striped_of_forall₂ lawful (length_flatten_of_aligned count equal whole) codewords
  have written : rows.length * (rs.staticSegmentSize * rs.minPieces) = rs.minPieces * pieceLength := by
    rw [← striped.length, length_flatten_of_uniform ⟨count, equal⟩]
  refine ⟨_, encoded, fun i below k => ?_, fun present kept enough =>
    ⟨fun n within w => striped.recover kept enough lawful (by rw [written]; exact within) w,
      striped.reconstruct kept enough lawful⟩⟩
  rw [← segmentSize]
  exact striped.layout lawful below k

end RSSubCode

/-! ### A lawful encoder -/

/-- Rebuilding a codeword of copies: every shard becomes the first shard that is set. -/
def rebuildCopies (p : ℕ) (shards : List (List UInt8)) : Except Unit (List (List UInt8)) :=
  match shards.find? (fun shard => 0 < shard.length) with
  | some shard => .ok (List.replicate (p + 1) shard)
  | none => .error ()

/-- An encoder for one data shard whose `p` parity shards are copies of it, so that any one shard
rebuilds the codeword. -/
def replication (p : ℕ) : Encoder Unit where
  dataShards := 1
  parityShards := p
  split data := .ok (data :: List.replicate p (List.replicate data.length 0))
  encode shards := match shards with
    | shard :: _ => .ok (shard :: List.replicate p shard)
    | [] => .error ()
  reconstruct := rebuildCopies p
  reconstructData := rebuildCopies p
  join shards n := .ok ((shards.take 1).flatten.take n)

/-- A codeword of copies, masked so that one shard is kept, is rebuilt. -/
theorem rebuildCopies_mask {p : ℕ} {shard : List UInt8} (set : 0 < shard.length)
    {present : List Bool} (count : present.length = p + 1) (keeps : 1 ≤ present.count true) :
    rebuildCopies p (mask present (shard :: List.replicate p shard)) =
      .ok (List.replicate (p + 1) shard) := by
  have copy : ∀ x ∈ shard :: List.replicate p shard, x = shard := fun x mem => by
    rcases List.mem_cons.mp mem with first | rest
    · exact first
    · exact List.eq_of_mem_replicate rest
  -- the mask leaves empty shards and copies, and at least one copy
  obtain ⟨kept, stored, masked⟩ :=
    @exists_mem_mask _ present (shard :: List.replicate p shard) (by simp [count]) keeps
  have found : (List.find? (fun x => 0 < x.length)
      (mask present (shard :: List.replicate p shard))).isSome :=
    List.find?_isSome.mpr ⟨kept, masked, by simp [copy kept stored, set]⟩
  obtain ⟨first, isFirst⟩ := Option.isSome_iff_exists.mp found
  have firstSet := List.find?_some isFirst
  rcases mem_mask (List.mem_of_find?_eq_some isFirst) with rfl | stored
  · simp at firstSet
  · simp [rebuildCopies, isFirst, copy first stored]

/-- The replication code encodes its one data shard as that shard and its `p` copies. -/
theorem replication_encode_eq {p s : ℕ} {ds pad cw : List (List UInt8)}
    (data : Uniform (replication p).dataShards s ds)
    (encoded : (replication p).encode (ds ++ pad) = .ok cw) :
    ∃ shard, shard.length = s ∧ ds = [shard] ∧ cw = shard :: List.replicate p shard := by
  obtain ⟨shard, rfl⟩ := List.length_eq_one_iff.mp data.1
  exact ⟨shard, data.2 shard List.mem_cons_self, rfl, (Except.ok.inj encoded).symm⟩

theorem replication_lawful (p : ℕ) : (replication p).Lawful where
  split_eq := by
    intro s data _ len
    have len' : data.length = s := by simpa [replication] using len
    refine ⟨List.replicate p (List.replicate data.length 0),
      ⟨by simp [replication], fun x mem => by rw [List.eq_of_mem_replicate mem, List.length_replicate, len']⟩,
      ?_⟩
    simp [replication, chunks, List.take_of_length_le (Nat.le_of_eq len')]
  encode_eq := by
    intro s ds pad _ data _
    obtain ⟨shard, rfl⟩ := List.length_eq_one_iff.mp data.1
    have sized := data.2 shard List.mem_cons_self
    exact ⟨List.replicate p shard,
      ⟨by simp [replication], fun x mem => by rw [List.eq_of_mem_replicate mem, sized]⟩, rfl⟩
  reconstruct_eq := by
    intro s ds pad cw present pos data _ encoded count keeps
    obtain ⟨shard, sized, rfl, rfl⟩ := replication_encode_eq data encoded
    exact rebuildCopies_mask (by omega) (by simpa [replication, Nat.add_comm] using count) keeps
  reconstructData_eq := by
    intro s ds pad cw present pos data _ encoded count keeps
    obtain ⟨shard, sized, rfl, rfl⟩ := replication_encode_eq data encoded
    exact ⟨List.replicate p shard,
      rebuildCopies_mask (by omega) (by simpa [replication, Nat.add_comm] using count) keeps⟩
  join_eq := by
    intro s n ds rest _ data _
    obtain ⟨shard, rfl⟩ := List.length_eq_one_iff.mp data.1
    simp [replication]

/-- The replication code with one parity piece, as a sub-code of 64-byte segments. -/
def replicationSubCode : RSSubCode Unit where
  enc := replication 1
  numPieces := 2
  dataPieces := 1
  numPieces_eq := rfl
  dataPieces_eq := rfl
  dataPieces_pos := Nat.one_pos
  staticSegmentSize := 64
  staticSegmentSize_eq := rfl

/-- A data piece of two segments. -/
def twoSegmentPiece : List UInt8 := (List.range 128).map UInt8.ofNat

theorem replicationSubCode_round_trip :
    ∃ encoded, replicationSubCode.encodeShards [twoSegmentPiece] = some (.ok encoded) ∧
      (∀ i < replicationSubCode.minPieces, ∀ k, encoded[i]?.map (Stripes.segment 64 k) =
        some (Stripes.segment 64 (k * replicationSubCode.minPieces + i) [twoSegmentPiece].flatten)) ∧
      ∀ present : List Bool, present.length = replicationSubCode.numPieces →
        replicationSubCode.minPieces ≤ present.count true →
        (∀ n ≤ replicationSubCode.minPieces * 128, ∀ w,
          replicationSubCode.recover (mask present encoded) n w =
            (w ++ [twoSegmentPiece].flatten.take n, .ok ())) ∧
        replicationSubCode.reconstruct (mask present encoded) = some (encoded, .ok ()) :=
  RSSubCode.subCode_round_trip replicationSubCode (replication_lawful 1) rfl
    (by simp [twoSegmentPiece]) (by decide)

end Sia.Modules
