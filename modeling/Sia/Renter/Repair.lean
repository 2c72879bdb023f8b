import Mathlib.Data.Finset.Basic

/-! Repairing a chunk (`modules/renter/uploadheap.go`, `uploadchunk.go`). Building the
unfinished chunk marks which piece indices are in use on good hosts and remembers, for every
index with an uploaded piece, the root of its first piece. Repairing from a source reader or the
local file reads the data pieces, erasure codes them, and `staticEncryptAndCheckIntegrity` drops
the pieces in use, encrypts the others and compares each with its remembered root; an index
with no uploaded piece has no root and is not compared. The pieces left are handed to the
workers.

So the check only sees the indices that are both unused and uploaded before. When every
uploaded piece is still in use, a local file that changed since the upload passes the check,
and the pieces the repair hands out are codings of the new data. -/
namespace Sia.Renter

variable {K H : Type}

/-- `modules.ErasureCoder`: `MinPieces` data pieces encode to `NumPieces` pieces. -/
structure ErasureCoder where
  minPieces : ℕ
  numPieces : ℕ
  encodeShards : List (List UInt8) → List (List UInt8)
  encodeShards_length : ∀ pieces, (encodeShards pieces).length = numPieces

/-- What a file's pieces go through on their way to a host: the sector size they are padded
to, `MasterKey().Derive(chunkIndex, pieceIndex)` followed by `EncryptBytes`, and
`crypto.MerkleRoot`, whose zero value marks a missing root. -/
structure PieceCipher (H : Type) where
  sectorSize : ℕ
  encryptBytes : ℕ → ℕ → List UInt8 → List UInt8
  merkleRoot : List UInt8 → H
  zeroHash : H

/-- A piece as the SiaFile records it. -/
structure Piece (K H : Type) where
  hostPubKey : K
  merkleRoot : H

/-- The fields of `unfinishedUploadChunk` the repair of its pieces reads. -/
structure UnfinishedUploadChunk (K H : Type) where
  index : ℕ
  offset : ℕ
  length : ℕ
  pieceUsage : List Bool
  piecesCompleted : ℕ
  unusedHosts : Finset K
  expectedPieceRoots : List H

/-! ### Building the chunk -/

section Build

variable [DecidableEq K] (goodForRenew offline : K → Option Bool)

/-- One piece of a piece set: it counts towards the redundancy when its host is known good for
renew, known online and still unused, and no piece of the same index counted yet; its host is
used either way. -/
def UnfinishedUploadChunk.markPiece (uuc : UnfinishedUploadChunk K H) (pieceIndex : ℕ)
    (piece : Piece K H) : UnfinishedUploadChunk K H :=
  let hpk := piece.hostPubKey
  let counted := goodForRenew hpk = some true ∧ offline hpk = some false ∧
    hpk ∈ uuc.unusedHosts ∧ uuc.pieceUsage.getD pieceIndex false = false
  let uuc := if counted then
      { uuc with pieceUsage := uuc.pieceUsage.set pieceIndex true,
                 piecesCompleted := uuc.piecesCompleted + 1 }
    else uuc
  { uuc with unusedHosts := uuc.unusedHosts.erase hpk }

/-- One piece set: each of its pieces, then the root of its first piece becomes the root
expected at its index. -/
def UnfinishedUploadChunk.markPieceSet (uuc : UnfinishedUploadChunk K H)
    (entry : List (Piece K H) × ℕ) : UnfinishedUploadChunk K H :=
  let (pieceSet, pieceIndex) := entry
  let uuc := pieceSet.foldl (fun uuc piece => uuc.markPiece goodForRenew offline pieceIndex piece) uuc
  match pieceSet with
  | [] => uuc
  | first :: _ =>
    { uuc with expectedPieceRoots := uuc.expectedPieceRoots.set pieceIndex first.merkleRoot }

/-- `managedBuildUnfinishedChunk`: every index starts unused with the zero root and every host
of the file's contracts unused, then the chunk's piece sets are marked in order. The SiaFile
holds one piece set per index, so the indices stay below `NumPieces`. -/
def buildUnfinishedChunk (zeroHash : H) (ec : ErasureCoder) (chunkSize chunkIndex : ℕ)
    (hosts : Finset K) (pieces : List (List (Piece K H))) : UnfinishedUploadChunk K H :=
  let uuc : UnfinishedUploadChunk K H :=
    { index := chunkIndex, offset := chunkIndex * chunkSize, length := chunkSize,
      pieceUsage := List.replicate ec.numPieces false, piecesCompleted := 0,
      unusedHosts := hosts, expectedPieceRoots := List.replicate ec.numPieces zeroHash }
  pieces.zipIdx.foldl (fun uuc entry => uuc.markPieceSet goodForRenew offline entry) uuc

/-- One usage flag per index, and as many pieces completed as indices in use. -/
def UnfinishedUploadChunk.Counted (numPieces : ℕ) (uuc : UnfinishedUploadChunk K H) : Prop :=
  uuc.pieceUsage.length = numPieces ∧ uuc.piecesCompleted = uuc.pieceUsage.count true

/-- A piece counts only at an index not in use yet, so the count follows the flags. -/
theorem UnfinishedUploadChunk.Counted.markPiece {numPieces : ℕ} {uuc : UnfinishedUploadChunk K H}
    (counted : uuc.Counted numPieces) {pieceIndex : ℕ} (inRange : pieceIndex < numPieces)
    (piece : Piece K H) : (uuc.markPiece goodForRenew offline pieceIndex piece).Counted numPieces := by
  obtain ⟨sized, completed⟩ := counted
  have inUsage : pieceIndex < uuc.pieceUsage.length := sized ▸ inRange
  unfold UnfinishedUploadChunk.markPiece
  dsimp only
  split
  · next marked =>
    have unused : uuc.pieceUsage[pieceIndex] = false := by
      simpa [List.getD_eq_getElem?_getD, List.getElem?_eq_getElem inUsage] using marked.2.2.2
    refine ⟨by simp [sized], ?_⟩
    simp [List.count_set inUsage, unused, completed]
  · exact ⟨sized, completed⟩

theorem UnfinishedUploadChunk.Counted.markPieceSet {numPieces : ℕ} {uuc : UnfinishedUploadChunk K H}
    (counted : uuc.Counted numPieces) {entry : List (Piece K H) × ℕ} (inRange : entry.2 < numPieces) :
    (uuc.markPieceSet goodForRenew offline entry).Counted numPieces := by
  obtain ⟨pieceSet, pieceIndex⟩ := entry
  replace inRange : pieceIndex < numPieces := inRange
  have marked : (pieceSet.foldl (fun uuc piece => uuc.markPiece goodForRenew offline pieceIndex piece)
      uuc).Counted numPieces := by
    induction pieceSet generalizing uuc with
    | nil => exact counted
    | cons piece rest ih => exact ih (counted.markPiece goodForRenew offline inRange piece)
  unfold UnfinishedUploadChunk.markPieceSet
  cases pieceSet with
  | nil => exact marked
  | cons first rest => exact marked

/-- A chunk built from at most `NumPieces` piece sets has one flag per index and counts the
indices in use as completed. -/
theorem buildUnfinishedChunk_counted (zeroHash : H) (ec : ErasureCoder) (chunkSize chunkIndex : ℕ)
    (hosts : Finset K) {pieces : List (List (Piece K H))} (fits : pieces.length ≤ ec.numPieces) :
    (buildUnfinishedChunk goodForRenew offline zeroHash ec chunkSize chunkIndex hosts pieces).Counted
      ec.numPieces := by
  -- the fold over the piece sets keeps the count, each index being below `NumPieces`
  have folded : ∀ (entries : List (List (Piece K H) × ℕ)) (uuc : UnfinishedUploadChunk K H),
      uuc.Counted ec.numPieces → (∀ entry ∈ entries, entry.2 < ec.numPieces) →
      (entries.foldl (fun uuc entry => uuc.markPieceSet goodForRenew offline entry) uuc).Counted
        ec.numPieces := by
    intro entries
    induction entries with
    | nil => exact fun uuc counted _ => counted
    | cons entry rest ih =>
      intro uuc counted inRange
      exact ih _ (counted.markPieceSet goodForRenew offline (inRange entry List.mem_cons_self))
        fun entry' mem => inRange entry' (List.mem_cons_of_mem _ mem)
  unfold buildUnfinishedChunk
  exact folded _ _ ⟨by simp, by simp [List.count_replicate]⟩ fun entry mem => by
    have := List.snd_lt_add_of_mem_zipIdx mem
    omega

end Build

/-! ### Fetching the logical data -/

/-- `readDataPieces`: `MinPieces` pieces of `pieceSize` bytes read in turn from the source,
each left zero past the end of the data. -/
def readDataPieces (source : List UInt8) (ec : ErasureCoder) (pieceSize : ℕ) :
    List (List UInt8) :=
  (List.range ec.minPieces).map fun i =>
    let read := (source.drop (i * pieceSize)).take pieceSize
    read ++ List.replicate (pieceSize - read.length) 0

/-- `padAndEncryptPiece`: a piece shorter than a sector is padded with zeros, then encrypted
under the key derived for its chunk and index. -/
def padAndEncryptPiece (cipher : PieceCipher H) (chunkIndex pieceIndex : ℕ)
    (piece : List UInt8) : List UInt8 :=
  let short := cipher.sectorSize - piece.length
  let piece := if short > 0 then piece ++ List.replicate short 0 else piece
  cipher.encryptBytes chunkIndex pieceIndex piece

/-- Every data piece read has the piece size. -/
theorem length_of_mem_readDataPieces {source : List UInt8} {ec : ErasureCoder} {pieceSize : ℕ}
    {piece : List UInt8} (mem : piece ∈ readDataPieces source ec pieceSize) :
    piece.length = pieceSize := by
  obtain ⟨i, -, rfl⟩ := List.mem_map.mp mem
  simp only [List.length_append, List.length_replicate, List.length_take]
  omega

/-- A piece of a whole sector is encrypted as it is. -/
theorem padAndEncryptPiece_of_length (cipher : PieceCipher H) {chunkIndex pieceIndex : ℕ}
    {piece : List UInt8} (sized : piece.length = cipher.sectorSize) :
    padAndEncryptPiece cipher chunkIndex pieceIndex piece =
      cipher.encryptBytes chunkIndex pieceIndex piece := by
  simp [padAndEncryptPiece, sized]

/-- The error of a failed integrity check. -/
inductive RepairError where
  | integrityCheckFailed
  deriving DecidableEq, Repr

variable [DecidableEq H] (cipher : PieceCipher H)

/-- One piece of `staticEncryptAndCheckIntegrity`: the piece it keeps and whether it failed. A
missing piece stays missing; a piece in use is dropped; any other is encrypted and, when its
index has a root, compared with it. The logical data and the chunk's lists both have
`NumPieces` entries. -/
def checkPiece (uc : UnfinishedUploadChunk K H) (entry : Option (List UInt8) × ℕ) :
    Option (List UInt8) × Bool :=
  match entry with
  | (none, _) => (none, false)
  | (some piece, i) =>
    if uc.pieceUsage.getD i false then (none, false)
    else
      let encrypted := padAndEncryptPiece cipher uc.index i piece
      let expected := uc.expectedPieceRoots.getD i cipher.zeroHash
      if expected = cipher.zeroHash then (some encrypted, false)
      else (some encrypted, decide (cipher.merkleRoot encrypted ≠ expected))

/-- `staticEncryptAndCheckIntegrity`: every piece checked; the pieces kept if none failed. -/
def staticEncryptAndCheckIntegrity (uc : UnfinishedUploadChunk K H)
    (logicalChunkData : List (Option (List UInt8))) :
    Except RepairError (List (Option (List UInt8))) :=
  let checked := logicalChunkData.zipIdx.map (checkPiece cipher uc)
  if checked.any (·.2) then .error .integrityCheckFailed else .ok (checked.map (·.1))

/-- The local-file branch of `managedFetchLogicalChunkData`: the chunk's section of the file,
read into data pieces and erasure coded, then checked. On success these are the physical
pieces `threadedFetchAndRepairChunk` hands to the workers; on failure the repair falls back to
a download. -/
def fetchLocalLogicalChunkData (ec : ErasureCoder) (pieceSize : ℕ) (uc : UnfinishedUploadChunk K H)
    (file : List UInt8) : Except RepairError (List (Option (List UInt8))) :=
  let dataPieces := readDataPieces ((file.drop uc.offset).take uc.length) ec pieceSize
  staticEncryptAndCheckIntegrity cipher uc ((ec.encodeShards dataPieces).map some)

/-! ### What the check guarantees -/

/-- A piece the check keeps and does not fail is the encryption of a logical piece whose index
is not in use, and it has its index's root whenever the index has one. -/
theorem checkPiece_kept {uc : UnfinishedUploadChunk K H} {entry : Option (List UInt8) × ℕ}
    {piece : List UInt8} (kept : (checkPiece cipher uc entry).1 = some piece)
    (passed : (checkPiece cipher uc entry).2 = false) :
    ∃ data, entry.1 = some data ∧ uc.pieceUsage.getD entry.2 false = false ∧
      piece = padAndEncryptPiece cipher uc.index entry.2 data ∧
      (uc.expectedPieceRoots.getD entry.2 cipher.zeroHash ≠ cipher.zeroHash →
        cipher.merkleRoot piece = uc.expectedPieceRoots.getD entry.2 cipher.zeroHash) := by
  obtain ⟨_ | data, i⟩ := entry
  · simp [checkPiece] at kept
  · simp only [checkPiece] at kept passed
    -- a piece in use is dropped, so the kept piece was encrypted
    split_ifs at kept passed with used unrooted
    · cases kept
      exact ⟨data, rfl, Bool.eq_false_iff.mpr used, rfl, fun rooted => (rooted unrooted).elim⟩
    · cases kept
      exact ⟨data, rfl, Bool.eq_false_iff.mpr used, rfl,
        fun _ => not_not.mp (of_decide_eq_false passed)⟩

/-- What a passed check hands on at an index: the encryption of the logical piece there, at an
index not in use, matching the index's root whenever it has one. An index without a root is
handed on unchecked. -/
theorem staticEncryptAndCheckIntegrity_eq_ok {uc : UnfinishedUploadChunk K H}
    {logicalChunkData physical : List (Option (List UInt8))}
    (passed : staticEncryptAndCheckIntegrity cipher uc logicalChunkData = .ok physical)
    {i : ℕ} {piece : List UInt8} (handed : physical[i]? = some (some piece)) :
    ∃ data, logicalChunkData[i]? = some (some data) ∧ uc.pieceUsage.getD i false = false ∧
      piece = padAndEncryptPiece cipher uc.index i data ∧
      (uc.expectedPieceRoots.getD i cipher.zeroHash ≠ cipher.zeroHash →
        cipher.merkleRoot piece = uc.expectedPieceRoots.getD i cipher.zeroHash) := by
  unfold staticEncryptAndCheckIntegrity at passed
  dsimp only at passed
  split_ifs at passed with failed
  cases passed
  rw [List.getElem?_map, List.getElem?_map, List.getElem?_zipIdx] at handed
  cases found : logicalChunkData[i]? with
  | none => simp [found] at handed
  | some data? =>
    simp only [found, Option.map_some, Option.some.injEq, Nat.zero_add] at handed
    -- no checked piece failed, this one in particular
    have checked : checkPiece cipher uc (data?, i) ∈ logicalChunkData.zipIdx.map (checkPiece cipher uc) :=
      List.mem_map.mpr ⟨(data?, i), List.mem_iff_getElem?.mpr ⟨i, by simp [found]⟩, rfl⟩
    have unfailed := List.any_eq_false.mp (Bool.eq_false_iff.mpr failed) _ checked
    obtain ⟨data, rfl, unused, encrypted, rooted⟩ :=
      checkPiece_kept cipher handed (Bool.eq_false_iff.mpr unfailed)
    exact ⟨data, rfl, unused, encrypted, rooted⟩

/-! ### A changed local file passes the check -/

/-- Reed-Solomon with one data piece over two pieces: the systematic encoding matrix of one data
shard is a column of ones, so the parity piece is a copy of the data piece. -/
def oneOfTwoCoder : ErasureCoder where
  minPieces := 1
  numPieces := 2
  encodeShards pieces := [pieces.headD [], pieces.headD []]
  encodeShards_length _ := rfl

/-- The plaintext cipher of `crypto.TypePlain` on standard sectors, each root standing for the
piece it hashes. -/
def plainCipher : PieceCipher (List UInt8) where
  sectorSize := 4194304
  encryptBytes _ _ piece := piece
  merkleRoot piece := piece
  zeroHash := []

/-- The data of the chunk when it was uploaded. -/
def uploadedSector : List UInt8 := List.replicate 4194304 0

/-- Chunk 0 of a one-chunk file while host 1 is good and online: piece 0 was uploaded to host 1
and is in use, and piece 1 was never uploaded. -/
def repairedChunk : UnfinishedUploadChunk ℕ (List UInt8) :=
  buildUnfinishedChunk (fun _ => some true) (fun _ => some false) [] oneOfTwoCoder 4194304 0
    {1, 2} [[⟨1, uploadedSector⟩], []]

theorem repair_hands_out_changed_piece :
    uploadedSector =
      plainCipher.merkleRoot (padAndEncryptPiece plainCipher 0 0
        ((oneOfTwoCoder.encodeShards (readDataPieces uploadedSector oneOfTwoCoder 4194304)).getD
          0 [])) ∧
    repairedChunk.pieceUsage = [true, false] ∧
    repairedChunk.expectedPieceRoots = [uploadedSector, []] ∧
    fetchLocalLogicalChunkData plainCipher oneOfTwoCoder 4194304 repairedChunk
      (List.replicate 4194304 1) = .ok [none, some (List.replicate 4194304 1)] ∧
    ∀ x : List UInt8,
      (∀ i, repairedChunk.expectedPieceRoots.getD i [] ≠ [] →
        repairedChunk.expectedPieceRoots.getD i [] =
          plainCipher.merkleRoot (padAndEncryptPiece plainCipher 0 i
            ((oneOfTwoCoder.encodeShards (readDataPieces x oneOfTwoCoder 4194304)).getD i []))) →
      List.replicate 4194304 1 ≠ padAndEncryptPiece plainCipher 0 1
        ((oneOfTwoCoder.encodeShards (readDataPieces x oneOfTwoCoder 4194304)).getD 1 []) := by
  have usage : repairedChunk.pieceUsage = [true, false] := rfl
  have roots : repairedChunk.expectedPieceRoots = [uploadedSector, []] := rfl
  -- the only data piece is the chunk's sector, read whole and copied to both pieces
  have coded : ∀ y : List UInt8, ∀ i < 2, (oneOfTwoCoder.encodeShards
      (readDataPieces y oneOfTwoCoder 4194304)).getD i [] =
        (readDataPieces y oneOfTwoCoder 4194304).headD [] := by
    intro y i below
    match i, below with
    | 0, _ => rfl
    | 1, _ => rfl
  have sized : ∀ y : List UInt8,
      ((readDataPieces y oneOfTwoCoder 4194304).headD []).length = 4194304 := by
    intro y
    have mem : (readDataPieces y oneOfTwoCoder 4194304).headD [] ∈
        readDataPieces y oneOfTwoCoder 4194304 := List.mem_singleton_self _
    exact length_of_mem_readDataPieces mem
  have whole : ∀ y : List UInt8, y.length = 4194304 →
      (readDataPieces y oneOfTwoCoder 4194304).headD [] = y := by
    intro y length
    simp [readDataPieces, oneOfTwoCoder, List.take_of_length_le length.le, length]
  refine ⟨?_, usage, roots, ?_, ?_⟩
  · rw [coded _ 0 (by decide), padAndEncryptPiece_of_length plainCipher (sized _),
      whole uploadedSector List.length_replicate]
    rfl
  · -- the file's sector is read whole; piece 0 is in use and piece 1 has no root to compare
    have fileSized : (List.replicate 4194304 (1 : UInt8)).length = 4194304 := List.length_replicate
    show staticEncryptAndCheckIntegrity plainCipher repairedChunk
      ((oneOfTwoCoder.encodeShards (readDataPieces
        (((List.replicate 4194304 1).drop 0).take 4194304) oneOfTwoCoder 4194304)).map some) = _
    rw [List.drop_zero, List.take_of_length_le fileSized.le]
    show staticEncryptAndCheckIntegrity plainCipher repairedChunk
      [some ((readDataPieces (List.replicate 4194304 1) oneOfTwoCoder 4194304).headD []),
        some ((readDataPieces (List.replicate 4194304 1) oneOfTwoCoder 4194304).headD [])] = _
    rw [whole _ fileSized]
    have zero : plainCipher.zeroHash = [] := rfl
    have plain : ∀ c i piece, plainCipher.encryptBytes c i piece = piece := fun _ _ _ => rfl
    simp only [staticEncryptAndCheckIntegrity, List.zipIdx_cons, List.zipIdx_nil, List.map_cons,
      List.map_nil, checkPiece, usage, roots, List.getD_cons_zero, List.getD_cons_succ,
      padAndEncryptPiece_of_length plainCipher fileSized, zero, plain, ↓reduceIte,
      Bool.false_eq_true, List.any_cons, List.any_nil, Bool.or_false]
  · intro x consistent
    have nonempty : uploadedSector ≠ [] := by
      rw [uploadedSector, Ne, List.replicate_eq_nil_iff]
      decide
    have rooted := consistent 0 (by rw [roots]; exact nonempty)
    rw [coded _ 0 (by decide), padAndEncryptPiece_of_length plainCipher (sized _)] at rooted
    rw [coded _ 1 (by decide), padAndEncryptPiece_of_length plainCipher (sized _)]
    -- the root of piece 0 fixes the data, and the data piece is all zeros
    change uploadedSector = (readDataPieces x oneOfTwoCoder 4194304).headD [] at rooted
    change List.replicate 4194304 1 ≠ (readDataPieces x oneOfTwoCoder 4194304).headD []
    rw [← rooted, uploadedSector, Ne, List.replicate_right_inj (by decide)]
    decide

end Sia.Renter
