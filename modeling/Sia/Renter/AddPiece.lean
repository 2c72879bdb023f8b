import Sia.Renter.SiaFileChunk

/-! `SiaFile.AddPiece` of `modules/renter/filesystem/siafile/siafile.go`: the host's key is looked
up in the public-key table (and appended when new), the piece is appended to its set, and a
chunk that no longer fits its pages is defragmented by `defragChunk`, which keeps in each set at
most `maxPiecesPerSet` pieces of hosts still in use. The metadata and the table are backed up
first and restored by a deferred function whenever `AddPiece` returns an error. The chunks are
kept as `sf.chunk` reads them; saving the header and the chunk through the write-ahead log either
happens or fails as a whole, which `persisted` says. -/
namespace Sia.Renter

variable {H : Type}

/-- `HostPublicKey`: an entry of the public-key table. -/
structure HostPublicKey where
  publicKey : SiaPublicKey
  used : Bool
  deriving DecidableEq, Repr

/-- `PartialChunkInfo`: where a partial chunk sits in the combined chunks, and its status. -/
structure PartialChunkInfo where
  index : ℕ
  status : ℕ
  deriving DecidableEq, Repr

/-- `CombinedChunkStatusInComplete` and `CombinedChunkStatusCompleted`. -/
def combinedChunkStatusInComplete : ℕ := 1

def combinedChunkStatusCompleted : ℕ := 2

/-- The metadata fields `AddPiece` reads, and the times it sets. -/
structure PieceMetadata where
  staticPagesPerChunk : ℕ
  hasPartialChunk : Bool
  partialChunks : List PartialChunkInfo
  accessTime : ℕ
  changeTime : ℕ
  modTime : ℕ
  deriving DecidableEq, Repr

/-- A SiaFile as `AddPiece` sees it: the chunks are what `sf.chunk` reads from disk, `none` where
the read fails. -/
structure SiaFile (H : Type) where
  deleted : Bool
  numChunks : ℕ
  metadata : PieceMetadata
  pubKeyTable : List HostPublicKey
  chunks : List (Option (Chunk H))

/-- `CombinedChunkIndex`: which of the file's one or two combined chunks holds `chunkIndex`. -/
def combinedChunkIndex (numChunks chunkIndex : UInt64) (numCombinedChunks : ℕ) : Option ℕ :=
  if numCombinedChunks = 1 ∧ chunkIndex = numChunks - 1 then some 0
  else if numCombinedChunks = 2 ∧ chunkIndex = numChunks - 2 then some 0
  else if numCombinedChunks = 2 ∧ chunkIndex = numChunks - 1 then some 1
  else none

namespace SiaFile

variable (sf : SiaFile H)

/-- The partial chunk at index `idx`; `CombinedChunkIndex` only names ones that exist. -/
def partialChunk (idx : ℕ) : PartialChunkInfo := sf.metadata.partialChunks.getD idx ⟨0, 0⟩

/-- `isIncompletePartialChunk`. -/
def isIncompletePartialChunk (chunkIndex : UInt64) : Bool :=
  match combinedChunkIndex (UInt64.ofNat sf.numChunks) chunkIndex
      sf.metadata.partialChunks.length with
  | none => sf.metadata.hasPartialChunk && chunkIndex == UInt64.ofNat sf.numChunks - 1
  | some idx => decide ((sf.partialChunk idx).status < combinedChunkStatusCompleted)

/-- `isIncludedPartialChunk`. -/
def isIncludedPartialChunk (chunkIndex : UInt64) : Option PartialChunkInfo :=
  match combinedChunkIndex (UInt64.ofNat sf.numChunks) chunkIndex
      sf.metadata.partialChunks.length with
  | none => none
  | some idx =>
    if (sf.partialChunk idx).status ≥ combinedChunkStatusInComplete then some (sf.partialChunk idx)
    else none

end SiaFile

/-- The key `hostKey` pads a corrupt table with: no key, not used. -/
def dummyHostKey : HostPublicKey := ⟨⟨Vector.replicate 16 0, []⟩, false⟩

/-- `hostKey`: an offset past the table pads it with unused dummy keys first. -/
def hostKey (table : List HostPublicKey) (offset : UInt32) : List HostPublicKey × HostPublicKey :=
  let table := if offset.toNat ≥ table.length then
    table ++ List.replicate (offset.toNat + 1 - table.length) dummyHostKey else table
  (table, table.getD offset.toNat dummyHostKey)

/-- The inner loop of `defragChunk` over one piece set: stop once `maxPiecesPerSet` pieces are
kept, and keep a piece only if its host is used. -/
def defragSet (maxPiecesPerSet : ℕ) :
    List HostPublicKey → List (StoredPiece H) → List (StoredPiece H) →
      List HostPublicKey × List (StoredPiece H)
  | table, [], kept => (table, kept)
  | table, p :: rest, kept =>
    if kept.length = maxPiecesPerSet then (table, kept)
    else
      let (table, key) := hostKey table p.hostTableOffset
      defragSet maxPiecesPerSet table rest (if key.used then kept ++ [p] else kept)

/-- `maxPieces` of `defragChunk`: the pieces that fit the chunk's pages. -/
def maxPieces (pagesPerChunk : ℕ) : ℕ :=
  (pagesPerChunk * pageSize - marshaledChunkOverhead) / marshaledPieceSize

/-- `defragChunk`: every set cut down to `maxPiecesPerSet` pieces of used hosts, where the sets
share the pieces that fit the chunk's pages evenly. -/
def defragChunk (pagesPerChunk : ℕ) (table : List HostPublicKey) (c : Chunk H) :
    List HostPublicKey × Chunk H :=
  let maxPiecesPerSet := maxPieces pagesPerChunk / c.pieces.length
  let (table, pieces) := c.pieces.foldl (fun (table, sets) pieceSet =>
    let (table, kept) := defragSet maxPiecesPerSet table pieceSet []
    (table, sets ++ [kept])) (table, [])
  (table, { c with pieces := pieces })

/-! ### Defragmenting a chunk whose hosts are all in use -/

/-- The piece names a key of the table, and the host of that key is in use. -/
def UsedIn (table : List HostPublicKey) (p : StoredPiece H) : Prop :=
  ∃ key, table[p.hostTableOffset.toNat]? = some key ∧ key.used = true

theorem hostKey_of_mem {table : List HostPublicKey} {offset : UInt32} {key : HostPublicKey}
    (found : table[offset.toNat]? = some key) : hostKey table offset = (table, key) := by
  have inside : offset.toNat < table.length := (List.getElem?_eq_some_iff.mp found).1
  simp [hostKey, Nat.not_le.mpr inside, List.getD_eq_getElem?_getD, found]

/-- Over pieces of used hosts the loop keeps the first ones until it has `maxPiecesPerSet`. -/
theorem defragSet_used (maxPiecesPerSet : ℕ) (table : List HostPublicKey) :
    ∀ (pieceSet kept : List (StoredPiece H)), (∀ p ∈ pieceSet, UsedIn table p) →
      kept.length ≤ maxPiecesPerSet →
      defragSet maxPiecesPerSet table pieceSet kept =
        (table, kept ++ pieceSet.take (maxPiecesPerSet - kept.length))
  | [], kept, _, _ => by simp [defragSet]
  | p :: rest, kept, used, room => by
    by_cases full : kept.length = maxPiecesPerSet
    · simp [defragSet, full]
    · obtain ⟨key, found, inUse⟩ := used p List.mem_cons_self
      have next := defragSet_used maxPiecesPerSet table rest (kept ++ [p])
        (fun q member => used q (List.mem_cons_of_mem p member))
        (by rw [List.length_append, List.length_singleton]; omega)
      have gap : maxPiecesPerSet - kept.length = maxPiecesPerSet - (kept.length + 1) + 1 := by
        omega
      rw [defragSet, if_neg full, hostKey_of_mem found]
      simp only [inUse, if_true, next, List.length_append, List.length_singleton, gap,
        List.take_succ_cons, List.append_assoc, List.singleton_append]

/-- With every host in use, `defragChunk` cuts each set to its first `maxPiecesPerSet`
pieces and leaves the key table alone. -/
theorem defragChunk_used (pagesPerChunk : ℕ) (table : List HostPublicKey) (c : Chunk H)
    (used : ∀ pieceSet ∈ c.pieces, ∀ p ∈ pieceSet, UsedIn table p) :
    defragChunk pagesPerChunk table c =
      (table, { c with pieces := c.pieces.map (List.take (maxPieces pagesPerChunk / c.pieces.length)) }) := by
  suffices fold : ∀ (sets done : List (List (StoredPiece H))),
      (∀ pieceSet ∈ sets, ∀ p ∈ pieceSet, UsedIn table p) →
      sets.foldl (fun (acc : List HostPublicKey × List (List (StoredPiece H))) pieceSet =>
          let kept := defragSet (maxPieces pagesPerChunk / c.pieces.length) acc.1 pieceSet []
          (kept.1, acc.2 ++ [kept.2])) (table, done) =
        (table, done ++ sets.map (List.take (maxPieces pagesPerChunk / c.pieces.length))) by
    simp only [defragChunk]
    rw [fold c.pieces [] used, List.nil_append]
  intro sets
  induction sets with
  | nil => simp
  | cons pieceSet rest ih =>
    intro done used
    rw [List.foldl_cons, defragSet_used _ _ _ _ (used pieceSet List.mem_cons_self) (by simp)]
    simpa using ih (done ++ [pieceSet.take _]) fun s member => used s (List.mem_cons_of_mem _ member)

theorem sum_length_modify_append {α : Type} (x : α) :
    ∀ (sets : List (List α)) (i : ℕ), i < sets.length →
      ((sets.modify i (· ++ [x])).map List.length).sum = (sets.map List.length).sum + 1
  | [], _, inside => absurd inside (Nat.not_lt_zero _)
  | s :: sets, 0, _ => by simp; omega
  | s :: sets, i + 1, inside => by
    simp [sum_length_modify_append x sets i (by simpa using inside)]
    omega

theorem sum_length_take_le {α : Type} (m : ℕ) :
    ∀ sets : List (List α), ((sets.map (List.take m)).map List.length).sum ≤ m * sets.length
  | [] => by simp
  | s :: sets => by
    have rest := sum_length_take_le m sets
    simp only [List.map_cons, List.sum_cons, List.length_take, List.length_cons, Nat.mul_succ]
    have : min m s.length ≤ m := Nat.min_le_left _ _
    omega

theorem mem_modify_append {α : Type} {x : α} {s' : List α} :
    ∀ {sets : List (List α)} {i : ℕ}, s' ∈ sets.modify i (· ++ [x]) →
      s' ∈ sets ∨ ∃ s ∈ sets, s' = s ++ [x]
  | [], _, member => by simp at member
  | s :: sets, 0, member => by
    rcases List.mem_cons.mp (by simpa using member) with rfl | later
    · exact .inr ⟨s, List.mem_cons_self, rfl⟩
    · exact .inl (List.mem_cons_of_mem _ later)
  | s :: sets, i + 1, member => by
    rcases List.mem_cons.mp (by simpa using member) with rfl | later
    · exact .inl List.mem_cons_self
    · rcases mem_modify_append later with old | ⟨t, inSets, rfl⟩
      · exact .inl (List.mem_cons_of_mem _ old)
      · exact .inr ⟨t, List.mem_cons_of_mem _ inSets, rfl⟩

/-- After the defragmentation the chunk fits its pages again: no set holds more than its share
of the pieces that fit. -/
theorem defragged_fits {pagesPerChunk : ℕ} (pages : 0 < pagesPerChunk)
    (sets : List (List (StoredPiece H))) :
    marshaledChunkSize ((sets.map (List.take (maxPieces pagesPerChunk / sets.length))).map
      List.length).sum ≤ pagesPerChunk * pageSize := by
  have shares := sum_length_take_le (maxPieces pagesPerChunk / sets.length) sets
  have whole : maxPieces pagesPerChunk / sets.length * sets.length ≤ maxPieces pagesPerChunk :=
    Nat.div_mul_le_self _ _
  have room : marshaledChunkOverhead + marshaledPieceSize * maxPieces pagesPerChunk ≤
      pagesPerChunk * pageSize := by
    have page : pageSize ≤ pagesPerChunk * pageSize := Nat.le_mul_of_pos_left _ pages
    simp only [maxPieces, marshaledChunkOverhead, marshaledPieceSize, pageSize] at page ⊢
    omega
  unfold marshaledChunkSize
  have : marshaledPieceSize * ((sets.map (List.take (maxPieces pagesPerChunk / sets.length))).map
      List.length).sum ≤ marshaledPieceSize * maxPieces pagesPerChunk :=
    Nat.mul_le_mul_left _ (shares.trans (by rw [Nat.mul_comm] at whole ⊢; exact whole))
  omega

/-- The errors `AddPiece` returns, with the source's texts. -/
inductive AddPieceError where
  | message (text : String)
  | withContext (err : AddPieceError) (context : String)
  /-- The error of reading the chunk from disk. -/
  | readFailed
  /-- Saving the header or applying the write-ahead-log transaction failed. -/
  | persist
  deriving DecidableEq, Repr

/-- `ErrDeleted`. -/
def errDeleted : AddPieceError := .message "files was deleted"

/-- What `AddPiece` returns: `nil`, an error, or the result of `AddPiece` on the partials file,
which holds the combined chunk at `combinedIndex`. -/
inductive AddPieceResult where
  | ok
  | error (err : AddPieceError)
  | partialsFile (combinedIndex : ℕ)
  deriving DecidableEq, Repr

namespace SiaFile

variable (sf : SiaFile H)

/-- The chunk with the piece appended to its set, defragmented when it has outgrown its pages,
and the key table, which `defragChunk` may have padded. -/
def appendPiece (pagesPerChunk : ℕ) (table : List HostPublicKey) (chunk : Chunk H)
    (pieceIndex : UInt64) (piece : StoredPiece H) : List HostPublicKey × Chunk H :=
  let chunk := { chunk with pieces := chunk.pieces.modify pieceIndex.toNat (· ++ [piece]) }
  if marshaledChunkSize chunk.numPieces > pagesPerChunk * pageSize then
    defragChunk pagesPerChunk table chunk
  else (table, chunk)

/-- The file once the piece is appended: the access, change and modification times set, and the
key table as `defragChunk` left it. -/
def touch (now : ℕ) (table : List HostPublicKey) : SiaFile H :=
  { sf with
    metadata := { sf.metadata with accessTime := now, changeTime := now, modTime := now },
    pubKeyTable := table }

@[simp] theorem touch_deleted (now : ℕ) (table : List HostPublicKey) :
    (sf.touch now table).deleted = sf.deleted := rfl

@[simp] theorem touch_numChunks (now : ℕ) (table : List HostPublicKey) :
    (sf.touch now table).numChunks = sf.numChunks := rfl

@[simp] theorem touch_chunks (now : ℕ) (table : List HostPublicKey) :
    (sf.touch now table).chunks = sf.chunks := rfl

@[simp] theorem touch_staticPagesPerChunk (now : ℕ) (table : List HostPublicKey) :
    (sf.touch now table).metadata.staticPagesPerChunk = sf.metadata.staticPagesPerChunk := rfl

/-- The end of `AddPiece`: a chunk still too large after the defragmentation is refused, and
otherwise the header and the chunk are saved. -/
def saveAppended (now : ℕ) (persisted : Bool) (chunkIndex : UInt64)
    (appended : List HostPublicKey × Chunk H) : SiaFile H × Except AddPieceError Unit :=
  if marshaledChunkSize appended.2.numPieces > sf.metadata.staticPagesPerChunk * pageSize then
    (sf.touch now appended.1, .error (.message ("chunk doesn't fit into allocated space " ++
      toString (marshaledChunkSize appended.2.numPieces) ++ " > " ++
      toString (sf.metadata.staticPagesPerChunk * pageSize))))
  else if !persisted then (sf.touch now appended.1, .error .persist)
  else ({ sf.touch now appended.1 with
    chunks := sf.chunks.set chunkIndex.toNat (some appended.2) }, .ok ())

/-- The part of `AddPiece` after the key lookup, on the file whose key table is already
extended: the bounds checks, the append and the save. It returns the file as the source leaves
it at each `return`, before the deferred restore. -/
def storePiece (now : ℕ) (persisted : Bool) (tableIndex : ℕ) (chunkIndex pieceIndex : UInt64)
    (merkleRoot : H) : SiaFile H × Except AddPieceError Unit :=
  if chunkIndex ≥ UInt64.ofNat sf.numChunks then
    (sf, .error (.message ("chunkIndex " ++ toString chunkIndex ++ " out of bounds (" ++
      toString sf.numChunks ++ ")")))
  else
    match sf.chunks.getD chunkIndex.toNat none with
    | none => (sf, .error (.withContext .readFailed "failed to get chunk"))
    | some chunk =>
      if pieceIndex ≥ UInt64.ofNat chunk.pieces.length then
        (sf, .error (.message ("pieceIndex " ++ toString pieceIndex ++ " out of bounds (" ++
          toString chunk.pieces.length ++ ")")))
      else
        sf.saveAppended now persisted chunkIndex (appendPiece sf.metadata.staticPagesPerChunk
          sf.pubKeyTable chunk pieceIndex ⟨UInt32.ofNat tableIndex, merkleRoot⟩)

/-- The deferred function of `AddPiece`: on an error the metadata and the key table are put back
as they were backed up. -/
def restoreOnError (out : SiaFile H × Except AddPieceError Unit) : SiaFile H × AddPieceResult :=
  match out.2 with
  | .ok () => (out.1, .ok)
  | .error err => ({ out.1 with metadata := sf.metadata, pubKeyTable := sf.pubKeyTable }, .error err)

end SiaFile

/-- The key's index in the table, the key appended (as used) when the table lacks it. -/
def keyIndex (table : List HostPublicKey) (pk : SiaPublicKey) : List HostPublicKey × ℕ :=
  match table.findIdx? (·.publicKey == pk) with
  | some i => (table, i)
  | none => (table ++ [⟨pk, true⟩], table.length)

namespace SiaFile

variable (sf : SiaFile H)

/-- `AddPiece`, and the file after the call. -/
def addPiece (now : ℕ) (persisted : Bool) (pk : SiaPublicKey) (chunkIndex pieceIndex : UInt64)
    (merkleRoot : H) : SiaFile H × AddPieceResult :=
  if sf.deleted then (sf, .error (.withContext errDeleted "can't add piece to deleted file"))
  else if sf.isIncompletePartialChunk chunkIndex then
    (sf, .error (.message "can't add piece to incomplete partial chunk"))
  else
    match sf.isIncludedPartialChunk chunkIndex with
    | some cci => (sf, .partialsFile cci.index)
    | none =>
      let key := keyIndex sf.pubKeyTable pk
      sf.restoreOnError ({ sf with pubKeyTable := key.1 }.storePiece now persisted key.2 chunkIndex
        pieceIndex merkleRoot)

/-! ### A failed call leaves the file as it was -/

/-- The facts about the file that every error of `storePiece` leaves as they were. -/
def Untouched (stored : SiaFile H) : Prop :=
  stored.deleted = sf.deleted ∧ stored.numChunks = sf.numChunks ∧ stored.chunks = sf.chunks

theorem saveAppended_error_untouched {now : ℕ} {persisted : Bool} {chunkIndex : UInt64}
    {appended : List HostPublicKey × Chunk H} {err : AddPieceError}
    (failed : (sf.saveAppended now persisted chunkIndex appended).2 = .error err) :
    sf.Untouched (sf.saveAppended now persisted chunkIndex appended).1 := by
  unfold saveAppended at failed ⊢
  split_ifs at failed ⊢
  · exact ⟨rfl, rfl, rfl⟩
  · exact ⟨rfl, rfl, rfl⟩

/-- On every error `storePiece` has touched only the metadata and the key table. -/
theorem storePiece_error_untouched {now : ℕ} {persisted : Bool} {tableIndex : ℕ}
    {chunkIndex pieceIndex : UInt64} {merkleRoot : H} {err : AddPieceError}
    (failed : (sf.storePiece now persisted tableIndex chunkIndex pieceIndex merkleRoot).2 =
      .error err) :
    sf.Untouched (sf.storePiece now persisted tableIndex chunkIndex pieceIndex merkleRoot).1 := by
  unfold storePiece at failed ⊢
  split_ifs at failed ⊢
  · exact ⟨rfl, rfl, rfl⟩
  · split at failed
    · exact ⟨rfl, rfl, rfl⟩
    · split_ifs at failed ⊢
      · exact ⟨rfl, rfl, rfl⟩
      · exact sf.saveAppended_error_untouched failed

theorem restoreOnError_error {out : SiaFile H × Except AddPieceError Unit} {err : AddPieceError}
    (failed : (sf.restoreOnError out).2 = .error err) :
    out.2 = .error err ∧
      (sf.restoreOnError out).1 = { out.1 with metadata := sf.metadata, pubKeyTable := sf.pubKeyTable } := by
  obtain ⟨stored, result⟩ := out
  cases result with
  | ok => cases failed
  | error e =>
    cases failed
    exact ⟨rfl, rfl⟩

/-! ### A successful call -/

/-- A chunk that fits is saved with the header once the save is persisted. -/
theorem saveAppended_fits {now : ℕ} {chunkIndex : UInt64} {appended : List HostPublicKey × Chunk H}
    (fits : ¬ marshaledChunkSize appended.2.numPieces > sf.metadata.staticPagesPerChunk * pageSize) :
    sf.saveAppended now true chunkIndex appended =
      ({ sf.touch now appended.1 with chunks := sf.chunks.set chunkIndex.toNat (some appended.2) },
        .ok ()) := by
  rw [saveAppended, if_neg fits]
  rfl

/-- Past the bounds checks `storePiece` appends the piece to the chunk it read. -/
theorem storePiece_in_bounds {now : ℕ} {persisted : Bool} {tableIndex : ℕ}
    {chunkIndex pieceIndex : UInt64} {merkleRoot : H} {chunk : Chunk H}
    (inFile : chunkIndex < UInt64.ofNat sf.numChunks)
    (read : sf.chunks.getD chunkIndex.toNat none = some chunk)
    (inChunk : pieceIndex < UInt64.ofNat chunk.pieces.length) :
    sf.storePiece now persisted tableIndex chunkIndex pieceIndex merkleRoot =
      sf.saveAppended now persisted chunkIndex (appendPiece sf.metadata.staticPagesPerChunk
        sf.pubKeyTable chunk pieceIndex ⟨UInt32.ofNat tableIndex, merkleRoot⟩) := by
  rw [storePiece, if_neg (UInt64.not_le.mpr inFile)]
  simp only [read, if_neg (UInt64.not_le.mpr inChunk)]

/-- A call on a live, whole chunk of the file goes through to the store, on the file whose key
table holds the key. -/
theorem addPiece_live {now : ℕ} {persisted : Bool} {pk : SiaPublicKey}
    {chunkIndex pieceIndex : UInt64} {merkleRoot : H} {table : List HostPublicKey} {tableIndex : ℕ}
    (live : sf.deleted = false) (whole : sf.isIncompletePartialChunk chunkIndex = false)
    (notCombined : sf.isIncludedPartialChunk chunkIndex = none)
    (key : keyIndex sf.pubKeyTable pk = (table, tableIndex)) :
    sf.addPiece now persisted pk chunkIndex pieceIndex merkleRoot =
      sf.restoreOnError ({ sf with pubKeyTable := table }.storePiece now persisted tableIndex
        chunkIndex pieceIndex merkleRoot) := by
  simp only [addPiece, live, whole, notCombined, key, Bool.false_eq_true, if_false]

/-- A call that returns an error leaves the file, its metadata, key table and chunks, as it
was. -/
theorem addPiece_error_unchanged {now : ℕ} {persisted : Bool} {pk : SiaPublicKey}
    {chunkIndex pieceIndex : UInt64} {merkleRoot : H} {err : AddPieceError}
    (failed : (sf.addPiece now persisted pk chunkIndex pieceIndex merkleRoot).2 = .error err) :
    (sf.addPiece now persisted pk chunkIndex pieceIndex merkleRoot).1 = sf := by
  unfold addPiece at failed ⊢
  split_ifs at failed ⊢
  · rfl
  · rfl
  · split at failed
    · cases failed
    · obtain ⟨stored, restored⟩ := sf.restoreOnError_error failed
      obtain ⟨deleted, numChunks, chunks⟩ := storePiece_error_untouched _ stored
      rw [restored]
      cases sf
      simp_all

/-! ### The piece reported stored can be dropped -/

/-- A piece set holding the 101 pieces that fit one page, all stored on the host at offset 0. -/
def crowdedSet : List (StoredPiece (Vector UInt8 32)) :=
  List.replicate 101 ⟨0, Vector.replicate 32 1⟩

/-- A one-page file with one chunk made of the crowded set, its host the only key of the table. -/
def crowdedFile : SiaFile (Vector UInt8 32) where
  deleted := false
  numChunks := 1
  metadata := ⟨1, false, [], 0, 0, 0⟩
  pubKeyTable := [⟨⟨Vector.replicate 16 1, [1]⟩, true⟩]
  chunks := [some ⟨Vector.replicate 16 0, [crowdedSet], false⟩]

end SiaFile

end Sia.Renter
