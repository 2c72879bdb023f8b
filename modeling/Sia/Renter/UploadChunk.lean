import Sia.Lib.ThreadSum
import Sia.Renter.Repair
import Mathlib.Tactic.Ring

/-! The life of an unfinished upload chunk once its memory is granted (`modules/renter/uploadchunk.go`,
`workerupload.go`, `uploadchunkdistributionqueue.go`). `threadedFetchAndRepairChunk` fetches the
logical data, returns the erasure-coding memory and the memory of the pieces already uploaded, and
hands the chunk to the distribution queue, which offers it to a set of workers. Each worker that
takes it either drops it, stands by, or registers the first unused piece, uploads it and then
succeeds or fails; every one of these calls `managedCleanUpUploadChunk`, which releases the unused
pieces no remaining worker can take, closes the chunk's channels and removes the chunk from the
repair map once it is complete.

Goroutines interleave at the chunk's lock: each locked section is one step, and a call of
`managedCleanUpUploadChunk` or `managedNotifyStandbyWorkers` that a goroutine owes after its
section is a count of pending calls, taken in any later order. A worker's relation to the chunk
(offered, queued, standing by, uploading a piece) is its `Position`; which workers the
distribution picks, whether a worker may upload and whether an upload succeeds are the
arguments of the actions. The data of a piece is its length, nil being 0. Memory is counted in
`ℕ`: what the chunk returns stays below `staticMemoryNeeded`, a `uint64`. -/
namespace Sia.Renter.Upload

open ThreadSum

/-- The static fields of the chunk the lifecycle reads. -/
structure ChunkParams where
  /-- `modules.SectorSize` -/
  sectorSize : ℕ
  /-- `fileEntry.PieceSize()`, `SectorSize - Overhead()` for a file made by this version -/
  pieceSize : ℕ
  /-- `fileEntry.MasterKey().Type().Overhead()`: 0 but for Twofish -/
  overhead : ℕ
  /-- `staticMinimumPieces` -/
  minPieces : ℕ
  /-- `staticPiecesNeeded` -/
  numPieces : ℕ

namespace ChunkParams

variable (p : ChunkParams)

/-- `staticMemoryNeeded` as `managedBuildUnfinishedChunk` sets it: the logical data, the pieces,
and the encryption overhead of each piece. -/
def staticMemoryNeeded : ℕ := p.pieceSize * (p.numPieces + p.minPieces) + p.numPieces * p.overhead

def erasureCodingMemory : ℕ := p.pieceSize * p.minPieces

/-- The length of a piece after `padAndEncryptPiece`: padded to a sector, then encrypted. -/
def encryptedPieceLength : ℕ := max p.pieceSize p.sectorSize + p.overhead

/-- A file made by this version under a cipher that adds nothing (Threefish, the renter's default,
XChaCha20 or plain): its pieces are whole sectors. -/
structure Plain : Prop where
  overhead_eq : p.overhead = 0
  pieceSize_eq : p.pieceSize = p.sectorSize - p.overhead

variable {p}

theorem Plain.encryptedPieceLength_eq (plain : p.Plain) : p.encryptedPieceLength = p.sectorSize := by
  simp [encryptedPieceLength, plain.pieceSize_eq, plain.overhead_eq]

theorem Plain.staticMemoryNeeded_eq (plain : p.Plain) :
    p.staticMemoryNeeded = p.sectorSize * (p.numPieces + p.minPieces) := by
  simp [staticMemoryNeeded, plain.pieceSize_eq, plain.overhead_eq]

theorem Plain.erasureCodingMemory_eq (plain : p.Plain) :
    p.erasureCodingMemory = p.sectorSize * p.minPieces := by
  simp [erasureCodingMemory, plain.pieceSize_eq, plain.overhead_eq]

end ChunkParams

/-- One piece index: `pieceUsage[i]` and the length of `physicalChunkData[i]`. -/
structure PieceSlot where
  used : Bool
  data : ℕ
  deriving DecidableEq, Repr

/-- Where the chunk stands for one worker. -/
inductive Position where
  | idle
  /-- `callQueueUploadChunk` is deciding whether the worker queues the chunk -/
  | offered
  /-- in the worker's `unprocessedChunks` -/
  | queued
  /-- in the chunk's `workersStandby` -/
  | standby
  /-- the worker registered this piece and is uploading it -/
  | uploading (piece : ℕ)
  deriving DecidableEq, Repr

namespace Position

/-- The workers `workersRemaining` counts. -/
def remaining : Position → ℕ
  | .offered | .queued | .standby => 1
  | .idle | .uploading _ => 0

/-- The workers `piecesRegistered` counts. -/
def holding : Position → ℕ
  | .uploading _ => 1
  | .idle | .offered | .queued | .standby => 0

end Position

/-- How far `threadedFetchAndRepairChunk` got. -/
inductive Phase where
  | fetching
  /-- `r.tg.Add()` failed: the renter is stopping and the goroutine returned at once -/
  | stopped
  /-- in the upload chunk distribution queue -/
  | queued
  | distributed
  /-- `managedFetchLogicalChunkData` failed -/
  | fetchFailed
  deriving DecidableEq, Repr

inductive FetchOutcome where
  | stopped
  | failed
  | fetched
  deriving DecidableEq, Repr

/-- The fields of `unfinishedUploadChunk` its lifecycle reads and writes, the chunk's entry in
`repairingChunks`, the workers' positions and the calls under way. -/
structure Chunk (τ : Type) where
  phase : Phase
  pieces : List PieceSlot
  piecesCompleted : ℕ
  piecesRegistered : ℤ
  workersRemaining : ℤ
  memoryReleased : ℕ
  released : Bool
  canceled : Bool
  /-- how often `staticAvailableChan` was closed -/
  availableCloses : ℕ
  /-- how often `staticUploadCompletedChan` was closed -/
  uploadCompletedCloses : ℕ
  /-- the chunk is `repairingChunks[uc.id]` -/
  repairing : Bool
  /-- how often `managedMarkRepairDone` deleted it -/
  repairRemovals : ℕ
  /-- whether the worker's host is in `unusedHosts` -/
  unusedHosts : τ → Bool
  position : τ → Position
  /-- calls of `managedCleanUpUploadChunk` owed after a locked section -/
  cleanups : ℕ
  /-- calls of `managedNotifyStandbyWorkers` owed -/
  notifications : ℕ
  /-- `managedTryUpdate` calls waiting on `cancelWG` to mark the repair done -/
  cancels : ℕ

theorem count_true_add_countP_not (l : List Bool) : l.count true + l.countP (fun b => !b) = l.length := by
  induction l with
  | nil => rfl
  | cons b rest ih => cases b <;> simp <;> omega

/-- The number of unused piece indices. -/
def unusedPieces (pieces : List PieceSlot) : ℕ := pieces.countP fun s => !s.used

/-- The loop of `managedCleanUpUploadChunk` from one index on, with `piecesAvailable` so far: an
unused piece counts as available while fewer than `workersRemaining` are, and is released after
that (marked used, its data nil). Gives the pieces, `piecesAvailable` and how many were released. -/
def releasePieces (workersRemaining : ℤ) : List PieceSlot → ℕ → List PieceSlot × ℕ × ℕ
  | [], piecesAvailable => ([], piecesAvailable, 0)
  | s :: rest, piecesAvailable =>
    if s.used then
      let r := releasePieces workersRemaining rest piecesAvailable
      (s :: r.1, r.2)
    else if workersRemaining ≤ piecesAvailable then
      let r := releasePieces workersRemaining rest piecesAvailable
      (⟨true, 0⟩ :: r.1, r.2.1, r.2.2 + 1)
    else
      let r := releasePieces workersRemaining rest (piecesAvailable + 1)
      (s :: r.1, r.2)

/-! ### Counting unused pieces -/

theorem unusedPieces_modify (f : PieceSlot → PieceSlot) {l : List PieceSlot} {i : ℕ}
    (h : i < l.length) :
    unusedPieces (l.modify i f) + (if l[i].used then 0 else 1) =
      unusedPieces l + (if (f l[i]).used then 0 else 1) := by
  have counted : (if l[i].used then 0 else 1) ≤ unusedPieces l := by
    split
    · exact Nat.zero_le _
    · next unused => exact List.countP_pos_iff.mpr ⟨l[i], List.getElem_mem h, by simpa using unused⟩
  simp only [unusedPieces] at counted ⊢
  rw [List.modify_eq_set_get f h, List.countP_set h, List.get_eq_getElem]
  split <;> split <;> simp_all

/-- A piece taken by a worker is one unused piece less. -/
theorem unusedPieces_take {l : List PieceSlot} {i : ℕ} (h : i < l.length) (unused : l[i].used = false) :
    unusedPieces (l.modify i fun s => { s with used := true }) + 1 = unusedPieces l := by
  simpa [unused] using unusedPieces_modify (fun s => { s with used := true }) h

/-- A piece given back is one unused piece more. -/
theorem unusedPieces_giveBack {l : List PieceSlot} {i : ℕ} (h : i < l.length) (used : l[i].used = true) :
    unusedPieces (l.modify i fun s => { s with used := false }) = unusedPieces l + 1 := by
  simpa [used] using unusedPieces_modify (fun s => { s with used := false }) h

theorem unusedPieces_modify_data {l : List PieceSlot} {i : ℕ} (h : i < l.length) (n : ℕ) :
    unusedPieces (l.modify i fun s => { s with data := n }) = unusedPieces l := by
  simpa using unusedPieces_modify (fun s => { s with data := n }) h

/-! ### The release loop -/

section Release

variable (workersRemaining : ℤ)

@[simp] theorem length_releasePieces (l : List PieceSlot) (piecesAvailable : ℕ) :
    (releasePieces workersRemaining l piecesAvailable).1.length = l.length := by
  induction l generalizing piecesAvailable with
  | nil => rfl
  | cons s rest ih => unfold releasePieces; split_ifs <;> simp [ih]

/-- The loop releases as many pieces as it marks used. -/
theorem unusedPieces_releasePieces (l : List PieceSlot) (piecesAvailable : ℕ) :
    unusedPieces (releasePieces workersRemaining l piecesAvailable).1 +
      (releasePieces workersRemaining l piecesAvailable).2.2 = unusedPieces l := by
  induction l generalizing piecesAvailable with
  | nil => rfl
  | cons s rest ih =>
    unfold releasePieces
    split_ifs with used <;> simp only [unusedPieces, List.countP_cons] at ih ⊢ <;> simp [used] <;> grind

/-- Once `workersRemaining` pieces are available, every unused piece left is released. -/
theorem releasePieces_all {l : List PieceSlot} {piecesAvailable : ℕ}
    (enough : workersRemaining ≤ piecesAvailable) :
    unusedPieces (releasePieces workersRemaining l piecesAvailable).1 = 0 := by
  induction l generalizing piecesAvailable with
  | nil => rfl
  | cons s rest ih =>
    unfold releasePieces
    split_ifs with used <;> simp only [unusedPieces, List.countP_cons] at ih ⊢ <;> simp [used, ih enough]

/-- Each index keeps its piece, or had an unused one and now has a released one. -/
theorem getElem?_releasePieces (l : List PieceSlot) (piecesAvailable i : ℕ) :
    (releasePieces workersRemaining l piecesAvailable).1[i]? = l[i]? ∨
      ∃ s, l[i]? = some s ∧ s.used = false ∧
        (releasePieces workersRemaining l piecesAvailable).1[i]? = some ⟨true, 0⟩ := by
  induction l generalizing piecesAvailable i with
  | nil => simp [releasePieces]
  | cons s rest ih =>
    unfold releasePieces
    cases i with
    | zero => split_ifs with used released <;> simp [used]
    | succ i => split_ifs <;> simpa using ih _ i

end Release

namespace Chunk

variable {τ : Type} [DecidableEq τ] (p : ChunkParams)

/-- The chunk as `managedBuildUnfinishedChunk` leaves it, its memory granted: the piece indices
in use and the count of completed pieces, no data yet, in the repair map. -/
def new (pieceUsage : List Bool) (piecesCompleted : ℕ) (unusedHosts : τ → Bool) : Chunk τ where
  phase := .fetching
  pieces := pieceUsage.map fun used => ⟨used, 0⟩
  piecesCompleted := piecesCompleted
  piecesRegistered := 0
  workersRemaining := 0
  memoryReleased := 0
  released := false
  canceled := false
  availableCloses := 0
  uploadCompletedCloses := 0
  repairing := true
  repairRemovals := 0
  unusedHosts := unusedHosts
  position := fun _ => .idle
  cleanups := 0
  notifications := 0
  cancels := 0

variable (c : Chunk τ)

/-- `chunkComplete`: every piece uploaded, or no upload under way and no worker left. -/
def chunkComplete : Bool :=
  (c.piecesCompleted = p.numPieces && c.piecesRegistered = 0) ||
    (c.workersRemaining = 0 && c.piecesRegistered = 0)

/-- `staticAvailable`: `staticAvailableChan` is closed. -/
def staticAvailable : Bool := c.availableCloses ≠ 0

/-- `staticUploadComplete`: `staticUploadCompletedChan` is closed. -/
def staticUploadComplete : Bool := c.uploadCompletedCloses ≠ 0

/-- `uploadHeap.managedMarkRepairDone`: the chunk leaves `repairingChunks` if it is still there
(the map holds a chunk of the same id only while it is this one). -/
def markRepairDone : Chunk τ :=
  if c.repairing then { c with repairing := false, repairRemovals := c.repairRemovals + 1 } else c

/-- `threadedFetchAndRepairChunk` up to the hand-over to the distribution queue. Either way the
fetch ends, the erasure-coding memory and a sector for each piece in use go back; a failed fetch
leaves no worker and calls the cleanup, a fetched one holds each unused piece padded and
encrypted. -/
def threadedFetchAndRepairChunk : FetchOutcome → Chunk τ
  | .stopped => { c with phase := .stopped }
  | .failed =>
    { c with phase := .fetchFailed,
             memoryReleased := c.memoryReleased + (p.erasureCodingMemory +
               p.sectorSize * c.pieces.countP (·.used)),
             workersRemaining := 0,
             cleanups := c.cleanups + 1 }
  | .fetched =>
    { c with phase := .queued,
             memoryReleased := c.memoryReleased + (p.erasureCodingMemory +
               p.sectorSize * c.pieces.countP (·.used)),
             pieces := c.pieces.map fun s =>
               if s.used then { s with data := 0 } else { s with data := p.encryptedPieceLength } }

/-- `managedDistributeChunkToWorkers`: the workers picked all count as remaining and are offered
the chunk, and the cleanup after the offers is owed. -/
def managedDistributeChunkToWorkers (workers : Finset τ) : Chunk τ :=
  { c with phase := .distributed,
           workersRemaining := c.workersRemaining + workers.card,
           position := fun w => if w ∈ workers then .offered else c.position w,
           cleanups := c.cleanups + 1 }

/-- `managedDropChunk`: the worker no longer counts, and a cleanup is owed. -/
def managedDropChunk (w : τ) : Chunk τ :=
  { c with workersRemaining := c.workersRemaining - 1,
           position := Function.update c.position w .idle,
           cleanups := c.cleanups + 1 }

/-- `callQueueUploadChunk`: a worker that may upload and whose host is unused queues the chunk;
any other drops it. -/
def callQueueUploadChunk (w : τ) (usable : Bool) : Chunk τ :=
  if !usable || !c.unusedHosts w then c.managedDropChunk w
  else { c with position := Function.update c.position w .queued }

/-- The end of `managedProcessUploadChunk`: the worker takes piece `i`, its host is no longer
unused, and it counts as registered instead of remaining. -/
def registerPiece (w : τ) (i : ℕ) : Chunk τ :=
  { c with pieces := c.pieces.modify i fun s => { s with used := true },
           unusedHosts := Function.update c.unusedHosts w false,
           piecesRegistered := c.piecesRegistered + 1,
           workersRemaining := c.workersRemaining - 1,
           position := Function.update c.position w (.uploading i) }

/-- `managedProcessUploadChunk`: a worker that cannot help drops the chunk, one that is not needed
stands by, and any other registers the first unused piece. -/
def managedProcessUploadChunk (w : τ) (usable : Bool) : Chunk τ :=
  if p.numPieces ≤ c.piecesCompleted || !c.unusedHosts w || !usable then c.managedDropChunk w
  else if !((c.piecesCompleted : ℤ) + c.piecesRegistered < p.numPieces) then
    { c with position := Function.update c.position w .standby, cleanups := c.cleanups + 1 }
  else
    match c.pieces.findIdx? fun s => !s.used with
    -- `build.Critical`: no unused piece
    | none => c.managedDropChunk w
    | some i => c.registerPiece w i

/-- `managedPerformUploadChunkJob` up to the upload: a canceled chunk is dropped. -/
def managedPerformUploadChunkJob (w : τ) (usable : Bool) : Chunk τ :=
  if c.canceled then c.managedDropChunk w else c.managedProcessUploadChunk p w usable

/-- The end of `managedPerformUploadChunkJob` after a successful upload: the piece is complete
and its data's memory goes back. -/
def uploadSucceeded (w : τ) (i : ℕ) : Chunk τ :=
  { c with piecesRegistered := c.piecesRegistered - 1,
           piecesCompleted := c.piecesCompleted + 1,
           pieces := c.pieces.modify i fun s => { s with data := 0 },
           memoryReleased := c.memoryReleased + ((c.pieces[i]?.map PieceSlot.data).getD 0),
           position := Function.update c.position w .idle,
           cleanups := c.cleanups + 1 }

/-- `managedUploadFailed`: the piece is unused again, and the standby workers are notified before
the cleanup. -/
def managedUploadFailed (w : τ) (i : ℕ) : Chunk τ :=
  { c with piecesRegistered := c.piecesRegistered - 1,
           pieces := c.pieces.modify i fun s => { s with used := false },
           position := Function.update c.position w .idle,
           notifications := c.notifications + 1,
           cleanups := c.cleanups + 1 }

/-- `managedNotifyStandbyWorkers`: every standby worker is offered the chunk again. -/
def managedNotifyStandbyWorkers : Chunk τ :=
  { c with notifications := c.notifications - 1,
           position := fun w => if c.position w = .standby then .offered else c.position w }

/-- The availability check of `managedCleanUpUploadChunk`: a chunk with enough pieces completed and
not released yet closes `staticAvailableChan`, unless it is closed. -/
def checkAvailable : Chunk τ :=
  if p.minPieces ≤ c.piecesCompleted && !c.staticAvailable && !c.released then
    { c with availableCloses := c.availableCloses + 1 }
  else c

/-- The completion check of `managedCleanUpUploadChunk`: a complete chunk closes
`staticUploadCompletedChan` unless it is closed. -/
def closeUploadCompleted : Chunk τ :=
  if !c.staticUploadComplete && c.chunkComplete p then
    { c with uploadCompletedCloses := c.uploadCompletedCloses + 1 }
  else c

/-- A complete chunk not yet released is released, closing `staticAvailableChan` if it is still
open. -/
def releaseComplete : Chunk τ :=
  if c.chunkComplete p && !c.released then
    { c with availableCloses := if c.staticAvailable then c.availableCloses else c.availableCloses + 1,
             released := true }
  else c

/-- `managedCleanUpUploadChunk`: under the lock, the release loop and the checks; after it, the
standby notification when a piece is available and the removal from the repair map of a chunk
just released. The loop and the checks leave the counters `chunkComplete` reads as they were. -/
def managedCleanUpUploadChunk : Chunk τ :=
  let loop := releasePieces c.workersRemaining c.pieces 0
  let locked := (({ c with pieces := loop.1, cleanups := c.cleanups - 1 }.checkAvailable p).closeUploadCompleted
    p).releaseComplete p
  let unlocked := { locked with
    memoryReleased := locked.memoryReleased + p.sectorSize * loop.2.2,
    notifications := if 0 < loop.2.1 then locked.notifications + 1 else locked.notifications }
  if c.chunkComplete p && !c.released then unlocked.markRepairDone else unlocked

/-- `managedTryUpdate` finding this chunk under repair: it is canceled, and the caller waits on
`cancelWG`. -/
def cancel : Chunk τ := { c with canceled := true, cancels := c.cancels + 1 }

/-- `managedTryUpdate` after `cancelWG.Wait()`: the repair is marked done. -/
def cancelDone : Chunk τ := { c.markRepairDone with cancels := c.cancels - 1 }

end Chunk

/-- The steps of the goroutines that share the chunk, with the choices of their environment. -/
inductive Action (τ : Type) where
  | fetch (outcome : FetchOutcome)
  | distribute (workers : Finset τ)
  | offer (w : τ) (usable : Bool)
  | process (w : τ) (usable : Bool)
  /-- `managedDropUploadChunks` of a worker whose queue holds the chunk -/
  | dropQueued (w : τ)
  | upload (w : τ) (succeeded : Bool)
  | notify
  | cleanUp
  | cancel
  | cancelDone

namespace Chunk

variable {τ : Type} [Fintype τ] [DecidableEq τ] (p : ChunkParams)

/-- One step, `none` when the action is not enabled. -/
def step (c : Chunk τ) : Action τ → Option (Chunk τ)
  | .fetch outcome =>
    if c.phase = .fetching then some (c.threadedFetchAndRepairChunk p outcome) else none
  | .distribute workers =>
    if c.phase = .queued then some (c.managedDistributeChunkToWorkers workers) else none
  | .offer w usable =>
    if c.position w = .offered then some (c.callQueueUploadChunk w usable) else none
  | .process w usable =>
    if c.position w = .queued then some (c.managedPerformUploadChunkJob p w usable) else none
  | .dropQueued w => if c.position w = .queued then some (c.managedDropChunk w) else none
  | .upload w succeeded =>
    match c.position w with
    | .uploading i => some (if succeeded then c.uploadSucceeded w i else c.managedUploadFailed w i)
    | _ => none
  | .notify => if 0 < c.notifications then some c.managedNotifyStandbyWorkers else none
  | .cleanUp => if 0 < c.cleanups then some (c.managedCleanUpUploadChunk p) else none
  | .cancel => if c.repairing then some c.cancel else none
  | .cancelDone =>
    if 0 < c.cancels ∧ ∀ w, (c.position w).holding = 0 then some c.cancelDone
    else none

/-- Steps taken one after another; `none` once one of them is not enabled. -/
def run (c : Chunk τ) : List (Action τ) → Option (Chunk τ)
  | [] => some c
  | a :: as => (c.step p a).bind fun c' => c'.run as

/-- The states some interleaving reaches from a chunk just built. -/
inductive Reachable : Chunk τ → Prop where
  | init {pieceUsage : List Bool} {piecesCompleted : ℕ} (unusedHosts : τ → Bool)
      (sized : pieceUsage.length = p.numPieces) (counted : piecesCompleted = pieceUsage.count true) :
      Reachable (new pieceUsage piecesCompleted unusedHosts)
  | step {c c' : Chunk τ} (a : Action τ) : Reachable c → c.step p a = some c' → Reachable c'

/-- The chunk `managedBuildUnfinishedChunk` builds, given to the lifecycle: its usage flags, its
completed count, and which workers' hosts it left unused. -/
def ofBuilt {K H : Type} [DecidableEq K] (uuc : UnfinishedUploadChunk K H) (hostOf : τ → K) : Chunk τ :=
  new uuc.pieceUsage uuc.piecesCompleted fun w => decide (hostOf w ∈ uuc.unusedHosts)

variable {p} in
/-- Every chunk built from a file's piece sets starts a lifecycle. -/
theorem Reachable.built {K H : Type} [DecidableEq K] (goodForRenew offline : K → Option Bool)
    (zeroHash : H) (ec : ErasureCoder) (chunkSize chunkIndex : ℕ) (hosts : Finset K)
    {pieces : List (List (Piece K H))} (fits : pieces.length ≤ ec.numPieces)
    (numPieces : p.numPieces = ec.numPieces) (hostOf : τ → K) :
    Reachable p (ofBuilt (buildUnfinishedChunk goodForRenew offline zeroHash ec chunkSize chunkIndex
      hosts pieces) hostOf) := by
  obtain ⟨sized, counted⟩ :=
    buildUnfinishedChunk_counted goodForRenew offline zeroHash ec chunkSize chunkIndex hosts fits
  exact .init _ (sized.trans numPieces.symm) counted

variable {p} in
theorem Reachable.runs {c c' : Chunk τ} (reach : Reachable p c) {as : List (Action τ)}
    (ran : c.run p as = some c') : Reachable p c' := by
  induction as generalizing c with
  | nil =>
    obtain rfl := Option.some.inj ran
    exact reach
  | cons a as ih =>
    obtain ⟨c₁, stepped, rest⟩ := Option.bind_eq_some_iff.mp ran
    exact ih (.step a reach stepped) rest

end Chunk

namespace Position

theorem holding_eq_zero_iff {q : Position} : q.holding = 0 ↔ ∀ i, q ≠ .uploading i := by
  cases q <;> simp [holding]

theorem holding_of_remaining {q : Position} (listed : q.remaining = 1) : q.holding = 0 := by
  cases q <;> simp_all [remaining, holding]

end Position

/-- Moving a worker between positions that hold no piece leaves every holder as it was. -/
theorem uploading_update {τ : Type} [DecidableEq τ] {pos : τ → Position} {w : τ} {q : Position}
    (old : (pos w).holding = 0) (new : q.holding = 0) (v : τ) (i : ℕ) :
    Function.update pos w q v = .uploading i ↔ pos v = .uploading i := by
  by_cases same : v = w
  · subst same
    rw [Function.update_self]
    exact ⟨fun h => absurd h (Position.holding_eq_zero_iff.mp new i),
      fun h => absurd h (Position.holding_eq_zero_iff.mp old i)⟩
  · rw [Function.update_of_ne same]

namespace Chunk

variable {τ : Type} [DecidableEq τ] (p : ChunkParams) (c : Chunk τ)

omit [DecidableEq τ] in
theorem chunkComplete_iff : c.chunkComplete p = true ↔
    (c.piecesCompleted = p.numPieces ∧ c.piecesRegistered = 0) ∨
      (c.workersRemaining = 0 ∧ c.piecesRegistered = 0) := by
  simp [chunkComplete]

/-! ### What the cleanup changes -/

section CleanUp

omit [DecidableEq τ] in
theorem markRepairDone_eq : c.markRepairDone =
    { c with repairing := false, repairRemovals := c.repairRemovals + if c.repairing then 1 else 0 } := by
  unfold markRepairDone
  cases c
  split <;> simp_all

omit [DecidableEq τ] in
theorem checkAvailable_eq : c.checkAvailable p =
    { c with availableCloses := c.availableCloses +
        if p.minPieces ≤ c.piecesCompleted ∧ c.availableCloses = 0 ∧ c.released = false then 1 else 0 } := by
  unfold checkAvailable staticAvailable
  cases c
  split <;> simp_all

omit [DecidableEq τ] in
theorem closeUploadCompleted_eq : c.closeUploadCompleted p =
    { c with uploadCompletedCloses := c.uploadCompletedCloses +
        if c.uploadCompletedCloses = 0 ∧ c.chunkComplete p then 1 else 0 } := by
  unfold closeUploadCompleted staticUploadComplete
  cases c
  split <;> simp_all [chunkComplete]

omit [DecidableEq τ] in
theorem releaseComplete_eq : c.releaseComplete p =
    { c with availableCloses := c.availableCloses +
               if c.chunkComplete p ∧ c.released = false ∧ c.availableCloses = 0 then 1 else 0,
             released := c.released || c.chunkComplete p } := by
  unfold releaseComplete staticAvailable
  cases c
  split_ifs <;> simp_all [chunkComplete]

omit [DecidableEq τ] in
/-- The cleanup as one update: the loop's pieces and released memory, the channels closed once,
the release of a complete chunk and its removal from the repair map. -/
theorem managedCleanUpUploadChunk_eq : c.managedCleanUpUploadChunk p =
    { c with pieces := (releasePieces c.workersRemaining c.pieces 0).1,
             cleanups := c.cleanups - 1,
             availableCloses := c.availableCloses + if c.availableCloses = 0 ∧ c.released = false ∧
               (p.minPieces ≤ c.piecesCompleted ∨ c.chunkComplete p) then 1 else 0,
             uploadCompletedCloses := c.uploadCompletedCloses +
               if c.uploadCompletedCloses = 0 ∧ c.chunkComplete p then 1 else 0,
             released := c.released || c.chunkComplete p,
             memoryReleased := c.memoryReleased + p.sectorSize * (releasePieces c.workersRemaining c.pieces 0).2.2,
             notifications := c.notifications + if 0 < (releasePieces c.workersRemaining c.pieces 0).2.1 then 1 else 0,
             repairing := c.repairing && !(c.chunkComplete p && !c.released),
             repairRemovals := c.repairRemovals +
               if c.repairing ∧ c.chunkComplete p ∧ c.released = false then 1 else 0 } := by
  simp only [managedCleanUpUploadChunk, checkAvailable_eq, closeUploadCompleted_eq, releaseComplete_eq]
  cases c
  split <;> simp_all [markRepairDone_eq, chunkComplete] <;> split_ifs <;> grind

omit [DecidableEq τ] in
theorem managedCleanUpUploadChunk_chunkComplete :
    (c.managedCleanUpUploadChunk p).chunkComplete p = c.chunkComplete p := by
  rw [managedCleanUpUploadChunk_eq]
  rfl

omit [DecidableEq τ] in
theorem managedCleanUpUploadChunk_released :
    (c.managedCleanUpUploadChunk p).released = (c.released || c.chunkComplete p) := by
  rw [managedCleanUpUploadChunk_eq]

end CleanUp

end Chunk

/-! ### The invariant -/

namespace Chunk

variable {τ : Type} [Fintype τ] (p : ChunkParams)

/-- What every reachable chunk satisfies: the counters are what the positions say, an uploading
worker holds a used piece no other worker holds, completed, registered and unused pieces fit in
`staticPiecesNeeded`, and a released chunk has nothing left to do. With no cleanup owed, a
complete chunk is released. -/
structure Sound (c : Chunk τ) : Prop where
  length : c.pieces.length = p.numPieces
  remaining : c.workersRemaining = total Position.remaining c.position
  registered : c.piecesRegistered = total Position.holding c.position
  holder_used : ∀ w i, c.position w = .uploading i → ∃ s, c.pieces[i]? = some s ∧ s.used = true
  holder_unique : ∀ w w' i, c.position w = .uploading i → c.position w' = .uploading i → w = w'
  counted : (c.piecesCompleted : ℤ) + c.piecesRegistered + unusedPieces c.pieces ≤ p.numPieces
  idle : c.phase ≠ .distributed → ∀ w, c.position w = .idle
  settled : c.phase ≠ .distributed → c.phase ≠ .fetchFailed → c.cleanups = 0 ∧ c.released = false
  clean : c.cleanups = 0 → c.phase = .distributed ∨ c.phase = .fetchFailed → c.chunkComplete p = true →
    c.released = true ∧ c.uploadCompletedCloses = 1
  released_done : c.released = true → c.piecesRegistered = 0 ∧ unusedPieces c.pieces = 0 ∧
    (p.numPieces ≤ c.piecesCompleted ∨ c.workersRemaining = 0) ∧ c.availableCloses = 1 ∧
    c.repairing = false
  availableCloses_le : c.availableCloses ≤ 1
  uploadCompletedCloses_le : c.uploadCompletedCloses ≤ 1
  removals : c.repairRemovals = if c.repairing then 0 else 1

variable {p} {c : Chunk τ}

theorem Sound.remaining_pos (sound : Sound p c) {w : τ} (listed : (c.position w).remaining = 1) :
    0 < c.workersRemaining := by
  have := weight_le_total Position.remaining c.position w
  rw [sound.remaining]
  omega

theorem Sound.registered_pos (sound : Sound p c) {w : τ} {i : ℕ} (holds : c.position w = .uploading i) :
    0 < c.piecesRegistered := by
  have := weight_le_total Position.holding c.position w
  rw [holds, Position.holding] at this
  rw [sound.registered]
  omega

theorem Sound.registered_nonneg (sound : Sound p c) : 0 ≤ c.piecesRegistered := by
  rw [sound.registered]
  omega

theorem Sound.distributed (sound : Sound p c) {w : τ} (busy : c.position w ≠ .idle) :
    c.phase = .distributed := by
  by_contra other
  exact busy (sound.idle other w)

/-- The piece an uploading worker holds is in range and used. -/
theorem Sound.holding (sound : Sound p c) {w : τ} {i : ℕ} (holds : c.position w = .uploading i) :
    ∃ h : i < c.pieces.length, c.pieces[i].used = true := by
  obtain ⟨s, found, used⟩ := sound.holder_used w i holds
  obtain ⟨h, rfl⟩ := List.getElem?_eq_some_iff.mp found
  exact ⟨h, used⟩

variable [DecidableEq τ]

/-- Drops move a listed worker to idle. -/
theorem Sound.managedDropChunk (sound : Sound p c) {w : τ} (listed : (c.position w).remaining = 1) :
    Sound p (c.managedDropChunk w) := by
  have held := Position.holding_of_remaining listed
  have distributed := sound.distributed (w := w) (by intro idle; simp [idle, Position.remaining] at listed)
  have positive := sound.remaining_pos listed
  have moved := total_update Position.remaining c.position w .idle
  have kept := total_update Position.holding c.position w .idle
  rw [listed] at moved
  rw [held] at kept
  have holders := uploading_update held (show Position.holding .idle = 0 from rfl)
  exact {
    length := sound.length
    remaining := by
      dsimp only [Chunk.managedDropChunk]
      rw [sound.remaining]
      simp only [Position.remaining] at moved
      omega
    registered := by
      dsimp only [Chunk.managedDropChunk]
      rw [sound.registered]
      simp only [Position.holding] at kept
      omega
    holder_used := fun v i holds => sound.holder_used v i ((holders v i).mp holds)
    holder_unique := fun v v' i holds holds' =>
      sound.holder_unique v v' i ((holders v i).mp holds) ((holders v' i).mp holds')
    counted := sound.counted
    idle := fun other => absurd distributed other
    settled := fun other => absurd distributed other
    clean := fun zero => by simp [Chunk.managedDropChunk] at zero
    released_done := fun released => by
      obtain ⟨registered, unused, done, available, repairing⟩ := sound.released_done released
      refine ⟨registered, unused, ?_, available, repairing⟩
      dsimp only [Chunk.managedDropChunk]
      omega
    availableCloses_le := sound.availableCloses_le
    uploadCompletedCloses_le := sound.uploadCompletedCloses_le
    removals := sound.removals }


/-- A listed worker moving to another listed position changes neither count. -/
theorem total_move {pos : τ → Position} {w : τ} {q : Position} (listed : (pos w).remaining = 1)
    (listed' : q.remaining = 1) :
    total Position.remaining (Function.update pos w q) = total Position.remaining pos ∧
      total Position.holding (Function.update pos w q) = total Position.holding pos := by
  have moved := total_update Position.remaining pos w q
  have kept := total_update Position.holding pos w q
  rw [listed, listed'] at moved
  rw [Position.holding_of_remaining listed, Position.holding_of_remaining listed'] at kept
  omega

omit [DecidableEq τ] in
theorem sound_new {pieceUsage : List Bool} {piecesCompleted : ℕ} (unusedHosts : τ → Bool)
    (sized : pieceUsage.length = p.numPieces) (counted : piecesCompleted = pieceUsage.count true) :
    Sound p (new pieceUsage piecesCompleted unusedHosts) where
  length := by simp [new, sized]
  remaining := by simp [new, total, Position.remaining]
  registered := by simp [new, total, Position.holding]
  holder_used := by simp [new]
  holder_unique := by simp [new]
  counted := by
    have split := count_true_add_countP_not pieceUsage
    simp only [new, unusedPieces, List.countP_map, counted, Function.comp_def]
    omega
  idle _ _ := rfl
  settled _ _ := ⟨rfl, rfl⟩
  clean _ phase := by simp [new] at phase
  released_done := by simp [new]
  availableCloses_le := by simp [new]
  uploadCompletedCloses_le := by simp [new]
  removals := rfl

omit [DecidableEq τ] in
/-- The fetch ends with every worker idle. -/
theorem Sound.threadedFetchAndRepairChunk (sound : Sound p c) (fetching : c.phase = .fetching)
    (outcome : FetchOutcome) : Sound p (c.threadedFetchAndRepairChunk p outcome) := by
  have idle := sound.idle (by simp [fetching])
  obtain ⟨quiet, unreleased⟩ := sound.settled (by simp [fetching]) (by simp [fetching])
  have none : total Position.remaining c.position = 0 := by simp [total, idle, Position.remaining]
  have unheld : ∀ w i, c.position w ≠ .uploading i := fun w i => by simp [idle w]
  cases outcome with
  | stopped => exact {
      length := sound.length
      remaining := sound.remaining
      registered := sound.registered
      holder_used := sound.holder_used
      holder_unique := sound.holder_unique
      counted := sound.counted
      idle := fun _ => idle
      settled := fun _ _ => ⟨quiet, unreleased⟩
      clean := fun _ phase => by simp [Chunk.threadedFetchAndRepairChunk] at phase
      released_done := fun released => absurd released (by simp [Chunk.threadedFetchAndRepairChunk, unreleased])
      availableCloses_le := sound.availableCloses_le
      uploadCompletedCloses_le := sound.uploadCompletedCloses_le
      removals := sound.removals }
  | failed => exact {
      length := sound.length
      remaining := by simp [Chunk.threadedFetchAndRepairChunk, none]
      registered := sound.registered
      holder_used := sound.holder_used
      holder_unique := sound.holder_unique
      counted := sound.counted
      idle := fun _ => idle
      settled := fun _ failed => absurd rfl failed
      clean := fun zero => by simp [Chunk.threadedFetchAndRepairChunk] at zero
      released_done := fun released => absurd released (by simp [Chunk.threadedFetchAndRepairChunk, unreleased])
      availableCloses_le := sound.availableCloses_le
      uploadCompletedCloses_le := sound.uploadCompletedCloses_le
      removals := sound.removals }
  | fetched => exact {
      length := by simp [Chunk.threadedFetchAndRepairChunk, sound.length]
      remaining := sound.remaining
      registered := sound.registered
      holder_used := fun w i holds => absurd holds (unheld w i)
      holder_unique := fun w _ i holds => absurd holds (unheld w i)
      counted := by
        have kept : unusedPieces (c.pieces.map fun s =>
            if s.used then { s with data := 0 } else { s with data := p.encryptedPieceLength }) =
            unusedPieces c.pieces := by
          simp only [unusedPieces, List.countP_map]
          exact List.countP_congr fun s _ => by simp only [Function.comp_apply]; split <;> rfl
        simpa [Chunk.threadedFetchAndRepairChunk, kept] using sound.counted
      idle := fun _ => idle
      settled := fun _ _ => ⟨quiet, unreleased⟩
      clean := fun _ phase => by simp [Chunk.threadedFetchAndRepairChunk] at phase
      released_done := fun released => absurd released (by simp [Chunk.threadedFetchAndRepairChunk, unreleased])
      availableCloses_le := sound.availableCloses_le
      uploadCompletedCloses_le := sound.uploadCompletedCloses_le
      removals := sound.removals }

/-- The distribution lists exactly the workers it picks. -/
theorem Sound.managedDistributeChunkToWorkers (sound : Sound p c) (queued : c.phase = .queued)
    (workers : Finset τ) : Sound p (c.managedDistributeChunkToWorkers workers) := by
  have idle := sound.idle (by simp [queued])
  obtain ⟨_, unreleased⟩ := sound.settled (by simp [queued]) (by simp [queued])
  have offered : ∀ w i, (if w ∈ workers then Position.offered else c.position w) ≠ .uploading i :=
    fun w i => by split <;> simp [idle w]
  exact {
    length := sound.length
    remaining := by
      have listed : total Position.remaining
          (fun w => if w ∈ workers then Position.offered else c.position w) = workers.card := by
        have weight : ∀ w, Position.remaining (if w ∈ workers then .offered else c.position w) =
            if w ∈ workers then 1 else 0 := fun w => by split <;> simp [idle w, Position.remaining]
        simp only [total, weight, Finset.sum_boole, Nat.cast_id, Finset.filter_mem_eq_inter,
          Finset.univ_inter]
      dsimp only [Chunk.managedDistributeChunkToWorkers]
      rw [listed, sound.remaining, (total_eq_zero_iff _ _).mpr fun w => by simp [idle w, Position.remaining]]
      simp
    registered := by
      dsimp only [Chunk.managedDistributeChunkToWorkers]
      rw [sound.registered, (total_eq_zero_iff _ _).mpr fun w => by simp [idle w, Position.holding],
        (total_eq_zero_iff _ _).mpr fun w => by split <;> simp [idle w, Position.holding]]
    holder_used := fun w i holds => absurd holds (offered w i)
    holder_unique := fun w _ i holds => absurd holds (offered w i)
    counted := sound.counted
    idle := fun other => absurd rfl other
    settled := fun other => absurd rfl other
    clean := fun zero => by simp [Chunk.managedDistributeChunkToWorkers] at zero
    released_done := fun released => absurd released (by simp [Chunk.managedDistributeChunkToWorkers, unreleased])
    availableCloses_le := sound.availableCloses_le
    uploadCompletedCloses_le := sound.uploadCompletedCloses_le
    removals := sound.removals }


/-- A worker the chunk is offered to queues it. -/
theorem Sound.queue (sound : Sound p c) {w : τ} (offered : c.position w = .offered) :
    Sound p { c with position := Function.update c.position w .queued } := by
  have listed : (c.position w).remaining = 1 := by simp [offered, Position.remaining]
  have distributed := sound.distributed (w := w) (by simp [offered])
  obtain ⟨remaining, holding⟩ := total_move listed (show Position.remaining .queued = 1 from rfl)
  have holders := uploading_update (Position.holding_of_remaining listed)
    (show Position.holding .queued = 0 from rfl)
  exact {
    length := sound.length
    remaining := by dsimp only; rw [remaining, sound.remaining]
    registered := by dsimp only; rw [holding, sound.registered]
    holder_used := fun v i holds => sound.holder_used v i ((holders v i).mp holds)
    holder_unique := fun v v' i holds holds' =>
      sound.holder_unique v v' i ((holders v i).mp holds) ((holders v' i).mp holds')
    counted := sound.counted
    idle := fun other => absurd distributed other
    settled := sound.settled
    clean := sound.clean
    released_done := sound.released_done
    availableCloses_le := sound.availableCloses_le
    uploadCompletedCloses_le := sound.uploadCompletedCloses_le
    removals := sound.removals }

/-- A queued worker that is not needed stands by. -/
theorem Sound.standby (sound : Sound p c) {w : τ} (queued : c.position w = .queued) :
    Sound p { c with position := Function.update c.position w .standby, cleanups := c.cleanups + 1 } := by
  have listed : (c.position w).remaining = 1 := by simp [queued, Position.remaining]
  have distributed := sound.distributed (w := w) (by simp [queued])
  obtain ⟨remaining, holding⟩ := total_move listed (show Position.remaining .standby = 1 from rfl)
  have holders := uploading_update (Position.holding_of_remaining listed)
    (show Position.holding .standby = 0 from rfl)
  exact {
    length := sound.length
    remaining := by dsimp only; rw [remaining, sound.remaining]
    registered := by dsimp only; rw [holding, sound.registered]
    holder_used := fun v i holds => sound.holder_used v i ((holders v i).mp holds)
    holder_unique := fun v v' i holds holds' =>
      sound.holder_unique v v' i ((holders v i).mp holds) ((holders v' i).mp holds')
    counted := sound.counted
    idle := fun other => absurd distributed other
    settled := fun other => absurd distributed other
    clean := fun zero => by simp at zero
    released_done := sound.released_done
    availableCloses_le := sound.availableCloses_le
    uploadCompletedCloses_le := sound.uploadCompletedCloses_le
    removals := sound.removals }

/-- A queued worker takes the first unused piece, which no worker held. -/
theorem Sound.registerPiece (sound : Sound p c) {w : τ} (queued : c.position w = .queued)
    (needed : ¬p.numPieces ≤ c.piecesCompleted) {i : ℕ}
    (found : c.pieces.findIdx? (fun s => !s.used) = some i) : Sound p (c.registerPiece w i) := by
  obtain ⟨inRange, unused, -⟩ := List.findIdx?_eq_some_iff_getElem.mp found
  have unused : c.pieces[i].used = false := by simpa using unused
  have distributed := sound.distributed (w := w) (by simp [queued])
  have positive := sound.remaining_pos (w := w) (by simp [queued, Position.remaining])
  have moved := total_update Position.remaining c.position w (.uploading i)
  have kept := total_update Position.holding c.position w (.uploading i)
  rw [queued] at moved kept
  simp only [Position.remaining, Position.holding] at moved kept
  -- the piece was unused, so no worker held it
  have free : ∀ v, c.position v ≠ .uploading i := fun v holds => by
    obtain ⟨_, used⟩ := sound.holding holds
    simp [unused] at used
  have taken := unusedPieces_take inRange unused
  have holders : ∀ v j, Function.update c.position w (.uploading i) v = .uploading j →
      (v = w ∧ j = i) ∨ (v ≠ w ∧ c.position v = .uploading j) := fun v j holds => by
    by_cases same : v = w
    · subst same
      simp only [Function.update_self, Position.uploading.injEq] at holds
      exact .inl ⟨rfl, holds.symm⟩
    · rw [Function.update_of_ne same] at holds
      exact .inr ⟨same, holds⟩
  exact {
    length := by simp [Chunk.registerPiece, sound.length]
    remaining := by dsimp only [Chunk.registerPiece]; rw [sound.remaining]; omega
    registered := by dsimp only [Chunk.registerPiece]; rw [sound.registered]; omega
    holder_used := fun v j holds => by
      dsimp only [Chunk.registerPiece] at holds ⊢
      rw [List.getElem?_modify]
      rcases holders v j holds with ⟨-, rfl⟩ | ⟨-, holds⟩
      · simp [List.getElem?_eq_getElem inRange]
      · obtain ⟨s, found, used⟩ := sound.holder_used v j holds
        have other : i ≠ j := fun same => free v (same ▸ holds)
        simp [found, other, used]
    holder_unique := fun v v' j holds holds' => by
      rcases holders v j holds with ⟨same, taken⟩ | ⟨-, holds⟩ <;>
        rcases holders v' j holds' with ⟨same', taken'⟩ | ⟨-, holds'⟩
      · rw [same, same']
      · exact absurd (taken ▸ holds') (free v')
      · exact absurd (taken' ▸ holds) (free v)
      · exact sound.holder_unique v v' j holds holds'
    counted := by
      have := sound.counted
      dsimp only [Chunk.registerPiece]
      omega
    idle := fun other => absurd distributed other
    settled := fun other => absurd distributed other
    clean := fun _ _ complete => by
      have := sound.registered_nonneg
      rw [chunkComplete_iff] at complete
      dsimp only [Chunk.registerPiece] at complete
      omega
    released_done := fun released => by
      obtain ⟨-, -, done, -⟩ := sound.released_done released
      omega
    availableCloses_le := sound.availableCloses_le
    uploadCompletedCloses_le := sound.uploadCompletedCloses_le
    removals := sound.removals }


omit [Fintype τ] in
/-- The holders after an uploading worker lets its piece go: the others. -/
theorem uploading_release {w : τ} {i : ℕ} (holds : c.position w = .uploading i) (v : τ) (j : ℕ)
    (released : Function.update c.position w .idle v = .uploading j) :
    v ≠ w ∧ c.position v = .uploading j := by
  by_cases same : v = w
  · subst same
    simp at released
  · rw [Function.update_of_ne same] at released
    exact ⟨same, released⟩

/-- A successful upload completes the worker's piece. -/
theorem Sound.uploadSucceeded (sound : Sound p c) {w : τ} {i : ℕ} (holds : c.position w = .uploading i) :
    Sound p (c.uploadSucceeded w i) := by
  obtain ⟨inRange, _⟩ := sound.holding holds
  have distributed := sound.distributed (w := w) (by simp [holds])
  have positive := sound.registered_pos holds
  have moved := total_update Position.remaining c.position w .idle
  have kept := total_update Position.holding c.position w .idle
  rw [holds] at moved kept
  simp only [Position.remaining, Position.holding] at moved kept
  have others := uploading_release holds
  exact {
    length := by simp [Chunk.uploadSucceeded, sound.length]
    remaining := by dsimp only [Chunk.uploadSucceeded]; rw [sound.remaining]; omega
    registered := by dsimp only [Chunk.uploadSucceeded]; rw [sound.registered]; omega
    holder_used := fun v j released => by
      obtain ⟨-, holds'⟩ := others v j released
      obtain ⟨s, found, used⟩ := sound.holder_used v j holds'
      dsimp only [Chunk.uploadSucceeded]
      rw [List.getElem?_modify, found]
      exact ⟨_, rfl, by split <;> exact used⟩
    holder_unique := fun v v' j released released' =>
      sound.holder_unique v v' j (others v j released).2 (others v' j released').2
    counted := by
      have := sound.counted
      dsimp only [Chunk.uploadSucceeded]
      rw [unusedPieces_modify_data inRange]
      omega
    idle := fun other => absurd distributed other
    settled := fun other => absurd distributed other
    clean := fun zero => by simp [Chunk.uploadSucceeded] at zero
    released_done := fun released => by
      obtain ⟨registered, -⟩ := sound.released_done released
      omega
    availableCloses_le := sound.availableCloses_le
    uploadCompletedCloses_le := sound.uploadCompletedCloses_le
    removals := sound.removals }

/-- A failed upload gives the worker's piece back. -/
theorem Sound.managedUploadFailed (sound : Sound p c) {w : τ} {i : ℕ}
    (holds : c.position w = .uploading i) : Sound p (c.managedUploadFailed w i) := by
  obtain ⟨inRange, used⟩ := sound.holding holds
  have distributed := sound.distributed (w := w) (by simp [holds])
  have positive := sound.registered_pos holds
  have moved := total_update Position.remaining c.position w .idle
  have kept := total_update Position.holding c.position w .idle
  rw [holds] at moved kept
  simp only [Position.remaining, Position.holding] at moved kept
  have others := uploading_release holds
  exact {
    length := by simp [Chunk.managedUploadFailed, sound.length]
    remaining := by dsimp only [Chunk.managedUploadFailed]; rw [sound.remaining]; omega
    registered := by dsimp only [Chunk.managedUploadFailed]; rw [sound.registered]; omega
    holder_used := fun v j released => by
      obtain ⟨other, holds'⟩ := others v j released
      obtain ⟨s, found, used⟩ := sound.holder_used v j holds'
      -- only `w` held piece `i`
      have different : i ≠ j := fun same => other (sound.holder_unique v w j holds' (same ▸ holds))
      dsimp only [Chunk.managedUploadFailed]
      rw [List.getElem?_modify, found]
      exact ⟨_, rfl, by simp [different, used]⟩
    holder_unique := fun v v' j released released' =>
      sound.holder_unique v v' j (others v j released).2 (others v' j released').2
    counted := by
      have := sound.counted
      dsimp only [Chunk.managedUploadFailed]
      rw [unusedPieces_giveBack inRange used]
      omega
    idle := fun other => absurd distributed other
    settled := fun other => absurd distributed other
    clean := fun zero => by simp [Chunk.managedUploadFailed] at zero
    released_done := fun released => by
      obtain ⟨registered, -⟩ := sound.released_done released
      omega
    availableCloses_le := sound.availableCloses_le
    uploadCompletedCloses_le := sound.uploadCompletedCloses_le
    removals := sound.removals }

omit [DecidableEq τ] in
/-- The notification moves the standby workers back to offered. -/
theorem Sound.managedNotifyStandbyWorkers (sound : Sound p c) : Sound p c.managedNotifyStandbyWorkers := by
  have weights : ∀ w, Position.remaining (if c.position w = .standby then .offered else c.position w) =
      (c.position w).remaining ∧
      Position.holding (if c.position w = .standby then .offered else c.position w) =
        (c.position w).holding := fun w => by
    split
    · next standby => simp [standby, Position.remaining, Position.holding]
    · exact ⟨rfl, rfl⟩
  have holders : ∀ w i, (if c.position w = .standby then Position.offered else c.position w) =
      .uploading i ↔ c.position w = .uploading i := fun w i => by
    split
    · next standby => simp [standby]
    · rfl
  exact {
    length := sound.length
    remaining := by
      dsimp only [Chunk.managedNotifyStandbyWorkers]
      rw [sound.remaining]
      simp only [total, fun w => (weights w).1]
    registered := by
      dsimp only [Chunk.managedNotifyStandbyWorkers]
      rw [sound.registered]
      simp only [total, fun w => (weights w).2]
    holder_used := fun w i holds => sound.holder_used w i ((holders w i).mp holds)
    holder_unique := fun w w' i holds holds' =>
      sound.holder_unique w w' i ((holders w i).mp holds) ((holders w' i).mp holds')
    counted := sound.counted
    idle := fun other w => by
      dsimp only [Chunk.managedNotifyStandbyWorkers]
      simp [sound.idle other w]
    settled := sound.settled
    clean := sound.clean
    released_done := sound.released_done
    availableCloses_le := sound.availableCloses_le
    uploadCompletedCloses_le := sound.uploadCompletedCloses_le
    removals := sound.removals }


omit [DecidableEq τ] in
/-- A cleanup releases the pieces no remaining worker can take and, once the chunk is complete,
releases the chunk: every piece settled, both channels closed, out of the repair map. -/
theorem Sound.managedCleanUpUploadChunk (sound : Sound p c) (pending : 0 < c.cleanups) :
    Sound p (c.managedCleanUpUploadChunk p) := by
  rw [managedCleanUpUploadChunk_eq]
  have loop := unusedPieces_releasePieces c.workersRemaining c.pieces 0
  have closes := sound.availableCloses_le
  have completes := sound.uploadCompletedCloses_le
  exact {
    length := by simp [sound.length]
    remaining := sound.remaining
    registered := sound.registered
    holder_used := fun w i holds => by
      obtain ⟨s, found, used⟩ := sound.holder_used w i holds
      dsimp only
      rcases getElem?_releasePieces c.workersRemaining c.pieces 0 i with same | ⟨s', found', unused, -⟩
      · exact ⟨s, same.trans found, used⟩
      · rw [found, Option.some.injEq] at found'
        rw [← found', used] at unused
        cases unused
    holder_unique := sound.holder_unique
    counted := by
      have := sound.counted
      dsimp only
      omega
    idle := sound.idle
    settled := fun distributed failed => absurd (sound.settled distributed failed).1 (by omega)
    clean := fun _ _ complete => by
      rw [chunkComplete_iff] at complete
      have complete : c.chunkComplete p = true := (chunkComplete_iff p c).mpr complete
      dsimp only
      simp only [complete, Bool.or_true, and_true, true_and]
      split <;> omega
    released_done := fun released => by
      dsimp only at released ⊢
      cases before : c.released
      · -- released by this cleanup: the chunk is complete
        simp only [before, Bool.false_or] at released
        have whole := (chunkComplete_iff p c).mp released
        have unused : unusedPieces (releasePieces c.workersRemaining c.pieces 0).1 = 0 := by
          rcases whole with ⟨full, registered⟩ | ⟨none, -⟩
          · have := sound.counted
            omega
          · exact releasePieces_all _ (by omega)
        refine ⟨by omega, unused, by omega, ?_, by simp [released]⟩
        simp only [released, or_true, and_true]
        split <;> omega
      · obtain ⟨registered, unused, done, available, repairing⟩ := sound.released_done before
        refine ⟨registered, by omega, done, by simp [available], by simp [repairing]⟩
    availableCloses_le := by dsimp only; split <;> omega
    uploadCompletedCloses_le := by dsimp only; split <;> omega
    removals := by
      dsimp only
      rw [sound.removals]
      cases c.repairing <;> cases c.chunkComplete p <;> cases c.released <;> simp }

omit [DecidableEq τ] in
theorem Sound.cancel (sound : Sound p c) : Sound p c.cancel where
  length := sound.length
  remaining := sound.remaining
  registered := sound.registered
  holder_used := sound.holder_used
  holder_unique := sound.holder_unique
  counted := sound.counted
  idle := sound.idle
  settled := sound.settled
  clean := sound.clean
  released_done := sound.released_done
  availableCloses_le := sound.availableCloses_le
  uploadCompletedCloses_le := sound.uploadCompletedCloses_le
  removals := sound.removals

omit [DecidableEq τ] in
theorem Sound.cancelDone (sound : Sound p c) : Sound p c.cancelDone := by
  unfold Chunk.cancelDone
  rw [markRepairDone_eq]
  exact {
    length := sound.length
    remaining := sound.remaining
    registered := sound.registered
    holder_used := sound.holder_used
    holder_unique := sound.holder_unique
    counted := sound.counted
    idle := sound.idle
    settled := sound.settled
    clean := sound.clean
    released_done := fun released => by
      obtain ⟨registered, unused, done, available, -⟩ := sound.released_done released
      exact ⟨registered, unused, done, available, rfl⟩
    availableCloses_le := sound.availableCloses_le
    uploadCompletedCloses_le := sound.uploadCompletedCloses_le
    removals := by
      dsimp only
      rw [sound.removals]
      cases c.repairing <;> rfl }

theorem Sound.callQueueUploadChunk (sound : Sound p c) {w : τ} (offered : c.position w = .offered)
    (usable : Bool) : Sound p (c.callQueueUploadChunk w usable) := by
  unfold Chunk.callQueueUploadChunk
  split
  · exact sound.managedDropChunk (by simp [offered, Position.remaining])
  · exact sound.queue offered

theorem Sound.managedPerformUploadChunkJob (sound : Sound p c) {w : τ} (queued : c.position w = .queued)
    (usable : Bool) : Sound p (c.managedPerformUploadChunkJob p w usable) := by
  have listed : (c.position w).remaining = 1 := by simp [queued, Position.remaining]
  unfold Chunk.managedPerformUploadChunkJob Chunk.managedProcessUploadChunk
  split
  · exact sound.managedDropChunk listed
  split
  · exact sound.managedDropChunk listed
  · next helps =>
    split
    · exact sound.standby queued
    · split
      · exact sound.managedDropChunk listed
      · next i found =>
        exact sound.registerPiece queued (by simp at helps; omega) found

/-- Every step keeps the invariant. -/
theorem Sound.step (sound : Sound p c) {a : Action τ} {c' : Chunk τ} (stepped : c.step p a = some c') :
    Sound p c' := by
  cases a with
  | fetch outcome =>
    obtain ⟨fetching, ⟨⟩⟩ := Option.ite_none_right_eq_some.mp stepped
    exact sound.threadedFetchAndRepairChunk fetching outcome
  | distribute workers =>
    obtain ⟨queued, ⟨⟩⟩ := Option.ite_none_right_eq_some.mp stepped
    exact sound.managedDistributeChunkToWorkers queued workers
  | offer w usable =>
    obtain ⟨offered, ⟨⟩⟩ := Option.ite_none_right_eq_some.mp stepped
    exact sound.callQueueUploadChunk offered usable
  | process w usable =>
    obtain ⟨queued, ⟨⟩⟩ := Option.ite_none_right_eq_some.mp stepped
    exact sound.managedPerformUploadChunkJob queued usable
  | dropQueued w =>
    obtain ⟨queued, ⟨⟩⟩ := Option.ite_none_right_eq_some.mp stepped
    exact sound.managedDropChunk (by simp [queued, Position.remaining])
  | upload w succeeded =>
    simp only [Chunk.step] at stepped
    split at stepped
    · next i holds =>
      cases stepped
      cases succeeded
      · exact sound.managedUploadFailed holds
      · exact sound.uploadSucceeded holds
    · cases stepped
  | notify =>
    obtain ⟨-, ⟨⟩⟩ := Option.ite_none_right_eq_some.mp stepped
    exact sound.managedNotifyStandbyWorkers
  | cleanUp =>
    obtain ⟨pending, ⟨⟩⟩ := Option.ite_none_right_eq_some.mp stepped
    exact sound.managedCleanUpUploadChunk pending
  | cancel =>
    obtain ⟨-, ⟨⟩⟩ := Option.ite_none_right_eq_some.mp stepped
    exact sound.cancel
  | cancelDone =>
    obtain ⟨-, ⟨⟩⟩ := Option.ite_none_right_eq_some.mp stepped
    exact sound.cancelDone

theorem Reachable.sound {c : Chunk τ} (reach : Reachable p c) : Sound p c := by
  induction reach with
  | init unusedHosts sized counted => exact sound_new unusedHosts sized counted
  | step a _ stepped sound => exact sound.step stepped


/-! ### The memory the chunk returns -/

/-- The memory accounting of a chunk whose pieces are whole sectors. Before the fetch ends
nothing is returned; after it, what is returned and a sector for each registered or unused piece
make up `staticMemoryNeeded`; and each unused or registered piece holds a sector of data. -/
structure Accounted (p : ChunkParams) (c : Chunk τ) : Prop where
  unreturned : c.phase = .fetching ∨ c.phase = .stopped → c.memoryReleased = 0
  returned : c.phase ≠ .fetching → c.phase ≠ .stopped →
    (c.memoryReleased : ℤ) + p.sectorSize * (c.piecesRegistered + unusedPieces c.pieces) =
      p.staticMemoryNeeded
  data : c.phase = .queued ∨ c.phase = .distributed → ∀ i s, c.pieces[i]? = some s →
    (s.used = false ∨ ∃ w, c.position w = .uploading i) → s.data = p.sectorSize

omit [DecidableEq τ] [Fintype τ] in
/-- What changes no piece, no returned memory, no registration and adds no holder keeps the
accounting. -/
theorem Accounted.frame (acc : Accounted p c) {c' : Chunk τ} (phase : c'.phase = c.phase)
    (pieces : c'.pieces = c.pieces) (memory : c'.memoryReleased = c.memoryReleased)
    (registered : c'.piecesRegistered = c.piecesRegistered)
    (holders : ∀ w i, c'.position w = .uploading i → ∃ v, c.position v = .uploading i) :
    Accounted p c' where
  unreturned := fun before => memory ▸ acc.unreturned (phase ▸ before)
  returned := fun fetched stopped => by
    rw [memory, registered, pieces]
    exact acc.returned (phase ▸ fetched) (phase ▸ stopped)
  data := fun after i s found needed => by
    rw [pieces] at found
    refine acc.data (phase ▸ after) i s found ?_
    rcases needed with unused | ⟨w, holds⟩
    · exact .inl unused
    · exact .inr (holders w i holds)

omit [DecidableEq τ] [Fintype τ] in
theorem accounted_new {pieceUsage : List Bool} {piecesCompleted : ℕ} (unusedHosts : τ → Bool) :
    Accounted p (new pieceUsage piecesCompleted unusedHosts) where
  unreturned _ := rfl
  returned fetching := absurd rfl fetching
  data after := by simp [new] at after

theorem Accounted.managedDistributeChunkToWorkers (sound : Sound p c) (acc : Accounted p c)
    (queued : c.phase = .queued) (workers : Finset τ) :
    Accounted p (c.managedDistributeChunkToWorkers workers) := by
  have idle := sound.idle (by simp [queued])
  exact {
    unreturned := fun before => by simp [Chunk.managedDistributeChunkToWorkers] at before
    returned := fun _ _ => acc.returned (by simp [queued]) (by simp [queued])
    data := fun _ i s found needed => by
      refine acc.data (.inl queued) i s found ?_
      rcases needed with unused | ⟨w, holds⟩
      · exact .inl unused
      · simp only [Chunk.managedDistributeChunkToWorkers] at holds
        split at holds <;> simp [idle w] at holds }

theorem Accounted.registerPiece (acc : Accounted p c) (sound : Sound p c) {w : τ}
    (queued : c.position w = .queued) {i : ℕ} (found : c.pieces.findIdx? (fun s => !s.used) = some i) :
    Accounted p (c.registerPiece w i) := by
  obtain ⟨inRange, unused, -⟩ := List.findIdx?_eq_some_iff_getElem.mp found
  have unused : c.pieces[i].used = false := by simpa using unused
  have distributed := sound.distributed (w := w) (by simp [queued])
  have taken := unusedPieces_take inRange unused
  exact {
    unreturned := fun before => by simp [Chunk.registerPiece, distributed] at before
    returned := fun fetched stopped => by
      have before := acc.returned (by simp [distributed]) (by simp [distributed])
      have same : c.piecesRegistered + 1 +
          (unusedPieces (c.pieces.modify i fun s => { s with used := true }) : ℤ) =
          c.piecesRegistered + unusedPieces c.pieces := by omega
      dsimp only [Chunk.registerPiece]
      rw [same, before]
    data := fun _ j s found needed => by
      dsimp only [Chunk.registerPiece] at found needed
      rw [List.getElem?_modify] at found
      by_cases same : i = j
      · subst same
        rw [List.getElem?_eq_getElem inRange] at found
        simp only [Option.map_eq_map, Option.map_some, if_pos, Option.some.injEq] at found
        subst found
        exact acc.data (.inr distributed) i c.pieces[i] (List.getElem?_eq_getElem inRange) (.inl unused)
      · simp only [same, if_false, Option.map_eq_map, Option.map_id'] at found
        refine acc.data (.inr distributed) j s found ?_
        rcases needed with unused | ⟨v, holds⟩
        · exact .inl unused
        · by_cases mover : v = w
          · subst mover
            simp at holds
            exact absurd holds same
          · rw [Function.update_of_ne mover] at holds
            exact .inr ⟨v, holds⟩ }

/-- An index other than the one an uploading worker lets go keeps its piece and its holders. -/
theorem Accounted.other (acc : Accounted p c) (sound : Sound p c) {w : τ} {i : ℕ}
    (holds : c.position w = .uploading i) (f : PieceSlot → PieceSlot) {j : ℕ} {s : PieceSlot}
    (found : (c.pieces.modify i f)[j]? = some s) (different : i ≠ j)
    (needed : s.used = false ∨ ∃ v, Function.update c.position w .idle v = .uploading j) :
    s.data = p.sectorSize := by
  have distributed := sound.distributed (w := w) (by simp [holds])
  rw [List.getElem?_modify] at found
  simp only [different, if_false, Option.map_eq_map, Option.map_id'] at found
  refine acc.data (.inr distributed) j s found ?_
  rcases needed with unused | ⟨v, released⟩
  · exact .inl unused
  · exact .inr ⟨v, (uploading_release holds v j released).2⟩

theorem Accounted.uploadSucceeded (acc : Accounted p c) (sound : Sound p c) {w : τ} {i : ℕ}
    (holds : c.position w = .uploading i) : Accounted p (c.uploadSucceeded w i) := by
  obtain ⟨inRange, used⟩ := sound.holding holds
  have distributed := sound.distributed (w := w) (by simp [holds])
  have piece := acc.data (.inr distributed) i c.pieces[i] (List.getElem?_eq_getElem inRange)
    (.inr ⟨w, holds⟩)
  exact {
    unreturned := fun before => by simp [Chunk.uploadSucceeded, distributed] at before
    returned := fun _ _ => by
      have before := acc.returned (by simp [distributed]) (by simp [distributed])
      dsimp only [Chunk.uploadSucceeded]
      rw [unusedPieces_modify_data inRange, List.getElem?_eq_getElem inRange, Option.map_some,
        Option.getD_some, piece, ← before]
      simp only [Nat.cast_add]
      ring
    data := fun _ j s found needed => by
      dsimp only [Chunk.uploadSucceeded] at found needed
      by_cases same : i = j
      · -- the completed piece is used and no longer held
        subst same
        rw [List.getElem?_modify, List.getElem?_eq_getElem inRange] at found
        obtain ⟨rfl⟩ := found
        rcases needed with unused | ⟨v, released⟩
        · simp [used] at unused
        · obtain ⟨other, holds'⟩ := uploading_release holds v i released
          exact absurd (sound.holder_unique v w i holds' holds) other
      · exact acc.other sound holds _ found same needed }

theorem Accounted.managedUploadFailed (acc : Accounted p c) (sound : Sound p c) {w : τ} {i : ℕ}
    (holds : c.position w = .uploading i) : Accounted p (c.managedUploadFailed w i) := by
  obtain ⟨inRange, used⟩ := sound.holding holds
  have distributed := sound.distributed (w := w) (by simp [holds])
  have piece := acc.data (.inr distributed) i c.pieces[i] (List.getElem?_eq_getElem inRange)
    (.inr ⟨w, holds⟩)
  exact {
    unreturned := fun before => by simp [Chunk.managedUploadFailed, distributed] at before
    returned := fun _ _ => by
      have before := acc.returned (by simp [distributed]) (by simp [distributed])
      have same : c.piecesRegistered - 1 +
          (unusedPieces (c.pieces.modify i fun s => { s with used := false }) : ℤ) =
          c.piecesRegistered + unusedPieces c.pieces := by
        rw [unusedPieces_giveBack inRange used]
        push_cast
        omega
      dsimp only [Chunk.managedUploadFailed]
      rw [same, before]
    data := fun _ j s found needed => by
      dsimp only [Chunk.managedUploadFailed] at found needed
      by_cases same : i = j
      · -- the piece given back keeps its data
        subst same
        rw [List.getElem?_modify, List.getElem?_eq_getElem inRange] at found
        obtain ⟨rfl⟩ := found
        simpa using piece
      · exact acc.other sound holds _ found same needed }

omit [DecidableEq τ] in
theorem Accounted.managedCleanUpUploadChunk (acc : Accounted p c) (sound : Sound p c)
    (pending : 0 < c.cleanups) : Accounted p (c.managedCleanUpUploadChunk p) := by
  have active : c.phase = .distributed ∨ c.phase = .fetchFailed := by
    by_contra quiet
    exact absurd (sound.settled (fun h => quiet (.inl h)) (fun h => quiet (.inr h))).1 (by omega)
  have fetched : c.phase ≠ .fetching := by rcases active with h | h <;> simp [h]
  have stopped : c.phase ≠ .stopped := by rcases active with h | h <;> simp [h]
  have loop := unusedPieces_releasePieces c.workersRemaining c.pieces 0
  rw [managedCleanUpUploadChunk_eq]
  exact {
    unreturned := fun before => by rcases before with h | h <;> simp_all
    returned := fun _ _ => by
      have before := acc.returned fetched stopped
      dsimp only
      rw [← before, ← loop]
      simp only [Nat.cast_add, Nat.cast_mul]
      ring
    data := fun after j s found needed => by
      dsimp only at after found needed
      rcases getElem?_releasePieces c.workersRemaining c.pieces 0 j with same | ⟨s₀, found₀, unused, released⟩
      · exact acc.data after j s (same ▸ found) needed
      · -- a released piece is used, and no worker held the unused piece it was
        rw [released, Option.some.injEq] at found
        subst found
        rcases needed with unused' | ⟨w, holds⟩
        · cases unused'
        · obtain ⟨s₁, found₁, used⟩ := sound.holder_used w j holds
          rw [found₀, Option.some.injEq] at found₁
          rw [← found₁, unused] at used
          cases used }

omit [Fintype τ] in
/-- Moves of workers that hold no piece, and the cancellation, keep the accounting. -/
theorem Accounted.managedDropChunk (acc : Accounted p c) {w : τ} (listed : (c.position w).remaining = 1) :
    Accounted p (c.managedDropChunk w) :=
  acc.frame rfl rfl rfl rfl fun v i holds =>
    ⟨v, (uploading_update (Position.holding_of_remaining listed) (show Position.holding .idle = 0 from rfl)
      v i).mp holds⟩

omit [Fintype τ] in
theorem Accounted.moveListed (acc : Accounted p c) {w : τ} (listed : (c.position w).remaining = 1)
    {q : Position} (listed' : q.remaining = 1) (n : ℕ) :
    Accounted p { c with position := Function.update c.position w q, cleanups := n } :=
  acc.frame rfl rfl rfl rfl fun v i holds =>
    ⟨v, (uploading_update (Position.holding_of_remaining listed) (Position.holding_of_remaining listed')
      v i).mp holds⟩

omit [DecidableEq τ] [Fintype τ] in
theorem Accounted.managedNotifyStandbyWorkers (acc : Accounted p c) :
    Accounted p c.managedNotifyStandbyWorkers :=
  acc.frame rfl rfl rfl rfl fun v _ holds => ⟨v, by
    simp only [Chunk.managedNotifyStandbyWorkers] at holds
    split at holds
    · cases holds
    · exact holds⟩

omit [DecidableEq τ] [Fintype τ] in
theorem Accounted.cancel (acc : Accounted p c) : Accounted p c.cancel :=
  acc.frame rfl rfl rfl rfl fun v _ holds => ⟨v, holds⟩

omit [DecidableEq τ] [Fintype τ] in
theorem Accounted.cancelDone (acc : Accounted p c) : Accounted p c.cancelDone := by
  unfold Chunk.cancelDone
  rw [markRepairDone_eq]
  exact acc.frame rfl rfl rfl rfl fun v _ holds => ⟨v, holds⟩

section Plain

variable (plain : p.Plain)
include plain

omit [DecidableEq τ] in
theorem Accounted.threadedFetchAndRepairChunk (sound : Sound p c) (acc : Accounted p c)
    (fetching : c.phase = .fetching) (outcome : FetchOutcome) :
    Accounted p (c.threadedFetchAndRepairChunk p outcome) := by
  have idle := sound.idle (by simp [fetching])
  have none := acc.unreturned (.inl fetching)
  have registered : c.piecesRegistered = 0 := by
    rw [sound.registered, (total_eq_zero_iff _ _).mpr fun w => by simp [idle w, Position.holding]]
    rfl
  -- every piece is used or unused, so a sector for each of them and the erasure coding make the total
  have whole : c.pieces.countP (·.used) + unusedPieces c.pieces = p.numPieces := by
    rw [← sound.length, unusedPieces, List.length_eq_countP_add_countP (·.used)]
    simp
  have returned : (c.memoryReleased + (p.erasureCodingMemory + p.sectorSize * c.pieces.countP (·.used)) : ℤ) +
      p.sectorSize * (c.piecesRegistered + unusedPieces c.pieces) = p.staticMemoryNeeded := by
    rw [none, registered, plain.erasureCodingMemory_eq, plain.staticMemoryNeeded_eq, ← whole]
    simp only [Nat.cast_add, Nat.cast_mul, Nat.cast_zero]
    ring
  cases outcome with
  | stopped => exact {
      unreturned := fun _ => none
      returned := fun _ stopped => absurd rfl stopped
      data := fun after => by simp [Chunk.threadedFetchAndRepairChunk] at after }
  | failed => exact {
      unreturned := fun before => by simp [Chunk.threadedFetchAndRepairChunk] at before
      returned := fun _ _ => by simpa [Chunk.threadedFetchAndRepairChunk] using returned
      data := fun after => by simp [Chunk.threadedFetchAndRepairChunk] at after }
  | fetched =>
    have kept : unusedPieces (c.pieces.map fun s =>
        if s.used then { s with data := 0 } else { s with data := p.encryptedPieceLength }) =
        unusedPieces c.pieces := by
      simp only [unusedPieces, List.countP_map]
      exact List.countP_congr fun s _ => by simp only [Function.comp_apply]; split <;> rfl
    exact {
      unreturned := fun before => by simp [Chunk.threadedFetchAndRepairChunk] at before
      returned := fun _ _ => by simpa [Chunk.threadedFetchAndRepairChunk, kept] using returned
      data := fun _ i s found needed => by
        simp only [Chunk.threadedFetchAndRepairChunk, List.getElem?_map, Option.map_eq_some_iff] at found
        obtain ⟨s₀, -, rfl⟩ := found
        rcases needed with unused | ⟨w, holds⟩
        · by_cases used : s₀.used
          · simp [used] at unused
          · simp [used, plain.encryptedPieceLength_eq]
        · simp [Chunk.threadedFetchAndRepairChunk, idle w] at holds }

theorem Accounted.step (acc : Accounted p c) (sound : Sound p c) {a : Action τ} {c' : Chunk τ}
    (stepped : c.step p a = some c') : Accounted p c' := by
  cases a with
  | fetch outcome =>
    obtain ⟨fetching, ⟨⟩⟩ := Option.ite_none_right_eq_some.mp stepped
    exact acc.threadedFetchAndRepairChunk plain sound fetching outcome
  | distribute workers =>
    obtain ⟨queued, ⟨⟩⟩ := Option.ite_none_right_eq_some.mp stepped
    exact acc.managedDistributeChunkToWorkers sound queued workers
  | offer w usable =>
    obtain ⟨offered, ⟨⟩⟩ := Option.ite_none_right_eq_some.mp stepped
    have listed : (c.position w).remaining = 1 := by simp [offered, Position.remaining]
    unfold Chunk.callQueueUploadChunk
    split
    · exact acc.managedDropChunk listed
    · exact acc.moveListed listed rfl c.cleanups
  | process w usable =>
    obtain ⟨queued, ⟨⟩⟩ := Option.ite_none_right_eq_some.mp stepped
    have listed : (c.position w).remaining = 1 := by simp [queued, Position.remaining]
    unfold Chunk.managedPerformUploadChunkJob Chunk.managedProcessUploadChunk
    split
    · exact acc.managedDropChunk listed
    split
    · exact acc.managedDropChunk listed
    split
    · exact acc.moveListed listed rfl (c.cleanups + 1)
    split
    · exact acc.managedDropChunk listed
    · next i found => exact acc.registerPiece sound queued found
  | dropQueued w =>
    obtain ⟨queued, ⟨⟩⟩ := Option.ite_none_right_eq_some.mp stepped
    exact acc.managedDropChunk (by simp [queued, Position.remaining])
  | upload w succeeded =>
    simp only [Chunk.step] at stepped
    split at stepped
    · next i holds =>
      cases stepped
      cases succeeded
      · exact acc.managedUploadFailed sound holds
      · exact acc.uploadSucceeded sound holds
    · cases stepped
  | notify =>
    obtain ⟨-, ⟨⟩⟩ := Option.ite_none_right_eq_some.mp stepped
    exact acc.managedNotifyStandbyWorkers
  | cleanUp =>
    obtain ⟨pending, ⟨⟩⟩ := Option.ite_none_right_eq_some.mp stepped
    exact acc.managedCleanUpUploadChunk sound pending
  | cancel =>
    obtain ⟨-, ⟨⟩⟩ := Option.ite_none_right_eq_some.mp stepped
    exact acc.cancel
  | cancelDone =>
    obtain ⟨-, ⟨⟩⟩ := Option.ite_none_right_eq_some.mp stepped
    exact acc.cancelDone

theorem Reachable.accounted {c : Chunk τ} (reach : Reachable p c) : Accounted p c := by
  induction reach with
  | init unusedHosts => exact accounted_new unusedHosts
  | step a reach stepped accounted => exact accounted.step plain reach.sound stepped

/-! ### What every interleaving gives -/

variable {c : Chunk τ}

/-- The chunk never returns more than `staticMemoryNeeded`. -/
theorem Reachable.memoryReleased_le (reach : Reachable p c) : c.memoryReleased ≤ p.staticMemoryNeeded := by
  have acc := reach.accounted plain
  have sound := reach.sound
  by_cases before : c.phase = .fetching ∨ c.phase = .stopped
  · rw [acc.unreturned before]
    exact Nat.zero_le _
  · have returned := acc.returned (fun h => before (.inl h)) (fun h => before (.inr h))
    have held : (0 : ℤ) ≤ p.sectorSize * (c.piecesRegistered + unusedPieces c.pieces) :=
      Int.mul_nonneg (by omega) (by have := sound.registered_nonneg; omega)
    omega

/-- A released chunk has returned exactly `staticMemoryNeeded`. -/
theorem Reachable.memoryReleased_of_released (reach : Reachable p c) (released : c.released = true) :
    c.memoryReleased = p.staticMemoryNeeded := by
  have acc := reach.accounted plain
  have sound := reach.sound
  obtain ⟨registered, unused, -⟩ := sound.released_done released
  have active : c.phase ≠ .fetching ∧ c.phase ≠ .stopped := by
    constructor <;> intro phase <;>
      simp [(sound.settled (by simp [phase]) (by simp [phase])).2] at released
  have returned := acc.returned active.1 active.2
  rw [registered, unused] at returned
  omega

/-- The sanity check of `managedCleanUpUploadChunk` never fires: a cleanup that finds the chunk
complete leaves it having returned exactly `staticMemoryNeeded`. -/
theorem Reachable.cleanUp_sanity (reach : Reachable p c) (pending : 0 < c.cleanups)
    (complete : (c.managedCleanUpUploadChunk p).chunkComplete p = true) :
    (c.managedCleanUpUploadChunk p).memoryReleased = p.staticMemoryNeeded := by
  have cleaned : Reachable p (c.managedCleanUpUploadChunk p) :=
    .step .cleanUp reach (by simp [Chunk.step, pending])
  refine cleaned.memoryReleased_of_released plain ?_
  rw [managedCleanUpUploadChunk_chunkComplete] at complete
  simp [managedCleanUpUploadChunk_released, complete]

end Plain

omit [DecidableEq τ] in
/-- Once the chunk went to the workers (or its fetch failed), every worker has let it go and no
cleanup is owed, the chunk is complete and released: both channels closed and out of the repair
map. -/
theorem Sound.settled_out (sound : Sound p c) (active : c.phase = .distributed ∨ c.phase = .fetchFailed)
    (idle : ∀ w, c.position w = .idle) (quiet : c.cleanups = 0) :
    c.chunkComplete p = true ∧ c.released = true ∧ c.availableCloses = 1 ∧
      c.uploadCompletedCloses = 1 ∧ c.repairRemovals = 1 := by
  have none : c.workersRemaining = 0 := by
    rw [sound.remaining, (total_eq_zero_iff _ _).mpr fun w => by simp [idle w, Position.remaining]]
    rfl
  have unregistered : c.piecesRegistered = 0 := by
    rw [sound.registered, (total_eq_zero_iff _ _).mpr fun w => by simp [idle w, Position.holding]]
    rfl
  have complete : c.chunkComplete p = true := (chunkComplete_iff p c).mpr (.inr ⟨none, unregistered⟩)
  obtain ⟨released, completed⟩ := sound.clean quiet active complete
  obtain ⟨-, -, -, available, repairing⟩ := sound.released_done released
  refine ⟨complete, released, available, completed, ?_⟩
  simp [sound.removals, repairing]

end Chunk

section Lifecycle

variable {τ : Type} [Fintype τ] [DecidableEq τ]

/-- Two pieces of whole 4-byte sectors, one needed for the data. -/
def twoPieceParams : ChunkParams := ⟨4, 4, 0, 1, 2⟩

/-- A chunk with its first piece uploaded and one worker: the worker uploads the second piece, and
the two cleanups owed run. -/
def secondPieceRun : List (Action (Fin 1)) :=
  [.fetch .fetched, .distribute {0}, .offer 0 true, .process 0 true, .upload 0 true, .cleanUp, .cleanUp]

def secondPieceUploaded : Chunk (Fin 1) :=
  ((Chunk.new [true, false] 1 fun _ => true).run twoPieceParams secondPieceRun).getD
    (Chunk.new [true, false] 1 fun _ => true)

end Lifecycle

end Sia.Renter.Upload
