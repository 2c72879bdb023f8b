import Sia.Lib.Fold
import Mathlib.Data.UInt
import Mathlib.Algebra.Order.Ring.Rat

/-! `modules/renter/metadata.go`: the bubble. `managedCalculateDirectoryMetadata` recomputes a
directory's `siadir.Metadata` from the bubbled metadata of its siafiles and the stored metadata
of its subdirectories, in one loop that takes every file before any subdirectory. The
directory's own fields range over its files; the aggregate fields add up the subdirectories'
aggregates, so once every directory has been bubbled bottom-up they are sums, maxima and minima
over the whole subtree. Times are nanoseconds, 0 the zero time, and every `time.Now()` of one
call reads the same `now`; `math.Max` and `math.Min` never see a NaN here and are `max` and
`min` on `ℚ`. -/
namespace Sia.Renter

/-- `math.MaxFloat64`, the largest finite `float64`. -/
def maxFloat64 : ℚ := (2 ^ 53 - 1) * 2 ^ 971

/-- `siafile.BubbledMetadata` as `managedCalculateFileMetadata` fills it, without `UID`, which
only names alerts. `SiaFile.Health` starts both healths at 0 and only raises them to a chunk's,
and `SiaFile.Redundancy` is -1 or the least ratio of a chunk's good pieces to `MinPieces`, never
its `MaxFloat64` start value. -/
structure BubbledMetadata where
  health : ℚ
  lastHealthCheckTime : ℕ
  modTime : ℕ
  numSkylinks : UInt64
  numStuckChunks : UInt64
  onDisk : Bool
  redundancy : ℚ
  repairBytes : UInt64
  size : UInt64
  stuckBytes : UInt64
  stuckHealth : ℚ
  health_nonneg : 0 ≤ health
  stuckHealth_nonneg : 0 ≤ stuckHealth
  redundancy_lt : redundancy < maxFloat64

/-- `bubbledSiaFileMetadata`: the file's metadata, and whether its siapath contains
`ExtendedSuffix`, the one use the loop makes of the path. -/
structure BubbledSiaFileMetadata where
  isExtended : Bool
  bm : BubbledMetadata

namespace SiaDir

/-- `siadir.DefaultDirHealth`. -/
def defaultDirHealth : ℚ := 0

/-- `siadir.Metadata`, without `Mode` and `Version`, which the computation leaves at their zero
values. -/
structure Metadata where
  aggregateHealth : ℚ
  aggregateLastHealthCheckTime : ℕ
  aggregateMinRedundancy : ℚ
  aggregateModTime : ℕ
  aggregateNumFiles : UInt64
  aggregateNumStuckChunks : UInt64
  aggregateNumSubDirs : UInt64
  aggregateRemoteHealth : ℚ
  aggregateRepairSize : UInt64
  aggregateSize : UInt64
  aggregateStuckHealth : ℚ
  aggregateStuckSize : UInt64
  aggregateSkynetFiles : UInt64
  aggregateSkynetSize : UInt64
  health : ℚ
  lastHealthCheckTime : ℕ
  minRedundancy : ℚ
  modTime : ℕ
  numFiles : UInt64
  numStuckChunks : UInt64
  numSubDirs : UInt64
  remoteHealth : ℚ
  repairSize : UInt64
  size : UInt64
  stuckHealth : ℚ
  stuckSize : UInt64
  skynetFiles : UInt64
  skynetSize : UInt64

end SiaDir

open SiaDir

/-- The values one iteration compares against the other kind of entry, each Go's zero value
until its branch sets it. -/
structure Aggregates where
  health : ℚ := 0
  remoteHealth : ℚ := 0
  stuckHealth : ℚ := 0
  minRedundancy : ℚ := 0
  lastHealthCheckTime : ℕ := 0
  modTime : ℕ := 0

section Calculate

variable (now : ℕ) (isSkynetDir : Bool)

/-- The metadata the computation starts from. -/
def startMetadata : Metadata where
  aggregateHealth := defaultDirHealth
  aggregateLastHealthCheckTime := now
  aggregateMinRedundancy := maxFloat64
  aggregateModTime := 0
  aggregateNumFiles := 0
  aggregateNumStuckChunks := 0
  aggregateNumSubDirs := 0
  aggregateRemoteHealth := defaultDirHealth
  aggregateRepairSize := 0
  aggregateSize := 0
  aggregateStuckHealth := defaultDirHealth
  aggregateStuckSize := 0
  aggregateSkynetFiles := 0
  aggregateSkynetSize := 0
  health := defaultDirHealth
  lastHealthCheckTime := now
  minRedundancy := maxFloat64
  modTime := 0
  numFiles := 0
  numStuckChunks := 0
  numSubDirs := 0
  remoteHealth := defaultDirHealth
  repairSize := 0
  size := 0
  stuckHealth := defaultDirHealth
  stuckSize := 0
  skynetFiles := 0
  skynetSize := 0

/-- The file branch of an iteration: the file's sizes and counts are added, the directory's own
healths, redundancy and times take the file's, and the file's values are returned to be
compared against subdirectories. The low-redundancy alert it registers is not modelled. -/
def fileIteration (metadata : Metadata) (bubbledMetadata : BubbledSiaFileMetadata) :
    Metadata × Aggregates :=
  let fileMetadata := bubbledMetadata.bm
  -- a file never checked counts as checked now
  let lastHealthCheckTime :=
    if fileMetadata.lastHealthCheckTime = 0 then now else fileMetadata.lastHealthCheckTime
  let aggregates : Aggregates :=
    { health := fileMetadata.health
      remoteHealth := if !fileMetadata.onDisk then fileMetadata.health else 0
      stuckHealth := fileMetadata.stuckHealth
      minRedundancy := fileMetadata.redundancy
      lastHealthCheckTime := lastHealthCheckTime
      modTime := fileMetadata.modTime }
  let hasSkylinks := 0 < fileMetadata.numSkylinks
  ({ metadata with
      aggregateRepairSize := metadata.aggregateRepairSize + fileMetadata.repairBytes
      aggregateStuckSize := metadata.aggregateStuckSize + fileMetadata.stuckBytes
      repairSize := metadata.repairSize + fileMetadata.repairBytes
      stuckSize := metadata.stuckSize + fileMetadata.stuckBytes
      aggregateNumFiles := metadata.aggregateNumFiles + 1
      aggregateNumStuckChunks := metadata.aggregateNumStuckChunks + fileMetadata.numStuckChunks
      aggregateSize := metadata.aggregateSize + fileMetadata.size
      health := max metadata.health fileMetadata.health
      lastHealthCheckTime :=
        if lastHealthCheckTime < metadata.lastHealthCheckTime then lastHealthCheckTime
        else metadata.lastHealthCheckTime
      minRedundancy :=
        if fileMetadata.redundancy ≠ -1 then min metadata.minRedundancy fileMetadata.redundancy
        else metadata.minRedundancy
      modTime :=
        if metadata.modTime < fileMetadata.modTime then fileMetadata.modTime else metadata.modTime
      numFiles := metadata.numFiles + 1
      numStuckChunks := metadata.numStuckChunks + fileMetadata.numStuckChunks
      remoteHealth :=
        if !fileMetadata.onDisk then max metadata.remoteHealth fileMetadata.health
        else metadata.remoteHealth
      size := metadata.size + fileMetadata.size
      stuckHealth := max metadata.stuckHealth fileMetadata.stuckHealth
      -- every file of a Skynet directory, or with a skylink, counts towards the Skynet size;
      -- only the non-extended ones of a Skynet directory towards the Skynet files
      aggregateSkynetSize :=
        if isSkynetDir || hasSkylinks then metadata.aggregateSkynetSize + fileMetadata.size
        else metadata.aggregateSkynetSize
      skynetSize :=
        if isSkynetDir || hasSkylinks then metadata.skynetSize + fileMetadata.size
        else metadata.skynetSize
      aggregateSkynetFiles :=
        if isSkynetDir && !bubbledMetadata.isExtended then metadata.aggregateSkynetFiles + 1
        else metadata.aggregateSkynetFiles
      skynetFiles :=
        if isSkynetDir && !bubbledMetadata.isExtended then metadata.skynetFiles + 1
        else metadata.skynetFiles },
    aggregates)

/-- The subdirectory branch of an iteration: its aggregates are added, with one more
subdirectory for itself, and its aggregate values are returned to be compared against files.
The bubble it launches on a subdirectory never checked is not modelled. -/
def dirIteration (metadata : Metadata) (dirMetadata : Metadata) : Metadata × Aggregates :=
  let lastHealthCheckTime :=
    if dirMetadata.aggregateLastHealthCheckTime = 0 then now
    else dirMetadata.aggregateLastHealthCheckTime
  let aggregates : Aggregates :=
    { health := dirMetadata.aggregateHealth
      remoteHealth := dirMetadata.aggregateRemoteHealth
      stuckHealth := dirMetadata.aggregateStuckHealth
      minRedundancy := dirMetadata.aggregateMinRedundancy
      lastHealthCheckTime := lastHealthCheckTime
      modTime := dirMetadata.aggregateModTime }
  ({ metadata with
      aggregateNumFiles := metadata.aggregateNumFiles + dirMetadata.aggregateNumFiles
      aggregateNumStuckChunks := metadata.aggregateNumStuckChunks + dirMetadata.aggregateNumStuckChunks
      aggregateNumSubDirs := metadata.aggregateNumSubDirs + dirMetadata.aggregateNumSubDirs + 1
      aggregateRepairSize := metadata.aggregateRepairSize + dirMetadata.aggregateRepairSize
      aggregateSize := metadata.aggregateSize + dirMetadata.aggregateSize
      aggregateStuckSize := metadata.aggregateStuckSize + dirMetadata.aggregateStuckSize
      aggregateSkynetFiles := metadata.aggregateSkynetFiles + dirMetadata.aggregateSkynetFiles
      aggregateSkynetSize := metadata.aggregateSkynetSize + dirMetadata.aggregateSkynetSize
      numSubDirs := metadata.numSubDirs + 1 },
    aggregates)

/-- The end of every iteration: the worst aggregate healths, the least aggregate redundancy other
than -1, the earliest check and the latest modification. -/
def trackAggregates (metadata : Metadata) (aggregates : Aggregates) : Metadata :=
  { metadata with
    aggregateHealth := max metadata.aggregateHealth aggregates.health
    aggregateRemoteHealth := max metadata.aggregateRemoteHealth aggregates.remoteHealth
    aggregateStuckHealth := max metadata.aggregateStuckHealth aggregates.stuckHealth
    aggregateMinRedundancy :=
      if aggregates.minRedundancy ≠ -1 then
        min metadata.aggregateMinRedundancy aggregates.minRedundancy
      else metadata.aggregateMinRedundancy
    aggregateLastHealthCheckTime :=
      if aggregates.lastHealthCheckTime < metadata.aggregateLastHealthCheckTime then
        aggregates.lastHealthCheckTime
      else metadata.aggregateLastHealthCheckTime
    aggregateModTime :=
      if metadata.aggregateModTime < aggregates.modTime then aggregates.modTime
      else metadata.aggregateModTime }

/-- An iteration on a file. -/
def fileStep (metadata : Metadata) (bubbledMetadata : BubbledSiaFileMetadata) : Metadata :=
  let (metadata, aggregates) := fileIteration now isSkynetDir metadata bubbledMetadata
  trackAggregates metadata aggregates

/-- An iteration on a subdirectory. -/
def dirStep (metadata : Metadata) (dirMetadata : Metadata) : Metadata :=
  let (metadata, aggregates) := dirIteration now metadata dirMetadata
  trackAggregates metadata aggregates

/-- The loop `for len(bubbledMetadatas)+len(dirMetadatas) > 0`, which takes the next file while
there is one and the next subdirectory otherwise. -/
def calculateLoop : List BubbledSiaFileMetadata → List Metadata → Metadata → Metadata
  | bubbledMetadata :: bubbledMetadatas, dirMetadatas, metadata =>
      calculateLoop bubbledMetadatas dirMetadatas (fileStep now isSkynetDir metadata bubbledMetadata)
  | [], dirMetadata :: dirMetadatas, metadata =>
      calculateLoop [] dirMetadatas (dirStep now metadata dirMetadata)
  | [], [], metadata => metadata

/-- `managedCalculateDirectoryMetadata` once the directory has been read and its files' and
subdirectories' metadata gathered. -/
def managedCalculateDirectoryMetadata (bubbledMetadatas : List BubbledSiaFileMetadata)
    (dirMetadatas : List Metadata) : Metadata :=
  let metadata := calculateLoop now isSkynetDir bubbledMetadatas dirMetadatas (startMetadata now)
  { metadata with
    -- no file or subdirectory set a modification time: the directory was just updated
    aggregateModTime := if metadata.aggregateModTime = 0 then now else metadata.aggregateModTime
    modTime := if metadata.modTime = 0 then now else metadata.modTime
    -- no redundancy was found: -1 marks the empty directory
    aggregateMinRedundancy :=
      if metadata.aggregateMinRedundancy = maxFloat64 then -1 else metadata.aggregateMinRedundancy
    minRedundancy := if metadata.minRedundancy = maxFloat64 then -1 else metadata.minRedundancy }

/-! ### The loop as two folds -/

theorem calculateLoop_eq_foldl (bubbledMetadatas : List BubbledSiaFileMetadata)
    (dirMetadatas : List Metadata) (metadata : Metadata) :
    calculateLoop now isSkynetDir bubbledMetadatas dirMetadatas metadata =
      dirMetadatas.foldl (dirStep now)
        (bubbledMetadatas.foldl (fileStep now isSkynetDir) metadata) := by
  fun_induction calculateLoop now isSkynetDir bubbledMetadatas dirMetadatas metadata with
  | case1 metadata bubbledMetadata bubbledMetadatas dirMetadatas ih => rw [ih]; rfl
  | case2 metadata dirMetadata dirMetadatas ih => rw [ih]; rfl
  | case3 metadata => rfl

/-- A field that every file and every subdirectory changes by an operation of the entry alone,
whatever the other fields: after the loop it is the fold of those operations, files first. -/
theorem calculateLoop_field {β : Type*} (p : Metadata → β) (fileOp : β → BubbledSiaFileMetadata → β)
    (dirOp : β → Metadata → β)
    (file : ∀ metadata bubbledMetadata,
      p (fileStep now isSkynetDir metadata bubbledMetadata) = fileOp (p metadata) bubbledMetadata)
    (dir : ∀ metadata dirMetadata, p (dirStep now metadata dirMetadata) = dirOp (p metadata) dirMetadata)
    (bubbledMetadatas : List BubbledSiaFileMetadata) (dirMetadatas : List Metadata)
    (metadata : Metadata) :
    p (calculateLoop now isSkynetDir bubbledMetadatas dirMetadatas metadata) =
      dirMetadatas.foldl dirOp (bubbledMetadatas.foldl fileOp (p metadata)) := by
  rw [calculateLoop_eq_foldl, Fold.foldl_field p dirOp dir, Fold.foldl_field p fileOp file]

end Calculate

/-! ### Totals -/

/-- The totals a directory's metadata reports, over its own entries and in aggregate. -/
structure Totals where
  numFiles : UInt64
  size : UInt64
  numStuckChunks : UInt64
  repairSize : UInt64
  stuckSize : UInt64
  numSubDirs : UInt64
  health : ℚ
  stuckHealth : ℚ
  minRedundancy : ℚ

/-- The totals over siafiles and a number of directories: sums and counts, the worst healths
(`DefaultDirHealth` without a file), and the least redundancy other than -1 (-1 without
one). -/
def Totals.of (files : List BubbledMetadata) (numSubDirs : ℕ) : Totals where
  numFiles := UInt64.ofNat files.length
  size := (files.map (·.size)).sum
  numStuckChunks := (files.map (·.numStuckChunks)).sum
  repairSize := (files.map (·.repairBytes)).sum
  stuckSize := (files.map (·.stuckBytes)).sum
  numSubDirs := UInt64.ofNat numSubDirs
  health := (files.map (·.health)).max?.getD defaultDirHealth
  stuckHealth := (files.map (·.stuckHealth)).max?.getD defaultDirHealth
  minRedundancy := ((files.map (·.redundancy)).filter (· ≠ -1)).min?.getD (-1)

/-- A directory's own totals. -/
def SiaDir.Metadata.totals (metadata : Metadata) : Totals :=
  ⟨metadata.numFiles, metadata.size, metadata.numStuckChunks, metadata.repairSize,
    metadata.stuckSize, metadata.numSubDirs, metadata.health, metadata.stuckHealth,
    metadata.minRedundancy⟩

/-- A directory's aggregate totals. -/
def SiaDir.Metadata.aggregateTotals (metadata : Metadata) : Totals :=
  ⟨metadata.aggregateNumFiles, metadata.aggregateSize, metadata.aggregateNumStuckChunks,
    metadata.aggregateRepairSize, metadata.aggregateStuckSize, metadata.aggregateNumSubDirs,
    metadata.aggregateHealth, metadata.aggregateStuckHealth, metadata.aggregateMinRedundancy⟩

theorem sum_map_one {α : Type*} (l : List α) : (l.map fun _ => (1 : UInt64)).sum = UInt64.ofNat l.length := by
  induction l with
  | nil => rfl
  | cons x l ih => rw [List.map_cons, List.sum_cons, ih, List.length_cons, UInt64.ofNat_add, add_comm]; rfl

section Fields

variable {now : ℕ} {isSkynetDir : Bool}

/-- A sum that every file raises by `a` of itself and every subdirectory by `b` of its
metadata. -/
theorem calculateLoop_sum (p : Metadata → UInt64) (a : BubbledMetadata → UInt64)
    (b : Metadata → UInt64)
    (file : ∀ metadata bubbledMetadata,
      p (fileStep now isSkynetDir metadata bubbledMetadata) = p metadata + a bubbledMetadata.bm)
    (dir : ∀ metadata dirMetadata, p (dirStep now metadata dirMetadata) = p metadata + b dirMetadata)
    (bubbledMetadatas : List BubbledSiaFileMetadata) (dirMetadatas : List Metadata) :
    p (calculateLoop now isSkynetDir bubbledMetadatas dirMetadatas (startMetadata now)) =
      p (startMetadata now) + ((bubbledMetadatas.map (·.bm)).map a).sum + (dirMetadatas.map b).sum := by
  rw [calculateLoop_field now isSkynetDir p (fun acc x => acc + a x.bm) (fun acc d => acc + b d) file dir,
    Fold.foldl_add, Fold.foldl_add, List.map_map]
  rfl

/-- A worst value that every file raises to `a` of itself and every subdirectory to `b` of its
metadata. -/
theorem calculateLoop_max (p : Metadata → ℚ) (a : BubbledMetadata → ℚ) (b : Metadata → ℚ)
    (file : ∀ metadata bubbledMetadata,
      p (fileStep now isSkynetDir metadata bubbledMetadata) = max (p metadata) (a bubbledMetadata.bm))
    (dir : ∀ metadata dirMetadata,
      p (dirStep now metadata dirMetadata) = max (p metadata) (b dirMetadata))
    (bubbledMetadatas : List BubbledSiaFileMetadata) (dirMetadatas : List Metadata) :
    p (calculateLoop now isSkynetDir bubbledMetadatas dirMetadatas (startMetadata now)) =
      (dirMetadatas.map b).foldl max
        (((bubbledMetadatas.map (·.bm)).map a).foldl max (p (startMetadata now))) := by
  rw [calculateLoop_field now isSkynetDir p (fun acc x => max acc (a x.bm)) (fun acc d => max acc (b d))
    file dir, List.foldl_map, List.foldl_map, List.foldl_map]

/-- A least value other than -1 that every file lowers to `a` of itself and every subdirectory to
`b` of its metadata, each unless it is -1. -/
theorem calculateLoop_least (p : Metadata → ℚ) (a : BubbledMetadata → ℚ) (b : Metadata → ℚ)
    (file : ∀ metadata bubbledMetadata,
      p (fileStep now isSkynetDir metadata bubbledMetadata) =
        if a bubbledMetadata.bm ≠ -1 then min (p metadata) (a bubbledMetadata.bm) else p metadata)
    (dir : ∀ metadata dirMetadata,
      p (dirStep now metadata dirMetadata) =
        if b dirMetadata ≠ -1 then min (p metadata) (b dirMetadata) else p metadata)
    (bubbledMetadatas : List BubbledSiaFileMetadata) (dirMetadatas : List Metadata) :
    p (calculateLoop now isSkynetDir bubbledMetadatas dirMetadatas (startMetadata now)) =
      ((dirMetadatas.map b).filter (· ≠ -1)).foldl min
        ((((bubbledMetadatas.map (·.bm)).map a).filter (· ≠ -1)).foldl min (p (startMetadata now))) := by
  rw [calculateLoop_field now isSkynetDir p
      (fun acc x => if a x.bm ≠ -1 then min acc (a x.bm) else acc)
      (fun acc d => if b d ≠ -1 then min acc (b d) else acc) file dir,
    ← Fold.foldl_ite, ← Fold.foldl_ite, List.foldl_map, List.foldl_map, List.foldl_map]

/-- A field that subdirectories leave alone and every file changes by `op` of its metadata: the
fold of `op` over the files. -/
theorem calculateLoop_own {β : Type*} (p : Metadata → β) (op : β → BubbledMetadata → β)
    (file : ∀ metadata bubbledMetadata,
      p (fileStep now isSkynetDir metadata bubbledMetadata) = op (p metadata) bubbledMetadata.bm)
    (dir : ∀ metadata dirMetadata, p (dirStep now metadata dirMetadata) = p metadata)
    (bubbledMetadatas : List BubbledSiaFileMetadata) (dirMetadatas : List Metadata)
    (metadata : Metadata) :
    p (calculateLoop now isSkynetDir bubbledMetadatas dirMetadatas metadata) =
      (bubbledMetadatas.map (·.bm)).foldl op (p metadata) := by
  rw [calculateLoop_field now isSkynetDir p (fun acc x => op acc x.bm) (fun acc _ => acc) file dir,
    List.foldl_fixed, List.foldl_map]

/-- A directory's own totals range over its files alone; its subdirectories are only counted. -/
theorem managedCalculateDirectoryMetadata_totals (bubbledMetadatas : List BubbledSiaFileMetadata)
    (dirMetadatas : List Metadata) :
    (managedCalculateDirectoryMetadata now isSkynetDir bubbledMetadatas dirMetadatas).totals =
      Totals.of (bubbledMetadatas.map (·.bm)) dirMetadatas.length := by
  set files := bubbledMetadatas.map (·.bm)
  have sum : ∀ (p : Metadata → UInt64) (a : BubbledMetadata → UInt64),
      (∀ metadata bubbledMetadata,
        p (fileStep now isSkynetDir metadata bubbledMetadata) = p metadata + a bubbledMetadata.bm) →
      (∀ metadata dirMetadata, p (dirStep now metadata dirMetadata) = p metadata) →
      p (startMetadata now) = 0 →
      p (calculateLoop now isSkynetDir bubbledMetadatas dirMetadatas (startMetadata now)) =
        (files.map a).sum := by
    intro p a file dir start
    rw [calculateLoop_own p (fun acc x => acc + a x) file dir, Fold.foldl_add, start, zero_add]
  have worst : ∀ (p : Metadata → ℚ) (a : BubbledMetadata → ℚ), (∀ b, 0 ≤ a b) →
      (∀ metadata bubbledMetadata,
        p (fileStep now isSkynetDir metadata bubbledMetadata) = max (p metadata) (a bubbledMetadata.bm)) →
      (∀ metadata dirMetadata, p (dirStep now metadata dirMetadata) = p metadata) →
      p (startMetadata now) = defaultDirHealth →
      p (calculateLoop now isSkynetDir bubbledMetadatas dirMetadatas (startMetadata now)) =
        (files.map a).max?.getD defaultDirHealth := by
    intro p a nonneg file dir start
    rw [calculateLoop_own p (fun acc x => max acc (a x)) file dir, start, ← List.foldl_map]
    exact Fold.foldl_max_of_le fun x mem => by
      obtain ⟨b, -, rfl⟩ := List.mem_map.mp mem
      exact nonneg b
  have least : (calculateLoop now isSkynetDir bubbledMetadatas dirMetadatas
      (startMetadata now)).minRedundancy =
        ((files.map (·.redundancy)).filter (· ≠ -1)).foldl min maxFloat64 := by
    rw [calculateLoop_own Metadata.minRedundancy
      (fun acc x => if x.redundancy ≠ -1 then min acc x.redundancy else acc)
      (fun _ _ => rfl) (fun _ _ => rfl), ← List.foldl_map (g := fun acc x => if x ≠ -1 then min acc x else acc), Fold.foldl_ite]
    rfl
  simp only [Metadata.totals, Totals.of, Totals.mk.injEq]
  refine ⟨?numFiles, sum Metadata.size _ (fun _ _ => rfl) (fun _ _ => rfl) rfl,
    sum Metadata.numStuckChunks _ (fun _ _ => rfl) (fun _ _ => rfl) rfl,
    sum Metadata.repairSize _ (fun _ _ => rfl) (fun _ _ => rfl) rfl,
    sum Metadata.stuckSize _ (fun _ _ => rfl) (fun _ _ => rfl) rfl, ?numSubDirs,
    worst Metadata.health _ (·.health_nonneg) (fun _ _ => rfl) (fun _ _ => rfl) rfl,
    worst Metadata.stuckHealth _ (·.stuckHealth_nonneg) (fun _ _ => rfl) (fun _ _ => rfl) rfl,
    ?minRedundancy⟩
  case numFiles =>
    -- every file counts one
    rw [← sum_map_one]
    exact sum Metadata.numFiles (fun _ => 1) (fun _ _ => rfl) (fun _ _ => rfl) rfl
  case numSubDirs =>
    -- every subdirectory counts one, files none
    change (calculateLoop now isSkynetDir bubbledMetadatas dirMetadatas (startMetadata now)).numSubDirs = _
    rw [calculateLoop_field now isSkynetDir Metadata.numSubDirs (fun acc _ => acc) (fun acc _ => acc + 1)
      (fun _ _ => rfl) (fun _ _ => rfl), List.foldl_fixed, Fold.foldl_add, sum_map_one]
    exact zero_add _
  case minRedundancy =>
    change (if _ = maxFloat64 then -1 else _) = _
    rw [least]
    exact Fold.foldl_min_sentinel fun x mem => by
      obtain ⟨b, -, rfl⟩ := List.mem_map.mp (List.mem_filter.mp mem).1
      exact b.redundancy_lt

end Fields

/-! ### The bubbled tree -/

/-- A directory as the bubble sees it: the metadata stored in its `.siadir` file, whether its
siapath lies under the Skynet folder, its siafiles' bubbled metadata, and its
subdirectories. -/
inductive DirTree where
  | node (metadata : Metadata) (isSkynetDir : Bool) (files : List BubbledSiaFileMetadata)
      (subdirs : List DirTree)

namespace DirTree

/-- The stored metadata. -/
def metadata : DirTree → Metadata
  | node metadata .. => metadata

def files : DirTree → List BubbledSiaFileMetadata
  | node _ _ files _ => files

def subdirs : DirTree → List DirTree
  | node _ _ _ subdirs => subdirs

mutual
/-- The bubbled metadata of the siafiles in a directory and in every directory below it. -/
def filesBelow : DirTree → List BubbledMetadata
  | node _ _ files subdirs => files.map (·.bm) ++ filesBelowAll subdirs

/-- The bubbled metadata of the siafiles in and below a list of directories. -/
def filesBelowAll : List DirTree → List BubbledMetadata
  | [] => []
  | t :: ts => t.filesBelow ++ filesBelowAll ts
end

mutual
/-- The number of directories strictly below a directory. -/
def numDirsBelow : DirTree → ℕ
  | node _ _ _ subdirs => numDirsBelowAll subdirs

/-- The number of directories in and below a list of directories. -/
def numDirsBelowAll : List DirTree → ℕ
  | [] => 0
  | t :: ts => t.numDirsBelow + 1 + numDirsBelowAll ts
end

mutual
/-- Every directory's stored metadata is what `managedCalculateDirectoryMetadata` computed, at
some time, from its files and its subdirectories' stored metadata: the tree after a bubble from
the leaves up. -/
def Bubbled : DirTree → Prop
  | node metadata isSkynetDir files subdirs =>
      (∃ now, metadata =
        managedCalculateDirectoryMetadata now isSkynetDir files (subdirs.map DirTree.metadata)) ∧
      AllBubbled subdirs

/-- Every directory of a list is bubbled. -/
def AllBubbled : List DirTree → Prop
  | [] => True
  | t :: ts => t.Bubbled ∧ AllBubbled ts
end

theorem map_filesBelowAll {β : Type*} (f : BubbledMetadata → β) (ts : List DirTree) :
    (filesBelowAll ts).map f = (ts.map fun t => t.filesBelow.map f).flatten := by
  induction ts with
  | nil => rfl
  | cons t ts ih => rw [filesBelowAll, List.map_append, ih, List.map_cons, List.flatten_cons]

section Node

variable {now : ℕ} {isSkynetDir : Bool} {files : List BubbledSiaFileMetadata}
  {subdirs : List DirTree}

/-- A sum over the files below: each file adds `a` of itself and each subdirectory its own
sum. -/
theorem aggregate_sum (p : Metadata → UInt64) (a : BubbledMetadata → UInt64)
    (file : ∀ metadata bubbledMetadata,
      p (fileStep now isSkynetDir metadata bubbledMetadata) = p metadata + a bubbledMetadata.bm)
    (dir : ∀ metadata dirMetadata, p (dirStep now metadata dirMetadata) = p metadata + p dirMetadata)
    (start : p (startMetadata now) = 0)
    (children : ∀ t ∈ subdirs, p t.metadata = (t.filesBelow.map a).sum) :
    p (calculateLoop now isSkynetDir files (subdirs.map metadata) (startMetadata now)) =
      ((files.map (·.bm) ++ filesBelowAll subdirs).map a).sum := by
  have below : (subdirs.map metadata).map p =
      (subdirs.map fun t => t.filesBelow.map a).map List.sum := by
    rw [List.map_map, List.map_map]
    exact List.map_congr_left children
  rw [calculateLoop_sum p a p file dir, start, zero_add, below, List.map_append, List.sum_append,
    map_filesBelowAll, List.sum_flatten]

/-- A worst value over the files below: each file raises it to `a` of itself and each
subdirectory to its own worst value. -/
theorem aggregate_max (p : Metadata → ℚ) (a : BubbledMetadata → ℚ)
    (floor : ∀ b, defaultDirHealth ≤ a b)
    (file : ∀ metadata bubbledMetadata,
      p (fileStep now isSkynetDir metadata bubbledMetadata) = max (p metadata) (a bubbledMetadata.bm))
    (dir : ∀ metadata dirMetadata,
      p (dirStep now metadata dirMetadata) = max (p metadata) (p dirMetadata))
    (start : p (startMetadata now) = defaultDirHealth)
    (children : ∀ t ∈ subdirs, p t.metadata = (t.filesBelow.map a).max?.getD defaultDirHealth) :
    p (calculateLoop now isSkynetDir files (subdirs.map metadata) (startMetadata now)) =
      ((files.map (·.bm) ++ filesBelowAll subdirs).map a).max?.getD defaultDirHealth := by
  have aboveFloor : ∀ l : List BubbledMetadata, ∀ x ∈ l.map a, defaultDirHealth ≤ x := by
    intro l x mem
    obtain ⟨b, -, rfl⟩ := List.mem_map.mp mem
    exact floor b
  -- each subdirectory's worst value, read back as a fold of `max` from the floor
  have below : (subdirs.map metadata).map p =
      (subdirs.map fun t => t.filesBelow.map a).map (·.foldl max defaultDirHealth) := by
    rw [List.map_map, List.map_map]
    exact List.map_congr_left fun t mem =>
      (children t mem).trans (Fold.foldl_max_of_le (aboveFloor _)).symm
  have filesFirst := Fold.le_foldl_max ((files.map (·.bm)).map a) defaultDirHealth
  rw [calculateLoop_max p a p file dir, start, below, Fold.foldl_max_flatten filesFirst,
    ← map_filesBelowAll, ← List.foldl_append, ← List.map_append,
    Fold.foldl_max_of_le (aboveFloor _)]

/-- The least redundancy over the files below: each file lowers it to `a` of itself and each
subdirectory to its own least value, both unless -1, and a value left at `MaxFloat64` becomes
-1. -/
theorem aggregate_least (p : Metadata → ℚ) (a : BubbledMetadata → ℚ)
    (ceiling : ∀ b, a b < maxFloat64)
    (file : ∀ metadata bubbledMetadata,
      p (fileStep now isSkynetDir metadata bubbledMetadata) =
        if a bubbledMetadata.bm ≠ -1 then min (p metadata) (a bubbledMetadata.bm) else p metadata)
    (dir : ∀ metadata dirMetadata,
      p (dirStep now metadata dirMetadata) =
        if p dirMetadata ≠ -1 then min (p metadata) (p dirMetadata) else p metadata)
    (start : p (startMetadata now) = maxFloat64)
    (children : ∀ t ∈ subdirs, p t.metadata = ((t.filesBelow.map a).filter (· ≠ -1)).min?.getD (-1)) :
    (if p (calculateLoop now isSkynetDir files (subdirs.map metadata) (startMetadata now)) = maxFloat64
      then -1 else p (calculateLoop now isSkynetDir files (subdirs.map metadata) (startMetadata now))) =
      (((files.map (·.bm) ++ filesBelowAll subdirs).map a).filter (· ≠ -1)).min?.getD (-1) := by
  have below : (subdirs.map metadata).map p =
      ((subdirs.map fun t => t.filesBelow.map a).map (List.filter (· ≠ -1))).map (·.min?.getD (-1)) := by
    rw [List.map_map, List.map_map, List.map_map]
    exact List.map_congr_left children
  -- a subdirectory's least value is one of its files', so never the marker
  have unmarked : ∀ l ∈ (subdirs.map fun t => t.filesBelow.map a).map (List.filter (· ≠ -1)),
      ∀ x ∈ l, x ≠ -1 := by
    intro l mem x found
    obtain ⟨l', -, rfl⟩ := List.mem_map.mp mem
    simpa using (List.mem_filter.mp found).2
  have folded : p (calculateLoop now isSkynetDir files (subdirs.map metadata) (startMetadata now)) =
      (((files.map (·.bm) ++ filesBelowAll subdirs).map a).filter (· ≠ -1)).foldl min maxFloat64 := by
    rw [calculateLoop_least p a p file dir, start, below, Fold.foldl_min_flatten unmarked,
      ← List.filter_flatten, ← map_filesBelowAll, ← List.foldl_append, ← List.filter_append,
      ← List.map_append]
  rw [folded]
  exact Fold.foldl_min_sentinel fun x mem => by
    obtain ⟨b, -, rfl⟩ := List.mem_map.mp (List.mem_filter.mp mem).1
    exact ceiling b

theorem foldl_numSubDirs {ts : List DirTree}
    (children : ∀ t ∈ ts, t.metadata.aggregateNumSubDirs = UInt64.ofNat t.numDirsBelow) (c : UInt64) :
    (ts.map metadata).foldl (fun acc d => acc + d.aggregateNumSubDirs + 1) c =
      c + UInt64.ofNat (numDirsBelowAll ts) := by
  induction ts generalizing c with
  | nil => exact (add_zero c).symm
  | cons t ts ih =>
    rw [List.map_cons, List.foldl_cons, ih fun t' mem => children t' (List.mem_cons_of_mem t mem),
      children t List.mem_cons_self, numDirsBelowAll, UInt64.ofNat_add, UInt64.ofNat_add]
    simp only [add_assoc]
    rfl

/-- One directory of the bubble: once every subdirectory's aggregate totals are those of the
files and directories below it, so are the directory's. -/
theorem aggregateTotals_node
    (children : ∀ t ∈ subdirs, t.metadata.aggregateTotals = Totals.of t.filesBelow t.numDirsBelow) :
    (managedCalculateDirectoryMetadata now isSkynetDir files (subdirs.map metadata)).aggregateTotals =
      Totals.of (files.map (·.bm) ++ filesBelowAll subdirs) (numDirsBelowAll subdirs) := by
  simp only [Metadata.aggregateTotals, Totals.of, Totals.mk.injEq]
  refine ⟨?numFiles,
    aggregate_sum Metadata.aggregateSize (·.size) (fun _ _ => rfl) (fun _ _ => rfl) rfl
      fun t mem => congrArg Totals.size (children t mem),
    aggregate_sum Metadata.aggregateNumStuckChunks (·.numStuckChunks) (fun _ _ => rfl) (fun _ _ => rfl)
      rfl fun t mem => congrArg Totals.numStuckChunks (children t mem),
    aggregate_sum Metadata.aggregateRepairSize (·.repairBytes) (fun _ _ => rfl) (fun _ _ => rfl) rfl
      fun t mem => congrArg Totals.repairSize (children t mem),
    aggregate_sum Metadata.aggregateStuckSize (·.stuckBytes) (fun _ _ => rfl) (fun _ _ => rfl) rfl
      fun t mem => congrArg Totals.stuckSize (children t mem),
    ?numSubDirs,
    aggregate_max Metadata.aggregateHealth (·.health) (·.health_nonneg) (fun _ _ => rfl)
      (fun _ _ => rfl) rfl fun t mem => congrArg Totals.health (children t mem),
    aggregate_max Metadata.aggregateStuckHealth (·.stuckHealth) (·.stuckHealth_nonneg)
      (fun _ _ => rfl) (fun _ _ => rfl) rfl fun t mem => congrArg Totals.stuckHealth (children t mem),
    aggregate_least Metadata.aggregateMinRedundancy (·.redundancy) (·.redundancy_lt) (fun _ _ => rfl)
      (fun _ _ => rfl) rfl fun t mem => congrArg Totals.minRedundancy (children t mem)⟩
  case numFiles =>
    -- a count of files is a sum of ones, below as here
    rw [← sum_map_one]
    exact aggregate_sum Metadata.aggregateNumFiles (fun _ => 1) (fun _ _ => rfl) (fun _ _ => rfl) rfl
      fun t mem => (congrArg Totals.numFiles (children t mem)).trans (sum_map_one _).symm
  case numSubDirs =>
    change (calculateLoop now isSkynetDir files (subdirs.map metadata)
      (startMetadata now)).aggregateNumSubDirs = _
    rw [calculateLoop_field now isSkynetDir Metadata.aggregateNumSubDirs (fun acc _ => acc)
        (fun acc d => acc + d.aggregateNumSubDirs + 1) (fun _ _ => rfl) (fun _ _ => rfl),
      List.foldl_fixed, foldl_numSubDirs fun t mem => congrArg Totals.numSubDirs (children t mem)]
    exact zero_add _

end Node

-- structural recursion on the tree: a directory from its subdirectories, a list from its members
mutual
theorem Bubbled.aggregateTotals : ∀ {t : DirTree}, t.Bubbled →
    t.metadata.aggregateTotals = Totals.of t.filesBelow t.numDirsBelow
  | node _ _ _ _, ⟨⟨_, stored⟩, children⟩ => by
    rw [metadata, stored]
    exact aggregateTotals_node (AllBubbled.aggregateTotals children)

theorem AllBubbled.aggregateTotals : ∀ {ts : List DirTree}, AllBubbled ts →
    ∀ t ∈ ts, t.metadata.aggregateTotals = Totals.of t.filesBelow t.numDirsBelow
  | [], _, _, absent => absurd absent List.not_mem_nil
  | _ :: _, ⟨head, _⟩, _, .head _ => Bubbled.aggregateTotals head
  | _ :: _, ⟨_, tail⟩, _, .tail _ mem => AllBubbled.aggregateTotals tail _ mem
end

/-- After a bubble from the leaves up, a directory's aggregate totals are the sums, counts, worst
healths and least redundancy over every siafile and directory below it, and its own totals are
those over its own files and subdirectories. -/
theorem bubbled_metadata_totals {t : DirTree} (bubbled : t.Bubbled) :
    t.metadata.aggregateTotals = Totals.of t.filesBelow t.numDirsBelow ∧
      t.metadata.totals = Totals.of (t.files.map (·.bm)) t.subdirs.length := by
  refine ⟨bubbled.aggregateTotals, ?_⟩
  obtain ⟨_, _, files, subdirs⟩ := t
  obtain ⟨⟨now, stored⟩, -⟩ := bubbled
  rw [metadata, stored, managedCalculateDirectoryMetadata_totals, List.length_map]
  rfl

/-- A healthy siafile of 100 bytes, uploaded to 1.5 times its size. -/
def healthyFile : BubbledSiaFileMetadata :=
  ⟨false, ⟨0, 3, 2, 0, 0, true, 3 / 2, 0, 100, 0, 0, le_rfl, le_rfl, by decide +kernel⟩⟩

/-- A siafile of 40 bytes missing half its redundancy, with a stuck chunk, and no local copy. -/
def damagedFile : BubbledSiaFileMetadata :=
  ⟨false, ⟨1 / 2, 4, 4, 0, 1, false, 1 / 2, 20, 40, 20, 1, by decide +kernel, by decide +kernel,
    by decide +kernel⟩⟩

/-- A subdirectory holding the damaged file, bubbled at time 5. -/
def damagedDir : DirTree :=
  node (managedCalculateDirectoryMetadata 5 false [damagedFile] []) false [damagedFile] []

/-- Its parent, holding the healthy file, bubbled afterwards at time 7. -/
def parentDir : DirTree :=
  node (managedCalculateDirectoryMetadata 7 false [healthyFile] [damagedDir.metadata]) false
    [healthyFile] [damagedDir]

theorem parentDir_bubbled_totals :
    parentDir.Bubbled ∧
      parentDir.metadata.aggregateTotals = Totals.of [healthyFile.bm, damagedFile.bm] 1 ∧
      parentDir.metadata.totals = Totals.of [healthyFile.bm] 1 :=
  have bubbled : parentDir.Bubbled := ⟨⟨7, rfl⟩, ⟨⟨5, rfl⟩, trivial⟩, trivial⟩
  ⟨bubbled, bubbled_metadata_totals bubbled⟩

end DirTree

end Sia.Renter
