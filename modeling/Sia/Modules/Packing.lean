import Sia.Lib.Extent
import Sia.Host.Revision
import Mathlib.Data.Finmap

/-! `modules/packing.go`: packing small files into sectors. The files are placed largest first,
each into the first of the largest free buckets it fits after aligning its start to a multiple
of a size-dependent alignment, counted from the start of the sector; the bucket is then split
around the file. Go's `uint64` subtraction wraps, and the fit test subtracts the alignment from
the bucket's length before comparing, so the model wraps there as Go does; every other value
stays far below `2^64`. Indexing a slice out of range panics, which the model returns as
`none`. The order `sortByFileSizeDescending` returns depends on Go's map order and on an
unstable sort, so `PackFiles` takes the sorted files as they come, and its results hold for
every order. -/
namespace Sia.Modules

/-- `alignmentScaling` of the standard build: alignments are multiples of 1 KiB. -/
def alignmentScaling : ℕ := 1024

inductive PackingError where
  | sizeTooLarge
  | zeroSize
  | bucketNotFound
  deriving DecidableEq, Repr

structure PackingFile (ID : Type) where
  id : ID
  size : ℕ
  deriving DecidableEq, Repr

structure FilePlacement (ID : Type) where
  fileID : ID
  size : ℕ
  sectorIndex : ℕ
  sectorOffset : ℕ
  deriving DecidableEq, Repr

structure Bucket where
  sectorIndex : ℕ
  sectorOffset : ℕ
  length : ℕ
  deriving DecidableEq, Repr

variable {ID : Type}

/-- Go's `uint64` subtraction `a - b`, wrapping below zero. -/
def sub64 (a b : ℕ) : ℕ := (a + 2 ^ 64 - b) % 2 ^ 64

/-- `requiredAlignment`: for a file up to `32 * 2^n` KiB, an alignment of `4 * 2^n` KiB. -/
def requiredAlignment (fileSize : ℕ) : Except PackingError ℕ :=
  match (List.range 8).find? (fun n => fileSize ≤ 32 * 2 ^ n * alignmentScaling) with
  | some n => .ok (4 * 2 ^ n * alignmentScaling)
  | none => .error .sizeTooLarge

/-- `alignFileInBucket`: how far past `sectorOffset` the next aligned start lies. -/
def alignFileInBucket (fileSize sectorOffset : ℕ) : Except PackingError ℕ := do
  let requiredAlignment ← requiredAlignment fileSize
  let alignmentInSector :=
    if sectorOffset % requiredAlignment ≠ 0 then
      sectorOffset - sectorOffset % requiredAlignment + requiredAlignment
    else sectorOffset
  pure (alignmentInSector - sectorOffset)

/-- The first test in the loop of `findBucket`: before a bucket is chosen, one at least as long
as the file; after that, only one longer than the chosen bucket. -/
def isCandidate (fileSize : ℕ) (current : Option (ℕ × Bucket)) (bucket : Bucket) : Bool :=
  match current with
  | none => decide (fileSize ≤ bucket.length)
  | some (_, chosen) => decide (chosen.length < bucket.length)

/-- The loop of `findBucket` from the bucket at index `i` on, with the bucket chosen so far; a
candidate is taken when the file still fits after its alignment. -/
def findBucketFrom (fileSize : ℕ) :
    List Bucket → ℕ → Option (ℕ × Bucket) → Except PackingError (Option (ℕ × Bucket))
  | [], _, current => pure current
  | bucket :: rest, i, current =>
    if isCandidate fileSize current bucket then do
      let alignment ← alignFileInBucket fileSize bucket.sectorOffset
      findBucketFrom fileSize rest (i + 1)
        (if fileSize ≤ sub64 bucket.length alignment then some (i, bucket) else current)
    else findBucketFrom fileSize rest (i + 1) current

/-- `findBucket`: the index of the bucket chosen for the file. -/
def findBucket (fileSize : ℕ) (buckets : List Bucket) : Except PackingError ℕ := do
  match ← findBucketFrom fileSize buckets 0 none with
  | some (i, _) => pure i
  | none => throw .bucketNotFound

/-- `extendSectors`: a new sector, free from start to end. -/
def extendSectors (buckets : List Bucket) (numSectors : ℕ) : List Bucket × ℕ :=
  (buckets ++ [⟨numSectors, 0, Host.sectorSize.toNat⟩], numSectors + 1)

/-- `insertBucket`: the bucket goes in at index `i`; the copy slices past the end, and panics,
when `i` is beyond the length. -/
def insertBucket (buckets : List Bucket) (b : Bucket) (i : ℕ) : Option (List Bucket) :=
  if i ≤ buckets.length then some (buckets.insertIdx i b) else none

/-- `createNewBucket`: the free space from `sectorOffset` on, started at the next 4 KiB
boundary, unless nothing is left of it after that boundary. -/
def createNewBucket (sectorIndex sectorOffset length bucketIndex : ℕ) (buckets : List Bucket) :
    Option (ℕ × List Bucket) :=
  if length = 0 then some (bucketIndex, buckets)
  else
    -- the source drops the error of this call and keeps its zero value
    let minimumAlignment := match alignFileInBucket 1 sectorOffset with
      | .ok alignment => alignment
      | .error _ => 0
    if minimumAlignment ≥ length then some (bucketIndex, buckets)
    else do
      let buckets ← insertBucket buckets
        ⟨sectorIndex, sectorOffset + minimumAlignment, length - minimumAlignment⟩ bucketIndex
      pure (bucketIndex + 1, buckets)

/-- `packBucket`: the file goes to its aligned start in the bucket, and the bucket is replaced
by the free space before and after the file. -/
def packBucket (file : PackingFile ID) (bucketIndex : ℕ) (buckets : List Bucket) :
    Option (Except PackingError (FilePlacement ID × List Bucket)) := do
  let oldBucket ← buckets[bucketIndex]?
  let sectorIndex := oldBucket.sectorIndex
  let sectorOffset := oldBucket.sectorOffset
  let buckets := buckets.eraseIdx bucketIndex
  match alignFileInBucket file.size sectorOffset with
  | .error e => pure (.error e)
  | .ok bucketAlignment =>
    let (bucketIndex, buckets) ←
      createNewBucket sectorIndex sectorOffset bucketAlignment bucketIndex buckets
    let bucketAfterLength := sub64 (sub64 oldBucket.length file.size) bucketAlignment
    let bucketAfterSectorOffset := sectorOffset + bucketAlignment + file.size
    let (_, buckets) ←
      createNewBucket sectorIndex bucketAfterSectorOffset bucketAfterLength bucketIndex buckets
    pure (.ok (⟨file.id, file.size, sectorIndex, sectorOffset + bucketAlignment⟩, buckets))

/-- The loop of `PackFiles` over the sorted files, with the free buckets, the placements so far
and the number of sectors. -/
def packFilesFrom : List (PackingFile ID) → List Bucket → List (FilePlacement ID) → ℕ →
    Option (Except PackingError (List (FilePlacement ID) × ℕ))
  | [], _, filePlacements, numSectors => pure (.ok (filePlacements, numSectors))
  | file :: rest, buckets, filePlacements, numSectors =>
    if file.size > Host.sectorSize.toNat then pure (.error .sizeTooLarge)
    else if file.size = 0 then pure (.error .zeroSize)
    else
      let found : Except PackingError (ℕ × List Bucket × ℕ) :=
        match findBucket file.size buckets with
        | .ok bucketIndex => .ok (bucketIndex, buckets, numSectors)
        | .error .bucketNotFound =>
          let (buckets, numSectors) := extendSectors buckets numSectors
          .ok (buckets.length - 1, buckets, numSectors)
        | .error e => .error e
      match found with
      | .error e => pure (.error e)
      | .ok (bucketIndex, buckets, numSectors) => do
        match ← packBucket file bucketIndex buckets with
        | .error e => pure (.error e)
        | .ok (filePlacement, buckets) =>
          packFilesFrom rest buckets (filePlacements ++ [filePlacement]) numSectors

/-- `PackFiles`, given the files in the order `sortByFileSizeDescending` returned them. -/
def packFiles (filesSorted : List (PackingFile ID)) :
    Option (Except PackingError (List (FilePlacement ID) × ℕ)) :=
  packFilesFrom filesSorted [] [] 0

/-! ### Alignment -/

theorem sub64_of_le {a b : ℕ} (le : b ≤ a) (small : a < 2 ^ 64) : sub64 a b = a - b := by
  unfold sub64
  omega

theorem sectorSize_toNat : Host.sectorSize.toNat = 4096 * alignmentScaling := rfl

/-- Every alignment is the smallest, 4 KiB, or at most the file's size. -/
theorem requiredAlignment_spec {fileSize : ℕ} (fits : fileSize ≤ Host.sectorSize.toNat) :
    ∃ req, requiredAlignment fileSize = .ok req ∧ 0 < req ∧ (req = 4096 ∨ req ≤ fileSize) := by
  unfold requiredAlignment
  split
  · rename_i n found
    obtain ⟨fitsAt, -, below⟩ := List.find?_range_eq_some.mp found
    refine ⟨_, rfl, Nat.mul_pos (Nat.mul_pos (by decide) (Nat.two_pow_pos n)) (by decide), ?_⟩
    cases n with
    | zero => exact .inl rfl
    | succ k =>
      -- the size did not fit the alignment class below
      have tooLarge := below k (Nat.lt_succ_self k)
      simp only [Bool.not_eq_eq_eq_not, Bool.not_true, decide_eq_false_iff_not, not_le] at tooLarge
      right
      unfold alignmentScaling at tooLarge ⊢
      rw [Nat.pow_succ]
      omega
  · rename_i none
    have last := List.find?_range_eq_none.mp none 7 (by decide)
    rw [sectorSize_toNat] at fits
    simp only [Bool.not_eq_eq_eq_not, Bool.not_true, decide_eq_false_iff_not] at last
    exact absurd fits last

theorem alignFileInBucket_spec (sectorOffset : ℕ) {fileSize req : ℕ}
    (required : requiredAlignment fileSize = .ok req) (pos : 0 < req) :
    ∃ a, alignFileInBucket fileSize sectorOffset = .ok a ∧ req ∣ sectorOffset + a ∧ a < req ∧
      (req ∣ sectorOffset → a = 0) := by
  have below := Nat.mod_lt sectorOffset pos
  have split := Nat.div_add_mod sectorOffset req
  refine ⟨_, by simp only [alignFileInBucket, required]; rfl, ?_⟩
  split_ifs with off
  · refine ⟨⟨sectorOffset / req + 1, ?_⟩, by omega, fun dvd => absurd (Nat.mod_eq_zero_of_dvd dvd) off⟩
    rw [Nat.mul_add, Nat.mul_one]
    omega
  · have zero : sectorOffset % req = 0 := not_not.mp off
    exact ⟨by simpa using Nat.dvd_of_mod_eq_zero zero, by omega, fun _ => Nat.sub_self _⟩

theorem requiredAlignment_one : requiredAlignment 1 = .ok 4096 := by decide

/-! ### Buckets and placements as extents -/

def Bucket.extent (b : Bucket) : Extent := ⟨b.sectorIndex, b.sectorOffset, b.length⟩

def FilePlacement.extent (fp : FilePlacement ID) : Extent :=
  ⟨fp.sectorIndex, fp.sectorOffset, fp.size⟩

def PackingFile.entry (f : PackingFile ID) : (_ : ID) × ℕ := ⟨f.id, f.size⟩

def FilePlacement.entry (fp : FilePlacement ID) : (_ : ID) × ℕ := ⟨fp.fileID, fp.size⟩

/-- A free bucket: in an existing sector, on a 4 KiB boundary, not empty, inside the sector. -/
structure Bucket.Fits (numSectors : ℕ) (b : Bucket) : Prop where
  inSector : b.sectorIndex < numSectors
  aligned : 4096 ∣ b.sectorOffset
  nonempty : 0 < b.length
  inBounds : b.sectorOffset + b.length ≤ Host.sectorSize.toNat

structure FilePlacement.Fits (numSectors : ℕ) (fp : FilePlacement ID) : Prop where
  inSector : fp.sectorIndex < numSectors
  aligned : ∃ req, requiredAlignment fp.size = .ok req ∧ req ∣ fp.sectorOffset
  inBounds : fp.sectorOffset + fp.size ≤ Host.sectorSize.toNat

theorem Bucket.Fits.mono {m n : ℕ} {b : Bucket} (fits : b.Fits m) (le : m ≤ n) : b.Fits n :=
  ⟨Nat.lt_of_lt_of_le fits.inSector le, fits.aligned, fits.nonempty, fits.inBounds⟩

theorem FilePlacement.Fits.mono {m n : ℕ} {fp : FilePlacement ID} (fits : fp.Fits m)
    (le : m ≤ n) : fp.Fits n :=
  ⟨Nat.lt_of_lt_of_le fits.inSector le, fits.aligned, fits.inBounds⟩

/-- What `createNewBucket` adds: at most one bucket, in the given sector, on a 4 KiB boundary
at or after the given offset, and ending where the given space ends. -/
theorem createNewBucket_spec (sectorIndex sectorOffset length : ℕ) {bucketIndex : ℕ}
    {buckets : List Bucket} (index : bucketIndex ≤ buckets.length) :
    ∃ piece : Option Bucket, ∃ index' buckets',
      createNewBucket sectorIndex sectorOffset length bucketIndex buckets =
        some (index', buckets') ∧
      buckets'.Perm (piece.toList ++ buckets) ∧ index' ≤ buckets'.length ∧
      ∀ p ∈ piece, p.sectorIndex = sectorIndex ∧ sectorOffset ≤ p.sectorOffset ∧
        4096 ∣ p.sectorOffset ∧ 0 < p.length ∧ p.sectorOffset + p.length = sectorOffset + length := by
  obtain ⟨a, minimum, boundary, -, -⟩ :=
    alignFileInBucket_spec sectorOffset requiredAlignment_one (by decide)
  unfold createNewBucket
  simp only [minimum]
  split_ifs with empty room
  · exact ⟨none, _, _, rfl, List.Perm.refl _, index, by simp⟩
  · exact ⟨none, _, _, rfl, List.Perm.refl _, index, by simp⟩
  · refine ⟨some ⟨sectorIndex, sectorOffset + a, length - a⟩, bucketIndex + 1,
      buckets.insertIdx bucketIndex ⟨sectorIndex, sectorOffset + a, length - a⟩,
      by simp [insertBucket, index], List.perm_insertIdx _ _ index, ?_, ?_⟩
    · rw [List.length_insertIdx_of_le_length index]
      omega
    · rintro p ⟨⟩
      dsimp only
      exact ⟨rfl, Nat.le_add_right _ _, boundary, by omega, by omega⟩

/-! ### Choosing a bucket -/

/-- A bucket `findBucket` may choose: at least as long as the file, with the file still fitting
after its alignment by Go's wrapping test. -/
def Chosen (fileSize : ℕ) (b : Bucket) : Prop :=
  fileSize ≤ b.length ∧
    ∃ a, alignFileInBucket fileSize b.sectorOffset = .ok a ∧ fileSize ≤ sub64 b.length a

theorem findBucketFrom_spec {fileSize : ℕ}
    (aligns : ∀ off, ∃ a, alignFileInBucket fileSize off = .ok a) (l : List Bucket) (i : ℕ)
    (current : Option (ℕ × Bucket)) (longEnough : ∀ c ∈ current, fileSize ≤ c.2.length) :
    ∃ r, findBucketFrom fileSize l i current = .ok r ∧
      (r = current ∨ ∃ k b, r = some (i + k, b) ∧ l[k]? = some b ∧ Chosen fileSize b) := by
  induction l generalizing i current with
  | nil => exact ⟨current, rfl, .inl rfl⟩
  | cons bucket rest ih =>
    -- a bucket chosen further on sits one index later in the whole list
    have later : ∀ r, (∃ k b, r = some (i + 1 + k, b) ∧ rest[k]? = some b ∧ Chosen fileSize b) →
        ∃ k b, r = some (i + k, b) ∧ (bucket :: rest)[k]? = some b ∧ Chosen fileSize b := by
      rintro r ⟨k, b, rfl, found, chosen⟩
      exact ⟨k + 1, b, by rw [Nat.add_assoc, Nat.add_comm 1 k], found, chosen⟩
    simp only [findBucketFrom]
    split
    · rename_i candidate
      have longer : fileSize ≤ bucket.length := by
        cases current with
        | none => simpa [isCandidate] using candidate
        | some c =>
          have longerThanChosen : c.2.length < bucket.length := by simpa [isCandidate] using candidate
          exact Nat.le_trans (longEnough c rfl) longerThanChosen.le
      obtain ⟨a, aligned⟩ := aligns bucket.sectorOffset
      rw [aligned, Except.ok_bind]
      by_cases fits : fileSize ≤ sub64 bucket.length a
      · rw [if_pos fits]
        obtain ⟨r, run, kept | further⟩ := ih (i + 1) (some (i, bucket)) (by rintro c ⟨⟩; exact longer)
        · exact ⟨r, run, .inr ⟨0, bucket, kept, rfl, longer, a, aligned, fits⟩⟩
        · exact ⟨r, run, .inr (later r further)⟩
      · rw [if_neg fits]
        obtain ⟨r, run, kept | further⟩ := ih (i + 1) current longEnough
        · exact ⟨r, run, .inl kept⟩
        · exact ⟨r, run, .inr (later r further)⟩
    · obtain ⟨r, run, kept | further⟩ := ih (i + 1) current longEnough
      · exact ⟨r, run, .inl kept⟩
      · exact ⟨r, run, .inr (later r further)⟩

/-- For a file that fits a sector, `findBucket` either finds no bucket or names one it may
choose. -/
theorem findBucket_spec {fileSize : ℕ} (fits : fileSize ≤ Host.sectorSize.toNat)
    (buckets : List Bucket) :
    findBucket fileSize buckets = .error .bucketNotFound ∨
      ∃ i b, findBucket fileSize buckets = .ok i ∧ buckets[i]? = some b ∧ Chosen fileSize b := by
  obtain ⟨req, required, pos, -⟩ := requiredAlignment_spec fits
  have aligns : ∀ off, ∃ a, alignFileInBucket fileSize off = .ok a := fun off =>
    (alignFileInBucket_spec off required pos).imp fun _ spec => spec.1
  obtain ⟨r, run, kept | ⟨k, b, rfl, found, chosen⟩⟩ :=
    findBucketFrom_spec aligns buckets 0 none (by rintro c ⟨⟩)
  · left
    simp [findBucket, run, kept, throw, throwThe, MonadExceptOf.throw]
  · right
    refine ⟨k, b, ?_, found, chosen⟩
    simp [findBucket, run, pure, Except.pure]

/-! ### The packing invariant -/

/-- What holds between two files of `PackFiles`: every free bucket and every placement fits its
sector, and the free buckets and the placements are pairwise apart. -/
structure Packed (numSectors : ℕ) (buckets : List Bucket) (placements : List (FilePlacement ID)) :
    Prop where
  buckets_fit : ∀ b ∈ buckets, b.Fits numSectors
  placements_fit : ∀ fp ∈ placements, fp.Fits numSectors
  apart : (buckets.map Bucket.extent ++ placements.map FilePlacement.extent).Pairwise Extent.Apart

theorem packed_nil : Packed 0 [] ([] : List (FilePlacement ID)) :=
  ⟨by simp, by simp, by simp⟩

/-- The fit test does not wrap: in a bucket on a 4 KiB boundary a file needing 4 KiB is not
moved, and any other file moves by less than its size, so by less than the bucket. -/
theorem Chosen.room {n fileSize : ℕ} {b : Bucket} (chosen : Chosen fileSize b) (fits : b.Fits n)
    (small : fileSize ≤ Host.sectorSize.toNat) :
    ∃ a req, alignFileInBucket fileSize b.sectorOffset = .ok a ∧
      requiredAlignment fileSize = .ok req ∧ req ∣ b.sectorOffset + a ∧
      a + fileSize ≤ b.length := by
  obtain ⟨longer, a, aligned, test⟩ := chosen
  obtain ⟨req, required, pos, least | bounded⟩ := requiredAlignment_spec small
  all_goals
    obtain ⟨a', aligned', boundary, below, unmoved⟩ :=
      alignFileInBucket_spec b.sectorOffset required pos
    obtain rfl : a' = a := Except.ok.inj (aligned'.symm.trans aligned)
  · have zero : a' = 0 := unmoved (least ▸ fits.aligned)
    exact ⟨a', req, aligned', required, boundary, by omega⟩
  · have bucketSmall : b.length < 2 ^ 64 := by
      have inBounds := fits.inBounds
      rw [sectorSize_toNat] at inBounds
      unfold alignmentScaling at inBounds
      omega
    rw [sub64_of_le (by omega) bucketSmall] at test
    exact ⟨a', req, aligned', required, boundary, by omega⟩

theorem toList_pairwise {α : Type} (R : α → α → Prop) (o : Option α) : o.toList.Pairwise R := by
  cases o <;> simp

/-- `packBucket` on a bucket with room for the aligned file keeps the invariant: the file and
the free space before and after it are pairwise apart parts of the bucket they replace. -/
theorem Packed.packBucket_ok {n bucketIndex a req : ℕ} {buckets : List Bucket}
    {placements : List (FilePlacement ID)} {file : PackingFile ID} {b : Bucket}
    (packed : Packed n buckets placements) (found : buckets[bucketIndex]? = some b)
    (aligned : alignFileInBucket file.size b.sectorOffset = .ok a)
    (required : requiredAlignment file.size = .ok req) (onBoundary : req ∣ b.sectorOffset + a)
    (room : a + file.size ≤ b.length) :
    ∃ buckets', packBucket file bucketIndex buckets =
        some (.ok (⟨file.id, file.size, b.sectorIndex, b.sectorOffset + a⟩, buckets')) ∧
      Packed n buckets' (placements ++ [⟨file.id, file.size, b.sectorIndex, b.sectorOffset + a⟩]) := by
  obtain ⟨inRange, rfl⟩ := List.getElem?_eq_some_iff.mp found
  have fits := packed.buckets_fit _ (List.getElem_mem inRange)
  have bucketSmall : buckets[bucketIndex].length < 2 ^ 64 := by
    have inBounds := fits.inBounds
    rw [sectorSize_toNat] at inBounds
    unfold alignmentScaling at inBounds
    omega
  set b := buckets[bucketIndex] with b_eq
  set fp : FilePlacement ID := ⟨file.id, file.size, b.sectorIndex, b.sectorOffset + a⟩
  have erasedLength : bucketIndex ≤ (buckets.eraseIdx bucketIndex).length := by
    rw [List.length_eraseIdx_of_lt inRange]
    omega
  obtain ⟨before, index₁, buckets₁, create₁, perm₁, index₁_le, before_spec⟩ :=
    createNewBucket_spec b.sectorIndex b.sectorOffset a erasedLength
  have afterLength : sub64 (sub64 b.length file.size) a = b.length - file.size - a := by
    rw [sub64_of_le (by omega) bucketSmall, sub64_of_le (by omega) (by omega)]
  obtain ⟨after, index₂, buckets₂, create₂, perm₂, -, after_spec⟩ :=
    createNewBucket_spec b.sectorIndex (b.sectorOffset + a + file.size)
      (b.length - file.size - a) index₁_le
  refine ⟨buckets₂, ?_, ?_⟩
  · simp only [Sia.Modules.packBucket, found, Option.bind_eq_bind, Option.bind_some, aligned,
      create₁, afterLength, create₂]
    rfl
  have bucketEnd := fits.inBounds
  -- the two free pieces and the file, all inside the bucket they replace
  have piecesFit : ∀ p ∈ before.toList ++ after.toList, p.Fits n := by
    intro p mem
    rcases List.mem_append.mp mem with low | up
    · obtain ⟨sector, -, boundary, nonempty, stop⟩ := before_spec p (Option.mem_toList.mp low)
      exact ⟨sector ▸ fits.inSector, boundary, nonempty, by omega⟩
    · obtain ⟨sector, -, boundary, nonempty, stop⟩ := after_spec p (Option.mem_toList.mp up)
      exact ⟨sector ▸ fits.inSector, boundary, nonempty, by omega⟩
  have fpFits : fp.Fits n :=
    ⟨fits.inSector, ⟨req, required, onBoundary⟩, by dsimp only [fp]; omega⟩
  have around : (fp.extent :: (before.toList ++ after.toList).map Bucket.extent).Pairwise
      Extent.Apart := by
    rw [List.map_append]
    refine Extent.pairwise_apart_around ?_ ?_ (List.pairwise_map.mpr (toList_pairwise _ before))
      (List.pairwise_map.mpr (toList_pairwise _ after))
    · intro e mem
      obtain ⟨p, low, rfl⟩ := List.mem_map.mp mem
      obtain ⟨-, -, -, -, stop⟩ := before_spec p (Option.mem_toList.mp low)
      exact Nat.le_of_eq stop
    · intro e mem
      obtain ⟨p, up, rfl⟩ := List.mem_map.mp mem
      exact (after_spec p (Option.mem_toList.mp up)).2.1
  have inside : ∀ e ∈ fp.extent :: (before.toList ++ after.toList).map Bucket.extent,
      e.Within b.extent := by
    intro e mem
    rcases List.mem_cons.mp mem with rfl | mem
    · refine ⟨rfl, Nat.le_add_right _ _, ?_⟩
      simp only [Extent.stop, FilePlacement.extent, fp, Bucket.extent]
      omega
    obtain ⟨p, piece, rfl⟩ := List.mem_map.mp mem
    rcases List.mem_append.mp piece with low | up
    · obtain ⟨sector, start, -, -, stop⟩ := before_spec p (Option.mem_toList.mp low)
      refine ⟨sector, start, ?_⟩
      simp only [Extent.stop, Bucket.extent]
      omega
    · obtain ⟨sector, start, -, -, stop⟩ := after_spec p (Option.mem_toList.mp up)
      refine ⟨sector, ?_, ?_⟩
      · simp only [Bucket.extent]
        omega
      · simp only [Extent.stop, Bucket.extent]
        omega
  have old : (buckets.map Bucket.extent ++ placements.map FilePlacement.extent).Perm
      (b.extent :: ((buckets.eraseIdx bucketIndex).map Bucket.extent ++
        placements.map FilePlacement.extent)) :=
    ((List.getElem_cons_eraseIdx_perm inRange).symm.map Bucket.extent).append_right _
  have new : (buckets₂.map Bucket.extent ++ (placements ++ [fp]).map FilePlacement.extent).Perm
      ((fp.extent :: (before.toList ++ after.toList).map Bucket.extent) ++
        ((buckets.eraseIdx bucketIndex).map Bucket.extent ++ placements.map FilePlacement.extent)) := by
    refine (((perm₂.trans (perm₁.append_left after.toList)).map Bucket.extent).append_right _).trans ?_
    simp only [List.map_append, List.map_cons, List.map_nil]
    refine List.perm_iff_count.mpr fun x => ?_
    simp only [List.count_append, List.count_cons, List.count_nil]
    omega
  refine ⟨fun p mem => ?_, fun q mem => ?_, (new.pairwise_iff Extent.Apart.symm).mpr
    (Extent.pairwise_apart_replace ((old.pairwise_iff Extent.Apart.symm).mp packed.apart) around
      inside)⟩
  · rcases List.mem_append.mp (perm₂.mem_iff.mp mem) with piece | kept
    · exact piecesFit p (List.mem_append_right _ piece)
    rcases List.mem_append.mp (perm₁.mem_iff.mp kept) with piece | kept
    · exact piecesFit p (List.mem_append_left _ piece)
    · exact packed.buckets_fit p (List.mem_of_mem_eraseIdx kept)
  · rcases List.mem_append.mp mem with old | new
    · exact packed.placements_fit q old
    · rw [List.mem_singleton.mp new]
      exact fpFits

/-- A new sector is one free bucket, apart from everything in the sectors before it. -/
theorem Packed.extended {n : ℕ} {buckets : List Bucket} {placements : List (FilePlacement ID)}
    (packed : Packed n buckets placements) :
    Packed (extendSectors buckets n).2 (extendSectors buckets n).1 placements := by
  refine ⟨fun b mem => ?_, fun fp mem => (packed.placements_fit fp mem).mono (Nat.le_succ n), ?_⟩
  · rcases List.mem_append.mp mem with old | new
    · exact (packed.buckets_fit b old).mono (Nat.le_succ n)
    · rw [List.mem_singleton.mp new]
      exact ⟨Nat.lt_succ_self n, Nat.dvd_zero _, (by decide : 0 < Host.sectorSize.toNat),
        Nat.le_of_eq (Nat.zero_add _)⟩
  · -- the new bucket goes first; everything else lies in an earlier sector
    simp only [Sia.Modules.extendSectors, List.map_append, List.map_cons, List.map_nil,
      List.append_assoc, List.singleton_append]
    refine (List.perm_middle.pairwise_iff Extent.Apart.symm).mpr
      (List.pairwise_cons.mpr ⟨fun e mem => Extent.apart_of_container_ne ?_, packed.apart⟩)
    have earlier : e.container < n := by
      rcases List.mem_append.mp mem with old | old
      · obtain ⟨b, listed, rfl⟩ := List.mem_map.mp old
        exact (packed.buckets_fit b listed).inSector
      · obtain ⟨fp, listed, rfl⟩ := List.mem_map.mp old
        exact (packed.placements_fit fp listed).inSector
    exact Nat.ne_of_gt earlier

/-- A chosen bucket takes the file and keeps the invariant. -/
theorem Packed.packChosen {n bucketIndex : ℕ} {buckets : List Bucket}
    {placements : List (FilePlacement ID)} {file : PackingFile ID} {b : Bucket}
    (packed : Packed n buckets placements) (found : buckets[bucketIndex]? = some b)
    (chosen : Chosen file.size b) (small : file.size ≤ Host.sectorSize.toNat) :
    ∃ buckets' fp, packBucket file bucketIndex buckets = some (.ok (fp, buckets')) ∧
      Packed n buckets' (placements ++ [fp]) ∧ fp.entry = file.entry := by
  have fits := packed.buckets_fit b (List.mem_of_getElem? found)
  obtain ⟨a, req, aligned, required, onBoundary, room⟩ := chosen.room fits small
  obtain ⟨buckets', run, packed'⟩ := packed.packBucket_ok found aligned required onBoundary room
  exact ⟨buckets', _, run, packed', rfl⟩

/-- A fresh sector has room for every file that fits a sector. -/
theorem chosen_fresh {fileSize : ℕ} (n : ℕ) (small : fileSize ≤ Host.sectorSize.toNat) :
    Chosen fileSize ⟨n, 0, Host.sectorSize.toNat⟩ := by
  obtain ⟨req, required, pos, -⟩ := requiredAlignment_spec small
  obtain ⟨a, aligned, -, -, unmoved⟩ := alignFileInBucket_spec 0 required pos
  obtain rfl : a = 0 := unmoved (Nat.dvd_zero req)
  refine ⟨small, 0, aligned, ?_⟩
  rw [sub64_of_le (Nat.zero_le _) (show Host.sectorSize.toNat < 2 ^ 64 by decide)]
  exact small

/-- One file of the loop: a file that fits a sector is placed, in a bucket found for it or in a
new sector, and the invariant is kept. -/
theorem Packed.step {n : ℕ} {buckets : List Bucket} {placements : List (FilePlacement ID)}
    {file : PackingFile ID} (rest : List (PackingFile ID)) (packed : Packed n buckets placements)
    (pos : 0 < file.size) (small : file.size ≤ Host.sectorSize.toNat) :
    ∃ buckets' n' fp, packFilesFrom (file :: rest) buckets placements n =
        packFilesFrom rest buckets' (placements ++ [fp]) n' ∧
      Packed n' buckets' (placements ++ [fp]) ∧ fp.entry = file.entry := by
  have sized : ¬file.size > Host.sectorSize.toNat := Nat.not_lt.mpr small
  have nonzero : file.size ≠ 0 := Nat.pos_iff_ne_zero.mp pos
  rcases findBucket_spec small buckets with missing | ⟨i, b, found, at_, chosen⟩
  · have fresh : (extendSectors buckets n).1[buckets.length]? = some ⟨n, 0, Host.sectorSize.toNat⟩ := by
      simp [Sia.Modules.extendSectors]
    obtain ⟨buckets', fp, run, packed', entry⟩ :=
      packed.extended.packChosen fresh (chosen_fresh n small) small
    refine ⟨buckets', n + 1, fp, ?_, packed', entry⟩
    simp only [Sia.Modules.extendSectors] at run
    simp [packFilesFrom, sized, nonzero, missing, Sia.Modules.extendSectors, run]
  · obtain ⟨buckets', fp, run, packed', entry⟩ := packed.packChosen at_ chosen small
    refine ⟨buckets', n, fp, ?_, packed', entry⟩
    simp [packFilesFrom, sized, nonzero, found, run]

/-! ### Whole runs -/

/-- When every file fits a sector, the loop places each of them, in order, and keeps the
invariant. -/
theorem packFilesFrom_ok (files : List (PackingFile ID)) {n : ℕ} {buckets : List Bucket}
    {placements : List (FilePlacement ID)} (packed : Packed n buckets placements)
    (valid : ∀ f ∈ files, 0 < f.size ∧ f.size ≤ Host.sectorSize.toNat) :
    ∃ buckets' new n', packFilesFrom files buckets placements n = some (.ok (placements ++ new, n')) ∧
      Packed n' buckets' (placements ++ new) ∧ new.map FilePlacement.entry = files.map PackingFile.entry := by
  induction files generalizing n buckets placements with
  | nil => exact ⟨buckets, [], n, by simp [packFilesFrom, pure], by simpa using packed, rfl⟩
  | cons file rest ih =>
    obtain ⟨pos, small⟩ := valid file List.mem_cons_self
    obtain ⟨buckets₁, n₁, fp, run, packed₁, entry⟩ := packed.step rest pos small
    obtain ⟨buckets', new, n', run', packed', entries⟩ :=
      ih packed₁ fun f mem => valid f (List.mem_cons_of_mem _ mem)
    refine ⟨buckets', fp :: new, n', ?_, ?_, ?_⟩
    · rw [run, run', List.append_assoc, List.singleton_append]
    · simpa using packed'
    · rw [List.map_cons, List.map_cons, entry, entries]

/-- A file that is empty or larger than a sector makes the loop return an error, whatever the
files before it. -/
theorem packFilesFrom_error (files : List (PackingFile ID)) {n : ℕ} {buckets : List Bucket}
    {placements : List (FilePlacement ID)} (packed : Packed n buckets placements)
    (bad : ∃ f ∈ files, f.size = 0 ∨ Host.sectorSize.toNat < f.size) :
    ∃ e, packFilesFrom files buckets placements n = some (.error e) := by
  induction files generalizing n buckets placements with
  | nil => simp at bad
  | cons file rest ih =>
    by_cases large : Host.sectorSize.toNat < file.size
    · exact ⟨.sizeTooLarge, by simp [packFilesFrom, large, pure]⟩
    by_cases empty : file.size = 0
    · exact ⟨.zeroSize, by simp [packFilesFrom, empty, pure]⟩
    -- the bad file is further on
    obtain ⟨f, mem, badSize⟩ := bad
    have later : f ∈ rest := by
      rcases List.mem_cons.mp mem with rfl | later
      · exact absurd badSize (by omega)
      · exact later
    obtain ⟨buckets₁, n₁, fp, run, packed₁, -⟩ :=
      packed.step rest (Nat.pos_of_ne_zero empty) (Nat.le_of_not_lt large)
    rw [run]
    exact ih packed₁ ⟨f, later, badSize⟩

theorem Packed.placements_apart {n : ℕ} {buckets : List Bucket}
    {placements : List (FilePlacement ID)} (packed : Packed n buckets placements) :
    placements.Pairwise fun p q => p.sectorIndex = q.sectorIndex →
      p.sectorOffset + p.size ≤ q.sectorOffset ∨ q.sectorOffset + q.size ≤ p.sectorOffset := by
  have apart := (List.pairwise_append.mp packed.apart).2.1
  refine (List.pairwise_map.mp apart).imp fun {p q} separated same => ?_
  rcases separated with other | before | after
  · exact absurd same other
  · exact .inl before
  · exact .inr after

/-- What `PackFiles` promises for a map of files: an error exactly when a file is empty or
larger than a sector, and otherwise one placement per file, aligned, inside its sector, in a
sector it counts, and apart from every other placement in that sector. -/
def PacksSoundly (files : Finmap fun _ : ID => ℕ) (filesSorted : List (PackingFile ID)) : Prop :=
  ((∃ e, packFiles filesSorted = some (.error e)) ↔
    ∃ f ∈ files.entries, f.2 = 0 ∨ Host.sectorSize.toNat < f.2) ∧
  ((∀ f ∈ files.entries, 0 < f.2 ∧ f.2 ≤ Host.sectorSize.toNat) →
    ∃ placements numSectors, packFiles filesSorted = some (.ok (placements, numSectors)) ∧
      (placements.map FilePlacement.entry : Multiset ((_ : ID) × ℕ)) = files.entries ∧
      (∀ fp ∈ placements, fp.sectorIndex < numSectors ∧
        (∃ req, requiredAlignment fp.size = .ok req ∧ req ∣ fp.sectorOffset) ∧
        fp.sectorOffset + fp.size ≤ Host.sectorSize.toNat) ∧
      placements.Pairwise fun p q => p.sectorIndex = q.sectorIndex →
        p.sectorOffset + p.size ≤ q.sectorOffset ∨ q.sectorOffset + q.size ≤ p.sectorOffset)

/-- `PackFiles` is sound for every order of the map's files, so for the one the sort returns. -/
theorem packFiles_sound (files : Finmap fun _ : ID => ℕ) (filesSorted : List (PackingFile ID))
    (listed : (filesSorted.map PackingFile.entry : Multiset ((_ : ID) × ℕ)) = files.entries) :
    PacksSoundly files filesSorted := by
  have mem_entries : ∀ x, x ∈ files.entries ↔ ∃ f ∈ filesSorted, f.entry = x := by
    intro x
    rw [← listed, Multiset.mem_coe, List.mem_map]
  have valid_iff : (∀ x ∈ files.entries, 0 < x.2 ∧ x.2 ≤ Host.sectorSize.toNat) ↔
      ∀ f ∈ filesSorted, 0 < f.size ∧ f.size ≤ Host.sectorSize.toNat := by
    constructor
    · intro valid f mem
      exact valid f.entry ((mem_entries _).mpr ⟨f, mem, rfl⟩)
    · intro valid x mem
      obtain ⟨f, listedFile, rfl⟩ := (mem_entries x).mp mem
      exact valid f listedFile
  have bad_iff : (∃ x ∈ files.entries, x.2 = 0 ∨ Host.sectorSize.toNat < x.2) ↔
      ∃ f ∈ filesSorted, f.size = 0 ∨ Host.sectorSize.toNat < f.size := by
    constructor
    · rintro ⟨x, mem, badSize⟩
      obtain ⟨f, listedFile, rfl⟩ := (mem_entries x).mp mem
      exact ⟨f, listedFile, badSize⟩
    · rintro ⟨f, listedFile, badSize⟩
      exact ⟨f.entry, (mem_entries _).mpr ⟨f, listedFile, rfl⟩, badSize⟩
  refine ⟨⟨fun ⟨e, failed⟩ => ?_, fun bad => packFilesFrom_error filesSorted packed_nil
    (bad_iff.mp bad)⟩, fun valid => ?_⟩
  · -- a run over valid files ends in a placement list, not an error
    by_contra noBad
    have valid : ∀ f ∈ filesSorted, 0 < f.size ∧ f.size ≤ Host.sectorSize.toNat := by
      intro f mem
      by_contra badSize
      exact noBad (bad_iff.mpr ⟨f, mem, by omega⟩)
    obtain ⟨_, _, _, run, -⟩ := packFilesFrom_ok filesSorted packed_nil valid
    rw [packFiles, run] at failed
    cases failed
  · obtain ⟨_, placements, numSectors, run, packed, entries⟩ :=
      packFilesFrom_ok filesSorted packed_nil (valid_iff.mp valid)
    rw [List.nil_append] at run packed
    refine ⟨placements, numSectors, run, by rw [entries, listed], fun fp mem => ?_,
      packed.placements_apart⟩
    obtain ⟨inSector, aligned, inBounds⟩ := packed.placements_fit fp mem
    exact ⟨inSector, aligned, inBounds⟩

/-- Three files in one sector: the largest at the start, the others at their alignments. -/
theorem samplePacking_sound :
    ((([⟨2, 40000⟩, ⟨0, 5000⟩, ⟨1, 3000⟩] : List (PackingFile ℕ)).map PackingFile.entry :
        Multiset ((_ : ℕ) × ℕ)) = (List.toFinmap [⟨0, 5000⟩, ⟨1, 3000⟩, ⟨2, 40000⟩]).entries) ∧
      PacksSoundly (List.toFinmap [⟨0, 5000⟩, ⟨1, 3000⟩, ⟨2, 40000⟩])
        [⟨2, 40000⟩, ⟨0, 5000⟩, ⟨1, 3000⟩] :=
  ⟨by decide, packFiles_sound _ _ (by decide)⟩

end Sia.Modules
