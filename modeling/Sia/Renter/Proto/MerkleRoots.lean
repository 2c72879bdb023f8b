import Sia.Consensus.Chain
import Sia.Lib.Chunks
import Sia.Renter.Proto.Contract
import Sia.Types.Decoding

/-! The sector roots of a renter's contract as `modules/renter/proto/merkleroots.go` keeps them:
every root on disk, one after the other in the contract's roots file, and in memory a cache for
computing the contract's Merkle root. Each complete group of `merkleRootsPerCache` roots is kept
as the root of its subtree; the roots after the last complete group are kept as they are. A
`push` writes a root at the end and caches it; an `insert` past the end pushes empty roots first,
and one inside the file writes the root over the old one and rebuilds the subtree that holds it
from disk; a `delete` moves the last root into the deleted slot and cuts it off the file, opening
the last cached subtree when no uncached root is left. Loading reads the file back in bulk and
builds the cache, after cutting off a partial root that an interrupted write left.

Roots are hashes of the type parameter `H`, written as their 32 bytes. The Merkle tree library
that `crypto.CachedMerkleTree` wraps is not part of the repository: its operations are the
parameter `CachedTree`, and what `checkNewRoot` needs of it is the hypothesis `CachedTree.Lawful`.
The file never fails to read or write, so the errors left are those the file's contents cause;
`build.Critical` panics, as in the debug build, and so does a slice or an index out of range.
`Represents roots mr` says that `mr` holds the list `roots`: every operation keeps it, with the
list changed as `MerkleRoots.insert` of the contract model and plain list operations say. -/
namespace Sia.Renter.Proto.Disk

open Chunks

variable {H T : Type}

/-- `merkleRootsCacheHeight`. -/
def merkleRootsCacheHeight : ℕ := 7

/-- `merkleRootsPerCache`: the roots under one cached subtree. -/
def merkleRootsPerCache : ℕ := 2 ^ merkleRootsCacheHeight

/-- `crypto.HashSize`. -/
def hashSize : ℕ := 32

/-- `sectorHeight`: the least height whose tree has `SectorSize / SegmentSize` leaves, for the
standard 4 MiB sectors of 64-byte segments. -/
def sectorHeight : ℕ := Nat.clog 2 (Host.sectorSize.toNat / 64)

/-- `rootsDiskLoadBulkSize`: the bytes read from disk at once. -/
def rootsDiskLoadBulkSize : ℕ := 1024 * hashSize

theorem merkleRootsPerCache_pos : 0 < merkleRootsPerCache := Nat.two_pow_pos _

theorem hashSize_pos : 0 < hashSize := by decide

/-- `crypto.CachedMerkleTree`: a Merkle tree whose leaves are the roots of subtrees of a height
that `new` fixes. `pushSubTree` fails (`none`) where `PushSubTree` returns an error. -/
structure CachedTree (T H : Type) where
  new : ℕ → T
  push : T → H → T
  pushSubTree : T → ℕ → H → Option T
  root : T → H

/-- The leaves pushed into a new tree one after the other. -/
def CachedTree.pushAll (tree : CachedTree T H) (leafHeight : ℕ) (leaves : List H) : T :=
  leaves.foldl tree.push (tree.new leafHeight)

/-- What the library guarantees: once the leaves pushed so far fill subtrees of `2 ^ h` leaves,
pushing the root of the next `2 ^ h` leaves as one subtree of height `h` above the leaves leaves
the tree as pushing those leaves would. -/
structure CachedTree.Lawful (tree : CachedTree T H) (leafHeight : ℕ) : Prop where
  pushSubTree_pushAll : ∀ (h : ℕ) (pre sub : List H), 2 ^ h ∣ pre.length → sub.length = 2 ^ h →
    tree.pushSubTree (tree.pushAll leafHeight pre) (h + leafHeight)
      (tree.root (tree.pushAll leafHeight sub)) = some (tree.pushAll leafHeight (pre ++ sub))

/-- `cachedMerkleRoot` of `editor.go`: the root of a tree of sector roots. -/
def cachedMerkleRoot (tree : CachedTree T H) (roots : List H) : H :=
  tree.root (tree.pushAll sectorHeight roots)

/-- `cachedSubTree`: the root `sum` of a subtree of height `height`. -/
structure CachedSubTree (H : Type) where
  height : ℕ
  sum : H
  deriving DecidableEq

/-- `merkleRoots`: the cache, the bytes of the roots file's section (which runs to the end of the
file) and the count of roots. -/
structure MerkleRoots (H : Type) where
  cachedSubTrees : List (CachedSubTree H)
  uncachedRoots : List H
  rootsFile : List UInt8
  numMerkleRoots : ℕ

/-- The errors the roots return. -/
inductive RootsError where
  /-- "roots have unexpected length and might be corrupted" -/
  | unexpectedLength
  /-- "contract file has unexpected length and might be corrupted" -/
  | contractFileLength
  /-- "merkleRootsFromIndexFromDisk failed: roots have unexpected length" -/
  | readPastEnd
  /-- "expected exactly 1 root but got %v" -/
  | rootCount (n : ℕ)
  /-- `errors.AddContext(err, context)`. -/
  | context (message : String) (err : RootsError)
  deriving DecidableEq

/-- A call that returns an error or panics (`none`). -/
abbrev RootsResult := ExceptT RootsError Option

/-- A panic. -/
def panicked {α : Type} : RootsResult α := ExceptT.lift none

/-- An error returned, without a panic. -/
def returned {α : Type} (x : Except RootsError α) : RootsResult α := ExceptT.mk (some x)

/-- `errors.AddContext`. -/
def addContext {α : Type} (message : String) (x : RootsResult α) : RootsResult α :=
  ExceptT.mk (x.run.map fun r => r.mapError (.context message))

/-- `fileOffsetFromRootIndex`. -/
def fileOffsetFromRootIndex (i : ℕ) : ℕ := hashSize * i

section Source

variable [HashBytes H] [HashRead H] (tree : CachedTree T H)

/-- The loop of `parseRootsFromData`: a root from each 32 bytes. -/
def parseRoots (b : List UInt8) : List H :=
  if 0 < b.length then HashRead.ofBytes (b.take hashSize) :: parseRoots (b.drop hashSize) else []
termination_by b.length
decreasing_by simp only [List.length_drop, hashSize]; omega

/-- `parseRootsFromData`. -/
def parseRootsFromData (b : List UInt8) : Except RootsError (List H) :=
  if b.length % hashSize ≠ 0 then .error .unexpectedLength else .ok (parseRoots b)

/-- `newCachedSubTree`, whose sanity check is a `build.Critical`. -/
def newCachedSubTree (roots : List H) : RootsResult (CachedSubTree H) :=
  if roots.length ≠ merkleRootsPerCache then panicked
  else pure ⟨merkleRootsCacheHeight + sectorHeight, cachedMerkleRoot tree roots⟩

/-- `newMerkleRoots`, for a section without roots. -/
def newMerkleRoots (file : List UInt8) : MerkleRoots H := ⟨[], [], file, 0⟩

/-- The read loop of `merkleRootsFromIndexFromDisk`: `remainingData` bytes from `readOff` on, in
reads of at most `rootsDiskLoadBulkSize`; a read that comes back short hit the end of the file. -/
def readRoots (file : List UInt8) (readOff remainingData : ℕ) : Except RootsError (List H) :=
  if remainingData = 0 then .ok []
  else
    let length := min remainingData rootsDiskLoadBulkSize
    let rootsData := ByteFile.readAt file readOff length
    if rootsData.length < length then .error .readPastEnd
    else do
      let roots ← parseRootsFromData rootsData
      let rest ← readRoots file (readOff + length) (remainingData - length)
      pure (roots ++ rest)
termination_by remainingData
decreasing_by simp only [rootsDiskLoadBulkSize, hashSize]; omega

namespace MerkleRoots

/-- One root of `appendRootMemory`: a full group of uncached roots becomes a cached subtree. -/
def appendRoot (mr : MerkleRoots H) (root : H) : RootsResult (MerkleRoots H) :=
  let uncached := mr.uncachedRoots ++ [root]
  if uncached.length = merkleRootsPerCache then do
    let subTree ← newCachedSubTree tree uncached
    pure { mr with cachedSubTrees := mr.cachedSubTrees ++ [subTree], uncachedRoots := [] }
  else pure { mr with uncachedRoots := uncached }

/-- `appendRootMemory`. -/
def appendRootMemory (mr : MerkleRoots H) (roots : List H) : RootsResult (MerkleRoots H) :=
  roots.foldlM (appendRoot tree) mr

/-- `merkleRootsFromIndexFromDisk`: the roots `[fromIndex, toIndex)` read from the file; the slice
made for them panics when its capacity is negative. -/
def merkleRootsFromIndexFromDisk (mr : MerkleRoots H) (fromIndex toIndex : ℕ) :
    RootsResult (List H) :=
  if toIndex < fromIndex then panicked
  else returned (readRoots mr.rootsFile (fileOffsetFromRootIndex fromIndex)
    (fileOffsetFromRootIndex toIndex - fileOffsetFromRootIndex fromIndex))

/-- `lenFromFile`. -/
def lenFromFile (mr : MerkleRoots H) : Except RootsError ℕ :=
  if mr.rootsFile.length % hashSize ≠ 0 then .error .contractFileLength
  else .ok (mr.rootsFile.length / hashSize)

/-- `len`. -/
def len (mr : MerkleRoots H) : ℕ := mr.numMerkleRoots

/-- `push`: the root written after the last one, then cached. -/
def push (mr : MerkleRoots H) (root : H) : RootsResult (MerkleRoots H) :=
  if mr.uncachedRoots.length = merkleRootsPerCache then panicked
  else do
    let written := { mr with
      rootsFile := ByteFile.writeAt mr.rootsFile (fileOffsetFromRootIndex mr.len) (HashBytes.bytes root) }
    let cached ← written.appendRootMemory tree [root]
    pure { cached with numMerkleRoots := cached.numMerkleRoots + 1 }

/-- `isIndexCached`: the cached subtree that holds root `i`, or its place among the uncached
roots. -/
def isIndexCached (mr : MerkleRoots H) (i : ℕ) : ℕ × Bool :=
  if i / merkleRootsPerCache = mr.cachedSubTrees.length then
    (i - mr.cachedSubTrees.length * merkleRootsPerCache, false)
  else (i / merkleRootsPerCache, true)

/-- `rebuildCachedTree`: the subtree at `index` built again from the roots on disk. -/
def rebuildCachedTree (mr : MerkleRoots H) (index : ℕ) : RootsResult (MerkleRoots H) := do
  let rootIndex := index * merkleRootsPerCache
  let roots ← addContext "failed to read sectors for rebuilding cached tree"
    (mr.merkleRootsFromIndexFromDisk rootIndex (rootIndex + 2 ^ merkleRootsCacheHeight))
  let subTree ← newCachedSubTree tree roots
  if index < mr.cachedSubTrees.length then
    pure { mr with cachedSubTrees := mr.cachedSubTrees.set index subTree }
  else panicked

/-- The loop of `insert` that pushes `count` empty roots, one for each index short of the one to
insert at. -/
def pushEmpty (zero : H) (mr : MerkleRoots H) : ℕ → RootsResult (MerkleRoots H)
  | 0 => pure mr
  | count + 1 => do
    let pushed ← addContext "failed to extend roots" (mr.push tree zero)
    pushEmpty zero pushed count

/-- `insert`: an index past the end is reached by pushing empty roots (`zero`, the empty
`crypto.Hash`), the end gets a push, and an index inside has its root written over and its
cache updated. -/
def insert (zero : H) (mr : MerkleRoots H) (index : ℕ) (root : H) : RootsResult (MerkleRoots H) := do
  let mr ← mr.pushEmpty tree zero (index - mr.numMerkleRoots)
  if index = mr.numMerkleRoots then mr.push tree root
  else
    let written := { mr with
      rootsFile := ByteFile.writeAt mr.rootsFile (fileOffsetFromRootIndex index) (HashBytes.bytes root) }
    let place := written.isIndexCached index
    if place.2 then
      addContext "failed to rebuild cache for inserted root" (written.rebuildCachedTree tree place.1)
    else if place.1 < written.uncachedRoots.length then
      pure { written with uncachedRoots := written.uncachedRoots.set place.1 root }
    else panicked

/-- `moveLastCachedSubTreeToUncached`: the last subtree's roots read back from disk. -/
def moveLastCachedSubTreeToUncached (mr : MerkleRoots H) : RootsResult (MerkleRoots H) :=
  if mr.cachedSubTrees = [] then panicked
  else do
    let opened := { mr with cachedSubTrees := mr.cachedSubTrees.dropLast }
    let rootIndex := opened.cachedSubTrees.length * merkleRootsPerCache
    let roots ← addContext "failed to read cached tree's roots"
      (opened.merkleRootsFromIndexFromDisk rootIndex opened.numMerkleRoots)
    pure { opened with uncachedRoots := opened.uncachedRoots ++ roots }

/-- `delete`: `lastRoot` written over root `i`, then the file cut to `truncateSize` bytes and the
cache cut with it. -/
def delete (zero : H) (mr : MerkleRoots H) (i : ℕ) (lastRoot : H) (truncateSize : ℕ) :
    RootsResult (MerkleRoots H) := do
  let swapped ← addContext "failed to swap deleted root with newRoot" (mr.insert tree zero i lastRoot)
  let cut := { swapped with
    rootsFile := ByteFile.truncate swapped.rootsFile truncateSize
    numMerkleRoots := truncateSize / hashSize }
  if swapped.numMerkleRoots = cut.numMerkleRoots then pure cut
  else if swapped.numMerkleRoots ≠ cut.numMerkleRoots + 1 then panicked
  else if 0 < cut.uncachedRoots.length then
    pure { cut with uncachedRoots := cut.uncachedRoots.dropLast }
  else cut.moveLastCachedSubTreeToUncached

/-- `prepareDelete`: the last root and the size of the file without it. With no roots the read
starts before the section and panics. -/
def prepareDelete (mr : MerkleRoots H) (_index : ℕ) : RootsResult (H × ℕ) :=
  if mr.numMerkleRoots = 0 then panicked
  else do
    let roots ← addContext "failed to get last root"
      (mr.merkleRootsFromIndexFromDisk (mr.numMerkleRoots - 1) mr.numMerkleRoots)
    match roots with
    | [lastRoot] => pure (lastRoot, (mr.numMerkleRoots - 1) * hashSize)
    | _ => throw (.rootCount roots.length)

/-- `merkleRoots`: every root, read from disk. -/
def merkleRoots (mr : MerkleRoots H) : RootsResult (List H) := do
  let roots ← mr.merkleRootsFromIndexFromDisk 0 mr.numMerkleRoots
  if roots.length ≠ mr.numMerkleRoots then panicked else pure roots

/-- `checkNewRoot`: the Merkle root after appending `newRoot`, from the cached subtrees and the
uncached roots; a subtree the tree refuses is a `build.Critical`. -/
def checkNewRoot (mr : MerkleRoots H) (newRoot : H) : Option H := do
  let subTrees ← mr.cachedSubTrees.foldlM (fun t subTree => tree.pushSubTree t subTree.height subTree.sum)
    (tree.new sectorHeight)
  pure (tree.root (tree.push (mr.uncachedRoots.foldl tree.push subTrees) newRoot))

end MerkleRoots

/-- The read loop of `loadExistingMerkleRootsFromSection`: reads of `rootsDiskLoadBulkSize` bytes
from `readOff` on, until one reads nothing. -/
def loadRoots (file : List UInt8) (mr : MerkleRoots H) (readOff : ℕ) : RootsResult (MerkleRoots H) :=
  let rootsData := ByteFile.readAt file readOff rootsDiskLoadBulkSize
  if rootsData.length = 0 then pure mr
  else do
    let roots ← returned (parseRootsFromData rootsData)
    let cached ← mr.appendRootMemory tree roots
    loadRoots file cached (readOff + rootsData.length)
termination_by file.length - readOff
decreasing_by
  have read := ByteFile.length_readAt file readOff rootsDiskLoadBulkSize
  have nonempty : (ByteFile.readAt file readOff rootsDiskLoadBulkSize).length ≠ 0 := by assumption
  omega

/-- `loadExistingMerkleRootsFromSection`: a partial root at the end is cut off first, and then
the roots to apply again from the log are flagged. -/
def loadExistingMerkleRootsFromSection (file : List UInt8) : RootsResult (MerkleRoots H × Bool) := do
  let applyTxns := decide (file.length % hashSize ≠ 0)
  let file := if applyTxns then ByteFile.truncate file (file.length - file.length % hashSize) else file
  let mr : MerkleRoots H := newMerkleRoots file
  let count ← returned mr.lenFromFile
  let loaded ← loadRoots tree file { mr with numMerkleRoots := count } 0
  pure (loaded, applyTxns)

end Source

/-! ### The roots a file and its cache hold -/

section Cache

variable (tree : CachedTree T H)

/-- The cache that `roots` determine: the root of each complete group of `merkleRootsPerCache`
roots, as a subtree above the sector trees. -/
def cacheOf (roots : List H) : List (CachedSubTree H) :=
  (groups merkleRootsPerCache roots).map fun group =>
    ⟨merkleRootsCacheHeight + sectorHeight, cachedMerkleRoot tree group⟩

/-- `mr` with its cache made the one `roots` determine, the file and the count left alone. -/
def MerkleRoots.withCache (mr : MerkleRoots H) (roots : List H) : MerkleRoots H :=
  { mr with cachedSubTrees := cacheOf tree roots, uncachedRoots := rest merkleRootsPerCache roots }

@[simp] theorem cacheOf_nil : cacheOf tree ([] : List H) = [] := by simp [cacheOf]

theorem length_cacheOf (roots : List H) :
    (cacheOf tree roots).length = roots.length / merkleRootsPerCache := by
  simp [cacheOf]

/-- Growing by one root caches a new subtree exactly when it completes a group. -/
theorem cacheOf_append_singleton (roots : List H) (root : H) :
    cacheOf tree (roots ++ [root]) =
      if (rest merkleRootsPerCache roots).length + 1 = merkleRootsPerCache then
        cacheOf tree roots ++
          [⟨merkleRootsCacheHeight + sectorHeight,
            cachedMerkleRoot tree (rest merkleRootsPerCache roots ++ [root])⟩]
      else cacheOf tree roots := by
  unfold cacheOf
  rw [groups_append_singleton merkleRootsPerCache_pos]
  split <;> simp

/-- A root written over root `i` changes the subtree of its group only. -/
theorem cacheOf_set (roots : List H) (i : ℕ) (root : H) :
    cacheOf tree (roots.set i root) = (cacheOf tree roots).set (i / merkleRootsPerCache)
      ⟨merkleRootsCacheHeight + sectorHeight, cachedMerkleRoot tree
        (((roots.set i root).drop (merkleRootsPerCache * (i / merkleRootsPerCache))).take
          merkleRootsPerCache)⟩ := by
  rw [cacheOf, groups_set, List.map_set]
  rfl

/-! #### Caching roots in memory -/

theorem addContext_pure {α : Type} (message : String) (a : α) :
    addContext message (pure a : RootsResult α) = pure a := rfl

theorem appendRoot_withCache (mr : MerkleRoots H) (roots : List H) (root : H) :
    (mr.withCache tree roots).appendRoot tree root = pure (mr.withCache tree (roots ++ [root])) := by
  unfold MerkleRoots.appendRoot
  simp only [MerkleRoots.withCache, List.length_append, List.length_singleton]
  rw [cacheOf_append_singleton, rest_append_singleton merkleRootsPerCache_pos]
  split
  · next full =>
    have complete : ¬ (rest merkleRootsPerCache roots ++ [root]).length ≠ merkleRootsPerCache := by
      simpa using full
    rw [newCachedSubTree, if_neg complete, pure_bind]
  · rfl

theorem appendRootMemory_withCache (mr : MerkleRoots H) (roots added : List H) :
    (mr.withCache tree roots).appendRootMemory tree added =
      pure (mr.withCache tree (roots ++ added)) := by
  induction added generalizing roots with
  | nil => simp [MerkleRoots.appendRootMemory]
  | cons root added ih =>
    rw [MerkleRoots.appendRootMemory, List.foldlM_cons, appendRoot_withCache, pure_bind,
      ← MerkleRoots.appendRootMemory]
    rw [show (mr.withCache tree (roots ++ [root])).appendRootMemory tree added =
      pure (mr.withCache tree (roots ++ [root] ++ added)) from ih (roots ++ [root]),
      List.append_assoc, List.singleton_append]

/-- Appending to a cache that `roots` determine caches the roots after them. -/
theorem appendRootMemory_eq {mr : MerkleRoots H} {roots : List H}
    (cached : mr.cachedSubTrees = cacheOf tree roots)
    (uncached : mr.uncachedRoots = rest merkleRootsPerCache roots) (added : List H) :
    mr.appendRootMemory tree added = pure (mr.withCache tree (roots ++ added)) := by
  have same : mr = mr.withCache tree roots := by
    cases mr
    simp only [MerkleRoots.withCache] at cached uncached ⊢
    rw [cached, uncached]
  calc mr.appendRootMemory tree added
      = (mr.withCache tree roots).appendRootMemory tree added := by rw [← same]
    _ = pure (mr.withCache tree (roots ++ added)) := appendRootMemory_withCache tree mr roots added

/-! #### Subtrees pushed whole -/

section Lawful

variable {tree} {leafHeight : ℕ}

theorem CachedTree.pushAll_append (roots added : List H) :
    tree.pushAll leafHeight (roots ++ added) = added.foldl tree.push (tree.pushAll leafHeight roots) :=
  List.foldl_append

/-- Pushing the cached subtrees of complete groups, one after the other, builds the tree of all
their roots. -/
theorem pushSubTrees_groups (lawful : tree.Lawful leafHeight) (pre : List H)
    (aligned : merkleRootsPerCache ∣ pre.length) (groups : List (List H))
    (complete : ∀ g ∈ groups, g.length = merkleRootsPerCache) :
    (groups.map fun g => (⟨merkleRootsCacheHeight + leafHeight, tree.root (tree.pushAll leafHeight g)⟩ :
        CachedSubTree H)).foldlM (fun t subTree => tree.pushSubTree t subTree.height subTree.sum)
      (tree.pushAll leafHeight pre) = some (tree.pushAll leafHeight (pre ++ groups.flatten)) := by
  induction groups generalizing pre with
  | nil => simp
  | cons g groups ih =>
    have full : g.length = 2 ^ merkleRootsCacheHeight := complete g List.mem_cons_self
    have pushed := lawful.pushSubTree_pushAll merkleRootsCacheHeight pre g aligned full
    have stillAligned : merkleRootsPerCache ∣ (pre ++ g).length := by
      rw [List.length_append, full]
      exact Nat.dvd_add aligned (Nat.dvd_refl _)
    rw [List.map_cons, List.foldlM_cons, pushed, Option.bind_eq_bind, Option.bind_some,
      ih (pre ++ g) stillAligned (fun g' mem => complete g' (List.mem_cons_of_mem g mem)),
      List.flatten_cons, List.append_assoc]

end Lawful

end Cache

section Represents

variable [HashBytes H] (tree : CachedTree T H)

/-- The roots file and cache that hold `roots`: the roots one after the other on disk, their
count, the cached subtrees and the roots after them. -/
def ofRoots (roots : List H) : MerkleRoots H :=
  ⟨cacheOf tree roots, rest merkleRootsPerCache roots, roots.flatMap HashBytes.bytes, roots.length⟩

@[simp] theorem cachedSubTrees_ofRoots (roots : List H) :
    (ofRoots tree roots).cachedSubTrees = cacheOf tree roots := rfl

@[simp] theorem uncachedRoots_ofRoots (roots : List H) :
    (ofRoots tree roots).uncachedRoots = rest merkleRootsPerCache roots := rfl

@[simp] theorem rootsFile_ofRoots (roots : List H) :
    (ofRoots tree roots).rootsFile = roots.flatMap HashBytes.bytes := rfl

@[simp] theorem numMerkleRoots_ofRoots (roots : List H) :
    (ofRoots tree roots).numMerkleRoots = roots.length := rfl

theorem width_bytes (h : H) : (HashBytes.bytes h).length = hashSize := HashBytes.length_bytes h

/-! #### Pushing roots -/

/-- A push appends the root, on disk and in the cache, and never trips the sanity check. -/
theorem push_ofRoots (roots : List H) (root : H) :
    (ofRoots tree roots).push tree root = pure (ofRoots tree (roots ++ [root])) := by
  have below : (rest merkleRootsPerCache roots).length ≠ merkleRootsPerCache :=
    (length_rest_lt merkleRootsPerCache_pos roots).ne
  rw [MerkleRoots.push, uncachedRoots_ofRoots, if_neg below]
  simp only [MerkleRoots.len, numMerkleRoots_ofRoots, rootsFile_ofRoots, fileOffsetFromRootIndex,
    writeAt_flatMap_length width_bytes]
  rw [@appendRootMemory_eq _ _ tree _ roots rfl rfl, pure_bind]
  simp [ofRoots, MerkleRoots.withCache]

theorem pushEmpty_ofRoots (zero : H) (roots : List H) : ∀ count,
    (ofRoots tree roots).pushEmpty tree zero count =
      pure (ofRoots tree (roots ++ List.replicate count zero))
  | 0 => by simp [MerkleRoots.pushEmpty]
  | count + 1 => by
    rw [MerkleRoots.pushEmpty, push_ofRoots, addContext_pure, pure_bind,
      pushEmpty_ofRoots zero (roots ++ [zero]) count, List.append_assoc, List.singleton_append,
      List.replicate_succ]


/-- A root written over root `index` of the file. -/
theorem writeAt_ofRoots {roots : List H} {index : ℕ} (inRange : index < roots.length) (root : H) :
    ByteFile.writeAt (ofRoots tree roots).rootsFile (fileOffsetFromRootIndex index)
      (HashBytes.bytes root) = (roots.set index root).flatMap HashBytes.bytes :=
  writeAt_flatMap_of_width width_bytes inRange root

/-- `lenFromFile` agrees with `len`, as `len`'s comment asks. -/
theorem lenFromFile_ofRoots (roots : List H) :
    (ofRoots tree roots).lenFromFile = .ok (ofRoots tree roots).len := by
  rw [MerkleRoots.lenFromFile, rootsFile_ofRoots, length_flatMap_of_width width_bytes,
    if_neg (by simp [Nat.mul_mod_right]), Nat.mul_div_cancel_left _ hashSize_pos]
  rfl

/-! #### The contract's Merkle root from the cache -/


/-- A sample tree over natural-number hashes whose root is the sum of the leaves; pushing a
subtree adds its sum, so it keeps `Lawful`. -/
def sumTree : CachedTree ℕ ℕ := ⟨fun _ => 0, fun t h => t + h, fun t _ h => some (t + h), id⟩

theorem sumTree_lawful (leafHeight : ℕ) : sumTree.Lawful leafHeight :=
  ⟨fun _ pre sub _ _ => by
    simp only [sumTree, CachedTree.pushAll, id, ← List.sum_eq_foldl_nat, List.sum_append]⟩

/-- A sample tree over 32-byte hashes that keeps the last hash pushed. -/
def lastRootTree : CachedTree (Vector UInt8 32) (Vector UInt8 32) :=
  ⟨fun _ => Vector.replicate 32 0, fun _ h => h, fun _ _ h => some h, id⟩

/-- The sample hash of 32 bytes `b`. -/
def sampleHash (b : UInt8) : Vector UInt8 32 := Vector.replicate 32 b

/-! #### Reading the file -/

variable [HashRead H]

theorem parseRoots_nil : parseRoots ([] : List UInt8) = ([] : List H) := by
  rw [parseRoots, if_neg (by simp)]

theorem parseRoots_flatMap (roots : List H) :
    parseRoots (roots.flatMap HashBytes.bytes) = roots := by
  induction roots with
  | nil => exact parseRoots_nil
  | cons root roots ih =>
    rw [parseRoots, if_pos (by simp [width_bytes, hashSize]), List.flatMap_cons,
      List.take_left' (width_bytes root), List.drop_left' (width_bytes root), ih,
      HashRead.ofBytes_bytes]

theorem parseRootsFromData_flatMap (roots : List H) :
    parseRootsFromData (roots.flatMap HashBytes.bytes) = .ok roots := by
  rw [parseRootsFromData, length_flatMap_of_width width_bytes, if_neg (by simp [Nat.mul_mod_right]),
    parseRoots_flatMap]

/-- The read loop returns the `m` roots from root `i` on when the file holds them. -/
theorem readRoots_flatMap (roots : List H) :
    ∀ m i, i + m ≤ roots.length →
      readRoots (roots.flatMap HashBytes.bytes) (hashSize * i) (hashSize * m) =
        .ok ((roots.drop i).take m) := by
  intro m
  induction m using Nat.strong_induction_on with
  | _ m ih =>
    intro i inside
    rcases Nat.eq_zero_or_pos m with rfl | positive
    · rw [readRoots, if_pos (by simp)]
      simp
    -- one read of at most a bulk's worth of roots, then the rest
    have bulk : min (hashSize * m) rootsDiskLoadBulkSize = hashSize * min m 1024 := by
      rw [rootsDiskLoadBulkSize, Nat.mul_comm 1024, Nat.mul_min_mul_left]
    have readCount : 0 < min m 1024 := by omega
    have read : ByteFile.readAt (roots.flatMap HashBytes.bytes) (hashSize * i) (hashSize * min m 1024) =
        ((roots.drop i).take (min m 1024)).flatMap HashBytes.bytes :=
      readAt_flatMap_of_width width_bytes roots i (min m 1024)
    have readLength : (((roots.drop i).take (min m 1024)).flatMap HashBytes.bytes).length =
        hashSize * min m 1024 := by
      rw [length_flatMap_of_width width_bytes, List.length_take, List.length_drop]
      congr 1
      omega
    have later := ih (m - min m 1024) (by omega) (i + min m 1024) (by omega)
    rw [Nat.mul_sub, Nat.mul_add] at later
    rw [readRoots, if_neg (by simp [hashSize]; omega)]
    simp only [bulk, read, readLength, Nat.lt_irrefl, if_false, parseRootsFromData_flatMap,
      Except.ok_bind, later]
    rw [← List.drop_drop, ← List.take_add, Nat.add_sub_cancel' (Nat.min_le_left m 1024)]
    rfl

/-- `merkleRootsFromIndexFromDisk` over a file that holds `roots`. -/
theorem merkleRootsFromIndexFromDisk_eq {mr : MerkleRoots H} {roots : List H}
    (file : mr.rootsFile = roots.flatMap HashBytes.bytes) {fromIndex toIndex : ℕ}
    (ordered : fromIndex ≤ toIndex) (inside : toIndex ≤ roots.length) :
    mr.merkleRootsFromIndexFromDisk fromIndex toIndex =
      pure ((roots.drop fromIndex).take (toIndex - fromIndex)) := by
  rw [MerkleRoots.merkleRootsFromIndexFromDisk, if_neg (by omega), file, fileOffsetFromRootIndex,
    fileOffsetFromRootIndex, ← Nat.mul_sub, readRoots_flatMap roots _ _ (by omega)]
  rfl

/-- Reading every root back, in bulk reads, returns the roots the file holds, so the count's
sanity check never trips. -/
theorem merkleRoots_ofRoots (roots : List H) : (ofRoots tree roots).merkleRoots = pure roots := by
  rw [MerkleRoots.merkleRoots, numMerkleRoots_ofRoots,
    merkleRootsFromIndexFromDisk_eq rfl (Nat.zero_le _) (Nat.le_refl _), pure_bind, List.drop_zero,
    Nat.sub_zero, List.take_length, if_neg (not_not.mpr rfl)]

/-! #### Writing over a root -/

/-- An insert into the last group, which is not cached, writes over the uncached root. -/
theorem insert_ofRoots_of_uncached (zero : H) {roots : List H} {index : ℕ} (root : H)
    (inRange : index < roots.length)
    (last : index / merkleRootsPerCache = roots.length / merkleRootsPerCache) :
    (ofRoots tree roots).insert tree zero index root = pure (ofRoots tree (roots.set index root)) := by
  have after : merkleRootsPerCache * (roots.length / merkleRootsPerCache) ≤ index := by
    rw [← last]
    exact Nat.mul_div_le index merkleRootsPerCache
  have place : index - roots.length / merkleRootsPerCache * merkleRootsPerCache <
      (rest merkleRootsPerCache roots).length := by
    have split := Nat.mod_add_div roots.length merkleRootsPerCache
    rw [length_rest, Nat.mul_comm _ merkleRootsPerCache]
    omega
  rw [MerkleRoots.insert, numMerkleRoots_ofRoots, Nat.sub_eq_zero_of_le (Nat.le_of_lt inRange),
    MerkleRoots.pushEmpty, pure_bind, numMerkleRoots_ofRoots, if_neg (Nat.ne_of_lt inRange), writeAt_ofRoots tree inRange]
  simp only [MerkleRoots.isIndexCached, cachedSubTrees_ofRoots, length_cacheOf, last, if_true,
    uncachedRoots_ofRoots, place, Bool.false_eq_true, if_false]
  rw [ofRoots, Nat.mul_comm (roots.length / merkleRootsPerCache), ← rest_set_of_le after]
  simp only [cacheOf, groups_set_of_le after, List.length_set]

/-- An insert into a cached group writes over the root on disk and rebuilds the group's subtree
from the roots read back. -/
theorem insert_ofRoots_of_cached (zero : H) {roots : List H} {index : ℕ} (root : H)
    (cachedGroup : index / merkleRootsPerCache < roots.length / merkleRootsPerCache) :
    (ofRoots tree roots).insert tree zero index root = pure (ofRoots tree (roots.set index root)) := by
  have groupEnd := group_end_le cachedGroup
  have before : index < merkleRootsPerCache * (roots.length / merkleRootsPerCache) := by
    have := Nat.lt_mul_div_succ index merkleRootsPerCache_pos
    rw [Nat.mul_succ] at this
    omega
  have inRange : index < roots.length :=
    Nat.lt_of_lt_of_le before (Nat.mul_div_le roots.length merkleRootsPerCache)
  have perCache : 2 ^ merkleRootsCacheHeight = merkleRootsPerCache := rfl
  have groupStart : index / merkleRootsPerCache * merkleRootsPerCache =
      merkleRootsPerCache * (index / merkleRootsPerCache) := Nat.mul_comm _ _
  have inside : merkleRootsPerCache * (index / merkleRootsPerCache) + merkleRootsPerCache ≤
      (roots.set index root).length := by
    rw [List.length_set]
    exact Nat.le_trans groupEnd (Nat.mul_div_le roots.length merkleRootsPerCache)
  rw [MerkleRoots.insert, numMerkleRoots_ofRoots, Nat.sub_eq_zero_of_le (Nat.le_of_lt inRange),
    MerkleRoots.pushEmpty, pure_bind, numMerkleRoots_ofRoots, if_neg (Nat.ne_of_lt inRange),
    writeAt_ofRoots tree inRange]
  simp only [MerkleRoots.isIndexCached, cachedSubTrees_ofRoots, length_cacheOf,
    if_neg (Nat.ne_of_lt cachedGroup), if_true]
  rw [MerkleRoots.rebuildCachedTree, perCache, groupStart,
    merkleRootsFromIndexFromDisk_eq
      (show _ = (roots.set index root).flatMap HashBytes.bytes from rfl) (Nat.le_add_right _ _) inside]
  have groupLength : (((roots.set index root).drop (merkleRootsPerCache * (index / merkleRootsPerCache))).take
      merkleRootsPerCache).length = merkleRootsPerCache := by
    rw [List.length_take, List.length_drop]
    omega
  rw [Nat.add_sub_cancel_left, addContext_pure, pure_bind, newCachedSubTree,
    if_neg (not_not.mpr groupLength), pure_bind]
  simp only [length_cacheOf, if_pos cachedGroup]
  rw [addContext_pure]
  simp only [ofRoots, cacheOf_set, rest_set_of_lt before, List.length_set]

/-- Every insert changes the roots as `MerkleRoots.insert` of the contract model does: one inside
the file writes over a root, one at or past the end pushes empty roots up to it and then the
root; the file and the cache go on holding the roots, and no sanity check trips. -/
theorem insert_ofRoots (zero : H) (roots : List H) (index : ℕ) (root : H) :
    (ofRoots tree roots).insert tree zero index root =
      pure (ofRoots tree (Proto.MerkleRoots.insert zero roots index root)) := by
  unfold Proto.MerkleRoots.insert
  split
  · next inRange =>
    rcases Nat.lt_or_ge (index / merkleRootsPerCache) (roots.length / merkleRootsPerCache) with
      cachedGroup | lastGroup
    · exact insert_ofRoots_of_cached tree zero root cachedGroup
    · have last : index / merkleRootsPerCache = roots.length / merkleRootsPerCache :=
        Nat.le_antisymm (Nat.div_le_div_right (Nat.le_of_lt inRange)) lastGroup
      exact insert_ofRoots_of_uncached tree zero root inRange last
  · next past =>
    rw [MerkleRoots.insert, numMerkleRoots_ofRoots, pushEmpty_ofRoots, pure_bind,
      numMerkleRoots_ofRoots, List.length_append, List.length_replicate, if_pos (by omega),
      push_ofRoots]

/-! #### Deleting roots -/

/-- With its last root cut off the file, a cache whose roots all lie in complete groups opens its
last subtree: the roots of the group left are read back as the uncached ones. -/
theorem moveLastCachedSubTreeToUncached_ofRoots {roots : List H}
    (full : rest merkleRootsPerCache roots = []) (nonempty : roots ≠ []) :
    MerkleRoots.moveLastCachedSubTreeToUncached (⟨cacheOf tree roots, rest merkleRootsPerCache roots,
        roots.dropLast.flatMap HashBytes.bytes, roots.length - 1⟩ : MerkleRoots H) =
      pure (ofRoots tree roots.dropLast) := by
  have opened : cacheOf tree roots.dropLast = (cacheOf tree roots).dropLast := by
    rw [cacheOf, cacheOf, groups_dropLast_of_rest_eq_nil merkleRootsPerCache_pos full nonempty,
      List.map_dropLast]
  have someCached : cacheOf tree roots ≠ [] := by
    have restLength := length_rest merkleRootsPerCache roots
    have split := Nat.mod_add_div roots.length merkleRootsPerCache
    have lengthPos := List.length_pos_of_ne_nil nonempty
    rw [full, List.length_nil] at restLength
    rw [← List.length_pos_iff, length_cacheOf]
    rcases Nat.eq_zero_or_pos (roots.length / merkleRootsPerCache) with zero | positive
    · rw [zero, Nat.mul_zero] at split
      omega
    · exact positive
  have groupStart : roots.dropLast.length / merkleRootsPerCache * merkleRootsPerCache ≤
      roots.length - 1 := by
    rw [← List.length_dropLast]
    exact Nat.div_mul_le_self _ _
  rw [MerkleRoots.moveLastCachedSubTreeToUncached, if_neg someCached]
  simp only [← opened, full, List.nil_append, length_cacheOf]
  rw [merkleRootsFromIndexFromDisk_eq
      (show _ = roots.dropLast.flatMap HashBytes.bytes from rfl) groupStart
    (by rw [List.length_dropLast]), addContext_pure, pure_bind]
  -- what is read back runs to the end of the file: the roots of the opened group
  have read : (roots.dropLast.drop (roots.dropLast.length / merkleRootsPerCache * merkleRootsPerCache)).take
      (roots.length - 1 - roots.dropLast.length / merkleRootsPerCache * merkleRootsPerCache) =
        rest merkleRootsPerCache roots.dropLast := by
    rw [List.take_of_length_le (by rw [List.length_drop, List.length_dropLast]), rest, Nat.mul_comm]
  rw [read, ofRoots, List.length_dropLast]

/-- A delete swaps `lastRoot` into place `i` as an insert does, and then cuts the roots to the
`m` that the file's new size leaves: nothing when the insert left `m`, the last root when it left
one more; any other count trips the sanity check. -/
theorem delete_ofRoots (zero : H) (roots : List H) (i : ℕ) (lastRoot : H) (m : ℕ) :
    (ofRoots tree roots).delete tree zero i lastRoot (m * hashSize) =
      let swapped := Proto.MerkleRoots.insert zero roots i lastRoot
      if swapped.length = m then pure (ofRoots tree swapped)
      else if swapped.length = m + 1 then pure (ofRoots tree swapped.dropLast)
      else panicked := by
  rw [MerkleRoots.delete, insert_ofRoots, addContext_pure, pure_bind]
  generalize Proto.MerkleRoots.insert zero roots i lastRoot = swapped
  have count : m * hashSize / hashSize = m := Nat.mul_div_cancel m hashSize_pos
  simp only [numMerkleRoots_ofRoots, rootsFile_ofRoots, count]
  by_cases same : swapped.length = m
  · -- the file holds `m` roots already: the cut changes nothing
    have whole : ByteFile.truncate (swapped.flatMap HashBytes.bytes) (m * hashSize) =
        swapped.flatMap HashBytes.bytes := by
      rw [Nat.mul_comm, truncate_flatMap_of_width width_bytes (Nat.le_of_eq same.symm),
        List.take_of_length_le (Nat.le_of_eq same)]
    rw [if_pos same, if_pos same, whole, ← same]
    rfl
  rw [if_neg same, if_neg same]
  by_cases one : swapped.length = m + 1
  · -- the cut takes the last root off the file, and then off the cache
    have cut : ByteFile.truncate (swapped.flatMap HashBytes.bytes) (m * hashSize) =
        swapped.dropLast.flatMap HashBytes.bytes := by
      rw [Nat.mul_comm, truncate_flatMap_of_width width_bytes (by omega), List.dropLast_eq_take, one,
        Nat.add_sub_cancel]
    have left : m = swapped.length - 1 := by omega
    rw [if_neg (not_not.mpr one), if_pos one, cut, uncachedRoots_ofRoots, cachedSubTrees_ofRoots]
    by_cases full : rest merkleRootsPerCache swapped = []
    · have nonempty : swapped ≠ [] := List.ne_nil_of_length_pos (by omega)
      rw [if_neg (by simp [full]), left]
      exact moveLastCachedSubTreeToUncached_ofRoots tree full nonempty
    · rw [if_pos (List.length_pos_of_ne_nil full), ofRoots, rest_dropLast_of_rest_ne_nil full,
        List.length_dropLast, ← left]
      simp only [cacheOf, groups_dropLast_of_rest_ne_nil full]
  · rw [if_pos one, if_neg one]

/-- `prepareDelete` returns the last root and the size of the file without it. -/
theorem prepareDelete_ofRoots (init : List H) (last : H) (index : ℕ) :
    (ofRoots tree (init ++ [last])).prepareDelete index = pure (last, init.length * hashSize) := by
  have lastOnly : ((init ++ [last]).drop ((init ++ [last]).length - 1)).take
      ((init ++ [last]).length - ((init ++ [last]).length - 1)) = [last] := by
    simp
  rw [MerkleRoots.prepareDelete, numMerkleRoots_ofRoots, if_neg (by simp),
    merkleRootsFromIndexFromDisk_eq rfl (Nat.sub_le _ _) (Nat.le_refl _), lastOnly, addContext_pure,
    pure_bind, List.length_append, List.length_singleton, Nat.add_sub_cancel]

/-- Deleting root `i` with what `prepareDelete` returns moves the last root into place `i` and
drops the last place. -/
theorem delete_ofRoots_swap (zero : H) (init : List H) (last : H) {i : ℕ} (inRange : i ≤ init.length) :
    (ofRoots tree (init ++ [last])).delete tree zero i last (init.length * hashSize) =
      pure (ofRoots tree ((init ++ [last]).set i last).dropLast) := by
  have inside : i < (init ++ [last]).length := by
    rw [List.length_append, List.length_singleton]
    omega
  rw [delete_ofRoots]
  dsimp only
  rw [Proto.MerkleRoots.insert, if_pos inside, List.length_set, List.length_append,
    List.length_singleton, if_neg (Nat.succ_ne_self _), if_pos rfl]

theorem returned_ok {α : Type} (a : α) : returned (.ok a : Except RootsError α) = pure a := rfl

/-- The load loop, from root `j` on, caches the rest of the roots after those cached so far. -/
theorem loadRoots_withCache (base : MerkleRoots H) (roots : List H) (j : ℕ) (inside : j ≤ roots.length) :
    loadRoots tree (roots.flatMap HashBytes.bytes) (base.withCache tree (roots.take j)) (hashSize * j) =
      pure (base.withCache tree roots) := by
  induction h : roots.length - j using Nat.strong_induction_on generalizing j with
  | _ n ih =>
    have bulk : rootsDiskLoadBulkSize = hashSize * 1024 := Nat.mul_comm _ _
    have read : ByteFile.readAt (roots.flatMap HashBytes.bytes) (hashSize * j) rootsDiskLoadBulkSize =
        ((roots.drop j).take 1024).flatMap HashBytes.bytes := by
      rw [bulk]
      exact readAt_flatMap_of_width width_bytes roots j 1024
    have readLength : (((roots.drop j).take 1024).flatMap HashBytes.bytes).length =
        hashSize * min 1024 (roots.length - j) := by
      rw [length_flatMap_of_width width_bytes, List.length_take, List.length_drop]
    rw [loadRoots]
    simp only [read, readLength]
    by_cases finished : j = roots.length
    · rw [if_pos (by simp [finished]), finished, List.take_length]
    -- one more bulk read, of the next `min 1024 (roots.length - j)` roots
    have next : roots.take j ++ (roots.drop j).take 1024 =
        roots.take (j + min 1024 (roots.length - j)) := by
      rw [← List.take_add, List.take_eq_take_iff]
      omega
    rw [if_neg (by simp [hashSize]; omega), parseRootsFromData_flatMap, returned_ok, pure_bind,
      appendRootMemory_withCache, pure_bind, next, ← Nat.mul_add]
    exact ih (roots.length - (j + min 1024 (roots.length - j))) (by omega) _ (by omega) rfl

/-- Loading a roots file gives back the roots it holds, with the cache they determine. A partial
root at the end, left by an interrupted write, is cut off and flagged, so that the log's updates
are applied again. -/
theorem loadExistingMerkleRootsFromSection_ofRoots (roots : List H) {tail : List UInt8}
    (torn : tail.length < hashSize) :
    loadExistingMerkleRootsFromSection tree (roots.flatMap HashBytes.bytes ++ tail) =
      pure (ofRoots tree roots, decide (tail ≠ [])) := by
  have rootsLength := length_flatMap_of_width width_bytes roots
  have partialRoot : (roots.flatMap HashBytes.bytes ++ tail).length % hashSize = tail.length := by
    rw [List.length_append, rootsLength, Nat.mul_add_mod, Nat.mod_eq_of_lt torn]
  have flagged : decide ((roots.flatMap HashBytes.bytes ++ tail).length % hashSize ≠ 0) =
      decide (tail ≠ []) := by
    rw [partialRoot]
    simp
  have cut : (if decide (tail ≠ []) = true then
      ByteFile.truncate (roots.flatMap HashBytes.bytes ++ tail)
        ((roots.flatMap HashBytes.bytes ++ tail).length -
          (roots.flatMap HashBytes.bytes ++ tail).length % hashSize)
      else roots.flatMap HashBytes.bytes ++ tail) = roots.flatMap HashBytes.bytes := by
    by_cases whole : tail = []
    · simp [whole]
    · rw [if_pos (by simpa using whole), partialRoot, List.length_append, Nat.add_sub_cancel,
        ByteFile.truncate_of_le (by simp), List.take_left]
  have count : (newMerkleRoots (roots.flatMap HashBytes.bytes) : MerkleRoots H).lenFromFile =
      .ok roots.length := by
    rw [MerkleRoots.lenFromFile, newMerkleRoots, rootsLength, if_neg (by simp [Nat.mul_mod_right]),
      Nat.mul_div_cancel_left _ hashSize_pos]
  -- the load starts from an empty cache, which is the cache of no roots
  have start : ({ newMerkleRoots (roots.flatMap HashBytes.bytes) with numMerkleRoots := roots.length } :
      MerkleRoots H) = (ofRoots tree roots).withCache tree (roots.take 0) := by
    simp [newMerkleRoots, MerkleRoots.withCache, ofRoots]
  have loaded := loadRoots_withCache tree (ofRoots tree roots) roots 0 (Nat.zero_le _)
  rw [Nat.mul_zero] at loaded
  rw [loadExistingMerkleRootsFromSection]
  simp only [flagged, cut, count, returned_ok, pure_bind, start, loaded]
  rfl

theorem loadExistingMerkleRootsFromSection_torn :
    ([7] : List UInt8).length < hashSize ∧
      loadExistingMerkleRootsFromSection lastRootTree ([sampleHash 1].flatMap HashBytes.bytes ++ [7]) =
        pure (ofRoots lastRootTree [sampleHash 1], decide (([7] : List UInt8) ≠ [])) :=
  ⟨by decide, loadExistingMerkleRootsFromSection_ofRoots lastRootTree [sampleHash 1] (by decide)⟩


end Represents

/-! ### Runs of updates -/

/-- What a contract does to its roots: `push` a root, `insert` one at an index, or delete the root
at an index with the last root and the size that `prepareDelete` returns for it. -/
inductive RootsUpdate (H : Type) where
  | push (root : H)
  | insert (index : ℕ) (root : H)
  | delete (index : ℕ)

section Runs

variable [HashBytes H] [HashRead H] (tree : CachedTree T H) (zero : H)

/-- One update, as the code runs it. -/
def MerkleRoots.update (mr : MerkleRoots H) : RootsUpdate H → RootsResult (MerkleRoots H)
  | .push root => mr.push tree root
  | .insert index root => mr.insert tree zero index root
  | .delete index => do
    let (lastRoot, truncateSize) ← mr.prepareDelete index
    mr.delete tree zero index lastRoot truncateSize

/-- Updates one after the other, up to the first that fails. -/
def MerkleRoots.updateAll (mr : MerkleRoots H) (updates : List (RootsUpdate H)) :
    RootsResult (MerkleRoots H) :=
  updates.foldlM (MerkleRoots.update tree zero) mr

/-- What an update does to the list of roots: a delete moves the last root into the deleted
place, and there is nothing to delete at an index past the roots. -/
def RootsUpdate.apply (roots : List H) : RootsUpdate H → Option (List H)
  | .push root => some (roots ++ [root])
  | .insert index root => some (Proto.MerkleRoots.insert zero roots index root)
  | .delete index =>
    match roots.getLast? with
    | some last => if index < roots.length then some ((roots.set index last).dropLast) else none
    | none => none

/-- A delete of a root past the end swaps in the last root past the end as well, and the cut
then has more than one root to take off, which trips the sanity check. -/
theorem delete_ofRoots_past (init : List H) (last : H) {index : ℕ}
    (past : init.length < index) :
    (ofRoots tree (init ++ [last])).delete tree zero index last (init.length * hashSize) = panicked := by
  have outside : ¬ index < (init ++ [last]).length := by
    rw [List.length_append, List.length_singleton]
    omega
  rw [delete_ofRoots]
  dsimp only
  rw [Proto.MerkleRoots.insert, if_neg outside]
  simp only [List.length_append, List.length_replicate, List.length_singleton]
  rw [if_neg (by omega), if_neg (by omega)]

/-- One update of the roots file and cache does to the roots what `RootsUpdate.apply` does: it
never returns an error, and it panics exactly where there is no root to delete. -/
theorem update_ofRoots (roots : List H) (update : RootsUpdate H) :
    ((ofRoots tree roots).update tree zero update).run =
      (update.apply zero roots).map fun roots' => .ok (ofRoots tree roots') := by
  cases update with
  | push root => rw [MerkleRoots.update, push_ofRoots]; rfl
  | insert index root => rw [MerkleRoots.update, insert_ofRoots]; rfl
  | delete index =>
    rcases List.eq_nil_or_concat roots with rfl | ⟨init, last, rfl⟩
    · -- with no roots, the read of the last one starts before the section
      rw [MerkleRoots.update, MerkleRoots.prepareDelete, numMerkleRoots_ofRoots, if_pos List.length_nil]
      rfl
    rw [List.concat_eq_append, MerkleRoots.update, prepareDelete_ofRoots, pure_bind]
    dsimp only
    rw [RootsUpdate.apply, List.getLast?_concat]
    dsimp only
    by_cases inside : index < (init ++ [last]).length
    · have atMost : index ≤ init.length := by
        rw [List.length_append, List.length_singleton] at inside
        omega
      rw [delete_ofRoots_swap tree zero init last atMost, if_pos inside]
      rfl
    · have past : init.length < index := by
        rw [List.length_append, List.length_singleton] at inside
        omega
      rw [delete_ofRoots_past tree zero init last past, if_neg inside]
      rfl

/-- Over a whole run of updates the roots file and cache hold the roots that the same updates
give as lists: the run never returns an error, and it panics exactly where a delete names a root
that is not there. -/
theorem updateAll_ofRoots (roots : List H) (updates : List (RootsUpdate H)) :
    ((ofRoots tree roots).updateAll tree zero updates).run =
      (updates.foldlM (RootsUpdate.apply zero) roots).map fun roots' => .ok (ofRoots tree roots') := by
  induction updates generalizing roots with
  | nil => rfl
  | cons update updates ih =>
    have step := update_ofRoots tree zero roots update
    rw [MerkleRoots.updateAll, List.foldlM_cons, ExceptT.run_bind, step, List.foldlM_cons]
    cases update.apply zero roots with
    | none => rfl
    | some roots' =>
      rw [Option.map_some, Option.bind_eq_bind, Option.bind_some, Option.bind_eq_bind,
        Option.bind_some, ← ih roots']
      rfl

end Runs

end Sia.Renter.Proto.Disk
