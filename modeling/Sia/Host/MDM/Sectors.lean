import Sia.Lib.Finmap
import Mathlib.Order.Disjoint

/-! `host/mdm/sectors.go`: the program's sector cache. Beside the contract's roots a program
keeps the sectors it gained, with their data, and the roots it removed; `managedFinalize` hands
the three to `StorageObligation.Update`, which stores the gained sectors and releases the
removed ones. Hashing is a parameter. The two maps are sets where the roots are a list, so a
root appended twice is gained once, and dropping one copy forgets it. -/
namespace Sia.MDM

inductive SectorsError where
  /-- "trying to append data of length %v" -/
  | appendLength (length : ℕ)
  /-- "trying to drop %v sectors which is more than the amount of sectors (%v)" -/
  | dropTooMany (numSectorsDropped oldNumSectors : ℕ)
  /-- "idx1 out-of-bounds: %v >= %v" -/
  | idx1OutOfBounds (idx1 length : ℕ)
  /-- "idx2 out-of-bounds: %v >= %v" -/
  | idx2OutOfBounds (idx2 length : ℕ)
  deriving DecidableEq, Repr

structure Sectors (H : Type) [DecidableEq H] where
  sectorsRemoved : Finset H
  sectorsGained : Finmap fun _ : H => List UInt8
  merkleRoots : List H

variable {H : Type} [DecidableEq H]

def newSectors (roots : List H) : Sectors H := ⟨∅, ∅, roots⟩

section Calls

-- `modules.SectorSize`, `crypto.MerkleRoot` of a sector and `cachedMerkleRoot` of a root list
variable (sectorSize : ℕ) (merkleRoot : List UInt8 → H) (cachedMerkleRoot : List H → H)

/-- `appendSector`: a root the program removed before is only unmarked; any other becomes a
gained sector. -/
def appendSector (s : Sectors H) (sectorData : List UInt8) : Except SectorsError (H × Sectors H) :=
  if sectorData.length ≠ sectorSize then .error (.appendLength sectorData.length)
  else
    let newRoot := merkleRoot sectorData
    let s := if newRoot ∈ s.sectorsRemoved then
        { s with sectorsRemoved := s.sectorsRemoved.erase newRoot }
      else { s with sectorsGained := s.sectorsGained.insert newRoot sectorData }
    let s := { s with merkleRoots := s.merkleRoots ++ [newRoot] }
    .ok (cachedMerkleRoot s.merkleRoots, s)

/-- One iteration of the loop of `dropSectors`: a sector gained by the program leaves the cache,
any other root is marked removed. -/
def dropRoot (s : Sectors H) (droppedRoot : H) : Sectors H :=
  if droppedRoot ∈ s.sectorsGained then
    { s with sectorsGained := s.sectorsGained.erase droppedRoot }
  else { s with sectorsRemoved := insert droppedRoot s.sectorsRemoved }

def dropSectors (s : Sectors H) (numSectorsDropped : ℕ) : Except SectorsError (H × Sectors H) :=
  let oldNumSectors := s.merkleRoots.length
  if numSectorsDropped > oldNumSectors then
    .error (.dropTooMany numSectorsDropped oldNumSectors)
  else
    let newNumSectors := oldNumSectors - numSectorsDropped
    let droppedRoots := s.merkleRoots.drop newNumSectors
    let s := { s with merkleRoots := s.merkleRoots.take newNumSectors }
    let s := droppedRoots.foldl dropRoot s
    .ok (cachedMerkleRoot s.merkleRoots, s)

def swapSectors (s : Sectors H) (idx1 idx2 : ℕ) : Except SectorsError (H × Sectors H) :=
  if h1 : idx1 ≥ s.merkleRoots.length then
    .error (.idx1OutOfBounds idx1 s.merkleRoots.length)
  else if h2 : idx2 ≥ s.merkleRoots.length then
    .error (.idx2OutOfBounds idx2 s.merkleRoots.length)
  else
    -- both right-hand sides are read before either assignment
    let roots := (s.merkleRoots.set idx1 s.merkleRoots[idx2]).set idx2 s.merkleRoots[idx1]
    let s := { s with merkleRoots := roots }
    .ok (cachedMerkleRoot s.merkleRoots, s)

inductive SectorsCall where
  | appendSector (sectorData : List UInt8)
  | dropSectors (numSectorsDropped : ℕ)
  | swapSectors (idx1 idx2 : ℕ)
  deriving DecidableEq, Repr

def SectorsCall.apply (s : Sectors H) : SectorsCall → Except SectorsError (H × Sectors H)
  | .appendSector sectorData =>
    Sia.MDM.appendSector sectorSize merkleRoot cachedMerkleRoot s sectorData
  | .dropSectors numSectorsDropped => Sia.MDM.dropSectors cachedMerkleRoot s numSectorsDropped
  | .swapSectors idx1 idx2 => Sia.MDM.swapSectors cachedMerkleRoot s idx1 idx2

/-- A program's calls in order; a call that returns an error changes nothing. -/
def runCalls (s : Sectors H) : List SectorsCall → Sectors H
  | [] => s
  | call :: calls =>
    match call.apply sectorSize merkleRoot cachedMerkleRoot s with
    | .ok (_, s') => runCalls s' calls
    | .error _ => runCalls s calls

/-! ### No root is both gained and removed -/

/-- The part of the cache's bookkeeping that holds: a root is never both gained and removed. -/
def Sectors.Separate (s : Sectors H) : Prop := Disjoint s.sectorsRemoved s.sectorsGained.keys

theorem newSectors_separate (roots : List H) : (newSectors roots).Separate := by
  simp [Sectors.Separate, newSectors]

theorem appendSector_separate {s s' : Sectors H} {sectorData : List UInt8} {root : H}
    (appended : appendSector sectorSize merkleRoot cachedMerkleRoot s sectorData = .ok (root, s'))
    (separate : s.Separate) : s'.Separate := by
  dsimp only [appendSector] at appended
  split_ifs at appended with sized removed
  · obtain ⟨-, rfl⟩ := Prod.mk.inj (Except.ok.inj appended)
    exact Finset.disjoint_of_subset_left (Finset.erase_subset _ _) separate
  · obtain ⟨-, rfl⟩ := Prod.mk.inj (Except.ok.inj appended)
    rw [Sectors.Separate, Finset.disjoint_left] at separate ⊢
    intro root' removedRoot gainedRoot
    rcases Finmap.mem_insert.mp (Finmap.mem_keys.mp gainedRoot) with rfl | old
    · exact removed removedRoot
    · exact separate removedRoot (Finmap.mem_keys.mpr old)

theorem dropRoot_separate {s : Sectors H} (droppedRoot : H) (separate : s.Separate) :
    (dropRoot s droppedRoot).Separate := by
  unfold dropRoot
  split_ifs with gained
  · simp only [Sectors.Separate, Finmap.keys_erase]
    exact Finset.disjoint_of_subset_right (Finset.erase_subset _ _) separate
  · simp only [Sectors.Separate]
    exact Finset.disjoint_insert_left.mpr ⟨Finmap.mem_keys.not.mpr gained, separate⟩

theorem foldl_dropRoot_separate (droppedRoots : List H) {s : Sectors H} (separate : s.Separate) :
    (droppedRoots.foldl dropRoot s).Separate := by
  induction droppedRoots generalizing s with
  | nil => exact separate
  | cons droppedRoot rest ih => exact ih (dropRoot_separate droppedRoot separate)

theorem dropSectors_separate {s s' : Sectors H} {numSectorsDropped : ℕ} {root : H}
    (dropped : dropSectors cachedMerkleRoot s numSectorsDropped = .ok (root, s'))
    (separate : s.Separate) : s'.Separate := by
  dsimp only [dropSectors] at dropped
  split_ifs at dropped
  cases dropped
  exact foldl_dropRoot_separate _ separate

theorem swapSectors_separate {s s' : Sectors H} {idx1 idx2 : ℕ} {root : H}
    (swapped : swapSectors cachedMerkleRoot s idx1 idx2 = .ok (root, s'))
    (separate : s.Separate) : s'.Separate := by
  dsimp only [swapSectors] at swapped
  split_ifs at swapped
  cases swapped
  exact separate

theorem runCalls_separate (calls : List SectorsCall) {s : Sectors H} (separate : s.Separate) :
    (runCalls sectorSize merkleRoot cachedMerkleRoot s calls).Separate := by
  induction calls generalizing s with
  | nil => exact separate
  | cons call calls ih =>
    simp only [runCalls]
    split
    · rename_i root s' applied
      apply ih
      cases call with
      | appendSector sectorData => exact appendSector_separate _ _ _ applied separate
      | dropSectors n => exact dropSectors_separate _ applied separate
      | swapSectors idx1 idx2 => exact swapSectors_separate _ applied separate
    · exact ih separate

end Calls

/-! ### Roots counted as sets -/

/-- The cache counts roots as a set where the contract counts them as a list. A sector appended
twice and dropped once is still referenced, yet no longer gained, so `Update` never stores it;
two copies of a stored root dropped and one appended again leave one fewer reference, yet the
root is no longer removed, so `Update` never releases the other. -/
theorem sectors_count_roots_once (sectorSize : ℕ) (merkleRoot : List UInt8 → H)
    (cachedMerkleRoot : List H → H) :
    (∀ (roots : List H) (sectorData : List UInt8), sectorData.length = sectorSize →
      let s := runCalls sectorSize merkleRoot cachedMerkleRoot (newSectors roots)
        [.appendSector sectorData, .appendSector sectorData, .dropSectors 1]
      s.merkleRoots = roots ++ [merkleRoot sectorData] ∧ s.sectorsGained = ∅ ∧
        s.sectorsRemoved = ∅) ∧
    (∀ (roots : List H) (sectorData : List UInt8), sectorData.length = sectorSize →
      let s := runCalls sectorSize merkleRoot cachedMerkleRoot
        (newSectors (roots ++ [merkleRoot sectorData, merkleRoot sectorData]))
        [.dropSectors 2, .appendSector sectorData]
      s.merkleRoots = roots ++ [merkleRoot sectorData] ∧ s.sectorsGained = ∅ ∧
        s.sectorsRemoved = ∅) := by
  constructor
  · -- the first append gains the sector, the second gains it again, the drop forgets it
    intro roots sectorData sized
    simp [runCalls, SectorsCall.apply, newSectors, appendSector, dropSectors, dropRoot, sized,
      Finmap.notMem_empty, Finmap.insert_insert, Finmap.erase_insert_of_notMem _ Finmap.notMem_empty,
      List.take_append]
  · -- the drop marks the root removed twice over, the append unmarks it
    intro roots sectorData sized
    have enough : ¬roots.length + 2 < 2 := by omega
    simp [runCalls, SectorsCall.apply, newSectors, appendSector, dropSectors, dropRoot, sized,
      Finmap.notMem_empty, enough]

/-- Two appends of one two-byte sector and a drop, with the length as the sector's root. -/
theorem sampleSectors_count_roots_once :
    ([1, 2] : List UInt8).length = 2 ∧
      let s := runCalls 2 (fun sectorData => sectorData.length) List.length
        (newSectors ([] : List ℕ))
        [.appendSector [1, 2], .appendSector [1, 2], .dropSectors 1]
      s.merkleRoots = [] ++ [2] ∧ s.sectorsGained = ∅ ∧ s.sectorsRemoved = ∅ :=
  ⟨rfl, (sectors_count_roots_once 2 (fun sectorData => sectorData.length) List.length).1 [] [1, 2]
    rfl⟩

end Sia.MDM
