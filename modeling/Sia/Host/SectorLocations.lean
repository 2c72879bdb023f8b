import Mathlib.Data.Nat.Notation
import Mathlib.Logic.Function.Basic
import Mathlib.Algebra.GroupWithZero.Nat

/-! The sector counts of `modules/host/contractmanager`: a sector stored several times keeps one
physical copy and a count of virtual copies. `sectorLocations` holds the count in memory; on disk
`writeSectorMetadata` keeps a 16-bit count in the folder's metadata file and, once that count is
saturated, the part above it in the overflow map, and `loadSectorLocations` adds the two back
together when the contract manager starts. After a clean shutdown the sector updates of the
write-ahead log are not replayed, so the disk holds what the calls wrote directly. -/
namespace Sia.Host

/-- Where a sector lies: its storage folder and its index in the folder. -/
structure Slot where
  storageFolder : UInt16
  index : UInt32
  deriving DecidableEq, Repr

/-- `sectorLocation`; the count is a uint64, kept below `2^64` by `managedAddVirtualSector`. -/
structure SectorLocation where
  index : UInt32
  storageFolder : UInt16
  count : ℕ
  deriving DecidableEq, Repr

def SectorLocation.slot (location : SectorLocation) : Slot :=
  ⟨location.storageFolder, location.index⟩

@[simp] theorem Slot.mk_storageFolder_index (slot : Slot) :
    (⟨slot.storageFolder, slot.index⟩ : Slot) = slot := rfl

/-- `sectorUpdate`. -/
structure SectorUpdate (S : Type) where
  count : ℕ
  id : S
  folder : UInt16
  index : UInt32

/-- The errors of the sector calls. -/
inductive SectorError where
  /-- `ErrSectorNotFound`: "could not find the desired sector". -/
  | sectorNotFound
  /-- `modules.ErrMaxVirtualSectors`. -/
  | maxVirtualSectors
  /-- `errDiskTrouble`. -/
  | diskTrouble
  /-- `V1420HostOutOfStorageErrString`: no free sector to write to. -/
  | outOfStorage
  /-- The write of the folder's metadata file failed. -/
  | writeFailed
  /-- `build.ExtendErr`. -/
  | extend (context : String) (err : SectorError)
  deriving DecidableEq, Repr

/-- The sector state of the contract manager that a clean shutdown keeps: the locations in memory,
the entries of the folders' metadata files, the usage bitfields and the overflow map (whose
entries `SetOverflow` writes through to its file). `slots` lists the sectors of all folders in the
order `loadSectorLocations` reads them. -/
structure SectorStore (S : Type) where
  slots : List Slot
  sectorLocations : S → Option SectorLocation
  metadata : Slot → Option (S × UInt16)
  usage : Slot → Bool
  overflow : S → Option ℕ

namespace SectorStore

variable {S : Type} [DecidableEq S]

/-- The 16-bit count `writeSectorMetadata` stores, saturated at `math.MaxUint16`. -/
def metadataCount (count : ℕ) : UInt16 := if count > 65535 then 65535 else UInt16.ofNat count

/-- The part of the count above `math.MaxUint16`, which goes to the overflow map. -/
def overflowCount (count : ℕ) : ℕ := if count > 65535 then count - 65535 else 0

def setLocation (cm : SectorStore S) (id : S) (location : Option SectorLocation) : SectorStore S :=
  { cm with sectorLocations := Function.update cm.sectorLocations id location }

def setUsage (cm : SectorStore S) (slot : Slot) (used : Bool) : SectorStore S :=
  { cm with usage := Function.update cm.usage slot used }

/-- The update's entry written to its folder's metadata file. -/
def writeEntry (cm : SectorStore S) (su : SectorUpdate S) : SectorStore S :=
  { cm with
    metadata := Function.update cm.metadata ⟨su.folder, su.index⟩ (some (su.id, metadataCount su.count)) }

/-- `writeSectorMetadata`, where `fails` says whether the write of the metadata file fails. The
overflow map is written only when the 16-bit count is saturated. -/
def writeSectorMetadata (cm : SectorStore S) (fails : Bool) (su : SectorUpdate S) :
    SectorStore S × Except SectorError Unit :=
  if fails then (cm, .error .writeFailed)
  else if metadataCount su.count != 65535 then (cm.writeEntry su, .ok ())
  else if (cm.overflow su.id).isNone && overflowCount su.count > 0 ||
      (cm.overflow su.id).getD 0 != overflowCount su.count then
    ({ cm.writeEntry su with
      overflow := Function.update cm.overflow su.id (some (overflowCount su.count)) }, .ok ())
  else (cm.writeEntry su, .ok ())

/-- `managedAddVirtualSector`: one more copy of a stored sector. -/
def addVirtualSector (cm : SectorStore S) (fails : Bool) (id : S) (location : SectorLocation) :
    SectorStore S × Except SectorError Unit :=
  if location.count = 2 ^ 64 - 1 then (cm, .error .maxVirtualSectors)
  else
    match (cm.setLocation id (some { location with count := location.count + 1 })).writeSectorMetadata
        fails ⟨location.count + 1, id, location.storageFolder, location.index⟩ with
    | (cm', .ok ()) => (cm', .ok ())
    -- the revert puts the old count back in memory
    | (cm', .error err) => (cm'.setLocation id (some location),
        .error (.extend "unable to write sector metadata during addSector call" err))

/-- `managedAddPhysicalSector` writing to `slot`, the free sector it picks. -/
def addPhysicalSector (cm : SectorStore S) (fails : Bool) (id : S) (slot : Slot) :
    SectorStore S × Except SectorError Unit :=
  if slot ∉ cm.slots ∨ cm.usage slot = true then (cm, .error .outOfStorage)
  else
    match (cm.setUsage slot true).writeSectorMetadata fails ⟨1, id, slot.storageFolder, slot.index⟩ with
    | (cm', .ok ()) => (cm'.setLocation id (some ⟨slot.index, slot.storageFolder, 1⟩), .ok ())
    | (cm', .error _) => (cm'.setUsage slot false, .error .diskTrouble)

/-- `AddSector`: a sector already stored gains a virtual copy, a new one is written. -/
def addSector (cm : SectorStore S) (fails : Bool) (id : S) (slot : Slot) :
    SectorStore S × Except SectorError Unit :=
  match cm.sectorLocations id with
  | some location => cm.addVirtualSector fails id location
  | none => cm.addPhysicalSector fails id slot

/-- `DeleteSector` (`managedDeleteSector`): every copy goes. The usage is cleared; the metadata and
the overflow entry stay. -/
def deleteSector (cm : SectorStore S) (id : S) : SectorStore S × Except SectorError Unit :=
  match cm.sectorLocations id with
  | none => (cm, .error .sectorNotFound)
  | some location => ((cm.setLocation id none).setUsage location.slot false, .ok ())

/-- `RemoveSector` (`managedRemoveSector`): one copy goes. -/
def removeSector (cm : SectorStore S) (fails : Bool) (id : S) :
    SectorStore S × Except SectorError Unit :=
  match cm.sectorLocations id with
  | none => (cm, .error .sectorNotFound)
  | some location =>
    if location.count - 1 = 0 then ((cm.setLocation id none).setUsage location.slot false, .ok ())
    else
      match (cm.setLocation id (some { location with count := location.count - 1 })).writeSectorMetadata
          fails ⟨location.count - 1, id, location.storageFolder, location.index⟩ with
      | (cm', .ok ()) => (cm', .ok ())
      | (cm', .error err) => (cm'.setLocation id (some location),
          .error (.extend "failed to write sector metadata" err))

/-- The calls that change the sectors, with whether their metadata write fails. -/
inductive SectorCall (S : Type) where
  | addSector (id : S) (slot : Slot) (fails : Bool)
  | removeSector (id : S) (fails : Bool)
  | deleteSector (id : S)

def call (cm : SectorStore S) : SectorCall S → SectorStore S × Except SectorError Unit
  | .addSector id slot fails => cm.addSector fails id slot
  | .removeSector id fails => cm.removeSector fails id
  | .deleteSector id => cm.deleteSector id

/-- A sequence of calls, each made whatever the previous ones returned. -/
def run (cm : SectorStore S) (calls : List (SectorCall S)) : SectorStore S :=
  calls.foldl (fun cm c => (cm.call c).1) cm

/-- `loadSectorLocations` over every folder at the next start: each sector in use is read from
the metadata, its count being the 16-bit count plus the overflow entry of its id. -/
def loadSectorLocations (cm : SectorStore S) : S → Option SectorLocation :=
  cm.slots.foldl (fun locations slot =>
    if cm.usage slot then
      match cm.metadata slot with
      | some (id, count) => Function.update locations id
          (some ⟨slot.index, slot.storageFolder, count.toNat + (cm.overflow id).getD 0⟩)
      -- a sector in use always has its metadata written
      | none => locations
    else locations) fun _ => none

/-- A contract manager whose folders have the sectors `slots`, none of them in use. -/
def empty (slots : List Slot) : SectorStore S :=
  ⟨slots, fun _ => none, fun _ => none, fun _ => false, fun _ => none⟩

/-! ### What a successful metadata write does -/

theorem metadataCount_eq_max_iff {count : ℕ} : metadataCount count = 65535 ↔ 65535 ≤ count := by
  unfold metadataCount
  split
  · simp only [true_iff]
    omega
  · rw [← UInt16.toNat_inj, UInt16.toNat_ofNat']
    simp only [UInt16.reduceToNat]
    omega

/-- The entry is written, and the overflow entry is set when the 16-bit count is saturated and
the map's entry (zero when absent) differs from the count's overflow. -/
theorem writeSectorMetadata_eq (cm : SectorStore S) (su : SectorUpdate S) :
    cm.writeSectorMetadata false su =
      ({ cm.writeEntry su with
        overflow := if metadataCount su.count = 65535 ∧ (cm.overflow su.id).getD 0 ≠ overflowCount su.count
          then Function.update cm.overflow su.id (some (overflowCount su.count)) else cm.overflow },
        .ok ()) := by
  unfold writeSectorMetadata
  by_cases saturated : metadataCount su.count = 65535
  · -- an absent entry reads as zero, so both disjuncts of the source test say the entry differs
    cases entry : cm.overflow su.id with
    | none =>
      by_cases zero : overflowCount su.count = 0
      · simp [saturated, zero]
        rfl
      · simp [saturated, Nat.pos_of_ne_zero zero, Ne.symm zero]
    | some e =>
      by_cases same : e = overflowCount su.count
      · simp [saturated, same]
        rfl
      · simp [saturated, same]
  · simp [saturated]
    rfl

/-! ### One sector stored again and again -/

/-- The overflow map after a sector was stored `count` times. -/
def storedOverflow (id : S) (count : ℕ) : S → Option ℕ :=
  if count > 65535 then Function.update (fun _ => none) id (some (count - 65535)) else fun _ => none

/-- The state after a sector was stored `count` times at `slot` in an empty manager. -/
def stored (slots : List Slot) (id : S) (slot : Slot) (count : ℕ) : SectorStore S where
  slots := slots
  sectorLocations := Function.update (fun _ => none) id (some ⟨slot.index, slot.storageFolder, count⟩)
  metadata := Function.update (fun _ => none) slot (some (id, metadataCount count))
  usage := Function.update (fun _ => false) slot true
  overflow := storedOverflow id count

/-- The overflow entry after one more copy: absent up to `math.MaxUint16` copies, then the count
above it. -/
theorem storedOverflow_succ (id : S) (count : ℕ) :
    (if metadataCount (count + 1) = 65535 ∧
        (storedOverflow id count id).getD 0 ≠ overflowCount (count + 1)
      then Function.update (storedOverflow id count) id (some (overflowCount (count + 1)))
      else storedOverflow id count) = storedOverflow id (count + 1) := by
  by_cases unsaturated : count + 1 < 65535
  · have differs : ¬ metadataCount (count + 1) = 65535 := by
      rw [metadataCount_eq_max_iff]
      omega
    rw [if_neg (fun both => differs both.1), storedOverflow, storedOverflow, if_neg (by omega),
      if_neg (by omega)]
  · have saturated : metadataCount (count + 1) = 65535 := metadataCount_eq_max_iff.mpr (by omega)
    by_cases atMax : count + 1 = 65535
    · -- the 16-bit count saturates with nothing above it yet
      have absent : storedOverflow id count = fun _ => none := by
        rw [storedOverflow, if_neg (by omega)]
      have zero : overflowCount (count + 1) = 0 := by
        rw [overflowCount, if_neg (by omega)]
      have same : ¬ (metadataCount (count + 1) = 65535 ∧
          ((fun _ => none : S → Option ℕ) id).getD 0 ≠ 0) := fun both => both.2 rfl
      rw [absent, zero, if_neg same, storedOverflow, if_neg (by omega)]
    · have above : overflowCount (count + 1) = count + 1 - 65535 := by
        rw [overflowCount, if_pos (by omega)]
      have next : storedOverflow id (count + 1) =
          Function.update (fun _ => none) id (some (count + 1 - 65535)) := by
        rw [storedOverflow, if_pos (by omega)]
      by_cases before : count > 65535
      · have current : storedOverflow id count =
            Function.update (fun _ => none) id (some (count - 65535)) := by
          rw [storedOverflow, if_pos before]
        have differs : (Function.update (fun _ => none) id (some (count - 65535)) id).getD 0 ≠
            count + 1 - 65535 := by
          rw [Function.update_self, Option.getD_some]
          omega
        rw [current, above, next, if_pos ⟨saturated, differs⟩, Function.update_idem]
      · have current : storedOverflow id count = fun _ => none := by
          rw [storedOverflow, if_neg before]
        have differs : ((fun _ => none : S → Option ℕ) id).getD 0 ≠ count + 1 - 65535 := by
          rw [Option.getD_none]
          omega
        rw [current, above, next, if_pos ⟨saturated, differs⟩]

theorem addSector_empty {slots : List Slot} (id : S) {slot : Slot} (inside : slot ∈ slots) :
    (empty slots).addSector false id slot = (stored slots id slot 1, .ok ()) := by
  have unsaturated : ¬ metadataCount 1 = 65535 := by decide
  simp [addSector, empty, addPhysicalSector, inside, setUsage, writeSectorMetadata_eq, unsaturated,
    writeEntry, setLocation, stored, storedOverflow]

/-- One more copy of the stored sector: the count in memory and on disk grows by one. -/
theorem addSector_stored {slots : List Slot} (id : S) (slot : Slot) {count : ℕ}
    (room : count + 1 < 2 ^ 64) :
    (stored slots id slot count).addSector false id slot = (stored slots id slot (count + 1), .ok ()) := by
  have notMax : count ≠ 2 ^ 64 - 1 := by omega
  have overflowNext := storedOverflow_succ id count
  simp only [addSector, stored, Function.update_self, addVirtualSector, if_neg notMax,
    writeSectorMetadata_eq, setLocation, writeEntry, overflowNext, Function.update_idem]

theorem run_cons (cm : SectorStore S) (c : SectorCall S) (calls : List (SectorCall S)) :
    cm.run (c :: calls) = (cm.call c).1.run calls := rfl

theorem run_append (cm : SectorStore S) (first rest : List (SectorCall S)) :
    cm.run (first ++ rest) = (cm.run first).run rest := List.foldl_append

/-- `extra` more copies of the stored sector, each call succeeding. -/
theorem run_addSector_stored {slots : List Slot} (id : S) (slot : Slot) (extra : ℕ) {count : ℕ}
    (room : count + extra < 2 ^ 64) :
    (stored slots id slot count).run (List.replicate extra (.addSector id slot false)) =
      stored slots id slot (count + extra) := by
  induction extra generalizing count with
  | zero => rfl
  | succ n ih =>
    rw [List.replicate_succ, run_cons, call, addSector_stored id slot (by omega), ih (by omega)]
    congr 1
    omega

/-- Deleting the sector and storing it again: memory and metadata are as after a first store, but
the overflow entry of the deleted sector is still there. -/
theorem deleteSector_addSector_stored {slots : List Slot} (id : S) {slot : Slot}
    (inside : slot ∈ slots) (count : ℕ) :
    (((stored slots id slot count).deleteSector id).1.addSector false id slot).1 =
      { stored slots id slot 1 with overflow := storedOverflow id count } := by
  have unsaturated : ¬ metadataCount 1 = 65535 := by decide
  simp [deleteSector, stored, setLocation, setUsage, SectorLocation.slot, addSector,
    addPhysicalSector, inside, writeSectorMetadata_eq, unsaturated, writeEntry]

/-- The reload of a manager with one sector in use: the 16-bit count of its metadata entry plus the
overflow entry of its id. -/
theorem loadSectorLocations_single (cm : SectorStore S) {slot : Slot} {id : S} {count : UInt16}
    (inside : slot ∈ cm.slots) (used : cm.usage = Function.update (fun _ => false) slot true)
    (entry : cm.metadata slot = some (id, count)) :
    cm.loadSectorLocations = Function.update (fun _ => none) id
      (some ⟨slot.index, slot.storageFolder, count.toNat + (cm.overflow id).getD 0⟩) := by
  -- only `slot` is in use, and every visit of it writes the same location
  have visits : ∀ (l : List Slot) (locations : S → Option SectorLocation),
      l.foldl (fun locations s =>
        if cm.usage s then
          match cm.metadata s with
          | some (id, count) => Function.update locations id
              (some ⟨s.index, s.storageFolder, count.toNat + (cm.overflow id).getD 0⟩)
          | none => locations
        else locations) locations =
      if slot ∈ l then Function.update locations id
        (some ⟨slot.index, slot.storageFolder, count.toNat + (cm.overflow id).getD 0⟩)
      else locations := by
    intro l
    induction l with
    | nil => simp
    | cons s rest ih =>
      intro locations
      by_cases same : s = slot
      · subst same
        have visit : cm.usage s = true := by rw [used, Function.update_self]
        rw [List.foldl_cons, if_pos visit, entry]
        dsimp only
        rw [ih, if_pos List.mem_cons_self]
        by_cases again : s ∈ rest <;> simp [again, Function.update_idem]
      · have other : cm.usage s = false := by
          rw [used, Function.update_of_ne same]
        rw [List.foldl_cons, if_neg (by simp [other]), ih]
        simp [Ne.symm same]
  rw [loadSectorLocations, visits, if_pos inside]

/-- A sector stored `1 + extra` times at `slot`, deleted, and stored again. -/
def churn (id : S) (slot : Slot) (extra : ℕ) : List (SectorCall S) :=
  .addSector id slot false :: (List.replicate extra (.addSector id slot false) ++
    [.deleteSector id, .addSector id slot false])

theorem churn_state (slots : List Slot) (id : S) {slot : Slot} (inside : slot ∈ slots) {extra : ℕ}
    (room : 1 + extra < 2 ^ 64) :
    (empty slots).run (churn id slot extra) =
      { stored slots id slot 1 with overflow := storedOverflow id (1 + extra) } := by
  rw [churn, run_cons, call, addSector_empty id inside, run_append, run_addSector_stored id slot extra room,
    run_cons, run_cons, call, call]
  exact deleteSector_addSector_stored id inside (1 + extra)

theorem reload_counts_deleted_overflow (slots : List Slot) (id : S) {slot : Slot}
    (inside : slot ∈ slots) {extra : ℕ} (saturated : 65535 ≤ extra) (room : 1 + extra < 2 ^ 64) :
    ((empty slots).run (churn id slot extra)).sectorLocations id =
        some ⟨slot.index, slot.storageFolder, 1⟩ ∧
      ((empty slots).run (churn id slot extra)).loadSectorLocations id =
        some ⟨slot.index, slot.storageFolder, 1 + (extra + 1 - 65535)⟩ := by
  rw [churn_state slots id inside room]
  have overflowEntry : storedOverflow id (1 + extra) id = some (extra + 1 - 65535) := by
    rw [storedOverflow, if_pos (by omega), Function.update_self, Nat.add_comm]
  have one : (metadataCount 1).toNat = 1 := by decide
  refine ⟨by simp [stored], ?_⟩
  have entry : ({ stored slots id slot 1 with overflow := storedOverflow id (1 + extra) } :
      SectorStore S).metadata slot = some (id, metadataCount 1) := by simp [stored]
  rw [loadSectorLocations_single _ inside rfl entry]
  rw [Function.update_self, one]
  dsimp only
  rw [overflowEntry, Option.getD_some]

theorem sampleChurn_reload :
    ((empty [⟨0, 0⟩]).run (churn (Vector.replicate 12 (1 : UInt8)) ⟨0, 0⟩ 65535)).sectorLocations
        (Vector.replicate 12 1) = some ⟨0, 0, 1⟩ ∧
      ((empty [⟨0, 0⟩]).run (churn (Vector.replicate 12 (1 : UInt8)) ⟨0, 0⟩ 65535)).loadSectorLocations
        (Vector.replicate 12 1) = some ⟨0, 0, 1 + (65535 + 1 - 65535)⟩ :=
  reload_counts_deleted_overflow [⟨0, 0⟩] _ (List.mem_singleton_self _) (Nat.le_refl _) (by decide)

end SectorStore

end Sia.Host
