import Sia.Host.Registry
import Sia.Lib.Finmap

/-! The host registry in memory (`modules/host/registry/registry.go`, `bitfield.go`). The registry
maps a public key and tweak to a value, which also records its slot in the registry file, and
keeps a bitfield of the used slots. `Update` adds or revises a value and saves it to its slot;
`Truncate` resizes the file, moving the values that lie beyond the new size into free slots.

What Go leaves to chance is an input here: the word `SetRandom` starts its search at, the order
a `range` over the map visits the values, and for each write to the file whether it succeeds.
`rv.Verify` is a given predicate. The map key is the pair itself, since `valueMapKey` hashes it. -/
namespace Sia.Host

namespace Registry

/-- `bitfield`: `words` 64-bit words, and the bits that are set. -/
structure Bitfield where
  words : ℕ
  bits : Finset ℕ
  deriving DecidableEq

inductive BitfieldError where
  | invalidSize
  | outOfBounds
  | noFreeBit
  deriving DecidableEq, Repr

def newBitfield (nBits : ℕ) : Except BitfieldError Bitfield :=
  if nBits % 64 ≠ 0 then .error .invalidSize else .ok ⟨nBits / 64, ∅⟩

namespace Bitfield

def len (b : Bitfield) : ℕ := b.words * 64

def isSet (b : Bitfield) (index : ℕ) : Bool := decide (index ∈ b.bits)

def set (b : Bitfield) (index : ℕ) : Except BitfieldError Bitfield :=
  if index / 64 ≥ b.words then .error .outOfBounds else .ok { b with bits := insert index b.bits }

def unset (b : Bitfield) (index : ℕ) : Except BitfieldError Bitfield :=
  if index / 64 ≥ b.words then .error .outOfBounds else .ok { b with bits := b.bits.erase index }

/-- The lowest free bit of word `i`. -/
def freeIn (b : Bitfield) (i : ℕ) : Option ℕ :=
  ((List.range 64).find? fun j => i * 64 + j ∉ b.bits).map (i * 64 + ·)

/-- `SetRandom`: from the word `initialPos` (`fastrand.Intn`) on, wrapping around, the lowest free
bit of the first word that is not full is set. -/
def setRandom (b : Bitfield) (initialPos : ℕ) : Except BitfieldError (ℕ × Bitfield) :=
  if b.words = 0 then .error .noFreeBit
  else
    match ((List.range b.words).map fun k => (initialPos % b.words + k) % b.words).findSome?
        b.freeIn with
    | some index => .ok (index, { b with bits := insert index b.bits })
    | none => .error .noFreeBit

theorem freeIn_eq_some {b : Bitfield} {i index : ℕ} (found : b.freeIn i = some index) :
    index ∉ b.bits ∧ index / 64 = i := by
  obtain ⟨j, chosen, rfl⟩ := Option.map_eq_some_iff.mp found
  have free := List.find?_some chosen
  have below := List.mem_range.mp (List.mem_of_find?_eq_some chosen)
  refine ⟨by simpa using free, ?_⟩
  omega

/-- The bit `SetRandom` picks was free, lies in the bitfield, and is all it sets. -/
theorem setRandom_eq_ok {b b' : Bitfield} {initialPos index : ℕ}
    (picked : b.setRandom initialPos = .ok (index, b')) :
    index ∉ b.bits ∧ index / 64 < b.words ∧ b' = { b with bits := insert index b.bits } := by
  unfold setRandom at picked
  split at picked
  · cases picked
  · split at picked
    case h_1 found =>
      cases picked
      obtain ⟨i, member, chosen⟩ := List.exists_of_findSome?_eq_some found
      obtain ⟨k, _, rfl⟩ := List.mem_map.mp member
      obtain ⟨free, word⟩ := freeIn_eq_some chosen
      exact ⟨free, word ▸ Nat.mod_lt _ (Nat.pos_of_ne_zero ‹_›), rfl⟩
    case h_2 => cases picked

end Bitfield

/-- A value with the flag set when it is pruned or could not be saved; its mutex is not
modelled. -/
structure Entry where
  value : Value
  invalid : Bool
  deriving DecidableEq

abbrev MapKey := SiaPublicKey × Vector UInt8 32

/-- `modules.SignedRegistryValue`. -/
structure SignedRegistryValue where
  tweak : Vector UInt8 32
  data : List UInt8
  revision : UInt64
  signature : Vector UInt8 64
  deriving DecidableEq, Repr

def Entry.signed (e : Entry) : SignedRegistryValue :=
  ⟨e.value.tweak, e.value.data, e.value.revision, e.value.signature⟩

inductive EntryError where
  | invalidEntry
  | lowerRevNum
  | sameRevNum
  deriving DecidableEq, Repr

/-- `value.update`: a new revision must be higher than the one it replaces, unless the value was
just created. -/
def Entry.update (e : Entry) (rv : SignedRegistryValue) (newExpiry : UInt64) (init : Bool) :
    Except EntryError Entry :=
  if e.invalid then .error .invalidEntry
  else if !init ∧ rv.revision < e.value.revision then .error .lowerRevNum
  else if !init ∧ rv.revision = e.value.revision then .error .sameRevNum
  else .ok { e with value := { e.value with
    expiry := newExpiry, data := rv.data, revision := rv.revision, signature := rv.signature } }

/-- The errors of `Update`; `updateEntry` carries the value `Update` returns beside it. -/
inductive UpdateError where
  | tooMuchData
  | invalidSignature
  | newValue (err : BitfieldError)
  | updateEntry (err : EntryError) (existing : Option SignedRegistryValue)
  | saveFailed
  deriving DecidableEq, Repr

inductive TruncateError where
  | invalidTruncate
  | newBitfield (err : BitfieldError)
  | setBit (err : BitfieldError)
  | saveFailed
  | entriesLeftToMove
  deriving DecidableEq, Repr

end Registry

open Registry

/-- `Registry`: the entries by key and tweak, and the used slots. -/
structure Registry where
  entries : Finmap fun _ : MapKey => Entry
  usage : Bitfield

namespace Registry

variable (verify : SignedRegistryValue → SiaPublicKey → Bool) (writeOk : Value → Bool)

/-- `Get`. -/
def get (r : Registry) (pubKey : SiaPublicKey) (tweak : Vector UInt8 32) :
    Option SignedRegistryValue :=
  (r.entries.lookup (pubKey, tweak)).map Entry.signed

/-- `managedDeleteFromMemory`: the slot is freed (an error is only logged) and the entry leaves
the map. -/
def managedDeleteFromMemory (r : Registry) (key : MapKey) (e : Entry) : Registry :=
  { entries := r.entries.erase key,
    usage := (r.usage.unset (e.value.staticIndex - 1)).toOption.getD r.usage }

/-- `newValue`: a free slot from `SetRandom` and a value in it, added to the map. -/
def newValue (r : Registry) (rv : SignedRegistryValue) (pubKey : SiaPublicKey) (expiry : UInt64)
    (initialPos : ℕ) : Except BitfieldError (Registry × Entry) :=
  (r.usage.setRandom initialPos).map fun (bit, usage) =>
    let e : Entry := ⟨⟨pubKey, rv.tweak, expiry, bit + 1, rv.data, rv.revision, rv.signature⟩, false⟩
    ({ entries := r.entries.insert (pubKey, rv.tweak) e, usage }, e)

/-- `Update`, returning the registry after the call and what the call returns: the value it
replaced, if there was one. The entry is changed through the pointer the map holds, before it is
saved; when the save fails, only an entry the call created is invalidated and removed. -/
def update (r : Registry) (rv : SignedRegistryValue) (pubKey : SiaPublicKey) (expiry : UInt64)
    (initialPos : ℕ) : Registry × Except UpdateError (Option SignedRegistryValue) :=
  if rv.data.length > registryDataSize then (r, .error .tooMuchData)
  else if !verify rv pubKey then (r, .error .invalidSignature)
  else
    let found : Except BitfieldError (Registry × Entry × Bool) :=
      match r.entries.lookup (pubKey, rv.tweak) with
      | some e => .ok (r, e, true)
      | none => (r.newValue rv pubKey expiry initialPos).map fun (r, e) => (r, e, false)
    match found with
    | .error err => (r, .error (.newValue err))
    | .ok (r, e, existed) =>
      let srv := if existed then some e.signed else none
      match e.update rv expiry !existed with
      | .error err => (r, .error (.updateEntry err srv))
      | .ok e =>
        let r := { r with entries := r.entries.insert (pubKey, rv.tweak) e }
        if writeOk e.value then (r, .ok srv)
        else if existed then (r, .error .saveFailed)
        else (r.managedDeleteFromMemory (pubKey, rv.tweak) { e with invalid := true },
          .error .saveFailed)

/-- The first loop of `Truncate`: a valid entry whose slot is inside the new size marks it in the
new bitfield, the others are to be moved, in the order visited. `uint64(staticIndex - 1)` wraps
for index 0, which is then never inside. -/
def markEntries (newMaxEntries : ℕ) :
    Bitfield → List (MapKey × Entry) → Except TruncateError (Bitfield × List (MapKey × Entry))
  | usage, [] => .ok (usage, [])
  | usage, (key, e) :: rest =>
    if e.invalid then markEntries newMaxEntries usage rest
    else if 0 < e.value.staticIndex ∧ e.value.staticIndex - 1 < newMaxEntries then
      match usage.set (e.value.staticIndex - 1) with
      | .error err => .error (.setBit err)
      | .ok usage => markEntries newMaxEntries usage rest
    else (markEntries newMaxEntries usage rest).map fun (usage, moving) =>
      (usage, (key, e) :: moving)

/-- The second loop of `Truncate`: each free bit, from the lowest on, is set and given to the next
entry to move, whose new index is written into the entry and then saved. The first failing save
ends the loop with an error. -/
def moveEntries : List ℕ → (Finmap fun _ : MapKey => Entry) → Bitfield → List (MapKey × Entry) →
    (Finmap fun _ : MapKey => Entry) × Bitfield × List (MapKey × Entry) × Except TruncateError Unit
  | [], entries, usage, moving => (entries, usage, moving, .ok ())
  | _ :: _, entries, usage, [] => (entries, usage, [], .ok ())
  | i :: is, entries, usage, (key, e) :: moving =>
    if usage.isSet i then moveEntries is entries usage ((key, e) :: moving)
    else
      match usage.set i with
      | .error err => (entries, usage, (key, e) :: moving, .error (.setBit err))
      | .ok usage =>
        let e := { e with value := { e.value with staticIndex := i + 1 } }
        let entries := entries.insert key e
        if writeOk e.value then moveEntries is entries usage moving
        else (entries, usage, moving, .error .saveFailed)

/-- `Truncate` to `newMaxEntries` slots, visiting the map in the order `order` gives its keys.
The new bitfield replaces the old one only at the end. -/
def truncate (r : Registry) (order : List MapKey) (newMaxEntries : ℕ) (force : Bool) :
    Registry × Except TruncateError Unit :=
  if !force ∧ newMaxEntries < r.entries.keys.card then (r, .error .invalidTruncate)
  else
    match newBitfield newMaxEntries with
    | .error err => (r, .error (.newBitfield err))
    | .ok newUsage =>
      let visited := order.filterMap fun key => (r.entries.lookup key).map (key, ·)
      match markEntries newMaxEntries newUsage visited with
      | .error err => (r, .error err)
      | .ok (newUsage, entriesToMove) =>
        match moveEntries writeOk (List.range newUsage.len) r.entries newUsage entriesToMove with
        | (entries, _, _, .error err) => ({ r with entries }, .error err)
        | (entries, newUsage, remaining, .ok ()) =>
          if !force ∧ remaining ≠ [] then ({ r with entries }, .error .entriesLeftToMove)
          else
            let entries := if force then remaining.foldl (fun m (key, _) => m.erase key) entries
              else entries
            ({ entries, usage := newUsage }, .ok ())

/-! ### Failed writes -/

theorem markEntries_outside (newMaxEntries : ℕ) (usage : Bitfield) :
    ∀ {visited : List (MapKey × Entry)},
      (∀ ke ∈ visited, ke.2.invalid = false → newMaxEntries < ke.2.value.staticIndex) →
      markEntries newMaxEntries usage visited = .ok (usage, visited.filter fun ke => !ke.2.invalid)
  | [], _ => rfl
  | (key, e) :: rest, outside => by
    have restOutside : ∀ ke ∈ rest, ke.2.invalid = false → newMaxEntries < ke.2.value.staticIndex :=
      fun ke member => outside ke (List.mem_cons_of_mem _ member)
    cases valid : e.invalid with
    | true => simp [markEntries, valid, markEntries_outside newMaxEntries usage restOutside]
    | false =>
      have beyond : newMaxEntries < e.value.staticIndex := outside (key, e) List.mem_cons_self valid
      have notInside : ¬ (0 < e.value.staticIndex ∧ e.value.staticIndex - 1 < newMaxEntries) := by
        omega
      simp [markEntries, valid, notInside, markEntries_outside newMaxEntries usage restOutside]
      rfl

/-- An existing entry revised by `Update` keeps the new revision in memory when saving it fails:
`Get` then answers with the value the call reported as not saved. -/
theorem update_existing_unsaved {r : Registry} {rv : SignedRegistryValue} {pubKey : SiaPublicKey}
    {e : Entry} (expiry : UInt64) (initialPos : ℕ)
    (present : r.entries.lookup (pubKey, rv.tweak) = some e) (valid : e.invalid = false)
    (small : rv.data.length ≤ registryDataSize) (signed : verify rv pubKey = true)
    (newer : e.value.revision < rv.revision) (failing : ∀ v, writeOk v = false) :
    r.update verify writeOk rv pubKey expiry initialPos =
      ({ r with entries := r.entries.insert (pubKey, rv.tweak) { e with value := { e.value with
          expiry := expiry, data := rv.data, revision := rv.revision, signature := rv.signature } } },
        .error .saveFailed) := by
  have notLower : ¬ rv.revision < e.value.revision := UInt64.not_lt.mpr (UInt64.le_of_lt newer)
  have notSame : rv.revision ≠ e.value.revision := (UInt64.ne_of_lt newer).symm
  simp [update, Entry.update, present, valid, signed, notLower, notSame, failing,
    Nat.not_lt.mpr small]

/-- A value `Update` creates and cannot save is taken out again: the map and the bitfield are as
they were before the call. -/
theorem update_new_unsaved {r : Registry} {rv : SignedRegistryValue} {pubKey : SiaPublicKey}
    (expiry : UInt64) (initialPos : ℕ) (absent : r.entries.lookup (pubKey, rv.tweak) = none)
    (small : rv.data.length ≤ registryDataSize) (signed : verify rv pubKey = true)
    (failing : ∀ v, writeOk v = false) :
    (r.update verify writeOk rv pubKey expiry initialPos).1 = r ∨
      ∃ err, r.update verify writeOk rv pubKey expiry initialPos = (r, .error (.newValue err)) := by
  cases picked : r.usage.setRandom initialPos with
  | error err =>
    right
    exact ⟨err, by simp [update, absent, signed, Nat.not_lt.mpr small, newValue, picked]; rfl⟩
  | ok chosen =>
    left
    obtain ⟨index, usage⟩ := chosen
    obtain ⟨free, inside, rfl⟩ := Bitfield.setRandom_eq_ok picked
    have notMem : (pubKey, rv.tweak) ∉ r.entries := Finmap.lookup_eq_none.mp absent
    have freed : (({ r.usage with bits := insert index r.usage.bits } : Bitfield).unset index) =
        .ok r.usage := by
      simp [Bitfield.unset, Nat.not_le.mpr inside, Finset.erase_insert free]
    simp [update, absent, signed, Nat.not_lt.mpr small, newValue, picked, Except.map, Entry.update,
      failing, managedDeleteFromMemory, freed, Except.toOption, Finmap.erase_insert_of_notMem _ notMem]

/-- When every entry `Truncate` visits lies beyond the new size, the first is given slot 1 and its
index is changed in memory before the save that fails. -/
theorem truncate_first_move_unsaved {r : Registry} {order rest : List MapKey} {key : MapKey}
    {e : Entry} {newMaxEntries : ℕ} (force : Bool) (visits : order = key :: rest)
    (present : r.entries.lookup key = some e) (valid : e.invalid = false)
    (outside : ∀ k ∈ order, ∀ e', r.entries.lookup k = some e' → e'.invalid = false →
      newMaxEntries < e'.value.staticIndex)
    (words : newMaxEntries % 64 = 0) (positive : 0 < newMaxEntries)
    (room : force = false → r.entries.keys.card ≤ newMaxEntries)
    (failing : ∀ v, writeOk v = false) :
    r.truncate writeOk order newMaxEntries force =
      ({ r with
          entries := r.entries.insert key { e with value := { e.value with staticIndex := 1 } } },
        .error .saveFailed) := by
  set visited := order.filterMap fun k => (r.entries.lookup k).map (k, ·) with visited_eq
  -- nothing stays: the new bitfield is empty and the visited entries are all to be moved
  have visitedOutside : ∀ ke ∈ visited, ke.2.invalid = false →
      newMaxEntries < ke.2.value.staticIndex := by
    rintro ⟨k, e'⟩ member
    obtain ⟨k', inOrder, found⟩ := List.mem_filterMap.mp member
    obtain ⟨e'', looked, same⟩ := Option.map_eq_some_iff.mp found
    cases same
    exact outside k inOrder e' looked
  have first : visited = (key, e) :: (rest.filterMap fun k => (r.entries.lookup k).map (k, ·)) := by
    simp [visited_eq, visits, present]
  have allowed : ¬ (!force ∧ newMaxEntries < r.entries.keys.card) := by
    cases force with
    | true => simp
    | false => simpa using room rfl
  have slots : (newMaxEntries / 64) * 64 = newMaxEntries := Nat.div_mul_cancel (Nat.dvd_of_mod_eq_zero words)
  obtain ⟨n, count⟩ : ∃ n, List.range ((⟨newMaxEntries / 64, ∅⟩ : Bitfield).len) = 0 :: n := by
    refine ⟨(List.range (newMaxEntries - 1)).map Nat.succ, ?_⟩
    rw [Bitfield.len, slots, ← Nat.sub_add_cancel positive, List.range_succ_eq_map]
    simp
  have firstWord : ¬ (0 / 64 ≥ newMaxEntries / 64) := by omega
  simp only [truncate, allowed, if_false, newBitfield, words, ne_eq, not_true_eq_false, ← visited_eq]
  rw [markEntries_outside newMaxEntries _ visitedOutside, first]
  simp [count, valid, moveEntries, Bitfield.isSet, Bitfield.set, firstWord, failing]

end Registry

/-! ### What a failed `Update` or `Truncate` leaves behind -/

open Registry

theorem registry_failed_writes_leave_changes :
    (∀ (verify : SignedRegistryValue → SiaPublicKey → Bool) (writeOk : Value → Bool)
        (r : Registry) (rv : SignedRegistryValue) (pubKey : SiaPublicKey) (expiry : UInt64)
        (initialPos : ℕ) (e : Entry),
      r.entries.lookup (pubKey, rv.tweak) = some e → e.invalid = false →
      rv.data.length ≤ registryDataSize → verify rv pubKey = true →
      e.value.revision < rv.revision → (∀ v, writeOk v = false) →
      (r.update verify writeOk rv pubKey expiry initialPos).2 = .error .saveFailed ∧
      (r.update verify writeOk rv pubKey expiry initialPos).1.get pubKey rv.tweak =
        some ⟨e.value.tweak, rv.data, rv.revision, rv.signature⟩ ∧
      (r.update verify writeOk rv pubKey expiry initialPos).1.get pubKey rv.tweak ≠
        r.get pubKey rv.tweak) ∧
    (∀ (writeOk : Value → Bool) (r : Registry) (order rest : List MapKey) (key : MapKey) (e : Entry)
        (newMaxEntries : ℕ) (force : Bool),
      order = key :: rest → r.entries.lookup key = some e → e.invalid = false →
      (∀ k ∈ order, ∀ e', r.entries.lookup k = some e' → e'.invalid = false →
        newMaxEntries < e'.value.staticIndex) →
      newMaxEntries % 64 = 0 → 0 < newMaxEntries →
      (force = false → r.entries.keys.card ≤ newMaxEntries) → (∀ v, writeOk v = false) →
      (r.truncate writeOk order newMaxEntries force).2 = .error .saveFailed ∧
      ∃ e', (r.truncate writeOk order newMaxEntries force).1.entries.lookup key = some e' ∧
        e'.value.staticIndex ≠ e.value.staticIndex) := by
  constructor
  · intro verify writeOk r rv pubKey expiry initialPos e present valid small signed newer failing
    rw [update_existing_unsaved verify writeOk expiry initialPos present valid small signed newer
      failing]
    refine ⟨rfl, by simp [Registry.get, Entry.signed], ?_⟩
    -- the revision `Get` answers with is the new one
    simp only [Registry.get, Finmap.lookup_insert, present, Option.map_some, ne_eq, Option.some.injEq,
      Entry.signed, SignedRegistryValue.mk.injEq, not_and]
    intro _ _ sameRevision
    exact absurd sameRevision (UInt64.ne_of_lt newer).symm
  · intro writeOk r order rest key e newMaxEntries force visits present valid outside words positive
      room failing
    rw [truncate_first_move_unsaved writeOk force visits present valid outside words positive room
      failing]
    refine ⟨rfl, _, Finmap.lookup_insert _, ?_⟩
    -- the entry lay beyond the new size, so not in slot 1
    have beyond := outside key (visits ▸ List.mem_cons_self) e present valid
    simp only [ne_eq]
    omega

/-- A registry of two words holding one value, of revision 1, in slot 100. -/
def sampleRegistry : Registry where
  entries := Finmap.singleton (⟨signatureEd25519, List.replicate 32 7⟩, Vector.replicate 32 0)
    ⟨⟨⟨signatureEd25519, List.replicate 32 7⟩, Vector.replicate 32 0, 100, 100, [1], 1,
      Vector.replicate 64 0⟩, false⟩
  usage := ⟨2, {99}⟩

theorem sampleRegistry_failed_writes :
    (sampleRegistry.update (fun _ _ => true) (fun _ => false)
        ⟨Vector.replicate 32 0, [2], 2, Vector.replicate 64 0⟩
        ⟨signatureEd25519, List.replicate 32 7⟩ 200 0).2 = .error .saveFailed ∧
      (sampleRegistry.truncate (fun _ => false)
        [(⟨signatureEd25519, List.replicate 32 7⟩, Vector.replicate 32 0)] 64 false).2 =
        .error .saveFailed := by
  have failures := registry_failed_writes_leave_changes
  refine ⟨(failures.1 (fun _ _ => true) (fun _ => false) sampleRegistry
    ⟨Vector.replicate 32 0, [2], 2, Vector.replicate 64 0⟩ ⟨signatureEd25519, List.replicate 32 7⟩
    200 0 _ Finmap.lookup_singleton_eq rfl (by decide) rfl (by decide) fun _ => rfl).1,
    (failures.2 (fun _ => false) sampleRegistry _ [] _ _ 64 false rfl Finmap.lookup_singleton_eq rfl
      ?_ (by decide) (by decide) (fun _ => by simp [sampleRegistry, Finmap.keys_singleton]) fun _ => rfl).1⟩
  simp only [List.mem_singleton, forall_eq, sampleRegistry, Finmap.lookup_singleton_eq,
    Option.some.injEq]
  rintro _ rfl _
  decide

end Sia.Host
