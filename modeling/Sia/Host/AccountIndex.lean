import Mathlib.Data.List.GetD
import Mathlib.Data.List.Nodup
import Sia.Lib.Bits

/-! The slots of the ephemeral accounts in `modules/host/accountmanager.go`: every open account
owns a slot of the accounts file, and `accountBitfield` marks the slots in use, one bit per slot
in words of 64. `openAccount` takes the first free slot, the pruning of expired accounts releases
theirs, and `newAccountManager` rebuilds the bitfield from the accounts loaded from disk with
`buildIndex`. -/
namespace Sia.Host

/-- `modules.AccountID`: the string form of the account's public key, empty for the zero
account. -/
structure AccountID where
  spk : String
  deriving DecidableEq, Repr

/-- `IsZeroAccount`. -/
def AccountID.isZeroAccount (aid : AccountID) : Bool := aid == ⟨""⟩

/-- `accountBitfield`. -/
structure AccountBitfield where
  words : List UInt64
  deriving DecidableEq, Repr

namespace AccountBitfield

/-- Whether slot `j` is marked: bit `j % 64` of word `j / 64`; the slots past the last word are
free. -/
def bit (ab : AccountBitfield) (j : ℕ) : Bool := (ab.words.getD (j / 64) 0).toNat.testBit (j % 64)

/-- `full` of `assignFreeIndex`. -/
def full : UInt64 := ~~~0

/-- The lowest free slot of a word: `bits.TrailingZeros` of its complement. -/
def firstFree (w : UInt64) : ℕ := Bits.trailingZeros 64 (~~~w).toNat

/-- `assignFreeIndex`: the lowest free slot of the first word that is not full is marked; when
every word is full a word with its first slot marked is appended. -/
def assignFreeIndex (ab : AccountBitfield) : AccountBitfield × UInt32 :=
  match ab.words.findIdx? (· != full) with
  | some i =>
    (⟨ab.words.modify i (· ||| 1 <<< UInt64.ofNat (firstFree (ab.words.getD i 0)))⟩,
      UInt32.ofNat (i * 64 + firstFree (ab.words.getD i 0)))
  -- the appended word is word `len(*ab) - 1` of the longer slice
  | none => (⟨ab.words ++ [1]⟩, UInt32.ofNat (ab.words.length * 64))

/-- `releaseIndex`; an index past the last word panics. -/
def releaseIndex (ab : AccountBitfield) (index : UInt32) : Option AccountBitfield :=
  if (index / 64).toNat < ab.words.length then
    some ⟨ab.words.modify (index / 64).toNat (· &&& ~~~(1 <<< (index % 64).toUInt64))⟩
  else none

/-- The first loop of `buildIndex`: the largest index, zero for no accounts. -/
def maxIndex (indices : List UInt32) : UInt32 :=
  indices.foldl (fun maxIndex index => if index > maxIndex then index else maxIndex) 0

/-- `buildIndex` over the accounts' indices in the map's iteration order: each account's word is
shifted left by the account's position in it. -/
def buildIndex (indices : List UInt32) : AccountBitfield :=
  -- `math.Floor(float64(maxIndex)/64)` is exact for a uint32
  ⟨indices.foldl (fun words index => words.modify (index / 64).toNat (· <<< (index % 64).toUInt64))
    (List.replicate ((maxIndex indices).toNat / 64 + 1) 0)⟩

/-! ### Reading a slot after a change -/

theorem getD_modify {words : List UInt64} {i : ℕ} (f : UInt64 → UInt64) (inside : i < words.length)
    (j : ℕ) : (words.modify i f).getD j 0 = if i = j then f (words.getD j 0) else words.getD j 0 := by
  rw [List.getD_eq_getElem?_getD, List.getElem?_modify, List.getD_eq_getElem?_getD]
  by_cases same : i = j
  · subst same
    simp [List.getElem?_eq_getElem inside]
  · cases words[j]? <;> simp [same]

theorem bit_past {ab : AccountBitfield} {j : ℕ} (past : ab.words.length * 64 ≤ j) :
    ab.bit j = false := by
  rw [bit, List.getD_eq_getElem?_getD, List.getElem?_eq_none (by omega)]
  simp

/-- Marking slot `off` of word `i`. -/
theorem bit_mark {ab : AccountBitfield} {i off : ℕ} (inside : i < ab.words.length) (small : off < 64)
    (k : ℕ) : (⟨ab.words.modify i (· ||| 1 <<< UInt64.ofNat off)⟩ : AccountBitfield).bit k =
      (ab.bit k || decide (k = i * 64 + off)) := by
  have offNat : (UInt64.ofNat off).toNat = off :=
    UInt64.toNat_ofNat_of_lt' (Nat.lt_trans small (by decide))
  simp only [bit]
  rw [getD_modify _ inside]
  by_cases word : i = k / 64
  · rw [if_pos word, Bits.testBit_or_shiftLeft _ (by omega), offNat]
    congr 1
    simp only [decide_eq_decide]
    omega
  · have other : k ≠ i * 64 + off := by omega
    rw [if_neg word]
    simp [other]

/-- Clearing slot `index`. -/
theorem bit_release {ab ab' : AccountBitfield} {index : UInt32} (released : ab.releaseIndex index = some ab')
    (k : ℕ) : ab'.bit k = (ab.bit k && decide (k ≠ index.toNat)) := by
  unfold releaseIndex at released
  split_ifs at released with inside
  cases released
  have pos : ((index % 64).toUInt64).toNat = index.toNat % 64 := by
    rw [UInt32.toNat_toUInt64, UInt32.toNat_mod]
    rfl
  have word : (index / 64).toNat = index.toNat / 64 := by
    rw [UInt32.toNat_div]
    rfl
  simp only [bit]
  rw [getD_modify _ inside]
  by_cases same : (index / 64).toNat = k / 64
  · rw [if_pos same, Bits.testBit_and_not_shiftLeft _ (by omega) (Nat.mod_lt _ (by decide)), pos]
    congr 1
    simp only [decide_eq_decide]
    omega
  · have other : k ≠ index.toNat := by omega
    rw [if_neg same]
    simp [other]

theorem bit_append_one (ab : AccountBitfield) (k : ℕ) :
    (⟨ab.words ++ [1]⟩ : AccountBitfield).bit k = (ab.bit k || decide (k = ab.words.length * 64)) := by
  simp only [bit, List.getD_eq_getElem?_getD, List.getElem?_append]
  by_cases old : k / 64 < ab.words.length
  · have other : k ≠ ab.words.length * 64 := by omega
    rw [if_pos old]
    simp [other]
  · have beyond : ab.words[k / 64]? = none := List.getElem?_eq_none (by omega)
    rw [if_neg old, beyond]
    by_cases last : k / 64 = ab.words.length
    · simp only [last, Nat.sub_self, List.getElem?_cons_zero, Option.getD_some, Option.getD_none,
        UInt64.toNat_one, UInt64.toNat_zero, Nat.zero_testBit, Bool.false_or]
      rw [Bool.eq_iff_iff, Nat.testBit_one_eq_true_iff_self_eq_zero, decide_eq_true_iff]
      omega
    · have other : k ≠ ab.words.length * 64 := by omega
      rw [List.getElem?_eq_none (by simp; omega)]
      simp [other]

/-! ### What each operation does to the slots -/

/-- `assignFreeIndex` marks a slot that was free, within the field or just past it, and returns
it. -/
theorem assignFreeIndex_spec (ab : AccountBitfield) : ∃ slot, slot ≤ ab.words.length * 64 ∧
    ab.assignFreeIndex.2 = UInt32.ofNat slot ∧ ab.bit slot = false ∧
      ∀ k, ab.assignFreeIndex.1.bit k = (ab.bit k || decide (k = slot)) := by
  unfold assignFreeIndex
  cases found : ab.words.findIdx? (· != full) with
  | none => exact ⟨_, le_refl _, rfl, bit_past (le_refl _), bit_append_one ab⟩
  | some i =>
    obtain ⟨inside, notFull, -⟩ := List.findIdx?_eq_some_iff_getElem.mp found
    have word : ab.words.getD i 0 = ab.words[i] := by
      rw [List.getD_eq_getElem?_getD, List.getElem?_eq_getElem inside, Option.getD_some]
    have notFull' : ab.words.getD i 0 ≠ ~~~0 := by
      rw [word]
      simpa [full] using notFull
    obtain ⟨small, clear, -⟩ := Bits.trailingZeros_not notFull'
    have small' : firstFree (ab.words.getD i 0) < 64 := small
    refine ⟨i * 64 + firstFree (ab.words.getD i 0), by omega, rfl, ?_, bit_mark inside small'⟩
    have slotWord : (i * 64 + firstFree (ab.words.getD i 0)) / 64 = i := by omega
    have slotBit : (i * 64 + firstFree (ab.words.getD i 0)) % 64 = firstFree (ab.words.getD i 0) := by
      omega
    rw [bit, slotWord, slotBit]
    exact clear

theorem length_assignFreeIndex (ab : AccountBitfield) :
    ab.assignFreeIndex.1.words.length ≤ ab.words.length + 1 := by
  unfold assignFreeIndex
  split <;> simp

theorem length_releaseIndex {ab ab' : AccountBitfield} {index : UInt32}
    (released : ab.releaseIndex index = some ab') : ab'.words.length = ab.words.length := by
  unfold releaseIndex at released
  split_ifs at released
  cases released
  exact List.length_modify _ _ _

/-- Releasing the slots of a list one after another, as the pruning loop does. -/
theorem foldlM_releaseIndex (indices : List UInt32) {ab ab' : AccountBitfield}
    (released : indices.foldlM releaseIndex ab = some ab') :
    ab'.words.length = ab.words.length ∧
      ∀ k, ab'.bit k = (ab.bit k && indices.all fun index => k ≠ index.toNat) := by
  induction indices generalizing ab with
  | nil =>
    cases released
    exact ⟨rfl, fun k => by simp⟩
  | cons index rest ih =>
    rw [List.foldlM_cons] at released
    obtain ⟨mid, first, others⟩ := Option.bind_eq_some_iff.mp released
    obtain ⟨sameLength, bits⟩ := ih others
    refine ⟨sameLength.trans (length_releaseIndex first), fun k => ?_⟩
    rw [bits, bit_release first, List.all_cons, Bool.and_assoc]

/-! ### The loaded field -/

theorem modify_replicate {α : Type} {a : α} {f : α → α} (fixed : f a = a) (n i : ℕ) :
    (List.replicate n a).modify i f = List.replicate n a := by
  apply List.ext_getElem?
  intro j
  rw [List.getElem?_modify, List.getElem?_replicate]
  split_ifs <;> simp [fixed]

/-- Shifting a zero word leaves it zero, so `buildIndex` returns the zero words it started from
whatever the accounts. -/
theorem buildIndex_eq (indices : List UInt32) :
    buildIndex indices = ⟨List.replicate ((maxIndex indices).toNat / 64 + 1) 0⟩ := by
  have shiftZero : ∀ s : UInt64, (0 : UInt64) <<< s = 0 := fun s => by simp
  have zeros : ∀ (rest : List UInt32) (n : ℕ),
      rest.foldl (fun words index => words.modify (index / 64).toNat
        (· <<< (index % 64).toUInt64)) (List.replicate n 0) = List.replicate n 0 := by
    intro rest n
    induction rest with
    | nil => rfl
    | cons index rest ih =>
      have fixed : (fun w : UInt64 => w <<< (index % 64).toUInt64) 0 = 0 := shiftZero _
      rw [List.foldl_cons, modify_replicate fixed, ih]
  rw [buildIndex, zeros]

theorem bit_buildIndex (indices : List UInt32) (j : ℕ) : (buildIndex indices).bit j = false := by
  rw [buildIndex_eq]
  simp only [bit, List.getD_eq_getElem?_getD, List.getElem?_replicate]
  split_ifs <;> simp

end AccountBitfield

/-- The accounts of `accountManager` with their slots, in the map's iteration order, and the
bitfield of the slots in use. -/
structure AccountSlots where
  accounts : List (AccountID × UInt32)
  accountBitfield : AccountBitfield

/-- `ErrZeroAccountID`. -/
def errZeroAccountID : String := "can't open an account with an empty account id"

namespace AccountSlots

/-- `openAccount`, returning the account's slot. -/
def openAccount (s : AccountSlots) (id : AccountID) : AccountSlots × Except String UInt32 :=
  if id.isZeroAccount then (s, .error errZeroAccountID)
  else
    match s.accounts.lookup id with
    | some index => (s, .ok index)
    | none =>
      (⟨s.accounts ++ [(id, s.accountBitfield.assignFreeIndex.2)],
        s.accountBitfield.assignFreeIndex.1⟩, .ok s.accountBitfield.assignFreeIndex.2)

/-- The slots `managedExpireAccounts` returns: those of the accounts that expired. -/
def expiredIndices (s : AccountSlots) (expired : AccountID → Bool) : List UInt32 :=
  (s.accounts.filter fun acc => expired acc.1).map (·.2)

/-- One pass of `threadedPruneExpiredAccounts`: the expired accounts leave the map, and the slots
that `callBatchDeleteAccount` reports deleted on disk are released one after another. -/
def pruneExpiredAccounts (s : AccountSlots) (expired : AccountID → Bool)
    (deletedOnDisk : UInt32 → Bool) : Option AccountSlots :=
  (((s.expiredIndices expired).filter deletedOnDisk).foldlM AccountBitfield.releaseIndex
    s.accountBitfield).map fun ab => ⟨s.accounts.filter fun acc => !expired acc.1, ab⟩

/-- The slots after `newAccountManager`: the accounts loaded from disk and the bitfield
`buildIndex` makes of their indices. -/
def loadAccounts (accounts : List (AccountID × UInt32)) : AccountSlots :=
  ⟨accounts, AccountBitfield.buildIndex (accounts.map (·.2))⟩

/-- The calls that change the slots. -/
inductive SlotEvent where
  | openAccount (id : AccountID)
  | prune (expired : AccountID → Bool) (deletedOnDisk : UInt32 → Bool)

def step (s : AccountSlots) : SlotEvent → Option AccountSlots
  | .openAccount id => some (s.openAccount id).1
  | .prune expired deletedOnDisk => s.pruneExpiredAccounts expired deletedOnDisk

def run (s : AccountSlots) (events : List SlotEvent) : Option AccountSlots := events.foldlM step s

/-! ### No two open accounts share a slot -/

/-- No two open accounts share a slot, and the slot of every open account is marked. -/
structure Indexed (s : AccountSlots) : Prop where
  distinct : (s.accounts.map (·.2)).Nodup
  marked : ∀ acc ∈ s.accounts, s.accountBitfield.bit acc.2.toNat = true

/-- While the field has fewer than `2^26` words every slot fits the uint32 index, and a new
account takes a slot no open account has. -/
theorem openAccount_indexed {s : AccountSlots} (indexed : s.Indexed)
    (fits : s.accountBitfield.words.length < 2 ^ 26) (id : AccountID) :
    (s.openAccount id).1.Indexed := by
  unfold openAccount
  split_ifs
  · exact indexed
  split
  · exact indexed
  obtain ⟨slot, within, returned, free, marks⟩ := s.accountBitfield.assignFreeIndex_spec
  have exact : (UInt32.ofNat slot).toNat = slot := UInt32.toNat_ofNat_of_lt' (by
    have : slot < 4294967296 := by omega
    exact this)
  rw [returned]
  constructor
  · rw [List.map_append, List.nodup_append]
    refine ⟨indexed.distinct, List.nodup_singleton _, ?_⟩
    intro index member newIndex isNew same
    obtain ⟨acc, inAccounts, rfl⟩ := List.mem_map.mp member
    rw [List.map_singleton, List.mem_singleton] at isNew
    have markedOld := indexed.marked acc inAccounts
    rw [same, isNew, exact, free] at markedOld
    cases markedOld
  · intro acc member
    rw [marks]
    rcases List.mem_append.mp member with old | new
    · simp [indexed.marked acc old]
    · rw [List.mem_singleton.mp new]
      simp [exact]

/-- A released slot belonged to an expired account, and no account left open shares it. -/
theorem pruneExpiredAccounts_indexed {s s' : AccountSlots} (indexed : s.Indexed)
    {expired : AccountID → Bool} {deletedOnDisk : UInt32 → Bool}
    (pruned : s.pruneExpiredAccounts expired deletedOnDisk = some s') :
    s'.Indexed ∧ s'.accountBitfield.words.length = s.accountBitfield.words.length := by
  obtain ⟨ab, released, rfl⟩ := Option.map_eq_some_iff.mp pruned
  obtain ⟨sameLength, bits⟩ := AccountBitfield.foldlM_releaseIndex _ released
  refine ⟨⟨(List.filter_sublist.map _).nodup indexed.distinct, ?_⟩, sameLength⟩
  intro acc member
  obtain ⟨inAccounts, live⟩ := List.mem_filter.mp member
  rw [bits, indexed.marked acc inAccounts, Bool.true_and, List.all_eq_true]
  intro index releasedIndex
  obtain ⟨other, otherExpired, rfl⟩ :=
    List.mem_map.mp (List.mem_filter.mp releasedIndex).1
  obtain ⟨otherIn, gone⟩ := List.mem_filter.mp otherExpired
  have differ : acc ≠ other := by
    rintro rfl
    simp [gone] at live
  have slots : acc.2 ≠ other.2 := fun same =>
    differ (List.inj_on_of_nodup_map indexed.distinct inAccounts otherIn same)
  simpa [UInt32.toNat_inj] using slots

theorem step_indexed {s s' : AccountSlots} (indexed : s.Indexed)
    (fits : s.accountBitfield.words.length < 2 ^ 26) {event : SlotEvent}
    (stepped : s.step event = some s') :
    s'.Indexed ∧ s'.accountBitfield.words.length ≤ s.accountBitfield.words.length + 1 := by
  cases event with
  | openAccount id =>
    cases stepped
    refine ⟨openAccount_indexed indexed fits id, ?_⟩
    unfold openAccount
    split_ifs
    · exact Nat.le_succ _
    split
    · exact Nat.le_succ _
    · exact s.accountBitfield.length_assignFreeIndex
  | prune expired deletedOnDisk =>
    obtain ⟨pruned, sameLength⟩ := pruneExpiredAccounts_indexed indexed stepped
    exact ⟨pruned, by omega⟩

/-- Every run from a state where the slots are distinct and marked keeps them so, as long as the
field stays below `2^26` words. -/
theorem run_indexed {s s' : AccountSlots} (indexed : s.Indexed) (events : List SlotEvent)
    (fits : s.accountBitfield.words.length + events.length ≤ 2 ^ 26)
    (ran : s.run events = some s') : s'.Indexed := by
  induction events generalizing s with
  | nil =>
    cases ran
    exact indexed
  | cons event rest ih =>
    rw [run, List.foldlM_cons] at ran
    obtain ⟨mid, stepped, others⟩ := Option.bind_eq_some_iff.mp ran
    obtain ⟨midIndexed, grown⟩ := step_indexed indexed (by simp at fits; omega) stepped
    exact ih midIndexed (by simp at fits; omega) others

/-! ### After a restart -/

/-- On zero words `assignFreeIndex` hands out slot 0. -/
theorem assignFreeIndex_zeros (n : ℕ) :
    (⟨List.replicate (n + 1) 0⟩ : AccountBitfield).assignFreeIndex.2 = 0 := by
  have firstWord : (List.replicate (n + 1) (0 : UInt64)).findIdx? (· != AccountBitfield.full) =
      some 0 := by
    rw [List.replicate_succ, List.findIdx?_cons]
    rfl
  have head : (List.replicate (n + 1) (0 : UInt64)).getD 0 0 = 0 := by
    rw [List.replicate_succ]
    rfl
  have lowest : AccountBitfield.firstFree 0 = 0 := by decide
  simp only [AccountBitfield.assignFreeIndex, firstWord, head, lowest]
  rfl

theorem restart_reuses_live_slot (accounts : List (AccountID × UInt32)) {a id : AccountID}
    (loaded : (a, 0) ∈ accounts) (named : id.isZeroAccount = false)
    (fresh : accounts.lookup id = none) :
    (∀ j, (loadAccounts accounts).accountBitfield.bit j = false) ∧
      ∃ s, (loadAccounts accounts).openAccount id = (s, .ok 0) ∧ a ≠ id ∧
        (a, 0) ∈ s.accounts ∧ (id, 0) ∈ s.accounts := by
  have assigned : (loadAccounts accounts).accountBitfield.assignFreeIndex.2 = 0 := by
    rw [loadAccounts, AccountBitfield.buildIndex_eq]
    exact assignFreeIndex_zeros _
  refine ⟨AccountBitfield.bit_buildIndex _, ⟨accounts ++ [(id, 0)],
    (loadAccounts accounts).accountBitfield.assignFreeIndex.1⟩, ?_, ?_, ?_, ?_⟩
  · rw [openAccount, if_neg (by simp [named])]
    simp only [loadAccounts, fresh] at assigned ⊢
    rw [assigned]
  · rintro rfl
    have differs := List.lookup_eq_none_iff.mp fresh (a, 0) loaded
    simp at differs
  · exact List.mem_append_left _ loaded
  · exact List.mem_append_right _ (List.mem_singleton_self _)

theorem sampleRestart_reuses_slot :
    (∀ j, (loadAccounts [(⟨"a"⟩, 0)]).accountBitfield.bit j = false) ∧
      ∃ s, (loadAccounts [(⟨"a"⟩, 0)]).openAccount ⟨"b"⟩ = (s, .ok 0) ∧
        (⟨"a"⟩ : AccountID) ≠ ⟨"b"⟩ ∧ ((⟨"a"⟩ : AccountID), (0 : UInt32)) ∈ s.accounts ∧
          ((⟨"b"⟩ : AccountID), (0 : UInt32)) ∈ s.accounts :=
  restart_reuses_live_slot _ (List.mem_singleton_self _) (by decide) (by decide)

end AccountSlots

end Sia.Host
