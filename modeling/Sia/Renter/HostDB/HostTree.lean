import Sia.Renter.HostDB.Node
import Mathlib.Data.List.AList
import Sia.Lib.OptionLoop
import Mathlib.Data.Multiset.MapFold

/-! `HostTree` (`modules/renter/hostdb/hosttree/hosttree.go`): the weighted tree and the map from
public keys to the nodes holding them. Every operation keeps the two in step: each host maps to
the taken node that holds it and every taken node is mapped to. `SelectRandom` takes hosts out of
the tree while it draws, so that none is drawn twice, and puts all of them back at the end. -/
namespace Sia.Renter.HostDB

open Node

inductive HostTreeError where
  | hostExists
  | noSuchHost
  deriving DecidableEq, Repr

/-- `HostTree`; the resolver, which only the address filter uses, and the mutex are left out. -/
structure HostTree (K A : Type) where
  root : Node K A
  hosts : AList (fun _ : K => Path)
  weightFn : HostDBEntry K A → Currency

/-- The address filter of `addressfilter.go`, as `SelectRandom` uses it: a filter state starting
at `new`, to which addresses are added and against which an address is tested. -/
structure AddressFilter (A Φ : Type) where
  new : Φ
  add : Φ → A → Φ
  filtered : Φ → A → Bool

namespace HostTree

variable {K A Φ : Type} [DecidableEq K]

/-- `New`. -/
def new (wf : HostDBEntry K A → Currency) : HostTree K A :=
  ⟨.node .nil .nil 1 false 0 none, ∅, wf⟩

/-- `ht.insert`. -/
def insert (ht : HostTree K A) (hdbe : HostDBEntry K A) :
    Option (HostTree K A × Option HostTreeError) :=
  let entry : HostEntry K A := ⟨hdbe, ht.weightFn hdbe⟩
  if hdbe.publicKey ∈ ht.hosts then some (ht, some .hostExists)
  else
    (ht.root.recursiveInsert entry true).map fun (_, path, root) =>
      ({ ht with root, hosts := ht.hosts.insert hdbe.publicKey path }, none)

/-- `Remove`. -/
def remove (ht : HostTree K A) (pk : K) : Option (HostTree K A × Option HostTreeError) :=
  match ht.hosts.lookup pk with
  | none => some (ht, some .noSuchHost)
  | some path =>
    (ht.root.remove path).map fun root => ({ ht with root, hosts := ht.hosts.erase pk }, none)

/-- `Modify`: the host's node is cleared and the new entry inserted wherever `recursiveInsert`
puts it. -/
def modify (ht : HostTree K A) (hdbe : HostDBEntry K A) :
    Option (HostTree K A × Option HostTreeError) :=
  match ht.hosts.lookup hdbe.publicKey with
  | none => some (ht, some .noSuchHost)
  | some path => do
    let root ← ht.root.remove path
    let entry : HostEntry K A := ⟨hdbe, ht.weightFn hdbe⟩
    let (_, path, root) ← root.recursiveInsert entry true
    return ({ ht with root, hosts := ht.hosts.insert hdbe.publicKey path }, none)

/-- `ht.all()`: the entry of every host in the map, sorted by weight. Go leaves the order of a map
unspecified; the model takes the map's own order. -/
def all (ht : HostTree K A) : Option (List (HostDBEntry K A)) :=
  (ht.hosts.entries.mapM fun host => ht.root.entryAt host.2).map fun entries =>
    (entries.mergeSort fun a b => decide (a.weight ≤ b.weight)).map HostEntry.hostDBEntry

/-- `SetWeightFunction`: a new tree with the new weight function, into which every host is
inserted again; the errors of the insertions are composed, the latest first. -/
def setWeightFunction (ht : HostTree K A) (wf : HostDBEntry K A → Currency) :
    Option (HostTree K A × List HostTreeError) := do
  let allHosts ← ht.all
  allHosts.foldlM (fun (ht, errs) hdbe =>
    (ht.insert hdbe).map fun (ht, err) => (ht, err.toList ++ errs)) (new wf, [])

/-! ### `SelectRandom` -/

/-- The addresses of the hosts of `addressBlacklist` that are in the tree, added to the filter. -/
def filterAddresses (ht : HostTree K A) (f : AddressFilter A Φ) (filter : Φ) :
    List K → Option Φ
  | [] => some filter
  | pk :: rest =>
    match ht.hosts.lookup pk with
    | none => ht.filterAddresses f filter rest
    | some path => do
      let entry ← ht.root.entryAt path
      ht.filterAddresses f (f.add filter entry.hostDBEntry.netAddress) rest

/-- The hosts of `blacklist` that are in the tree, taken out of it and remembered in
`removedEntries`. -/
def removeBlacklisted (ht : HostTree K A) (removedEntries : List (HostEntry K A)) :
    List K → Option (HostTree K A × List (HostEntry K A))
  | [] => some (ht, removedEntries)
  | pk :: rest =>
    match ht.hosts.lookup pk with
    | none => ht.removeBlacklisted removedEntries rest
    | some path => do
      let entry ← ht.root.entryAt path
      let root ← ht.root.remove path
      removeBlacklisted { ht with root, hosts := ht.hosts.erase pk } (removedEntries ++ [entry]) rest

/-- The variables of `SelectRandom`'s loop. -/
structure Selecting (K A Φ : Type) where
  tree : HostTree K A
  filter : Φ
  hosts : List (HostDBEntry K A)
  removedEntries : List (HostEntry K A)

/-- Whether the host is returned: it accepts contracts, its last scan succeeded, its address is
not filtered, and its weight is above 1. -/
def usable (f : AddressFilter A Φ) (filter : Φ) (entry : HostEntry K A) : Bool :=
  entry.hostDBEntry.acceptingContracts && entry.hostDBEntry.scanHistory.getLast? == some true &&
    !f.filtered filter entry.hostDBEntry.netAddress && decide (entry.weight > 1)

/-- One iteration of the loop. `draw` stands for the value of `fastrand.BigIntn`, taken below the
root's weight; `BigIntn` panics on a bound of zero. -/
def selectStep (f : AddressFilter A Φ) (draw : ℕ) (s : Selecting K A Φ) :
    Option (Selecting K A Φ) := do
  let total := s.tree.root.weight
  if total = 0 then none
  else
    let path ← s.tree.root.nodeAtWeight (draw % total)
    let entry ← s.tree.root.entryAt path
    let (hosts, filter) :=
      if usable f s.filter entry then
        (s.hosts ++ [entry.hostDBEntry], f.add s.filter entry.hostDBEntry.netAddress)
      else (s.hosts, s.filter)
    let root ← s.tree.root.remove path
    return ⟨{ s.tree with root, hosts := s.tree.hosts.erase entry.hostDBEntry.publicKey }, filter,
      hosts, s.removedEntries ++ [entry]⟩

/-- The loop `for len(hosts) < n && len(ht.hosts) > 0`, the `i`-th iteration drawing `draws i`.
Every iteration takes a host out of the map, so `fuel` bounds the number of iterations and
running out of it stands for a loop that does not end. -/
def selectLoop (f : AddressFilter A Φ) (n : ℤ) :
    ℕ → (ℕ → ℕ) → Selecting K A Φ → Option (Selecting K A Φ)
  | fuel, draws, s =>
    if (s.hosts.length : ℤ) < n ∧ s.tree.hosts.keys.length > 0 then
      match fuel with
      | 0 => none
      | fuel + 1 => (selectStep f (draws 0) s).bind (selectLoop f n fuel fun i => draws (i + 1))
    else some s

/-- The removed entries inserted again at the end of `SelectRandom`. -/
def reinsert (ht : HostTree K A) : List (HostEntry K A) → Option (HostTree K A)
  | [] => some ht
  | entry :: rest => do
    let (_, path, root) ← ht.root.recursiveInsert entry true
    reinsert { ht with root, hosts := ht.hosts.insert entry.hostDBEntry.publicKey path } rest

/-- `SelectRandom(n, blacklist, addressBlacklist)`, the `i`-th draw being `draws i`: the tree after
the call and the hosts returned. -/
def selectRandom (ht : HostTree K A) (f : AddressFilter A Φ) (n : ℤ)
    (blacklist addressBlacklist : List K) (draws : ℕ → ℕ) :
    Option (HostTree K A × List (HostDBEntry K A)) := do
  let filter ← ht.filterAddresses f f.new addressBlacklist
  let (ht, removedEntries) ← ht.removeBlacklisted [] blacklist
  let s ← selectLoop f n ht.hosts.keys.length draws ⟨ht, filter, [], removedEntries⟩
  let ht ← s.tree.reinsert s.removedEntries
  return (ht, s.hosts)

/-! ## The invariant -/

/-- The tree keeps `Sums`, every host maps to the taken node holding it, every taken node is
mapped to, and every entry weighs what the weight function gives it. Distinct hosts map to
distinct nodes, since a node holds one host. -/
structure Valid (ht : HostTree K A) : Prop where
  notNil : ht.root ≠ .nil
  sums : ht.root.Sums
  hosts_taken : ∀ pk path, ht.hosts.lookup pk = some path →
    ∃ e, ht.root.takenAt path = some e ∧ e.hostDBEntry.publicKey = pk
  taken_hosts : ∀ path e, ht.root.takenAt path = some e →
    ht.hosts.lookup e.hostDBEntry.publicKey = some path
  weights : ∀ path e, ht.root.takenAt path = some e → e.weight = ht.weightFn e.hostDBEntry

theorem valid_new (wf : HostDBEntry K A → Currency) : (new wf : HostTree K A).Valid where
  notNil := by simp [new]
  sums := by simp [new, Sums]
  hosts_taken := by simp [new, AList.lookup_empty]
  taken_hosts := by
    rintro (_ | ⟨(_ | _), _⟩) e held <;> simp [new, takenAt] at held
  weights := by
    rintro (_ | ⟨(_ | _), _⟩) e held <;> simp [new, takenAt] at held

/-- The invariant reads the map only through its lookups. -/
theorem Valid.of_lookup_eq {ht : HostTree K A} (valid : ht.Valid) (hosts : AList (fun _ : K => Path)) (same : ∀ pk, hosts.lookup pk = ht.hosts.lookup pk) :
    ({ ht with hosts } : HostTree K A).Valid where
  notNil := valid.notNil
  sums := valid.sums
  hosts_taken pk path found := valid.hosts_taken pk path ((same pk).symm.trans found)
  taken_hosts path e held := (same _).trans (valid.taken_hosts path e held)
  weights := valid.weights

variable {ht : HostTree K A} {e : HostEntry K A} {root : Node K A} {path : Path}

/-- Placing a host that is not in the map and mapping it to its node keeps the invariant. -/
theorem Valid.place {added : ℕ} (valid : ht.Valid) (absent : e.hostDBEntry.publicKey ∉ ht.hosts)
    (placed : Placed e ht.root root path added) (weighed : e.weight = ht.weightFn e.hostDBEntry) :
    ({ ht with root, hosts := ht.hosts.insert e.hostDBEntry.publicKey path } : HostTree K A).Valid
    where
  notNil := placed.notNil
  sums := placed.sums
  hosts_taken := by
    intro pk q found
    by_cases same : pk = e.hostDBEntry.publicKey
    · subst same
      rw [AList.lookup_insert, Option.some.injEq] at found
      subst found
      exact ⟨e, placed.placed, rfl⟩
    · rw [AList.lookup_insert_ne same] at found
      obtain ⟨e', held, key⟩ := valid.hosts_taken pk q found
      exact ⟨e', (placed.frame q (placed.ne_of_takenAt held)).trans held, key⟩
  taken_hosts := by
    intro q e' held
    by_cases same : q = path
    · subst same
      rw [placed.placed, Option.some.injEq] at held
      subst held
      exact AList.lookup_insert _
    · rw [placed.frame q same] at held
      have known := valid.taken_hosts q e' held
      have other : e'.hostDBEntry.publicKey ≠ e.hostDBEntry.publicKey := by
        intro sameKey
        exact absent (sameKey ▸ AList.lookup_isSome.mp (by rw [known]; rfl))
      rw [AList.lookup_insert_ne other, known]
  weights := by
    intro q e' held
    by_cases same : q = path
    · subst same
      rw [placed.placed, Option.some.injEq] at held
      subst held
      exact weighed
    · rw [placed.frame q same] at held
      exact valid.weights q e' held

/-- Taking out the host held at `path` and deleting it from the map keeps the invariant. -/
theorem Valid.takeOut (valid : ht.Valid) (held : ht.root.takenAt path = some e)
    (removed : Removed e ht.root root path) :
    ({ ht with root, hosts := ht.hosts.erase e.hostDBEntry.publicKey } : HostTree K A).Valid where
  notNil := removed.notNil
  sums := removed.sums
  hosts_taken := by
    intro pk q found
    have other : pk ≠ e.hostDBEntry.publicKey := by
      rintro rfl
      rw [AList.lookup_erase] at found
      contradiction
    rw [AList.lookup_erase_ne other] at found
    obtain ⟨e', held', key⟩ := valid.hosts_taken pk q found
    have elsewhere : q ≠ path := by
      rintro rfl
      rw [held, Option.some.injEq] at held'
      exact other (by rw [← key, held'])
    exact ⟨e', (removed.frame q elsewhere).trans held', key⟩
  taken_hosts := by
    intro q e' held'
    have elsewhere := removed.ne_of_takenAt held'
    rw [removed.frame q elsewhere] at held'
    have known := valid.taken_hosts q e' held'
    have other : e'.hostDBEntry.publicKey ≠ e.hostDBEntry.publicKey := by
      intro sameKey
      have home := valid.taken_hosts path e held
      rw [← sameKey, known, Option.some.injEq] at home
      exact elsewhere home
    rw [AList.lookup_erase_ne other, known]
  weights := by
    intro q e' held'
    rw [removed.frame q (removed.ne_of_takenAt held')] at held'
    exact valid.weights q e' held'

/-- A host in the map is held by its node, which `remove` clears. -/
theorem Valid.remove_host {pk : K} (valid : ht.Valid) (found : ht.hosts.lookup pk = some path) :
    ∃ e root, ht.root.takenAt path = some e ∧ e.hostDBEntry.publicKey = pk ∧
      ht.root.remove path = some root ∧ Removed e ht.root root path := by
  obtain ⟨e, held, key⟩ := valid.hosts_taken pk path found
  obtain ⟨root, run, removed⟩ := remove_removed valid.sums held
  exact ⟨e, root, held, key, run, removed⟩

/-! ## The operations keep the invariant -/

theorem insert_valid (valid : ht.Valid) (hdbe : HostDBEntry K A) :
    ∃ ht' err, ht.insert hdbe = some (ht', err) ∧ ht'.Valid ∧ ht'.weightFn = ht.weightFn := by
  unfold insert
  split
  · exact ⟨ht, _, rfl, valid, rfl⟩
  · next absent =>
    obtain ⟨added, path, root, run, placed⟩ :=
      recursiveInsert_placed ⟨hdbe, ht.weightFn hdbe⟩ ht.root true valid.sums valid.notNil
    dsimp only
    rw [run]
    exact ⟨_, _, rfl, Valid.place valid absent placed rfl, rfl⟩

theorem remove_valid (valid : ht.Valid) (pk : K) :
    ∃ ht' err, ht.remove pk = some (ht', err) ∧ ht'.Valid ∧ ht'.weightFn = ht.weightFn := by
  unfold remove
  split
  · exact ⟨ht, _, rfl, valid, rfl⟩
  · next path found =>
    obtain ⟨e, root, held, key, run, removed⟩ := valid.remove_host found
    rw [run]
    subst key
    exact ⟨_, _, rfl, Valid.takeOut valid held removed, rfl⟩

theorem modify_valid (valid : ht.Valid) (hdbe : HostDBEntry K A) :
    ∃ ht' err, ht.modify hdbe = some (ht', err) ∧ ht'.Valid ∧ ht'.weightFn = ht.weightFn := by
  unfold modify
  split
  · exact ⟨ht, _, rfl, valid, rfl⟩
  · next path found =>
    obtain ⟨e, root, held, key, run, removed⟩ := valid.remove_host found
    have cleared := Valid.takeOut valid held removed
    rw [key] at cleared
    obtain ⟨added, path', root', run', placed⟩ :=
      recursiveInsert_placed ⟨hdbe, ht.weightFn hdbe⟩ root true removed.sums removed.notNil
    have absent : hdbe.publicKey ∉ ht.hosts.erase hdbe.publicKey := by simp [AList.mem_erase]
    have replaced := Valid.place cleared absent placed rfl
    -- Mapping the host again after deleting it is the same as mapping it over its old node.
    have remapped := Valid.of_lookup_eq replaced (ht.hosts.insert hdbe.publicKey path') fun pk => by
      by_cases same : pk = hdbe.publicKey
      · subst same
        rw [AList.lookup_insert, AList.lookup_insert]
      · rw [AList.lookup_insert_ne same, AList.lookup_insert_ne same, AList.lookup_erase_ne same]
    simp only [run, run', Option.bind_eq_bind, Option.bind_some]
    exact ⟨_, _, rfl, remapped, rfl⟩

/-- `all` reads the entry of every host in the map. -/
theorem all_isSome (valid : ht.Valid) : ∃ hosts, ht.all = some hosts := by
  have entries : (ht.hosts.entries.mapM fun host => ht.root.entryAt host.2) ≠ none := by
    rw [Ne, OptionLoop.mapM_eq_none_iff]
    rintro ⟨⟨pk, path⟩, member, missing⟩
    obtain ⟨e, held, -⟩ := valid.hosts_taken pk path (AList.mem_lookup_iff.mpr member)
    rw [entryAt_of_takenAt path ht.root held] at missing
    contradiction
  obtain ⟨read, found⟩ := Option.ne_none_iff_exists'.mp entries
  exact ⟨_, by rw [all, found]; rfl⟩

/-- Inserting hosts one after another, as `SetWeightFunction` does, keeps the invariant. -/
theorem foldlM_insert_valid (wf : HostDBEntry K A → Currency) :
    ∀ (hosts : List (HostDBEntry K A)) (ht : HostTree K A) (errs : List HostTreeError),
      ht.Valid → ht.weightFn = wf →
      ∃ ht' errs', hosts.foldlM (fun (ht, errs) hdbe =>
          (ht.insert hdbe).map fun (ht, err) => (ht, err.toList ++ errs)) (ht, errs) =
        some (ht', errs') ∧ ht'.Valid ∧ ht'.weightFn = wf
  | [], ht, errs, valid, weighed => ⟨ht, errs, rfl, valid, weighed⟩
  | hdbe :: rest, ht, errs, valid, weighed => by
    obtain ⟨ht₁, err, run, valid₁, weighed₁⟩ := insert_valid valid hdbe
    obtain ⟨ht', errs', runRest, valid', weighed'⟩ :=
      foldlM_insert_valid wf rest ht₁ (err.toList ++ errs) valid₁ (weighed₁.trans weighed)
    refine ⟨ht', errs', ?_, valid', weighed'⟩
    simp only [List.foldlM_cons, run, Option.map_some, Option.bind_eq_bind, Option.bind_some]
    exact runRest

theorem setWeightFunction_valid (valid : ht.Valid) (wf : HostDBEntry K A → Currency) :
    ∃ ht' errs, ht.setWeightFunction wf = some (ht', errs) ∧ ht'.Valid ∧ ht'.weightFn = wf := by
  obtain ⟨hosts, found⟩ := all_isSome valid
  obtain ⟨ht', errs, run, valid', weighed⟩ :=
    foldlM_insert_valid wf hosts (new wf) [] (valid_new wf) rfl
  refine ⟨ht', errs, ?_, valid', weighed⟩
  simp only [setWeightFunction, found, Option.bind_eq_bind, Option.bind_some]
  exact run

/-! ## `SelectRandom` -/

theorem filterAddresses_isSome (valid : ht.Valid) (f : AddressFilter A Φ) :
    ∀ (addressBlacklist : List K) (filter : Φ), ∃ filter', ht.filterAddresses f filter addressBlacklist = some filter'
  | [], filter => ⟨filter, rfl⟩
  | pk :: rest, filter => by
    unfold filterAddresses
    split
    · exact filterAddresses_isSome valid f rest filter
    · next path found =>
      obtain ⟨e, held, -⟩ := valid.hosts_taken pk path found
      rw [entryAt_of_takenAt path ht.root held]
      exact filterAddresses_isSome valid f rest _

namespace Selecting

/-- What the loops of `SelectRandom` keep, for a call on a tree with the entries `entries₀` and the
weight function `wf`: the tree keeps the invariant, its entries and the removed ones make up
`entries₀`, the removed hosts are out of the map, with their weights and without repeats, and the
hosts chosen are among the removed ones. -/
structure Inv (wf : HostDBEntry K A → Currency) (entries₀ : Multiset (HostEntry K A))
    (s : Selecting K A Φ) : Prop where
  valid : s.tree.Valid
  weightFn_eq : s.tree.weightFn = wf
  entries_eq : s.tree.root.entries + (s.removedEntries : Multiset (HostEntry K A)) = entries₀
  removed_out : ∀ e ∈ s.removedEntries, e.hostDBEntry.publicKey ∉ s.tree.hosts
  removed_weights : ∀ e ∈ s.removedEntries, e.weight = wf e.hostDBEntry
  removed_nodup : (s.removedEntries.map fun e => e.hostDBEntry.publicKey).Nodup
  selected : s.hosts.Sublist (s.removedEntries.map HostEntry.hostDBEntry)

variable {wf : HostDBEntry K A → Currency} {entries₀ : Multiset (HostEntry K A)}
  {s : Selecting K A Φ}

theorem inv_start (valid : ht.Valid) (filter : Φ) :
    (⟨ht, filter, [], []⟩ : Selecting K A Φ).Inv ht.weightFn ht.root.entries where
  valid := valid
  weightFn_eq := rfl
  entries_eq := by simp
  removed_out := by simp
  removed_weights := by simp
  removed_nodup := by simp
  selected := by simp

/-- Taking a host out of the tree into `removedEntries` keeps the invariant, whether or not it is
also chosen. -/
theorem Inv.takeOut (inv : s.Inv wf entries₀) (held : s.tree.root.takenAt path = some e)
    (removed : Removed e s.tree.root root path) (hosts : List (HostDBEntry K A))
    (selected : hosts.Sublist ((s.removedEntries ++ [e]).map HostEntry.hostDBEntry)) (filter : Φ) :
    (⟨{ s.tree with root, hosts := s.tree.hosts.erase e.hostDBEntry.publicKey }, filter, hosts,
      s.removedEntries ++ [e]⟩ : Selecting K A Φ).Inv wf entries₀ where
  valid := Valid.takeOut inv.valid held removed
  weightFn_eq := inv.weightFn_eq
  entries_eq := by
    have rotated : ((s.removedEntries ++ [e] : List (HostEntry K A)) : Multiset (HostEntry K A)) =
        e ::ₘ s.removedEntries := by
      rw [Multiset.cons_coe]
      exact Multiset.coe_eq_coe.mpr (List.perm_append_singleton _ _)
    dsimp only
    rw [rotated, Multiset.add_cons, ← inv.entries_eq, removed.entries_eq, Multiset.cons_add]
  removed_out := by
    intro e' member
    rw [AList.mem_erase, not_and_or, not_not]
    rcases List.mem_append.mp member with earlier | last
    · exact Or.inr (inv.removed_out e' earlier)
    · rw [List.mem_singleton] at last
      exact Or.inl (by rw [last])
  removed_weights := by
    intro e' member
    rcases List.mem_append.mp member with earlier | last
    · exact inv.removed_weights e' earlier
    · rw [List.mem_singleton] at last
      subst last
      rw [← inv.weightFn_eq]
      exact inv.valid.weights path e' held
  removed_nodup := by
    have mapped : e.hostDBEntry.publicKey ∈ s.tree.hosts :=
      AList.lookup_isSome.mp (by rw [inv.valid.taken_hosts path e held]; rfl)
    rw [List.map_append, List.nodup_append]
    refine ⟨inv.removed_nodup, List.nodup_singleton _, ?_⟩
    intro a earlier b last same
    rw [List.map_singleton, List.mem_singleton] at last
    obtain ⟨e', member, rfl⟩ := List.mem_map.mp earlier
    subst last
    exact inv.removed_out e' member (same ▸ mapped)
  selected := selected

/-- Taking the hosts of `blacklist` out of the tree keeps the invariant and leaves none of them in
the map. -/
theorem removeBlacklisted_spec (filter : Φ) :
    ∀ (blacklist : List K) (ht : HostTree K A) (removedEntries : List (HostEntry K A)),
      (⟨ht, filter, [], removedEntries⟩ : Selecting K A Φ).Inv wf entries₀ →
      ∃ ht' removed', ht.removeBlacklisted removedEntries blacklist = some (ht', removed') ∧
        (⟨ht', filter, [], removed'⟩ : Selecting K A Φ).Inv wf entries₀ ∧
        (∀ pk ∈ blacklist, pk ∉ ht'.hosts) ∧ ∀ pk ∈ ht'.hosts, pk ∈ ht.hosts
  | [], ht, removedEntries, inv => ⟨ht, removedEntries, rfl, inv, by simp, fun _ => id⟩
  | pk :: rest, ht, removedEntries, inv => by
    unfold removeBlacklisted
    split
    · next absent =>
      obtain ⟨ht', removed', run, inv', cleared, shrunk⟩ :=
        removeBlacklisted_spec filter rest ht removedEntries inv
      refine ⟨ht', removed', run, inv', ?_, shrunk⟩
      intro pk' member
      rcases List.mem_cons.mp member with same | later
      · subst same
        exact fun present => AList.lookup_eq_none.mp absent (shrunk _ present)
      · exact cleared pk' later
    · next path found =>
      obtain ⟨e, root, held, key, run, removed⟩ := inv.valid.remove_host found
      have inv₁ := Inv.takeOut inv held removed [] (List.nil_sublist _) filter
      subst key
      obtain ⟨ht', removed', run', inv', cleared, shrunk⟩ :=
        removeBlacklisted_spec filter rest _ _ inv₁
      refine ⟨ht', removed', ?_, inv', ?_, ?_⟩
      · simp only [entryAt_of_takenAt path ht.root held, run, Option.bind_eq_bind, Option.bind_some]
        exact run'
      · intro pk' member
        rcases List.mem_cons.mp member with same | later
        · subst same
          intro present
          exact (AList.mem_erase.mp (shrunk _ present)).1 rfl
        · exact cleared pk' later
      · intro pk' present
        exact (AList.mem_erase.mp (shrunk pk' present)).2

/-- What the selection loop keeps besides `Inv`: no host chosen is blacklisted, and no blacklisted
host is in the map. -/
def Unlisted (blacklist : List K) (s : Selecting K A Φ) : Prop :=
  (∀ h ∈ s.hosts, h.publicKey ∉ blacklist) ∧ ∀ pk ∈ blacklist, pk ∉ s.tree.hosts

/-- A tree whose weights are positive and that holds a host has a positive weight. -/
theorem weight_pos (scores : ∀ d, 0 < wf d) (inv : s.Inv wf entries₀)
    (nonempty : s.tree.hosts.keys.length > 0) : 0 < s.tree.root.weight := by
  obtain ⟨pk, mapped⟩ := List.exists_mem_of_length_pos nonempty
  obtain ⟨path, found⟩ := Option.isSome_iff_exists.mp (AList.lookup_isSome.mpr mapped)
  obtain ⟨e, held, -⟩ := inv.valid.hosts_taken pk path found
  have heavy := weight_le_of_takenAt inv.valid.sums held
  have weighed := inv.valid.weights path e held
  rw [inv.weightFn_eq] at weighed
  have positive := scores e.hostDBEntry
  unfold Currency at *
  omega

/-- One iteration on a tree of positive weight draws a host held by the tree and takes it out of
the map. -/
theorem selectStep_spec (f : AddressFilter A Φ) (draw : ℕ) {blacklist : List K}
    (positive : 0 < s.tree.root.weight) (inv : s.Inv wf entries₀) (unlisted : Unlisted blacklist s) :
    ∃ s', selectStep f draw s = some s' ∧ s'.Inv wf entries₀ ∧ Unlisted blacklist s' ∧
      s'.tree.hosts.keys.length + 1 = s.tree.hosts.keys.length := by
  obtain ⟨path, e, found, held⟩ := nodeAtWeight_taken s.tree.root (draw % s.tree.root.weight)
    inv.valid.sums (Nat.mod_lt _ positive)
  obtain ⟨root, run, removed⟩ := remove_removed inv.valid.sums held
  have mapped : e.hostDBEntry.publicKey ∈ s.tree.hosts :=
    AList.lookup_isSome.mp (by rw [inv.valid.taken_hosts path e held]; rfl)
  -- The host is returned or not; either way it joins `removedEntries`.
  let chosen := if usable f s.filter e then
    (s.hosts ++ [e.hostDBEntry], f.add s.filter e.hostDBEntry.netAddress) else (s.hosts, s.filter)
  have selected : chosen.1.Sublist ((s.removedEntries ++ [e]).map HostEntry.hostDBEntry) := by
    rw [List.map_append, List.map_singleton]
    by_cases use : usable f s.filter e
    · simpa [chosen, use] using inv.selected
    · simpa [chosen, use] using inv.selected.trans (List.sublist_append_left _ _)
  refine ⟨_, ?_, Inv.takeOut inv held removed chosen.1 selected chosen.2, ⟨?_, ?_⟩, ?_⟩
  · simp only [selectStep, Nat.pos_iff_ne_zero.mp positive, if_false, found,
      entryAt_of_takenAt path _ held, run, Option.bind_eq_bind, Option.bind_some]
    rfl
  · intro h member
    by_cases use : usable f s.filter e
    · simp only [chosen, use, if_true, List.mem_append, List.mem_singleton] at member
      rcases member with earlier | rfl
      · exact unlisted.1 h earlier
      · exact fun listed => unlisted.2 _ listed mapped
    · simp only [chosen, use] at member
      exact unlisted.1 h member
  · intro pk listed present
    exact unlisted.2 pk listed (AList.mem_erase.mp present).2
  · simp only [AList.keys_erase]
    rw [List.length_erase_of_mem (AList.mem_keys.mp mapped)]
    exact Nat.sub_add_cancel (List.length_pos_of_mem (AList.mem_keys.mp mapped))

/-- The loop ends, with enough fuel for one iteration per host, and keeps the invariant. -/
theorem selectLoop_spec (f : AddressFilter A Φ) (n : ℤ) {blacklist : List K}
    (scores : ∀ d, 0 < wf d) :
    ∀ (fuel : ℕ) (draws : ℕ → ℕ) (s : Selecting K A Φ), s.Inv wf entries₀ →
      Unlisted blacklist s → s.tree.hosts.keys.length ≤ fuel →
      ∃ s', selectLoop f n fuel draws s = some s' ∧ s'.Inv wf entries₀ ∧ Unlisted blacklist s'
  | fuel, draws, s, inv, unlisted, enough => by
    unfold selectLoop
    split
    · next continues =>
      cases fuel with
      | zero => exact absurd continues.2 (by omega)
      | succ fuel =>
        obtain ⟨s₁, step, inv₁, unlisted₁, shrunk⟩ :=
          selectStep_spec f (draws 0) (weight_pos scores inv continues.2) inv unlisted
        obtain ⟨s', loop, inv', unlisted'⟩ :=
          selectLoop_spec f n scores fuel (fun i => draws (i + 1)) s₁ inv₁ unlisted₁ (by omega)
        refine ⟨s', ?_, inv', unlisted'⟩
        rw [step]
        exact loop
    · exact ⟨s, rfl, inv, unlisted⟩

/-- An iteration that returns drew below a positive weight, so it keeps the invariant whatever
the weights. -/
theorem Inv.selectStep {f : AddressFilter A Φ} {draw : ℕ} {s' : Selecting K A Φ}
    (inv : s.Inv wf entries₀) (stepped : selectStep f draw s = some s') : s'.Inv wf entries₀ := by
  by_cases empty : s.tree.root.weight = 0
  · simp only [HostTree.selectStep, empty, if_true, reduceCtorEq] at stepped
  · -- with nothing blacklisted the loop's side condition holds trivially
    have unlisted : Unlisted ([] : List K) s := ⟨by simp, by simp⟩
    obtain ⟨s'', run, inv', -⟩ := selectStep_spec f draw (Nat.pos_of_ne_zero empty) inv unlisted
    rw [run, Option.some.injEq] at stepped
    exact stepped ▸ inv'

/-- A loop that returns keeps the invariant. -/
theorem Inv.selectLoop {f : AddressFilter A Φ} {n : ℤ} {s' : Selecting K A Φ} :
    ∀ (fuel : ℕ) (draws : ℕ → ℕ) (s : Selecting K A Φ), s.Inv wf entries₀ →
      HostTree.selectLoop f n fuel draws s = some s' → s'.Inv wf entries₀
  | fuel, draws, s, inv, looped => by
    unfold HostTree.selectLoop at looped
    split at looped
    · cases fuel with
      | zero => cases looped
      | succ fuel =>
        obtain ⟨s₁, stepped, rest⟩ := Option.bind_eq_some_iff.mp looped
        exact Inv.selectLoop fuel _ s₁ (inv.selectStep stepped) rest
    · cases looped
      exact inv

end Selecting

/-- Putting back removed hosts that are out of the map, with their weights and without repeats,
keeps the invariant and restores their entries. -/
theorem reinsert_spec :
    ∀ (removedEntries : List (HostEntry K A)) (ht : HostTree K A), ht.Valid →
      (∀ e ∈ removedEntries, e.hostDBEntry.publicKey ∉ ht.hosts) →
      (∀ e ∈ removedEntries, e.weight = ht.weightFn e.hostDBEntry) →
      (removedEntries.map fun e => e.hostDBEntry.publicKey).Nodup →
      ∃ ht', ht.reinsert removedEntries = some ht' ∧ ht'.Valid ∧ ht'.weightFn = ht.weightFn ∧
        ht'.root.entries = ht.root.entries + (removedEntries : Multiset (HostEntry K A))
  | [], ht, valid, _, _, _ => ⟨ht, rfl, valid, rfl, by simp⟩
  | e :: rest, ht, valid, out, weighed, distinct => by
    obtain ⟨added, path, root, run, placed⟩ :=
      recursiveInsert_placed e ht.root true valid.sums valid.notNil
    have valid₁ := Valid.place valid (out e (List.mem_cons_self ..)) placed
      (weighed e (List.mem_cons_self ..))
    rw [List.map_cons, List.nodup_cons] at distinct
    have restOut : ∀ e' ∈ rest,
        e'.hostDBEntry.publicKey ∉ ht.hosts.insert e.hostDBEntry.publicKey path := by
      intro e' member
      rw [AList.mem_insert, not_or]
      exact ⟨fun same => distinct.1 (List.mem_map.mpr ⟨e', member, same⟩),
        out e' (List.mem_cons_of_mem _ member)⟩
    obtain ⟨ht', again, valid', weighed', entries'⟩ := reinsert_spec rest _ valid₁ restOut
      (fun e' member => weighed e' (List.mem_cons_of_mem _ member)) distinct.2
    refine ⟨ht', ?_, valid', weighed', ?_⟩
    · simp only [reinsert, run, Option.bind_eq_bind, Option.bind_some]
      exact again
    · rw [entries', placed.entries_eq, ← Multiset.cons_coe, Multiset.cons_add, Multiset.add_cons]

/-- `SelectRandom` on a tree that keeps the invariant, with positive weights: it returns, keeps
the invariant and the weight function, returns no host twice and no blacklisted host, and leaves
the tree holding the entries it held. -/
theorem selectRandom_spec (valid : ht.Valid) (scores : ∀ d, 0 < ht.weightFn d)
    (f : AddressFilter A Φ) (n : ℤ) (blacklist addressBlacklist : List K) (draws : ℕ → ℕ) :
    ∃ ht' hosts, ht.selectRandom f n blacklist addressBlacklist draws = some (ht', hosts) ∧
      ht'.Valid ∧ ht'.weightFn = ht.weightFn ∧ (hosts.map HostDBEntry.publicKey).Nodup ∧
      (∀ h ∈ hosts, h.publicKey ∉ blacklist) ∧ ht'.root.entries = ht.root.entries := by
  obtain ⟨filter, filtered⟩ := filterAddresses_isSome valid f addressBlacklist f.new
  obtain ⟨ht₁, removed₁, run₁, inv₁, cleared, -⟩ :=
    Selecting.removeBlacklisted_spec filter blacklist ht [] (Selecting.inv_start valid filter)
  obtain ⟨s, loop, inv, unlisted⟩ := Selecting.selectLoop_spec f n scores
    ht₁.hosts.keys.length draws _ inv₁ ⟨by simp, cleared⟩ le_rfl
  obtain ⟨ht', again, valid', weighed', entries'⟩ := reinsert_spec s.removedEntries s.tree
    inv.valid inv.removed_out (by rw [inv.weightFn_eq]; exact inv.removed_weights) inv.removed_nodup
  refine ⟨ht', s.hosts, ?_, valid', weighed'.trans inv.weightFn_eq, ?_, unlisted.1, ?_⟩
  · simp only [selectRandom, filtered, run₁, loop, again, Option.bind_eq_bind, Option.bind_some]
    rfl
  · have keys := (inv.selected.map HostDBEntry.publicKey)
    rw [List.map_map] at keys
    exact keys.nodup inv.removed_nodup
  · rw [entries', inv.entries_eq]

/-- A call of `SelectRandom` that returns keeps the invariant, whatever the weights. -/
theorem selectRandom_valid {f : AddressFilter A Φ} {n : ℤ} {blacklist addressBlacklist : List K}
    {draws : ℕ → ℕ} {ht' : HostTree K A} {hosts : List (HostDBEntry K A)} (valid : ht.Valid)
    (selected : ht.selectRandom f n blacklist addressBlacklist draws = some (ht', hosts)) :
    ht'.Valid := by
  obtain ⟨filter, filtered⟩ := filterAddresses_isSome valid f addressBlacklist f.new
  obtain ⟨ht₁, removed₁, run₁, inv₁, -, -⟩ :=
    Selecting.removeBlacklisted_spec filter blacklist ht [] (Selecting.inv_start valid filter)
  simp only [selectRandom, filtered, run₁, Option.bind_eq_bind, Option.bind_some] at selected
  obtain ⟨s, loop, reinserted⟩ := Option.bind_eq_some_iff.mp selected
  have inv := Selecting.Inv.selectLoop _ _ _ inv₁ loop
  obtain ⟨ht'', again, valid'', -, -⟩ := reinsert_spec s.removedEntries s.tree inv.valid
    inv.removed_out (by rw [inv.weightFn_eq]; exact inv.removed_weights) inv.removed_nodup
  rw [again, Option.bind_some, Option.pure_def, Option.some.injEq, Prod.mk.injEq] at reinserted
  exact reinserted.1 ▸ valid''

/-- Distinct hosts map to distinct nodes. -/
theorem Valid.lookup_injective (valid : ht.Valid) {pk pk' : K}
    (found : ht.hosts.lookup pk = some path) (found' : ht.hosts.lookup pk' = some path) :
    pk = pk' := by
  obtain ⟨e, held, key⟩ := valid.hosts_taken pk path found
  obtain ⟨e', held', key'⟩ := valid.hosts_taken pk' path found'
  rw [held, Option.some.injEq] at held'
  rw [← key, ← key', held']

/-! ## Runs -/

/-- The calls on a host tree. -/
inductive Op (K A Φ : Type) where
  | insert (hdbe : HostDBEntry K A)
  | remove (pk : K)
  | modify (hdbe : HostDBEntry K A)
  | setWeightFunction (wf : HostDBEntry K A → Currency)
  | selectRandom (f : AddressFilter A Φ) (n : ℤ) (blacklist addressBlacklist : List K)
      (draws : ℕ → ℕ)

/-- The tree after a call; what the call returns is dropped. -/
def step (ht : HostTree K A) : Op K A Φ → Option (HostTree K A)
  | .insert hdbe => (ht.insert hdbe).map Prod.fst
  | .remove pk => (ht.remove pk).map Prod.fst
  | .modify hdbe => (ht.modify hdbe).map Prod.fst
  | .setWeightFunction wf => (ht.setWeightFunction wf).map Prod.fst
  | .selectRandom f n blacklist addressBlacklist draws =>
    (ht.selectRandom f n blacklist addressBlacklist draws).map Prod.fst

def run (ht : HostTree K A) : List (Op K A Φ) → Option (HostTree K A)
  | [] => some ht
  | op :: ops => (ht.step op).bind fun ht => ht.run ops

/-- Every call keeps the invariant and scores of at least 1, if the weight function it sets has
them. -/
theorem step_spec (valid : ht.Valid) (scored : ∀ d, 1 ≤ ht.weightFn d) (op : Op K A Φ)
    (scoredSet : ∀ wf, op = .setWeightFunction wf → ∀ d, 1 ≤ wf d) :
    ∃ ht', ht.step op = some ht' ∧ ht'.Valid ∧ ∀ d, 1 ≤ ht'.weightFn d := by
  cases op with
  | insert hdbe =>
    obtain ⟨ht', err, run, valid', weighed⟩ := insert_valid valid hdbe
    exact ⟨ht', by simp [step, run], valid', weighed ▸ scored⟩
  | remove pk =>
    obtain ⟨ht', err, run, valid', weighed⟩ := remove_valid valid pk
    exact ⟨ht', by simp [step, run], valid', weighed ▸ scored⟩
  | modify hdbe =>
    obtain ⟨ht', err, run, valid', weighed⟩ := modify_valid valid hdbe
    exact ⟨ht', by simp [step, run], valid', weighed ▸ scored⟩
  | setWeightFunction wf =>
    obtain ⟨ht', errs, run, valid', weighed⟩ := setWeightFunction_valid valid wf
    exact ⟨ht', by simp [step, run], valid', weighed ▸ scoredSet wf rfl⟩
  | selectRandom f n blacklist addressBlacklist draws =>
    obtain ⟨ht', hosts, run, valid', weighed, -⟩ :=
      selectRandom_spec valid scored f n blacklist addressBlacklist draws
    exact ⟨ht', by simp [step, run], valid', weighed ▸ scored⟩

theorem run_spec :
    ∀ (ops : List (Op K A Φ)) (ht : HostTree K A), ht.Valid → (∀ d, 1 ≤ ht.weightFn d) →
      (∀ wf, Op.setWeightFunction wf ∈ ops → ∀ d, 1 ≤ wf d) →
      ∃ ht', ht.run ops = some ht' ∧ ht'.Valid ∧ ∀ d, 1 ≤ ht'.weightFn d
  | [], ht, valid, scored, _ => ⟨ht, rfl, valid, scored⟩
  | op :: ops, ht, valid, scored, scoredSet => by
    obtain ⟨ht₁, stepped, valid₁, scored₁⟩ := step_spec valid scored op
      fun wf same => scoredSet wf (by rw [same]; exact List.mem_cons_self ..)
    obtain ⟨ht', rest, valid', scored'⟩ := run_spec ops ht₁ valid₁ scored₁
      fun wf member => scoredSet wf (List.mem_cons_of_mem _ member)
    exact ⟨ht', by simp [run, stepped, rest], valid', scored'⟩

/-- A call that returns keeps the invariant, whatever the weights. -/
theorem step_valid {op : Op K A Φ} {ht' : HostTree K A} (valid : ht.Valid)
    (stepped : ht.step op = some ht') : ht'.Valid := by
  cases op with
  | insert hdbe =>
    obtain ⟨ht'', err, run, valid', -⟩ := insert_valid valid hdbe
    simp only [step, run, Option.map_some, Option.some.injEq] at stepped
    exact stepped ▸ valid'
  | remove pk =>
    obtain ⟨ht'', err, run, valid', -⟩ := remove_valid valid pk
    simp only [step, run, Option.map_some, Option.some.injEq] at stepped
    exact stepped ▸ valid'
  | modify hdbe =>
    obtain ⟨ht'', err, run, valid', -⟩ := modify_valid valid hdbe
    simp only [step, run, Option.map_some, Option.some.injEq] at stepped
    exact stepped ▸ valid'
  | setWeightFunction wf =>
    obtain ⟨ht'', errs, run, valid', -⟩ := setWeightFunction_valid valid wf
    simp only [step, run, Option.map_some, Option.some.injEq] at stepped
    exact stepped ▸ valid'
  | selectRandom f n blacklist addressBlacklist draws =>
    obtain ⟨⟨ht'', hosts⟩, selected, rfl⟩ := Option.map_eq_some_iff.mp stepped
    exact selectRandom_valid valid selected

/-- Every tree a run of calls that return reaches keeps the invariant. -/
theorem run_valid {ht' : HostTree K A} :
    ∀ (ops : List (Op K A Φ)) (ht : HostTree K A), ht.Valid → ht.run ops = some ht' → ht'.Valid
  | [], ht, valid, ran => by
    cases ran
    exact valid
  | op :: ops, ht, valid, ran => by
    obtain ⟨ht₁, stepped, rest⟩ := Option.bind_eq_some_iff.mp ran
    exact run_valid ops ht₁ (step_valid valid stepped) rest

/-- Every tree that `New` and any sequence of calls build, with weight functions that score every
host at least 1, keeps the invariant; and `SelectRandom` on it returns no host twice and no
blacklisted host, and leaves the multiset of keys and weights held by the tree as it was. -/
theorem hostTree_invariant (wf : HostDBEntry K A → Currency) (ops : List (Op K A Φ))
    (scored : ∀ d, 1 ≤ wf d) (scoredSet : ∀ wf', Op.setWeightFunction wf' ∈ ops → ∀ d, 1 ≤ wf' d) :
    ∃ ht, (new wf).run ops = some ht ∧ ht.Valid ∧
      (∀ pk pk' path, ht.hosts.lookup pk = some path → ht.hosts.lookup pk' = some path → pk = pk') ∧
      ∀ (f : AddressFilter A Φ) (n : ℤ) (blacklist addressBlacklist : List K) (draws : ℕ → ℕ),
        ∃ ht' hosts, ht.selectRandom f n blacklist addressBlacklist draws = some (ht', hosts) ∧
          ht'.Valid ∧ (hosts.map HostDBEntry.publicKey).Nodup ∧
          (∀ h ∈ hosts, h.publicKey ∉ blacklist) ∧
          Multiset.map (fun e => (e.hostDBEntry.publicKey, e.weight)) ht'.root.entries =
            Multiset.map (fun e => (e.hostDBEntry.publicKey, e.weight)) ht.root.entries := by
  obtain ⟨ht, ran, valid, scored'⟩ := run_spec ops (new wf) (valid_new wf) scored scoredSet
  refine ⟨ht, ran, valid, fun pk pk' path => valid.lookup_injective, ?_⟩
  intro f n blacklist addressBlacklist draws
  obtain ⟨ht', hosts, selected, valid', -, distinct, unlisted, kept⟩ :=
    selectRandom_spec valid (fun d => scored' d) f n blacklist addressBlacklist draws
  exact ⟨ht', hosts, selected, valid', distinct, unlisted, by rw [kept]⟩

/-- A host keyed and addressed by `pk` that accepts contracts and was last seen online. -/
def sampleHost (pk : ℕ) : HostDBEntry ℕ ℕ := ⟨pk, pk, true, [true]⟩

/-- Two insertions, a new weight function and a removal. -/
def sampleOps : List (Op ℕ ℕ Unit) :=
  [.insert (sampleHost 1), .insert (sampleHost 2), .setWeightFunction fun h => h.publicKey + 1,
    .remove 1]

theorem sampleOps_invariant :
    (∀ d : HostDBEntry ℕ ℕ, 1 ≤ (fun _ : HostDBEntry ℕ ℕ => (1 : Currency)) d) ∧
      (∀ wf', Op.setWeightFunction wf' ∈ sampleOps → ∀ d, 1 ≤ wf' d) ∧
      ∃ ht, (new fun _ => 1).run sampleOps = some ht ∧ ht.Valid ∧
        (∀ pk pk' path, ht.hosts.lookup pk = some path → ht.hosts.lookup pk' = some path →
          pk = pk') ∧
        ∀ (f : AddressFilter ℕ Unit) (n : ℤ) (blacklist addressBlacklist : List ℕ)
          (draws : ℕ → ℕ),
          ∃ ht' hosts, ht.selectRandom f n blacklist addressBlacklist draws = some (ht', hosts) ∧
            ht'.Valid ∧ (hosts.map HostDBEntry.publicKey).Nodup ∧
            (∀ h ∈ hosts, h.publicKey ∉ blacklist) ∧
            Multiset.map (fun e => (e.hostDBEntry.publicKey, e.weight)) ht'.root.entries =
              Multiset.map (fun e => (e.hostDBEntry.publicKey, e.weight)) ht.root.entries :=
  have scoredSet : ∀ wf', Op.setWeightFunction wf' ∈ sampleOps → ∀ d, 1 ≤ wf' d := by
    simp [sampleOps]
  ⟨fun _ => le_rfl, scoredSet, hostTree_invariant (fun _ => 1) sampleOps (fun _ => le_rfl) scoredSet⟩

/-- On every tree that `New` and a sequence of calls that return build, every weight below the
root's leads `nodeAtWeight` to a taken node, so neither of its corruption checks fires, and each
taken node is found from exactly as many of those weights as its entry weighs. -/
theorem reachable_nodeAtWeight_exact (wf : HostDBEntry K A → Currency) (ops : List (Op K A Φ))
    {ht : HostTree K A} (reached : (new wf).run ops = some ht) :
    (∀ w < ht.root.weight, ∃ path e, ht.root.nodeAtWeight w = some path ∧
      ht.root.takenAt path = some e) ∧
    ∀ path e, ht.root.takenAt path = some e →
      (List.range ht.root.weight).countP (fun w => ht.root.nodeAtWeight w = some path) =
        e.weight := by
  have valid := run_valid ops (new wf) (valid_new wf) reached
  refine ⟨fun w below => nodeAtWeight_taken ht.root w valid.sums below, ?_⟩
  intro path e held
  rw [countP_nodeAtWeight ht.root valid.sums path, weightAt_of_takenAt held]

theorem sampleOps_nodeAtWeight_exact :
    ∃ ht, (new fun _ => (1 : Currency)).run sampleOps = some ht ∧
      (∀ w < ht.root.weight, ∃ path e, ht.root.nodeAtWeight w = some path ∧
        ht.root.takenAt path = some e) ∧
      ∀ path e, ht.root.takenAt path = some e →
        (List.range ht.root.weight).countP (fun w => ht.root.nodeAtWeight w = some path) =
          e.weight := by
  obtain ⟨ht, ran, -⟩ := run_spec sampleOps (new fun _ => (1 : Currency)) (valid_new _)
    (fun _ => le_rfl) (by simp [sampleOps])
  exact ⟨ht, ran, reachable_nodeAtWeight_exact _ sampleOps ran⟩

end HostTree

end Sia.Renter.HostDB
