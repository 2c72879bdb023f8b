import Mathlib.Data.Finmap
import Mathlib.Algebra.BigOperators.Group.Multiset.Basic
import Mathlib.Data.Finset.Sort
import Mathlib.Algebra.GroupWithZero.Nat

/-! Weighted totals and value maps over finite maps with a constant value type. A bucket of a
key-value store is such a map; these are the facts about it that conservation proofs need. A scan
of a bucket lists its keys sorted; `Finset.insertionSort` computes that list in a form the kernel
evaluates. -/
namespace Finmap

variable {α β γ : Type*}

/-- Sum of a weight over every entry. -/
def total (weight : α → β → ℕ) (m : Finmap (fun _ : α => β)) : ℕ :=
  (m.entries.map fun entry => weight entry.1 entry.2).sum

/-- Apply `f` to every value, keeping the keys. -/
def mapValues (f : β → γ) (m : Finmap (fun _ : α => β)) : Finmap (fun _ : α => γ) :=
  ⟨m.entries.map fun entry => ⟨entry.1, f entry.2⟩, by
    have keys : (m.entries.map fun entry => (⟨entry.1, f entry.2⟩ : Σ _ : α, γ)).keys =
        m.entries.keys := by
      simp only [Multiset.keys, Multiset.map_map, Function.comp_def]
    rw [← Multiset.nodup_keys, keys, Multiset.nodup_keys]
    exact m.nodupKeys⟩

/-- Keep the entries whose key satisfies `p`. -/
def filterKeys (p : α → Prop) [DecidablePred p] (m : Finmap (fun _ : α => β)) :
    Finmap (fun _ : α => β) :=
  ⟨m.entries.filter fun entry => p entry.1, by
    rw [← Multiset.nodup_keys]
    exact Multiset.nodup_of_le (Multiset.map_le_map (Multiset.filter_le _ _))
      (Multiset.nodup_keys.mpr m.nodupKeys)⟩

/-- The values of a map, one for each key. -/
def values (m : Finmap (fun _ : α => β)) : Multiset β := m.entries.map Sigma.snd

@[simp] theorem total_empty (weight : α → β → ℕ) : total weight ∅ = 0 := rfl

theorem total_mapValues (weight : α → γ → ℕ) (f : β → γ) (m : Finmap (fun _ : α => β)) :
    total weight (m.mapValues f) = total (fun a b => weight a (f b)) m := by
  simp only [total, mapValues, Multiset.map_map, Function.comp_def]

variable [DecidableEq α]

theorem mem_values {m : Finmap (fun _ : α => β)} {b : β} :
    b ∈ m.values ↔ ∃ a, m.lookup a = some b := by
  simp only [values, Multiset.mem_map, lookup_eq_some_iff]
  constructor
  · rintro ⟨⟨a, b'⟩, member, rfl⟩
    exact ⟨a, member⟩
  · rintro ⟨a, member⟩
    exact ⟨⟨a, b⟩, member, rfl⟩

theorem insert_erase_of_lookup {m : Finmap (fun _ : α => β)} {a : α} {b : β}
    (found : m.lookup a = some b) : (m.erase a).insert a b = m := by
  apply ext_lookup
  intro x
  by_cases same : x = a
  · subst same
    rw [lookup_insert, found]
  · rw [lookup_insert_of_ne _ same, lookup_erase_ne same]

theorem insert_erase_eq (m : Finmap (fun _ : α => β)) (a : α) (b : β) :
    (m.erase a).insert a b = m.insert a b := by
  apply ext_lookup
  intro x
  by_cases same : x = a
  · subst same
    rw [lookup_insert, lookup_insert]
  · rw [lookup_insert_of_ne _ same, lookup_insert_of_ne _ same, lookup_erase_ne same]

theorem erase_of_notMem {m : Finmap (fun _ : α => β)} {a : α} (absent : a ∉ m) : m.erase a = m := by
  apply ext_lookup
  intro x
  by_cases same : x = a
  · subst same
    rw [lookup_erase, lookup_eq_none.mpr absent]
  · rw [lookup_erase_ne same]

theorem erase_insert_of_notMem {m : Finmap (fun _ : α => β)} {a : α} (b : β) (absent : a ∉ m) :
    (m.insert a b).erase a = m := by
  apply ext_lookup
  intro x
  by_cases same : x = a
  · subst same
    rw [lookup_erase, lookup_eq_none.mpr absent]
  · rw [lookup_erase_ne same, lookup_insert_of_ne _ same]

theorem lookup_mapValues (f : β → γ) (m : Finmap (fun _ : α => β)) (a : α) :
    (m.mapValues f).lookup a = (m.lookup a).map f := by
  apply Option.ext
  intro c
  rw [← Option.mem_def, mem_lookup_iff, Option.map_eq_some_iff]
  constructor
  · intro mem
    obtain ⟨entry, member, same⟩ := Multiset.mem_map.mp mem
    obtain ⟨key, value⟩ := entry
    simp only [Sigma.mk.injEq] at same
    obtain ⟨rfl, values⟩ := same
    exact ⟨value, mem_lookup_iff.mpr member, eq_of_heq values⟩
  · rintro ⟨b, found, rfl⟩
    exact Multiset.mem_map.mpr ⟨⟨a, b⟩, mem_lookup_iff.mp found, rfl⟩

theorem lookup_filterKeys (p : α → Prop) [DecidablePred p] (m : Finmap (fun _ : α => β))
    (a : α) : (m.filterKeys p).lookup a = if p a then m.lookup a else none := by
  apply Option.ext
  intro b
  rw [← Option.mem_def, mem_lookup_iff]
  change Sigma.mk a b ∈ m.entries.filter _ ↔ _
  rw [Multiset.mem_filter]
  split
  · rename_i holds
    simp only [holds, and_true, Option.mem_def.symm, mem_lookup_iff]
  · rename_i fails
    simp only [fails, and_false, reduceCtorEq]

/-- Filtering by a predicate every key satisfies changes nothing. -/
theorem filterKeys_eq_self {p : α → Prop} [DecidablePred p] {m : Finmap (fun _ : α => β)}
    (all : ∀ a ∈ m, p a) : m.filterKeys p = m := by
  apply ext_lookup
  intro a
  rw [lookup_filterKeys]
  split
  · rfl
  · rename_i fails
    exact (lookup_eq_none.mpr fun mem => fails (all a mem)).symm

theorem lookup_foldl_erase {δ : Type*} (key : δ → α) (ds : List δ) (m : Finmap (fun _ : α => β))
    (a : α) : (ds.foldl (fun m d => m.erase (key d)) m).lookup a =
      if a ∈ ds.map key then none else m.lookup a := by
  induction ds generalizing m with
  | nil => simp
  | cons d ds ih =>
    rw [List.foldl_cons, ih]
    by_cases same : a = key d
    · subst same
      simp
    · simp [same, lookup_erase_ne same]

/-- After erasing the keys of a list, a key remains exactly when it was there and is not one of
them. -/
theorem mem_foldl_erase {δ : Type*} (key : δ → α) (ds : List δ) (m : Finmap (fun _ : α => β))
    (a : α) : a ∈ ds.foldl (fun m d => m.erase (key d)) m ↔ a ∈ m ∧ a ∉ ds.map key := by
  induction ds generalizing m with
  | nil => simp
  | cons d ds ih =>
    rw [List.foldl_cons, ih, mem_erase, List.map_cons, List.mem_cons]
    tauto

theorem total_insert_of_notMem (weight : α → β → ℕ) {m : Finmap (fun _ : α => β)} {a : α}
    (b : β) (absent : a ∉ m) : total weight (m.insert a b) = weight a b + total weight m := by
  rw [total, total, entries_insert_of_notMem absent, Multiset.map_cons, Multiset.sum_cons]

theorem total_erase (weight : α → β → ℕ) {m : Finmap (fun _ : α => β)} {a : α} {b : β}
    (found : m.lookup a = some b) : total weight (m.erase a) + weight a b = total weight m := by
  have inserted := total_insert_of_notMem weight b (notMem_erase_self (a := a) (s := m))
  rw [insert_erase_of_lookup found] at inserted
  omega

/-- Overwriting a present key swaps its weight in the total. -/
theorem total_insert_of_lookup (weight : α → β → ℕ) {m : Finmap (fun _ : α => β)} {a : α}
    {b : β} (b' : β) (found : m.lookup a = some b) :
    total weight (m.insert a b') + weight a b = total weight m + weight a b' := by
  have erased := total_erase weight found
  have inserted := total_insert_of_notMem weight b' (notMem_erase_self (a := a) (s := m))
  rw [insert_erase_eq] at inserted
  omega

/-- A fold whose steps commute, as a scan of a bucket in any key order is, takes the value a key
was just given last. -/
theorem foldl_values_insert {δ : Type*} (f : δ → β → δ) [RightCommutative f] (init : δ)
    (m : Finmap (fun _ : α => β)) (a : α) (b : β) :
    (m.insert a b).values.foldl f init = f ((m.erase a).values.foldl f init) b := by
  have entries := entries_insert_of_notMem (b := b) (notMem_erase_self (a := a) (s := m))
  rw [← insert_erase_eq, values, entries, Multiset.map_cons, Multiset.foldl_swap,
    Multiset.foldr_cons, ← Multiset.foldl_swap]
  rfl

theorem foldl_values_of_lookup {δ : Type*} (f : δ → β → δ) [RightCommutative f] (init : δ)
    {m : Finmap (fun _ : α => β)} {a : α} {b : β} (found : m.lookup a = some b) :
    m.values.foldl f init = f ((m.erase a).values.foldl f init) b := by
  conv_lhs => rw [← insert_erase_of_lookup found, insert_erase_eq]
  exact foldl_values_insert f init m a b

end Finmap

namespace Finset

variable {α : Type*} (r : α → α → Prop) [DecidableRel r] [IsTrans α r] [Std.Antisymm r]
  [Std.Total r]

/-- The list `sort` gives, by insertion sort. It recurses structurally, so the kernel evaluates
it, where the merge sort behind `sort` recurses on a well-founded measure and gets stuck. -/
def insertionSort (s : Finset α) : List α :=
  Quot.liftOn s.val (List.insertionSort r) fun _ _ permuted =>
    ((List.perm_insertionSort r _).trans
      (permuted.trans (List.perm_insertionSort r _).symm)).eq_of_pairwise'
      (List.pairwise_insertionSort r _) (List.pairwise_insertionSort r _)

theorem sort_eq_insertionSort (s : Finset α) : s.sort r = s.insertionSort r := by
  obtain ⟨⟨l⟩, _⟩ := s
  exact List.mergeSort_eq_insertionSort r l

end Finset
