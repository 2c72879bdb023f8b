import Sia.Lib.Finmap
import Mathlib.Algebra.BigOperators.Group.Finset.Basic

/-! Ranging over a Go map. `for k := range m` visits every key once, in an order the language
leaves open and that may differ from one loop to the next. A model takes the order as a
parameter: a listing of each finite key set, with no duplicates and nothing else in it. Results
proved for every listing hold for every order Go may pick. -/
namespace GoMap

/-- An order in which `range` may visit the keys of a map. -/
structure RangeOrder (α : Type*) where
  keys : Finset α → List α
  nodup_keys : ∀ s, (keys s).Nodup
  mem_keys : ∀ {s a}, a ∈ keys s ↔ a ∈ s

namespace RangeOrder

variable {α β : Type*} (order : RangeOrder α)

theorem toFinset_keys [DecidableEq α] (s : Finset α) : (order.keys s).toFinset = s := by
  ext a
  rw [List.mem_toFinset, order.mem_keys]

/-- Summing over a listing of the keys is summing over the keys. -/
theorem sum_keys [AddCommMonoid β] (f : α → β) (s : Finset α) :
    ((order.keys s).map f).sum = ∑ a ∈ s, f a := by
  classical
  rw [← order.toFinset_keys s, List.sum_toFinset f (order.nodup_keys s), order.toFinset_keys]

@[simp] theorem keys_empty : order.keys ∅ = [] :=
  List.eq_nil_iff_forall_not_mem.mpr fun _ listed => by simpa using order.mem_keys.mp listed

/-- The listing sorted by a total order, which the kernel evaluates. -/
def sorted {γ : Type} (r : γ → γ → Prop) [DecidableRel r] [IsTrans γ r] [IsAntisymm γ r]
    [IsTotal γ r] : RangeOrder γ where
  keys s := s.insertionSort r
  nodup_keys s := by
    rw [← Finset.sort_eq_insertionSort]
    exact s.sort_nodup r
  mem_keys := by
    intro s a
    rw [← Finset.sort_eq_insertionSort]
    exact Finset.mem_sort r

end RangeOrder

end GoMap
