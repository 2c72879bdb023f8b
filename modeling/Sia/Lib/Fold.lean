import Mathlib.Algebra.BigOperators.Group.List.Basic
import Mathlib.Order.MinMax

/-! Folds over a record state whose steps change one field by an operation of the element alone:
that field evolves as a fold of the operation, whatever the other fields do. Sums, maxima from a
floor and minima that skip a marker then compose over concatenated lists, which is how a
directory's totals come from its children's. -/
namespace Fold

variable {σ α β : Type*}

/-- A field `p` of a fold's state that each step changes by `op`: the field is the fold of
`op`. -/
theorem foldl_field (p : σ → β) (op : β → α → β) {f : σ → α → σ}
    (step : ∀ s x, p (f s x) = op (p s) x) (l : List α) (s : σ) :
    p (l.foldl f s) = l.foldl op (p s) :=
  (List.foldl_hom p fun s x => (step s x).symm).symm

theorem foldl_add {M : Type*} [AddMonoid M] (a : α → M) (l : List α) (c : M) :
    l.foldl (fun acc x => acc + a x) c = c + (l.map a).sum := by
  induction l generalizing c with
  | nil => simp
  | cons x l ih => rw [List.foldl_cons, ih, List.map_cons, List.sum_cons, add_assoc]

/-- A step that applies `op` only where `q` holds folds like `op` over the filtered list. -/
theorem foldl_ite {q : α → Prop} [DecidablePred q] (op : β → α → β) (l : List α) (c : β) :
    l.foldl (fun acc x => if q x then op acc x else acc) c = (l.filter (fun x => q x)).foldl op c := by
  rw [List.foldl_filter]
  simp only [decide_eq_true_eq]

section LinearOrder

variable [LinearOrder α]

theorem le_foldl_max (l : List α) (c : α) : c ≤ l.foldl max c := by
  rw [List.foldl_max]
  exact le_max_left _ _

/-- Folding `max` from a floor below every element gives the list's maximum, or the floor for
an empty list. -/
theorem foldl_max_of_le {l : List α} {d : α} (floor : ∀ x ∈ l, d ≤ x) :
    l.foldl max d = l.max?.getD d := by
  have : Std.MaxEqOr α := ⟨max_choice⟩
  rw [List.foldl_max]
  cases found : l.max? with
  | none => exact max_self d
  | some m => exact max_eq_right (floor m (List.max?_mem found))

/-- Folding `max` from `c` over a list folded from a lower floor is folding it from `c`. -/
theorem max_foldl_max {l : List α} {c d : α} (le : d ≤ c) :
    max c (l.foldl max d) = l.foldl max c := by
  rw [List.foldl_max, List.foldl_max]
  cases l.max? with
  | none => simp [le]
  | some m => rw [Option.getD_some, Option.getD_some, ← max_assoc, max_eq_left le]

/-- Folding `max` over the maxima of sublists, each from a floor below the start, is folding it
over their concatenation. -/
theorem foldl_max_flatten {ls : List (List α)} {c d : α} (le : d ≤ c) :
    (ls.map (·.foldl max d)).foldl max c = ls.flatten.foldl max c := by
  induction ls generalizing c with
  | nil => rfl
  | cons l ls ih =>
    have above : d ≤ l.foldl max c := le.trans (le_foldl_max l c)
    rw [List.map_cons, List.foldl_cons, max_foldl_max le, ih above, List.flatten_cons,
      List.foldl_append]

/-- Folding `min` over the least elements of sublists, skipping the marker `e` that an empty
sublist gives, is folding it over their concatenation, when no sublist holds the marker. -/
theorem foldl_min_flatten {ls : List (List α)} {c e : α} (unmarked : ∀ l ∈ ls, ∀ x ∈ l, x ≠ e) :
    ((ls.map (·.min?.getD e)).filter (fun x => x ≠ e)).foldl min c = ls.flatten.foldl min c := by
  induction ls generalizing c with
  | nil => rfl
  | cons l ls ih =>
    have : Std.MinEqOr α := ⟨min_choice⟩
    have rest : ∀ c', ((ls.map (·.min?.getD e)).filter (fun x => x ≠ e)).foldl min c' =
        ls.flatten.foldl min c' := fun _ =>
      ih fun l' mem => unmarked l' (List.mem_cons_of_mem l mem)
    rw [List.map_cons, List.flatten_cons, List.foldl_append]
    cases found : l.min? with
    | none =>
      rw [List.min?_eq_none_iff.mp found, Option.getD_none]
      simpa using rest c
    | some m =>
      have kept : m ≠ e := unmarked l List.mem_cons_self m (List.min?_mem found)
      have first : l.foldl min c = min c m := by rw [List.foldl_min, found, Option.getD_some]
      rw [Option.getD_some, List.filter_cons_of_pos (by simpa using kept), List.foldl_cons, rest,
        first]

/-- Folding `min` from a sentinel above every element, then reading the sentinel back as the
marker `e`, gives the least element, or `e` for an empty list. -/
theorem foldl_min_sentinel {l : List α} {top e : α} (below : ∀ x ∈ l, x < top) :
    (if l.foldl min top = top then e else l.foldl min top) = l.min?.getD e := by
  have : Std.MinEqOr α := ⟨min_choice⟩
  rw [List.foldl_min]
  cases found : l.min? with
  | none => simp
  | some m =>
    have least : m < top := below m (List.min?_mem found)
    rw [Option.getD_some, min_eq_right least.le, if_neg least.ne, Option.getD_some]

end LinearOrder

end Fold
