import Mathlib.Algebra.BigOperators.Ring.Finset
import Mathlib.Algebra.Order.BigOperators.Group.Finset

/-! A shared counter that holds the sum of what every thread has added to it, the thread's
contribution being a weight of its position. When one thread moves, the counter changes by the
difference of its weights; the total is zero exactly when every thread's weight is. -/
namespace ThreadSum

open Finset

variable {τ π : Type*} [Fintype τ]

/-- The sum of the weights of every thread's position. -/
def total (weight : π → ℕ) (pc : τ → π) : ℕ := ∑ t, weight (pc t)

variable (weight : π → ℕ) (pc : τ → π)

/-- One thread moving changes the total by the difference of its weights. -/
theorem total_update [DecidableEq τ] (t : τ) (p : π) :
    total weight (Function.update pc t p) + weight (pc t) = total weight pc + weight p := by
  have split : ∀ f : τ → ℕ, ∑ u, f u = f t + ∑ u ∈ univ.erase t, f u := fun f =>
    (add_sum_erase univ f (mem_univ t)).symm
  have rest : ∑ u ∈ univ.erase t, weight (Function.update pc t p u) =
      ∑ u ∈ univ.erase t, weight (pc u) :=
    sum_congr rfl fun u mem => by rw [Function.update_of_ne (ne_of_mem_erase mem)]
  rw [total, total, split, split fun u => weight (pc u), Function.update_self, rest]
  omega

theorem weight_le_total (t : τ) : weight (pc t) ≤ total weight pc :=
  single_le_sum (f := fun u => weight (pc u)) (fun _ _ => Nat.zero_le _) (mem_univ t)

theorem total_eq_zero_iff : total weight pc = 0 ↔ ∀ t, weight (pc t) = 0 := by
  simp [total, sum_eq_zero_iff]

theorem total_pos_iff : 0 < total weight pc ↔ ∃ t, 0 < weight (pc t) := by
  simp [Nat.pos_iff_ne_zero, Ne, total_eq_zero_iff]

/-- With every other thread at weight zero, the total is the one thread's weight. -/
theorem total_eq_single (t : τ) (others : ∀ u ≠ t, weight (pc u) = 0) :
    total weight pc = weight (pc t) :=
  sum_eq_single t (fun u _ ne => others u ne) fun absent => absurd (mem_univ t) absent

theorem total_le {m : ℕ} (bound : ∀ p, weight p ≤ m) : total weight pc ≤ Fintype.card τ * m := by
  calc total weight pc ≤ ∑ _t : τ, m := sum_le_sum fun t _ => bound (pc t)
    _ = Fintype.card τ * m := by rw [sum_const, card_univ, Nat.nsmul_eq_mul]

/-- A weight that is a sum of two has the sum of their totals. -/
theorem total_add (weight' : π → ℕ) :
    total (fun p => weight p + weight' p) pc = total weight pc + total weight' pc :=
  sum_add_distrib

theorem total_mul (c : ℕ) : total (fun p => c * weight p) pc = c * total weight pc :=
  (mul_sum univ _ c).symm

end ThreadSum
