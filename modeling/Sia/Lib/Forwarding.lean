import Mathlib.Logic.Function.Basic
import Mathlib.Algebra.BigOperators.Group.Finset.Basic

/-! Forwarding pointers, as union-find structures keep them: a partial map sending a key that was
merged away to the key it was merged into. A key reaches the root its chain of pointers ends at.
A rank that grows along every pointer and is bounded bounds every chain, so chasing pointers ends;
pointing a key straight at its root, or pointing keys at a root, keeps such a rank. When a key is
merged into another, what it holds moves with it, which leaves the total unchanged. -/
namespace Forwarding

variable {α : Type*} {next : α → Option α}

/-- Following `next` from a key ends at a root, a key with no pointer. -/
inductive Reaches (next : α → Option α) : α → α → Prop
  | root {r : α} : next r = none → Reaches next r r
  | step {j k r : α} : next j = some k → Reaches next k r → Reaches next j r

/-- `rank` grows along every pointer and is at most `bound`. -/
def Ranked (next : α → Option α) (bound : ℕ) (rank : α → ℕ) : Prop :=
  (∀ j k, next j = some k → rank j < rank k) ∧ ∀ j, rank j ≤ bound

theorem Reaches.root_none {j r : α} (reaches : Reaches next j r) : next r = none := by
  induction reaches with
  | root none => exact none
  | step _ _ ih => exact ih

/-- A root is its own key or the target of a pointer. -/
theorem Reaches.eq_or_target {j r : α} (reaches : Reaches next j r) :
    r = j ∨ ∃ x, next x = some r := by
  induction reaches with
  | root => exact .inl rfl
  | step found _ ih =>
    rcases ih with rfl | target
    · exact .inr ⟨_, found⟩
    · exact .inr target

/-- A root reaches only itself. -/
theorem Reaches.eq_of_root {j r : α} (reaches : Reaches next j r) (root : next j = none) :
    r = j := by
  cases reaches with
  | root => rfl
  | step found => rw [root] at found; cases found

variable {bound : ℕ} {rank : α → ℕ}

/-- The rank grows strictly on the way to a root that is not the key itself. -/
theorem Reaches.rank_lt {j r : α} (ranked : Ranked next bound rank) (reaches : Reaches next j r)
    (moved : j ≠ r) : rank j < rank r := by
  induction reaches with
  | root => exact absurd rfl moved
  | @step j k r found rest ih =>
    have up := ranked.1 j k found
    by_cases stays : k = r
    · subst stays
      exact up
    · exact Nat.lt_trans up (ih stays)

/-- Under a bounded rank every key reaches a root. -/
theorem Ranked.reaches (ranked : Ranked next bound rank) (j : α) : ∃ r, Reaches next j r := by
  -- induction on how far the key's rank is below the bound
  suffices chase : ∀ n, ∀ j, bound - rank j = n → ∃ r, Reaches next j r from chase _ j rfl
  intro n
  induction n using Nat.strong_induction_on with
  | _ n ih =>
    intro j below
    cases found : next j with
    | none => exact ⟨j, .root found⟩
    | some k =>
      have up := ranked.1 j k found
      have capped := ranked.2 k
      obtain ⟨r, reaches⟩ := ih (bound - rank k) (by omega) k rfl
      exact ⟨r, .step found reaches⟩

variable [DecidableEq α]

/-- Pointing a key straight at the root it reaches keeps the rank. -/
theorem Ranked.collapse (ranked : Ranked next bound rank) {j r : α} (reaches : Reaches next j r)
    (moved : j ≠ r) : Ranked (Function.update next j (some r)) bound rank := by
  refine ⟨fun x y found => ?_, ranked.2⟩
  by_cases here : x = j
  · subst here
    rw [Function.update_self, Option.some.injEq] at found
    subst found
    exact reaches.rank_lt ranked moved
  · rw [Function.update_of_ne here] at found
    exact ranked.1 x y found

/-- Pointing the keys of `merged` at a root outside it keeps a rank, one higher: the keys
pointed now are ranked at the old bound, and the roots left above them. -/
theorem Ranked.redirect (ranked : Ranked next bound rank) {base : α} {merged : List α}
    (root : next base = none) (outside : base ∉ merged) :
    ∃ rank', Ranked (fun x => if x ∈ merged then some base else next x) (bound + 1) rank' := by
  refine ⟨fun x => if x ∈ merged then bound else if next x = none then bound + 1 else rank x,
    fun x y found => ?_, fun x => ?_⟩
  · by_cases inMerged : x ∈ merged
    · simp only [inMerged, if_true, Option.some.injEq] at found
      subst found
      simp [inMerged, outside, root]
    · simp only [inMerged, if_false] at found
      have up := ranked.1 x y found
      have capped := ranked.2 y
      simp only [inMerged, found, reduceCtorEq, if_false]
      split_ifs <;> omega
  · have capped := ranked.2 x
    dsimp only
    split_ifs <;> omega

/-- Moving what one key holds onto another leaves the total over keys holding both unchanged. -/
theorem sum_update_move {ι M : Type*} [DecidableEq ι] [AddCommMonoid M] {keys : Finset ι}
    {a b : ι} (ha : a ∈ keys) (hb : b ∈ keys) (distinct : a ≠ b) (f : ι → M) :
    ∑ k ∈ keys, Function.update (Function.update f a (f a + f b)) b 0 k = ∑ k ∈ keys, f k := by
  have aLeft : a ∈ keys.erase b := Finset.mem_erase.mpr ⟨distinct, ha⟩
  have rest : ∀ k ∈ (keys.erase b).erase a,
      Function.update (Function.update f a (f a + f b)) b 0 k = f k := by
    intro k member
    obtain ⟨notA, notB, -⟩ := Finset.mem_erase.mp member |>.imp_right Finset.mem_erase.mp
    rw [Function.update_of_ne notB, Function.update_of_ne notA]
  calc ∑ k ∈ keys, Function.update (Function.update f a (f a + f b)) b 0 k
      = 0 + ((f a + f b) + ∑ k ∈ (keys.erase b).erase a, f k) := by
        rw [← Finset.add_sum_erase keys _ hb, ← Finset.add_sum_erase _ _ aLeft,
          Function.update_self, Function.update_of_ne distinct, Function.update_self,
          Finset.sum_congr rfl rest]
    _ = f b + (f a + ∑ k ∈ (keys.erase b).erase a, f k) := by
        rw [zero_add, add_assoc, add_left_comm]
    _ = ∑ k ∈ keys, f k := by
        rw [Finset.add_sum_erase _ _ aLeft, Finset.add_sum_erase _ _ hb]

/-- Adding to what one key holds adds to the total. -/
theorem sum_update_add {ι M : Type*} [DecidableEq ι] [AddCommMonoid M] {keys : Finset ι} {a : ι}
    (ha : a ∈ keys) (f : ι → M) (m : M) :
    ∑ k ∈ keys, Function.update f a (f a + m) k = ∑ k ∈ keys, f k + m := by
  have rest : ∀ k ∈ keys.erase a, Function.update f a (f a + m) k = f k :=
    fun k member => Function.update_of_ne (Finset.ne_of_mem_erase member) _ _
  rw [← Finset.add_sum_erase keys _ ha, Function.update_self, Finset.sum_congr rfl rest,
    ← Finset.add_sum_erase keys f ha, add_right_comm]

end Forwarding
