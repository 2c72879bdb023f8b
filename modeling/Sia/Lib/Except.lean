import Mathlib.Logic.Basic

/-! Validators in the `Except` monad. A chain of checks succeeds exactly when each check
succeeds in turn, and a check run over a list succeeds exactly when it succeeds on every
element; so what a successful validator establishes can be read off check by check. -/
namespace Except

variable {ε α β : Type}

/-- A check that fails with `e` when `bad` holds. -/
def failIf (bad : Prop) [Decidable bad] (e : ε) : Except ε Unit :=
  if bad then .error e else .ok ()

theorem failIf_eq_ok {bad : Prop} [Decidable bad] {e : ε} : failIf bad e = .ok () ↔ ¬ bad := by
  by_cases holds : bad <;> simp [failIf, holds]

@[simp] theorem ok_bind (a : α) (f : α → Except ε β) : (Except.ok a >>= f) = f a := rfl

theorem bind_eq_ok {x : Except ε α} {f : α → Except ε β} {b : β} :
    x >>= f = .ok b ↔ ∃ a, x = .ok a ∧ f a = .ok b := by
  cases x <;> simp [bind, Except.bind]

/-- A passed check followed by the rest of a validator: the check's condition fails and the rest
succeeds. -/
@[simp] theorem failIf_bind_eq_ok {bad : Prop} [Decidable bad] {e : ε}
    {k : Unit → Except ε β} {b : β} : (failIf bad e >>= k) = .ok b ↔ ¬ bad ∧ k () = .ok b := by
  by_cases holds : bad <;> simp [failIf, holds, bind, Except.bind]

theorem forM_eq_ok {f : α → Except ε PUnit} :
    ∀ {xs : List α}, xs.forM f = .ok () ↔ ∀ x ∈ xs, f x = .ok ()
  | [] => by simp [pure, Except.pure]
  | x :: xs => by
    show (f x >>= fun _ => xs.forM f) = _ ↔ _
    rw [bind_eq_ok, List.forall_mem_cons, ← forM_eq_ok]
    constructor
    · rintro ⟨⟨⟩, first, rest⟩
      exact ⟨first, rest⟩
    · rintro ⟨first, rest⟩
      exact ⟨(), first, rest⟩

/-- A read that succeeds hands its value and the rest of the input to the next read. -/
theorem run_bind_of_run {σ : Type} {x : StateT σ (Except ε) α} {f : α → StateT σ (Except ε) β}
    {s s' : σ} {a : α} (ran : x.run s = .ok (a, s')) : (x >>= f).run s = (f a).run s' := by
  rw [StateT.run_bind, ran]
  rfl

end Except
