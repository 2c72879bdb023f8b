import Mathlib.Logic.Relation
import Mathlib.Data.List.Forall2

/-! Loops over a list in the `Option` monad, where `none` aborts the loop. A relation that each
successful step establishes, and that composes, holds between the start and the end of a
successful loop; a loop whose every step succeeds while an invariant holds succeeds. -/
namespace OptionLoop

variable {α β γ : Type*}

/-- The rule for a successful loop: each step relates its state to the next, and the relation
is reflexive and transitive. -/
theorem foldlM_rel (R : β → β → Prop) (refl : ∀ b, R b b)
    (trans : ∀ {a b c}, R a b → R b c → R a c) {f : β → α → Option β} :
    ∀ {xs : List α} {b b' : β}, (∀ c x c', x ∈ xs → f c x = some c' → R c c') →
      xs.foldlM f b = some b' → R b b'
  | [], b, b', _, ran => by
    cases ran
    exact refl b
  | x :: xs, b, b', step, ran => by
    rw [List.foldlM_cons] at ran
    obtain ⟨c, first, rest⟩ := Option.bind_eq_some_iff.mp ran
    exact trans (step b x c List.mem_cons_self first)
      (foldlM_rel R refl trans (fun c y c' mem => step c y c' (List.mem_cons_of_mem x mem)) rest)

/-- An invariant kept by every successful step holds at the end of a successful loop. -/
theorem foldlM_invariant (P : β → Prop) {f : β → α → Option β} {xs : List α} {b b' : β}
    (step : ∀ c x c', x ∈ xs → P c → f c x = some c' → P c') (start : P b)
    (ran : xs.foldlM f b = some b') : P b' :=
  foldlM_rel (fun c c' => P c → P c') (fun _ holds => holds)
    (fun first second holds => second (first holds))
    (fun c x c' mem ran holds => step c x c' mem holds ran) ran start

/-- The same rule for a loop that cannot fail. -/
theorem foldl_invariant (P : β → Prop) {g : β → α → β} (step : ∀ b x, P b → P (g b x)) :
    ∀ (xs : List α) {b : β}, P b → P (xs.foldl g b)
  | [], _, start => start
  | x :: xs, b, start => foldl_invariant P step xs (step b x start)

/-- A loop succeeds when every step succeeds from a state satisfying an invariant it keeps. -/
theorem foldlM_isSome (P : β → Prop) {f : β → α → Option β} :
    ∀ {xs : List α} {b : β}, (∀ c x, x ∈ xs → P c → ∃ c', f c x = some c' ∧ P c') → P b →
      ∃ b', xs.foldlM f b = some b' ∧ P b'
  | [], b, _, start => ⟨b, rfl, start⟩
  | x :: xs, b, step, start => by
    obtain ⟨c, first, holds⟩ := step b x List.mem_cons_self start
    obtain ⟨b', rest, final⟩ := foldlM_isSome P
      (fun c y mem => step c y (List.mem_cons_of_mem x mem)) holds
    refine ⟨b', ?_, final⟩
    rw [List.foldlM_cons, first]
    exact rest

/-- A loop whose successful steps move a projection of the state by a total function moves it by
that function's fold. -/
theorem foldlM_map (p : β → γ) (g : γ → α → γ) {f : β → α → Option β} :
    ∀ {xs : List α} {b b' : β}, (∀ c x c', x ∈ xs → f c x = some c' → p c' = g (p c) x) →
      xs.foldlM f b = some b' → p b' = xs.foldl g (p b)
  | [], b, b', _, ran => by
    cases ran
    rfl
  | x :: xs, b, b', step, ran => by
    rw [List.foldlM_cons] at ran
    obtain ⟨c, first, rest⟩ := Option.bind_eq_some_iff.mp ran
    rw [List.foldl_cons, ← step b x c List.mem_cons_self first]
    exact foldlM_map p g (fun c y c' mem => step c y c' (List.mem_cons_of_mem x mem)) rest

/-- A loop whose successful steps each set one component of the state, to a total function of
that component, sets it to that function's fold and leaves the rest. -/
theorem foldlM_set (get : β → γ) (set : γ → β → β) (get_set : ∀ c b, get (set c b) = c)
    (set_get : ∀ b, set (get b) b = b) (set_set : ∀ c c' b, set c' (set c b) = set c' b)
    (g : γ → α → γ) {f : β → α → Option β} :
    ∀ {xs : List α} {b b' : β}, (∀ c x c', x ∈ xs → f c x = some c' → c' = set (g (get c) x) c) →
      xs.foldlM f b = some b' → b' = set (xs.foldl g (get b)) b
  | [], b, b', _, ran => by
    cases ran
    exact (set_get b).symm
  | x :: xs, b, b', step, ran => by
    rw [List.foldlM_cons] at ran
    obtain ⟨c, first, rest⟩ := Option.bind_eq_some_iff.mp ran
    have moved := step b x c List.mem_cons_self first
    have later := foldlM_set get set get_set set_get set_set g
      (fun c y c' mem => step c y c' (List.mem_cons_of_mem x mem)) rest
    rw [later, moved, get_set, set_set, List.foldl_cons]

/-- `mapM` succeeds with `ys` exactly when `f` succeeds on each element with the matching `y`. -/
theorem mapM_eq_some_iff {f : α → Option γ} :
    ∀ {xs : List α} {ys : List γ}, xs.mapM f = some ys ↔ List.Forall₂ (fun x y => f x = some y) xs ys
  | [], ys => by
    cases ys <;> simp
  | x :: xs, ys => by
    rw [List.mapM_cons]
    constructor
    · intro ran
      obtain ⟨y, first, ran⟩ := Option.bind_eq_some_iff.mp ran
      obtain ⟨rest, mapped, pured⟩ := Option.bind_eq_some_iff.mp ran
      cases pured
      exact .cons first (mapM_eq_some_iff.mp mapped)
    · intro related
      cases related with
      | cons first rest =>
        rw [first, mapM_eq_some_iff.mpr rest]
        rfl

/-- `mapM` of a function that succeeds everywhere with `g` maps `g`. -/
theorem mapM_eq_some_map {f : α → Option γ} {g : α → γ} {xs : List α}
    (agree : ∀ x ∈ xs, f x = some (g x)) : xs.mapM f = some (xs.map g) :=
  mapM_eq_some_iff.mpr (List.forall₂_map_right_iff.mpr (List.forall₂_same.mpr agree))

/-- `mapM` fails exactly when `f` fails on some element. -/
theorem mapM_eq_none_iff {f : α → Option γ} :
    ∀ {xs : List α}, xs.mapM f = none ↔ ∃ x ∈ xs, f x = none
  | [] => by simp
  | x :: xs => by
    rw [List.mapM_cons]
    cases first : f x with
    | none => simp [first]
    | some y =>
      have rest : xs.mapM f = none ↔ ∃ x ∈ xs, f x = none := mapM_eq_none_iff
      cases mapped : xs.mapM f <;> simp_all

/-- Every result of a successful `mapM` comes from an element. -/
theorem mem_of_mapM_eq_some {f : α → Option γ} {xs : List α} {ys : List γ}
    (ran : xs.mapM f = some ys) {y : γ} (mem : y ∈ ys) : ∃ x ∈ xs, f x = some y := by
  induction mapM_eq_some_iff.mp ran with
  | nil => cases mem
  | @cons x y' xs ys first _ ih =>
    rcases List.mem_cons.mp mem with rfl | later
    · exact ⟨x, List.mem_cons_self, first⟩
    · obtain ⟨x', mem', mapped⟩ := ih (mapM_eq_some_iff.mpr (by assumption)) later
      exact ⟨x', List.mem_cons_of_mem x mem', mapped⟩

/-- A successful `mapM` whose results remember their element maps back to its input. -/
theorem map_of_mapM_eq_some {f : α → Option γ} (back : γ → α)
    (remembers : ∀ x y, f x = some y → back y = x) {xs : List α} {ys : List γ}
    (ran : xs.mapM f = some ys) : ys.map back = xs := by
  induction mapM_eq_some_iff.mp ran with
  | nil => rfl
  | cons first _ ih => rw [List.map_cons, remembers _ _ first, ih (mapM_eq_some_iff.mpr (by assumption))]

end OptionLoop
