import Sia.Lib.Finmap

/-! Copies of a map kept by diffs. A publisher keeps a finite map of announced values; a
subscriber keeps, under the same keys, a view of each value. A diff names the keys the publisher
dropped and the values it announced, each filed under its own key. Applying a diff that takes the
publisher's map from `m` to `m'` brings a copy that agreed with `m` to agree with `m'`, and
applying it again changes nothing, so a subscriber told twice stays in step. -/
namespace Replica

variable {α β γ : Type*} [DecidableEq α] (key : β → α) (view : β → γ)

/-- The copy holds the view of each announced value, and nothing else. -/
def Agrees (copy : Finmap fun _ : α => γ) (m : Finmap fun _ : α => β) : Prop :=
  ∀ a, copy.lookup a = (m.lookup a).map view

/-- Applying a diff: the dropped keys are deleted, then each announced value's view is filed
under its key. -/
def apply (copy : Finmap fun _ : α => γ) (reverted : List α) (announced : List β) :
    Finmap fun _ : α => γ :=
  announced.foldl (fun copy b => copy.insert (key b) (view b))
    (reverted.foldl (fun copy a => copy.erase a) copy)

/-- A diff that takes the publisher's map from `m` to `m'`: a dropped key is gone, an announced
value is filed under its key, and every other key is as it was. -/
structure Takes (m m' : Finmap fun _ : α => β) (reverted : List α) (announced : List β) :
    Prop where
  gone : ∀ a ∈ reverted, a ∉ m'
  filed : ∀ b ∈ announced, m'.lookup (key b) = some b
  kept : ∀ a, a ∉ reverted → (∀ b ∈ announced, key b ≠ a) → m'.lookup a = m.lookup a

variable {key view} {m m' : Finmap fun _ : α => β} {reverted : List α} {announced : List β}

/-- Once the publisher is at `m'`, the same diff takes it nowhere. -/
theorem Takes.again (takes : Takes key m m' reverted announced) :
    Takes key m' m' reverted announced :=
  ⟨takes.gone, takes.filed, fun _ _ _ => rfl⟩

/-- The filing loop: a key that no value still to be filed carries must already hold its view. -/
theorem agrees_foldl_insert :
    ∀ {rest : List β} {copy : Finmap fun _ : α => γ}, (∀ b ∈ rest, m'.lookup (key b) = some b) →
      (∀ a, (∀ b ∈ rest, key b ≠ a) → copy.lookup a = (m'.lookup a).map view) →
        Agrees view (rest.foldl (fun copy b => copy.insert (key b) (view b)) copy) m'
  | [], _, _, before => fun a => before a (by simp)
  | b :: rest, copy, filed, before => by
    rw [List.foldl_cons]
    refine agrees_foldl_insert (fun b' member => filed b' (.tail _ member)) fun a others => ?_
    by_cases same : key b = a
    · subst same
      rw [Finmap.lookup_insert, filed b List.mem_cons_self, Option.map_some]
    · rw [Finmap.lookup_insert_of_ne _ (Ne.symm same)]
      exact before a fun b' member => by
        rcases List.mem_cons.mp member with rfl | later
        · exact same
        · exact others b' later

/-- A diff that reverts nothing and announces nothing under `a` leaves the copy's entry there. -/
theorem lookup_apply_of_forall_ne {copy : Finmap fun _ : α => γ} {a : α}
    (untouched : ∀ b ∈ announced, key b ≠ a) :
    (Replica.apply key view copy [] announced).lookup a = copy.lookup a := by
  unfold Replica.apply
  rw [List.foldl_nil]
  induction announced generalizing copy with
  | nil => rfl
  | cons b rest ih =>
    rw [List.foldl_cons, ih fun b' member => untouched b' (.tail _ member),
      Finmap.lookup_insert_of_ne _ (Ne.symm (untouched b List.mem_cons_self))]

/-- A copy that agreed with `m`, sent a diff that takes `m` to `m'`, agrees with `m'`. -/
theorem Agrees.apply {copy : Finmap fun _ : α => γ} (agrees : Agrees view copy m)
    (takes : Takes key m m' reverted announced) :
    Agrees view (Replica.apply key view copy reverted announced) m' := by
  refine agrees_foldl_insert takes.filed fun a untouched => ?_
  rw [Finmap.lookup_foldl_erase (fun a : α => a) reverted copy a, List.map_id']
  split
  · next dropped => rw [Finmap.lookup_eq_none.mpr (takes.gone a dropped), Option.map_none]
  · next kept => rw [agrees a, takes.kept a kept untouched]

end Replica
