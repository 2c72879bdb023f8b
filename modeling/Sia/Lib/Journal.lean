import Sia.Lib.Finmap

/-! Undo logs over a finite map. A change puts a fresh key or deletes a present key and records
the value involved, so that it can be replayed forwards and undone backwards. A log that was
exact when it was written (every put on an absent key, every delete of the value actually
stored) replays to the same map and undoes, in reverse order, back to the original. -/
namespace Journal

variable {α β γ : Type*} [DecidableEq α]

inductive Change (α β : Type*) where
  | put (key : α) (value : β)
  | delete (key : α) (value : β)
  deriving DecidableEq

namespace Change

def key : Change α β → α
  | put key _ | delete key _ => key

def map (f : β → γ) : Change α β → Change α γ
  | put key value => put key (f value)
  | delete key value => delete key (f value)

def redo (m : Finmap (fun _ : α => β)) : Change α β → Finmap (fun _ : α => β)
  | put key value => m.insert key value
  | delete key _ => m.erase key

def undo (c : Change α β) (m : Finmap (fun _ : α => β)) : Finmap (fun _ : α => β) :=
  match c with
  | put key _ => m.erase key
  | delete key value => m.insert key value

/-- The change was written against `m`: a put of an absent key, a delete of the stored value. -/
def Exact (m : Finmap (fun _ : α => β)) : Change α β → Prop
  | put key _ => key ∉ m
  | delete key value => m.lookup key = some value

/-- The weight a change adds to a map's total. -/
def added (weight : α → β → ℕ) : Change α β → ℕ
  | put key value => weight key value
  | delete _ _ => 0

/-- The weight a change removes from a map's total. -/
def removed (weight : α → β → ℕ) : Change α β → ℕ
  | put _ _ => 0
  | delete key value => weight key value

omit [DecidableEq α] in
@[simp] theorem key_map (f : β → γ) (c : Change α β) : (c.map f).key = c.key := by
  cases c <;> rfl

theorem undo_redo {m : Finmap (fun _ : α => β)} {c : Change α β} (exact : c.Exact m) :
    c.undo (c.redo m) = m := by
  cases c with
  | put key value =>
    change key ∉ m at exact
    apply Finmap.ext_lookup
    intro x
    by_cases same : x = key
    · subst same
      rw [undo, redo, Finmap.lookup_erase, Finmap.lookup_eq_none.mpr exact]
    · rw [undo, redo, Finmap.lookup_erase_ne same, Finmap.lookup_insert_of_ne _ same]
  | delete key value => exact Finmap.insert_erase_of_lookup exact

theorem redo_mapValues (f : β → γ) (m : Finmap (fun _ : α => β)) (c : Change α β) :
    (c.map f).redo (m.mapValues f) = (c.redo m).mapValues f := by
  apply Finmap.ext_lookup
  intro x
  cases c with
  | put key value =>
    by_cases same : x = key
    · subst same
      simp only [map, redo, Finmap.lookup_insert, Finmap.lookup_mapValues, Option.map_some]
    · simp only [map, redo, Finmap.lookup_insert_of_ne _ same, Finmap.lookup_mapValues]
  | delete key value =>
    by_cases same : x = key
    · subst same
      simp only [map, redo, Finmap.lookup_erase, Finmap.lookup_mapValues, Option.map_none]
    · simp only [map, redo, Finmap.lookup_erase_ne same, Finmap.lookup_mapValues]

theorem undo_mapValues (f : β → γ) (m : Finmap (fun _ : α => β)) (c : Change α β) :
    (c.map f).undo (m.mapValues f) = (c.undo m).mapValues f := by
  apply Finmap.ext_lookup
  intro x
  cases c with
  | put key value =>
    by_cases same : x = key
    · subst same
      simp only [map, undo, Finmap.lookup_erase, Finmap.lookup_mapValues, Option.map_none]
    · simp only [map, undo, Finmap.lookup_erase_ne same, Finmap.lookup_mapValues]
  | delete key value =>
    by_cases same : x = key
    · subst same
      simp only [map, undo, Finmap.lookup_insert, Finmap.lookup_mapValues, Option.map_some]
    · simp only [map, undo, Finmap.lookup_insert_of_ne _ same, Finmap.lookup_mapValues]

theorem foldl_redo_mapValues (f : β → γ) (cs : List (Change α β)) (m : Finmap (fun _ : α => β)) :
    (cs.map (map f)).foldl redo (m.mapValues f) = (cs.foldl redo m).mapValues f := by
  induction cs generalizing m with
  | nil => rfl
  | cons c cs ih => rw [List.map_cons, List.foldl_cons, List.foldl_cons, redo_mapValues, ih]

theorem foldr_undo_mapValues (f : β → γ) (cs : List (Change α β)) (m : Finmap (fun _ : α => β)) :
    (cs.map (map f)).foldr undo (m.mapValues f) = (cs.foldr undo m).mapValues f := by
  induction cs with
  | nil => rfl
  | cons c cs ih => rw [List.map_cons, List.foldr_cons, List.foldr_cons, ih, undo_mapValues]

theorem exact_mapValues (f : β → γ) {m : Finmap (fun _ : α => β)} {c : Change α β}
    (exact : c.Exact m) : (c.map f).Exact (m.mapValues f) := by
  cases c with
  | put key value =>
    change key ∉ m.mapValues f
    rw [← Finmap.lookup_eq_none, Finmap.lookup_mapValues, Finmap.lookup_eq_none.mpr exact,
      Option.map_none]
  | delete key value =>
    change (m.mapValues f).lookup key = some (f value)
    rw [Finmap.lookup_mapValues, show m.lookup key = some value from exact, Option.map_some]

theorem total_redo (weight : α → β → ℕ) {m : Finmap (fun _ : α => β)} {c : Change α β}
    (exact : c.Exact m) :
    Finmap.total weight (c.redo m) + c.removed weight = Finmap.total weight m + c.added weight := by
  cases c with
  | put key value =>
    simp only [redo, removed, added, Nat.add_zero]
    rw [Finmap.total_insert_of_notMem weight value exact, Nat.add_comm]
  | delete key value =>
    simp only [redo, removed, added, Nat.add_zero]
    exact Finmap.total_erase weight exact

end Change

open Change

/-- `Logged m changes m'`: the changes, each exact against the map it was applied to, take `m`
to `m'`. -/
inductive Logged : Finmap (fun _ : α => β) → List (Change α β) → Finmap (fun _ : α => β) → Prop
  | nil (m : Finmap (fun _ : α => β)) : Logged m [] m
  | cons {m m' : Finmap (fun _ : α => β)} {c : Change α β} {cs : List (Change α β)} :
      c.Exact m → Logged (c.redo m) cs m' → Logged m (c :: cs) m'

namespace Logged

variable {m m' m'' : Finmap (fun _ : α => β)} {cs ds : List (Change α β)}

theorem single {c : Change α β} (exact : c.Exact m) : Logged m [c] (c.redo m) :=
  .cons exact (.nil _)

/-- Replaying a log from where it was written ends where it ended. -/
theorem redo_eq (logged : Logged m cs m') : cs.foldl Change.redo m = m' := by
  induction logged with
  | nil => rfl
  | cons _ _ ih => exact ih

/-- Undoing a log newest first returns to where it was written. -/
theorem undo_eq (logged : Logged m cs m') : cs.foldr Change.undo m' = m := by
  induction logged with
  | nil => rfl
  | cons exact _ ih => rw [List.foldr_cons, ih, undo_redo exact]

theorem append (first : Logged m cs m') (second : Logged m' ds m'') : Logged m (cs ++ ds) m'' := by
  induction first with
  | nil => exact second
  | cons exact _ ih => exact .cons exact (ih second)

theorem of_append (logged : Logged m (cs ++ ds) m'') :
    ∃ m', Logged m cs m' ∧ Logged m' ds m'' := by
  induction cs generalizing m with
  | nil => exact ⟨m, .nil m, logged⟩
  | cons c cs ih =>
    cases logged with
    | cons exact rest =>
      obtain ⟨middle, first, second⟩ := ih rest
      exact ⟨middle, .cons exact first, second⟩

theorem mapValues (f : β → γ) (logged : Logged m cs m') :
    Logged (m.mapValues f) (cs.map (Change.map f)) (m'.mapValues f) := by
  induction logged with
  | nil => exact .nil _
  | cons exact _ ih =>
    refine .cons (exact_mapValues f exact) ?_
    rw [redo_mapValues]
    exact ih

/-- Deleting distinct keys, each with the value stored under it, is an exact log. -/
theorem deletes :
    ∀ {m : Finmap (fun _ : α => β)} {kvs : List (α × β)}, (kvs.map Prod.fst).Nodup →
      (∀ kv ∈ kvs, m.lookup kv.1 = some kv.2) →
      Logged m (kvs.map fun kv => .delete kv.1 kv.2) (kvs.foldl (fun m kv => m.erase kv.1) m)
  | m, [], _, _ => .nil m
  | m, kv :: kvs, distinct, stored => by
    rw [List.map_cons, List.nodup_cons] at distinct
    refine .cons (stored kv List.mem_cons_self) (deletes distinct.2 fun other mem => ?_)
    -- the other keys survive the first deletion
    have apart : other.1 ≠ kv.1 := fun same =>
      distinct.1 (same ▸ List.mem_map_of_mem mem)
    rw [redo, Finmap.lookup_erase_ne apart]
    exact stored other (List.mem_cons_of_mem kv mem)

/-- What a log adds to a map's total, less what it removes. -/
theorem total (weight : α → β → ℕ) (logged : Logged m cs m') :
    Finmap.total weight m' + (cs.map (removed weight)).sum =
      Finmap.total weight m + (cs.map (added weight)).sum := by
  induction logged with
  | nil => simp
  | cons exact _ ih =>
    have step := total_redo weight exact
    simp only [List.map_cons, List.sum_cons]
    omega

end Logged

/-- `Overwrites before after c ds c'`: a log of writes to one cell, each entry recording the value
it replaced and the value it wrote, takes the cell from `c` to `c'`. -/
inductive Overwrites {δ γ : Type*} (before after : δ → γ) : γ → List δ → γ → Prop
  | nil (c : γ) : Overwrites before after c [] c
  | cons {c c' : γ} {d : δ} {ds : List δ} :
      before d = c → Overwrites before after (after d) ds c' → Overwrites before after c (d :: ds) c'

namespace Overwrites

variable {δ γ : Type*} {before after : δ → γ} {c c' c'' : γ} {ds es : List δ}

theorem single {d : δ} (replaced : before d = c) : Overwrites before after c [d] (after d) :=
  .cons replaced (.nil _)

/-- Replaying the writes ends with the last value written. -/
theorem redo_eq (log : Overwrites before after c ds c') : ds.foldl (fun _ d => after d) c = c' := by
  induction log with
  | nil => rfl
  | cons _ _ ih => exact ih

/-- Undoing the writes newest first restores the value the first one replaced. -/
theorem undo_eq (log : Overwrites before after c ds c') : ds.foldr (fun d _ => before d) c' = c := by
  induction log with
  | nil => rfl
  | cons replaced _ ih =>
    rw [List.foldr_cons]
    exact replaced

theorem append (first : Overwrites before after c ds c')
    (second : Overwrites before after c' es c'') : Overwrites before after c (ds ++ es) c'' := by
  induction first with
  | nil => exact second
  | cons replaced _ ih => exact .cons replaced (ih second)

end Overwrites

end Journal
