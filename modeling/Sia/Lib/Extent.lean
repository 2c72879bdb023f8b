import Mathlib.Data.List.Perm.Basic

/-! Extents: runs of consecutive positions inside numbered containers (sectors, files, pages).
Two extents are apart when they lie in different containers or one ends where or before the
other starts. An allocator that keeps its free space and its allocations as extents keeps them
pairwise apart when each step replaces one extent by pairwise apart extents inside it. -/

structure Extent where
  container : ℕ
  start : ℕ
  length : ℕ
  deriving DecidableEq, Repr

namespace Extent

/-- The first position after the extent. -/
def stop (e : Extent) : ℕ := e.start + e.length

def Apart (e f : Extent) : Prop :=
  e.container ≠ f.container ∨ e.stop ≤ f.start ∨ f.stop ≤ e.start

def Within (e f : Extent) : Prop :=
  e.container = f.container ∧ f.start ≤ e.start ∧ e.stop ≤ f.stop

instance (e f : Extent) : Decidable (Apart e f) := inferInstanceAs (Decidable (_ ∨ _))

instance (e f : Extent) : Decidable (Within e f) := inferInstanceAs (Decidable (_ ∧ _))

theorem Apart.symm {e f : Extent} (apart : Apart e f) : Apart f e := by
  rcases apart with other | before | after
  · exact .inl (Ne.symm other)
  · exact .inr (.inr before)
  · exact .inr (.inl after)

/-- A part of an extent is apart from everything the whole is apart from. -/
theorem Apart.of_within {e f g : Extent} (inside : Within e f) (apart : Apart f g) :
    Apart e g := by
  obtain ⟨same, lower, upper⟩ := inside
  rcases apart with other | before | after
  · exact .inl (same ▸ other)
  · exact .inr (.inl (Nat.le_trans upper before))
  · exact .inr (.inr (Nat.le_trans after lower))

theorem apart_of_stop_le {e f : Extent} (ordered : e.stop ≤ f.start) : Apart e f :=
  .inr (.inl ordered)

theorem apart_of_container_ne {e f : Extent} (other : e.container ≠ f.container) : Apart e f :=
  .inl other

/-- Replacing one extent of a pairwise apart list by pairwise apart parts of it keeps the list
pairwise apart. -/
theorem pairwise_apart_replace {e : Extent} {parts rest : List Extent}
    (whole : (e :: rest).Pairwise Apart) (split : parts.Pairwise Apart)
    (inside : ∀ p ∈ parts, Within p e) : (parts ++ rest).Pairwise Apart := by
  obtain ⟨fromWhole, restApart⟩ := List.pairwise_cons.mp whole
  exact List.pairwise_append.mpr
    ⟨split, restApart, fun p mem r memRest => Apart.of_within (inside p mem) (fromWhole r memRest)⟩

/-- An extent, the extents before it and the extents after it in its container are pairwise
apart when each side is. -/
theorem pairwise_apart_around {mid : Extent} {lower upper : List Extent}
    (below : ∀ e ∈ lower, e.stop ≤ mid.start) (above : ∀ e ∈ upper, mid.stop ≤ e.start)
    (lowerApart : lower.Pairwise Apart) (upperApart : upper.Pairwise Apart) :
    (mid :: (lower ++ upper)).Pairwise Apart := by
  have across : mid.start ≤ mid.stop := Nat.le_add_right _ _
  refine List.pairwise_cons.mpr ⟨fun e mem => ?_, List.pairwise_append.mpr
    ⟨lowerApart, upperApart, fun e low f up => apart_of_stop_le ?_⟩⟩
  · rcases List.mem_append.mp mem with low | up
    · exact (apart_of_stop_le (below e low)).symm
    · exact apart_of_stop_le (above e up)
  · exact Nat.le_trans (below e low) (Nat.le_trans across (above f up))

end Extent
