import Sia.Types.Transaction
import Mathlib.Data.Multiset.AddSub

/-! The weighted tree of `modules/renter/hostdb/hosttree`. A node's weight is the weight of its own
entry, if it holds one, plus the weights of its children, so that `nodeAtWeight` can pick an entry
with probability proportional to its weight; its count is the number of nodes below it, which
`recursiveInsert` uses to keep the tree balanced. Nodes are never deleted: `remove` clears a node
and subtracts its weight on the way to the root, and a later insertion may reuse it.

A node is named by its path from the root, as a pointer names it in the source; the tree only
grows, so a path keeps naming the same node. -/
namespace Sia.Renter.HostDB

/-- The fields of `modules.HostDBEntry` that the host tree reads. `K` is the public key as the
string the tree maps hosts by and `A` the net address. -/
structure HostDBEntry (K A : Type) where
  publicKey : K
  netAddress : A
  acceptingContracts : Bool
  /-- The `Success` flag of each scan, oldest first. -/
  scanHistory : List Bool
  deriving DecidableEq, Repr

/-- `hostEntry`: an entry with the weight it was inserted with. -/
structure HostEntry (K A : Type) where
  hostDBEntry : HostDBEntry K A
  weight : Currency
  deriving DecidableEq, Repr

inductive Dir where
  | left
  | right
  deriving DecidableEq, Repr

abbrev Path := List Dir

/-- `*node`, with `nil` the nil pointer. -/
inductive Node (K A : Type) where
  | nil
  | node (left right : Node K A) (count : ℕ) (taken : Bool) (weight : Currency)
      (entry : Option (HostEntry K A))
  deriving Repr

namespace Node

variable {K A : Type}

/-- The weight of a child that may be nil; a nil child adds nothing to its parent. -/
@[simp] def weight : Node K A → Currency
  | nil => 0
  | node _ _ _ _ weight _ => weight

@[simp] def count : Node K A → ℕ
  | nil => 0
  | node _ _ count _ _ _ => count

@[simp] def isNil : Node K A → Bool
  | nil => true
  | node .. => false

/-- `createNode`. -/
def createNode (entry : HostEntry K A) : Node K A :=
  node nil nil 1 true entry.weight (some entry)

/-- `n.recursiveInsert(entry)`: the number of nodes added and the path of the node that now holds
the entry. `parentless` is `n.parent == nil`, which holds of the root only. -/
def recursiveInsert (entry : HostEntry K A) (parentless : Bool) :
    Node K A → Option (ℕ × Path × Node K A)
  | nil => none
  | node left right count taken weight e =>
    if parentless && left.isNil && right.isNil && !taken then
      some (0, [], node left right count true entry.weight (some entry))
    else
      let weight := weight + entry.weight
      -- An empty node is reused without changing the count.
      if !taken then some (0, [], node left right count true weight (some entry))
      else if left.isNil then
        some (1, [.left], node (createNode entry) right (count + 1) taken weight e)
      else if right.isNil then
        some (1, [.right], node left (createNode entry) (count + 1) taken weight e)
      else if left.count ≤ right.count then
        (recursiveInsert entry false left).map fun (added, path, left) =>
          (added, .left :: path, node left right (count + added) taken weight e)
      else
        (recursiveInsert entry false right).map fun (added, path, right) =>
          (added, .right :: path, node left right (count + added) taken weight e)

/-- `n.nodeAtWeight(weight)`: the path of the node found, searched left child first, then right
child, then the node itself. `none` where the source returns nil after `build.Critical`; its
caller dereferences the result. -/
def nodeAtWeight (weight : Currency) : Node K A → Option Path
  | nil => none
  | node left right _ taken total _ =>
    if weight > total then none
    else if !left.isNil && weight < left.weight then
      (left.nodeAtWeight weight).map (.left :: ·)
    else
      let weight := if left.isNil then weight else weight - left.weight
      if !right.isNil && weight < right.weight then
        (right.nodeAtWeight weight).map (.right :: ·)
      else if !taken then none
      else some []

/-- The node a path leads to; `none` past a nil pointer. -/
def get : Path → Node K A → Option (Node K A)
  | _, nil => none
  | [], n => some n
  | .left :: path, node left .. => get path left
  | .right :: path, node _ right .. => get path right

/-- `n.entry` of the node at a path; `none` for a nil node or a nil entry. -/
def entryAt (path : Path) (n : Node K A) : Option (HostEntry K A) :=
  match n.get path with
  | some (node _ _ _ _ _ entry) => entry
  | _ => none

/-- The weight updates of `n.remove()` for the node at `path`: the node and every node above it
lose `w`, and the node is no longer taken; its entry stays. -/
def removeAlong (w : Currency) : Path → Node K A → Option (Node K A)
  | _, nil => none
  | [], node left right count _ weight entry =>
    some (node left right count false (weight - w) entry)
  | .left :: path, node left right count taken weight entry =>
    (removeAlong w path left).map fun left => node left right count taken (weight - w) entry
  | .right :: path, node left right count taken weight entry =>
    (removeAlong w path right).map fun right => node left right count taken (weight - w) entry

/-- `n.remove()` for the node at `path`, which subtracts `n.entry.weight`. -/
def remove (path : Path) (root : Node K A) : Option (Node K A) := do
  let entry ← root.entryAt path
  root.removeAlong entry.weight path

/-! The invariant of `verifyTree` and the entries the tree holds. -/

/-- The entry a node holds: its entry if it is taken. -/
def held (taken : Bool) (entry : Option (HostEntry K A)) : Option (HostEntry K A) :=
  if taken then entry else none

@[simp] theorem held_true (entry : Option (HostEntry K A)) : held true entry = entry := rfl

@[simp] theorem held_false (entry : Option (HostEntry K A)) : held false entry = none := rfl

/-- The weight a node holds itself. -/
def ownWeight (taken : Bool) (entry : Option (HostEntry K A)) : Currency :=
  ((held taken entry).map HostEntry.weight).getD 0

@[simp] theorem ownWeight_false (entry : Option (HostEntry K A)) : ownWeight false entry = 0 := rfl

@[simp] theorem ownWeight_some (e : HostEntry K A) : ownWeight true (some e) = e.weight := rfl

/-- At every node the weight is its own weight plus its children's, the count is one plus its
children's, and a taken node has an entry. -/
def Sums : Node K A → Prop
  | nil => True
  | node left right count taken weight entry =>
    weight = ownWeight taken entry + left.weight + right.weight ∧
      count = 1 + left.count + right.count ∧ (taken = true → entry.isSome) ∧ left.Sums ∧ right.Sums

/-- The entry held by the node at a path. -/
def takenAt : Path → Node K A → Option (HostEntry K A)
  | _, nil => none
  | [], node _ _ _ taken _ entry => held taken entry
  | .left :: path, node left .. => takenAt path left
  | .right :: path, node _ right .. => takenAt path right

/-- The entries held by the tree. -/
def entries : Node K A → Multiset (HostEntry K A)
  | nil => 0
  | node left right _ taken _ entry =>
    ((held taken entry).toList : Multiset (HostEntry K A)) + left.entries + right.entries

theorem isNil_eq_true {n : Node K A} : n.isNil = true ↔ n = nil := by
  cases n <;> simp

/-! ## Insertion -/

/-- What an insertion that put `e` at `path`, adding `added` nodes, leaves of `n`: the invariant,
the weight and count grown by the entry, the path free before and holding `e` after, every other
path unchanged. -/
structure Placed (e : HostEntry K A) (n n' : Node K A) (path : Path) (added : ℕ) : Prop where
  sums : n'.Sums
  notNil : n' ≠ nil
  weight_eq : n'.weight = n.weight + e.weight
  count_eq : n'.count = n.count + added
  fresh : n.takenAt path = none
  placed : n'.takenAt path = some e
  frame : ∀ q, q ≠ path → n'.takenAt q = n.takenAt q
  entries_eq : n'.entries = e ::ₘ n.entries

variable {e : HostEntry K A} {left right left' right' : Node K A} {count : ℕ} {taken : Bool}
  {weight : Currency} {entry : Option (HostEntry K A)}

theorem placed_createNode (e : HostEntry K A) : Placed e nil (createNode e) [] 1 where
  sums := by simp [createNode, Sums, ownWeight]
  notNil := by simp [createNode]
  weight_eq := by simp [createNode]
  count_eq := by simp [createNode]
  fresh := rfl
  placed := rfl
  frame := by
    rintro (_ | ⟨(_ | _), q⟩) differs
    · contradiction
    all_goals cases q <;> rfl
  entries_eq := by simp [createNode, entries]

/-- An empty node is reused for the entry. -/
theorem Placed.take (sums : (node left right count false weight entry).Sums) :
    Placed e (node left right count false weight entry)
      (node left right count true (weight + e.weight) (some e)) [] 0 where
  sums := by
    obtain ⟨total, counted, _, sumsLeft, sumsRight⟩ := sums
    refine ⟨?_, counted, by simp, sumsLeft, sumsRight⟩
    simp only [ownWeight_false] at total
    simp only [ownWeight_some, total]
    unfold Currency at *
    omega
  notNil := by simp
  weight_eq := rfl
  count_eq := rfl
  fresh := rfl
  placed := rfl
  frame := by
    rintro (_ | ⟨(_ | _), q⟩) differs
    · contradiction
    all_goals rfl
  entries_eq := by simp [entries]

/-- An insertion into the left child is one into the node. -/
theorem Placed.intoLeft {path : Path} {added : ℕ} (child : Placed e left left' path added)
    (sums : (node left right count taken weight entry).Sums) :
    Placed e (node left right count taken weight entry)
      (node left' right (count + added) taken (weight + e.weight) entry) (.left :: path) added where
  sums := by
    obtain ⟨total, counted, hasEntry, _, sumsRight⟩ := sums
    refine ⟨?_, ?_, hasEntry, child.sums, sumsRight⟩
    · rw [child.weight_eq, total]
      unfold Currency at *
      omega
    · rw [child.count_eq, counted]
      omega
  notNil := by simp
  weight_eq := rfl
  count_eq := rfl
  fresh := child.fresh
  placed := child.placed
  frame := by
    rintro (_ | ⟨(_ | _), q⟩) differs
    · rfl
    · exact child.frame q fun same => differs (by rw [same])
    · rfl
  entries_eq := by simp [entries, child.entries_eq, Multiset.add_cons]

/-- An insertion into the right child is one into the node. -/
theorem Placed.intoRight {path : Path} {added : ℕ} (child : Placed e right right' path added)
    (sums : (node left right count taken weight entry).Sums) :
    Placed e (node left right count taken weight entry)
      (node left right' (count + added) taken (weight + e.weight) entry) (.right :: path) added where
  sums := by
    obtain ⟨total, counted, hasEntry, sumsLeft, _⟩ := sums
    refine ⟨?_, ?_, hasEntry, sumsLeft, child.sums⟩
    · rw [child.weight_eq, total]
      unfold Currency at *
      omega
    · rw [child.count_eq, counted]
      omega
  notNil := by simp
  weight_eq := rfl
  count_eq := rfl
  fresh := child.fresh
  placed := child.placed
  frame := by
    rintro (_ | ⟨(_ | _), q⟩) differs
    · rfl
    · rfl
    · exact child.frame q fun same => differs (by rw [same])
  entries_eq := by simp [entries, child.entries_eq, Multiset.add_cons]

/-- A path taken before the insertion is not the one it used. -/
theorem Placed.ne_of_takenAt {n n' : Node K A} {path q : Path} {added : ℕ} {e' : HostEntry K A}
    (placed : Placed e n n' path added) (held : n.takenAt q = some e') : q ≠ path := by
  rintro rfl
  rw [placed.fresh] at held
  contradiction

/-- `recursiveInsert` succeeds on every node of a tree that keeps the invariant, and puts the entry
on a path that was free. -/
theorem recursiveInsert_placed (e : HostEntry K A) :
    ∀ (n : Node K A) (parentless : Bool), n.Sums → n ≠ nil →
      ∃ added path n', n.recursiveInsert e parentless = some (added, path, n') ∧
        Placed e n n' path added
  | nil, _, _, notNil => absurd rfl notNil
  | node left right count taken weight entry, parentless, sums, _ => by
    have total := sums.1
    unfold recursiveInsert
    split
    · next alone =>
      -- The root alone and empty weighs nothing, so setting its weight adds the entry's.
      simp only [Bool.and_eq_true, Bool.not_eq_true', isNil_eq_true] at alone
      obtain ⟨⟨⟨_, rfl⟩, rfl⟩, rfl⟩ := alone
      have empty : weight = 0 := by simpa [ownWeight] using total
      subst empty
      have placed := Placed.take (e := e) sums
      rw [Nat.zero_add] at placed
      exact ⟨_, _, _, rfl, placed⟩
    · split
      · next free =>
        simp only [Bool.not_eq_true'] at free
        subst free
        exact ⟨_, _, _, rfl, Placed.take sums⟩
      · split
        · next leftNil =>
          simp only [isNil_eq_true] at leftNil
          subst leftNil
          exact ⟨_, _, _, rfl, Placed.intoLeft (placed_createNode e) sums⟩
        · split
          · next rightNil =>
            simp only [isNil_eq_true] at rightNil
            subst rightNil
            exact ⟨_, _, _, rfl, Placed.intoRight (placed_createNode e) sums⟩
          · next leftNode rightNode =>
            simp only [isNil_eq_true] at leftNode rightNode
            split
            · obtain ⟨added, path, left', run, placed⟩ :=
                recursiveInsert_placed e left false sums.2.2.2.1 leftNode
              exact ⟨_, _, _, by rw [run]; rfl, Placed.intoLeft placed sums⟩
            · obtain ⟨added, path, right', run, placed⟩ :=
                recursiveInsert_placed e right false sums.2.2.2.2 rightNode
              exact ⟨_, _, _, by rw [run]; rfl, Placed.intoRight placed sums⟩

/-! ## Removal -/

/-- What removing the entry `e` held at `path` leaves of `n`. -/
structure Removed (e : HostEntry K A) (n n' : Node K A) (path : Path) : Prop where
  sums : n'.Sums
  notNil : n' ≠ nil
  weight_eq : n'.weight + e.weight = n.weight
  count_eq : n'.count = n.count
  cleared : n'.takenAt path = none
  frame : ∀ q, q ≠ path → n'.takenAt q = n.takenAt q
  entries_eq : n.entries = e ::ₘ n'.entries

theorem ownWeight_of_held (holds : held taken entry = some e) : ownWeight taken entry = e.weight := by
  simp [ownWeight, holds]

theorem Removed.clear (sums : (node left right count taken weight entry).Sums)
    (holds : held taken entry = some e) :
    Removed e (node left right count taken weight entry)
      (node left right count false (weight - e.weight) entry) [] where
  sums := by
    obtain ⟨total, counted, _, sumsLeft, sumsRight⟩ := sums
    refine ⟨?_, counted, by simp, sumsLeft, sumsRight⟩
    rw [ownWeight_false, total, ownWeight_of_held holds]
    unfold Currency at *
    omega
  notNil := by simp
  weight_eq := by
    have total := sums.1
    rw [ownWeight_of_held holds] at total
    simp only [Node.weight]
    unfold Currency at *
    omega
  count_eq := rfl
  cleared := rfl
  frame := by
    rintro (_ | ⟨(_ | _), q⟩) differs
    · contradiction
    all_goals rfl
  entries_eq := by simp [Node.entries, holds]

/-- A removal below the left child is one below the node. -/
theorem Removed.intoLeft {path : Path} (child : Removed e left left' path)
    (sums : (node left right count taken weight entry).Sums) :
    Removed e (node left right count taken weight entry)
      (node left' right count taken (weight - e.weight) entry) (.left :: path) where
  sums := by
    obtain ⟨total, counted, hasEntry, _, sumsRight⟩ := sums
    have lighter := child.weight_eq
    refine ⟨?_, ?_, hasEntry, child.sums, sumsRight⟩
    · unfold Currency at *
      omega
    · rw [child.count_eq, counted]
  notNil := by simp
  weight_eq := by
    have total := sums.1
    have lighter := child.weight_eq
    simp only [Node.weight]
    unfold Currency at *
    omega
  count_eq := rfl
  cleared := child.cleared
  frame := by
    rintro (_ | ⟨(_ | _), q⟩) differs
    · rfl
    · exact child.frame q fun same => differs (by rw [same])
    · rfl
  entries_eq := by simp [Node.entries, child.entries_eq, Multiset.add_cons]

/-- A removal below the right child is one below the node. -/
theorem Removed.intoRight {path : Path} (child : Removed e right right' path)
    (sums : (node left right count taken weight entry).Sums) :
    Removed e (node left right count taken weight entry)
      (node left right' count taken (weight - e.weight) entry) (.right :: path) where
  sums := by
    obtain ⟨total, counted, hasEntry, sumsLeft, _⟩ := sums
    have lighter := child.weight_eq
    refine ⟨?_, ?_, hasEntry, sumsLeft, child.sums⟩
    · unfold Currency at *
      omega
    · rw [child.count_eq, counted]
  notNil := by simp
  weight_eq := by
    have total := sums.1
    have lighter := child.weight_eq
    simp only [Node.weight]
    unfold Currency at *
    omega
  count_eq := rfl
  cleared := child.cleared
  frame := by
    rintro (_ | ⟨(_ | _), q⟩) differs
    · rfl
    · rfl
    · exact child.frame q fun same => differs (by rw [same])
  entries_eq := by simp [Node.entries, child.entries_eq, Multiset.add_cons]

/-- A path taken after the removal is not the one it cleared. -/
theorem Removed.ne_of_takenAt {n n' : Node K A} {path q : Path} {e' : HostEntry K A}
    (removed : Removed e n n' path) (held : n'.takenAt q = some e') : q ≠ path := by
  rintro rfl
  rw [removed.cleared] at held
  contradiction

/-- The weight updates of `remove` go through on every path to a taken node. -/
theorem removeAlong_removed :
    ∀ (path : Path) (n : Node K A), n.Sums → n.takenAt path = some e →
      ∃ n', n.removeAlong e.weight path = some n' ∧ Removed e n n' path
  | _, nil, _, found => by simp [takenAt] at found
  | [], node .., sums, found => ⟨_, rfl, Removed.clear sums found⟩
  | .left :: path, node left .., sums, found => by
    obtain ⟨left', run, removed⟩ := removeAlong_removed path left sums.2.2.2.1 found
    exact ⟨_, by simp [removeAlong, run], Removed.intoLeft removed sums⟩
  | .right :: path, node _ right .., sums, found => by
    obtain ⟨right', run, removed⟩ := removeAlong_removed path right sums.2.2.2.2 found
    exact ⟨_, by simp [removeAlong, run], Removed.intoRight removed sums⟩

/-- A taken node has its entry, which `remove` reads. -/
theorem entryAt_of_takenAt : ∀ (path : Path) (n : Node K A), n.takenAt path = some e →
    n.entryAt path = some e
  | _, nil, found => by simp [takenAt] at found
  | [], node _ _ _ taken _ _, found => by
    cases taken <;> simp_all [takenAt, entryAt, get]
  | .left :: path, node left .., found => entryAt_of_takenAt path left found
  | .right :: path, node _ right .., found => entryAt_of_takenAt path right found

theorem remove_removed {path : Path} {n : Node K A} (sums : n.Sums)
    (found : n.takenAt path = some e) : ∃ n', n.remove path = some n' ∧ Removed e n n' path := by
  obtain ⟨n', run, removed⟩ := removeAlong_removed path n sums found
  exact ⟨n', by simp [remove, entryAt_of_takenAt path n found, run], removed⟩

/-! ## Selection by weight -/

/-- An entry weighs no more than any subtree holding it. -/
theorem weight_le_of_takenAt :
    ∀ {path : Path} {n : Node K A}, n.Sums → n.takenAt path = some e → e.weight ≤ n.weight
  | _, nil, _, found => by simp [takenAt] at found
  | [], node .., sums, found => by
    have total := sums.1
    rw [ownWeight_of_held found] at total
    simp only [Node.weight]
    unfold Currency at *
    omega
  | .left :: _, node .., sums, found => by
    have total := sums.1
    have below := weight_le_of_takenAt sums.2.2.2.1 found
    simp only [Node.weight]
    unfold Currency at *
    omega
  | .right :: _, node .., sums, found => by
    have total := sums.1
    have below := weight_le_of_takenAt sums.2.2.2.2 found
    simp only [Node.weight]
    unfold Currency at *
    omega

/-- A child that `nodeAtWeight` passes over weighs no more than the weight searched for. -/
theorem weight_le_of_skipped {n : Node K A} {w : Currency}
    (skipped : ¬ (!n.isNil && decide (w < n.weight)) = true) : n.weight ≤ w := by
  cases n with
  | nil => simp
  | node =>
    simp only [isNil, Bool.not_false, Bool.true_and, decide_eq_true_eq] at skipped
    exact Nat.le_of_not_lt skipped

/-- Every weight below a tree's total leads `nodeAtWeight` to a taken node. -/
theorem nodeAtWeight_taken :
    ∀ (n : Node K A) (w : Currency), n.Sums → w < n.weight →
      ∃ path e, n.nodeAtWeight w = some path ∧ n.takenAt path = some e
  | nil, w, _, below => absurd below (Nat.not_lt_zero w)
  | node left right count taken total entry, w, sums, below => by
    obtain ⟨sum, -, hasEntry, sumsLeft, sumsRight⟩ := sums
    simp only [Node.weight] at below
    unfold nodeAtWeight
    rw [if_neg (by unfold Currency at *; omega)]
    split
    · next goLeft =>
      simp only [Bool.and_eq_true, decide_eq_true_eq] at goLeft
      obtain ⟨path, e, found, holds⟩ := nodeAtWeight_taken left w sumsLeft goLeft.2
      exact ⟨_, e, by rw [found]; rfl, holds⟩
    · next skipLeft =>
      have leftBelow := weight_le_of_skipped skipLeft
      -- Past the left child the search goes on from `w - left.weight` in either case.
      have shifted : (if left.isNil then w else w - left.weight) = w - left.weight := by
        cases left <;> simp
      dsimp only
      rw [shifted]
      split
      · next goRight =>
        simp only [Bool.and_eq_true, decide_eq_true_eq] at goRight
        obtain ⟨path, e, found, holds⟩ := nodeAtWeight_taken right _ sumsRight goRight.2
        exact ⟨_, e, by rw [found]; rfl, holds⟩
      · next skipRight =>
        have rightBelow := weight_le_of_skipped skipRight
        -- What is left of the search lies in the node's own weight, so the node is taken.
        cases taken with
        | false =>
          rw [ownWeight_false] at sum
          unfold Currency at *
          omega
        | true =>
          obtain ⟨e, rfl⟩ := Option.isSome_iff_exists.mp (hasEntry rfl)
          exact ⟨[], e, rfl, rfl⟩

/-! ## How the weights below the total are shared out -/

/-- The weight the node at a path holds; nothing where it holds no entry. -/
def weightAt (path : Path) (n : Node K A) : Currency :=
  ((n.takenAt path).map HostEntry.weight).getD 0

theorem weightAt_of_takenAt {path : Path} {n : Node K A} (held : n.takenAt path = some e) :
    n.weightAt path = e.weight := by
  simp [weightAt, held]

/-- Below a node's weight the search tries the left child's weights, then the right child's, then
the node itself; a nil child weighs nothing, so its nil check is the weight comparison. -/
theorem nodeAtWeight_node {w : Currency} (within : w ≤ weight) :
    (node left right count taken weight entry).nodeAtWeight w =
      if w < left.weight then (left.nodeAtWeight w).map (.left :: ·)
      else if w - left.weight < right.weight then
        (right.nodeAtWeight (w - left.weight)).map (.right :: ·)
      else if !taken then none else some [] := by
  rw [nodeAtWeight, if_neg (Nat.not_lt.mpr within)]
  cases left with
  | nil => cases right <;> simp
  | node _ _ _ _ leftWeight _ =>
    by_cases below : w < leftWeight <;> cases right <;> simp [below]

theorem nodeAtWeight_left {w : Currency} (below : w < left.weight) (within : w ≤ weight) :
    (node left right count taken weight entry).nodeAtWeight w =
      (left.nodeAtWeight w).map (.left :: ·) := by
  rw [nodeAtWeight_node within, if_pos below]

theorem nodeAtWeight_right {v : Currency} (below : v < right.weight)
    (within : left.weight + v ≤ weight) :
    (node left right count taken weight entry).nodeAtWeight (left.weight + v) =
      (right.nodeAtWeight v).map (.right :: ·) := by
  have pastLeft : ¬ left.weight + v < left.weight := Nat.not_lt.mpr (Nat.le_add_right _ _)
  rw [nodeAtWeight_node within, if_neg pastLeft, Nat.add_sub_cancel_left, if_pos below]

theorem nodeAtWeight_own {v : Currency} (within : left.weight + right.weight + v ≤ weight) :
    (node left right count taken weight entry).nodeAtWeight (left.weight + right.weight + v) =
      if !taken then none else some [] := by
  have pastLeft : ¬ left.weight + right.weight + v < left.weight := by
    unfold Currency at *
    omega
  have pastRight : ¬ left.weight + right.weight + v - left.weight < right.weight := by
    unfold Currency at *
    omega
  rw [nodeAtWeight_node within, if_neg pastLeft, if_neg pastRight]

/-- `nodeAtWeight` sends exactly as many of the weights below a tree's total to a path as the
node there holds, so a uniform draw below the total picks each entry with probability
proportional to its weight. -/
theorem countP_nodeAtWeight : ∀ (n : Node K A), n.Sums → ∀ path : Path,
    (List.range n.weight).countP (fun w => n.nodeAtWeight w = some path) = n.weightAt path
  | nil, _, path => by simp [weightAt, takenAt]
  | node left right count taken total entry, sums, path => by
    obtain ⟨sum, -, -, sumsLeft, sumsRight⟩ := sums
    -- the weights below the total are the left child's, then the right child's, then its own
    have regions : List.range total = List.range left.weight ++
        (List.range right.weight).map (left.weight + ·) ++
        (List.range (ownWeight taken entry)).map (left.weight + right.weight + ·) := by
      have shifted : ((left.weight + ·) ∘ (right.weight + ·)) = (left.weight + right.weight + ·) := by
        funext x
        exact (Nat.add_assoc _ _ _).symm
      have reordered : ownWeight taken entry + left.weight + right.weight =
          left.weight + (right.weight + ownWeight taken entry) := by
        unfold Currency at *
        omega
      rw [sum, reordered, List.range_add, List.range_add, List.map_append, List.map_map, shifted,
        List.append_assoc]
    have inLeft : (List.range left.weight).countP
        (fun w => (node left right count taken total entry).nodeAtWeight w = some path) =
        (List.range left.weight).countP
          (fun w => (left.nodeAtWeight w).map (.left :: ·) = some path) := by
      refine List.countP_congr fun w member => ?_
      have below := List.mem_range.mp member
      have within : w ≤ total := by
        unfold Currency at *
        omega
      rw [nodeAtWeight_left below within]
    have inRight : (List.range right.weight).countP
        ((fun w => (node left right count taken total entry).nodeAtWeight w = some path) ∘
          (left.weight + ·)) =
        (List.range right.weight).countP
          (fun v => (right.nodeAtWeight v).map (.right :: ·) = some path) := by
      refine List.countP_congr fun v member => ?_
      have below := List.mem_range.mp member
      have within : left.weight + v ≤ total := by
        unfold Currency at *
        omega
      rw [Function.comp_apply, nodeAtWeight_right below within]
    have inOwn : (List.range (ownWeight taken entry)).countP
        ((fun w => (node left right count taken total entry).nodeAtWeight w = some path) ∘
          (left.weight + right.weight + ·)) =
        (List.range (ownWeight taken entry)).countP
          (fun _ => (if !taken then none else some []) = some path) := by
      refine List.countP_congr fun v member => ?_
      have below := List.mem_range.mp member
      have within : left.weight + right.weight + v ≤ total := by
        unfold Currency at *
        omega
      rw [Function.comp_apply, nodeAtWeight_own within]
    simp only [Node.weight]
    rw [regions, List.countP_append, List.countP_append, List.countP_map, List.countP_map, inLeft,
      inRight, inOwn]
    cases path with
    | nil =>
      -- only the node's own weights lead to it
      cases taken <;> simp [weightAt, takenAt, ownWeight]
    | cons d q =>
      -- a path below a child is reached from that child's weights only
      cases d with
      | left => simpa [weightAt, takenAt] using countP_nodeAtWeight left sumsLeft q
      | right => simpa [weightAt, takenAt] using countP_nodeAtWeight right sumsRight q

end Node

end Sia.Renter.HostDB
