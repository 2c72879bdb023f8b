import Sia.Types.Transaction
import Sia.Lib.Forwarding
import Sia.Lib.OptionLoop
import Mathlib.Data.List.Perm.Basic

/-! `findSets` of `modules/transactionpool/update.go`: the transactions of a reverted block cut
into the sets the pool takes back. Each transaction marks what it creates or revises in `objMap`
with its ID; a transaction spending a marked object joins the set of the object's marker, and one
with parents in several sets merges them into a base set, forwarding the others to it through
`forwards`. Go maps are functions updated at one key. The order in which Go ranges over the map
`parentSets` is a parameter; the final sets are listed by key, one of the orders Go may give. -/
namespace Sia.TransactionPool

/-- The hash-derived identifiers `findSets` reads: `Transaction.ID` and the IDs of the outputs
and contracts a transaction creates, each a hash of the transaction without its signatures. -/
structure TransactionIDs (H : Type) where
  transactionID : Transaction H → H
  siacoinOutputID : Transaction H → ℕ → H
  fileContractID : Transaction H → ℕ → H
  siafundOutputID : Transaction H → ℕ → H

variable {H : Type}

/-- The objects a transaction spends, in the order of its four input loops. -/
def spentObjects (t : Transaction H) : List H :=
  t.siacoinInputs.map (·.parentID) ++ t.fileContractRevisions.map (·.parentID) ++
    t.storageProofs.map (·.parentID) ++ t.siafundInputs.map (·.parentID)

/-- The objects a transaction marks as potential inputs of later ones: its siacoin outputs, its
file contracts, the contracts it revises and its siafund outputs. -/
def markedObjects (ids : TransactionIDs H) (t : Transaction H) : List H :=
  (List.range t.siacoinOutputs.length).map (ids.siacoinOutputID t) ++
    (List.range t.fileContracts.length).map (ids.fileContractID t) ++
    t.fileContractRevisions.map (·.parentID) ++
    (List.range t.siafundOutputs.length).map (ids.siafundOutputID t)

/-- The maps of `findSets`. -/
structure SetFinder (H : Type) where
  txMap : H → Option ℕ
  setMap : ℕ → Option (List (Transaction H))
  objMap : H → Option H
  forwards : ℕ → Option ℕ

namespace SetFinder

def empty : SetFinder H := ⟨fun _ => none, fun _ => none, fun _ => none, fun _ => none⟩

/-- The loop of `forward(prev)`: `ret` is the set reached and `next` what `forwards` holds for it;
each step points `prev` straight at `next` before reading on. Running out of fuel stands for a
loop that does not end. -/
def forwardLoop (prev : ℕ) : ℕ → (ℕ → Option ℕ) → ℕ → Option ℕ → Option (ℕ × (ℕ → Option ℕ))
  | _, forwards, ret, none => some (ret, forwards)
  | 0, _, _, some _ => none
  | fuel + 1, forwards, _, some next =>
    let forwards := Function.update forwards prev (some next)
    forwardLoop prev fuel forwards next (forwards next)

/-- `forward(prev)`, with the `forwards` it leaves. -/
def forward (fuel : ℕ) (forwards : ℕ → Option ℕ) (prev : ℕ) : Option (ℕ × (ℕ → Option ℕ)) :=
  forwardLoop prev fuel forwards prev (forwards prev)

/-- `parentSets[parentSet] = struct{}{}`: a set found again is not added twice. -/
def addParent (parentSet : ℕ) (parentSets : List ℕ) : List ℕ :=
  if parentSet ∈ parentSets then parentSets else parentSets ++ [parentSet]

/-- One object of a transaction's input loops: an object that `objMap` marks adds the set its
marker's set is forwarded to. A missing key of `txMap` reads as Go's zero value. -/
def lookupParent (fuel : ℕ) (txMap : H → Option ℕ) (objMap : H → Option H)
    (acc : List ℕ × (ℕ → Option ℕ)) (obj : H) : Option (List ℕ × (ℕ → Option ℕ)) :=
  match objMap obj with
  | none => some acc
  | some txid => (forward fuel acc.2 ((txMap txid).getD 0)).map fun (parentSet, forwards) =>
    (addParent parentSet acc.1, forwards)

/-- One iteration of the merge loop: `j` is forwarded to `base`, and its transactions are
appended to `base`'s set before its own set is deleted. -/
def mergeSet (base : ℕ) (s : SetFinder H) (j : ℕ) : SetFinder H :=
  let merged := (s.setMap base).getD [] ++ (s.setMap j).getD []
  { s with
    forwards := Function.update s.forwards j (some base)
    setMap := Function.update (Function.update s.setMap base (some merged)) j none }

variable [DecidableEq H]

/-- A transaction with no parent set starts its own, keyed by its index. -/
def newSet (tid : H) (t : Transaction H) (i : ℕ) (s : SetFinder H) : SetFinder H :=
  { s with
    txMap := Function.update s.txMap tid (some i)
    setMap := Function.update s.setMap i (some [t]) }

/-- A transaction with parent sets joins the first, into which the others are merged. -/
def joinSets (tid : H) (t : Transaction H) (base : ℕ) (rest : List ℕ) (s : SetFinder H) :
    SetFinder H :=
  let s := rest.foldl (mergeSet base) { s with txMap := Function.update s.txMap tid (some base) }
  { s with setMap := Function.update s.setMap base (some ((s.setMap base).getD [] ++ [t])) }

/-- Marks each object with `tid`; the last marker of an object wins. -/
def mark (tid : H) (objMap : H → Option H) (objs : List H) : H → Option H :=
  objs.foldl (fun objMap obj => Function.update objMap obj (some tid)) objMap

/-- One iteration of the main loop, for the `i`-th transaction `t`. `order i parentSets` is the
order in which Go ranges over the map `parentSets`. -/
def addTransaction (ids : TransactionIDs H) (order : ℕ → List ℕ → List ℕ) (fuel : ℕ)
    (s : SetFinder H) (t : Transaction H) (i : ℕ) : Option (SetFinder H) := do
  let tid := ids.transactionID t
  let (parentSets, forwards) ←
    (spentObjects t).foldlM (lookupParent fuel s.txMap s.objMap) ([], s.forwards)
  let s ← if parentSets = [] then some (newSet tid t i { s with forwards })
    else match order i parentSets with
      -- `parentsSlice[0]` of an empty slice panics
      | [] => none
      | base :: rest => some (joinSets tid t base rest { s with forwards })
  return { s with objMap := mark tid s.objMap (markedObjects ids t) }

/-! ### The steps on sets that are not forwarded -/

section Steps

variable {fuel : ℕ} {forwards : ℕ → Option ℕ} {txMap : H → Option ℕ} {objMap : H → Option H}

/-- `forward` of a set that is not forwarded returns it and changes nothing. -/
theorem forward_root {prev : ℕ} (root : forwards prev = none) :
    forward fuel forwards prev = some (prev, forwards) := by
  rw [forward, root, forwardLoop]

theorem addParent_idem (parentSet : ℕ) (parentSets : List ℕ) :
    addParent parentSet (addParent parentSet parentSets) = addParent parentSet parentSets := by
  by_cases found : parentSet ∈ parentSets <;> simp [addParent, found]

omit [DecidableEq H] in
/-- Objects nobody marked add no parent. -/
theorem foldlM_lookupParent_unmarked {objs : List H} (unmarked : ∀ obj ∈ objs, objMap obj = none)
    (acc : List ℕ × (ℕ → Option ℕ)) :
    objs.foldlM (lookupParent fuel txMap objMap) acc = some acc := by
  induction objs generalizing acc with
  | nil => rfl
  | cons obj rest ih =>
    rw [List.foldlM_cons, lookupParent, unmarked obj List.mem_cons_self, Option.bind_eq_bind,
      Option.bind_some]
    exact ih (fun obj member => unmarked obj (List.mem_cons_of_mem _ member)) _

omit [DecidableEq H] in
/-- An object marked by a transaction whose set is not forwarded adds that set. -/
theorem lookupParent_root {obj txid : H} (marked : objMap obj = some txid)
    (root : forwards ((txMap txid).getD 0) = none) (parentSets : List ℕ) :
    lookupParent fuel txMap objMap (parentSets, forwards) obj =
      some (addParent ((txMap txid).getD 0) parentSets, forwards) := by
  simp [lookupParent, marked, forward_root root]

/-- Objects all marked by one transaction whose set is not forwarded add that set once, if any
of them is marked at all. -/
theorem foldlM_lookupParent_one {objs : List H} {txid : H}
    (root : forwards ((txMap txid).getD 0) = none)
    (only : ∀ obj ∈ objs, objMap obj = none ∨ objMap obj = some txid) (parentSets : List ℕ) :
    objs.foldlM (lookupParent fuel txMap objMap) (parentSets, forwards) =
      some (if ∃ obj ∈ objs, objMap obj = some txid then
        addParent ((txMap txid).getD 0) parentSets else parentSets, forwards) := by
  induction objs generalizing parentSets with
  | nil => simp
  | cons obj rest ih =>
    have restOnly : ∀ obj ∈ rest, objMap obj = none ∨ objMap obj = some txid :=
      fun obj member => only obj (List.mem_cons_of_mem _ member)
    rw [List.foldlM_cons]
    rcases only obj List.mem_cons_self with unmarked | marked
    · rw [lookupParent, unmarked, Option.bind_eq_bind, Option.bind_some, ih restOnly]
      simp [unmarked]
    · rw [lookupParent_root marked root, Option.bind_eq_bind, Option.bind_some, ih restOnly]
      -- the set is added here, so adding it again later changes nothing
      by_cases later : ∃ obj ∈ rest, objMap obj = some txid <;>
        simp [later, marked, addParent_idem]

theorem mark_apply (tid : H) (objMap : H → Option H) (objs : List H) (obj : H) :
    mark tid objMap objs obj = if obj ∈ objs then some tid else objMap obj := by
  induction objs generalizing objMap with
  | nil => simp [mark]
  | cons o rest ih =>
    simp only [mark, List.foldl_cons] at ih ⊢
    rw [ih]
    by_cases same : obj = o <;> simp [same]

variable {ids : TransactionIDs H} {order : ℕ → List ℕ → List ℕ} {s : SetFinder H}
  {t : Transaction H} {i : ℕ}

/-- A transaction that spends nothing marked starts its own set. -/
theorem addTransaction_unmarked (unmarked : ∀ obj ∈ spentObjects t, s.objMap obj = none) :
    addTransaction ids order fuel s t i = some { newSet (ids.transactionID t) t i s with
      objMap := mark (ids.transactionID t) s.objMap (markedObjects ids t) } := by
  simp only [addTransaction, foldlM_lookupParent_unmarked unmarked, Option.bind_eq_bind,
    Option.bind_some, if_true]
  rfl

/-- A transaction whose marked inputs were all marked by one transaction, whose set is not
forwarded, joins that set. -/
theorem addTransaction_one_parent {txid : H} (ordered : ∀ i parentSets, (order i parentSets).Perm parentSets)
    (root : s.forwards ((s.txMap txid).getD 0) = none)
    (only : ∀ obj ∈ spentObjects t, s.objMap obj = none ∨ s.objMap obj = some txid)
    (hit : ∃ obj ∈ spentObjects t, s.objMap obj = some txid) :
    addTransaction ids order fuel s t i =
      some { joinSets (ids.transactionID t) t ((s.txMap txid).getD 0) [] s with
        objMap := mark (ids.transactionID t) s.objMap (markedObjects ids t) } := by
  have single : order i [(s.txMap txid).getD 0] = [(s.txMap txid).getD 0] :=
    List.perm_singleton.mp (ordered i _)
  simp only [addTransaction, foldlM_lookupParent_one root only, if_pos hit, addParent,
    List.not_mem_nil, if_false, List.nil_append, Option.bind_eq_bind, Option.bind_some,
    reduceCtorEq, single]
  rfl

end Steps

/-! ### Every run returns, and its sets partition the transactions -/

section Partition

open Forwarding

variable {forwards : ℕ → Option ℕ} {bound : ℕ} {rank : ℕ → ℕ}

omit [DecidableEq H] in
/-- The loop of `forward` chases the chain from `ret` to its root, pointing `prev` at each set it
passes; with fuel for the rest of the chain it ends with `prev` pointed at the root. -/
theorem forwardLoop_reaches (ranked : Ranked forwards bound rank) {prev ret root : ℕ}
    (reaches : Reaches forwards ret root) (above : rank prev < rank ret) :
    ∀ fuel, bound - rank ret ≤ fuel →
      forwardLoop prev fuel (Function.update forwards prev (some ret)) ret (forwards ret) =
        some (root, Function.update forwards prev (some root)) := by
  induction reaches with
  | root none =>
    intro fuel _
    rw [none, forwardLoop]
  | @step ret next root found rest ih =>
    intro fuel enough
    have up := ranked.1 ret next found
    have capped := ranked.2 next
    obtain ⟨fuel, rfl⟩ : ∃ fuel', fuel = fuel' + 1 := ⟨fuel - 1, by omega⟩
    -- the chain never comes back to `prev`, whose rank is below all of it
    have away : next ≠ prev := by
      rintro rfl
      omega
    rw [found, forwardLoop, Function.update_idem, Function.update_of_ne away]
    exact ih (Nat.lt_trans above up) fuel (by omega)

omit [DecidableEq H] in
/-- `forward` of a forwarded set returns its root and points it straight there. -/
theorem forward_forwarded (ranked : Ranked forwards bound rank) {prev next root : ℕ}
    (found : forwards prev = some next) (reaches : Reaches forwards prev root) {fuel : ℕ}
    (enough : bound ≤ fuel) :
    forward fuel forwards prev = some (root, Function.update forwards prev (some root)) := by
  cases reaches with
  | root none => rw [found] at none; cases none
  | step found' rest =>
    rw [found] at found'
    cases found'
    have up := ranked.1 prev next found
    have capped := ranked.2 next
    obtain ⟨fuel, rfl⟩ : ∃ fuel', fuel = fuel' + 1 := ⟨fuel - 1, by omega⟩
    have away : next ≠ prev := by
      rintro rfl
      omega
    rw [forward, found, forwardLoop, Function.update_of_ne away]
    exact forwardLoop_reaches ranked rest up fuel (by omega)

/-- What the input loops keep: forwarding stays ranked below `i` and points below `i`, and the
parent sets found so far are distinct sets below `i` that are not forwarded. -/
structure Gathered (i : ℕ) (parentSets : List ℕ) (forwards : ℕ → Option ℕ) : Prop where
  ranked : ∃ rank, Ranked forwards i rank
  below : ∀ j k, forwards j = some k → k < i
  roots : ∀ p ∈ parentSets, forwards p = none ∧ p < i
  distinct : parentSets.Nodup

variable {i : ℕ} {parentSets : List ℕ}

theorem Gathered.addParent (gathered : Gathered i parentSets forwards) {root : ℕ}
    (isRoot : forwards root = none) (rootBelow : root < i) :
    Gathered i (addParent root parentSets) forwards where
  ranked := gathered.ranked
  below := gathered.below
  roots p member := by
    unfold SetFinder.addParent at member
    split at member
    · exact gathered.roots p member
    · rcases List.mem_append.mp member with earlier | last
      · exact gathered.roots p earlier
      · rw [List.mem_singleton.mp last]
        exact ⟨isRoot, rootBelow⟩
  distinct := by
    unfold SetFinder.addParent
    split
    · exact gathered.distinct
    · next fresh => exact List.nodup_append.mpr ⟨gathered.distinct, List.nodup_singleton _,
        fun p member q last same => fresh (by rw [List.mem_singleton.mp last] at same; rwa [← same])⟩

/-- Pointing a forwarded set at its root keeps what the loops keep. -/
theorem Gathered.collapse (gathered : Gathered i parentSets forwards) {prev next root : ℕ}
    (found : forwards prev = some next) (reaches : Reaches forwards prev root) (rootBelow : root < i) :
    Gathered i parentSets (Function.update forwards prev (some root)) where
  ranked := by
    obtain ⟨rank, ranked⟩ := gathered.ranked
    have moved : prev ≠ root := by
      rintro rfl
      rw [reaches.root_none] at found
      cases found
    exact ⟨rank, ranked.collapse reaches moved⟩
  below j k pointed := by
    by_cases here : j = prev
    · subst here
      rw [Function.update_self, Option.some.injEq] at pointed
      rw [← pointed]
      exact rootBelow
    · rw [Function.update_of_ne here] at pointed
      exact gathered.below j k pointed
  roots p member := by
    obtain ⟨isRoot, pBelow⟩ := gathered.roots p member
    have other : p ≠ prev := by
      rintro rfl
      rw [isRoot] at found
      cases found
    exact ⟨by rw [Function.update_of_ne other, isRoot], pBelow⟩
  distinct := gathered.distinct

variable {fuel : ℕ} {txMap : H → Option ℕ} {objMap : H → Option H}

omit [DecidableEq H] in
/-- One object of the input loops keeps what they keep, and its `forward` loop returns. -/
theorem lookupParent_gathered (txBelow : ∀ tid k, txMap tid = some k → k < i)
    (known : ∀ obj txid, objMap obj = some txid → txMap txid ≠ none) (enough : i ≤ fuel)
    (gathered : Gathered i parentSets forwards) (obj : H) :
    ∃ parentSets' forwards', lookupParent fuel txMap objMap (parentSets, forwards) obj =
      some (parentSets', forwards') ∧ Gathered i parentSets' forwards' := by
  cases marked : objMap obj with
  | none => exact ⟨_, _, by rw [lookupParent, marked], gathered⟩
  | some txid =>
    obtain ⟨k, slot⟩ := Option.ne_none_iff_exists'.mp (known obj txid marked)
    have prevBelow : (txMap txid).getD 0 < i := by
      rw [slot]
      exact txBelow txid k slot
    obtain ⟨rank, ranked⟩ := gathered.ranked
    obtain ⟨root, reaches⟩ := ranked.reaches ((txMap txid).getD 0)
    have rootBelow : root < i := by
      rcases reaches.eq_or_target with same | ⟨x, target⟩
      · rw [same]
        exact prevBelow
      · exact gathered.below x root target
    cases found : forwards ((txMap txid).getD 0) with
    | none =>
      -- the marker's set is not forwarded: it is its own root
      have same := reaches.eq_of_root found
      subst same
      refine ⟨_, _, ?_, gathered.addParent found rootBelow⟩
      rw [lookupParent_root marked found]
    | some next =>
      have collapsed := gathered.collapse found reaches rootBelow
      have isRoot : Function.update forwards ((txMap txid).getD 0) (some root) root = none := by
        have other : root ≠ (txMap txid).getD 0 := by
          rintro same
          rw [← same, reaches.root_none] at found
          cases found
        rw [Function.update_of_ne other, reaches.root_none]
      refine ⟨_, _, ?_, collapsed.addParent isRoot rootBelow⟩
      simp only [lookupParent, marked, forward_forwarded ranked found reaches enough,
        Option.map_some]

omit [DecidableEq H] in
/-- The input loops return and keep what they keep. -/
theorem foldlM_lookupParent_gathered (txBelow : ∀ tid k, txMap tid = some k → k < i)
    (known : ∀ obj txid, objMap obj = some txid → txMap txid ≠ none) (enough : i ≤ fuel) :
    ∀ (objs : List H) (parentSets : List ℕ) (forwards : ℕ → Option ℕ),
      Gathered i parentSets forwards →
      ∃ parentSets' forwards', objs.foldlM (lookupParent fuel txMap objMap)
        (parentSets, forwards) = some (parentSets', forwards') ∧ Gathered i parentSets' forwards'
  | [], parentSets, forwards, gathered => ⟨parentSets, forwards, rfl, gathered⟩
  | obj :: rest, parentSets, forwards, gathered => by
    obtain ⟨parentSets₁, forwards₁, looked, gathered₁⟩ :=
      lookupParent_gathered txBelow known enough gathered obj
    obtain ⟨parentSets', forwards', folded, gathered'⟩ :=
      foldlM_lookupParent_gathered txBelow known enough rest parentSets₁ forwards₁ gathered₁
    refine ⟨parentSets', forwards', ?_, gathered'⟩
    rw [List.foldlM_cons, looked, Option.bind_eq_bind, Option.bind_some, folded]

theorem Gathered.mono (gathered : Gathered i [] forwards) : Gathered (i + 1) [] forwards where
  ranked := by
    obtain ⟨rank, ranked⟩ := gathered.ranked
    exact ⟨rank, ranked.1, fun j => Nat.le_succ_of_le (ranked.2 j)⟩
  below j k pointed := Nat.lt_succ_of_lt (gathered.below j k pointed)
  roots := by simp
  distinct := List.nodup_nil

/-- The transactions the sets keyed below `n` hold. -/
def held (n : ℕ) (setMap : ℕ → Option (List (Transaction H))) : Multiset (Transaction H) :=
  ∑ k ∈ Finset.range n, ((setMap k).getD [] : Multiset (Transaction H))

omit [DecidableEq H] in
/-- Appending a transaction to a set keyed below `n` adds it to what the sets hold. -/
theorem held_append {n k : ℕ} (inside : k < n) (setMap : ℕ → Option (List (Transaction H)))
    (t : Transaction H) :
    held n (Function.update setMap k (some ((setMap k).getD [] ++ [t]))) = held n setMap + {t} := by
  have summand : (fun j => (((Function.update setMap k (some ((setMap k).getD [] ++ [t]))) j).getD []
      : Multiset (Transaction H))) = Function.update (fun j => ((setMap j).getD [] : Multiset _)) k
        (((setMap k).getD [] : Multiset _) + {t}) := by
    funext j
    by_cases here : j = k
    · subst here
      simp [← Multiset.coe_add]
    · simp [Function.update_of_ne here]
  rw [held, summand, Forwarding.sum_update_add (Finset.mem_range.mpr inside)]
  rfl

omit [DecidableEq H] in
/-- Merging a set into another, both keyed below `n`, leaves what the sets hold unchanged. -/
theorem held_mergeSet {n base j : ℕ} (baseIn : base < n) (jIn : j < n) (distinct : base ≠ j)
    (s : SetFinder H) : held n (mergeSet base s j).setMap = held n s.setMap := by
  have summand : (fun k => (((mergeSet base s j).setMap k).getD [] : Multiset (Transaction H))) =
      Function.update (Function.update (fun k => ((s.setMap k).getD [] : Multiset _)) base
        (((s.setMap base).getD [] : Multiset _) + ((s.setMap j).getD [] : Multiset _))) j 0 := by
    funext k
    by_cases atJ : k = j
    · subst atJ
      simp [mergeSet]
    · by_cases atBase : k = base
      · subst atBase
        simp [mergeSet, Function.update_of_ne atJ]
      · simp [mergeSet, Function.update_of_ne atJ, Function.update_of_ne atBase]
  rw [held, summand, Forwarding.sum_update_move (Finset.mem_range.mpr baseIn)
    (Finset.mem_range.mpr jIn) distinct]
  rfl

omit [DecidableEq H] in
theorem held_foldl_mergeSet {n base : ℕ} (baseIn : base < n) :
    ∀ (rest : List ℕ) (s : SetFinder H), (∀ j ∈ rest, j < n ∧ base ≠ j) →
      held n (rest.foldl (mergeSet base) s).setMap = held n s.setMap
  | [], _, _ => rfl
  | j :: rest, s, merged => by
    rw [List.foldl_cons, held_foldl_mergeSet baseIn rest _ fun j' member =>
      merged j' (List.mem_cons_of_mem _ member)]
    obtain ⟨jIn, distinct⟩ := merged j List.mem_cons_self
    exact held_mergeSet baseIn jIn distinct s

omit [DecidableEq H] in
/-- The merge loop points every merged set at the base. -/
theorem forwards_foldl_mergeSet (base : ℕ) :
    ∀ (rest : List ℕ) (s : SetFinder H) (x : ℕ),
      (rest.foldl (mergeSet base) s).forwards x = if x ∈ rest then some base else s.forwards x
  | [], _, _ => rfl
  | j :: rest, s, x => by
    rw [List.foldl_cons, forwards_foldl_mergeSet base rest]
    by_cases atJ : x = j
    · subst atJ
      simp [mergeSet]
    · simp [mergeSet, atJ]

omit [DecidableEq H] in
/-- The merge loop touches only `forwards` and `setMap`. -/
theorem maps_foldl_mergeSet (base : ℕ) :
    ∀ (rest : List ℕ) (s : SetFinder H),
      (rest.foldl (mergeSet base) s).txMap = s.txMap ∧ (rest.foldl (mergeSet base) s).objMap = s.objMap
  | [], _ => ⟨rfl, rfl⟩
  | j :: rest, s => by
    rw [List.foldl_cons]
    exact maps_foldl_mergeSet base rest (mergeSet base s j)

omit [DecidableEq H] in
/-- After the merge loop a set is the base or one there before. -/
theorem setMap_foldl_mergeSet (base : ℕ) :
    ∀ (rest : List ℕ) (s : SetFinder H) (k : ℕ), (rest.foldl (mergeSet base) s).setMap k ≠ none →
      k = base ∨ s.setMap k ≠ none
  | [], _, k, present => .inr present
  | j :: rest, s, k, present => by
    rw [List.foldl_cons] at present
    rcases setMap_foldl_mergeSet base rest _ k present with atBase | before
    · exact .inl atBase
    · by_cases atBase : k = base
      · exact .inl atBase
      · by_cases atJ : k = j
        · subst atJ
          simp [mergeSet] at before
        · simp only [mergeSet, Function.update_of_ne atJ, Function.update_of_ne atBase] at before
          exact .inr before

/-- What holds after the first `i` of `n` transactions, `done`, have been added: sets are keyed
below `i`, `txMap` points below `i`, a marked object's marker has a set, forwarding is ranked and
points below `i`, and the sets hold exactly `done`. -/
structure Inv (n i : ℕ) (done : List (Transaction H)) (s : SetFinder H) : Prop where
  within : i ≤ n
  setMap_below : ∀ k, s.setMap k ≠ none → k < i
  txMap_below : ∀ tid k, s.txMap tid = some k → k < i
  known : ∀ obj txid, s.objMap obj = some txid → s.txMap txid ≠ none
  gathered : Gathered i [] s.forwards
  contents : held n s.setMap = done

omit [DecidableEq H] in
theorem inv_empty (n : ℕ) : Inv n 0 [] (empty : SetFinder H) where
  within := Nat.zero_le n
  setMap_below := by simp [empty]
  txMap_below := by simp [empty]
  known := by simp [empty]
  gathered := ⟨⟨fun _ => 0, by simp [empty], fun _ => le_rfl⟩, by simp [empty], by simp,
    List.nodup_nil⟩
  contents := by simp [held, empty]

/-- Marking objects with an ID that `txMap` holds keeps every marker known. -/
theorem known_mark {objMap : H → Option H} {txMap txMap' : H → Option ℕ}
    (known : ∀ obj txid, objMap obj = some txid → txMap txid ≠ none)
    (grown : ∀ txid, txMap txid ≠ none → txMap' txid ≠ none) {tid : H}
    (present : txMap' tid ≠ none) (objs : List H) :
    ∀ obj txid, mark tid objMap objs obj = some txid → txMap' txid ≠ none := by
  intro obj txid marked
  rw [mark_apply] at marked
  split at marked
  · cases marked
    exact present
  · exact grown txid (known obj txid marked)

/-- Setting one entry of `txMap` keeps every entry it had. -/
theorem grown_update (txMap : H → Option ℕ) (tid : H) (k : ℕ) :
    ∀ txid, txMap txid ≠ none → Function.update txMap tid (some k) txid ≠ none := by
  intro txid present
  by_cases here : txid = tid
  · subst here
    simp
  · rwa [Function.update_of_ne here]

/-- Setting one entry of `txMap` to a set below `i` keeps it pointing below `i`. -/
theorem txMap_below_update {txMap : H → Option ℕ} (below : ∀ tid k, txMap tid = some k → k < i)
    (tid : H) {k : ℕ} (kBelow : k < i + 1) :
    ∀ tid' k', Function.update txMap tid (some k) tid' = some k' → k' < i + 1 := by
  intro tid' k' found
  by_cases here : tid' = tid
  · subst here
    rw [Function.update_self, Option.some.injEq] at found
    exact found ▸ kBelow
  · rw [Function.update_of_ne here] at found
    exact Nat.lt_succ_of_lt (below tid' k' found)

/-- Adding the `i`-th transaction returns and keeps the invariant, whichever order Go ranges
over the parent sets in. -/
theorem addTransaction_inv (ids : TransactionIDs H) {order : ℕ → List ℕ → List ℕ}
    (ordered : ∀ i parentSets, (order i parentSets).Perm parentSets) {n : ℕ}
    {done : List (Transaction H)} {s : SetFinder H} (inv : Inv n i done s) (room : i < n)
    (t : Transaction H) :
    ∃ s', addTransaction ids order n s t i = some s' ∧ Inv n (i + 1) (done ++ [t]) s' := by
  obtain ⟨parentSets, forwards, folded, gathered⟩ := foldlM_lookupParent_gathered inv.txMap_below
    inv.known inv.within (spentObjects t) [] s.forwards inv.gathered
  have appended : ((done ++ [t] : List (Transaction H)) : Multiset (Transaction H)) =
      held n s.setMap + {t} := by
    rw [← Multiset.coe_add, inv.contents]
    rfl
  by_cases orphan : parentSets = []
  · subst orphan
    -- no parent: `t` starts set `i`, a key no set used before
    have unused : s.setMap i = none := by
      by_contra present
      exact Nat.lt_irrefl i (inv.setMap_below i present)
    refine ⟨{ newSet (ids.transactionID t) t i { s with forwards } with
      objMap := mark (ids.transactionID t) s.objMap (markedObjects ids t) }, ?_,
      ⟨room, ?_, ?_, ?_, gathered.mono, ?_⟩⟩
    · simp only [addTransaction, folded, Option.bind_eq_bind, Option.bind_some, if_true]
      rfl
    · intro k present
      by_cases here : k = i
      · omega
      · exact Nat.lt_succ_of_lt (inv.setMap_below k (by simpa [newSet, here] using present))
    · exact txMap_below_update inv.txMap_below _ (Nat.lt_succ_self i)
    · exact known_mark inv.known (grown_update _ _ _) (by simp) _
    · have fresh : Function.update s.setMap i (some [t]) =
          Function.update s.setMap i (some ((s.setMap i).getD [] ++ [t])) := by
        rw [unused]
        rfl
      show held n (Function.update s.setMap i (some [t])) = _
      rw [fresh, held_append room, appended]
  · -- parents: `t` joins the first set Go ranges over, and the others are merged into it
    have perm := ordered i parentSets
    obtain ⟨base, rest, first⟩ : ∃ base rest, order i parentSets = base :: rest := by
      cases ranged : order i parentSets with
      | nil =>
        rw [ranged] at perm
        exact absurd perm.nil_eq.symm orphan
      | cons base rest => exact ⟨base, rest, rfl⟩
    rw [first] at perm
    have distinct : (base :: rest).Nodup := perm.nodup_iff.mpr gathered.distinct
    obtain ⟨baseRoot, baseBelow⟩ := gathered.roots base (perm.subset List.mem_cons_self)
    have restIn : ∀ j ∈ rest, j < n ∧ base ≠ j := fun j member =>
      ⟨Nat.lt_trans (gathered.roots j (perm.subset (List.mem_cons_of_mem _ member))).2 room,
        fun same => (List.nodup_cons.mp distinct).1 (same ▸ member)⟩
    let joined := rest.foldl (mergeSet base)
      { s with forwards, txMap := Function.update s.txMap (ids.transactionID t) (some base) }
    have untouched := maps_foldl_mergeSet base rest
      { s with forwards, txMap := Function.update s.txMap (ids.transactionID t) (some base) }
    refine ⟨{ joined with
      setMap := Function.update joined.setMap base (some ((joined.setMap base).getD [] ++ [t]))
      objMap := mark (ids.transactionID t) joined.objMap (markedObjects ids t) }, ?_,
      ⟨room, ?_, ?_, ?_, ?_, ?_⟩⟩
    · simp only [addTransaction, folded, Option.bind_eq_bind, Option.bind_some, if_neg orphan,
        first]
      rfl
    · intro k present
      by_cases here : k = base
      · omega
      · dsimp only at present
        rw [Function.update_of_ne here] at present
        rcases setMap_foldl_mergeSet base rest _ k present with atBase | before
        · exact absurd atBase here
        · exact Nat.lt_succ_of_lt (inv.setMap_below k before)
    · show ∀ tid k, joined.txMap tid = some k → k < i + 1
      rw [untouched.1]
      exact txMap_below_update inv.txMap_below _ (Nat.lt_succ_of_lt baseBelow)
    · show ∀ obj txid, mark _ joined.objMap _ obj = some txid → joined.txMap txid ≠ none
      rw [untouched.1, untouched.2]
      exact known_mark inv.known (grown_update _ _ _) (by simp) _
    · -- the merged sets now point at the base, which is not forwarded
      have pointed := forwards_foldl_mergeSet base rest
        { s with forwards, txMap := Function.update s.txMap (ids.transactionID t) (some base) }
      show Gathered (i + 1) [] joined.forwards
      rw [funext pointed]
      obtain ⟨rank, ranked⟩ := gathered.ranked
      refine ⟨ranked.redirect baseRoot (List.nodup_cons.mp distinct).1, ?_, by simp,
        List.nodup_nil⟩
      intro j k found
      dsimp only at found
      split at found
      · cases found
        exact Nat.lt_succ_of_lt baseBelow
      · exact Nat.lt_succ_of_lt (gathered.below j k found)
    · show held n (Function.update joined.setMap base _) = _
      rw [held_append (Nat.lt_trans baseBelow room), held_foldl_mergeSet (Nat.lt_trans baseBelow room)
        rest _ restIn, appended]

/-- Adding the transactions from index `i` on returns and keeps the invariant. -/
theorem foldlM_addTransaction_inv (ids : TransactionIDs H) {order : ℕ → List ℕ → List ℕ}
    (ordered : ∀ i parentSets, (order i parentSets).Perm parentSets) {n : ℕ} :
    ∀ (ts : List (Transaction H)) (i : ℕ) (done : List (Transaction H)) (s : SetFinder H),
      Inv n i done s → i + ts.length ≤ n →
      ∃ s', (ts.zipIdx i).foldlM (fun s (t, i) => addTransaction ids order n s t i) s = some s' ∧
        Inv n (i + ts.length) (done ++ ts) s'
  | [], i, done, s, inv, _ => ⟨s, rfl, by simpa using inv⟩
  | t :: rest, i, done, s, inv, room => by
    have fits : i + 1 + rest.length ≤ n := by
      simp only [List.length_cons] at room
      omega
    obtain ⟨s₁, added, inv₁⟩ := addTransaction_inv ids ordered inv (by omega) t
    obtain ⟨s', folded, inv'⟩ := foldlM_addTransaction_inv ids ordered rest (i + 1) _ s₁ inv₁ fits
    refine ⟨s', ?_, ?_⟩
    · rw [List.zipIdx_cons, List.foldlM_cons]
      dsimp only
      rw [added, Option.bind_eq_bind, Option.bind_some]
      exact folded
    · simpa [Nat.add_assoc, Nat.add_comm 1] using inv'

omit [DecidableEq H] in
/-- The sets keyed below `n`, listed by key, flatten to what they hold. -/
theorem coe_flatten_filterMap (setMap : ℕ → Option (List (Transaction H))) :
    ∀ n, (((List.range n).filterMap setMap).flatten : Multiset (Transaction H)) = held n setMap
  | 0 => rfl
  | n + 1 => by
    rw [List.range_succ, List.filterMap_append, List.flatten_append, ← Multiset.coe_add,
      coe_flatten_filterMap setMap n, held, held, Finset.sum_range_succ]
    cases found : setMap n <;> simp [found]

end Partition

/-! ### Every set holds a transaction -/

section NoEmpty

/-- No set of the map is empty. -/
def NoEmptySet (s : SetFinder H) : Prop := ∀ k set, s.setMap k = some set → set ≠ []

omit [DecidableEq H] in
/-- The merge loop empties the sets it merges and leaves the others but the base alone. -/
theorem setMap_foldl_mergeSet_of_ne {base k : ℕ} (other : k ≠ base) :
    ∀ (rest : List ℕ) (s : SetFinder H),
      (rest.foldl (mergeSet base) s).setMap k = if k ∈ rest then none else s.setMap k
  | [], _ => by simp
  | j :: rest, s => by
    rw [List.foldl_cons, setMap_foldl_mergeSet_of_ne other rest]
    by_cases atJ : k = j
    · subst atJ
      simp [mergeSet]
    · simp [mergeSet, atJ, Function.update_of_ne other]

theorem NoEmptySet.newSet {s : SetFinder H} (held : s.NoEmptySet) (tid : H) (t : Transaction H)
    (i : ℕ) : (newSet tid t i s).NoEmptySet := by
  intro k set found
  by_cases atI : k = i
  · subst atI
    simp only [SetFinder.newSet, Function.update_self, Option.some.injEq] at found
    rw [← found]
    exact List.cons_ne_nil t []
  · simp only [SetFinder.newSet, Function.update_of_ne atI] at found
    exact held k set found

theorem NoEmptySet.joinSets {s : SetFinder H} (held : s.NoEmptySet) (tid : H) (t : Transaction H)
    (base : ℕ) (rest : List ℕ) : (joinSets tid t base rest s).NoEmptySet := by
  intro k set found
  by_cases atBase : k = base
  · subst atBase
    simp only [SetFinder.joinSets, Function.update_self, Option.some.injEq] at found
    rw [← found]
    exact List.append_ne_nil_of_right_ne_nil _ (List.cons_ne_nil t [])
  · simp only [SetFinder.joinSets, Function.update_of_ne atBase,
      setMap_foldl_mergeSet_of_ne atBase] at found
    split at found
    · cases found
    · exact held k set found

theorem NoEmptySet.addTransaction {ids : TransactionIDs H} {order : ℕ → List ℕ → List ℕ} {fuel : ℕ}
    {s s' : SetFinder H} {t : Transaction H} {i : ℕ} (held : s.NoEmptySet)
    (added : addTransaction ids order fuel s t i = some s') : s'.NoEmptySet := by
  simp only [SetFinder.addTransaction, Option.bind_eq_bind] at added
  obtain ⟨⟨parentSets, forwards⟩, -, added⟩ := Option.bind_eq_some_iff.mp added
  have kept : ({ s with forwards } : SetFinder H).NoEmptySet := held
  dsimp only at added
  split at added
  · cases added
    exact kept.newSet (ids.transactionID t) t i
  · split at added
    · cases added
    · cases added
      exact kept.joinSets (ids.transactionID t) t _ _

end NoEmpty

end SetFinder

open SetFinder

variable [DecidableEq H]

/-- `findSets(ts)`. Each `forward` loop gets the number of transactions as fuel: a forwarding
chain passes through sets that were merged away, of which there are fewer. -/
def findSets (ids : TransactionIDs H) (order : ℕ → List ℕ → List ℕ) (ts : List (Transaction H)) :
    Option (List (List (Transaction H))) := do
  let s ← ts.zipIdx.foldlM (fun s (t, i) => addTransaction ids order ts.length s t i) empty
  return (List.range ts.length).filterMap s.setMap

/-- Every run of `findSets` returns, whichever order Go ranges over the parent sets in, and the
sets it returns hold every transaction exactly once. -/
theorem findSets_partition (ids : TransactionIDs H) (order : ℕ → List ℕ → List ℕ)
    (ordered : ∀ i parentSets, (order i parentSets).Perm parentSets) (ts : List (Transaction H)) :
    ∃ sets, findSets ids order ts = some sets ∧ sets.flatten.Perm ts := by
  obtain ⟨s, folded, inv⟩ :=
    foldlM_addTransaction_inv ids ordered ts 0 [] empty (inv_empty ts.length) (by simp)
  refine ⟨_, by rw [findSets, folded]; rfl, ?_⟩
  have contents := inv.contents
  rw [← coe_flatten_filterMap, List.nil_append] at contents
  exact Multiset.coe_eq_coe.mp contents

/-- No set `findSets` returns is empty: each starts with a transaction and only grows, and a
set merged into another is deleted. -/
theorem findSets_ne_nil {ids : TransactionIDs H} {order : ℕ → List ℕ → List ℕ}
    {ts : List (Transaction H)} {sets : List (List (Transaction H))}
    (found : findSets ids order ts = some sets) : ∀ set ∈ sets, set ≠ [] := by
  simp only [findSets, Option.bind_eq_bind] at found
  obtain ⟨s, folded, returned⟩ := Option.bind_eq_some_iff.mp found
  cases returned
  have held : s.NoEmptySet := by
    refine OptionLoop.foldlM_invariant NoEmptySet ?_ (fun _ _ none => by cases none) folded
    rintro c ⟨t, i⟩ c' - heldBefore added
    exact heldBefore.addTransaction added
  intro set member
  obtain ⟨k, -, found⟩ := List.mem_filterMap.mp member
  exact held k set found

/-! ### A revision placed before the contract it revises -/

/-- IDs that number a transaction's file contracts from 7 and derive its own ID from its
revision numbers and contract count. -/
def sampleIDs : TransactionIDs ℕ where
  transactionID t := 10 * (t.fileContractRevisions.map (·.newRevisionNumber.toNat)).sum +
    t.fileContracts.length
  siacoinOutputID _ i := 100 + i
  fileContractID _ i := 7 + i
  siafundOutputID _ i := 200 + i

/-- A revision of contract 7 with the given revision number and every other field zero. -/
def revisionOfSeven (number : UInt64) : Transaction ℕ :=
  ⟨[], [], [], [⟨7, ⟨0, [], 0⟩, number, 0, 0, 0, 0, [], [], 0⟩], [], [], [], [], [], []⟩

/-- The transaction creating contract 7. -/
def creatingSeven : Transaction ℕ :=
  ⟨[], [], [⟨0, 0, 0, 0, 0, [], [], 0, 0⟩], [], [], [], [], [], [], []⟩

end Sia.TransactionPool
