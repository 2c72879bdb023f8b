import Sia.Consensus.Subscribe
import Sia.Types.Target

/-! Fork choice: `modules/consensus/accept.go` with `heavierThan`, `childDepth` and `newChild` of
`processedblock.go`. A block whose parent is known becomes a node of the block map at its
parent's child depth, and the chain switches to it only when it is heavier than the current
block by the surpass threshold. The checks of a block against its parent, the child target of
the difficulty adjustment and `forkBlockchain`, which reverts and applies diffs, are
parameters; the rest of the consensus state is opaque to fork choice. -/
namespace Sia.Consensus

open Target

/-- `SurpassThreshold`: 20%. -/
def surpassThreshold : ℚ := 20 / 100

/-- The fields of `processedBlock` that fork choice reads. -/
structure BlockNode (H : Type) where
  block : Block H
  height : ℕ
  depth : Target
  childTarget : Target

namespace BlockNode

variable {H : Type}

/-- The depth another block must go below to be heavier than `cmp`: its depth with the
difficulty of its child target times the threshold added. -/
def requirement (cmp : BlockNode H) : Option Target := do
  cmp.depth.addDifficulties (← cmp.childTarget.mulDifficulty surpassThreshold)

/-- `heavierThan`: the requirement exceeds `pb`'s depth (a smaller target is heavier). `none`
is a panic of the arithmetic. -/
def heavierThan (pb cmp : BlockNode H) : Option Bool := do
  let requirement ← cmp.requirement
  pure (decide (pb.depth < requirement))

/-- `childDepth` -/
def childDepth (pb : BlockNode H) : Option Target := pb.depth.addDifficulties pb.childTarget

/-- The requirement lies strictly below the block's own depth. -/
theorem requirement_lt {cmp : BlockNode H} {r : Target} (required : cmp.requirement = some r) :
    r < cmp.depth := by
  obtain ⟨m, -, added⟩ := Option.bind_eq_some_iff.mp required
  exact addDifficulties_lt added

/-- No block is heavier than itself. -/
theorem heavierThan_self (pb : BlockNode H) : pb.heavierThan pb ≠ some true := by
  intro heavier
  obtain ⟨r, required, lighter⟩ := Option.bind_eq_some_iff.mp heavier
  have below := requirement_lt required
  simp only [Option.pure_def, Option.some_inj, decide_eq_true_eq] at lighter
  exact absurd (lighter.trans below) (lt_irrefl _)

/-- Heaviness is a comparison with the requirement of the block compared against. -/
theorem heavierThan_of_requirement {pb cmp : BlockNode H} {r : Target}
    (required : cmp.requirement = some r) :
    pb.heavierThan cmp = some (decide (pb.depth < r)) := by
  simp only [heavierThan, required, Option.bind_eq_bind, Option.bind_some, Option.pure_def]

/-- A block no heavier than `cmp` is no heavier than a block that is heavier than `cmp`: the
requirement of each block lies below its own depth. -/
theorem heavierThan_ne_of_heavier {pb cmp newTip : BlockNode H}
    (heavier : newTip.heavierThan cmp = some true) (lighter : pb.heavierThan cmp ≠ some true) :
    pb.heavierThan newTip ≠ some true := by
  obtain ⟨r, required, below⟩ := Option.bind_eq_some_iff.mp heavier
  simp only [Option.pure_def, Option.some_inj, decide_eq_true_eq] at below
  rw [heavierThan_of_requirement required, ne_eq, Option.some_inj, decide_eq_true_eq] at lighter
  intro heavierStill
  obtain ⟨r', required', below'⟩ := Option.bind_eq_some_iff.mp heavierStill
  simp only [Option.pure_def, Option.some_inj, decide_eq_true_eq] at below'
  -- pb.depth < r' < newTip.depth < r ≤ pb.depth
  exact lighter ((below'.trans (requirement_lt required')).trans below)

end BlockNode

/-- The consensus set as fork choice sees it: the `BlockMap` bucket, the current block, and the
rest of the state, which only `forkBlockchain` reads and writes. -/
structure ForkState (H σ : Type) where
  blockMap : Bucket H (BlockNode H)
  currentBlock : H
  rest : σ

/-- The errors `managedAcceptBlocks` returns. -/
inductive AcceptError (ε : Type) where
  /-- `errNonLinearChain` -/
  | nonLinearChain
  /-- `modules.ErrBlockKnown` -/
  | blockKnown
  /-- `errOrphan` -/
  | orphan
  /-- An error of the block's checks or of `forkBlockchain`. -/
  | invalid (err : ε)
  /-- `modules.ErrNonExtendingBlock` -/
  | nonExtendingBlock
  /-- The sanity check on a change that reverts more blocks than it applies. -/
  | moreReverted
  deriving DecidableEq, Repr

section Accept

variable {H σ ε : Type} [DecidableEq H] (env : Env H)
  -- the checks of `validateHeaderAndBlock` once the parent is found: DoS blocks, nonce, target,
  -- timestamps and `ValidateBlock`
  (validateBlock : ForkState H σ → Block H → BlockNode H → Except ε Unit)
  -- `setChildTarget` before the Oak hardfork and `childTargetOak` after it
  (childTarget : Bucket H (BlockNode H) → BlockNode H → Block H → Target)
  -- `forkBlockchain`: the reverted and the applied blocks, or the error of a block on the way
  (forkBlockchain : σ → BlockNode H → Except ε (σ × List (BlockNode H) × List (BlockNode H)))

/-- `validateHeaderAndBlock`: a known block, an unknown parent, or the block's checks. -/
def ForkState.validateHeaderAndBlock (st : ForkState H σ) (b : Block H) (id : H) :
    Except (AcceptError ε) (BlockNode H) :=
  if id ∈ st.blockMap then .error .blockKnown else
  match st.blockMap.lookup b.parentID with
  | none => .error .orphan
  | some parent =>
    match validateBlock st b parent with
    | .error err => .error (.invalid err)
    | .ok () => .ok parent

/-- `newChild`: the node at the parent's child depth, put into the block map at once. -/
def ForkState.newChild (st : ForkState H σ) (parent : BlockNode H) (b : Block H) :
    Option (ForkState H σ × BlockNode H) := do
  let depth ← parent.childDepth
  let child : BlockNode H := ⟨b, parent.height + 1, depth, childTarget st.blockMap parent b⟩
  pure ({ st with blockMap := st.blockMap.insert (env.blockID b) child }, child)

/-- `addBlockToTree`: the new node stays in the block map whether or not the chain moves to
it. -/
def ForkState.addBlockToTree (st : ForkState H σ) (b : Block H) (parent : BlockNode H) :
    Option (ForkState H σ × Except (AcceptError ε) (ChangeEntry H)) := do
  let (st, newNode) ← st.newChild env childTarget parent b
  let currentNode ← st.blockMap.lookup st.currentBlock
  if !(← newNode.heavierThan currentNode) then return (st, .error .nonExtendingBlock)
  match forkBlockchain st.rest newNode with
  | .error err => pure (st, .error (.invalid err))
  | .ok (rest, revertedBlocks, appliedBlocks) =>
    pure ({ st with rest, currentBlock := env.blockID b },
      .ok ⟨revertedBlocks.map (env.blockID ·.block), appliedBlocks.map (env.blockID ·.block)⟩)

/-- The loop of `managedAcceptBlocks` inside its database transaction: known blocks are
skipped, a non-extending block is kept and skipped, and any other error ends the transaction,
which then rolls back. -/
def ForkState.acceptBlocksLoop (st : ForkState H σ) (chainExtended : Bool) :
    List (Block H) → Option (Except (AcceptError ε) (ForkState H σ × Bool))
  | [] => some (.ok (st, chainExtended))
  | b :: rest =>
    match st.validateHeaderAndBlock validateBlock b (env.blockID b) with
    | .error .blockKnown => st.acceptBlocksLoop chainExtended rest
    | .error err => some (.error err)
    | .ok parent => do
      let (st, result) ← st.addBlockToTree env childTarget forkBlockchain b parent
      match result with
      | .ok ce =>
        if ce.appliedBlocks.length < ce.revertedBlocks.length then some (.error .moreReverted)
        else st.acceptBlocksLoop true rest
      | .error .nonExtendingBlock => st.acceptBlocksLoop chainExtended rest
      | .error err => some (.error err)

/-- Whether each block's parent is the block before it. -/
def isLinearChain (blocks : List (Block H)) : Bool :=
  (blocks.zip blocks.tail).all fun (previous, b) => decide (b.parentID = env.blockID previous)

/-- `managedAcceptBlocks`: an error inside the transaction rolls every block of the batch back;
a transaction that ends without error is committed, and the call then reports
`ErrNonExtendingBlock` unless some block extended the chain. -/
def ForkState.managedAcceptBlocks (st : ForkState H σ) (blocks : List (Block H)) :
    Option (ForkState H σ × Except (AcceptError ε) Bool) :=
  if !isLinearChain env blocks then some (st, .error .nonLinearChain) else
  (st.acceptBlocksLoop env validateBlock childTarget forkBlockchain false blocks).map fun
    | .error err => (st, .error err)
    | .ok (st', chainExtended) =>
      if chainExtended then (st', .ok true) else (st', .error .nonExtendingBlock)

/-- The states reached from `start` by calls of `managedAcceptBlocks`, whatever each returns. -/
inductive Accepts (start : ForkState H σ) : ForkState H σ → Prop
  | refl : Accepts start start
  | call {st st' : ForkState H σ} {blocks : List (Block H)} {result : Except (AcceptError ε) Bool} :
      Accepts start st →
      st.managedAcceptBlocks env validateBlock childTarget forkBlockchain blocks =
        some (st', result) →
      Accepts start st'

/-- The block map of a new consensus set: the genesis node only, as the current block. -/
def ForkState.genesis (genesisNode : BlockNode H) (rest : σ) : ForkState H σ :=
  ⟨Finmap.singleton (env.blockID genesisNode.block) genesisNode, env.blockID genesisNode.block,
    rest⟩

end Accept

/-! ### What one block can do -/

section Steps

variable {H σ ε : Type} [DecidableEq H] {env : Env H}
  {validateBlock : ForkState H σ → Block H → BlockNode H → Except ε Unit}
  {childTarget : Bucket H (BlockNode H) → BlockNode H → Block H → Target}
  {forkBlockchain : σ → BlockNode H → Except ε (σ × List (BlockNode H) × List (BlockNode H))}

namespace ForkState

theorem newChild_eq_some {st mid : ForkState H σ} {parent child : BlockNode H} {b : Block H}
    (made : st.newChild env childTarget parent b = some (mid, child)) :
    parent.childDepth = some child.depth ∧ child.block = b ∧
      mid = { st with blockMap := st.blockMap.insert (env.blockID b) child } := by
  obtain ⟨depth, deeper, made⟩ := Option.bind_eq_some_iff.mp made
  simp only [Option.pure_def, Option.some_inj, Prod.mk.injEq] at made
  obtain ⟨rfl, rfl⟩ := made
  exact ⟨deeper, rfl, rfl⟩

/-- What `addBlockToTree` can do once the new node is in the block map: stop at a node that is
not heavier than the current block, fail in `forkBlockchain`, or move the chain to the node. -/
theorem addBlockToTree_eq_some {st st' : ForkState H σ} {b : Block H} {parent : BlockNode H}
    {result : Except (AcceptError ε) (ChangeEntry H)}
    (added : st.addBlockToTree env childTarget forkBlockchain b parent = some (st', result)) :
    ∃ mid child current, st.newChild env childTarget parent b = some (mid, child) ∧
      mid.blockMap.lookup mid.currentBlock = some current ∧
      ((child.heavierThan current = some false ∧ st' = mid ∧
          result = .error .nonExtendingBlock) ∨
        (child.heavierThan current = some true ∧ ∃ err,
          forkBlockchain mid.rest child = .error err ∧ st' = mid ∧
          result = .error (.invalid err)) ∨
        (child.heavierThan current = some true ∧ ∃ rest revertedBlocks appliedBlocks,
          forkBlockchain mid.rest child = .ok (rest, revertedBlocks, appliedBlocks) ∧
          st' = { mid with rest, currentBlock := env.blockID b } ∧
          result = .ok ⟨revertedBlocks.map (env.blockID ·.block),
            appliedBlocks.map (env.blockID ·.block)⟩)) := by
  obtain ⟨⟨mid, child⟩, made, added⟩ := Option.bind_eq_some_iff.mp added
  obtain ⟨current, found, added⟩ := Option.bind_eq_some_iff.mp added
  obtain ⟨heavy, weighed, added⟩ := Option.bind_eq_some_iff.mp added
  refine ⟨mid, child, current, made, found, ?_⟩
  cases heavy with
  | false =>
    simp only [Bool.not_false, if_true, Option.pure_def, Option.some_inj, Prod.mk.injEq] at added
    exact .inl ⟨weighed, added.1.symm, added.2.symm⟩
  | true =>
    simp only [Bool.not_true, Bool.false_eq_true, if_false] at added
    split at added
    · simp only [Option.pure_def, Option.some_inj, Prod.mk.injEq] at added
      exact .inr (.inl ⟨weighed, _, by assumption, added.1.symm, added.2.symm⟩)
    · simp only [Option.pure_def, Option.some_inj, Prod.mk.injEq] at added
      exact .inr (.inr ⟨weighed, _, _, _, by assumption, added.1.symm, added.2.symm⟩)

theorem validateHeaderAndBlock_eq_ok {st : ForkState H σ} {b : Block H} {id : H}
    {parent : BlockNode H}
    (validated : st.validateHeaderAndBlock validateBlock b id = .ok parent) :
    id ∉ st.blockMap ∧ st.blockMap.lookup b.parentID = some parent := by
  unfold validateHeaderAndBlock at validated
  split_ifs at validated with known
  split at validated
  · cases validated
  · rename_i found
    split at validated
    · cases validated
    · cases validated
      exact ⟨known, found⟩

/-! ### The current block stays the heaviest -/

/-- No block of the block map is heavier than the current block, which is in the map. -/
def TipMaximal (st : ForkState H σ) : Prop :=
  ∃ tip, st.blockMap.lookup st.currentBlock = some tip ∧
    ∀ id node, st.blockMap.lookup id = some node → node.heavierThan tip ≠ some true

/-- A new node that is not heavier stays beside the current block; one that is heavier becomes
the current block, and no block was heavier than the old one, so none is heavier than it. -/
theorem TipMaximal.addBlockToTree {st st' : ForkState H σ} {b : Block H} {parent : BlockNode H}
    {result : Except (AcceptError ε) (ChangeEntry H)} (maximal : st.TipMaximal)
    (fresh : env.blockID b ∉ st.blockMap)
    (added : st.addBlockToTree env childTarget forkBlockchain b parent = some (st', result))
    (kept : result = .error .nonExtendingBlock ∨ ∃ ce, result = .ok ce) : st'.TipMaximal := by
  obtain ⟨tip, tipFound, noneHeavier⟩ := maximal
  obtain ⟨mid, child, current, made, found, outcome⟩ := addBlockToTree_eq_some added
  obtain ⟨-, -, rfl⟩ := newChild_eq_some made
  have otherID : st.currentBlock ≠ env.blockID b := fun same =>
    fresh (same ▸ Finmap.mem_of_lookup_eq_some tipFound)
  rw [Finmap.lookup_insert_of_ne _ otherID, tipFound, Option.some_inj] at found
  subst found
  -- a node of the new map is the new one or an old one
  have inserted : ∀ id node, (st.blockMap.insert (env.blockID b) child).lookup id = some node →
      node = child ∨ st.blockMap.lookup id = some node := by
    intro id node stored
    by_cases same : id = env.blockID b
    · rw [same, Finmap.lookup_insert, Option.some_inj] at stored
      exact .inl stored.symm
    · rw [Finmap.lookup_insert_of_ne _ same] at stored
      exact .inr stored
  rcases outcome with ⟨lighter, rfl, -⟩ | ⟨-, err, -, -, rfl⟩ | ⟨heavier, rest, -, -, -, rfl, -⟩
  · refine ⟨tip, by rw [Finmap.lookup_insert_of_ne _ otherID, tipFound], fun id node stored => ?_⟩
    rcases inserted id node stored with rfl | old
    · rw [lighter]
      exact Bool.false_ne_true ∘ Option.some_inj.mp
    · exact noneHeavier id node old
  · rcases kept with kept | ⟨ce, kept⟩ <;> cases kept
  · refine ⟨child, Finmap.lookup_insert _, fun id node stored => ?_⟩
    rcases inserted id node stored with rfl | old
    · exact BlockNode.heavierThan_self node
    · exact BlockNode.heavierThan_ne_of_heavier heavier (noneHeavier id node old)

/-- The loop keeps the current block the heaviest whenever it ends without error. -/
theorem TipMaximal.acceptBlocksLoop {st st' : ForkState H σ} {chainExtended chainExtended' : Bool}
    {blocks : List (Block H)} (maximal : st.TipMaximal)
    (accepted : st.acceptBlocksLoop env validateBlock childTarget forkBlockchain chainExtended
      blocks = some (.ok (st', chainExtended'))) : st'.TipMaximal := by
  induction blocks generalizing st chainExtended with
  | nil =>
    simp only [ForkState.acceptBlocksLoop, Option.some_inj, Except.ok.injEq, Prod.mk.injEq]
      at accepted
    exact accepted.1 ▸ maximal
  | cons b rest ih =>
    unfold ForkState.acceptBlocksLoop at accepted
    split at accepted
    · exact ih maximal accepted
    · cases accepted
    · rename_i parent validated
      have fresh := (validateHeaderAndBlock_eq_ok validated).1
      obtain ⟨⟨mid, result⟩, added, accepted⟩ := Option.bind_eq_some_iff.mp accepted
      -- the block extended the chain or was kept without extending it; any other result is an
      -- error of the transaction
      rcases result with err | ce
      · cases err
        case nonExtendingBlock => exact ih (maximal.addBlockToTree fresh added (.inl rfl)) accepted
        all_goals cases accepted
      · dsimp only at accepted
        split_ifs at accepted
        · cases accepted
        · exact ih (maximal.addBlockToTree fresh added (.inr ⟨ce, rfl⟩)) accepted

/-- Every call keeps the current block the heaviest: an error rolls the batch back, and a
committed batch went through the loop. -/
theorem TipMaximal.managedAcceptBlocks {st st' : ForkState H σ} {blocks : List (Block H)}
    {result : Except (AcceptError ε) Bool} (maximal : st.TipMaximal)
    (accepted : st.managedAcceptBlocks env validateBlock childTarget forkBlockchain blocks =
      some (st', result)) : st'.TipMaximal := by
  unfold ForkState.managedAcceptBlocks at accepted
  split at accepted
  · cases accepted
    exact maximal
  · obtain ⟨looped, ran, accepted⟩ := Option.map_eq_some_iff.mp accepted
    split at accepted
    · cases accepted
      exact maximal
    · rename_i st'' chainExtended
      have kept := maximal.acceptBlocksLoop ran
      split at accepted <;> (cases accepted; exact kept)

theorem TipMaximal.genesis (genesisNode : BlockNode H) (rest : σ) :
    (ForkState.genesis env genesisNode rest).TipMaximal := by
  refine ⟨genesisNode, Finmap.lookup_singleton_eq, fun id node stored => ?_⟩
  have atGenesis : id = env.blockID genesisNode.block :=
    (Finmap.mem_singleton _ _ _).mp (Finmap.mem_of_lookup_eq_some stored)
  rw [ForkState.genesis, atGenesis, Finmap.lookup_singleton_eq, Option.some_inj] at stored
  exact stored ▸ BlockNode.heavierThan_self genesisNode

end ForkState

/-- In every state a run of calls reaches from a new consensus set, no block of the block map
is heavier than the current block. -/
theorem tipMaximal_of_accepts {genesisNode : BlockNode H} {rest : σ} {st : ForkState H σ}
    (reached : Accepts env validateBlock childTarget forkBlockchain
      (ForkState.genesis env genesisNode rest) st) : st.TipMaximal := by
  induction reached with
  | refl => exact ForkState.TipMaximal.genesis genesisNode rest
  | call _ accepted maximal => exact maximal.managedAcceptBlocks accepted

/-! ### A block that does not extend the chain -/

end Steps

/-- A genesis node of depth 100 and child target 10, under the testing release's IDs. -/
def sideGenesis : BlockNode ℕ := ⟨⟨0, Vector.replicate 8 0, 1000, [], []⟩, 0, 100, 10⟩

/-- Its child on the current path, at the genesis node's child depth 9. -/
def sideTip : BlockNode ℕ := ⟨⟨1000, Vector.replicate 8 0, 1001, [], []⟩, 1, 9, 10⟩

def sideState : ForkState ℕ Unit :=
  ⟨(Finmap.singleton 1000 sideGenesis).insert 1001 sideTip, 1001, ()⟩

/-- A second child of the genesis block. -/
def sideBlock : Block ℕ := ⟨1000, Vector.replicate 8 1, 1002, [], []⟩

/-- Checks that pass every block, a child target that keeps the parent's, and a fork that
succeeds without reverting or applying anything. -/
def passingChecks : ForkState ℕ Unit → Block ℕ → BlockNode ℕ → Except Unit Unit :=
  fun _ _ _ => .ok ()

def keptChildTarget : Bucket ℕ (BlockNode ℕ) → BlockNode ℕ → Block ℕ → Target :=
  fun _ parent _ => parent.childTarget

def emptyFork : Unit → BlockNode ℕ → Except Unit (Unit × List (BlockNode ℕ) × List (BlockNode ℕ)) :=
  fun rest _ => .ok (rest, [], [])

end Sia.Consensus
