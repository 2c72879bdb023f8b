import Mathlib.Algebra.BigOperators.Group.Finset.Basic
import Mathlib.Data.Fintype.Basic

/-! `memoryManager` of `modules/renter/memory.go` under interleaved calls. Each critical section
under `mu` is one step: the part of `Request` before it blocks or returns, `Return`, and the
cancellation case of the `select`. A blocked `Request` waits in a `select` on its `done` channel,
its context and the manager's `stop` channel; Go takes any ready case, so each case is an action of
its own, enabled while its channel is closed. A goroutine that was granted memory returns exactly
that amount, as the callers do.

Requests are numbered as they are made, and the elements of the two `container/list` queues by a
counter of their own: `Pop` followed by `PushFront`, and the starvation bump, put a request into a
new element, which the cancellation's `Remove` of the old element then does not find. Amounts are
`uint64`, and `build.Critical` only logs, as in a release build; the `blocking` channel, which only
tests read, is left out. -/
namespace Sia.Renter

/-- `memoryPriorityStarvationMultiple`. -/
def memoryPriorityStarvationMultiple : UInt64 := 4

/-- `memoryPriorityStarvationDivisor`. -/
def memoryPriorityStarvationDivisor : UInt64 := 4

/-- `memoryRequest`: its amount and whether its two channels are closed. -/
structure MemoryRequest where
  amount : UInt64
  canceled : Bool
  done : Bool
  deriving DecidableEq, Repr

/-- Where a goroutine is in its calls to the manager. -/
inductive RequestPhase where
  | idle
  /-- Blocked in the `select` of `Request`: its request, the element that queued it, and whether
  that was the priority queue. -/
  | waiting (request element : ℕ) (priority : Bool)
  /-- `Request` returned `true`; the goroutine holds the amount until it calls `Return`. -/
  | granted (amount : UInt64)
  /-- `Request` returned `false`. -/
  | refused
  deriving DecidableEq, Repr

/-- The memory a goroutine holds. -/
def RequestPhase.held : RequestPhase → ℕ
  | .idle => 0
  | .waiting _ _ _ => 0
  | .granted amount => amount.toNat
  | .refused => 0

/-- The manager, the channels of its requests, and the goroutines calling it. A queue holds
(request, element) pairs. -/
structure MemoryManager (τ : Type) where
  available : UInt64
  base : UInt64
  memSinceLowPriority : UInt64
  priorityReserve : UInt64
  underflow : UInt64
  fifo : List (ℕ × ℕ)
  priorityFifo : List (ℕ × ℕ)
  requests : ℕ → MemoryRequest
  requestCount : ℕ
  elementCount : ℕ
  /-- `stop` is closed. -/
  stopped : Bool
  /-- The context of each goroutine's current `Request` is done. -/
  contextDone : τ → Bool
  phase : τ → RequestPhase

/-- The interleaved steps. -/
inductive MemoryAction (τ : Type) where
  /-- `Request` up to where it blocks in the `select` or returns `true`, with a new context. -/
  | request (t : τ) (amount : UInt64) (priority : Bool)
  /-- The context of `t`'s request is cancelled. -/
  | cancel (t : τ)
  /-- The `select` of `t` takes `<-myRequest.done`. -/
  | selectDone (t : τ)
  /-- The `select` of `t` takes `<-ctx.Done()` and runs that case. -/
  | selectCanceled (t : τ)
  /-- The `select` of `t` takes `<-mm.stop`. -/
  | selectStop (t : τ)
  /-- `t` calls `Return` with the amount it was granted. -/
  | release (t : τ)
  /-- `stop` is closed. -/
  | stop

namespace MemoryManager

variable {τ : Type} [DecidableEq τ]

/-- `newMemoryManager`. -/
def new (baseMemory priorityMemory : UInt64) : MemoryManager τ where
  available := baseMemory
  base := baseMemory
  memSinceLowPriority := 0
  priorityReserve := priorityMemory
  underflow := 0
  fifo := []
  priorityFifo := []
  requests := fun _ => ⟨0, false, false⟩
  requestCount := 0
  elementCount := 0
  stopped := false
  contextDone := fun _ => false
  phase := fun _ => .idle

/-- The loop of `handleStarvation`: low priority requests move from the front of `fifo` to the back
of `priorityFifo`, each in a new element, until `limit` worth has moved. -/
def bump (requests : ℕ → MemoryRequest) (limit : UInt64) :
    UInt64 → List (ℕ × ℕ) → List (ℕ × ℕ) → ℕ → List (ℕ × ℕ) × List (ℕ × ℕ) × ℕ
  | _, [], priorityFifo, elementCount => ([], priorityFifo, elementCount)
  | totalBumped, (req, element) :: fifo, priorityFifo, elementCount =>
    if totalBumped < limit then
      bump requests limit (totalBumped + (requests req).amount) fifo (priorityFifo ++ [(req, elementCount)])
        (elementCount + 1)
    else ((req, element) :: fifo, priorityFifo, elementCount)

/-- `handleStarvation`. -/
def handleStarvation (mm : MemoryManager τ) : MemoryManager τ :=
  if mm.memSinceLowPriority < mm.base * memoryPriorityStarvationMultiple then mm
  else
    let (fifo, priorityFifo, elementCount) :=
      bump mm.requests (mm.base / memoryPriorityStarvationDivisor) 0 mm.fifo mm.priorityFifo mm.elementCount
    { mm with fifo, priorityFifo, elementCount, memSinceLowPriority := 0 }

/-- `try` (a keyword here): the manager after the attempt, and whether it granted the amount. -/
def tryGrant (mm : MemoryManager τ) (amount : UInt64) (priority : Bool) : MemoryManager τ × Bool :=
  -- the deferred function resets the starvation tracker after a low priority grant
  let memSinceLowPriority := if priority then mm.memSinceLowPriority else 0
  if mm.available ≥ amount + mm.priorityReserve ∨ (priority ∧ mm.available ≥ amount) then
    ({ mm with available := mm.available - amount, memSinceLowPriority }, true)
  else if mm.available = mm.base then
    -- nothing is in use: a request larger than the base takes all of it and records the rest
    if amount ≤ mm.available then ({ mm with available := mm.available - amount, memSinceLowPriority }, true)
    else ({ mm with available := 0, underflow := amount - mm.base, memSinceLowPriority }, true)
  else (mm, false)

/-- The part of `Request` under the lock: the request is granted at once, or joins its queue in a
new element and the goroutine blocks. -/
def request (mm : MemoryManager τ) (t : τ) (amount : UInt64) (priority : Bool) : MemoryManager τ :=
  let mm := if priority ∧ mm.fifo ≠ [] then
      { mm with memSinceLowPriority := mm.memSinceLowPriority + amount }.handleStarvation
    else mm
  let shouldTry := mm.priorityFifo = [] ∧ (priority ∨ mm.fifo = [])
  let (tried, success) := if shouldTry then mm.tryGrant amount priority else (mm, false)
  if success then { tried with phase := Function.update tried.phase t (.granted amount) }
  else
    let entry := (mm.requestCount, mm.elementCount)
    { mm with
      requests := Function.update mm.requests mm.requestCount ⟨amount, false, false⟩
      requestCount := mm.requestCount + 1
      elementCount := mm.elementCount + 1
      priorityFifo := if priority then mm.priorityFifo ++ [entry] else mm.priorityFifo
      fifo := if priority then mm.fifo else mm.fifo ++ [entry]
      phase := Function.update mm.phase t (.waiting mm.requestCount mm.elementCount priority) }

/-- One loop of `Return` over `queue`: requests leave its front and are granted while they fit, a
canceled one is skipped, and the first that does not fit goes back to the front in a new element,
which ends `Return`. The manager, what is left of the queue, and whether it ended `Return`. -/
def releaseQueue (priority : Bool) :
    MemoryManager τ → List (ℕ × ℕ) → MemoryManager τ × List (ℕ × ℕ) × Bool
  | mm, [] => (mm, [], false)
  | mm, (req, _) :: queue =>
    if (mm.requests req).canceled then releaseQueue priority mm queue
    else
      let (tried, success) := mm.tryGrant (mm.requests req).amount priority
      if success then
        -- close(req.done)
        releaseQueue priority
          { tried with requests := Function.update tried.requests req { tried.requests req with done := true } }
          queue
      else ({ tried with elementCount := tried.elementCount + 1 }, (req, tried.elementCount) :: queue, true)

/-- `Return`: the underflow is paid off first, then the priority queue is served, then the low
priority one. -/
def returnMemory (mm : MemoryManager τ) (amount : UInt64) : MemoryManager τ :=
  if mm.underflow > 0 ∧ amount ≤ mm.underflow then { mm with underflow := mm.underflow - amount }
  else
    let (amount, underflow) := if mm.underflow > 0 then (amount - mm.underflow, 0) else (amount, mm.underflow)
    let available := mm.available + amount
    -- more than the base is a `build.Critical`, after which `available` is cut back to the base
    let available := if available > mm.base then mm.base else available
    let (mm, priorityFifo, ended) := releaseQueue true { mm with available, underflow } mm.priorityFifo
    let mm := { mm with priorityFifo }
    if ended then mm
    else
      let (mm, fifo, _) := releaseQueue false mm mm.fifo
      { mm with fifo }

/-- The `<-ctx.Done()` case: `canceled` is closed and the element is removed from the queue it was
put in, which does nothing if the request has moved to another element since. -/
def cancelRequest (mm : MemoryManager τ) (t : τ) (req element : ℕ) (priority : Bool) : MemoryManager τ :=
  { mm with
    requests := Function.update mm.requests req { mm.requests req with canceled := true }
    priorityFifo := if priority then mm.priorityFifo.filter (·.2 != element) else mm.priorityFifo
    fifo := if priority then mm.fifo else mm.fifo.filter (·.2 != element)
    phase := Function.update mm.phase t .refused }

/-- One step, `none` where the action cannot be taken now: a goroutine calls `Request` only when it
is not in a call, and a `select` case only when its channel is closed. -/
def step (mm : MemoryManager τ) : MemoryAction τ → Option (MemoryManager τ)
  | .request t amount priority =>
    match mm.phase t with
    | .idle | .refused =>
      some { mm.request t amount priority with
        contextDone := Function.update mm.contextDone t false }
    | .waiting _ _ _ | .granted _ => none
  | .cancel t => some { mm with contextDone := Function.update mm.contextDone t true }
  | .selectDone t =>
    match mm.phase t with
    | .waiting req _ _ =>
      if (mm.requests req).done then
        some { mm with phase := Function.update mm.phase t (.granted (mm.requests req).amount) }
      else none
    | .idle | .granted _ | .refused => none
  | .selectCanceled t =>
    match mm.phase t with
    | .waiting req element priority =>
      if mm.contextDone t then some (mm.cancelRequest t req element priority) else none
    | .idle | .granted _ | .refused => none
  | .selectStop t =>
    match mm.phase t with
    | .waiting _ _ _ => if mm.stopped then some { mm with phase := Function.update mm.phase t .refused } else none
    | .idle | .granted _ | .refused => none
  | .release t =>
    match mm.phase t with
    | .granted amount =>
      let mm' := mm.returnMemory amount
      some { mm' with phase := Function.update mm'.phase t .idle }
    | .idle | .waiting _ _ _ | .refused => none
  | .stop => some { mm with stopped := true }

/-- Steps taken one after another; `none` once one of them cannot be taken. -/
def run (mm : MemoryManager τ) : List (MemoryAction τ) → Option (MemoryManager τ)
  | [] => some mm
  | a :: as => (mm.step a).bind fun mm' => mm'.run as

variable [Fintype τ]

/-- The memory the goroutines hold. -/
def held (mm : MemoryManager τ) : ℕ := ∑ t, (mm.phase t).held

/-- The accounting `Request` and `Return` are meant to keep: what is available and what is held
make up the base and the underflow. -/
def Accounted (mm : MemoryManager τ) : Prop :=
  mm.available.toNat + mm.held = mm.base.toNat + mm.underflow.toNat

/-! ### A grant that the `select` does not take -/

/-- A `uint64` sum that does not wrap is zero only if its terms are. -/
theorem add_ne_zero_of_lt {a b : UInt64} (positive : 0 < a) (noWrap : a.toNat + b.toNat < 2 ^ 64) :
    a + b ≠ 0 := by
  intro zero
  have sum := congrArg UInt64.toNat zero
  rw [UInt64.toNat_add, Nat.mod_eq_of_lt noWrap, UInt64.toNat_zero] at sum
  have := UInt64.lt_iff_toNat_lt.mp positive
  simp only [UInt64.toNat_zero] at this
  omega

omit [DecidableEq τ] in
theorem held_eq_zero {mm : MemoryManager τ} (none : ∀ t, (mm.phase t).held = 0) : mm.held = 0 :=
  Finset.sum_eq_zero fun t _ => none t

omit [DecidableEq τ] in
/-- With nothing held and nothing available, the accounting fails unless the base is zero. -/
theorem not_accounted_of_drained {mm : MemoryManager τ} (drained : mm.held = 0) (empty : mm.available = 0)
    (positive : 0 < mm.base) : ¬ mm.Accounted := by
  intro accounted
  unfold Accounted at accounted
  rw [drained, empty] at accounted
  have := UInt64.lt_iff_toNat_lt.mp positive
  simp only [UInt64.toNat_zero] at accounted this
  omega

/-- A request whose context is cancelled while it waits can still be granted by a `Return` that
pops it before its `select` runs, and the `select` may then take the context's case. `Request`
returns `false`, the memory granted to it is never returned, and a later request waits while no
goroutine holds memory. -/
theorem canceled_grant_leaks (base reserve amount : UInt64) (positive : 0 < base)
    (noWrap : base.toNat + reserve.toNat < 2 ^ 64) (positiveAmount : 0 < amount) (within : amount ≤ base)
    {h r q : τ} (hr : h ≠ r) (hq : h ≠ q) (rq : r ≠ q) :
    ∃ mm, (new base reserve : MemoryManager τ).run
        [.request h base false, .request r base false, .cancel r, .release h, .selectCanceled r,
          .request q amount false] = some mm ∧
      mm.phase r = .refused ∧ mm.held = 0 ∧ mm.available = 0 ∧ ¬ mm.Accounted ∧
      ∃ req element, mm.phase q = .waiting req element false ∧ mm.contextDone q = false ∧
        (mm.requests req).done = false := by
  have baseNe : base ≠ 0 := fun zero => by simp [zero] at positive
  -- neither request fits beside the first holder, nor is the manager unused then
  have noFit : base + reserve ≠ 0 := add_ne_zero_of_lt positive noWrap
  have noFitQ : amount + reserve ≠ 0 :=
    add_ne_zero_of_lt positiveAmount (by have := UInt64.le_iff_toNat_le.mp within; omega)
  simp [run, step, new, request, tryGrant, returnMemory, releaseQueue, cancelRequest, noFit, noFitQ, baseNe,
    Ne.symm baseNe, hr, rq, Ne.symm hr, Ne.symm hq, Ne.symm rq]
  refine ⟨?drained, not_accounted_of_drained ?drained rfl positive⟩
  refine held_eq_zero fun t => ?_
  simp only [Function.update_apply]
  split_ifs <;> rfl

/-- Three goroutines, a base of 10 without reserve, and a last request of 1. -/
theorem three_goroutines_leak :
    ∃ mm, (new 10 0 : MemoryManager (Fin 3)).run
        [.request 0 10 false, .request 1 10 false, .cancel 1, .release 0, .selectCanceled 1,
          .request 2 1 false] = some mm ∧
      mm.phase 1 = .refused ∧ mm.held = 0 ∧ mm.available = 0 ∧ ¬ mm.Accounted ∧
      ∃ req element, mm.phase 2 = .waiting req element false ∧ mm.contextDone 2 = false ∧
        (mm.requests req).done = false :=
  canceled_grant_leaks 10 0 1 (by decide) (by decide) (by decide) (by decide) (by decide) (by decide)
    (by decide)

end MemoryManager

end Sia.Renter
