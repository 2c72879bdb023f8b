import Mathlib.Data.List.Perm.Basic

/-! `ThreadGroup` of `sync/threadgroup.go` as a state machine over interleaved calls. Each
critical section under `bmu` or `mu` is one step; `Flush` and `Stop` are split where they block.
`Flush` holds `bmu` while it waits for the counter. `Stop` cancels the context, runs the `OnStop`
functions, waits for the counter, then runs the `AfterStop` functions; its flush of `mu` between
the first two lets every registration that got past `isStopped` finish first, so a registration is
one step. Threads and functions are named by numbers, and the log records each function run with
the threads then admitted by `Add` that have not called `Done`. -/
namespace Sia.Sync

/-- How far the one `Stop` call that found the group running has got. -/
inductive StopPhase where
  | running
  /-- The context is cancelled; the `OnStop` functions run next. -/
  | cancelled
  /-- In `wg.Wait()`, the `AfterStop` functions still to run. -/
  | waiting
  | returned
  deriving DecidableEq, Repr

structure ThreadGroup where
  stopPhase : StopPhase
  /-- The threads whose `Add` succeeded and that have not called `Done`: the counter of `wg`. -/
  admitted : List ℕ
  onStopFns : List ℕ
  afterStopFns : List ℕ
  /-- A `Flush` holds `bmu` and waits for the counter. -/
  flushing : Bool
  log : List (ℕ × List ℕ)
  deriving DecidableEq, Repr

/-- The interleaved steps: the calls, with `Flush` and `Stop` cut at their blocking points. -/
inductive GroupStep where
  | add (thread : ℕ)
  | done (thread : ℕ)
  | flushBegin
  | flushEnd
  | onStop (fn : ℕ)
  | afterStop (fn : ℕ)
  | stopBegin
  | stopRunOnStop
  | stopRunAfterStop
  deriving DecidableEq, Repr

/-- `ErrStopped`. -/
def errStopped : String := "ThreadGroup already stopped"

namespace ThreadGroup

/-- A group no call has touched. -/
def fresh : ThreadGroup := ⟨.running, [], [], [], false, []⟩

/-- `isStopped`: the context has been cancelled. -/
def isStopped (tg : ThreadGroup) : Bool := tg.stopPhase != .running

/-- Functions run in the order given, each logged with the threads admitted now. -/
def ran (tg : ThreadGroup) (fns : List ℕ) : List (ℕ × List ℕ) :=
  tg.log ++ fns.map fun fn => (fn, tg.admitted)

/-- One step, `none` where it cannot run now (a blocked lock or wait). -/
def step (tg : ThreadGroup) : GroupStep → Option (ThreadGroup × Except String Unit)
  | .add thread =>
    if tg.flushing then none
    else if tg.isStopped then some (tg, .error errStopped)
    else some ({ tg with admitted := tg.admitted ++ [thread] }, .ok ())
  | .done thread =>
    if thread ∈ tg.admitted then some ({ tg with admitted := tg.admitted.erase thread }, .ok ())
    else none
  | .flushBegin =>
    if tg.flushing then none
    else if tg.isStopped then some (tg, .error errStopped)
    else some ({ tg with flushing := true }, .ok ())
  | .flushEnd =>
    if tg.flushing ∧ tg.admitted = [] then some ({ tg with flushing := false }, .ok ()) else none
  -- a registration after the cancel runs the function at once
  | .onStop fn =>
    if tg.isStopped then some ({ tg with log := tg.ran [fn] }, .ok ())
    else some ({ tg with onStopFns := tg.onStopFns ++ [fn] }, .ok ())
  | .afterStop fn =>
    if tg.isStopped then some ({ tg with log := tg.ran [fn] }, .ok ())
    else some ({ tg with afterStopFns := tg.afterStopFns ++ [fn] }, .ok ())
  | .stopBegin =>
    if tg.flushing then none
    else if tg.isStopped then some (tg, .error errStopped)
    else some ({ tg with stopPhase := .cancelled }, .ok ())
  | .stopRunOnStop =>
    if tg.stopPhase = .cancelled then
      some ({ tg with
        log := tg.ran tg.onStopFns.reverse
        onStopFns := []
        stopPhase := .waiting }, .ok ())
    else none
  | .stopRunAfterStop =>
    if tg.stopPhase = .waiting ∧ tg.admitted = [] then
      some ({ tg with
        log := tg.ran tg.afterStopFns.reverse
        afterStopFns := []
        stopPhase := .returned }, .ok ())
    else none

/-- A schedule of steps, each of which must be able to run. -/
def run (tg : ThreadGroup) (steps : List GroupStep) : Option ThreadGroup :=
  steps.foldlM (fun tg s => (tg.step s).map (·.1)) tg

/-! ### Every function runs once, and `Stop` succeeds once -/

/-- The functions a step registers. -/
def registered : GroupStep → List ℕ
  | .onStop fn => [fn]
  | .afterStop fn => [fn]
  | _ => []

/-- The functions run so far and those still registered. -/
def functions (tg : ThreadGroup) : List ℕ := tg.log.map Prod.fst ++ tg.onStopFns ++ tg.afterStopFns

theorem map_fst_ran (tg : ThreadGroup) (fns : List ℕ) : (tg.ran fns).map Prod.fst = tg.log.map Prod.fst ++ fns := by
  simp [ran, Function.comp_def]

/-- A step neither loses nor repeats a function: it adds exactly the one it registers. -/
theorem functions_step {tg tg' : ThreadGroup} {s : GroupStep} {result : Except String Unit}
    (stepped : tg.step s = some (tg', result)) :
    (functions tg').Perm (functions tg ++ registered s) := by
  -- each successful step moves functions between the log and the two lists, so the counts agree
  have byCount : ∀ {xs ys : List ℕ}, (∀ a, xs.count a = ys.count a) → xs.Perm ys :=
    fun same => List.perm_iff_count.mpr same
  cases s with
  | onStop fn | afterStop fn =>
    simp only [step] at stepped
    split at stepped <;> cases stepped <;>
      exact byCount fun a => by
        by_cases same : fn = a <;>
          simp [functions, registered, map_fst_ran, List.count_append, same] <;> omega
  | stopRunOnStop | stopRunAfterStop =>
    simp only [step] at stepped
    split at stepped <;> cases stepped
    exact byCount fun a => by
      simp [functions, registered, map_fst_ran, List.count_append, List.count_reverse] <;> omega
  | _ =>
    simp only [step] at stepped
    repeat' split at stepped
    all_goals cases stepped
    all_goals simp [functions, registered]

theorem run_cons (tg : ThreadGroup) (s : GroupStep) (rest : List GroupStep) :
    tg.run (s :: rest) = ((tg.step s).map (·.1)).bind fun mid => mid.run rest := rfl

theorem functions_run {tg tg' : ThreadGroup} (steps : List GroupStep) (ran : tg.run steps = some tg') :
    (functions tg').Perm (functions tg ++ steps.flatMap registered) := by
  induction steps generalizing tg with
  | nil =>
    cases ran
    simp
  | cons s rest ih =>
    rw [run_cons] at ran
    obtain ⟨mid, stepped, others⟩ := Option.bind_eq_some_iff.mp ran
    obtain ⟨⟨_, result⟩, found, rfl⟩ := Option.map_eq_some_iff.mp stepped
    have first := (functions_step found).append_right (rest.flatMap registered)
    rw [List.append_assoc] at first
    exact (ih others).trans (by simpa [List.flatMap_cons] using first)

/-- Once `Stop` has run the `OnStop` functions none is left registered, and once it has returned
no `AfterStop` function is either. -/
structure Settled (tg : ThreadGroup) : Prop where
  onStop : tg.stopPhase = .waiting ∨ tg.stopPhase = .returned → tg.onStopFns = []
  afterStop : tg.stopPhase = .returned → tg.afterStopFns = []

theorem settled_step {tg tg' : ThreadGroup} {s : GroupStep} {result : Except String Unit}
    (settled : tg.Settled) (stepped : tg.step s = some (tg', result)) : tg'.Settled := by
  cases s with
  | onStop fn | afterStop fn =>
    simp only [step] at stepped
    split at stepped <;> cases stepped
    · exact ⟨settled.onStop, settled.afterStop⟩
    -- a registration before the cancel finds `Stop` still to come
    all_goals
      rename_i running
      have phase : tg.stopPhase = .running := by simpa [isStopped] using running
      exact ⟨fun later => by rw [phase] at later; simp at later,
        fun later => by rw [phase] at later; simp at later⟩
  | stopRunOnStop =>
    simp only [step] at stepped
    split at stepped <;> cases stepped
    exact ⟨fun _ => rfl, fun later => by simp at later⟩
  | stopRunAfterStop =>
    simp only [step] at stepped
    split at stepped <;> cases stepped
    rename_i ready
    exact ⟨fun _ => settled.onStop (.inl ready.1), fun _ => rfl⟩
  | _ =>
    simp only [step] at stepped
    repeat' split at stepped
    all_goals cases stepped
    all_goals first
      | exact settled
      | exact ⟨settled.onStop, settled.afterStop⟩
      | exact ⟨fun later => by simp at later, fun later => by simp at later⟩

theorem settled_run {tg tg' : ThreadGroup} (settled : tg.Settled) (steps : List GroupStep)
    (ran : tg.run steps = some tg') : tg'.Settled := by
  induction steps generalizing tg with
  | nil =>
    cases ran
    exact settled
  | cons s rest ih =>
    rw [run_cons] at ran
    obtain ⟨mid, stepped, others⟩ := Option.bind_eq_some_iff.mp ran
    obtain ⟨⟨_, result⟩, found, rfl⟩ := Option.map_eq_some_iff.mp stepped
    exact ih (settled_step settled found) others

/-- After `Stop` has returned, every function passed to `OnStop` or `AfterStop` in a run from a
fresh group has run exactly once. -/
theorem functions_run_once {tg : ThreadGroup} {steps : List GroupStep}
    (ran : fresh.run steps = some tg) (stopped : tg.stopPhase = .returned) :
    (tg.log.map Prod.fst).Perm (steps.flatMap registered) := by
  have settled := settled_run ⟨fun later => by simp [fresh] at later, fun later => by
    simp [fresh] at later⟩ steps ran
  have all := functions_run steps ran
  rw [functions, settled.onStop (.inr stopped), settled.afterStop stopped] at all
  simpa [functions, fresh] using all

/-! ### `AfterStop` during `Stop`'s wait -/

/-- After the cancel, `AfterStop` runs its function on the caller's thread at once. -/
theorem step_afterStop_stopped {tg : ThreadGroup} (stopped : tg.isStopped = true) (fn : ℕ) :
    tg.step (.afterStop fn) = some ({ tg with log := tg.log ++ [(fn, tg.admitted)] }, .ok ()) := by
  simp [step, stopped, ran]

theorem afterStop_runs_before_done (thread fn : ℕ) :
    fresh.run [.add thread, .stopBegin, .stopRunOnStop, .afterStop fn] =
      some ⟨.waiting, [thread], [], [], false, [(fn, [thread])]⟩ := by
  have added : fresh.step (.add thread) = some (⟨.running, [thread], [], [], false, []⟩, .ok ()) :=
    rfl
  have cancelled : (⟨.running, [thread], [], [], false, []⟩ : ThreadGroup).step .stopBegin =
      some (⟨.cancelled, [thread], [], [], false, []⟩, .ok ()) := rfl
  have onStopRun : (⟨.cancelled, [thread], [], [], false, []⟩ : ThreadGroup).step .stopRunOnStop =
      some (⟨.waiting, [thread], [], [], false, []⟩, .ok ()) := rfl
  rw [run_cons, added, Option.map_some, Option.bind_some, run_cons, cancelled, Option.map_some,
    Option.bind_some, run_cons, onStopRun, Option.map_some, Option.bind_some, run_cons,
    step_afterStop_stopped rfl]
  rfl

end ThreadGroup

end Sia.Sync
