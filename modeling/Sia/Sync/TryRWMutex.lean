import Sia.Lib.ThreadSum
import Mathlib.Data.Fintype.Basic

/-! `TryRWMutex` of `sync/tryrwmutex.go`: a `sync.RWMutex` with a lock word beside it, to which a
goroutine waiting for or holding a read lock adds `readOffset` (1), one waiting for or holding the
write lock `writeOffset` (2^20), and a `Try` call in flight `tryOffset` (2^40). Each goroutine's
position in its call is explicit, and each step is one atomic operation on the word or one
operation on the inner mutex. The inner mutex is not a separate state: who holds it, and who waits
in its `Lock`, is read off the positions; it grants the write lock when no goroutine holds it, and
a read lock when no goroutine holds it for writing or waits in its `Lock`. -/
namespace Sia.Sync

def readOffset : UInt64 := 1

/-- The low 40 bits, where the readers and writers are counted. -/
def tryMask : UInt64 := 1099511627775

def tryOffset : UInt64 := (1 : UInt64) <<< 40

def writeOffset : UInt64 := (1 : UInt64) <<< 20

/-- Where a goroutine is in its call on the mutex. -/
inductive Position where
  | idle
  /-- `Lock`, in its spin loop with the local `v`. -/
  | lockSpin (v : UInt64)
  /-- `Lock`, in `tm.mu.Lock()`. -/
  | lockMu
  /-- Holding the write lock: `Lock` or `TryLock` has returned. -/
  | writing
  /-- `Unlock`, past `tm.mu.Unlock()`. -/
  | unlockAdd
  | rLockSpin (v : UInt64)
  | rLockMu
  /-- Holding a read lock: `RLock` or `TryRLock` has returned. -/
  | reading
  /-- `RUnlock`, past `tm.mu.RUnlock()`. -/
  | rUnlockAdd
  /-- `TryLock`, past its successful compare-and-swap, in `tm.mu.Lock()`. -/
  | tryLockMu
  /-- `TryLock`, holding the inner lock, before it lowers the try count. -/
  | tryLockAdd
  /-- `TryRLock`, having seen a writer, before it reverts its signal. -/
  | tryRLockRevert
  | tryRLockMu
  | tryRLockAdd
  deriving DecidableEq

/-- The calls a goroutine makes; `Unlock` and `RUnlock` only on a lock it holds. -/
inductive Call where
  | lock
  | unlock
  | rLock
  | rUnlock
  | tryLock
  | tryRLock
  deriving DecidableEq

namespace Position

def holdsWrite : Position → Bool
  | writing | tryLockAdd => true
  | _ => false

def holdsRead : Position → Bool
  | reading | tryRLockAdd => true
  | _ => false

/-- Waiting in the inner mutex's `Lock`, which blocks new readers. -/
def awaitsWrite : Position → Bool
  | lockMu | tryLockMu => true
  | _ => false

/-- The reader a position has counted in the lock word. -/
def readers : Position → ℕ
  | rLockSpin _ | rLockMu | reading | rUnlockAdd | tryRLockRevert | tryRLockMu | tryRLockAdd => 1
  | idle | lockSpin _ | lockMu | writing | unlockAdd | tryLockMu | tryLockAdd => 0

/-- The writer a position has counted in the lock word. -/
def writers : Position → ℕ
  | lockSpin _ | lockMu | writing | unlockAdd | tryLockMu | tryLockAdd => 1
  | idle | rLockSpin _ | rLockMu | reading | rUnlockAdd | tryRLockRevert | tryRLockMu
  | tryRLockAdd => 0

/-- The `Try` call a position has counted in the lock word. -/
def tries : Position → ℕ
  | tryLockMu | tryLockAdd | tryRLockRevert | tryRLockMu | tryRLockAdd => 1
  | idle | lockSpin _ | lockMu | writing | unlockAdd | rLockSpin _ | rLockMu | reading
  | rUnlockAdd => 0

/-- What a position has added to the lock word. -/
def weight : Position → ℕ
  | idle => 0
  | lockSpin _ | lockMu | writing | unlockAdd => 2 ^ 20
  | rLockSpin _ | rLockMu | reading | rUnlockAdd => 1
  | tryLockMu | tryLockAdd => 2 ^ 20 + 2 ^ 40
  | tryRLockRevert | tryRLockMu | tryRLockAdd => 1 + 2 ^ 40

/-- The weight read as counts: a reader in the low 20 bits, a writer in the next 20, a `Try`
call above. -/
theorem weight_eq (p : Position) : p.weight = p.readers + 2 ^ 20 * p.writers + 2 ^ 40 * p.tries := by
  cases p <;> simp [weight, readers, writers, tries]

/-- Lets a `TryLock` in flight go on: idle, reverting a failed `TryRLock`, or spinning having
seen a `Try` call in the word. -/
def Deferring : Position → Prop
  | idle | tryRLockRevert => True
  | lockSpin v | rLockSpin v => tryOffset < v
  | _ => False

/-- Lets a successful `TryRLock` in flight go on: no writer counted, or a `Lock` spinning having
seen a `Try` call in the word. -/
def Writerless : Position → Prop
  | lockSpin v => tryOffset < v
  | p => p.writers = 0

theorem weight_le (p : Position) : p.weight ≤ 1 + 2 ^ 20 + 2 ^ 40 := by
  cases p <;> simp [weight]

theorem eq_idle_of_weight {p : Position} (zero : p.weight = 0) : p = idle := by
  cases p <;> simp_all [weight]

theorem writerless_of_writers {p : Position} (zero : p.writers = 0) : p.Writerless := by
  cases p <;> simp_all [Writerless, writers]

/-- A goroutine that lets a `TryLock` go on holds no part of the inner lock. -/
theorem Deferring.free {p : Position} (deferring : p.Deferring) :
    p.holdsWrite = false ∧ p.holdsRead = false := by
  cases p <;> simp_all [Deferring, holdsWrite, holdsRead]

/-- A goroutine that lets a `TryRLock` go on neither holds the inner lock for writing nor waits in
its `Lock`. -/
theorem Writerless.free {p : Position} (writerless : p.Writerless) :
    p.holdsWrite = false ∧ p.awaitsWrite = false := by
  cases p <;> simp_all [Writerless, writers, holdsWrite, awaitsWrite]

end Position

/-- The lock word and every goroutine's position. -/
structure TryRWMutex (τ : Type*) where
  lock : UInt64
  pc : τ → Position

/-- One step of one goroutine: the first step of a call, or the next step of the call it is
in. -/
inductive Action (τ : Type*) where
  | call (t : τ) (c : Call)
  | advance (t : τ)

namespace TryRWMutex

variable {τ : Type*} [Fintype τ] [DecidableEq τ]

/-- The inner mutex would grant the write lock: no goroutine holds it. -/
def WriteFree (m : TryRWMutex τ) : Prop :=
  ∀ u, (m.pc u).holdsWrite = false ∧ (m.pc u).holdsRead = false

/-- The inner mutex would grant a read lock: no goroutine holds it for writing or waits in its
`Lock`. -/
def ReadFree (m : TryRWMutex τ) : Prop :=
  ∀ u, (m.pc u).holdsWrite = false ∧ (m.pc u).awaitsWrite = false

instance (m : TryRWMutex τ) : Decidable m.WriteFree := inferInstanceAs (Decidable (∀ _, _))

instance (m : TryRWMutex τ) : Decidable m.ReadFree := inferInstanceAs (Decidable (∀ _, _))

/-- Goroutine `t` moves to `p` and the word becomes `lock`. -/
def moveTo (m : TryRWMutex τ) (t : τ) (p : Position) (lock : UInt64) : TryRWMutex τ :=
  ⟨lock, Function.update m.pc t p⟩

/-- The first step of a call by an idle goroutine, or of an unlock by one holding the lock. -/
def call (m : TryRWMutex τ) (t : τ) : Call → Option (TryRWMutex τ)
  | .lock =>
    if m.pc t = .idle then
      -- v := atomic.AddUint64(&tm.lock, writeOffset)
      let v := m.lock + writeOffset
      some (m.moveTo t (.lockSpin v) v)
    else none
  | .rLock =>
    if m.pc t = .idle then
      let v := m.lock + readOffset
      some (m.moveTo t (.rLockSpin v) v)
    else none
  | .tryLock =>
    if m.pc t = .idle then
      -- atomic.CompareAndSwapUint64(&tm.lock, 0, writeOffset+tryOffset); on failure it returns
      -- false having changed nothing
      if m.lock = 0 then some (m.moveTo t .tryLockMu (writeOffset + tryOffset)) else some m
    else none
  | .tryRLock =>
    if m.pc t = .idle then
      let v := m.lock + (readOffset + tryOffset)
      -- with the try count masked off, more than one writer's worth means a writer
      if v &&& tryMask > writeOffset then some (m.moveTo t .tryRLockRevert v)
      else some (m.moveTo t .tryRLockMu v)
    else none
  | .unlock =>
    -- tm.mu.Unlock()
    if m.pc t = .writing then some (m.moveTo t .unlockAdd m.lock) else none
  | .rUnlock =>
    if m.pc t = .reading then some (m.moveTo t .rUnlockAdd m.lock) else none

/-- The next step of the call goroutine `t` is in; `none` while it blocks in the inner mutex. The
word is lowered by adding the complement of the offset less one, as the source does. -/
def advance (m : TryRWMutex τ) (t : τ) : Option (TryRWMutex τ) :=
  match m.pc t with
  | .lockSpin v =>
    -- for v > tryOffset { runtime.Gosched(); v = atomic.LoadUint64(&tm.lock) }
    if v > tryOffset then some (m.moveTo t (.lockSpin m.lock) m.lock)
    else some (m.moveTo t .lockMu m.lock)
  | .lockMu => if m.WriteFree then some (m.moveTo t .writing m.lock) else none
  | .unlockAdd => some (m.moveTo t .idle (m.lock + ~~~(writeOffset - 1)))
  | .rLockSpin v =>
    if v > tryOffset then some (m.moveTo t (.rLockSpin m.lock) m.lock)
    else some (m.moveTo t .rLockMu m.lock)
  | .rLockMu => if m.ReadFree then some (m.moveTo t .reading m.lock) else none
  | .rUnlockAdd => some (m.moveTo t .idle (m.lock + ~~~(readOffset - 1)))
  | .tryLockMu => if m.WriteFree then some (m.moveTo t .tryLockAdd m.lock) else none
  | .tryLockAdd => some (m.moveTo t .writing (m.lock + ~~~(tryOffset - 1)))
  | .tryRLockRevert => some (m.moveTo t .idle (m.lock + ~~~(readOffset + tryOffset - 1)))
  | .tryRLockMu => if m.ReadFree then some (m.moveTo t .tryRLockAdd m.lock) else none
  | .tryRLockAdd => some (m.moveTo t .reading (m.lock + ~~~(tryOffset - 1)))
  | .idle | .writing | .reading => none

def step (m : TryRWMutex τ) : Action τ → Option (TryRWMutex τ)
  | .call t c => m.call t c
  | .advance t => m.advance t

/-- Steps taken one after another; `none` once one of them cannot be taken. -/
def run (m : TryRWMutex τ) : List (Action τ) → Option (TryRWMutex τ)
  | [] => some m
  | a :: as => (m.step a).bind fun m' => m'.run as

/-- The zero value: the word 0 and every goroutine idle. -/
def init : TryRWMutex τ := ⟨0, fun _ => .idle⟩

/-- The states some interleaving of steps reaches. -/
inductive Reachable : TryRWMutex τ → Prop where
  | init : Reachable init
  | step {m m' : TryRWMutex τ} (a : Action τ) : Reachable m → m.step a = some m' → Reachable m'

theorem Reachable.runs {m m' : TryRWMutex τ} (reach : Reachable m) {as : List (Action τ)}
    (ran : m.run as = some m') : Reachable m' := by
  induction as generalizing m with
  | nil =>
    obtain rfl := Option.some.inj ran
    exact reach
  | cons a as ih =>
    obtain ⟨m₁, stepped, rest⟩ := Option.bind_eq_some_iff.mp ran
    exact ih (.step a reach stepped) rest

/-! ### What one step does -/

/-- The moves of one goroutine: from position `p` to `p'` with the word becoming `lock`, with the
guards under which the step is taken. -/
inductive Moves (m : TryRWMutex τ) : Position → Position → UInt64 → Prop where
  | lock : Moves m .idle (.lockSpin (m.lock + writeOffset)) (m.lock + writeOffset)
  | lockReload {v : UInt64} : v > tryOffset → Moves m (.lockSpin v) (.lockSpin m.lock) m.lock
  | lockExit {v : UInt64} : ¬ v > tryOffset → Moves m (.lockSpin v) .lockMu m.lock
  | lockAcquire : m.WriteFree → Moves m .lockMu .writing m.lock
  | unlock : Moves m .writing .unlockAdd m.lock
  | unlockAdd : Moves m .unlockAdd .idle (m.lock + ~~~(writeOffset - 1))
  | rLock : Moves m .idle (.rLockSpin (m.lock + readOffset)) (m.lock + readOffset)
  | rLockReload {v : UInt64} : v > tryOffset → Moves m (.rLockSpin v) (.rLockSpin m.lock) m.lock
  | rLockExit {v : UInt64} : ¬ v > tryOffset → Moves m (.rLockSpin v) .rLockMu m.lock
  | rLockAcquire : m.ReadFree → Moves m .rLockMu .reading m.lock
  | rUnlock : Moves m .reading .rUnlockAdd m.lock
  | rUnlockAdd : Moves m .rUnlockAdd .idle (m.lock + ~~~(readOffset - 1))
  | tryLock : m.lock = 0 → Moves m .idle .tryLockMu (writeOffset + tryOffset)
  | tryLockFail : m.lock ≠ 0 → Moves m .idle .idle m.lock
  | tryLockAcquire : m.WriteFree → Moves m .tryLockMu .tryLockAdd m.lock
  | tryLockAdd : Moves m .tryLockAdd .writing (m.lock + ~~~(tryOffset - 1))
  | tryRLock : ¬ (m.lock + (readOffset + tryOffset)) &&& tryMask > writeOffset →
      Moves m .idle .tryRLockMu (m.lock + (readOffset + tryOffset))
  | tryRLockFail : (m.lock + (readOffset + tryOffset)) &&& tryMask > writeOffset →
      Moves m .idle .tryRLockRevert (m.lock + (readOffset + tryOffset))
  | tryRLockRevert : Moves m .tryRLockRevert .idle (m.lock + ~~~(readOffset + tryOffset - 1))
  | tryRLockAcquire : m.ReadFree → Moves m .tryRLockMu .tryRLockAdd m.lock
  | tryRLockAdd : Moves m .tryRLockAdd .reading (m.lock + ~~~(tryOffset - 1))

omit [Fintype τ] in
theorem moveTo_pc_self (m : TryRWMutex τ) (t : τ) (p : Position) (lock : UInt64) :
    (m.moveTo t p lock).pc t = p := by
  simp [moveTo]

omit [Fintype τ] in
@[simp]
theorem moveTo_lock (m : TryRWMutex τ) (t : τ) (p : Position) (lock : UInt64) :
    (m.moveTo t p lock).lock = lock :=
  rfl

omit [Fintype τ] in
theorem moveTo_pc_ne (m : TryRWMutex τ) {t u : τ} (p : Position) (lock : UInt64) (ne : u ≠ t) :
    (m.moveTo t p lock).pc u = m.pc u := by
  simp [moveTo, ne]

/-- Every step moves one goroutine as `Moves` allows; a failed compare-and-swap moves it from idle
to idle. -/
theorem step_eq_some {m m' : TryRWMutex τ} {a : Action τ} (stepped : m.step a = some m') :
    ∃ t p lock, Moves m (m.pc t) p lock ∧ m' = m.moveTo t p lock := by
  cases a with
  | call t c =>
    simp only [step] at stepped
    cases c with
    | tryLock =>
      simp only [call] at stepped
      split_ifs at stepped with idle free
      · obtain rfl := Option.some.inj stepped
        exact ⟨t, _, _, by rw [idle]; exact .tryLock free, rfl⟩
      · obtain rfl := Option.some.inj stepped
        -- the failed compare-and-swap leaves the goroutine where it was
        refine ⟨t, .idle, m.lock, by rw [idle]; exact .tryLockFail free, ?_⟩
        rw [moveTo, ← idle, Function.update_eq_self]
    | tryRLock =>
      simp only [call] at stepped
      split_ifs at stepped with idle sawWriter
      · obtain rfl := Option.some.inj stepped
        exact ⟨t, _, _, by rw [idle]; exact .tryRLockFail sawWriter, rfl⟩
      · obtain rfl := Option.some.inj stepped
        exact ⟨t, _, _, by rw [idle]; exact .tryRLock sawWriter, rfl⟩
    | lock | rLock | unlock | rUnlock =>
      simp only [call] at stepped
      split_ifs at stepped with start
      obtain rfl := Option.some.inj stepped
      exact ⟨t, _, _, by rw [start]; constructor, rfl⟩
  | advance t =>
    simp only [step, advance] at stepped
    split at stepped <;> rename_i position <;> (try split_ifs at stepped) <;>
      (try simp only [reduceCtorEq] at stepped) <;> obtain rfl := Option.some.inj stepped <;>
      exact ⟨t, _, _, by rw [position]; constructor <;> assumption, rfl⟩

/-! ### The lock word -/

theorem readOffset_toNat : readOffset.toNat = 1 := by decide

theorem writeOffset_toNat : writeOffset.toNat = 2 ^ 20 := by decide

theorem tryOffset_toNat : tryOffset.toNat = 2 ^ 40 := by decide

/-- What `TryRLock` adds: a reader and a `Try` call. -/
theorem readTryOffset_toNat : (readOffset + tryOffset).toNat = 1 + 2 ^ 40 := by decide

/-- What a successful `TryLock` swaps in: a writer and a `Try` call. -/
theorem writeTryOffset_toNat : (writeOffset + tryOffset).toNat = 2 ^ 20 + 2 ^ 40 := by decide

theorem toNat_add_of_lt {x c : UInt64} {n : ℕ} (value : c.toNat = n) (fits : x.toNat + n < 2 ^ 64) :
    (x + c).toNat = x.toNat + n := by
  rw [UInt64.toNat_add, value, Nat.mod_eq_of_lt fits]

/-- Adding the complement of `c - 1`, as the source lowers the word, takes `c` off. -/
theorem toNat_add_not_sub_one {x c : UInt64} {n : ℕ} (value : c.toNat = n) (le : n ≤ x.toNat) :
    (x + ~~~(c - 1)).toNat = x.toNat - n := by
  have below := x.toNat_lt
  have small := c.toNat_lt
  rw [UInt64.toNat_add, UInt64.toNat_not, UInt64.toNat_sub, UInt64.toNat_one, value]
  simp only [UInt64.size] at below small ⊢
  omega

omit [DecidableEq τ] in
/-- The word read as counts: readers in the low 20 bits, writers in the next 20, `Try` calls
above. -/
theorem total_weight (pc : τ → Position) :
    ThreadSum.total Position.weight pc =
      ThreadSum.total Position.readers pc + 2 ^ 20 * ThreadSum.total Position.writers pc +
        2 ^ 40 * ThreadSum.total Position.tries pc := by
  rw [show Position.weight = fun p => p.readers + 2 ^ 20 * p.writers + 2 ^ 40 * p.tries from
    funext Position.weight_eq, ThreadSum.total_add, ThreadSum.total_add, ThreadSum.total_mul,
    ThreadSum.total_mul]

section Moves

omit [Fintype τ] [DecidableEq τ]

variable {m : TryRWMutex τ} {p₀ p : Position} {lock : UInt64}

/-- A move changes the word by the difference of the mover's weights. -/
theorem Moves.toNat_lock (moves : Moves m p₀ p lock) (room : m.lock.toNat + p.weight < 2 ^ 64)
    (counted : p₀.weight ≤ m.lock.toNat) : lock.toNat + p₀.weight = m.lock.toNat + p.weight := by
  cases moves <;>
    simp only [Position.weight] at room counted ⊢
  -- the adds raise the word by the new weight, the subtractions lower it by the old one
  case lock => rw [toNat_add_of_lt writeOffset_toNat (by omega)]; omega
  case unlockAdd => rw [toNat_add_not_sub_one writeOffset_toNat (by omega)]; omega
  case rLock => rw [toNat_add_of_lt readOffset_toNat (by omega)]
  case rUnlockAdd => rw [toNat_add_not_sub_one readOffset_toNat (by omega)]; omega
  case tryLock free => rw [writeTryOffset_toNat, free, UInt64.toNat_zero]; omega
  case tryLockAdd => rw [toNat_add_not_sub_one tryOffset_toNat (by omega)]; omega
  case tryRLock | tryRLockFail => rw [toNat_add_of_lt readTryOffset_toNat (by omega)]; omega
  case tryRLockRevert => rw [toNat_add_not_sub_one readTryOffset_toNat (by omega)]; omega
  case tryRLockAdd => rw [toNat_add_not_sub_one tryOffset_toNat (by omega)]; omega

/-- A goroutine comes to hold the inner lock for writing only when the inner mutex grants it, or
when it held it already. -/
theorem Moves.holdsWrite_of (moves : Moves m p₀ p lock) (holds : p.holdsWrite) :
    p₀.holdsWrite ∨ m.WriteFree := by
  cases moves <;> simp_all [Position.holdsWrite]

/-- A goroutine comes to hold a read lock only when no goroutine holds the inner lock for
writing, or when it held a read lock already. -/
theorem Moves.holdsRead_of (moves : Moves m p₀ p lock) (holds : p.holdsRead) :
    p₀.holdsRead ∨ ∀ u, (m.pc u).holdsWrite = false := by
  cases moves <;> simp only [Position.holdsRead, reduceCtorEq] at holds
  case rLockAcquire free => exact .inr fun u => (free u).1
  case tryRLockAcquire free => exact .inr fun u => (free u).1
  all_goals exact .inl rfl

/-- With a `TryLock` in flight, a goroutine that lets it go on still does after its move: it can
only spin, fail a `TryLock`, or fail a `TryRLock` and revert. -/
theorem Moves.deferring (moves : Moves m p₀ p lock) (deferring : p₀.Deferring)
    (inFlight : 2 ^ 40 + 2 ^ 20 ≤ m.lock.toNat) (room : m.lock.toNat + 2 ^ 20 < 2 ^ 64)
    (sawWriter : (m.lock + (readOffset + tryOffset)) &&& tryMask > writeOffset) : p.Deferring := by
  cases moves <;> simp only [Position.Deferring] at deferring ⊢
  case lock =>
    rw [UInt64.lt_iff_toNat_lt, toNat_add_of_lt writeOffset_toNat room, tryOffset_toNat]
    omega
  case rLock =>
    rw [UInt64.lt_iff_toNat_lt, toNat_add_of_lt readOffset_toNat (by omega), tryOffset_toNat]
    omega
  case lockReload | rLockReload =>
    rw [UInt64.lt_iff_toNat_lt, tryOffset_toNat]
    omega
  case lockExit stay | rLockExit stay => exact stay deferring
  case tryLock free => simp [free] at inFlight
  case tryRLock sawNone => exact sawNone sawWriter

/-- With a `TryRLock` that saw no writer in flight, a goroutine counted as no writer, or spinning
in `Lock`, stays so after its move. -/
theorem Moves.writerless (moves : Moves m p₀ p lock) (writerless : p₀.Writerless)
    (inFlight : 2 ^ 40 < m.lock.toNat) (room : m.lock.toNat + 2 ^ 20 < 2 ^ 64) : p.Writerless := by
  cases moves <;> simp only [Position.Writerless, Position.writers, one_ne_zero] at writerless ⊢
  case lock =>
    rw [UInt64.lt_iff_toNat_lt, toNat_add_of_lt writeOffset_toNat room, tryOffset_toNat]
    omega
  case lockReload =>
    rw [UInt64.lt_iff_toNat_lt, tryOffset_toNat]
    omega
  case lockExit stay => exact stay writerless
  case tryLock free => simp [free] at inFlight

end Moves

/-! ### The invariant -/

/-- What holds in every reachable state. -/
structure Sound (m : TryRWMutex τ) : Prop where
  /-- The word is the sum of what every goroutine has added. -/
  word : m.lock.toNat = ThreadSum.total Position.weight m.pc
  /-- A goroutine holding the inner lock for writing holds it alone. -/
  exclusive : ∀ t, (m.pc t).holdsWrite →
    ∀ u ≠ t, (m.pc u).holdsWrite = false ∧ (m.pc u).holdsRead = false
  /-- While a `TryLock` is past its compare-and-swap, every other goroutine lets it go on. -/
  tryLocking : ∀ t, m.pc t = .tryLockMu ∨ m.pc t = .tryLockAdd → ∀ u ≠ t, (m.pc u).Deferring
  /-- While a `TryRLock` that saw no writer is in flight, no writer is counted but ones spinning in
  `Lock`. -/
  tryRLocking : ∀ t, m.pc t = .tryRLockMu ∨ m.pc t = .tryRLockAdd → ∀ u, (m.pc u).Writerless

section Sound

variable {m : TryRWMutex τ} {t : τ} {p : Position} {lock : UInt64}

section Counts

omit [DecidableEq τ]

theorem Sound.weight_le_lock (sound : Sound m) (u : τ) : (m.pc u).weight ≤ m.lock.toNat :=
  sound.word ▸ ThreadSum.weight_le_total Position.weight m.pc u

theorem Sound.lock_le (sound : Sound m) :
    m.lock.toNat ≤ Fintype.card τ * (1 + 2 ^ 20 + 2 ^ 40) :=
  sound.word ▸ ThreadSum.total_le Position.weight m.pc Position.weight_le

/-- A word of 0 means every goroutine is idle. -/
theorem Sound.idle_of_lock_eq_zero (sound : Sound m) (zero : m.lock = 0) (u : τ) :
    m.pc u = .idle := by
  have total : ThreadSum.total Position.weight m.pc = 0 := by rw [← sound.word, zero]; rfl
  exact Position.eq_idle_of_weight ((ThreadSum.total_eq_zero_iff _ _).mp total u)

/-- `TryRLock` reads a writer off the word exactly when one is counted. -/
theorem Sound.sawWriter_iff (sound : Sound m) (bound : Fintype.card τ < 2 ^ 20) :
    (m.lock + (readOffset + tryOffset)) &&& tryMask > writeOffset ↔
      0 < ThreadSum.total Position.writers m.pc := by
  have counts := total_weight m.pc
  -- a goroutine is counted as a reader or as a writer, never both
  have counted := ThreadSum.total_le (fun p => p.readers + p.writers) m.pc (m := 1) fun p => by
    cases p <;> simp [Position.readers, Position.writers]
  rw [ThreadSum.total_add] at counted
  have tries := ThreadSum.total_le Position.tries m.pc (m := 1) fun p => by
    cases p <;> simp [Position.tries]
  have mask : tryMask.toNat = 2 ^ 40 - 1 := by decide
  have added := toNat_add_of_lt (x := m.lock) readTryOffset_toNat (by have := sound.lock_le; omega)
  rw [gt_iff_lt, UInt64.lt_iff_toNat_lt, UInt64.toNat_and, added, mask,
    Nat.and_two_pow_sub_one_eq_mod, writeOffset_toNat, sound.word, counts]
  omega

/-- A goroutine counted as a writer makes `TryRLock` see one. -/
theorem Sound.sawWriter (sound : Sound m) (bound : Fintype.card τ < 2 ^ 20) {u : τ}
    (writer : (m.pc u).writers = 1) :
    (m.lock + (readOffset + tryOffset)) &&& tryMask > writeOffset :=
  (sound.sawWriter_iff bound).mpr
    (writer ▸ ThreadSum.weight_le_total Position.writers m.pc u |>.trans_lt' Nat.one_pos)

end Counts

/-! Each field of the invariant after one move of goroutine `t`. -/

theorem Sound.word_moveTo (sound : Sound m) (bound : Fintype.card τ < 2 ^ 20)
    (moves : Moves m (m.pc t) p lock) :
    (m.moveTo t p lock).lock.toNat = ThreadSum.total Position.weight (m.moveTo t p lock).pc := by
  have moved := ThreadSum.total_update Position.weight m.pc t p
  have fits := ThreadSum.total_le Position.weight (Function.update m.pc t p) Position.weight_le
  have before := sound.lock_le
  have changed := moves.toNat_lock (by have := Position.weight_le p; omega) (sound.weight_le_lock t)
  rw [sound.word] at changed
  show lock.toNat = ThreadSum.total Position.weight (Function.update m.pc t p)
  omega

theorem Sound.exclusive_moveTo (sound : Sound m) (moves : Moves m (m.pc t) p lock) (w : τ)
    (holds : ((m.moveTo t p lock).pc w).holdsWrite) (u : τ) (ne : u ≠ w) :
    ((m.moveTo t p lock).pc u).holdsWrite = false ∧ ((m.moveTo t p lock).pc u).holdsRead = false := by
  by_cases mover : w = t
  · -- the mover has come to hold the write lock: the inner mutex granted it, or it held it
    subst mover
    rw [moveTo_pc_self] at holds
    rw [moveTo_pc_ne _ _ _ ne]
    rcases moves.holdsWrite_of holds with held | free
    · exact sound.exclusive w held u ne
    · exact free u
  · rw [moveTo_pc_ne _ _ _ mover] at holds
    by_cases other : u = t
    · -- the mover cannot come to hold the inner lock beside the writer `w`
      subst other
      rw [moveTo_pc_self]
      have alone := fun held => sound.exclusive u held w (Ne.symm ne)
      constructor
      · cases writes : p.holdsWrite
        · rfl
        · rcases moves.holdsWrite_of writes with held | free
          · simp [(alone held).1] at holds
          · simp [(free w).1] at holds
      · cases reads : p.holdsRead
        · rfl
        · rcases moves.holdsRead_of reads with held | free
          · have := (sound.exclusive w holds u ne).2
            simp [held] at this
          · simp [free w] at holds
    · rw [moveTo_pc_ne _ _ _ other]
      exact sound.exclusive w holds u ne

theorem Sound.tryLocking_moveTo (sound : Sound m) (bound : Fintype.card τ < 2 ^ 20)
    (moves : Moves m (m.pc t) p lock) (w : τ)
    (inFlight : (m.moveTo t p lock).pc w = .tryLockMu ∨ (m.moveTo t p lock).pc w = .tryLockAdd)
    (u : τ) (ne : u ≠ w) : ((m.moveTo t p lock).pc u).Deferring := by
  by_cases mover : w = t
  · -- the mover has just passed the compare-and-swap, which found every goroutine idle, or it
    -- was past it already
    subst mover
    rw [moveTo_pc_self] at inFlight
    rw [moveTo_pc_ne _ _ _ ne]
    generalize position : m.pc w = p₀ at moves
    rcases inFlight with rfl | rfl <;> cases moves
    case tryLock free => rw [sound.idle_of_lock_eq_zero free u]; trivial
    case tryLockAcquire => exact sound.tryLocking w (.inl position) u ne
  · rw [moveTo_pc_ne _ _ _ mover] at inFlight
    by_cases other : u = t
    · -- the `TryLock` of `w` keeps its writer and its try counted, so the mover keeps deferring
      subst other
      rw [moveTo_pc_self]
      have writer : (m.pc w).writers = 1 := by
        rcases inFlight with position | position <;> rw [position] <;> rfl
      have counted : 2 ^ 40 + 2 ^ 20 ≤ m.lock.toNat := by
        have := sound.weight_le_lock w
        rcases inFlight with position | position <;> rw [position] at this <;>
          simp only [Position.weight] at this <;> omega
      have before := sound.lock_le
      exact moves.deferring (sound.tryLocking w inFlight u ne) counted (by omega)
        (sound.sawWriter bound writer)
    · rw [moveTo_pc_ne _ _ _ other]
      exact sound.tryLocking w inFlight u ne

theorem Sound.tryRLocking_moveTo (sound : Sound m) (bound : Fintype.card τ < 2 ^ 20)
    (moves : Moves m (m.pc t) p lock) (r : τ)
    (inFlight : (m.moveTo t p lock).pc r = .tryRLockMu ∨ (m.moveTo t p lock).pc r = .tryRLockAdd)
    (u : τ) : ((m.moveTo t p lock).pc u).Writerless := by
  by_cases mover : r = t
  · -- the mover has just read a word with no writer counted, or was past that read already
    subst mover
    rw [moveTo_pc_self] at inFlight
    by_cases self : u = r
    · subst self
      rw [moveTo_pc_self]
      rcases inFlight with rfl | rfl <;> exact rfl
    rw [moveTo_pc_ne _ _ _ self]
    generalize position : m.pc r = p₀ at moves
    rcases inFlight with rfl | rfl <;> cases moves
    case tryRLock sawNone =>
      have none : ThreadSum.total Position.writers m.pc = 0 := by
        have := (sound.sawWriter_iff bound).not.mp sawNone
        omega
      exact Position.writerless_of_writers ((ThreadSum.total_eq_zero_iff _ _).mp none u)
    case tryRLockAcquire => exact sound.tryRLocking r (.inl position) u
  · rw [moveTo_pc_ne _ _ _ mover] at inFlight
    by_cases other : u = t
    · -- the `TryRLock` of `r` keeps its try counted, so a spinning `Lock` keeps spinning
      subst other
      rw [moveTo_pc_self]
      have counted : 2 ^ 40 < m.lock.toNat := by
        have := sound.weight_le_lock r
        rcases inFlight with position | position <;> rw [position] at this <;>
          simp only [Position.weight] at this <;> omega
      have before := sound.lock_le
      exact moves.writerless (sound.tryRLocking r inFlight u) counted (by omega)
    · rw [moveTo_pc_ne _ _ _ other]
      exact sound.tryRLocking r inFlight u

/-- One move keeps the invariant. -/
theorem Sound.moveTo (sound : Sound m) (bound : Fintype.card τ < 2 ^ 20)
    (moves : Moves m (m.pc t) p lock) : Sound (m.moveTo t p lock) where
  word := sound.word_moveTo bound moves
  exclusive := sound.exclusive_moveTo moves
  tryLocking := sound.tryLocking_moveTo bound moves
  tryRLocking := sound.tryRLocking_moveTo bound moves

theorem Sound.step (sound : Sound m) (bound : Fintype.card τ < 2 ^ 20) {a : Action τ}
    {m' : TryRWMutex τ} (stepped : m.step a = some m') : Sound m' := by
  obtain ⟨t, p, lock, moves, rfl⟩ := step_eq_some stepped
  exact sound.moveTo bound moves

end Sound

omit [DecidableEq τ] in
theorem sound_init : Sound (init : TryRWMutex τ) where
  word := by simp [init, ThreadSum.total, Position.weight]
  exclusive := by simp [init, Position.holdsWrite]
  tryLocking := by simp [init]
  tryRLocking := by simp [init]

/-- Every reachable state is sound, with fewer goroutines than the 20 bits that count them hold. -/
theorem Reachable.sound (bound : Fintype.card τ < 2 ^ 20) {m : TryRWMutex τ}
    (reach : Reachable m) : Sound m := by
  induction reach with
  | init => exact sound_init
  | step a _ stepped ih => exact ih.step bound stepped

/-! ### What every interleaving gives -/

section Runs

variable {m : TryRWMutex τ}

/-- A goroutine holding the write lock holds it alone: no other goroutine holds it, or a read
lock. -/
theorem Reachable.exclusive (bound : Fintype.card τ < 2 ^ 20) (reach : Reachable m) {t : τ}
    (holds : (m.pc t).holdsWrite) {u : τ} (ne : u ≠ t) :
    (m.pc u).holdsWrite = false ∧ (m.pc u).holdsRead = false :=
  (reach.sound bound).exclusive t holds u ne

/-- The word is 0 exactly when every goroutine is idle. -/
theorem Reachable.lock_eq_zero_iff (bound : Fintype.card τ < 2 ^ 20) (reach : Reachable m) :
    m.lock = 0 ↔ ∀ u, m.pc u = .idle := by
  have sound := reach.sound bound
  refine ⟨sound.idle_of_lock_eq_zero, fun idle => ?_⟩
  have total : ThreadSum.total Position.weight m.pc = 0 :=
    (ThreadSum.total_eq_zero_iff _ _).mpr fun u => by rw [idle u]; rfl
  rw [← UInt64.toNat_inj, sound.word, total]
  rfl

/-- `TryLock` succeeds exactly when every goroutine is idle: it fails only while another one is
inside a call or holds the lock. -/
theorem Reachable.tryLock_iff (bound : Fintype.card τ < 2 ^ 20) (reach : Reachable m) {t : τ}
    (idle : m.pc t = .idle) :
    m.call t .tryLock = some (m.moveTo t .tryLockMu (writeOffset + tryOffset)) ↔
      ∀ u, m.pc u = .idle := by
  rw [← reach.lock_eq_zero_iff bound]
  by_cases zero : m.lock = 0
  · simp [call, idle, zero]
  · -- a failed compare-and-swap leaves the goroutine idle, not in `TryLock`
    have stays : m.pc t ≠ (m.moveTo t .tryLockMu (writeOffset + tryOffset)).pc t := by
      rw [moveTo_pc_self, idle]
      decide
    simp only [call, idle, if_true, zero, if_false, Option.some.injEq, iff_false]
    exact fun same => stays (same ▸ rfl)

/-- `TryRLock` takes the failing branch exactly when some goroutine is counted as a writer: in
`Lock` or `TryLock`, spinning, waiting or holding the lock, or in `Unlock` before it lowers the
word. -/
theorem Reachable.tryRLock_fails_iff (bound : Fintype.card τ < 2 ^ 20) (reach : Reachable m)
    {t : τ} (idle : m.pc t = .idle) :
    ∃ m', m.call t .tryRLock = some m' ∧ (m'.pc t = .tryRLockRevert ↔ ∃ u, 0 < (m.pc u).writers) := by
  rw [← ThreadSum.total_pos_iff, ← (reach.sound bound).sawWriter_iff bound]
  by_cases sawWriter : (m.lock + (readOffset + tryOffset)) &&& tryMask > writeOffset
  · refine ⟨m.moveTo t .tryRLockRevert (m.lock + (readOffset + tryOffset)), ?_, ?_⟩
    · simp [call, idle, sawWriter]
    · simp [moveTo_pc_self, sawWriter]
  · refine ⟨m.moveTo t .tryRLockMu (m.lock + (readOffset + tryOffset)), ?_, ?_⟩
    · simp [call, idle, sawWriter]
    · simp [moveTo_pc_self, sawWriter]

/-- `TryLock` and `TryRLock` never block: a goroutine inside either can always take its next
step, whatever the other goroutines are doing. -/
theorem Reachable.try_advance (bound : Fintype.card τ < 2 ^ 20) (reach : Reachable m) {t : τ}
    (trying : (m.pc t).tries = 1) : (m.advance t).isSome := by
  have sound := reach.sound bound
  generalize position : m.pc t = p at trying
  cases p <;> simp only [Position.tries, zero_ne_one] at trying
  case tryLockMu =>
    -- every other goroutine lets the `TryLock` go on, so none holds the inner lock
    have free : m.WriteFree := fun u => by
      by_cases self : u = t
      · rw [self, position]
        exact ⟨rfl, rfl⟩
      · exact (sound.tryLocking t (.inl position) u self).free
    simp [advance, position, free]
  case tryRLockMu =>
    -- no goroutine is counted as a writer but ones spinning in `Lock`
    have free : m.ReadFree := fun u => (sound.tryRLocking t (.inl position) u).free
    simp [advance, position, free]
  all_goals simp [advance, position]

/-- Right after `Unlock` has released the inner mutex, before it lowers the word, no goroutine
holds the inner lock for writing or waits in its `Lock`, and an `RLock` takes the read lock at
once; yet `TryRLock` fails, since the word still counts the writer. -/
theorem tryRLock_fails_after_unlock (bound : Fintype.card τ < 2 ^ 20) (reach : Reachable m)
    {w r : τ} (releasing : m.pc w = .unlockAdd) (idle : ∀ u ≠ w, m.pc u = .idle) (ne : r ≠ w) :
    m.ReadFree ∧
      (∃ m', m.run [.call r .rLock, .advance r, .advance r] = some m' ∧ m'.pc r = .reading) ∧
      ∃ m', m.call r .tryRLock = some m' ∧ m'.pc r = .tryRLockRevert := by
  have sound := reach.sound bound
  have free : m.ReadFree := fun u => by
    by_cases self : u = w
    · rw [self, releasing]
      exact ⟨rfl, rfl⟩
    · rw [idle u self]
      exact ⟨rfl, rfl⟩
  -- the word counts the releasing writer alone
  have word : m.lock.toNat = 2 ^ 20 := by
    rw [sound.word, ThreadSum.total_eq_single _ _ w fun u other => by rw [idle u other]; rfl,
      releasing]
    rfl
  refine ⟨free, ?_, ?_⟩
  · -- `RLock` raises the word to one writer and one reader, below the try offset, so its spin
    -- exits at once and the inner mutex grants the read lock
    have low : ¬ m.lock + readOffset > tryOffset := by
      rw [gt_iff_lt, UInt64.lt_iff_toNat_lt, toNat_add_of_lt readOffset_toNat (by omega), word,
        tryOffset_toNat]
      omega
    let spun := (m.moveTo r (.rLockSpin (m.lock + readOffset)) (m.lock + readOffset)).moveTo r
      .rLockMu (m.lock + readOffset)
    have granted : spun.ReadFree := fun u => by
      by_cases self : u = r
      · rw [self, moveTo_pc_self]
        exact ⟨rfl, rfl⟩
      · rw [moveTo_pc_ne _ _ _ self, moveTo_pc_ne _ _ _ self]
        exact free u
    refine ⟨spun.moveTo r .reading (m.lock + readOffset), ?_, moveTo_pc_self _ _ _ _⟩
    simp [run, step, call, advance, idle r ne, moveTo_pc_self, low, spun, granted]
  · obtain ⟨m', called, fails⟩ := reach.tryRLock_fails_iff bound (idle r ne)
    exact ⟨m', called, fails.mpr ⟨w, by rw [releasing]; decide⟩⟩

end Runs

/-- Goroutine 0 takes the write lock and calls `Unlock`, which releases the inner mutex. -/
def releasingTrace : List (Action (Fin 2)) :=
  [.call 0 .lock, .advance 0, .advance 0, .call 0 .unlock]

def releasing : TryRWMutex (Fin 2) := ((init : TryRWMutex (Fin 2)).run releasingTrace).getD init

theorem releasing_tryRLock_fails :
    releasing.ReadFree ∧
      (∃ m', releasing.run [.call 1 .rLock, .advance 1, .advance 1] = some m' ∧
        m'.pc 1 = .reading) ∧
      ∃ m', releasing.call 1 .tryRLock = some m' ∧ m'.pc 1 = .tryRLockRevert :=
  tryRLock_fails_after_unlock (by decide)
    (Reachable.init.runs (show (init : TryRWMutex (Fin 2)).run releasingTrace = some releasing from rfl))
    (w := 0) (by decide) (by decide) (by decide)

end TryRWMutex

end Sia.Sync
