import Sia.Lib.Bytes
import Sia.Lib.ByteFile
import Sia.Lib.Except
import Mathlib.Data.Finmap

/-! `renter/proto/refcounter.go`: the reference counter file of a contract, eight header bytes
and one little-endian `uint16` per sector. An update session returns write-ahead-log updates
and keeps the counts it changed in memory, so `readCount` overlays those counts on the file
while the updates are not yet applied. Paths and update instructions are byte strings; the
file is the byte list behind the open handle, so an applied delete, which only unlinks the
path, leaves it as it is. -/
namespace Sia.Renter.Proto

open Bytes

/-- `refCounterHeaderSize`. -/
def refCounterHeaderSize : ℕ := 8

def offset (secIdx : ℕ) : ℕ := refCounterHeaderSize + secIdx * 2

def updateNameRCDelete : String := "RC_DELETE"

def updateNameRCTruncate : String := "RC_TRUNCATE"

def updateNameRCWriteAt : String := "RC_WRITE_AT"

/-- `writeaheadlog.Update`. -/
structure Writeaheadlog.Update where
  name : String
  instructions : List UInt8
  deriving DecidableEq, Repr

open Writeaheadlog (Update)

inductive RefCounterError where
  | updateWithoutUpdateSession
  | updateAfterDelete
  | invalidSectorNumber
  | invalidUpdateInstruction
  /-- An error made from a text: "sector count underflow", "unknown update type: RC_X". -/
  | message (text : String)
  /-- What `f.ReadAt` returns past the end of the file. -/
  | eof
  | withContext (err : RefCounterError) (context : String)
  deriving DecidableEq, Repr

structure RefCounter where
  filepath : List UInt8
  numSectors : ℕ
  isDeleted : Bool
  isUpdateInProgress : Bool
  newSectorCounts : Finmap fun _ : ℕ => UInt16

def createDeleteUpdate (path : List UInt8) : Update := ⟨updateNameRCDelete, path⟩

def createTruncateUpdate (path : List UInt8) (newNumSec : ℕ) : Update :=
  ⟨updateNameRCTruncate, leBytes 8 newNumSec ++ path⟩

def createWriteAtUpdate (path : List UInt8) (secIdx : ℕ) (value : UInt16) : Update :=
  ⟨updateNameRCWriteAt, leBytes 8 secIdx ++ leBytes 2 value.toNat ++ path⟩

def readTruncateUpdate (u : Update) : Except RefCounterError (List UInt8 × ℕ) :=
  if u.instructions.length < 8 then .error .invalidUpdateInstruction
  else .ok (u.instructions.drop 8, leValue (u.instructions.take 8))

def readWriteAtUpdate (u : Update) : Except RefCounterError (List UInt8 × ℕ × UInt16) :=
  if u.instructions.length < 10 then .error .invalidUpdateInstruction
  else .ok (u.instructions.drop 10, leValue (u.instructions.take 8),
    UInt16.ofNat (leValue ((u.instructions.drop 8).take 2)))

def applyTruncateUpdate (file : List UInt8) (u : Update) : Except RefCounterError (List UInt8) :=
  if u.name ≠ updateNameRCTruncate then
    .error (.message ("applyAppendTruncate called on update of type " ++ u.name))
  else do
    let (_, newNumSec) ← readTruncateUpdate u
    pure (ByteFile.truncate file (refCounterHeaderSize + newNumSec * 2))

def applyWriteAtUpdate (file : List UInt8) (u : Update) : Except RefCounterError (List UInt8) :=
  if u.name ≠ updateNameRCWriteAt then
    .error (.message ("applyAppendWriteAt called on update of type " ++ u.name))
  else do
    let (_, secIdx, value) ← readWriteAtUpdate u
    pure (ByteFile.writeAt file (offset secIdx) (leBytes 2 value.toNat))

def applyDeleteUpdate (file : List UInt8) (u : Update) : Except RefCounterError (List UInt8) :=
  if u.name ≠ updateNameRCDelete then
    .error (.message ("applyDeleteUpdate called on update of type " ++ u.name))
  else .ok file

/-- `applyUpdates`: the updates in order, stopping at the first that fails. -/
def applyUpdates (file : List UInt8) (updates : List Update) : Except RefCounterError (List UInt8) :=
  updates.foldlM apply file
where
  apply (file : List UInt8) (update : Update) : Except RefCounterError (List UInt8) :=
    if update.name = updateNameRCDelete then applyDeleteUpdate file update
    else if update.name = updateNameRCTruncate then applyTruncateUpdate file update
    else if update.name = updateNameRCWriteAt then applyWriteAtUpdate file update
    else .error (.message ("unknown update type: " ++ update.name))

theorem updateName_ne :
    updateNameRCTruncate ≠ updateNameRCDelete ∧ updateNameRCWriteAt ≠ updateNameRCDelete ∧
      updateNameRCWriteAt ≠ updateNameRCTruncate := by
  decide

theorem readTruncateUpdate_createTruncateUpdate (path : List UInt8) {newNumSec : ℕ}
    (small : newNumSec < 2 ^ 64) :
    readTruncateUpdate (createTruncateUpdate path newNumSec) = .ok (path, newNumSec) := by
  have sized : (leBytes 8 newNumSec).length = 8 := length_leBytes 8 _
  simp only [readTruncateUpdate, createTruncateUpdate, List.length_append, sized]
  rw [if_neg (by omega), List.take_left' sized, List.drop_left' sized, leValue_leBytes,
    Nat.mod_eq_of_lt (show newNumSec < 256 ^ 8 from small)]

theorem readWriteAtUpdate_createWriteAtUpdate (path : List UInt8) {secIdx : ℕ} (value : UInt16)
    (small : secIdx < 2 ^ 64) :
    readWriteAtUpdate (createWriteAtUpdate path secIdx value) = .ok (path, secIdx, value) := by
  have index : (leBytes 8 secIdx).length = 8 := length_leBytes 8 _
  have count : (leBytes 2 value.toNat).length = 2 := length_leBytes 2 _
  have both : (leBytes 8 secIdx ++ leBytes 2 value.toNat).length = 10 := by simp
  simp only [readWriteAtUpdate, createWriteAtUpdate, List.length_append, index, count]
  -- the path after the ten bytes, then the index and the value within them
  rw [if_neg (by omega), List.drop_left' both, List.append_assoc, List.take_left' index,
    List.drop_left' index, List.take_left' count, leValue_leBytes, leValue_leBytes,
    Nat.mod_eq_of_lt (show secIdx < 256 ^ 8 from small),
    Nat.mod_eq_of_lt (show value.toNat < 256 ^ 2 from value.toNat_lt), UInt16.ofNat_toNat]

theorem apply_createTruncateUpdate (file path : List UInt8) {newNumSec : ℕ}
    (small : newNumSec < 2 ^ 64) :
    applyUpdates.apply file (createTruncateUpdate path newNumSec) =
      .ok (ByteFile.truncate file (offset newNumSec)) := by
  have named : (createTruncateUpdate path newNumSec).name = updateNameRCTruncate := rfl
  simp [applyUpdates.apply, applyTruncateUpdate, named, updateName_ne.1,
    readTruncateUpdate_createTruncateUpdate path small, offset]

theorem apply_createWriteAtUpdate (file path : List UInt8) {secIdx : ℕ} (value : UInt16)
    (small : secIdx < 2 ^ 64) :
    applyUpdates.apply file (createWriteAtUpdate path secIdx value) =
      .ok (ByteFile.writeAt file (offset secIdx) (leBytes 2 value.toNat)) := by
  have named : (createWriteAtUpdate path secIdx value).name = updateNameRCWriteAt := rfl
  simp [applyUpdates.apply, applyWriteAtUpdate, named, updateName_ne.2.1, updateName_ne.2.2,
    readWriteAtUpdate_createWriteAtUpdate path value small]

/-- The counter a file holds at a sector index. -/
def counterAt (file : List UInt8) (secIdx : ℕ) : ℕ := leValue ((file.drop (offset secIdx)).take 2)

theorem counterAt_lt (file : List UInt8) (secIdx : ℕ) : counterAt file secIdx < 2 ^ 16 := by
  have bytes := leValue_lt ((file.drop (offset secIdx)).take 2)
  have two : ((file.drop (offset secIdx)).take 2).length ≤ 2 := List.length_take_le _ _
  calc counterAt file secIdx < 256 ^ ((file.drop (offset secIdx)).take 2).length := bytes
    _ ≤ 256 ^ 2 := Nat.pow_le_pow_right (by decide) two
    _ = 2 ^ 16 := by decide

/-- Truncating a file to `n` counters and then writing counter `n + 1` zero-fills counter `n`. -/
theorem counterAt_writeAt_truncate_gap (file value : List UInt8) (n : ℕ)
    (two : value.length = 2) :
    (ByteFile.writeAt (ByteFile.truncate file (offset n)) (offset (n + 1)) value).length =
        offset (n + 2) ∧
      counterAt (ByteFile.writeAt (ByteFile.truncate file (offset n)) (offset (n + 1)) value) n =
        0 := by
  have cut : (ByteFile.truncate file (offset n)).length = offset n := ByteFile.length_truncate _ _
  have gap : offset (n + 1) - offset n = 2 := by simp only [offset]; omega
  have zeros : (List.replicate 2 (0 : UInt8)).length = 2 := List.length_replicate
  rw [ByteFile.writeAt_of_length_le (List.ne_nil_of_length_pos (by omega))
    (by rw [cut]; simp only [offset]; omega), cut, gap]
  constructor
  · rw [List.length_append, List.length_append, cut, zeros, two]
    simp only [offset]
    omega
  · simp only [counterAt, List.append_assoc, List.drop_left' cut, List.take_left' zeros]
    rfl

namespace RefCounter

/-- `readCount`: a count changed in this session, or else the one on disk. -/
def readCount (rc : RefCounter) (file : List UInt8) (secIdx : ℕ) : Except RefCounterError UInt16 :=
  if secIdx ≥ rc.numSectors then .error (.withContext .invalidSectorNumber "failed to read count")
  else match rc.newSectorCounts.lookup secIdx with
    | some count => .ok count
    | none =>
      if offset secIdx + 2 ≤ file.length then .ok (UInt16.ofNat (counterAt file secIdx))
      else .error (.withContext .eof "failed to read from refcounter file")

/-- The two checks every update call starts with. -/
def checkSession (rc : RefCounter) : Except RefCounterError Unit :=
  if !rc.isUpdateInProgress then .error .updateWithoutUpdateSession
  else if rc.isDeleted then .error .updateAfterDelete
  else .ok ()

def setNewCount (rc : RefCounter) (secIdx : ℕ) (count : UInt16) : RefCounter :=
  { rc with newSectorCounts := rc.newSectorCounts.insert secIdx count }

def callAppend (rc : RefCounter) : Except RefCounterError (Update × RefCounter) := do
  rc.checkSession
  let rc := { rc with numSectors := rc.numSectors + 1 }
  let rc := rc.setNewCount (rc.numSectors - 1) 1
  pure (createWriteAtUpdate rc.filepath (rc.numSectors - 1) 1, rc)

/-- The body `callDecrement` and `callIncrement` share: a count read at a valid index, refused
at `limit`, and changed by `change`. -/
def adjustCount (rc : RefCounter) (file : List UInt8) (secIdx : ℕ) (context readContext : String)
    (limit : UInt16) (limitError : String) (change : UInt16 → UInt16) :
    Except RefCounterError (Update × RefCounter) := do
  rc.checkSession
  if secIdx ≥ rc.numSectors then
    throw (.withContext .invalidSectorNumber context)
  let count ← (rc.readCount file secIdx).mapError (.withContext · readContext)
  if count = limit then throw (.message limitError)
  let count := change count
  pure (createWriteAtUpdate rc.filepath secIdx count, rc.setNewCount secIdx count)

def callDecrement (rc : RefCounter) (file : List UInt8) (secIdx : ℕ) :
    Except RefCounterError (Update × RefCounter) :=
  rc.adjustCount file secIdx "failed to decrement" "failed to read count from decrement" 0
    "sector count underflow" (· - 1)

def callIncrement (rc : RefCounter) (file : List UInt8) (secIdx : ℕ) :
    Except RefCounterError (Update × RefCounter) :=
  rc.adjustCount file secIdx "failed to increment" "failed to read count from increment" 65535
    "sector count overflow" (· + 1)

/-- `callSetCount`: an index past the end grows the counter to it. -/
def callSetCount (rc : RefCounter) (secIdx : ℕ) (c : UInt16) :
    Except RefCounterError (Update × RefCounter) := do
  rc.checkSession
  let rc := if secIdx ≥ rc.numSectors then { rc with numSectors := secIdx + 1 } else rc
  pure (createWriteAtUpdate rc.filepath secIdx c, rc.setNewCount secIdx c)

def callSwap (rc : RefCounter) (file : List UInt8) (firstIdx secondIdx : ℕ) :
    Except RefCounterError (List Update × RefCounter) := do
  rc.checkSession
  if firstIdx ≥ rc.numSectors ∨ secondIdx ≥ rc.numSectors then
    throw (.withContext .invalidSectorNumber "failed to swap sectors")
  let firstVal ← (rc.readCount file firstIdx).mapError
    (.withContext · "failed to read count from swap")
  let secondVal ← (rc.readCount file secondIdx).mapError
    (.withContext · "failed to read count from swap")
  let rc := (rc.setNewCount firstIdx secondVal).setNewCount secondIdx firstVal
  pure ([createWriteAtUpdate rc.filepath firstIdx secondVal,
    createWriteAtUpdate rc.filepath secondIdx firstVal], rc)

/-- `callDropSectors`: the counts of the dropped sectors stay in `newSectorCounts`. -/
def callDropSectors (rc : RefCounter) (numSec : ℕ) :
    Except RefCounterError (Update × RefCounter) := do
  rc.checkSession
  if numSec > rc.numSectors then
    throw (.withContext .invalidSectorNumber "failed to drop sectors")
  let rc := { rc with numSectors := rc.numSectors - numSec }
  pure (createTruncateUpdate rc.filepath rc.numSectors, rc)

end RefCounter

/-- The calls an update session makes between `callStartUpdate` and the transaction. -/
inductive RefCounterCall where
  | append
  | decrement (secIdx : ℕ)
  | increment (secIdx : ℕ)
  | setCount (secIdx : ℕ) (c : UInt16)
  | swap (firstIdx secondIdx : ℕ)
  | dropSectors (numSec : ℕ)
  deriving DecidableEq, Repr

namespace RefCounter

def call (rc : RefCounter) (file : List UInt8) :
    RefCounterCall → Except RefCounterError (List Update × RefCounter)
  | .append => rc.callAppend.map fun (u, rc) => ([u], rc)
  | .decrement secIdx => (rc.callDecrement file secIdx).map fun (u, rc) => ([u], rc)
  | .increment secIdx => (rc.callIncrement file secIdx).map fun (u, rc) => ([u], rc)
  | .setCount secIdx c => (rc.callSetCount secIdx c).map fun (u, rc) => ([u], rc)
  | .swap firstIdx secondIdx => rc.callSwap file firstIdx secondIdx
  | .dropSectors numSec => (rc.callDropSectors numSec).map fun (u, rc) => ([u], rc)

/-- A session over a file that stays as it is until the transaction: the updates of the calls
that succeed, in order, and the refcounter after them. -/
def session (rc : RefCounter) (file : List UInt8) : List RefCounterCall → List Update × RefCounter
  | [] => ([], rc)
  | c :: calls =>
    match rc.call file c with
    | .ok (updates, rc') =>
      let (rest, rc'') := rc'.session file calls
      (updates ++ rest, rc'')
    | .error _ => rc.session file calls

theorem checkSession_ok {rc : RefCounter} (inSession : rc.isUpdateInProgress = true)
    (live : rc.isDeleted = false) : rc.checkSession = .ok () := by
  simp [checkSession, inSession, live]

theorem callDropSectors_ok {rc : RefCounter} {numSec : ℕ} (session : rc.checkSession = .ok ())
    (enough : numSec ≤ rc.numSectors) :
    rc.callDropSectors numSec = .ok (createTruncateUpdate rc.filepath (rc.numSectors - numSec),
      { rc with numSectors := rc.numSectors - numSec }) := by
  simp [callDropSectors, session, Nat.not_lt.mpr enough]

theorem callSetCount_ok {rc : RefCounter} {secIdx : ℕ} {c : UInt16}
    (session : rc.checkSession = .ok ()) :
    rc.callSetCount secIdx c = .ok (createWriteAtUpdate rc.filepath secIdx c,
      setNewCount { rc with numSectors := max rc.numSectors (secIdx + 1) } secIdx c) := by
  simp only [callSetCount, session, Except.ok_bind]
  split_ifs with past
  · rw [Nat.max_eq_right (by omega)]
    rfl
  · rw [Nat.max_eq_left (by omega)]
    rfl

/-- A count this session has not changed is read from the file. -/
theorem readCount_of_not_mem {rc : RefCounter} {file : List UInt8} {secIdx : ℕ}
    (inside : secIdx < rc.numSectors) (unchanged : secIdx ∉ rc.newSectorCounts)
    (stored : offset secIdx + 2 ≤ file.length) :
    rc.readCount file secIdx = .ok (UInt16.ofNat (counterAt file secIdx)) := by
  simp [readCount, Nat.not_le.mpr inside, Finmap.lookup_eq_none.mpr unchanged, stored]

/-- A change of a count that succeeds read a count other than its limit and records the changed
one in the session. -/
theorem adjustCount_ok {rc rc' : RefCounter} {file : List UInt8} {secIdx : ℕ}
    {context readContext limitError : String} {limit : UInt16} {change : UInt16 → UInt16}
    {u : Update}
    (ok : rc.adjustCount file secIdx context readContext limit limitError change = .ok (u, rc')) :
    ∃ count, rc.readCount file secIdx = .ok count ∧ count ≠ limit ∧
      rc'.newSectorCounts.lookup secIdx = some (change count) := by
  simp only [adjustCount] at ok
  cases session : rc.checkSession with
  | error e => simp [session] at ok; cases ok
  | ok _ =>
    cases read : rc.readCount file secIdx with
    | error e => simp [session, read, Except.mapError] at ok; split at ok <;> cases ok
    | ok count =>
      simp [session, read, Except.mapError] at ok
      -- every branch but the one that neither throws is impossible
      split_ifs at ok with bound atLimit atLimit <;> cases ok
      exact ⟨count, rfl, atLimit, by simp [setNewCount]⟩

/-- An increment that succeeds read a count below `MaxUint16`, so the new count does not wrap. -/
theorem callIncrement_no_wrap {rc rc' : RefCounter} {file : List UInt8} {secIdx : ℕ}
    {u : Update} (ok : rc.callIncrement file secIdx = .ok (u, rc')) :
    ∃ count, rc.readCount file secIdx = .ok count ∧ (count + 1).toNat = count.toNat + 1 ∧
      rc'.newSectorCounts.lookup secIdx = some (count + 1) := by
  obtain ⟨count, read, notFull, recorded⟩ := adjustCount_ok ok
  have below : count.toNat ≠ 65535 := fun top => notFull (UInt16.toNat_inj.mp top)
  have := count.toNat_lt
  refine ⟨count, read, ?_, recorded⟩
  simp only [UInt16.toNat_add, UInt16.toNat_one]
  omega

/-- A decrement that succeeds read a count above zero, so the new count does not wrap. -/
theorem callDecrement_no_wrap {rc rc' : RefCounter} {file : List UInt8} {secIdx : ℕ}
    {u : Update} (ok : rc.callDecrement file secIdx = .ok (u, rc')) :
    ∃ count, rc.readCount file secIdx = .ok count ∧ (count - 1).toNat + 1 = count.toNat ∧
      rc'.newSectorCounts.lookup secIdx = some (count - 1) := by
  obtain ⟨count, read, notEmpty, recorded⟩ := adjustCount_ok ok
  have above : count.toNat ≠ 0 := fun zero => notEmpty (UInt16.toNat_inj.mp zero)
  have := count.toNat_lt
  refine ⟨count, read, ?_, recorded⟩
  simp only [UInt16.toNat_sub, UInt16.toNat_one]
  omega

/-- Dropping the last counter and then setting the one after it: the session grows back past
the dropped counter without recording a count for it, so `readCount` still reads the dropped
counter from the file while the applied updates leave it zero-filled. -/
theorem readCount_stale_after_drop_then_set (rc : RefCounter) (file : List UInt8) (n : ℕ)
    (c : UInt16) (inSession : rc.isUpdateInProgress = true) (live : rc.isDeleted = false)
    (counters : rc.numSectors = n + 1) (fresh : rc.newSectorCounts = ∅)
    (sized : file.length = offset (n + 1)) (used : counterAt file n ≠ 0)
    (small : n + 1 < 2 ^ 64) :
    ∃ updates rc', rc.session file [.dropSectors 1, .setCount (n + 1) c] = (updates, rc') ∧
      ∃ file', applyUpdates file updates = .ok file' ∧ file'.length = offset rc'.numSectors ∧
        counterAt file' n = 0 ∧ rc'.readCount file n = .ok (UInt16.ofNat (counterAt file n)) ∧
        rc'.readCount file n ≠ .ok (UInt16.ofNat (counterAt file' n)) := by
  have opened := checkSession_ok inSession live
  have dropped : rc.call file (.dropSectors 1) =
      .ok ([createTruncateUpdate rc.filepath n], { rc with numSectors := n }) := by
    have enough : 1 ≤ rc.numSectors := by omega
    simp only [call, callDropSectors_ok opened enough, counters, Nat.add_sub_cancel]
    rfl
  have opened' : checkSession { rc with numSectors := n } = .ok () := opened
  have grown : call { rc with numSectors := n } file (.setCount (n + 1) c) =
      .ok ([createWriteAtUpdate rc.filepath (n + 1) c],
        setNewCount { rc with numSectors := n + 2 } (n + 1) c) := by
    simp only [call, callSetCount_ok opened', Nat.max_eq_right (Nat.le_add_right n 2)]
    rfl
  have ran : rc.session file [.dropSectors 1, .setCount (n + 1) c] =
      ([createTruncateUpdate rc.filepath n, createWriteAtUpdate rc.filepath (n + 1) c],
        setNewCount { rc with numSectors := n + 2 } (n + 1) c) := by
    simp only [session, dropped, grown]
    rfl
  have applied : applyUpdates file
      [createTruncateUpdate rc.filepath n, createWriteAtUpdate rc.filepath (n + 1) c] =
      .ok (ByteFile.writeAt (ByteFile.truncate file (offset n)) (offset (n + 1))
        (leBytes 2 c.toNat)) := by
    simp [applyUpdates, apply_createTruncateUpdate _ _ (Nat.lt_of_succ_lt small),
      apply_createWriteAtUpdate _ _ _ small]
  obtain ⟨grownLength, zeroed⟩ :=
    counterAt_writeAt_truncate_gap file (leBytes 2 c.toNat) n (length_leBytes 2 _)
  -- counter n is not in the session's counts, and the file still holds it
  have stale : readCount (setNewCount { rc with numSectors := n + 2 } (n + 1) c) file n =
      .ok (UInt16.ofNat (counterAt file n)) := by
    refine readCount_of_not_mem (by simp [setNewCount])
      (by simp [setNewCount, fresh, Finmap.notMem_empty]) ?_
    rw [sized]
    simp only [offset]
    omega
  refine ⟨_, _, ran, _, applied, grownLength, zeroed, stale, ?_⟩
  rw [stale, zeroed]
  intro same
  have below := counterAt_lt file n
  have values := congrArg UInt16.toNat (Except.ok.inj same)
  simp only [UInt16.toNat_ofNat', Nat.zero_mod] at values
  omega

/-- A new refcounter of one sector, in a session that drops it and then sets the count of
sector 1 to 7: sector 0 reads 1 while the file the updates produce holds 0 there. -/
theorem sampleRefCounter_stale_read :
    ∃ updates rc', (⟨[], 1, false, true, ∅⟩ : RefCounter).session [0, 0, 0, 0, 0, 0, 0, 0, 1, 0]
        [.dropSectors 1, .setCount 1 7] = (updates, rc') ∧
      ∃ file', applyUpdates [0, 0, 0, 0, 0, 0, 0, 0, 1, 0] updates = .ok file' ∧
        file'.length = offset rc'.numSectors ∧ counterAt file' 0 = 0 ∧
        rc'.readCount [0, 0, 0, 0, 0, 0, 0, 0, 1, 0] 0 =
          .ok (UInt16.ofNat (counterAt [0, 0, 0, 0, 0, 0, 0, 0, 1, 0] 0)) ∧
        rc'.readCount [0, 0, 0, 0, 0, 0, 0, 0, 1, 0] 0 ≠ .ok (UInt16.ofNat (counterAt file' 0)) :=
  readCount_stale_after_drop_then_set _ _ 0 7 rfl rfl rfl rfl rfl (by decide) (by decide)

end RefCounter

end Sia.Renter.Proto
