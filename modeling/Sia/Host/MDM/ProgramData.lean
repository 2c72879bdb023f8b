import Sia.Lib.Slice
import Sia.Lib.Bytes

/-! The program data of the host's MDM (`modules/host/mdm/programdata.go`). The renter's data
arrives in packets that a background thread appends to `data`; a read at an offset either finds
the bytes already there or queues a request that the thread releases once enough data has
arrived or reading has failed. The model takes the thread's state at that release as an
argument, so a read is a function of the state it starts from and the state it wakes up in.
Offsets and lengths are `uint64`, and the bounds checks add them in `uint64`. -/
namespace Sia.MDM

/-- `crypto.Hash`. -/
abbrev Hash := Vector UInt8 32

/-- The state of a `programData`: the bytes received so far, the length paid for, and the first
error of the fetching thread. -/
structure ProgramData (ε : Type) where
  data : List UInt8
  staticLength : UInt64
  readErr : Option ε

/-- The errors of `managedBytes`. -/
inductive ProgramDataError (ε : Type) where
  /-- `offset+length out of bounds`. -/
  | outOfBounds (requested staticLength : UInt64)
  /-- The error the fetching thread stopped with. -/
  | read (err : ε)

variable {ε : Type}

/-- `pd.data[offset:][:length]`. -/
def readSlice (data : List UInt8) (offset length : UInt64) : Option (List UInt8) :=
  (Slice.sliceFrom data offset.toNat).bind (Slice.sliceTo · length.toNat)

/-- `managedBytes(offset, length)`. `released` is the thread's state when it closes the request;
it is only read when the data is not there yet and no error has been seen. `none` is a panic: a
slice out of range, or the `build.Critical` of a request released without its data. -/
def managedBytes (pd released : ProgramData ε) (offset length : UInt64) :
    Option (Except (ProgramDataError ε) (List UInt8)) :=
  if offset + length > pd.staticLength then some (.error (.outOfBounds (offset + length) pd.staticLength))
  else if UInt64.ofNat pd.data.length ≥ offset + length then
    (readSlice pd.data offset length).map .ok
  else
    match pd.readErr with
    | some err => some (.error (.read err))
    | none =>
      if UInt64.ofNat released.data.length < offset + length then
        match released.readErr with
        | none => none
        | some err => some (.error (.read err))
      else (readSlice released.data offset length).map .ok

/-- `copy(h[:], d)` into an `n`-byte array: the first `n` bytes of `d`, zero-padded. -/
def copyBytes (n : ℕ) (d : List UInt8) : Vector UInt8 n := Vector.ofFn fun i => d.getD i 0

section Readers

variable (pd released : ProgramData ε) (offset : UInt64)

/-- `Uint64(offset)`: eight little-endian bytes. -/
def readUint64 : Option (Except (ProgramDataError ε) UInt64) :=
  (managedBytes pd released offset 8).map (·.map fun d => UInt64.ofNat (Bytes.leValue d))

/-- `Hash(offset)`. -/
def readHash : Option (Except (ProgramDataError ε) Hash) :=
  (managedBytes pd released offset 32).map (·.map (copyBytes 32))

/-- `Signature(offset)`: `crypto.SignatureSize` bytes. -/
def readSignature : Option (Except (ProgramDataError ε) (Vector UInt8 64)) :=
  (managedBytes pd released offset 64).map (·.map (copyBytes 64))

end Readers

/-! ### Reads within bounds -/

/-- What the fetching thread may have done between two moments: appended more of the renter's
byte stream `full`, never past the paid length, and perhaps stopped with an error it keeps. -/
structure Fetched (full : List UInt8) (pd pd' : ProgramData ε) : Prop where
  grows : pd.data <+: pd'.data
  fromStream : pd'.data <+: full
  bounded : pd'.data.length ≤ pd'.staticLength.toNat
  sameLength : pd'.staticLength = pd.staticLength

/-- The thread closes a request once the data reaches the required length, compared as
`uint64`, or when it stops with an error. -/
def Releases (released : ProgramData ε) (offset length : UInt64) : Prop :=
  released.readErr.isSome ∨ offset + length ≤ UInt64.ofNat released.data.length

theorem readSlice_of_le {data : List UInt8} {offset length : UInt64}
    (fits : offset.toNat + length.toNat ≤ data.length) :
    readSlice data offset length = some ((data.drop offset.toNat).take length.toNat) := by
  unfold readSlice
  rw [Slice.sliceFrom_bind_sliceTo, Slice.slice, if_pos ⟨by omega, fits⟩, Nat.add_sub_cancel_left]

/-- A window that lies inside a prefix of the stream reads the same from the prefix. -/
theorem take_drop_of_prefix {data full : List UInt8} (isPrefix : data <+: full) {o l : ℕ}
    (fits : o + l ≤ data.length) : (data.drop o).take l = (full.drop o).take l := by
  obtain ⟨rest, rfl⟩ := isPrefix
  rw [List.drop_append_of_le_length (by omega), List.take_append_of_le_length (by simp; omega)]

/-- With no `uint64` wrap-around, the sum the code checks is the true end of the window. -/
theorem toNat_add_of_fits {offset length bound : UInt64}
    (fits : offset.toNat + length.toNat ≤ bound.toNat) :
    (offset + length).toNat = offset.toNat + length.toNat := by
  have := bound.toNat_lt
  rw [UInt64.toNat_add, Nat.mod_eq_of_lt (by omega)]

theorem length_le_iff_of_fits {offset length : UInt64} {n : ℕ} (small : n < 2 ^ 64)
    (sum : (offset + length).toNat = offset.toNat + length.toNat) :
    offset + length ≤ UInt64.ofNat n ↔ offset.toNat + length.toNat ≤ n := by
  rw [UInt64.le_iff_toNat_le, sum, UInt64.toNat_ofNat_of_lt' small]

/-- When the window ends inside the paid length as a true sum, `managedBytes` never panics: it
returns the renter's bytes of the window, or an error. -/
theorem managedBytes_of_fits (full : List UInt8) {pd released : ProgramData ε}
    {offset length : UInt64} (fits : offset.toNat + length.toNat ≤ pd.staticLength.toNat)
    (start : pd.data <+: full) (fetched : Fetched full pd released)
    (release : Releases released offset length) :
    managedBytes pd released offset length =
        some (.ok ((full.drop offset.toNat).take length.toNat)) ∨
      ∃ e, managedBytes pd released offset length = some (.error e) := by
  have sum := toNat_add_of_fits fits
  have paid := pd.staticLength.toNat_lt
  have inBounds : ¬ offset + length > pd.staticLength := by
    rw [gt_iff_lt, UInt64.lt_iff_toNat_lt, sum]
    omega
  have grown := fetched.grows.length_le
  have releasedBound := fetched.bounded
  rw [fetched.sameLength] at releasedBound
  unfold managedBytes
  rw [if_neg inBounds]
  by_cases arrived : UInt64.ofNat pd.data.length ≥ offset + length
  · -- the window is already there
    rw [if_pos arrived]
    have enough := (length_le_iff_of_fits (by omega) sum).mp arrived
    left
    rw [readSlice_of_le enough, take_drop_of_prefix start enough]
    rfl
  · rw [if_neg arrived]
    cases seen : pd.readErr with
    | some err => exact .inr ⟨_, rfl⟩
    | none =>
      -- the request waits for the thread
      by_cases short : UInt64.ofNat released.data.length < offset + length
      · rw [if_pos short]
        cases failed : released.readErr with
        | none =>
          -- a request is only released early by an error
          have early : ¬ offset + length ≤ UInt64.ofNat released.data.length := UInt64.not_le.mpr short
          simp only [Releases, failed, Option.isSome_none, Bool.false_eq_true, false_or] at release
          exact absurd release early
        | some err => exact .inr ⟨_, rfl⟩
      · rw [if_neg short]
        have enough := (length_le_iff_of_fits (by omega) sum).mp (UInt64.not_lt.mp short)
        left
        rw [readSlice_of_le enough, take_drop_of_prefix fetched.fromStream enough]
        rfl

end Sia.MDM
