import Mathlib.Data.List.Basic

/-! A file as the list of its bytes, written with `WriteAt`: bytes past the end of the file are
zero-filled up to the offset, and writing nothing changes nothing. -/
namespace ByteFile

/-- `f.WriteAt(data, offset)`. -/
def writeAt (file : List UInt8) (offset : ℕ) (data : List UInt8) : List UInt8 :=
  if data = [] then file
  else file.take offset ++ List.replicate (offset - file.length) 0 ++ data ++
    file.drop (offset + data.length)

/-- A write whose offset lies within the file keeps the bytes before it and overwrites those
after it. -/
theorem writeAt_of_le {file data : List UInt8} {offset : ℕ} (inside : offset ≤ file.length) :
    writeAt file offset data = file.take offset ++ data ++ file.drop (offset + data.length) := by
  unfold writeAt
  split
  · next empty =>
    subst empty
    simp
  · simp [Nat.sub_eq_zero_of_le inside]

theorem length_writeAt_of_le {file data : List UInt8} {offset : ℕ} (inside : offset ≤ file.length) :
    (writeAt file offset data).length = max file.length (offset + data.length) := by
  rw [writeAt_of_le inside]
  simp only [List.length_append, List.length_take, List.length_drop]
  omega

/-- Bytes at or after the end of a write are untouched by it. -/
theorem drop_writeAt_of_le {file data : List UInt8} {offset n : ℕ}
    (before : offset + data.length ≤ n) : (writeAt file offset data).drop n = file.drop n := by
  unfold writeAt
  split
  · rfl
  · have prefixLength :
        (file.take offset ++ List.replicate (offset - file.length) 0 ++ data).length =
          offset + data.length := by
      simp only [List.length_append, List.length_take, List.length_replicate]
      omega
    rw [List.drop_append, List.drop_eq_nil_of_le (by omega), List.nil_append, prefixLength,
      List.drop_drop]
    congr 1
    omega

/-- A write that ends at or past the end of the file leaves exactly its data after its
offset. -/
theorem drop_writeAt_self {file data : List UInt8} {offset : ℕ} (inside : offset ≤ file.length)
    (past : file.length ≤ offset + data.length) :
    (writeAt file offset data).drop offset = data := by
  have tail : file.drop (offset + data.length) = [] := List.drop_eq_nil_of_le past
  rw [writeAt_of_le inside, tail, List.append_nil, List.drop_append,
    List.drop_eq_nil_of_le (List.length_take_le _ _), List.length_take, Nat.min_eq_left inside,
    Nat.sub_self, List.drop_zero, List.nil_append]

/-- A write at or past the end of the file zero-fills the gap and appends its data. -/
theorem writeAt_of_length_le {file data : List UInt8} {offset : ℕ} (nonempty : data ≠ [])
    (past : file.length ≤ offset) :
    writeAt file offset data = file ++ List.replicate (offset - file.length) 0 ++ data := by
  have beyond : file.length ≤ offset + data.length := Nat.le_add_right_of_le past
  simp [writeAt, nonempty, List.take_of_length_le past, List.drop_eq_nil_of_le beyond]

/-- `f.Truncate(size)`: the file cut to `size` bytes, or zero-filled up to it. -/
def truncate (file : List UInt8) (size : ℕ) : List UInt8 :=
  file.take size ++ List.replicate (size - file.length) 0

@[simp] theorem length_truncate (file : List UInt8) (size : ℕ) :
    (truncate file size).length = size := by
  simp only [truncate, List.length_append, List.length_take, List.length_replicate]
  omega

theorem truncate_of_le {file : List UInt8} {size : ℕ} (shorter : size ≤ file.length) :
    truncate file size = file.take size := by
  simp [truncate, Nat.sub_eq_zero_of_le shorter]

/-- Truncating twice keeps the shorter cut. -/
theorem truncate_truncate (file : List UInt8) {size size' : ℕ} (shorter : size' ≤ size) :
    truncate (truncate file size) size' = truncate file size' := by
  rw [truncate_of_le (by rw [length_truncate]; exact shorter)]
  unfold truncate
  rw [List.take_append, List.take_take, List.take_replicate, List.length_take]
  congr 2 <;> omega

/-- A cut at or past `n` bytes keeps the file's first `n` bytes. -/
theorem take_truncate {file : List UInt8} {size n : ℕ} (inside : n ≤ size) (held : n ≤ file.length) :
    (truncate file size).take n = file.take n := by
  unfold truncate
  rw [List.take_append_of_le_length (by rw [List.length_take]; omega), List.take_take,
    Nat.min_eq_left inside]

/-- `f.ReadAt(b, offset)` into a buffer of `length` bytes: the bytes read, fewer than `length`
at the end of the file (where the read returns `io.EOF` with them). -/
def readAt (file : List UInt8) (offset length : ℕ) : List UInt8 :=
  (file.drop offset).take length

theorem length_readAt (file : List UInt8) (offset length : ℕ) :
    (readAt file offset length).length = min length (file.length - offset) := by
  simp [readAt]

/-- A write at the end of the file appends its data. -/
theorem writeAt_length (file data : List UInt8) : writeAt file file.length data = file ++ data := by
  by_cases empty : data = []
  · simp [writeAt, empty]
  · rw [writeAt_of_length_le empty (Nat.le_refl _), Nat.sub_self, List.replicate_zero, List.append_nil]

/-- A write within the file leaves the bytes before its offset as they were. -/
theorem take_writeAt {file data : List UInt8} {offset : ℕ} (inside : offset ≤ file.length) :
    (writeAt file offset data).take offset = file.take offset := by
  rw [writeAt_of_le inside, List.append_assoc,
    List.take_append_of_le_length (by rw [List.length_take]; omega), List.take_take, Nat.min_self]

end ByteFile
