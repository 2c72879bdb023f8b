import Sia.Lib.Bytes

/-! Decoders of byte strings. A decoder takes a value off the front of its input and leaves the
rest; the first error stops it. A decoder *reads* an encoder at a value when, on the encoding
followed by anything, it returns the value and leaves exactly what followed. The rules below
build that fact for raw bytes, fixed-width and length-prefixed numbers, sequences and
repetitions, so that a round trip of a record is one rewrite per field. -/
namespace Bytes

inductive DecodeError where
  /-- The input ended inside a value. -/
  | unexpectedEOF
  /-- A length prefix asks for more than the decoder may allocate. -/
  | tooLarge
  deriving DecidableEq, Repr

abbrev Decoder (α : Type) := StateT (List UInt8) (Except DecodeError) α

namespace Decoder

variable {α β : Type}

/-- Exactly `n` bytes. -/
def readFull (n : ℕ) : Decoder (List UInt8) := fun bytes =>
  if n ≤ bytes.length then .ok (bytes.take n, bytes.drop n) else .error .unexpectedEOF

/-- `n` bytes into an array of that size. -/
def readArray (n : ℕ) : Decoder (Vector UInt8 n) := do
  let bytes ← readFull n
  pure (Vector.ofFn fun i => bytes.getD i 0)

/-- A `width`-byte little-endian number. -/
def readLE (width : ℕ) : Decoder ℕ := do
  let bytes ← readFull width
  pure (leValue bytes)

/-- An eight-byte length prefix, refused unless `admits` accepts it. -/
def readPrefix (admits : ℕ → Bool) : Decoder ℕ := do
  let n ← readLE 8
  if admits n then pure n else throw .tooLarge

/-- `count` values, one after another. -/
def readMany (dec : Decoder α) : ℕ → Decoder (List α)
  | 0 => pure []
  | count + 1 => do
    let x ← dec
    let xs ← readMany dec count
    pure (x :: xs)

/-- A length prefix and that many values. -/
def readList (admits : ℕ → Bool) (dec : Decoder α) : Decoder (List α) := do
  let n ← readPrefix admits
  readMany dec n

/-- A length prefix and that many bytes. -/
def readPrefixed (admits : ℕ → Bool) : Decoder (List UInt8) := do
  let n ← readPrefix admits
  readFull n

/-- `dec` reads back what `enc` writes for `x`, whatever follows it, and leaves what follows. -/
def Reads (dec : Decoder α) (enc : α → List UInt8) (x : α) : Prop :=
  ∀ rest, dec.run (enc x ++ rest) = .ok (x, rest)

/-- A field read off the front of the input: the rest of the decoder runs on what follows. -/
theorem Reads.run_bind {dec : Decoder α} {enc : α → List UInt8} {x : α} (reads : Reads dec enc x)
    (k : α → Decoder β) (rest : List UInt8) :
    (dec >>= k).run (enc x ++ rest) = (k x).run rest := by
  rw [StateT.run_bind, reads rest]
  rfl

theorem readFull_reads {n : ℕ} {bytes : List UInt8} (length : bytes.length = n) :
    Reads (readFull n) id bytes := by
  intro rest
  have fits : n ≤ (bytes ++ rest).length := by simp [length]
  simp only [StateT.run, readFull, if_pos fits, id]
  rw [List.take_left' length, List.drop_left' length]

theorem readFull_run_bind {n : ℕ} {bytes : List UInt8} (length : bytes.length = n)
    (k : List UInt8 → Decoder β) (rest : List UInt8) :
    (readFull n >>= k).run (bytes ++ rest) = (k bytes).run rest :=
  (readFull_reads length).run_bind k rest

/-- An array is filled back from its own bytes. -/
theorem ofFn_getD_toList {n : ℕ} (v : Vector UInt8 n) :
    (Vector.ofFn fun i : Fin n => v.toList.getD i 0) = v := by
  ext i fits
  simp [List.getD_eq_getElem?_getD]

theorem readArray_reads {n : ℕ} (v : Vector UInt8 n) : Reads (readArray n) Vector.toList v := by
  intro rest
  rw [readArray, readFull_run_bind v.length_toList, ofFn_getD_toList]
  rfl

theorem readLE_reads {width n : ℕ} (small : n < 256 ^ width) :
    Reads (readLE width) (leBytes width) n := by
  intro rest
  rw [readLE, readFull_run_bind (length_leBytes width n), leValue_leBytes, Nat.mod_eq_of_lt small]
  rfl

theorem readPrefix_reads {admits : ℕ → Bool} {n : ℕ} (small : n < 2 ^ 64)
    (admitted : admits n = true) : Reads (readPrefix admits) (leBytes 8) n := by
  intro rest
  rw [readPrefix, (readLE_reads (by simpa using small)).run_bind, if_pos admitted]
  rfl

/-- By induction on the values: each is read off the front in turn. -/
theorem readMany_reads {dec : Decoder α} {enc : α → List UInt8} :
    ∀ {xs : List α}, (∀ x ∈ xs, Reads dec enc x) →
      Reads (readMany dec xs.length) (fun xs => xs.flatMap enc) xs
  | [], _ => fun rest => rfl
  | x :: xs, each => by
    intro rest
    have head := each x List.mem_cons_self
    have tail := readMany_reads fun y mem => each y (List.mem_cons_of_mem x mem)
    simp only [List.length_cons, readMany, List.flatMap_cons, List.append_assoc]
    rw [head.run_bind, tail.run_bind]
    rfl

theorem readList_reads {admits : ℕ → Bool} {dec : Decoder α} {enc : α → List UInt8}
    {xs : List α} (small : xs.length < 2 ^ 64) (admitted : admits xs.length = true)
    (each : ∀ x ∈ xs, Reads dec enc x) :
    Reads (readList admits dec) (fun xs => leBytes 8 xs.length ++ xs.flatMap enc) xs := by
  intro rest
  rw [readList, List.append_assoc, (readPrefix_reads small admitted).run_bind]
  exact readMany_reads each rest

theorem readPrefixed_reads {admits : ℕ → Bool} {bytes : List UInt8} (small : bytes.length < 2 ^ 64)
    (admitted : admits bytes.length = true) :
    Reads (readPrefixed admits) (fun bytes => leBytes 8 bytes.length ++ bytes) bytes := by
  intro rest
  rw [readPrefixed, List.append_assoc, (readPrefix_reads small admitted).run_bind]
  exact readFull_reads rfl rest

end Decoder

end Bytes
