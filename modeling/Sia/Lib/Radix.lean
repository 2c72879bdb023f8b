import Mathlib.Data.List.Nodup
import Mathlib.Data.List.Induction
import Mathlib.Data.Nat.Digits.Defs
import Sia.Lib.Except

/-! Fixed-length digit strings and the unpadded base-`2^width` text encodings of RFC 4648 built on
them. A byte string is read as one big-endian number, padded with zero bits up to a whole number
of characters and written one `width`-bit digit per character; the decoder skips line breaks,
rejects characters outside the alphabet and a tail too short to hold a byte, and ignores the
padding bits. -/
namespace Radix

/-- The `len` lowest base-`b` digits of `n`, most significant first. -/
def digits (b : ℕ) : ℕ → ℕ → List ℕ
  | 0, _ => []
  | len + 1, n => digits b len (n / b) ++ [n % b]

/-- The number whose base-`b` digits, most significant first, are `ds`. -/
def value (b : ℕ) (ds : List ℕ) : ℕ := Nat.ofDigits b ds.reverse

@[simp] theorem length_digits (b len n : ℕ) : (digits b len n).length = len := by
  induction len generalizing n with
  | zero => rfl
  | succ len ih => simp [digits, ih]

@[simp] theorem value_nil (b : ℕ) : value b [] = 0 := rfl

@[simp] theorem value_append_singleton (b : ℕ) (ds : List ℕ) (d : ℕ) :
    value b (ds ++ [d]) = value b ds * b + d := by
  rw [value, List.reverse_append, List.reverse_singleton, List.singleton_append,
    Nat.ofDigits_cons, Nat.add_comm, Nat.mul_comm, value]

theorem value_digits (b len n : ℕ) : value b (digits b len n) = n % b ^ len := by
  induction len generalizing n with
  | zero => simp [digits, Nat.mod_one]
  | succ len ih =>
    rw [digits, value_append_singleton, ih, Nat.pow_succ, Nat.mul_comm (b ^ len) b, Nat.mod_mul,
      Nat.mul_comm b, Nat.add_comm]

theorem digits_lt {b len n : ℕ} (base : 0 < b) : ∀ d ∈ digits b len n, d < b := by
  induction len generalizing n with
  | zero => simp [digits]
  | succ len ih =>
    intro d mem
    rcases List.mem_append.mp mem with front | last
    · exact ih d front
    · rw [List.mem_singleton.mp last]
      exact Nat.mod_lt _ base

theorem value_lt {b : ℕ} {ds : List ℕ} (base : 1 < b) (small : ∀ d ∈ ds, d < b) :
    value b ds < b ^ ds.length := by
  rw [value, ← List.length_reverse]
  exact Nat.ofDigits_lt_base_pow_length base fun d mem => small d (List.mem_reverse.mp mem)

theorem digits_value {b : ℕ} {ds : List ℕ} (small : ∀ d ∈ ds, d < b) :
    digits b ds.length (value b ds) = ds := by
  induction ds using List.reverseRecOn with
  | nil => rfl
  | append_singleton ds d ih =>
    have last := small d (by simp)
    have pos : 0 < b := Nat.lt_of_le_of_lt (Nat.zero_le d) last
    have front : (value b ds * b + d) / b = value b ds := by
      rw [Nat.mul_comm, Nat.mul_add_div pos, Nat.div_eq_of_lt last, Nat.add_zero]
    have back : (value b ds * b + d) % b = d := by
      rw [Nat.mul_comm, Nat.mul_add_mod, Nat.mod_eq_of_lt last]
    rw [List.length_append, List.length_singleton, digits, value_append_singleton, front, back,
      ih fun e mem => small e (List.mem_append_left _ mem)]

/-- Bytes as base-256 digits. -/
theorem digits_bytes (bytes : List UInt8) :
    (digits 256 bytes.length (value 256 (bytes.map UInt8.toNat))).map UInt8.ofNat = bytes := by
  have small : ∀ d ∈ bytes.map UInt8.toNat, d < 256 := fun d mem => by
    obtain ⟨byte, -, rfl⟩ := List.mem_map.mp mem
    exact byte.toNat_lt
  have same := digits_value small
  rw [List.length_map] at same
  have roundTrip : UInt8.ofNat ∘ UInt8.toNat = id := funext fun _ => UInt8.ofNat_toNat
  rw [same, List.map_map, roundTrip, List.map_id]

theorem value_bytes_lt (bytes : List UInt8) :
    value 256 (bytes.map UInt8.toNat) < 2 ^ (8 * bytes.length) := by
  have small : ∀ d ∈ bytes.map UInt8.toNat, d < 256 := fun d mem => by
    obtain ⟨byte, -, rfl⟩ := List.mem_map.mp mem
    exact byte.toNat_lt
  have bound := value_lt (by decide) small
  rwa [List.length_map, show (256 : ℕ) = 2 ^ 8 from rfl, ← Nat.pow_mul] at bound

/-- The characters of an encoding: `2 ^ width` distinct characters, none of them a line break. -/
structure Alphabet (width : ℕ) where
  chars : List Char
  size : chars.length = 2 ^ width
  nodup : chars.Nodup
  noLineBreak : '\r' ∉ chars ∧ '\n' ∉ chars

/-- `base64.RawURLEncoding`'s alphabet. -/
def base64URL : Alphabet 6 where
  chars := ['A', 'B', 'C', 'D', 'E', 'F', 'G', 'H', 'I', 'J', 'K', 'L', 'M', 'N', 'O', 'P',
    'Q', 'R', 'S', 'T', 'U', 'V', 'W', 'X', 'Y', 'Z', 'a', 'b', 'c', 'd', 'e', 'f',
    'g', 'h', 'i', 'j', 'k', 'l', 'm', 'n', 'o', 'p', 'q', 'r', 's', 't', 'u', 'v',
    'w', 'x', 'y', 'z', '0', '1', '2', '3', '4', '5', '6', '7', '8', '9', '-', '_']
  size := by decide
  nodup := by decide
  noLineBreak := by decide

/-- `base32.HexEncoding`'s alphabet. -/
def base32Hex : Alphabet 5 where
  chars := ['0', '1', '2', '3', '4', '5', '6', '7', '8', '9', 'A', 'B', 'C', 'D', 'E', 'F',
    'G', 'H', 'I', 'J', 'K', 'L', 'M', 'N', 'O', 'P', 'Q', 'R', 'S', 'T', 'U', 'V']
  size := by decide
  nodup := by decide
  noLineBreak := by decide

/-- `CorruptInputError`. -/
inductive CorruptInputError where
  | illegalCharacter (c : Char)
  | truncated
  deriving DecidableEq, Repr

namespace Alphabet

variable {width : ℕ} (A : Alphabet width)

/-- The number of characters that hold `byteCount` bytes: the bits rounded up to whole digits. -/
def encodedLen (width byteCount : ℕ) : ℕ := (8 * byteCount + width - 1) / width

/-- `EncodeToString` without padding. -/
def encode (bytes : List UInt8) : List Char :=
  let count := encodedLen width bytes.length
  (digits (2 ^ width) count
      (value 256 (bytes.map UInt8.toNat) * 2 ^ (count * width - 8 * bytes.length))).map
    fun d => A.chars.getD d ' '

def digit (c : Char) : Except CorruptInputError ℕ :=
  match A.chars.idxOf? c with
  | some d => .ok d
  | none => .error (.illegalCharacter c)

/-- `DecodeString` without padding: the whole bytes the digits hold. -/
def decode (s : List Char) : Except CorruptInputError (List UInt8) := do
  let s := s.filter fun c => c != '\r' && c != '\n'
  let ds ← s.mapM A.digit
  if width ≤ s.length * width % 8 then throw .truncated
  let count := s.length * width / 8
  pure ((digits 256 count (value (2 ^ width) ds / 2 ^ (s.length * width - 8 * count))).map
    UInt8.ofNat)

@[simp] theorem length_encode (bytes : List UInt8) :
    (A.encode bytes).length = encodedLen width bytes.length := by
  simp [encode]

theorem digit_getD {d : ℕ} (small : d < 2 ^ width) : A.digit (A.chars.getD d ' ') = .ok d := by
  have inside : d < A.chars.length := A.size ▸ small
  have found : A.chars.idxOf? A.chars[d] = some d :=
    List.idxOf?_eq_some_iff.mpr ⟨inside, rfl, fun j below same =>
      Nat.ne_of_lt below ((List.Nodup.getElem_inj_iff A.nodup).mp same)⟩
  have pick : A.chars.getD d ' ' = A.chars[d] := by simp [inside]
  simp only [digit, pick, found]

theorem getD_mem {d : ℕ} (small : d < 2 ^ width) : A.chars.getD d ' ' ∈ A.chars := by
  have inside : d < A.chars.length := A.size ▸ small
  have pick : A.chars.getD d ' ' = A.chars[d] := by simp [inside]
  rw [pick]
  exact List.getElem_mem _

theorem mem_chars_of_mem_encode {bytes : List UInt8} {c : Char} (mem : c ∈ A.encode bytes) :
    c ∈ A.chars := by
  obtain ⟨d, digit, rfl⟩ := List.mem_map.mp mem
  exact A.getD_mem (digits_lt (Nat.two_pow_pos _) d digit)

theorem mapM_digit_encode {ds : List ℕ} (small : ∀ d ∈ ds, d < 2 ^ width) :
    (ds.map fun d => A.chars.getD d ' ').mapM A.digit = .ok ds := by
  induction ds with
  | nil => rfl
  | cons d ds ih =>
    rw [List.map_cons, List.mapM_cons, A.digit_getD (small d (by simp)),
      ih fun e mem => small e (by simp [mem])]
    rfl

/-- Padding `8 * n` bits up to whole `width`-bit digits adds fewer than `width` bits, so the
decoder finds no truncated tail and reads back exactly `n` bytes. -/
theorem encodedLen_bits {n : ℕ} (pos : 0 < width) (narrow : width ≤ 8) :
    encodedLen width n * width % 8 < width ∧ encodedLen width n * width / 8 = n ∧
      8 * n ≤ encodedLen width n * width := by
  have split := Nat.div_add_mod (8 * n + width - 1) width
  have rest := Nat.mod_lt (8 * n + width - 1) pos
  unfold encodedLen
  rw [Nat.mul_comm]
  omega

/-- Decoding an encoding gives back the bytes. -/
theorem decode_encode (pos : 0 < width) (narrow : width ≤ 8) (bytes : List UInt8) :
    A.decode (A.encode bytes) = .ok bytes := by
  obtain ⟨whole, exact, enough⟩ := encodedLen_bits (n := bytes.length) pos narrow
  have base : 1 < 2 ^ width := Nat.one_lt_two_pow (Nat.ne_of_gt pos)
  -- the bytes' number shifted up over the padding bits fills the digits exactly
  have padded : value 256 (bytes.map UInt8.toNat) *
      2 ^ (encodedLen width bytes.length * width - 8 * bytes.length) <
      (2 ^ width) ^ encodedLen width bytes.length := by
    rw [← Nat.pow_mul, Nat.mul_comm width]
    calc _ < 2 ^ (8 * bytes.length) *
          2 ^ (encodedLen width bytes.length * width - 8 * bytes.length) :=
          Nat.mul_lt_mul_of_pos_right (value_bytes_lt bytes) (Nat.two_pow_pos _)
      _ = 2 ^ (encodedLen width bytes.length * width) := by
          rw [← Nat.pow_add, Nat.add_sub_cancel' enough]
  have small : ∀ d ∈ digits (2 ^ width) (encodedLen width bytes.length)
      (value 256 (bytes.map UInt8.toNat) *
        2 ^ (encodedLen width bytes.length * width - 8 * bytes.length)), d < 2 ^ width :=
    digits_lt (Nat.zero_lt_of_lt base)
  have noBreaks : (A.encode bytes).filter (fun c => c != '\r' && c != '\n') = A.encode bytes := by
    rw [List.filter_eq_self]
    intro c mem
    have inside := A.mem_chars_of_mem_encode mem
    have other : c ≠ '\r' ∧ c ≠ '\n' :=
      ⟨fun same => A.noLineBreak.1 (same ▸ inside), fun same => A.noLineBreak.2 (same ▸ inside)⟩
    simpa using other
  simp only [decode, noBreaks, length_encode]
  rw [encode, A.mapM_digit_encode small, Except.ok_bind, if_neg (Nat.not_le.mpr whole), exact,
    value_digits, Nat.mod_eq_of_lt padded, Nat.mul_div_cancel _ (Nat.two_pow_pos _),
    digits_bytes]
  rfl

/-! ### Base64 with padding -/

section Padded

variable (A : Alphabet 6)

/-- `EncodeToString` with the padding `=`: the characters are filled up to whole quanta of four. -/
def encodePadded (bytes : List UInt8) : List Char :=
  A.encode bytes ++ List.replicate ((4 - (A.encode bytes).length % 4) % 4) '='

/-- `DecodeString` with the padding `=`: without its line breaks the text is whole quanta, it ends
in at most two `=`, and what comes before them decodes as unpadded text. -/
def decodePadded (s : List Char) : Except CorruptInputError (List UInt8) := do
  let s := s.filter fun c => c != '\r' && c != '\n'
  if s.length % 4 ≠ 0 then throw .truncated
  let pad := (s.reverse.takeWhile (· == '=')).length
  if 2 < pad then throw (.illegalCharacter '=')
  A.decode (s.take (s.length - pad))

theorem mem_encodePadded {bytes : List UInt8} {c : Char} (mem : c ∈ A.encodePadded bytes) :
    c ∈ A.chars ∨ c = '=' := by
  rcases List.mem_append.mp mem with encoded | padding
  · exact .inl (A.mem_chars_of_mem_encode encoded)
  · exact .inr (List.eq_of_mem_replicate padding)

/-- Six-bit digits fill a whole quantum or leave two or three characters in the last one. -/
theorem padding_le_two (n : ℕ) : (4 - encodedLen 6 n % 4) % 4 ≤ 2 ∧ (encodedLen 6 n + (4 - encodedLen 6 n % 4) % 4) % 4 = 0 := by
  unfold encodedLen
  omega

theorem takeWhile_padding {e : List Char} (k : ℕ) (unpadded : '=' ∉ e) :
    ((e ++ List.replicate k '=').reverse.takeWhile (· == '=')).length = k := by
  have padding : (List.replicate k '=').takeWhile (· == '=') = List.replicate k '=' := by
    simp
  rw [List.reverse_append, List.reverse_replicate, List.takeWhile_append, padding, if_pos rfl,
    List.length_append, List.length_replicate]
  -- the last character of the encoding is no padding
  cases tail : e.reverse with
  | nil => simp
  | cons c rest =>
    have inside : c ∈ e := List.mem_reverse.mp (tail ▸ List.mem_cons_self)
    have other : (c == '=') = false := by
      simpa using fun same : c = '=' => unpadded (same ▸ inside)
    simp [other]

/-- Decoding a padded encoding gives back the bytes. -/
theorem decodePadded_encodePadded (unpadded : '=' ∉ A.chars) (bytes : List UInt8) :
    A.decodePadded (A.encodePadded bytes) = .ok bytes := by
  obtain ⟨short, whole⟩ := padding_le_two bytes.length
  have plain : '=' ∉ A.encode bytes := fun mem => unpadded (A.mem_chars_of_mem_encode mem)
  have noBreaks : (A.encodePadded bytes).filter (fun c => c != '\r' && c != '\n') =
      A.encodePadded bytes := by
    rw [List.filter_eq_self]
    intro c mem
    rcases A.mem_encodePadded mem with inside | rfl
    · have other : c ≠ '\r' ∧ c ≠ '\n' :=
        ⟨fun same => A.noLineBreak.1 (same ▸ inside), fun same => A.noLineBreak.2 (same ▸ inside)⟩
      simp [other]
    · rfl
  have pad := takeWhile_padding ((4 - (A.encode bytes).length % 4) % 4) plain
  rw [length_encode] at pad
  simp only [decodePadded, noBreaks]
  rw [encodePadded, length_encode] at *
  simp only [List.length_append, List.length_replicate, length_encode, pad]
  rw [if_neg (fun uneven => uneven whole), if_neg (Nat.not_lt.mpr short), Nat.add_sub_cancel,
    List.take_left' (A.length_encode bytes)]
  exact A.decode_encode (by decide) (by decide) bytes

end Padded

end Alphabet

end Radix
