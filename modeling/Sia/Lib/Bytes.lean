import Mathlib.Data.List.Basic
import Mathlib.Data.Nat.Digits.Lemmas
import Mathlib.Tactic.Ring

/-! Fixed-width little-endian and minimal big-endian byte strings of natural numbers, with their
readers. The fixed-width form is how eight-byte integers travel; the minimal big-endian form is
how arbitrary-precision integers do. -/
namespace Bytes

/-- The low `width` base-256 digits of `n`, least significant first. -/
def leBytes : ℕ → ℕ → List UInt8
  | 0, _ => []
  | width + 1, n => UInt8.ofNat (n % 256) :: leBytes width (n / 256)

/-- The number whose base-256 digits, least significant first, are `bytes`. -/
def leValue : List UInt8 → ℕ
  | [] => 0
  | byte :: rest => byte.toNat + 256 * leValue rest

@[simp] theorem length_leBytes (width n : ℕ) : (leBytes width n).length = width := by
  induction width generalizing n with
  | zero => rfl
  | succ width ih => simp [leBytes, ih]

theorem leValue_leBytes (width n : ℕ) : leValue (leBytes width n) = n % 256 ^ width := by
  induction width generalizing n with
  | zero => simp [leBytes, leValue, Nat.mod_one]
  | succ width ih =>
    simp only [leBytes, leValue, ih, UInt8.toNat_ofNat', Nat.reducePow]
    rw [Nat.pow_succ', Nat.mod_mul, Nat.mod_mod]

theorem leValue_lt (bytes : List UInt8) : leValue bytes < 256 ^ bytes.length := by
  induction bytes with
  | nil => simp [leValue]
  | cons byte rest ih =>
    have small := byte.toNat_lt
    simp only [leValue, List.length_cons, Nat.pow_succ]
    omega

theorem leBytes_leValue (bytes : List UInt8) : leBytes bytes.length (leValue bytes) = bytes := by
  induction bytes with
  | nil => rfl
  | cons byte rest ih =>
    have small := byte.toNat_lt
    have low : (byte.toNat + 256 * leValue rest) % 256 = byte.toNat := by omega
    have high : (byte.toNat + 256 * leValue rest) / 256 = leValue rest := by omega
    simp only [List.length_cons, leBytes, leValue, low, high, ih, UInt8.ofNat_toNat]

theorem leBytes_injective {width m n : ℕ} (small : m < 256 ^ width) (small' : n < 256 ^ width)
    (same : leBytes width m = leBytes width n) : m = n := by
  have values := congrArg leValue same
  rwa [leValue_leBytes, leValue_leBytes, Nat.mod_eq_of_lt small, Nat.mod_eq_of_lt small'] at values

/-- The shortest big-endian digit string of `n`: empty for zero, no leading zero byte. The
recursion runs on a fuel of `n` steps, more than `n` has digits, so that it also evaluates in
the kernel. -/
def beMinimal (n : ℕ) : List UInt8 := go n n
where
  go : ℕ → ℕ → List UInt8
    | 0, _ => []
    | fuel + 1, n => if n = 0 then [] else go fuel (n / 256) ++ [UInt8.ofNat (n % 256)]

/-- Any fuel of at least `n` gives the same digits. -/
theorem beMinimal.go_of_le : ∀ {fuel n : ℕ}, n ≤ fuel → beMinimal.go fuel n = beMinimal n
  | 0, n, enough => by
    have zero : n = 0 := Nat.le_zero.mp enough
    subst zero
    rfl
  | fuel + 1, n, enough => by
    rw [beMinimal, go]
    cases n with
    | zero => rfl
    | succ m =>
      rw [go, if_neg (Nat.succ_ne_zero m), if_neg (Nat.succ_ne_zero m),
        go_of_le (by omega), go_of_le (by omega)]

/-- The digits of `n` are those of `n / 256` followed by its last one. -/
theorem beMinimal_eq (n : ℕ) :
    beMinimal n = if n = 0 then [] else beMinimal (n / 256) ++ [UInt8.ofNat (n % 256)] := by
  cases n with
  | zero => rfl
  | succ m =>
    rw [beMinimal, beMinimal.go, beMinimal.go_of_le (by omega)]

/-- The number whose base-256 digits, most significant first, are `bytes` (`big.Int.SetBytes`). -/
def beValue (bytes : List UInt8) : ℕ :=
  bytes.foldl (fun acc byte => 256 * acc + byte.toNat) 0

theorem beValue_append_singleton (bytes : List UInt8) (byte : UInt8) :
    beValue (bytes ++ [byte]) = 256 * beValue bytes + byte.toNat := by
  simp [beValue, List.foldl_append]

theorem beValue_beMinimal (n : ℕ) : beValue (beMinimal n) = n := by
  induction n using Nat.strong_induction_on with
  | _ n ih =>
    rw [beMinimal_eq]
    split
    · subst n
      rfl
    · rw [beValue_append_singleton, ih (n / 256) (by omega), UInt8.toNat_ofNat']
      simp only [Nat.reducePow]
      omega

/-- The minimal big-endian bytes are the base-256 digits, most significant first. -/
theorem beMinimal_eq_digits (n : ℕ) :
    beMinimal n = ((Nat.digits 256 n).map UInt8.ofNat).reverse := by
  induction n using Nat.strong_induction_on with
  | _ n ih =>
    rw [beMinimal_eq]
    split
    · subst n
      rfl
    · rw [Nat.digits_def' (by decide) (by omega), ih (n / 256) (by omega), List.map_cons,
        List.reverse_cons]

theorem length_beMinimal (n : ℕ) : (beMinimal n).length = (Nat.digits 256 n).length := by
  simp [beMinimal_eq_digits]

/-- Byte `i` of the minimal big-endian bytes, counted from the last, is `n / 256 ^ i % 256`. -/
theorem beMinimal_eq_bytes (n : ℕ) :
    beMinimal n =
      ((List.range (beMinimal n).length).map fun i => UInt8.ofNat (n / 256 ^ i % 256)).reverse := by
  have digits : Nat.digits 256 n =
      (List.range (Nat.digits 256 n).length).map fun i => n / 256 ^ i % 256 := by
    apply List.ext_getElem (by simp)
    intro i inside _
    rw [List.getElem_map, List.getElem_range, ← Nat.getD_digits n i (by decide),
      List.getD_eq_getElem?_getD, List.getElem?_eq_getElem inside, Option.getD_some]
  rw [length_beMinimal, beMinimal_eq_digits, digits, List.map_map, List.length_map,
    List.length_range]
  rfl

/-- `copy(dst[:], src)` into a zeroed array of `n` bytes. -/
def copyBytes (n : ℕ) (src : List UInt8) : Vector UInt8 n := Vector.ofFn fun i => src.getD i 0

theorem toList_copyBytes (n : ℕ) (src : List UInt8) :
    (copyBytes n src).toList = src.take n ++ List.replicate (n - src.length) 0 := by
  apply List.ext_getElem
  · simp only [Vector.length_toList, List.length_append, List.length_take, List.length_replicate]
    omega
  · intro i inVector _
    rw [Vector.length_toList] at inVector
    simp only [copyBytes, Vector.getElem_toList, Vector.getElem_ofFn, List.getD_eq_getElem?_getD]
    rw [List.getElem_append]
    split
    · next short =>
      simp only [List.length_take] at short
      simp [List.getElem_take, List.getElem?_eq_getElem (show i < src.length by omega)]
    · next long =>
      simp only [List.length_take] at long
      simp [List.getElem?_eq_none (show src.length ≤ i by omega)]

/-- Copying an array's bytes, with anything after them, gives the array back. -/
theorem copyBytes_toList_append {n : ℕ} (v : Vector UInt8 n) (rest : List UInt8) :
    copyBytes n (v.toList ++ rest) = v := by
  apply Vector.toList_inj.mp
  rw [toList_copyBytes, List.take_left' v.length_toList, List.length_append,
    Vector.length_toList, Nat.sub_eq_zero_of_le (Nat.le_add_right _ _), List.replicate_zero,
    List.append_nil]

/-- The first `c` pieces of `size` bytes of `bytes`, each copied into a zeroed array, hold the
first `c * size` bytes and then zeros. -/
theorem flatMap_copyBytes_chunks (size : ℕ) (bytes : List UInt8) (c : ℕ) :
    (List.range c).flatMap (fun k => (copyBytes size ((bytes.drop (k * size)).take size)).toList) =
      bytes.take (c * size) ++ List.replicate (c * size - bytes.length) 0 := by
  induction c with
  | zero => simp
  | succ c ih =>
    rw [List.range_succ, List.flatMap_append, ih, List.flatMap_singleton, toList_copyBytes,
      List.take_take, min_self, List.length_take, List.length_drop, Nat.succ_mul]
    by_cases within : c * size ≤ bytes.length
    · -- the piece starts inside the bytes
      rw [Nat.sub_eq_zero_of_le within, List.replicate_zero, List.append_nil, ← List.append_assoc,
        ← List.take_add]
      congr 2
      omega
    · -- past the end every piece is zeros
      have ended : bytes.length - c * size = 0 := by omega
      rw [List.drop_eq_nil_of_le (by omega), List.take_nil, List.nil_append, ended, min_zero,
        Nat.sub_zero, List.take_of_length_le (by omega), List.take_of_length_le (by omega),
        List.append_assoc, List.replicate_append_replicate]
      congr 2
      omega

end Bytes
