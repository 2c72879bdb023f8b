import Sia.Lib.Bits
import Sia.Lib.Radix
import Sia.Lib.Bytes
import Sia.Modules.Packing
import Mathlib.Tactic.IntervalCases
import Mathlib.Data.List.TakeWhile

/-! `modules/skylink.go`: a skylink is a 16-bit bitfield and a Merkle root. The v1 bitfield
packs, from the low end, two version bits, up to seven mode bits closed by a zero, three fetch
size bits and the offset; the mode sets the offset alignment and the fetch size step. Strings
are lists of characters whose length is their UTF-8 byte count; the merkle root is
`crypto.Hash`. -/
namespace Sia.Modules

open Bytes

/-- `SkylinkMaxFetchSize`. -/
def skylinkMaxFetchSize : ℕ := 1 <<< 22

def base32EncodedSkylinkSize : ℕ := 55

def base64EncodedSkylinkSize : ℕ := 46

def rawSkylinkSize : ℕ := 34

inductive SkylinkError where
  | message (text : String)
  /-- `ErrSkylinkIncorrectSize`, "skylink has incorrect size". -/
  | incorrectSize
  | corruptInput (err : Radix.CorruptInputError)
  | withContext (err : SkylinkError) (context : String)
  deriving DecidableEq, Repr

structure Skylink where
  bitfield : UInt16
  merkleRoot : Vector UInt8 32
  deriving DecidableEq, Repr

def isSkylinkV1 (bitfield : UInt16) : Bool := bitfield &&& 3 == 0

/-- `validateAndParseV1Bitfield`: the offset, the fetch size and the error; a bitfield that fails
a check parses as the whole sector. -/
def validateAndParseV1Bitfield (bitfield : UInt16) : ℕ × ℕ × Option SkylinkError :=
  if !isSkylinkV1 bitfield then
    (0, skylinkMaxFetchSize, some (.message "bitfield is not set to v1"))
  else
    let bitfield := bitfield >>> 2
    if bitfield &&& 255 == 255 then
      (0, skylinkMaxFetchSize,
        some (.message "skylink is not valid, offset and fetch size are illegal"))
    else
      let modeBits : UInt16 := UInt16.ofNat (Bits.trailingZeros 16 (~~~bitfield).toNat)
      if modeBits > 7 then
        (0, skylinkMaxFetchSize, some (.message "bitfield has invalid mode bits"))
      else
        let bitfield := bitfield >>> (modeBits + 1)
        let offsetAlign : ℕ := 4096 <<< modeBits.toNat
        let fetchSizeAlign : ℕ := if modeBits > 0 then 4096 <<< (modeBits - 1).toNat else 4096
        let fetchSize := (bitfield &&& 7).toNat
        let fetchSize := fetchSize + 1
        let fetchSize := fetchSize * fetchSizeAlign
        let fetchSize := if modeBits > 0 then fetchSize + (fetchSizeAlign <<< 3) else fetchSize
        let bitfield := bitfield >>> 3
        let offset := bitfield.toNat * offsetAlign
        if offset + fetchSize > skylinkMaxFetchSize then
          (0, skylinkMaxFetchSize,
            some (.message "invalid bitfield, fetching beyond the limits of the sector"))
        else (offset, fetchSize, none)

/-- The loop of `setOffsetAndFetchSize` that halves the offset alignment with the fetch size. -/
def alignLoop (fetchSize minFetchSize offsetAlign : ℕ) : ℕ × ℕ :=
  if fetchSize ≤ minFetchSize ∧ offsetAlign > 1 <<< 12 then
    alignLoop fetchSize (minFetchSize >>> 1) (offsetAlign >>> 1)
  else (minFetchSize, offsetAlign)
termination_by offsetAlign
decreasing_by
  rw [Nat.shiftRight_eq_div_pow]
  omega

/-- The loop of `setOffsetAndFetchSize` that shifts in one mode bit per doubling of the base
alignment up to the offset alignment. -/
def modeBitsLoop (offsetAlign baseAlign : ℕ) (pos : 0 < baseAlign) (bitfield : UInt16) :
    UInt16 :=
  if baseAlign < offsetAlign then
    modeBitsLoop offsetAlign (baseAlign <<< 1) (by rw [Nat.shiftLeft_eq]; omega)
      ((bitfield <<< 1) + 1)
  else bitfield
termination_by offsetAlign - baseAlign
decreasing_by
  rw [Nat.shiftLeft_eq]
  omega

/-- `setOffsetAndFetchSize`: the v1 bitfield of an offset and a fetch size. -/
def setOffsetAndFetchSize (offset fetchSize : ℕ) : Except SkylinkError UInt16 :=
  if (offset + fetchSize) % 2 ^ 64 > skylinkMaxFetchSize then
    .error (.message "offset plus fetch size cannot exceed the size of one sector - 4 MiB")
  else
    let offsetAlign := (alignLoop fetchSize (1 <<< 21) (1 <<< 19)).2
    if offset &&& (offsetAlign - 1) ≠ 0 then .error (.message "offset is not aligned correctly")
    else
      let bitwiseOffset := UInt16.ofNat (offset / offsetAlign)
      let fetchSizeAlign := if offsetAlign > 1 <<< 13 then offsetAlign >>> 1 else 1 <<< 12
      let fetchSize :=
        if offsetAlign > 1 <<< 12 then sub64 fetchSize (fetchSizeAlign * 8) else fetchSize
      let fetchSize :=
        if fetchSize ≠ 0 ∧ fetchSize = fetchSize / fetchSizeAlign * fetchSizeAlign then
          fetchSize - 1
        else fetchSize
      -- `fetchSize & ^(fetchSizeAlign - 1)` on a uint64
      let fetchSize := fetchSize &&& (2 ^ 64 - 1 - (fetchSizeAlign - 1))
      let bitwiseFetchSize := UInt16.ofNat (fetchSize / fetchSizeAlign)
      let bitfield := bitwiseOffset
      let bitfield := bitfield <<< 3
      let bitfield := bitfield + bitwiseFetchSize
      let bitfield := bitfield <<< 1
      let bitfield := modeBitsLoop offsetAlign (1 <<< 12) (by decide) bitfield
      .ok (bitfield <<< 2)

/-- The offset alignment `setOffsetAndFetchSize` derives for a fetch size. -/
def offsetAlignment (fetchSize : ℕ) : ℕ := (alignLoop fetchSize (1 <<< 21) (1 <<< 19)).2

def newSkylinkV1 (merkleRoot : Vector UInt8 32) (offset length : ℕ) : Except SkylinkError Skylink :=
  match setOffsetAndFetchSize offset length with
  | .ok bitfield => .ok ⟨bitfield, merkleRoot⟩
  | .error err => .error (.withContext err "Invalid Skylink")

/-- The length of a string in bytes, as Go's `len` counts it. -/
def utf8Length (s : List Char) : ℕ := (s.map Char.utf8Size).sum

/-- `decodeSkylink`. `strings.ToUpper` is taken on ASCII letters. -/
def decodeSkylink (encoded : List Char) : Except SkylinkError (List UInt8) :=
  if utf8Length encoded = base32EncodedSkylinkSize then
    (Radix.base32Hex.decode (encoded.map Char.toUpper)).mapError .corruptInput
  else if utf8Length encoded = base64EncodedSkylinkSize then
    (Radix.base64URL.decode encoded).mapError .corruptInput
  else .error .incorrectSize

/-! The v1 layout the two functions above read and write, in numbers. -/

/-- The v1 bitfield of a mode, fetch size bits `k` and offset bits `o`: from the low end two zero
version bits, `mode` one bits and a zero, then the three bits of `k`, then `o`. -/
def layout (mode k o : ℕ) : ℕ := ((8 * o + k) * 2 ^ (mode + 1) + (2 ^ mode - 1)) * 4

def offsetAlignOf (mode : ℕ) : ℕ := 4096 * 2 ^ mode

def fetchSizeAlignOf (mode : ℕ) : ℕ := if mode = 0 then 4096 else 2048 * 2 ^ mode

/-- The fetch sizes every mode but the first starts above: eight of its steps. -/
def fetchSizeBase (mode : ℕ) : ℕ := if mode = 0 then 0 else 8 * fetchSizeAlignOf mode

/-- The fetch size of fetch size bits `k`: `k + 1` steps above the base. -/
def fetchSizeOf (mode k : ℕ) : ℕ := (k + 1) * fetchSizeAlignOf mode + fetchSizeBase mode

/-- The fetch size bits `setOffsetAndFetchSize` writes: the steps above the base that hold the
fetch size, less one. -/
def fetchBitsOf (mode fetchSize : ℕ) : ℕ :=
  (fetchSize - fetchSizeBase mode - 1) / fetchSizeAlignOf mode

theorem uint16_eq_ofNat {x : UInt16} {n : ℕ} (value : x.toNat = n) : x = UInt16.ofNat n := by
  apply UInt16.toNat_inj.mp
  rw [UInt16.toNat_ofNat', ← value, Nat.mod_eq_of_lt x.toNat_lt]

theorem toNat_ofNat_of_lt {n : ℕ} (small : n < 2 ^ 16) : (UInt16.ofNat n).toNat = n := by
  rw [UInt16.toNat_ofNat', Nat.mod_eq_of_lt small]

/-- A mask of the low `n` bits keeps the value modulo `2 ^ n`. -/
theorem toNat_and_low (x : UInt16) (n : ℕ) (narrow : n ≤ 16) :
    (x &&& UInt16.ofNat (2 ^ n - 1)).toNat = x.toNat % 2 ^ n := by
  have mask : 2 ^ n - 1 < 2 ^ 16 :=
    Nat.lt_of_lt_of_le (Nat.sub_lt (Nat.two_pow_pos n) Nat.one_pos)
      (Nat.pow_le_pow_right (by decide) narrow)
  rw [UInt16.toNat_and, toNat_ofNat_of_lt mask, Nat.and_two_pow_sub_one_eq_mod]

theorem toNat_shiftRight (x : UInt16) (n : ℕ) (narrow : n < 16) :
    (x >>> UInt16.ofNat n).toNat = x.toNat / 2 ^ n := by
  rw [UInt16.toNat_shiftRight, toNat_ofNat_of_lt (by omega), Nat.mod_eq_of_lt narrow,
    Nat.shiftRight_eq_div_pow]

/-- The bits of a layout above the version bits. -/
theorem layout_div_four (mode k o : ℕ) :
    layout mode k o / 4 = (8 * o + k) * 2 ^ (mode + 1) + (2 ^ mode - 1) := by
  simp [layout]

/-- Above the version bits, `mode` ones closed by a zero: the complement has `mode` trailing
zeros. -/
theorem complement_layout_mod {mode k o : ℕ} (mode7 : mode ≤ 7) (fits : layout mode k o < 2 ^ 16) :
    (2 ^ 16 - 1 - layout mode k o / 4) % 2 ^ (mode + 1) = 2 ^ mode := by
  rw [layout_div_four]
  unfold layout at fits
  interval_cases mode <;> omega

theorem layout_mod_256 {mode k o : ℕ} (mode7 : mode ≤ 7) :
    (layout mode k o / 4) % 256 ≠ 255 := by
  rw [layout_div_four]
  interval_cases mode <;> omega

theorem layout_shift_mode (mode k o : ℕ) :
    layout mode k o / 4 / 2 ^ (mode + 1) = 8 * o + k := by
  have low : 2 ^ mode - 1 < 2 ^ (mode + 1) := by
    rw [Nat.pow_succ]
    have := Nat.one_le_two_pow (n := mode)
    omega
  rw [layout_div_four, Nat.mul_comm, Nat.mul_add_div (Nat.two_pow_pos _), Nat.div_eq_of_lt low,
    Nat.add_zero]

/-- Parsing a layout: its offset and fetch size, or the whole sector when they run past it. -/
theorem validate_layout {mode k o : ℕ} (mode7 : mode ≤ 7) (k8 : k < 8)
    (fits : layout mode k o < 2 ^ 16) :
    validateAndParseV1Bitfield (UInt16.ofNat (layout mode k o)) =
      if o * offsetAlignOf mode + fetchSizeOf mode k > skylinkMaxFetchSize then
        (0, skylinkMaxFetchSize,
          some (.message "invalid bitfield, fetching beyond the limits of the sector"))
      else (o * offsetAlignOf mode, fetchSizeOf mode k, none) := by
  have whole : (UInt16.ofNat (layout mode k o)).toNat = layout mode k o := toNat_ofNat_of_lt fits
  have quarter : layout mode k o / 4 < 2 ^ 16 := by omega
  have v1 : isSkylinkV1 (UInt16.ofNat (layout mode k o)) = true := by
    have low : layout mode k o % 2 ^ 2 = 0 := by simp [layout]
    have masked := toNat_and_low (UInt16.ofNat (layout mode k o)) 2 (by decide)
    rw [whole, low] at masked
    simpa [isSkylinkV1, ← UInt16.toNat_inj] using masked
  have shifted : UInt16.ofNat (layout mode k o) >>> 2 = UInt16.ofNat (layout mode k o / 4) := by
    apply uint16_eq_ofNat
    rw [show (2 : UInt16) = UInt16.ofNat 2 from rfl, toNat_shiftRight _ 2 (by decide), whole]
    rfl
  have notAll : (UInt16.ofNat (layout mode k o / 4) &&& 255 == 255) = false := by
    have masked := toNat_and_low (UInt16.ofNat (layout mode k o / 4)) 8 (by decide)
    rw [toNat_ofNat_of_lt quarter] at masked
    have := layout_mod_256 (k := k) (o := o) mode7
    simp only [beq_eq_false_iff_ne, ne_eq, ← UInt16.toNat_inj]
    rw [show (255 : UInt16) = UInt16.ofNat (2 ^ 8 - 1) from rfl, masked]
    simpa using this
  -- the mode bits, and the fetch size and offset bits above them
  have modeValue : (UInt16.ofNat mode).toNat = mode := toNat_ofNat_of_lt (by omega)
  have complement : (~~~(UInt16.ofNat (layout mode k o / 4))).toNat =
      2 ^ 16 - 1 - layout mode k o / 4 := by
    rw [UInt16.toNat_not, toNat_ofNat_of_lt quarter]
    rfl
  have modeBits : UInt16.ofNat (Bits.trailingZeros 16 (~~~(UInt16.ofNat (layout mode k o / 4))).toNat) =
      UInt16.ofNat mode := by
    rw [complement, Bits.trailingZeros_eq (by omega) (complement_layout_mod mode7 fits)]
  have modeValid : ¬ UInt16.ofNat mode > 7 := by
    rw [GT.gt, UInt16.lt_iff_toNat_lt, modeValue]
    simpa using mode7
  have rest : UInt16.ofNat (layout mode k o / 4) >>> (UInt16.ofNat mode + 1) =
      UInt16.ofNat (8 * o + k) := by
    apply uint16_eq_ofNat
    rw [show UInt16.ofNat mode + 1 = UInt16.ofNat (mode + 1) from (UInt16.ofNat_add mode 1).symm,
      toNat_shiftRight _ _ (by omega), toNat_ofNat_of_lt quarter, layout_shift_mode]
  have small : 8 * o + k < 2 ^ 16 := by
    have := layout_shift_mode mode k o
    have := Nat.div_le_self (layout mode k o / 4) (2 ^ (mode + 1))
    omega
  have fetchBits : (UInt16.ofNat (8 * o + k) &&& 7).toNat = k := by
    rw [show (7 : UInt16) = UInt16.ofNat (2 ^ 3 - 1) from rfl, toNat_and_low _ 3 (by decide),
      toNat_ofNat_of_lt small]
    omega
  have offsetBits : (UInt16.ofNat (8 * o + k) >>> 3).toNat = o := by
    rw [show (3 : UInt16) = UInt16.ofNat 3 from rfl, toNat_shiftRight _ 3 (by decide),
      toNat_ofNat_of_lt small]
    omega
  have offsetAlign : 4096 <<< mode = offsetAlignOf mode := by
    rw [Nat.shiftLeft_eq, offsetAlignOf]
  simp only [validateAndParseV1Bitfield, v1, shifted, notAll, modeBits, modeValid, rest,
    fetchBits, offsetBits, modeValue, offsetAlign, Bool.not_true, Bool.false_eq_true, if_false]
  -- the fetch size step: 4 KiB in the first mode, half the offset alignment in the others
  rcases Nat.eq_zero_or_pos mode with first | later
  · subst first
    simp [fetchSizeOf, fetchSizeAlignOf, fetchSizeBase]
  · have positive : UInt16.ofNat mode > 0 := by
      rw [GT.gt, UInt16.lt_iff_toNat_lt, modeValue]
      exact later
    have pred : (UInt16.ofNat mode - 1).toNat = mode - 1 := by
      rw [UInt16.toNat_sub_of_le _ _ (by rw [UInt16.le_iff_toNat_le, modeValue]; exact later),
        modeValue]
      rfl
    have step : 4096 <<< (mode - 1) = fetchSizeAlignOf mode := by
      rw [Nat.shiftLeft_eq, fetchSizeAlignOf, if_neg (Nat.ne_of_gt later)]
      obtain ⟨m, rfl⟩ := Nat.exists_eq_add_of_lt later
      simp only [Nat.zero_add, Nat.add_sub_cancel, Nat.pow_succ]
      omega
    simp only [positive, pred, step, if_true, fetchSizeOf, fetchSizeBase,
      if_neg (Nat.ne_of_gt later), Nat.shiftLeft_eq]
    simp only [Nat.reducePow, Nat.mul_comm _ 8]

theorem mode_low_bits {y mode : ℕ} (mode7 : mode ≤ 7) (small : y < 2 ^ 14)
    (complement : (2 ^ 16 - 1 - y) % 2 ^ (mode + 1) = 2 ^ mode) :
    y = y / 2 ^ (mode + 1) * 2 ^ (mode + 1) + (2 ^ mode - 1) := by
  interval_cases mode <;> omega

/-- A bitfield with the v1 version bits and at most seven mode bits is a layout. -/
theorem layout_of_checks {bitfield : UInt16} (v1 : ¬(!isSkylinkV1 bitfield) = true)
    (modeValid : ¬UInt16.ofNat (Bits.trailingZeros 16 (~~~(bitfield >>> 2)).toNat) > 7) :
    ∃ mode k o, mode ≤ 7 ∧ k < 8 ∧ layout mode k o < 2 ^ 16 ∧
      bitfield = UInt16.ofNat (layout mode k o) := by
  have low : bitfield.toNat % 2 ^ 2 = 0 := by
    have masked := toNat_and_low bitfield 2 (by decide)
    simp only [isSkylinkV1, Bool.not_eq_true', Bool.not_eq_false, beq_iff_eq] at v1
    rw [← masked, show UInt16.ofNat (2 ^ 2 - 1) = 3 from rfl, v1]
    rfl
  have bound := bitfield.toNat_lt
  have complement : (~~~(bitfield >>> 2)).toNat = 2 ^ 16 - 1 - bitfield.toNat / 4 := by
    rw [UInt16.toNat_not, show (2 : UInt16) = UInt16.ofNat 2 from rfl,
      toNat_shiftRight _ 2 (by decide)]
    rfl
  rw [complement] at modeValid
  have modeLe := Bits.trailingZeros_le 16 (2 ^ 16 - 1 - bitfield.toNat / 4)
  -- the mode is the number of trailing ones above the version bits
  obtain ⟨mode, count⟩ : ∃ mode, Bits.trailingZeros 16 (2 ^ 16 - 1 - bitfield.toNat / 4) = mode :=
    ⟨_, rfl⟩
  rw [count] at modeValid modeLe
  have mode7 : mode ≤ 7 := by
    rw [GT.gt, UInt16.lt_iff_toNat_lt, toNat_ofNat_of_lt (by omega)] at modeValid
    simpa using modeValid
  have ones := mode_low_bits mode7 (by omega)
    (Bits.mod_two_pow_succ_of_trailingZeros (by omega) count)
  have value : layout mode (bitfield.toNat / 4 / 2 ^ (mode + 1) % 8)
      (bitfield.toNat / 4 / 2 ^ (mode + 1) / 8) = bitfield.toNat := by
    rw [layout, Nat.div_add_mod, ← ones]
    omega
  refine ⟨mode, _, _, mode7, Nat.mod_lt _ (by decide), ?_, uint16_eq_ofNat value.symm⟩
  rw [value]
  exact bound

/-- Every bitfield `validateAndParseV1Bitfield` accepts is a layout. -/
theorem layout_of_valid {bitfield : UInt16}
    (accepted : (validateAndParseV1Bitfield bitfield).2.2 = none) :
    ∃ mode k o, mode ≤ 7 ∧ k < 8 ∧ layout mode k o < 2 ^ 16 ∧
      bitfield = UInt16.ofNat (layout mode k o) := by
  unfold validateAndParseV1Bitfield at accepted
  dsimp only at accepted
  -- every rejection carries an error; both accepting branches passed the two checks
  split_ifs at accepted with notV1 full modeValid beyond <;> cases accepted
  all_goals exact layout_of_checks notV1 modeValid

theorem two_pow_shiftRight_one (n : ℕ) : 2 ^ (n + 1) >>> 1 = 2 ^ n := by
  rw [Nat.shiftRight_eq_div_pow, Nat.pow_succ, Nat.pow_one, Nat.mul_div_cancel _ (by decide)]

/-- The alignment loop, started `j` halvings above the smallest alignment, stops at the mode whose
fetch sizes reach `fetchSize`: the first mode, or one whose smaller fetch sizes all fall short. -/
theorem alignLoop_mode (fetchSize : ℕ) : ∀ j ≤ 7, ∃ mode ≤ j,
    (alignLoop fetchSize (2 ^ (14 + j)) (2 ^ (12 + j))).2 = 2 ^ (12 + mode) ∧
      (mode = 0 ∨ 2 ^ (14 + mode) < fetchSize) ∧ (mode = j ∨ fetchSize ≤ 2 ^ (15 + mode)) := by
  intro j
  induction j with
  | zero =>
    intro _
    refine ⟨0, Nat.le_refl 0, ?_, .inl rfl, .inl rfl⟩
    rw [alignLoop, if_neg fun both => absurd both.2 (by decide)]
  | succ j ih =>
    intro below
    rw [alignLoop]
    by_cases fits : fetchSize ≤ 2 ^ (14 + (j + 1))
    · -- one more halving, then the loop from `j`
      have larger : 2 ^ (12 + (j + 1)) > 1 <<< 12 := by
        rw [Nat.shiftLeft_eq, Nat.one_mul]
        exact Nat.pow_lt_pow_right (by decide) (by omega)
      rw [if_pos ⟨fits, larger⟩, ← Nat.add_assoc, ← Nat.add_assoc, two_pow_shiftRight_one,
        two_pow_shiftRight_one]
      obtain ⟨mode, le, stop, low, high⟩ := ih (by omega)
      refine ⟨mode, by omega, stop, low, .inr ?_⟩
      rcases high with same | high
      · subst same
        rwa [show 14 + (mode + 1) = 15 + mode by omega] at fits
      · exact high
    · rw [if_neg fun both => fits both.1]
      exact ⟨j + 1, Nat.le_refl _, rfl, .inr (Nat.lt_of_not_le fits), .inl rfl⟩

/-- The offset alignment `setOffsetAndFetchSize` derives, and the mode it belongs to. -/
theorem offsetAlignment_mode (fetchSize : ℕ) : ∃ mode ≤ 7,
    offsetAlignment fetchSize = 2 ^ (12 + mode) ∧
      (mode = 0 ∨ 2 ^ (14 + mode) < fetchSize) ∧ (mode = 7 ∨ fetchSize ≤ 2 ^ (15 + mode)) :=
  alignLoop_mode fetchSize 7 (Nat.le_refl 7)

/-- The mode bit loop shifts in one one bit per doubling from the base alignment up to the
offset alignment. -/
theorem modeBitsLoop_toNat (mode : ℕ) : ∀ (baseAlign : ℕ) (pos : 0 < baseAlign) (bitfield : UInt16),
    (bitfield.toNat + 1) * 2 ^ mode ≤ 2 ^ 16 →
      (modeBitsLoop (baseAlign * 2 ^ mode) baseAlign pos bitfield).toNat =
        (bitfield.toNat + 1) * 2 ^ mode - 1 := by
  induction mode with
  | zero =>
    intro baseAlign pos bitfield _
    rw [modeBitsLoop, if_neg (by simp)]
    simp
  | succ mode ih =>
    intro baseAlign pos bitfield fits
    have doubled : (bitfield <<< 1 + 1).toNat = 2 * bitfield.toNat + 1 := by
      have : 2 * bitfield.toNat + 1 < 2 ^ 16 := by
        rw [Nat.pow_succ] at fits
        have := Nat.one_le_two_pow (n := mode)
        nlinarith
      simp only [UInt16.toNat_add, UInt16.toNat_shiftLeft, UInt16.toNat_one, Nat.shiftLeft_eq,
        Nat.reduceMod, Nat.pow_one]
      omega
    have grows : baseAlign < baseAlign * 2 ^ (mode + 1) := by
      have := Nat.mul_lt_mul_of_pos_left (Nat.one_lt_two_pow (Nat.succ_ne_zero mode)) pos
      rwa [Nat.mul_one] at this
    rw [modeBitsLoop, if_pos grows]
    rw [show baseAlign * 2 ^ (mode + 1) = (baseAlign <<< 1) * 2 ^ mode by
      rw [Nat.shiftLeft_eq, Nat.pow_succ]; ring, ih _ _ _ (by rw [doubled, Nat.pow_succ] at *; nlinarith),
      doubled, Nat.pow_succ]
    congr 1
    ring

theorem layout_add_four (mode k o : ℕ) :
    layout mode k o + 4 = ((8 * o + k) * 2 + 1) * 2 ^ mode * 4 := by
  obtain ⟨q, power⟩ : ∃ q, 2 ^ mode = q + 1 := ⟨2 ^ mode - 1, by have := Nat.one_le_two_pow (n := mode); omega⟩
  rw [layout, Nat.pow_succ, power, Nat.add_sub_cancel]
  ring

/-- The shifts that end `setOffsetAndFetchSize` write the layout of the mode, the fetch size bits
and the offset bits. -/
theorem build_layout {mode k o : ℕ} (fits : layout mode k o < 2 ^ 16) :
    modeBitsLoop (2 ^ (12 + mode)) (1 <<< 12) (by decide)
        ((UInt16.ofNat o <<< 3 + UInt16.ofNat k) <<< 1) <<< 2 =
      UInt16.ofNat (layout mode k o) := by
  have widened := layout_add_four mode k o
  have atLeast : (8 * o + k) * 2 + 1 ≤ ((8 * o + k) * 2 + 1) * 2 ^ mode :=
    Nat.le_mul_of_pos_right _ (Nat.two_pow_pos mode)
  have inner : ((UInt16.ofNat o <<< 3 + UInt16.ofNat k) <<< 1).toNat = (8 * o + k) * 2 := by
    simp only [UInt16.toNat_shiftLeft, UInt16.toNat_add, UInt16.toNat_ofNat', Nat.shiftLeft_eq,
      UInt16.reduceToNat, Nat.reducePow, Nat.reduceMod]
    omega
  have split : 2 ^ (12 + mode) = (1 <<< 12) * 2 ^ mode := by
    rw [Nat.shiftLeft_eq, Nat.one_mul, Nat.pow_add]
  apply uint16_eq_ofNat
  rw [split, UInt16.toNat_shiftLeft, modeBitsLoop_toNat _ _ _ _ (by rw [inner]; omega), inner]
  simp only [Nat.shiftLeft_eq, UInt16.reduceToNat, Nat.reduceMod, Nat.reducePow]
  omega

theorem layout_lt {mode k o : ℕ} (mode7 : mode ≤ 7) (k8 : k < 8)
    (inside : o * 2 ^ (12 + mode) < 2 ^ 22) : layout mode k o < 2 ^ 16 := by
  unfold layout
  interval_cases mode <;> omega

/-- Rounding a fetch size down to its step after taking one off an exact multiple: the steps
that hold it, less one. -/
theorem roundDown_steps {x step s : ℕ} (power : step = 2 ^ s) (s64 : s ≤ 64) (small : x < 2 ^ 64)
    (nonzero : x ≠ 0) :
    ((if x ≠ 0 ∧ x = x / step * step then x - 1 else x) &&& (2 ^ 64 - 1 - (step - 1))) / step =
      (x - 1) / step := by
  have pos : 0 < step := power ▸ Nat.two_pow_pos s
  have rounded : ∀ y < 2 ^ 64, (y &&& (2 ^ 64 - 1 - (step - 1))) / step = y / step := by
    intro y below
    rw [power, Bits.and_complement_low below s64, Nat.mul_div_cancel _ (Nat.two_pow_pos s)]
  rw [rounded _ (by split <;> omega)]
  split
  · rfl
  · next notExact =>
    -- not a multiple: taking one off stays within the same step
    have whole := Nat.div_add_mod' x step
    have rest := Nat.mod_lt x pos
    have remainder : x % step ≠ 0 := fun zero => notExact ⟨nonzero, by omega⟩
    symm
    apply Nat.div_eq_of_lt_le
    · omega
    · rw [Nat.succ_mul]
      omega

theorem fetchSizeAlignOf_eq_pow (mode : ℕ) : fetchSizeAlignOf mode = 2 ^ (11 + max mode 1) := by
  rcases Nat.eq_zero_or_pos mode with first | later
  · subst first
    rfl
  · rw [fetchSizeAlignOf, if_neg (Nat.ne_of_gt later), Nat.max_eq_left later, Nat.pow_add]

/-- In the mode the alignment loop picks, the fetch size bits are three bits and their fetch
size is the first step at or above the fetch size. -/
theorem fetchBitsOf_spec {mode fetchSize : ℕ} (mode7 : mode ≤ 7) (pos : 1 ≤ fetchSize)
    (sector : fetchSize ≤ 2 ^ 22) (above : mode = 0 ∨ 2 ^ (14 + mode) < fetchSize)
    (below : mode = 7 ∨ fetchSize ≤ 2 ^ (15 + mode)) :
    fetchBitsOf mode fetchSize < 8 ∧ fetchSize ≤ fetchSizeOf mode (fetchBitsOf mode fetchSize) ∧
      fetchSizeOf mode (fetchBitsOf mode fetchSize) < fetchSize + fetchSizeAlignOf mode := by
  unfold fetchBitsOf fetchSizeOf fetchSizeBase fetchSizeAlignOf
  interval_cases mode <;> simp at above below ⊢ <;> omega

/-- `setOffsetAndFetchSize` on a fetch size of a mode and an offset aligned for it writes their
layout. -/
theorem setOffsetAndFetchSize_layout {offset fetchSize mode : ℕ} (mode7 : mode ≤ 7)
    (derived : offsetAlignment fetchSize = 2 ^ (12 + mode))
    (above : mode = 0 ∨ 2 ^ (14 + mode) < fetchSize)
    (below : mode = 7 ∨ fetchSize ≤ 2 ^ (15 + mode)) (pos : 1 ≤ fetchSize)
    (within : offset + fetchSize ≤ skylinkMaxFetchSize) (aligned : 2 ^ (12 + mode) ∣ offset) :
    setOffsetAndFetchSize offset fetchSize =
      .ok (UInt16.ofNat (layout mode (fetchBitsOf mode fetchSize) (offset / 2 ^ (12 + mode)))) := by
  have sector : skylinkMaxFetchSize = 2 ^ 22 := rfl
  have derived' : (alignLoop fetchSize (1 <<< 21) (1 <<< 19)).2 = 2 ^ (12 + mode) := derived
  have noWrap : ¬(offset + fetchSize) % 2 ^ 64 > skylinkMaxFetchSize := by
    rw [Nat.mod_eq_of_lt (by omega)]
    omega
  have alignedBits : ¬offset &&& (2 ^ (12 + mode) - 1) ≠ 0 := by
    rw [Nat.and_two_pow_sub_one_eq_mod, Nat.mod_eq_zero_of_dvd aligned]
    exact not_not.mpr rfl
  -- the fetch size step, and the fetch size above the base of the mode
  have step : (if 2 ^ (12 + mode) > 1 <<< 13 then 2 ^ (12 + mode) >>> 1 else 1 <<< 12) =
      fetchSizeAlignOf mode := by
    interval_cases mode <;> rfl
  have base : (if 2 ^ (12 + mode) > 1 <<< 12 then sub64 fetchSize (fetchSizeAlignOf mode * 8)
      else fetchSize) = fetchSize - fetchSizeBase mode := by
    unfold fetchSizeBase fetchSizeAlignOf
    interval_cases mode <;> simp at above ⊢ <;> rw [sub64_of_le (by omega) (by omega)]
  obtain ⟨bits8, -, -⟩ := fetchBitsOf_spec mode7 pos (by omega) above below
  have rounded := roundDown_steps (x := fetchSize - fetchSizeBase mode)
    (fetchSizeAlignOf_eq_pow mode) (by omega) (by omega) (by
      unfold fetchSizeBase fetchSizeAlignOf
      interval_cases mode <;> simp at above ⊢ <;> omega)
  have fits : layout mode (fetchBitsOf mode fetchSize) (offset / 2 ^ (12 + mode)) < 2 ^ 16 :=
    layout_lt mode7 bits8 (Nat.lt_of_le_of_lt (Nat.div_mul_le_self _ _) (by omega))
  simp only [setOffsetAndFetchSize, derived', noWrap, alignedBits, step, base, if_false]
  rw [rounded, ← fetchBitsOf, build_layout fits]

/-- The table of v1 fetch sizes in the comment on `OffsetAndFetchSize`, in KiB. -/
def fetchSizeTableKiB : List ℕ :=
  [4, 8, 12, 16, 20, 24, 28, 32,
    36, 40, 44, 48, 52, 56, 60, 64,
    72, 80, 88, 96, 104, 112, 120, 128,
    144, 160, 176, 192, 208, 224, 240, 256,
    288, 320, 352, 384, 416, 448, 480, 512,
    576, 640, 704, 768, 832, 896, 960, 1024,
    1152, 1280, 1408, 1536, 1664, 1792, 1920, 2048,
    2304, 2560, 2816, 3072, 3328, 3584, 3840, 4096]

def fetchSizeTable : List ℕ := fetchSizeTableKiB.map (· * 1024)

/-- The table is the fetch sizes of the eight modes, eight to a mode. -/
theorem fetchSizeTable_eq :
    fetchSizeTable = (List.range 8).flatMap fun mode => (List.range 8).map (fetchSizeOf mode) := by
  decide

theorem fetchSizeOf_range {mode k : ℕ} (mode7 : mode ≤ 7) (k8 : k < 8) :
    (mode = 0 ∨ 2 ^ (14 + mode) < fetchSizeOf mode k) ∧ fetchSizeOf mode k ≤ 2 ^ (15 + mode) := by
  unfold fetchSizeOf fetchSizeBase fetchSizeAlignOf
  interval_cases mode <;> simp <;> omega

/-- A fetch size lies in the range of one mode only. -/
theorem mode_unique {fetchSize m n : ℕ} (m7 : m ≤ 7) (n7 : n ≤ 7)
    (aboveM : m = 0 ∨ 2 ^ (14 + m) < fetchSize) (belowM : m = 7 ∨ fetchSize ≤ 2 ^ (15 + m))
    (aboveN : n = 0 ∨ 2 ^ (14 + n) < fetchSize) (belowN : n = 7 ∨ fetchSize ≤ 2 ^ (15 + n)) :
    m = n := by
  have apart : ∀ {i j : ℕ}, i < j → j ≤ 7 → (i = 7 ∨ fetchSize ≤ 2 ^ (15 + i)) →
      (j = 0 ∨ 2 ^ (14 + j) < fetchSize) → False := by
    intro i j lt le below above
    have ranges : 2 ^ (15 + i) ≤ 2 ^ (14 + j) := Nat.pow_le_pow_right (by decide) (by omega)
    omega
  rcases Nat.lt_trichotomy m n with lt | same | gt
  · exact (apart lt n7 belowM aboveN).elim
  · exact same
  · exact (apart gt m7 belowN aboveM).elim

theorem fetchSizeOf_mem_table {mode k : ℕ} (mode7 : mode ≤ 7) (k8 : k < 8) :
    fetchSizeOf mode k ∈ fetchSizeTable := by
  rw [fetchSizeTable_eq, List.mem_flatMap]
  exact ⟨mode, List.mem_range.mpr (by omega), List.mem_map.mpr ⟨k, List.mem_range.mpr k8, rfl⟩⟩

/-- The fetch size of the mode the loop picks, at the first step at or above the fetch size, is
the least entry of the table at or above it. -/
theorem fetchSizeOf_least {mode k fetchSize : ℕ} (mode7 : mode ≤ 7) (k8 : k < 8)
    (above : mode = 0 ∨ 2 ^ (14 + mode) < fetchSize) (reaches : fetchSize ≤ fetchSizeOf mode k)
    (first : fetchSizeOf mode k < fetchSize + fetchSizeAlignOf mode) :
    ∀ e ∈ fetchSizeTable, fetchSize ≤ e → fetchSizeOf mode k ≤ e := by
  intro e mem le
  rw [fetchSizeTable_eq, List.mem_flatMap] at mem
  obtain ⟨other, otherMem, entry⟩ := mem
  obtain ⟨j, jMem, rfl⟩ := List.mem_map.mp entry
  have other7 : other ≤ 7 := Nat.le_of_lt_succ (List.mem_range.mp otherMem)
  have j8 := List.mem_range.mp jMem
  obtain ⟨otherAbove, otherBelow⟩ := fetchSizeOf_range other7 j8
  obtain ⟨-, below⟩ := fetchSizeOf_range mode7 k8
  rcases Nat.lt_trichotomy other mode with lower | same | higher
  · -- a lower mode ends below the fetch size
    have ranges : 2 ^ (15 + other) ≤ 2 ^ (14 + mode) := Nat.pow_le_pow_right (by decide) (by omega)
    omega
  · -- in the same mode the steps are ordered by their bits
    subst same
    have step := Nat.two_pow_pos 12
    have positive : 0 < fetchSizeAlignOf other := by
      unfold fetchSizeAlignOf
      split <;> positivity
    unfold fetchSizeOf at first le ⊢
    by_contra smaller
    have fewer : j + 2 ≤ k + 1 := by
      by_contra more
      have := Nat.mul_le_mul_right (fetchSizeAlignOf other) (show k + 1 ≤ j + 1 by omega)
      omega
    have := Nat.mul_le_mul_right (fetchSizeAlignOf other) fewer
    rw [Nat.succ_mul (j + 1)] at this
    omega
  · -- a higher mode starts above it
    have ranges : 2 ^ (15 + mode) ≤ 2 ^ (14 + other) := Nat.pow_le_pow_right (by decide) (by omega)
    omega

/-- A multiple of a step that is less than a step past a bound that is a multiple of it stays
within the bound. -/
theorem le_of_dvd_of_lt_add {x bound step : ℕ} (stepX : step ∣ x) (stepBound : step ∣ bound)
    (close : x < bound + step) : x ≤ bound := by
  obtain ⟨u, rfl⟩ := stepX
  obtain ⟨v, rfl⟩ := stepBound
  have pos : 0 < step := Nat.pos_of_ne_zero fun zero => by simp [zero] at close
  rw [← Nat.mul_succ] at close
  exact Nat.mul_le_mul_left step (Nat.le_of_lt_succ (Nat.lt_of_mul_lt_mul_left close))

theorem fetchSizeAlignOf_dvd {mode n : ℕ} (far : 11 + max mode 1 ≤ n) :
    fetchSizeAlignOf mode ∣ 2 ^ n := by
  rw [fetchSizeAlignOf_eq_pow]
  exact Nat.pow_dvd_pow 2 far

theorem fetchSizeAlignOf_dvd_fetchSizeOf (mode k : ℕ) :
    fetchSizeAlignOf mode ∣ fetchSizeOf mode k := by
  unfold fetchSizeOf fetchSizeBase
  split
  · exact Nat.dvd_add (Nat.dvd_mul_left _ _) (Nat.dvd_zero _)
  · exact Nat.dvd_add (Nat.dvd_mul_left _ _) (Nat.dvd_mul_left _ _)

theorem fetchBitsOf_fetchSizeOf {mode k : ℕ} : fetchBitsOf mode (fetchSizeOf mode k) = k := by
  have positive : 0 < fetchSizeAlignOf mode := by
    unfold fetchSizeAlignOf
    split <;> positivity
  have grow : (k + 1) * fetchSizeAlignOf mode = k * fetchSizeAlignOf mode + fetchSizeAlignOf mode :=
    Nat.succ_mul _ _
  unfold fetchBitsOf fetchSizeOf
  rw [Nat.add_sub_cancel]
  apply Nat.div_eq_of_lt_le <;> omega

namespace Skylink

def offsetAndFetchSize (sl : Skylink) : ℕ × ℕ × Option SkylinkError :=
  validateAndParseV1Bitfield sl.bitfield

/-- `Bytes`: the bitfield in little-endian order and the root. -/
def bytes (sl : Skylink) : List UInt8 := leBytes 2 sl.bitfield.toNat ++ sl.merkleRoot.toList

/-- `String`. -/
def string (sl : Skylink) : List Char := Radix.base64URL.encode sl.bytes

/-- `LoadBytes`: the skylink the raw data holds. The wrong size is a `build.Critical`, which
returns its error in a release build. -/
def loadBytes (data : List UInt8) : Except SkylinkError Skylink :=
  if data.length ≠ rawSkylinkSize then .error (.message "failed to load skylink data")
  else
    let bitfield := UInt16.ofNat (leValue (data.take 2))
    match validateAndParseV1Bitfield bitfield with
    | (_, _, some err) => .error (.withContext err "skylink failed verification")
    | (_, _, none) => .ok ⟨bitfield, copyBytes 32 (data.drop 2)⟩

/-- `LoadString`: the link before any query and path, decoded and loaded. -/
def loadString (s : List Char) : Except SkylinkError Skylink :=
  let base := s.takeWhile (· ≠ '?')
  let base := if '/' ∈ base then base.takeWhile (· ≠ '/') else base
  match decodeSkylink base with
  | .error err => .error (.withContext err "unable to decode skylink")
  | .ok raw => loadBytes raw

theorem utf8Length_of_ascii {s : List Char} (ascii : ∀ c ∈ s, c.utf8Size = 1) :
    utf8Length s = s.length := by
  induction s with
  | nil => rfl
  | cons c s ih =>
    simp only [utf8Length, List.map_cons, List.sum_cons, List.length_cons] at ih ⊢
    rw [ascii c List.mem_cons_self, ih fun d mem => ascii d (List.mem_cons_of_mem c mem),
      Nat.add_comm]

/-- Loading the bytes of a skylink whose bitfield is valid gives it back. -/
theorem loadBytes_bytes {sl : Skylink} (valid : sl.offsetAndFetchSize.2.2 = none) :
    loadBytes sl.bytes = .ok sl := by
  have parsed : validateAndParseV1Bitfield sl.bitfield =
      ((validateAndParseV1Bitfield sl.bitfield).1,
        (validateAndParseV1Bitfield sl.bitfield).2.1, none) := by
    rw [← valid]
    rfl
  have sized : (leBytes 2 sl.bitfield.toNat).length = 2 := length_leBytes 2 _
  have bitfield : UInt16.ofNat (leValue (sl.bytes.take 2)) = sl.bitfield := by
    rw [bytes, List.take_left' sized, leValue_leBytes,
      Nat.mod_eq_of_lt (show sl.bitfield.toNat < 256 ^ 2 from sl.bitfield.toNat_lt)]
    exact UInt16.ofNat_toNat
  have root : copyBytes 32 (sl.bytes.drop 2) = sl.merkleRoot := by
    rw [bytes, List.drop_left' sized]
    apply Vector.toList_inj.mp
    simp [toList_copyBytes]
  have length : sl.bytes.length = rawSkylinkSize := by simp [bytes, rawSkylinkSize]
  rw [loadBytes, if_neg (not_not.mpr length)]
  simp only [bitfield, root]
  rw [parsed]

/-- A skylink with a valid bitfield survives its string: `LoadString(String(sl)) = sl`. -/
theorem loadString_string {sl : Skylink} (valid : sl.offsetAndFetchSize.2.2 = none) :
    loadString sl.string = .ok sl := by
  have alphabet : ∀ c ∈ Radix.base64URL.chars, c.utf8Size = 1 ∧ c ≠ '?' ∧ c ≠ '/' := by
    have checked :
        (Radix.base64URL.chars.all fun c => c.utf8Size == 1 && (c != '?' && c != '/')) = true := by
      decide
    intro c mem
    simpa using List.all_eq_true.mp checked c mem
  have chars : ∀ c ∈ sl.string, c.utf8Size = 1 ∧ c ≠ '?' ∧ c ≠ '/' := fun c mem =>
    alphabet c (Radix.base64URL.mem_chars_of_mem_encode mem)
  have noQuery : sl.string.takeWhile (· ≠ '?') = sl.string :=
    List.takeWhile_eq_self_iff.mpr fun c mem => by simpa using (chars c mem).2.1
  have noPath : '/' ∉ sl.string := fun mem => (chars '/' mem).2.2 rfl
  have length : utf8Length sl.string = base64EncodedSkylinkSize := by
    rw [utf8Length_of_ascii fun c mem => (chars c mem).1, string, Radix.Alphabet.length_encode,
      show sl.bytes.length = 34 by simp [bytes]]
    rfl
  have decoded : decodeSkylink sl.string = .ok sl.bytes := by
    rw [decodeSkylink, if_neg (by rw [length]; decide), if_pos length, string,
      Radix.Alphabet.decode_encode _ (by decide) (by decide)]
    rfl
  simp only [loadString, noQuery, noPath, if_false, decoded]
  exact loadBytes_bytes valid

end Skylink

/-- The v1 skylink codec: `NewSkylinkV1` writes an aligned offset and a fetch size that
`OffsetAndFetchSize` reads back as the offset and the least table entry at or above the fetch
size, within the sector; re-encoding what a valid bitfield parses to gives the bitfield; and
`LoadString(String(sl)) = sl`. -/
theorem skylinkV1_codec :
    (∀ (merkleRoot : Vector UInt8 32) (offset fetchSize : ℕ), 1 ≤ fetchSize →
        offset + fetchSize ≤ skylinkMaxFetchSize → offsetAlignment fetchSize ∣ offset →
        ∃ sl F, newSkylinkV1 merkleRoot offset fetchSize = .ok sl ∧ sl.merkleRoot = merkleRoot ∧
          sl.offsetAndFetchSize = (offset, F, none) ∧
          F ∈ fetchSizeTable ∧ fetchSize ≤ F ∧ (∀ e ∈ fetchSizeTable, fetchSize ≤ e → F ≤ e) ∧
          offset + F ≤ skylinkMaxFetchSize) ∧
      (∀ bitfield : UInt16, (validateAndParseV1Bitfield bitfield).2.2 = none →
        setOffsetAndFetchSize (validateAndParseV1Bitfield bitfield).1
          (validateAndParseV1Bitfield bitfield).2.1 = .ok bitfield) ∧
      (∀ sl : Skylink, sl.offsetAndFetchSize.2.2 = none → Skylink.loadString sl.string = .ok sl) := by
  have sector : skylinkMaxFetchSize = 2 ^ 22 := rfl
  have alignOf : ∀ mode, offsetAlignOf mode = 2 ^ (12 + mode) := fun mode => by
    rw [offsetAlignOf, Nat.pow_add]
  refine ⟨fun merkleRoot offset fetchSize pos within aligned => ?_, fun bitfield accepted => ?_,
    fun sl valid => Skylink.loadString_string valid⟩
  · -- the mode the alignment loop picks, and the step of it that holds the fetch size
    obtain ⟨mode, mode7, derived, above, below⟩ := offsetAlignment_mode fetchSize
    rw [derived] at aligned
    obtain ⟨bits8, reaches, first⟩ := fetchBitsOf_spec mode7 pos (by omega) above below
    have written := setOffsetAndFetchSize_layout mode7 derived above below pos within aligned
    have fits := layout_lt mode7 bits8 (Nat.lt_of_le_of_lt (Nat.div_mul_le_self offset _)
      (by omega))
    have offsetBack : offset / 2 ^ (12 + mode) * offsetAlignOf mode = offset := by
      rw [alignOf]
      exact Nat.div_mul_cancel aligned
    -- offset and fetch size are multiples of the step, as is the sector
    have inside : offset + fetchSizeOf mode (fetchBitsOf mode fetchSize) ≤ skylinkMaxFetchSize :=
      le_of_dvd_of_lt_add
        (Nat.dvd_add (Nat.dvd_trans (fetchSizeAlignOf_dvd (by omega)) aligned)
          (fetchSizeAlignOf_dvd_fetchSizeOf _ _))
        (sector ▸ fetchSizeAlignOf_dvd (by omega)) (by omega)
    refine ⟨_, fetchSizeOf mode (fetchBitsOf mode fetchSize), by rw [newSkylinkV1, written], rfl,
      ?_, fetchSizeOf_mem_table mode7 bits8, reaches, fetchSizeOf_least mode7 bits8 above reaches
        first, inside⟩
    rw [Skylink.offsetAndFetchSize, validate_layout mode7 bits8 fits, offsetBack,
      if_neg (Nat.not_lt.mpr inside)]
  · -- an accepted bitfield is a layout, whose offset and fetch size lie in its mode
    obtain ⟨mode, k, o, mode7, k8, fits, rfl⟩ := layout_of_valid accepted
    rw [validate_layout mode7 k8 fits] at accepted ⊢
    -- a bitfield past the sector carries an error, so this one is within it
    split_ifs at accepted ⊢ with beyond
    obtain ⟨above, below⟩ := fetchSizeOf_range mode7 k8
    obtain ⟨picked, picked7, derived, pickedAbove, pickedBelow⟩ :=
      offsetAlignment_mode (fetchSizeOf mode k)
    obtain rfl := mode_unique picked7 mode7 pickedAbove pickedBelow above (.inr below)
    have positive : 1 ≤ fetchSizeOf picked k := by
      unfold fetchSizeOf
      have grow : fetchSizeAlignOf picked ≤ (k + 1) * fetchSizeAlignOf picked :=
        Nat.le_mul_of_pos_left _ (Nat.succ_pos k)
      have : 0 < fetchSizeAlignOf picked := by
        unfold fetchSizeAlignOf
        split <;> positivity
      omega
    rw [alignOf] at beyond ⊢
    rw [setOffsetAndFetchSize_layout picked7 derived pickedAbove pickedBelow positive
      (Nat.not_lt.mp beyond) (Nat.dvd_mul_left _ _), fetchBitsOf_fetchSizeOf,
      Nat.mul_div_cancel _ (Nat.two_pow_pos _)]

end Sia.Modules
