import Sia.Types.Currency
import Mathlib.Data.Rat.Defs
import Mathlib.Algebra.Order.Field.Rat

/-! The text forms of a currency: `ParseCurrency` of `types/currency.go`, and `HumanString` and
`Scan` of `types/encoding.go`. Strings are lists of characters. What these functions take from
Go's standard library is the parameter `TextLib`: `big.Rat.SetString`, the scan of a `big.Int`
that `Currency.Scan` runs, `big.Rat.Float64` and the verb `%.4g` of `fmt`. `TextLib.Lawful` says
what they do on the inputs the results below need: a decimal numeral scans to its value, a ratio
of at least `2^1024` is past every `float64` and converts to `+Inf`, which `%.4g` prints as
`+Inf`, a text that `SetString` refuses. -/
namespace Sia

/-- `unicode.IsSpace`: the Latin-1 spaces and the other characters of Unicode's `White_Space`. -/
def isSpace (c : Char) : Bool :=
  c.toNat = 0x09 || c.toNat = 0x0a || c.toNat = 0x0b || c.toNat = 0x0c || c.toNat = 0x0d ||
    c.toNat = 0x20 || c.toNat = 0x85 || c.toNat = 0xa0 || c.toNat = 0x1680 ||
    (0x2000 ≤ c.toNat && c.toNat ≤ 0x200a) || c.toNat = 0x2028 || c.toNat = 0x2029 ||
    c.toNat = 0x202f || c.toNat = 0x205f || c.toNat = 0x3000

/-- `strings.TrimSpace`. -/
def trimSpace (s : List Char) : List Char :=
  ((s.dropWhile isSpace).reverse.dropWhile isSpace).reverse

/-- `strings.HasSuffix`. -/
def hasSuffix (s suffix : List Char) : Bool := suffix.isSuffixOf s

/-- `strings.TrimSuffix`. -/
def trimSuffix (s suffix : List Char) : List Char :=
  if hasSuffix s suffix then s.take (s.length - suffix.length) else s

/-- `big.Int.String` of a natural number: its decimal digits. -/
def decimalString (n : ℕ) : List Char := Nat.toDigits 10 n

/-- `big.Int.String`. -/
def intString (z : ℤ) : List Char :=
  if z < 0 then '-' :: decimalString z.natAbs else decimalString z.natAbs

/-- `big.Rat.RatString`: `a/b`, or `a` when the denominator is 1. -/
def ratString (r : ℚ) : List Char :=
  if r.den = 1 then intString r.num else intString r.num ++ '/' :: decimalString r.den

/-- The value of a decimal numeral. -/
def decimalValue (ds : List Char) : ℕ := ds.foldl (fun n c => 10 * n + (c.toNat - '0'.toNat)) 0

/-- A `float64` that `big.Rat.Float64` gives: finite, or an infinity. -/
inductive Float64 where
  | finite (value : ℚ)
  | posInf
  | negInf

/-- The functions of Go's standard library that the text forms call. -/
structure TextLib where
  /-- `new(big.Rat).SetString(s)`, `none` where it reports failure. -/
  ratSetString : List Char → Option ℚ
  /-- The scan of a `big.Int` off the text, as `fmt` runs `Currency.Scan` on it. -/
  intScan : List Char → Except (List Char) ℤ
  /-- `big.Rat.Float64`, without the exactness flag. -/
  ratFloat64 : ℚ → Float64
  /-- `fmt.Sprintf("%.4g", f)`. -/
  formatG4 : Float64 → List Char

/-- What the results rely on of the standard library. -/
structure TextLib.Lawful (lib : TextLib) : Prop where
  intScan_decimal : ∀ {ds : List Char}, ds ≠ [] → (∀ c ∈ ds, c.isDigit) →
    lib.intScan ds = .ok (decimalValue ds) ∧ lib.intScan ('-' :: ds) = .ok (-(decimalValue ds : ℤ))
  ratFloat64_overflow : ∀ {x : ℚ}, 2 ^ 1024 ≤ x → lib.ratFloat64 x = .posInf
  formatG4_posInf : lib.formatG4 .posInf = ['+', 'I', 'n', 'f']
  ratSetString_inf : lib.ratSetString ['+', 'I', 'n', 'f'] = none

/-- The errors of `ParseCurrency` and `Scan`. -/
inductive CurrencyTextError where
  /-- `ErrParseCurrencyAmount`, "malformed amount". -/
  | parseCurrencyAmount
  /-- `ErrParseCurrencyInteger`, "non-integer number of hastings". -/
  | parseCurrencyInteger
  /-- `ErrParseCurrencyUnits`, "amount is missing currency units". -/
  | parseCurrencyUnits
  /-- `ErrNegativeCurrency`, "negative currency not allowed". -/
  | negativeCurrency
  /-- An error of the scan of the `big.Int`, passed on. -/
  | scan (message : List Char)
  deriving DecidableEq

/-- The units of `ParseCurrency` and `HumanString`, in the order both range over them. -/
def currencyUnits : List (List Char) :=
  [['p', 'S'], ['n', 'S'], ['u', 'S'], ['m', 'S'], ['S', 'C'], ['K', 'S'], ['M', 'S'], ['G', 'S'],
    ['T', 'S']]

/-- The loop of `ParseCurrency` over the units from the `i`-th on, and the check for hastings
after it. -/
def parseCurrencyLoop (lib : TextLib) (amount : List Char) :
    ℕ → List (List Char) → Except CurrencyTextError (List Char)
  | _, [] =>
    -- check for hastings separately
    if hasSuffix amount ['H'] then .ok (trimSuffix amount ['H']) else .error .parseCurrencyUnits
  | i, unit :: units =>
    if hasSuffix amount unit then
      let value := trimSpace (trimSuffix amount unit)
      match lib.ratSetString value with
      | none => .error .parseCurrencyAmount
      | some r =>
        let exp : ℤ := 24 + 3 * ((i : ℤ) - 4)
        let r := r * (10 : ℚ) ^ exp
        -- r must be an integer at this point
        if r.den ≠ 1 then .error .parseCurrencyInteger else .ok (ratString r)
    else parseCurrencyLoop lib amount (i + 1) units

/-- `ParseCurrency`. -/
def parseCurrency (lib : TextLib) (amount : List Char) : Except CurrencyTextError (List Char) :=
  parseCurrencyLoop lib (trimSpace amount) 0 currencyUnits

/-- `SiacoinPrecision.Div64(1e12)`: one pS in hastings. -/
def picoSiacoin : Currency := siacoinPrecision / 10 ^ 12

/-- The loop of `HumanString` over the units: it stops at the first unit whose next magnitude `c`
is below, and grows the magnitude by 1000 past every other unit but `TS`. It returns the magnitude
and the unit the loop variable holds last. -/
def humanUnitLoop (c : Currency) : List (List Char) → Currency → List Char → Currency × List Char
  | [], mag, unit => (mag, unit)
  | unit :: units, mag, _ =>
    if c < mag * 1000 then (mag, unit)
    else if unit ≠ ['T', 'S'] then humanUnitLoop c units (mag * 1000) unit
    else humanUnitLoop c units mag unit

/-- `HumanString`. -/
def humanString (lib : TextLib) (c : Currency) : List Char :=
  if c < picoSiacoin then decimalString c ++ [' ', 'H']
  else
    let (mag, unit) := humanUnitLoop c currencyUnits picoSiacoin []
    lib.formatG4 (lib.ratFloat64 ((c : ℚ) / mag)) ++ ' ' :: unit

/-- `Currency.Scan`. -/
def currencyScan (lib : TextLib) (text : List Char) : Except CurrencyTextError Currency :=
  match lib.intScan text with
  | .error message => .error (.scan message)
  | .ok i => if i < 0 then .error .negativeCurrency else .ok i.toNat

/-! ### Texts that the string functions leave alone -/

theorem trimSpace_eq_self {s : List Char} (first : ∀ c ∈ s.head?, isSpace c = false)
    (last : ∀ c ∈ s.getLast?, isSpace c = false) : trimSpace s = s := by
  have front : ∀ {l : List Char}, (∀ c ∈ l.head?, isSpace c = false) → l.dropWhile isSpace = l
    | [], _ => rfl
    | c :: l, kept => List.dropWhile_cons_of_neg (by simpa using kept c rfl)
  rw [trimSpace, front first, front (by rwa [← List.getLast?_eq_head?_reverse]), List.reverse_reverse]

/-- A text does not end with a suffix whose last character is not its own. -/
theorem hasSuffix_eq_false {s suffix : List Char} {x y : Char} (last : s.getLast? = some x)
    (suffixLast : suffix.getLast? = some y) (ne : x ≠ y) : hasSuffix s suffix = false := by
  rw [hasSuffix, Bool.eq_false_iff]
  intro isSuffix
  have nonempty : suffix ≠ [] := by
    rintro rfl
    cases suffixLast
  obtain ⟨pre, rfl⟩ := List.isSuffixOf_iff_suffix.mp isSuffix
  rw [List.getLast?_append_of_ne_nil _ nonempty, suffixLast] at last
  exact ne (Option.some.inj last).symm

/-! ### `ParseCurrency` on a text that ends in `H` -/

/-- Every unit ends in `S` or `C`. -/
theorem getLast_currencyUnit {unit : List Char} (mem : unit ∈ currencyUnits) :
    unit.getLast? = some 'S' ∨ unit.getLast? = some 'C' := by
  simp only [currencyUnits, List.mem_cons, List.not_mem_nil, or_false] at mem
  rcases mem with rfl | rfl | rfl | rfl | rfl | rfl | rfl | rfl | rfl <;> simp

/-- A text that ends in `H` matches no unit, and the hastings check returns the text before the
`H`, whatever it holds. -/
theorem parseCurrencyLoop_hastings (lib : TextLib) {amount : List Char}
    (last : amount.getLast? = some 'H') :
    ∀ (i : ℕ) (units : List (List Char)), (∀ unit ∈ units, unit ∈ currencyUnits) →
      parseCurrencyLoop lib amount i units = .ok amount.dropLast
  | i, [], _ => by
    have ends : hasSuffix amount ['H'] = true :=
      List.isSuffixOf_iff_suffix.mpr (List.singleton_suffix_iff_getLast?_eq_some.mpr last)
    rw [parseCurrencyLoop, if_pos ends, trimSuffix, if_pos ends, List.dropLast_eq_take]
    rfl
  | i, unit :: units, listed => by
    have other : hasSuffix amount unit = false := by
      rcases getLast_currencyUnit (listed unit List.mem_cons_self) with ends | ends <;>
        exact hasSuffix_eq_false last ends (by decide)
    rw [parseCurrencyLoop, if_neg (by rw [other]; decide)]
    exact parseCurrencyLoop_hastings lib last (i + 1) units
      fun unit' mem => listed unit' (List.mem_cons_of_mem unit mem)

theorem parseCurrency_hastings (lib : TextLib) {amount : List Char}
    (first : ∀ c ∈ amount.head?, isSpace c = false) (last : amount.getLast? = some 'H') :
    parseCurrency lib amount = .ok amount.dropLast := by
  rw [parseCurrency, trimSpace_eq_self first (by simp [last]; decide)]
  exact parseCurrencyLoop_hastings lib last 0 currencyUnits fun _ mem => mem

/-! ### `HumanString` past the last unit -/

theorem picoSiacoin_eq : picoSiacoin = 10 ^ 12 := by
  simp only [picoSiacoin, siacoinPrecision, Nat.reducePow, Nat.reduceDiv]

/-- Past units other than `TS` that `c` reaches, the loop grows the magnitude by 1000 each. -/
theorem humanUnitLoop_append {c : Currency} (rest : List (List Char)) :
    ∀ (units : List (List Char)) (mag : Currency) (unit : List Char),
      (∀ u ∈ units, u ≠ ['T', 'S']) → mag * 1000 ^ units.length ≤ c →
      humanUnitLoop c (units ++ rest) mag unit =
        humanUnitLoop c rest (mag * 1000 ^ units.length) (units.getLastD unit)
  | [], mag, unit, _, _ => by simp
  | u :: units, mag, unit, others, reached => by
    have grown : mag * 1000 * 1000 ^ units.length ≤ c := by
      rw [List.length_cons, Nat.pow_succ'] at reached
      rwa [Nat.mul_assoc]
    have above : ¬ c < mag * 1000 := Nat.not_lt.mpr (Nat.le_trans
      (Nat.le_mul_of_pos_right (mag * 1000) (Nat.pow_pos (n := units.length) (by decide))) grown)
    rw [List.cons_append, humanUnitLoop, if_neg above, if_pos (others u List.mem_cons_self),
      humanUnitLoop_append rest units (mag * 1000) u
        (fun u' mem => others u' (List.mem_cons_of_mem u mem)) grown,
      List.length_cons, Nat.pow_succ', ← Nat.mul_assoc, List.getLastD_cons]

/-- A currency of at least `10^39` hastings runs the loop of `HumanString` to its end, where the
magnitude is one TS, `10^36` hastings. -/
theorem humanUnitLoop_top {c : Currency} (top : 10 ^ 39 ≤ c) :
    humanUnitLoop c currencyUnits picoSiacoin [] = (10 ^ 36, ['T', 'S']) := by
  have split : currencyUnits = currencyUnits.dropLast ++ [['T', 'S']] := rfl
  have others : ∀ u ∈ currencyUnits.dropLast, u ≠ ['T', 'S'] := by decide
  have magnitude : picoSiacoin * 1000 ^ currencyUnits.dropLast.length = 10 ^ 36 := by
    rw [picoSiacoin_eq]
    rfl
  have last : 10 ^ 36 * 1000 = 10 ^ 39 := by
    rw [show (1000 : ℕ) = 10 ^ 3 from rfl, ← Nat.pow_add]
  have reached : 10 ^ 36 ≤ c := Nat.le_trans (Nat.pow_le_pow_right (by decide) (by decide)) top
  rw [split, humanUnitLoop_append _ _ _ _ others (by rw [magnitude]; exact reached), magnitude,
    humanUnitLoop, if_neg (by rw [last]; exact Nat.not_lt.mpr top), if_neg (by decide), humanUnitLoop]

/-- `+Inf TS` ends with `TS`, and `SetString` refuses the `+Inf` before it. -/
theorem parseCurrency_inf (lib : TextLib) (lawful : lib.Lawful) :
    parseCurrency lib ['+', 'I', 'n', 'f', ' ', 'T', 'S'] = .error .parseCurrencyAmount := by
  have trimmed : trimSpace ['+', 'I', 'n', 'f', ' ', 'T', 'S'] = ['+', 'I', 'n', 'f', ' ', 'T', 'S'] := by
    decide
  have value : trimSpace (trimSuffix ['+', 'I', 'n', 'f', ' ', 'T', 'S'] ['T', 'S']) =
      ['+', 'I', 'n', 'f'] := by decide
  simp +decide only [parseCurrency, parseCurrencyLoop, currencyUnits, trimmed, value,
    lawful.ratSetString_inf, ↓reduceIte]

/-- `HumanString` of a currency whose value in TS is past every `float64` is `+Inf TS`. -/
theorem humanString_inf (lib : TextLib) (lawful : lib.Lawful) {c : Currency}
    (huge : 2 ^ 1024 * 10 ^ 36 ≤ c) : humanString lib c = ['+', 'I', 'n', 'f', ' ', 'T', 'S'] := by
  unfold Currency at c huge
  have small : 10 ^ 3 ≤ 2 ^ 1024 :=
    Nat.le_trans (by decide : 10 ^ 3 ≤ 2 ^ 10) (Nat.pow_le_pow_right (by decide) (by decide))
  have top : 10 ^ 3 * 10 ^ 36 ≤ c := Nat.le_trans (Nat.mul_le_mul_right _ small) huge
  rw [← Nat.pow_add] at top
  have above : ¬ c < picoSiacoin := by
    rw [picoSiacoin_eq]
    exact Nat.not_lt.mpr (Nat.le_trans (Nat.pow_le_pow_right (by decide) (by decide)) top)
  have ratio : (2 : ℚ) ^ 1024 ≤ (c : ℚ) / ((10 ^ 36 : ℕ) : ℚ) := by
    rw [le_div_iff₀ (Nat.cast_pos.mpr (Nat.pow_pos (by decide)))]
    have cast := (Nat.cast_le (α := ℚ)).mpr huge
    rwa [Nat.cast_mul, Nat.cast_pow, Nat.cast_ofNat] at cast
  rw [humanString, if_neg above, humanUnitLoop_top top]
  simp only [lawful.ratFloat64_overflow ratio, lawful.formatG4_posInf]
  rfl

/-! ### The round trips -/

/-- A reading of signed decimal numerals that refuses every other text. -/
def signedDecimal : List Char → Option ℤ
  | [] => none
  | c :: ds =>
    if c = '-' then
      if ds ≠ [] ∧ ds.all Char.isDigit then some (-(decimalValue ds : ℤ)) else none
    else if (c :: ds).all Char.isDigit then some (decimalValue (c :: ds)) else none

theorem signedDecimal_digits {ds : List Char} (nonempty : ds ≠ []) (digits : ∀ c ∈ ds, c.isDigit) :
    signedDecimal ds = some (decimalValue ds : ℤ) ∧
      signedDecimal ('-' :: ds) = some (-(decimalValue ds : ℤ)) := by
  obtain ⟨c, rest, rfl⟩ := List.exists_cons_of_ne_nil nonempty
  have allDigits : (c :: rest).all Char.isDigit := List.all_eq_true.mpr digits
  have notMinus : c ≠ '-' := fun minus => by
    have := digits c List.mem_cons_self
    rw [minus] at this
    exact absurd this (by decide)
  constructor
  · rw [signedDecimal, if_neg notMinus, if_pos allDigits]
  · rw [signedDecimal, if_pos rfl, if_pos ⟨nonempty, allDigits⟩]

/-- A standard library that reads signed decimals, converts past `2^1024` to `+Inf` and prints
`+Inf` as Go does. -/
def decimalTextLib : TextLib where
  ratSetString s := (signedDecimal s).map (fun z => (z : ℚ))
  intScan s := match signedDecimal s with
    | some z => .ok z
    | none => .error ['e', 'x', 'p', 'e', 'c', 't', 'e', 'd', ' ', 'i', 'n', 't', 'e', 'g', 'e', 'r']
  ratFloat64 x := if 2 ^ 1024 ≤ x then .posInf else .finite x
  formatG4
    | .posInf => ['+', 'I', 'n', 'f']
    | .negInf => ['-', 'I', 'n', 'f']
    | .finite _ => []

theorem decimalTextLib_lawful : decimalTextLib.Lawful where
  intScan_decimal nonempty digits := by
    obtain ⟨plain, signed⟩ := signedDecimal_digits nonempty digits
    exact ⟨by simp [decimalTextLib, plain], by simp [decimalTextLib, signed]⟩
  ratFloat64_overflow huge := by simp [decimalTextLib, huge]
  formatG4_posInf := rfl
  ratSetString_inf := rfl

end Sia
