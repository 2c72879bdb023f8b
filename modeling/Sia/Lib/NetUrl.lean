import Sia.Lib.Except
import Mathlib.Data.List.Basic

/-! The parts of Go's `net/url` that build and read back a URL, as Go 1.13 (the version of
`go.mod`) has them: `URL.String` of a URL with an opaque part, `Parse`, and the query functions
`ParseQuery`, `QueryUnescape` and `Values.Get`. Texts are Go strings, lists of bytes. The
parsing of an authority (`parseAuthority`) is the parameter `authority`, which says whether it
fails; the user and host it returns, `RawPath`, and the `*url.Error` that wraps an error of
`Parse` with the operation and the URL are left out. -/
namespace NetUrl

/-- The byte of an ASCII character. -/
def byte (c : Char) : UInt8 := c.toNat.toUInt8

/-- The fields of a `url.URL` that `Parse` sets and `String` reads, but the user and the host.
`encodedOpaque` is the field `Opaque`. -/
structure URL where
  scheme : List UInt8 := []
  encodedOpaque : List UInt8 := []
  path : List UInt8 := []
  forceQuery : Bool := false
  rawQuery : List UInt8 := []
  fragment : List UInt8 := []
  deriving DecidableEq

inductive UrlError where
  /-- "net/url: invalid control character in URL". -/
  | invalidControlCharacter
  /-- "missing protocol scheme". -/
  | missingProtocolScheme
  /-- "first path segment in URL cannot contain colon". -/
  | firstPathSegmentColon
  /-- `EscapeError`: the malformed escape. -/
  | escape (s : List UInt8)
  /-- An error of `parseAuthority`. -/
  | authority
  deriving DecidableEq

/-- `URL.String` of a URL with an opaque part, no fragment and neither user nor host. -/
def URL.string (u : URL) : List UInt8 :=
  (if u.scheme ≠ [] then u.scheme ++ [byte ':'] else []) ++ u.encodedOpaque ++
    (if u.forceQuery ∨ u.rawQuery ≠ [] then byte '?' :: u.rawQuery else [])

/-- `split(s, sep, true)`: the text before the first `sep` and the text after it. -/
def split (s : List UInt8) (sep : UInt8) : List UInt8 × List UInt8 :=
  match s.idxOf? sep with
  | some i => (s.take i, s.drop (i + 1))
  | none => (s, [])

/-- `split(s, sep, false)`: the text before the first `sep` and the text from it on. -/
def splitKeep (s : List UInt8) (sep : UInt8) : List UInt8 × List UInt8 :=
  match s.idxOf? sep with
  | some i => (s.take i, s.drop i)
  | none => (s, [])

def isCTL (b : UInt8) : Bool := b < 0x20 || b == 0x7f

def isLetter (b : UInt8) : Bool := (byte 'a' ≤ b && b ≤ byte 'z') || (byte 'A' ≤ b && b ≤ byte 'Z')

def isSchemeMark (b : UInt8) : Bool :=
  (byte '0' ≤ b && b ≤ byte '9') || b == byte '+' || b == byte '-' || b == byte '.'

/-- The loop of `getscheme` from byte `i` on: a scheme is letters, then letters, digits and `+-.`,
closed by a colon. -/
def getschemeLoop (rawurl : List UInt8) : ℕ → List UInt8 → Except UrlError (List UInt8 × List UInt8)
  | _, [] => .ok ([], rawurl)
  | i, c :: rest =>
    if isLetter c then getschemeLoop rawurl (i + 1) rest
    else if isSchemeMark c then
      if i = 0 then .ok ([], rawurl) else getschemeLoop rawurl (i + 1) rest
    else if c = byte ':' then
      if i = 0 then .error .missingProtocolScheme else .ok (rawurl.take i, rawurl.drop (i + 1))
    -- we have encountered an invalid character, so there is no valid scheme
    else .ok ([], rawurl)

def getscheme (rawurl : List UInt8) : Except UrlError (List UInt8 × List UInt8) :=
  getschemeLoop rawurl 0 rawurl

/-- `strings.ToLower` of an ASCII text. -/
def toLower (s : List UInt8) : List UInt8 :=
  s.map fun b => if byte 'A' ≤ b && b ≤ byte 'Z' then b + 32 else b

def ishex (b : UInt8) : Bool :=
  (byte '0' ≤ b && b ≤ byte '9') || (byte 'a' ≤ b && b ≤ byte 'f') || (byte 'A' ≤ b && b ≤ byte 'F')

def unhex (b : UInt8) : UInt8 :=
  if byte '0' ≤ b && b ≤ byte '9' then b - byte '0'
  else if byte 'a' ≤ b && b ≤ byte 'f' then b - byte 'a' + 10
  else if byte 'A' ≤ b && b ≤ byte 'F' then b - byte 'A' + 10
  else 0

/-- `unescape(s, mode)` for the modes that are not a host's: `%XX` is the byte `XX`, a malformed
escape is an `EscapeError` of at most three bytes from its `%`, and `+` is a space in a query
component (`plusSpace`). -/
def unescape (plusSpace : Bool) : List UInt8 → Except UrlError (List UInt8)
  | [] => .ok []
  | c :: rest =>
    if c = byte '%' then
      match rest with
      | a :: b :: rest' =>
        if ishex a && ishex b then
          (unescape plusSpace rest').map (((unhex a <<< 4) ||| unhex b) :: ·)
        else .error (.escape [c, a, b])
      | [a] => .error (.escape [c, a])
      | [] => .error (.escape [c])
    else if c = byte '+' then (unescape plusSpace rest).map ((if plusSpace then byte ' ' else c) :: ·)
    else (unescape plusSpace rest).map (c :: ·)

/-- `QueryUnescape`. -/
def queryUnescape (s : List UInt8) : Except UrlError (List UInt8) := unescape true s

/-- The separators of query pairs: `&`, and in Go 1.13 also `;`. -/
def isQuerySeparator (b : UInt8) : Bool := b == byte '&' || b == byte ';'

/-- One pair of `parseQuery`: the key and the value, both unescaped, or nothing for an empty or
malformed pair. -/
def queryPair (key : List UInt8) : Option (List UInt8 × List UInt8) :=
  if key = [] then none
  else
    let (key, value) := match key.idxOf? (byte '=') with
      | some i => (key.take i, key.drop (i + 1))
      | none => (key, [])
    match queryUnescape key, queryUnescape value with
    | .ok key, .ok value => some (key, value)
    | _, _ => none

/-- `ParseQuery`, without its error: the pairs in order. -/
def parseQuery (query : List UInt8) : List (List UInt8 × List UInt8) :=
  (query.splitOnP isQuerySeparator).filterMap queryPair

/-- `Values.Get`: the first value of the key, or the empty text. -/
def get (values : List (List UInt8 × List UInt8)) (key : List UInt8) : List UInt8 :=
  ((values.find? fun pair => pair.1 = key).map Prod.snd).getD []

/-- `parse(rawurl, false)`. -/
def parse (authority : List UInt8 → Option UrlError) (rawurl : List UInt8) : Except UrlError URL :=
  if rawurl.any isCTL then .error .invalidControlCharacter
  else if rawurl = [byte '*'] then .ok { path := [byte '*'] }
  else do
    let (scheme, rest) ← getscheme rawurl
    let scheme := toLower scheme
    let (rest, forceQuery, rawQuery) :=
      if rest.getLast? = some (byte '?') ∧ rest.count (byte '?') = 1 then (rest.dropLast, true, [])
      else ((split rest (byte '?')).1, false, (split rest (byte '?')).2)
    if rest.head? ≠ some (byte '/') ∧ scheme ≠ [] then
      -- rootless paths are opaque
      return { scheme, encodedOpaque := rest, forceQuery, rawQuery }
    if rest.head? ≠ some (byte '/') then
      match rest.idxOf? (byte ':') with
      | some colon =>
        if (rest.idxOf? (byte '/')).all (colon < ·) then throw .firstPathSegmentColon
      | none => pure ()
    let rest ← if (scheme ≠ [] ∨ ¬ [byte '/', byte '/', byte '/'] <+: rest) ∧
        [byte '/', byte '/'] <+: rest then
        match authority (splitKeep (rest.drop 2) (byte '/')).1 with
        | some e => throw e
        | none => pure (splitKeep (rest.drop 2) (byte '/')).2
      else pure rest
    let path ← unescape false rest
    return { scheme, path, forceQuery, rawQuery }

/-- `Parse`: the fragment is cut off first and unescaped last. -/
def Parse (authority : List UInt8 → Option UrlError) (rawurl : List UInt8) : Except UrlError URL := do
  let (u, frag) := split rawurl (byte '#')
  let url ← parse authority u
  if frag = [] then return url
  let fragment ← unescape false frag
  return { url with fragment }

/-- `URL.Query`: the pairs of the raw query, the malformed ones dropped. -/
def URL.query (u : URL) : List (List UInt8 × List UInt8) := parseQuery u.rawQuery

end NetUrl

/-! ### Reading back what `String` writes -/

namespace NetUrl

theorem idxOf?_append_cons {a b : List UInt8} {x : UInt8} (absent : x ∉ a) :
    (a ++ x :: b).idxOf? x = some a.length := by
  induction a with
  | nil => simp [List.idxOf?_cons]
  | cons c a ih =>
    rw [List.mem_cons, not_or] at absent
    simp [List.idxOf?_cons, Ne.symm absent.1, ih absent.2]

theorem split_append_cons {a b : List UInt8} {sep : UInt8} (absent : sep ∉ a) :
    split (a ++ sep :: b) sep = (a, b) := by
  simp [split, idxOf?_append_cons absent]

theorem split_of_not_mem {s : List UInt8} {sep : UInt8} (absent : sep ∉ s) : split s sep = (s, []) := by
  simp [split, List.idxOf?_eq_none_iff.mpr absent]

/-- What `unescape` leaves of a byte outside an escape. -/
def unescapedByte (plusSpace : Bool) (b : UInt8) : UInt8 :=
  if plusSpace && b == byte '+' then byte ' ' else b

/-- A byte that opens no escape is unescaped on its own. -/
theorem unescape_cons_of_ne {plusSpace : Bool} {c : UInt8} (rest : List UInt8) (plain : c ≠ byte '%') :
    unescape plusSpace (c :: rest) = (unescape plusSpace rest).map (unescapedByte plusSpace c :: ·) := by
  -- the equations of `unescape` split on the two bytes an escape would take
  have step : ∀ rest, unescape plusSpace (c :: rest) =
      (if c = byte '+' then (unescape plusSpace rest).map ((if plusSpace then byte ' ' else c) :: ·)
        else (unescape plusSpace rest).map (c :: ·)) := by
    rintro (_ | ⟨a, _ | ⟨b, rest'⟩⟩) <;> simp [unescape, plain]
  rw [step]
  by_cases plus : c = byte '+'
  · cases plusSpace <;> simp [plus, unescapedByte]
  · simp [plus, unescapedByte]

/-- A text without `%` unescapes byte by byte. -/
theorem unescape_of_not_mem {plusSpace : Bool} {s : List UInt8} (plain : byte '%' ∉ s) :
    unescape plusSpace s = .ok (s.map (unescapedByte plusSpace)) := by
  induction s with
  | nil => rfl
  | cons c rest ih =>
    rw [List.mem_cons, not_or] at plain
    rw [unescape_cons_of_ne rest (Ne.symm plain.1), ih plain.2]
    rfl

theorem getschemeLoop_letters (rawurl : List UInt8) (rest : List UInt8) :
    ∀ (letters : List UInt8) (i : ℕ), (∀ b ∈ letters, isLetter b = true) → i + letters.length ≠ 0 →
      getschemeLoop rawurl i (letters ++ byte ':' :: rest) =
        .ok (rawurl.take (i + letters.length), rawurl.drop (i + letters.length + 1))
  | [], i, _, named => by
    simp only [List.length_nil, Nat.add_zero] at named
    have colon : isLetter (byte ':') = false ∧ isSchemeMark (byte ':') = false := by decide
    simp [getschemeLoop, named, colon]
  | c :: letters, i, letter, named => by
    have first : isLetter c = true := letter c (by simp)
    rw [List.cons_append, getschemeLoop, if_pos first,
      getschemeLoop_letters rawurl rest letters (i + 1) (fun b mem => letter b (by simp [mem])) (by omega)]
    simp [Nat.add_assoc, Nat.add_comm 1]

/-- A scheme of letters closed by a colon is read off the front. -/
theorem getscheme_append {scheme rest : List UInt8} (named : scheme ≠ [])
    (letters : ∀ b ∈ scheme, isLetter b = true) :
    getscheme (scheme ++ byte ':' :: rest) = .ok (scheme, rest) := by
  have positive : 0 + scheme.length ≠ 0 := by simpa using named
  rw [getscheme, getschemeLoop_letters _ rest scheme 0 letters positive]
  simp

/-- A lower-case ASCII letter. -/
def isLower (b : UInt8) : Bool := byte 'a' ≤ b && b ≤ byte 'z'

theorem isLetter_of_isLower {b : UInt8} (lower : isLower b = true) : isLetter b = true := by
  simp only [isLower, Bool.and_eq_true, decide_eq_true_eq] at lower
  simp [isLetter, lower]

theorem toLower_of_isLower {s : List UInt8} (lower : ∀ b ∈ s, isLower b = true) : toLower s = s := by
  rw [toLower, List.map_congr_left (g := id), List.map_id]
  intro b mem
  have small := lower b mem
  simp only [isLower, Bool.and_eq_true, decide_eq_true_eq] at small
  have ascii : byte 'a' = 97 ∧ byte 'z' = 122 ∧ byte 'A' = 65 ∧ byte 'Z' = 90 := by decide
  have notUpper : ¬ (byte 'A' ≤ b ∧ b ≤ byte 'Z') := by
    rw [ascii.1, ascii.2.1] at small
    rw [ascii.2.2.1, ascii.2.2.2]
    simp only [UInt8.le_iff_toNat_le, UInt8.toNat_ofNat] at *
    omega
  simp [notUpper]

/-- A query of one pair, neither side holding a separator or an escape, reads back as that pair,
each `+` a space. -/
theorem parseQuery_pair {key value : List UInt8}
    (keyPlain : ∀ b ∈ key, isQuerySeparator b = false ∧ b ≠ byte '=' ∧ b ≠ byte '%')
    (valuePlain : ∀ b ∈ value, isQuerySeparator b = false ∧ b ≠ byte '%') :
    parseQuery (key ++ byte '=' :: value) =
      [(key.map (unescapedByte true), value.map (unescapedByte true))] := by
  have equals : isQuerySeparator (byte '=') = false := by decide
  have whole : (key ++ byte '=' :: value).splitOnP isQuerySeparator = [key ++ byte '=' :: value] := by
    apply List.splitOnP_eq_singleton
    intro b mem
    rcases List.mem_append.mp mem with inKey | inRest
    · exact (keyPlain b inKey).1
    · rcases List.mem_cons.mp inRest with rfl | inValue
      · exact equals
      · exact (valuePlain b inValue).1
  have noEquals : byte '=' ∉ key := fun mem => (keyPlain _ mem).2.1 rfl
  have keyUnescaped : byte '%' ∉ key := fun mem => (keyPlain _ mem).2.2 rfl
  have valueUnescaped : byte '%' ∉ value := fun mem => (valuePlain _ mem).2 rfl
  have pair : queryPair (key ++ byte '=' :: value) =
      some (key.map (unescapedByte true), value.map (unescapedByte true)) := by
    rw [queryPair, if_neg (by simp)]
    simp only [idxOf?_append_cons noEquals, List.take_left', queryUnescape,
      unescape_of_not_mem keyUnescaped]
    simp [unescape_of_not_mem valueUnescaped]
  rw [parseQuery, whole, List.filterMap_cons, pair, List.filterMap_nil]

@[simp] theorem get_cons_self (key value : List UInt8) (rest : List (List UInt8 × List UInt8)) :
    get ((key, value) :: rest) key = value := by
  simp [get]

/-- `Parse` reads back the `String` of a URL made of a lower-case scheme, an opaque part and a raw
query. -/
theorem Parse_string (authority : List UInt8 → Option UrlError) (u : URL)
    (named : u.scheme ≠ []) (lower : ∀ b ∈ u.scheme, isLower b = true)
    (rootless : u.encodedOpaque.head? ≠ some (byte '/'))
    (opaquePlain : ∀ b ∈ u.encodedOpaque, b ≠ byte '?' ∧ b ≠ byte '#' ∧ isCTL b = false)
    (queryPlain : ∀ b ∈ u.rawQuery, b ≠ byte '#' ∧ isCTL b = false)
    (bare : u.path = [] ∧ u.forceQuery = false ∧ u.fragment = []) :
    Parse authority u.string = .ok u := by
  obtain ⟨scheme, o, path, force, q, frag⟩ := u
  obtain ⟨rfl, rfl, rfl⟩ := bare
  simp only at named lower rootless opaquePlain queryPlain
  -- the text after the scheme's colon
  let rest := o ++ if q ≠ [] then byte '?' :: q else []
  have written : URL.string { scheme, encodedOpaque := o, rawQuery := q } = scheme ++ byte ':' :: rest := by
    simp [URL.string, named, rest]
  have schemePlain : ∀ b ∈ scheme, b ≠ byte '#' ∧ isCTL b = false := by
    intro b mem
    have small := lower b mem
    simp only [isLower, Bool.and_eq_true, decide_eq_true_eq] at small
    have ascii : byte 'a' = 97 ∧ byte 'z' = 122 ∧ byte '#' = 35 := by decide
    rw [ascii.1, ascii.2.1] at small
    rw [ascii.2.2, isCTL]
    simp only [UInt8.le_iff_toNat_le, UInt8.toNat_ofNat] at small
    constructor
    · intro same
      rw [same] at small
      simp at small
    · simp only [Bool.or_eq_false_iff, decide_eq_false_iff_not, beq_eq_false_iff_ne, ne_eq,
        UInt8.lt_iff_toNat_lt, UInt8.toNat_ofNat]
      refine ⟨by omega, fun same => ?_⟩
      rw [same] at small
      simp at small
  have restPlain : ∀ b ∈ rest, b ≠ byte '#' ∧ isCTL b = false := by
    intro b mem
    rcases List.mem_append.mp mem with inOpaque | inQuery
    · exact ⟨(opaquePlain b inOpaque).2.1, (opaquePlain b inOpaque).2.2⟩
    · split at inQuery
      · rcases List.mem_cons.mp inQuery with rfl | inRaw
        · decide
        · exact queryPlain b inRaw
      · simp at inQuery
  have plain : ∀ b ∈ scheme ++ byte ':' :: rest, b ≠ byte '#' ∧ isCTL b = false := by
    intro b mem
    rcases List.mem_append.mp mem with inScheme | inRest
    · exact schemePlain b inScheme
    · rcases List.mem_cons.mp inRest with rfl | inRest
      · decide
      · exact restPlain b inRest
  have noFragment : split (scheme ++ byte ':' :: rest) (byte '#') = (scheme ++ byte ':' :: rest, []) :=
    split_of_not_mem fun mem => (plain _ mem).1 rfl
  have noCTL : (scheme ++ byte ':' :: rest).any isCTL = false := by
    rw [List.any_eq_false]
    intro b mem
    simp [(plain b mem).2]
  have notStar : scheme ++ byte ':' :: rest ≠ [byte '*'] := by
    intro star
    have := congrArg List.length star
    simp only [List.length_append, List.length_cons, List.length_nil] at this
    have : scheme.length ≠ 0 := by simpa using named
    omega
  -- the query is split off at its first `?`, as no `?` is in the opaque part
  have noQuestion : byte '?' ∉ o := fun mem => (opaquePlain _ mem).1 rfl
  have queried : ¬ (rest.getLast? = some (byte '?') ∧ rest.count (byte '?') = 1) ∧
      split rest (byte '?') = (o, q) := by
    by_cases empty : q = []
    · subst empty
      simp only [rest, ne_eq, not_true_eq_false, if_false, List.append_nil]
      exact ⟨fun ⟨last, _⟩ => noQuestion (List.mem_of_getLast? last), split_of_not_mem noQuestion⟩
    · simp only [rest, ne_eq, empty, not_false_eq_true, if_true]
      refine ⟨fun ⟨last, once⟩ => ?_, split_append_cons noQuestion⟩
      -- a query ending in `?` puts a second `?` after the separator
      obtain ⟨x, q', rfl⟩ := List.exists_cons_of_ne_nil empty
      rw [List.getLast?_append_of_ne_nil _ (List.cons_ne_nil _ _), List.getLast?_cons_cons] at last
      have inQuery : 0 < (x :: q').count (byte '?') := List.count_pos_iff.mpr (List.mem_of_getLast? last)
      rw [List.count_append, List.count_cons_self, List.count_eq_zero_of_not_mem noQuestion] at once
      omega
  obtain ⟨forced, splitQuery⟩ := queried
  have letters : ∀ b ∈ scheme, isLetter b = true := fun b mem => isLetter_of_isLower (lower b mem)
  rw [written]
  simp [Parse, parse, noFragment, noCTL, notStar, getscheme_append named letters,
    toLower_of_isLower lower, forced, splitQuery, rootless, named]
  rfl

end NetUrl
