import Sia.Renter.HostDB.HostTree

/-! `Filter` of `modules/renter/hostdb/hosttree/addressfilter.go`: the subnets of the hosts added
so far, against which a host's addresses are tested. An address is the `net.IP` the resolver
returns, a list of bytes, and `To4` reads an IPv4 address off a 4-byte list or off an IPv4-mapped
16-byte one. Go keys a subnet by the string of the CIDR `ip/24` (IPv4) or `ip/54` (IPv6) re-parsed
from the address's string; that string is one-to-one with the family and the bytes under the
mask, which is what the model keeps. The resolver is deterministic: a function from a host's
address to the addresses it resolves to, `none` standing for an error. -/
namespace Sia.Renter.HostDB

def IPv4FilterRange : ℕ := 24

def IPv6FilterRange : ℕ := 54

/-- `net.IP.To4`. -/
def to4 (ip : List UInt8) : Option (List UInt8) :=
  if ip.length = 4 then some ip
  else if ip.length = 16 ∧ ip.take 10 = List.replicate 10 0 ∧ ip[10]? = some 0xff ∧
      ip[11]? = some 0xff then some (ip.drop 12)
  else none

/-- `net.CIDRMask(ones, bits)`. -/
def cidrMask (ones bits : ℕ) : List UInt8 :=
  (List.range (bits / 8)).map fun i =>
    if 8 * (i + 1) ≤ ones then 0xff
    else if ones ≤ 8 * i then 0
    else ~~~((0xff : UInt8) >>> UInt8.ofNat (ones - 8 * i))

/-- `ip.Mask(mask)` for an address and a mask of the same length. -/
def maskIP (ip mask : List UInt8) : List UInt8 := List.zipWith (· &&& ·) ip mask

/-- The key `ipnet.String()` of a subnet: its family and its masked bytes. -/
inductive Subnet where
  | v4 (masked : List UInt8)
  | v6 (masked : List UInt8)
  deriving DecidableEq, Repr

/-- The subnet of `net.ParseCIDR(fmt.Sprintf("%s/%d", ip.String(), filterRange))`, `none` where
`ParseCIDR` fails: on an address of neither 4 nor 16 bytes, which `String` prints as `?` and hex
digits, or as `<nil>`. -/
def subnet (ip : List UInt8) : Option Subnet :=
  match to4 ip with
  | some v4 => some (.v4 (maskIP v4 (cidrMask IPv4FilterRange 32)))
  | none => if ip.length = 16 then some (.v6 (maskIP ip (cidrMask IPv6FilterRange 128))) else none

/-- `Filter`: the keys of the map `filter`, and the resolver. -/
structure Filter (A : Type) where
  filter : List Subnet
  resolver : A → Option (List (List UInt8))

variable {A : Type}

/-- `NewFilter`. -/
def newFilter (resolver : A → Option (List (List UInt8))) : Filter A := ⟨[], resolver⟩

namespace Filter

/-- `Add`: the subnet of every address the host resolves to joins the map; a host that does not
resolve adds nothing. -/
def add (af : Filter A) (host : A) : Filter A :=
  match af.resolver host with
  | none => af
  | some addresses =>
    { af with
      filter := addresses.foldl (fun filter ip =>
        match subnet ip with
        | some s => filter.insert s
        | none => filter) af.filter }

/-- Whether an address's subnet is in the map. -/
def blocks (af : Filter A) (ip : List UInt8) : Bool :=
  match subnet ip with
  | some s => decide (s ∈ af.filter)
  | none => false

/-- `Filtered`. The test of two addresses of one type compares the lengths of the two slices. -/
def filtered (af : Filter A) (host : A) : Bool :=
  match af.resolver host with
  | none => true
  | some addresses =>
    if addresses.length > 2 then true
    else if addresses.length = 2 ∧ (addresses.getD 0 []).length = (addresses.getD 1 []).length
    then true
    else addresses.any af.blocks

end Filter

/-- The filter as `SelectRandom` uses it. -/
def addressFilter (resolver : A → Option (List (List UInt8))) : AddressFilter A (Filter A) :=
  ⟨newFilter resolver, Filter.add, Filter.filtered⟩

/-! ### What the filter holds and when it filters -/

namespace Filter

variable {af : Filter A} {host : A}

@[simp] theorem resolver_add (af : Filter A) (host : A) : (af.add host).resolver = af.resolver := by
  unfold add
  split <;> rfl

theorem mem_foldl_insert {s : Subnet} :
    ∀ (addresses : List (List UInt8)) (filter : List Subnet),
      s ∈ addresses.foldl (fun filter ip =>
          match subnet ip with
          | some s => filter.insert s
          | none => filter) filter ↔
        s ∈ filter ∨ ∃ ip ∈ addresses, subnet ip = some s
  | [], filter => by simp
  | ip :: rest, filter => by
    rw [List.foldl_cons, mem_foldl_insert rest]
    cases keyed : subnet ip with
    | none =>
      simp only [List.mem_cons, exists_eq_or_imp, keyed, reduceCtorEq, false_or]
    | some key =>
      simp only [List.mem_insert_iff, List.mem_cons, exists_eq_or_imp, keyed, Option.some.injEq]
      constructor
      · rintro ((same | old) | later)
        · exact .inr (.inl same.symm)
        · exact .inl old
        · exact .inr (.inr later)
      · rintro (old | same | later)
        · exact .inl (.inr old)
        · exact .inl (.inl same.symm)
        · exact .inr later

/-- After `Add`, the map holds what it held and the subnets of the host's addresses. -/
theorem mem_add {s : Subnet} :
    s ∈ (af.add host).filter ↔
      s ∈ af.filter ∨ ∃ addresses, af.resolver host = some addresses ∧
        ∃ ip ∈ addresses, subnet ip = some s := by
  unfold add
  cases resolved : af.resolver host with
  | none => simp
  | some addresses => simp [mem_foldl_insert]

theorem blocks_iff {ip : List UInt8} : af.blocks ip = true ↔ ∃ s, subnet ip = some s ∧ s ∈ af.filter := by
  unfold blocks
  cases subnet ip <;> simp

/-- `Filtered` tests the lengths of two addresses, not their families. -/
theorem filtered_iff :
    af.filtered host = true ↔
      af.resolver host = none ∨ ∃ addresses, af.resolver host = some addresses ∧
        (2 < addresses.length ∨
          (addresses.length = 2 ∧ (addresses.getD 0 []).length = (addresses.getD 1 []).length) ∨
          ∃ ip ∈ addresses, ∃ s, subnet ip = some s ∧ s ∈ af.filter) := by
  unfold filtered
  cases af.resolver host with
  | none => simp
  | some addresses =>
    simp only [reduceCtorEq, Option.some.injEq, exists_eq_left', false_or]
    by_cases many : addresses.length > 2
    · rw [if_pos many]
      exact iff_of_true rfl (.inl many)
    · by_cases pair : addresses.length = 2 ∧
          (addresses.getD 0 []).length = (addresses.getD 1 []).length
      · rw [if_neg many, if_pos pair]
        exact iff_of_true rfl (.inr (.inl pair))
      · rw [if_neg many, if_neg pair, List.any_eq_true]
        simp only [blocks_iff]
        exact ⟨fun found => .inr (.inr found), fun
          | .inl more => absurd more many
          | .inr (.inl both) => absurd both pair
          | .inr (.inr found) => found⟩

end Filter

/-! ### The subnet of an IPv4 address -/

theorem and_ff (x : UInt8) : x &&& 0xff = x :=
  UInt8.toBitVec_inj.mp BitVec.and_allOnes

theorem length_of_to4 {ip v4 : List UInt8} (read : to4 ip = some v4) : v4.length = 4 := by
  unfold to4 at read
  split at read
  · rw [← Option.some.inj read]
    assumption
  · split at read
    · rw [← Option.some.inj read, List.length_drop]
      omega
    · cases read

/-- Two IPv4 addresses are in one subnet exactly when they share their first 24 bits. -/
theorem subnet_v4_eq_iff {ip ip' v4 v4' : List UInt8} (read : to4 ip = some v4)
    (read' : to4 ip' = some v4') : subnet ip = subnet ip' ↔ v4.take 3 = v4'.take 3 := by
  obtain ⟨a, b, c, d, rfl⟩ : ∃ a b c d, v4 = [a, b, c, d] := by
    match v4, length_of_to4 read with
    | [a, b, c, d], _ => exact ⟨a, b, c, d, rfl⟩
  obtain ⟨a', b', c', d', rfl⟩ : ∃ a b c d, v4' = [a, b, c, d] := by
    match v4', length_of_to4 read' with
    | [a, b, c, d], _ => exact ⟨a, b, c, d, rfl⟩
  simp [subnet, read, read', maskIP, cidrMask, IPv4FilterRange, List.range_succ, and_ff]

/-! ### The families of two addresses -/

/-- An address is IPv4 when `To4` reads one off it, whatever its length. -/
def IsIPv4 (ip : List UInt8) : Bool := (to4 ip).isSome

theorem isIPv4_of_length_four {ip : List UInt8} (four : ip.length = 4) : IsIPv4 ip = true := by
  simp [IsIPv4, to4, four]

namespace Filter

variable {af : Filter A} {host : A} {a b : List UInt8}

/-- Two addresses of one length are filtered as one family, also an IPv4-mapped address beside an
IPv6 one. -/
theorem filtered_of_length_eq (resolved : af.resolver host = some [a, b])
    (lengths : a.length = b.length) : af.filtered host = true :=
  filtered_iff.mpr (.inr ⟨[a, b], resolved, .inr (.inl ⟨rfl, lengths⟩)⟩)

/-- A host resolving to an IPv4 address in its 4-byte form and another in its 16-byte form passes
`Filtered` when neither subnet is in the map, though both addresses are IPv4. -/
theorem filtered_passes_two_ipv4 (af : Filter A) (host : A) (resolved : af.resolver host = some [a, b])
    (short : a.length = 4) (mapped : b.length = 16 ∧ IsIPv4 b = true)
    (fresh : af.blocks a = false ∧ af.blocks b = false) :
    IsIPv4 a = true ∧ IsIPv4 b = true ∧ af.filtered host = false := by
  refine ⟨isIPv4_of_length_four short, mapped.2, ?_⟩
  have lengths : a.length ≠ b.length := by omega
  simp [filtered, resolved, lengths, fresh]

end Filter

/-- A resolver that gives one host an IPv4 address in each of its two forms. -/
def twoFormsResolver : Unit → Option (List (List UInt8)) :=
  fun _ => some [[1, 2, 3, 4], [0, 0, 0, 0, 0, 0, 0, 0, 0, 0, 0xff, 0xff, 5, 6, 7, 8]]

theorem twoForms_not_filtered :
    IsIPv4 [1, 2, 3, 4] = true ∧ IsIPv4 [0, 0, 0, 0, 0, 0, 0, 0, 0, 0, 0xff, 0xff, 5, 6, 7, 8] = true ∧
      (newFilter twoFormsResolver).filtered () = false :=
  Filter.filtered_passes_two_ipv4 (newFilter twoFormsResolver) () rfl rfl ⟨rfl, by decide⟩
    ⟨by decide, by decide⟩

end Sia.Renter.HostDB
