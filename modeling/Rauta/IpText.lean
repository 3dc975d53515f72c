import Rauta.Common

/-!
# Addresses as text

`str::parse` and `Display` for `Ipv4Addr` and `Ipv6Addr`, as the standard library implements them.
Parsing is a reader that goes over the text once and gives back what it did not consume. An address
is accepted only when nothing is left.

An IPv4 address is four decimal octets without leading zeros. An IPv6 address is eight groups of
at most four hexadecimal digits; one run of zero groups may be written `::`, and the last two groups
may be written as an IPv4 address.
-/

namespace Rauta

namespace IpText

/-- `char::to_digit`, for the radices 10 and 16. -/
def toDigit (radix : Nat) (c : Char) : Option Nat :=
  let digit :=
    if '0' ≤ c ∧ c ≤ '9' then some (c.toNat - '0'.toNat)
    else if 'a' ≤ c ∧ c ≤ 'f' then some (c.toNat - 'a'.toNat + 10)
    else if 'A' ≤ c ∧ c ≤ 'F' then some (c.toNat - 'A'.toNat + 10)
    else none
  digit.filter (· < radix)

/-- The loop of `read_number`: the value so far and the number of digits so far. It fails on a value
that does not fit, and on a digit too many. -/
def readDigits (radix maxDigits limit : Nat) : Str → Nat → Nat → Option ((Nat × Nat) × Str)
  | [], result, count => some ((result, count), [])
  | c :: text, result, count =>
    match toDigit radix c with
    | none => some ((result, count), c :: text)
    | some digit =>
      if result * radix + digit < limit ∧ count + 1 ≤ maxDigits then
        readDigits radix maxDigits limit text (result * radix + digit) (count + 1)
      else none

/-- `read_number`. -/
def readNumber (radix maxDigits limit : Nat) (allowZeroPrefix : Bool) (text : Str) :
    Option (Nat × Str) :=
  match readDigits radix maxDigits limit text 0 0 with
  | none => none
  | some ((result, count), rest) =>
    if count = 0 then none
    else if !allowZeroPrefix && text.head? == some '0' && 1 < count then none
    else some (result, rest)

/-- `read_separator`: every part but the first has the separator in front. -/
def readSeparator {α : Type} (sep : Char) (index : Nat) (inner : Str → Option (α × Str))
    (text : Str) : Option (α × Str) :=
  if index = 0 then inner text
  else
    match text with
    | [] => none
    | c :: rest => if c = sep then inner rest else none

/-- One octet, at its place. -/
def readOctet (index : Nat) : Str → Option (UInt8 × Str) :=
  readSeparator '.' index fun text =>
    (readNumber 10 3 256 false text).map fun (octet, rest) => (octet.toUInt8, rest)

/-- `read_ipv4_addr`. -/
def readIpv4Addr (text : Str) : Option ((UInt8 × UInt8 × UInt8 × UInt8) × Str) := do
  let (a, text) ← readOctet 0 text
  let (b, text) ← readOctet 1 text
  let (c, text) ← readOctet 2 text
  let (d, text) ← readOctet 3 text
  return ((a, b, c, d), text)

/-- What `read_groups` returns: the groups, whether they end in an IPv4 address, and the rest. -/
structure Groups where
  groups : List UInt16
  endsInIpv4 : Bool
  rest : Str

/-- `read_groups`, with `room` groups to go. An IPv4 address needs room for two. -/
def readGroups : (room : Nat) → List UInt16 → Str → Groups
  | 0, groups, text => ⟨groups, false, text⟩
  | room + 1, groups, text =>
    let ipv4 := if 0 < room then readSeparator ':' groups.length readIpv4Addr text else none
    match ipv4 with
    | some ((a, b, c, d), rest) =>
      ⟨groups ++ [a.toUInt16 <<< 8 ||| b.toUInt16, c.toUInt16 <<< 8 ||| d.toUInt16], true, rest⟩
    | none =>
      match readSeparator ':' groups.length (readNumber 16 4 (2 ^ 16) true) text with
      | some (group, rest) => readGroups room (groups ++ [group.toUInt16]) rest
      | none => ⟨groups, false, text⟩

/-- `read_ipv6_addr`: eight groups, or a `::` between a head and a tail that leave room for it. -/
def readIpv6Addr (text : Str) : Option (List UInt16 × Str) :=
  let head := readGroups 8 [] text
  if head.groups.length = 8 then some (head.groups, head.rest)
  else if head.endsInIpv4 then none
  else
    match head.rest with
    | ':' :: ':' :: rest =>
      let tail := readGroups (7 - head.groups.length) [] rest
      let zeros := List.replicate (8 - head.groups.length - tail.groups.length) 0
      some (head.groups ++ zeros ++ tail.groups, tail.rest)
    | _ => none

/-- The sixteen octets of eight groups. -/
def octets (groups : List UInt16) : Vector UInt8 16 :=
  Vector.ofFn fun i => (groups.flatMap toBeBytes).getD i 0

/-! ### Writing -/

/-- The eight groups of sixteen octets. -/
def segments (octets : Vector UInt8 16) : List UInt16 :=
  List.ofFn fun i : Fin 8 => octets[2 * i.val].toUInt16 <<< 8 ||| octets[2 * i.val + 1].toUInt16

/-- A run of groups. -/
structure Span where
  start : Nat
  len : Nat

/-- The loop that finds the longest run of zero groups, the first one if there are several. -/
def longestZeroes : List UInt16 → (i : Nat) → (longest current : Span) → Span
  | [], _, longest, _ => longest
  | segment :: rest, i, longest, current =>
    if segment = 0 then
      let current : Span := ⟨if current.len = 0 then i else current.start, current.len + 1⟩
      longestZeroes rest (i + 1) (if longest.len < current.len then current else longest) current
    else longestZeroes rest (i + 1) longest ⟨0, 0⟩

/-- `fmt_subslice`. -/
def fmtSubslice (chunk : List UInt16) : Str :=
  [':'].intercalate (chunk.map fun segment => Nat.toDigits 16 segment.toNat)

end IpText

open IpText

/-- `parse::<Ipv4Addr>`. Text longer than any address is not read at all. -/
def parseIpv4Addr (text : Str) : Option (UInt8 × UInt8 × UInt8 × UInt8) :=
  if 15 < text.asBytes.length then none
  else
    match readIpv4Addr text with
    | some (addr, []) => some addr
    | _ => none

/-- `parse::<Ipv6Addr>`. -/
def parseIpv6Addr (text : Str) : Option (Vector UInt8 16) :=
  match readIpv6Addr text with
  | some (groups, []) => some (octets groups)
  | _ => none

/-- `Display` for `Ipv4Addr`. -/
def displayIpv4Addr (a b c d : UInt8) : Str :=
  ['.'].intercalate ([a, b, c, d].map fun octet => decimal octet.toNat)

/-- `Display` for `Ipv6Addr`. -/
def displayIpv6Addr (octets : Vector UInt8 16) : Str :=
  if octets.toList.take 12 = [0, 0, 0, 0, 0, 0, 0, 0, 0, 0, 0xff, 0xff] then
    "::ffff:".toList ++ displayIpv4Addr octets[12] octets[13] octets[14] octets[15]
  else
    let zeroes := longestZeroes (segments octets) 0 ⟨0, 0⟩ ⟨0, 0⟩
    if 1 < zeroes.len then
      fmtSubslice ((segments octets).take zeroes.start) ++ "::".toList ++
        fmtSubslice ((segments octets).drop (zeroes.start + zeroes.len))
    else fmtSubslice (segments octets)

end Rauta
