import ProtocolProxy.Digits

/-!
# Internet addresses and their text

The two address families, the text Rust's standard library prints for an address and the parser
it reads one with.  An IPv4 address prints as a dotted quad.  An IPv6 address prints its eight
segments in hexadecimal with the first longest run of two or more zero segments left out, and an
IPv4-mapped one with a dotted quad at the end.

The parser is the standard library's: readers that take what they recognise off the front of the
text, a dotted quad first and the IPv6 forms after it.
-/

namespace Net

open Digits

structure Ipv4Addr where
  a : UInt8
  b : UInt8
  c : UInt8
  d : UInt8
  deriving DecidableEq, Repr

/-- Eight 16-bit segments, the first one the most significant. -/
structure Ipv6Addr where
  segments : List UInt16
  length_eq : segments.length = 8
  deriving DecidableEq, Repr

inductive IpAddr
  | v4 (ip : Ipv4Addr)
  | v6 (ip : Ipv6Addr)
  deriving DecidableEq, Repr

namespace IpAddr

def isIpv4 : IpAddr → Bool
  | v4 _ => true
  | v6 _ => false

end IpAddr

/-! ## Printing -/

def octetText (o : UInt8) : List Char := Nat.toDigits 10 o.toNat

def segmentText (g : UInt16) : List Char := Nat.toDigits 16 g.toNat

def Ipv4Addr.text (ip : Ipv4Addr) : List Char :=
  octetText ip.a ++ '.' :: (octetText ip.b ++ '.' :: (octetText ip.c ++ '.' :: octetText ip.d))

/-- A run of segments. -/
structure Span where
  start : ℕ
  len : ℕ
  deriving DecidableEq, Repr

/-- The scan for the longest run of zero segments, from segment `i` on, with the longest run so
far and the run that ends here. -/
def scanZeros : ℕ → Span → Span → List UInt16 → Span
  | _, longest, _, [] => longest
  | i, longest, current, g :: gs =>
    if g = 0 then
      let current := ⟨if current.len = 0 then i else current.start, current.len + 1⟩
      scanZeros (i + 1) (if longest.len < current.len then current else longest) current gs
    else scanZeros (i + 1) longest ⟨0, 0⟩ gs

/-- Segments separated by colons. -/
def fmtSubslice : List UInt16 → List Char
  | [] => []
  | [g] => segmentText g
  | g :: gs => segmentText g ++ ':' :: fmtSubslice gs

/-- `Ipv6Addr::to_ipv4_mapped`: the last 32 bits of an address in `::ffff:0:0/96`. -/
def Ipv6Addr.toIpv4Mapped (ip : Ipv6Addr) : Option Ipv4Addr :=
  match ip.segments with
  | [0, 0, 0, 0, 0, 0xffff, g, h] =>
    some ⟨(g >>> 8).toUInt8, g.toUInt8, (h >>> 8).toUInt8, h.toUInt8⟩
  | _ => none

def Ipv6Addr.text (ip : Ipv6Addr) : List Char :=
  match ip.toIpv4Mapped with
  | some v4 => "::ffff:".toList ++ v4.text
  | none =>
    let zeroes := scanZeros 0 ⟨0, 0⟩ ⟨0, 0⟩ ip.segments
    if 1 < zeroes.len then
      fmtSubslice (ip.segments.take zeroes.start) ++
        ':' :: ':' :: fmtSubslice (ip.segments.drop (zeroes.start + zeroes.len))
    else fmtSubslice ip.segments

def IpAddr.text : IpAddr → List Char
  | .v4 ip => ip.text
  | .v6 ip => ip.text

/-! ## Parsing -/

/-- A reader takes a value off the front of a text, or takes nothing. -/
abbrev Reader (β : Type) := List Char → Option (β × List Char)

def readGivenChar (c : Char) : Reader Unit
  | x :: xs => if x = c then some ((), xs) else none
  | [] => none

/-- What `inner` reads, after the separator unless this is the first item. -/
def readSeparator {β : Type} (sep : Char) (first : Bool) (inner : Reader β) : Reader β := fun s =>
  if first then inner s else (readGivenChar sep s).bind fun p => inner p.2

def readOctet : Reader UInt8 := fun s =>
  (readNumber 10 3 256 false s).map fun p => (UInt8.ofNat p.1, p.2)

def readSegment : Reader UInt16 := fun s =>
  (readNumber 16 4 65536 true s).map fun p => (UInt16.ofNat p.1, p.2)

def readIpv4Addr : Reader Ipv4Addr := fun s => do
  let (a, s) ← readSeparator '.' true readOctet s
  let (b, s) ← readSeparator '.' false readOctet s
  let (c, s) ← readSeparator '.' false readOctet s
  let (d, s) ← readSeparator '.' false readOctet s
  return (⟨a, b, c, d⟩, s)

/-- The two segments that hold an IPv4 address. -/
def Ipv4Addr.toSegments (ip : Ipv4Addr) : List UInt16 :=
  [ip.a.toUInt16 <<< 8 ||| ip.b.toUInt16, ip.c.toUInt16 <<< 8 ||| ip.d.toUInt16]

/-- At most `limit` segments separated by colons, with an IPv4 address in place of the last two.
Also whether there was one. -/
def readGroups : (limit : ℕ) → (first : Bool) → List Char → List UInt16 × Bool × List Char
  | 0, _, s => ([], false, s)
  | limit + 1, first, s =>
    match if 0 < limit then readSeparator ':' first readIpv4Addr s else none with
    | some (v4, rest) => (v4.toSegments, true, rest)
    | none =>
      match readSeparator ':' first readSegment s with
      | some (g, rest) =>
        let (gs, ipv4, rest) := readGroups limit false rest
        (g :: gs, ipv4, rest)
      | none => ([], false, s)

/-- The address of eight segments. -/
def ofSegments (gs : List UInt16) : Option Ipv6Addr :=
  if h : gs.length = 8 then some ⟨gs, h⟩ else none

def readIpv6Addr : Reader Ipv6Addr := fun s => do
  let (head, headIpv4, s) := readGroups 8 true s
  if head.length = 8 then
    return (← ofSegments head, s)
  -- an IPv4 part is not allowed before `::`
  if headIpv4 then none
  let (_, s) ← readGivenChar ':' s
  let (_, s) ← readGivenChar ':' s
  let (tail, _, s) := readGroups (8 - (head.length + 1)) true s
  return (← ofSegments (head ++ List.replicate (8 - head.length - tail.length) 0 ++ tail), s)

def readIpAddr : Reader IpAddr := fun s =>
  match readIpv4Addr s with
  | some (ip, rest) => some (.v4 ip, rest)
  | none => (readIpv6Addr s).map fun p => (.v6 p.1, p.2)

/-- `Ipv4Addr::from_str`: the whole text is one dotted quad. -/
def Ipv4Addr.parse (s : List Char) : Option Ipv4Addr :=
  match readIpv4Addr s with
  | some (ip, []) => some ip
  | _ => none

/-- `IpAddr::from_str`: the whole text is one address. -/
def IpAddr.parse (s : List Char) : Option IpAddr :=
  match readIpAddr s with
  | some (ip, []) => some ip
  | _ => none

end Net
