import Mathlib.Algebra.Group.Nat.Defs
import Mathlib.Data.List.Basic

/-!
# Socket addresses

Parsing and printing of socket addresses as the Rust standard library does it: dotted IPv4
without leading zeros, bracketed IPv6 with `::`, a trailing IPv4 part and a scope id, and the
shortest printed form of an IPv6 address.
-/

namespace LabStreamGate

structure Ipv4Addr where
  a : UInt8
  b : UInt8
  c : UInt8
  d : UInt8
  deriving DecidableEq, Repr

structure Ipv6Addr where
  segments : List UInt16
  length : segments.length = 8
  deriving DecidableEq

def Ipv4Addr.octets (ip : Ipv4Addr) : List UInt8 := [ip.a, ip.b, ip.c, ip.d]

inductive IpAddr
  | v4 (ip : Ipv4Addr)
  | v6 (ip : Ipv6Addr)
  deriving DecidableEq

structure SocketAddr where
  ip : IpAddr
  port : UInt16
  deriving DecidableEq

/-! ## Parsing -/

/-- A parser takes what it recognizes off the front; it takes nothing where it fails. -/
abbrev Parser (α : Type) := List Char → Option (α × List Char)

def digitValue (radix : Nat) (c : Char) : Option Nat :=
  let v :=
    if c.isDigit then some (c.toNat - '0'.toNat)
    else if 'a' ≤ c ∧ c ≤ 'z' then some (c.toNat - 'a'.toNat + 10)
    else if 'A' ≤ c ∧ c ≤ 'Z' then some (c.toNat - 'A'.toNat + 10)
    else none
  v.filter (· < radix)

def numberValue (radix : Nat) (ds : List Char) : Nat :=
  ds.foldl (fun n c ↦ n * radix + (digitValue radix c).getD 0) 0

namespace Parser

def givenChar (c : Char) : Parser Unit
  | d :: cs => if d = c then some ((), cs) else none
  | [] => none

/-- All digits that come next, as a number up to `limit`. -/
def number (radix : Nat) (maxDigits : Option Nat) (allowZeroPrefix : Bool) (limit : Nat) :
    Parser Nat := fun cs ↦
  let ds := cs.takeWhile fun c ↦ (digitValue radix c).isSome
  if ds = [] then none
  else if maxDigits.any (· < ds.length) then none
  else if !allowZeroPrefix && ds.head? == some '0' && 1 < ds.length then none
  else if numberValue radix ds ≤ limit then some (numberValue radix ds, cs.drop ds.length)
  else none

def octet : Parser UInt8 := fun cs ↦
  (number 10 (some 3) false 255 cs).map fun r ↦ (UInt8.ofNat r.1, r.2)

def ipv4Addr : Parser Ipv4Addr := fun cs ↦ do
  let (a, cs) ← octet cs
  let (_, cs) ← givenChar '.' cs
  let (b, cs) ← octet cs
  let (_, cs) ← givenChar '.' cs
  let (c, cs) ← octet cs
  let (_, cs) ← givenChar '.' cs
  let (d, cs) ← octet cs
  return (⟨a, b, c, d⟩, cs)

/-- `p` after a `sep`, which the first of a sequence does without. -/
def separated {α : Type} (sep : Char) (first : Bool) (p : Parser α) : Parser α := fun cs ↦
  if first then p cs else (givenChar sep cs).bind fun r ↦ p r.2

/-- Up to `n` groups of an IPv6 address, and whether they end in an IPv4 part.  That part takes
the place of two groups. -/
def groups (first : Bool) : Nat → List Char → List UInt16 × Bool × List Char
  | 0, cs => ([], false, cs)
  | n + 1, cs =>
    match if 0 < n then separated ':' first ipv4Addr cs else none with
    | some (ip, cs) =>
      ([ip.a.toUInt16 * 256 + ip.b.toUInt16, ip.c.toUInt16 * 256 + ip.d.toUInt16], true, cs)
    | none =>
      match separated ':' first (number 16 (some 4) true 65535) cs with
      | some (g, cs) =>
        let (gs, ipv4, cs) := groups false n cs
        (UInt16.ofNat g :: gs, ipv4, cs)
      | none => ([], false, cs)

def ipv6Addr : Parser Ipv6Addr := fun cs ↦ do
  let (head, ipv4, cs) := groups true 8 cs
  if h : head.length = 8 then return (⟨head, h⟩, cs)
  if ipv4 then none
  let (_, cs) ← givenChar ':' cs
  let (_, cs) ← givenChar ':' cs
  let (tail, _, cs) := groups true (8 - (head.length + 1)) cs
  let all := head ++ List.replicate (8 - (head.length + tail.length)) 0 ++ tail
  if h : all.length = 8 then return (⟨all, h⟩, cs)
  none

def port : Parser UInt16 := fun cs ↦ do
  let (_, cs) ← givenChar ':' cs
  let (n, cs) ← number 10 none true 65535 cs
  return (UInt16.ofNat n, cs)

def socketAddrV4 : Parser SocketAddr := fun cs ↦ do
  let (ip, cs) ← ipv4Addr cs
  let (port, cs) ← port cs
  return (⟨.v4 ip, port⟩, cs)

/-- The scope id is read and has no part in the address and the port. -/
def scopeId : Parser Nat := fun cs ↦
  (givenChar '%' cs).bind fun r ↦ number 10 none true (2 ^ 32 - 1) r.2

def socketAddrV6 : Parser SocketAddr := fun cs ↦ do
  let (_, cs) ← givenChar '[' cs
  let (ip, cs) ← ipv6Addr cs
  let cs := ((scopeId cs).map Prod.snd).getD cs
  let (_, cs) ← givenChar ']' cs
  let (port, cs) ← port cs
  return (⟨.v6 ip, port⟩, cs)

end Parser

/-- `SocketAddr::from_str`: the whole text has to be an address. -/
def SocketAddr.fromStr (s : String) : Option SocketAddr :=
  match (Parser.socketAddrV4 s.toList).or (Parser.socketAddrV6 s.toList) with
  | some (address, []) => some address
  | _ => none

/-! ## Printing -/

def Ipv4Addr.text (ip : Ipv4Addr) : List Char :=
  Nat.toDigits 10 ip.a.toNat ++ '.' :: Nat.toDigits 10 ip.b.toNat ++
    '.' :: Nat.toDigits 10 ip.c.toNat ++ '.' :: Nat.toDigits 10 ip.d.toNat

/-- `Ipv6Addr::to_ipv4_mapped`: the addresses `::ffff:a.b.c.d`. -/
def Ipv6Addr.toIpv4Mapped (ip : Ipv6Addr) : Option Ipv4Addr :=
  match ip.segments with
  | [0, 0, 0, 0, 0, 0xffff, ab, cd] =>
    some ⟨(ab / 256).toUInt8, ab.toUInt8, (cd / 256).toUInt8, cd.toUInt8⟩
  | _ => none

/-- The start and the length of the first longest run of zeros; `cur` is the run being read. -/
def longestZeros : List UInt16 → Nat → Nat × Nat → Nat × Nat → Nat × Nat
  | [], _, _, best => best
  | s :: ss, i, cur, best =>
    if s = 0 then
      let cur := (if cur.2 = 0 then i else cur.1, cur.2 + 1)
      longestZeros ss (i + 1) cur (if best.2 < cur.2 then cur else best)
    else longestZeros ss (i + 1) (0, 0) best

def groupsText (segments : List UInt16) : List Char :=
  [':'].intercalate (segments.map fun s ↦ Nat.toDigits 16 s.toNat)

def Ipv6Addr.text (ip : Ipv6Addr) : List Char :=
  match ip.toIpv4Mapped with
  | some ipv4 => "::ffff:".toList ++ ipv4.text
  | none =>
    let zeros := longestZeros ip.segments 0 (0, 0) (0, 0)
    if 1 < zeros.2 then
      groupsText (ip.segments.take zeros.1) ++ "::".toList ++
        groupsText (ip.segments.drop (zeros.1 + zeros.2))
    else groupsText ip.segments

def IpAddr.toString : IpAddr → String
  | .v4 ip => String.ofList ip.text
  | .v6 ip => String.ofList ip.text

example : (SocketAddr.fromStr "10.0.0.5:8080").map (·.ip.toString) = some "10.0.0.5" := by decide
example : (SocketAddr.fromStr "[2001:DB8::1%3]:0443").map (·.ip.toString) = some "2001:db8::1" := by
  decide
example : (SocketAddr.fromStr "[::ffff:10.0.0.5]:1").map (·.ip.toString) =
    some "::ffff:10.0.0.5" := by decide
example : SocketAddr.fromStr "10.0.0.05:8080" = none := by decide

end LabStreamGate
