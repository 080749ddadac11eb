import Mathlib.Data.Nat.Digits.Defs

/-!
Addresses of the internet, as `ipaddress` of Python 3.12 reads and classifies them.

The zone of a scoped address is checked and dropped, since no classification
looks at it.
-/

namespace EspressoLogs.Py

inductive IpAddress where
  | v4 (ip : BitVec 32)
  | v6 (ip : BitVec 128)
  deriving DecidableEq, Repr

namespace IpAddress

/-! ### Reading -/

/-- `_parse_octet`. -/
def parseOctet (cs : List Char) : Option (BitVec 32) :=
  if cs = [] ∨ ¬ cs.all Char.isDigit ∨ 3 < cs.length ∨ (cs ≠ ['0'] ∧ cs.head? = some '0') then none
  else
    let octet := Nat.ofDigitChars 10 cs 0
    if 255 < octet then none else some (BitVec.ofNat 32 octet)

/-- `IPv4Address._ip_int_from_string`. -/
def parseV4 (cs : List Char) : Option (BitVec 32) :=
  match cs.splitOn '.' with
  | [a, b, c, d] => do
      let a ← parseOctet a
      let b ← parseOctet b
      let c ← parseOctet c
      let d ← parseOctet d
      some (a <<< 24 ||| b <<< 16 ||| c <<< 8 ||| d)
  | _ => none

def hexDigit (c : Char) : Option Nat :=
  if c.isDigit then some (c.toNat - '0'.toNat)
  else if 'a' ≤ c ∧ c ≤ 'f' then some (c.toNat - 'a'.toNat + 10)
  else if 'A' ≤ c ∧ c ≤ 'F' then some (c.toNat - 'A'.toNat + 10)
  else none

/-- `_parse_hextet`. -/
def parseHextet (cs : List Char) : Option (BitVec 128) :=
  if cs = [] ∨ 4 < cs.length then none
  else (cs.mapM hexDigit).map fun digits =>
    BitVec.ofNat 128 (digits.foldl (fun n d => 16 * n + d) 0)

/-- The hextets of an address, with an IPv4 suffix as two of them. -/
def v6Parts (cs : List Char) : Option (List (List Char)) :=
  let parts := cs.splitOn ':'
  let suffix := parts.getLastD []
  if parts.length < 3 then none
  else if '.' ∈ suffix then
    (parseV4 suffix).map fun ip =>
      parts.dropLast ++ [Nat.toDigits 16 (ip.toNat / 65536), Nat.toDigits 16 (ip.toNat % 65536)]
  else some parts

/-- Where `::` stands, by the empty parts between the first and the last. -/
def skips (parts : List (List Char)) : List Nat :=
  (List.range parts.length).filter fun i =>
    0 < i && i < parts.length - 1 && (parts.getD i []).isEmpty

/-- The parts before and after the `::`. A part at an end is only empty next to it. -/
def endParts (parts : List (List Char)) (skip : Nat) :
    Option (List (List Char) × List (List Char)) := do
  let hi ← if (parts.headD []).isEmpty then (if skip = 1 then some [] else none)
    else some (parts.take skip)
  let lo ← if (parts.getLastD []).isEmpty then
      (if skip = parts.length - 2 then some [] else none)
    else some (parts.drop (skip + 1))
  some (hi, lo)

/-- The number that hextets spell. -/
def spellHextets (parts : List (List Char)) : Option (BitVec 128) :=
  (parts.mapM parseHextet).map fun hextets => hextets.foldl (fun ip h => ip <<< 16 ||| h) 0

/-- `IPv6Address._ip_int_from_string`. -/
def parseV6 (cs : List Char) : Option (BitVec 128) := do
  let parts ← v6Parts cs
  if 9 < parts.length then none
  else match skips parts with
    | [] =>
        if parts.length ≠ 8 ∨ parts.headD [] = [] ∨ parts.getLastD [] = [] then none
        else spellHextets parts
    | [skip] => do
        let (hi, lo) ← endParts parts skip
        if 7 < hi.length + lo.length then none
        else
          let high ← spellHextets hi
          let low ← spellHextets lo
          some (high <<< (16 * (8 - hi.length)) ||| low)
    | _ => none

/-- `_split_scope_id`, without the zone. -/
def dropZone (cs : List Char) : Option (List Char) :=
  match cs.splitOn '%' with
  | [address] => some address
  | [address, zone] => if zone = [] then none else some address
  | _ => none

/-- `ip_address(address)`, `none` for its `ValueError`. -/
def ofString (address : String) : Option IpAddress :=
  let cs := address.toList
  if '/' ∈ cs then none
  else match parseV4 cs with
    | some ip => some (.v4 ip)
    | none => ((dropZone cs).bind parseV6).map .v6

/-! ### Classes -/

/-- The addresses that share the first `len` bits with a base. -/
def inNetwork {w : Nat} (ip base : BitVec w) (len : Nat) : Bool := ip >>> (w - len) == base >>> (w - len)

/-- The networks of a list. -/
def inAny {w : Nat} (ip : BitVec w) (networks : List (BitVec w × Nat)) : Bool :=
  networks.any fun n => inNetwork ip n.1 n.2

def privateV4 : List (BitVec 32 × Nat) :=
  [(0x00000000#32, 8), (0x0a000000#32, 8), (0x7f000000#32, 8), (0xa9fe0000#32, 16),
   (0xac100000#32, 12), (0xc0000000#32, 24), (0xc00000aa#32, 31), (0xc0000200#32, 24),
   (0xc0a80000#32, 16),
   (0xc6120000#32, 15), (0xc6336400#32, 24), (0xcb007100#32, 24),
   (0xf0000000#32, 4), (0xffffffff#32, 32)]

def privateV4Exceptions : List (BitVec 32 × Nat) := [(0xc0000009#32, 32), (0xc000000a#32, 32)]

def privateV6 : List (BitVec 128 × Nat) :=
  [(0x1#128, 128), (0x0#128, 128), (0xffff00000000#128, 96), (0x64ff9b0001#128 <<< 80, 48),
   (0x0100#128 <<< 112, 64), (0x2001#128 <<< 112, 23), (0x20010db8#128 <<< 96, 32),
   (0x2002#128 <<< 112, 16), (0x3fff#128 <<< 112, 20), (0xfc00#128 <<< 112, 7),
   (0xfe80#128 <<< 112, 10)]

def privateV6Exceptions : List (BitVec 128 × Nat) :=
  [(0x20010001#128 <<< 96 ||| 1#128, 128), (0x20010001#128 <<< 96 ||| 2#128, 128),
   (0x20010003#128 <<< 96, 32), (0x200100040112#128 <<< 80, 48), (0x20010020#128 <<< 96, 28),
   (0x20010030#128 <<< 96, 28)]

def reservedV6 : List (BitVec 128 × Nat) :=
  [(0x0000#128 <<< 112, 8), (0x0100#128 <<< 112, 8), (0x0200#128 <<< 112, 7),
   (0x0400#128 <<< 112, 6), (0x0800#128 <<< 112, 5), (0x1000#128 <<< 112, 4),
   (0x4000#128 <<< 112, 3), (0x6000#128 <<< 112, 3), (0x8000#128 <<< 112, 3),
   (0xa000#128 <<< 112, 3), (0xc000#128 <<< 112, 3), (0xe000#128 <<< 112, 4),
   (0xf000#128 <<< 112, 5), (0xf800#128 <<< 112, 6), (0xfe00#128 <<< 112, 9)]

def isPrivateV4 (ip : BitVec 32) : Bool := inAny ip privateV4 && !inAny ip privateV4Exceptions

/-- The IPv4 address within `::ffff:0:0/96`. -/
def ipv4Mapped (ip : BitVec 128) : Option (BitVec 32) :=
  if ip >>> 32 = 0xffff#128 then some (ip.truncate 32) else none

def isPrivate : IpAddress → Bool
  | v4 ip => isPrivateV4 ip
  | v6 ip =>
      match ipv4Mapped ip with
      | some mapped => isPrivateV4 mapped
      | none => inAny ip privateV6 && !inAny ip privateV6Exceptions

def isLoopback : IpAddress → Bool
  | v4 ip => inNetwork ip 0x7f000000#32 8
  | v6 ip => ip == 1#128

def isLinkLocal : IpAddress → Bool
  | v4 ip => inNetwork ip 0xa9fe0000#32 16
  | v6 ip => inNetwork ip (0xfe80#128 <<< 112) 10

def isReserved : IpAddress → Bool
  | v4 ip => inNetwork ip 0xf0000000#32 4
  | v6 ip => inAny ip reservedV6

example : (ofString "169.254.169.254").map isLinkLocal = some true := by decide +kernel

example : ofString "fe80::1%eth0" = some (.v6 (0xfe80#128 <<< 112 ||| 1#128)) := by decide +kernel

end IpAddress

end EspressoLogs.Py
