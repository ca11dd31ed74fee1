import WebhookInbox.Library.Text
import Mathlib.Data.Nat.Digits.Defs

/-!
# IP addresses

Addresses of both versions by their bits, the predicates of Python's `ipaddress`
with its network tables, and the text that `str` gives an address. The tables
are those of Python 3.14.
-/

namespace Library

/-- An IPv4 address, or an IPv6 address with the zone it may be written with. -/
inductive IpAddress where
  | v4 (bits : BitVec 32)
  | v6 (bits : BitVec 128) (scope : Option Str)
deriving DecidableEq

namespace IpAddress

/-- A network: its lowest address and the number of fixed leading bits. -/
structure Network (width : Nat) where
  address : BitVec width
  length : Nat
deriving DecidableEq

/-- `address in network` -/
def Network.contains {width : Nat} (network : Network width) (address : BitVec width) : Bool :=
  address >>> (width - network.length) == network.address >>> (width - network.length)

/-- The networks differ in the leading bits that both fix. -/
def Network.apart {width : Nat} (first second : Network width) : Bool :=
  first.address >>> (width - min first.length second.length) !=
    second.address >>> (width - min first.length second.length)

section
variable {width : Nat} {network first second : Network width} {address : BitVec width}

/-- The leading bits of an address are a quotient of its number. -/
theorem shifted_iff {address other : BitVec width} {places : Nat} :
    address >>> places = other >>> places ↔
      address.toNat / 2 ^ places = other.toNat / 2 ^ places := by
  rw [← BitVec.toNat_inj, BitVec.toNat_ushiftRight, BitVec.toNat_ushiftRight,
    Nat.shiftRight_eq_div_pow, Nat.shiftRight_eq_div_pow]

/-- An address in a network agrees with it in fewer bits as well. -/
theorem Network.agrees (inside : network.contains address = true) {shorter : Nat}
    (fewer : shorter ≤ network.length) :
    address >>> (width - shorter) = network.address >>> (width - shorter) := by
  obtain ⟨more, places⟩ := Nat.exists_eq_add_of_le (Nat.sub_le_sub_left fewer width)
  have same := shifted_iff.mp (beq_iff_eq.mp inside)
  rw [shifted_iff, places, Nat.pow_add, ← Nat.div_div_eq_div_mul, ← Nat.div_div_eq_div_mul, same]

/-- No address lies in two networks that are apart. -/
theorem Network.not_contains (apart : first.apart second = true)
    (inside : first.contains address = true) : second.contains address = false := by
  rw [← Bool.not_eq_true]
  intro other
  have one := Network.agrees inside (Nat.min_le_left first.length second.length)
  have two := Network.agrees other (Nat.min_le_right first.length second.length)
  exact bne_iff_ne.mp apart (one.symm.trans two)

end

/-- The IPv4 network written `a.b.c.d/length`. -/
def v4Network (a b c d length : Nat) : Network 32 :=
  ⟨BitVec.ofNat 32 (((a * 256 + b) * 256 + c) * 256 + d), length⟩

/-- The IPv6 network with the given leading groups and zeros after them. -/
def v6Network (groups : List Nat) (length : Nat) : Network 128 :=
  ⟨BitVec.ofNat 128 (groups.foldl (fun value group => value * 65536 + group) 0 *
    65536 ^ (8 - groups.length)), length⟩

def v4PrivateNetworks : List (Network 32) :=
  [v4Network 0 0 0 0 8, v4Network 10 0 0 0 8, v4Network 127 0 0 0 8, v4Network 169 254 0 0 16,
    v4Network 172 16 0 0 12, v4Network 192 0 0 0 24, v4Network 192 0 0 170 31,
    v4Network 192 0 2 0 24, v4Network 192 168 0 0 16, v4Network 198 18 0 0 15,
    v4Network 198 51 100 0 24, v4Network 203 0 113 0 24, v4Network 240 0 0 0 4,
    v4Network 255 255 255 255 32]

def v4PrivateExceptions : List (Network 32) :=
  [v4Network 192 0 0 9 32, v4Network 192 0 0 10 32]

def v6PrivateNetworks : List (Network 128) :=
  [v6Network [0, 0, 0, 0, 0, 0, 0, 1] 128, v6Network [] 128, v6Network [0, 0, 0, 0, 0, 0xffff] 96,
    v6Network [0x64, 0xff9b, 1] 48, v6Network [0x100] 64, v6Network [0x2001] 23,
    v6Network [0x2001, 0xdb8] 32, v6Network [0x2002] 16, v6Network [0x3fff] 20,
    v6Network [0xfc00] 7, v6Network [0xfe80] 10]

def v6PrivateExceptions : List (Network 128) :=
  [v6Network [0x2001, 1, 0, 0, 0, 0, 0, 1] 128, v6Network [0x2001, 1, 0, 0, 0, 0, 0, 2] 128,
    v6Network [0x2001, 3] 32, v6Network [0x2001, 4, 0x112] 48, v6Network [0x2001, 0x20] 28,
    v6Network [0x2001, 0x30] 28]

def v6ReservedNetworks : List (Network 128) :=
  [v6Network [0] 8, v6Network [0x100] 8, v6Network [0x200] 7, v6Network [0x400] 6,
    v6Network [0x800] 5, v6Network [0x1000] 4, v6Network [0x4000] 3, v6Network [0x6000] 3,
    v6Network [0x8000] 3, v6Network [0xA000] 3, v6Network [0xC000] 3, v6Network [0xE000] 4,
    v6Network [0xF000] 5, v6Network [0xF800] 6, v6Network [0xFE00] 9]

/-- `address.ipv4_mapped`, which only IPv6 addresses in `::ffff:0:0/96` have. -/
def ipv4Mapped : IpAddress → Option IpAddress
  | .v4 _ => none
  | .v6 bits _ =>
      if (v6Network [0, 0, 0, 0, 0, 0xffff] 96).contains bits then some (.v4 (bits.setWidth 32))
      else none

/-- `address.is_private`, on an address that maps no other one. -/
def isPrivate : IpAddress → Bool
  | .v4 bits =>
      v4PrivateNetworks.any (·.contains bits) && v4PrivateExceptions.all (!·.contains bits)
  | .v6 bits _ =>
      v6PrivateNetworks.any (·.contains bits) && v6PrivateExceptions.all (!·.contains bits)

/-- `address.is_loopback` -/
def isLoopback : IpAddress → Bool
  | .v4 bits => (v4Network 127 0 0 0 8).contains bits
  | .v6 bits _ => bits == 1

/-- `address.is_link_local` -/
def isLinkLocal : IpAddress → Bool
  | .v4 bits => (v4Network 169 254 0 0 16).contains bits
  | .v6 bits _ => (v6Network [0xfe80] 10).contains bits

/-- `address.is_multicast` -/
def isMulticast : IpAddress → Bool
  | .v4 bits => (v4Network 224 0 0 0 4).contains bits
  | .v6 bits _ => (v6Network [0xff00] 8).contains bits

/-- `address.is_reserved` -/
def isReserved : IpAddress → Bool
  | .v4 bits => (v4Network 240 0 0 0 4).contains bits
  | .v6 bits _ => v6ReservedNetworks.any (·.contains bits)

/-- `address.is_unspecified` -/
def isUnspecified : IpAddress → Bool
  | .v4 bits => bits == 0
  | .v6 bits _ => bits == 0

/-- `_public_network`: the shared address space, which is neither private nor global. -/
def v4SharedNetwork : Network 32 := v4Network 100 64 0 0 10

/-- `address.is_global`. A mapped address is judged by the IPv4 address inside it. -/
def isGlobal (address : IpAddress) : Bool :=
  match address.ipv4Mapped.getD address with
  | .v4 bits => !v4SharedNetwork.contains bits && !isPrivate (.v4 bits)
  | .v6 bits scope => !isPrivate (.v6 bits scope)

/-- The groups of `width` bits of a number, most significant first. -/
def groups (count width value : Nat) : List Nat :=
  (List.range count).map (fun index => value / 2 ^ ((count - 1 - index) * width) % 2 ^ width)

/-- Join the parts with a separator between them. -/
def joined (separator : Str) (parts : List Str) : Str := separator.intercalate parts

/-- Decimal octets with dots. -/
def v4Text (bits : BitVec 32) : Str :=
  joined (lit ".") ((groups 4 8 bits.toNat).map (fun octet => lit (toString octet)))

/-- A group in lower-case hexadecimal without leading zeros. -/
def hextet (group : Nat) : Str := (Nat.toDigits 16 group).map CodePoint.ofChar

/-- Length of the run of zero groups that starts at an index. -/
def zeroRun (hextets : List Nat) (index : Nat) : Nat :=
  ((hextets.drop index).takeWhile (· == 0)).length

/-- Start of the first longest run of zero groups. -/
def longestZeroRun (hextets : List Nat) : Nat :=
  (List.range hextets.length).foldl
    (fun best index => if zeroRun hextets best < zeroRun hextets index then index else best) 0

/-- Groups with colons; the first longest run of two or more zeros becomes `::`. -/
def v6GroupsText (hextets : List Nat) : Str :=
  let start := longestZeroRun hextets
  let run := zeroRun hextets start
  if 1 < run then
    joined (lit ":") ((hextets.take start).map hextet) ++ lit "::" ++
      joined (lit ":") ((hextets.drop (start + run)).map hextet)
  else joined (lit ":") (hextets.map hextet)

/-- The text of an IPv6 address without its zone. A mapped one ends in dotted decimal. -/
def v6Text (bits : BitVec 128) : Str :=
  match ipv4Mapped (.v6 bits none) with
  | some (.v4 mapped) =>
      v6GroupsText (groups 8 16 (bits.toNat / 2 ^ 32)) ++ lit ":" ++ v4Text mapped
  | _ => v6GroupsText (groups 8 16 bits.toNat)

/-- `str(address)` -/
def text : IpAddress → Str
  | .v4 bits => v4Text bits
  | .v6 bits none => v6Text bits
  | .v6 bits (some scope) => v6Text bits ++ lit "%" ++ scope

example : text (.v4 0x5db8d822) = lit "93.184.216.34" := by decide
example : text (.v6 0x26064700000000000000000000001111 none) = lit "2606:4700::1111" := by decide

end IpAddress

end Library
