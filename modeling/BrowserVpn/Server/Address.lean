import BrowserVpn.Net.Prefix

/-!
# Server.Address — the addresses the proxy may reach

`netip.Addr` as the server uses it, with the predicates of the package that
`publicAddress` asks, and `publicAddress` itself: what is not globally routable,
or encodes another address, is no destination.
-/

namespace BrowserVpn

open Net

/-- A Go string: its bytes. -/
abbrev GoString := List UInt8

/-- The bytes of a literal in ASCII. -/
def go (s : String) : GoString := s.toList.map fun c => c.toNat.toUInt8

/-- `netip.Addr`. `invalid` is its zero value, an empty zone is none. -/
inductive Addr where
  | invalid
  | v4 (a : BitVec 32)
  | v6 (a : BitVec 128) (zone : GoString)
deriving DecidableEq

/-- What the server takes from `netip`: `ParseAddr` and the text of an address. -/
class Netip where
  parseAddr : GoString → Option Addr
  text : Addr → GoString

/-- A parser that knows a single literal. -/
@[reducible] def Netip.sample : Netip where
  parseAddr s := if s = go "8.8.8.8" then some (.v4 0x08080808#32) else none
  text _ := go "8.8.8.8"

/-- `netip.Prefix`. -/
inductive Network where
  | v4 (p : Prefix 32)
  | v6 (p : Prefix 128)

/-- A network has no addresses with a zone and none of the other family. -/
def Network.contains : Network → Addr → Bool
  | .v4 p, .v4 a => p.contains a
  | .v6 p, .v6 a [] => p.contains a
  | _, _ => false

/-- `::ffff:0:0/96`, the IPv4-mapped IPv6 addresses. -/
def mappedIPv6 : Prefix 128 := .v6 [0, 0, 0, 0, 0, 0xffff] 96

/-- The IPv4 address that an IPv4-mapped one ends with. -/
def embeddedIPv4 (a : BitVec 128) : BitVec 32 := a.setWidth 32

namespace Addr

def isValid : Addr → Bool
  | invalid => false
  | _ => true

def is6 : Addr → Bool
  | v6 _ _ => true
  | _ => false

def zone : Addr → GoString
  | v6 _ zone => zone
  | _ => []

/-- An IPv4-mapped address becomes the IPv4 address, without its zone. -/
def unmap : Addr → Addr
  | v6 a zone => if mappedIPv6.contains a then v4 (embeddedIPv4 a) else v6 a zone
  | a => a

def isLoopback : Addr → Bool
  | invalid => false
  | v4 a => (Prefix.v4 127 0 0 0 8).contains a
  | v6 a _ => a == 1#128

def isMulticast : Addr → Bool
  | invalid => false
  | v4 a => (Prefix.v4 224 0 0 0 4).contains a
  | v6 a _ => (Prefix.v6 [0xff00] 8).contains a

def isLinkLocalUnicast : Addr → Bool
  | invalid => false
  | v4 a => (Prefix.v4 169 254 0 0 16).contains a
  | v6 a _ => (Prefix.v6 [0xfe80] 10).contains a

/-- The blocks of RFC 1918 and RFC 4193. -/
def isPrivate : Addr → Bool
  | invalid => false
  | v4 a => (Prefix.v4 10 0 0 0 8).contains a || (Prefix.v4 172 16 0 0 12).contains a ||
      (Prefix.v4 192 168 0 0 16).contains a
  | v6 a _ => (Prefix.v6 [0xfc00] 7).contains a

/-- Private addresses are global unicast addresses too. -/
def isGlobalUnicast : Addr → Bool
  | invalid => false
  | v4 a => a != 0#32 && a != BitVec.allOnes 32 && !(v4 a).isLoopback && !(v4 a).isMulticast &&
      !(v4 a).isLinkLocalUnicast
  | v6 a zone => !(a == 0#128 && zone == []) && !(v6 a zone).isLoopback &&
      !(v6 a zone).isMulticast && !(v6 a zone).isLinkLocalUnicast

@[simp] theorem unmap_invalid : unmap invalid = invalid := rfl
@[simp] theorem unmap_v4 (a : BitVec 32) : unmap (v4 a) = v4 a := rfl

theorem unmap_v6_mapped {a : BitVec 128} (h : mappedIPv6.contains a = true) (zone : GoString) :
    unmap (v6 a zone) = v4 (embeddedIPv4 a) := if_pos h

theorem unmap_v6 {a : BitVec 128} (h : mappedIPv6.contains a = false) (zone : GoString) :
    unmap (v6 a zone) = v6 a zone := if_neg (by simp [h])

/-- Nothing is mapped twice. -/
@[simp] theorem unmap_unmap (a : Addr) : a.unmap.unmap = a.unmap := by
  cases a with
  | invalid => rfl
  | v4 a => rfl
  | v6 a zone =>
      cases h : mappedIPv6.contains a with
      | true => rw [unmap_v6_mapped h, unmap_v4]
      | false => rw [unmap_v6 h, unmap_v6 h]

end Addr

/-- Non-public ranges, and those that can encode another address. -/
def blockedRanges : List Network :=
  [.v4 (.v4 0 0 0 0 8), .v4 (.v4 100 64 0 0 10), .v4 (.v4 192 0 0 0 24), .v4 (.v4 192 0 2 0 24),
    .v4 (.v4 192 88 99 0 24), .v4 (.v4 198 18 0 0 15), .v4 (.v4 198 51 100 0 24),
    .v4 (.v4 203 0 113 0 24), .v4 (.v4 240 0 0 0 4), .v6 (.v6 [0x2001] 23),
    .v6 (.v6 [0x2001, 0xdb8] 32), .v6 (.v6 [0x2002] 16)]

def publicIPv6 : Prefix 128 := .v6 [0x2000] 3

/-- What `publicAddress` asks of an address that is unmapped. -/
def publicUnmapped (addr : Addr) : Bool :=
  if !addr.isValid || !addr.isGlobalUnicast || addr.isPrivate || addr.isLoopback ||
      addr.isLinkLocalUnicast then false
  else if addr.is6 && !(Network.v6 publicIPv6).contains addr then false
  else !blockedRanges.any fun network => network.contains addr

def publicAddress (addr : Addr) : Bool := publicUnmapped addr.unmap

/-- An address is judged like the one it embeds. -/
@[simp] theorem publicAddress_unmap (a : Addr) : publicAddress a.unmap = publicAddress a := by
  rw [publicAddress, Addr.unmap_unmap, publicAddress]

/-- No address with a zone is public. -/
theorem zone_of_publicAddress {a : Addr} (h : publicAddress a = true) : a.unmap.zone = [] := by
  rw [publicAddress, publicUnmapped] at h
  cases hu : a.unmap with
  | invalid => rfl
  | v4 a => rfl
  | v6 a zone =>
      cases zone with
      | nil => rfl
      | cons b zone => simp [hu, Addr.is6, Network.contains] at h

section

variable [Netip]

/-- `selfAddressFlags.Set`: the flags with one more address, or an error. -/
def setSelfAddress (addresses : List Addr) (value : GoString) : Option (List Addr) :=
  match Netip.parseAddr value with
  | none => none
  | some address =>
      if address.zone != [] || !publicAddress address then none
      else some (addresses ++ [address.unmap])

end

end BrowserVpn
