import BrowserVpn.Server.Address

/-!
# Installer.PublicIp — the installer's notion of a public address

`is_public_ip` on top of `ipaddress`: what that library calls global, minus a
table, where the proxy has five library predicates and the same table. On IPv4
and on all of IPv6 but one block the two agree. The block is `3fff::/20`, which
`ipaddress` knows as documentation and the table does not have.
-/

namespace BrowserVpn

open Net

/-- `ipaddress.IPv4Address` and `ipaddress.IPv6Address`. -/
inductive IpAddress where
  | v4 (a : BitVec 32)
  | v6 (a : BitVec 128) (scopeId : Option String)
deriving DecidableEq

/-- What the Python code takes from `ipaddress`: how it reads an address, with
`none` for a `ValueError`. -/
class Ipaddress where
  ip_address : String → Option IpAddress

/-- `ipaddress` knows these blocks as special, -/
def specialIPv4 : List (Prefix 32) :=
  [.v4 0 0 0 0 8, .v4 10 0 0 0 8, .v4 100 64 0 0 10, .v4 127 0 0 0 8, .v4 169 254 0 0 16,
    .v4 172 16 0 0 12, .v4 192 0 0 0 24, .v4 192 0 2 0 24, .v4 192 168 0 0 16,
    .v4 198 18 0 0 15, .v4 198 51 100 0 24, .v4 203 0 113 0 24, .v4 240 0 0 0 4]

/-- except for these addresses. -/
def exceptionsIPv4 : List (Prefix 32) := [.v4 192 0 0 9 32, .v4 192 0 0 10 32]

def specialIPv6 : List (Prefix 128) :=
  [.v6 [] 128, .v6 [0, 0, 0, 0, 0, 0, 0, 1] 128, mappedIPv6, .v6 [0x64, 0xff9b, 1] 48,
    .v6 [0x100] 64, .v6 [0x2001] 23, .v6 [0x2001, 0xdb8] 32, .v6 [0x2002] 16, .v6 [0x3fff] 20,
    .v6 [0xfc00] 7, .v6 [0xfe80] 10]

def exceptionsIPv6 : List (Prefix 128) :=
  [.v6 [0x2001, 1, 0, 0, 0, 0, 0, 1] 128, .v6 [0x2001, 1, 0, 0, 0, 0, 0, 2] 128,
    .v6 [0x2001, 3] 32, .v6 [0x2001, 4, 0x112] 48, .v6 [0x2001, 0x20] 28, .v6 [0x2001, 0x30] 28]

namespace IpAddress

/-- In one of the blocks and in no exception. -/
def isSpecial {w : Nat} (special exceptions : List (Prefix w)) (a : BitVec w) : Bool :=
  special.any (fun p => p.contains a) && exceptions.all fun p => !p.contains a

def isGlobal : IpAddress → Bool
  | v4 a => !isSpecial specialIPv4 exceptionsIPv4 a
  | v6 a _ => !isSpecial specialIPv6 exceptionsIPv6 a

def isMulticast : IpAddress → Bool
  | v4 a => (Prefix.v4 224 0 0 0 4).contains a
  | v6 a _ => (Prefix.v6 [0xff00] 8).contains a

def scopeId : IpAddress → Option String
  | v4 _ => none
  | v6 _ scopeId => scopeId

/-- `address in network`. -/
def isIn : IpAddress → Network → Bool
  | v4 a, .v4 p => p.contains a
  | v6 a _, .v6 p => p.contains a
  | _, _ => false

/-- `_BLOCKED_RANGES`. -/
def blockedRanges : List Network :=
  [.v4 (.v4 0 0 0 0 8), .v4 (.v4 100 64 0 0 10), .v4 (.v4 192 0 0 0 24), .v4 (.v4 192 0 2 0 24),
    .v4 (.v4 192 88 99 0 24), .v4 (.v4 198 18 0 0 15), .v4 (.v4 198 51 100 0 24),
    .v4 (.v4 203 0 113 0 24), .v4 (.v4 240 0 0 0 4), .v6 (.v6 [0x2001] 23),
    .v6 (.v6 [0x2001, 0xdb8] 32), .v6 (.v6 [0x2002] 16)]

/-- `_PUBLIC_IPV6`. -/
def publicIPv6 : Prefix 128 := .v6 [0x2000] 3

/-- What is asked of an address that is not mapped. -/
def isPublicUnmapped (address : IpAddress) : Bool :=
  if !address.isGlobal || address.isMulticast then false
  else match address with
    | v6 a _ =>
        if !publicIPv6.contains a then false else !blockedRanges.any fun p => address.isIn p
    | v4 _ => !blockedRanges.any fun p => address.isIn p

/-- The body of `is_public_ip`, for a literal that reads as `address`. -/
def isPublic : IpAddress → Bool
  | v4 a => isPublicUnmapped (v4 a)
  | v6 _ (some _) => false
  | v6 a none =>
      if mappedIPv6.contains a then isPublicUnmapped (v4 (embeddedIPv4 a))
      else isPublicUnmapped (v6 a none)

end IpAddress

def isPublicIp [Ipaddress] (value : String) : Bool :=
  match Ipaddress.ip_address value with
  | none => false
  | some address => address.isPublic

namespace IpAddress

/-- The same address for the server. -/
def toAddr : IpAddress → Addr
  | v4 a => .v4 a
  | v6 a none => .v6 a []
  | v6 a (some scope) => .v6 a (go scope)

/-! ## The two tables -/

/-- Within a prefix another one is everything or nothing; which, evaluates. -/
theorem contains_within {w : Nat} {p q : Prefix w} {a : BitVec w} (b : Bool)
    (h : p.bits ≤ q.bits ∧ p.contains q.addr = b) (ha : q.contains a = true) :
    p.contains a = b := (Prefix.contains_of_contains h.1 ha).trans h.2

/-- On IPv4 both sides ask the same, in different words. -/
theorem isPublic_v4 (a : BitVec 32) : isPublic (v4 a) = publicAddress (.v4 a) := by
  -- The exceptions of `ipaddress` are in a blocked range, as the two ends of the space are.
  have h9 : (Prefix.v4 192 0 0 9 32).contains a = true → (Prefix.v4 192 0 0 0 24).contains a = true :=
    contains_within true (by decide)
  have h10 : (Prefix.v4 192 0 0 10 32).contains a = true →
      (Prefix.v4 192 0 0 0 24).contains a = true := contains_within true (by decide)
  have hzero : a = 0#32 → (Prefix.v4 0 0 0 0 8).contains a = true := by
    rintro rfl
    decide
  have hones : a = BitVec.allOnes 32 → (Prefix.v4 240 0 0 0 4).contains a = true := by
    rintro rfl
    decide
  simp only [isPublic, isPublicUnmapped, isGlobal, isSpecial, isMulticast, isIn, specialIPv4,
    exceptionsIPv4, blockedRanges, publicAddress, publicUnmapped, Addr.unmap_v4, Addr.isValid,
    Addr.isGlobalUnicast, Addr.isPrivate, Addr.isLoopback, Addr.isMulticast,
    Addr.isLinkLocalUnicast, Addr.is6, BrowserVpn.blockedRanges, Network.contains, List.any_cons,
    List.any_nil, List.all_cons, List.all_nil]
  grind

/-- The block that `ipaddress` knows and the table of the server does not. -/
def unlisted : Prefix 128 := .v6 [0x3fff] 20

/-- Outside `2000::/3` both sides reject. Inside, both reject three blocks, and the
installer a fourth. -/
theorem isPublic_v6 {a : BitVec 128} (hmapped : mappedIPv6.contains a = false) :
    isPublic (v6 a none) = (publicAddress (.v6 a []) && !unlisted.contains a) := by
  simp only [isPublic, publicAddress, Addr.unmap_v6 hmapped, hmapped, Bool.false_eq_true, if_false]
  cases hpublic : publicIPv6.contains a with
  | false =>
      have hgo : BrowserVpn.publicIPv6.contains a = false := hpublic
      simp [isPublicUnmapped, publicUnmapped, hpublic, hgo, Addr.is6, Network.contains]
  | true =>
      have hgo : BrowserVpn.publicIPv6.contains a = true := hpublic
      -- The other blocks that either side knows are outside.
      have hout : ∀ p : Prefix 128, publicIPv6.bits ≤ p.bits →
          publicIPv6.contains p.addr = false → p.contains a = false := by
        intro p hp hne
        by_contra hin
        rw [Bool.not_eq_false] at hin
        exact absurd (Prefix.contains_of_contains hp hin) (by simp [hpublic, hne])
      have hzero : a ≠ 0#128 := by
        rintro rfl
        exact absurd hpublic (by decide)
      have hone : a ≠ 1#128 := by
        rintro rfl
        exact absurd hpublic (by decide)
      have h1 := hout (.v6 [] 128) (by decide) (by decide)
      have h2 := hout (.v6 [0, 0, 0, 0, 0, 0, 0, 1] 128) (by decide) (by decide)
      have h3 := hout (.v6 [0x64, 0xff9b, 1] 48) (by decide) (by decide)
      have h4 := hout (.v6 [0x100] 64) (by decide) (by decide)
      have h5 := hout (.v6 [0xfc00] 7) (by decide) (by decide)
      have h6 := hout (.v6 [0xfe80] 10) (by decide) (by decide)
      have h7 := hout (.v6 [0xff00] 8) (by decide) (by decide)
      -- The exceptions of `ipaddress` are in the first of the blocks.
      have hfirst : ∀ p ∈ exceptionsIPv6, (Prefix.v6 [0x2001] 23).bits ≤ p.bits ∧
          (Prefix.v6 [0x2001] 23).contains p.addr = true := by decide
      have hin : ∀ p ∈ exceptionsIPv6, p.contains a = true →
          (Prefix.v6 [0x2001] 23).contains a = true :=
        fun p hp => contains_within true (hfirst p hp)
      simp only [exceptionsIPv6, List.forall_mem_cons] at hin
      simp only [isPublicUnmapped, isGlobal, isSpecial, isMulticast, isIn, specialIPv6,
        exceptionsIPv6, blockedRanges, publicUnmapped, Addr.isValid, Addr.isGlobalUnicast,
        Addr.isPrivate, Addr.isLoopback, Addr.isMulticast, Addr.isLinkLocalUnicast, Addr.is6,
        BrowserVpn.blockedRanges, Network.contains, List.any_cons, List.any_nil, List.all_cons,
        List.all_nil, hpublic, hgo, hmapped, h1, h2, h3, h4, h5, h6, h7, unlisted]
      grind

/-! ## Agreement -/

/-- An IPv4-mapped address is judged like the one it embeds. -/
theorem isPublic_mapped {a : BitVec 128} (h : mappedIPv6.contains a = true) :
    isPublic (v6 a none) = isPublic (v4 (embeddedIPv4 a)) := by
  simp [isPublic, h]

/-- No unlisted address is mapped. -/
theorem unlisted_of_mapped {a : BitVec 128} (h : mappedIPv6.contains a = true) :
    unlisted.contains a = false := contains_within false (by decide) h

/-- The installer and the proxy agree on an address: both call it public or
neither does, what the installer accepts passes the flag of the proxy, and what
it embeds decides on both sides. -/
structure Agrees [Netip] (a : IpAddress) : Prop where
  iff : a.isPublic = true ↔ publicAddress a.toAddr = true
  flag : a.isPublic = true → ∀ addresses value, Netip.parseAddr value = some a.toAddr →
    setSelfAddress addresses value = some (addresses ++ [a.toAddr.unmap])
  mapped : ∀ b, a = v6 b none → mappedIPv6.contains b = true →
    a.isPublic = isPublic (v4 (embeddedIPv4 b)) ∧
      publicAddress a.toAddr = publicAddress (.v4 (embeddedIPv4 b))

/-- In the block that the table of the server does not have. -/
def isUnlisted : IpAddress → Bool
  | v4 _ => false
  | v6 a _ => unlisted.contains a

/-- The server accepts the whole block. -/
theorem publicAddress_of_unlisted {a : BitVec 128} (h : unlisted.contains a = true) :
    publicAddress (.v6 a []) = true := by
  have hwithin := fun (p : Prefix 128) (b : Bool)
    (hp : p.bits ≤ unlisted.bits ∧ p.contains unlisted.addr = b) => contains_within b hp h
  have hmapped : mappedIPv6.contains a = false := by
    by_contra hm
    rw [Bool.not_eq_false] at hm
    exact absurd (unlisted_of_mapped hm) (by simp [h])
  have hzero : a ≠ 0#128 := by
    rintro rfl
    exact absurd h (by decide)
  have hone : a ≠ 1#128 := by
    rintro rfl
    exact absurd h (by decide)
  have hdb8 : (Prefix.v6 [0x2001, 0xdb8] 32).contains a = false := by
    by_contra hin
    rw [Bool.not_eq_false] at hin
    exact absurd h (by simp [contains_within (p := unlisted) false (by decide) hin])
  have hfirst : (Prefix.v6 [0x2001] 23).contains a = false := by
    by_contra hin
    rw [Bool.not_eq_false] at hin
    exact absurd h (by simp [contains_within (p := unlisted) false (by decide) hin])
  simp [publicAddress, Addr.unmap_v6 hmapped, publicUnmapped, Addr.isValid, Addr.isGlobalUnicast,
    Addr.isPrivate, Addr.isLoopback, Addr.isMulticast, Addr.isLinkLocalUnicast, Addr.is6,
    BrowserVpn.blockedRanges, Network.contains, hzero, hone, hdb8, hfirst,
    hwithin (.v6 [0xff00] 8) false (by decide), hwithin (.v6 [0xfe80] 10) false (by decide),
    hwithin (.v6 [0xfc00] 7) false (by decide), hwithin BrowserVpn.publicIPv6 true (by decide),
    hwithin (.v6 [0x2002] 16) false (by decide)]

/-- The installer accepts what the server does, but for the unlisted block. -/
theorem isPublic_eq {a : IpAddress} (h : a.scopeId = none) :
    a.isPublic = (publicAddress a.toAddr && !a.isUnlisted) := by
  cases a with
  | v4 a => simp [isPublic_v4, toAddr, isUnlisted]
  | v6 a scope =>
      obtain rfl : scope = none := h
      cases hm : mappedIPv6.contains a with
      | true =>
          have hgo : publicAddress (.v6 a []) = publicAddress (.v4 (embeddedIPv4 a)) := by
            rw [← publicAddress_unmap, Addr.unmap_v6_mapped hm]
          rw [isPublic_mapped hm, isPublic_v4, toAddr, hgo, isUnlisted, unlisted_of_mapped hm]
          simp
      | false => exact isPublic_v6 hm

/-- Installer and proxy agree on the addresses outside `3fff::/20`, and on no
others. -/
theorem public_ip_agrees [Netip] {a : IpAddress} (h : a.scopeId = none) :
    a.Agrees ↔ a.isUnlisted = false := by
  have heq := isPublic_eq h
  constructor
  · intro hagrees
    by_contra hin
    rw [Bool.not_eq_false] at hin
    cases a with
    | v4 a => cases hin
    | v6 a scope =>
        obtain rfl : scope = none := h
        have hgo := publicAddress_of_unlisted hin
        have hpy := hagrees.iff.2 hgo
        rw [heq, hin] at hpy
        simp at hpy
  · intro hout
    have hsame : a.isPublic = publicAddress a.toAddr := by simp [heq, hout]
    have hzone : a.toAddr.zone = [] := by
      cases a with
      | v4 a => rfl
      | v6 a scope =>
          obtain rfl : scope = none := h
          rfl
    refine ⟨by rw [hsame], fun hp addresses value hv => ?_, ?_⟩
    · simp [setSelfAddress, hv, hzone, ← hsame, hp]
    · rintro b rfl hm
      refine ⟨isPublic_mapped hm, ?_⟩
      rw [← publicAddress_unmap, toAddr, Addr.unmap_v6_mapped hm]

section

attribute [local instance] Netip.sample

theorem public_ip_agrees_sample : (v4 0x08080808#32).Agrees :=
  (public_ip_agrees rfl).2 rfl

/-- `3fff::1` is documentation for the installer and a destination for the proxy. -/
theorem public_ip_agrees_fails : ¬ ∀ a : IpAddress, a.scopeId = none → a.Agrees := by
  intro h
  have hagrees := h (v6 (BitVec.ofNat 128 (0x3fff * 65536 ^ 7 + 1)) none) rfl
  exact absurd (hagrees.iff.2 (by decide +kernel)) (by decide +kernel)

end

end IpAddress

end BrowserVpn
