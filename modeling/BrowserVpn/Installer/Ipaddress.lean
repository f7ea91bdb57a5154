import BrowserVpn.Deploy.Credentials
import BrowserVpn.Installer.PublicIp

/-!
# Installer.Ipaddress — addresses and their texts in Python

How `ipaddress` reads and prints addresses. IPv4 is here as CPython has it; IPv6 is
left to the class `Ipv6`, of which no more is asked than that a printed address is
read as the same one.
-/

namespace BrowserVpn

open Data

namespace Python

/-! ## IPv4 -/

def isAsciiDigit (c : Char) : Bool := 48 ≤ c.toNat && c.toNat ≤ 57

def decimalValue (s : List Char) : Nat := s.foldl (fun n c => n * 10 + (c.toNat - 48)) 0

/-- `IPv4Address._parse_octet`. -/
def parseOctet (s : List Char) : Option Nat :=
  if s.isEmpty || !s.all isAsciiDigit || s.length > 3 || (s != ['0'] && s.head? = some '0') then
    none
  else if decimalValue s > 255 then none else some (decimalValue s)

/-- `IPv4Address` of a text, `none` for an `AddressValueError`. -/
def ipv4Address (s : List Char) : Option (BitVec 32) :=
  if s.contains '/' then none
  else match s.splitOn '.' with
    | [a, b, c, d] =>
        match parseOctet a, parseOctet b, parseOctet c, parseOctet d with
        | some a, some b, some c, some d => some (BitVec.ofNat 32 (((a * 256 + b) * 256 + c) * 256 + d))
        | _, _, _, _ => none
    | _ => none

/-- The octets of an address. -/
def octets (a : BitVec 32) : List Nat :=
  [a.toNat / 16777216, a.toNat / 65536 % 256, a.toNat / 256 % 256, a.toNat % 256]

/-- `str` of an `IPv4Address`. -/
def ipv4Text (a : BitVec 32) : List Char := ['.'].intercalate ((octets a).map (Nat.toDigits 10))

/-- An octet in its one spelling. -/
theorem parseOctet_toDigits {n : Nat} (h : n < 256) :
    parseOctet (Nat.toDigits 10 n) = some n ∧ '.' ∉ Nat.toDigits 10 n ∧
      ∀ c ∈ Nat.toDigits 10 n, isAsciiDigit c = true := by
  have hall : ∀ n < 256, parseOctet (Nat.toDigits 10 n) = some n ∧ '.' ∉ Nat.toDigits 10 n ∧
      (Nat.toDigits 10 n).all isAsciiDigit = true := by decide +kernel
  obtain ⟨hoctet, hdot, hdigits⟩ := hall n h
  exact ⟨hoctet, hdot, List.all_eq_true.1 hdigits⟩

theorem octets_lt (a : BitVec 32) : ∀ n ∈ octets a, n < 256 := by
  have ha := a.isLt
  intro n hn
  simp only [octets, List.mem_cons, List.not_mem_nil, or_false] at hn
  rcases hn with rfl | rfl | rfl | rfl <;> omega

/-- The text of an address is cut into those of its octets. -/
theorem splitOn_ipv4Text (a : BitVec 32) :
    (ipv4Text a).splitOn '.' = (octets a).map (Nat.toDigits 10) := by
  refine List.splitOn_intercalate '.' (fun t ht => ?_) (by simp [octets])
  obtain ⟨n, hn, rfl⟩ := List.mem_map.1 ht
  exact (parseOctet_toDigits (octets_lt a n hn)).2.1

/-- The characters of an address. -/
theorem mem_ipv4Text {a : BitVec 32} {c : Char} (h : c ∈ ipv4Text a) :
    c = '.' ∨ isAsciiDigit c = true := by
  rcases mem_intercalate h with rfl | ⟨t, ht, hc⟩
  · exact Or.inl rfl
  · obtain ⟨n, hn, rfl⟩ := List.mem_map.1 ht
    exact Or.inr ((parseOctet_toDigits (octets_lt a n hn)).2.2 c hc)

/-- A printed address is read as the same one. -/
theorem ipv4Address_ipv4Text (a : BitVec 32) : ipv4Address (ipv4Text a) = some a := by
  have ha := a.isLt
  have hslash : (ipv4Text a).contains '/' = false := by
    rw [Bool.eq_false_iff]
    intro hmem
    rw [List.contains_iff_mem] at hmem
    rcases mem_ipv4Text hmem with h | h
    · exact absurd h (by decide)
    · exact absurd h (by decide)
  have hvalue : ((a.toNat / 16777216 * 256 + a.toNat / 65536 % 256) * 256 +
      a.toNat / 256 % 256) * 256 + a.toNat % 256 = a.toNat := by omega
  rw [ipv4Address, hslash, splitOn_ipv4Text]
  simp only [octets, List.map_cons, List.map_nil, Bool.false_eq_true, if_false,
    (parseOctet_toDigits (show a.toNat / 16777216 < 256 by omega)).1,
    (parseOctet_toDigits (show a.toNat / 65536 % 256 < 256 by omega)).1,
    (parseOctet_toDigits (show a.toNat / 256 % 256 < 256 by omega)).1,
    (parseOctet_toDigits (show a.toNat % 256 < 256 by omega)).1, hvalue]
  exact congrArg some (BitVec.ofNat_toNat 32 a)

/-- A text of IPv4 has no colon. -/
theorem ipv4Address_eq_none {s : List Char} (h : ':' ∈ s) : ipv4Address s = none := by
  by_contra hne
  obtain ⟨a, ha⟩ := Option.ne_none_iff_exists'.1 hne
  have hoctet : ∀ t n, parseOctet t = some n → ':' ∉ t := by
    intro t n ht hmem
    rw [parseOctet] at ht
    split at ht
    · cases ht
    rename_i hshape
    simp only [Bool.or_eq_true, not_or, Bool.not_eq_true', Bool.not_eq_false,
      List.all_eq_true] at hshape
    exact absurd (hshape.1.1.2 ':' hmem) (by decide)
  rw [ipv4Address] at ha
  split at ha
  · cases ha
  split at ha
  · rename_i a b c d hsplit
    split at ha
    · rename_i a' b' c' d' ha' hb' hc' hd'
      rw [← (List.intercalate_splitOn '.' : ['.'].intercalate (s.splitOn '.') = s), hsplit] at h
      rcases mem_intercalate h with hdot | ⟨t, ht, hc⟩
      · exact absurd hdot (by decide)
      · simp only [List.mem_cons, List.not_mem_nil, or_false] at ht
        rcases ht with rfl | rfl | rfl | rfl
        · exact hoctet _ _ ha' hc
        · exact hoctet _ _ hb' hc
        · exact hoctet _ _ hc' hc
        · exact hoctet _ _ hd' hc
    · cases ha
  · cases ha

theorem strip_of_plain {s : List Char} (h : ∀ c ∈ s, isSpace c = false) : strip s = s :=
  strip_eq_self.2 ⟨fun c hc => h c (List.mem_of_mem_head? hc),
    fun c hc => h c (List.mem_of_getLast? hc)⟩

/-! ## Both versions -/

/-- What is taken from `ipaddress` for IPv6: how a text is read, with its scope, and
how an address without one is printed. -/
class Ipv6 where
  parse : List Char → Option (BitVec 128 × Option String)
  text : BitVec 128 → List Char
  parse_text : ∀ a, parse (text a) = some (a, none)
  colon_mem : ∀ a, ':' ∈ text a
  plain : ∀ a, ∀ c ∈ text a, isSpace c = false

/-- Addresses of IPv6 in unary. -/
@[reducible] def Ipv6.sample : Ipv6 where
  parse s := if s.head? = some ':' then some (BitVec.ofNat 128 (s.length - 1), none) else none
  text a := ':' :: List.replicate a.toNat '1'
  parse_text a := by simp
  colon_mem a := List.mem_cons_self
  plain a c hc := by
    rcases List.mem_cons.1 hc with rfl | hc
    · decide
    · rw [List.eq_of_mem_replicate hc]
      decide

variable [Ipv6]

/-- `ipaddress.ip_address`, `none` for a `ValueError`. -/
def ipAddress (s : List Char) : Option IpAddress :=
  match ipv4Address s with
  | some a => some (.v4 a)
  | none => (Ipv6.parse s).map fun (a, scopeId) => .v6 a scopeId

instance : Ipaddress := ⟨fun s => ipAddress s.toList⟩

/-- `is_public_ip`. -/
def isPublicText (s : List Char) : Bool := isPublicIp (String.ofList s)

theorem isPublicText_eq (s : List Char) :
    isPublicText s = (ipAddress s).any IpAddress.isPublic := by
  have hread : Ipaddress.ip_address (String.ofList s) = ipAddress s := by
    show ipAddress (String.ofList s).toList = ipAddress s
    rw [String.toList_ofList]
  rw [isPublicText, isPublicIp, hread]
  cases ipAddress s <;> rfl

/-- An address as it is printed: no scope, and no other form of an IPv4 address. -/
def IsCanonical : IpAddress → Prop
  | .v4 _ => True
  | .v6 a scopeId => scopeId = none ∧ mappedIPv6.contains a = false

/-- `str` of an address, and the scope that it would have. -/
def ipText : IpAddress → List Char
  | .v4 a => ipv4Text a
  | .v6 a none => Ipv6.text a
  | .v6 a (some scopeId) => Ipv6.text a ++ '%' :: scopeId.toList

/-- A canonical address is read as it is printed, and nothing is stripped off. -/
theorem ipAddress_ipText {a : IpAddress} (h : IsCanonical a) : ipAddress (ipText a) = some a := by
  cases a with
  | v4 a => rw [ipText, ipAddress, ipv4Address_ipv4Text]
  | v6 a scopeId =>
      obtain ⟨rfl, -⟩ := h
      rw [ipText, ipAddress, ipv4Address_eq_none (Ipv6.colon_mem a), Ipv6.parse_text]
      rfl

theorem strip_ipText {a : IpAddress} (h : IsCanonical a) : strip (ipText a) = ipText a := by
  refine strip_of_plain fun c hc => ?_
  cases a with
  | v4 a =>
      rcases mem_ipv4Text hc with rfl | hdigit
      · decide
      · simp only [isAsciiDigit, Bool.and_eq_true, decide_eq_true_eq] at hdigit
        simp only [isSpace, Bool.or_eq_false_iff, Bool.and_eq_false_iff, decide_eq_false_iff_not,
          beq_eq_false_iff_ne]
        omega
  | v6 a scopeId =>
      obtain ⟨rfl, -⟩ := h
      exact Ipv6.plain a c hc

end Python

end BrowserVpn
