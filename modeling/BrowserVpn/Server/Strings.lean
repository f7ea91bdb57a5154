import BrowserVpn.Server.Address
import BrowserVpn.Data.Split
import BrowserVpn.Data.Utf8

/-!
# Server.Strings — Go's `strings` on bytes

The functions of the package that the server uses. Two of them look at text and
not at bytes: `EqualFold` compares runes up to case, with invalid bytes read as
U+FFFD, and `TrimSpace` drops the white space of Unicode.
-/

namespace BrowserVpn

open Data

/-! ## Bytes -/

/-- `':'`. -/
def colon : UInt8 := 58

/-- `strings.Cut` at a separator of one byte. -/
def cut (s : GoString) (separator : UInt8) : Option (GoString × GoString) :=
  splitFirst separator s

/-- `strings.TrimSuffix`. -/
def trimSuffix (s suffix : GoString) : GoString :=
  if suffix.isSuffixOf s then s.take (s.length - suffix.length) else s

/-- `strings.TrimPrefix` of one byte. -/
def trimByte (s : GoString) (b : UInt8) : GoString := if s.head? = some b then s.tail else s

/-- `strings.ContainsAny` for characters of ASCII. -/
def containsAny (s chars : GoString) : Bool := s.any fun b => chars.contains b

theorem cut_eq_some {s before after : GoString} {separator : UInt8} :
    cut s separator = some (before, after) ↔
      s = before ++ separator :: after ∧ separator ∉ before := splitFirst_eq_some

/-- What a suffix is trimmed off. -/
theorem trimSuffix_append (s suffix : GoString) : trimSuffix (s ++ suffix) suffix = s := by
  rw [trimSuffix, if_pos (List.isSuffixOf_iff_suffix.2 (List.suffix_append s suffix))]
  simp

theorem trimSuffix_of_not {s suffix : GoString} (h : ¬ suffix <:+ s) : trimSuffix s suffix = s := by
  rw [trimSuffix, if_neg fun hs => h (List.isSuffixOf_iff_suffix.1 hs)]

/-- Either the suffix is there and goes, or nothing changes. -/
theorem trimSuffix_cases (s suffix : GoString) :
    s = trimSuffix s suffix ++ suffix ∨ ¬ suffix <:+ s ∧ trimSuffix s suffix = s := by
  by_cases h : suffix <:+ s
  · obtain ⟨t, rfl⟩ := h
    exact Or.inl (by rw [trimSuffix_append])
  · exact Or.inr ⟨h, trimSuffix_of_not h⟩

theorem containsAny_eq_false {s chars : GoString} :
    containsAny s chars = false ↔ ∀ b ∈ s, b ∉ chars := by
  simp [containsAny]

/-! ## Runes -/

/-- The bytes that may come second after `b` in a rune. -/
def secondRange (b : UInt8) : UInt8 × UInt8 :=
  if b = 0xE0 then (0xA0, 0xBF)
  else if b = 0xED then (0x80, 0x9F)
  else if b = 0xF0 then (0x90, 0xBF)
  else if b = 0xF4 then (0x80, 0x8F)
  else (0x80, 0xBF)

def isSecond (first b : UInt8) : Bool := (secondRange first).1 ≤ b && b ≤ (secondRange first).2

def isTail (b : UInt8) : Bool := 0x80 ≤ b && b ≤ 0xBF

/-- `utf8.RuneError`. -/
def runeError : Nat := 0xFFFD

/-- The runes of a string. A byte that begins no rune is read as `runeError`. -/
def runes : GoString → List Nat
  | [] => []
  | a :: rest =>
      if a < 0x80 then a.toNat :: runes rest
      else match rest with
        | b :: c :: d :: rest₄ =>
            if 0xC2 ≤ a && a ≤ 0xDF && isTail b then
              (a.toNat % 32 * 64 + b.toNat % 64) :: runes (c :: d :: rest₄)
            else if 0xE0 ≤ a && a ≤ 0xEF && isSecond a b && isTail c then
              ((a.toNat % 16 * 64 + b.toNat % 64) * 64 + c.toNat % 64) :: runes (d :: rest₄)
            else if 0xF0 ≤ a && a ≤ 0xF4 && isSecond a b && isTail c && isTail d then
              (((a.toNat % 8 * 64 + b.toNat % 64) * 64 + c.toNat % 64) * 64 + d.toNat % 64) ::
                runes rest₄
            else runeError :: runes (b :: c :: d :: rest₄)
        | [b, c] =>
            if 0xC2 ≤ a && a ≤ 0xDF && isTail b then
              (a.toNat % 32 * 64 + b.toNat % 64) :: runes [c]
            else if 0xE0 ≤ a && a ≤ 0xEF && isSecond a b && isTail c then
              [(a.toNat % 16 * 64 + b.toNat % 64) * 64 + c.toNat % 64]
            else runeError :: runes [b, c]
        | [b] =>
            if 0xC2 ≤ a && a ≤ 0xDF && isTail b then [a.toNat % 32 * 64 + b.toNat % 64]
            else runeError :: runes [b]
        | [] => [runeError]

/-- How Unicode folds a rune outside ASCII: the orbits of `unicode.SimpleFold`
have a representative. The two that hold letters of ASCII are not its business. -/
class Unicode where
  foldOther : Nat → Nat
  foldOther_outside : ∀ r, 128 ≤ foldOther r

/-- All runes outside ASCII fold to one. -/
@[reducible] def Unicode.sample : Unicode where
  foldOther _ := runeError
  foldOther_outside _ := by decide

section

variable [Unicode]

/-- One rune for all that differ in case only. U+017F is an s and U+212A a k. -/
def foldRune (r : Nat) : Nat :=
  if 65 ≤ r && r ≤ 90 then r + 32
  else if r < 128 then r
  else if r = 0x17F then 115
  else if r = 0x212A then 107
  else Unicode.foldOther r

/-- `strings.EqualFold`. -/
def equalFold (s t : GoString) : Bool := (runes s).map foldRune == (runes t).map foldRune

@[simp] theorem equalFold_self (s : GoString) : equalFold s s = true := beq_self_eq_true _

end

/-! ## White space -/

/-- The white space of `unicode.IsSpace`, encoded. -/
def spaces : List GoString :=
  [[9], [10], [11], [12], [13], [32], [0xC2, 0x85], [0xC2, 0xA0], [0xE1, 0x9A, 0x80],
    [0xE2, 0x80, 0x80], [0xE2, 0x80, 0x81], [0xE2, 0x80, 0x82], [0xE2, 0x80, 0x83],
    [0xE2, 0x80, 0x84], [0xE2, 0x80, 0x85], [0xE2, 0x80, 0x86], [0xE2, 0x80, 0x87],
    [0xE2, 0x80, 0x88], [0xE2, 0x80, 0x89], [0xE2, 0x80, 0x8A], [0xE2, 0x80, 0xA8],
    [0xE2, 0x80, 0xA9], [0xE2, 0x80, 0xAF], [0xE2, 0x81, 0x9F], [0xE3, 0x80, 0x80]]

/-- Drop what is in `pieces` from the front, at most `n` of them. -/
def dropPieces (pieces : List GoString) : Nat → GoString → GoString
  | 0, s => s
  | n + 1, s =>
      match pieces.find? fun p => p.isPrefixOf s with
      | some p => dropPieces pieces n (s.drop p.length)
      | none => s

/-- `strings.TrimSpace`. -/
def trimSpace (s : GoString) : GoString :=
  let front := dropPieces spaces s.length s
  (dropPieces (spaces.map List.reverse) front.length front.reverse).reverse

theorem dropPieces_of_head {pieces : List GoString} {s : GoString} {b : UInt8}
    (hs : s.head? = some b) (h : ∀ p ∈ pieces, p.head?.any (· != b) = true) (n : Nat) :
    dropPieces pieces n s = s := by
  cases n with
  | zero => rfl
  | succ n =>
      have hnone : (pieces.find? fun p => p.isPrefixOf s) = none := by
        rw [List.find?_eq_none]
        intro p hp hpre
        have hne := h p hp
        cases p with
        | nil => cases hne
        | cons a p =>
            cases s with
            | nil => cases hs
            | cons c s =>
                obtain rfl : c = b := Option.some.inj hs
                have hac : a = c := by
                  have := List.isPrefixOf_iff_prefix.1 hpre
                  exact (List.cons_prefix_cons.1 this).1
                simp [hac] at hne
      rw [dropPieces, hnone]

end BrowserVpn
