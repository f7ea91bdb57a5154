import Mathlib.Data.List.Basic
import Mathlib.Tactic.Common

/-!
# Data.Base64 — the standard alphabet with padding

Encoding of bytes, and a decoder that skips line ends and is lax about the bits
that the padding stands for. Four characters carry three bytes, so that a limit
on the length of a code is a limit on the bytes.
-/

namespace Data

/-- The character of a value below 64. -/
def base64Digit (n : Nat) : UInt8 :=
  if n < 26 then UInt8.ofNat (n + 65)
  else if n < 52 then UInt8.ofNat (n + 71)
  else if n < 62 then UInt8.ofNat (n - 4)
  else if n = 62 then 43
  else 47

/-- The value of a character. -/
def base64Value (c : UInt8) : Option Nat :=
  let n := c.toNat
  if 65 ≤ n && n ≤ 90 then some (n - 65)
  else if 97 ≤ n && n ≤ 122 then some (n - 71)
  else if 48 ≤ n && n ≤ 57 then some (n + 4)
  else if n = 43 then some 62
  else if n = 47 then some 63
  else none

/-- `=`. -/
def base64Pad : UInt8 := 61

/-- Three bytes at a time. -/
def base64Encode : List UInt8 → List UInt8
  | [] => []
  | [a] =>
      [base64Digit (a.toNat / 4), base64Digit (a.toNat % 4 * 16), base64Pad, base64Pad]
  | [a, b] =>
      [base64Digit (a.toNat / 4), base64Digit (a.toNat % 4 * 16 + b.toNat / 16),
        base64Digit (b.toNat % 16 * 4), base64Pad]
  | a :: b :: c :: rest =>
      base64Digit (a.toNat / 4) :: base64Digit (a.toNat % 4 * 16 + b.toNat / 16) ::
        base64Digit (b.toNat % 16 * 4 + c.toNat / 64) :: base64Digit (c.toNat % 64) ::
        base64Encode rest

/-- The bytes of four values. -/
def firstByte (x y : Nat) : UInt8 := UInt8.ofNat (x * 4 + y / 16)
def secondByte (y z : Nat) : UInt8 := UInt8.ofNat (y % 16 * 16 + z / 4)
def thirdByte (z w : Nat) : UInt8 := UInt8.ofNat (z % 4 * 64 + w)

/-- Four characters at a time. Padding is for the end only. -/
def decodeQuanta : List UInt8 → Option (List UInt8)
  | [] => some []
  | a :: b :: c :: d :: rest =>
      match base64Value a, base64Value b with
      | some x, some y =>
          if c = base64Pad then
            if d = base64Pad && rest.isEmpty then some [firstByte x y] else none
          else match base64Value c with
            | none => none
            | some z =>
                if d = base64Pad then
                  if rest.isEmpty then some [firstByte x y, secondByte y z] else none
                else match base64Value d with
                  | none => none
                  | some w =>
                      (decodeQuanta rest).map fun bytes =>
                        firstByte x y :: secondByte y z :: thirdByte z w :: bytes
      | _, _ => none
  | _ => none

/-- A line end within a code does not count. -/
def isLineEnd (c : UInt8) : Bool := c == 13 || c == 10

def base64Decode (s : List UInt8) : Option (List UInt8) :=
  decodeQuanta (s.filter fun c => !isLineEnd c)

theorem base64Value_digit {n : Nat} (h : n < 64) : base64Value (base64Digit n) = some n := by
  revert n
  decide

theorem base64Digit_ne_pad {n : Nat} (h : n < 64) : base64Digit n ≠ base64Pad := by
  revert n
  decide

theorem isLineEnd_digit {n : Nat} (h : n < 64) : isLineEnd (base64Digit n) = false := by
  revert n
  decide

/-- Values from which the bytes are put together again. -/
theorem firstByte_split (a r : Nat) (hr : r < 16) :
    firstByte (a / 4) (a % 4 * 16 + r) = UInt8.ofNat a := by
  rw [firstByte]
  congr 1
  omega

theorem secondByte_split (l b r : Nat) (hb : b < 256) (hr : r < 4) :
    secondByte (l * 16 + b / 16) (b % 16 * 4 + r) = UInt8.ofNat b := by
  rw [secondByte]
  congr 1
  omega

theorem thirdByte_split (l c : Nat) (hc : c < 256) :
    thirdByte (l * 4 + c / 64) (c % 64) = UInt8.ofNat c := by
  rw [thirdByte]
  congr 1
  omega

theorem decodeQuanta_encode (bytes : List UInt8) :
    decodeQuanta (base64Encode bytes) = some bytes := by
  induction bytes using base64Encode.induct with
  | case1 => rfl
  | case2 a =>
      have ha := a.toNat_lt
      have hfirst := firstByte_split a.toNat 0 (by omega)
      rw [Nat.add_zero] at hfirst
      simp [base64Encode, decodeQuanta, base64Value_digit (show a.toNat / 4 < 64 by omega),
        base64Value_digit (show a.toNat % 4 * 16 < 64 by omega), hfirst]
  | case3 a b =>
      have ha := a.toNat_lt
      have hb := b.toNat_lt
      have hfirst := firstByte_split a.toNat (b.toNat / 16) (by omega)
      have hsecond := secondByte_split (a.toNat % 4) b.toNat 0 hb (by omega)
      rw [Nat.add_zero] at hsecond
      have hpad : base64Digit (b.toNat % 16 * 4) ≠ base64Pad := base64Digit_ne_pad (by omega)
      simp [base64Encode, decodeQuanta, base64Value_digit (show a.toNat / 4 < 64 by omega),
        base64Value_digit (show a.toNat % 4 * 16 + b.toNat / 16 < 64 by omega),
        base64Value_digit (show b.toNat % 16 * 4 < 64 by omega), hpad, hfirst, hsecond]
  | case4 a b c rest ih =>
      have ha := a.toNat_lt
      have hb := b.toNat_lt
      have hc := c.toNat_lt
      have hfirst := firstByte_split a.toNat (b.toNat / 16) (by omega)
      have hsecond := secondByte_split (a.toNat % 4) b.toNat (c.toNat / 64) hb (by omega)
      have hthird := thirdByte_split (b.toNat % 16) c.toNat hc
      have hz : base64Digit (b.toNat % 16 * 4 + c.toNat / 64) ≠ base64Pad :=
        base64Digit_ne_pad (by omega)
      have hw : base64Digit (c.toNat % 64) ≠ base64Pad := base64Digit_ne_pad (by omega)
      simp [base64Encode, decodeQuanta, base64Value_digit (show a.toNat / 4 < 64 by omega),
        base64Value_digit (show a.toNat % 4 * 16 + b.toNat / 16 < 64 by omega),
        base64Value_digit (show b.toNat % 16 * 4 + c.toNat / 64 < 64 by omega),
        base64Value_digit (show c.toNat % 64 < 64 by omega), hz, hw, hfirst, hsecond, hthird, ih]

/-- A code is made of digits and padding. -/
theorem mem_base64Encode {bytes : List UInt8} {c : UInt8} (h : c ∈ base64Encode bytes) :
    c = base64Pad ∨ ∃ n < 64, c = base64Digit n := by
  induction bytes using base64Encode.induct with
  | case1 => cases h
  | case2 a =>
      have ha := a.toNat_lt
      simp only [base64Encode, List.mem_cons, List.not_mem_nil, or_false] at h
      rcases h with h | h | h | h
      · exact Or.inr ⟨_, by omega, h⟩
      · exact Or.inr ⟨_, by omega, h⟩
      · exact Or.inl h
      · exact Or.inl h
  | case3 a b =>
      have ha := a.toNat_lt
      have hb := b.toNat_lt
      simp only [base64Encode, List.mem_cons, List.not_mem_nil, or_false] at h
      rcases h with h | h | h | h
      · exact Or.inr ⟨_, by omega, h⟩
      · exact Or.inr ⟨_, by omega, h⟩
      · exact Or.inr ⟨_, by omega, h⟩
      · exact Or.inl h
  | case4 a b c rest ih =>
      have ha := a.toNat_lt
      have hb := b.toNat_lt
      have hc := c.toNat_lt
      simp only [base64Encode, List.mem_cons] at h
      rcases h with h | h | h | h | h
      · exact Or.inr ⟨_, by omega, h⟩
      · exact Or.inr ⟨_, by omega, h⟩
      · exact Or.inr ⟨_, by omega, h⟩
      · exact Or.inr ⟨_, by omega, h⟩
      · exact ih h

/-- What is encoded decodes. -/
theorem base64Decode_encode (bytes : List UInt8) :
    base64Decode (base64Encode bytes) = some bytes := by
  have hkeep : (base64Encode bytes).filter (fun c => !isLineEnd c) = base64Encode bytes := by
    rw [List.filter_eq_self]
    intro c hc
    rcases mem_base64Encode hc with rfl | ⟨n, hn, rfl⟩
    · rfl
    · rw [isLineEnd_digit hn]
      rfl
  rw [base64Decode, hkeep, decodeQuanta_encode]

/-- Four characters for each three bytes or part of them. -/
theorem length_base64Encode (bytes : List UInt8) :
    (base64Encode bytes).length = (bytes.length + 2) / 3 * 4 := by
  induction bytes using base64Encode.induct with
  | case1 => rfl
  | case2 a => simp [base64Encode]
  | case3 a b => simp [base64Encode]
  | case4 a b c rest ih =>
      simp only [base64Encode, List.length_cons, ih]
      omega

/-! ## Without padding -/

/-- The values of the digits that carry the bytes. -/
def sextets : List UInt8 → List Nat
  | [] => []
  | [a] => [a.toNat / 4, a.toNat % 4 * 16]
  | [a, b] => [a.toNat / 4, a.toNat % 4 * 16 + b.toNat / 16, b.toNat % 16 * 4]
  | a :: b :: c :: rest =>
      a.toNat / 4 :: (a.toNat % 4 * 16 + b.toNat / 16) :: (b.toNat % 16 * 4 + c.toNat / 64) ::
        c.toNat % 64 :: sextets rest

/-- Four values at a time, with two or three at the end whose last bits are dropped. -/
def decodeSextets : List Nat → Option (List UInt8)
  | [] => some []
  | [_] => none
  | [x, y] => some [firstByte x y]
  | [x, y, z] => some [firstByte x y, secondByte y z]
  | x :: y :: z :: w :: rest =>
      (decodeSextets rest).map fun bytes =>
        firstByte x y :: secondByte y z :: thirdByte z w :: bytes

/-- How much padding follows. -/
def padding (bytes : List UInt8) : Nat := (3 - bytes.length % 3) % 3

theorem base64Encode_eq (bytes : List UInt8) :
    base64Encode bytes =
      (sextets bytes).map base64Digit ++ List.replicate (padding bytes) base64Pad := by
  induction bytes using sextets.induct with
  | case1 => rfl
  | case2 a => rfl
  | case3 a b => rfl
  | case4 a b c rest ih =>
      have hpadding : padding (a :: b :: c :: rest) = padding rest := by
        simp only [padding, List.length_cons]
        omega
      rw [base64Encode, ih, hpadding]
      rfl

theorem sextets_lt (bytes : List UInt8) : ∀ n ∈ sextets bytes, n < 64 := by
  induction bytes using sextets.induct with
  | case1 => simp [sextets]
  | case2 a =>
      have ha := a.toNat_lt
      simp only [sextets, List.forall_mem_cons, List.not_mem_nil, false_imp_iff, implies_true,
        and_true]
      omega
  | case3 a b =>
      have ha := a.toNat_lt
      have hb := b.toNat_lt
      simp only [sextets, List.forall_mem_cons, List.not_mem_nil, false_imp_iff, implies_true,
        and_true]
      omega
  | case4 a b c rest ih =>
      have ha := a.toNat_lt
      have hb := b.toNat_lt
      have hc := c.toNat_lt
      simp only [sextets, List.forall_mem_cons]
      exact ⟨by omega, by omega, by omega, by omega, ih⟩

/-- With the padding the code has whole quanta. -/
theorem length_sextets (bytes : List UInt8) :
    ((sextets bytes).length + padding bytes) % 4 = 0 ∧ padding bytes < 3 := by
  induction bytes using sextets.induct with
  | case1 => exact ⟨rfl, by decide⟩
  | case2 a => simp [sextets, padding]
  | case3 a b => simp [sextets, padding]
  | case4 a b c rest ih =>
      have hpadding : padding (a :: b :: c :: rest) = padding rest := by
        simp only [padding, List.length_cons]
        omega
      rw [hpadding]
      simp only [sextets, List.length_cons]
      exact ⟨by omega, ih.2⟩

theorem decodeSextets_sextets (bytes : List UInt8) : decodeSextets (sextets bytes) = some bytes := by
  induction bytes using sextets.induct with
  | case1 => rfl
  | case2 a =>
      have hfirst := firstByte_split a.toNat 0 (by omega)
      rw [Nat.add_zero] at hfirst
      simp [sextets, decodeSextets, hfirst]
  | case3 a b =>
      have hb := b.toNat_lt
      have hfirst := firstByte_split a.toNat (b.toNat / 16) (by omega)
      have hsecond := secondByte_split (a.toNat % 4) b.toNat 0 hb (by omega)
      rw [Nat.add_zero] at hsecond
      simp [sextets, decodeSextets, hfirst, hsecond]
  | case4 a b c rest ih =>
      have hb := b.toNat_lt
      have hc := c.toNat_lt
      have hfirst := firstByte_split a.toNat (b.toNat / 16) (by omega)
      have hsecond := secondByte_split (a.toNat % 4) b.toNat (c.toNat / 64) hb (by omega)
      have hthird := thirdByte_split (b.toNat % 16) c.toNat hc
      simp [sextets, decodeSextets, hfirst, hsecond, hthird, ih]

end Data
