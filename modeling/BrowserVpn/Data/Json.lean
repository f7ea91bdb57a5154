import Mathlib.Data.List.Forall2
import Mathlib.Data.List.TakeDrop
import Mathlib.Data.List.TakeWhile
import Mathlib.Tactic.Common

/-!
# Data.Json — JSON texts

A text is a list of UTF-16 code units, as JavaScript has it; so are the strings in
it. The parser takes the grammar with the constants of a dialect. The encoders write
compact texts in ASCII, and each has a rule that says what its texts are parsed as
(`Parses`), from which the reading of a whole document is put together.
-/

namespace Data

/-- Text by UTF-16 code units. -/
abbrev CodeUnits := List UInt16

/-- The units of a text in ASCII. -/
def ascii (s : String) : CodeUnits := s.toList.map fun c => c.toNat.toUInt16

/-- What a JSON text denotes. A number is `mantissa` times ten to the `exponent`. -/
inductive Json where
  | null
  | bool (b : Bool)
  | num (mantissa exponent : Int)
  | nonfinite
  | str (s : CodeUnits)
  | arr (items : List Json)
  | obj (members : List (CodeUnits × Json))

namespace Json

/-! ## Code units -/

def isDigit (u : UInt16) : Bool := 48 ≤ u.toNat && u.toNat ≤ 57

/-- Space, tab and line ends. -/
def isSpace (u : UInt16) : Bool := u == 32 || u == 9 || u == 10 || u == 13

def skip (s : CodeUnits) : CodeUnits := s.dropWhile isSpace

/-- The character of a hexadecimal digit, in lower case. -/
def hexDigit (n : Nat) : UInt16 := ((if n < 10 then 48 else 87) + n).toUInt16

def hexValue (u : UInt16) : Option Nat :=
  let n := u.toNat
  if 48 ≤ n && n ≤ 57 then some (n - 48)
  else if 97 ≤ n && n ≤ 102 then some (n - 87)
  else if 65 ≤ n && n ≤ 70 then some (n - 55)
  else none

theorem hexValue_hexDigit {n : Nat} (h : n < 16) : hexValue (hexDigit n) = some n := by
  revert n
  decide

/-- The unit of four digits. -/
def hexUnit (a b c d : UInt16) : Option UInt16 :=
  match hexValue a, hexValue b, hexValue c, hexValue d with
  | some w, some x, some y, some z => some (((w * 16 + x) * 16 + y) * 16 + z).toUInt16
  | _, _, _, _ => none

/-- What stands for itself, or for something else, after a backslash. -/
def unescape (u : UInt16) : Option UInt16 :=
  if u = 34 || u = 92 || u = 47 then some u
  else if u = 98 then some 8
  else if u = 102 then some 12
  else if u = 110 then some 10
  else if u = 114 then some 13
  else if u = 116 then some 9
  else none

/-! ## Parser -/

/-- A string from behind its first quote. -/
def stringBody : CodeUnits → Option (CodeUnits × CodeUnits)
  | [] => none
  | 34 :: rest => some ([], rest)
  | 92 :: 117 :: a :: b :: c :: d :: rest =>
      match hexUnit a b c d with
      | none => none
      | some u => (stringBody rest).map fun (s, rest) => (u :: s, rest)
  | 92 :: e :: rest =>
      match unescape e with
      | none => none
      | some u => (stringBody rest).map fun (s, rest) => (u :: s, rest)
  | u :: rest =>
      if u < 32 || u = 92 then none else (stringBody rest).map fun (s, rest) => (u :: s, rest)

/-- The value of a text of digits. -/
def digitsValue (digits : CodeUnits) : Nat := digits.foldl (fun n u => n * 10 + (u.toNat - 48)) 0

/-- An optional fraction: its digits, none without one. -/
def fraction : CodeUnits → Option (CodeUnits × CodeUnits)
  | 46 :: rest =>
      match rest.span isDigit with
      | ([], _) => none
      | (digits, rest) => some (digits, rest)
  | rest => some ([], rest)

/-- An optional exponent, 0 without one. -/
def exponent (s : CodeUnits) : Option (Int × CodeUnits) :=
  if s.head? = some 101 || s.head? = some 69 then
    let signed := s.tail
    let digits := if signed.head? = some 43 || signed.head? = some 45 then signed.tail else signed
    match digits.span isDigit with
    | ([], _) => none
    | (digits, rest) =>
        some (if signed.head? = some 45 then -digitsValue digits else digitsValue digits, rest)
  else some (0, s)

/-- The constants of a dialect, none of which begins like a value of another kind, and the
digits that an integer may have, if they are bounded. -/
structure Dialect where
  constants : List (CodeUnits × Json)
  distinct : ∀ c ∈ constants, ∀ u ∈ c.1.head?,
    u ≠ 34 ∧ u ≠ 91 ∧ u ≠ 123 ∧ isDigit u = false
  nonempty : ∀ c ∈ constants, c.1 ≠ []
  maxDigits : Option Nat := none

/-- What the grammar has. -/
def Dialect.standard : Dialect where
  constants := [(ascii "null", .null), (ascii "true", .bool true), (ascii "false", .bool false)]
  distinct := by simp [ascii, isDigit]
  nonempty := by simp [ascii]

/-- Whether nothing follows that would make a number other than an integer. -/
def endsInteger (rest : CodeUnits) : Bool :=
  rest.head? ≠ some 46 && rest.head? ≠ some 101 && rest.head? ≠ some 69

/-- Whether an integer has more digits than the dialect allows. -/
def Dialect.tooLong (d : Dialect) (whole rest : CodeUnits) : Bool :=
  endsInteger rest && d.maxDigits.any fun n => n < whole.length

def number (d : Dialect) (s : CodeUnits) : Option (Json × CodeUnits) :=
  let negative := s.head? = some 45
  match (if negative then s.tail else s).span isDigit with
  | ([], _) => none
  | (whole, rest) =>
      if whole.head? = some 48 && whole.length ≠ 1 then none
      else if d.tooLong whole rest then none
      else match fraction rest with
        | none => none
        | some (decimals, rest) =>
            match exponent rest with
            | none => none
            | some (e, rest) =>
                let n : Int := digitsValue (whole ++ decimals)
                some (.num (if negative then -n else n) (e - decimals.length), rest)

mutual

/-- A value without space in front. Each call takes one from `fuel`. -/
def value (d : Dialect) : Nat → CodeUnits → Option (Json × CodeUnits)
  | 0, _ => none
  | fuel + 1, s =>
      match d.constants.find? fun c => c.1.isPrefixOf s with
      | some (text, v) => some (v, s.drop text.length)
      | none =>
          match s with
          | 34 :: rest => (stringBody rest).map fun (s, rest) => (.str s, rest)
          | 91 :: rest =>
              match skip rest with
              | 93 :: rest => some (.arr [], rest)
              | rest => (items d fuel rest).map fun (vs, rest) => (.arr vs, rest)
          | 123 :: rest =>
              match skip rest with
              | 125 :: rest => some (.obj [], rest)
              | rest => (members d fuel rest).map fun (ms, rest) => (.obj ms, rest)
          | s => number d s

/-- The items of an array up to its end, at least one. -/
def items (d : Dialect) : Nat → CodeUnits → Option (List Json × CodeUnits)
  | 0, _ => none
  | fuel + 1, s =>
      match value d fuel s with
      | none => none
      | some (v, rest) =>
          match skip rest with
          | 93 :: rest => some ([v], rest)
          | 44 :: rest => (items d fuel (skip rest)).map fun (vs, rest) => (v :: vs, rest)
          | _ => none

/-- The members of an object up to its end, at least one. -/
def members (d : Dialect) : Nat → CodeUnits → Option (List (CodeUnits × Json) × CodeUnits)
  | 0, _ => none
  | fuel + 1, s =>
      match s with
      | 34 :: rest =>
          match stringBody rest with
          | none => none
          | some (key, rest) =>
              match skip rest with
              | 58 :: rest =>
                  match value d fuel (skip rest) with
                  | none => none
                  | some (v, rest) =>
                      match skip rest with
                      | 125 :: rest => some ([(key, v)], rest)
                      | 44 :: rest =>
                          (members d fuel (skip rest)).map fun (ms, rest) => ((key, v) :: ms, rest)
                      | _ => none
              | _ => none
      | _ => none

end

/-- A whole text. No value is nested deeper than the text is long. -/
def parse (d : Dialect) (s : CodeUnits) : Option Json :=
  match value d (2 * s.length + 2) (skip s) with
  | none => none
  | some (v, rest) => if skip rest = [] then some v else none

/-! ## Encoders -/

/-- One unit inside a string. Only printable ASCII stands for itself. -/
def escape (u : UInt16) : CodeUnits :=
  let n := u.toNat
  if n = 34 then [92, 34]
  else if n = 92 then [92, 92]
  else if n = 8 then [92, 98]
  else if n = 9 then [92, 116]
  else if n = 10 then [92, 110]
  else if n = 12 then [92, 102]
  else if n = 13 then [92, 114]
  else if 32 ≤ n && n ≤ 126 then [u]
  else [92, 117, hexDigit (n / 4096), hexDigit (n / 256 % 16), hexDigit (n / 16 % 16),
    hexDigit (n % 16)]

def encodeString (s : CodeUnits) : CodeUnits := 34 :: s.flatMap escape ++ [34]

def encodeNat (n : Nat) : CodeUnits := (Nat.toDigits 10 n).map fun c => c.toNat.toUInt16

/-- Texts with commas between them. -/
def commas : List CodeUnits → CodeUnits
  | [] => []
  | [t] => t
  | t :: rest => t ++ 44 :: commas rest

theorem commas_cons (t t' : CodeUnits) (rest : List CodeUnits) :
    commas (t :: t' :: rest) = t ++ 44 :: commas (t' :: rest) := rfl

/-- An array of texts. -/
def encodeArray (texts : List CodeUnits) : CodeUnits := 91 :: commas texts ++ [93]

/-- A key with the text of its value. -/
def member (m : CodeUnits × CodeUnits) : CodeUnits := encodeString m.1 ++ 58 :: m.2

/-- An object of texts under their keys. -/
def encodeObject (texts : List (CodeUnits × CodeUnits)) : CodeUnits :=
  123 :: commas (texts.map member) ++ [125]

/-! ## Rules -/

/-- What may follow a value: nothing that would make a number longer. -/
def Delimited (rest : CodeUnits) : Prop :=
  ∀ u ∈ rest.head?, isDigit u = false ∧ u ≠ 46 ∧ u ≠ 101 ∧ u ≠ 69

/-- The text begins with something, and is parsed as the value, whatever follows it. -/
structure Parses (d : Dialect) (text : CodeUnits) (v : Json) : Prop where
  begins : ∃ u rest, text = u :: rest ∧ isSpace u = false ∧ u ≠ 93 ∧ u ≠ 125
  reads : ∀ fuel rest, 2 * text.length ≤ fuel → Delimited rest →
    value d fuel (text ++ rest) = some (v, rest)

theorem delimited_nil : Delimited [] := by
  intro u hu
  cases hu

theorem delimited_cons {u : UInt16} {rest : CodeUnits} (h : u = 44 ∨ u = 93 ∨ u = 125) :
    Delimited (u :: rest) := by
  intro w hw
  obtain rfl := Option.some.inj hw
  rcases h with rfl | rfl | rfl <;> decide

/-- No constant is mistaken for a value of another kind. -/
theorem constants_eq_none (d : Dialect) {u : UInt16} (rest : CodeUnits)
    (h : u = 34 ∨ u = 91 ∨ u = 123 ∨ isDigit u = true) :
    (d.constants.find? fun c => c.1.isPrefixOf (u :: rest)) = none := by
  rw [List.find?_eq_none]
  intro c hc hpre
  obtain ⟨t, ht⟩ := List.isPrefixOf_iff_prefix.1 hpre
  cases htext : c.1 with
  | nil => exact d.nonempty c hc htext
  | cons w text =>
      rw [htext, List.cons_append] at ht
      obtain rfl := (List.cons.inj ht).1
      have hdistinct := d.distinct c hc w (by rw [htext]; rfl)
      rcases h with h | h | h | h
      · exact hdistinct.1 h
      · exact hdistinct.2.1 h
      · exact hdistinct.2.2.1 h
      · rw [hdistinct.2.2.2] at h
        cases h

theorem skip_cons {u : UInt16} (h : isSpace u = false) (rest : CodeUnits) : skip (u :: rest) = u :: rest := by
  rw [skip, List.dropWhile_cons_of_neg (by simp [h])]

/-! ### Strings -/

theorem hexUnit_hexDigits (u : UInt16) :
    hexUnit (hexDigit (u.toNat / 4096)) (hexDigit (u.toNat / 256 % 16))
      (hexDigit (u.toNat / 16 % 16)) (hexDigit (u.toNat % 16)) = some u := by
  have hu := u.toNat_lt
  rw [hexUnit, hexValue_hexDigit (by omega), hexValue_hexDigit (by omega),
    hexValue_hexDigit (by omega), hexValue_hexDigit (by omega)]
  have hsum : ((u.toNat / 4096 * 16 + u.toNat / 256 % 16) * 16 + u.toNat / 16 % 16) * 16 +
      u.toNat % 16 = u.toNat := by omega
  simp only [hsum]
  exact congrArg some (UInt16.ofNat_toNat)

/-- An escaped unit is read back. -/
theorem stringBody_escape (u : UInt16) (rest : CodeUnits) :
    stringBody (escape u ++ rest) = (stringBody rest).map fun (s, rest) => (u :: s, rest) := by
  have hunit : ∀ n : Nat, u.toNat = n → u = n.toUInt16 := by
    rintro n rfl
    exact UInt16.ofNat_toNat.symm
  rw [escape]
  split
  · rename_i h
    rw [hunit 34 h]
    rfl
  split
  · rename_i h
    rw [hunit 92 h]
    rfl
  split
  · rename_i h
    rw [hunit 8 h]
    rfl
  split
  · rename_i h
    rw [hunit 9 h]
    rfl
  split
  · rename_i h
    rw [hunit 10 h]
    rfl
  split
  · rename_i h
    rw [hunit 12 h]
    rfl
  split
  · rename_i h
    rw [hunit 13 h]
    rfl
  split
  · -- printable: neither the quote nor the backslash
    rename_i hquote hbackslash _ _ _ _ _ hprintable
    simp only [Bool.and_eq_true, decide_eq_true_eq] at hprintable
    have hne34 : u ≠ 34 := fun h => hquote (by rw [h]; rfl)
    have hne92 : u ≠ 92 := fun h => hbackslash (by rw [h]; rfl)
    have hlow : ¬ u < 32 := by
      rw [UInt16.lt_iff_toNat_lt]
      have : (32 : UInt16).toNat = 32 := rfl
      omega
    rw [List.singleton_append, stringBody.eq_def]
    split
    · rename_i heq
      cases heq
    · rename_i heq
      exact absurd (List.cons.inj heq).1 hne34
    · rename_i heq
      exact absurd (List.cons.inj heq).1 hne92
    · rename_i heq
      exact absurd (List.cons.inj heq).1 hne92
    · rename_i heq
      obtain ⟨rfl, rfl⟩ := List.cons.inj heq
      simp [hlow, hne92]
  · -- any other
    simp only [List.cons_append, List.nil_append]
    rw [stringBody, hexUnit_hexDigits]

theorem stringBody_encode (s rest : CodeUnits) :
    stringBody (s.flatMap escape ++ 34 :: rest) = some (s, rest) := by
  induction s with
  | nil => rfl
  | cons u s ih =>
      rw [List.flatMap_cons, List.append_assoc, stringBody_escape, ih]
      rfl

theorem parses_encodeString (d : Dialect) (s : CodeUnits) : Parses d (encodeString s) (.str s) := by
  refine ⟨⟨34, _, rfl, by decide⟩, fun fuel rest hfuel _ => ?_⟩
  have hsplit : encodeString s ++ rest = 34 :: (s.flatMap escape ++ 34 :: rest) := by
    simp [encodeString]
  cases fuel with
  | zero => simp [encodeString] at hfuel
  | succ fuel =>
      rw [hsplit, value, constants_eq_none d _ (Or.inl rfl)]
      simp only [stringBody_encode, Option.map_some]

/-! ### Numbers -/

theorem digit_unit {n : Nat} (h : n < 10) :
    (Nat.digitChar n).toNat.toUInt16.toNat = n + 48 := by
  revert n
  decide

/-- The digits of a number: what they are worth, and that none is in vain. -/
theorem encodeNat_spec (n : Nat) :
    (∀ u ∈ encodeNat n, isDigit u = true) ∧ digitsValue (encodeNat n) = n ∧ encodeNat n ≠ [] ∧
      (0 < n → (encodeNat n).head? ≠ some 48) := by
  induction n using Nat.strongRecOn with
  | _ n ih =>
      by_cases hn : n < 10
      · have hone : encodeNat n = [(Nat.digitChar n).toNat.toUInt16] := by
          rw [encodeNat, Nat.toDigits_of_lt_base hn]
          rfl
        rw [hone]
        refine ⟨?_, ?_, by simp, ?_⟩
        · intro u hu
          rw [List.mem_singleton] at hu
          rw [hu, isDigit, digit_unit hn]
          simp only [Bool.and_eq_true, decide_eq_true_eq]
          omega
        · simp [digitsValue, digit_unit hn]
        · intro hpos hzero
          have hvalue := congrArg UInt16.toNat (Option.some.inj hzero)
          rw [digit_unit hn] at hvalue
          have : (48 : UInt16).toNat = 48 := rfl
          omega
      · have hlast : n % 10 < 10 := Nat.mod_lt n (by decide)
        have hsplit : encodeNat n =
            encodeNat (n / 10) ++ [(Nat.digitChar (n % 10)).toNat.toUInt16] := by
          rw [encodeNat, Nat.toDigits_of_base_le (by decide) (by omega), List.map_append]
          rfl
        obtain ⟨hdigits, hvalue, hne, hhead⟩ := ih (n / 10) (by omega)
        rw [hsplit]
        refine ⟨?_, ?_, by simp, ?_⟩
        · intro u hu
          rcases List.mem_append.1 hu with hu | hu
          · exact hdigits u hu
          · rw [List.mem_singleton] at hu
            rw [hu, isDigit, digit_unit hlast]
            simp only [Bool.and_eq_true, decide_eq_true_eq]
            omega
        · rw [digitsValue] at hvalue ⊢
          rw [List.foldl_append, hvalue]
          simp only [List.foldl_cons, List.foldl_nil, digit_unit hlast]
          omega
        · intro _
          rw [List.head?_append_of_ne_nil _ hne]
          exact hhead (by omega)

/-- Digits end where something else begins. -/
theorem span_digits {digits rest : CodeUnits} (h : ∀ u ∈ digits, isDigit u = true)
    (hrest : Delimited rest) : (digits ++ rest).span isDigit = (digits, rest) := by
  have htail : rest.takeWhile isDigit = [] ∧ rest.dropWhile isDigit = rest := by
    cases rest with
    | nil => simp
    | cons u rest =>
        have hu := (hrest u rfl).1
        simp [hu]
  rw [List.span_eq_takeWhile_dropWhile, List.takeWhile_append_of_pos h,
    List.dropWhile_append_of_pos h, htail.1, htail.2, List.append_nil]

theorem fraction_delimited {rest : CodeUnits} (h : Delimited rest) : fraction rest = some ([], rest) := by
  rw [fraction.eq_def]
  split
  · exact absurd rfl (h 46 rfl).2.1
  · rfl

theorem exponent_delimited {rest : CodeUnits} (h : Delimited rest) : exponent rest = some (0, rest) := by
  rw [exponent, if_neg]
  simp only [Bool.or_eq_true, decide_eq_true_eq, not_or]
  exact ⟨fun he => (h 101 he).2.2.1 rfl, fun he => (h 69 he).2.2.2 rfl⟩

/-- The dialect has integers as large as `n`. -/
def Dialect.Takes (d : Dialect) (n : Nat) : Prop :=
  ∀ digits ∈ d.maxDigits, (encodeNat n).length ≤ digits

theorem Dialect.standard_takes (n : Nat) : standard.Takes n := nofun

theorem number_encodeNat {d : Dialect} {n : Nat} (hd : d.Takes n) {rest : CodeUnits}
    (hrest : Delimited rest) : number d (encodeNat n ++ rest) = some (.num n 0, rest) := by
  obtain ⟨hdigits, hvalue, hne, hhead⟩ := encodeNat_spec n
  have hnegative : (encodeNat n ++ rest).head? ≠ some 45 := by
    rw [List.head?_append_of_ne_nil _ hne]
    intro hminus
    have := hdigits 45 (List.mem_of_mem_head? hminus)
    exact absurd this (by decide)
  have hleading : ((encodeNat n).head? = some 48 && (encodeNat n).length ≠ 1) = false := by
    by_cases hn : 0 < n
    · simp [hhead hn]
    · obtain rfl : n = 0 := by omega
      decide
  have hspan := span_digits hdigits hrest
  have hshort : d.tooLong (encodeNat n) rest = false := by
    rw [Dialect.tooLong, Bool.and_eq_false_iff]
    right
    cases hmax : d.maxDigits with
    | none => rfl
    | some digits => simpa using hd digits hmax
  simp only [number, hnegative, if_false, hspan]
  cases hcode : encodeNat n with
  | nil => exact absurd hcode hne
  | cons u digits =>
      rw [hcode] at hleading hvalue hshort
      simp only [hleading, hshort, Bool.false_eq_true, if_false, fraction_delimited hrest,
        exponent_delimited hrest, List.append_nil, hvalue]
      rfl

/-- What begins with a digit is a number. -/
theorem value_digit (d : Dialect) (fuel : Nat) {u : UInt16} (hu : isDigit u = true) (rest : CodeUnits) :
    value d (fuel + 1) (u :: rest) = number d (u :: rest) := by
  have hne : ∀ w : UInt16, isDigit w = false → u ≠ w := by
    rintro w hw rfl
    rw [hu] at hw
    cases hw
  rw [value, constants_eq_none d rest (Or.inr (Or.inr (Or.inr hu)))]
  · exact fun _ heq => hne 34 rfl (List.cons.inj heq).1
  · exact fun _ heq => hne 91 rfl (List.cons.inj heq).1
  · exact fun _ heq => hne 123 rfl (List.cons.inj heq).1

theorem parses_encodeNat {d : Dialect} {n : Nat} (hd : d.Takes n) :
    Parses d (encodeNat n) (.num n 0) := by
  obtain ⟨hdigits, -, hne, -⟩ := encodeNat_spec n
  cases hcode : encodeNat n with
  | nil => exact absurd hcode hne
  | cons u digits =>
      have hu : isDigit u = true := hdigits u (by simp [hcode])
      have hother : ∀ w : UInt16, isDigit w = false → u ≠ w := by
        rintro w hw rfl
        rw [hu] at hw
        cases hw
      refine ⟨⟨u, digits, rfl, ?_, hother 93 rfl, hother 125 rfl⟩, fun fuel rest hfuel hrest => ?_⟩
      · simp [isSpace, hother 32 rfl, hother 9 rfl, hother 10 rfl, hother 13 rfl]
      · cases fuel with
        | zero => simp at hfuel
        | succ fuel =>
            rw [List.cons_append, value_digit d fuel hu, ← List.cons_append, ← hcode]
            exact number_encodeNat hd hrest

/-! ### Arrays and objects -/

theorem Parses.skip_append {d : Dialect} {text : CodeUnits} {v : Json} (h : Parses d text v)
    (rest : CodeUnits) : skip (text ++ rest) = text ++ rest := by
  obtain ⟨u, text, rfl, hu, -⟩ := h.begins
  exact skip_cons hu _

theorem Parses.skip_commas {d : Dialect} {text : CodeUnits} {v : Json} (h : Parses d text v)
    (texts : List CodeUnits) (rest : CodeUnits) :
    skip (commas (text :: texts) ++ rest) = commas (text :: texts) ++ rest := by
  cases texts with
  | nil => exact h.skip_append rest
  | cons t texts =>
      rw [commas_cons, List.append_assoc]
      exact h.skip_append _

/-- Any items are read up to the end of their array. -/
theorem items_commas {d : Dialect} {texts : List CodeUnits} {vs : List Json}
    (h : List.Forall₂ (Parses d) texts vs) (hne : texts ≠ []) (fuel : Nat) (rest : CodeUnits)
    (hfuel : 2 * (commas texts).length + 1 ≤ fuel) :
    items d fuel (commas texts ++ 93 :: rest) = some (vs, rest) := by
  induction h generalizing fuel with
  | nil => exact absurd rfl hne
  | @cons t v texts vs hv hvs ih =>
      cases fuel with
      | zero => omega
      | succ fuel =>
          cases hvs with
          | nil =>
              rw [commas] at hfuel ⊢
              rw [items, hv.reads fuel _ (by omega) (delimited_cons (by simp))]
              rfl
          | @cons t' v' texts vs hv' hvs' =>
              rw [commas_cons, List.length_append, List.length_cons] at hfuel
              rw [commas_cons, List.append_assoc, List.cons_append, items,
                hv.reads fuel _ (by omega) (delimited_cons (by simp))]
              have hcomma : ∀ r : CodeUnits, skip (44 :: r) = 44 :: r := skip_cons (by decide)
              have hrest := ih (by simp) fuel (by omega)
              simp only [hcomma, hv'.skip_commas, hrest, Option.map_some]

theorem parses_encodeArray {d : Dialect} {texts : List CodeUnits} {vs : List Json}
    (h : List.Forall₂ (Parses d) texts vs) : Parses d (encodeArray texts) (.arr vs) := by
  refine ⟨⟨91, _, rfl, by decide⟩, fun fuel rest hfuel _ => ?_⟩
  have hsplit : encodeArray texts ++ rest = 91 :: (commas texts ++ 93 :: rest) := by
    simp [encodeArray]
  cases fuel with
  | zero => simp [encodeArray] at hfuel
  | succ fuel =>
      have hlength : 2 * (commas texts).length + 1 ≤ fuel := by
        simp only [encodeArray, List.length_cons, List.length_append, List.length_nil] at hfuel
        omega
      rw [hsplit, value, constants_eq_none d _ (Or.inr (Or.inl rfl))]
      cases h with
      | nil =>
          have hclose : skip (93 :: rest) = 93 :: rest := skip_cons (by decide) rest
          simp only [commas, List.nil_append, hclose]
      | @cons t v texts vs hv hvs =>
          have hitems := items_commas (.cons hv hvs) (by simp) fuel rest hlength
          simp only [hv.skip_commas]
          split
          · -- the first item does not close the array
            rename_i heq
            obtain ⟨u, text, rfl, -, hu, -⟩ := hv.begins
            cases texts with
            | nil => exact absurd (List.cons.inj heq).1 hu
            | cons t texts => exact absurd (List.cons.inj heq).1 hu
          · rw [hitems, Option.map_some]

/-- The members of an object are read up to its end. -/
theorem members_commas {d : Dialect} {texts : List (CodeUnits × CodeUnits)} {ms : List (CodeUnits × Json)}
    (h : List.Forall₂ (fun t m => t.1 = m.1 ∧ Parses d t.2 m.2) texts ms) (hne : texts ≠ [])
    (fuel : Nat) (rest : CodeUnits) (hfuel : 2 * (commas (texts.map member)).length + 1 ≤ fuel) :
    members d fuel (commas (texts.map member) ++ 125 :: rest) = some (ms, rest) := by
  have hplain : ∀ u : UInt16, u = 44 ∨ u = 58 ∨ u = 125 → ∀ r : CodeUnits, skip (u :: r) = u :: r := by
    rintro u (rfl | rfl | rfl)
    · exact skip_cons (by decide)
    · exact skip_cons (by decide)
    · exact skip_cons (by decide)
  induction h generalizing fuel with
  | nil => exact absurd rfl hne
  | @cons t m texts ms hm hms ih =>
      obtain ⟨key, text⟩ := t
      obtain ⟨key', v⟩ := m
      obtain ⟨rfl, hv⟩ : key = key' ∧ Parses d text v := hm
      have hmember : ∀ r : CodeUnits, member (key, text) ++ r =
          34 :: (key.flatMap escape ++ 34 :: 58 :: (text ++ r)) := by
        intro r
        simp [member, encodeString]
      have hlength : text.length + 3 ≤ (member (key, text)).length := by
        simp only [member, encodeString, List.length_append, List.length_cons, List.length_nil]
        omega
      cases fuel with
      | zero => omega
      | succ fuel =>
          cases hms with
          | nil =>
              rw [List.map_cons, List.map_nil, commas] at hfuel ⊢
              have hvalue := hv.reads fuel (125 :: rest) (by omega) (delimited_cons (by simp))
              rw [hmember, members, stringBody_encode]
              simp only [hplain 58 (by simp), hv.skip_append, hvalue, hplain 125 (by simp)]
          | @cons t' m' texts ms hm' hms' =>
              rw [List.map_cons, List.map_cons, commas_cons, List.length_append,
                List.length_cons] at hfuel
              have hrest := ih (by simp) fuel (by rw [List.map_cons]; omega)
              rw [List.map_cons] at hrest
              have hvalue := hv.reads fuel
                (44 :: (commas (member t' :: texts.map member) ++ 125 :: rest)) (by omega)
                (delimited_cons (by simp))
              have hskip : skip (commas (member t' :: texts.map member) ++ 125 :: rest) =
                  commas (member t' :: texts.map member) ++ 125 :: rest := by
                cases texts with
                | nil => exact skip_cons (by decide) _
                | cons t'' texts => exact skip_cons (by decide) _
              rw [List.map_cons, List.map_cons, commas_cons, List.append_assoc, List.cons_append,
                hmember, members, stringBody_encode]
              simp only [hplain 58 (by simp), hv.skip_append, hvalue, hplain 44 (by simp), hskip,
                hrest, Option.map_some]

theorem parses_encodeObject {d : Dialect} {texts : List (CodeUnits × CodeUnits)}
    {ms : List (CodeUnits × Json)}
    (h : List.Forall₂ (fun t m => t.1 = m.1 ∧ Parses d t.2 m.2) texts ms) :
    Parses d (encodeObject texts) (.obj ms) := by
  refine ⟨⟨123, _, rfl, by decide⟩, fun fuel rest hfuel _ => ?_⟩
  have hsplit : encodeObject texts ++ rest = 123 :: (commas (texts.map member) ++ 125 :: rest) := by
    simp [encodeObject]
  cases fuel with
  | zero => simp [encodeObject] at hfuel
  | succ fuel =>
      have hlength : 2 * (commas (texts.map member)).length + 1 ≤ fuel := by
        have hlen : (encodeObject texts).length = (commas (texts.map member)).length + 2 := by
          simp [encodeObject]
        omega
      rw [hsplit, value, constants_eq_none d _ (Or.inr (Or.inr (Or.inl rfl)))]
      cases h with
      | nil =>
          have hclose : skip (125 :: rest) = 125 :: rest := skip_cons (by decide) rest
          simp only [List.map_nil, commas, List.nil_append, hclose]
      | @cons t m texts ms hm hms =>
          have hmembers := members_commas (.cons hm hms) (by simp) fuel rest hlength
          have hquote : ∃ r, commas ((t :: texts).map member) ++ 125 :: rest = 34 :: r := by
            cases texts with
            | nil => exact ⟨_, rfl⟩
            | cons t' texts => exact ⟨_, rfl⟩
          obtain ⟨r, hr⟩ := hquote
          rw [hr] at hmembers ⊢
          have hskip : skip (34 :: r) = 34 :: r := skip_cons (by decide) r
          simp only [hskip]
          split
          · rename_i heq
            exact absurd (List.cons.inj heq).1 (by decide)
          · rw [hmembers, Option.map_some]

/-- A text by itself. -/
theorem Parses.parse_eq {d : Dialect} {text : CodeUnits} {v : Json} (h : Parses d text v) :
    parse d text = some v := by
  have hvalue := h.reads (2 * text.length + 2) [] (by omega) delimited_nil
  have hskip := h.skip_append []
  rw [List.append_nil] at hvalue hskip
  rw [parse, hskip, hvalue]
  rfl

/-- A text with space behind it. -/
theorem Parses.parse_space {d : Dialect} {text space : CodeUnits} {v : Json} (h : Parses d text v)
    (hspace : ∀ u ∈ space, isSpace u = true) : parse d (text ++ space) = some v := by
  have hdelimited : Delimited space := by
    intro u hu
    have hu := hspace u (List.mem_of_mem_head? hu)
    simp only [isSpace, Bool.or_eq_true, beq_iff_eq] at hu
    rcases hu with ((rfl | rfl) | rfl) | rfl <;> decide
  have hvalue := h.reads (2 * (text ++ space).length + 2) space
    (by rw [List.length_append]; omega) hdelimited
  have hdrop : skip space = [] := by
    rw [skip, List.dropWhile_eq_nil_iff]
    exact hspace
  rw [parse, h.skip_append, hvalue]
  simp only [hdrop, if_true]

/-! ## What encoders write -/

/-- The text is made of printable characters of ASCII. -/
def Printable (s : CodeUnits) : Prop := ∀ u ∈ s, 32 ≤ u.toNat ∧ u.toNat ≤ 126

theorem Printable.append {s t : CodeUnits} (hs : Printable s) (ht : Printable t) :
    Printable (s ++ t) := by
  intro u hu
  rcases List.mem_append.1 hu with hu | hu
  · exact hs u hu
  · exact ht u hu

theorem Printable.cons {u : UInt16} {s : CodeUnits} (hu : 32 ≤ u.toNat ∧ u.toNat ≤ 126)
    (hs : Printable s) : Printable (u :: s) := by
  intro w hw
  rcases List.mem_cons.1 hw with rfl | hw
  · exact hu
  · exact hs w hw

theorem printable_nil : Printable [] := by
  intro u hu
  cases hu

theorem printable_escape (u : UInt16) : Printable (escape u) := by
  have hhex : ∀ n < 16, 32 ≤ (hexDigit n).toNat ∧ (hexDigit n).toNat ≤ 126 := by decide
  have hu := u.toNat_lt
  have htwo : ∀ e : UInt16, 32 ≤ e.toNat ∧ e.toNat ≤ 126 → Printable [92, e] := fun e he =>
    .cons (by decide) (.cons he printable_nil)
  rw [escape]
  split
  · exact htwo 34 (by decide)
  split
  · exact htwo 92 (by decide)
  split
  · exact htwo 98 (by decide)
  split
  · exact htwo 116 (by decide)
  split
  · exact htwo 110 (by decide)
  split
  · exact htwo 102 (by decide)
  split
  · exact htwo 114 (by decide)
  split
  · rename_i hprintable
    simp only [Bool.and_eq_true, decide_eq_true_eq] at hprintable
    exact .cons hprintable printable_nil
  · exact .cons (by decide) (.cons (by decide) (.cons (hhex _ (by omega))
      (.cons (hhex _ (by omega)) (.cons (hhex _ (by omega)) (.cons (hhex _ (by omega))
        printable_nil)))))

theorem printable_encodeString (s : CodeUnits) : Printable (encodeString s) := by
  have hbody : Printable (s.flatMap escape) := by
    intro u hu
    obtain ⟨w, -, hu⟩ := List.mem_flatMap.1 hu
    exact printable_escape w u hu
  exact .append (.cons (by decide) hbody) (.cons (by decide) printable_nil)

theorem printable_encodeNat (n : Nat) : Printable (encodeNat n) := by
  intro u hu
  have hdigit := (encodeNat_spec n).1 u hu
  simp only [isDigit, Bool.and_eq_true, decide_eq_true_eq] at hdigit
  omega

theorem printable_commas {texts : List CodeUnits} (h : ∀ t ∈ texts, Printable t) :
    Printable (commas texts) := by
  induction texts with
  | nil => exact printable_nil
  | cons t texts ih =>
      have hrest := ih fun s hs => h s (List.mem_cons_of_mem t hs)
      cases texts with
      | nil => exact h t (by simp)
      | cons t' texts => exact .append (h t (by simp)) (.cons (by decide) hrest)

theorem printable_encodeArray {texts : List CodeUnits} (h : ∀ t ∈ texts, Printable t) :
    Printable (encodeArray texts) :=
  .append (.cons (by decide) (printable_commas h)) (.cons (by decide) printable_nil)

theorem printable_encodeObject {texts : List (CodeUnits × CodeUnits)}
    (h : ∀ t ∈ texts, Printable t.2) : Printable (encodeObject texts) := by
  have hmembers : ∀ t ∈ texts.map member, Printable t := by
    intro t ht
    obtain ⟨m, hm, rfl⟩ := List.mem_map.1 ht
    exact .append (printable_encodeString m.1) (.cons (by decide) (h m hm))
  exact .append (.cons (by decide) (printable_commas hmembers)) (.cons (by decide) printable_nil)

end Json

end Data
