import Mathlib.Data.List.Sort
import Mathlib.Tactic.Common

/-!
# Core.Text — JavaScript strings and values

`core.mjs` is written against JavaScript strings (sequences of UTF-16 code
units) and JSON values. This module has the pieces of both that it uses. Two
things it leaves to the browser's own tables and decoders, as the class
`Platform`: how letters outside ASCII are lower-cased, and how the payload of
a connection key is decoded (`atob`, `TextDecoder`, `JSON.parse`).
-/

namespace BrowserVpn

/-- A JavaScript string: its UTF-16 code units. -/
abbrev JsString := List UInt16

/-- The code units of one character. -/
def utf16 (c : Char) : JsString :=
  let n := c.toNat
  if n < 0x10000 then [n.toUInt16]
  else [(0xD800 + (n - 0x10000) / 0x400).toUInt16, (0xDC00 + (n - 0x10000) % 0x400).toUInt16]

/-- A string literal. -/
def js (s : String) : JsString := s.toList.flatMap utf16

/-- The code unit of a character of the basic plane. -/
def unit (c : Char) : UInt16 := c.toNat.toUInt16

/-- A JavaScript value as storage and `JSON.parse` hold them. A number is
`none` when it is not finite. Keys of an object are distinct. -/
inductive JsVal where
  | undefined
  | null
  | bool (b : Bool)
  | num (q : Option Rat)
  | str (s : JsString)
  | arr (items : List JsVal)
  | obj (fields : List (JsString × JsVal))

namespace JsVal

/-- `Boolean(value)`. -/
def truthy : JsVal → Bool
  | .undefined => false
  | .null => false
  | .bool b => b
  | .num none => true
  | .num (some q) => q != 0
  | .str s => !s.isEmpty
  | .arr _ => true
  | .obj _ => true

/-- Property access on an object's own fields. -/
def field (fields : List (JsString × JsVal)) (key : JsString) : JsVal :=
  match fields.find? (fun f => f.1 == key) with
  | some f => f.2
  | none => .undefined

/-- `Number.isInteger`, with the integer. -/
def integer? : JsVal → Option Int
  | .num (some q) => if q.den = 1 then some q.num else none
  | _ => none

end JsVal

/-! ## Character classes -/

/-- `\s`, which is also what `trim` removes: white space and line ends. -/
def isSpace (u : UInt16) : Bool :=
  let n := u.toNat
  (9 ≤ n && n ≤ 13) || n == 32 || n == 160 || n == 5760 || (8192 ≤ n && n ≤ 8202) ||
    n == 8232 || n == 8233 || n == 8239 || n == 8287 || n == 12288 || n == 65279

/-- `\d`. -/
def isDigit (u : UInt16) : Bool := 48 ≤ u.toNat && u.toNat ≤ 57

/-- `[a-z]`. -/
def isLower (u : UInt16) : Bool := 97 ≤ u.toNat && u.toNat ≤ 122

/-- `[A-Z]`. -/
def isUpper (u : UInt16) : Bool := 65 ≤ u.toNat && u.toNat ≤ 90

/-- A control character: `[\x00-\x1f\x7f]`. -/
def isControl (u : UInt16) : Bool := u.toNat < 32 || u.toNat == 127

/-! ## Platform tables -/

/-- What `core.mjs` takes from the browser. `lowerOther` lower-cases one code
unit outside ASCII in its context. The two letters whose lower case reaches
into ASCII, U+0130 and U+212A, are not its business: `lowerUnit` has them.
Its own results stay outside ASCII and are never one of these two capitals. -/
class Platform where
  lowerOther : (before : JsString) → (u : UInt16) → (after : JsString) → JsString
  lowerOther_ne_nil : ∀ before u after, lowerOther before u after ≠ []
  lowerOther_outside : ∀ before u after, ∀ w ∈ lowerOther before u after,
    128 ≤ w.toNat ∧ w.toNat ≠ 0x130 ∧ w.toNat ≠ 0x212A
  decodeKey : JsString → Except String JsVal

/-- A platform for text in ASCII, where no key decodes. -/
@[reducible] def Platform.ascii : Platform where
  lowerOther _ _ _ := [0xFF]
  lowerOther_ne_nil _ _ _ := by simp
  lowerOther_outside _ _ _ w hw := by
    simp only [List.mem_singleton] at hw
    subst hw
    decide
  decodeKey _ := .error "no key"

section Lower

variable [Platform]

/-- The lower case of one code unit. -/
def lowerUnit (before : JsString) (u : UInt16) (after : JsString) : JsString :=
  if isUpper u then [u + 32]
  else if u.toNat < 128 then [u]
  else if u.toNat = 0x130 then [unit 'i', 0x307]
  else if u.toNat = 0x212A then [unit 'k']
  else Platform.lowerOther before u after

/-- `lowerUnit` along a string, with what came before it. -/
def lowerFrom (before : JsString) : JsString → JsString
  | [] => []
  | u :: rest => lowerUnit before u rest ++ lowerFrom (before ++ [u]) rest

/-- `String.prototype.toLowerCase`. -/
def toLowerCase (s : JsString) : JsString := lowerFrom [] s

theorem lowerFrom_of_lower (s before : JsString)
    (h : ∀ u ∈ s, isUpper u = false ∧ u.toNat < 128) : lowerFrom before s = s := by
  induction s generalizing before with
  | nil => rfl
  | cons u rest ih =>
      have hu := h u (by simp)
      rw [lowerFrom, lowerUnit, if_neg (by simp [hu.1]), if_pos hu.2,
        ih (before ++ [u]) fun w hw => h w (by simp [hw])]
      rfl

/-- ASCII text without capitals is its own lower case. -/
theorem toLowerCase_of_lower {s : JsString} (h : ∀ u ∈ s, isUpper u = false ∧ u.toNat < 128) :
    toLowerCase s = s :=
  lowerFrom_of_lower s [] h

/-- Nothing in a lower-cased text is a capital `lowerUnit` would change. -/
theorem lowerFrom_units {s before : JsString} :
    ∀ w ∈ lowerFrom before s, isUpper w = false ∧ w.toNat ≠ 0x130 ∧ w.toNat ≠ 0x212A := by
  induction s generalizing before with
  | nil => simp [lowerFrom]
  | cons u rest ih =>
      intro w hw
      rw [lowerFrom, List.mem_append] at hw
      rcases hw with hw | hw
      · have hout : w.toNat < 65 ∨ (90 < w.toNat ∧ w.toNat ≠ 0x130 ∧ w.toNat ≠ 0x212A) := by
          rw [lowerUnit] at hw
          split at hw
          · rename_i hup
            rw [List.mem_singleton] at hw
            simp only [isUpper, Bool.and_eq_true, decide_eq_true_eq] at hup
            have hadd : w.toNat = u.toNat + 32 := by
              rw [hw, UInt16.toNat_add]
              exact Nat.mod_eq_of_lt (show u.toNat + 32 < 65536 by omega)
            omega
          · rename_i hup
            simp only [isUpper, Bool.and_eq_true, decide_eq_true_eq] at hup
            split at hw
            · rw [List.mem_singleton] at hw
              subst hw
              omega
            · split at hw
              · rw [List.mem_cons, List.mem_singleton] at hw
                rcases hw with rfl | rfl <;> decide
              · split at hw
                · rw [List.mem_singleton] at hw
                  subst hw
                  decide
                · have := Platform.lowerOther_outside before u rest w hw
                  omega
        refine ⟨?_, by omega, by omega⟩
        simp only [isUpper, Bool.and_eq_false_iff, decide_eq_false_iff_not]
        omega
      · exact ih w hw

/-- A text with an ASCII lower case is ASCII, but for U+0130 and U+212A. -/
theorem ascii_of_lowerFrom {s before : JsString}
    (hs : ∀ u ∈ s, u.toNat ≠ 0x130 ∧ u.toNat ≠ 0x212A)
    (h : ∀ w ∈ lowerFrom before s, w.toNat < 128) : ∀ u ∈ s, u.toNat < 128 := by
  induction s generalizing before with
  | nil => simp
  | cons u rest ih =>
      rw [lowerFrom] at h
      intro w hw
      rw [List.mem_cons] at hw
      rcases hw with rfl | hw
      · by_contra hge
        have hcaps := hs w (by simp)
        have hup : isUpper w = false := by
          simp only [isUpper, Bool.and_eq_false_iff, decide_eq_false_iff_not]
          omega
        have himage : lowerUnit before w rest = Platform.lowerOther before w rest := by
          rw [lowerUnit, if_neg (by simp [hup]), if_neg hge, if_neg hcaps.1, if_neg hcaps.2]
        obtain ⟨z, hz⟩ := List.exists_mem_of_ne_nil _ (Platform.lowerOther_ne_nil before w rest)
        have hzlow := h z (by rw [himage]; exact List.mem_append_left _ hz)
        have hzout := (Platform.lowerOther_outside before w rest z hz).1
        omega
      · exact ih (fun u hu => hs u (by simp [hu]))
          (fun z hz => h z (List.mem_append_right _ hz)) w hw

end Lower

/-! ## Strings -/

/-- `String.prototype.trim`. -/
def trim (s : JsString) : JsString :=
  ((s.dropWhile isSpace).reverse.dropWhile isSpace).reverse

theorem trim_of_no_space {s : JsString} (h : ∀ u ∈ s, isSpace u = false) : trim s = s := by
  have hdrop : ∀ t : JsString, (∀ u ∈ t, isSpace u = false) → t.dropWhile isSpace = t := by
    intro t ht
    cases t with
    | nil => rfl
    | cons u rest => simp [ht u (by simp)]
  rw [trim, hdrop s h, hdrop s.reverse (by simpa using h), List.reverse_reverse]

/-- `split(separator)` at one code unit. -/
def splitAt (separator : UInt16) (s : JsString) : List JsString := s.splitOn separator

/-- `join(separator)` at one code unit. -/
def joinWith (separator : UInt16) (parts : List JsString) : JsString :=
  [separator].intercalate parts

/-- The decimal digits of a natural number, as `String(n)` has them. -/
def decimal (n : Nat) : JsString := (Nat.toDigits 10 n).flatMap utf16

/-- `Number(digits)` for a string of decimal digits. -/
def ofDecimal (s : JsString) : Nat := s.foldl (fun n u => 10 * n + (u.toNat - 48)) 0

/-- One hexadecimal digit. -/
def hexDigit (n : Nat) : UInt16 := ((if n < 10 then 48 else 87) + n).toUInt16

/-- One code unit inside `JSON.stringify` of a string; a surrogate without
its partner is escaped. -/
def jsonUnit (before : JsString) (u : UInt16) (after : JsString) : JsString :=
  let n := u.toNat
  let high (w : Option UInt16) := w.any fun w => 0xD800 ≤ w.toNat && w.toNat < 0xDC00
  let low (w : Option UInt16) := w.any fun w => 0xDC00 ≤ w.toNat && w.toNat < 0xE000
  let escape := js "\\u" ++ [hexDigit (n / 4096), hexDigit (n / 256 % 16), hexDigit (n / 16 % 16),
    hexDigit (n % 16)]
  if n = 34 then js "\\\""
  else if n = 92 then js "\\\\"
  else if n = 8 then js "\\b"
  else if n = 9 then js "\\t"
  else if n = 10 then js "\\n"
  else if n = 12 then js "\\f"
  else if n = 13 then js "\\r"
  else if n < 32 then escape
  else if high (some u) && !low after.head? then escape
  else if low (some u) && !high before.getLast? then escape
  else [u]

/-- `jsonUnit` along a string, with what came before it. -/
def jsonFrom (before : JsString) : JsString → JsString
  | [] => []
  | u :: rest => jsonUnit before u rest ++ jsonFrom (before ++ [u]) rest

/-- `JSON.stringify` of a string. -/
def jsonString (s : JsString) : JsString := [unit '"'] ++ jsonFrom [] s ++ [unit '"']

/-- `JSON.stringify` of an array of strings. -/
def jsonStrings (items : List JsString) : JsString :=
  [unit '['] ++ joinWith (unit ',') (items.map jsonString) ++ [unit ']']

end BrowserVpn
