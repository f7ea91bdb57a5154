import BrowserVpn.Core.Connection
import BrowserVpn.Data.Base64
import BrowserVpn.Data.Double
import BrowserVpn.Data.Json
import BrowserVpn.Data.Utf8

/-!
# Core.KeyDecoder — what a browser makes of the payload of a key

The functions of the platform that `parseConnectionKey` calls one after the other:
`atob`, `TextDecoder` and `JSON.parse`. `Platform.decodeKey` stands for all three;
where they succeed it returns what `decodeKey` does (`DecodesKeys`).
-/

namespace BrowserVpn

open Data

/-! ## atob -/

def isAsciiSpace (u : UInt16) : Bool := u == 9 || u == 10 || u == 12 || u == 13 || u == 32

/-- The value of a character of the alphabet. -/
def sextet (u : UInt16) : Option Nat := if u.toNat < 128 then base64Value u.toUInt8 else none

/-- One or two `=` at the end of whole quanta do not count. -/
def dropPadding (s : JsString) : JsString :=
  if s.length % 4 ≠ 0 then s
  else if (js "==").isSuffixOf s then s.take (s.length - 2)
  else if (js "=").isSuffixOf s then s.take (s.length - 1)
  else s

/-- `atob`: the characters of the binary string, `none` for an
`InvalidCharacterError`. -/
def atob (s : JsString) : Option (List UInt8) :=
  match (dropPadding (s.filter fun u => !isAsciiSpace u)).mapM sextet with
  | none => none
  | some values => decodeSextets values

theorem sextet_digit {n : Nat} (h : n < 64) : sextet (base64Digit n).toUInt16 = some n := by
  revert n
  decide

theorem digit_plain {n : Nat} (h : n < 64) :
    isAsciiSpace (base64Digit n).toUInt16 = false ∧ (base64Digit n).toUInt16 ≠ unit '=' := by
  revert n
  decide

theorem mapM_sextet {values : List Nat} (h : ∀ n ∈ values, n < 64) :
    (values.map fun n => (base64Digit n).toUInt16).mapM sextet = some values := by
  induction values with
  | nil => rfl
  | cons n values ih =>
      have hrest := ih fun m hm => h m (List.mem_cons_of_mem n hm)
      simp [sextet_digit (h n (by simp)), hrest]

/-- Padding of whole quanta is dropped. -/
theorem dropPadding_append {digits : JsString} {k : Nat} (hk : k < 3)
    (hdigits : ∀ u ∈ digits, u ≠ unit '=') (hlength : (digits.length + k) % 4 = 0) :
    dropPadding (digits ++ List.replicate k (unit '=')) = digits := by
  have hnot : ∀ t : JsString, t ≠ [] → (∀ u ∈ t, u = unit '=') → ¬ t <:+ digits := by
    rintro t hne ht hsuffix
    obtain ⟨u, hu⟩ := List.exists_mem_of_ne_nil t hne
    exact hdigits u (hsuffix.mem hu) (ht u hu)
  have hone : js "=" = [unit '='] := rfl
  have htwo : js "==" = [unit '='] ++ [unit '='] := rfl
  rw [dropPadding, if_neg (by simp [hlength])]
  obtain rfl | rfl | rfl : k = 0 ∨ k = 1 ∨ k = 2 := by omega
  · have h1 := hnot (js "=") (by decide) (by simp [hone])
    have h2 := hnot (js "==") (by decide) (by simp [htwo])
    rw [List.replicate_zero, List.append_nil,
      if_neg fun h => h2 (List.isSuffixOf_iff_suffix.1 h),
      if_neg fun h => h1 (List.isSuffixOf_iff_suffix.1 h)]
  · have h2 : ¬ js "==" <:+ digits ++ [unit '='] := by
      rintro ⟨t, ht⟩
      rw [htwo, ← List.append_assoc] at ht
      exact hdigits (unit '=') (by rw [← List.append_left_inj _ |>.1 ht]; simp) rfl
    have h1 : js "=" <:+ digits ++ [unit '='] := ⟨digits, rfl⟩
    rw [List.replicate_one, if_neg fun h => h2 (List.isSuffixOf_iff_suffix.1 h),
      if_pos (List.isSuffixOf_iff_suffix.2 h1)]
    simp
  · have h2 : js "==" <:+ digits ++ List.replicate 2 (unit '=') := ⟨digits, rfl⟩
    rw [if_pos (List.isSuffixOf_iff_suffix.2 h2)]
    simp

/-- `atob` reads what is encoded and padded. -/
theorem atob_sextets (bytes : List UInt8) :
    atob (((sextets bytes).map fun n => (base64Digit n).toUInt16) ++
      List.replicate (padding bytes) (unit '=')) = some bytes := by
  have hplain : ∀ u ∈ (sextets bytes).map fun n => (base64Digit n).toUInt16,
      isAsciiSpace u = false ∧ u ≠ unit '=' := by
    intro u hu
    obtain ⟨n, hn, rfl⟩ := List.mem_map.1 hu
    exact digit_plain (sextets_lt bytes n hn)
  obtain ⟨hlength, hpadding⟩ := length_sextets bytes
  have hkeep : (((sextets bytes).map fun n => (base64Digit n).toUInt16) ++
      List.replicate (padding bytes) (unit '=')).filter (fun u => !isAsciiSpace u) =
      ((sextets bytes).map fun n => (base64Digit n).toUInt16) ++
        List.replicate (padding bytes) (unit '=') := by
    rw [List.filter_eq_self]
    intro u hu
    rcases List.mem_append.1 hu with hu | hu
    · rw [(hplain u hu).1]
      rfl
    · rw [List.eq_of_mem_replicate hu]
      decide
  have hdrop := dropPadding_append hpadding (fun u hu => (hplain u hu).2)
    (by rw [List.length_map]; exact hlength)
  rw [atob, hkeep, hdrop, mapM_sextet (sextets_lt bytes)]
  exact decodeSextets_sextets bytes

/-! ## TextDecoder -/

/-- `new TextDecoder('utf-8', { fatal: true }).decode`. A mark at the beginning is
dropped. -/
def textDecode (bytes : List UInt8) : Option (List Char) :=
  match bytes.toByteArray.utf8Decode? with
  | none => none
  | some text => some (if text.toList.head? = some '\uFEFF' then text.toList.tail else text.toList)

theorem textDecode_utf8 {text : List Char} (h : text.head? ≠ some '\uFEFF') :
    textDecode (utf8 text) = some text := by
  have hbytes : (utf8 text).toByteArray = text.utf8Encode := rfl
  rw [textDecode, hbytes, List.utf8Decode?_utf8Encode]
  simp only
  rw [if_neg (by simpa using h)]

/-! ## JSON.parse -/

/-- A member is put in place of one with its key, or after the others. -/
def setField (fields : List (JsString × JsVal)) (key : JsString) (v : JsVal) :
    List (JsString × JsVal) :=
  if fields.any fun f => f.1 == key then fields.map fun f => if f.1 == key then (key, v) else f
  else fields ++ [(key, v)]

mutual

/-- The value that a text denotes. Numbers are rounded. -/
def jsonToJs : Json → JsVal
  | .null => .null
  | .bool b => .bool b
  | .num mantissa exponent => .num (toDouble (mantissa * 10 ^ exponent))
  | .nonfinite => .num none
  | .str s => .str s
  | .arr items => .arr (itemsToJs items)
  | .obj members => .obj (membersToJs [] members)

def itemsToJs : List Json → List JsVal
  | [] => []
  | v :: rest => jsonToJs v :: itemsToJs rest

/-- Of members with one key the last counts. -/
def membersToJs (fields : List (JsString × JsVal)) :
    List (CodeUnits × Json) → List (JsString × JsVal)
  | [] => fields
  | (key, v) :: rest => membersToJs (setField fields key (jsonToJs v)) rest

end

/-- `JSON.parse`, `none` for a `SyntaxError`. -/
def jsonParse (text : JsString) : Option JsVal := (Json.parse .standard text).map jsonToJs

theorem jsonToJs_nat {n : Nat} (h : n < 2 ^ 53) : jsonToJs (.num n 0) = .num (some n) := by
  rw [jsonToJs, zpow_zero, mul_one, Int.cast_natCast, toDouble_natCast h]

/-! ## The decoder -/

/-- `base64.padEnd(Math.ceil(base64.length / 4) * 4, '=')`. -/
def padQuanta (s : JsString) : JsString :=
  s ++ List.replicate ((s.length + 3) / 4 * 4 - s.length) (unit '=')

/-- What `parseConnectionKey` makes of the text after the prefix, up to the value
that it validates. -/
def decodeKey (encoded : JsString) : Option JsVal :=
  let base64 := (encoded.map fun u => if u = unit '-' then unit '+' else u).map fun u =>
    if u = unit '_' then unit '/' else u
  match atob (padQuanta base64) with
  | none => none
  | some bytes =>
      match textDecode bytes with
      | none => none
      | some text => jsonParse (text.flatMap utf16)

/-- The platform decodes keys as its three functions are documented. -/
def DecodesKeys [Platform] : Prop :=
  ∀ encoded value, decodeKey encoded = some value → Platform.decodeKey encoded = .ok value

theorem padQuanta_sextets (bytes : List UInt8) {digits : JsString}
    (h : digits.length = (sextets bytes).length) :
    padQuanta digits = digits ++ List.replicate (padding bytes) (unit '=') := by
  obtain ⟨hlength, hpadding⟩ := length_sextets bytes
  rw [padQuanta, h]
  congr 2
  omega

end BrowserVpn
