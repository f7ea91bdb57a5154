import Mathlib.Data.List.Basic
import Mathlib.Data.List.Induction
import Mathlib.Tactic.Common

/-!
# Data.Utf8 — text and its bytes

Two programs that read one file, one as bytes and one as characters, see the same
ASCII characters in the same places: a character of ASCII is its own byte and all
bytes of the others are from 128 on. The lemmas carry a cut at an ASCII character,
a prefix and a suffix from the text to its bytes.
-/

namespace Data

/-- The UTF-8 bytes of a text. -/
def utf8 (s : List Char) : List UInt8 := s.flatMap String.utf8EncodeChar

/-- The byte of a character of ASCII. -/
def asciiByte (c : Char) : UInt8 := UInt8.ofNat c.toNat

theorem toNat_asciiByte {c : Char} (h : c.toNat < 128) : (asciiByte c).toNat = c.toNat := by
  rw [asciiByte, UInt8.toNat_ofNat']
  omega

theorem asciiByte_inj {c d : Char} (hc : c.toNat < 128) (hd : d.toNat < 128) :
    asciiByte c = asciiByte d ↔ c = d := by
  refine ⟨fun h => ?_, fun h => h ▸ rfl⟩
  have hnat := congrArg UInt8.toNat h
  rw [toNat_asciiByte hc, toNat_asciiByte hd] at hnat
  rw [← Char.ofNat_toNat c, ← Char.ofNat_toNat d, hnat]

theorem utf8EncodeChar_ascii {c : Char} (h : c.toNat < 128) :
    String.utf8EncodeChar c = [asciiByte c] := by
  have hle : c.val.toNat ≤ 127 := Nat.le_of_lt_succ h
  rw [String.utf8EncodeChar, if_pos hle]
  rfl

/-- The bytes of other characters are from 128 on. -/
theorem le_of_mem_utf8EncodeChar {c : Char} (h : 128 ≤ c.toNat) {b : UInt8}
    (hb : b ∈ String.utf8EncodeChar c) : 128 ≤ b.toNat := by
  have hval : ¬ c.val.toNat ≤ 127 := Nat.not_le.2 h
  rw [String.utf8EncodeChar, if_neg hval] at hb
  split at hb
  · simp only [List.mem_cons, List.not_mem_nil, or_false] at hb
    rcases hb with rfl | rfl <;> rw [UInt8.toNat_ofNat'] <;> omega
  split at hb
  · simp only [List.mem_cons, List.not_mem_nil, or_false] at hb
    rcases hb with rfl | rfl | rfl <;> rw [UInt8.toNat_ofNat'] <;> omega
  · simp only [List.mem_cons, List.not_mem_nil, or_false] at hb
    rcases hb with rfl | rfl | rfl | rfl <;> rw [UInt8.toNat_ofNat'] <;> omega

@[simp] theorem utf8_nil : utf8 [] = [] := rfl

@[simp] theorem utf8_append (s t : List Char) : utf8 (s ++ t) = utf8 s ++ utf8 t :=
  List.flatMap_append

theorem utf8_cons (c : Char) (s : List Char) :
    utf8 (c :: s) = String.utf8EncodeChar c ++ utf8 s := List.flatMap_cons

theorem utf8_cons_ascii {c : Char} (h : c.toNat < 128) (s : List Char) :
    utf8 (c :: s) = asciiByte c :: utf8 s := by
  rw [utf8_cons, utf8EncodeChar_ascii h]
  rfl

theorem utf8_ascii {s : List Char} (h : ∀ c ∈ s, c.toNat < 128) : utf8 s = s.map asciiByte := by
  induction s with
  | nil => rfl
  | cons c s ih =>
      rw [utf8_cons_ascii (h c (by simp)), ih fun d hd => h d (by simp [hd]), List.map_cons]

@[simp] theorem utf8_eq_nil {s : List Char} : utf8 s = [] ↔ s = [] := by
  cases s with
  | nil => simp
  | cons c s => simp [utf8_cons, String.utf8EncodeChar_ne_nil]

/-- A text has one encoding. -/
theorem utf8_injective : Function.Injective utf8 := by
  intro s t h
  have hbytes : (String.ofList s).toByteArray = (String.ofList t).toByteArray := by
    simp only [String.toByteArray_ofList, List.utf8Encode]
    exact congrArg List.toByteArray h
  exact String.ofList_injective (String.toByteArray_inj.1 hbytes)

/-- The byte of an ASCII character is in the bytes where the character is in the
text. -/
theorem asciiByte_mem_utf8 {c : Char} (h : c.toNat < 128) {s : List Char} :
    asciiByte c ∈ utf8 s ↔ c ∈ s := by
  constructor
  · intro hc
    obtain ⟨d, hd, hmem⟩ := List.mem_flatMap.1 hc
    rcases Nat.lt_or_ge d.toNat 128 with hlt | hge
    · rw [utf8EncodeChar_ascii hlt, List.mem_singleton, asciiByte_inj h hlt] at hmem
      exact hmem ▸ hd
    · have := le_of_mem_utf8EncodeChar hge hmem
      rw [toNat_asciiByte h] at this
      omega
  · intro hc
    refine List.mem_flatMap.2 ⟨c, hc, ?_⟩
    rw [utf8EncodeChar_ascii h, List.mem_singleton]

/-- Bytes that end with that of an ASCII character belong to a text that ends with
it. -/
theorem utf8_eq_append_ascii {c : Char} (h : c.toNat < 128) {s : List Char} {bytes : List UInt8}
    (hs : utf8 s = bytes ++ [asciiByte c]) : ∃ t, s = t ++ [c] ∧ utf8 t = bytes := by
  rcases s.eq_nil_or_concat with rfl | ⟨t, d, rfl⟩
  · simp at hs
  have hlast : utf8 t ++ String.utf8EncodeChar d = bytes ++ [asciiByte c] := by
    simpa [List.concat_eq_append, utf8_cons] using hs
  rcases Nat.lt_or_ge d.toNat 128 with hlt | hge
  · rw [utf8EncodeChar_ascii hlt] at hlast
    obtain ⟨ht, hd⟩ := List.append_inj' hlast rfl
    rw [List.singleton_inj, asciiByte_inj hlt h] at hd
    subst hd
    exact ⟨t, List.concat_eq_append, ht⟩
  · have hmem : asciiByte c ∈ String.utf8EncodeChar d := by
      have hend := congrArg List.getLast? hlast
      rw [List.getLast?_append_of_ne_nil _ String.utf8EncodeChar_ne_nil, List.getLast?_concat] at hend
      exact List.mem_of_getLast? hend
    have := le_of_mem_utf8EncodeChar hge hmem
    rw [toNat_asciiByte h] at this
    omega

/-- The same for a text in ASCII. -/
theorem utf8_eq_append {t : List Char} (h : ∀ c ∈ t, c.toNat < 128) {s : List Char}
    {bytes : List UInt8} (hs : utf8 s = bytes ++ utf8 t) : ∃ x, s = x ++ t ∧ utf8 x = bytes := by
  induction t using List.reverseRecOn generalizing s with
  | nil => exact ⟨s, by simp, by simpa using hs⟩
  | append_singleton t c ih =>
      have hc := h c (by simp)
      rw [utf8_append, utf8_cons_ascii hc, utf8_nil, ← List.append_assoc] at hs
      obtain ⟨r, rfl, hr⟩ := utf8_eq_append_ascii hc hs
      obtain ⟨x, rfl, hx⟩ := ih (fun d hd => h d (by simp [hd])) hr
      exact ⟨x, List.append_assoc x t [c], hx⟩

/-- A cut of the bytes at an ASCII character cuts the text. -/
theorem utf8_eq_append_cons {c : Char} (h : c.toNat < 128) {s : List Char} {a b : List UInt8}
    (hs : utf8 s = a ++ asciiByte c :: b) : ∃ x y, s = x ++ c :: y ∧ utf8 x = a ∧ utf8 y = b := by
  induction s generalizing a with
  | nil => simp at hs
  | cons d s ih =>
      rw [utf8_cons] at hs
      rcases List.append_eq_append_iff.1 hs with ⟨m, rfl, hm⟩ | ⟨m, hd, hm⟩
      · obtain ⟨x, y, rfl, rfl, rfl⟩ := ih hm
        exact ⟨d :: x, y, rfl, utf8_cons d x, rfl⟩
      · -- The byte is one of the first character, or begins the rest.
        cases m with
        | nil =>
            obtain ⟨x, y, rfl, hx, rfl⟩ := ih (a := []) (by simpa using hm.symm)
            obtain rfl : x = [] := utf8_eq_nil.1 hx
            exact ⟨[d], y, rfl, by rw [utf8_cons, utf8_nil]; simpa using hd, rfl⟩
        | cons e m =>
            obtain ⟨rfl, rfl⟩ := List.cons.inj hm
            have hmem : asciiByte c ∈ String.utf8EncodeChar d := by rw [hd]; simp
            rcases Nat.lt_or_ge d.toNat 128 with hlt | hge
            · rw [utf8EncodeChar_ascii hlt] at hd hmem
              obtain rfl := (asciiByte_inj h hlt).1 (List.mem_singleton.1 hmem)
              obtain ⟨rfl, rfl⟩ : a = [] ∧ m = [] := by
                have hlen := congrArg List.length hd
                simp only [List.length_append, List.length_cons, List.length_nil] at hlen
                exact ⟨List.length_eq_zero_iff.1 (by omega), List.length_eq_zero_iff.1 (by omega)⟩
              exact ⟨[], s, rfl, rfl, rfl⟩
            · have := le_of_mem_utf8EncodeChar hge hmem
              rw [toNat_asciiByte h] at this
              omega

end Data
