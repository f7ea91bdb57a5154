import Mathlib.Data.List.TakeWhile
import Mathlib.Tactic.Common

/-!
# Data.Split — a list cut at its first separator

What `split(separator, 1)` and `Cut` do in any language, on any list.
-/

namespace Data

variable {α : Type} [DecidableEq α]

/-- What stands before and after the first `separator`. -/
def splitFirst (separator : α) (s : List α) : Option (List α × List α) :=
  match s.dropWhile fun b => b != separator with
  | _ :: after => some (s.takeWhile fun b => b != separator, after)
  | [] => none

theorem splitFirst_eq_some {s before after : List α} {separator : α} :
    splitFirst separator s = some (before, after) ↔
      s = before ++ separator :: after ∧ separator ∉ before := by
  constructor
  · intro h
    rw [splitFirst] at h
    split at h
    · rename_i b y hdrop
      obtain ⟨rfl, rfl⟩ := Prod.mk.inj (Option.some.inj h)
      have hb : b = separator := by
        have hne : s.dropWhile (fun b => b != separator) ≠ [] := by simp [hdrop]
        have hhead := List.head_dropWhile_not (fun b => b != separator) hne
        simpa [hdrop] using hhead
      subst hb
      refine ⟨?_, fun hmem => by simpa using List.mem_takeWhile_imp hmem⟩
      rw [← hdrop, List.takeWhile_append_dropWhile]
    · cases h
  · rintro ⟨rfl, hnot⟩
    have hall : ∀ b ∈ before, (b != separator) = true := by
      intro b hb
      simp only [bne_iff_ne, ne_eq]
      rintro rfl
      exact hnot hb
    rw [splitFirst, List.takeWhile_append_of_pos hall, List.dropWhile_append_of_pos hall,
      List.takeWhile_cons_of_neg (by simp), List.dropWhile_cons_of_neg (by simp), List.append_nil]

theorem splitFirst_eq_none {s : List α} {separator : α} :
    splitFirst separator s = none ↔ separator ∉ s := by
  have hdrop : s.dropWhile (fun b => b != separator) = [] ↔ separator ∉ s := by
    rw [List.dropWhile_eq_nil_iff]
    exact ⟨fun h hmem => by simpa using h separator hmem,
      fun h b hb => by simpa using fun he : b = separator => h (he ▸ hb)⟩
  rw [splitFirst, ← hdrop]
  split
  · rename_i heq
    simp [heq]
  · rename_i heq
    simp [heq]

/-- A text that is cut at every separator and translated piece by piece. -/
theorem splitOn_map {β : Type} [DecidableEq β] (f : α → β) {separator : α} {s : List α}
    (h : ∀ a ∈ s, f a = f separator → a = separator) :
    (s.map f).splitOn (f separator) = (s.splitOn separator).map (List.map f) := by
  induction s with
  | nil => rfl
  | cons a s ih =>
      have hrest := ih fun b hb => h b (List.mem_cons_of_mem a hb)
      rw [List.map_cons, List.splitOn_cons_eq_if_modifyHead, List.splitOn_cons_eq_if_modifyHead,
        hrest]
      by_cases ha : a = separator
      · simp [ha]
      · have hne : f a ≠ f separator := fun heq => ha (h a (by simp) heq)
        simp only [beq_iff_eq, hne, ha, if_false]
        cases hpieces : s.splitOn separator with
        | nil => exact absurd hpieces (List.splitOn_ne_nil separator s)
        | cons piece pieces => rfl

section

omit [DecidableEq α]

/-- What is appended to a list that is cut goes to its last piece. -/
theorem splitOnP_concat (p : α → Bool) (s : List α) {a : α} (ha : p a = false) :
    ∃ before last, s.splitOnP p = before ++ [last] ∧
      (s ++ [a]).splitOnP p = before ++ [last ++ [a]] := by
  induction s with
  | nil =>
      refine ⟨[], [], rfl, ?_⟩
      rw [List.nil_append, List.splitOnP_eq_singleton (by simpa using ha)]
      rfl
  | cons b s ih =>
      rcases ih with ⟨before, last, hbefore, hafter⟩
      rw [List.cons_append, List.splitOnP_cons_eq_if_modifyHead, List.splitOnP_cons_eq_if_modifyHead,
        hbefore, hafter]
      cases p b with
      | true => exact ⟨[] :: before, last, rfl, rfl⟩
      | false =>
          cases before with
          | nil => exact ⟨[], b :: last, rfl, rfl⟩
          | cons piece before => exact ⟨(b :: piece) :: before, last, rfl, rfl⟩

/-- What a joined text is made of. -/
theorem mem_intercalate {separator a : α} {pieces : List (List α)}
    (h : a ∈ [separator].intercalate pieces) : a = separator ∨ ∃ p ∈ pieces, a ∈ p := by
  induction pieces with
  | nil => simp at h
  | cons p rest ih =>
      cases rest with
      | nil =>
          rw [List.intercalate_singleton] at h
          exact Or.inr ⟨p, by simp, h⟩
      | cons q rest =>
          rw [List.intercalate_cons_cons, List.mem_append, List.mem_append,
            List.mem_singleton] at h
          rcases h with (hp | hs) | hr
          · exact Or.inr ⟨p, by simp, hp⟩
          · exact Or.inl hs
          · rcases ih hr with hs | ⟨r, hr, ha⟩
            · exact Or.inl hs
            · exact Or.inr ⟨r, List.mem_cons_of_mem p hr, ha⟩

theorem mem_intercalate_of_mem {separator a : α} {p : List α} {pieces : List (List α)}
    (hp : p ∈ pieces) (ha : a ∈ p) : a ∈ [separator].intercalate pieces := by
  induction pieces with
  | nil => cases hp
  | cons q rest ih =>
      cases rest with
      | nil =>
          rw [List.mem_singleton] at hp
          rw [List.intercalate_singleton, ← hp]
          exact ha
      | cons r rest =>
          rw [List.intercalate_cons_cons]
          rcases List.mem_cons.1 hp with rfl | hp
          · exact List.mem_append_left _ (List.mem_append_left _ ha)
          · exact List.mem_append_right _ (ih hp)

end

end Data
