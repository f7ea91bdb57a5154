import Mathlib.Logic.Basic
import Mathlib.Tactic.Common

/-!
# Data.Run — runs of a transition system

A system is a partial function from a state and a label to the next state. A run
is a list of labels that it can take one after the other. What one step keeps, a
run keeps; a run can be cut anywhere.
-/

namespace Data

variable {σ ℓ : Type}

/-- The labels of `ls` lead from `s` to a state. -/
inductive Run (step : σ → ℓ → Option σ) (s : σ) : List ℓ → σ → Prop where
  | nil : Run step s [] s
  | snoc {ls : List ℓ} {l : ℓ} {t u : σ} (before : Run step s ls t) (last : step t l = some u) :
      Run step s (ls ++ [l]) u

/-- The state that a list of labels leads to. -/
def follow (step : σ → ℓ → Option σ) : σ → List ℓ → Option σ
  | s, [] => some s
  | s, l :: ls =>
      match step s l with
      | some t => follow step t ls
      | none => none

namespace Run

variable {step : σ → ℓ → Option σ} {s t u : σ} {ls ls' : List ℓ} {l : ℓ}

theorem single (h : step s l = some t) : Run step s [l] t :=
  (nil : Run step s [] s).snoc h

theorem trans (h : Run step s ls t) (h' : Run step t ls' u) : Run step s (ls ++ ls') u := by
  induction h' with
  | nil => rwa [List.append_nil]
  | snoc _ last ih =>
      rw [← List.append_assoc]
      exact snoc ih last

theorem cons (h : step s l = some t) (h' : Run step t ls u) : Run step s (l :: ls) u :=
  (single h).trans h'

theorem of_follow (h : follow step s ls = some t) : Run step s ls t := by
  induction ls generalizing s with
  | nil =>
      obtain rfl := Option.some.inj h
      exact nil
  | cons l ls ih =>
      rw [follow] at h
      split at h
      · rename_i hstep
        exact cons hstep (ih h)
      · cases h

theorem follow_append (s : σ) (ls ls' : List ℓ) :
    follow step s (ls ++ ls') = (follow step s ls).bind fun t => follow step t ls' := by
  induction ls generalizing s with
  | nil => rfl
  | cons l ls ih =>
      rw [List.cons_append, follow, follow]
      cases step s l with
      | none => rfl
      | some t => exact ih t

theorem follow_eq (h : Run step s ls t) : follow step s ls = some t := by
  induction h with
  | nil => rfl
  | snoc _ last ih =>
      rw [follow_append, ih, Option.bind_some]
      simp [follow, last]

/-- A run can be cut after any of its labels. -/
theorem split (h : Run step s (ls ++ ls') u) : ∃ t, Run step s ls t ∧ Run step t ls' u := by
  have hfollow := h.follow_eq
  rw [follow_append, Option.bind_eq_some_iff] at hfollow
  obtain ⟨t, hfirst, hrest⟩ := hfollow
  exact ⟨t, of_follow hfirst, of_follow hrest⟩

theorem head (h : Run step s (l :: ls) u) : ∃ t, step s l = some t ∧ Run step t ls u := by
  have hfollow := h.follow_eq
  rw [follow] at hfollow
  split at hfollow
  · rename_i t hstep
    exact ⟨t, hstep, of_follow hfollow⟩
  · cases hfollow

/-- A property that every step keeps holds to the end. -/
theorem invariant {P : σ → Prop} (hstep : ∀ {s l t}, step s l = some t → P s → P t)
    (h : Run step s ls t) (hs : P s) : P t := by
  induction h with
  | nil => exact hs
  | snoc _ last ih => exact hstep last ih

/-- The same for what is said of the labels so far, too. -/
theorem trace_invariant {P : List ℓ → σ → Prop} (hnil : P [] s)
    (hstep : ∀ {ls t l u}, Run step s ls t → step t l = some u → P ls t → P (ls ++ [l]) u)
    (h : Run step s ls t) : P ls t := by
  induction h with
  | nil => exact hnil
  | snoc before last ih => exact hstep before last ih

end Run

/-! ## Runs whose steps meet a condition -/

/-- A run all of whose steps meet `ok`, which is asked of the state before a step. -/
inductive RunWhile (step : σ → ℓ → Option σ) (ok : σ → ℓ → Prop) (s : σ) : List ℓ → σ → Prop where
  | nil : RunWhile step ok s [] s
  | snoc {ls : List ℓ} {l : ℓ} {t u : σ} (before : RunWhile step ok s ls t) (meets : ok t l)
      (last : step t l = some u) : RunWhile step ok s (ls ++ [l]) u

/-- `follow`, as far as the condition is met. -/
def followWhile (step : σ → ℓ → Option σ) (ok : σ → ℓ → Prop) [∀ s l, Decidable (ok s l)]
    (s : σ) (ls : List ℓ) : Option σ :=
  follow (fun t l => if ok t l then step t l else none) s ls

namespace RunWhile

variable {step : σ → ℓ → Option σ} {ok : σ → ℓ → Prop} {s t : σ} {ls : List ℓ}

theorem run (h : RunWhile step ok s ls t) : Run step s ls t := by
  induction h with
  | nil => exact .nil
  | snoc _ _ last ih => exact .snoc ih last

/-- A property that every step with the condition keeps holds to the end. -/
theorem invariant {P : σ → Prop} (hstep : ∀ {s l t}, step s l = some t → ok s l → P s → P t)
    (h : RunWhile step ok s ls t) (hs : P s) : P t := by
  induction h with
  | nil => exact hs
  | snoc _ meets last ih => exact hstep last meets ih

theorem of_follow [∀ s l, Decidable (ok s l)] (h : followWhile step ok s ls = some t) :
    RunWhile step ok s ls t := by
  have hrun := Run.of_follow h
  clear h
  induction hrun with
  | nil => exact nil
  | snoc _ last ih =>
      split at last
      · rename_i hok
        exact snoc ih hok last
      · cases last

end RunWhile

end Data
