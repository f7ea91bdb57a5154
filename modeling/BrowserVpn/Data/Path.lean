import Mathlib.Data.List.Basic
import Mathlib.Tactic.Common

/-!
# Data.Path — paths, lexically

Cleaning a path as `path/filepath` does on Unix: empty components and `.` go, `..` takes
the component before it away, and does not lead out of the root. Over any alphabet with
a separator and a dot.
-/

namespace Data.Path

variable {α : Type} [DecidableEq α] (slash dot : α)

/-- What stands between the separators, without what names nothing. -/
def components (p : List α) : List (List α) :=
  (p.splitOn slash).filter fun c => c ≠ [] ∧ c ≠ [dot]

/-- One more component. -/
def descend (rooted : Bool) (stack : List (List α)) (c : List α) : List (List α) :=
  if c = [dot, dot] then
    match stack.getLast? with
    | none => if rooted then [] else [c]
    | some top => if top = [dot, dot] then stack ++ [c] else stack.dropLast
  else stack ++ [c]

/-- The components that are left. -/
def resolve (p : List α) : List (List α) :=
  (components slash dot p).foldl (descend dot (p.head? == some slash)) []

/-- `filepath.Clean`. -/
def clean (p : List α) : List α :=
  let text := (if p.head? == some slash then [slash] else []) ++
    [slash].intercalate (resolve slash dot p)
  if text = [] then [dot] else text

/-- `filepath.Join`: what stands first and is empty is left out. -/
def join (elements : List (List α)) : List α :=
  match elements.dropWhile (· = []) with
  | [] => []
  | element :: rest => clean slash dot ([slash].intercalate (element :: rest))

/-- A component that stands for itself. -/
structure IsName (c : List α) : Prop where
  nonempty : c ≠ []
  noSlash : slash ∉ c
  notDot : c ≠ [dot]
  notDotDot : c ≠ [dot, dot]

variable {slash dot} {p c : List α}

omit [DecidableEq α] in
theorem intercalate_concat {stack : List (List α)} (h : stack ≠ []) (c : List α) :
    [slash].intercalate (stack ++ [c]) = [slash].intercalate stack ++ slash :: c := by
  induction stack with
  | nil => exact absurd rfl h
  | cons d stack ih =>
      cases stack with
      | nil => simp
      | cons e stack =>
          rw [List.cons_append, List.cons_append, List.intercalate_cons_cons,
            List.intercalate_cons_cons, ← List.cons_append, ih (List.cons_ne_nil _ _)]
          simp

theorem components_child (hc : IsName slash dot c) (p : List α) :
    components slash dot (p ++ slash :: c) = components slash dot p ++ [c] := by
  rw [components, List.splitOn_append_cons_self, List.filter_append,
    List.splitOn_eq_singleton hc.noSlash, List.filter_singleton]
  simp [components, hc.nonempty, hc.notDot]

theorem resolve_child (hc : IsName slash dot c) (hp : p ≠ []) :
    resolve slash dot (p ++ slash :: c) = resolve slash dot p ++ [c] := by
  have hrooted : (p ++ slash :: c).head? = p.head? := List.head?_append_of_ne_nil _ hp
  rw [resolve, components_child hc, List.foldl_concat, hrooted]
  exact if_neg hc.notDotDot

/-- Nothing empty is left. -/
theorem nonempty_of_mem_resolve {d : List α} (hd : d ∈ resolve slash dot p) : d ≠ [] := by
  have hdescend : ∀ (rooted : Bool) (names stack : List (List α)), (∀ c ∈ names, c ≠ []) →
      (∀ c ∈ stack, c ≠ []) → ∀ c ∈ names.foldl (descend dot rooted) stack, c ≠ [] := by
    intro rooted names
    induction names with
    | nil => exact fun stack _ hstack => hstack
    | cons name names ih =>
        intro stack hnames hstack
        rcases List.forall_mem_cons.1 hnames with ⟨hname, hnames⟩
        have hmore : ∀ c ∈ stack ++ [name], c ≠ [] := by
          intro c hc
          rcases List.mem_append.1 hc with hold | hnew
          · exact hstack c hold
          · rw [List.mem_singleton.1 hnew]
            exact hname
        apply ih _ hnames
        intro c hc
        rw [descend] at hc
        split at hc
        · split at hc
          · split at hc
            · cases hc
            · rw [List.mem_singleton.1 hc]
              exact hname
          · split at hc
            · exact hmore c hc
            · exact hstack c (List.dropLast_subset _ hc)
        · exact hmore c hc
  refine hdescend _ _ [] ?_ (by simp) d hd
  intro c hc
  exact (of_decide_eq_true (List.mem_filter.1 hc).2).1

omit [DecidableEq α] in
theorem intercalate_ne_nil {stack : List (List α)} (h : stack ≠ []) (hall : ∀ c ∈ stack, c ≠ []) :
    [slash].intercalate stack ≠ [] := by
  cases stack with
  | nil => exact absurd rfl h
  | cons c stack =>
      have hc := hall c List.mem_cons_self
      cases stack with
      | nil => simpa using hc
      | cons d stack =>
          rw [List.intercalate_cons_cons]
          simp [hc]

/-- A name below a directory that is more than the root. -/
theorem clean_child (hc : IsName slash dot c) (hp : resolve slash dot p ≠ []) :
    clean slash dot (p ++ slash :: c) = clean slash dot p ++ slash :: c := by
  have hne : p ≠ [] := by
    rintro rfl
    exact hp rfl
  have hrooted : (p ++ slash :: c).head? = p.head? := List.head?_append_of_ne_nil _ hne
  have htext : [slash].intercalate (resolve slash dot p) ≠ [] :=
    intercalate_ne_nil hp fun d hd => nonempty_of_mem_resolve hd
  have hlead : ∀ front : List α, front ++ [slash].intercalate (resolve slash dot p) ≠ [] :=
    fun front hnil => htext (List.append_eq_nil_iff.1 hnil).2
  simp only [clean, resolve_child hc hne, hrooted, intercalate_concat hp, ← List.append_assoc,
    if_neg (hlead _)]
  rw [if_neg]
  simp

theorem resolve_name (hc : IsName slash dot c) : resolve slash dot c = [c] := by
  have hcomponents : components slash dot c = [c] := by
    rw [components, List.splitOn_eq_singleton hc.noSlash]
    simp [hc.nonempty, hc.notDot]
  rw [resolve, hcomponents]
  exact if_neg hc.notDotDot

/-- A name is joined below another one. -/
theorem join_child {d : List α} (hc : IsName slash dot c) (hd : IsName slash dot d)
    (elements : List (List α)) :
    join slash dot (elements ++ [d, c]) = join slash dot (elements ++ [d]) ++ slash :: c := by
  have hrest : ∀ tail : List (List α), (elements ++ d :: tail).dropWhile (· = []) =
      elements.dropWhile (· = []) ++ d :: tail := by
    intro tail
    rw [List.dropWhile_append]
    split
    · rename_i hempty
      rw [List.isEmpty_iff.1 hempty, List.dropWhile_cons_of_neg (by simpa using hd.nonempty)]
      rfl
    · rfl
  have hjoin : ∀ tail : List (List α), join slash dot (elements ++ d :: tail) =
      clean slash dot ([slash].intercalate (elements.dropWhile (· = []) ++ d :: tail)) := by
    intro tail
    rw [join, hrest]
    cases elements.dropWhile (· = []) with
    | nil => rfl
    | cons e rest => rfl
  rw [hjoin, hjoin]
  set front := elements.dropWhile (· = []) with hfront
  have hsplit : front ++ [d, c] = (front ++ [d]) ++ [c] := by simp
  rw [hsplit, intercalate_concat (by simp)]
  apply clean_child hc
  cases hnil : front with
  | nil =>
      rw [List.nil_append, List.intercalate_singleton, resolve_name hd]
      simp
  | cons e rest =>
      have hhead : e ≠ [] := by
        rintro rfl
        have hnot := List.head?_dropWhile_not (fun x : List α => decide (x = [])) elements
        rw [← hfront, hnil] at hnot
        simp at hnot
      have hfirst : [slash].intercalate (e :: rest) ≠ [] := by
        cases rest with
        | nil => simpa using hhead
        | cons f rest =>
            rw [List.intercalate_cons_cons]
            simp
      rw [intercalate_concat (List.cons_ne_nil _ _), resolve_child hd hfirst]
      simp

end Data.Path
