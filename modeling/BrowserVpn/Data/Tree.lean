import Mathlib.Data.List.Infix
import Mathlib.Logic.Function.Basic
import Mathlib.Tactic.Common

/-!
# Data.Tree — a directory tree

A tree maps paths to what stands there: a file, a symbolic link or a directory.
It is two levels deep, and a link names an entry of the directory it stands in.
`rename` is atomic and moves a directory with everything in it.
-/

namespace Data

variable {name content : Type}

/-- What stands at a path. -/
inductive Node (name content : Type) where
  | file (data : content)
  | link (target : name)
  | directory
deriving DecidableEq

/-- Finitely many paths hold something: all of them are in `paths`. -/
structure Tree (name content : Type) where
  node : List name → Option (Node name content)
  paths : List (List name)
  complete : ∀ p, node p ≠ none → p ∈ paths

namespace Tree

def empty : Tree name content := ⟨fun _ => none, [], fun _ h => absurd rfl h⟩

variable (t : Tree name content)

/-- The entry that `n` stands for when a path goes through it. -/
def through (n : name) : name :=
  match t.node [n] with
  | some (.link target) => target
  | _ => n

/-- `p` with a link on the way followed, but not one at its end. -/
def real : List name → List name
  | [n, f] => [t.through n, f]
  | p => p

/-- The directory that `p` stands in is there. -/
def hasParent : List name → Bool
  | [_] => true
  | [d, _] => (t.node [d] matches some .directory)
  | _ => false

/-- What stands at `p`, a link if `p` is one. -/
def lstat (p : List name) : Option (Node name content) :=
  if t.hasParent (t.real p) then t.node (t.real p) else none

def isLink (p : List name) : Bool := t.lstat p matches some (.link _)

/-- What stands at `p`, following a link. -/
def stat (p : List name) : Option (Node name content) :=
  match t.lstat p with
  | some (.link target) => t.lstat (p.dropLast ++ [target])
  | other => other

/-- The contents of the file at `p`. -/
def contents (p : List name) : Option content :=
  match t.stat p with
  | some (.file data) => some data
  | _ => none

/-- The two trees agree on `p` and all below it. -/
def SameAt (t t' : Tree name content) (p : List name) : Prop := ∀ q, p <+: q → t'.node q = t.node q

/-- What can be read is up to the nodes. -/
theorem contents_congr {t t' : Tree name content} (h : t'.node = t.node) (p : List name) :
    t'.contents p = t.contents p := by
  rcases t with ⟨node, paths, complete⟩
  rcases t' with ⟨node', paths', complete'⟩
  obtain rfl : node' = node := h
  rfl

variable [DecidableEq name]

/-- Nothing stands below `p`. -/
def isEmpty (p : List name) : Bool :=
  t.paths.all fun q => !(p <+: q && p ≠ q && (t.node q).isSome)

/-- `p` holds `node` now. -/
def put (p : List name) (node : Node name content) : Tree name content where
  node := Function.update t.node p (some node)
  paths := p :: t.paths
  complete q hq := by
    by_cases h : q = p
    · exact List.mem_cons.2 (.inl h)
    · rw [Function.update_of_ne h] at hq
      exact List.mem_cons.2 (.inr (t.complete q hq))

/-- Of `p` and what is below it only what `keep` says is left. -/
def prune (p : List name) (keep : List name → Bool) : Tree name content where
  node q := if p <+: q ∧ keep q = false then none else t.node q
  paths := t.paths
  complete q hq := by
    split at hq
    · exact absurd rfl hq
    · exact t.complete q hq

/-- Everything at and below `source` stands at and below `target` instead. -/
def rename (source target : List name) : Tree name content where
  node q :=
    if target <+: q then t.node (source ++ q.drop target.length)
    else if source <+: q then none
    else t.node q
  paths := t.paths ++ t.paths.map fun q => target ++ q.drop source.length
  complete q hq := by
    rw [List.mem_append, List.mem_map]
    split at hq
    · rename_i h
      refine .inr ⟨_, t.complete _ hq, ?_⟩
      rw [List.drop_left, List.prefix_iff_eq_append.1 h]
    · split at hq
      · exact absurd rfl hq
      · exact .inl (t.complete q hq)

variable {t} {t' u : Tree name content} {p q source target : List name}
  {node : Node name content}

omit [DecidableEq name] in
theorem SameAt.refl : SameAt t t p := fun _ _ => rfl

omit [DecidableEq name] in
theorem SameAt.trans (h : SameAt t t' p) (h' : SameAt t' u p) : SameAt t u p :=
  fun q hq => (h' q hq).trans (h q hq)

theorem isEmpty_eq_false {f : name} (h : t.node (p ++ [f]) ≠ none) : t.isEmpty p = false := by
  rw [isEmpty, List.all_eq_false]
  exact ⟨p ++ [f], t.complete _ h, by simp [h]⟩

@[simp] theorem put_same : (t.put p node).node p = some node := Function.update_self ..

theorem put_other (h : q ≠ p) : (t.put p node).node q = t.node q := Function.update_of_ne h ..

theorem prune_other {keep : List name → Bool} (h : ¬p <+: q) :
    (t.prune p keep).node q = t.node q :=
  if_neg fun hp => h hp.1

theorem rename_target (rest : List name) :
    (t.rename source target).node (target ++ rest) = t.node (source ++ rest) := by
  simp only [rename]
  rw [if_pos (List.prefix_append ..), List.drop_left]

theorem rename_other (hs : ¬source <+: q) (ht : ¬target <+: q) :
    (t.rename source target).node q = t.node q := by
  simp only [rename]
  rw [if_neg ht, if_neg hs]

end Tree

end Data
