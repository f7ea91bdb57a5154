import BrowserVpn.Async.Alone

/-!
# Async.Implement — programs over programs

A program may leave its calls to another layer that has a program for each. What is
proved of the upper program from the contracts of its calls holds of the two together,
if each of the programs below meets its contract (`wp_implement`). What a program below
throws ends the whole: the upper one cannot catch it.
-/

namespace Async

/-- A layer below: what stands for the variables, the writes, the errors and the calls
of the programs above it. -/
structure Implementation (A B : Api) where
  var : B.Var → A.Var
  write : A.Write → B.Write
  error : A.Error → B.Error
  call : (c : A.Call) → Prog B (A.Reply c)

variable {A B : Api} {X α β : Type}

/-- `p` on top of a layer. -/
def Prog.implement (I : Implementation A B) : Prog A α → Prog B α
  | .done (.ok a) => .done (.ok a)
  | .done (.error e) => .done (.error (I.error e))
  | .read k => .read fun v => (k (I.var v)).implement I
  | .write w k => .write (I.write w) (k.implement I)
  | .call c k => (I.call c).andThen (onReturn fun a => (k (.ok a)).implement I)

/-- What holds of the values that are returned, and what of the errors. -/
def Settling (Q : α → X → Prop) (E : B.Error → X → Prop) : B.Settled α → X → Prop
  | .ok a, x => Q a x
  | .error e, x => E e x

theorem wp_onReturn {L : Logic B X} {p : Prog B α} {f : α → Prog B β} {Q : B.Settled β → X → Prop}
    {E : B.Error → X → Prop} {x : X} (h : wp L p (Settling (fun a => wp L (f a) Q) E) x)
    (hE : ∀ e x', E e x' → Q (.error e) x') : wp L (p.andThen (Prog.onReturn f)) Q x := by
  apply wp_bind L h
  · intro a x' ha
    exact ha
  · intro e x' he
    exact hE e x' he

/-- A run of the layer is what a call of the programs above it comes to. -/
def Implementation.effect {S : Type} (I : Implementation A B) (effect : Effect B S) : Effect A S :=
  fun s c r s' => ∃ a ms, r = .ok a ∧ Path effect (I.call c) s ms (.done (.ok a)) s'

/-- From the runs of the layer and one above them comes a run of the two. -/
theorem Path.implement {S : Type} {I : Implementation A B} {effect : Effect B S}
    (hvar : Function.Surjective I.var) {p : Prog A α} {s s' : S} {ms : List (Move A S)} {a : α}
    (h : Path (I.effect effect) p s ms (.done (.ok a)) s') :
    ∃ ms', Path effect (p.implement I) s ms' (.done (.ok a)) s' := by
  -- the end is an index of the path, and has to be a variable for the induction
  generalize hend : (Prog.done (.ok a) : Prog A α) = p' at h
  induction h with
  | nil =>
      rw [← hend]
      exact ⟨[], .nil⟩
  | read v _ ih =>
      rcases hvar v with ⟨v', rfl⟩
      rcases ih hend with ⟨ms', hrest⟩
      exact ⟨ms', .read v' hrest⟩
  | write _ ih =>
      rcases ih hend with ⟨ms', hrest⟩
      exact ⟨ms', .write hrest⟩
  | call answer _ ih =>
      rcases answer with ⟨b, ms₁, rfl, hcall⟩
      rcases ih hend with ⟨ms₂, hrest⟩
      exact ⟨ms₁ ++ ms₂, hcall.andThen hrest⟩

end Async
