import Mathlib.Logic.Function.Basic

/-!
# Async.Program — asynchronous functions as trees of awaits

A single-threaded runtime with `async` functions runs a function body
synchronously up to its next `await`, parks it until the awaited promise
settles, and then runs it on to the next `await`. `Prog A α` is such a body:
a tree whose nodes read the shared variables, write them, or await a call;
`Prog.run` is one synchronous segment. `Thread` is a body that has been
started: either it awaits a call or it is ready to continue.

Nothing here fixes what the calls mean: a system that uses these programs
decides when an awaited call takes effect and what it answers.
-/

namespace Async

/-- The interface of a family of programs: the calls they can await with the
type of each reply, the errors they throw, the variables they share and the
writes they make to them. -/
structure Api where
  Call : Type
  Reply : Call → Type
  Error : Type
  Var : Type
  Write : Type
  apply : Write → Var → Var

/-- What a settled promise holds. -/
abbrev Api.Settled (A : Api) (α : Type) := Except A.Error α

/-- The body of an asynchronous function. Only `call` lets other code run. -/
inductive Prog (A : Api) (α : Type) : Type where
  | done (r : A.Settled α)
  | read (k : A.Var → Prog A α)
  | write (w : A.Write) (k : Prog A α)
  | call (c : A.Call) (k : A.Settled (A.Reply c) → Prog A α)

namespace Prog

variable {A : Api} {α β γ : Type}

/-- Continue with the settled result of `p`, whether it returned or threw. -/
def andThen : Prog A α → (A.Settled α → Prog A β) → Prog A β
  | .done r, f => f r
  | .read k, f => .read fun v => (k v).andThen f
  | .write w k, f => .write w (k.andThen f)
  | .call c k, f => .call c fun r => (k r).andThen f

/-- Run `f` on a returned value and let an error through. -/
def onReturn (f : α → Prog A β) : A.Settled α → Prog A β
  | .ok a => f a
  | .error e => .done (.error e)

/-- Run `h` on a thrown error and let a returned value through. -/
def onThrow (h : A.Error → Prog A α) : A.Settled α → Prog A α
  | .ok a => .done (.ok a)
  | .error e => h e

instance : Monad (Prog A) where
  pure a := .done (.ok a)
  bind p f := p.andThen (onReturn f)

instance : MonadExceptOf A.Error (Prog A) where
  throw e := .done (.error e)
  tryCatch p h := p.andThen (onThrow h)

/-- `try { p } finally { cleanup }`: the error of `cleanup` wins. -/
def finallyDo (p : Prog A α) (cleanup : Prog A Unit) : Prog A α :=
  p.andThen fun r => cleanup.andThen (onReturn fun _ => .done r)

/-- Await one call. -/
def await (c : A.Call) : Prog A (A.Reply c) := .call c .done

/-- The shared variables, read synchronously. -/
def get : Prog A A.Var := .read fun v => .done (.ok v)

/-- A synchronous write. -/
def set (w : A.Write) : Prog A Unit := .write w (.done (.ok ()))

@[simp] theorem bind_eq (p : Prog A α) (f : α → Prog A β) :
    p >>= f = p.andThen (onReturn f) := rfl

@[simp] theorem pure_eq (a : α) : (pure a : Prog A α) = .done (.ok a) := rfl

@[simp] theorem throw_eq (e : A.Error) : (throw e : Prog A α) = .done (.error e) := rfl

@[simp] theorem tryCatch_eq (p : Prog A α) (h : A.Error → Prog A α) :
    tryCatch p h = p.andThen (onThrow h) := rfl

end Prog

/-- Where a synchronous segment ends: the function has settled, or it awaits
a call. -/
inductive Stop (A : Api) (α : Type) : Type where
  | finished (r : A.Settled α)
  | suspended (c : A.Call) (k : A.Settled (A.Reply c) → Prog A α)

/-- One synchronous segment: run until the next await. -/
def Prog.run {A : Api} {α : Type} : Prog A α → A.Var → A.Var × Stop A α
  | .done r, v => (v, .finished r)
  | .read k, v => (k v).run v
  | .write w k, v => k.run (A.apply w v)
  | .call c k, v => (v, .suspended c k)

/-- A segment moves the variables along any preorder that every write follows. -/
theorem Prog.run_rel {A : Api} {α : Type} {R : A.Var → A.Var → Prop} (hrefl : ∀ v, R v v)
    (htrans : ∀ {u v w}, R u v → R v w → R u w) (hwrite : ∀ w v, R v (A.apply w v))
    (p : Prog A α) (v : A.Var) : R v (p.run v).1 := by
  induction p generalizing v with
  | done r => exact hrefl v
  | read k ih => exact ih v v
  | write w k ih => exact htrans (hwrite w v) (ih (A.apply w v))
  | call c k => exact hrefl v

/-- A segment keeps whatever no write touches. -/
theorem Prog.run_keeps {A : Api} {α β : Type} {f : A.Var → β} (hf : ∀ w v, f (A.apply w v) = f v)
    (p : Prog A α) (v : A.Var) : f (p.run v).1 = f v :=
  run_rel (R := fun u v => f v = f u) (fun _ => rfl) (fun h h' => h'.trans h) hf p v

/-- A started function: parked at an await, or ready for its next segment. -/
inductive Thread (A : Api) (α : Type) : Type where
  | awaiting (c : A.Call) (k : A.Settled (A.Reply c) → Prog A α)
  | ready (p : Prog A α)

end Async
