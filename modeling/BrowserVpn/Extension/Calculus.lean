import BrowserVpn.Async.View
import BrowserVpn.Extension.Background

/-!
# Extension.Calculus — `wp` for the shapes of `background.js`

The rules of `Async.View` at the combinators the functions are written with:
one Chrome call, `await`, `ensure`, `when`, a synchronous step that may throw.
They hold for every logic; `await` asks that a microtask tells nothing.
-/

namespace BrowserVpn

open Async

/-- A logic in which a microtask of the worker's own promises tells nothing. -/
class Ticks {X : Type} (L : Logic api X) : Prop where
  mayTick : ∀ x, L.mayCall .tick x
  tick : ∀ {x r x'}, L.replies .tick (L.issue .tick x) r x' → x' = x

section

variable {X α β : Type} {L : Logic api X} {x : X}

theorem wp_call (c : Call) (h : L.mayCall c x) :
    wp L (chrome c) (fun r x' => L.replies c (L.issue c x) r x') x :=
  ⟨h, fun _ _ hr => hr⟩

theorem wp_ensure {b : Bool} {message : String} {Q : Except String Unit → X → Prop}
    (h : b = true → Q (.ok ()) x) (h' : b = false → Q (.error message) x) :
    wp L (ensure b message) Q x := by
  cases b with
  | true => exact h rfl
  | false => exact h' rfl

theorem wp_when {b : Bool} {p : Js Unit} {Q : Except String Unit → X → Prop}
    (h : b = true → wp L p Q x) (h' : b = false → Q (.ok ()) x) :
    wp L (when b p) Q x := by
  cases b with
  | true => exact h rfl
  | false => exact h' rfl

theorem wp_ensure_bind {b : Bool} {message : String} {f : Unit → Js β}
    {Q : Except String β → X → Prop} (h : b = true → wp L (f ()) Q x)
    (h' : b = false → Q (.error message) x) :
    wp L (ensure b message >>= f) Q x := by
  cases b with
  | true => exact h rfl
  | false => exact h' rfl

theorem wp_when_bind {b : Bool} {p : Js Unit} {f : Unit → Js β}
    {Q : Except String β → X → Prop} (h : b = true → wp L (p >>= f) Q x)
    (h' : b = false → wp L (f ()) Q x) :
    wp L (when b p >>= f) Q x := by
  cases b with
  | true => exact h rfl
  | false => exact h' rfl

theorem wp_set_bind {w : Write} {f : Unit → Js β} {Q : Except String β → X → Prop}
    (hw : L.mayWrite w x) (h : wp L (f ()) Q (L.write w x)) :
    wp L (Prog.set w >>= f) Q x :=
  ⟨hw, h⟩

theorem wp_get_bind {f : Vars → Js β} {Q : Except String β → X → Prop}
    (h : ∀ v x', L.reads x v x' → wp L (f v) Q x') : wp L (Prog.get >>= f) Q x :=
  h

theorem wp_lift_bind {r : Except String α} {f : α → Js β} {Q : Except String β → X → Prop}
    (h : ∀ a, r = .ok a → wp L (f a) Q x) (h' : ∀ e, r = .error e → Q (.error e) x) :
    wp L (lift r >>= f) Q x := by
  cases r with
  | ok a => exact h a rfl
  | error e => exact h' e rfl

variable [hL : Ticks L]

theorem wp_await {p : Js α} {Q : Except String α → X → Prop} (h : wp L p Q x) :
    wp L (await p) Q x := by
  rw [await, wp_andThen]
  refine wp_mono _ h fun r x' hr => ⟨hL.mayTick x', fun _ x'' hx => ?_⟩
  obtain rfl := hL.tick hx
  exact hr

/-- `await p` with a postcondition of `p`, and what follows. -/
theorem wp_await_bind {p : Js α} {f : α → Js β} {Q : Except String β → X → Prop}
    {M : Except String α → X → Prop} (hp : wp L p M x)
    (hok : ∀ a x', M (.ok a) x' → wp L (f a) Q x')
    (herr : ∀ e x', M (.error e) x' → Q (.error e) x') :
    wp L (await p >>= f) Q x :=
  wp_bind _ (wp_await hp) hok herr

end

end BrowserVpn
