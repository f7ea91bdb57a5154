import BrowserVpn.Async.Program

/-!
# Async.View — verifying one function against its view of the shared state

While a function is parked, other functions and the environment move the
shared state. A *view* is what the function may still rely on when it wakes:
an abstract state whose meaning `At x s` no other step can break. `wp` runs a
program on views alone, so its proof is a sequential one. The interference is
dealt with once, by showing that `At` is stable (`Thread.Ok.stable`), that a
call that takes effect moves the view as `Logic.replies` says
(`Thread.Ok.land`), and that a synchronous segment does what `wp` computed
(`wp_run`).
-/

namespace Async

/-- How the steps of a program act on its view: what reading the variables
shows, which writes and calls the program is entitled to and what they leave,
and what a reply can be. -/
structure Logic (A : Api) (X : Type) where
  reads : X → A.Var → X → Prop
  mayWrite : A.Write → X → Prop
  write : A.Write → X → X
  mayCall : A.Call → X → Prop
  issue : A.Call → X → X
  replies : (c : A.Call) → X → A.Settled (A.Reply c) → X → Prop

variable {A : Api} {X α β σ : Type} (L : Logic A X)

/-- Weakest precondition on views: whatever is read and replied, every write
and call is permitted and the settled result satisfies `Q`. -/
def wp : Prog A α → (A.Settled α → X → Prop) → X → Prop
  | .done r, Q, x => Q r x
  | .read k, Q, x => ∀ v x', L.reads x v x' → wp (k v) Q x'
  | .write w k, Q, x => L.mayWrite w x ∧ wp k Q (L.write w x)
  | .call c k, Q, x =>
      L.mayCall c x ∧ ∀ r x', L.replies c (L.issue c x) r x' → wp (k r) Q x'

@[simp] theorem wp_done (r : A.Settled α) (Q : A.Settled α → X → Prop) (x : X) :
    wp L (.done r) Q x = Q r x := rfl

theorem wp_andThen (p : Prog A α) (f : A.Settled α → Prog A β)
    (Q : A.Settled β → X → Prop) (x : X) :
    wp L (p.andThen f) Q x ↔ wp L p (fun r x' => wp L (f r) Q x') x := by
  induction p generalizing x with
  | done r => rfl
  | read k ih => exact forall_congr' fun v => forall_congr' fun x' => imp_congr_right fun _ => ih v x'
  | write w k ih => exact and_congr_right fun _ => ih _
  | call c k ih =>
      exact and_congr_right fun _ =>
        forall_congr' fun r => forall_congr' fun x' => imp_congr_right fun _ => ih r x'

/-- Rule of consequence. -/
theorem wp_mono {p : Prog A α} {Q Q' : A.Settled α → X → Prop} {x : X}
    (h : wp L p Q x) (hQ : ∀ r x', Q r x' → Q' r x') : wp L p Q' x := by
  induction p generalizing x with
  | done r => exact hQ r x h
  | read k ih => exact fun v x' hv => ih v (h v x' hv)
  | write w k ih => exact ⟨h.1, ih h.2⟩
  | call c k ih => exact ⟨h.1, fun r x' hr => ih r (h.2 r x' hr)⟩

/-- Sequencing: the body continues from a returned value, an error skips it. -/
theorem wp_bind {p : Prog A α} {f : α → Prog A β} {Q : A.Settled β → X → Prop} {x : X}
    {M : A.Settled α → X → Prop} (hp : wp L p M x)
    (hok : ∀ a x', M (.ok a) x' → wp L (f a) Q x')
    (herr : ∀ e x', M (.error e) x' → Q (.error e) x') :
    wp L (p >>= f) Q x := by
  rw [Prog.bind_eq, wp_andThen]
  refine wp_mono L hp fun r x' hr => ?_
  cases r with
  | ok a => exact hok a x' hr
  | error e => exact herr e x' hr

theorem wp_map {p : Prog A α} {f : α → β} {Q : A.Settled β → X → Prop} {x : X}
    (h : wp L p (fun r x' => Q (f <$> r) x') x) : wp L (f <$> p) Q x :=
  wp_bind L h (fun _ _ hQ => hQ) fun _ _ hQ => hQ

/-- `try`/`catch`: the handler runs in the view the error left. -/
theorem wp_tryCatch {p : Prog A α} {h : A.Error → Prog A α} {Q : A.Settled α → X → Prop} {x : X}
    {M : A.Settled α → X → Prop} (hp : wp L p M x)
    (hok : ∀ a x', M (.ok a) x' → Q (.ok a) x')
    (herr : ∀ e x', M (.error e) x' → wp L (h e) Q x') :
    wp L (tryCatch p h) Q x := by
  rw [Prog.tryCatch_eq, wp_andThen]
  refine wp_mono L hp fun r x' hr => ?_
  cases r with
  | ok a => exact hok a x' hr
  | error e => exact herr e x' hr

/-! ## Functions that keep to some calls and writes -/

/-- Whatever is read and replied, `p` awaits calls in `C` and makes writes in
`W` only. -/
def Prog.Within (C : A.Call → Prop) (W : A.Write → Prop) : Prog A α → Prop
  | .done _ => True
  | .read k => ∀ v, (k v).Within C W
  | .write w k => W w ∧ k.Within C W
  | .call c k => C c ∧ ∀ r, (k r).Within C W

section Within

variable {C C' : A.Call → Prop} {W W' : A.Write → Prop}

@[simp] theorem Prog.within_done (r : A.Settled α) : (Prog.done r : Prog A α).Within C W := trivial

theorem Prog.Within.andThen {p : Prog A α} {f : A.Settled α → Prog A β} (hp : p.Within C W)
    (hf : ∀ r, (f r).Within C W) : (p.andThen f).Within C W := by
  induction p with
  | done r => exact hf r
  | read k ih => exact fun v => ih v (hp v)
  | write w k ih => exact ⟨hp.1, ih hp.2⟩
  | call c k ih => exact ⟨hp.1, fun r => ih r (hp.2 r)⟩

theorem Prog.Within.bind {p : Prog A α} {f : α → Prog A β} (hp : p.Within C W)
    (hf : ∀ a, (f a).Within C W) : (p >>= f).Within C W :=
  hp.andThen fun r => by
    cases r with
    | ok a => exact hf a
    | error e => trivial

theorem Prog.Within.tryCatch {p : Prog A α} {h : A.Error → Prog A α} (hp : p.Within C W)
    (hh : ∀ e, (h e).Within C W) : (tryCatch p h).Within C W :=
  hp.andThen fun r => by
    cases r with
    | ok a => trivial
    | error e => exact hh e

theorem Prog.Within.map {p : Prog A α} (hp : p.Within C W) (f : α → β) :
    (f <$> p).Within C W :=
  hp.bind fun _ => trivial

theorem Prog.Within.mono {p : Prog A α} (hp : p.Within C W) (hC : ∀ c, C c → C' c)
    (hW : ∀ w, W w → W' w) : p.Within C' W' := by
  induction p with
  | done r => trivial
  | read k ih => exact fun v => ih v (hp v)
  | write w k ih => exact ⟨hW w hp.1, ih hp.2⟩
  | call c k ih => exact ⟨hC c hp.1, fun r => ih r (hp.2 r)⟩

/-- Every function keeps to everything. -/
theorem Prog.within_true (p : Prog A α) : p.Within (fun _ => True) fun _ => True := by
  induction p with
  | done r => trivial
  | read k ih => exact fun v => ih v
  | write w k ih => exact ⟨trivial, ih⟩
  | call c k ih => exact ⟨trivial, fun r => ih r⟩

/-- A function that keeps to calls and writes which keep `I` keeps `I`. -/
theorem wp_of_within {I : X → Prop} {p : Prog A α} (hp : p.Within C W)
    (hread : ∀ x v x', I x → L.reads x v x' → I x')
    (hwrite : ∀ w x, I x → W w → L.mayWrite w x ∧ I (L.write w x))
    (hcall : ∀ c x, I x → C c →
      L.mayCall c x ∧ ∀ r x', L.replies c (L.issue c x) r x' → I x') {x : X} (hx : I x) :
    wp L p (fun _ x' => I x') x := by
  induction p generalizing x with
  | done r => exact hx
  | read k ih => exact fun v x' hv => ih v (hp v) (hread x v x' hx hv)
  | write w k ih =>
      obtain ⟨hmay, hx'⟩ := hwrite w x hx hp.1
      exact ⟨hmay, ih hp.2 hx'⟩
  | call c k ih =>
      obtain ⟨hmay, hreply⟩ := hcall c x hx hp.1
      exact ⟨hmay, fun r x' hr => ih r (hp.2 r) (hreply r x' hr)⟩

end Within

/-- The end of a synchronous segment is on course for `Q`: `At` is the meaning
of the view with everything but the variables held fixed. -/
def Segment (At : X → A.Var → Prop) (Q : A.Settled α → X → Prop) : A.Var × Stop A α → Prop
  | (v, .finished r) => ∃ x, At x v ∧ Q r x
  | (v, .suspended c k) =>
      ∃ x, At x v ∧ L.mayCall c x ∧ ∀ r x', L.replies c (L.issue c x) r x' → wp L (k r) Q x'

/-- One synchronous segment does what `wp` computed. -/
theorem wp_run {At : X → A.Var → Prop}
    (hread : ∀ x v, At x v → ∃ x', L.reads x v x' ∧ At x' v)
    (hwrite : ∀ x v w, L.mayWrite w x → At x v → At (L.write w x) (A.apply w v))
    {p : Prog A α} {Q : A.Settled α → X → Prop} {x : X} {v : A.Var}
    (hp : wp L p Q x) (hx : At x v) : Segment L At Q (p.run v) := by
  induction p generalizing x v with
  | done r => exact ⟨x, hx, hp⟩
  | read k ih =>
      obtain ⟨x', hr, hx'⟩ := hread x v hx
      exact ih v (hp v x' hr) hx'
  | write w k ih => exact ih hp.2 (hwrite x v w hp.1 hx)
  | call c k _ => exact ⟨x, hx, hp.1, hp.2⟩

/-- A segment of a function that `wp` admits keeps what its writes keep, as
long as the views stay in `I`. -/
theorem wp_run_keeps {γ : Type} {f : A.Var → γ} {I : X → Prop}
    (hread : ∀ x v, I x → ∃ x', L.reads x v x' ∧ I x')
    (hwrite : ∀ w x v, I x → L.mayWrite w x → I (L.write w x) ∧ f (A.apply w v) = f v)
    {p : Prog A α} {Q : A.Settled α → X → Prop} {x : X} (hx : I x) (hp : wp L p Q x)
    (v : A.Var) : f (p.run v).1 = f v := by
  induction p generalizing x v with
  | done r => rfl
  | read k ih =>
      obtain ⟨x', hx', hi⟩ := hread x v hx
      exact ih v hi (hp v x' hx') v
  | write w k ih =>
      obtain ⟨hi, hf⟩ := hwrite w x v hx hp.1
      exact (ih hi hp.2 _).trans hf
  | call c k => rfl

/-- A started function is on course for `Q`: some view describes the state,
and from it the rest of the function meets `Q`. -/
def Thread.Ok (At : X → σ → Prop) (Q : A.Settled α → X → Prop) : Thread A α → σ → Prop
  | .awaiting c k, s => ∃ x, At x s ∧ ∀ r x', L.replies c x r x' → wp L (k r) Q x'
  | .ready p, s => ∃ x, At x s ∧ wp L p Q x

variable {L} {At : X → σ → Prop} {Q : A.Settled α → X → Prop}

/-- Steps that no view notices keep every thread on course. -/
theorem Thread.Ok.stable {t : Thread A α} {s s' : σ} (h : t.Ok L At Q s)
    (hstep : ∀ x, At x s → At x s') : t.Ok L At Q s' := by
  cases t with
  | awaiting c k =>
      obtain ⟨x, hx, hk⟩ := h
      exact ⟨x, hstep x hx, hk⟩
  | ready p =>
      obtain ⟨x, hx, hp⟩ := h
      exact ⟨x, hstep x hx, hp⟩

/-- An awaited call that takes effect readies its thread. -/
theorem Thread.Ok.land {c : A.Call} {k : A.Settled (A.Reply c) → Prog A α} {s s' : σ}
    {r : A.Settled (A.Reply c)} (h : (Thread.awaiting c k).Ok L At Q s)
    (hstep : ∀ x, At x s → ∃ x', L.replies c x r x' ∧ At x' s') :
    (Thread.ready (k r)).Ok L At Q s' := by
  obtain ⟨x, hx, hk⟩ := h
  obtain ⟨x', hr, hx'⟩ := hstep x hx
  exact ⟨x', hx', hk r x' hr⟩

/-! ## Functions whatever they are told -/

/-- The logic of everything that is read and replied. -/
@[reducible] def Logic.free (A : Api) : Logic A Unit where
  reads _ _ _ := True
  mayWrite _ _ := True
  write _ x := x
  mayCall _ _ := True
  issue _ x := x
  replies _ _ _ _ := True

/-- Whatever is read and replied, `p` settles in `Q`. -/
def Prog.Settles {A : Api} {α : Type} (p : Prog A α) (Q : A.Settled α → Prop) : Prop :=
  wp (Logic.free A) p (fun r _ => Q r) ()

end Async
