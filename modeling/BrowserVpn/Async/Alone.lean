import BrowserVpn.Async.View

/-!
# Async.Alone — programs that run alone and may be killed

A program that nothing interferes with: each call acts on the state and
answers, and the next call sees what it left. An execution can stop after any
call, because the program has settled or because its process was killed, and
what holds at every state in between is asked of each call (`Logic.alone`).
-/

namespace Async

variable {A : Api} {S α β : Type}

/-- `effect s c r s'`: in `s` the call `c` can answer `r` and leave `s'`. -/
abbrev Effect (A : Api) (S : Type) := S → (c : A.Call) → A.Settled (A.Reply c) → S → Prop

/-- One call that was made, with the states around it. -/
structure Move (A : Api) (S : Type) where
  before : S
  call : A.Call
  reply : A.Settled (A.Reply call)
  after : S

/-- The call threw. -/
def Move.Raised (m : Move A S) : Prop := ∃ e, m.reply = .error e

/-- `p` in `s` makes the moves `ms` and is then `p'` in `s'`. -/
inductive Path (effect : Effect A S) : Prog A α → S → List (Move A S) → Prog A α → S → Prop where
  | nil {p : Prog A α} {s : S} : Path effect p s [] p s
  | read {k : A.Var → Prog A α} {s s' : S} {ms : List (Move A S)} {p : Prog A α} (v : A.Var)
      (rest : Path effect (k v) s ms p s') : Path effect (.read k) s ms p s'
  | write {w : A.Write} {k : Prog A α} {s s' : S} {ms : List (Move A S)} {p : Prog A α}
      (rest : Path effect k s ms p s') : Path effect (.write w k) s ms p s'
  | call {c : A.Call} {k : A.Settled (A.Reply c) → Prog A α} {s t s' : S}
      {r : A.Settled (A.Reply c)} {ms : List (Move A S)} {p : Prog A α} (answer : effect s c r t)
      (rest : Path effect (k r) t ms p s') : Path effect (.call c k) s (⟨s, c, r, t⟩ :: ms) p s'

namespace Path

variable {effect : Effect A S} {s s' : S} {ms : List (Move A S)}

theorem of_done {r r' : A.Settled α} (h : Path effect (.done r) s ms (.done r') s') :
    ms = [] ∧ r' = r ∧ s' = s := by
  cases h
  exact ⟨rfl, rfl, rfl⟩

/-- What settles after `p` settled has passed through there. -/
theorem of_andThen {p : Prog A α} {f : A.Settled α → Prog A β} {r : A.Settled β}
    (h : Path effect (p.andThen f) s ms (.done r) s') :
    ∃ q t ms₁ ms₂, Path effect p s ms₁ (.done q) t ∧ Path effect (f q) t ms₂ (.done r) s' ∧
      ms = ms₁ ++ ms₂ := by
  induction p generalizing s ms with
  | done q => exact ⟨q, s, [], ms, .nil, h, rfl⟩
  | read k ih =>
      cases h with
      | read v rest =>
          obtain ⟨q, t, ms₁, ms₂, hfirst, hrest, hms⟩ := ih v rest
          exact ⟨q, t, ms₁, ms₂, .read v hfirst, hrest, hms⟩
  | write w k ih =>
      cases h with
      | write rest =>
          obtain ⟨q, t, ms₁, ms₂, hfirst, hrest, hms⟩ := ih rest
          exact ⟨q, t, ms₁, ms₂, .write hfirst, hrest, hms⟩
  | call c k ih =>
      cases h with
      | call answer rest =>
          obtain ⟨q, t, ms₁, ms₂, hfirst, hrest, hms⟩ := ih _ rest
          exact ⟨q, t, _ :: ms₁, ms₂, .call answer hfirst, hrest, by rw [hms, List.cons_append]⟩

theorem andThen {p : Prog A α} {f : A.Settled α → Prog A β} {q : A.Settled α} {t : S}
    {ms' : List (Move A S)} {p' : Prog A β} (h : Path effect p s ms (.done q) t)
    (h' : Path effect (f q) t ms' p' s') : Path effect (p.andThen f) s (ms ++ ms') p' s' := by
  induction p generalizing s ms with
  | done r =>
      obtain ⟨rfl, rfl, rfl⟩ := h.of_done
      exact h'
  | read k ih =>
      cases h with
      | read v rest => exact .read v (ih v rest)
  | write w k ih =>
      cases h with
      | write rest => exact .write (ih rest)
  | call c k ih =>
      cases h with
      | call answer rest => exact .call answer (ih _ rest)

/-- A move of an execution, with a relation that all calls follow from there on. -/
theorem move {R : S → S → Prop} (hrefl : ∀ s, R s s) (htrans : ∀ {s t u}, R s t → R t u → R s u)
    (hstep : ∀ {s c r t}, effect s c r t → R s t) {p p' : Prog A α}
    (h : Path effect p s ms p' s') :
    R s s' ∧ ∀ m ∈ ms, effect m.before m.call m.reply m.after ∧ R m.after s' := by
  induction h with
  | nil => exact ⟨hrefl _, nofun⟩
  | read v _ ih => exact ih
  | write _ ih => exact ih
  | call answer _ ih =>
      refine ⟨htrans (hstep answer) ih.1, fun m hm => ?_⟩
      obtain rfl | hm := List.mem_cons.1 hm
      · exact ⟨answer, ih.1⟩
      · exact ih.2 m hm

/-- What a program settles with is determined by the answers it got. -/
theorem deterministic [Subsingleton A.Var] {p : Prog A α} {r r' : A.Settled α} {t : S}
    {ms' later : List (Move A S)} (h : Path effect p s ms (.done r) s')
    (h' : Path effect p s ms' (.done r') t) (hms : ms' = ms ++ later) : r' = r := by
  induction p generalizing s ms ms' with
  | done q =>
      obtain ⟨-, rfl, -⟩ := h.of_done
      exact h'.of_done.2.1
  | read k ih =>
      cases h with
      | read v rest =>
          cases h' with
          | read v' rest' =>
              obtain rfl := Subsingleton.elim v v'
              exact ih v rest rest' hms
  | write w k ih =>
      cases h with
      | write rest =>
          cases h' with
          | write rest' => exact ih rest rest' hms
  | call c k ih =>
      cases h with
      | call answer rest =>
          cases h' with
          | call answer' rest' =>
              rw [List.cons_append, List.cons.injEq] at hms
              obtain ⟨hmove, hms⟩ := hms
              cases hmove
              exact ih _ rest rest' hms

/-! What returns has returned from all its parts. -/

theorem of_await {c : A.Call} {r : A.Settled (A.Reply c)}
    (h : Path effect (Prog.await c) s ms (.done r) s') : effect s c r s' ∧ ms = [⟨s, c, r, s'⟩] := by
  cases h with
  | call answer rest =>
      rcases rest.of_done with ⟨rfl, rfl, rfl⟩
      exact ⟨answer, rfl⟩

theorem of_bind_ok {p : Prog A α} {f : α → Prog A β} {b : β}
    (h : Path effect (p >>= f) s ms (.done (.ok b)) s') :
    ∃ a t ms₁ ms₂, Path effect p s ms₁ (.done (.ok a)) t ∧
      Path effect (f a) t ms₂ (.done (.ok b)) s' ∧ ms = ms₁ ++ ms₂ := by
  rcases of_andThen h with ⟨q, t, ms₁, ms₂, hp, hf, hms⟩
  cases q with
  | ok a => exact ⟨a, t, ms₁, ms₂, hp, hf, hms⟩
  | error e =>
      have hthrown := hf.of_done.2.1
      cases hthrown

theorem of_finallyDo_ok {p : Prog A α} {cleanup : Prog A Unit} {a : α}
    (h : Path effect (p.finallyDo cleanup) s ms (.done (.ok a)) s') :
    ∃ t ms₁ ms₂, Path effect p s ms₁ (.done (.ok a)) t ∧
      Path effect cleanup t ms₂ (.done (.ok ())) s' ∧ ms = ms₁ ++ ms₂ := by
  rcases of_andThen h with ⟨q, t, ms₁, ms₂, hp, hcleanup, hms⟩
  rcases of_andThen hcleanup with ⟨q', t', ms₃, ms₄, hclean, hrest, rfl⟩
  cases q' with
  | ok u =>
      rcases hrest.of_done with ⟨rfl, rfl, rfl⟩
      exact ⟨t, ms₁, ms₃, hp, hclean, by rw [hms, List.append_nil]⟩
  | error e =>
      have hthrown := hrest.of_done.2.1
      cases hthrown

theorem of_tryCatch_ok {p : Prog A α} {handler : A.Error → Prog A α} {a : α}
    (h : Path effect (tryCatch p handler) s ms (.done (.ok a)) s') :
    Path effect p s ms (.done (.ok a)) s' ∨
      ∃ e t ms₁ ms₂, Path effect p s ms₁ (.done (.error e)) t ∧
        Path effect (handler e) t ms₂ (.done (.ok a)) s' ∧ ms = ms₁ ++ ms₂ := by
  rcases of_andThen h with ⟨q, t, ms₁, ms₂, hp, hrest, hms⟩
  cases q with
  | ok b =>
      rcases hrest.of_done with ⟨rfl, hsame, rfl⟩
      cases hsame
      exact Or.inl (by rw [hms, List.append_nil]; exact hp)
  | error e => exact Or.inr ⟨e, t, ms₁, ms₂, hp, hrest, hms⟩

/-- What the calls of a program all keep, is kept by every part of an execution. -/
theorem within {C : A.Call → Prop} {W : A.Write → Prop} {R : S → S → Prop} (hrefl : ∀ s, R s s)
    (htrans : ∀ {s t u}, R s t → R t u → R s u)
    (hcall : ∀ {s c r t}, C c → effect s c r t → R s t) {p p' : Prog A α}
    (hp : p.Within C W) (h : Path effect p s ms p' s') :
    R s s' ∧ ∀ m ∈ ms, R s m.before ∧ R s m.after := by
  induction h with
  | nil => exact ⟨hrefl _, nofun⟩
  | read v _ ih => exact ih (hp v)
  | write _ ih => exact ih hp.2
  | call answer _ ih =>
      have hstep := hcall hp.1 answer
      rcases ih (hp.2 _) with ⟨hrest, hmoves⟩
      refine ⟨htrans hstep hrest, ?_⟩
      intro m hm
      rcases List.mem_cons.1 hm with rfl | hm
      · exact ⟨hrefl _, hstep⟩
      · exact ⟨htrans hstep (hmoves m hm).1, htrans hstep (hmoves m hm).2⟩

end Path

/-! ## Verifying such a program -/

/-- The logic of a program that runs alone: its view is the state itself, and
`mayCall` is asked at every state at which it could be stopped. -/
def Logic.alone (effect : Effect A S) (mayCall : A.Call → S → Prop) : Logic A S where
  reads s _ s' := s' = s
  mayWrite _ _ := True
  write _ s := s
  mayCall := mayCall
  issue _ s := s
  replies c s r s' := effect s c r s'

/-- The same with the moves so far as part of the state. -/
def Effect.recorded (effect : Effect A S) : Effect A (S × List (Move A S)) :=
  fun x c r x' => effect x.1 c r x'.1 ∧ x'.2 = x.2 ++ [⟨x.1, c, r, x'.1⟩]

theorem Logic.replies_recorded {effect : Effect A S} {mayCall : A.Call → S × List (Move A S) → Prop}
    {s : S} {ms : List (Move A S)} {c : A.Call} {r : A.Settled (A.Reply c)}
    {x : S × List (Move A S)} :
    (Logic.alone effect.recorded mayCall).replies c
        ((Logic.alone effect.recorded mayCall).issue c (s, ms)) r x ↔
      ∃ s', effect s c r s' ∧ x = (s', ms ++ [⟨s, c, r, s'⟩]) := by
  constructor
  · intro h
    exact ⟨x.1, h.1, Prod.ext rfl h.2⟩
  · rintro ⟨s', h, rfl⟩
    exact ⟨h, rfl⟩

section

variable {effect : Effect A S} {mayCall : A.Call → S → Prop} {Q : A.Settled α → S → Prop}
  {p p' : Prog A α} {s s' : S} {ms : List (Move A S)}

/-- Wherever a verified program is stopped, the rest of it is verified. -/
theorem Path.wp (h : Path effect p s ms p' s') (hp : wp (.alone effect mayCall) p Q s) :
    Async.wp (.alone effect mayCall) p' Q s' := by
  induction h with
  | nil => exact hp
  | read v _ ih => exact ih (hp v _ rfl)
  | write _ ih => exact ih hp.2
  | call answer _ ih => exact ih (hp.2 _ _ answer)

/-- A verified program that has settled meets its postcondition. -/
theorem Path.post {r : A.Settled α} (h : Path effect p s ms (.done r) s')
    (hp : Async.wp (.alone effect mayCall) p Q s) : Q r s' :=
  h.wp hp

theorem Path.recorded (h : Path effect p s ms p' s') (before : List (Move A S)) :
    ∃ ms', Path effect.recorded p (s, before) ms' p' (s', before ++ ms) := by
  induction h generalizing before with
  | nil => exact ⟨[], by rw [List.append_nil]; exact .nil⟩
  | read v _ ih =>
      obtain ⟨ms', h'⟩ := ih before
      exact ⟨ms', .read v h'⟩
  | write _ ih =>
      obtain ⟨ms', h'⟩ := ih before
      exact ⟨ms', .write h'⟩
  | @call c k s t s' r ms p answer _ ih =>
      obtain ⟨ms', h'⟩ := ih (before ++ [⟨s, c, r, t⟩])
      rw [List.append_assoc, List.singleton_append] at h'
      exact ⟨_, .call ⟨answer, rfl⟩ h'⟩

/-- What is verified of a program with its record holds of its moves. -/
theorem Path.post_recorded {mayCall : A.Call → S × List (Move A S) → Prop}
    {Q : A.Settled α → S × List (Move A S) → Prop} {r : A.Settled α}
    (h : Path effect p s ms (.done r) s') {before : List (Move A S)}
    (hp : Async.wp (.alone effect.recorded mayCall) p Q (s, before)) : Q r (s', before ++ ms) := by
  obtain ⟨ms', h'⟩ := h.recorded before
  exact h'.post hp

end

theorem Prog.Within.finallyDo {C : A.Call → Prop} {W : A.Write → Prop} {p : Prog A α}
    {cleanup : Prog A Unit} (hp : p.Within C W) (hcleanup : cleanup.Within C W) :
    (p.finallyDo cleanup).Within C W :=
  hp.andThen fun _ => hcleanup.andThen fun r => by
    cases r with
    | ok a => trivial
    | error e => trivial

/-! ## Playing a program -/

/-- Run `p` against a world that gives one answer to each call, to the end. -/
def play (world : S → (c : A.Call) → Option (A.Settled (A.Reply c) × S)) :
    Prog A α → S → Option (List (Move A S) × A.Settled α × S)
  | .done r, s => some ([], r, s)
  | .read _, _ => none
  | .write _ k, s => play world k s
  | .call c k, s =>
      match world s c with
      | none => none
      | some (r, t) =>
          match play world (k r) t with
          | none => none
          | some (ms, result) => some (⟨s, c, r, t⟩ :: ms, result)

/-- A world that keeps to `effect` plays an execution. -/
theorem Path.of_play {effect : Effect A S}
    {world : S → (c : A.Call) → Option (A.Settled (A.Reply c) × S)}
    (hworld : ∀ s c r t, world s c = some (r, t) → effect s c r t) {p : Prog A α} {s s' : S}
    {ms : List (Move A S)} {r : A.Settled α} (h : play world p s = some (ms, r, s')) :
    Path effect p s ms (.done r) s' := by
  induction p generalizing s ms with
  | done q =>
      cases h
      exact .nil
  | read k => cases h
  | write w k ih => exact .write (ih h)
  | call c k ih =>
      rw [play] at h
      split at h
      · cases h
      · rename_i q t hw
        split at h
        · cases h
        · rename_i ms' result hplay
          cases h
          exact .call (hworld s c q t hw) (ih q hplay)

end Async
