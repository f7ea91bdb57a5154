import BrowserVpn.Extension.Epochs

/-!
# Extension.History — a function and the moments it has seen

A function of the worker learns of the state at single moments: where a segment
begins and reads the variables, and where a call takes effect. The view here is
the latest of those moments, as a whole state; it is never outdated, because all
it says is that the present comes later in the same worker lifetime. What a
function concludes about the present from counters it compared is then a fact
about two states (`Extension.Epochs`).

An `Account` says what is to be shown of the functions it covers: which calls
they are entitled to, and what a result goes with.
-/

namespace BrowserVpn

open Async

/-! ## An actor's own part of the trace -/

/-- The actor starts over. -/
def Obs.begins (a : Actor) : Obs → Bool
  | .restarted => true
  | .started .. => a = .op
  | .began t _ => a = .task t
  | _ => false

/-- What has happened since the present function of `a` began. -/
def sinceBegan (a : Actor) (trace : List Obs) : List Obs := trace.takeWhile fun o => !o.begins a

/-- A storage that `a` has read. -/
def Obs.readBy (a : Actor) : Obs → Option Storage
  | .landed b .storageGet (.ok data) => if b = a then some data else none
  | _ => none

/-- A call of `a`. -/
def Obs.callOf (a : Actor) : Obs → Bool
  | .issued b _ => b = a
  | _ => false

/-- The storages that the present function of `a` has read, newest first. -/
def readsOf (a : Actor) (trace : List Obs) : List Storage :=
  (sinceBegan a trace).filterMap (Obs.readBy a)

/-- How many calls the present function of `a` has issued. -/
def callsOf (a : Actor) (trace : List Obs) : Nat := (sinceBegan a trace).countP (Obs.callOf a)

section Own

variable {a : Actor} {o : Obs} {trace : List Obs}

theorem readsOf_cons (h : o.begins a = false) :
    readsOf a (o :: trace) = (o.readBy a).toList ++ readsOf a trace := by
  rw [readsOf, sinceBegan, List.takeWhile_cons, h]
  cases hr : o.readBy a <;> simp [hr, readsOf, sinceBegan]

theorem callsOf_cons (h : o.begins a = false) :
    callsOf a (o :: trace) = callsOf a trace + if o.callOf a then 1 else 0 := by
  rw [callsOf, sinceBegan, List.takeWhile_cons, h]
  simp [callsOf, sinceBegan, List.countP_cons]

theorem readsOf_begins (h : o.begins a = true) : readsOf a (o :: trace) = [] := by
  simp [readsOf, sinceBegan, h]

theorem callsOf_begins (h : o.begins a = true) : callsOf a (o :: trace) = 0 := by
  simp [callsOf, sinceBegan, h]

/-- Observations of others. -/
theorem own_append {new : List Obs} (h : ∀ o ∈ new, o.begins a = false ∧ o.readBy a = none ∧
    o.callOf a = false) :
    readsOf a (new ++ trace) = readsOf a trace ∧ callsOf a (new ++ trace) = callsOf a trace := by
  refine ⟨?_, ?_⟩ <;> induction new with
  | nil => rfl
  | cons o new ih =>
      obtain ⟨hbegins, hread, hcall⟩ := h o (List.mem_cons_self ..)
      have ih := ih fun o' ho' => h o' (List.mem_cons_of_mem _ ho')
      rw [List.cons_append]
      first
      | rw [readsOf_cons hbegins, hread, ih]; rfl
      | rw [callsOf_cons hbegins, hcall, ih]; rfl

end Own

section

variable [Platform] [Browser]

/-- The steps of others leave an actor's own part alone. -/
theorem own_next {s s' : Sys} {l : Label} {a : Actor} (hs : s.next l = some s')
    (ha : l.actor ≠ some a) (hl : l ≠ .restart) (hstart : l = .start → a ≠ .op)
    (hdispatch : ∀ t, l = .dispatch t → a ≠ .task t) :
    readsOf a s'.trace = readsOf a s.trace ∧ callsOf a s'.trace = callsOf a s.trace := by
  obtain ⟨new, htrace, hof⟩ := Sys.trace_next hs
  rw [htrace]
  refine own_append fun o ho => ?_
  have hlabel := hof o ho
  cases o with
  | restarted => exact absurd hlabel hl
  | started op owner => exact ⟨decide_eq_false (hstart hlabel), rfl, rfl⟩
  | began t kind => exact ⟨decide_eq_false (hdispatch t hlabel), rfl, rfl⟩
  | issued b c =>
      have hne : b ≠ a := fun e => ha (by rw [hlabel, e]; rfl)
      exact ⟨rfl, rfl, decide_eq_false hne⟩
  | landed b c r =>
      obtain ⟨out, rfl⟩ := hlabel
      have hne : b ≠ a := fun e => ha (by rw [e]; rfl)
      refine ⟨rfl, ?_, rfl⟩
      cases c <;> first | rfl | (cases r <;> simp [Obs.readBy, hne])
  | _ => exact ⟨rfl, rfl, rfl⟩

/-! ## Moments -/

/-- The latest moment a function has seen, and what it has done since. -/
structure Moment where
  me : Actor
  subj : Subject
  now : Sys
  /-- The present segment began at this moment. -/
  here : Bool
  /-- The writes of the present segment, newest first. -/
  wrote : List Write
  reads : List Storage
  calls : Nat
  /-- The call under way, when the segment that issued it began at this moment. -/
  awaits : Option Call

namespace Moment

/-- A function that begins. -/
def begin (a : Actor) (subj : Subject) (s : Sys) : Moment where
  me := a
  subj := subj
  now := s
  here := false
  wrote := []
  reads := []
  calls := 0
  awaits := none

/-- A call has been issued. -/
def issue (c : Call) (x : Moment) : Moment :=
  { x with
    here := false
    wrote := []
    calls := x.calls + 1
    awaits := if x.here then some c else none }

/-- A call has landed, and `s` is the state it left. -/
def land (x : Moment) (c : Call) (r : Except String (Reply c)) (s : Sys) : Moment :=
  { x with
    now := s
    here := false
    wrote := []
    reads := (Obs.readBy x.me (.landed x.me c r)).toList ++ x.reads
    awaits := none }

end Moment

/-- The segment of `a` that begins in `s` comes to the call `c`. -/
structure Issues (ok : Rules) (s : Sys) (a : Actor) (c : Call) (s' : Sys) : Prop where
  admitted : ok s (.resume a)
  next : s.next (.resume a) = some s'
  trace : s'.trace = .issued a c :: s.trace

/-- The call `c` of `a` takes effect with the reply `r`. -/
structure Lands (ok : Rules) (s : Sys) (a : Actor) (c : Call) (r : Except String (Reply c))
    (s' : Sys) : Prop where
  slot : ∃ subj k, s.slot a = some (subj, .awaiting c k)
  land : ∃ o, ok s (.land a o) ∧ s.next (.land a o) = some s' ∧
    s.world.land c o = some (r, s'.world)
  trace : ∃ new, s'.trace = .landed a c r :: (new ++ s.trace) ∧ ∀ o ∈ new, o = .settingChanged

namespace Moment

/-- The present is `s`, later than the moment; a call under way was issued where
the moment's segment ended. -/
def Before (ok : Rules) (x : Moment) (s : Sys) : Prop :=
  match x.awaits with
  | none => Later ok x.now s
  | some c => ∃ s₁, Issues ok x.now x.me c s₁ ∧ Later ok s₁ s

/-- Nobody else writes what the holder of the queue has seen of the storage once
`boot` is done. -/
def Held (x : Moment) (s : Sys) : Prop :=
  x.me = .op → x.now.boot = none → s.world.storage = x.now.world.storage ∧
    s.vars.configurationEpoch = x.now.vars.configurationEpoch

/-- The moment against a state between segments. -/
structure Fits (ok : Rules) (w : World) (x : Moment) (s : Sys) : Prop where
  reach : Reach ok (Sys.init w) s
  before : x.Before ok s
  held : x.Held s
  here : x.here = false
  wrote : x.wrote = []
  reads : readsOf x.me s.trace = x.reads
  calls : callsOf x.me s.trace = x.calls

/-- The moment in the midst of a segment that began in `s`. -/
structure During (ok : Rules) (w : World) (x : Moment) (s : Sys) (v : Vars) : Prop where
  reach : Reach ok (Sys.init w) s
  later : Later ok x.now s
  held : x.Held s
  here : x.here = true → x.now = s
  vars : v = x.wrote.foldr Write.apply s.vars
  reads : readsOf x.me s.trace = x.reads
  calls : callsOf x.me s.trace = x.calls

end Moment

/-! ## Accounts -/

/-- What is to be shown of the functions that `covers` selects. Questions may
be asked at any time. -/
structure Account where
  covers : Subject → Prop
  may : Call → Moment → Prop
  post : Subject → Except String Result → Moment → Prop
  asks : ∀ c x, c.asks = true → may c x

variable {ok : Rules} {w : World} {A : Account}

/-- The exclusive task `op` of the callback `t` ends with `r`. -/
structure Settles (A : Account) (ok : Rules) (w : World) (s : Sys) (t : Nat) (op : Op)
    (r : Except String Result) (s' : Sys) : Prop where
  admitted : ok s (.resume .op)
  next : s.next (.resume .op) = some s'
  running : ∃ thread, s.running = some ⟨op, some t, thread⟩
  trace : s'.trace = .ended .op r :: s.trace
  done : s'.running = none
  post : A.covers (.op op) → ∃ y v, y.me = .op ∧ y.subj = .op op ∧ y.During ok w s v ∧
    A.post (.op op) r y

/-- What a reply is: the call has landed in a later state, or the exclusive task
has ended in one. -/
def historyReplies (A : Account) (ok : Rules) (w : World) :
    (c : Call) → Moment → Except String (Reply c) → Moment → Prop
  | .exclusive op, x, r, x' => ∃ s s' t, Reach ok (Sys.init w) s ∧ x.Before ok s ∧
      x.me = .task t ∧ Settles A ok w s t op r s' ∧
      x' = { x with now := s', here := false, wrote := [], awaits := none }
  | c, x, r, x' => ∃ s s', Reach ok (Sys.init w) s ∧ x.Before ok s ∧ x.Held s ∧
      Lands ok s x.me c r s' ∧ x' = x.land c r s'

@[reducible] def historyLogic (A : Account) (ok : Rules) (w : World) : Logic api Moment where
  reads x v x' := ∃ s, x.During ok w s v ∧ x' = { x with now := s, here := true, awaits := none }
  mayWrite _ _ := True
  write w x := { x with wrote := w :: x.wrote }
  mayCall := A.may
  issue := Moment.issue
  replies := historyReplies A ok w

/-- The outline of an account. A call under way is one the function was entitled
to. -/
@[reducible] def historyOutline (A : Account) (ok : Rules) (w : World) : Outline where
  View := Moment
  logic := historyLogic A ok w
  covers := A.covers
  At a subj x s := x.me = a ∧ x.subj = subj ∧ x.Fits ok w s ∧
    ∀ c k, s.slot a = some (subj, .awaiting c k) → ∃ y, A.may c y ∧ x = y.issue c
  post := A.post
  In a subj x s v := x.me = a ∧ x.subj = subj ∧ x.During ok w s v

/-! ## Every account over every interleaving -/

theorem Issues.later {s s' : Sys} {a : Actor} {c : Call} (h : Issues ok s a c s') :
    Later ok s s' :=
  Reach.init.step ⟨h.admitted, nofun⟩ h.next

theorem Lands.later {s s' : Sys} {a : Actor} {c : Call} {r : Except String (Reply c)}
    (h : Lands ok s a c r s') : Later ok s s' := by
  obtain ⟨o, hok, hs, -⟩ := h.land
  exact Reach.init.step ⟨hok, nofun⟩ hs

theorem Settles.later {s s' : Sys} {t : Nat} {op : Op} {r : Except String Result}
    (h : Settles A ok w s t op r s') : Later ok s s' :=
  Reach.init.step ⟨h.admitted, nofun⟩ h.next

theorem Moment.Before.later {x : Moment} {s : Sys} (h : x.Before ok s) : Later ok x.now s := by
  unfold Before at h
  split at h
  · exact h
  · obtain ⟨s₁, hissues, hlater⟩ := h
    exact hissues.later.trans hlater

theorem Moment.Before.step {x : Moment} {s s' : Sys} {l : Label} (h : x.Before ok s) (hl : ok s l)
    (hrestart : l ≠ .restart) (hs : s.next l = some s') : x.Before ok s' := by
  unfold Before at h ⊢
  split at h
  · exact Reach.step h ⟨hl, hrestart⟩ hs
  · obtain ⟨s₁, hissues, hlater⟩ := h
    exact ⟨s₁, hissues, Reach.step hlater ⟨hl, hrestart⟩ hs⟩

/-- Steps of others leave the storage to the holder of the queue, once `boot` is
done. -/
theorem Sys.Disciplined.held_next {s s' : Sys} {l : Label} (hd : s.Disciplined)
    (hs : s.next l = some s') (ha : l.actor ≠ some .op) (hl : l ≠ .restart) (hstart : l ≠ .start)
    (hboot : s.boot = none) : s'.world.storage = s.world.storage ∧
      s'.vars.configurationEpoch = s.vars.configurationEpoch := by
  obtain ⟨new, hpassed, hof⟩ := Sys.passed_next hs hl
  refine ⟨?_, ?_⟩
  · cases l with
    | message sender m =>
        obtain rfl := Option.some.inj hs
        split <;> rfl
    | challenge details =>
        obtain rfl := Option.some.inj hs
        unfold Sys.onChallenge
        split <;> rfl
    | others proxy webRTC => exact Option.some.inj hs ▸ rfl
    | dispatch t =>
        obtain ⟨kind, -, -, rfl⟩ := Sys.dispatch_eq_some hs
        rfl
    | land a o =>
        obtain ⟨subj, c, k, r, w, hslot, hw, rfl⟩ := Sys.land_eq_some hs
        rw [Sys.answer_world]
        cases a with
        | boot => simpa [hboot] using (Sys.slot_boot hslot).2
        | op => exact absurd rfl ha
        | task t =>
            obtain ⟨kind, -, rfl⟩ := Sys.task_of_slot hslot
            rw [World.land_inspects hw (hd.calls hslot)]
    | resume a =>
        obtain ⟨subj, p, -, ⟨v, c, k, -, rfl⟩ | ⟨v, r, -, rfl⟩⟩ := Sys.resume_eq_some hs
        · rw [Sys.suspend_world]
        · rw [Sys.finish_world]
    | start => exact absurd rfl hstart
    | restart => exact absurd rfl hl
    | requestDone id => exact Option.some.inj hs ▸ rfl
    | proxyError details => exact Option.some.inj hs ▸ rfl
    | clock now => exact Option.some.inj hs ▸ rfl
  · have hzero : new.countP Obs.starts = 0 := by
      refine List.countP_eq_zero.2 fun o ho hstarts => ?_
      have hlabel := hof o ho
      cases o with
      | started op owner => exact hstart hlabel
      | _ => cases hstarts
    have hstarts := hpassed.starts
    omega

theorem Moment.Held.step {x : Moment} {s s' : Sys} {l : Label} (h : x.Held s)
    (hd : s.Disciplined) (hboot : x.now.boot = none → s.boot = none) (hs : s.next l = some s')
    (ha : x.me = .op → l.actor ≠ some .op) (hl : l ≠ .restart)
    (hstart : x.me = .op → l ≠ .start) : x.Held s' := by
  intro hme hnone
  obtain ⟨hstorage, hepoch⟩ := h hme hnone
  obtain ⟨hstorage', hepoch'⟩ := hd.held_next hs (ha hme) hl (hstart hme) (hboot hnone)
  exact ⟨hstorage'.trans hstorage, hepoch'.trans hepoch⟩

theorem historyOutline_coherent : (historyOutline A ok w).Coherent where
  enters _ _ hx := by
    obtain ⟨hme, hsubj, hfits, -⟩ := hx
    refine ⟨hme, hsubj, hfits.reach, hfits.before.later, hfits.held, fun h => ?_, ?_, hfits.reads,
      hfits.calls⟩
    · rw [hfits.here] at h
      cases h
    · rw [hfits.wrote]
      rfl
  reads {s a subj p x v} _ _ hx := by
    obtain ⟨hme, hsubj, hduring⟩ := hx
    refine ⟨_, ⟨s, hduring, rfl⟩, hme, hsubj, hduring.reach, Reach.init, ?_, fun _ => rfl,
      hduring.vars, hduring.reads, hduring.calls⟩
    exact fun _ _ => ⟨rfl, rfl⟩
  writes {s a subj p x v w'} _ _ _ hx := by
    obtain ⟨hme, hsubj, hduring⟩ := hx
    refine ⟨hme, hsubj, { hduring with vars := ?_ }⟩
    rw [hduring.vars]
    rfl

/-- A function that begins has seen this moment and nothing else. -/
theorem historyOutline_begins {a : Actor} {subj : Subject} {s : Sys}
    (hbody : A.covers subj → wp (historyLogic A ok w) subj.body (A.post subj)
      (Moment.begin a subj s))
    (hr : Reach ok (Sys.init w) s) (hslot : ∀ c k, s.slot a ≠ some (subj, .awaiting c k))
    (hown : readsOf a s.trace = [] ∧ callsOf a s.trace = 0) :
    (historyOutline A ok w).Begins a subj s := by
  intro hc
  refine ⟨Moment.begin a subj s, ⟨rfl, rfl, ?_, fun c k h => absurd h (hslot c k)⟩, hbody hc⟩
  exact ⟨hr, Reach.init, fun _ _ => ⟨rfl, rfl⟩, rfl, rfl, hown.1, hown.2⟩

section

omit [Platform]

/-- What is said of a call that is no exclusive task. -/
theorem historyReplies_iff [Platform] {c : Call} (hc : ∀ op, c ≠ .exclusive op) {x x' : Moment}
    {r : Except String (Reply c)} : historyReplies A ok w c x r x' ↔
      ∃ s s', Reach ok (Sys.init w) s ∧ x.Before ok s ∧ x.Held s ∧ Lands ok s x.me c r s' ∧
        x' = x.land c r s' := by
  cases c <;> first | exact Iff.rfl | exact absurd rfl (hc _)

theorem Sys.next_suspend [Platform] {s : Sys} {a : Actor} {subj : Subject} {p : Js Result}
    {v : Vars} {c : Call} {k : Except String (Reply c) → Js Result}
    (hslot : s.slot a = some (subj, .ready p)) (hp : p.run s.vars = (v, .suspended c k)) :
    s.next (.resume a) = some (({ s with vars := v } : Sys).suspend a c k) := by
  simp [next, resume, thread, hslot, advance, hp]

theorem Sys.next_finish [Platform] {s : Sys} {a : Actor} {subj : Subject} {p : Js Result}
    {v : Vars} {r : Except String Result} (hslot : s.slot a = some (subj, .ready p))
    (hp : p.run s.vars = (v, .finished r)) :
    s.next (.resume a) = some (({ s with vars := v } : Sys).finish a r) := by
  simp [next, resume, thread, hslot, advance, hp]

end

/-- A function that comes to a call keeps its moment. -/
theorem Moment.During.issue {s : Sys} {x : Moment} {v : Vars} (h : x.During ok w s v)
    {subj : Subject} {p : Js Result} {c : Call} {k : Except String (Reply c) → Js Result}
    (hok : ok s (.resume x.me)) (hslot : s.slot x.me = some (subj, .ready p))
    (hp : p.run s.vars = (v, .suspended c k)) :
    (x.issue c).Fits ok w (({ s with vars := v } : Sys).suspend x.me c k) := by
  have hnext := Sys.next_suspend hslot hp
  have hreads : ∀ trace, readsOf x.me (.issued x.me c :: trace) = readsOf x.me trace :=
    fun trace => readsOf_cons rfl
  have hcalls : ∀ trace, callsOf x.me (.issued x.me c :: trace) = callsOf x.me trace + 1 :=
    fun trace => (callsOf_cons rfl).trans (by simp [Obs.callOf])
  refine ⟨h.reach.step hok hnext, ?_, ?_, rfl, rfl, ?_, ?_⟩
  · -- The segment that began at the moment, or one that began later.
    cases hhere : x.here with
    | true =>
        have hnow := h.here hhere
        simp only [Before, Moment.issue, hhere, if_true]
        exact ⟨_, ⟨hnow ▸ hok, hnow ▸ hnext, by simp [hnow]⟩, Reach.init⟩
    | false =>
        simp only [Before, Moment.issue, hhere, Bool.false_eq_true, if_false]
        exact Reach.step h.later ⟨hok, nofun⟩ hnext
  · intro hme hboot
    obtain ⟨hstorage, hepoch⟩ := h.held hme hboot
    rw [Sys.suspend_world, Sys.suspend_vars]
    exact ⟨hstorage, (run_epochs hp).1.trans hepoch⟩
  · rw [Sys.suspend_trace]
    exact (hreads _).trans h.reads
  · rw [Sys.suspend_trace]
    exact (hcalls _).trans (congrArg (· + 1) h.calls)

/-- A call that lands moves the moment to where it has landed. -/
theorem Moment.Fits.land {s : Sys} {x : Moment} (h : x.Fits ok w s) {subj : Subject} {c : Call}
    {k : Except String (Reply c) → Js Result} {o : Outcome} {r : Except String (Reply c)}
    {w' : World} (hok : ok s (.land x.me o)) (hslot : s.slot x.me = some (subj, .awaiting c k))
    (hland : s.world.land c o = some (r, w')) :
    Lands ok s x.me c r (s.answer x.me c k r w') ∧
      (x.land c r (s.answer x.me c k r w')).Fits ok w (s.answer x.me c k r w') := by
  have hnext : s.next (.land x.me o) = some (s.answer x.me c k r w') := by
    simp [Sys.next, Sys.land, Sys.thread, hslot, hland]
  obtain ⟨new, htrace, hnew⟩ := s.move_trace w'
  have htrace : (s.answer x.me c k r w').trace = .landed x.me c r :: (new ++ s.trace) := by
    rw [Sys.answer_trace, htrace]
  obtain ⟨hreads, hcalls⟩ : readsOf x.me (new ++ s.trace) = readsOf x.me s.trace ∧
      callsOf x.me (new ++ s.trace) = callsOf x.me s.trace :=
    own_append fun o ho => by rw [hnew o ho]; exact ⟨rfl, rfl, rfl⟩
  refine ⟨⟨⟨subj, k, hslot⟩, ⟨o, hok, hnext, by simpa using hland⟩, new, htrace, hnew⟩,
    h.reach.step hok hnext, Reach.init, fun _ _ => ⟨rfl, rfl⟩, rfl, rfl, ?_, ?_⟩
  · rw [htrace]
    show readsOf x.me _ = (Obs.readBy x.me (.landed x.me c r)).toList ++ x.reads
    rw [readsOf_cons rfl, hreads, h.reads]
  · rw [htrace]
    show callsOf x.me _ = x.calls
    rw [callsOf_cons rfl, hcalls, h.calls]
    rfl

/-- An account whose functions are in order holds over every interleaving. -/
theorem historyOutline_correct
    (hbody : ∀ a subj s, A.covers subj → Reach ok (Sys.init w) s →
      s.slot a = some (subj, .ready subj.body) →
      wp (historyLogic A ok w) subj.body (A.post subj) (Moment.begin a subj s)) :
    (historyOutline A ok w).Correct ok (fun s => Reach ok (Sys.init w) s) fun _ => True where
  toCoherent := historyOutline_coherent
  frame {s l s' a subj thread x} hr hr' _ _ hok hs ha hl hslot _ hslot' hx := by
    obtain ⟨rfl, rfl, hfits, hcall⟩ := hx
    have hstart : l = .start → x.me ≠ .op := by
      rintro rfl hme
      obtain ⟨op, owner, rest, hnone, -, -⟩ := Sys.startOp_eq_some hs
      rw [hme] at hslot
      obtain ⟨op', owner', hrun, -⟩ := Sys.slot_op hslot
      simp [hnone] at hrun
    have hdispatch : ∀ t, l = .dispatch t → x.me ≠ .task t := by
      rintro t rfl hme
      obtain ⟨kind, -, hparked, -⟩ := Sys.dispatch_eq_some hs
      rw [hme] at hslot
      obtain ⟨kind', ht, -⟩ := Sys.task_of_slot hslot
      simp [hparked] at ht
    obtain ⟨hreads, hcalls⟩ := own_next hs ha hl hstart hdispatch
    refine ⟨rfl, rfl, ⟨hr', hfits.before.step hok hl hs, ?_, hfits.here, hfits.wrote,
      hreads.trans hfits.reads, hcalls.trans hfits.calls⟩,
      fun c k h => hcall c k (hslot.trans (hslot' ▸ h))⟩
    exact hfits.held.step hr.disciplined (Later.boot_none hfits.before.later) hs
      (fun hme => hme ▸ ha) hl fun hme h => hstart h hme
  restarted {s} hr _ hok :=
    historyOutline_begins (fun hc => hbody _ _ _ hc (hr.step hok rfl) rfl) (hr.step hok rfl)
      (fun _ _ => by simp [Sys.slot, Sys.fresh]) ⟨readsOf_begins rfl, callsOf_begins rfl⟩
  entered _ _ _ _ _ hr' :=
    historyOutline_begins (fun hc => hbody _ _ _ hc hr' (by simp [Sys.slot, Subject.body])) hr'
      (fun _ _ => by simp [Sys.slot])
      ⟨readsOf_begins (by simp [Obs.begins]), callsOf_begins (by simp [Obs.begins])⟩
  dispatched {s t kind} hr _ hok hb ht := by
    have hs : s.next (.dispatch t) =
        some ((s.park (.task t) (.ready kind.body)).emit (.began t kind)) := by
      simp [Sys.next, Sys.dispatch, hb, ht]
    have hslot : ((s.park (.task t) (.ready kind.body)).emit (.began t kind)).slot (.task t) =
        some (.task kind, .ready kind.body) := by
      simp [Sys.slot, Sys.park, ht]
    refine historyOutline_begins (fun hc => hbody _ _ _ hc (hr.step hok hs) hslot) (hr.step hok hs)
      (fun _ _ h => by simp [hslot] at h) ⟨readsOf_begins ?_, callsOf_begins ?_⟩
    · simp [Obs.begins]
    · simp [Obs.begins]
  answered {s a o subj c k r w' x} hr _ hok hslot _ hland _ hslot' hx := by
    obtain ⟨rfl, rfl, hfits, -⟩ := hx
    have hc : ∀ op, c ≠ .exclusive op := by
      rintro op rfl
      cases o <;> cases hland
    obtain ⟨hlands, hfits'⟩ := hfits.land hok hslot hland
    refine ⟨_, (historyReplies_iff hc).2 ⟨s, _, hr, hfits.before, hfits.held, hlands, rfl⟩, rfl, rfl,
      hfits', fun _ _ h => by simp [hslot'] at h⟩
  suspended {s a subj p v x c k} _ _ hok hslot _ _ hslot' hp hcall hx := by
    obtain ⟨rfl, rfl, hduring⟩ := hx
    refine ⟨rfl, rfl, hduring.issue hok hslot hp, fun c' k' h => ?_⟩
    obtain ⟨rfl, -⟩ : c = c' ∧ k ≍ k' := by simpa [hslot'] using h
    exact ⟨x, hcall, rfl⟩
  settled {s op t p v r subj op' k x} hr _ hsound hok hrun hp hslot _ hr' hslot' hx := by
    obtain ⟨hme, rfl, hfits, -⟩ := hx
    have hslotOp : s.slot .op = some (.op op, .ready p) := by simp [Sys.slot, hrun]
    obtain rfl : op = op' := by
      obtain ⟨subj', k', hawaits⟩ := hr.orderly.awaited op t (by simp [Sys.entries, hrun])
      obtain ⟨-, ⟨rfl, -⟩⟩ : x.subj = subj' ∧ op' = op ∧ k ≍ k' := by simpa [hslot] using hawaits
      rfl
    refine ⟨_, ⟨s, _, t, hr, hfits.before, hme, ⟨hok, Sys.next_finish hslotOp hp, ⟨_, hrun⟩, by simp,
      ?_, fun hc => ?_⟩, rfl⟩, hme, rfl, ⟨hr', Reach.init, fun _ _ => ⟨rfl, rfl⟩, rfl, rfl, ?_, ?_⟩,
      fun _ _ h => by simp [hslot'] at h⟩
    · simp only [Sys.finish]
      split <;> rfl
    · obtain ⟨y, ⟨hy, hy', hduring⟩, hpost⟩ := historyOutline_coherent.finished hsound hslotOp hc hp
      exact ⟨y, v, hy, hy', hduring, hpost⟩
    · rw [Sys.finish_trace]
      exact (readsOf_cons rfl).trans hfits.reads
    · rw [Sys.finish_trace]
      exact (callsOf_cons rfl).trans hfits.calls
  keeps _ _ _ _ _ _ := trivial

/-- In every reachable state the covered functions are on course. -/
theorem historyOutline_reach
    (hbody : ∀ a subj s, A.covers subj → Reach ok (Sys.init w) s →
      s.slot a = some (subj, .ready subj.body) →
      wp (historyLogic A ok w) subj.body (A.post subj) (Moment.begin a subj s))
    {s : Sys} (h : Reach ok (Sys.init w) s) : (historyOutline A ok w).Sound s := by
  have hbegins := Outline.sound_init (w := w) (historyOutline_begins (A := A) (a := .boot)
    (fun hc => hbody _ _ _ hc Reach.init rfl) Reach.init
    (fun _ _ => by simp [Sys.slot, Sys.init, Sys.fresh]) ⟨rfl, rfl⟩)
  exact ((historyOutline_correct hbody).reach hbegins trivial (fun hr => hr) h).1

end

end BrowserVpn
