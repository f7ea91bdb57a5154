import BrowserVpn.Async.View
import BrowserVpn.Extension.Worker

/-!
# Extension.Threads — proof outlines over every interleaving

`Outline` packages what one argument about the worker's functions needs: views
with their logic, what a view says about a state, and why the steps of the
others do not disturb it. `Outline.reach` is the induction over runs, done
once: in every reachable state each covered function is on course for its
postcondition.
-/

namespace BrowserVpn

open Async

namespace Sys

variable (s : Sys)

/-! ## Slots -/

/-- A slot depends on where the threads are kept and on nothing else. -/
theorem slot_congr {s s' : Sys} (hb : s'.boot = s.boot) (hr : s'.running = s.running)
    (ht : s'.tasks = s.tasks) (a : Actor) : s'.slot a = s.slot a := by
  cases a <;> simp [slot, hb, hr, ht]

/-- Callbacks that wait for `boot` have no slot yet. -/
theorem slot_append (s' : Sys) (new : List Task) (hb : s'.boot = s.boot)
    (hr : s'.running = s.running) (ht : s'.tasks = s.tasks ++ new)
    (hnew : ∀ task ∈ new, ∀ thread, task.phase ≠ .running thread) (a : Actor) :
    s'.slot a = s.slot a := by
  cases a with
  | boot => simp [slot, hb]
  | op => simp [slot, hr]
  | task t =>
      simp only [slot, ht]
      rcases Nat.lt_or_ge t s.tasks.length with h | h
      · rw [List.getElem?_append_left h]
      · rw [List.getElem?_append_right h, List.getElem?_eq_none h]
        rcases hn : new[t - s.tasks.length]? with _ | ⟨kind, phase⟩
        · rfl
        · cases phase with
          | running thread => exact absurd rfl (hnew _ (List.mem_of_getElem? hn) thread)
          | parked => rfl
          | settled r => rfl

@[simp] theorem slot_vars (v : Vars) (a : Actor) :
    ({ s with vars := v } : Sys).slot a = s.slot a :=
  slot_congr rfl rfl rfl a

@[simp] theorem slot_emit (o : Obs) (a : Actor) : (s.emit o).slot a = s.slot a :=
  slot_congr rfl rfl rfl a

@[simp] theorem slot_addTask (kind : TaskKind) (a : Actor) :
    (s.addTask kind).slot a = s.slot a :=
  slot_append s (s.addTask kind) [⟨kind, .parked⟩] rfl rfl rfl (by simp) a

@[simp] theorem slot_raise (kind : TaskKind) (a : Actor) : (s.raise kind).slot a = s.slot a :=
  slot_append s (s.raise kind) [⟨kind, .parked⟩] rfl rfl rfl (by simp) a

@[simp] theorem slot_move (w : World) (a : Actor) : (s.move w).slot a = s.slot a := by
  have hw : ∀ s' : Sys, ({ s' with world := w } : Sys).slot a = s'.slot a :=
    fun s' => slot_congr rfl rfl rfl a
  simp only [move, hw]
  split <;> split <;> simp

@[simp] theorem slot_issue (b : Actor) (c : Call) (a : Actor) :
    (s.issue b c).slot a = s.slot a :=
  slot_congr rfl rfl rfl a

theorem slot_park_self {subj : Subject} {old : Thread api Result} {a : Actor}
    (h : s.slot a = some (subj, old)) (thread : Thread api Result) :
    (s.park a thread).slot a = some (subj, thread) := by
  cases a with
  | boot =>
      simp only [slot, Option.map_eq_some_iff, Prod.mk.injEq] at h
      obtain ⟨_, -, rfl, -⟩ := h
      rfl
  | op =>
      simp only [slot, Option.map_eq_some_iff, Prod.mk.injEq] at h
      obtain ⟨r, hr, rfl, -⟩ := h
      simp [slot, park, hr]
  | task t =>
      simp only [slot] at h
      rcases ht : s.tasks[t]? with _ | ⟨kind, phase⟩
      · simp [ht] at h
      · cases phase <;> simp only [ht, reduceCtorEq, Option.some.injEq, Prod.mk.injEq] at h
        obtain ⟨rfl, -⟩ := h
        simp [slot, park, ht]

theorem slot_park_ne {a b : Actor} (h : b ≠ a) (thread : Thread api Result) :
    (s.park a thread).slot b = s.slot b := by
  cases a <;> cases b <;> simp_all [slot, park, List.getElem?_modify]
  next t u =>
    rcases hu : s.tasks[u]? with _ | task
    · rfl
    · simp [Ne.symm h]

theorem slot_finish_self (a : Actor) (r : Except String Result) :
    (s.finish a r).slot a = none := by
  cases a with
  | boot => rfl
  | op =>
      simp only [finish, slot]
      split <;> rfl
  | task t =>
      simp only [finish, slot, emit, List.getElem?_modify]
      rcases s.tasks[t]? with _ | task <;> simp

end Sys

/-- The thread of a callback whose exclusive task has ended with `r`. -/
def settle (r : Except String Result) : Thread api Result → Thread api Result
  | .awaiting (.exclusive _) k => .ready (k r)
  | thread => thread

namespace Sys

variable (s : Sys)

/-- Ending a task of the queue readies its owner and nobody else. -/
theorem slot_finish_ne {a b : Actor} (h : b ≠ a) (r : Except String Result) :
    (s.finish a r).slot b = s.slot b ∨
      a = .op ∧ (∃ t, b = .task t ∧ s.running.bind Running.owner = some t) ∧
        (s.finish a r).slot b = (s.slot b).map fun p => (p.1, settle r p.2) := by
  cases a with
  | boot =>
      left
      cases b with
      | boot => exact absurd rfl h
      | op => rfl
      | task u => rfl
  | task t =>
      left
      cases b with
      | boot => rfl
      | op => rfl
      | task u =>
          have hu : t ≠ u := fun e => h (by rw [e])
          simp only [finish, slot, emit, List.getElem?_modify]
          rcases s.tasks[u]? with _ | task <;> simp [hu]
  | op =>
      rcases howner : s.running.bind Running.owner with _ | t
      · left
        cases b with
        | boot => simp [finish, slot, emit, howner]
        | op => exact absurd rfl h
        | task u => simp [finish, slot, emit, howner]
      · cases b with
        | boot => left; simp [finish, slot, emit, howner]
        | op => exact absurd rfl h
        | task u =>
            rcases eq_or_ne t u with rfl | hu
            · right
              refine ⟨rfl, ⟨t, rfl, rfl⟩, ?_⟩
              simp only [finish, slot, emit, howner, List.getElem?_modify]
              rcases s.tasks[t]? with _ | ⟨kind, phase⟩
              · simp
              · cases phase with
                | parked => simp [Task.settle]
                | settled r' => simp [Task.settle]
                | running thread =>
                    cases thread with
                    | ready p => simp [Task.settle, settle]
                    | awaiting c k =>
                        cases c with
                        | exclusive op => rfl
                        | _ => rfl
            · left
              simp only [finish, slot, emit, howner, List.getElem?_modify]
              rcases s.tasks[u]? with _ | task <;> simp [hu]

end Sys

/-! ## How a step moves a thread -/

/-- The actor whose turn a step is. -/
def Label.actor : Label → Option Actor
  | .land a _ => some a
  | .resume a => some a
  | _ => none

section

variable [Platform] [Browser]

/-- What a subject executes. -/
def Subject.body : Subject → Js Result
  | .boot => bootBody
  | .op o => o.body
  | .task kind => kind.body

/-- How an actor came by the thread it has after a step. -/
inductive SlotStep (s : Sys) : Label → Sys → Actor → Subject → Thread api Result → Prop
  | kept {l s' a subj thread} (hl : l.actor ≠ some a) (hr : l ≠ .restart)
      (h : s.slot a = some (subj, thread)) :
      SlotStep s l s' a subj thread
  | restarted : SlotStep s .restart (Sys.fresh s.world (.restarted :: s.trace)) .boot .boot
      (.ready Subject.boot.body)
  | entered {op owner rest} (hr : s.running = none) (hq : s.queue = (op, owner) :: rest) :
      SlotStep s .start (s.enter op owner rest) .op (.op op) (.ready (Subject.op op).body)
  | dispatched {t kind} (hb : s.boot = none) (ht : s.tasks[t]? = some ⟨kind, .parked⟩) :
      SlotStep s (.dispatch t) ((s.park (.task t) (.ready kind.body)).emit (.began t kind))
        (.task t) (.task kind) (.ready (Subject.task kind).body)
  | answered {a o subj c k r w} (h : s.slot a = some (subj, .awaiting c k))
      (hw : s.world.land c o = some (r, w)) :
      SlotStep s (.land a o) (s.answer a c k r w) a subj (.ready (k r))
  | suspended {a subj p v c k} (h : s.slot a = some (subj, .ready p))
      (hp : p.run s.vars = (v, .suspended c k)) :
      SlotStep s (.resume a) ({ s with vars := v }.suspend a c k) a subj (.awaiting c k)
  | settled {op t p v r subj op' k} (hr : s.running = some ⟨op, some t, .ready p⟩)
      (hp : p.run s.vars = (v, .finished r))
      (h : s.slot (.task t) = some (subj, .awaiting (.exclusive op') k)) :
      SlotStep s (.resume .op) ({ s with vars := v }.finish .op r) (.task t) subj (.ready (k r))

omit [Platform] [Browser] in
theorem Sys.thread_eq_some {s : Sys} {a : Actor} {thread : Thread api Result} :
    s.thread a = some thread ↔ ∃ subj, s.slot a = some (subj, thread) := by
  simp [Sys.thread]

omit [Platform] in
/-- An awaited call that lands. -/
theorem Sys.land_eq_some {s s' : Sys} {a : Actor} {o : Outcome} (h : s.land a o = some s') :
    ∃ subj c k r w, s.slot a = some (subj, .awaiting c k) ∧ s.world.land c o = some (r, w) ∧
      s' = s.answer a c k r w := by
  rw [Sys.land] at h
  split at h
  · rename_i c k ht
    obtain ⟨subj, hs⟩ := thread_eq_some.1 ht
    obtain ⟨⟨r, w⟩, hw, rfl⟩ := Option.map_eq_some_iff.1 h
    exact ⟨subj, c, k, r, w, hs, hw, rfl⟩
  · cases h

omit [Platform] [Browser] in
/-- The two ways a segment ends. -/
theorem Sys.resume_eq_some {s s' : Sys} {a : Actor} (h : s.resume a = some s') :
    ∃ subj p, s.slot a = some (subj, .ready p) ∧
      ((∃ v c k, p.run s.vars = (v, .suspended c k) ∧ s' = { s with vars := v }.suspend a c k) ∨
        ∃ v r, p.run s.vars = (v, .finished r) ∧ s' = { s with vars := v }.finish a r) := by
  rw [Sys.resume] at h
  split at h
  · rename_i p ht
    obtain ⟨subj, hs⟩ := thread_eq_some.1 ht
    refine ⟨subj, p, hs, ?_⟩
    obtain rfl := Option.some.inj h
    rw [Sys.advance]
    rcases hp : p.run s.vars with ⟨v, r | ⟨c, k⟩⟩
    · exact Or.inr ⟨v, r, rfl, rfl⟩
    · exact Or.inl ⟨v, c, k, rfl, rfl⟩
  · cases h

omit [Browser] in
theorem Sys.startOp_eq_some {s s' : Sys} (h : s.startOp = some s') :
    ∃ op owner rest, s.running = none ∧ s.queue = (op, owner) :: rest ∧
      s' = s.enter op owner rest := by
  rw [Sys.startOp] at h
  split at h
  · rename_i op owner rest hr hq
    exact ⟨op, owner, rest, hr, hq, (Option.some.inj h).symm⟩
  · cases h

theorem Sys.dispatch_eq_some {s s' : Sys} {t : Nat} (h : s.dispatch t = some s') :
    ∃ kind, s.boot = none ∧ s.tasks[t]? = some ⟨kind, .parked⟩ ∧
      s' = (s.park (.task t) (.ready kind.body)).emit (.began t kind) := by
  rw [Sys.dispatch] at h
  split at h
  · rename_i kind hb ht
    exact ⟨kind, hb, ht, (Option.some.inj h).symm⟩
  · cases h

omit [Browser] in
theorem Sys.slot_onChallenge (s : Sys) (details : AuthDetails) (a : Actor) :
    (s.onChallenge details).slot a = s.slot a := by
  unfold onChallenge
  split
  · simp
  · exact slot_append s _ [⟨.challenge details, .settled (.ok (.auth .pass))⟩] (by rfl) (by rfl)
      (by rfl) (by simp) a

/-- Steps that move no thread. -/
def Label.still : Label → Bool
  | .dispatch _ | .start | .land _ _ | .resume _ | .restart => false
  | _ => true

theorem Sys.slot_still {s s' : Sys} {l : Label} (hs : s.next l = some s') (hl : l.still = true)
    (a : Actor) : s'.slot a = s.slot a := by
  cases l with
  | message sender m =>
      obtain rfl := Option.some.inj hs
      split <;> simp
  | challenge details => exact Option.some.inj hs ▸ slot_onChallenge s details a
  | requestDone id => exact Option.some.inj hs ▸ slot_congr rfl rfl rfl a
  | proxyError details => exact Option.some.inj hs ▸ slot_congr rfl rfl rfl a
  | others proxy webRTC => exact Option.some.inj hs ▸ slot_move s _ a
  | clock now => exact Option.some.inj hs ▸ slot_congr rfl rfl rfl a
  | _ => cases hl

/-- Every thread after a step comes from one of the ways of `SlotStep`. -/
theorem Sys.slotStep {s s' : Sys} {l : Label} (hs : s.next l = some s') {a : Actor}
    {subj : Subject} {thread : Thread api Result} (h : s'.slot a = some (subj, thread)) :
    SlotStep s l s' a subj thread := by
  have hstill := fun hl => slot_still hs hl a
  cases l with
  | message sender m => exact .kept (by simp [Label.actor]) nofun (hstill rfl ▸ h)
  | challenge details => exact .kept (by simp [Label.actor]) nofun (hstill rfl ▸ h)
  | requestDone id => exact .kept (by simp [Label.actor]) nofun (hstill rfl ▸ h)
  | proxyError details => exact .kept (by simp [Label.actor]) nofun (hstill rfl ▸ h)
  | others proxy webRTC => exact .kept (by simp [Label.actor]) nofun (hstill rfl ▸ h)
  | clock now => exact .kept (by simp [Label.actor]) nofun (hstill rfl ▸ h)
  | restart =>
      obtain rfl := Option.some.inj hs
      cases a with
      | boot =>
          obtain ⟨rfl, rfl⟩ : Subject.boot = subj ∧ Thread.ready bootBody = thread := by
            simpa [fresh, slot] using h
          exact .restarted
      | op => simp [fresh, slot] at h
      | task t => simp [fresh, slot] at h
  | start =>
      obtain ⟨op, owner, rest, hr, hq, rfl⟩ := startOp_eq_some hs
      cases a with
      | boot => exact .kept (by simp [Label.actor]) nofun h
      | op =>
          obtain ⟨rfl, rfl⟩ : Subject.op op = subj ∧ Thread.ready op.body = thread := by
            simpa [enter, emit, slot] using h
          exact .entered hr hq
      | task t => exact .kept (by simp [Label.actor]) nofun h
  | dispatch t =>
      obtain ⟨kind, hb, ht, rfl⟩ := dispatch_eq_some hs
      rw [slot_emit] at h
      by_cases ha : a = .task t
      · subst ha
        obtain ⟨rfl, rfl⟩ : Subject.task kind = subj ∧ Thread.ready kind.body = thread := by
          simpa [slot, park, ht] using h
        exact .dispatched hb ht
      · exact .kept (by simp [Label.actor]) nofun (slot_park_ne s ha _ ▸ h)
  | land b o =>
      obtain ⟨subj', c, k, r, w, hslot, hw, rfl⟩ := land_eq_some hs
      rw [answer, slot_emit] at h
      by_cases ha : a = b
      · subst ha
        have hp := slot_park_self (s.move w) ((slot_move s w a).trans hslot) (.ready (k r))
        obtain ⟨rfl, rfl⟩ : subj' = subj ∧ Thread.ready (k r) = thread := by simpa [hp] using h
        exact .answered hslot hw
      · rw [slot_park_ne _ ha, slot_move] at h
        exact .kept (by simpa [Label.actor] using Ne.symm ha) nofun h
  | resume b =>
      obtain ⟨subj', p, hslot, ⟨v, c, k, hp, rfl⟩ | ⟨v, r, hp, rfl⟩⟩ := resume_eq_some hs
      · rw [suspend, slot_issue] at h
        by_cases ha : a = b
        · subst ha
          have hpark := slot_park_self { s with vars := v }
            ((slot_vars s v a).trans hslot) (.awaiting c k)
          obtain ⟨rfl, rfl⟩ : subj' = subj ∧ Thread.awaiting c k = thread := by
            simpa [hpark] using h
          exact .suspended hslot hp
        · rw [slot_park_ne _ ha, slot_vars] at h
          exact .kept (by simpa [Label.actor] using Ne.symm ha) nofun h
      · by_cases ha : a = b
        · subst ha
          rw [slot_finish_self] at h
          cases h
        · have hkept : ∀ h' : s.slot a = some (subj, thread),
              SlotStep s (.resume b) (({ s with vars := v } : Sys).finish b r) a subj thread :=
            fun h' => .kept (by simpa [Label.actor] using Ne.symm ha) nofun h'
          rcases slot_finish_ne { s with vars := v } ha r with hf | ⟨rfl, ⟨t, rfl, howner⟩, hf⟩
          · exact hkept (by rw [← slot_vars, ← hf, h])
          · rw [hf, slot_vars] at h
            obtain ⟨⟨subj₀, old⟩, hold, hsettle⟩ := Option.map_eq_some_iff.1 h
            obtain ⟨rfl, rfl⟩ := Prod.mk.inj hsettle
            cases old with
            | ready q => exact hkept hold
            | awaiting c k =>
                cases c with
                | exclusive op' =>
                    simp only [slot, Option.map_eq_some_iff, Prod.mk.injEq] at hslot
                    obtain ⟨⟨op, owner, thread⟩, hr, -, rfl⟩ := hslot
                    simp only [hr, Option.bind_some] at howner
                    subst howner
                    exact .settled hr hp hold
                | _ => exact hkept hold

/-- A thread whose turn it is not stays, unless the worker restarts or the
exclusive task it awaits ends. -/
theorem Sys.slot_next {s s' : Sys} {l : Label} (hs : s.next l = some s') {a : Actor}
    {subj : Subject} {thread : Thread api Result} (h : s.slot a = some (subj, thread))
    (ha : l.actor ≠ some a) (hl : l ≠ .restart) :
    s'.slot a = some (subj, thread) ∨
      ∃ op t p v r, l = .resume .op ∧ a = .task t ∧ s.running = some ⟨op, some t, .ready p⟩ ∧
        p.run s.vars = (v, .finished r) ∧ s' = ({ s with vars := v } : Sys).finish .op r := by
  by_cases hstill : l.still = true
  · exact Or.inl ((slot_still hs hstill a).trans h)
  cases l with
  | restart => exact absurd rfl hl
  | start =>
      left
      obtain ⟨op, owner, rest, hr, hq, rfl⟩ := startOp_eq_some hs
      cases a with
      | boot => exact h
      | op => simp [slot, hr] at h
      | task t => exact h
  | dispatch t =>
      left
      obtain ⟨kind, hb, ht, rfl⟩ := dispatch_eq_some hs
      have hne : a ≠ .task t := by
        rintro rfl
        simp [slot, ht] at h
      rw [slot_emit, slot_park_ne s hne, h]
  | land b o =>
      left
      obtain ⟨subj', c, k, r, w, hslot, hw, rfl⟩ := land_eq_some hs
      have hne : a ≠ b := fun e => ha (by rw [e]; rfl)
      rw [answer, slot_emit, slot_park_ne _ hne, slot_move, h]
  | resume b =>
      have hne : a ≠ b := fun e => ha (by rw [e]; rfl)
      obtain ⟨subj', p, hslot, ⟨v, c, k, hp, rfl⟩ | ⟨v, r, hp, rfl⟩⟩ := resume_eq_some hs
      · left
        rw [suspend, slot_issue, slot_park_ne _ hne, slot_vars, h]
      · rcases slot_finish_ne { s with vars := v } hne r with hf | ⟨rfl, ⟨t, rfl, howner⟩, -⟩
        · exact Or.inl (by rw [hf, slot_vars, h])
        · simp only [slot, Option.map_eq_some_iff, Prod.mk.injEq] at hslot
          obtain ⟨⟨op, owner, thread⟩, hr, -, rfl⟩ := hslot
          simp only [hr, Option.bind_some] at howner
          subst howner
          exact Or.inr ⟨op, t, p, v, r, rfl, rfl, hr, hp, rfl⟩
  | _ => exact absurd rfl hstill

/-! ## Outlines -/

/-- Proof outlines for the functions that `covers` selects: what their views
are, when a view fits a state, when it fits in the midst of a segment that began
in a state, with the variables as they are by then, and what a settled function
has established. -/
structure Outline where
  View : Type
  logic : Logic api View
  covers : Subject → Prop
  At : Actor → Subject → View → Sys → Prop
  post : Subject → Except String Result → View → Prop
  In : Actor → Subject → View → Sys → Vars → Prop := fun a subj x s v =>
    At a subj x { s with vars := v }

/-- Every covered function that is under way is on course. -/
def Outline.Sound (O : Outline) (s : Sys) : Prop :=
  ∀ a subj thread, s.slot a = some (subj, thread) → O.covers subj →
    thread.Ok O.logic (O.At a subj) (O.post subj) s

/-- A subject that can start from `s` does so with a view that carries it. -/
def Outline.Begins (O : Outline) (a : Actor) (subj : Subject) (s : Sys) : Prop :=
  O.covers subj → ∃ x, O.At a subj x s ∧ wp O.logic subj.body (O.post subj) x

/-- The views of an outline agree with the variables throughout a segment. -/
structure Outline.Coherent (O : Outline) : Prop where
  enters : ∀ {s a subj p x}, s.slot a = some (subj, .ready p) → O.covers subj → O.At a subj x s →
    O.In a subj x s s.vars
  reads : ∀ {s a subj p x v}, s.slot a = some (subj, .ready p) → O.covers subj →
    O.In a subj x s v → ∃ x', O.logic.reads x v x' ∧ O.In a subj x' s v
  writes : ∀ {s a subj p x v w}, s.slot a = some (subj, .ready p) → O.covers subj →
    O.logic.mayWrite w x → O.In a subj x s v → O.In a subj (O.logic.write w x) s (w.apply v)

/-- The obligations of an outline in runs by `ok`. `Known` holds of every
reachable state already; `Idle` is established along with the outline. -/
structure Outline.Correct (O : Outline) (ok : Rules) (Known Idle : Sys → Prop) : Prop
    extends O.Coherent where
  /-- Steps of others do not disturb a view. -/
  frame : ∀ {s l s' a subj thread x}, Known s → Known s' → Idle s → O.Sound s → ok s l →
    s.next l = some s' → l.actor ≠ some a → l ≠ .restart → s.slot a = some (subj, thread) →
    O.covers subj → s'.slot a = some (subj, thread) → O.At a subj x s → O.At a subj x s'
  restarted : ∀ {s}, Known s → Idle s → ok s .restart →
    O.Begins .boot .boot (Sys.fresh s.world (.restarted :: s.trace))
  entered : ∀ {s op owner rest}, Known s → Idle s → ok s .start → s.running = none →
    s.queue = (op, owner) :: rest → Known (s.enter op owner rest) →
    O.Begins .op (.op op) (s.enter op owner rest)
  dispatched : ∀ {s t kind}, Known s → Idle s → ok s (.dispatch t) → s.boot = none →
    s.tasks[t]? = some ⟨kind, .parked⟩ →
    O.Begins (.task t) (.task kind) ((s.park (.task t) (.ready kind.body)).emit (.began t kind))
  answered : ∀ {s a o subj c k r w x}, Known s → Idle s → ok s (.land a o) →
    s.slot a = some (subj, .awaiting c k) → O.covers subj → s.world.land c o = some (r, w) →
    Known (s.answer a c k r w) → (s.answer a c k r w).slot a = some (subj, .ready (k r)) →
    O.At a subj x s →
    ∃ x', O.logic.replies c x r x' ∧ O.At a subj x' (s.answer a c k r w)
  suspended : ∀ {s a subj p v x c k}, Known s → Idle s → ok s (.resume a) →
    s.slot a = some (subj, .ready p) → O.covers subj →
    Known (({ s with vars := v } : Sys).suspend a c k) →
    (({ s with vars := v } : Sys).suspend a c k).slot a = some (subj, .awaiting c k) →
    p.run s.vars = (v, .suspended c k) → O.logic.mayCall c x → O.In a subj x s v →
    O.At a subj (O.logic.issue c x) (({ s with vars := v } : Sys).suspend a c k)
  settled : ∀ {s op t p v r subj op' k x}, Known s → Idle s → O.Sound s → ok s (.resume .op) →
    s.running = some ⟨op, some t, .ready p⟩ → p.run s.vars = (v, .finished r) →
    s.slot (.task t) = some (subj, .awaiting (.exclusive op') k) → O.covers subj →
    Known (({ s with vars := v } : Sys).finish .op r) →
    (({ s with vars := v } : Sys).finish .op r).slot (.task t) = some (subj, .ready (k r)) →
    O.At (.task t) subj x s →
    ∃ x', O.logic.replies (.exclusive op') x r x' ∧
      O.At (.task t) subj x' (({ s with vars := v } : Sys).finish .op r)
  keeps : ∀ {s l s'}, Known s → Known s' → O.Sound s → Idle s → ok s l → s.next l = some s' →
    Idle s'

namespace Outline

variable {O : Outline} {ok : Rules} {Known Idle : Sys → Prop}

section

omit [Platform] [Browser]

/-- A synchronous segment of a covered function. -/
theorem Coherent.run (h : O.Coherent) {s : Sys} {a : Actor} {subj : Subject}
    {p : Js Result} (hslot : s.slot a = some (subj, .ready p)) (hc : O.covers subj)
    {x : O.View} (hx : O.At a subj x s) (hp : wp O.logic p (O.post subj) x) :
    Segment O.logic (fun x v => O.In a subj x s v) (O.post subj) (p.run s.vars) :=
  wp_run O.logic (fun _ _ hx => h.reads hslot hc hx) (fun _ _ _ hw hx => h.writes hslot hc hw hx) hp
    (h.enters hslot hc hx)

/-- A covered function that is ready, with the view it is ready in. -/
theorem Sound.ready {s : Sys} (hs : O.Sound s) {a : Actor} {subj : Subject} {p : Js Result}
    (hslot : s.slot a = some (subj, .ready p)) (hc : O.covers subj) :
    ∃ x, O.At a subj x s ∧ wp O.logic p (O.post subj) x :=
  hs a subj _ hslot hc

/-- A covered function that awaits a call. -/
theorem Sound.awaiting {s : Sys} (hs : O.Sound s) {a : Actor} {subj : Subject} {c : Call}
    {k : Except String (Reply c) → Js Result} (hslot : s.slot a = some (subj, .awaiting c k))
    (hc : O.covers subj) :
    ∃ x, O.At a subj x s ∧ ∀ r x', O.logic.replies c x r x' → wp O.logic (k r) (O.post subj) x' :=
  hs a subj _ hslot hc

/-- A covered function that settles has established its postcondition. -/
theorem Coherent.finished (h : O.Coherent) {s : Sys} (hs : O.Sound s) {a : Actor}
    {subj : Subject} {p : Js Result} (hslot : s.slot a = some (subj, .ready p))
    (hc : O.covers subj) {v : Vars} {r : Except String Result}
    (hp : p.run s.vars = (v, .finished r)) :
    ∃ x, O.In a subj x s v ∧ O.post subj r x := by
  obtain ⟨x, hx, hwp⟩ := hs.ready hslot hc
  have hrun := h.run hslot hc hx hwp
  rwa [hp] at hrun

/-- A covered function that comes to a call is entitled to it. -/
theorem Coherent.calls (h : O.Coherent) {s : Sys} (hs : O.Sound s) {a : Actor}
    {subj : Subject} {p : Js Result} (hslot : s.slot a = some (subj, .ready p))
    (hc : O.covers subj) {v : Vars} {c : Call} {k : Except String (Reply c) → Js Result}
    (hp : p.run s.vars = (v, .suspended c k)) :
    ∃ x, O.In a subj x s v ∧ O.logic.mayCall c x := by
  obtain ⟨x, hx, hwp⟩ := hs.ready hslot hc
  have hrun := h.run hslot hc hx hwp
  rw [hp] at hrun
  obtain ⟨x', hx', hcall, -⟩ := hrun
  exact ⟨x', hx', hcall⟩

end

/-- One step keeps every covered function on course. -/
theorem Correct.step (h : O.Correct ok Known Idle) {s s' : Sys} {l : Label} (hk : Known s)
    (hk' : Known s') (hi : Idle s) (hs : O.Sound s) (hl : ok s l) (hn : s.next l = some s') :
    O.Sound s' := by
  intro a subj thread hslot' hc
  cases Sys.slotStep hn hslot' with
  | kept ha hr hslot =>
      exact (hs a subj thread hslot hc).stable fun x hx =>
        h.frame hk hk' hi hs hl hn ha hr hslot hc hslot' hx
  | restarted => exact h.restarted hk hi hl hc
  | entered hr hq => exact h.entered hk hi hl hr hq hk' hc
  | dispatched hb ht => exact h.dispatched hk hi hl hb ht hc
  | answered hslot hw =>
      exact (hs a subj _ hslot hc).land fun x hx => h.answered hk hi hl hslot hc hw hk' hslot' hx
  | suspended hslot hp =>
      obtain ⟨x, hx, hwp⟩ := hs.ready hslot hc
      have hrun := h.toCoherent.run hslot hc hx hwp
      rw [hp] at hrun
      obtain ⟨x', hx', hcall, hk''⟩ := hrun
      exact ⟨_, h.suspended hk hi hl hslot hc hk' hslot' hp hcall hx', hk''⟩
  | settled hr hp hslot =>
      exact (hs _ subj _ hslot hc).land fun x hx => h.settled hk hi hs hl hr hp hslot hc hk' hslot' hx

/-- In every reachable state every covered function is on course. -/
theorem Correct.reach (h : O.Correct ok Known Idle) {s₀ : Sys} (hs₀ : O.Sound s₀) (hi₀ : Idle s₀)
    (hk : ∀ {s}, Reach ok s₀ s → Known s) {s : Sys} (hr : Reach ok s₀ s) :
    O.Sound s ∧ Idle s := by
  induction hr with
  | init => exact ⟨hs₀, hi₀⟩
  | step hr hl hn ih =>
      have hk' := hk (hr.step hl hn)
      exact ⟨h.step (hk hr) hk' ih.2 ih.1 hl hn, h.keeps (hk hr) hk' ih.1 ih.2 hl hn⟩

/-- A worker that has just been started is on course when `boot` is. -/
theorem sound_init {w : World} (h : O.Begins .boot .boot (Sys.init w)) :
    O.Sound (Sys.init w) := by
  intro a subj thread hslot hc
  cases a with
  | boot =>
      obtain ⟨rfl, rfl⟩ : Subject.boot = subj ∧ Thread.ready bootBody = thread := by
        simpa [Sys.init, Sys.fresh, Sys.slot] using hslot
      exact h hc
  | op => simp [Sys.init, Sys.fresh, Sys.slot] at hslot
  | task t => simp [Sys.init, Sys.fresh, Sys.slot] at hslot

end Outline

end

end BrowserVpn
