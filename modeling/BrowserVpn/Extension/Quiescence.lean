import BrowserVpn.Extension.Writer

/-!
# Extension.Quiescence — the route whenever nobody is at work

The specifications of the writers, run over every interleaving: whenever no
writer is under way the route is `Kept`. What holds of a quiescent worker
follows: the own PAC is the configured one and WebRTC is restricted, incognito
windows have it too in strict runs, and an enabled route is back once nobody
else holds a setting.
-/

namespace BrowserVpn

open Async

section

variable [Platform] [Browser]

/-! ## Assumptions of recovery -/

/-- Incognito windows inherit what nobody else holds there. -/
def Others.Inherits {V : Type} (o : Others V) : Prop :=
  ∀ v, o.incognito = some v → v.levelOfControl.controllable = false

instance {V : Type} (o : Others V) : Decidable o.Inherits :=
  decidable_of_iff (o.incognito.all (fun v => !v.levelOfControl.controllable) = true)
    (by cases h : o.incognito <;> simp [Others.Inherits, h])

def World.Inherits (w : World) : Prop := w.proxy.others.Inherits ∧ w.webRTC.others.Inherits

instance (w : World) : Decidable w.Inherits := inferInstanceAs (Decidable (_ ∧ _))

namespace Rules

variable (ok : Rules)

/-- Others take a setting in incognito windows or leave it to the regular one. -/
def Inheriting : Prop :=
  ∀ s proxy webRTC, ok s (.others proxy webRTC) → proxy.Inherits ∧ webRTC.Inherits

/-- No proxy listener starts on a route that is down and could be up, unless
incognito access is allowed and both conflict flags are up. -/
def Resuming : Prop :=
  ∀ s owner rest, ok s .start → s.running = none → s.queue = (.proxyChanged, owner) :: rest →
    ((s.enter .proxyChanged owner rest).route .op).Resumes

end Rules

/-! ## The outline -/

/-- The outline of the writers. In runs that `P` selects they restore what can
be restored. -/
@[reducible] def routeOutline (ok : Rules) (P : Prop) : Outline where
  View := RouteView
  logic := routeLogic ok
  covers subj := subj.quiet = false
  At a _ x s := x.Describes s ∧ x.attempts = proxySets a s.trace
  post _ _ x := x.Kept ok P

/-- What is known of every reachable state. -/
structure RouteKnown (P : Prop) (s : Sys) : Prop where
  disciplined : s.Disciplined
  inherits : P → s.world.Inherits

/-- The invariant while no writer is under way. -/
def RouteIdle (ok : Rules) (P : Prop) (s : Sys) : Prop := s.Quiet → (s.route .op).Kept ok P

variable {ok : Rules} {P : Prop} {s : Sys}

theorem routeOutline_coherent : (routeOutline ok P).Coherent where
  enters _ _ hx := hx
  reads _ _ hx := ⟨_, ⟨rfl, hx.1.restore.symm, hx.1.cleared.symm⟩, hx⟩
  writes {s a subj p x v w} _ _ _ hx := ⟨hx.1.writes w, by
    refine Eq.trans ?_ hx.2
    cases w <;> rfl⟩

omit [Platform] [Browser] in
theorem ChromeSetting.effective_inherits {V : Type} {x : ChromeSetting V} (h : x.others.Inherits)
    (hctrl : (x.effective true).levelOfControl.controllable = true) :
    x.effective true = x.effective false := by
  rcases hinc : x.others.incognito with _ | v
  · simp [effective, hinc]
  · have hv := h v hinc
    simp [effective, hinc, hv] at hctrl

omit [Platform] [Browser] in
theorem Sys.route_inherits (h : s.world.Inherits) (a : Actor) : (s.route a).Inherits :=
  ⟨ChromeSetting.effective_inherits h.1, ChromeSetting.effective_inherits h.2⟩

theorem Sys.Pending.enter {Q : Op → Bool} {op : Op} {owner : Option Nat}
    {rest : List (Op × Option Nat)} (h : s.Pending Q) (hr : s.running = none)
    (hq : s.queue = (op, owner) :: rest) (hop : Q op = false) :
    (s.enter op owner rest).Pending Q := by
  have hs : s.next .start = some (s.enter op owner rest) := by simp [Sys.next, Sys.startOp, hr, hq]
  refine h.next hs (by rintro ⟨⟩) fun op' owner' rest' _ hq' => ?_
  obtain ⟨⟨rfl, -⟩, -⟩ : (op = op' ∧ owner = owner') ∧ rest = rest' := by
    simpa using hq.symm.trans hq'
  exact hop

/-- Every operation starts on a route that is ready for it. -/
theorem enter_ready (hresuming : P → ok.Resuming) {op : Op} {owner : Option Nat}
    {rest : List (Op × Option Nat)} (hok : ok s .start) (hr : s.running = none)
    (hq : s.queue = (op, owner) :: rest) (hk : (s.route .op).Kept ok P) :
    ((s.enter op owner rest).route .op).Ready ok P op := by
  have hkept : op.isProxyChanged = false → op.isWebRTCChanged = false →
      ((s.enter op owner rest).route .op).Kept ok P := fun hproxy hwebRTC => by
    refine RouteView.Describes.kept (x := s.route .op) ?_ hk .op
    refine (s.route_describes .op).keep ⟨rfl, rfl, rfl⟩ ⟨rfl, rfl⟩ ?_ (Or.inr rfl) (Or.inr rfl)
    rintro Q (rfl | rfl) hp
    · exact hp.enter hr hq hproxy
    · exact hp.enter hr hq hwebRTC
  cases op with
  | proxyChanged =>
      have hcalm : ((s.enter .proxyChanged owner rest).route .op).webRTCCalm →
          (s.route .op).webRTCCalm := fun hc hp => hc (hp.enter hr hq rfl)
      refine ⟨?_, fun hP => ⟨hresuming hP s owner rest hok hr hq, fun v hown hctrl => ?_,
        (hk.2 hP).sound, fun c l henabled hc => (hk.2 hP).webRTC c l henabled (hcalm hc)⟩⟩
      · rcases hk.1.unchecked with hnone | ⟨c, l, henabled, hown, hrestricted, hstrict⟩
        · exact Or.inl hnone
        · exact Or.inr ⟨c, l, henabled, hown, fun hc => hrestricted (hcalm hc), hstrict⟩
      · exact ChromeSetting.regular_own (ChromeSetting.held_eq_none hctrl) hown
  | webRTCChanged => trivial
  | proxyError details stamp => exact hkept rfl rfl
  | authFailed stamp => exact hkept rfl rfl
  | clearError check => exact hkept rfl rfl
  | importKey key => exact hkept rfl rfl
  | connect => exact hkept rfl rfl
  | disconnect => exact hkept rfl rfl
  | forget => exact hkept rfl rfl
  | saveExclusions text => exact hkept rfl rfl

/-- `boot` starts on whatever it finds. -/
theorem routeOutline_begins_boot (hP : P → ok.Answers ∧ ok.Honours) {w : World}
    {trace : List Obs} (hw : P → w.Inherits) :
    (routeOutline ok P).Begins .boot .boot (Sys.fresh w trace) := fun _ =>
  ⟨(Sys.fresh w trace).route .boot, ⟨Sys.route_describes _ _, rfl⟩,
    bootBody_spec fun hp => ⟨(hP hp).1, (hP hp).2, Sys.route_inherits (hw hp) .boot⟩⟩

/-- A writer that is under way after a step was under way before, or just
started. -/
theorem routeIdle_next (hd : s.Disciplined) (hsound : (routeOutline ok P).Sound s)
    (hidle : RouteIdle ok P s) {l : Label} {s' : Sys} (hs : s.next l = some s') :
    RouteIdle ok P s' := by
  intro hquiet
  have hrestart : l ≠ .restart := by
    rintro rfl
    obtain rfl := Option.some.inj hs
    cases hquiet .boot .boot (.ready bootBody) rfl
  by_cases hq : s.Quiet
  · -- Nobody writes: the step keeps the route.
    refine ((s.route_describes .op).next hd hs hrestart (fun a subj t _ h => hq a subj t h)
      fun op owner rest hl hqueue => ?_).kept (hidle hq) .op
    subst hl
    obtain ⟨op', owner', rest', hr, hqueue', rfl⟩ := Sys.startOp_eq_some hs
    obtain ⟨⟨rfl, -⟩, -⟩ : (op = op' ∧ owner = owner') ∧ rest = rest' := by
      simpa using hqueue.symm.trans hqueue'
    exact hquiet .op (.op op) (.ready op.body) rfl
  · obtain ⟨a, subj, thread, hslot, hw⟩ : ∃ a subj thread, s.slot a = some (subj, thread) ∧
        subj.quiet = false := by
      simpa [Sys.Quiet] using hq
    have hgone : ∀ thread', s'.slot a ≠ some (subj, thread') := fun thread' h => by
      rw [hquiet a subj thread' h] at hw
      cases hw
    have hturn : l.actor = some a := by
      by_contra ha
      rcases Sys.slot_next hs hslot ha hrestart with h | ⟨op, t, p, v, r, -, rfl, -⟩
      · exact hgone _ h
      · exact Sys.not_task_of_writer hslot hw t rfl
    cases l with
    | land b o =>
        obtain rfl : b = a := by simpa [Label.actor] using hturn
        obtain ⟨subj', c, k, r, w, hslot', -, rfl⟩ := Sys.land_eq_some hs
        obtain ⟨rfl, -⟩ : subj = subj' ∧ thread = _ := by simpa [hslot] using hslot'
        refine absurd ?_ (hgone (.ready (k r)))
        rw [Sys.answer, Sys.slot_emit]
        exact Sys.slot_park_self _ ((Sys.slot_move s w b).trans hslot) _
    | resume b =>
        obtain rfl : b = a := by simpa [Label.actor] using hturn
        obtain ⟨subj', p, hslot', ⟨v, c, k, hp, rfl⟩ | ⟨v, r, hp, rfl⟩⟩ := Sys.resume_eq_some hs
        · obtain ⟨rfl, -⟩ : subj = subj' ∧ thread = _ := by simpa [hslot] using hslot'
          refine absurd ?_ (hgone (.awaiting c k))
          rw [Sys.suspend, Sys.slot_issue]
          exact Sys.slot_park_self _ ((Sys.slot_vars s v b).trans hslot) _
        · -- The writer has settled with the route kept.
          obtain ⟨rfl, rfl⟩ : subj = subj' ∧ thread = _ := by simpa [hslot] using hslot'
          obtain ⟨x, ⟨hx, -⟩, hpost⟩ := routeOutline_coherent.finished hsound hslot hw hp
          obtain ⟨f, hf⟩ := ({ s with vars := v } : Sys).finish_vars b r
          refine (hx.keep ?_ ?_ (fun Q _ hpending => ?_) (Or.inr ?_) (Or.inr ?_)).kept hpost .op
          · simp
          · rw [hf]
            exact ⟨rfl, rfl⟩
          · have hpending : s.Pending Q := hpending
            exact hpending.next hs (by rintro ⟨⟩) (by rintro op owner rest ⟨⟩)
          · simp
          · simp
    | _ => cases hturn

theorem routeOutline_correct (hsteady : ok.Steady) (hP : P → ok.Answers ∧ ok.Honours)
    (hresuming : P → ok.Resuming) :
    (routeOutline ok P).Correct ok (RouteKnown P) (RouteIdle ok P) where
  toCoherent := routeOutline_coherent
  frame {s l s' a subj thread x} hk _ _ _ _ hs ha hl hslot hw hslot' hx := by
    obtain ⟨hquiet, hneutral, hstart⟩ := hk.disciplined.others_next hslot hw hs ha
    exact ⟨hx.1.next hk.disciplined hs hl hquiet hneutral,
      hx.2.trans (proxySets_next hs ha hl hstart).symm⟩
  restarted {s} hk _ _ := routeOutline_begins_boot hP hk.inherits
  entered {s op owner rest} hk hidle hok hr hq hk' hop := by
    have hquiet := hk.disciplined.quiet hr hq hop
    exact ⟨(s.enter op owner rest).route .op, ⟨Sys.route_describes _ _, rfl⟩,
      op_spec hop (fun hp => ⟨(hP hp).1, (hP hp).2, Sys.route_inherits (hk'.inherits hp) .op⟩)
        (enter_ready hresuming hok hr hq (hidle hquiet))⟩
  dispatched _ _ _ _ _ hc := by cases hc
  answered {s a o subj c k r w x} _ _ hok hslot hw hland _ _ hx := by
    obtain ⟨x', hr, hx', hn⟩ := hx.1.answered hsteady hok hslot (Sys.not_task_of_writer hslot hw)
      hland hx.2
    exact ⟨x', hr, hx', hn.trans (hx.2.trans (proxySets_answer s a a c k r w).symm)⟩
  suspended {s a subj p v x c k} _ _ _ hslot hw _ _ _ _ hx := by
    have hpending : ∀ Q, ({ s with vars := v } : Sys).Pending Q →
        (({ s with vars := v } : Sys).suspend a c k).Pending Q := fun Q h =>
      (h.park a (.awaiting c k) fun t _ ha => absurd ha (Sys.not_task_of_writer hslot hw t)).append
        (n := []) (List.append_nil _).symm rfl
    refine ⟨(hx.1.keep ?_ ?_ (fun Q _ => hpending Q) (Or.inr ?_) (Or.inr ?_)).issue c, ?_⟩
    · simp
    · simp
    · simp
    · simp
    · rw [Sys.suspend_trace]
      have hn : x.attempts = proxySets a s.trace := hx.2
      cases c <;> simp [routeIssue, proxySets, hn]
  settled _ _ _ _ _ _ hslot hc _ _ _ := by
    obtain ⟨kind, -, rfl⟩ := Sys.task_of_slot hslot
    cases hc
  keeps hk _ hsound hidle _ hs := routeIdle_next hk.disciplined hsound hidle hs

/-! ## Over whole runs -/

omit [Platform] in
/-- Calls leave the others alone. -/
theorem World.land_others {w w' : World} {c : Call} {o : Outcome} {r : Except String (Reply c)}
    (h : w.land c o = some (r, w')) :
    w'.proxy.others = w.proxy.others ∧ w'.webRTC.others = w.webRTC.others := by
  cases c <;> cases o <;>
    simp only [World.land, Option.some.injEq, Prod.mk.injEq, reduceCtorEq] at h <;>
    obtain ⟨-, rfl⟩ := h <;> exact ⟨rfl, rfl⟩

theorem Sys.inherits_next (hinheriting : ok.Inheriting) {s' : Sys} {l : Label} (hl : ok s l)
    (hs : s.next l = some s') (h : s.world.Inherits) : s'.world.Inherits := by
  cases l with
  | message sender m =>
      obtain rfl := Option.some.inj hs
      split <;> exact h
  | challenge details =>
      obtain rfl := Option.some.inj hs
      unfold onChallenge
      split <;> exact h
  | others proxy webRTC =>
      obtain rfl := Option.some.inj hs
      exact hinheriting s proxy webRTC hl
  | start =>
      obtain ⟨op, owner, rest, -, -, rfl⟩ := startOp_eq_some hs
      exact h
  | dispatch t =>
      obtain ⟨kind, -, -, rfl⟩ := dispatch_eq_some hs
      exact h
  | land a o =>
      obtain ⟨subj, c, k, r, w, -, hw, rfl⟩ := land_eq_some hs
      obtain ⟨hproxy, hwebRTC⟩ := World.land_others hw
      rw [answer_world, World.Inherits, hproxy, hwebRTC]
      exact h
  | resume a =>
      obtain ⟨subj, p, -, ⟨v, c, k, -, rfl⟩ | ⟨v, r, -, rfl⟩⟩ := resume_eq_some hs
      · rw [suspend_world]
        exact h
      · rw [finish_world]
        exact h
  | requestDone id => exact Option.some.inj hs ▸ h
  | proxyError details => exact Option.some.inj hs ▸ h
  | clock now => exact Option.some.inj hs ▸ h
  | restart => exact Option.some.inj hs ▸ h

theorem Reach.inherits (hinheriting : ok.Inheriting) {w : World} (hw : w.Inherits)
    (h : Reach ok (Sys.init w) s) : s.world.Inherits := by
  induction h with
  | init => exact hw
  | step _ hl hs ih => exact Sys.inherits_next hinheriting hl hs ih

/-- Whenever no writer is under way, the route is kept. -/
theorem Reach.kept (hsteady : ok.Steady) (hP : P → ok.Answers ∧ ok.Honours)
    (hresuming : P → ok.Resuming) {w : World} (hinherits : P → ok.Inheriting ∧ w.Inherits)
    (h : Reach ok (Sys.init w) s) (hquiet : s.Quiet) : (s.route .op).Kept ok P := by
  have hcorrect := routeOutline_correct hsteady hP hresuming
  have hsound : (routeOutline ok P).Sound (Sys.init w) :=
    Outline.sound_init (routeOutline_begins_boot hP fun hp => (hinherits hp).2)
  have hidle : RouteIdle ok P (Sys.init w) := fun hq => by
    cases hq .boot .boot (.ready bootBody) rfl
  refine (hcorrect.reach hsound hidle (fun hr => ⟨hr.disciplined, fun hp => ?_⟩) h).2 hquiet
  exact hr.inherits (hinherits hp).1 (hinherits hp).2

/-! ## Quiescent states -/

/-- `boot` is done, no operation runs or waits, and no callback has one to hand
over. -/
structure Sys.Quiescent (s : Sys) : Prop where
  boot : s.boot = none
  running : s.running = none
  queue : s.queue = []
  handled : ∀ task ∈ s.tasks, task.pends (fun _ => true) = false

instance (s : Sys) : Decidable s.Quiescent :=
  decidable_of_iff (s.boot.isNone = true ∧ s.running.isNone = true ∧ s.queue.isEmpty = true ∧
      ∀ task ∈ s.tasks, task.pends (fun _ => true) = false)
    ⟨fun ⟨hb, hr, hq, ht⟩ => ⟨by simpa using hb, by simpa using hr, by simpa using hq, ht⟩,
      fun h => ⟨by simp [h.boot], by simp [h.running], by simp [h.queue], h.handled⟩⟩

omit [Platform] [Browser] in
theorem Task.pends_mono {Q : Op → Bool} {task : Task} (h : task.pends Q = true) :
    task.pends (fun _ => true) = true := by
  simp only [pends] at h ⊢
  split
  · rename_i hphase
    simp only [hphase] at h
    obtain ⟨op, hop, -⟩ := (Option.any_eq_true Q _).1 h
    simp [hop]
  · rfl
  · rename_i h₁ h₂
    split at h
    · exact absurd ‹_› h₁
    · exact absurd ‹_› (h₂ _ _)
    · exact h

namespace Sys.Quiescent

variable (h : s.Quiescent)

include h

omit [Platform] [Browser] in
theorem quiet : s.Quiet := by
  rintro (_ | _ | t) subj thread hslot
  · simpa [h.boot] using (slot_boot hslot).2
  · simp [slot, h.running] at hslot
  · obtain ⟨kind, -, rfl⟩ := task_of_slot hslot
    rfl

omit [Platform] [Browser] in
theorem not_pending (Q : Op → Bool) : ¬ s.Pending Q := by
  rintro (⟨task, hmem, hp⟩ | ⟨e, hmem, -⟩)
  · have hhandled := h.handled task hmem
    rw [Task.pends_mono hp] at hhandled
    cases hhandled
  · simp [h.queue] at hmem

end Sys.Quiescent

end

end BrowserVpn
