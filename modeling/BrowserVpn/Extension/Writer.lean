import BrowserVpn.Extension.Operations

/-!
# Extension.Writer — the route over every interleaving

`boot` and the operations that are not neutral hold the settings one after the
other. `RouteView.Describes` is what a view says about a state; the steps of
everybody else keep it (`Describes.next`), so the specifications of
`Extension.Operations` hold of the running worker (`routeOutline_correct`) and
`RouteView.Safe` holds whenever no writer is under way.
-/

namespace BrowserVpn

open Async

/-! ## Who writes -/

/-- Callbacks and neutral operations leave the route alone. -/
def Subject.quiet : Subject → Bool
  | .boot => false
  | .op o => o.neutral
  | .task _ => true

section

variable [Browser]

theorem World.land_inspects {w w' : World} {c : Call} {o : Outcome}
    {r : Except String (Reply c)} (h : w.land c o = some (r, w')) (hc : c.inspects = true) :
    w' = w := by
  cases c <;> simp only [Call.inspects, Call.asks, Bool.false_eq_true] at hc <;> cases o <;>
    simp_all [World.land]

theorem World.land_records {w w' : World} {c : Call} {o : Outcome}
    {r : Except String (Reply c)} (h : w.land c o = some (r, w')) (hc : c.records = true) :
    w'.storage.toConfig = w.storage.toConfig ∧ w'.proxy = w.proxy ∧ w'.webRTC = w.webRTC := by
  by_cases hi : c.inspects = true
  · rw [land_inspects h hi]
    exact ⟨rfl, rfl, rfl⟩
  · cases c with
    | storageSet p =>
        obtain ⟨⟨hconnection, henabled⟩, hexclusions⟩ : ((p.connection = none ∧
            p.enabled = none) ∧ p.exclusions = none) := by
          simpa [Call.records, Patch.errorOnly] using hc
        cases o <;> simp only [World.land, Option.some.injEq, Prod.mk.injEq, reduceCtorEq] at h
        · obtain ⟨-, rfl⟩ := h
          simp [Storage.set, hconnection, henabled, hexclusions]
        · obtain ⟨-, rfl⟩ := h
          exact ⟨rfl, rfl, rfl⟩
    | setBadgeText text =>
        cases o <;> simp only [World.land, Option.some.injEq, Prod.mk.injEq, reduceCtorEq] at h
        all_goals
          obtain ⟨-, rfl⟩ := h
          exact ⟨rfl, rfl, rfl⟩
    | setBadgeBackgroundColor color =>
        cases o <;> simp only [World.land, Option.some.injEq, Prod.mk.injEq, reduceCtorEq] at h
        all_goals
          obtain ⟨-, rfl⟩ := h
          exact ⟨rfl, rfl, rfl⟩
    | _ => simp_all [Call.records, Call.inspects, Call.asks]

variable [Platform]

omit [Platform] in
/-- What a quiet call leaves alone. -/
theorem Sys.Disciplined.land_quiet {s : Sys} (hd : s.Disciplined) {a : Actor} {subj : Subject}
    {c : Call} {k : Except String (Reply c) → Js Result} {o : Outcome}
    {r : Except String (Reply c)} {w : World} (hslot : s.slot a = some (subj, .awaiting c k))
    (hq : subj.quiet = true) (hw : s.world.land c o = some (r, w)) :
    w.storage.toConfig = s.world.storage.toConfig ∧ w.proxy = s.world.proxy ∧
      w.webRTC = s.world.webRTC := by
  have hmay := hd.calls hslot
  cases subj with
  | boot => cases hq
  | op o => exact World.land_records hw (hmay hq)
  | task kind =>
      rw [World.land_inspects hw hmay]
      exact ⟨rfl, rfl, rfl⟩

omit [Platform] [Browser] in
/-- A quiet segment leaves the conflict flags alone. -/
theorem Sys.Disciplined.run_quiet {s : Sys} (hd : s.Disciplined) {a : Actor} {subj : Subject}
    {p : Js Result} (hslot : s.slot a = some (subj, .ready p)) (hq : subj.quiet = true) :
    (p.run s.vars).1.restoreAfterIncognitoTakeover = s.vars.restoreAfterIncognitoTakeover ∧
      (p.run s.vars).1.ownProxyClearedForConflict = s.vars.ownProxyClearedForConflict := by
  have hmay : ∀ w, subj.mayWrite w → w.inspects = true := by
    intro w hw
    cases subj with
    | boot => cases hq
    | op o => simp [Subject.mayWrite, show o.neutral = true from hq] at hw
    | task kind => exact hw
  have hkeeps : ∀ {β : Type} {f : Vars → β},
      (∀ w v, w.inspects = true → f (Write.apply w v) = f v) → f (p.run s.vars).1 = f s.vars :=
    fun hf => hd.keeps hslot (fun w v hw => hf w v (hmay w hw)) s.vars
  constructor
  · exact hkeeps fun w v hw => by cases w <;> first | rfl | cases hw
  · exact hkeeps fun w v hw => by cases w <;> first | rfl | cases hw

/-! ## What a view says -/

/-- A view against a state: the route as it is, and the effective settings as
seen unless a change is pending. -/
structure RouteView.Describes (x : RouteView) (s : Sys) : Prop where
  config : x.config = s.world.storage.toConfig
  proxy : x.proxy = s.world.proxy.own
  webRTC : x.webRTC = s.world.webRTC.own
  restore : x.restore = s.vars.restoreAfterIncognitoTakeover
  cleared : x.cleared = s.vars.ownProxyClearedForConflict
  proxySeen : s.Pending Op.isProxyChanged ∨
    x.proxyCalm ∧ x.proxySeen = s.world.proxy.effective
  webRTCSeen : s.Pending Op.isWebRTCChanged ∨
    x.webRTCCalm ∧ x.webRTCSeen = s.world.webRTC.effective

/-- The view that says all there is to say. -/
def Sys.route (s : Sys) (a : Actor) : RouteView where
  config := s.world.storage.toConfig
  proxy := s.world.proxy.own
  webRTC := s.world.webRTC.own
  restore := s.vars.restoreAfterIncognitoTakeover
  cleared := s.vars.ownProxyClearedForConflict
  proxySeen := s.world.proxy.effective
  webRTCSeen := s.world.webRTC.effective
  proxyCalm := ¬ s.Pending Op.isProxyChanged
  webRTCCalm := ¬ s.Pending Op.isWebRTCChanged
  attempts := proxySets a s.trace

omit [Platform] [Browser] in
theorem Sys.route_describes (s : Sys) (a : Actor) : (s.route a).Describes s :=
  ⟨rfl, rfl, rfl, rfl, rfl, or_iff_not_imp_left.2 fun h => ⟨h, rfl⟩,
    or_iff_not_imp_left.2 fun h => ⟨h, rfl⟩⟩

namespace RouteView

variable {x : RouteView} {s s' : Sys} {l : Label}

omit [Platform] [Browser] in
/-- Steps that keep the route and lose no pending change keep the view. -/
theorem Describes.keep (h : x.Describes s)
    (hworld : s'.world.storage.toConfig = s.world.storage.toConfig ∧
      s'.world.proxy.own = s.world.proxy.own ∧ s'.world.webRTC.own = s.world.webRTC.own)
    (hflags : s'.vars.restoreAfterIncognitoTakeover = s.vars.restoreAfterIncognitoTakeover ∧
      s'.vars.ownProxyClearedForConflict = s.vars.ownProxyClearedForConflict)
    (hpending : ∀ P : Op → Bool, (P = Op.isProxyChanged ∨ P = Op.isWebRTCChanged) →
      s.Pending P → s'.Pending P)
    (hproxy : s'.Pending Op.isProxyChanged ∨
      s'.world.proxy.effective = s.world.proxy.effective)
    (hwebRTC : s'.Pending Op.isWebRTCChanged ∨
      s'.world.webRTC.effective = s.world.webRTC.effective) : x.Describes s' := by
  obtain ⟨hconfig, hown, hrtc⟩ := hworld
  refine ⟨h.config.trans hconfig.symm, h.proxy.trans hown.symm, h.webRTC.trans hrtc.symm,
    h.restore.trans hflags.1.symm, h.cleared.trans hflags.2.symm, ?_, ?_⟩
  · rcases h.proxySeen with hp | ⟨hcalm, hseen⟩
    · exact Or.inl (hpending _ (Or.inl rfl) hp)
    · exact hproxy.imp_right fun he => ⟨hcalm, hseen.trans he.symm⟩
  · rcases h.webRTCSeen with hp | ⟨hcalm, hseen⟩
    · exact Or.inl (hpending _ (Or.inr rfl) hp)
    · exact hwebRTC.imp_right fun he => ⟨hcalm, hseen.trans he.symm⟩

omit [Platform] [Browser] in
theorem not_changed_of_neutral {op : Op} (h : op.neutral = true) :
    op.isProxyChanged = false ∧ op.isWebRTCChanged = false := by
  cases op <;> first | exact ⟨rfl, rfl⟩ | cases h

/-- The steps of everybody but a writer keep every view. -/
theorem Describes.next (h : x.Describes s) (hd : s.Disciplined) (hs : s.next l = some s')
    (hl : l ≠ .restart)
    (hquiet : ∀ a subj thread, l.actor = some a → s.slot a = some (subj, thread) →
      subj.quiet = true)
    (hstart : ∀ op owner rest, l = .start → s.queue = (op, owner) :: rest →
      op.neutral = true) : x.Describes s' := by
  have hpending : ∀ P : Op → Bool, (P = Op.isProxyChanged ∨ P = Op.isWebRTCChanged) →
      s.Pending P → s'.Pending P := by
    rintro P hP hp
    refine hp.next hs hl fun op owner rest hl hq => ?_
    obtain ⟨hproxy, hwebRTC⟩ := not_changed_of_neutral (hstart op owner rest hl hq)
    rcases hP with rfl | rfl
    · exact hproxy
    · exact hwebRTC
  have hsame : s'.world = s.world →
      s'.vars.restoreAfterIncognitoTakeover = s.vars.restoreAfterIncognitoTakeover ∧
        s'.vars.ownProxyClearedForConflict = s.vars.ownProxyClearedForConflict →
      x.Describes s' := fun hw hv =>
    h.keep (by rw [hw]; exact ⟨rfl, rfl, rfl⟩) hv hpending (Or.inr (by rw [hw]))
      (Or.inr (by rw [hw]))
  cases l with
  | restart => exact absurd rfl hl
  | message sender m =>
      refine hsame ?_ ?_ <;> obtain rfl := Option.some.inj hs <;> split <;>
        first | rfl | exact ⟨rfl, rfl⟩
  | challenge details =>
      refine hsame ?_ ?_ <;> obtain rfl := Option.some.inj hs <;> unfold Sys.onChallenge <;>
        split <;> first | rfl | exact ⟨rfl, rfl⟩
  | requestDone id =>
      obtain rfl := Option.some.inj hs
      exact hsame rfl ⟨rfl, rfl⟩
  | proxyError details =>
      obtain rfl := Option.some.inj hs
      exact hsame rfl ⟨rfl, rfl⟩
  | clock now =>
      obtain rfl := Option.some.inj hs
      exact hsame rfl ⟨rfl, rfl⟩
  | dispatch t =>
      obtain ⟨kind, -, -, rfl⟩ := Sys.dispatch_eq_some hs
      exact hsame rfl ⟨rfl, rfl⟩
  | start =>
      obtain ⟨op, owner, rest, -, -, rfl⟩ := Sys.startOp_eq_some hs
      exact hsame rfl ⟨rfl, rfl⟩
  | others proxy webRTC =>
      obtain rfl := Option.some.inj hs
      obtain ⟨n, -, hv⟩ := s.move_vars _
      refine h.keep ⟨rfl, rfl, rfl⟩ ?_ hpending (s.proxy_move _) (s.webRTC_move _)
      rw [hv]
      exact ⟨rfl, rfl⟩
  | land a o =>
      obtain ⟨subj, c, k, r, w, hslot, hw, rfl⟩ := Sys.land_eq_some hs
      obtain ⟨hconfig, hproxy, hwebRTC⟩ := hd.land_quiet hslot (hquiet a _ _ rfl hslot) hw
      obtain ⟨n, -, hv⟩ := s.move_vars w
      refine h.keep ?_ ?_ hpending (Or.inr ?_) (Or.inr ?_)
      · simp [hconfig, hproxy, hwebRTC]
      · rw [Sys.answer_vars, hv]
        exact ⟨rfl, rfl⟩
      · simp [hproxy]
      · simp [hwebRTC]
  | resume a =>
      obtain ⟨subj, p, hslot, ⟨v, c, k, hp, rfl⟩ | ⟨v, r, hp, rfl⟩⟩ := Sys.resume_eq_some hs
      · have hrun := hd.run_quiet hslot (hquiet a _ _ rfl hslot)
        rw [hp] at hrun
        exact hsame (by simp) (by simpa using hrun)
      · have hrun := hd.run_quiet hslot (hquiet a _ _ rfl hslot)
        rw [hp] at hrun
        obtain ⟨b, hb⟩ := ({ s with vars := v } : Sys).finish_vars a r
        exact hsame (by simp) (by rw [hb]; exact hrun)

end RouteView

/-! ## Counting `proxy.settings.set` -/

/-- Steps of others do not count. -/
theorem proxySets_next {s s' : Sys} {l : Label} {a : Actor} (hs : s.next l = some s')
    (ha : l.actor ≠ some a) (hl : l ≠ .restart) (hstart : l = .start → a ≠ .op) :
    proxySets a s'.trace = proxySets a s.trace := by
  obtain ⟨new, htrace, hof⟩ := Sys.trace_next hs
  rw [htrace]
  refine Sys.reading_next fun o ho t => ?_
  have ho := hof o ho
  cases o with
  | restarted => exact absurd ho hl
  | started op owner => simp [proxySets, hstart ho]
  | issued b c =>
      have hne : b ≠ a := fun e => ha (by rw [ho, e]; rfl)
      cases c <;> simp [proxySets, hne]
  | _ => rfl

omit [Platform] [Browser] in
theorem proxySets_answer (s : Sys) (b a : Actor) (c : Call) (k : Except String (Reply c) → Js Result)
    (r : Except String (Reply c)) (w : World) :
    proxySets b (s.answer a c k r w).trace = proxySets b s.trace := by
  obtain ⟨new, htrace, hnew⟩ := s.move_trace w
  rw [Sys.answer_trace, htrace]
  exact Sys.reading_next fun o ho t => by rw [hnew o ho]; rfl

/-! ## The turn of the writer -/

namespace RouteView

variable {x : RouteView} {s : Sys} {a : Actor}

omit [Platform] [Browser] in
theorem Describes.writes (h : x.Describes s) (w : Write) :
    (routeWrite w x).Describes { s with vars := w.apply s.vars } := by
  cases w with
  | restoreAfterIncognitoTakeover b => exact { h with restore := rfl }
  | ownProxyClearedForConflict b => exact { h with cleared := rfl }
  | proxyErrorEpoch => exact { h with }
  | authAttempt id => exact { h with }

omit [Platform] [Browser] in
theorem Describes.issue (h : x.Describes s) (c : Call) : (routeIssue c x).Describes s := by
  cases c <;> exact { h with }

section Answer

variable {c : Call} {k : Except String (Reply c) → Js Result} {r : Except String (Reply c)}
  {w : World}

section

omit [Platform] [Browser]

/-- A landing loses no pending change. -/
theorem pending_answer {P : Op → Bool} (ha : ∀ t, a ≠ .task t) (h : s.Pending P) :
    (s.answer a c k r w).Pending P := by
  obtain ⟨new, hnew, -⟩ := s.move_tasks w
  have hmove : (s.move w).Pending P := h.append (q := []) hnew (by simp)
  exact hmove.park a (.ready (k r)) fun t _ he => absurd he (ha t)

theorem pending_answer_of_move {P : Op → Bool} (ha : ∀ t, a ≠ .task t)
    (h : (s.move w).Pending P) : (s.answer a c k r w).Pending P :=
  h.park a (.ready (k r)) fun t _ he => absurd he (ha t)

/-- A view of the state after a landing, calm as far as nothing is pending. -/
theorem Describes.answer (h : x.Describes s) (ha : ∀ t, a ≠ .task t) {x' : RouteView}
    (hworld : x'.config = w.storage.toConfig ∧ x'.proxy = w.proxy.own ∧ x'.webRTC = w.webRTC.own)
    (hflags : x'.restore = x.restore ∧ x'.cleared = x.cleared)
    (hseen : x'.proxySeen = x.proxySeen ∧ x'.webRTCSeen = x.webRTCSeen)
    (hproxy : ¬ (s.answer a c k r w).Pending Op.isProxyChanged → x.proxyCalm → x'.proxyCalm)
    (hwebRTC : ¬ (s.answer a c k r w).Pending Op.isWebRTCChanged → x.webRTCCalm →
      x'.webRTCCalm) : x'.Describes (s.answer a c k r w) := by
  obtain ⟨n, -, hv⟩ := s.move_vars w
  refine ⟨by simpa using hworld.1, by simpa using hworld.2.1, by simpa using hworld.2.2, ?_, ?_,
    or_iff_not_imp_left.2 fun hp => ?_, or_iff_not_imp_left.2 fun hp => ?_⟩
  · rw [Sys.answer_vars, hv]
    exact hflags.1.trans h.restore
  · rw [Sys.answer_vars, hv]
    exact hflags.2.trans h.cleared
  · obtain ⟨hcalm, heff⟩ := h.proxySeen.resolve_left fun hp' => hp (pending_answer ha hp')
    have hmove := (s.proxy_move w).resolve_left fun hp' => hp (pending_answer_of_move ha hp')
    exact ⟨hproxy hp hcalm, by rw [hseen.1, heff, Sys.answer_world, hmove]⟩
  · obtain ⟨hcalm, heff⟩ := h.webRTCSeen.resolve_left fun hp' => hp (pending_answer ha hp')
    have hmove := (s.webRTC_move w).resolve_left fun hp' => hp (pending_answer_of_move ha hp')
    exact ⟨hwebRTC hp hcalm, by rw [hseen.2, heff, Sys.answer_world, hmove]⟩

end

omit [Platform] [Browser] in
/-- What was seen of the proxy is in force after a landing unless something is
pending. -/
theorem Describes.proxySeen_answer (h : x.Describes s) (ha : ∀ t, a ≠ .task t)
    (hp : ¬ (s.answer a c k r w).Pending Op.isProxyChanged) :
    x.proxySeen = s.world.proxy.effective ∧ w.proxy.effective = s.world.proxy.effective :=
  ⟨(h.proxySeen.resolve_left fun hp' => hp (pending_answer ha hp')).2,
    (s.proxy_move w).resolve_left fun hp' => hp (pending_answer_of_move ha hp')⟩

omit [Platform] [Browser] in
theorem Describes.webRTCSeen_answer (h : x.Describes s) (ha : ∀ t, a ≠ .task t)
    (hp : ¬ (s.answer a c k r w).Pending Op.isWebRTCChanged) :
    x.webRTCSeen = s.world.webRTC.effective ∧ w.webRTC.effective = s.world.webRTC.effective :=
  ⟨(h.webRTCSeen.resolve_left fun hp' => hp (pending_answer ha hp')).2,
    (s.webRTC_move w).resolve_left fun hp' => hp (pending_answer_of_move ha hp')⟩

omit [Platform] in
/-- Every landing of a writer's call moves its view as the logic says. -/
theorem Describes.answered {ok : Rules} (hsteady : ok.Steady) {o : Outcome} {subj : Subject}
    (hok : ok s (.land a o)) (hslot : s.slot a = some (subj, .awaiting c k))
    (ha : ∀ t, a ≠ .task t) (hw : s.world.land c o = some (r, w)) (h : x.Describes s)
    (hattempts : x.attempts = proxySets a s.trace) :
    ∃ x', routeReplies ok c x r x' ∧ x'.Describes (s.answer a c k r w) ∧
      x'.attempts = x.attempts := by
  -- Questions leave the browser alone and the view as it is.
  have hask : c.inspects = true → x.Describes (s.answer a c k r w) := fun hc =>
    h.answer ha (by rw [World.land_inspects hw hc]; exact ⟨h.config, h.proxy, h.webRTC⟩)
      ⟨rfl, rfl⟩ ⟨rfl, rfl⟩ (fun _ hcalm => hcalm) fun _ hcalm => hcalm
  have hdone : c.steady = true ∨ c.answers = true ∧ ok.Answers → o = .done := by
    rintro (hc | ⟨hc, hans⟩)
    · exact hsteady s a o subj c k hok hslot hc
    · exact hans s a o subj c k hok hslot hc
  cases c with
  | storageGet =>
      obtain rfl := hdone (Or.inl rfl)
      obtain ⟨rfl, rfl⟩ : Except.ok s.world.storage = r ∧ s.world = w := by
        simpa [World.land] using hw
      exact ⟨x, ⟨rfl, _, rfl, h.config.symm⟩, hask rfl, rfl⟩
  | storageSet p =>
      obtain rfl := hdone (Or.inl rfl)
      obtain ⟨rfl, rfl⟩ : Except.ok () = r ∧
          ({ s.world with storage := s.world.storage.set p } : World) = w := by
        simpa [World.land] using hw
      refine ⟨_, ⟨rfl, rfl⟩, h.answer ha ⟨?_, h.proxy, h.webRTC⟩ ⟨rfl, rfl⟩ ⟨rfl, rfl⟩
        (fun _ hcalm => hcalm) fun _ hcalm => hcalm, rfl⟩
      simp [Storage.set, h.config]
  | storageRemove =>
      obtain rfl := hdone (Or.inl rfl)
      obtain ⟨rfl, rfl⟩ : Except.ok () = r ∧
          ({ s.world with storage := s.world.storage.forget } : World) = w := by
        simpa [World.land] using hw
      refine ⟨_, ⟨rfl, rfl⟩, h.answer ha ⟨?_, h.proxy, h.webRTC⟩ ⟨rfl, rfl⟩ ⟨rfl, rfl⟩
        (fun _ hcalm => hcalm) fun _ hcalm => hcalm, rfl⟩
      simp [Storage.forget, h.config]
  | setAccessLevel =>
      obtain rfl := hdone (Or.inl rfl)
      obtain ⟨rfl, rfl⟩ : Except.ok () = r ∧ s.world = w := by simpa [World.land] using hw
      refine ⟨x, ⟨rfl, rfl⟩, h.answer ha ⟨h.config, h.proxy, h.webRTC⟩ ⟨rfl, rfl⟩ ⟨rfl, rfl⟩
        (fun _ hcalm => hcalm) fun _ hcalm => hcalm, rfl⟩
  | proxyClear =>
      obtain rfl := hdone (Or.inl rfl)
      obtain ⟨rfl, rfl⟩ : Except.ok () = r ∧
          ({ s.world with proxy := { s.world.proxy with own := none } } : World) = w := by
        simpa [World.land] using hw
      exact ⟨_, ⟨rfl, rfl⟩, h.answer ha ⟨h.config, rfl, h.webRTC⟩ ⟨rfl, rfl⟩ ⟨rfl, rfl⟩
        (fun _ hcalm => hcalm) fun _ hcalm => hcalm, rfl⟩
  | webRTCClear =>
      obtain rfl := hdone (Or.inl rfl)
      obtain ⟨rfl, rfl⟩ : Except.ok () = r ∧
          ({ s.world with webRTC := { s.world.webRTC with own := none } } : World) = w := by
        simpa [World.land] using hw
      exact ⟨_, ⟨rfl, rfl⟩, h.answer ha ⟨h.config, h.proxy, rfl⟩ ⟨rfl, rfl⟩ ⟨rfl, rfl⟩
        (fun _ hcalm => hcalm) fun _ hcalm => hcalm, rfl⟩
  | proxyGet incognito =>
      have hr : ∀ v, r = .ok v → v = s.world.proxy.effective incognito := by
        rintro v rfl
        cases o <;> simp only [World.land, Option.some.injEq, Prod.mk.injEq, Except.ok.injEq,
          reduceCtorEq, false_and] at hw
        exact hw.1.symm
      refine ⟨x.watch (¬ (s.answer a _ k r w).Pending Op.isProxyChanged ∧ x.proxyCalm)
        x.webRTCCalm, ⟨_, rfl, And.right, fun hans => ?_, fun v hv => ⟨fun hp => ?_, ?_⟩⟩,
        h.answer ha ?_ ⟨rfl, rfl⟩ ⟨rfl, rfl⟩ And.intro fun _ hcalm => hcalm, rfl⟩
      · obtain rfl := hdone (Or.inr ⟨rfl, hans⟩)
        simp only [World.land, Option.some.injEq, Prod.mk.injEq] at hw
        exact ⟨_, hw.1.symm⟩
      · rw [hr v hv, (h.proxySeen_answer ha hp.1).1]
      · rintro rfl hlevel
        rw [hr v hv] at hlevel ⊢
        exact h.proxy.trans (ChromeSetting.own_of_regular hlevel)
      · rw [World.land_inspects hw rfl]
        exact ⟨h.config, h.proxy, h.webRTC⟩
  | webRTCGet incognito =>
      have hr : ∀ v, r = .ok v → v = s.world.webRTC.effective incognito := by
        rintro v rfl
        cases o <;> simp only [World.land, Option.some.injEq, Prod.mk.injEq, Except.ok.injEq,
          reduceCtorEq, false_and] at hw
        exact hw.1.symm
      refine ⟨x.watch x.proxyCalm (¬ (s.answer a _ k r w).Pending Op.isWebRTCChanged ∧
        x.webRTCCalm), ⟨_, rfl, And.right, fun hans => ?_, fun v hv hp => ?_⟩,
        h.answer ha ?_ ⟨rfl, rfl⟩ ⟨rfl, rfl⟩ (fun _ hcalm => hcalm) And.intro, rfl⟩
      · obtain rfl := hdone (Or.inr ⟨rfl, hans⟩)
        simp only [World.land, Option.some.injEq, Prod.mk.injEq] at hw
        exact ⟨_, hw.1.symm⟩
      · rw [hr v hv, (h.webRTCSeen_answer ha hp.1).1]
      · rw [World.land_inspects hw rfl]
        exact ⟨h.config, h.proxy, h.webRTC⟩
  | proxySet v =>
      have hother : w.storage = s.world.storage ∧ w.webRTC = s.world.webRTC ∧
          w.proxy.others = s.world.proxy.others := by
        cases o <;> simp only [World.land, Option.some.injEq, Prod.mk.injEq, reduceCtorEq] at hw
        all_goals
          obtain ⟨-, rfl⟩ := hw
          exact ⟨rfl, rfl, rfl⟩
      refine ⟨x.adjust w.proxy.own x.webRTC x.attempts
        (¬ (s.answer a _ k r w).Pending Op.isProxyChanged ∧ x.proxyCalm) x.webRTCCalm,
        ⟨_, _, rfl, And.right, fun hr hg hn => ?_, fun hh hp hctrl => ?_⟩,
        h.answer ha ⟨?_, rfl, ?_⟩ ⟨rfl, rfl⟩ ⟨rfl, rfl⟩ And.intro fun _ hcalm => hcalm, rfl⟩
      · rw [h.cleared]
        refine hg s a o subj v k hok hslot ?_ (hattempts ▸ hn)
        rintro message rfl
        simp [World.land, hr] at hw
      · obtain ⟨hseen, hmove⟩ := h.proxySeen_answer ha hp.1
        rw [hseen] at hctrl ⊢
        obtain rfl := hh s a o subj (.proxySet v) k hok hslot (Or.inl ⟨⟨v, rfl⟩, hctrl⟩)
        obtain ⟨rfl, rfl⟩ : Except.ok () = r ∧
            ({ s.world with proxy := { s.world.proxy with own := some v } } : World) = w := by
          simpa [World.land] using hw
        have hheld : s.world.proxy.others.held = none := ChromeSetting.held_eq_none hctrl
        rw [← hmove]
        exact ⟨rfl, ChromeSetting.regular_own hheld rfl⟩
      · rw [hother.1]
        exact h.config
      · rw [hother.2.1]
        exact h.webRTC
  | webRTCSet v =>
      have hother : w.storage = s.world.storage ∧ w.proxy = s.world.proxy := by
        cases o <;> simp only [World.land, Option.some.injEq, Prod.mk.injEq, reduceCtorEq] at hw
        all_goals
          obtain ⟨-, rfl⟩ := hw
          exact ⟨rfl, rfl⟩
      refine ⟨x.adjust x.proxy w.webRTC.own x.attempts x.proxyCalm
        (¬ (s.answer a _ k r w).Pending Op.isWebRTCChanged ∧ x.webRTCCalm),
        ⟨_, _, rfl, And.right, fun hh hp hctrl => ?_⟩,
        h.answer ha ⟨?_, ?_, rfl⟩ ⟨rfl, rfl⟩ ⟨rfl, rfl⟩ (fun _ hcalm => hcalm) And.intro, rfl⟩
      · obtain ⟨hseen, hmove⟩ := h.webRTCSeen_answer ha hp.1
        rw [hseen] at hctrl ⊢
        obtain rfl := hh s a o subj (.webRTCSet v) k hok hslot (Or.inr ⟨⟨v, rfl⟩, hctrl⟩)
        obtain ⟨rfl, rfl⟩ : Except.ok () = r ∧
            ({ s.world with webRTC := { s.world.webRTC with own := some v } } : World) = w := by
          simpa [World.land] using hw
        have hheld : s.world.webRTC.others.held = none := ChromeSetting.held_eq_none hctrl
        rw [← hmove]
        exact ⟨rfl, ChromeSetting.regular_own hheld rfl⟩
      · rw [hother.1]
        exact h.config
      · rw [hother.2]
        exact h.proxy
  | isAllowedIncognitoAccess =>
      refine ⟨x, ⟨rfl, fun hans => ?_, ?_⟩, hask rfl, rfl⟩
      · obtain rfl := hdone (Or.inr ⟨rfl, hans⟩)
        simp only [World.land, Option.some.injEq, Prod.mk.injEq] at hw
        exact ⟨_, hw.1.symm⟩
      · rintro b rfl
        cases o <;> simp_all [World.land]
  | setBadgeText text =>
      have hroute := World.land_records hw rfl
      refine ⟨x, ⟨rfl, fun hans => ?_⟩, h.answer ha ?_ ⟨rfl, rfl⟩ ⟨rfl, rfl⟩
        (fun _ hcalm => hcalm) fun _ hcalm => hcalm, rfl⟩
      · obtain rfl := hdone (Or.inr ⟨rfl, hans⟩)
        simp only [World.land, Option.some.injEq, Prod.mk.injEq] at hw
        exact hw.1.symm
      · rw [hroute.1, hroute.2.1, hroute.2.2]
        exact ⟨h.config, h.proxy, h.webRTC⟩
  | setBadgeBackgroundColor color =>
      have hroute := World.land_records hw rfl
      refine ⟨x, ⟨rfl, fun hans => ?_⟩, h.answer ha ?_ ⟨rfl, rfl⟩ ⟨rfl, rfl⟩
        (fun _ hcalm => hcalm) fun _ hcalm => hcalm, rfl⟩
      · obtain rfl := hdone (Or.inr ⟨rfl, hans⟩)
        simp only [World.land, Option.some.injEq, Prod.mk.injEq] at hw
        exact hw.1.symm
      · rw [hroute.1, hroute.2.1, hroute.2.2]
        exact ⟨h.config, h.proxy, h.webRTC⟩
  | tabsGet id => exact ⟨x, rfl, hask rfl, rfl⟩
  | fetch => exact ⟨x, rfl, hask rfl, rfl⟩
  | json => exact ⟨x, rfl, hask rfl, rfl⟩
  | exclusive op => exact ⟨x, rfl, hask rfl, rfl⟩
  | tick => exact ⟨x, rfl, hask rfl, rfl⟩
  | order => exact ⟨x, rfl, hask rfl, rfl⟩

end Answer

/-- What a view says of the route holds of the route. -/
theorem Describes.kept {ok : Rules} {P : Prop} (h : x.Describes s) (hk : x.Kept ok P)
    (b : Actor) : (s.route b).Kept ok P := by
  have hproxy : (s.route b).proxyCalm → x.proxyCalm ∧ x.proxySeen = (s.route b).proxySeen :=
    fun hp => h.proxySeen.resolve_left hp
  have hwebRTC : (s.route b).webRTCCalm → x.webRTCCalm ∧ x.webRTCSeen = (s.route b).webRTCSeen :=
    fun hp => h.webRTCSeen.resolve_left hp
  have hconfig : x.config = (s.route b).config := h.config
  obtain ⟨hsafe, hrecovered⟩ := hk
  refine ⟨?_, fun hP => ⟨hconfig ▸ (hrecovered hP).sound, fun c l henabled hcalm hfree => ?_,
    fun c l henabled hcalm hcalm' hfree hfree' => ?_⟩⟩
  · rcases hsafe with hnone | ⟨c, l, henabled, hown, hrestricted, hstrict⟩
    · exact Or.inl (h.proxy.symm.trans hnone)
    · refine Or.inr ⟨c, l, hconfig ▸ henabled, h.proxy.symm.trans hown, fun hcalm => ?_,
        fun hs => ⟨h.cleared.symm.trans (hstrict hs).1, fun hcalm => ?_⟩⟩
      · have hseen := hrestricted (hwebRTC hcalm).1
        rwa [RestrictedSeen, (hwebRTC hcalm).2] at hseen
      · have hcarries := (hstrict hs).2 (hproxy hcalm).1
        rwa [(hproxy hcalm).2] at hcarries
  · obtain ⟨hcalm, hseen⟩ := hwebRTC hcalm
    rw [← hseen]
    rw [WebRTCFree, ← hseen] at hfree
    exact (hrecovered hP).webRTC c l (hconfig ▸ henabled) hcalm hfree
  · obtain ⟨hcalm, hseen⟩ := hproxy hcalm
    obtain ⟨hcalm', hseen'⟩ := hwebRTC hcalm'
    rw [ProxyFree, ← hseen] at hfree
    rw [WebRTCFree, ← hseen'] at hfree'
    have hset := (hrecovered hP).proxy c l (hconfig ▸ henabled) hcalm hcalm' hfree hfree'
    rwa [h.proxy] at hset

end RouteView

/-! ## One writer at a time -/

namespace Sys

variable {s : Sys}

section

omit [Platform] [Browser]

theorem slot_boot {subj : Subject} {thread : Thread api Result}
    (h : s.slot .boot = some (subj, thread)) : subj = .boot ∧ s.boot.isSome := by
  obtain ⟨t, ht, he⟩ := Option.map_eq_some_iff.1 h
  obtain ⟨rfl, rfl⟩ := Prod.mk.inj he
  exact ⟨rfl, by simp [ht]⟩

theorem slot_op {subj : Subject} {thread : Thread api Result}
    (h : s.slot .op = some (subj, thread)) :
    ∃ op owner, s.running = some ⟨op, owner, thread⟩ ∧ subj = .op op := by
  obtain ⟨⟨op, owner, t⟩, ht, he⟩ := Option.map_eq_some_iff.1 h
  obtain ⟨rfl, rfl⟩ := Prod.mk.inj he
  exact ⟨op, owner, ht, rfl⟩

/-- No writer is under way. -/
def Quiet (s : Sys) : Prop :=
  ∀ a subj thread, s.slot a = some (subj, thread) → subj.quiet = true

theorem neutral_of_isProxyError {op : Op} (h : op.isProxyError = true) : op.neutral = true := by
  cases op <;> first | rfl | cases h

end

section

omit [Platform] [Browser]

/-- While `boot` runs, the queue holds proxy errors only. -/
theorem Disciplined.boot_none (hd : s.Disciplined) {e : Op × Option Nat} (h : e ∈ s.entries)
    (hop : e.1.neutral = false) : s.boot = none := by
  by_contra hb
  have herror := (hd.orderly.booting (Option.isSome_iff_ne_none.2 hb)).2 _ h
  rw [neutral_of_isProxyError herror] at hop
  cases hop

/-- Nobody writes while a task that is not neutral waits for its start. -/
theorem Disciplined.quiet (hd : s.Disciplined) (hr : s.running = none) {op : Op}
    {owner : Option Nat} {rest : List (Op × Option Nat)} (hq : s.queue = (op, owner) :: rest)
    (hop : op.neutral = false) : s.Quiet := by
  have hboot := hd.boot_none (e := (op, owner)) (by simp [entries, hq]) hop
  rintro (_ | _ | t) subj thread hslot
  · simpa [hboot] using (slot_boot hslot).2
  · simp [slot, hr] at hslot
  · obtain ⟨kind, -, rfl⟩ := task_of_slot hslot
    rfl

/-- Whoever else is under way is quiet. -/
theorem Disciplined.others_quiet (hd : s.Disciplined) {a b : Actor} {subj subj' : Subject}
    {thread thread' : Thread api Result} (ha : s.slot a = some (subj, thread))
    (hw : subj.quiet = false) (hb : s.slot b = some (subj', thread')) (hne : b ≠ a) :
    subj'.quiet = true := by
  cases b with
  | task t =>
      obtain ⟨kind, -, rfl⟩ := task_of_slot hb
      rfl
  | boot =>
      obtain ⟨rfl, hboot⟩ := slot_boot hb
      cases a with
      | boot => exact absurd rfl hne
      | task t =>
          obtain ⟨kind, -, rfl⟩ := task_of_slot ha
          cases hw
      | op =>
          obtain ⟨op, owner, hr, rfl⟩ := slot_op ha
          have hnone := hd.boot_none (e := (op, owner)) (by simp [entries, hr]) hw
          simp [hnone] at hboot
  | op =>
      obtain ⟨op, owner, hr, rfl⟩ := slot_op hb
      cases a with
      | op => exact absurd rfl hne
      | task t =>
          obtain ⟨kind, -, rfl⟩ := task_of_slot ha
          cases hw
      | boot =>
          obtain ⟨-, hboot⟩ := slot_boot ha
          exact neutral_of_isProxyError ((hd.orderly.booting hboot).2 (op, owner)
            (by simp [entries, hr]))

end

omit [Platform] [Browser] in
theorem not_task_of_writer {a : Actor} {subj : Subject} {thread : Thread api Result}
    (h : s.slot a = some (subj, thread)) (hw : subj.quiet = false) : ∀ t, a ≠ .task t := by
  rintro t rfl
  obtain ⟨kind, -, rfl⟩ := task_of_slot h
  cases hw

/-- A step of somebody else, while a writer is under way: a quiet one, and no
start of a task that is not neutral. -/
theorem Disciplined.others_next (hd : s.Disciplined) {a : Actor} {subj : Subject}
    {thread : Thread api Result} (hslot : s.slot a = some (subj, thread))
    (hw : subj.quiet = false) {l : Label} {s' : Sys} (hs : s.next l = some s')
    (ha : l.actor ≠ some a) :
    (∀ b subj' t, l.actor = some b → s.slot b = some (subj', t) → subj'.quiet = true) ∧
      (∀ op owner rest, l = .start → s.queue = (op, owner) :: rest → op.neutral = true) ∧
      (l = .start → a ≠ .op) := by
  have hstart : l = .start → a ≠ .op := by
    rintro rfl rfl
    obtain ⟨op, owner, rest, hr, -, -⟩ := startOp_eq_some hs
    obtain ⟨op', owner', hr', -⟩ := slot_op hslot
    simp [hr] at hr'
  refine ⟨fun b subj' t hb hslot' => ?_, fun op owner rest hl hq => ?_, hstart⟩
  · refine hd.others_quiet hslot hw hslot' ?_
    rintro rfl
    exact ha hb
  · by_contra hop
    have hboot := hd.boot_none (e := (op, owner)) (by simp [entries, hq]) (by simpa using hop)
    cases a with
    | boot => simpa [hboot] using (slot_boot hslot).2
    | op => exact hstart hl rfl
    | task t => exact not_task_of_writer hslot hw t rfl

end Sys

end

end BrowserVpn
