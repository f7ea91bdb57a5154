import BrowserVpn.Extension.History

/-!
# Extension.Inquiry — what a function that asks has learned

The functions of `background.js` that only ask, told through moments: each
answer was true at some moment between the call of the function and its return
(`Moment.Leads`). `status` is the longest of them; `Status.Tells` is what its
answer says about the storage and the regular proxy setting it has read.
-/

namespace BrowserVpn

open Async

section

variable [Platform] [Browser] {ok : Rules} {w : World} {A : Account} {α β : Type} {x : Moment}

/-! ## From moment to moment -/

/-- A moment of the run, no write in the present segment and no call under way. -/
structure Moment.Open (ok : Rules) (w : World) (x : Moment) : Prop where
  reach : Reach ok (Sys.init w) x.now
  wrote : x.wrote = []
  awaits : x.awaits = none

/-- From one moment to a later one, having read `l` of the storage. -/
structure Moment.Leads (ok : Rules) (w : World) (x x' : Moment) (l : List Storage) : Prop where
  me : x'.me = x.me
  subj : x'.subj = x.subj
  reach : Reach ok (Sys.init w) x'.now
  later : Later ok x.now x'.now
  held : x.Held x'.now
  reads : x'.reads = l ++ x.reads
  wrote : x'.wrote = []
  awaits : x'.awaits = none

namespace Moment.Leads

variable {x' x'' : Moment} {l l' : List Storage}

theorem refl (h : x.Open ok w) : x.Leads ok w x [] :=
  ⟨rfl, rfl, h.reach, Reach.init, fun _ _ => ⟨rfl, rfl⟩, rfl, h.wrote, h.awaits⟩

theorem trans (h : x.Leads ok w x' l) (h' : x'.Leads ok w x'' l') :
    x.Leads ok w x'' (l' ++ l) := by
  refine ⟨h'.me.trans h.me, h'.subj.trans h.subj, h'.reach, Reach.trans h.later h'.later, ?_,
    ?_, h'.wrote, h'.awaits⟩
  · intro hme hboot
    obtain ⟨hstorage, hepoch⟩ := h.held hme hboot
    obtain ⟨hstorage', hepoch'⟩ := h'.held (h.me.trans hme) (Later.boot_none h.later hboot)
    exact ⟨hstorage'.trans hstorage, hepoch'.trans hepoch⟩
  · rw [h'.reads, h.reads, List.append_assoc]

theorem isOpen (h : x.Leads ok w x' l) : x'.Open ok w := ⟨h.reach, h.wrote, h.awaits⟩

end Moment.Leads

/-- One call that lands. -/
theorem wp_history_call {c : Call} (hc : ∀ op, c ≠ .exclusive op) (hmay : A.may c x) :
    wp (historyLogic A ok w) (chrome c) (fun r x' => ∃ s s', Reach ok (Sys.init w) s ∧
      (x.issue c).Before ok s ∧ x.Held s ∧ Lands ok s x.me c r s' ∧
      x' = (x.issue c).land c r s') x :=
  ⟨hmay, fun _ _ h => (historyReplies_iff hc).1 h⟩

theorem Moment.Before.later_issue {c : Call} {s : Sys} (h : (x.issue c).Before ok s) :
    Later ok x.now s := by
  have hlater : Later ok (x.issue c).now s := Moment.Before.later h
  exact hlater

theorem Lands.reach {s s' : Sys} {a : Actor} {c : Call} {r : Except String (Reply c)}
    (h : Lands ok s a c r s') (hr : Reach ok (Sys.init w) s) : Reach ok (Sys.init w) s' :=
  hr.later h.later

theorem Lands.asks {s s' : Sys} {a : Actor} {c : Call} {r : Except String (Reply c)}
    (h : Lands ok s a c r s') (hc : c.inspects = true) : s'.world = s.world := by
  obtain ⟨o, -, -, hland⟩ := h.land
  exact World.land_inspects hland hc

theorem Lands.epoch {s s' : Sys} {a : Actor} {c : Call} {r : Except String (Reply c)}
    (h : Lands ok s a c r s') : s'.vars.configurationEpoch = s.vars.configurationEpoch := by
  obtain ⟨o, -, hs, -⟩ := h.land
  obtain ⟨new, hpassed, hof⟩ := Sys.passed_next hs nofun
  have hzero : new.countP Obs.starts = 0 := by
    refine List.countP_eq_zero.2 fun o' ho' hstarts => ?_
    have hlabel := hof o' ho'
    cases o' <;> cases hlabel <;> cases hstarts
  have hstarts := hpassed.starts
  omega

/-- A call that changes nothing leads from moment to moment. -/
theorem Moment.leads_land {c : Call} (hc : c.inspects = true) {s s' : Sys}
    {r : Except String (Reply c)} (hr : Reach ok (Sys.init w) s)
    (hbefore : (x.issue c).Before ok s) (hheld : x.Held s) (hlands : Lands ok s x.me c r s') :
    x.Leads ok w ((x.issue c).land c r s')
      (Obs.readBy x.me (.landed x.me c r)).toList := by
  refine ⟨rfl, rfl, hlands.reach hr, Reach.trans hbefore.later_issue hlands.later, ?_, rfl, rfl,
    rfl⟩
  intro hme hboot
  obtain ⟨hstorage, hepoch⟩ := hheld hme hboot
  refine ⟨?_, hlands.epoch.trans hepoch⟩
  show s'.world.storage = _
  rw [hlands.asks hc, hstorage]

/-- One call of a callback, other than a task for `exclusive`. -/
theorem wp_inspect {c : Call} (hc : c.inspects = true) (hne : ∀ op, c ≠ .exclusive op)
    (hmay : A.may c x) :
    wp (historyLogic A ok w) (chrome c) (fun r x' =>
      x.Leads ok w x' (Obs.readBy x.me (.landed x.me c r)).toList ∧
      ∃ s, Later ok x.now s ∧ Lands ok s x.me c r x'.now) x := by
  refine wp_mono _ (wp_history_call hne hmay) ?_
  rintro r _ ⟨s, s', hr, hbefore, hheld, hlands, rfl⟩
  exact ⟨Moment.leads_land hc hr hbefore hheld hlands, s, hbefore.later_issue, hlands⟩

/-- One question. -/
theorem wp_ask (c : Call) (hc : c.asks = true) :
    wp (historyLogic A ok w) (chrome c) (fun r x' =>
      x.Leads ok w x' (Obs.readBy x.me (.landed x.me c r)).toList ∧
      ∃ s, Later ok x.now s ∧ Lands ok s x.me c r x'.now) x := by
  refine wp_inspect (Call.inspects_of_asks hc) ?_ (A.asks c x hc)
  rintro op rfl
  cases hc

/-- Reading the variables is a moment of its own. -/
theorem Moment.leads_read (hx : x.Open ok w) {s : Sys} {v : Vars} (h : x.During ok w s v) :
    x.Leads ok w { x with now := s, here := true, awaits := none } [] ∧ v = s.vars := by
  refine ⟨⟨rfl, rfl, h.reach, h.later, h.held, rfl, hx.wrote, rfl⟩, ?_⟩
  rw [h.vars, hx.wrote]
  rfl

/-- A microtask only lets time pass. -/
theorem wp_history_await {p : Js α} {Q : Except String α → Moment → Prop}
    (h : wp (historyLogic A ok w) p (fun r x₁ => ∀ x₂, x₁.Leads ok w x₂ [] → Q r x₂) x) :
    wp (historyLogic A ok w) (await p) Q x := by
  rw [await, wp_andThen]
  refine wp_mono _ h fun r x₁ hQ => ?_
  have htick := @wp_ask _ _ ok w A x₁ .tick rfl
  exact ⟨htick.1, fun r' x₂ hreply => hQ x₂ (htick.2 r' x₂ hreply).1⟩

/-- Questions about anything but the storage. -/
def Call.peeks : Call → Bool
  | .storageGet => false
  | c => c.asks

omit [Platform] [Browser] in
theorem Call.asks_of_peeks {c : Call} (h : c.peeks = true) : c.asks = true := by
  cases c <;> first | exact h | cases h

/-- A function that asks about anything but the storage. -/
abbrev Peeks (p : Js α) : Prop := p.Within (fun c : Call => c.peeks) fun _ => False

theorem Peeks.leads {p : Js α} (hp : Peeks p) (hx : x.Open ok w) :
    wp (historyLogic A ok w) p (fun _ x' => x.Leads ok w x' []) x := by
  refine wp_of_within _ (I := fun x' => x.Leads ok w x' []) hp ?_ ?_ ?_ (.refl hx)
  · rintro x₁ v _ hx₁ ⟨s, hduring, rfl⟩
    exact hx₁.trans (Moment.leads_read hx₁.isOpen hduring).1
  · exact fun _ _ _ h => h.elim
  · intro c x₁ hx₁ hc
    have hask := @wp_ask _ _ ok w A x₁ c (Call.asks_of_peeks hc)
    refine ⟨hask.1, fun r x₂ hreply => ?_⟩
    have hread : Obs.readBy x₁.me (.landed x₁.me c r) = none := by
      cases c <;> first | rfl | cases hc
    have hleads := (hask.2 r x₂ hreply).1
    rw [hread] at hleads
    exact hx₁.trans hleads

section

omit [Platform] [Browser]

theorem peeks_await {p : Js α} (hp : Peeks p) : Peeks (await p) := within_await hp rfl

theorem peeks_incognitoWebRTCIsRestricted : Peeks incognitoWebRTCIsRestricted := by
  refine .tryCatch (.bind (within_chrome rfl) fun allowed => ?_) fun _ => trivial
  exact within_ite (.map (peeks_await (within_chrome rfl)) _) trivial

theorem peeks_incognitoProxyState (expected : ProxyConfig) :
    Peeks (incognitoProxyState expected) := by
  refine .tryCatch (.bind (within_chrome rfl) fun allowed => ?_) fun _ => trivial
  exact within_ite (.bind (peeks_await (within_chrome rfl)) fun _ => trivial) trivial

end

/-! ## Single answers -/

theorem stored_seen :
    wp (historyLogic A ok w) stored (fun r x' => ∃ l, x.Leads ok w x' l ∧
      ∀ data, r = .ok data → l = [data] ∧ data = x'.now.world.storage) x := by
  refine wp_mono _ (wp_ask .storageGet rfl) ?_
  rintro r x' ⟨hleads, s, -, hlands⟩
  refine ⟨_, hleads, ?_⟩
  rintro data rfl
  refine ⟨by simp [Obs.readBy], ?_⟩
  rw [hlands.asks rfl]
  obtain ⟨o, -, -, hland⟩ := hlands.land
  cases o <;> simp only [World.land, Option.some.injEq, Prod.mk.injEq, reduceCtorEq] at hland
  · exact (Except.ok.inj hland.1).symm
  · cases hland.1

theorem effectiveSetting_seen (incognito : Bool) :
    wp (historyLogic A ok w) (effectiveSetting incognito) (fun r x' => x.Leads ok w x' [] ∧
      ∀ v, r = .ok v → v = x'.now.world.proxy.effective incognito) x := by
  refine wp_mono _ (wp_ask (.proxyGet incognito) rfl) ?_
  rintro r x' ⟨hleads, s, -, hlands⟩
  refine ⟨hleads, ?_⟩
  rintro v rfl
  rw [hlands.asks rfl]
  obtain ⟨o, -, -, hland⟩ := hlands.land
  cases o <;> simp only [World.land, Option.some.injEq, Prod.mk.injEq, reduceCtorEq] at hland
  · exact (Except.ok.inj hland.1).symm
  · cases hland.1

theorem webRTCSetting_seen (incognito : Bool) :
    wp (historyLogic A ok w) (webRTCSetting incognito) (fun r x' => x.Leads ok w x' [] ∧
      ∀ v, r = .ok v → v = x'.now.world.webRTC.effective incognito) x := by
  refine wp_mono _ (wp_ask (.webRTCGet incognito) rfl) ?_
  rintro r x' ⟨hleads, s, -, hlands⟩
  refine ⟨hleads, ?_⟩
  rintro v rfl
  rw [hlands.asks rfl]
  obtain ⟨o, -, -, hland⟩ := hlands.land
  cases o <;> simp only [World.land, Option.some.injEq, Prod.mk.injEq, reduceCtorEq] at hland
  · exact (Except.ok.inj hland.1).symm
  · cases hland.1

/-! ## The status -/

/-- What a status says about the storage and the regular setting it was
computed from. -/
structure Status.Tells (st : Status) (data : Storage) (setting : Setting ProxyConfig) : Prop where
  route : st.testable = true → ∃ c l, configured data.toConfig = .ok (some c, l) ∧
    st.exclusions = l ∧ setting = ⟨.controlledByThisExtension, proxyConfigOf c l⟩ ∧
    st.proxyError = data.proxyError
  active : st.state = .active → data.proxyError = none
  retry : st.canRetryIp = some true → ∃ e, data.proxyError = some e ∧ e.possibleDirect = false

omit [Browser] in
/-- A status that is neither active nor to be retried tells nothing. -/
theorem Status.tells_of_not_testable {st : Status} {data : Storage}
    {setting : Setting ProxyConfig} (hstate : st.state ≠ .active)
    (hretry : st.canRetryIp = none) : st.Tells data setting where
  route h := by simp [Status.testable, hstate, hretry] at h
  active h := absurd h hstate
  retry h := by simp [hretry] at h

omit [Browser] in
/-- The last checks of `status()`. -/
theorem routeStatus_tells {data : Storage} {c : Connection} {l : List JsString}
    {setting : Setting ProxyConfig} {incognito : IncognitoProxyState}
    (h : configured data.toConfig = .ok (some c, l)) :
    (routeStatus (baseStatus data (some c) l) data setting (proxyConfigOf c l) incognito).Tells
      data setting := by
  unfold routeStatus
  split
  · exact Status.tells_of_not_testable nofun rfl
  split
  · exact Status.tells_of_not_testable nofun rfl
  split
  · exact Status.tells_of_not_testable nofun rfl
  split
  · exact Status.tells_of_not_testable nofun rfl
  · rename_i heffective _
    have hours : setting = ⟨.controlledByThisExtension, proxyConfigOf c l⟩ := by
      simpa [isEffectiveProxySetting_iff] using heffective
    unfold errorOrActive
    split
    · rename_i e he
      refine ⟨fun _ => ⟨c, l, h, rfl, hours, rfl⟩, nofun, fun hretry => ⟨e, he, ?_⟩⟩
      simpa using hretry
    · rename_i he
      exact ⟨fun _ => ⟨c, l, h, rfl, hours, rfl⟩, fun _ => he, nofun⟩

/-- What `status` has learned, and when: the storage at one moment and the
regular setting at a later one. -/
def StatusSeen (ok : Rules) (w : World) (x : Moment) (r : Except String Status) (x' : Moment) :
    Prop :=
  ∃ l, x.Leads ok w x' l ∧ ∀ st, r = .ok st → ∃ m₁ m₂, l = [m₁.now.world.storage] ∧
    x.Leads ok w m₁ l ∧ m₁.Leads ok w m₂ [] ∧ m₂.Leads ok w x' [] ∧
    st.Tells m₁.now.world.storage (m₂.now.world.proxy.effective false)

theorem enabledStatus_seen {data : Storage} {c : Connection} {l : List JsString}
    {setting : Setting ProxyConfig} (webRTC : Setting WebRTCPolicy)
    (h : configured data.toConfig = .ok (some c, l)) (hx : x.Open ok w) :
    wp (historyLogic A ok w) (enabledStatus (baseStatus data (some c) l) data c l setting webRTC)
      (fun r x' => x.Leads ok w x' [] ∧ ∀ st, r = .ok st → st.Tells data setting) x := by
  obtain ⟨hc, hl⟩ := configured_eq_ok.1 h
  unfold enabledStatus
  split
  · exact ⟨.refl hx, by rintro st ⟨⟩; exact Status.tells_of_not_testable nofun rfl⟩
  · refine wp_bind _ ((peeks_await peeks_incognitoWebRTCIsRestricted).leads hx) ?_ ?_
    · intro restricted x₁ hx₁
      split
      · exact ⟨hx₁, by rintro st ⟨⟩; exact Status.tells_of_not_testable nofun rfl⟩
      · rw [buildProxyConfig_configured hc (normalizeExclusions_normalized hl)]
        refine wp_lift_bind (fun expected he => ?_) nofun
        cases he
        refine wp_bind _ ((peeks_await (peeks_incognitoProxyState _)).leads hx₁.isOpen) ?_ ?_
        · intro incognito x₂ hx₂
          refine ⟨hx₁.trans hx₂, ?_⟩
          rintro st ⟨⟩
          exact routeStatus_tells h
        · exact fun e x₂ hx₂ => ⟨hx₁.trans hx₂, fun _ h => by cases h⟩
    · exact fun e x₁ hx₁ => ⟨hx₁, fun _ h => by cases h⟩

theorem status_seen : wp (historyLogic A ok w) status (StatusSeen ok w x) x := by
  refine wp_bind _ (wp_history_await (wp_mono _ stored_seen fun r m₁ hm₁ m₁' hm₁' =>
    (⟨m₁, hm₁, hm₁'⟩ : ∃ m₁, (∃ l, x.Leads ok w m₁ l ∧
      ∀ data, r = .ok data → l = [data] ∧ data = m₁.now.world.storage) ∧
      m₁.Leads ok w m₁' []))) ?_ ?_
  · rintro data m₁' ⟨m₁, ⟨l, hm₁, hdata⟩, hm₁'⟩
    obtain ⟨rfl, rfl⟩ := hdata data rfl
    -- Whatever follows reads nothing of the storage.
    have hend : ∀ {m₂ m₃ : Moment} {r : Except String Status}, m₁.Leads ok w m₂ [] →
        m₂.Leads ok w m₃ [] → (∀ st, r = .ok st → st.Tells m₁.now.world.storage
          (m₂.now.world.proxy.effective false)) → StatusSeen ok w x r m₃ :=
      fun hm₂ hm₃ h => ⟨_, hm₁.trans (hm₂.trans hm₃), fun st hst =>
        ⟨m₁, _, rfl, hm₁, hm₂, hm₃, h st hst⟩⟩
    refine wp_bind _ (wp_history_await (wp_mono _ (effectiveSetting_seen false)
      fun r m₂ hm₂ m₂' hm₂' => (⟨m₂, hm₂, hm₂'⟩ : ∃ m₂, (m₁'.Leads ok w m₂ [] ∧
        ∀ v, r = .ok v → v = m₂.now.world.proxy.effective false) ∧ m₂.Leads ok w m₂' []))) ?_ ?_
    · rintro setting m₂' ⟨m₂, ⟨hm₂, hsetting⟩, hm₂'⟩
      obtain rfl := hsetting setting rfl
      refine wp_bind _ (wp_history_await (wp_mono _ (webRTCSetting_seen false)
        fun r m₃ hm₃ m₃' hm₃' => hm₃.1.trans hm₃')) ?_ ?_
      · intro webRTC m₃ hm₃
        have hm₁₂ := hm₁'.trans hm₂
        have hm₂₃ := hm₂'.trans hm₃
        split
        · refine hend hm₁₂ hm₂₃ ?_
          rintro st ⟨⟩
          exact Status.tells_of_not_testable nofun rfl
        · refine hend hm₁₂ hm₂₃ ?_
          rintro st ⟨⟩
          exact Status.tells_of_not_testable nofun rfl
        · rename_i c exclusions hconfigured
          split
          · refine hend hm₁₂ hm₂₃ ?_
            rintro st ⟨⟩
            unfold disabledStatus
            split <;> exact Status.tells_of_not_testable nofun rfl
          · refine wp_mono _ (enabledStatus_seen _ hconfigured hm₃.isOpen) ?_
            rintro r m₄ ⟨hm₄, htells⟩
            exact hend hm₁₂ (hm₂₃.trans hm₄) htells
      · intro e m₃ hm₃
        exact hend (hm₁'.trans hm₂) (hm₂'.trans hm₃) fun _ h => by cases h
    · rintro e m₂' ⟨m₂, ⟨hm₂, -⟩, hm₂'⟩
      exact hend hm₁' (hm₂.trans hm₂') fun _ h => by cases h
  · rintro e m₁' ⟨m₁, ⟨l, hm₁, -⟩, hm₁'⟩
    exact ⟨_, hm₁.trans hm₁', fun _ h => by cases h⟩

end

end BrowserVpn
