import BrowserVpn.Extension.Quiescence

/-!
# Extension.Safety — what a quiescent worker guarantees

With `boot` done, nothing running, waiting or unhandled: the own PAC is the
configured one and WebRTC is restricted, whatever was found at the start;
incognito windows have the PAC too unless a rollback set it while
`ownProxyClearedForConflict` was up; and an enabled route is back once nobody
else holds a setting unless the proxy listener found it down with a flag
missing.
-/

namespace BrowserVpn

open Async

section

variable [Platform] [Browser] {ok : Rules} {s : Sys}

/-! ## The own PAC -/

/-- WebRTC is restricted in the regular context and in an enabled incognito
one. -/
def World.Restricted (w : World) : Prop :=
  webRTCIsRestricted (w.webRTC.effective false) = true ∧
    (Browser.incognitoAllowed = true → webRTCIsRestricted (w.webRTC.effective true) = true)

/-- The storage holds a valid configuration and `v` is its PAC. -/
def Storage.Expects (data : Storage) (v : ProxyConfig) : Prop :=
  ∃ c l, configuredConnection data.toConfig = .ok (some c) ∧
    configuredExclusions data.toConfig = .ok l ∧ buildProxyConfig c.toJs l = .ok v

omit [Browser] in
theorem Config.Enabled.expects {data : Storage} {c : Connection} {l : List JsString}
    (h : data.toConfig.Enabled c l) : data.Expects (proxyConfigOf c l) := by
  obtain ⟨hc, hl⟩ := configured_eq_ok.1 h.2
  exact ⟨c, l, hc, hl, buildProxyConfig_configured hc (normalizeExclusions_normalized hl)⟩

omit [Platform] [Browser] in
theorem Config.enabled_of_isEnabled {data : Config} (h : data.isEnabled = true) :
    data.enabled = some true := by
  rcases hon : data.enabled with _ | b <;> simp_all [isEnabled]

/-- Whatever the worker found at its start and whatever others did since, a
quiescent worker has no PAC of its own or the one of its enabled and valid
configuration, with WebRTC restricted. -/
theorem quiescent_own_proxy (hsteady : ok.Steady) {w : World} (h : Reach ok (Sys.init w) s)
    (hq : s.Quiescent) {v : ProxyConfig} (hown : s.world.proxy.own = some v) :
    s.world.storage.enabled = some true ∧ s.world.storage.Expects v ∧ s.world.Restricted := by
  obtain ⟨hsafe, -⟩ := h.kept (P := False) hsteady nofun nofun nofun hq.quiet
  rcases hsafe with hnone | ⟨c, l, henabled, hproxy, hrestricted, -⟩
  · exact absurd (hown.symm.trans hnone) nofun
  · obtain rfl : v = proxyConfigOf c l := Option.some.inj (hown.symm.trans hproxy)
    exact ⟨Config.enabled_of_isEnabled henabled.1, henabled.expects,
      hrestricted (hq.not_pending _)⟩

end

section

attribute [local instance] Platform.ascii Browser.sample

/-- The worker starts, and the listener handles the PAC that `boot` has set. -/
def starting : List Label := turns .boot 46 ++ [.resume .boot] ++ handling 0 27

/-- A run that starts the worker ends with the sample PAC. -/
theorem quiescent_own_proxy_sample :
    ∃ s : Sys, s.world.proxy.own = some .sample ∧ s.Quiescent ∧
      s.world.storage.enabled = some true ∧ s.world.storage.Expects .sample ∧
      s.world.Restricted := by
  obtain ⟨s, h, hown, hq⟩ := Reach.of_follow succeeds (World.sample (.free .system)) starting
    (fun s => s.world.proxy.own = some .sample ∧ s.Quiescent) (by decide +kernel)
  exact ⟨s, hown, hq, quiescent_own_proxy (fun _ _ _ _ _ _ hok _ _ => done_of_succeeds hok)
    h hq hown⟩

end

/-! ## Incognito windows -/

section

variable [Platform] [Browser] {ok : Rules} {s : Sys}

/-- With incognito access, a quiescent worker with a PAC of its own has it in
force in incognito windows, in runs where questions are answered and no
rollback's `set` resolves while `ownProxyClearedForConflict` is up. -/
theorem quiescent_incognito_proxy (hsteady : ok.Steady) (hanswers : ok.Answers)
    (hguarded : ok.Guarded) (hallowed : Browser.incognitoAllowed = true) {w : World}
    (h : Reach ok (Sys.init w) s) (hq : s.Quiescent) {v : ProxyConfig}
    (hown : s.world.proxy.own = some v) :
    s.world.storage.Expects v ∧
      s.world.proxy.effective true = ⟨.controlledByThisExtension, v⟩ := by
  obtain ⟨hsafe, -⟩ := h.kept (P := False) hsteady nofun nofun nofun hq.quiet
  rcases hsafe with hnone | ⟨c, l, henabled, hproxy, -, hstrict⟩
  · exact absurd (hown.symm.trans hnone) nofun
  · obtain rfl : v = proxyConfigOf c l := Option.some.inj (hown.symm.trans hproxy)
    exact ⟨henabled.expects, (hstrict ⟨hanswers, hguarded⟩).2 (hq.not_pending _) hallowed⟩

end

section

attribute [local instance] Platform.ascii Browser.sample

/-- Every call succeeds, and no actor sets the PAC twice. -/
def setsOnce (s : Sys) : Label → Bool
  | .land a .done => proxySets a s.trace < 2
  | .land _ _ => false
  | _ => true

theorem quiescent_incognito_proxy_sample :
    ∃ s : Sys, s.world.proxy.own = some .sample ∧ s.Quiescent ∧ s.world.storage.Expects .sample ∧
      s.world.proxy.effective true = ⟨.controlledByThisExtension, .sample⟩ := by
  obtain ⟨s, h, hown, hq⟩ := Reach.of_follow setsOnce (World.sample (.free .system)) starting
    (fun s => s.world.proxy.own = some .sample ∧ s.Quiescent) (by decide +kernel)
  have hdone : ∀ s a o, setsOnce s (.land a o) = true → o = .done ∧ proxySets a s.trace < 2 := by
    intro s a o h
    cases o <;> simp_all [setsOnce]
  refine ⟨s, hown, hq, quiescent_incognito_proxy (fun s a o _ _ _ hok _ _ => (hdone s a o hok).1)
    (fun s a o _ _ _ hok _ _ => (hdone s a o hok).1) (fun s a o _ _ _ hok _ _ hn => ?_) rfl h hq
    hown⟩
  exact absurd hn (Nat.not_le.2 (hdone s a o hok).2)

/-- Every call but `chrome.proxy.settings.set` succeeds. -/
def setsMayFail (s : Sys) : Label → Bool
  | .land _ .done => true
  | .land a _ =>
      match s.thread a with
      | some (.awaiting (.proxySet _) _) => true
      | _ => false
  | _ => true

theorem done_of_setsMayFail {s : Sys} {a : Actor} {o : Outcome} {subj : Subject} {c : Call}
    {k : Except String (Reply c) → Js Result} (h : setsMayFail s (.land a o) = true)
    (hslot : s.slot a = some (subj, .awaiting c k)) (hc : ∀ v, c ≠ .proxySet v) : o = .done := by
  have hthread : s.thread a = some (.awaiting c k) := by simp [Sys.thread, hslot]
  cases o <;> simp only [setsMayFail, hthread] at h
  · rfl
  all_goals
    cases c <;> first | exact absurd rfl (hc _) | cases h

/-- A run in which incognito windows end without the PAC. Somebody has them when
the worker starts. Once they are free the listener finds them controllable and
raises `ownProxyClearedForConflict`. The first `set` of `saveExclusions` is then
rejected, its rollback puts the PAC back, and when somebody takes the incognito
windows again the listener believes the PAC cleared. -/
def unguarded : List Label :=
  turns .boot 35 ++ [.resume .boot, .others (.free .system) (.free .default)] ++ handling 0 29 ++
  [.message (js "extension") (.saveExclusions (.str [])), .dispatch 1, .resume (.task 1), .start] ++
  turns .op 16 ++ [.resume .op, .land .op (.rejected "no")] ++ turns .op 45 ++
  [.resume .op, .resume (.task 1), .others .incognitoTaken (.free .default)] ++
  handling 2 27 ++ handling 3 27

/-- The rollback of `saveExclusions` leaves `ownProxyClearedForConflict` up with
a PAC set, so the next takeover of incognito windows goes unanswered. -/
theorem quiescent_incognito_proxy_fails :
    ¬ ∀ (ok : Rules) (w : World) (s : Sys) (v : ProxyConfig), ok.Steady → ok.Answers →
      Reach ok (Sys.init w) s → s.Quiescent → s.world.proxy.own = some v →
        s.world.proxy.effective true = ⟨.controlledByThisExtension, v⟩ := by
  intro hall
  obtain ⟨s, h, hown, hq, hlost⟩ := Reach.of_follow setsMayFail (World.sample .incognitoTaken)
    unguarded (fun s => s.world.proxy.own = some .sample ∧ s.Quiescent ∧
      s.world.proxy.effective true ≠ ⟨.controlledByThisExtension, .sample⟩) (by decide +kernel)
  refine hlost (hall _ _ s .sample (fun s a o subj c k hok hslot hc => ?_)
    (fun s a o subj c k hok hslot hc => ?_) h hq hown)
  · exact done_of_setsMayFail hok hslot (by rintro v rfl; cases hc)
  · exact done_of_setsMayFail hok hslot (by rintro v rfl; cases hc)

end

/-! ## Recovery -/

section

variable [Platform] [Browser] {ok : Rules} {s : Sys}

/-- No other party controls a setting in an enabled context. -/
def World.Free (w : World) : Prop :=
  (w.proxy.effective false).levelOfControl.controllable = true ∧
    (w.webRTC.effective false).levelOfControl.controllable = true ∧
    (Browser.incognitoAllowed = true →
      (w.proxy.effective true).levelOfControl.controllable = true ∧
        (w.webRTC.effective true).levelOfControl.controllable = true)

instance (w : World) : Decidable w.Free := inferInstanceAs (Decidable (_ ∧ _ ∧ _))

/-- The PAC `v` is in force in the enabled contexts. -/
def World.InForce (w : World) (v : ProxyConfig) : Prop :=
  w.proxy.effective false = ⟨.controlledByThisExtension, v⟩ ∧
    (Browser.incognitoAllowed = true →
      w.proxy.effective true = ⟨.controlledByThisExtension, v⟩)

omit [Platform] [Browser] in
theorem isEffective_of_ours {c : Connection} {l : List JsString} {setting : Setting ProxyConfig}
    (h : setting = ⟨.controlledByThisExtension, proxyConfigOf c l⟩) :
    isEffectiveProxySetting setting (proxyConfigOf c l) = true :=
  (isEffectiveProxySetting_iff setting c l).2 h

/-- A route in force shows as active, apart from a stored proxy error. -/
theorem state_of_inForce {w : World} {c : Connection} {l : List JsString}
    (henabled : w.storage.toConfig.Enabled c l) (hproxy : w.InForce (proxyConfigOf c l))
    (hwebRTC : w.Restricted) :
    (statusOf w.storage w.proxy.effective w.webRTC.effective).state =
      if w.storage.proxyError.isNone then .active else .error := by
  have hinc : (Browser.incognitoAllowed && !webRTCIsRestricted (w.webRTC.effective true)) =
      false := by
    cases hallowed : (Browser.incognitoAllowed : Bool) with
    | true => simp [hwebRTC.2 hallowed]
    | false => rfl
  have hstate : (incognitoStateOf (w.proxy.effective true) (proxyConfigOf c l)).controllable = true ∧
      (incognitoStateOf (w.proxy.effective true) (proxyConfigOf c l)).effective = true := by
    unfold incognitoStateOf
    split
    · rename_i hallowed
      have hours := hproxy.2 hallowed
      refine ⟨?_, isEffective_of_ours hours⟩
      rw [hours]
      rfl
    · exact ⟨rfl, rfl⟩
  have hours := isEffective_of_ours hproxy.1
  have hlevel : (w.proxy.effective false).levelOfControl = .controlledByThisExtension := by
    rw [hproxy.1]
  rw [statusOf, henabled.2]
  simp only [henabled.1, Bool.not_true, Bool.false_eq_true, if_false, enabledStatusOf, hwebRTC.1,
    hinc, routeStatus, hstate.1, hstate.2, hlevel, hours, bne_self_eq_false, errorOrActive]
  rcases w.storage.proxyError with _ | e <;> rfl

/-- Where Chrome answers and honours what it can, incognito windows inherit what
nobody holds there, and no proxy listener finds the route down and free with a
conflict flag missing, an enabled route is in force in every quiescent state in
which nobody else holds a setting. -/
theorem quiescent_recovered (hsteady : ok.Steady) (hanswers : ok.Answers)
    (hhonours : ok.Honours) (hinheriting : ok.Inheriting) (hresuming : ok.Resuming) {w : World}
    (hw : w.Inherits) (h : Reach ok (Sys.init w) s) (hq : s.Quiescent)
    (hon : s.world.storage.enabled = some true) (hfree : s.world.Free) :
    ∃ v, s.world.storage.Expects v ∧ s.world.InForce v ∧ s.world.Restricted ∧
      (statusOf s.world.storage s.world.proxy.effective s.world.webRTC.effective).state =
        if s.world.storage.proxyError.isNone then .active else .error := by
  obtain ⟨hsafe, hrecovered⟩ := h.kept (P := True) hsteady (fun _ => ⟨hanswers, hhonours⟩)
    (fun _ => hresuming) (fun _ => ⟨hinheriting, hw⟩) hq.quiet
  have hrecovered := hrecovered trivial
  obtain ⟨hproxyFree, hwebRTCFree, hincognito⟩ := hfree
  have hisOn : (s.route .op).config.isEnabled = true := by
    show (s.world.storage.enabled.getD false) = true
    rw [hon]
    rfl
  obtain ⟨c, l, henabled⟩ := hrecovered.sound hisOn
  have hset := hrecovered.proxy c l henabled (hq.not_pending _) (hq.not_pending _)
    ⟨hproxyFree, fun ha => (hincognito ha).1⟩ ⟨hwebRTCFree, fun ha => (hincognito ha).2⟩
  rcases hsafe with hnone | ⟨c₁, l₁, henabled₁, hproxy, hrestricted, -⟩
  · exact absurd hnone hset
  · have hrestricted : s.world.Restricted := hrestricted (hq.not_pending _)
    have hregular := ChromeSetting.regular_own (ChromeSetting.held_eq_none hproxyFree) hproxy
    have hforce : s.world.InForce (proxyConfigOf c₁ l₁) := by
      refine ⟨hregular, fun ha => ?_⟩
      have hinherits := (h.inherits hinheriting hw).1
      exact (ChromeSetting.effective_inherits hinherits (hincognito ha).1).trans hregular
    exact ⟨_, henabled₁.expects, hforce, hrestricted, state_of_inForce henabled₁ hforce hrestricted⟩

end

section

attribute [local instance] Platform.ascii Browser.sample

/-- Where the proxy listener is next in the queue, nobody else has the regular
proxy only if the PAC is set or both conflict flags are up. -/
def Sys.resumes (s : Sys) : Bool :=
  match s.queue with
  | (.proxyChanged, _) :: _ =>
      s.world.proxy.own.isSome || s.world.proxy.others.held.isSome ||
        s.vars.restoreAfterIncognitoTakeover && s.vars.ownProxyClearedForConflict
  | _ => true

/-- Every call succeeds, others leave incognito windows to the regular setting
or take them, and the popup asks for the state or saves exclusions. -/
def gently (s : Sys) : Label → Bool
  | .land a o => succeeds s (.land a o)
  | .others proxy webRTC => proxy.Inherits ∧ webRTC.Inherits
  | .message _ .getState => true
  | .message _ (.saveExclusions _) => true
  | .message _ _ => false
  | _ => true

/-- The same, with a listener that resumes. -/
def cooperates (s : Sys) : Label → Bool
  | .start => s.resumes
  | l => gently s l

/-- Somebody takes all windows and gives them back. -/
def recovering : List Label :=
  starting ++ [.others .taken (.free .default)] ++ handling 1 29 ++
  [.others (.free .system) (.free .default)] ++ handling 2 81 ++ handling 3 27

theorem quiescent_recovered_sample :
    ∃ s : Sys, s.Quiescent ∧ s.world.storage.enabled = some true ∧ s.world.Free ∧
      ∃ v, s.world.storage.Expects v ∧ s.world.InForce v ∧ s.world.Restricted ∧
        (statusOf s.world.storage s.world.proxy.effective s.world.webRTC.effective).state =
          if s.world.storage.proxyError.isNone then .active else .error := by
  obtain ⟨s, h, hq, hon, hfree⟩ := Reach.of_follow cooperates (World.sample (.free .system))
    recovering (fun s => s.Quiescent ∧ s.world.storage.enabled = some true ∧ s.world.Free)
    (by decide +kernel)
  have hdone : ∀ s a o, cooperates s (.land a o) = true → o = .done :=
    fun s a o h => done_of_succeeds (s := s) (a := a) h
  refine ⟨s, hq, hon, hfree, quiescent_recovered (fun s a o _ _ _ hok _ _ => hdone s a o hok)
    (fun s a o _ _ _ hok _ _ => hdone s a o hok) (fun s a o _ _ _ hok _ _ => hdone s a o hok)
    (fun s proxy webRTC hok => of_decide_eq_true hok) ?_ (by decide) h hq hon hfree⟩
  intro s owner rest hok hr hqueue c l _ _ _ hproxy _ hown
  have hresumes : s.resumes = true := hok
  have hheld : s.world.proxy.others.held = none := ChromeSetting.held_eq_none hproxy.1
  have hown : s.world.proxy.own = none := hown
  simp only [Sys.resumes, hqueue, hown, hheld, Option.isSome_none, Bool.false_or,
    Bool.and_eq_true] at hresumes
  exact ⟨rfl, hresumes⟩

/-- Somebody takes all windows, the listener gives up the PAC, the worker is
restarted, and the windows are given back. -/
def stranded : List Label :=
  starting ++ [.others .taken (.free .default)] ++ handling 1 29 ++ [.restart] ++
  turns .boot 31 ++ [.resume .boot, .others (.free .system) (.free .default)] ++ handling 0 29

/-- The listener restores the route only if both conflict flags are up, and they
do not survive a restart. -/
theorem quiescent_recovered_fails :
    ¬ ∀ (ok : Rules) (w : World) (s : Sys), ok.Steady → ok.Answers → ok.Honours →
      ok.Inheriting → (∀ s sender m, ok s (.message sender m) →
        m = .getState ∨ ∃ text, m = .saveExclusions text) → w.Inherits →
      Reach ok (Sys.init w) s → s.Quiescent → s.world.storage.enabled = some true →
      (∃ c, configuredConnection s.world.storage.toConfig = .ok (some c)) → s.world.Free →
        ∃ v, s.world.storage.Expects v ∧ s.world.InForce v ∧ s.world.Restricted := by
  intro hall
  obtain ⟨s, h, hq, hon, hconnection, hfree, hdown⟩ := Reach.of_follow gently
    (World.sample (.free .system)) stranded (fun s => s.Quiescent ∧
      s.world.storage.enabled = some true ∧
      configuredConnection s.world.storage.toConfig = .ok (some .sample) ∧ s.world.Free ∧
      (s.world.proxy.effective false).levelOfControl = .controllableByThisExtension)
    (by decide +kernel)
  have hdone : ∀ s a o, gently s (.land a o) = true → o = .done :=
    fun s a o h => done_of_succeeds (s := s) (a := a) h
  have hmessage : ∀ s sender m, gently s (.message sender m) = true →
      m = .getState ∨ ∃ text, m = .saveExclusions text := by
    intro s sender m hok
    cases m <;> first | exact Or.inl rfl | exact Or.inr ⟨_, rfl⟩ | cases hok
  obtain ⟨v, -, ⟨hours, -⟩, -⟩ := hall _ _ s (fun s a o _ _ _ hok _ _ => hdone s a o hok)
    (fun s a o _ _ _ hok _ _ => hdone s a o hok) (fun s a o _ _ _ hok _ _ => hdone s a o hok)
    (fun s proxy webRTC hok => of_decide_eq_true hok) hmessage (by decide) h hq hon
    ⟨.sample, hconnection⟩ hfree
  rw [hours] at hdown
  cases hdown

end

end BrowserVpn
