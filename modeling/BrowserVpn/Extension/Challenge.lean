import BrowserVpn.Extension.Inquiry

/-!
# Extension.Challenge — when credentials are handed out

`onAuthRequired`, told through moments. The handler reads the variables, the
storage, the tab and two settings at five moments; the counters it compares in
its last segment carry what it has seen to the moment of the answer
(`Extension.Epochs`). `Sys.Releases` is what then holds of the whole state.
-/

namespace BrowserVpn

open Async

/-! ## Readings of the trace -/

/-- What the callback `t` handles. -/
def kindOf (t : Nat) : List Obs → Option TaskKind
  | [] => none
  | .restarted :: _ => none
  | .began t' kind :: trace => if t' = t then some kind else kindOf t trace
  | _ :: trace => kindOf t trace

/-- Whether a callback handles a challenge of the request `id`. -/
def TaskKind.isChallengeOf (id : Nat) : TaskKind → Bool
  | .challenge details => details.requestId == id
  | _ => false

/-- Whether this worker has handed out credentials for the request `id` and the
request is not done. -/
def handedOut (id : Nat) : List Obs → Bool
  | [] => false
  | .restarted :: _ => false
  | .requestDone id' :: trace => id' != id && handedOut id trace
  | .ended (.task t) (.ok (.auth (.credentials ..))) :: trace =>
      (kindOf t trace).any (TaskKind.isChallengeOf id) || handedOut id trace
  | _ :: trace => handedOut id trace

theorem handedOut_cons {id : Nat} {o : Obs} {trace : List Obs}
    (h : handedOut id (o :: trace) = true) : handedOut id trace = true ∨
      ∃ t u p details, o = .ended (.task t) (.ok (.auth (.credentials u p))) ∧
        kindOf t trace = some (.challenge details) ∧ details.requestId = id := by
  unfold handedOut at h
  split at h
  · cases h
  · cases h
  · simp_all
  · rename_i t u p trace' heq
    cases heq
    rw [Bool.or_eq_true] at h
    refine h.symm.imp_right fun hkind => ?_
    obtain ⟨kind, hkind, hof⟩ := (Option.any_eq_true _ _).1 hkind
    cases kind with
    | challenge details => exact ⟨t, u, p, details, rfl, hkind, by simpa [TaskKind.isChallengeOf] using hof⟩
    | _ => cases hof
  · rename_i heq
    cases heq
    exact Or.inl h

/-- Only the end of a callback hands out credentials. -/
theorem handedOut_append {id : Nat} {new trace : List Obs}
    (hnew : ∀ o ∈ new, ∀ a r, o ≠ .ended a r) (h : handedOut id (new ++ trace) = true) :
    handedOut id trace = true := by
  induction new with
  | nil => exact h
  | cons o new ih =>
      rcases handedOut_cons h with h | ⟨t, u, p, details, ho, -⟩
      · exact ih (fun o ho => hnew o (List.mem_cons_of_mem _ ho)) h
      · exact absurd ho (hnew o (List.mem_cons_self ..) _ _)

section

variable [Platform] [Browser]

/-! ## The state of the answer -/

/-- Whether a request comes from an incognito window, as far as one can tell. -/
def contextOf (details : AuthDetails) : Option Bool :=
  match requestContext details with
  | .tab id => Browser.tabIncognito id
  | .worker => some Browser.inIncognitoContext
  | .unknown => none

/-- What holds of a state in which a challenge may be answered with credentials. -/
structure Sys.Releases (s : Sys) (details : AuthDetails) (username password : JsString) :
    Prop where
  idle : s.running = none
  enabled : s.world.storage.enabled = some true
  /-- The stored connection is the one that is asked for, and its PAC is in force
  where the request comes from. -/
  route : ∃ c l incognito,
    configured s.world.storage.toConfig = .ok (some c, l) ∧
    username = c.username ∧ password = c.password ∧
    details.challengerHost.map toLowerCase = some c.host ∧
    details.challengerPort = some (c.port : Int) ∧
    contextOf details = some incognito ∧
    s.world.proxy.effective incognito = ⟨.controlledByThisExtension, proxyConfigOf c l⟩ ∧
    s.world.webRTC.effective incognito = ⟨.controlledByThisExtension, webRTCPolicy⟩

/-! ## Up to the last segment -/

variable {ok : Rules} {w : World} {A : Account} {x : Moment} {details : AuthDetails}

omit [Browser] in
theorem matchStored_eq_inr {start : Vars} {data : Storage} {c : Challenge}
    (h : matchStored details start data = .ok (.inr c)) :
    c.start = start ∧ c.data = data ∧ data.isEnabled = true ∧
      configuredConnection data.toConfig = .ok (some c.connection) ∧
      isMatchingProxyChallenge details c.connection = true := by
  unfold matchStored at h
  split at h
  · cases h
  · rename_i hstored
    cases hc : configuredConnection data.toConfig with
    | error e => simp [hc, bind, Except.bind] at h
    | ok connection =>
        cases connection with
        | none => simp [hc, bind, Except.bind, pure, Except.pure] at h
        | some connection =>
            simp only [hc, bind, Except.bind, pure, Except.pure] at h
            split at h
            · cases h
            · rename_i hmatch
              cases h
              simp only [Bool.or_eq_true, Bool.not_eq_true', not_or, Bool.not_eq_false] at hstored
              exact ⟨rfl, rfl, hstored.1, rfl, by simpa using hmatch⟩

omit [Browser] in
theorem matchStored_not_credentials {start : Vars} {data : Storage} {answer : AuthResponse}
    (h : matchStored details start data = .ok (.inl answer)) : answer = .pass := by
  unfold matchStored at h
  split at h
  · cases h; rfl
  · cases hc : configuredConnection data.toConfig with
    | error e => simp [hc, bind, Except.bind] at h
    | ok connection =>
        cases connection with
        | none =>
            simp only [hc, bind, Except.bind, pure, Except.pure] at h
            cases h; rfl
        | some connection =>
            simp only [hc, bind, Except.bind, pure, Except.pure] at h
            split at h
            · cases h; rfl
            · cases h

/-- What the handler has learned by the time it has `matched`: the variables at
one moment, the storage at a later one. -/
structure Challenge.Matched (ok : Rules) (w : World) (details : AuthDetails) (c : Challenge)
    (x : Moment) : Prop where
  isOpen : x.Open ok w
  seen : ∃ s₀ s₁, Reach ok (Sys.init w) s₀ ∧ s₀.boot = none ∧ Later ok s₀ s₁ ∧
    Later ok s₁ x.now ∧ c.start = s₀.vars ∧ c.data = s₁.world.storage
  idle : c.start.configurationChanging = false
  enabled : c.data.isEnabled = true
  connection : configuredConnection c.data.toConfig = .ok (some c.connection)
  matching : isMatchingProxyChallenge details c.connection = true

theorem Challenge.Matched.leads {c : Challenge} {x' : Moment} {l : List Storage}
    (h : c.Matched ok w details x) (hx : x.Leads ok w x' l) : c.Matched ok w details x' := by
  obtain ⟨s₀, s₁, hr, hboot, h₀₁, h₁, hseen⟩ := h.seen
  exact { h with
    isOpen := hx.isOpen
    seen := ⟨s₀, s₁, hr, hboot, h₀₁, Reach.trans h₁ hx.later, hseen⟩ }

theorem matchChallenge_seen (hx : x.Open ok w) (hboot : x.now.boot = none) :
    wp (historyLogic A ok w) (matchChallenge details) (fun r x' => x'.Open ok w ∧
      (∀ answer, r = .ok (.inl answer) → ∀ u p, answer ≠ .credentials u p) ∧
      ∀ c, r = .ok (.inr c) → c.Matched ok w details x') x := by
  refine wp_get_bind ?_
  rintro v x₁ ⟨s, hduring, rfl⟩
  obtain ⟨hread, rfl⟩ := Moment.leads_read hx hduring
  split
  · exact ⟨hread.isOpen, by rintro answer ⟨⟩ u p ⟨⟩, fun _ h => by cases h⟩
  · rename_i hchanging
    refine wp_bind _ (wp_history_await (wp_mono _ stored_seen fun r m hm m' hm' =>
      (⟨m, hm, hm'⟩ : ∃ m, (∃ l, Moment.Leads ok w _ m l ∧
        ∀ data, r = .ok data → l = [data] ∧ data = m.now.world.storage) ∧
        m.Leads ok w m' []))) ?_ ?_
    · rintro data m' ⟨m, ⟨l, hm, hdata⟩, hm'⟩
      obtain ⟨-, rfl⟩ := hdata data rfl
      refine ⟨hm'.isOpen, fun answer h u p hne => ?_, fun c h => ?_⟩
      · rw [matchStored_not_credentials h] at hne
        cases hne
      · obtain ⟨hstart, hstored, henabled, hconnection, hmatching⟩ := matchStored_eq_inr h
        refine ⟨hm'.isOpen, ⟨s, m.now, hduring.reach,
          Later.boot_none hduring.later hboot, hm.later, hm'.later, hstart, hstored⟩, ?_, ?_,
          ?_, hmatching⟩
        · simpa [hstart] using hchanging
        · rwa [hstored]
        · rwa [hstored]
    · rintro e m' ⟨m, -, hm'⟩
      exact ⟨hm'.isOpen, (fun _ h => by cases h), (fun _ h => by cases h)⟩

/-! ## The last segment -/

/-- Credentials leave in a segment of their own, which records the request. -/
def Handed (details : AuthDetails) (answer : AuthResponse) (x : Moment) : Prop :=
  ∀ username password, answer = .credentials username password →
    x.here = true ∧ x.wrote = [.authAttempt details.requestId] ∧
      details.requestId ∉ x.now.vars.authAttempts ∧ x.now.Releases details username password

/-- A callback of a challenge may hand over an authorization failure in the
segment that raised the counter of errors, and with the number it then had. -/
def challengeAccount : Account where
  covers subj := ∃ details, subj = .task (.challenge details)
  may c x := ∀ n, c = .exclusive (.authFailed n) → x.here = true ∧
    x.wrote = [.proxyErrorEpoch] ∧ n = x.now.vars.proxyErrorEpoch + 1
  post subj r x := ∀ details answer, subj = .task (.challenge details) →
    r = .ok (.auth answer) → Handed details answer x
  asks c x h n hc := by
    subst hc
    cases h

theorem Handed.of_not_credentials {answer : AuthResponse}
    (h : ∀ username password, answer ≠ .credentials username password) :
    Handed details answer x :=
  fun _ _ he => absurd he (h _ _)

/-- What the handler has seen of the settings, each at some moment since it began. -/
structure Challenge.Sees (ok : Rules) (c : Challenge) (incognito : Bool)
    (setting : Setting ProxyConfig) (rtc : Setting WebRTCPolicy) (x : Moment) : Prop where
  proxy : ∃ s₁ s₂, Later ok s₁ s₂ ∧ Later ok s₂ x.now ∧ c.start = s₁.vars ∧
    setting = s₂.world.proxy.effective incognito
  webRTC : ∃ s₁ s₂, Later ok s₁ s₂ ∧ Later ok s₂ x.now ∧ c.start = s₁.vars ∧
    rtc = s₂.world.webRTC.effective incognito

/-- A setting seen between two equal readings of the counters is what it was. -/
theorem Later.seen_proxy {s₁ s₂ s : Sys} {incognito : Bool} (h : Later ok s₁ s₂)
    (h' : Later ok s₂ s) (he : s.vars.browserSettingEpoch = s₁.vars.browserSettingEpoch) :
    s.world.proxy.effective incognito = s₂.world.proxy.effective incognito ∧
      s.world.webRTC.effective incognito = s₂.world.webRTC.effective incognito := by
  have hbetween := Later.changes_between h h' he
  obtain ⟨hproxy, hwebRTC⟩ := Later.effective h' (he.trans hbetween.symm)
  rw [hproxy, hwebRTC]
  exact ⟨rfl, rfl⟩

/-- Equal counters carry what the handler has seen to the present. -/
theorem Challenge.Matched.releases {c : Challenge} {incognito : Bool} {l : List JsString}
    {setting : Setting ProxyConfig} {rtc : Setting WebRTCPolicy}
    (h : c.Matched ok w details x) (hcontext : contextOf details = some incognito)
    (hexclusions : configuredExclusions c.data.toConfig = .ok l)
    (hsees : c.Sees ok incognito setting rtc x)
    (hsetting : isEffectiveProxySetting setting (proxyConfigOf c.connection l) = true)
    (hrtc : webRTCIsRestricted rtc = true)
    (hstarts : x.now.vars.configurationEpoch = c.start.configurationEpoch)
    (hchanges : x.now.vars.browserSettingEpoch = c.start.browserSettingEpoch) :
    x.now.Releases details c.connection.username c.connection.password := by
  obtain ⟨s₀, s₁, hr, hboot, h₀₁, h₁, hstart, hdata⟩ := h.seen
  rw [hstart] at hstarts
  -- The flag was down, so nobody held the queue, and nobody has taken it since.
  have hidle₀ : s₀.running = none := by
    have hchanging := hr.disciplined.orderly.changing
    rw [← hstart, h.idle] at hchanging
    simpa using hchanging.symm
  have hstarts₁ := Later.starts_between h₀₁ h₁ hstarts
  have hidle₁ := Later.running_none hr h₀₁ hidle₀ hstarts₁
  have hconfig : x.now.world.storage.toConfig = c.data.toConfig := by
    obtain ⟨new, hpassed⟩ := Later.passed h₁
    rw [hdata]
    refine Later.config (hr.later h₀₁) h₁ (Later.boot_none h₀₁ hboot) ?_ hpassed.trace ?_
    · intro r hrun
      rw [hidle₁] at hrun
      cases hrun
    · intro op owner hmem
      exact absurd hmem (hpassed.no_start (hstarts.trans hstarts₁.symm) op owner)
  have hmatching := h.matching
  simp only [isMatchingProxyChallenge, Bool.and_eq_true, beq_iff_eq] at hmatching
  obtain ⟨⟨-, hhost⟩, hport⟩ := hmatching
  obtain ⟨u₁, u₂, hu, hu', hustart, rfl⟩ := hsees.proxy
  obtain ⟨v₁, v₂, hv, hv', hvstart, rfl⟩ := hsees.webRTC
  refine ⟨Later.running_none hr (Reach.trans h₀₁ h₁) hidle₀ hstarts, ?_, c.connection, l, incognito,
    ?_, rfl, rfl, ?_, hport, hcontext, ?_, ?_⟩
  · have henabled := h.enabled
    rw [← hconfig] at henabled
    cases hon : x.now.world.storage.enabled with
    | none => simp [Config.isEnabled, hon] at henabled
    | some b => simpa [Config.isEnabled, hon] using henabled
  · rw [hconfig]
    exact configured_eq_ok.2 ⟨h.connection, hexclusions⟩
  · cases hchallenger : details.challengerHost with
    | none => simp [hchallenger] at hhost
    | some host => simpa [hchallenger] using hhost
  · rw [(Later.seen_proxy hu hu' (by rw [hchanges, hustart])).1]
    exact (isEffectiveProxySetting_iff _ _ _).1 hsetting
  · rw [(Later.seen_proxy hv hv' (by rw [hchanges, hvstart])).2]
    simp only [webRTCIsRestricted, Bool.and_eq_true, beq_iff_eq] at hrtc
    cases hrestricted : v₂.world.webRTC.effective incognito
    simp_all

theorem requestIncognito_seen (hx : x.Open ok w) :
    wp (historyLogic challengeAccount ok w) (requestIncognito details) (fun r x' =>
      x.Leads ok w x' [] ∧ ∀ incognito, r = .ok (some incognito) →
        contextOf details = some incognito) x := by
  unfold requestIncognito
  split
  · rename_i id hcontext
    refine wp_mono _ (wp_inspect (c := .tabsGet id) rfl (by rintro _ ⟨⟩) (by rintro _ ⟨⟩)) ?_
    rintro r x' ⟨hx', s, -, hlands⟩
    refine ⟨hx', ?_⟩
    rintro incognito rfl
    rw [contextOf, hcontext]
    obtain ⟨o, -, -, hland⟩ := hlands.land
    cases o <;> simp only [World.land, Option.some.injEq, Prod.mk.injEq, reduceCtorEq] at hland
    · exact Except.ok.inj hland.1
    · cases hland.1
  · rename_i hcontext
    refine ⟨.refl hx, fun incognito h => ?_⟩
    rw [contextOf, hcontext]
    exact Except.ok.inj h
  · exact ⟨.refl hx, (by rintro _ ⟨⟩)⟩

theorem bothSettings_seen {c : Challenge} (hx : c.Matched ok w details x) (incognito : Bool) :
    wp (historyLogic challengeAccount ok w) (await (bothSettings incognito)) (fun r x' =>
      c.Matched ok w details x' ∧ ∀ setting rtc, r = .ok (setting, rtc) →
        c.Sees ok incognito setting rtc x') x := by
  obtain ⟨s₀, s₁, -, -, h₀₁, h₁, hstart, -⟩ := hx.seen
  have h₀ := Reach.trans h₀₁ h₁
  refine wp_history_await (wp_bind _ (wp_inspect (c := .order) rfl nofun nofun) ?_ ?_)
  · rintro proxyFirst x₁ ⟨hx₁, -⟩
    split
    · refine wp_bind _ (effectiveSetting_seen incognito) ?_ ?_
      · rintro setting x₂ ⟨hx₂, hsetting⟩
        refine wp_bind _ (webRTCSetting_seen incognito) ?_ ?_
        · rintro rtc x₃ ⟨hx₃, hrtc⟩ x₄ hx₄
          have hx₁₂ := hx₁.trans hx₂
          have hx₁₃ := hx₁₂.trans hx₃
          refine ⟨hx.leads (hx₁₃.trans hx₄), ?_⟩
          rintro _ _ ⟨⟩
          refine ⟨⟨s₀, x₂.now, Reach.trans h₀ hx₁₂.later, (hx₃.trans hx₄).later, hstart,
            hsetting setting rfl⟩, s₀, x₃.now, Reach.trans h₀ hx₁₃.later, hx₄.later, hstart,
            hrtc rtc rfl⟩
        · rintro e x₃ ⟨hx₃, -⟩ x₄ hx₄
          exact ⟨hx.leads (((hx₁.trans hx₂).trans hx₃).trans hx₄), fun _ _ h => by cases h⟩
      · rintro e x₂ ⟨hx₂, -⟩ x₃ hx₃
        exact ⟨hx.leads ((hx₁.trans hx₂).trans hx₃), fun _ _ h => by cases h⟩
    · refine wp_bind _ (webRTCSetting_seen incognito) ?_ ?_
      · rintro rtc x₂ ⟨hx₂, hrtc⟩
        refine wp_bind _ (effectiveSetting_seen incognito) ?_ ?_
        · rintro setting x₃ ⟨hx₃, hsetting⟩ x₄ hx₄
          have hx₁₂ := hx₁.trans hx₂
          have hx₁₃ := hx₁₂.trans hx₃
          refine ⟨hx.leads (hx₁₃.trans hx₄), ?_⟩
          rintro _ _ ⟨⟩
          refine ⟨⟨s₀, x₃.now, Reach.trans h₀ hx₁₃.later, hx₄.later, hstart,
            hsetting setting rfl⟩, s₀, x₂.now, Reach.trans h₀ hx₁₂.later,
            (hx₃.trans hx₄).later, hstart, hrtc rtc rfl⟩
        · rintro e x₃ ⟨hx₃, -⟩ x₄ hx₄
          exact ⟨hx.leads (((hx₁.trans hx₂).trans hx₃).trans hx₄), fun _ _ h => by cases h⟩
      · rintro e x₂ ⟨hx₂, -⟩ x₃ hx₃
        exact ⟨hx.leads ((hx₁.trans hx₂).trans hx₃), fun _ _ h => by cases h⟩
  · rintro e x₁ ⟨hx₁, -⟩ x₂ hx₂
    exact ⟨hx.leads (hx₁.trans hx₂), fun _ _ h => by cases h⟩

theorem recordAuthFailure_handed (hhere : x.here = true) (hwrote : x.wrote = []) :
    wp (historyLogic challengeAccount ok w) recordAuthFailure
      (fun r x' => ∀ answer, r = .ok answer → Handed details answer x') x := by
  refine wp_set_bind trivial (wp_get_bind ?_)
  rintro v x₁ ⟨s, hduring, rfl⟩
  -- The segment has begun at this moment, so the counter is one above what it was.
  obtain rfl := hduring.here hhere
  refine ⟨fun n h => ?_, fun r x₂ _ => ?_⟩
  · cases h
    refine ⟨rfl, ?_, ?_⟩
    · simp [hwrote]
    · rw [hduring.vars]
      simp [hwrote, Write.apply]
  · cases r with
    | error e => exact (by rintro _ ⟨⟩)
    | ok result =>
        rintro answer ⟨⟩
        exact .of_not_credentials (by rintro _ _ ⟨⟩)

theorem releaseCredentials_handed {c : Challenge} {incognito : Bool} {l : List JsString}
    {setting : Setting ProxyConfig} {rtc : Setting WebRTCPolicy}
    (hx : c.Matched ok w details x) (hcontext : contextOf details = some incognito)
    (hexclusions : configuredExclusions c.data.toConfig = .ok l)
    (hsees : c.Sees ok incognito setting rtc x) :
    wp (historyLogic challengeAccount ok w)
      (releaseCredentials details c (proxyConfigOf c.connection l) setting rtc)
      (fun r x' => ∀ answer, r = .ok answer → Handed details answer x') x := by
  refine wp_get_bind ?_
  rintro v x₁ ⟨s, hduring, rfl⟩
  obtain ⟨hread, rfl⟩ := Moment.leads_read hx.isOpen hduring
  split
  · rintro answer ⟨⟩
    exact .of_not_credentials nofun
  · rename_i hsame
    simp only [Bool.or_eq_true, bne_iff_ne, Bool.not_eq_true', not_or, ne_eq, not_not,
      Bool.not_eq_true, Bool.not_eq_false] at hsame
    obtain ⟨⟨⟨⟨-, hstarts⟩, hchanges⟩, hsetting⟩, hrtc⟩ := hsame
    split
    · exact recordAuthFailure_handed rfl hx.isOpen.wrote
    · rename_i hattempt
      refine wp_set_bind trivial ?_
      rintro answer ⟨⟩ username password ⟨⟩
      refine ⟨rfl, ?_, by simpa using hattempt, ?_⟩
      · simp [hx.isOpen.wrote]
      · obtain ⟨⟨u₁, u₂, hu, hu', hsetting'⟩, v₁, v₂, hv, hv', hrtc'⟩ := hsees
        exact (hx.leads hread).releases hcontext hexclusions
          ⟨⟨u₁, u₂, hu, Reach.trans hu' hread.later, hsetting'⟩,
            v₁, v₂, hv, Reach.trans hv' hread.later, hrtc'⟩ hsetting hrtc hstarts hchanges

theorem answerChallenge_handed {c : Challenge} (hx : c.Matched ok w details x) :
    wp (historyLogic challengeAccount ok w) (answerChallenge details c)
      (fun r x' => ∀ answer, r = .ok answer → Handed details answer x') x := by
  refine wp_bind _ (requestIncognito_seen hx.isOpen) ?_ fun _ _ _ => nofun
  rintro incognito x₁ ⟨hx₁, hcontext⟩
  split
  · rintro answer ⟨⟩
    exact .of_not_credentials nofun
  · rename_i incognito
    refine wp_lift_bind (fun l hl => ?_) fun _ _ => nofun
    rw [buildProxyConfig_configured hx.connection (normalizeExclusions_normalized hl)]
    refine wp_lift_bind (fun expected he => ?_) nofun
    cases he
    refine wp_bind _ (bothSettings_seen (hx.leads hx₁) incognito) ?_ fun _ _ _ => nofun
    rintro ⟨setting, rtc⟩ x₂ ⟨hx₂, hsees⟩
    exact releaseCredentials_handed hx₂ (hcontext incognito rfl) hl (hsees setting rtc rfl)

theorem onAuthRequired_handed (hx : x.Open ok w) (hboot : x.now.boot = none) :
    wp (historyLogic challengeAccount ok w) (onAuthRequired details)
      (fun r x' => ∀ answer, r = .ok answer → Handed details answer x') x := by
  have hfirst : wp (historyLogic challengeAccount ok w)
      (tryCatch (matchChallenge details) fun _ => pure (.inl .pass))
      (fun r x' => (∀ answer, r = .ok (.inl answer) → ∀ u p, answer ≠ .credentials u p) ∧
        ∀ c, r = .ok (.inr c) → c.Matched ok w details x') x := by
    refine wp_tryCatch _ (matchChallenge_seen hx hboot) (fun _ _ h => h.2) ?_
    intro e x' _
    exact ⟨by rintro answer ⟨⟩ u p ⟨⟩, fun _ h => by cases h⟩
  refine wp_bind _ hfirst ?_ ?_
  · rintro first x' ⟨hanswer, hmatched⟩
    split
    · rintro answer ⟨⟩
      exact .of_not_credentials (hanswer _ rfl)
    · refine wp_tryCatch _ (answerChallenge_handed (hmatched _ rfl)) (fun _ _ h => h) ?_
      rintro e x'' - answer ⟨⟩
      exact .of_not_credentials nofun
  · exact fun _ _ _ => nofun

/-! ## Every run -/

variable {s s' : Sys} {l : Label} {t : Nat}

/-- A callback that is under way was so before the step, or the step began it. -/
theorem Sys.kind_next {kind : TaskKind} {thread : Thread api Result} (hs : s.next l = some s')
    (h : s'.slot (.task t) = some (.task kind, thread)) :
    (l = .dispatch t ∧ s'.trace = .began t kind :: s.trace) ∨
      l ≠ .restart ∧ l ≠ .dispatch t ∧ ∃ thread, s.slot (.task t) = some (.task kind, thread) := by
  have hparked : ∀ {subj thread}, s.slot (.task t) = some (subj, thread) → l ≠ .dispatch t := by
    rintro subj thread hslot rfl
    obtain ⟨kind, -, hparked, -⟩ := dispatch_eq_some hs
    simp [slot, hparked] at hslot
  cases slotStep hs h with
  | kept ha hr hslot => exact Or.inr ⟨hr, hparked hslot, _, hslot⟩
  | dispatched hb ht => exact Or.inl ⟨rfl, by simp⟩
  | answered hslot hw => exact Or.inr ⟨(by rintro ⟨⟩), (by rintro ⟨⟩), _, hslot⟩
  | suspended hslot hp => exact Or.inr ⟨(by rintro ⟨⟩), (by rintro ⟨⟩), _, hslot⟩
  | settled hr hp hslot => exact Or.inr ⟨(by rintro ⟨⟩), (by rintro ⟨⟩), _, hslot⟩

/-- The trace tells what a callback that is under way handles. -/
theorem Reach.kindOf (h : Reach ok (Sys.init w) s) {kind : TaskKind} {thread : Thread api Result}
    (hslot : s.slot (.task t) = some (.task kind, thread)) :
    BrowserVpn.kindOf t s.trace = some kind := by
  induction h generalizing thread with
  | init => simp [Sys.slot, Sys.init, Sys.fresh] at hslot
  | step _ _ hn ih =>
      rcases Sys.kind_next hn hslot with ⟨rfl, htrace⟩ | ⟨hrestart, hdispatch, _, hslot⟩
      · simp [htrace, BrowserVpn.kindOf]
      · obtain ⟨new, htrace, hof⟩ := Sys.trace_next hn
        rw [htrace]
        refine (Sys.reading_next fun o ho trace => ?_).trans (ih hslot)
        have hlabel := hof o ho
        cases o with
        | restarted => exact absurd hlabel hrestart
        | began t' kind' =>
            have hne : t' ≠ t := by
              rintro rfl
              exact hdispatch hlabel
            simp [BrowserVpn.kindOf, hne]
        | _ => rfl

/-- Callbacks run when `boot` is done. -/
theorem Reach.boot_of_task (h : Reach ok (Sys.init w) s) {a : Actor} {kind : TaskKind}
    {thread : Thread api Result} (hslot : s.slot a = some (.task kind, thread)) :
    s.boot = none ∧ ∃ t, a = .task t := by
  cases a with
  | boot => exact nomatch (Sys.slot_boot hslot).1
  | op =>
      obtain ⟨op, owner, -, he⟩ := Sys.slot_op hslot
      cases he
  | task t =>
      refine ⟨?_, t, rfl⟩
      by_contra hboot
      have hnone := (h.disciplined.orderly.booting (Option.isSome_iff_ne_none.2 hboot)).1 t
      simp [hnone] at hslot

theorem Reach.challenges (h : Reach ok (Sys.init w) s) :
    (historyOutline challengeAccount ok w).Sound s := by
  refine historyOutline_reach ?_ h
  rintro a subj s ⟨details, rfl⟩ hr hslot
  obtain ⟨hboot, -⟩ := hr.boot_of_task hslot
  refine wp_map _ (wp_mono _ (onAuthRequired_handed ⟨hr, rfl, rfl⟩ hboot) ?_)
  rintro r x h details' answer ⟨⟩ hr'
  cases r with
  | error e => cases hr'
  | ok answer' =>
      cases hr'
      exact h answer rfl

/-- A callback that answers a challenge with credentials does so in one segment,
from a state where it may. -/
theorem Reach.handed (h : Reach ok (Sys.init w) s) (hs : s.next (.resume (.task t)) = some s')
    (hkind : BrowserVpn.kindOf t s.trace = some (.challenge details))
    {username password : JsString} (hanswer : s'.trace =
      .ended (.task t) (.ok (.auth (.credentials username password))) :: s.trace) :
    s'.vars.authAttempts = details.requestId :: s.vars.authAttempts ∧
      details.requestId ∉ s.vars.authAttempts ∧ s.Releases details username password ∧
      s'.running = s.running ∧ s'.world = s.world := by
  obtain ⟨subj, p, hslot, ⟨v, c, k, -, rfl⟩ | ⟨v, r, hp, rfl⟩⟩ := Sys.resume_eq_some hs
  · simp at hanswer
  · obtain ⟨kind, -, rfl⟩ := Sys.task_of_slot hslot
    obtain rfl : kind = .challenge details := Option.some.inj ((h.kindOf hslot).symm.trans hkind)
    obtain rfl : r = .ok (.auth (.credentials username password)) := by simpa using hanswer
    obtain ⟨x, ⟨-, -, hduring⟩, hpost⟩ :=
      historyOutline_coherent.finished h.challenges hslot ⟨details, rfl⟩ hp
    obtain ⟨hhere, hwrote, hfresh, hreleases⟩ := hpost details _ rfl rfl username password rfl
    obtain rfl := hduring.here hhere
    have hv : v.authAttempts = details.requestId :: x.now.vars.authAttempts := by
      rw [hduring.vars, hwrote]
      rfl
    exact ⟨hv, hfresh, hreleases, rfl, rfl⟩

/-- A request that was answered stays on the list until it is done. -/
theorem Sys.attempts_next (hs : s.next l = some s') (hl : l ≠ .restart) {id : Nat}
    (hdone : l ≠ .requestDone id) (h : id ∈ s.vars.authAttempts) : id ∈ s'.vars.authAttempts := by
  have hmove : ∀ w, (s.move w).vars.authAttempts = s.vars.authAttempts := by
    intro w
    obtain ⟨n, -, hv⟩ := s.move_vars w
    rw [hv]
  cases l with
  | message sender m =>
      obtain rfl := Option.some.inj hs
      split <;> exact h
  | challenge details =>
      obtain rfl := Option.some.inj hs
      unfold onChallenge
      split <;> exact h
  | others proxy webRTC =>
      obtain rfl := Option.some.inj hs
      rwa [hmove]
  | start =>
      obtain ⟨op, owner, rest, -, -, rfl⟩ := startOp_eq_some hs
      exact h
  | dispatch t =>
      obtain ⟨kind, -, -, rfl⟩ := dispatch_eq_some hs
      exact h
  | land a o =>
      obtain ⟨subj, c, k, r, w, -, -, rfl⟩ := land_eq_some hs
      rwa [answer_vars, hmove]
  | resume a =>
      obtain ⟨subj, p, -, hrun⟩ := resume_eq_some hs
      -- No write of a segment takes an attempt back.
      have hrun' : ∀ {v stop}, p.run s.vars = (v, stop) → id ∈ v.authAttempts := by
        intro v stop hp
        have hrel := Prog.run_rel (A := api) (R := fun u v =>
            id ∈ u.authAttempts → id ∈ v.authAttempts) (fun _ h => h)
          (fun h h' hu => h' (h hu))
          (fun w v => by cases w <;> simp +contextual [Write.apply]) p s.vars
        rw [hp] at hrel
        exact hrel h
      rcases hrun with ⟨v, c, k, hp, rfl⟩ | ⟨v, r, hp, rfl⟩
      · rw [suspend_vars]
        exact hrun' hp
      · obtain ⟨b, hb⟩ := ({ s with vars := v } : Sys).finish_vars a r
        have hv : id ∈ v.authAttempts := hrun' hp
        rw [hb]
        exact hv
  | requestDone id' =>
      obtain rfl := Option.some.inj hs
      have hne : id ≠ id' := fun e => hdone (e ▸ rfl)
      simp [h, hne]
  | proxyError details => exact Option.some.inj hs ▸ h
  | clock now => exact Option.some.inj hs ▸ h
  | restart => exact absurd rfl hl

/-- A request that credentials were handed out for is on the list. -/
theorem Reach.attempts (h : Reach ok (Sys.init w) s) (id : Nat)
    (hid : handedOut id s.trace = true) : id ∈ s.vars.authAttempts := by
  induction h with
  | init => cases hid
  | @step s s' l hr _ hn ih =>
      -- Credentials that were out before are out still.
      have hold : handedOut id s.trace = true → id ∈ s'.vars.authAttempts := by
        refine fun hout => Sys.attempts_next hn ?_ ?_ (ih hout)
        · rintro rfl
          cases Option.some.inj hn
          cases hid
        · rintro rfl
          cases Option.some.inj hn
          simp [handedOut] at hid
      by_cases hl : ∃ a, l = .resume a
      · obtain ⟨a, rfl⟩ := hl
        obtain ⟨o, htrace, hof⟩ := Sys.resume_trace hn
        rw [htrace] at hid
        rcases handedOut_cons hid with hout | ⟨t, u, p, details, rfl, hkind, rfl⟩
        · exact hold hout
        · cases hof
          rw [(hr.handed hn hkind htrace).1]
          exact List.mem_cons_self ..
      · obtain ⟨new, htrace, hof⟩ := Sys.trace_next hn
        rw [htrace] at hid
        refine hold (handedOut_append (fun o ho a r he => ?_) hid)
        subst he
        exact hl ⟨a, hof _ ho⟩

/-- Whenever a challenge is answered with credentials, then at that moment nobody
holds the queue, the configuration is on, the credentials are those of the stored
connection, which is the one that asks, its PAC and the WebRTC restriction are in
force where the request comes from, and this worker has not handed out credentials
for the same request before. -/
theorem credentials_released (h : Reach ok (Sys.init w) s)
    (hs : s.next (.resume (.task t)) = some s')
    (hkind : kindOf t s.trace = some (.challenge details)) {username password : JsString}
    (hanswer : s'.trace =
      .ended (.task t) (.ok (.auth (.credentials username password))) :: s.trace) :
    s'.Releases details username password ∧ handedOut details.requestId s.trace = false := by
  obtain ⟨-, hfresh, hreleases, hrunning, hworld⟩ := h.handed hs hkind hanswer
  refine ⟨⟨hrunning.trans hreleases.idle, ?_, ?_⟩, ?_⟩
  · rw [hworld]
    exact hreleases.enabled
  · rw [hworld]
    exact hreleases.route
  · by_contra hout
    exact hfresh (h.attempts _ (by simpa using hout))

end

section

attribute [local instance] Platform.ascii Browser.sample

/-- The sample proxy asks a tab for credentials. -/
def AuthDetails.sample : AuthDetails where
  requestId := 7
  isProxy := true
  statusCode := 407
  scheme := js "Basic"
  challengerHost := some (js "proxy.test")
  challengerPort := some 443
  tabId := some 1
  initiator := none

/-- A callback answers with credentials. -/
def Obs.isRelease : Obs → Bool
  | .ended _ (.ok (.auth (.credentials ..))) => true
  | _ => false

/-- A worker that has started on an enabled configuration answers its proxy. -/
theorem credentials_released_sample :
    ∃ (s s' : Sys) (details : AuthDetails) (username password : JsString),
      s.next (.resume (.task 1)) = some s' ∧ details.requestId = 7 ∧
        s'.Releases details username password ∧ handedOut 7 s.trace = false := by
  obtain ⟨s, h, hQ⟩ := Reach.of_follow (fun _ _ => true) (World.sample (.free .system))
    (turns .boot 46 ++ [.resume .boot, .challenge .sample, .dispatch 1] ++ turns (.task 1) 3 ++
      [.resume (.task 1), .land (.task 1) (.flag true)] ++ turns (.task 1) 3)
    (fun s => (kindOf 1 s.trace).any (TaskKind.isChallengeOf 7) = true ∧
      (s.next (.resume (.task 1))).any (fun s' => s'.trace.head?.any Obs.isRelease) = true)
    (by decide +kernel)
  obtain ⟨hkind, hnext⟩ := hQ
  obtain ⟨kind, hkind, hof⟩ := (Option.any_eq_true _ _).1 hkind
  obtain ⟨s', hs, hrelease⟩ := (Option.any_eq_true _ _).1 hnext
  obtain ⟨details, rfl⟩ : ∃ details, kind = .challenge details := by
    cases kind <;> first | exact ⟨_, rfl⟩ | cases hof
  have hid : details.requestId = 7 := by simpa [TaskKind.isChallengeOf] using hof
  obtain ⟨username, password, htrace⟩ : ∃ username password, s'.trace =
      .ended (.task 1) (.ok (.auth (.credentials username password))) :: s.trace := by
    obtain ⟨subj, p, -, ⟨v, c, k, -, rfl⟩ | ⟨v, r, -, rfl⟩⟩ := Sys.resume_eq_some hs
    · simp [Obs.isRelease] at hrelease
    · rw [Sys.finish_trace] at hrelease ⊢
      rcases r with e | (_ | _ | _ | _ | (⟨username, password⟩ | _ | _)) <;>
        first | exact ⟨_, _, rfl⟩ | cases hrelease
  obtain ⟨hreleases, hout⟩ := credentials_released h hs hkind htrace
  exact ⟨s, s', details, username, password, hs, hid, hreleases, hid ▸ hout⟩

end

end BrowserVpn
