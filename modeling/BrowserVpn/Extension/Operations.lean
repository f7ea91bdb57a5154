import BrowserVpn.Extension.Route

/-!
# Extension.Operations — what each operation leaves behind

One specification for each operation of the queue that changes the
configuration or the settings: from a safe view it leaves a safe view, whatever
throws on the way. `Safe` is the invariant between operations.
-/

namespace BrowserVpn

open Async

namespace Rules

variable [Platform] [Browser] (ok : Rules)

/-- Questions are answered, and no rollback resolves its `set` while
`ownProxyClearedForConflict` is up. -/
def Strict : Prop := ok.Answers ∧ ok.Guarded

end Rules

section

variable [Platform] [Browser] {ok : Rules} {α β : Type} {x : RouteView} {P : Prop}

namespace RouteView

/-- The invariant between operations: there is no PAC of this extension, or it
is the one of the stored configuration and WebRTC is restricted. In strict runs
incognito windows have it as well, and the conflict flag is down. -/
def Safe (ok : Rules) (x : RouteView) : Prop :=
  x.proxy = none ∨ ∃ c l, x.config.Enabled c l ∧ x.proxy = some (proxyConfigOf c l) ∧
    x.Restricted ∧ (ok.Strict → x.cleared = false ∧ x.Carries (proxyConfigOf c l))

/-- `Safe`, and in runs that `P` selects `Recovered` as well. -/
abbrev Kept (ok : Rules) (P : Prop) (x : RouteView) : Prop := x.Safe ok ∧ (P → x.Recovered)

theorem Settled.safe (h : x.Settled) : x.Safe ok := by
  rcases h with hnone | ⟨c, l, h⟩
  · exact Or.inl hnone
  · exact Or.inr ⟨c, l, h.enabled, h.proxy, h.restricted, fun _ => ⟨h.cleared, h.carries⟩⟩

/-- Not enabled, and no PAC. -/
def Down (x : RouteView) : Prop := x.proxy = none ∧ x.config.enabled = some false

theorem Down.safe (h : x.Down) : x.Safe ok := Or.inl h.1

/-- What is not enabled asks for nothing. -/
theorem Down.recovered (h : x.Down) : x.Recovered :=
  recovered_of_not_enabled (by rw [Config.isEnabled, h.2]; rfl)

theorem Safe.watch (h : x.Safe ok) {p q : Prop} (hp : p → x.proxyCalm) (hq : q → x.webRTCCalm) :
    (x.watch p q).Safe ok := by
  rcases h with hnone | ⟨c, l, henabled, hproxy, hrestricted, hstrict⟩
  · exact Or.inl hnone
  · exact Or.inr ⟨c, l, henabled, hproxy, fun hcalm => hrestricted (hq hcalm),
      fun hs => ⟨(hstrict hs).1, fun hcalm => (hstrict hs).2 (hp hcalm)⟩⟩

end RouteView

/-! ## Sequences that end without a PAC -/

/-- `await updateBadge(); return status();` at the end of an operation. -/
theorem badgeAndStatus_spec :
    Questions ok (await updateBadge >>= fun _ => status) :=
  questions_updateBadge.await.bind fun _ => questions_status

theorem importKey_spec (key : JsVal) (h : x.Safe ok)
    (hr : P → x.Recovered) :
    wp (routeLogic ok) (importKey key) (fun _ x' => x'.Kept ok P) x := by
  refine wp_lift_bind (fun connection _ => ?_) fun _ _ => ⟨h, hr⟩
  refine wp_bind _ (storageSet_spec _) ?_ (by rintro e _ ⟨⟨⟩, -⟩)
  rintro ⟨⟩ _ ⟨-, rfl⟩
  refine wp_bind _ clearOwnSettings_spec ?_ (by rintro e _ ⟨⟨⟩, -⟩)
  rintro ⟨⟩ _ ⟨-, rfl⟩
  refine wp_bind _ (storageSet_spec _) ?_ (by rintro e _ ⟨⟨⟩, -⟩)
  rintro ⟨⟩ _ ⟨-, rfl⟩
  refine wp_mono _ (badgeAndStatus_spec _) ?_
  rintro r _ ⟨a, b, rfl, -⟩
  exact ⟨RouteView.Down.safe ⟨rfl, rfl⟩, fun _ => RouteView.Down.recovered ⟨rfl, rfl⟩⟩

/-- `disconnect` leaves nothing enabled and nothing set. -/
theorem disconnect_spec :
    wp (routeLogic ok) disconnect (fun _ x' => x'.Down) x := by
  refine wp_set_bind trivial (wp_set_bind trivial ?_)
  refine wp_bind _ (storageSet_spec _) ?_ (by rintro e _ ⟨⟨⟩, -⟩)
  rintro ⟨⟩ _ ⟨-, rfl⟩
  refine wp_bind _ clearOwnSettings_spec ?_ (by rintro e _ ⟨⟨⟩, -⟩)
  rintro ⟨⟩ _ ⟨-, rfl⟩
  refine wp_mono _ (badgeAndStatus_spec _) ?_
  rintro r _ ⟨a, b, rfl, -⟩
  exact ⟨rfl, rfl⟩

theorem forget_spec :
    wp (routeLogic ok) forget (fun _ x' => x'.Safe ok ∧ x'.Recovered) x := by
  refine wp_await_bind disconnect_spec ?_ fun _ _ h => ⟨h.safe, h.recovered⟩
  intro _ x₁ h
  refine wp_bind _ (wp_route_call .storageRemove) ?_ (by rintro e _ ⟨⟨⟩, -⟩)
  rintro ⟨⟩ _ ⟨-, rfl⟩
  refine wp_mono _ (badgeAndStatus_spec _) ?_
  rintro r _ ⟨a, b, rfl, -⟩
  exact ⟨RouteView.Down.safe h, RouteView.Down.recovered h⟩

/-! ## `connect` -/

section Connection

variable {c : Connection} {l : List JsString}

/-- What follows from a PAC that was set and verified everywhere, or from the
failure to do so. -/
def SetAndVerified (ok : Rules) (c : Connection) (l : List JsString) (x : RouteView)
    (r : Except String Unit) (x' : RouteView) : Prop :=
  ∃ own p q, x' = x.adjust own x.webRTC (x.attempts + 1) p q ∧
    (p → x.proxyCalm) ∧ (q → x.webRTCCalm) ∧
    (r = .ok () → own = some (proxyConfigOf c l) ∧ (q → x.RestrictedSeen) ∧
      (p → Browser.incognitoAllowed = true →
        x.proxySeen true = ⟨.controlledByThisExtension, proxyConfigOf c l⟩) ∧
      (ok.Guarded → 1 ≤ x.attempts → x.cleared = false)) ∧
    (∀ e, r = .error e → ok.Answers → ok.Honours → x.Inherits → p → q → x.RestrictedSeen →
      ¬ x.ProxyFree)

omit [Platform] in
/-- The tail that `connect`, `saveExclusions` and its rollback share: set the
PAC and verify everything. It returns only with the whole route in force. -/
theorem setAndVerify_spec (m₁ m₂ m₃ : String) :
    wp (routeLogic ok)
      (do setProxy (proxyConfigOf c l) m₁
          ensureIncognitoProxy (proxyConfigOf c l) m₂
          ensureRestricted m₃)
      (SetAndVerified ok c l x) x := by
  refine wp_bind _ (setProxy_spec m₁) ?_ ?_
  · rintro ⟨⟩ _ ⟨own, p₁, rfl, hp₁, hdone, -⟩
    obtain ⟨hown, hseen, hguard⟩ := hdone rfl
    refine wp_bind _ (ensureIncognitoProxy_spec m₂) ?_ ?_
    · rintro ⟨⟩ _ ⟨p₂, rfl, hp₂, hcarries, -⟩
      refine wp_mono _ (ensureRestricted_spec m₃) ?_
      rintro r _ ⟨q, rfl, hq, hrestricted, hlost⟩
      refine ⟨own, p₂, q, rfl, fun h => hp₁ (hp₂ h), hq,
        fun hr => ⟨hown, hrestricted hr, hcarries rfl, hguard⟩, ?_⟩
      exact fun e he ha _ _ _ hcalm hr => absurd hr (hlost e he ha hcalm)
    · rintro e _ ⟨p₂, rfl, hp₂, -, hfailed⟩
      refine ⟨own, p₂, x.webRTCCalm, rfl, fun h => hp₁ (hp₂ h), id, nofun, ?_⟩
      rintro e he ha - hinherits hcalm - - hfree
      obtain ⟨hallowed, hne⟩ := hfailed e he ha hcalm
      exact hne ((hinherits.1 (hfree.2 hallowed)).trans (hseen (hp₂ hcalm)))
  · rintro e _ ⟨own, p₁, rfl, hp₁, -, hfailed⟩
    refine ⟨own, p₁, x.webRTCCalm, rfl, hp₁, id, nofun, ?_⟩
    exact fun e he ha hh _ hcalm _ _ hfree => hfailed e he ha hh hcalm hfree.1

omit [Platform] in
/-- The `try` of `connect` returns only with the whole route in force. -/
theorem establishRoute_spec :
    wp (routeLogic ok) (establishRoute (proxyConfigOf c l)) (fun r x' => ∃ own rtc n p q,
      x' = x.adjust own rtc n p q ∧ (p → x.proxyCalm) ∧ (q → x.webRTCCalm) ∧
      (r = .ok () → own = some (proxyConfigOf c l) ∧ (q → x.RestrictedSeen) ∧
        (p → Browser.incognitoAllowed = true →
          x.proxySeen true = ⟨.controlledByThisExtension, proxyConfigOf c l⟩))) x := by
  refine wp_bind _ (wp_route_call (.webRTCSet _)) ?_ ?_
  · rintro ⟨⟩ _ ⟨rtc₁, q₁, rfl, hq₁, -⟩
    refine wp_await_bind (webRTCSetting_spec false) ?_ ?_
    · rintro rtc _ ⟨q₂, rfl, hq₂, -, -⟩
      refine wp_ensure_bind (fun _ => ?_) (fun _ => ?_)
      · refine wp_bind _ ensureIncognitoWebRTC_spec ?_ ?_
        · rintro ⟨⟩ _ ⟨q₃, rfl, hq₃, -, -⟩
          refine wp_mono _ (setAndVerify_spec _ _ _) ?_
          rintro r _ ⟨own, p, q, rfl, hp, hq, hdone, -⟩
          refine ⟨own, rtc₁, _, p, q, rfl, hp, fun h => hq₁ (hq₂ (hq₃ (hq h))), fun hr => ?_⟩
          obtain ⟨hown, hrestricted, hcarries, -⟩ := hdone hr
          exact ⟨hown, hrestricted, hcarries⟩
        · rintro e _ ⟨q₃, rfl, hq₃, -, -⟩
          exact ⟨_, _, _, _, q₃, rfl, id, fun h => hq₁ (hq₂ (hq₃ h)), nofun⟩
      · exact ⟨_, _, _, _, q₂, rfl, id, fun h => hq₁ (hq₂ h), nofun⟩
    · rintro e _ ⟨q₂, rfl, hq₂, -⟩
      exact ⟨_, _, _, _, q₂, rfl, id, fun h => hq₁ (hq₂ h), nofun⟩
  · rintro e _ ⟨rtc₁, q₁, rfl, hq₁, -⟩
    exact ⟨_, _, _, _, q₁, rfl, id, hq₁, nofun⟩

/-- The `catch` of `connect` throws, with both settings given up. -/
theorem abandonRoute_spec (error : String) :
    wp (routeLogic ok) (abandonRoute error) (fun r x' => r ≠ .ok () ∧ x'.Down) x := by
  refine wp_bind _ (storageSet_spec _) ?_ (by rintro e _ ⟨⟨⟩, -⟩)
  rintro ⟨⟩ _ ⟨-, rfl⟩
  refine wp_bind _ clearOwnSettings_spec ?_ (by rintro e _ ⟨⟨⟩, -⟩)
  rintro ⟨⟩ _ ⟨-, rfl⟩
  refine wp_bind _ await_updateBadge_spec ?_ ?_
  · rintro ⟨⟩ _ ⟨a, b, rfl, -⟩
    exact ⟨nofun, rfl, rfl⟩
  · rintro e _ ⟨a, b, rfl, -⟩
    exact ⟨nofun, rfl, rfl⟩

/-- The `try` and the `catch` of `connect`. -/
theorem tryConnect_spec :
    wp (routeLogic ok) (tryCatch (establishRoute (proxyConfigOf c l)) abandonRoute)
      (fun r x' => (r = .ok () → ∃ rtc n p q,
          x' = x.adjust (some (proxyConfigOf c l)) rtc n p q ∧ (q → x.RestrictedSeen) ∧
          (p → Browser.incognitoAllowed = true →
            x.proxySeen true = ⟨.controlledByThisExtension, proxyConfigOf c l⟩)) ∧
        (r ≠ .ok () → x'.Down)) x := by
  refine wp_tryCatch _ establishRoute_spec ?_ ?_
  · rintro ⟨⟩ _ ⟨own, rtc, n, p, q, rfl, -, -, hdone⟩
    obtain ⟨rfl, hrestricted, hcarries⟩ := hdone rfl
    exact ⟨fun _ => ⟨rtc, n, p, q, rfl, hrestricted, hcarries⟩, fun h => absurd rfl h⟩
  · rintro e x₁ -
    exact wp_mono _ (abandonRoute_spec e) fun r x' ⟨hr, hx⟩ => ⟨fun h => absurd h hr, fun _ => hx⟩

section

omit [Platform]

/-- `refuse` throws, with the PAC given up. -/
theorem refuse_spec (message : String) :
    wp (routeLogic ok) (refuse message) (fun r x' => r ≠ .ok () ∧
      x' = x.adjust none x.webRTC x.attempts x.proxyCalm x.webRTCCalm) x := by
  refine wp_await_bind clearOwnProxySetting_spec ?_ (by rintro e _ ⟨⟨⟩, -⟩)
  rintro ⟨⟩ _ ⟨-, rfl⟩
  exact ⟨nofun, rfl⟩

/-- A guard clause that gives up the PAC. -/
theorem wp_refuse_bind {b : Bool} {message : String} {f : Unit → Js β}
    {Q : Except String β → RouteView → Prop} (h : b = false → wp (routeLogic ok) (f ()) Q x)
    (h' : b = true → ∀ e,
      Q (.error e) (x.adjust none x.webRTC x.attempts x.proxyCalm x.webRTCCalm)) :
    wp (routeLogic ok) (when b (refuse message) >>= f) Q x := by
  refine wp_when_bind (fun hb => ?_) h
  refine wp_bind _ (refuse_spec message) ?_ ?_
  · rintro ⟨⟩ _ ⟨hr, -⟩
    exact absurd rfl hr
  · rintro e _ ⟨-, rfl⟩
    exact h' hb e

theorem whenClear_spec {b : Bool} :
    wp (routeLogic ok) (when b (await clearOwnProxySetting)) (fun r x' => r = .ok () ∧ ∃ own,
      x' = x.adjust own x.webRTC x.attempts x.proxyCalm x.webRTCCalm) x := by
  refine wp_when (fun _ => wp_await ?_) fun _ => ⟨rfl, x.proxy, rfl⟩
  exact wp_mono _ clearOwnProxySetting_spec fun _ _ ⟨hr, hx⟩ => ⟨hr, none, hx⟩

end

theorem enableRoute_spec {rtc : Setting WebRTCPolicy}
    (h : configured x.config = .ok (some c, l)) :
    wp (routeLogic ok) (enableRoute (proxyConfigOf c l) rtc) (fun _ x' =>
      x'.Safe ok ∧ x'.Recovered) x := by
  refine wp_bind _ whenClear_spec ?_ (by rintro e _ ⟨⟨⟩, -⟩)
  rintro ⟨⟩ _ ⟨-, own, rfl⟩
  refine wp_bind _ (storageSet_spec _) ?_ (by rintro e _ ⟨⟨⟩, -⟩)
  rintro ⟨⟩ _ ⟨-, rfl⟩
  refine wp_bind _ tryConnect_spec ?_ ?_
  · rintro ⟨⟩ x₁ ⟨hdone, -⟩
    obtain ⟨rtc, n, p, q, rfl, hrestricted, hcarries⟩ := hdone rfl
    refine wp_set_bind trivial (wp_set_bind trivial (wp_mono _ (badgeAndStatus_spec _) ?_))
    rintro r _ ⟨a, b, rfl, ha, hb, -⟩
    refine ⟨Or.inr ⟨c, l, ⟨rfl, h⟩, rfl, fun hcalm => hrestricted (hb hcalm),
      fun _ => ⟨rfl, fun hcalm => hcarries (ha hcalm)⟩⟩, fun _ => ⟨c, l, rfl, h⟩,
      fun _ _ _ hcalm _ => ?_, ?_⟩
    · exact (hrestricted (hb hcalm)).1
    · exact fun _ _ _ _ _ _ _ => nofun
  · rintro e x₁ ⟨-, hdown⟩
    exact ⟨(hdown nofun).safe, (hdown nofun).recovered⟩

omit [Browser] in
theorem requireConnection_eq_ok {data : Config} {message : String}
    (h : requireConnection data message = .ok c) : configuredConnection data = .ok (some c) := by
  rw [requireConnection] at h
  rcases hc : configuredConnection data with e | connection
  · simp [hc, bind, Except.bind] at h
  · cases connection with
    | none => simp [hc, bind, Except.bind, throw, throwThe, MonadExceptOf.throw] at h
    | some c' =>
        obtain rfl : c' = c := by simpa [hc, bind, Except.bind, Pure.pure, Except.pure] using h
        rfl

theorem connect_spec (hP : P → ok.Answers ∧ ok.Honours ∧ x.Inherits) (h : x.Safe ok)
    (hr : P → x.Recovered) :
    wp (routeLogic ok) connect (fun _ x' => x'.Kept ok P) x := by
  refine wp_await_bind stored_spec ?_ (by rintro e _ ⟨-, data, ⟨⟩, -⟩)
  rintro data x ⟨rfl, _, ⟨⟩, hdata⟩
  rw [hdata]
  refine wp_lift_bind (fun c hc => ?_) fun _ _ => ⟨h, hr⟩
  have hc := requireConnection_eq_ok hc
  refine wp_lift_bind (fun l hl => ?_) fun _ _ => ⟨h, hr⟩
  have hstored : configured x.config = .ok (some c, l) := configured_eq_ok.2 ⟨hc, hl⟩
  -- A guard gives up the PAC only where somebody else holds a setting.
  have hgives : ∀ {p q : Prop}, (p → x.proxyCalm) → (q → x.webRTCCalm) →
      (ok.Answers → p → q → x.ProxyFree → ¬ x.WebRTCFree) →
      (x.adjust none x.webRTC x.attempts p q).Safe ok ∧ (P →
        (x.adjust none x.webRTC x.attempts p q).Recovered) := fun hp hq hheld =>
    ⟨Or.inl rfl, fun hc₀ =>
      ⟨(hr hc₀).sound, fun c l henabled hcalm => (hr hc₀).webRTC c l henabled (hq hcalm),
        fun _ _ _ hcalm hcalm' hfree hfree' => absurd hfree' (hheld (hP hc₀).1 hcalm hcalm' hfree)⟩⟩
  refine wp_await_bind (effectiveSetting_spec false) ?_ ?_
  · rintro setting _ ⟨p₁, rfl, hp₁, -, hsetting⟩
    have hvalue : p₁ → setting = x.proxySeen false := (hsetting _ rfl).1
    refine wp_refuse_bind (fun _ => ?_) fun hb e => hgives hp₁ id fun _ hcalm _ hfree _ => ?_
    · rw [buildProxyConfig_configured hc (normalizeExclusions_normalized hl)]
      refine wp_await_bind (incognitoProxyState_spec (proxyConfigOf c l)) ?_
        (by rintro e _ ⟨st, p, ⟨⟩, -⟩)
      rintro st _ ⟨_, p₂, ⟨⟩, rfl, hp₂, -, hst⟩
      have hp : p₂ → x.proxyCalm := fun hcalm => hp₁ (hp₂ hcalm)
      refine wp_refuse_bind (fun _ => ?_) fun hb e => hgives hp id fun ha hcalm _ hfree _ => ?_
      · refine wp_await_bind (webRTCSetting_spec false) ?_ ?_
        · rintro rtc _ ⟨q, rfl, hq, -, hrtc⟩
          have hvalue : q → rtc = x.webRTCSeen false := hrtc _ rfl
          refine wp_refuse_bind (fun _ => ?_) fun hb e => hgives hp hq fun _ _ hcalm _ hfree => ?_
          · exact wp_mono _ (enableRoute_spec hstored) fun _ _ ⟨hs, hr⟩ => ⟨hs, fun _ => hr⟩
          · have hctrl := hfree.1
            rw [← hvalue hcalm] at hctrl
            simp [hctrl] at hb
        · rintro e _ ⟨q, rfl, hq, hans, -⟩
          exact ⟨h.watch hp hq, fun hc₀ => not_error (hans (hP hc₀).1)⟩
      · rw [hst ha hcalm, incognitoStateOf] at hb
        split at hb
        · rename_i hallowed
          have hctrl : (x.proxySeen true).levelOfControl.controllable = true := hfree.2 hallowed
          exact absurd hctrl (by simpa using hb)
        · cases hb
    · have hctrl := hfree.1
      rw [← hvalue hcalm] at hctrl
      simp [hctrl] at hb
  · rintro e _ ⟨p₁, rfl, hp₁, hans, -⟩
    exact ⟨h.watch hp₁ id, fun hc₀ => not_error (hans (hP hc₀).1)⟩

/-! ## `saveExclusions` -/

/-- What the guards of `saveExclusions` leave behind. They let the operation go
on only with the settings untouched and WebRTC restricted. -/
theorem checkRoute_spec (hP : P → ok.Answers ∧ ok.Honours ∧ x.Inherits)
    (hc : configuredConnection x.config = .ok (some c)) (h : x.Safe ok) (hr : P → x.Recovered) :
    wp (routeLogic ok) (checkRoute c x.config) (fun r x' =>
      (r = .ok () → ∃ p q, x' = x.watch p q ∧ (p → x.proxyCalm) ∧ (q → x.webRTCCalm) ∧
        (q → x.RestrictedSeen) ∧ ∃ l, configured x.config = .ok (some c, l)) ∧
      (∀ e, r = .error e → x'.Kept ok P)) x := by
  refine wp_await_bind (effectiveSetting_spec false) ?_ ?_
  · rintro setting _ ⟨p₁, rfl, hp₁, -, hsetting⟩
    have hvalue : p₁ → setting = x.proxySeen false := (hsetting _ rfl).1
    refine wp_refuse_bind (fun hcontrol => ?_) fun hheld e => ⟨(by rintro ⟨⟩), fun _ _ => ⟨Or.inl rfl,
      fun hc₀ => ⟨(hr hc₀).sound, (hr hc₀).webRTC, fun _ _ _ hcalm _ hfree _ => ?_⟩⟩⟩
    · refine wp_await_bind webRTCIsRestrictedInAllEnabledContexts_spec ?_ ?_
      · rintro restricted _ ⟨q, rfl, hq, -, hrestricted, hfailed⟩
        have hfailed : restricted = false → ok.Answers → q → ¬ x.RestrictedSeen :=
          fun hb => hfailed (by rw [hb])
        refine wp_refuse_bind (fun hb => ?_) fun hb e => ⟨(by rintro ⟨⟩), fun _ _ => ⟨Or.inl rfl,
          fun hc₀ => ⟨(hr hc₀).sound, fun c l henabled hcalm => (hr hc₀).webRTC c l henabled (hq hcalm),
            fun c l henabled hcalm hcalm' _ hfree => ?_⟩⟩⟩
        · have hrestricted : q → x.RestrictedSeen := hrestricted (by simpa using hb)
          refine wp_lift_bind (fun l hl => ?_) fun e he => ?_
          · rw [buildProxyConfig_configured hc (normalizeExclusions_normalized hl)]
            refine wp_await_bind (incognitoProxyState_spec (proxyConfigOf c l)) ?_
              (by rintro e _ ⟨st, p, ⟨⟩, -⟩)
            rintro st _ ⟨_, p₂, ⟨⟩, rfl, hp₂, -, hst⟩
            refine wp_when (fun hnot => ?_) fun _ => ?_
            · refine wp_set_bind trivial (wp_mono _ (refuse_spec _) ?_)
              rintro r _ ⟨hne, rfl⟩
              refine ⟨fun hr => absurd hr hne, fun _ _ => ⟨Or.inl rfl, fun hc₀ =>
                ⟨(hr hc₀).sound, fun c l henabled hcalm => (hr hc₀).webRTC c l henabled (hq hcalm),
                  fun _ _ _ hcalm _ hfree _ => ?_⟩⟩⟩
              rw [hst (hP hc₀).1 hcalm, incognitoStateOf] at hnot
              split at hnot
              · rename_i hallowed
                have hctrl : (x.proxySeen true).levelOfControl.controllable = true :=
                  hfree.2 hallowed
                exact absurd hctrl (by simpa using hnot)
              · cases hnot
            · refine ⟨fun _ => ⟨p₂, q, rfl, fun hp => hp₁ (hp₂ hp), hq, hrestricted, l,
                configured_eq_ok.2 ⟨hc, hl⟩⟩, (by rintro _ ⟨⟩)⟩
          · refine ⟨(by rintro ⟨⟩), fun _ _ => ⟨h.watch hp₁ hq, fun hc₀ => (hr hc₀).watch hp₁ hq⟩⟩
        · have hregular := (hr hc₀).webRTC c l henabled (hq hcalm') hfree
          refine absurd ⟨hregular, fun hallowed => ?_⟩ (hfailed (by simpa using hb) (hP hc₀).1 hcalm')
          rw [(hP hc₀).2.2.2 (hfree.2 hallowed)]
          exact hregular
      · rintro e _ ⟨q, rfl, hq, hans, -⟩
        exact ⟨(by rintro ⟨⟩), fun _ _ => ⟨h.watch hp₁ hq, fun hc₀ => not_error (hans (hP hc₀).1)⟩⟩
    · have hctrl : (x.proxySeen false).levelOfControl.controllable = true := hfree.1
      rw [← hvalue hcalm] at hctrl
      exact absurd hctrl (by simpa using hheld)
  · rintro e _ ⟨p₁, rfl, hp₁, hans, -⟩
    exact ⟨(by rintro ⟨⟩), fun _ _ => ⟨h.watch hp₁ id, fun hc₀ => not_error (hans (hP hc₀).1)⟩⟩

/-- The inner `try` of the rollback returns only with the previous route in
force. -/
theorem restorePrevious_spec {old : Config} (h : configured old = .ok (some c, l)) :
    wp (routeLogic ok) (restorePrevious c old) (fun r x' => ∃ own n p q,
      x' = x.adjust own x.webRTC n p q ∧ (p → x.proxyCalm) ∧ (q → x.webRTCCalm) ∧
      (r = .ok () → own = some (proxyConfigOf c l) ∧ (q → x.RestrictedSeen) ∧
        (p → Browser.incognitoAllowed = true →
          x.proxySeen true = ⟨.controlledByThisExtension, proxyConfigOf c l⟩) ∧
        (ok.Guarded → 1 ≤ x.attempts → x.cleared = false))) x := by
  obtain ⟨hc, hl⟩ := configured_eq_ok.1 h
  unfold restorePrevious
  rw [hl]
  refine wp_lift_bind (fun l' hl' => ?_) nofun
  cases hl'
  rw [buildProxyConfig_configured hc (normalizeExclusions_normalized hl)]
  refine wp_lift_bind (fun previous hprevious => ?_) nofun
  cases hprevious
  refine wp_bind _ (ensureRestricted_spec _) ?_ ?_
  · rintro ⟨⟩ _ ⟨q₁, rfl, hq₁, -, -⟩
    refine wp_await_bind (incognitoProxyState_spec (proxyConfigOf c l)) ?_
      (by rintro e _ ⟨st, p, ⟨⟩, -⟩)
    rintro st _ ⟨_, p₁, ⟨⟩, rfl, hp₁, -⟩
    refine wp_ensure_bind (fun _ => ?_) fun _ => ?_
    · refine wp_mono _ (setAndVerify_spec _ _ _) ?_
      rintro r _ ⟨own, p, q, rfl, hp, hq, hdone, -⟩
      exact ⟨own, _, p, q, rfl, fun h => hp₁ (hp h), fun h => hq₁ (hq h), hdone⟩
    · exact ⟨_, _, p₁, q₁, rfl, hp₁, hq₁, nofun⟩
  · rintro e _ ⟨q₁, rfl, hq₁, -⟩
    exact ⟨_, _, _, q₁, rfl, id, hq₁, nofun⟩

/-- The rollback throws, with the previous route in force or no PAC at all. -/
theorem rollbackExclusions_spec {old : Config} (error : String)
    (h : configured old = .ok (some c, l)) (henabled : x.config.isEnabled = true)
    (hconnection : x.config.connection = old.connection) (hattempts : 1 ≤ x.attempts)
    (hfailed : P → x.proxyCalm → x.webRTCCalm →
      x.WebRTCFree → ¬ x.ProxyFree)
    (hwebRTC : P → x.webRTCCalm → x.WebRTCFree →
      webRTCIsRestricted (x.webRTCSeen false) = true) :
    wp (routeLogic ok) (rollbackExclusions c old error) (fun r x' =>
      r ≠ .ok () ∧ x'.Kept ok P) x := by
  refine wp_bind _ (storageSet_spec _) ?_ (by rintro e _ ⟨⟨⟩, -⟩)
  rintro ⟨⟩ _ ⟨-, rfl⟩
  obtain ⟨hc, hl⟩ := configured_eq_ok.1 h
  have hstored : ({ x.config with exclusions := some (old.exclusions.getD []) } : Config).Enabled
      c l := by
    refine ⟨henabled, configured_eq_ok.2 ⟨?_, hl⟩⟩
    rw [← hc]
    simp only [configuredConnection, hconnection]
  refine wp_bind _ (M := fun r x' => r = .ok () ∧ x'.Kept ok P) ?_ ?_ (by rintro e _ ⟨⟨⟩, -⟩)
  · refine wp_tryCatch _ (restorePrevious_spec h) ?_ ?_
    · rintro ⟨⟩ _ ⟨own, n, p, q, rfl, hp, hq, hdone⟩
      obtain ⟨hown, hrestricted, hcarries, hguard⟩ := hdone rfl
      refine ⟨rfl, Or.inr ⟨c, l, hstored, hown, hrestricted,
        fun hs => ⟨hguard hs.2 hattempts, hcarries⟩⟩, fun hc₀ => ⟨fun _ => ⟨c, l, hstored⟩, ?_, ?_⟩⟩
      · exact fun _ _ _ hcalm => hwebRTC hc₀ (hq hcalm)
      · exact fun _ _ _ _ _ _ _ => by simp [hown]
    · rintro e _ ⟨own, n, p, q, rfl, hp, hq, -⟩
      refine wp_mono _ attempt_clear_spec ?_
      rintro r _ ⟨rfl, rfl⟩
      refine ⟨rfl, Or.inl rfl, fun hc₀ => ⟨fun _ => ⟨c, l, hstored⟩, ?_, ?_⟩⟩
      · exact fun _ _ _ hcalm => hwebRTC hc₀ (hq hcalm)
      · exact fun _ _ _ hcalm hcalm' hfree hfree' =>
          absurd hfree (hfailed hc₀ (hp hcalm) (hq hcalm') hfree')
  · rintro ⟨⟩ x₁ ⟨-, hsafe, hrecovered⟩
    refine wp_bind _ await_updateBadge_spec ?_ ?_
    · rintro ⟨⟩ _ ⟨a, b, rfl, ha, hb, -⟩
      exact ⟨(by rintro ⟨⟩), hsafe.watch ha hb, fun h => (hrecovered h).watch ha hb⟩
    · rintro e _ ⟨a, b, rfl, ha, hb, -⟩
      exact ⟨(by rintro ⟨⟩), hsafe.watch ha hb, fun h => (hrecovered h).watch ha hb⟩

theorem applyExclusions_spec {data : Config} (h : data.Enabled c l) :
    wp (routeLogic ok) (applyExclusions c l) (SetAndVerified ok c l x) x := by
  obtain ⟨hc, hl⟩ := h.valid
  unfold applyExclusions
  rw [buildProxyConfig_toJs hc hl]
  refine wp_lift_bind (fun expected he => ?_) nofun
  cases he
  exact setAndVerify_spec _ _ _

/-- The `try` and the `catch` of `saveExclusions`, once the new exclusions are
stored. -/
theorem tryExclusions_spec {old : Config} {l' : List JsString}
    (hP : P → ok.Answers ∧ ok.Honours ∧ x.Inherits)
    (hold : configured old = .ok (some c, l)) (hconnection : x.config.connection = old.connection)
    (hstored : x.config.Enabled c l') (hrestricted : x.webRTCCalm → x.RestrictedSeen) :
    wp (routeLogic ok) (tryCatch (applyExclusions c l') (rollbackExclusions c old)) (fun r x' =>
      (r = .ok () → (routeWrite (.ownProxyClearedForConflict false) x').Settled ∧ x'.Recovered) ∧
      (∀ e, r = .error e → x'.Kept ok P)) x := by
  refine wp_tryCatch _ (applyExclusions_spec hstored) ?_ ?_
  · rintro ⟨⟩ _ ⟨own, p, q, rfl, hp, hq, hdone, -⟩
    obtain ⟨hown, hseen, hcarries, -⟩ := hdone rfl
    refine ⟨fun _ => ⟨Or.inr ⟨c, l', hstored, hown, rfl, hseen, hcarries⟩,
      fun _ => ⟨c, l', hstored⟩, ?_, ?_⟩, nofun⟩
    · exact fun _ _ _ hcalm _ => (hseen hcalm).1
    · exact fun _ _ _ _ _ _ _ => by simp [hown]
  · rintro e _ ⟨own, p, q, rfl, hp, hq, -, hfailed⟩
    refine wp_mono _ (rollbackExclusions_spec (P := P) e hold hstored.1 hconnection
      (Nat.succ_le_succ (Nat.zero_le _)) ?_ ?_) ?_
    · intro hc₀ hcalm hcalm' _
      obtain ⟨ha, hh, hi⟩ := hP hc₀
      exact hfailed e rfl ha hh hi hcalm hcalm' (hrestricted (hq hcalm'))
    · exact fun _ hcalm _ => (hrestricted (hq hcalm)).1
    · rintro r x' ⟨hr, hsafe, hrecovered⟩
      exact ⟨fun h => absurd h hr, fun _ _ => ⟨hsafe, hrecovered⟩⟩

theorem saveExclusions_spec (text : JsVal) (hP : P → ok.Answers ∧ ok.Honours ∧ x.Inherits)
    (h : x.Safe ok) (hr : P → x.Recovered) :
    wp (routeLogic ok) (saveExclusions text) (fun _ x' => x'.Kept ok P) x := by
  refine wp_lift_bind (fun l' hl' => ?_) fun _ _ => ⟨h, hr⟩
  have hl' := normalizeExclusions_normalized hl'
  refine wp_await_bind stored_spec ?_ (by rintro e _ ⟨-, data, ⟨⟩, -⟩)
  rintro old x ⟨rfl, _, ⟨⟩, hold⟩
  rw [hold]
  refine wp_lift_bind (fun c hc => ?_) fun _ _ => ⟨h, hr⟩
  have hc := requireConnection_eq_ok hc
  have hstored : configured { x.config with exclusions := some l' } = .ok (some c, l') :=
    configured_eq_ok.2 ⟨hc, normalizeExclusions_join hl'⟩
  cases henabled : x.config.isEnabled with
  | false =>
      have hnone : x.proxy = none := by
        rcases h with hnone | ⟨c, l, h, -⟩
        · exact hnone
        · exact absurd h.1 (by simp [henabled])
      refine wp_when_bind nofun fun _ => ?_
      refine wp_bind _ (storageSet_spec _) ?_ (by rintro e _ ⟨⟨⟩, -⟩)
      rintro ⟨⟩ _ ⟨-, rfl⟩
      refine wp_when_bind nofun fun _ => wp_set_bind trivial ?_
      refine wp_mono _ (badgeAndStatus_spec _) ?_
      rintro r _ ⟨a, b, rfl, -⟩
      exact ⟨Or.inl hnone, fun _ => RouteView.recovered_of_not_enabled henabled⟩
  | true =>
      refine wp_when_bind (fun _ => ?_) nofun
      refine wp_bind _ (checkRoute_spec hP hc h hr) ?_ fun e x' ⟨_, hx⟩ => hx e rfl
      rintro ⟨⟩ x₁ ⟨hx₁, -⟩
      obtain ⟨p, q, rfl, hp, hq, hrestricted, l, hl⟩ := hx₁ rfl
      refine wp_bind _ (storageSet_spec _) ?_ (by rintro e _ ⟨⟨⟩, -⟩)
      rintro ⟨⟩ _ ⟨-, rfl⟩
      refine wp_when_bind (fun _ => ?_) nofun
      refine wp_bind _ (tryExclusions_spec hP hl rfl ⟨henabled, hstored⟩ hrestricted) ?_
        fun e x' ⟨_, hx⟩ => hx e rfl
      rintro ⟨⟩ x₂ ⟨hx₂, -⟩
      obtain ⟨hsettled, hx₂⟩ := hx₂ rfl
      have hrecovered : (routeWrite (.ownProxyClearedForConflict false) x₂).Recovered :=
        ⟨hx₂.sound, hx₂.webRTC, hx₂.proxy⟩
      refine wp_set_bind trivial (wp_mono _
        (badgeAndStatus_spec _) ?_)
      rintro r _ ⟨a, b, rfl, ha, hb, -⟩
      exact ⟨(hsettled.watch ha hb).safe, fun _ => hrecovered.watch ha hb⟩

end Connection

/-! ## The proxy listener -/

namespace RouteView

/-- `Safe` before the incognito windows have been checked. -/
def Unchecked (ok : Rules) (x : RouteView) : Prop :=
  x.proxy = none ∨ ∃ c l, x.config.Enabled c l ∧ x.proxy = some (proxyConfigOf c l) ∧
    x.Restricted ∧ (ok.Strict → x.cleared = false)

/-- A PAC that was set and is controllable was in force. -/
def Consistent (x : RouteView) : Prop :=
  ∀ v, x.proxy = some v → (x.proxySeen false).levelOfControl.controllable = true →
    x.proxySeen false = ⟨.controlledByThisExtension, v⟩

/-- Where an enabled route is down and could be up, both flags say so. -/
def Resumes (x : RouteView) : Prop :=
  ∀ c l, x.config.Enabled c l → x.proxyCalm → x.webRTCCalm → x.ProxyFree → x.WebRTCFree →
    x.proxy = none →
      Browser.incognitoAllowed = true ∧ x.restore = true ∧ x.cleared = true

theorem Safe.unchecked (h : x.Safe ok) : x.Unchecked ok := by
  rcases h with hnone | ⟨c, l, henabled, hproxy, hrestricted, hstrict⟩
  · exact Or.inl hnone
  · exact Or.inr ⟨c, l, henabled, hproxy, hrestricted, fun hs => (hstrict hs).1⟩

end RouteView

omit [Platform] in
/-- The conflict test: the flags fall where incognito windows have the PAC, and
elsewhere the PAC goes unless it has gone already. -/
theorem clearOnConflict_spec (st : IncognitoProxyState) :
    wp (routeLogic ok) (clearOnConflict st) (fun r x' => r = .ok () ∧ ∃ own restore cleared,
      x' = (x.adjust own x.webRTC x.attempts x.proxyCalm x.webRTCCalm).flags restore cleared ∧
      (own = x.proxy ∨ own = none) ∧
      (st.effective = true → own = x.proxy ∧ cleared = false) ∧
      (st.effective = false → x.cleared = false → own = none) ∧
      (st.effective = false → x.cleared = true → restore = x.restore)) x := by
  unfold clearOnConflict
  split
  · rename_i heffective
    exact ⟨trivial, trivial, rfl, x.proxy, false, false, rfl, Or.inl rfl, fun _ => ⟨rfl, rfl⟩,
      by simp [heffective], by simp [heffective]⟩
  · rename_i heffective
    rintro v _ ⟨rfl, -, hcleared⟩
    refine wp_when (fun hb => wp_set_bind trivial ?_) fun hb => ?_
    · refine wp_await_bind clearOwnProxySetting_spec ?_ (by rintro e _ ⟨⟨⟩, -⟩)
      rintro ⟨⟩ _ ⟨-, rfl⟩
      refine ⟨trivial, rfl, none, _, true, rfl, Or.inr rfl, fun h => absurd h heffective,
        fun _ _ => rfl, fun _ h => ?_⟩
      rw [hcleared, h] at hb
      cases hb
    · refine ⟨rfl, _, _, _, rfl, Or.inl rfl, fun h => absurd h heffective, fun _ h => ?_,
        fun _ _ => rfl⟩
      rw [hcleared, h] at hb
      cases hb

/-- The restore test: startup once more where both contexts are free again. -/
theorem restoreAfterTakeover_spec (st : IncognitoProxyState) (regular : Setting ProxyConfig) :
    wp (routeLogic ok) (restoreAfterTakeover st regular) (fun _ x' =>
      (x'.Settled ∧ (ok.Answers → ok.Honours → x.Inherits → x'.Recovered)) ∨
      ∃ q, x' = x.watch x.proxyCalm q ∧ (q → x.webRTCCalm) ∧
        (ok.Answers → x.restore = true → st.levelOfControl = some .controllableByThisExtension →
          regular.levelOfControl = .controllableByThisExtension → q → ¬ x.RestrictedSeen)) x := by
  rintro v _ ⟨rfl, hrestore, -⟩
  refine wp_when (fun _ => ?_) fun hb => ?_
  · refine wp_await_bind webRTCIsRestrictedInAllEnabledContexts_spec ?_ ?_
    · rintro restricted _ ⟨q, rfl, hq, -, -, hfailed⟩
      refine wp_when (fun _ => wp_set_bind trivial (wp_set_bind trivial ?_)) fun hb => ?_
      · exact wp_await (wp_mono _ reconcileAtStartup_spec fun _ _ h => Or.inl h.2)
      · exact Or.inr ⟨q, rfl, hq, fun ha _ _ _ => hfailed (by rw [hb]) ha⟩
    · rintro e _ ⟨q, rfl, hq, hans, -⟩
      exact Or.inr ⟨q, rfl, hq, fun ha => not_error (hans ha)⟩
  · refine Or.inr ⟨_, rfl, id, fun _ h h' h'' => ?_⟩
    simp [hrestore, h, h', h''] at hb

omit [Platform] in
theorem incognitoStateOf_effective {setting : Setting ProxyConfig} {c : Connection}
    {l : List JsString} :
    (incognitoStateOf setting (proxyConfigOf c l)).effective = true ↔
      (Browser.incognitoAllowed = true →
        setting = ⟨.controlledByThisExtension, proxyConfigOf c l⟩) := by
  unfold incognitoStateOf
  split
  · rename_i h
    simp [h, isEffectiveProxySetting_iff]
  · rename_i h
    simp [h]

omit [Browser] in
/-- An enabled configuration survives the reads of the listener. -/
theorem Config.Enabled.reads {data : Config} {c : Connection} {l : List JsString}
    (h : data.Enabled c l) :
    data.isEnabled = true ∧ data.hasConnection = true ∧
      (∀ message, requireConnection data message = .ok c) ∧ configuredExclusions data = .ok l := by
  obtain ⟨henabled, hconfigured⟩ := h
  obtain ⟨hc, hl⟩ := configured_eq_ok.1 hconfigured
  refine ⟨henabled, ?_, fun message => ?_, hl⟩
  · rw [configuredConnection] at hc
    rcases hconn : data.connection with _ | value
    · simp [hconn] at hc
    · rw [hconn] at hc
      by_cases hv : value.truthy = true
      · simp [Config.hasConnection, hconn, hv]
      · simp [hv] at hc
  · rw [requireConnection, hc]
    rfl

/-- The listener between its reads and the badge. -/
theorem followConflict_spec {c : Connection} {l : List JsString} {st : IncognitoProxyState}
    {regular : Setting ProxyConfig} (hP : P → ok.Answers ∧ ok.Honours ∧ x.Inherits)
    (h : x.Unchecked ok) (hstored : x.config.Enabled c l)
    (heffective : st.effective = true → x.Carries (proxyConfigOf c l))
    (hresume : P → x.Resumes ∧ x.Consistent ∧
      x.config.Sound ∧ x.WebRTCBack ∧
      (x.proxyCalm → st = incognitoStateOf (x.proxySeen true) (proxyConfigOf c l) ∧
        regular = x.proxySeen false ∧
        (regular.levelOfControl = .controlledByThisExtension → x.proxy = some regular.value))) :
    wp (routeLogic ok) (do clearOnConflict st; restoreAfterTakeover st regular) (fun _ x' =>
      x'.Kept ok P) x := by
  refine wp_bind _ (clearOnConflict_spec st) ?_ (by rintro e _ ⟨⟨⟩, -⟩)
  rintro ⟨⟩ _ ⟨-, own, restore, cleared, rfl, hown, heff, hcleared, hkept⟩
  refine wp_mono _ (restoreAfterTakeover_spec st regular) ?_
  rintro _ x' (⟨hsettled, hrecovered⟩ | ⟨q, rfl, hq, hstays⟩)
  · exact ⟨hsettled.safe, fun hc₀ => hrecovered (hP hc₀).1 (hP hc₀).2.1 (hP hc₀).2.2⟩
  refine ⟨?_, fun hc₀ => ⟨fun _ => ⟨c, l, hstored⟩, ?_, ?_⟩⟩
  · rcases hown with rfl | rfl
    · rcases h with hnone | ⟨c', l', henabled, hproxy, hrestricted, hflag⟩
      · exact Or.inl hnone
      · obtain ⟨rfl, rfl⟩ : c = c' ∧ l = l' := by simpa using hstored.2.symm.trans henabled.2
        refine Or.inr ⟨c, l, henabled, hproxy, fun hcalm => hrestricted (hq hcalm), fun hs => ?_⟩
        cases he : st.effective with
        | true => exact ⟨(heff he).2, heffective he⟩
        | false => simp [hcleared he (hflag hs)] at hproxy
    · exact Or.inl rfl
  · exact fun c l henabled hcalm => (hresume hc₀).2.2.2.1 c l henabled (hq hcalm)
  · intro c' l' _ hcalm hcalm' hfree hfree' hnone
    obtain ⟨ha, -, hi⟩ := hP hc₀
    obtain ⟨hresumes, hconsistent, -, hregular, hreads⟩ := hresume hc₀
    obtain ⟨rfl, rfl, hours⟩ := hreads hcalm
    -- The PAC was gone before the listener ran: one that was there was in force.
    have hgone : x.proxy = none := by
      rcases h with hnone' | ⟨c', l', henabled, hproxy, -⟩
      · exact hnone'
      · obtain ⟨rfl, rfl⟩ : c = c' ∧ l = l' := by simpa using hstored.2.symm.trans henabled.2
        have hforce := hconsistent _ hproxy hfree.1
        have he := incognitoStateOf_effective.2 fun hallowed =>
          (hi.1 (hfree.2 hallowed)).trans hforce
        rw [← (heff he).1]
        exact hnone
    obtain ⟨hallowed, hrestore, hflag⟩ := hresumes c l hstored hcalm (hq hcalm') hfree hfree' hgone
    have hinherits := hi.1 (hfree.2 hallowed)
    have hlevel : (x.proxySeen false).levelOfControl = .controllableByThisExtension := by
      have hctrl := hfree.1
      cases hl : (x.proxySeen false).levelOfControl with
      | controlledByThisExtension => simp [hgone] at hours; exact absurd hl hours
      | controllableByThisExtension => rfl
      | controlledByOtherExtensions => simp [hl, LevelOfControl.controllable] at hctrl
      | notControllable => simp [hl, LevelOfControl.controllable] at hctrl
    have he : (incognitoStateOf (x.proxySeen true) (proxyConfigOf c l)).effective = false := by
      rw [← Bool.not_eq_true, incognitoStateOf_effective]
      intro hours'
      rw [← hinherits, hours' hallowed] at hlevel
      cases hlevel
    refine hstays ha ((hkept he hflag).trans hrestore) ?_ hlevel hcalm' ?_
    · rw [incognitoStateOf, if_pos hallowed, ← hlevel, ← hinherits]
    · have hregular := hregular c l hstored (hq hcalm') hfree'
      exact ⟨hregular, fun _ => hi.2 (hfree'.2 hallowed) ▸ hregular⟩

namespace RouteView

theorem Unchecked.none_of_not_enabled (h : x.Unchecked ok)
    (hnot : ∀ c l, ¬ x.config.Enabled c l) : x.proxy = none := by
  rcases h with hnone | ⟨c, l, henabled, -⟩
  · exact hnone
  · exact absurd henabled (hnot c l)

/-- Where questions may go unanswered, nothing more was to be checked. -/
theorem Unchecked.safe (h : x.Unchecked ok) (hans : ¬ ok.Answers) : x.Safe ok := by
  rcases h with hnone | ⟨c, l, henabled, hproxy, hrestricted, -⟩
  · exact Or.inl hnone
  · exact Or.inr ⟨c, l, henabled, hproxy, hrestricted, fun hs => absurd hs.1 hans⟩

end RouteView

theorem followProxyChange_spec (hP : P → ok.Answers ∧ ok.Honours ∧ x.Inherits)
    (h : x.Unchecked ok)
    (hresume : P → x.Resumes ∧ x.Consistent ∧
      x.config.Sound ∧ x.WebRTCBack) :
    wp (routeLogic ok) followProxyChange (fun _ x' =>
      x'.Kept ok P) x := by
  have hleave : (∀ c l, ¬ x.config.Enabled c l) → x.Kept ok P := by
    refine fun hnot => ⟨Or.inl (h.none_of_not_enabled hnot), fun hc₀ =>
      RouteView.recovered_of_not_enabled (Bool.eq_false_iff.2 fun hon => ?_)⟩
    obtain ⟨c, l, henabled⟩ := (hresume hc₀).2.2.1 hon
    exact hnot c l henabled
  refine wp_await_bind stored_spec ?_ (by rintro e _ ⟨-, data, ⟨⟩, -⟩)
  rintro data x ⟨rfl, _, ⟨⟩, hdata⟩
  refine wp_when (fun hb => ?_) fun hb => hleave fun c l hstored => ?_
  · rw [hdata]
    refine wp_lift_bind (fun c hc => ?_) fun e he => hleave fun c l hstored => ?_
    · have hc := requireConnection_eq_ok hc
      refine wp_lift_bind (fun l hl => ?_) fun e he => hleave fun c l hstored => ?_
      · rw [buildProxyConfig_configured hc (normalizeExclusions_normalized hl)]
        refine wp_await_bind (incognitoProxyState_spec (proxyConfigOf c l)) ?_
          (by rintro e _ ⟨st, p, ⟨⟩, -⟩)
        rintro st _ ⟨_, p₁, ⟨⟩, rfl, hp₁, heffective, hst⟩
        have hstored : x.config.Enabled c l := by
          refine ⟨?_, configured_eq_ok.2 ⟨hc, hl⟩⟩
          rw [← hdata]
          exact (Bool.and_eq_true_iff.1 hb).1
        refine wp_await_bind (effectiveSetting_spec false) ?_ ?_
        · rintro regular _ ⟨p₂, rfl, hp₂, -, hregular⟩
          obtain ⟨hvalue, hours⟩ := hregular _ rfl
          have hp : p₂ → x.proxyCalm := fun hcalm => hp₁ (hp₂ hcalm)
          refine followConflict_spec (x := x.watch p₂ x.webRTCCalm) hP h hstored
            (fun he hcalm hallowed => ?_) fun hc₀ => ?_
          · exact (isEffectiveProxySetting_iff _ c l).1 (heffective he (hp₂ hcalm) hallowed)
          · obtain ⟨hresumes, hconsistent, hsound, hwebRTC⟩ := hresume hc₀
            refine ⟨fun c' l' henabled hcalm => hresumes c' l' henabled (hp hcalm), hconsistent,
              hsound, hwebRTC, fun hcalm => ⟨hst (hP hc₀).1 (hp₂ hcalm), hvalue hcalm, hours rfl⟩⟩
        · rintro e _ ⟨p₂, rfl, hp₂, hans, -⟩
          have hsafe := h.safe fun ha => not_error (hans ha)
          exact ⟨hsafe.watch (fun hcalm => hp₁ (hp₂ hcalm)) id, fun hc₀ => not_error (hans (hP hc₀).1)⟩
      · obtain ⟨-, -, -, hl⟩ := hstored.reads
        simp [hl] at he
    · obtain ⟨-, -, hc, -⟩ := hstored.reads
      simp [hc] at he
  · obtain ⟨henabled, hconnection, -⟩ := hstored.reads
    simp [hdata, henabled, hconnection] at hb

/-- The listener of `proxy.settings.onChange`. -/
theorem onProxyChange_spec (hP : P → ok.Answers ∧ ok.Honours ∧ x.Inherits)
    (h : x.Unchecked ok)
    (hresume : P → x.Resumes ∧ x.Consistent ∧
      x.config.Sound ∧ x.WebRTCBack) :
    wp (routeLogic ok) onProxyChange (fun _ x' =>
      x'.Kept ok P) x := by
  rw [onProxyChange, Prog.finallyDo, wp_andThen]
  refine wp_mono _ (followProxyChange_spec hP h hresume) fun r x' ⟨hsafe, hrecovered⟩ => ?_
  rw [wp_andThen]
  refine wp_mono _ await_updateBadge_spec ?_
  rintro r' _ ⟨a, b, rfl, ha, hb, -⟩
  have hkept : (x'.watch a b).Safe ok ∧
      (P → (x'.watch a b).Recovered) :=
    ⟨hsafe.watch ha hb, fun h => (hrecovered h).watch ha hb⟩
  cases r' with
  | ok _ => exact hkept
  | error _ => exact hkept

/-! ## All of them -/

/-- What the proxy listener relies on, and what every other operation but the
WebRTC listener does. -/
def RouteView.Ready (ok : Rules) (P : Prop) (op : Op) (x : RouteView) : Prop :=
  match op with
  | .proxyChanged => x.Unchecked ok ∧ (P → x.Resumes ∧ x.Consistent ∧
      x.config.Sound ∧ x.WebRTCBack)
  | .webRTCChanged => True
  | _ => x.Kept ok P

theorem wp_body {op : Op} {Q : Except String Result → RouteView → Prop}
    (h : wp (routeLogic ok) op.task Q x) : wp (routeLogic ok) op.body Q x :=
  wp_await h

/-- Every operation that is not neutral leaves the route kept. -/
theorem op_spec {op : Op} (hop : op.neutral = false)
    (hP : P → ok.Answers ∧ ok.Honours ∧ x.Inherits) (h : x.Ready ok P op) :
    wp (routeLogic ok) op.body (fun _ x' => x'.Kept ok P) x := by
  refine wp_body ?_
  cases op with
  | importKey key => exact wp_map _ (importKey_spec key h.1 h.2)
  | connect => exact wp_map _ (connect_spec hP h.1 h.2)
  | disconnect => exact wp_map _ (wp_mono _ disconnect_spec fun _ _ h => ⟨h.safe, fun _ => h.recovered⟩)
  | forget => exact wp_map _ (wp_mono _ forget_spec fun _ _ h => ⟨h.1, fun _ => h.2⟩)
  | saveExclusions text => exact wp_map _ (saveExclusions_spec text hP h.1 h.2)
  | proxyChanged => exact wp_map _ (onProxyChange_spec hP h.1 h.2)
  | webRTCChanged =>
      refine wp_map _ (wp_mono _ reconcileAtStartup_spec ?_)
      exact fun _ _ ⟨_, hsettled, hrecovered⟩ => ⟨hsettled.safe, fun hp =>
        hrecovered (hP hp).1 (hP hp).2.1 (hP hp).2.2⟩
  | proxyError details stamp => cases hop
  | authFailed stamp => cases hop
  | clearError check => cases hop

theorem bootBody_spec (hP : P → ok.Answers ∧ ok.Honours ∧ x.Inherits) :
    wp (routeLogic ok) bootBody (fun _ x' => x'.Kept ok P) x :=
  wp_map _ (wp_mono _ boot_spec fun _ _ ⟨hsettled, hrecovered⟩ => ⟨hsettled.safe, fun hp =>
    hrecovered (hP hp).1 (hP hp).2.1 (hP hp).2.2⟩)

end

end BrowserVpn
