import BrowserVpn.Extension.Calculus
import BrowserVpn.Extension.Pending
import BrowserVpn.Extension.Status

/-!
# Extension.Route — what the writer of the settings knows

`boot` and the operations that are not neutral are, one at a time, the only
writers of the stored configuration, of the extension's own preferences and of
the conflict flags. `RouteView` is what the writer knows of the system:
these exactly, and the effective settings as they were when it began, for as
long as no change is pending. Each function of `background.js` gets one
specification over these views.
-/

namespace BrowserVpn

open Async

/-! ## Views -/

structure RouteView where
  config : Config
  proxy : Option ProxyConfig
  webRTC : Option WebRTCPolicy
  restore : Bool
  cleared : Bool
  /-- The effective settings when the writer began. -/
  proxySeen : Bool → Setting ProxyConfig
  webRTCSeen : Bool → Setting WebRTCPolicy
  /-- No change is pending, so they still are what was seen. -/
  proxyCalm : Prop
  webRTCCalm : Prop
  /-- How often this operation has called `chrome.proxy.settings.set`. -/
  attempts : Nat

namespace RouteView

/-- The same knowledge with other preferences, and calm only as far as `p` and
`q` go. -/
@[simps] def adjust (x : RouteView) (own : Option ProxyConfig) (rtc : Option WebRTCPolicy) (n : Nat)
    (p q : Prop) : RouteView :=
  { x with proxy := own, webRTC := rtc, attempts := n, proxyCalm := p, webRTCCalm := q }

/-- The same knowledge with other conflict flags. -/
@[simps] def flags (x : RouteView) (restore cleared : Bool) : RouteView :=
  { x with restore, cleared }

/-- Later, when more may be pending. -/
abbrev watch (x : RouteView) (p q : Prop) : RouteView := x.adjust x.proxy x.webRTC x.attempts p q

end RouteView

/-! ## Assumptions on Chrome -/

/-- Calls on storage, and the two `clear`s. -/
def Call.steady : Call → Bool
  | .storageGet | .storageSet _ | .storageRemove | .setAccessLevel | .proxyClear | .webRTCClear =>
      true
  | _ => false

/-- Questions to Chrome, and the badge. -/
def Call.answers : Call → Bool
  | .proxyGet _ | .webRTCGet _ | .isAllowedIncognitoAccess | .setBadgeText _
  | .setBadgeBackgroundColor _ => true
  | _ => false

/-- `chrome.proxy.settings.set` calls of an actor so far: of the operation that
runs, or of `boot` since the worker started. -/
def proxySets (a : Actor) : List Obs → Nat
  | [] => 0
  | .restarted :: _ => 0
  | .started _ _ :: trace => if a = .op then 0 else proxySets a trace
  | .issued b (.proxySet _) :: trace => proxySets a trace + if b = a then 1 else 0
  | _ :: trace => proxySets a trace

namespace Rules

variable [Platform] [Browser] (ok : Rules)

/-- Storage calls and `clear` calls succeed. -/
def Steady : Prop :=
  ∀ s a o subj c k, ok s (.land a o) → s.slot a = some (subj, .awaiting c k) → c.steady →
    o = .done

/-- Questions are answered. -/
def Answers : Prop :=
  ∀ s a o subj c k, ok s (.land a o) → s.slot a = some (subj, .awaiting c k) → c.answers →
    o = .done

/-- A `set` is honoured whenever the setting is controllable. -/
def Honours : Prop :=
  ∀ s a o subj c k, ok s (.land a o) → s.slot a = some (subj, .awaiting c k) →
    ((∃ v, c = .proxySet v) ∧ s.world.proxy.regular.levelOfControl.controllable ∨
      (∃ v, c = .webRTCSet v) ∧ s.world.webRTC.regular.levelOfControl.controllable) →
    o = .done

/-- An operation's second `chrome.proxy.settings.set` does not resolve while
`ownProxyClearedForConflict` is up. -/
def Guarded : Prop :=
  ∀ s a o subj v k, ok s (.land a o) → s.slot a = some (subj, .awaiting (.proxySet v) k) →
    (∀ message, o ≠ .rejected message) → 2 ≤ proxySets a s.trace →
    s.vars.ownProxyClearedForConflict = false

end Rules

section

variable [Platform] [Browser]

/-! ## The logic -/

/-- What a reply tells the writer, and what the call has done. -/
def routeReplies (ok : Rules) :
    (c : Call) → RouteView → Except String (Reply c) → RouteView → Prop
  | .storageGet, x, r, x' => x' = x ∧ ∃ data : Storage, r = .ok data ∧ data.toConfig = x.config
  | .storageSet p, x, r, x' =>
      r = .ok () ∧ x' = { x with config := ((⟨x.config, none⟩ : Storage).set p).toConfig }
  | .storageRemove, x, r, x' =>
      r = .ok () ∧ x' = { x with config := (⟨x.config, none⟩ : Storage).forget.toConfig }
  | .setAccessLevel, x, r, x' => r = .ok () ∧ x' = x
  | .proxyGet incognito, x, r, x' => ∃ p, x' = x.watch p x.webRTCCalm ∧ (p → x.proxyCalm) ∧
      (ok.Answers → ∃ v, r = .ok v) ∧
      ∀ v, r = .ok v → (p → v = x.proxySeen incognito) ∧
        (incognito = false → v.levelOfControl = .controlledByThisExtension →
          x.proxy = some v.value)
  | .webRTCGet incognito, x, r, x' => ∃ q, x' = x.watch x.proxyCalm q ∧ (q → x.webRTCCalm) ∧
      (ok.Answers → ∃ v, r = .ok v) ∧ ∀ v, r = .ok v → q → v = x.webRTCSeen incognito
  | .proxySet v, x, r, x' => ∃ own p, x' = x.adjust own x.webRTC x.attempts p x.webRTCCalm ∧
      (p → x.proxyCalm) ∧
      (r = .ok () → ok.Guarded → 2 ≤ x.attempts → x.cleared = false) ∧
      (ok.Honours → p → (x.proxySeen false).levelOfControl.controllable = true →
        r = .ok () ∧ x.proxySeen false = ⟨.controlledByThisExtension, v⟩)
  | .webRTCSet v, x, r, x' => ∃ rtc q, x' = x.adjust x.proxy rtc x.attempts x.proxyCalm q ∧
      (q → x.webRTCCalm) ∧
      (ok.Honours → q → (x.webRTCSeen false).levelOfControl.controllable = true →
        r = .ok () ∧ x.webRTCSeen false = ⟨.controlledByThisExtension, v⟩)
  | .proxyClear, x, r, x' =>
      r = .ok () ∧ x' = x.adjust none x.webRTC x.attempts x.proxyCalm x.webRTCCalm
  | .webRTCClear, x, r, x' =>
      r = .ok () ∧ x' = x.adjust x.proxy none x.attempts x.proxyCalm x.webRTCCalm
  | .isAllowedIncognitoAccess, x, r, x' => x' = x ∧ (ok.Answers → ∃ b, r = .ok b) ∧
      ∀ b, r = .ok b → b = Browser.incognitoAllowed
  | .setBadgeText _, x, r, x' => x' = x ∧ (ok.Answers → r = .ok ())
  | .setBadgeBackgroundColor _, x, r, x' => x' = x ∧ (ok.Answers → r = .ok ())
  | _, x, _, x' => x' = x

/-- The writes of the conflict flags. -/
def routeWrite : Write → RouteView → RouteView
  | .restoreAfterIncognitoTakeover b, x => { x with restore := b }
  | .ownProxyClearedForConflict b, x => { x with cleared := b }
  | _, x => x

def routeIssue : Call → RouteView → RouteView
  | .proxySet _, x => { x with attempts := x.attempts + 1 }
  | _, x => x

@[reducible] def routeLogic (ok : Rules) : Logic api RouteView where
  reads x v x' := x' = x ∧ v.restoreAfterIncognitoTakeover = x.restore ∧
    v.ownProxyClearedForConflict = x.cleared
  mayWrite _ _ := True
  write := routeWrite
  mayCall _ _ := True
  issue := routeIssue
  replies := routeReplies ok

variable {ok : Rules} {α β : Type} {x : RouteView}

omit [Platform] in
theorem wp_route_call (c : Call) :
    wp (routeLogic ok) (chrome c) (fun r x' => routeReplies ok c (routeIssue c x) r x') x :=
  ⟨trivial, fun _ _ h => h⟩

instance : Ticks (routeLogic ok) where
  mayTick _ := trivial
  tick h := h

/-! ## Questions -/

namespace RouteView

/-- WebRTC was restricted in the enabled contexts. -/
def RestrictedSeen (x : RouteView) : Prop :=
  webRTCIsRestricted (x.webRTCSeen false) = true ∧
    (Browser.incognitoAllowed = true → webRTCIsRestricted (x.webRTCSeen true) = true)

/-- WebRTC is restricted in the enabled contexts or a change of it is pending. -/
def Restricted (x : RouteView) : Prop := x.webRTCCalm → x.RestrictedSeen

/-- Incognito windows have `v` from this extension, or a change of the proxy
setting is pending. -/
def Carries (x : RouteView) (v : ProxyConfig) : Prop :=
  x.proxyCalm → Browser.incognitoAllowed = true →
    x.proxySeen true = ⟨.controlledByThisExtension, v⟩

end RouteView

section

omit [Platform]

theorem stored_spec :
    wp (routeLogic ok) stored (fun r x' => x' = x ∧ ∃ data : Storage, r = .ok data ∧
      data.toConfig = x.config) x :=
  wp_route_call .storageGet

theorem storageSet_spec (p : Patch) :
    wp (routeLogic ok) (chrome (.storageSet p)) (fun r x' => r = .ok () ∧
      x' = { x with config := ((⟨x.config, none⟩ : Storage).set p).toConfig }) x :=
  wp_route_call (.storageSet p)

theorem webRTCSetting_spec (incognito : Bool) :
    wp (routeLogic ok) (webRTCSetting incognito) (fun r x' => ∃ q, x' = x.watch x.proxyCalm q ∧
      (q → x.webRTCCalm) ∧ (ok.Answers → ∃ v, r = .ok v) ∧
      ∀ v, r = .ok v → q → v = x.webRTCSeen incognito) x :=
  wp_route_call (.webRTCGet incognito)

theorem effectiveSetting_spec (incognito : Bool) :
    wp (routeLogic ok) (effectiveSetting incognito) (fun r x' => ∃ p, x' = x.watch p x.webRTCCalm ∧
      (p → x.proxyCalm) ∧ (ok.Answers → ∃ v, r = .ok v) ∧
      ∀ v, r = .ok v → (p → v = x.proxySeen incognito) ∧
        (incognito = false → v.levelOfControl = .controlledByThisExtension →
          x.proxy = some v.value)) x :=
  wp_route_call (.proxyGet incognito)

theorem isAllowed_spec :
    wp (routeLogic ok) (chrome .isAllowedIncognitoAccess) (fun r x' => x' = x ∧
      (ok.Answers → ∃ b, r = .ok b) ∧ ∀ b, r = .ok b → b = Browser.incognitoAllowed) x :=
  wp_route_call .isAllowedIncognitoAccess

end

omit [Platform] [Browser] in
/-- No error where the calls are answered. -/
theorem not_error {e : String} {P : Prop} (h : ∃ v : α, (Except.error e : Except String α) = .ok v) :
    P := by
  obtain ⟨v, hv⟩ := h
  cases hv

section

omit [Platform]

/-- `incognitoWebRTCIsRestricted` always answers, and `true` only if it is so. -/
theorem incognitoWebRTCIsRestricted_spec :
    wp (routeLogic ok) incognitoWebRTCIsRestricted (fun r x' => ∃ b q, r = .ok b ∧
      x' = x.watch x.proxyCalm q ∧ (q → x.webRTCCalm) ∧
      (b = true → q → Browser.incognitoAllowed = true →
        webRTCIsRestricted (x.webRTCSeen true) = true) ∧
      (b = false → ok.Answers → q → Browser.incognitoAllowed = true ∧
        webRTCIsRestricted (x.webRTCSeen true) = false)) x := by
  refine wp_tryCatch _ (M := fun r x' => ∃ q, x' = x.watch x.proxyCalm q ∧ (q → x.webRTCCalm) ∧
      (ok.Answers → ∃ b, r = .ok b) ∧
      ∀ b, r = .ok b → (b = true → q → Browser.incognitoAllowed = true →
        webRTCIsRestricted (x.webRTCSeen true) = true) ∧
        (b = false → q → Browser.incognitoAllowed = true ∧
          webRTCIsRestricted (x.webRTCSeen true) = false)) ?_ ?_ ?_
  · refine wp_bind _ isAllowed_spec ?_ ?_
    · rintro allowed _ ⟨rfl, -, hallowed⟩
      obtain rfl := hallowed _ rfl
      split
      · rename_i hinc
        refine wp_await_bind (webRTCSetting_spec true) ?_ ?_
        · rintro setting _ ⟨q, rfl, hq, -, hsetting⟩
          refine ⟨q, rfl, hq, fun _ => ⟨_, rfl⟩, ?_⟩
          rintro b ⟨⟩
          have hseen := hsetting _ rfl
          exact ⟨fun hb hcalm _ => hseen hcalm ▸ hb, fun hb hcalm => ⟨hinc, hseen hcalm ▸ hb⟩⟩
        · rintro e _ ⟨q, rfl, hq, hans, -⟩
          exact ⟨q, rfl, hq, fun ha => not_error (hans ha), nofun⟩
      · rename_i hinc
        refine ⟨_, rfl, id, fun _ => ⟨_, rfl⟩, ?_⟩
        rintro b ⟨⟩
        exact ⟨fun _ _ h => absurd h hinc, nofun⟩
    · rintro e _ ⟨rfl, hans, -⟩
      exact ⟨_, rfl, id, fun ha => not_error (hans ha), nofun⟩
  · rintro b _ ⟨q, rfl, hq, -, hb⟩
    obtain ⟨htrue, hfalse⟩ := hb b rfl
    exact ⟨b, q, rfl, rfl, hq, htrue, fun h _ => hfalse h⟩
  · rintro e _ ⟨q, rfl, hq, hans, -⟩
    exact ⟨false, q, rfl, rfl, hq, nofun, fun _ ha => not_error (hans ha)⟩

theorem webRTCIsRestrictedInAllEnabledContexts_spec :
    wp (routeLogic ok) webRTCIsRestrictedInAllEnabledContexts (fun r x' => ∃ q,
      x' = x.watch x.proxyCalm q ∧ (q → x.webRTCCalm) ∧ (ok.Answers → ∃ b, r = .ok b) ∧
      (r = .ok true → q → x.RestrictedSeen) ∧
      (r = .ok false → ok.Answers → q → ¬ x.RestrictedSeen)) x := by
  refine wp_await_bind (webRTCSetting_spec false) ?_ ?_
  · rintro setting _ ⟨q, rfl, hq, -, hsetting⟩
    have hseen := hsetting _ rfl
    split
    · rename_i hregular
      refine wp_await (wp_mono _ incognitoWebRTCIsRestricted_spec ?_)
      rintro _ _ ⟨b, q', rfl, rfl, hq', htrue, hfalse⟩
      refine ⟨q', rfl, fun h => hq (hq' h), fun _ => ⟨b, rfl⟩, ?_, ?_⟩
      · rintro ⟨⟩ hcalm
        exact ⟨hseen (hq' hcalm) ▸ hregular, htrue rfl hcalm⟩
      · rintro ⟨⟩ ha hcalm hrestricted
        obtain ⟨hinc, hnot⟩ := hfalse rfl ha hcalm
        exact absurd (hrestricted.2 hinc) (by simp_all)
    · rename_i hregular
      refine ⟨q, rfl, hq, fun _ => ⟨_, rfl⟩, nofun, fun _ _ hcalm hrestricted => ?_⟩
      exact hregular (hseen hcalm ▸ hrestricted.1)
  · rintro e _ ⟨q, rfl, hq, hans, -⟩
    exact ⟨q, rfl, hq, fun ha => not_error (hans ha), (nomatch ·), (nomatch ·)⟩

theorem incognitoProxyState_spec (expected : ProxyConfig) :
    wp (routeLogic ok) (incognitoProxyState expected) (fun r x' => ∃ st p, r = .ok st ∧
      x' = x.watch p x.webRTCCalm ∧ (p → x.proxyCalm) ∧
      (st.effective = true → p → Browser.incognitoAllowed = true →
        isEffectiveProxySetting (x.proxySeen true) expected = true) ∧
      (ok.Answers → p → st = incognitoStateOf (x.proxySeen true) expected)) x := by
  refine wp_tryCatch _ (M := fun r x' => ∃ p, x' = x.watch p x.webRTCCalm ∧ (p → x.proxyCalm) ∧
      (ok.Answers → ∃ st, r = .ok st) ∧
      ∀ st, r = .ok st → p → st = incognitoStateOf (x.proxySeen true) expected) ?_ ?_ ?_
  · refine wp_bind _ isAllowed_spec ?_ ?_
    · rintro allowed _ ⟨rfl, -, hallowed⟩
      obtain rfl := hallowed _ rfl
      split
      · rename_i hinc
        refine wp_await_bind (effectiveSetting_spec true) ?_ ?_
        · rintro setting _ ⟨p, rfl, hp, -, hsetting⟩
          refine ⟨p, rfl, hp, fun _ => ⟨_, rfl⟩, ?_⟩
          rintro st ⟨⟩ hcalm
          rw [incognitoStateOf, if_pos hinc, (hsetting _ rfl).1 hcalm]
        · rintro e _ ⟨p, rfl, hp, hans, -⟩
          exact ⟨p, rfl, hp, fun ha => not_error (hans ha), (by rintro _ ⟨⟩)⟩
      · rename_i hinc
        refine ⟨_, rfl, id, fun _ => ⟨_, rfl⟩, ?_⟩
        rintro st ⟨⟩ -
        rw [incognitoStateOf, if_neg hinc]
    · rintro e _ ⟨rfl, hans, -⟩
      exact ⟨_, rfl, id, fun ha => not_error (hans ha), (by rintro _ ⟨⟩)⟩
  · rintro st _ ⟨p, rfl, hp, -, hst⟩
    refine ⟨st, p, rfl, rfl, hp, fun heff hcalm hinc => ?_, fun _ => hst st rfl⟩
    rwa [hst st rfl hcalm, incognitoStateOf, if_pos hinc] at heff
  · rintro e _ ⟨p, rfl, hp, hans, -⟩
    exact ⟨_, p, rfl, rfl, hp, (by rintro ⟨⟩), fun ha => not_error (hans ha)⟩

end

/-! ## The status and the badge -/

/-- A function that only asks, and returns when its calls are answered. -/
def Questions (ok : Rules) (p : Js α) : Prop :=
  ∀ x, wp (routeLogic ok) p (fun r x' => ∃ a b, x' = x.watch a b ∧ (a → x.proxyCalm) ∧
    (b → x.webRTCCalm) ∧ (ok.Answers → ∃ v, r = .ok v)) x

section

omit [Platform]

namespace Questions

theorem pure (a : α) : Questions ok (pure a : Js α) :=
  fun _ => ⟨_, _, rfl, id, id, fun _ => ⟨a, rfl⟩⟩

theorem bind {p : Js α} {f : α → Js β} (hp : Questions ok p) (hf : ∀ a, Questions ok (f a)) :
    Questions ok (p >>= f) := by
  intro x
  refine wp_bind _ (hp x) ?_ ?_
  · rintro a _ ⟨p₁, q₁, rfl, hp₁, hq₁, -⟩
    refine wp_mono _ (hf a _) ?_
    rintro r _ ⟨p₂, q₂, rfl, hp₂, hq₂, hr⟩
    exact ⟨p₂, q₂, rfl, fun h => hp₁ (hp₂ h), fun h => hq₁ (hq₂ h), hr⟩
  · rintro e _ ⟨p₁, q₁, hx, hp₁, hq₁, hr⟩
    exact ⟨p₁, q₁, hx, hp₁, hq₁, fun ha => not_error (hr ha)⟩

theorem await {p : Js α} (hp : Questions ok p) : Questions ok (await p) :=
  fun x => wp_await (hp x)

theorem map {p : Js α} (hp : Questions ok p) (f : α → β) : Questions ok (f <$> p) :=
  hp.bind fun a => .pure (f a)

theorem when {b : Bool} {p : Js Unit} (hp : Questions ok p) : Questions ok (when b p) := by
  cases b with
  | true => exact hp
  | false => exact .pure ()

end Questions

theorem questions_stored : Questions ok stored := by
  refine fun x => wp_mono _ stored_spec ?_
  rintro r _ ⟨rfl, data, rfl, -⟩
  exact ⟨_, _, rfl, id, id, fun _ => ⟨data, rfl⟩⟩

theorem questions_effectiveSetting (incognito : Bool) :
    Questions ok (effectiveSetting incognito) :=
  fun _ => wp_mono _ (effectiveSetting_spec incognito) fun _ _ ⟨p, hx, hp, ha, _⟩ =>
    ⟨p, _, hx, hp, id, ha⟩

theorem questions_webRTCSetting (incognito : Bool) : Questions ok (webRTCSetting incognito) :=
  fun _ => wp_mono _ (webRTCSetting_spec incognito) fun _ _ ⟨q, hx, hq, ha, _⟩ =>
    ⟨_, q, hx, id, hq, ha⟩

theorem questions_incognitoWebRTCIsRestricted : Questions ok incognitoWebRTCIsRestricted :=
  fun _ => wp_mono _ incognitoWebRTCIsRestricted_spec fun _ _ ⟨b, q, hr, hx, hq, _⟩ =>
    ⟨_, q, hx, id, hq, fun _ => ⟨b, hr⟩⟩

theorem questions_incognitoProxyState (expected : ProxyConfig) :
    Questions ok (incognitoProxyState expected) :=
  fun _ => wp_mono _ (incognitoProxyState_spec expected) fun _ _ ⟨st, p, hr, hx, hp, _⟩ =>
    ⟨p, _, hx, hp, id, fun _ => ⟨st, hr⟩⟩

end

theorem questions_status : Questions ok status := by
  refine .bind questions_stored.await fun data => ?_
  refine .bind (questions_effectiveSetting false).await fun setting => ?_
  refine .bind (questions_webRTCSetting false).await fun webRTC => ?_
  split
  · exact .pure _
  · exact .pure _
  · rename_i connection exclusions hconfigured
    obtain ⟨hc, hl⟩ := configured_eq_ok.1 hconfigured
    split
    · exact .pure _
    · unfold enabledStatus
      split
      · exact .pure _
      · refine .bind questions_incognitoWebRTCIsRestricted.await fun restricted => ?_
        split
        · exact .pure _
        · rw [buildProxyConfig_configured hc (normalizeExclusions_normalized hl)]
          refine .bind (Questions.pure (proxyConfigOf connection exclusions)) fun expected => ?_
          exact .bind (questions_incognitoProxyState expected).await fun _ => .pure _

theorem questions_updateBadge : Questions ok updateBadge := by
  refine .bind questions_status.await fun current => ?_
  refine .bind (fun x => wp_mono _ (wp_route_call (.setBadgeText _)) ?_) fun _ =>
    .when fun x => wp_mono _ (wp_route_call (.setBadgeBackgroundColor _)) ?_
  · rintro r _ ⟨rfl, hr⟩
    exact ⟨_, _, rfl, id, id, fun ha => ⟨(), hr ha⟩⟩
  · rintro r _ ⟨rfl, hr⟩
    exact ⟨_, _, rfl, id, id, fun ha => ⟨(), hr ha⟩⟩

/-! ## Startup -/

namespace RouteView

/-- Nobody else held WebRTC in an enabled context. -/
def WebRTCFree (x : RouteView) : Prop :=
  (x.webRTCSeen false).levelOfControl.controllable = true ∧
    (Browser.incognitoAllowed = true → (x.webRTCSeen true).levelOfControl.controllable = true)

/-- Nobody else held the proxy in an enabled context. -/
def ProxyFree (x : RouteView) : Prop :=
  (x.proxySeen false).levelOfControl.controllable = true ∧
    (Browser.incognitoAllowed = true → (x.proxySeen true).levelOfControl.controllable = true)

/-- Incognito windows inherit what nobody else holds there. -/
def Inherits (x : RouteView) : Prop :=
  ((x.proxySeen true).levelOfControl.controllable = true → x.proxySeen true = x.proxySeen false) ∧
    ((x.webRTCSeen true).levelOfControl.controllable = true →
      x.webRTCSeen true = x.webRTCSeen false)

end RouteView

omit [Platform] in
theorem clearOwnProxySetting_spec :
    wp (routeLogic ok) clearOwnProxySetting (fun r x' => r = .ok () ∧
      x' = x.adjust none x.webRTC x.attempts x.proxyCalm x.webRTCCalm) x :=
  wp_route_call .proxyClear

omit [Platform] in
theorem clearOwnWebRTCSetting_spec :
    wp (routeLogic ok) clearOwnWebRTCSetting (fun r x' => r = .ok () ∧
      x' = x.adjust x.proxy none x.attempts x.proxyCalm x.webRTCCalm) x :=
  wp_route_call .webRTCClear

omit [Platform] [Browser] in
theorem webRTCIsRestricted_ours (setting : Setting WebRTCPolicy)
    (h : setting = ⟨.controlledByThisExtension, webRTCPolicy⟩) :
    webRTCIsRestricted setting = true := by
  rw [h]
  decide

section

omit [Platform]

theorem restrictWebRTC_spec :
    wp (routeLogic ok) restrictWebRTC (fun r x' => ∃ own rtc q,
      x' = x.adjust own rtc x.attempts x.proxyCalm q ∧ (q → x.webRTCCalm) ∧
      (r = .ok () → q → webRTCIsRestricted (x.webRTCSeen false) = true) ∧
      (∀ e, r = .error e → ok.Answers → ok.Honours → q →
        ¬ (x.webRTCSeen false).levelOfControl.controllable = true)) x := by
  refine wp_await_bind (webRTCSetting_spec false) ?_ ?_
  · rintro rtc _ ⟨q, rfl, hq, -, hrtc⟩
    refine wp_when (fun hunrestricted => ?_) (fun hrestricted => ?_)
    · refine wp_await_bind clearOwnProxySetting_spec ?_ (by rintro e _ ⟨⟨⟩, -⟩)
      rintro - _ ⟨-, rfl⟩
      refine wp_ensure_bind (fun hcontrol => ?_) (fun hcontrol => ?_)
      · refine wp_bind _ (wp_route_call (.webRTCSet webRTCPolicy)) ?_ ?_
        · rintro ⟨⟩ _ ⟨rtc₁, q₁, rfl, hq₁, hset⟩
          refine wp_await_bind (webRTCSetting_spec false) ?_ ?_
          · rintro rtc' _ ⟨q₂, rfl, hq₂, -, hrtc'⟩
            have hq₀ : q₂ → x.webRTCCalm := fun h => hq (hq₁ (hq₂ h))
            refine wp_ensure (fun h => ?_) (fun h => ?_)
            · exact ⟨none, rtc₁, q₂, rfl, hq₀, fun _ hcalm => hrtc' _ rfl hcalm ▸ h, nofun⟩
            · refine ⟨none, rtc₁, q₂, rfl, hq₀, nofun, fun _ _ _ hh hcalm hc => ?_⟩
              have hseen : rtc' = x.webRTCSeen false := hrtc' _ rfl hcalm
              have hours := webRTCIsRestricted_ours _ (hset hh (hq₂ hcalm) hc).2
              exact absurd (hseen ▸ hours) (by simp [h])
          · rintro e _ ⟨q₂, rfl, hq₂, hans, -⟩
            exact ⟨none, rtc₁, q₂, rfl, fun h => hq (hq₁ (hq₂ h)), nofun,
              fun _ _ ha => not_error (hans ha)⟩
        · rintro e _ ⟨rtc₁, q₁, rfl, hq₁, hset⟩
          refine ⟨none, rtc₁, q₁, rfl, fun h => hq (hq₁ h), nofun, fun _ _ _ hh hcalm hc => ?_⟩
          cases (hset hh hcalm hc).1
      · refine ⟨none, x.webRTC, q, rfl, hq, nofun, fun _ _ _ _ hcalm hc => ?_⟩
        rw [← hrtc _ rfl hcalm, hcontrol] at hc
        cases hc
    · refine ⟨x.proxy, x.webRTC, q, rfl, hq, fun _ hcalm => ?_, nofun⟩
      rw [← hrtc _ rfl hcalm]
      simpa using hrestricted
  · rintro e _ ⟨q, rfl, hq, hans, -⟩
    exact ⟨x.proxy, x.webRTC, q, rfl, hq, nofun, fun _ _ ha => not_error (hans ha)⟩

theorem ensureIncognitoWebRTC_spec :
    wp (routeLogic ok) ensureIncognitoWebRTC (fun r x' => ∃ q, x' = x.watch x.proxyCalm q ∧
      (q → x.webRTCCalm) ∧
      (r = .ok () → q → Browser.incognitoAllowed = true →
        webRTCIsRestricted (x.webRTCSeen true) = true) ∧
      (∀ e, r = .error e → ok.Answers → q → Browser.incognitoAllowed = true ∧
        webRTCIsRestricted (x.webRTCSeen true) = false)) x := by
  refine wp_await_bind incognitoWebRTCIsRestricted_spec ?_ (by rintro e _ ⟨b, q, ⟨⟩, -⟩)
  rintro b _ ⟨_, q, ⟨⟩, rfl, hq, htrue, hfalse⟩
  refine wp_ensure (fun h => ?_) (fun h => ?_)
  · exact ⟨q, rfl, hq, fun _ => htrue h, nofun⟩
  · exact ⟨q, rfl, hq, nofun, fun _ _ => hfalse h⟩

section Proxy

variable {c : Connection} {l : List JsString} {setting : Setting ProxyConfig}

/-- A PAC that was set and read back in regular windows. -/
theorem setProxy_spec (message : String) :
    wp (routeLogic ok) (setProxy (proxyConfigOf c l) message) (fun r x' => ∃ own p,
      x' = x.adjust own x.webRTC (x.attempts + 1) p x.webRTCCalm ∧ (p → x.proxyCalm) ∧
      (r = .ok () → own = some (proxyConfigOf c l) ∧
        (p → x.proxySeen false = ⟨.controlledByThisExtension, proxyConfigOf c l⟩) ∧
        (ok.Guarded → 1 ≤ x.attempts → x.cleared = false)) ∧
      (∀ e, r = .error e → ok.Answers → ok.Honours → p →
        ¬ (x.proxySeen false).levelOfControl.controllable = true)) x := by
  refine wp_bind _ (wp_route_call (.proxySet _)) ?_ ?_
  · rintro ⟨⟩ _ ⟨own, p, rfl, hp, hguard, hset⟩
    refine wp_await_bind (effectiveSetting_spec false) ?_ ?_
    · rintro applied _ ⟨p₁, rfl, hp₁, -, happlied⟩
      obtain ⟨hvalue, hours⟩ := happlied _ rfl
      refine wp_ensure (fun h => ?_) (fun h => ?_)
      · rw [isEffectiveProxySetting_iff] at h
        subst h
        refine ⟨own, p₁, rfl, fun h => hp (hp₁ h), fun _ => ⟨hours rfl rfl,
          fun hcalm => (hvalue hcalm).symm, fun hg hn => ?_⟩, nofun⟩
        exact hguard rfl hg (Nat.succ_le_succ hn)
      · refine ⟨own, p₁, rfl, fun h => hp (hp₁ h), nofun, fun _ _ _ hh hcalm hc => ?_⟩
        have hin : applied = ⟨.controlledByThisExtension, proxyConfigOf c l⟩ :=
          (hvalue hcalm).trans (hset hh (hp₁ hcalm) hc).2
        rw [(isEffectiveProxySetting_iff applied c l).2 hin] at h
        cases h
    · rintro e _ ⟨p₁, rfl, hp₁, hans, -⟩
      exact ⟨own, p₁, rfl, fun h => hp (hp₁ h), nofun, fun _ _ ha => not_error (hans ha)⟩
  · rintro e _ ⟨own, p, rfl, hp, -, hset⟩
    refine ⟨own, p, rfl, hp, nofun, fun _ _ _ hh hcalm hc => ?_⟩
    cases (hset hh hcalm hc).1

theorem ensureIncognitoProxy_spec (message : String) :
    wp (routeLogic ok) (ensureIncognitoProxy (proxyConfigOf c l) message) (fun r x' => ∃ p,
      x' = x.watch p x.webRTCCalm ∧ (p → x.proxyCalm) ∧
      (r = .ok () → p → Browser.incognitoAllowed = true →
        x.proxySeen true = ⟨.controlledByThisExtension, proxyConfigOf c l⟩) ∧
      (∀ e, r = .error e → ok.Answers → p → Browser.incognitoAllowed = true ∧
        x.proxySeen true ≠ ⟨.controlledByThisExtension, proxyConfigOf c l⟩)) x := by
  refine wp_await_bind (incognitoProxyState_spec _) ?_ (by rintro e _ ⟨st, p, ⟨⟩, -⟩)
  rintro st _ ⟨_, p, ⟨⟩, rfl, hp, heff, hst⟩
  refine wp_ensure (fun h => ?_) (fun h => ?_)
  · exact ⟨p, rfl, hp, fun _ hcalm ha => (isEffectiveProxySetting_iff _ c l).1 (heff h hcalm ha),
      nofun⟩
  · refine ⟨p, rfl, hp, nofun, fun _ _ ha hcalm => ?_⟩
    rw [hst ha hcalm, incognitoStateOf] at h
    split at h
    · rename_i hallowed
      refine ⟨hallowed, fun hin => ?_⟩
      rw [(isEffectiveProxySetting_iff _ c l).2 hin] at h
      cases h
    · cases h

theorem ensureRestricted_spec (message : String) :
    wp (routeLogic ok) (ensureRestricted message) (fun r x' => ∃ q, x' = x.watch x.proxyCalm q ∧
      (q → x.webRTCCalm) ∧ (r = .ok () → q → x.RestrictedSeen) ∧
      (∀ e, r = .error e → ok.Answers → q → ¬ x.RestrictedSeen)) x := by
  refine wp_await_bind webRTCIsRestrictedInAllEnabledContexts_spec ?_ ?_
  · rintro b _ ⟨q, rfl, hq, -, htrue, hfalse⟩
    refine wp_ensure (fun h => ?_) (fun h => ?_)
    · exact ⟨q, rfl, hq, fun _ => htrue (by rw [h]), nofun⟩
    · exact ⟨q, rfl, hq, nofun, fun _ _ => hfalse (by rw [h])⟩
  · rintro e _ ⟨q, rfl, hq, hans, -⟩
    exact ⟨q, rfl, hq, nofun, fun _ _ ha => not_error (hans ha)⟩

/-- `applyProxy` returns only with the PAC in force in regular windows. -/
theorem applyProxy_spec (hseen : x.proxyCalm → setting = x.proxySeen false)
    (hown : setting.levelOfControl = .controlledByThisExtension → x.proxy = some setting.value) :
    wp (routeLogic ok) (applyProxy setting (proxyConfigOf c l)) (fun r x' => ∃ own n p,
      x' = x.adjust own x.webRTC n p x.webRTCCalm ∧ (p → x.proxyCalm) ∧
      (r = .ok () → own = some (proxyConfigOf c l) ∧
        (p → x.proxySeen false = ⟨.controlledByThisExtension, proxyConfigOf c l⟩)) ∧
      (∀ e, r = .error e → ok.Answers → ok.Honours → p →
        ¬ (x.proxySeen false).levelOfControl.controllable = true)) x := by
  refine wp_when (fun hdiffers => ?_) (fun hsame => ?_)
  · refine wp_mono _ (setProxy_spec _) ?_
    rintro r _ ⟨own, p, rfl, hp, hdone, hfailed⟩
    exact ⟨own, _, p, rfl, hp, fun h => ⟨(hdone h).1, (hdone h).2.1⟩, hfailed⟩
  · have hin : setting = ⟨.controlledByThisExtension, proxyConfigOf c l⟩ := by
      simpa [isEffectiveProxySetting_iff] using hsame
    subst hin
    exact ⟨x.proxy, x.attempts, x.proxyCalm, rfl, id,
      fun _ => ⟨hown rfl, fun hcalm => (hseen hcalm).symm⟩, nofun⟩

/-- `verifyRoute` returns only if WebRTC is restricted and incognito windows
have the PAC. -/
theorem verifyRoute_spec :
    wp (routeLogic ok) (verifyRoute (proxyConfigOf c l)) (fun r x' => ∃ p q, x' = x.watch p q ∧
      (p → x.proxyCalm) ∧ (q → x.webRTCCalm) ∧
      (r = .ok () → (q → x.RestrictedSeen) ∧ (p → Browser.incognitoAllowed = true →
        x.proxySeen true = ⟨.controlledByThisExtension, proxyConfigOf c l⟩)) ∧
      (∀ e, r = .error e → ok.Answers → p → q → x.RestrictedSeen →
        ¬ (Browser.incognitoAllowed = true →
          x.proxySeen true = ⟨.controlledByThisExtension, proxyConfigOf c l⟩))) x := by
  refine wp_await_bind (webRTCSetting_spec false) ?_ ?_
  · rintro rtc _ ⟨q₁, rfl, hq₁, -, hrtc⟩
    have hregular : q₁ → rtc = x.webRTCSeen false := hrtc _ rfl
    refine wp_ensure_bind (fun h => ?_) (fun h => ?_)
    · refine wp_bind _ ensureIncognitoWebRTC_spec ?_ ?_
      · rintro ⟨⟩ _ ⟨q₂, rfl, hq₂, hinc, -⟩
        refine wp_mono _ (ensureIncognitoProxy_spec _) ?_
        rintro r _ ⟨p, rfl, hp, hcarries, hfailed⟩
        refine ⟨p, q₂, rfl, hp, fun hq => hq₁ (hq₂ hq), fun hr => ⟨fun hq => ?_, hcarries hr⟩, ?_⟩
        · exact ⟨hregular (hq₂ hq) ▸ h, hinc rfl hq⟩
        · rintro e he ha hcalm - - hin
          obtain ⟨hallowed, hne⟩ := hfailed e he ha hcalm
          exact hne (hin hallowed)
      · rintro e _ ⟨q₂, rfl, hq₂, -, hinc⟩
        refine ⟨x.proxyCalm, q₂, rfl, id, fun hq => hq₁ (hq₂ hq), nofun, ?_⟩
        rintro - - ha - hcalm hrestricted -
        obtain ⟨hallowed, hnot⟩ := hinc e rfl ha hcalm
        exact absurd (hrestricted.2 hallowed) (by simpa using hnot)
    · refine ⟨x.proxyCalm, q₁, rfl, id, hq₁, nofun, ?_⟩
      rintro - - - - hcalm hrestricted -
      rw [hregular hcalm] at h
      exact absurd hrestricted.1 (by simp [h])
  · rintro e _ ⟨q, rfl, hq, hans, -⟩
    exact ⟨x.proxyCalm, q, rfl, id, hq, nofun, fun _ _ ha => not_error (hans ha)⟩

end Proxy

end

/-- What `restoreRoute` leaves behind. It returns only with the whole route in
force, and where Chrome cooperates it fails only if somebody else holds a
setting or a change is pending. -/
theorem restoreRoute_spec {c : Connection} {l : List JsString} (hc : c.Valid)
    (hl : Normalized l) :
    wp (routeLogic ok) (restoreRoute c l) (fun r x' => ∃ own rtc n p q restore cleared,
      x' = (x.adjust own rtc n p q).flags restore cleared ∧ (p → x.proxyCalm) ∧
      (q → x.webRTCCalm) ∧
      (r = .ok () → own = some (proxyConfigOf c l) ∧ cleared = false ∧ (q → x.RestrictedSeen) ∧
        (p → Browser.incognitoAllowed = true →
          x.proxySeen true = ⟨.controlledByThisExtension, proxyConfigOf c l⟩)) ∧
      (ok.Answers → ok.Honours → q → x.WebRTCFree →
        webRTCIsRestricted (x.webRTCSeen false) = true) ∧
      (∀ e, r = .error e → ok.Answers → ok.Honours → x.Inherits → p → q → x.WebRTCFree →
        ¬ x.ProxyFree)) x := by
  refine wp_bind _ restrictWebRTC_spec ?_ ?_
  · rintro ⟨⟩ _ ⟨own₁, rtc₁, q₁, rfl, hq₁, hregular, -⟩
    have hregular : q₁ → webRTCIsRestricted (x.webRTCSeen false) = true := hregular rfl
    refine wp_bind _ ensureIncognitoWebRTC_spec ?_ ?_
    · rintro ⟨⟩ _ ⟨q₂, rfl, hq₂, hinc, -⟩
      have hrestricted : q₂ → x.RestrictedSeen := fun hq => ⟨hregular (hq₂ hq), hinc rfl hq⟩
      have hq : q₂ → x.webRTCCalm := fun h => hq₁ (hq₂ h)
      refine wp_await_bind (effectiveSetting_spec false) ?_ ?_
      · rintro setting _ ⟨p₁, rfl, hp₁, -, hsetting⟩
        obtain ⟨hvalue, hours⟩ := hsetting _ rfl
        have hvalue : p₁ → setting = x.proxySeen false := hvalue
        refine wp_ensure_bind (fun hcontrol => ?_) (fun hcontrol => ?_)
        · rw [buildProxyConfig_toJs hc hl]
          refine wp_await_bind (incognitoProxyState_spec (proxyConfigOf c l)) ?_
            (by rintro e _ ⟨st, p, ⟨⟩, -⟩)
          rintro st _ ⟨_, p₂, ⟨⟩, rfl, hp₂, -, hst⟩
          have hp : p₂ → x.proxyCalm := fun h => hp₁ (hp₂ h)
          refine wp_when_bind (fun hnot => ?_) (fun hcan => ?_)
          · -- Somebody else has incognito windows.
            refine ⟨trivial, own₁, rtc₁, x.attempts, p₂, q₂, true, x.cleared, rfl, hp, hq, (by rintro ⟨⟩),
              fun _ _ hcalm _ => hregular (hq₂ hcalm), ?_⟩
            rintro - - ha - - hcalm - - hfree
            rw [hst ha hcalm, incognitoStateOf] at hnot
            split at hnot
            · rename_i hallowed
              have hctrl := hfree.2 hallowed
              exact absurd hctrl (by simpa using hnot)
            · cases hnot
          · refine wp_bind _ (applyProxy_spec (fun hcalm => ?_) (fun h => ?_)) ?_ ?_
            · exact hvalue (hp₂ hcalm)
            · exact hours rfl h
            · rintro ⟨⟩ _ ⟨own₃, n₃, p₃, rfl, hp₃, happlied, -⟩
              obtain ⟨hown, hseen⟩ := happlied rfl
              have hseen : p₃ → x.proxySeen false =
                  ⟨.controlledByThisExtension, proxyConfigOf c l⟩ := hseen
              refine wp_bind _ verifyRoute_spec ?_ ?_
              · rintro ⟨⟩ _ ⟨p₄, q₄, rfl, hp₄, hq₄, hverified, -⟩
                obtain ⟨-, hcarries⟩ := hverified rfl
                refine ⟨trivial, trivial, own₃, rtc₁, n₃, p₄, q₄, false, false, rfl,
                  fun h => hp (hp₃ (hp₄ h)), fun h => hq (hq₄ h),
                  fun _ => ⟨hown, rfl, fun h => hrestricted (hq₄ h), hcarries⟩,
                  fun _ _ hcalm _ => hregular (hq₂ (hq₄ hcalm)), (by rintro _ ⟨⟩)⟩
              · rintro e _ ⟨p₄, q₄, rfl, hp₄, hq₄, -, hfailed⟩
                refine ⟨own₃, rtc₁, n₃, p₄, q₄, x.restore, x.cleared, rfl,
                  fun h => hp (hp₃ (hp₄ h)), fun h => hq (hq₄ h), (by rintro ⟨⟩),
                  fun _ _ hcalm _ => hregular (hq₂ (hq₄ hcalm)), ?_⟩
                rintro - - ha - hinherits hcalm hcalm' - hfree
                refine hfailed e rfl ha hcalm hcalm' (hrestricted (hq₄ hcalm')) fun hallowed => ?_
                exact (hinherits.1 (hfree.2 hallowed)).trans (hseen (hp₄ hcalm))
            · rintro e _ ⟨own₃, n₃, p₃, rfl, hp₃, -, hfailed⟩
              refine ⟨own₃, rtc₁, n₃, p₃, q₂, x.restore, x.cleared, rfl, fun h => hp (hp₃ h), hq,
                (by rintro ⟨⟩), fun _ _ hcalm _ => hregular (hq₂ hcalm), ?_⟩
              exact fun _ _ ha hh _ hcalm _ _ hfree => hfailed e rfl ha hh hcalm hfree.1
        · refine ⟨own₁, rtc₁, x.attempts, p₁, q₂, x.restore, x.cleared, rfl, hp₁, hq, (by rintro ⟨⟩),
            fun _ _ hcalm _ => hregular (hq₂ hcalm), ?_⟩
          rintro - - - - - hcalm - - hfree
          have hctrl := hfree.1
          rw [← hvalue hcalm, hcontrol] at hctrl
          cases hctrl
      · rintro e _ ⟨p₁, rfl, hp₁, hans, -⟩
        exact ⟨own₁, rtc₁, x.attempts, p₁, q₂, x.restore, x.cleared, rfl, hp₁, hq, (by rintro ⟨⟩),
          fun _ _ hcalm _ => hregular (hq₂ hcalm), fun _ _ ha => not_error (hans ha)⟩
    · rintro e _ ⟨q₂, rfl, hq₂, -, hinc⟩
      refine ⟨own₁, rtc₁, x.attempts, x.proxyCalm, q₂, x.restore, x.cleared, rfl, id,
        fun h => hq₁ (hq₂ h), (by rintro ⟨⟩), fun _ _ hcalm _ => hregular (hq₂ hcalm), ?_⟩
      rintro - - ha - hinherits - hcalm hfree -
      obtain ⟨hallowed, hnot⟩ := hinc e rfl ha hcalm
      have hsame := hinherits.2 (hfree.2 hallowed)
      have hnot : webRTCIsRestricted (x.webRTCSeen true) = false := hnot
      rw [hsame, hregular (hq₂ hcalm)] at hnot
      cases hnot
  · rintro e _ ⟨own₁, rtc₁, q₁, rfl, hq₁, -, hfailed⟩
    refine ⟨own₁, rtc₁, x.attempts, x.proxyCalm, q₁, x.restore, x.cleared, rfl, id, hq₁, (by rintro ⟨⟩),
      fun ha hh hcalm hfree => ?_, fun _ _ ha hh _ _ hcalm hfree => ?_⟩
    · exact absurd hfree.1 (hfailed e rfl ha hh hcalm)
    · exact absurd hfree.1 (hfailed e rfl ha hh hcalm)

/-! ## What a writer leaves behind -/

/-- The configuration is enabled and valid. -/
def Config.Enabled (data : Config) (c : Connection) (l : List JsString) : Prop :=
  data.isEnabled = true ∧ configured data = .ok (some c, l)

/-- What is enabled is valid. -/
def Config.Sound (data : Config) : Prop := data.isEnabled = true → ∃ c l, data.Enabled c l

omit [Browser] in
theorem Config.Enabled.valid {data : Config} {c : Connection} {l : List JsString}
    (h : data.Enabled c l) : c.Valid ∧ Normalized l :=
  ⟨configuredConnection_valid (configured_eq_ok.1 h.2).1,
    normalizeExclusions_normalized (configured_eq_ok.1 h.2).2⟩

namespace RouteView

/-- The whole route of the stored configuration is in force, as far as nothing
is pending. -/
structure Standing (x : RouteView) (c : Connection) (l : List JsString) : Prop where
  enabled : x.config.Enabled c l
  proxy : x.proxy = some (proxyConfigOf c l)
  cleared : x.cleared = false
  restricted : x.Restricted
  carries : x.Carries (proxyConfigOf c l)

/-- No PAC, or the whole route. -/
def Settled (x : RouteView) : Prop := x.proxy = none ∨ ∃ c l, x.Standing c l

/-- WebRTC is restricted for an enabled configuration unless somebody else holds
it or a change is pending. -/
def WebRTCBack (x : RouteView) : Prop :=
  ∀ c l, x.config.Enabled c l → x.webRTCCalm → x.WebRTCFree →
    webRTCIsRestricted (x.webRTCSeen false) = true

/-- An enabled configuration is in force unless somebody holds a setting or a
change is pending. -/
structure Recovered (x : RouteView) : Prop where
  sound : x.config.Sound
  webRTC : x.WebRTCBack
  proxy : ∀ c l, x.config.Enabled c l → x.proxyCalm → x.webRTCCalm → x.ProxyFree →
    x.WebRTCFree → x.proxy ≠ none

theorem Settled.watch {x : RouteView} (h : x.Settled) {p q : Prop} (hp : p → x.proxyCalm)
    (hq : q → x.webRTCCalm) : (x.watch p q).Settled := by
  rcases h with hnone | ⟨c, l, h⟩
  · exact Or.inl hnone
  · exact Or.inr ⟨c, l, h.enabled, h.proxy, h.cleared, fun hcalm => h.restricted (hq hcalm),
      fun hcalm => h.carries (hp hcalm)⟩

theorem Recovered.watch {x : RouteView} (h : x.Recovered) {p q : Prop} (hp : p → x.proxyCalm)
    (hq : q → x.webRTCCalm) : (x.watch p q).Recovered :=
  ⟨h.sound, fun c l henabled hcalm => h.webRTC c l henabled (hq hcalm),
    fun c l henabled hcalm hcalm' => h.proxy c l henabled (hp hcalm) (hq hcalm')⟩

/-- A configuration that is not enabled asks for nothing. -/
theorem recovered_of_not_enabled {x : RouteView} (h : x.config.isEnabled = false) :
    x.Recovered :=
  ⟨fun hon => absurd (h.symm.trans hon) nofun, fun _ _ hon => absurd (h.symm.trans hon.1) nofun,
    fun _ _ hon => absurd (h.symm.trans hon.1) nofun⟩

end RouteView

omit [Platform] in
theorem clearOwnSettings_spec :
    wp (routeLogic ok) clearOwnSettings (fun r x' => r = .ok () ∧
      x' = x.adjust none none x.attempts x.proxyCalm x.webRTCCalm) x := by
  refine wp_await_bind clearOwnProxySetting_spec ?_ (by rintro e _ ⟨⟨⟩, -⟩)
  rintro ⟨⟩ _ ⟨-, rfl⟩
  exact wp_await (wp_mono _ clearOwnWebRTCSetting_spec fun r x' h => h)

/-- `await updateBadge()` at the end of a function. -/
theorem await_updateBadge_spec :
    wp (routeLogic ok) (await updateBadge) (fun r x' => ∃ a b, x' = x.watch a b ∧
      (a → x.proxyCalm) ∧ (b → x.webRTCCalm) ∧ (ok.Answers → ∃ v, r = .ok v)) x :=
  wp_await (questions_updateBadge x)

/-- `reconcileRoute` never fails, and where Chrome cooperates it restores what
can be restored. -/
theorem reconcileRoute_spec :
    wp (routeLogic ok) (reconcileRoute x.config) (fun r x' => r = .ok () ∧ x'.Settled ∧
      (ok.Answers → ok.Honours → x.Inherits → x'.Recovered)) x := by
  unfold reconcileRoute
  split
  · -- A corrupted configuration.
    refine wp_bind _ (storageSet_spec _) ?_ (by rintro e _ ⟨⟨⟩, -⟩)
    rintro ⟨⟩ _ ⟨-, rfl⟩
    refine wp_mono _ clearOwnSettings_spec ?_
    rintro r _ ⟨rfl, rfl⟩
    refine ⟨rfl, Or.inl rfl, fun _ _ _ => ?_⟩
    exact RouteView.recovered_of_not_enabled rfl
  · -- No connection.
    rename_i exclusions hconfigured
    refine wp_when_bind (fun _ => ?_) (fun hdisabled => ?_)
    · refine wp_bind _ (storageSet_spec _) ?_ (by rintro e _ ⟨⟨⟩, -⟩)
      rintro ⟨⟩ _ ⟨-, rfl⟩
      refine wp_mono _ clearOwnSettings_spec ?_
      rintro r _ ⟨rfl, rfl⟩
      refine ⟨rfl, Or.inl rfl, fun _ _ _ => ?_⟩
      exact RouteView.recovered_of_not_enabled rfl
    · refine wp_mono _ clearOwnSettings_spec ?_
      rintro r _ ⟨rfl, rfl⟩
      exact ⟨rfl, Or.inl rfl, fun _ _ _ => RouteView.recovered_of_not_enabled hdisabled⟩
  · rename_i connection exclusions hconfigured
    split
    · rename_i hdisabled
      refine wp_mono _ clearOwnSettings_spec ?_
      rintro r _ ⟨rfl, rfl⟩
      exact ⟨rfl, Or.inl rfl, fun _ _ _ =>
        RouteView.recovered_of_not_enabled (by simpa using hdisabled)⟩
    · rename_i henabled
      have hstored : x.config.Enabled connection exclusions := ⟨by simpa using henabled, hconfigured⟩
      obtain ⟨hc, hl⟩ := hstored.valid
      refine wp_tryCatch _ (restoreRoute_spec hc hl) ?_ ?_
      · rintro ⟨⟩ _ ⟨own, rtc, n, p, q, restore, cleared, rfl, -, -, hdone, hwebRTC, -⟩
        obtain ⟨hown, hcleared, hrestricted, hcarries⟩ := hdone rfl
        refine ⟨rfl, Or.inr ⟨connection, exclusions, hstored, hown, hcleared, hrestricted,
          hcarries⟩, fun ha hh _ => ⟨fun _ => ⟨_, _, hstored⟩,
          fun _ _ _ => hwebRTC ha hh, fun _ _ _ _ _ _ _ => ?_⟩⟩
        simp [hown]
      · rintro e _ ⟨own, rtc, n, p, q, restore, cleared, rfl, -, -, -, hwebRTC, hfailed⟩
        refine wp_await (wp_mono _ clearOwnProxySetting_spec ?_)
        rintro r _ ⟨rfl, rfl⟩
        refine ⟨rfl, Or.inl rfl, fun ha hh hi => ⟨fun _ => ⟨_, _, hstored⟩,
          fun _ _ _ => hwebRTC ha hh, ?_⟩⟩
        intro c l _ hcalm hcalm' hproxy hwebRTC' _
        exact hfailed e rfl ha hh hi hcalm hcalm' hwebRTC' hproxy

/-- `reconcileAtStartup`, in whatever state it begins. -/
theorem reconcileAtStartup_spec :
    wp (routeLogic ok) reconcileAtStartup (fun r x' => (ok.Answers → ∃ v, r = .ok v) ∧ x'.Settled ∧
      (ok.Answers → ok.Honours → x.Inherits → x'.Recovered)) x := by
  refine wp_bind _ (wp_route_call .setAccessLevel) ?_ (by rintro e _ ⟨⟨⟩, -⟩)
  rintro ⟨⟩ _ ⟨-, rfl⟩
  refine wp_await_bind stored_spec ?_ (by rintro e _ ⟨-, data, ⟨⟩, -⟩)
  rintro data _ ⟨rfl, _, ⟨⟩, hdata⟩
  rw [hdata]
  refine wp_bind _ reconcileRoute_spec ?_ (by rintro e _ ⟨⟨⟩, -⟩)
  rintro ⟨⟩ x₁ ⟨-, hsettled, hrecovered⟩
  refine wp_mono _ await_updateBadge_spec ?_
  rintro r _ ⟨a, b, rfl, ha, hb, hans⟩
  exact ⟨hans, hsettled.watch ha hb, fun h h' h'' => (hrecovered h h' h'').watch ha hb⟩

omit [Platform] in
theorem attempt_clear_spec :
    wp (routeLogic ok) (attempt clearOwnProxySetting) (fun r x' => r = .ok () ∧
      x' = x.adjust none x.webRTC x.attempts x.proxyCalm x.webRTCCalm) x :=
  wp_tryCatch _ (wp_await clearOwnProxySetting_spec) (fun _ _ h => h)
    (by rintro e _ ⟨⟨⟩, -⟩)

/-- `boot` settles, and leaves behind what `reconcileAtStartup` does. -/
theorem boot_spec :
    wp (routeLogic ok) boot (fun _ x' => x'.Settled ∧
      (ok.Answers → ok.Honours → x.Inherits → x'.Recovered)) x := by
  refine wp_tryCatch _ reconcileAtStartup_spec ?_ ?_
  · exact fun _ _ ⟨_, hsettled, hrecovered⟩ => ⟨hsettled, hrecovered⟩
  · rintro e x₁ ⟨hans, -, -⟩
    refine wp_bind _ attempt_clear_spec ?_ (by rintro e _ ⟨⟨⟩, -⟩)
    rintro ⟨⟩ _ ⟨-, rfl⟩
    refine wp_tryCatch _ await_updateBadge_spec ?_ ?_
    · rintro ⟨⟩ _ ⟨a, b, rfl, -⟩
      exact ⟨Or.inl rfl, fun ha => not_error (hans ha)⟩
    · rintro e' _ ⟨a, b, rfl, -⟩
      exact ⟨Or.inl rfl, fun ha => not_error (hans ha)⟩

end

end BrowserVpn
