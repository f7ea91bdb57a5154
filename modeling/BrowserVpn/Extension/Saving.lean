import BrowserVpn.Extension.History
import BrowserVpn.Extension.Safety

/-!
# Extension.Saving — `saveExclusions` is all or nothing

While `saveExclusions` holds the queue it alone writes the stored configuration
and the own preference, so it knows both exactly (`Saving`); of the effective
settings it knows what it has read since its last `set`. Others may take and
release settings at every await, and every `set` may fail.
-/

namespace BrowserVpn

open Async

/-! ## Readings of the trace -/

/-- The proxy settings that the holder of the queue has read since it began or
last called `chrome.proxy.settings.set`, newest first. -/
def settingsRead : List Obs → List (Bool × Setting ProxyConfig)
  | [] => []
  | .restarted :: _ => []
  | .started _ _ :: _ => []
  | .landed .op (.proxySet _) _ :: _ => []
  | .landed .op (.proxyGet incognito) (.ok setting) :: trace =>
      (incognito, setting) :: settingsRead trace
  | _ :: trace => settingsRead trace

/-- What an observation adds to `settingsRead`. -/
theorem settingsRead_landed {c : Call} {r : Except String (Reply c)} {trace : List Obs}
    (hset : ∀ v, c ≠ .proxySet v) (hget : ∀ incognito, c ≠ .proxyGet incognito) :
    settingsRead (.landed .op c r :: trace) = settingsRead trace := by
  cases c <;> first | rfl | exact absurd rfl (hset _) | exact absurd rfl (hget _)

theorem settingsRead_cons {o : Obs} {trace trace' : List Obs}
    (h : settingsRead trace = settingsRead trace') :
    settingsRead (o :: trace) = settingsRead (o :: trace') := by
  cases o with
  | landed a c r => cases a <;> cases c <;> cases r <;> simp [settingsRead, h]
  | _ => simp [settingsRead, h]

theorem settingsRead_error {incognito : Bool} {e : String} {trace : List Obs} :
    settingsRead (.landed .op (.proxyGet incognito) (.error e) :: trace) = settingsRead trace :=
  rfl

/-! ## The logic -/

/-- What `saveExclusions` knows. -/
structure Saving where
  config : Config
  own : Option ProxyConfig
  /-- How often it has read the storage. -/
  reads : Nat
  /-- The proxy settings it has read since its last `set`. -/
  shown : List (Bool × Setting ProxyConfig)

namespace Saving

variable {x x' x'' : Saving}

/-- A view of the same route, that may have read more. -/
structure Sees (x x' : Saving) : Prop where
  config : x'.config = x.config
  own : x'.own = x.own
  reads : x.reads ≤ x'.reads
  shown : x.shown ⊆ x'.shown

theorem Sees.refl (x : Saving) : x.Sees x := ⟨rfl, rfl, Nat.le_refl _, List.Subset.refl _⟩

theorem Sees.trans (h : x.Sees x') (h' : x'.Sees x'') : x.Sees x'' :=
  ⟨h'.config.trans h.config, h'.own.trans h.own, Nat.le_trans h.reads h'.reads,
    List.Subset.trans h.shown h'.shown⟩

end Saving

section

variable [Platform] [Browser]

/-- The PAC `v` was read back in every enabled context. -/
def Saving.Verified (x : Saving) (v : ProxyConfig) : Prop :=
  (false, ⟨.controlledByThisExtension, v⟩) ∈ x.shown ∧
    (Browser.incognitoAllowed = true → (true, ⟨.controlledByThisExtension, v⟩) ∈ x.shown)

omit [Platform] in
theorem Saving.Verified.sees {x x' : Saving} {v : ProxyConfig} (h : x.Verified v)
    (hx : x.Sees x') : x'.Verified v :=
  ⟨hx.shown h.1, fun hallowed => hx.shown (h.2 hallowed)⟩

/-- A question of `status`, which `saveExclusions` asks after it has read the
storage for the second time, is answered; where `answered` holds, so is any other. -/
def Saving.Answers {α : Type} (answered : Prop) (x : Saving) (r : Except String α) : Prop :=
  answered ∨ 2 ≤ x.reads → ∃ a, r = .ok a

/-- What a reply tells `saveExclusions`. It makes no other calls. -/
def savingReplies (answered : Prop) : (c : Call) → Saving → Except String (Reply c) → Saving → Prop
  | .storageGet, x, r, x' => x' = { x with reads := x.reads + 1 } ∧
      ∃ data : Storage, r = .ok data ∧ data.toConfig = x.config
  | .storageSet p, x, r, x' =>
      r = .ok () ∧ x' = { x with config := ((⟨x.config, none⟩ : Storage).set p).toConfig }
  | .proxyGet incognito, x, r, x' => x.Answers answered r ∧ x.Sees x' ∧ ∀ v, r = .ok v →
      (incognito, v) ∈ x'.shown ∧
      (incognito = false → v.levelOfControl = .controlledByThisExtension → x.own = some v.value)
  | .webRTCGet _, x, r, x' => x.Answers answered r ∧ x' = x
  | .isAllowedIncognitoAccess, x, r, x' => x.Answers answered r ∧ x' = x ∧
      ∀ b, r = .ok b → b = Browser.incognitoAllowed
  | .setBadgeText _, x, r, x' => x.Answers answered r ∧ x' = x
  | .setBadgeBackgroundColor _, x, r, x' => x.Answers answered r ∧ x' = x
  | .proxySet v, x, _, x' => ∃ own, (own = x.own ∨ own = some v) ∧
      x' = { x with own, shown := [] }
  | .proxyClear, x, r, x' => r = .ok () ∧ x' = { x with own := none }
  | .tick, x, _, x' => x' = x
  | _, _, _, _ => True

@[reducible] def savingLogic (answered : Prop) : Logic api Saving where
  reads x _ x' := x' = x
  mayWrite _ _ := True
  write _ x := x
  mayCall _ _ := True
  issue _ x := x
  replies := savingReplies answered

instance (answered : Prop) : Ticks (savingLogic answered) where
  mayTick _ := trivial
  tick h := h

variable {answered : Prop} {α β : Type} {x : Saving}

omit [Platform] in
theorem wp_saving_call (c : Call) :
    wp (savingLogic answered) (chrome c) (fun r x' => savingReplies answered c x r x') x :=
  ⟨trivial, fun _ _ h => h⟩

/-! ## Questions -/

/-- A function that only asks, and returns when its calls are answered. -/
def Looks (answered : Prop) (p : Js α) : Prop :=
  ∀ x, wp (savingLogic answered) p (fun r x' => x.Sees x' ∧ x.Answers answered r) x

section

omit [Platform]

namespace Looks

theorem pure (a : α) : Looks answered (pure a : Js α) :=
  fun x => ⟨.refl x, fun _ => ⟨a, rfl⟩⟩

theorem bind {p : Js α} {f : α → Js β} (hp : Looks answered p) (hf : ∀ a, Looks answered (f a)) :
    Looks answered (p >>= f) := by
  intro x
  refine wp_bind _ (hp x) ?_ ?_
  · rintro a x₁ ⟨hx₁, -⟩
    refine wp_mono _ (hf a x₁) ?_
    rintro r x₂ ⟨hx₂, hr⟩
    exact ⟨hx₁.trans hx₂, fun hreads => hr (hreads.imp_right fun h => Nat.le_trans h hx₁.reads)⟩
  · rintro e x₁ ⟨hx₁, hr⟩
    exact ⟨hx₁, fun hreads => not_error (hr hreads)⟩

theorem await {p : Js α} (hp : Looks answered p) : Looks answered (await p) := fun x => wp_await (hp x)

theorem map {p : Js α} (hp : Looks answered p) (f : α → β) : Looks answered (f <$> p) :=
  hp.bind fun a => .pure (f a)

theorem when {b : Bool} {p : Js Unit} (hp : Looks answered p) : Looks answered (when b p) := by
  cases b with
  | true => exact hp
  | false => exact .pure ()

/-- What is caught cannot fail. -/
theorem tryCatch {p : Js α} {h : String → Js α} (hp : Looks answered p) (hh : ∀ e, Looks answered (h e)) :
    Looks answered (tryCatch p h) := by
  intro x
  refine wp_tryCatch _ (hp x) (fun _ _ h => h) ?_
  rintro e x₁ ⟨hx₁, -⟩
  refine wp_mono _ (hh e x₁) ?_
  rintro r x₂ ⟨hx₂, hr⟩
  exact ⟨hx₁.trans hx₂, fun hreads => hr (hreads.imp_right fun h => Nat.le_trans h hx₁.reads)⟩

end Looks

theorem looks_call {c : Call} (hc : c.answers = true) : Looks answered (chrome c) := by
  intro x
  refine wp_mono _ (wp_saving_call c) ?_
  intro r x' h
  cases c with
  | proxyGet incognito => exact ⟨h.2.1, h.1⟩
  | webRTCGet incognito => exact ⟨h.2 ▸ .refl x, h.1⟩
  | isAllowedIncognitoAccess => exact ⟨h.2.1 ▸ .refl x, h.1⟩
  | setBadgeText text => exact ⟨h.2 ▸ .refl x, h.1⟩
  | setBadgeBackgroundColor color => exact ⟨h.2 ▸ .refl x, h.1⟩
  | _ => cases hc

theorem looks_effectiveSetting (incognito : Bool) : Looks answered (effectiveSetting incognito) :=
  looks_call rfl

theorem looks_webRTCSetting (incognito : Bool) : Looks answered (webRTCSetting incognito) :=
  looks_call rfl

theorem looks_incognitoWebRTCIsRestricted : Looks answered incognitoWebRTCIsRestricted := by
  refine .tryCatch (.bind (looks_call rfl) fun allowed => ?_) fun _ => .pure false
  split
  · exact .map (looks_webRTCSetting true).await _
  · exact .pure true

theorem looks_webRTCIsRestrictedInAllEnabledContexts :
    Looks answered webRTCIsRestrictedInAllEnabledContexts := by
  refine .bind (looks_webRTCSetting false).await fun setting => ?_
  split
  · exact looks_incognitoWebRTCIsRestricted.await
  · exact .pure false

theorem looks_incognitoProxyState (expected : ProxyConfig) :
    Looks answered (incognitoProxyState expected) := by
  refine .tryCatch (.bind (looks_call rfl) fun allowed => ?_) fun _ => .pure _
  split
  · exact .bind (looks_effectiveSetting true).await fun _ => .pure _
  · exact .pure _

/-- A function that reads the storage and then only asks: after one read it
returns. -/
def Rereads (answered : Prop) (p : Js α) : Prop :=
  ∀ x, wp (savingLogic answered) p (fun r x' => x.Sees x' ∧ (1 ≤ x.reads → 2 ≤ x'.reads) ∧
    (answered ∨ 1 ≤ x.reads → ∃ a, r = .ok a)) x

namespace Rereads

theorem stored {f : Storage → Js α} (hf : ∀ data, Looks answered (f data)) :
    Rereads answered (BrowserVpn.await stored >>= f) := by
  intro x
  refine wp_await_bind (wp_saving_call .storageGet) ?_ ?_
  · rintro data _ ⟨rfl, -⟩
    refine wp_mono _ (hf data _) ?_
    rintro r x' ⟨hx', hr⟩
    have hreads : x.reads + 1 ≤ x'.reads := hx'.reads
    refine ⟨⟨hx'.config, hx'.own, by omega, hx'.shown⟩, fun h => by omega, fun h => hr ?_⟩
    exact h.imp_right Nat.succ_le_succ
  · rintro e _ ⟨-, data, ⟨⟩, -⟩

theorem bind {p : Js α} {f : α → Js β} (hp : Rereads answered p) (hf : ∀ a, Looks answered (f a)) :
    Rereads answered (p >>= f) := by
  intro x
  refine wp_bind _ (hp x) ?_ ?_
  · rintro a x₁ ⟨hx₁, hreads, -⟩
    refine wp_mono _ (hf a x₁) ?_
    rintro r x₂ ⟨hx₂, hr⟩
    exact ⟨hx₁.trans hx₂, fun h => Nat.le_trans (hreads h) hx₂.reads, fun h => hr (h.imp_right hreads)⟩
  · rintro e x₁ ⟨hx₁, hreads, hr⟩
    exact ⟨hx₁, hreads, fun h => not_error (hr h)⟩

theorem await {p : Js α} (hp : Rereads answered p) : Rereads answered (await p) :=
  fun x => wp_await (hp x)

theorem looks {p : Js α} (hp : Rereads answered p) : Looks answered p := by
  refine fun x => wp_mono _ (hp x) ?_
  rintro r x' ⟨hx', -, hr⟩
  exact ⟨hx', fun h => hr (h.imp_right Nat.le_of_succ_le)⟩

end Rereads

end

theorem rereads_status : Rereads answered status := by
  refine .stored fun data => ?_
  refine .bind (looks_effectiveSetting false).await fun setting => ?_
  refine .bind (looks_webRTCSetting false).await fun webRTC => ?_
  split
  · exact .pure _
  · exact .pure _
  · rename_i connection exclusions hconfigured
    obtain ⟨hc, hl⟩ := configured_eq_ok.1 hconfigured
    split
    · exact .pure _
    · unfold enabledStatus
      split
      · exact .pure _
      · refine .bind looks_incognitoWebRTCIsRestricted.await fun restricted => ?_
        split
        · exact .pure _
        · rw [buildProxyConfig_configured hc (normalizeExclusions_normalized hl)]
          refine .bind (Looks.pure (proxyConfigOf connection exclusions)) fun expected => ?_
          exact .bind (looks_incognitoProxyState expected).await fun _ => .pure _

theorem rereads_updateBadge : Rereads answered updateBadge := by
  refine .bind rereads_status.await fun current => ?_
  exact .bind (looks_call rfl) fun _ => .when (looks_call rfl)

/-- `await updateBadge(); return status();` at the end of the operation. -/
theorem rereads_badgeAndStatus : Rereads answered (await updateBadge >>= fun _ => status) :=
  rereads_updateBadge.await.bind fun _ => rereads_status.looks

/-! ## Setting and verifying a PAC -/

section Connection

variable {c : Connection} {l : List JsString}

omit [Platform] in
theorem effectiveSetting_shown (incognito : Bool) :
    wp (savingLogic answered) (effectiveSetting incognito) (fun r x' => x.Sees x' ∧ ∀ v, r = .ok v →
      (incognito, v) ∈ x'.shown ∧
      (incognito = false → v.levelOfControl = .controlledByThisExtension →
        x.own = some v.value)) x := by
  refine wp_mono _ (wp_saving_call (.proxyGet incognito)) ?_
  exact fun r x' ⟨_, hx', hr⟩ => ⟨hx', hr⟩

omit [Platform] in
/-- Incognito windows are said to have the PAC only if it was read back there. -/
theorem incognitoProxyState_shown :
    wp (savingLogic answered) (incognitoProxyState (proxyConfigOf c l)) (fun r x' => x.Sees x' ∧
      ∀ st, r = .ok st → st.effective = true → Browser.incognitoAllowed = true →
        (true, ⟨.controlledByThisExtension, proxyConfigOf c l⟩) ∈ x'.shown) x := by
  refine wp_tryCatch _ (M := fun r x' => x.Sees x' ∧ ∀ st, r = .ok st → st.effective = true →
    Browser.incognitoAllowed = true →
      (true, ⟨.controlledByThisExtension, proxyConfigOf c l⟩) ∈ x'.shown) ?_ (fun _ _ h => h) ?_
  · refine wp_bind _ (wp_saving_call .isAllowedIncognitoAccess) ?_ ?_
    · rintro allowed _ ⟨-, rfl, hallowed⟩
      obtain rfl := hallowed _ rfl
      split
      · refine wp_await_bind (effectiveSetting_shown true) ?_ ?_
        · rintro setting x₁ ⟨hx₁, hshown⟩
          refine ⟨hx₁, ?_⟩
          rintro st ⟨⟩ heffective -
          have hours := (isEffectiveProxySetting_iff setting c l).1 heffective
          exact hours ▸ (hshown setting rfl).1
        · exact fun e x₁ ⟨hx₁, _⟩ => ⟨hx₁, fun _ h => by cases h⟩
      · rename_i hnot
        exact ⟨.refl _, fun _ _ _ hallowed => absurd hallowed hnot⟩
    · rintro e _ ⟨-, rfl, -⟩
      exact ⟨.refl _, fun _ h => by cases h⟩
  · rintro e x₁ ⟨hx₁, -⟩
    refine ⟨hx₁, ?_⟩
    rintro st ⟨⟩ ⟨⟩

/-- The configuration is untouched and the preference is what it was or `v`. -/
structure Saving.Puts (v : ProxyConfig) (x x' : Saving) : Prop where
  config : x'.config = x.config
  reads : x.reads ≤ x'.reads
  own : x'.own = x.own ∨ x'.own = some v

omit [Platform] [Browser] in
theorem Saving.Sees.puts {x x' : Saving} (h : x.Sees x') (v : ProxyConfig) : x.Puts v x' :=
  ⟨h.config, h.reads, Or.inl h.own⟩

omit [Platform] [Browser] in
theorem Saving.Puts.sees {v : ProxyConfig} {x x' x'' : Saving} (h : x.Puts v x')
    (h' : x'.Sees x'') : x.Puts v x'' :=
  ⟨h'.config.trans h.config, Nat.le_trans h.reads h'.reads, h'.own ▸ h.own⟩

/-- The own preference is `v`, and it was read back in every enabled context. -/
structure Saving.InForce (x : Saving) (v : ProxyConfig) : Prop where
  own : x.own = some v
  verified : x.Verified v

omit [Platform] in
theorem setProxy_saves (message : String) :
    wp (savingLogic answered) (setProxy (proxyConfigOf c l) message) (fun r x' =>
      x.Puts (proxyConfigOf c l) x' ∧ (r = .ok () → x'.own = some (proxyConfigOf c l) ∧
        (false, ⟨.controlledByThisExtension, proxyConfigOf c l⟩) ∈ x'.shown)) x := by
  refine wp_bind _ (wp_saving_call (.proxySet _)) ?_ ?_
  · rintro ⟨⟩ _ ⟨own, hown, rfl⟩
    have hput : x.Puts (proxyConfigOf c l) { x with own, shown := [] } :=
      ⟨rfl, Nat.le_refl _, hown⟩
    refine wp_await_bind (effectiveSetting_shown false) ?_ ?_
    · rintro applied x₁ ⟨hx₁, happlied⟩
      obtain ⟨hshown, hours⟩ := happlied applied rfl
      refine wp_ensure (fun h => ?_) fun _ => ?_
      · rw [isEffectiveProxySetting_iff] at h
        subst h
        exact ⟨hput.sees hx₁, fun _ => ⟨hx₁.own.trans (hours rfl rfl), hshown⟩⟩
      · exact ⟨hput.sees hx₁, nofun⟩
    · exact fun e x₁ ⟨hx₁, _⟩ => ⟨hput.sees hx₁, nofun⟩
  · rintro e _ ⟨own, hown, rfl⟩
    exact ⟨⟨rfl, Nat.le_refl _, hown⟩, nofun⟩

omit [Platform] in
/-- The tail of `saveExclusions` and of its rollback: it returns only with the
PAC verified everywhere. -/
theorem setAndVerify_saves (m₁ m₂ m₃ : String) :
    wp (savingLogic answered)
      (do setProxy (proxyConfigOf c l) m₁
          ensureIncognitoProxy (proxyConfigOf c l) m₂
          ensureRestricted m₃)
      (fun r x' => x.Puts (proxyConfigOf c l) x' ∧
        (r = .ok () → x'.InForce (proxyConfigOf c l))) x := by
  refine wp_bind _ (setProxy_saves m₁) ?_ fun e x₁ ⟨hx₁, _⟩ => ⟨hx₁, nofun⟩
  rintro ⟨⟩ x₁ ⟨hx₁, hdone⟩
  obtain ⟨hown, hregular⟩ := hdone rfl
  refine wp_bind _ (M := fun r x₂ => x₁.Sees x₂ ∧ (r = .ok () → Browser.incognitoAllowed = true →
    (true, ⟨.controlledByThisExtension, proxyConfigOf c l⟩) ∈ x₂.shown)) ?_ ?_
    fun e x₂ ⟨hx₂, _⟩ => ⟨hx₁.sees hx₂, nofun⟩
  · refine wp_await_bind incognitoProxyState_shown ?_ fun e x₂ ⟨hx₂, _⟩ => ⟨hx₂, nofun⟩
    rintro st x₂ ⟨hx₂, hst⟩
    exact wp_ensure (fun h => ⟨hx₂, fun _ => hst st rfl h⟩) fun _ => ⟨hx₂, nofun⟩
  · rintro ⟨⟩ x₂ ⟨hx₂, hincognito⟩
    refine wp_bind _ (looks_webRTCIsRestrictedInAllEnabledContexts.await x₂) ?_
      fun e x₃ ⟨hx₃, _⟩ => ⟨(hx₁.sees hx₂).sees hx₃, nofun⟩
    rintro restricted x₃ ⟨hx₃, -⟩
    refine wp_ensure (fun _ => ?_) fun _ => ⟨(hx₁.sees hx₂).sees hx₃, nofun⟩
    refine ⟨(hx₁.sees hx₂).sees hx₃, fun _ => ⟨?_, ?_⟩⟩
    · exact hx₃.own.trans (hx₂.own.trans hown)
    · exact ⟨hx₃.shown (hx₂.shown hregular), fun ha => hx₃.shown (hincognito rfl ha)⟩

/-! ## The operation -/

theorem applyExclusions_saves (hc : c.Valid) (hl : Normalized l) :
    wp (savingLogic answered) (applyExclusions c l) (fun r x' => x.Puts (proxyConfigOf c l) x' ∧
      (r = .ok () → x'.InForce (proxyConfigOf c l))) x := by
  unfold applyExclusions
  rw [buildProxyConfig_toJs hc hl]
  refine wp_lift_bind (fun expected he => ?_) nofun
  cases he
  exact setAndVerify_saves _ _ _

/-- The inner `try` of the rollback returns only with the previous PAC set. -/
theorem restorePrevious_saves {old : Config} (hc : configuredConnection old = .ok (some c)) :
    wp (savingLogic answered) (restorePrevious c old) (fun r x' => x'.config = x.config ∧
      x.reads ≤ x'.reads ∧ (r = .ok () → ∃ l, configured old = .ok (some c, l) ∧
        x'.own = some (proxyConfigOf c l))) x := by
  refine wp_lift_bind (fun l hl => ?_) fun _ _ => ⟨rfl, Nat.le_refl _, nofun⟩
  rw [buildProxyConfig_configured hc (normalizeExclusions_normalized hl)]
  refine wp_lift_bind (fun previous hprevious => ?_) nofun
  cases hprevious
  refine wp_bind _ (M := fun _ x₁ => x.Sees x₁) ?_ ?_ fun e x₁ hx₁ =>
    ⟨hx₁.config, hx₁.reads, nofun⟩
  · refine wp_bind _ (looks_webRTCIsRestrictedInAllEnabledContexts.await x) ?_ fun _ _ h => h.1
    exact fun restricted x₁ hx₁ => wp_ensure (fun _ => hx₁.1) fun _ => hx₁.1
  · rintro ⟨⟩ x₁ hx₁
    refine wp_bind _ ((looks_incognitoProxyState _).await x₁) ?_ fun e x₂ ⟨hx₂, _⟩ =>
      ⟨hx₂.config.trans hx₁.config, Nat.le_trans hx₁.reads hx₂.reads, nofun⟩
    rintro st x₂ ⟨hx₂, -⟩
    have hx := hx₁.trans hx₂
    refine wp_ensure_bind (fun _ => ?_) fun _ => ⟨hx.config, hx.reads, nofun⟩
    refine wp_mono _ (setAndVerify_saves _ _ _) ?_
    rintro r x₃ ⟨hx₃, hdone⟩
    exact ⟨hx₃.config.trans hx.config, Nat.le_trans hx.reads hx₃.reads,
      fun hr => ⟨l, configured_eq_ok.2 ⟨hc, hl⟩, (hdone hr).own⟩⟩

/-- The preference was given up, or is the PAC of what is stored. -/
def Saving.Reverted (old x : Saving) : Prop :=
  x.own = none ∨ ∃ c l, configured old.config = .ok (some c, l) ∧ x.own = some (proxyConfigOf c l)

/-- What a rejected `saveExclusions` leaves of what it found. -/
structure Saving.Undone (old x : Saving) : Prop where
  connection : x.config.connection = old.config.connection
  enabled : x.config.enabled = old.config.enabled
  exclusions : x.config.exclusions.getD [] = old.config.exclusions.getD []
  own : x.own = old.own ∨ old.Reverted x

/-- A `saveExclusions` whose questions were `answered`, and that had a list to save in the place
of another, is rejected only after it has taken the preference back. -/
def Saving.Rejected (answered : Prop) (old : Saving) (text : JsVal) (x : Saving) : Prop :=
  old.Undone x ∧ (answered → ∀ l, normalizeExclusions text = .ok l →
    ∀ c l₀, configured old.config = .ok (some c, l₀) → old.Reverted x)

/-- What a resolved `saveExclusions` makes of what it found. -/
def Saving.Saved (old : Saving) (text : JsVal) (x : Saving) : Prop :=
  ∃ l, normalizeExclusions text = .ok l ∧
    x.config = { old.config with exclusions := some l } ∧
    (old.config.isEnabled = true → ∃ c, configuredConnection old.config = .ok (some c) ∧
      x.InForce (proxyConfigOf c l))

section

omit [Browser]

theorem Saving.Undone.refl (x : Saving) : x.Undone x := ⟨rfl, rfl, rfl, Or.inl rfl⟩

theorem Saving.Reverted.sees {old x x' : Saving} (h : old.Reverted x) (hx : x.Sees x') :
    old.Reverted x' := by
  rw [Saving.Reverted, hx.own]
  exact h

theorem Saving.Undone.sees {old x x' : Saving} (h : old.Undone x) (hx : x.Sees x') :
    old.Undone x' := by
  refine ⟨?_, ?_, ?_, ?_⟩
  · rw [hx.config, h.connection]
  · rw [hx.config, h.enabled]
  · rw [hx.config, h.exclusions]
  · rw [hx.own]
    exact h.own.imp_right fun hreverted => hreverted.sees hx

/-- Giving up the PAC undoes nothing of the configuration. -/
theorem Saving.Undone.clear {old x : Saving} (h : old.Undone x) :
    old.Undone { x with own := none } :=
  ⟨h.connection, h.enabled, h.exclusions, Or.inr (Or.inl rfl)⟩

end

section

omit [Platform]

theorem clearOwnProxySetting_saves :
    wp (savingLogic answered) clearOwnProxySetting
      (fun r x' => r = .ok () ∧ x' = { x with own := none }) x :=
  wp_saving_call .proxyClear

theorem refuse_saves (message : String) :
    wp (savingLogic answered) (refuse message)
      (fun r x' => r ≠ .ok () ∧ x' = { x with own := none }) x := by
  refine wp_await_bind clearOwnProxySetting_saves ?_ (by rintro e _ ⟨⟨⟩, -⟩)
  rintro ⟨⟩ _ ⟨-, rfl⟩
  exact ⟨nofun, rfl⟩

/-- A guard clause that gives up the PAC. -/
theorem wp_refuse_saves {b : Bool} {message : String} {f : Unit → Js β}
    {Q : Except String β → Saving → Prop} (h : wp (savingLogic answered) (f ()) Q x)
    (h' : ∀ e, Q (.error e) { x with own := none }) :
    wp (savingLogic answered) (when b (refuse message) >>= f) Q x := by
  refine wp_when_bind (fun _ => ?_) fun _ => h
  refine wp_bind _ (refuse_saves message) ?_ ?_
  · rintro ⟨⟩ _ ⟨hr, -⟩
    exact absurd rfl hr
  · rintro e _ ⟨-, rfl⟩
    exact h' e

end

/-- The guards let the operation go on with everything as it was. Where their questions are
answered and what is stored can be read, they stop it only when they give up the PAC. -/
theorem checkRoute_saves (hc : configuredConnection x.config = .ok (some c)) :
    wp (savingLogic answered) (checkRoute c x.config) (fun r x' =>
      (r = .ok () → x.Sees x') ∧ (∀ e, r = .error e → x.Undone x' ∧
        (answered → ∀ l, configuredExclusions x.config = .ok l → x'.own = none))) x := by
  have hfails : ∀ {α : Type} {r : Except String α} {x₁ x' : Saving}, x.Sees x' →
      x₁.Answers answered r → ∀ e, r = .error e → x.Undone x' ∧
        (answered → ∀ l, configuredExclusions x.config = .ok l → x'.own = none) := by
    rintro α r x₁ x' hx hr e rfl
    refine ⟨(Saving.Undone.refl x).sees hx, fun h => ?_⟩
    rcases hr (Or.inl h) with ⟨a, ⟨⟩⟩
  have hgives : ∀ {x' : Saving}, x.Sees x' → x.Undone { x' with own := none } :=
    fun hx => ((Saving.Undone.refl x).sees hx).clear
  refine wp_bind _ ((looks_effectiveSetting false).await x) ?_ fun e x₁ ⟨hx₁, hr⟩ =>
    ⟨nofun, fun e' he' => hfails hx₁ hr e rfl⟩
  rintro setting x₁ ⟨hx₁, -⟩
  refine wp_refuse_saves ?_ fun e => ⟨nofun, fun _ _ => ⟨hgives hx₁, fun _ _ _ => rfl⟩⟩
  refine wp_bind _ (looks_webRTCIsRestrictedInAllEnabledContexts.await x₁) ?_
    fun e x₂ ⟨hx₂, hr⟩ => ⟨nofun, fun _ _ => hfails (hx₁.trans hx₂) hr e rfl⟩
  rintro restricted x₂ ⟨hx₂, -⟩
  have hx₂ := hx₁.trans hx₂
  refine wp_refuse_saves ?_ fun e => ⟨nofun, fun _ _ => ⟨hgives hx₂, fun _ _ _ => rfl⟩⟩
  refine wp_lift_bind (fun l hl => ?_) fun e he => ⟨nofun, fun _ _ =>
    ⟨(Saving.Undone.refl x).sees hx₂, fun _ l hl => ?_⟩⟩
  · rw [buildProxyConfig_configured hc (normalizeExclusions_normalized hl)]
    refine wp_lift_bind (fun expected _ => ?_) nofun
    refine wp_bind _ ((looks_incognitoProxyState expected).await x₂) ?_
      fun e x₃ ⟨hx₃, hr⟩ => ⟨nofun, fun _ _ => hfails (hx₂.trans hx₃) hr e rfl⟩
    rintro st x₃ ⟨hx₃, -⟩
    have hx₃ := hx₂.trans hx₃
    refine wp_when (fun _ => wp_set_bind trivial ?_) fun _ => ⟨fun _ => hx₃, nofun⟩
    refine wp_mono _ (refuse_saves _) ?_
    rintro r _ ⟨hr, rfl⟩
    exact ⟨fun h => absurd h hr, fun _ _ => ⟨hgives hx₃, fun _ _ _ => rfl⟩⟩
  · cases he.symm.trans hl

omit [Platform] [Browser] in
theorem toConfig_set_exclusions (data : Config) (list : List JsString) :
    ((⟨data, none⟩ : Storage).set { exclusions := some list }).toConfig =
      { data with exclusions := some list } := rfl

/-- The rollback throws, with the stored list back and the previous PAC set or
none. -/
theorem rollbackExclusions_saves {old : Saving} (error : String)
    (hc : configuredConnection old.config = .ok (some c))
    (hstored : x.config.connection = old.config.connection ∧
      x.config.enabled = old.config.enabled) :
    wp (savingLogic answered) (rollbackExclusions c old.config error) (fun r x' =>
      r ≠ .ok () ∧ old.Undone x' ∧ old.Reverted x') x := by
  refine wp_bind _ (wp_saving_call (.storageSet _)) ?_ (by rintro e _ ⟨⟨⟩, -⟩)
  rintro ⟨⟩ _ ⟨-, rfl⟩
  refine wp_bind _ (M := fun r x' => r = .ok () ∧ old.Undone x' ∧ old.Reverted x') ?_ ?_
    (by rintro e _ ⟨⟨⟩, -⟩)
  · refine wp_tryCatch _ (restorePrevious_saves hc) ?_ ?_
    · rintro ⟨⟩ x₁ ⟨hconfig, -, hdone⟩
      obtain ⟨l, hl, hown⟩ := hdone rfl
      rw [toConfig_set_exclusions] at hconfig
      have hreverted : old.Reverted x₁ := Or.inr ⟨c, l, hl, hown⟩
      refine ⟨rfl, ⟨?_, ?_, ?_, Or.inr hreverted⟩, hreverted⟩
      · rw [hconfig, hstored.1]
      · rw [hconfig, hstored.2]
      · rw [hconfig, Option.getD_some]
    · rintro e x₁ ⟨hconfig, -⟩
      refine wp_tryCatch _ (wp_await clearOwnProxySetting_saves) ?_ (by rintro e _ ⟨⟨⟩, -⟩)
      rintro ⟨⟩ _ ⟨-, rfl⟩
      rw [toConfig_set_exclusions] at hconfig
      refine ⟨rfl, ⟨?_, ?_, ?_, Or.inr (Or.inl rfl)⟩, Or.inl rfl⟩
      · rw [hconfig, hstored.1]
      · rw [hconfig, hstored.2]
      · rw [hconfig, Option.getD_some]
  · rintro ⟨⟩ x₁ ⟨-, hundone, hreverted⟩
    refine wp_bind _ (rereads_updateBadge.looks.await x₁) ?_
      fun e x₂ ⟨hx₂, _⟩ => ⟨nofun, hundone.sees hx₂, hreverted.sees hx₂⟩
    exact fun _ x₂ hx₂ => ⟨nofun, hundone.sees hx₂.1, hreverted.sees hx₂.1⟩

omit [Browser] in
theorem requireConnection_of_configured {data : Config} {message : String}
    (h : configuredConnection data = .ok (some c)) : requireConnection data message = .ok c := by
  simp [requireConnection, h, bind, Except.bind, Pure.pure, Except.pure]

/-- `saveExclusions` resolves with everything saved or rejects with everything
undone. -/
theorem saveExclusions_saves (text : JsVal) :
    wp (savingLogic answered) (saveExclusions text) (fun r x' =>
      (∀ st, r = .ok st → x.Saved text x') ∧ (∀ e, r = .error e → x.Rejected answered text x')) x := by
  refine wp_lift_bind (fun l hl => ?_) fun e he => ⟨nofun, fun _ _ => ⟨.refl x, fun _ l hl => ?_⟩⟩
  swap
  · cases he.symm.trans hl
  have hnormalized := normalizeExclusions_normalized hl
  refine wp_await_bind (wp_saving_call .storageGet) ?_ (by rintro e _ ⟨-, data, ⟨⟩, -⟩)
  rintro data _ ⟨rfl, _, ⟨⟩, hdata⟩
  rw [hdata]
  have hread : x.Sees { x with reads := x.reads + 1 } :=
    ⟨rfl, rfl, Nat.le_succ _, List.Subset.refl _⟩
  refine wp_lift_bind (fun c hc => ?_) fun e he =>
    ⟨nofun, fun _ _ => ⟨(Saving.Undone.refl x).sees hread, fun _ _ _ c l₀ hconfigured => ?_⟩⟩
  swap
  · rw [requireConnection_of_configured (configured_eq_ok.1 hconfigured).1] at he
    cases he
  have hc := requireConnection_eq_ok hc
  -- What follows the write of the list returns: the reads are those of `status`.
  have hends : ∀ {x₁ : Saving}, 1 ≤ x₁.reads →
      x₁.config = { x.config with exclusions := some l } →
      (x.config.isEnabled = true → x₁.InForce (proxyConfigOf c l)) →
      wp (savingLogic answered) (do Prog.set (.ownProxyClearedForConflict false); await updateBadge; status)
        (fun r x' => (∀ st, r = .ok st → x.Saved text x') ∧
          (∀ e, r = .error e → x.Rejected answered text x')) x₁ := by
    intro x₁ hreads hconfig hforce
    refine wp_set_bind trivial (wp_mono _ (rereads_badgeAndStatus x₁) ?_)
    rintro r x₂ ⟨hx₂, -, hr⟩
    obtain ⟨st, rfl⟩ := hr (Or.inr hreads)
    refine ⟨fun _ _ => ⟨l, hl, hx₂.config.trans hconfig, fun hon => ⟨c, hc, ?_⟩⟩, nofun⟩
    exact ⟨hx₂.own.trans (hforce hon).own, (hforce hon).verified.sees hx₂⟩
  cases henabled : x.config.isEnabled with
  | false =>
      refine wp_when_bind nofun fun _ => ?_
      refine wp_bind _ (wp_saving_call (.storageSet _)) ?_ (by rintro e _ ⟨⟨⟩, -⟩)
      rintro ⟨⟩ _ ⟨-, rfl⟩
      refine wp_when_bind nofun fun _ => hends (Nat.le_add_left _ _) ?_ fun h => ?_
      · exact toConfig_set_exclusions _ _
      · cases henabled.symm.trans h
  | true =>
      refine wp_when_bind (fun _ => ?_) nofun
      refine wp_bind _ (checkRoute_saves (x := { x with reads := x.reads + 1 }) hc) ?_ ?_
      · rintro ⟨⟩ x₁ ⟨hx₁, -⟩
        have hx₁ : ({ x with reads := x.reads + 1 } : Saving).Sees x₁ := hx₁ rfl
        have hreads : x.reads + 1 ≤ x₁.reads := hx₁.reads
        refine wp_bind _ (wp_saving_call (.storageSet _)) ?_ (by rintro e _ ⟨⟨⟩, -⟩)
        rintro ⟨⟩ _ ⟨-, rfl⟩
        rw [toConfig_set_exclusions, hx₁.config]
        refine wp_when_bind (fun _ => ?_) nofun
        refine wp_bind _ (M := fun r x₂ => (r = .ok () → 1 ≤ x₂.reads ∧
            x₂.config = { x.config with exclusions := some l } ∧
            x₂.InForce (proxyConfigOf c l)) ∧
            (∀ e, r = .error e → x.Rejected answered text x₂)) ?_ ?_
          fun e x₂ ⟨_, hrejected⟩ => ⟨nofun, fun _ _ => hrejected e rfl⟩
        · refine wp_tryCatch _ (applyExclusions_saves (configuredConnection_valid hc) hnormalized)
            ?_ ?_
          · rintro ⟨⟩ x₂ ⟨hx₂, hdone⟩
            refine ⟨fun _ => ⟨?_, hx₂.config, hdone rfl⟩, nofun⟩
            have hle : x₁.reads ≤ x₂.reads := hx₂.reads
            omega
          · rintro e x₂ ⟨hx₂, -⟩
            refine wp_mono _ (rollbackExclusions_saves e hc ?_) ?_
            · rw [hx₂.config]
              exact ⟨rfl, rfl⟩
            · rintro r x₃ ⟨hr, hundone, hreverted⟩
              exact ⟨fun h => absurd h hr, fun _ _ => ⟨hundone, fun _ _ _ _ _ _ => hreverted⟩⟩
        · rintro ⟨⟩ x₂ ⟨hdone, -⟩
          obtain ⟨hreads, hconfig, hforce⟩ := hdone rfl
          exact hends hreads hconfig fun _ => hforce
      · rintro e x₁ ⟨-, hundone⟩
        obtain ⟨hundone, hgiven⟩ := hundone e rfl
        refine ⟨nofun, fun _ _ => ⟨⟨hundone.connection, hundone.enabled, hundone.exclusions,
          hundone.own⟩, fun hanswered _ _ _ l₀ hconfigured => Or.inl ?_⟩⟩
        exact hgiven hanswered l₀ (configured_eq_ok.1 hconfigured).2

end Connection

/-! ## Over every interleaving -/

omit [Platform] [Browser] in
/-- The steps while one operation is under way. -/
def Rules.during (ok : Rules) : Rules := fun s l => ok s l ∧ l ≠ .restart ∧ l ≠ .start

/-- While `saveExclusions` holds the queue, its storage and `clear` calls
succeed, and so do the calls of `updateBadge` and `status`, which follow its
second read of the storage. -/
def Rules.Saves (ok : Rules) : Prop :=
  ∀ s o text c k, ok s (.land .op o) →
    s.slot .op = some (.op (.saveExclusions text), .awaiting c k) →
    c.steady = true ∨ c.answers = true ∧ 2 ≤ (readsOf .op s.trace).length → o = .done

/-- All that `saveExclusions` asks is answered. -/
def Rules.Responds (ok : Rules) : Prop :=
  ∀ s o text c k, ok s (.land .op o) →
    s.slot .op = some (.op (.saveExclusions text), .awaiting c k) → c.answers = true → o = .done

/-- What `saveExclusions` may know of a state. -/
def Sys.saving (s : Sys) : Saving where
  config := s.world.storage.toConfig
  own := s.world.proxy.own
  reads := (readsOf .op s.trace).length
  shown := settingsRead s.trace

/-- The outline of a `saveExclusions` that found `old`. -/
@[reducible] def savingOutline (answered : Prop) (old : Saving) : Outline where
  View := Saving
  logic := savingLogic answered
  covers subj := ∃ text, subj = .op (.saveExclusions text)
  At _ _ x s := x = s.saving
  post subj r x := ∀ text, subj = .op (.saveExclusions text) →
    (∀ st, r = .ok st → old.Saved text x) ∧ (∀ e, r = .error e → old.Rejected answered text x)

variable {answered : Prop} {ok : Rules} {w : World} {s s' : Sys} {old : Saving}

theorem savingOutline_coherent : (savingOutline answered old).Coherent where
  enters _ _ hx := hx
  reads _ _ hx := ⟨_, rfl, hx⟩
  writes _ _ _ hx := hx

/-- Steps of others read no setting for the holder of the queue. -/
theorem settingsRead_next {l : Label} (hs : s.next l = some s') (ha : l.actor ≠ some .op)
    (hl : l ≠ .restart) (hstart : l ≠ .start) : settingsRead s'.trace = settingsRead s.trace := by
  obtain ⟨new, htrace, hof⟩ := Sys.trace_next hs
  rw [htrace]
  refine Sys.reading_next fun o ho t => ?_
  have ho := hof o ho
  cases o with
  | restarted => exact absurd ho hl
  | started op owner => exact absurd ho hstart
  | landed b c r =>
      obtain ⟨out, rfl⟩ := ho
      cases b with
      | op => exact absurd rfl ha
      | boot => rfl
      | task t => rfl
  | _ => rfl

/-- The steps of others leave what the holder of the queue knows. -/
theorem saving_next (hd : s.Disciplined) {text : JsVal} {thread : Thread api Result}
    (hslot : s.slot .op = some (.op (.saveExclusions text), thread)) {l : Label}
    (hs : s.next l = some s') (ha : l.actor ≠ some .op) (hl : l ≠ .restart) :
    s'.saving = s.saving := by
  obtain ⟨hquiet, hneutral, hstart⟩ := hd.others_next hslot rfl hs ha
  have hroute := (s.route_describes .op).next hd hs hl hquiet hneutral
  have hstart : l ≠ .start := fun h => hstart h rfl
  have hreads := (own_next hs ha hl (fun h => absurd h hstart) (fun _ _ => nofun)).1
  unfold Sys.saving
  rw [hreads, settingsRead_next hs ha hl hstart]
  have hconfig : s.world.storage.toConfig = s'.world.storage.toConfig := hroute.config
  have hown : s.world.proxy.own = s'.world.proxy.own := hroute.proxy
  rw [hconfig, hown]

omit [Platform] in
/-- A question that lands with an answer has read the setting as it is. -/
theorem World.land_proxyGet {w w' : World} {incognito : Bool} {o : Outcome}
    {r : Except String (Setting ProxyConfig)}
    (h : w.land (.proxyGet incognito) o = some (r, w')) {v : Setting ProxyConfig}
    (hr : r = .ok v) : v = w.proxy.effective incognito := by
  subst hr
  cases o <;> simp only [World.land, Option.some.injEq, Prod.mk.injEq, reduceCtorEq] at h
  · exact (Except.ok.inj h.1).symm
  · cases h.1

omit [Platform] in
/-- A call that succeeds resolves. -/
theorem World.land_done {w w' : World} {c : Call} {r : Except String (Reply c)}
    (h : w.land c .done = some (r, w')) : ∃ a, r = .ok a := by
  cases c <;> simp only [World.land, Option.some.injEq, Prod.mk.injEq, reduceCtorEq] at h <;>
    exact ⟨_, h.1.symm⟩

omit [Platform] [Browser] in
/-- Only the holder of the queue executes an operation. -/
theorem Sys.actor_of_op {a : Actor} {op : Op} {thread : Thread api Result}
    (h : s.slot a = some (.op op, thread)) : a = .op := by
  cases a with
  | op => rfl
  | boot => cases (slot_boot h).1
  | task t =>
      obtain ⟨kind, -, hkind⟩ := task_of_slot h
      cases hkind

omit [Platform] [Browser] in
/-- What a landing shows to the holder of the queue. -/
theorem saving_answer {c : Call} (k : Except String (Reply c) → Js Result)
    (r : Except String (Reply c)) (w' : World) : (s.answer .op c k r w').saving = {
      config := w'.storage.toConfig
      own := w'.proxy.own
      reads := ((Obs.readBy .op (.landed .op c r)).toList ++ readsOf .op s.trace).length
      shown := settingsRead (.landed .op c r :: s.trace) } := by
  obtain ⟨new, htrace, hnew⟩ := s.move_trace w'
  have hreads : readsOf .op (new ++ s.trace) = readsOf .op s.trace :=
    (own_append fun o ho => by rw [hnew o ho]; exact ⟨rfl, rfl, rfl⟩).1
  have hshown : settingsRead (new ++ s.trace) = settingsRead s.trace :=
    Sys.reading_next fun o ho t => by rw [hnew o ho]; rfl
  unfold Sys.saving
  rw [Sys.answer_trace, htrace, readsOf_cons rfl, hreads, settingsRead_cons hshown,
    Sys.answer_world]

omit [Platform] in
/-- Every landing tells `saveExclusions` what the logic says. -/
theorem saving_answered (hsaves : ok.Saves) (hanswered : answered → ok.Responds) {text : JsVal} {c : Call}
    {k : Except String (Reply c) → Js Result} {o : Outcome} {r : Except String (Reply c)}
    {w' : World} (hok : ok s (.land .op o))
    (hslot : s.slot .op = some (.op (.saveExclusions text), .awaiting c k))
    (hland : s.world.land c o = some (r, w')) :
    savingReplies answered c s.saving r (s.answer .op c k r w').saving := by
  rw [saving_answer]
  have hsteady : c.steady = true → o = .done := fun h => hsaves s o text c k hok hslot (Or.inl h)
  have hanswers : c.answers = true → s.saving.Answers answered r := by
    intro h hasked
    have hdone : o = .done := by
      rcases hasked with hall | hreads
      · exact hanswered hall s o text c k hok hslot h
      · exact hsaves s o text c k hok hslot (Or.inr ⟨h, hreads⟩)
    subst hdone
    exact World.land_done hland
  -- A question leaves the browser alone.
  have hasks : c.inspects = true → w' = s.world := World.land_inspects hland
  cases c with
  | storageGet =>
      obtain rfl := hsteady rfl
      obtain ⟨rfl, rfl⟩ : Except.ok s.world.storage = r ∧ s.world = w' := by
        simpa [World.land] using hland
      refine ⟨?_, s.world.storage, rfl, rfl⟩
      simp [Obs.readBy, Sys.saving, settingsRead]
  | storageSet p =>
      obtain rfl := hsteady rfl
      obtain ⟨rfl, rfl⟩ : Except.ok () = r ∧
          ({ s.world with storage := s.world.storage.set p } : World) = w' := by
        simpa [World.land] using hland
      exact ⟨rfl, rfl⟩
  | proxyClear =>
      obtain rfl := hsteady rfl
      obtain ⟨rfl, rfl⟩ : Except.ok () = r ∧
          ({ s.world with proxy := { s.world.proxy with own := none } } : World) = w' := by
        simpa [World.land] using hland
      exact ⟨rfl, rfl⟩
  | proxyGet incognito =>
      obtain rfl := hasks rfl
      refine ⟨hanswers rfl, ⟨rfl, rfl, Nat.le_refl _, ?_⟩, fun v hv => ⟨?_, ?_⟩⟩
      · cases r with
        | ok v => exact List.subset_cons_self ..
        | error e => exact List.Subset.refl _
      · subst hv
        exact List.mem_cons_self ..
      · rintro rfl hlevel
        rw [World.land_proxyGet hland hv] at hlevel ⊢
        exact ChromeSetting.own_of_regular hlevel
  | webRTCGet incognito =>
      obtain rfl := hasks rfl
      exact ⟨hanswers rfl, rfl⟩
  | isAllowedIncognitoAccess =>
      obtain rfl := hasks rfl
      refine ⟨hanswers rfl, rfl, ?_⟩
      rintro b rfl
      cases o <;> simp only [World.land, Option.some.injEq, Prod.mk.injEq, reduceCtorEq] at hland
      · exact (Except.ok.inj hland.1).symm
      · cases hland.1
  | setBadgeText text =>
      obtain ⟨hconfig, hproxy, -⟩ := World.land_records hland rfl
      refine ⟨hanswers rfl, ?_⟩
      rw [hconfig, hproxy]
      rfl
  | setBadgeBackgroundColor color =>
      obtain ⟨hconfig, hproxy, -⟩ := World.land_records hland rfl
      refine ⟨hanswers rfl, ?_⟩
      rw [hconfig, hproxy]
      rfl
  | proxySet v =>
      refine ⟨w'.proxy.own, ?_, ?_⟩
      · cases o <;> simp only [World.land, Option.some.injEq, Prod.mk.injEq, reduceCtorEq] at hland
        · exact Or.inr (hland.2 ▸ rfl)
        · exact Or.inl (hland.2 ▸ rfl)
        · exact Or.inl (hland.2 ▸ rfl)
      · have hstorage : w'.storage = s.world.storage := by
          cases o <;>
            simp only [World.land, Option.some.injEq, Prod.mk.injEq, reduceCtorEq] at hland
          all_goals exact hland.2 ▸ rfl
        rw [hstorage]
        rfl
  | tick =>
      obtain rfl := hasks rfl
      rfl
  | _ => trivial

theorem savingOutline_correct (hsaves : ok.Saves) (hanswered : answered → ok.Responds) {Known : Sys → Prop}
    (hknown : ∀ {s}, Known s → s.Disciplined) :
    (savingOutline answered old).Correct ok.during Known fun _ => True where
  toCoherent := savingOutline_coherent
  frame {s l s' a subj thread x} hk _ _ _ _ hs ha hl hslot hc _ hx := by
    obtain ⟨text, rfl⟩ := hc
    obtain rfl := Sys.actor_of_op hslot
    exact hx.trans (saving_next (hknown hk) hslot hs ha hl).symm
  restarted _ _ hok := absurd rfl hok.2.1
  entered _ _ hok := absurd rfl hok.2.2
  dispatched _ _ _ _ _ hc := by
    obtain ⟨text, hc⟩ := hc
    cases hc
  answered {s a o subj c k r w' x} _ _ hok hslot hc hland _ _ hx := by
    obtain ⟨text, rfl⟩ := hc
    obtain rfl := Sys.actor_of_op hslot
    exact ⟨_, hx ▸ saving_answered hsaves hanswered hok.1 hslot hland, rfl⟩
  suspended {s a subj p v x c k} _ _ _ hslot hc _ _ _ _ hx := by
    obtain ⟨text, rfl⟩ := hc
    obtain rfl := Sys.actor_of_op hslot
    refine hx.trans ?_
    unfold Sys.saving
    rw [Sys.suspend_trace, Sys.suspend_world, readsOf_cons rfl]
    rfl
  settled _ _ _ _ _ _ hslot hc _ _ _ := by
    obtain ⟨text, rfl⟩ := hc
    obtain ⟨kind, -, hkind⟩ := Sys.task_of_slot hslot
    cases hkind
  keeps _ _ _ _ _ _ := trivial

/-- The task `op`, next in the queue of `s`, runs from its start to its end in
`s'` and settles with `r`. -/
inductive Executes (ok : Rules) (s : Sys) (op : Op) : Except String Result → Sys → Prop
  | intro {owner rest s₂ s' r} (hidle : s.running = none) (hqueue : s.queue = (op, owner) :: rest)
      (hstart : ok s .start) (hrun : Reach ok.during (s.enter op owner rest) s₂)
      (hend : ok s₂ (.resume .op)) (hnext : s₂.next (.resume .op) = some s')
      (hsettled : s'.trace = .ended .op r :: s₂.trace) : Executes ok s op r s'

theorem body_saves (x : Saving) (text : JsVal) :
    wp (savingLogic answered) (Op.saveExclusions text).body ((savingOutline answered x).post
      (.op (.saveExclusions text))) x := by
  refine wp_await (wp_map _ (wp_mono _ (saveExclusions_saves text) ?_))
  rintro r x' ⟨hsaved, hrejected⟩ text' ⟨⟩
  refine ⟨fun st hr => ?_, fun e hr => ?_⟩
  · cases r with
    | ok st' => exact hsaved st' rfl
    | error e => cases hr
  · cases r with
    | ok st' => cases hr
    | error e' => exact hrejected e' rfl

omit [Browser] in
/-- What is found is the configuration and the preference. -/
theorem Saving.Undone.found {x x' y : Saving} (h : x.Undone y) (hconfig : x.config = x'.config)
    (hown : x.own = x'.own) : x'.Undone y := by
  obtain ⟨hconnection, henabled, hexclusions, hput⟩ := h
  rw [Saving.Reverted] at hput
  rw [hconfig] at hconnection henabled hexclusions hput
  rw [hown] at hput
  exact ⟨hconnection, henabled, hexclusions, hput⟩

theorem Reach.mono {ok' : Rules} {s₀ : Sys} (hok : ∀ s l, ok s l → ok' s l)
    (h : Reach ok s₀ s) : Reach ok' s₀ s := by
  induction h with
  | init => exact .init
  | step _ hl hs ih => exact ih.step (hok _ _ hl) hs

/-- The holder of the queue stays as long as no task starts. -/
theorem Reach.subject_during {s₀ : Sys} (h : Reach ok.during s₀ s) {subj : Subject}
    {thread : Thread api Result} (hslot : s.slot .op = some (subj, thread)) :
    ∃ thread, s₀.slot .op = some (subj, thread) := by
  induction h generalizing thread with
  | init => exact ⟨thread, hslot⟩
  | step _ hl hs ih =>
      obtain ⟨-, hrestart, hstart⟩ := hl
      cases Sys.slotStep hs hslot with
      | kept _ _ h => exact ih h
      | entered => exact absurd rfl hstart
      | answered h _ => exact ih h
      | suspended h _ => exact ih h

/-- Between the start of `saveExclusions` and its end everything is saved or
undone, whatever came before. -/
theorem Executes.saves (hsaves : ok.Saves) (hanswered : answered → ok.Responds) {before : Rules}
    (h : Reach before (Sys.init w) s) {text : JsVal} {r : Except String Result}
    (hexec : Executes ok s (.saveExclusions text) r s') :
    (∀ st, r = .ok st → s.saving.Saved text s'.saving) ∧
      (∀ e, r = .error e → s.saving.Rejected answered text s'.saving) := by
  cases hexec with
  | intro hidle hqueue hstart hrun hend hnext hsettled =>
      rename_i owner rest s₂
      set s₁ := s.enter (.saveExclusions text) owner rest with hs₁
      have hany : Reach (fun _ _ => True) (Sys.init w) s := h.mono fun _ _ _ => trivial
      have hr₁ : Reach (fun _ _ => True) (Sys.init w) s₁ :=
        hany.step (l := .start) trivial (by simp [Sys.next, Sys.startOp, hidle, hqueue, hs₁])
      have hknown : ∀ {m}, Reach ok.during s₁ m → Reach (fun _ _ => True) (Sys.init w) m :=
        fun hm => Reach.trans hr₁ (hm.mono fun _ _ _ => trivial)
      -- The operation begins with the route as it was found.
      have hsound : (savingOutline answered s₁.saving).Sound s₁ := by
        rintro a subj thread hslot ⟨text', rfl⟩
        obtain rfl := Sys.actor_of_op hslot
        obtain ⟨rfl, rfl⟩ : text = text' ∧
            Thread.ready (Op.saveExclusions text).body = thread := by
          simpa [Sys.slot, hs₁, Sys.enter] using hslot
        exact ⟨_, rfl, body_saves _ text⟩
      obtain ⟨hcourse, -⟩ := (savingOutline_correct hsaves hanswered fun hr => hr.disciplined).reach hsound
        trivial hknown hrun
      obtain ⟨subj, p, hslot, ⟨v, c, k, hp, rfl⟩ | ⟨v, r', hp, rfl⟩⟩ := Sys.resume_eq_some hnext
      · rw [Sys.suspend_trace] at hsettled
        cases hsettled
      · obtain rfl : r' = r := by
          rw [Sys.finish_trace] at hsettled
          simpa using hsettled
        have hsubject : subj = .op (.saveExclusions text) := by
          obtain ⟨thread, hfirst⟩ := hrun.subject_during hslot
          simp only [Sys.slot, hs₁, Sys.enter, Option.map_some, Option.some.injEq,
            Prod.mk.injEq] at hfirst
          exact hfirst.1.symm
        subst hsubject
        obtain ⟨x, hx, hpost⟩ := savingOutline_coherent.finished hcourse hslot ⟨text, rfl⟩ hp
        have hend : (({ s₂ with vars := v } : Sys).finish .op r').saving = x := by
          refine Eq.trans ?_ hx.symm
          unfold Sys.saving
          rw [Sys.finish_trace, Sys.finish_world, readsOf_cons rfl]
          rfl
        obtain ⟨hsaved, hrejected⟩ := hpost text rfl
        rw [hend]
        refine ⟨hsaved, fun e he => ?_⟩
        obtain ⟨hundone, hreverted⟩ := hrejected e he
        exact ⟨hundone.found rfl rfl, hreverted⟩

/-- The proxy configuration of the stored connection for the exclusions `l`. -/
def Storage.PacFor (data : Storage) (l : List JsString) (v : ProxyConfig) : Prop :=
  ∃ c, configuredConnection data.toConfig = .ok (some c) ∧ buildProxyConfig c.toJs l = .ok v

omit [Browser] in
/-- One PAC does not stand for two lists. -/
theorem Storage.PacFor.unique {data : Storage} {l : List JsString} {v : ProxyConfig}
    (h : data.PacFor l v) (hl : Normalized l) (hv : data.Expects v) :
    configuredExclusions data.toConfig = .ok l := by
  obtain ⟨c, hc, hbuild⟩ := h
  obtain ⟨c', l', hc', hl', hbuild'⟩ := hv
  obtain rfl : c = c' := by simpa [hc] using hc'
  have hnormalized := normalizeExclusions_normalized hl'
  rw [buildProxyConfig_configured hc hl] at hbuild
  rw [buildProxyConfig_configured hc hnormalized] at hbuild'
  have hsame : proxyConfigOf c l = proxyConfigOf c l' :=
    Except.ok.inj (hbuild.trans hbuild'.symm)
  rw [hl', proxyConfigOf_inj hl hnormalized hsame]

/-- `saveExclusions` is all or nothing, whatever came before, and whatever others and
`chrome.proxy.settings.set` do meanwhile. When it resolves, the normalized list
is stored and, if enabled, its PAC was verified in every enabled context since
it was set. When it rejects, the configuration stands for what it stood for and
the own preference is the one found, the PAC of the stored list, or none. It is never the
PAC of a new list: when every question is answered, none or the PAC of the stored list is
left, and after a run whose storage and `clear` calls have succeeded one of them was found. -/
theorem saveExclusions_all_or_nothing (hsaves : ok.Saves) {before : Rules} {w : World} {s s' : Sys}
    (h : Reach before (Sys.init w) s) {text : JsVal} {r : Except String Result}
    (hexec : Executes ok s (.saveExclusions text) r s') :
    (∀ result, r = .ok result → ∃ l, normalizeExclusions text = .ok l ∧
      s'.world.storage.exclusions = some l ∧
      (s.world.storage.isEnabled = true → ∃ v, s.world.storage.PacFor l v ∧
        s'.world.proxy.own = some v ∧
        (false, ⟨.controlledByThisExtension, v⟩) ∈ settingsRead s'.trace ∧
        (Browser.incognitoAllowed = true →
          (true, ⟨.controlledByThisExtension, v⟩) ∈ settingsRead s'.trace))) ∧
    (∀ e, r = .error e →
      s'.world.storage.connection = s.world.storage.connection ∧
      s'.world.storage.enabled = s.world.storage.enabled ∧
      configuredExclusions s'.world.storage.toConfig =
        configuredExclusions s.world.storage.toConfig ∧
      (s'.world.proxy.own = s.world.proxy.own ∨ s'.world.proxy.own = none ∨
        ∃ v, s.world.storage.Expects v ∧ s'.world.proxy.own = some v) ∧
      (ok.Responds → ∀ l l₀, normalizeExclusions text = .ok l →
        configuredExclusions s.world.storage.toConfig = .ok l₀ → ∀ v, s.world.storage.PacFor l v →
          (s'.world.proxy.own = none ∨
            ∃ v₀, s.world.storage.Expects v₀ ∧ s'.world.proxy.own = some v₀) ∧
          (s'.world.proxy.own = some v → l = l₀)) ∧
      (before.Steady → ∀ l v, normalizeExclusions text = .ok l → s.world.storage.PacFor l v →
        s'.world.proxy.own = some v →
          configuredExclusions s.world.storage.toConfig = .ok l)) := by
  have hquiet : s.Quiet := by
    cases hexec with
    | intro hidle hqueue => exact h.disciplined.quiet hidle hqueue rfl
  obtain ⟨hsaved, hrejected⟩ := hexec.saves hsaves (fun hanswered : ok.Responds => hanswered) h
  refine ⟨fun result hr => ?_, fun e he => ?_⟩
  · obtain ⟨l, hl, hconfig, henabled⟩ := hsaved result hr
    refine ⟨l, hl, congrArg Config.exclusions hconfig, fun hon => ?_⟩
    obtain ⟨c, hc, hown, hverified⟩ := henabled hon
    exact ⟨_, ⟨c, hc, buildProxyConfig_configured hc (normalizeExclusions_normalized hl)⟩, hown,
      hverified⟩
  · obtain ⟨hundone, hreverted⟩ := hrejected e he
    have hpac : ∀ {c : Connection} {l : List JsString},
        configured s.saving.config = .ok (some c, l) → s.world.storage.Expects (proxyConfigOf c l) := by
      intro c l hconfigured
      obtain ⟨hc, hl⟩ := configured_eq_ok.1 hconfigured
      exact ⟨c, l, hc, hl, buildProxyConfig_configured hc (normalizeExclusions_normalized hl)⟩
    have hput : s.saving.Reverted s'.saving → s'.world.proxy.own = none ∨
        ∃ v, s.world.storage.Expects v ∧ s'.world.proxy.own = some v := by
      refine Or.imp_right ?_
      rintro ⟨c, l, hconfigured, hown⟩
      exact ⟨_, hpac hconfigured, hown⟩
    refine ⟨hundone.connection, hundone.enabled, ?_, hundone.own.imp_right hput, ?_, ?_⟩
    · simp only [configuredExclusions]
      exact congrArg (fun list => normalizeExclusions (.str (joinWith (unit '\n') list)))
        hundone.exclusions
    · intro hresponds l l₀ hl hl₀ v hv
      obtain ⟨c, hc, hbuild⟩ := hv
      have hleft := hput (hreverted hresponds l hl c l₀ (configured_eq_ok.2 ⟨hc, hl₀⟩))
      refine ⟨hleft, fun hown => ?_⟩
      rcases hleft with hnone | ⟨v₀, hexpects, hown₀⟩
      · cases hnone.symm.trans hown
      · -- one PAC cannot stand for two lists
        obtain rfl : v₀ = v := Option.some.inj (hown₀.symm.trans hown)
        have hsame := Storage.PacFor.unique ⟨c, hc, hbuild⟩ (normalizeExclusions_normalized hl) hexpects
        exact Except.ok.inj (hsame.symm.trans hl₀)
    · intro hsteady l v hl hv hown
      refine hv.unique (normalizeExclusions_normalized hl) ?_
      rcases hundone.own with hsame | hreverted
      · -- The preference found was none or the one of the stored list.
        obtain ⟨hsafe, -⟩ := h.kept (P := False) hsteady nofun nofun nofun hquiet
        rcases hsafe with hnone | ⟨c, l₀, henabled, hproxy, -⟩
        · cases (hsame.trans hnone).symm.trans hown
        · obtain rfl : proxyConfigOf c l₀ = v :=
            Option.some.inj ((hsame.trans hproxy).symm.trans hown)
          exact hpac henabled.2
      · rcases hput hreverted with hnone | ⟨v₀, hexpects, hown₀⟩
        · cases hnone.symm.trans hown
        · obtain rfl : v₀ = v := Option.some.inj (hown₀.symm.trans hown)
          exact hexpects

/-- Follow the task that is next in the queue from its start to its end. -/
def Sys.execute (check : Sys → Label → Bool) (ls : List Label) (s : Sys) :
    Option (Op × Except String Result × Sys) :=
  match s.running, s.queue with
  | none, (op, owner) :: rest =>
      ((s.enter op owner rest).follow (fun s l => check s l && !l matches .restart | .start)
          ls).bind fun s₂ =>
        (s₂.next (.resume .op)).bind fun s' =>
          match s'.trace with
          | .ended .op r :: _ =>
              if check s .start && check s₂ (.resume .op) then some (op, r, s') else none
          | _ => none
  | _, _ => none

theorem Executes.of_execute {check : Sys → Label → Bool} {ls : List Label} {op : Op}
    {r : Except String Result} (h : s.execute check ls = some (op, r, s')) :
    Executes (check · ·) s op r s' := by
  unfold Sys.execute at h
  split at h
  · rename_i op' owner rest hidle hqueue
    obtain ⟨s₂, hfollow, h⟩ := Option.bind_eq_some_iff.1 h
    obtain ⟨s'', hnext, h⟩ := Option.bind_eq_some_iff.1 h
    split at h
    · rename_i r' trace htrace
      split at h
      · rename_i hcheck
        obtain ⟨rfl, rfl, rfl⟩ : op' = op ∧ r' = r ∧ s'' = s' := by simpa using h
        rw [Bool.and_eq_true] at hcheck
        obtain ⟨o, hlast, -⟩ := Sys.resume_trace hnext
        refine .intro hidle hqueue hcheck.1 ?_ hcheck.2 hnext ?_
        · refine (Reach.init.follow hfollow).mono fun s l hl => ?_
          rw [Bool.and_eq_true] at hl
          refine ⟨hl.1, ?_, ?_⟩
          · rintro rfl
            exact absurd hl.2 (by decide)
          · rintro rfl
            exact absurd hl.2 (by decide)
        · rw [hlast] at htrace ⊢
          rw [(List.cons.inj htrace).1]
      · cases h
    · cases h
  · cases h

end

section

attribute [local instance] Platform.ascii Browser.sample

/-- The worker starts, and the popup wants `example.com` excluded. -/
def excluding : List Label :=
  starting ++ [.message (js "extension") (.saveExclusions (.str (js "example.com"))),
    .dispatch 1, .resume (.task 1)]

/-- The `set` of the new PAC is rejected, and everything else succeeds. -/
def rejecting : List Label :=
  turns .op 16 ++ [.resume .op, .land .op (.rejected "no")] ++ turns .op 45

def Op.exclusionText : Op → Option JsString
  | .saveExclusions (.str text) => some text
  | _ => none

/-- A rejected `set` leaves the old list stored and its PAC in place. -/
theorem saveExclusions_all_or_nothing_sample :
    ∃ s s' : Sys, ∃ e, Executes (setsMayFail · ·) s
        (.saveExclusions (.str (js "example.com"))) (.error e) s' ∧
      s'.world.proxy.own = some .sample ∧
      configuredExclusions s'.world.storage.toConfig =
        configuredExclusions s.world.storage.toConfig := by
  obtain ⟨s, h, hfound⟩ := Reach.of_follow setsMayFail (World.sample (.free .system)) excluding
    (fun s => (s.execute setsMayFail rejecting).any (fun p =>
      p.1.exclusionText = some (js "example.com") ∧ p.2.1.toOption.isNone ∧
        p.2.2.world.proxy.own = some .sample) = true) (by decide +kernel)
  obtain ⟨⟨op, r, s'⟩, hexec, hp⟩ := (Option.any_eq_true _ _).1 hfound
  obtain ⟨hop, hr, hown⟩ := of_decide_eq_true hp
  obtain rfl : op = .saveExclusions (.str (js "example.com")) := by
    cases op with
    | saveExclusions text => cases text <;> simp_all [Op.exclusionText]
    | _ => cases hop
  cases r with
  | ok result => cases hr
  | error e =>
      have hexec := Executes.of_execute hexec
      refine ⟨s, s', e, hexec, hown, ?_⟩
      refine ((saveExclusions_all_or_nothing (fun s o text c k hok hslot hc => ?_) h hexec).2 e
        rfl).2.2.1
      refine done_of_setsMayFail hok hslot ?_
      rintro v rfl
      rcases hc with hc | ⟨hc, -⟩ <;> cases hc

end

end BrowserVpn
