import BrowserVpn.Extension.Writer

/-!
# Extension.Ordering — WebRTC before the PAC, the PAC off before WebRTC

No call of Chrome is assumed to succeed here. `OrderView` is what an observer of
the trace can say about the present operation of an actor: in which contexts
WebRTC was read as restricted since the operation last moved it, and whether a
`chrome.proxy.settings.clear` has resolved with no `set` issued since. Every
function is entitled to its `set` and `clear` calls in this sense (`permitted`),
on every path through its handlers.
-/

namespace BrowserVpn

open Async

/-! ## The observer -/

/-- What the calls of the present operation have shown. -/
structure OrderView where
  regular : Bool := false
  incognito : Bool := false
  cleared : Bool := false

/-- Calls that move the WebRTC policy. -/
def Call.movesWebRTC : Call → Bool
  | .webRTCSet _ | .webRTCClear => true
  | _ => false

namespace OrderView

/-- A call is issued by the operation. -/
def issue (c : Call) (x : OrderView) : OrderView :=
  match c with
  | .webRTCSet _ | .webRTCClear => { x with regular := false, incognito := false }
  | .proxySet _ => { x with cleared := false }
  | _ => x

/-- A call of the operation has landed. -/
def land (x : OrderView) : (c : Call) → Except String (Reply c) → OrderView
  | .webRTCSet _, _ => { x with regular := false, incognito := false }
  | .webRTCClear, _ => { x with regular := false, incognito := false }
  | .webRTCGet false, .ok setting => { x with regular := x.regular || webRTCIsRestricted setting }
  | .webRTCGet true, .ok setting =>
      { x with incognito := x.incognito || webRTCIsRestricted setting }
  | .proxyClear, .ok _ => { x with cleared := true }
  | _, _ => x

/-- One observation, for the operation of `a`. -/
def see (a : Actor) : Obs → OrderView → OrderView
  | .restarted, _ => {}
  | .started _ _, x => if a = .op then {} else x
  | .issued b c, x =>
      if b = a then x.issue c
      else match c with
        | .proxySet _ => { x with cleared := false }
        | _ => x
  | .landed b c r, x => if b = a then x.land c r else x
  | _, x => x

/-- WebRTC was read as restricted in the enabled contexts. -/
def RestrictionRead [Browser] (x : OrderView) : Prop :=
  x.regular = true ∧ (Browser.incognitoAllowed = true → x.incognito = true)

end OrderView

/-- What the trace, newest first, shows of the present operation of `a`. -/
def orderOf (a : Actor) (trace : List Obs) : OrderView := trace.foldr (OrderView.see a) {}

section

variable [Browser]

/-- The calls that are bound to an order. Besides the two settings, these are
the calls that replace the stored connection: they too come after the PAC is
off. -/
def permitted : Call → OrderView → Prop
  | .proxySet _, x => x.RestrictionRead
  | .webRTCClear, x => x.cleared = true
  | .storageSet p, x => p.connection.isSome = true → x.cleared = true
  | .storageRemove, x => x.cleared = true
  | _, _ => True

/-- Every call of a trace came in its order. -/
def CallsOrdered : List Obs → Prop
  | [] => True
  | o :: trace => (∀ a c, o = .issued a c → permitted c (orderOf a trace)) ∧ CallsOrdered trace

theorem CallsOrdered.issued {later earlier : List Obs} {a : Actor} {c : Call}
    (h : CallsOrdered (later ++ .issued a c :: earlier)) : permitted c (orderOf a earlier) := by
  induction later with
  | nil => exact h.1 a c rfl
  | cons o later ih => exact ih h.2

/-- Observations that are no calls. -/
theorem CallsOrdered.append {new trace : List Obs} (h : CallsOrdered trace)
    (hnew : ∀ o ∈ new, ∀ a c, o ≠ .issued a c) : CallsOrdered (new ++ trace) := by
  induction new with
  | nil => exact h
  | cons o new ih =>
      refine ⟨fun a c ho => absurd ho (hnew o (List.mem_cons_self ..) a c), ih fun o' ho' => ?_⟩
      exact hnew o' (List.mem_cons_of_mem _ ho')

/-! ## The logic -/

/-- What a reply shows. A failed question shows nothing. -/
def orderReplies : (c : Call) → OrderView → Except String (Reply c) → OrderView → Prop
  | .isAllowedIncognitoAccess, x, r, x' => x' = x ∧ ∀ b, r = .ok b → b = Browser.incognitoAllowed
  | c, x, r, x' => x' = x.land c r

@[reducible] def orderLogic : Logic api OrderView where
  reads x _ x' := x' = x
  mayWrite _ _ := True
  write _ x := x
  mayCall := permitted
  issue := OrderView.issue
  replies := orderReplies

instance : Ticks orderLogic where
  mayTick _ := trivial
  tick h := h

variable {α β : Type} {x : OrderView}

/-- Whatever was shown before is shown still. -/
structure OrderView.Keeps (x x' : OrderView) : Prop where
  regular : x.regular = true → x'.regular = true
  incognito : x.incognito = true → x'.incognito = true
  cleared : x.cleared = true → x'.cleared = true

namespace OrderView.Keeps

variable {x₁ x₂ : OrderView}

omit [Browser] in
theorem refl (x : OrderView) : x.Keeps x := ⟨id, id, id⟩

omit [Browser] in
theorem trans (h : x.Keeps x₁) (h' : x₁.Keeps x₂) : x.Keeps x₂ :=
  ⟨fun hx => h'.regular (h.regular hx), fun hx => h'.incognito (h.incognito hx),
    fun hx => h'.cleared (h.cleared hx)⟩

theorem restrictionRead (h : x.Keeps x₁) (hx : x.RestrictionRead) : x₁.RestrictionRead :=
  ⟨h.regular hx.1, fun ha => h.incognito (hx.2 ha)⟩

end OrderView.Keeps

/-! ## Functions that lose nothing -/

/-- Calls that may come at any time and undo nothing that was shown. -/
def Call.gentle : Call → Bool
  | .proxySet _ | .webRTCSet _ | .webRTCClear | .storageRemove => false
  | .storageSet p => p.connection.isNone
  | _ => true

abbrev Gentle (p : Js α) : Prop := p.Within (fun c : Call => c.gentle) fun _ => True

omit [Browser] in
theorem Call.gentle_of_records {c : Call} (h : c.records = true) : c.gentle = true := by
  cases c <;> simp_all [Call.records, Call.gentle, Call.asks, Patch.errorOnly]

omit [Browser] in
theorem Call.gentle_of_inspects {c : Call} (h : c.inspects = true) : c.gentle = true := by
  cases c <;> simp_all [Call.inspects, Call.gentle, Call.asks]

theorem permitted_of_gentle {c : Call} (h : c.gentle = true) : permitted c x := by
  cases c with
  | storageSet p =>
      intro hp
      simp only [Call.gentle, Option.isNone_iff_eq_none] at h
      simp [h] at hp
  | _ => trivial

omit [Browser] in
theorem Records.gentle {p : Js α} (h : Records p) : Gentle p :=
  h.mono (fun _ => Call.gentle_of_records) fun _ hw => hw.elim

omit [Browser] in
theorem Asks.gentle {p : Js α} (h : Asks p) : Gentle p := h.records.gentle

/-- A gentle reply adds to what was shown. -/
theorem OrderView.keeps_reply {c : Call} (hc : c.gentle = true) {r : Except String (Reply c)}
    {x' : OrderView} (h : orderReplies c (x.issue c) r x') : x.Keeps x' := by
  have hissue : x.issue c = x := by
    cases c <;> first | rfl | cases hc
  rw [hissue] at h
  -- Only the readings of WebRTC and the clearing of the PAC add anything.
  cases c with
  | isAllowedIncognitoAccess =>
      obtain ⟨rfl, -⟩ := h
      exact .refl _
  | webRTCGet incognito =>
      obtain rfl : x' = _ := h
      cases incognito <;> cases r
      · exact .refl x
      · exact ⟨fun hx => by simp [land, hx], id, id⟩
      · exact .refl x
      · exact ⟨id, fun hx => by simp [land, hx], id⟩
  | proxyClear =>
      obtain rfl : x' = _ := h
      cases r
      · exact .refl x
      · exact ⟨id, id, fun _ => rfl⟩
  | webRTCSet value => cases hc
  | webRTCClear => cases hc
  | _ =>
      have heq : x' = x := h
      rw [heq]
      exact .refl x

theorem Gentle.keeps {p : Js α} (h : Gentle p) : wp orderLogic p (fun _ x' => x.Keeps x') x := by
  refine wp_of_within _ (I := x.Keeps) h ?_ ?_ ?_ (.refl x)
  · intro x₁ v x₂ hx heq
    exact heq ▸ hx
  · intro w x₁ hx _
    exact ⟨trivial, hx⟩
  · intro c x₁ hx hc
    exact ⟨permitted_of_gentle hc, fun r x₂ hr => hx.trans (OrderView.keeps_reply hc hr)⟩

/-! ## Functions that keep the order -/

/-- Whatever was shown when it starts, the function keeps the order. -/
def Ordered (p : Js α) : Prop := ∀ x, wp orderLogic p (fun _ _ => True) x

theorem Gentle.ordered {p : Js α} (h : Gentle p) : Ordered p :=
  fun _ => wp_mono _ h.keeps fun _ _ _ => trivial

namespace Ordered

theorem pure (a : α) : Ordered (pure a : Js α) := fun _ => trivial

theorem bind {p : Js α} {f : α → Js β} (hp : Ordered p) (hf : ∀ a, Ordered (f a)) :
    Ordered (p >>= f) :=
  fun x => wp_bind _ (hp x) (fun a x' _ => hf a x') fun _ _ _ => trivial

theorem await {p : Js α} (hp : Ordered p) : Ordered (await p) := fun x => wp_await (hp x)

theorem tryCatch {p : Js α} {h : String → Js α} (hp : Ordered p) (hh : ∀ e, Ordered (h e)) :
    Ordered (tryCatch p h) :=
  fun x => wp_tryCatch _ (hp x) (fun _ _ _ => trivial) fun e x' _ => hh e x'

theorem when {b : Bool} {p : Js Unit} (hp : Ordered p) : Ordered (when b p) := by
  cases b with
  | true => exact hp
  | false => exact .pure ()

theorem map {p : Js α} (hp : Ordered p) (f : α → β) : Ordered (f <$> p) :=
  hp.bind fun a => .pure (f a)

end Ordered

/-! ## Readings of WebRTC -/

theorem incognitoWebRTC_read :
    wp orderLogic incognitoWebRTCIsRestricted (fun r x' => x.Keeps x' ∧
      (r = .ok true → Browser.incognitoAllowed = true → x'.incognito = true)) x := by
  refine wp_tryCatch _ (M := fun r x' => x.Keeps x' ∧
    (r = .ok true → Browser.incognitoAllowed = true → x'.incognito = true)) ?_ ?_ ?_
  · refine wp_bind _ (wp_call .isAllowedIncognitoAccess trivial) ?_ ?_
    · rintro allowed x ⟨rfl, hallowed⟩
      obtain rfl := hallowed _ rfl
      split
      · refine wp_map _ (wp_await (wp_mono _ (wp_call (.webRTCGet true) trivial) ?_))
        intro r x' hx
        refine ⟨OrderView.keeps_reply (c := .webRTCGet true) rfl hx, fun hr _ => ?_⟩
        cases r with
        | error e => cases hr
        | ok setting =>
            obtain rfl : x' = _ := hx
            have hsetting : webRTCIsRestricted setting = true := Except.ok.inj hr
            simp [OrderView.land, hsetting]
      · rename_i hnot
        exact ⟨.refl x, fun _ ha => absurd ha hnot⟩
    · rintro e x ⟨rfl, -⟩
      exact ⟨.refl x, nofun⟩
  · exact fun _ _ h => h
  · -- A question that fails answers `false`.
    rintro e x' ⟨hx, -⟩
    exact ⟨hx, nofun⟩

theorem webRTCSetting_read :
    wp orderLogic (webRTCSetting false) (fun r x' => x.Keeps x' ∧
      ∀ setting, r = .ok setting → webRTCIsRestricted setting = true → x'.regular = true) x := by
  refine wp_mono _ (wp_call (.webRTCGet false) trivial) ?_
  intro r x' hx
  refine ⟨OrderView.keeps_reply (c := .webRTCGet false) rfl hx, ?_⟩
  rintro setting rfl hsetting
  obtain rfl : x' = _ := hx
  simp [OrderView.land, hsetting]

theorem enabledContexts_read :
    wp orderLogic webRTCIsRestrictedInAllEnabledContexts (fun r x' => x.Keeps x' ∧
      (r = .ok true → x'.RestrictionRead)) x := by
  refine wp_await_bind webRTCSetting_read ?_ ?_
  · rintro setting x₁ ⟨hx₁, hread⟩
    split
    · rename_i hregular
      refine wp_await (wp_mono _ incognitoWebRTC_read ?_)
      rintro r x₂ ⟨hx₂, hincognito⟩
      exact ⟨hx₁.trans hx₂, fun hr => ⟨hx₂.regular (hread _ rfl hregular), hincognito hr⟩⟩
    · exact ⟨hx₁, nofun⟩
  · rintro e x₁ ⟨hx₁, -⟩
    exact ⟨hx₁, nofun⟩

theorem ensureIncognitoWebRTC_read :
    wp orderLogic ensureIncognitoWebRTC (fun r x' => x.Keeps x' ∧
      (r = .ok () → Browser.incognitoAllowed = true → x'.incognito = true)) x := by
  refine wp_await_bind incognitoWebRTC_read ?_ ?_
  · rintro b x₁ ⟨hx₁, hread⟩
    refine wp_ensure (fun hb => ⟨hx₁, fun _ => hread (by rw [hb])⟩) fun _ => ⟨hx₁, nofun⟩
  · rintro e x₁ ⟨hx₁, -⟩
    exact ⟨hx₁, nofun⟩

theorem ensureRestricted_read (message : String) :
    wp orderLogic (ensureRestricted message) (fun r x' => x.Keeps x' ∧
      (r = .ok () → x'.RestrictionRead)) x := by
  refine wp_await_bind enabledContexts_read ?_ ?_
  · rintro b x₁ ⟨hx₁, hread⟩
    refine wp_ensure (fun hb => ⟨hx₁, fun _ => hread (by rw [hb])⟩) fun _ => ⟨hx₁, nofun⟩
  · rintro e x₁ ⟨hx₁, -⟩
    exact ⟨hx₁, nofun⟩

/-- `restrictWebRTC` returns only after a reading that showed it done. -/
theorem restrictWebRTC_read :
    wp orderLogic restrictWebRTC (fun r x' => r = .ok () → x'.regular = true) x := by
  refine wp_await_bind webRTCSetting_read ?_ (fun _ _ _ => nofun)
  rintro rtc x₁ ⟨-, hread⟩
  refine wp_when (fun _ => ?_) fun hb _ => hread _ rfl (by simpa using hb)
  refine wp_await_bind (wp_call .proxyClear trivial) ?_ (fun _ _ _ => nofun)
  intro _ x₂ _
  refine wp_ensure_bind (fun _ => ?_) fun _ => nofun
  refine wp_bind _ (wp_call (.webRTCSet _) trivial) ?_ (fun _ _ _ => nofun)
  intro _ x₃ _
  refine wp_await_bind webRTCSetting_read ?_ (fun _ _ _ => nofun)
  rintro rtc' x₄ ⟨-, hread'⟩
  exact wp_ensure (fun hb _ => hread' _ rfl hb) fun _ => nofun

/-! ## The two settings -/

theorem setProxy_ordered (expected : ProxyConfig) (message : String) (h : x.RestrictionRead) :
    wp orderLogic (setProxy expected message) (fun _ _ => True) x := by
  refine wp_bind _ (wp_call (.proxySet expected) h) ?_ (fun _ _ _ => trivial)
  intro _ x₁ _
  have hrest : Gentle (do
      let applied ← await (effectiveSetting false)
      ensure (isEffectiveProxySetting applied expected) message) :=
    .bind (asks_await (asks_effectiveSetting false)).gentle fun _ => within_ensure _ _
  exact hrest.ordered x₁

/-- `clearOwnSettings` returns only after a clearing of the PAC that resolved. -/
theorem clearOwnSettings_order :
    wp orderLogic clearOwnSettings (fun r x' => r = .ok () → x'.cleared = true) x := by
  refine wp_await_bind (wp_call .proxyClear trivial) ?_ (fun _ _ _ => nofun)
  intro _ x₁ hx₁
  obtain rfl : x₁ = { x with cleared := true } := hx₁
  refine wp_await (wp_mono _ (wp_call .webRTCClear rfl) ?_)
  intro r x₂ hx₂ _
  obtain rfl : x₂ = _ := hx₂
  cases r <;> rfl

theorem ordered_clearOwnSettings : Ordered clearOwnSettings :=
  fun _ => wp_mono _ clearOwnSettings_order fun _ _ _ => trivial

omit [Browser] in
theorem gentle_refuse (message : String) : Gentle (refuse message) :=
  .bind (within_await (within_chrome rfl) rfl) fun _ => trivial

omit [Browser] in
theorem gentle_attempt_clear : Gentle (attempt clearOwnProxySetting) :=
  .tryCatch (within_await (within_chrome rfl) rfl) fun _ => trivial

/-! ## The operations -/

variable [Platform]

omit [Browser] in
theorem gentle_updateBadge : Gentle (await updateBadge) := (records_await records_updateBadge).gentle

omit [Browser] in
theorem gentle_badgeAndStatus : Gentle (await updateBadge >>= fun _ => status) :=
  .bind gentle_updateBadge fun _ => asks_status.gentle

omit [Platform] [Browser] in
theorem gentle_ensureIncognitoProxy (expected : ProxyConfig) (message : String) :
    Gentle (ensureIncognitoProxy expected message) :=
  .bind (asks_await (asks_incognitoProxyState expected)).gentle fun _ => within_ensure _ _

section

omit [Platform]

theorem ordered_ensureIncognitoWebRTC : Ordered ensureIncognitoWebRTC :=
  fun _ => wp_mono _ ensureIncognitoWebRTC_read fun _ _ _ => trivial

theorem ordered_ensureRestricted (message : String) : Ordered (ensureRestricted message) :=
  fun _ => wp_mono _ (ensureRestricted_read message) fun _ _ _ => trivial

/-- The PAC is set under a reading, and the checks that follow only read. -/
theorem setAndVerify_ordered (expected : ProxyConfig) (m₁ m₂ m₃ : String)
    (h : x.RestrictionRead) :
    wp orderLogic
      (do setProxy expected m₁
          ensureIncognitoProxy expected m₂
          ensureRestricted m₃)
      (fun _ _ => True) x := by
  refine wp_bind _ (setProxy_ordered expected m₁ h) ?_ (fun _ _ _ => trivial)
  intro _ x₁ _
  exact Ordered.bind (gentle_ensureIncognitoProxy expected m₂).ordered
    (fun _ => ordered_ensureRestricted m₃) x₁

theorem ordered_verifyRoute (expected : ProxyConfig) : Ordered (verifyRoute expected) := by
  refine .bind (asks_await (asks_webRTCSetting false)).gentle.ordered fun rtc => ?_
  refine .bind (Gentle.ordered (within_ensure _ _)) fun _ => ?_
  exact .bind ordered_ensureIncognitoWebRTC fun _ => (gentle_ensureIncognitoProxy _ _).ordered

end

theorem ordered_restoreRoute (c : Connection) (l : List JsString) : Ordered (restoreRoute c l) := by
  intro x
  refine wp_bind _ restrictWebRTC_read ?_ (fun _ _ _ => trivial)
  intro _ x₁ hregular
  refine wp_bind _ ensureIncognitoWebRTC_read ?_ (fun _ _ _ => trivial)
  rintro _ x₂ ⟨hx₂, hincognito⟩
  -- Both contexts have been read; what comes before `set` loses neither reading.
  have hread : x₂.RestrictionRead := ⟨hx₂.regular (hregular rfl), hincognito rfl⟩
  refine wp_bind _ (asks_await (asks_effectiveSetting false)).gentle.keeps ?_
    (fun _ _ _ => trivial)
  intro setting x₃ hx₃
  refine wp_ensure_bind (fun _ => ?_) fun _ => trivial
  refine wp_lift_bind (fun expected _ => ?_) fun _ _ => trivial
  refine wp_bind _ (asks_await (asks_incognitoProxyState expected)).gentle.keeps ?_
    (fun _ _ _ => trivial)
  intro incognito x₄ hx₄
  refine wp_when_bind (fun _ => ⟨trivial, trivial⟩) fun _ => ?_
  refine wp_bind _ (M := fun _ _ => True) ?_ ?_ (fun _ _ _ => trivial)
  · exact wp_when (fun _ => setProxy_ordered _ _ ((hx₃.trans hx₄).restrictionRead hread))
      fun _ => trivial
  · intro _ x₅ _
    refine Ordered.bind (ordered_verifyRoute expected) (fun _ => ?_) x₅
    exact fun _ => ⟨trivial, trivial, trivial⟩

theorem ordered_reconcileRoute (data : Config) : Ordered (reconcileRoute data) := by
  have hstore : Gentle (chrome (.storageSet { enabled := some false })) := within_chrome rfl
  unfold reconcileRoute
  split
  · exact .bind hstore.ordered fun _ => ordered_clearOwnSettings
  · exact .bind hstore.ordered.when fun _ => ordered_clearOwnSettings
  · split
    · exact ordered_clearOwnSettings
    · refine .tryCatch (ordered_restoreRoute _ _) fun _ => ?_
      exact Gentle.ordered (within_await (within_chrome rfl) rfl)

theorem ordered_reconcileAtStartup : Ordered reconcileAtStartup := by
  refine .bind (Gentle.ordered (within_chrome rfl)) fun _ => ?_
  refine .bind (asks_await asks_stored).gentle.ordered fun data => ?_
  exact .bind (ordered_reconcileRoute _) fun _ => gentle_updateBadge.ordered

theorem ordered_boot : Ordered boot := by
  refine .tryCatch ordered_reconcileAtStartup fun _ => ?_
  refine .bind gentle_attempt_clear.ordered fun _ => ?_
  exact .tryCatch gentle_updateBadge.ordered fun _ => .pure ()

theorem ordered_importKey (key : JsVal) : Ordered (importKey key) := by
  intro x
  refine wp_lift_bind (fun connection _ => ?_) fun _ _ => trivial
  refine wp_bind _ (Gentle.ordered (within_chrome rfl) x) ?_ (fun _ _ _ => trivial)
  intro _ x₁ _
  refine wp_bind _ clearOwnSettings_order ?_ (fun _ _ _ => trivial)
  intro _ x₂ hcleared
  refine wp_bind _ (wp_call (.storageSet _) fun _ => hcleared rfl) ?_ (fun _ _ _ => trivial)
  intro _ x₃ _
  exact gentle_badgeAndStatus.ordered x₃

omit [Platform] in
theorem establishRoute_ordered (expected : ProxyConfig) : Ordered (establishRoute expected) := by
  intro x
  refine wp_bind _ (wp_call (.webRTCSet _) trivial) ?_ (fun _ _ _ => trivial)
  intro _ x₁ _
  refine wp_await_bind webRTCSetting_read ?_ (fun _ _ _ => trivial)
  rintro rtc x₂ ⟨-, hregular⟩
  refine wp_ensure_bind (fun hb => ?_) fun _ => trivial
  refine wp_bind _ ensureIncognitoWebRTC_read ?_ (fun _ _ _ => trivial)
  rintro _ x₃ ⟨hx₃, hincognito⟩
  exact setAndVerify_ordered _ _ _ _ ⟨hx₃.regular (hregular _ rfl hb), hincognito rfl⟩

theorem ordered_abandonRoute (error : String) : Ordered (abandonRoute error) := by
  refine .bind (Gentle.ordered (within_chrome rfl)) fun _ => ?_
  refine .bind ordered_clearOwnSettings fun _ => ?_
  exact .bind gentle_updateBadge.ordered fun _ _ => trivial

theorem ordered_enableRoute (expected : ProxyConfig) (rtc : Setting WebRTCPolicy) :
    Ordered (enableRoute expected rtc) := by
  refine .bind (.when (Gentle.ordered (within_await (within_chrome rfl) rfl))) fun _ => ?_
  refine .bind (Gentle.ordered (within_chrome rfl)) fun _ => ?_
  refine .bind (.tryCatch (establishRoute_ordered expected) ordered_abandonRoute) fun _ => ?_
  exact fun x => ⟨trivial, trivial, gentle_badgeAndStatus.ordered x⟩

theorem ordered_connect : Ordered connect := by
  have hrefuse : ∀ {b : Bool} {message : String}, Ordered (when b (refuse message)) :=
    .when (gentle_refuse _).ordered
  refine .bind (asks_await asks_stored).gentle.ordered fun data => ?_
  refine .bind (Gentle.ordered (within_lift _)) fun connection => ?_
  refine .bind (Gentle.ordered (within_lift _)) fun exclusions => ?_
  refine .bind (asks_await (asks_effectiveSetting false)).gentle.ordered fun setting => ?_
  refine .bind hrefuse fun _ => .bind (Gentle.ordered (within_lift _)) fun expected => ?_
  refine .bind (asks_await (asks_incognitoProxyState _)).gentle.ordered fun incognito => ?_
  refine .bind hrefuse fun _ => ?_
  refine .bind (asks_await (asks_webRTCSetting false)).gentle.ordered fun rtc => ?_
  exact .bind hrefuse fun _ => ordered_enableRoute expected rtc

/-- `disconnect` returns only with the PAC off. -/
theorem disconnect_order :
    wp orderLogic disconnect (fun r x' => (∃ st, r = .ok st) → x'.cleared = true) x := by
  refine wp_set_bind trivial (wp_set_bind trivial ?_)
  refine wp_bind _ (Gentle.ordered (within_chrome rfl) x) ?_ (fun _ _ _ => nofun)
  intro _ x₁ _
  refine wp_bind _ clearOwnSettings_order ?_ (fun _ _ _ => nofun)
  intro _ x₂ hcleared
  exact wp_mono _ gentle_badgeAndStatus.keeps fun r x₃ hx₃ _ => hx₃.cleared (hcleared rfl)

theorem ordered_forget : Ordered forget := by
  intro x
  refine wp_await_bind disconnect_order ?_ (fun _ _ _ => trivial)
  intro st x₁ hcleared
  refine wp_bind _ (wp_call .storageRemove (hcleared ⟨st, rfl⟩)) ?_ (fun _ _ _ => trivial)
  intro _ x₂ _
  exact gentle_badgeAndStatus.ordered x₂

/-- The guards of `saveExclusions` let it go on only after a reading. -/
theorem checkRoute_read (c : Connection) (old : Config) :
    wp orderLogic (checkRoute c old) (fun r x' => r = .ok () → x'.RestrictionRead) x := by
  have hrefuse : ∀ {b : Bool} {message : String}, Ordered (when b (refuse message)) :=
    .when (gentle_refuse _).ordered
  refine wp_bind _ ((asks_await (asks_effectiveSetting false)).gentle.ordered x) ?_
    (fun _ _ _ => nofun)
  intro setting x₁ _
  refine wp_bind _ (hrefuse x₁) ?_ (fun _ _ _ => nofun)
  intro _ x₂ _
  refine wp_await_bind enabledContexts_read ?_ (fun _ _ _ => nofun)
  rintro restricted x₃ ⟨-, hread⟩
  refine wp_when_bind (fun _ => ?_) fun hb => ?_
  · -- `refuse` throws.
    refine wp_bind _ (M := fun r _ => r ≠ .ok ()) ?_ (fun _ _ h => absurd rfl h)
      (fun _ _ _ => nofun)
    exact wp_await_bind (wp_call .proxyClear trivial) (fun _ _ _ => nofun) fun _ _ _ => nofun
  · have hread : x₃.RestrictionRead := hread (by simpa using hb)
    refine wp_lift_bind (fun exclusions _ => ?_) fun _ _ => nofun
    refine wp_lift_bind (fun expected _ => ?_) fun _ _ => nofun
    refine wp_bind _ (asks_await (asks_incognitoProxyState expected)).gentle.keeps ?_
      (fun _ _ _ => nofun)
    intro incognito x₄ hx₄
    refine wp_when (fun _ => wp_set_bind trivial ?_) fun _ _ => hx₄.restrictionRead hread
    exact wp_mono _ (gentle_refuse _).keeps fun _ _ hx₅ _ =>
      (hx₄.trans hx₅).restrictionRead hread

theorem ordered_restorePrevious (c : Connection) (old : Config) :
    Ordered (restorePrevious c old) := by
  intro x
  refine wp_lift_bind (fun exclusions _ => ?_) fun _ _ => trivial
  refine wp_lift_bind (fun previous _ => ?_) fun _ _ => trivial
  refine wp_bind _ (ensureRestricted_read _) ?_ (fun _ _ _ => trivial)
  rintro _ x₁ ⟨-, hread⟩
  refine wp_bind _ (asks_await (asks_incognitoProxyState previous)).gentle.keeps ?_
    (fun _ _ _ => trivial)
  intro incognito x₂ hx₂
  refine wp_ensure_bind (fun _ => ?_) fun _ => trivial
  exact setAndVerify_ordered _ _ _ _ (hx₂.restrictionRead (hread rfl))

theorem ordered_rollbackExclusions (c : Connection) (old : Config) (error : String) :
    Ordered (rollbackExclusions c old error) := by
  refine .bind (Gentle.ordered (within_chrome rfl)) fun _ => ?_
  refine .bind (.tryCatch (ordered_restorePrevious c old) fun _ => gentle_attempt_clear.ordered)
    fun _ => ?_
  exact .bind gentle_updateBadge.ordered fun _ _ => trivial

theorem ordered_saveExclusions (text : JsVal) : Ordered (saveExclusions text) := by
  intro x
  refine wp_lift_bind (fun exclusions _ => ?_) fun _ _ => trivial
  refine wp_bind _ ((asks_await asks_stored).gentle.ordered x) ?_ (fun _ _ _ => trivial)
  intro old x₁ _
  refine wp_lift_bind (fun c _ => ?_) fun _ _ => trivial
  cases old.isEnabled with
  | false =>
      refine wp_when_bind nofun fun _ => ?_
      refine Ordered.bind (Gentle.ordered (within_chrome rfl)) (fun _ => ?_) x₁
      refine .bind (fun x₂ => wp_when nofun fun _ => trivial) fun _ x₂ => ⟨trivial, ?_⟩
      exact gentle_badgeAndStatus.ordered x₂
  | true =>
      -- The first `set` comes under the reading of the guards, which the new
      -- exclusions leave alone.
      refine wp_when_bind (fun _ => ?_) nofun
      refine wp_bind _ (checkRoute_read c _) ?_ (fun _ _ _ => trivial)
      intro _ x₂ hread
      have hstore : Gentle (chrome (.storageSet { exclusions := some exclusions })) :=
        within_chrome rfl
      refine wp_bind _ hstore.keeps ?_ (fun _ _ _ => trivial)
      intro _ x₃ hx₃
      refine wp_when_bind (fun _ => ?_) nofun
      refine wp_bind _ (M := fun _ _ => True) ?_ ?_ (fun _ _ _ => trivial)
      · refine wp_tryCatch _ (M := fun _ _ => True) ?_ (fun _ _ _ => trivial)
          fun e x₄ _ => ordered_rollbackExclusions c _ e x₄
        refine wp_lift_bind (fun expected _ => ?_) fun _ _ => trivial
        exact setAndVerify_ordered _ _ _ _ (hx₃.restrictionRead (hread rfl))
      · exact fun _ x₄ _ => ⟨trivial, gentle_badgeAndStatus.ordered x₄⟩

omit [Platform] in
theorem ordered_clearOnConflict (st : IncognitoProxyState) : Ordered (clearOnConflict st) := by
  unfold clearOnConflict
  split
  · exact fun _ => ⟨trivial, trivial, trivial⟩
  · refine .bind (Gentle.ordered within_get) fun v => .when fun x => ⟨trivial, ?_⟩
    refine wp_await_bind (wp_call .proxyClear trivial) ?_ (fun _ _ _ => trivial)
    exact fun _ _ _ => ⟨trivial, trivial⟩

theorem ordered_restoreAfterTakeover (st : IncognitoProxyState) (regular : Setting ProxyConfig) :
    Ordered (restoreAfterTakeover st regular) := by
  refine .bind (Gentle.ordered within_get) fun v => .when ?_
  refine .bind (.await fun _ => wp_mono _ enabledContexts_read fun _ _ _ => trivial)
    fun restricted => .when fun x => ⟨trivial, trivial, ?_⟩
  exact ordered_reconcileAtStartup.await x

theorem ordered_onProxyChange : Ordered onProxyChange := by
  intro x
  rw [onProxyChange, Prog.finallyDo, wp_andThen]
  refine wp_mono _ (Q := fun _ _ => True) ?_ fun r x₁ _ => ?_
  · refine Ordered.bind (asks_await asks_stored).gentle.ordered (fun data => .when ?_) x
    refine .bind (Gentle.ordered (within_lift _)) fun c => ?_
    refine .bind (Gentle.ordered (within_lift _)) fun l => ?_
    refine .bind (Gentle.ordered (within_lift _)) fun expected => ?_
    refine .bind (asks_await (asks_incognitoProxyState _)).gentle.ordered fun st => ?_
    refine .bind (asks_await (asks_effectiveSetting false)).gentle.ordered fun regular => ?_
    exact .bind (ordered_clearOnConflict st) fun _ => ordered_restoreAfterTakeover st regular
  · rw [wp_andThen]
    refine wp_mono _ (gentle_updateBadge.ordered x₁) fun r' _ _ => ?_
    cases r' <;> trivial

/-- Every function of the worker keeps the order. -/
theorem ordered_body (subj : Subject) : Ordered subj.body := by
  cases subj with
  | boot => exact ordered_boot.map _
  | task kind =>
      exact Gentle.ordered ((inspects_body kind).mono (fun _ => Call.gentle_of_inspects)
        fun _ _ => trivial)
  | op o =>
      cases o with
      | importKey key => exact ((ordered_importKey key).map _).await
      | connect => exact (ordered_connect.map _).await
      | disconnect =>
          refine Ordered.await (.map (fun _ => ?_) _)
          exact wp_mono _ disconnect_order fun _ _ _ => trivial
      | forget => exact (ordered_forget.map _).await
      | saveExclusions text => exact ((ordered_saveExclusions text).map _).await
      | proxyChanged => exact (ordered_onProxyChange.map _).await
      | webRTCChanged => exact (ordered_reconcileAtStartup.map _).await
      | proxyError details stamp => exact (records_body rfl).gentle.ordered
      | authFailed stamp => exact (records_body rfl).gentle.ordered
      | clearError check => exact (records_body rfl).gentle.ordered

/-! ## The outline -/

/-- The outline of the writers. A call under way is entitled to its place, and a
`clear` that resolved with no `set` since means that there is no own PAC. -/
@[reducible] def orderOutline : Outline where
  View := OrderView
  logic := orderLogic
  covers subj := subj.quiet = false
  At a subj x s := x = orderOf a s.trace ∧ (x.cleared = true → s.world.proxy.own = none) ∧
    ∀ c k, s.slot a = some (subj, .awaiting c k) → permitted c x ∧ x.issue c = x
  post _ _ _ := True

omit [Platform] [Browser] in
/-- Changes of settings pass the observer by. -/
theorem orderOf_settingChanged {a : Actor} {new trace : List Obs}
    (h : ∀ o ∈ new, o = .settingChanged) : orderOf a (new ++ trace) = orderOf a trace :=
  Sys.reading_next fun o ho t => by rw [h o ho]; rfl

/-- Steps of the others show nothing of a writer. -/
theorem orderOf_next {s s' : Sys} {l : Label} {a : Actor} (hd : s'.Disciplined)
    (hs : s.next l = some s') (ha : l.actor ≠ some a) (hl : l ≠ .restart)
    (hstart : l = .start → a ≠ .op)
    (hquiet : ∀ b subj thread, l.actor = some b → s'.slot b = some (subj, thread) →
      subj.quiet = true) : orderOf a s'.trace = orderOf a s.trace := by
  by_cases hresume : ∃ b, l = .resume b
  · obtain ⟨b, rfl⟩ := hresume
    have hne : b ≠ a := fun e => ha (by rw [e]; rfl)
    obtain ⟨subj, p, hslot, ⟨v, c, k, hp, rfl⟩ | ⟨v, r, hp, rfl⟩⟩ := Sys.resume_eq_some hs
    · -- What `b` now awaits is no `set`: `b` is quiet.
      have hslot' := s.slot_suspend_self b c k (v := v) hslot
      have hmay := hd.calls hslot'
      have hq := hquiet b subj _ rfl hslot'
      rw [Sys.suspend_trace]
      cases c with
      | proxySet value =>
          cases subj with
          | boot => cases hq
          | op o => cases hmay hq
          | task kind => cases hmay
      | _ => simp [orderOf, OrderView.see, hne]
    · rw [Sys.finish_trace]
      rfl
  · obtain ⟨new, htrace, hof⟩ := Sys.trace_next hs
    rw [htrace]
    refine Sys.reading_next fun o ho t => ?_
    have hlabel := hof o ho
    cases o with
    | restarted => exact absurd hlabel hl
    | started op owner => simp [orderOf, OrderView.see, hstart hlabel]
    | issued b c => exact absurd ⟨b, hlabel⟩ hresume
    | landed b c r =>
        obtain ⟨out, rfl⟩ := hlabel
        have hne : b ≠ a := fun e => ha (by rw [e]; rfl)
        simp [orderOf, OrderView.see, hne]
    | _ => rfl

section

omit [Platform]

/-- Only a `set` brings an own PAC, and a `clear` that resolves takes it away. -/
theorem own_land {w w' : World} {c : Call} {out : Outcome} {r : Except String (Reply c)}
    (hissue : x.issue c = x)
    (hown : x.cleared = true → w.proxy.own = none) (hw : w.land c out = some (r, w'))
    (h : (x.land c r).cleared = true) : w'.proxy.own = none := by
  cases c with
  | proxySet value =>
      -- A `set` under way has taken `cleared` back.
      rw [← hissue] at h
      cases h
  | proxyClear =>
      cases out <;> simp only [World.land, Option.some.injEq, Prod.mk.injEq, reduceCtorEq] at hw
      · obtain ⟨-, rfl⟩ := hw
        rfl
      · obtain ⟨rfl, rfl⟩ := hw
        exact hown h
  | webRTCGet incognito =>
      have hcleared : x.cleared = true := by
        cases incognito <;> cases r <;> exact h
      cases out <;> simp only [World.land, Option.some.injEq, Prod.mk.injEq, reduceCtorEq] at hw
      all_goals
        obtain ⟨-, rfl⟩ := hw
        exact hown hcleared
  | _ =>
      have hcleared : x.cleared = true := h
      cases out <;> simp only [World.land, Option.some.injEq, Prod.mk.injEq, reduceCtorEq] at hw
      all_goals
        obtain ⟨-, rfl⟩ := hw
        exact hown hcleared

theorem orderReplies_land {w w' : World} {c : Call} {out : Outcome} {r : Except String (Reply c)}
    (hw : w.land c out = some (r, w')) : orderReplies c x r (x.land c r) := by
  cases c with
  | isAllowedIncognitoAccess =>
      refine ⟨rfl, ?_⟩
      rintro b rfl
      cases out <;> simp only [World.land, Option.some.injEq, Prod.mk.injEq, reduceCtorEq] at hw
      · exact (Except.ok.inj hw.1).symm
      · cases hw.1
  | _ => rfl

theorem permitted_issue {c : Call} (h : permitted c x) :
    permitted c (x.issue c) ∧ (x.issue c).issue c = x.issue c := by
  cases c <;> exact ⟨h, rfl⟩

end

theorem orderOutline_begins {a : Actor} {subj : Subject} {s : Sys} (htrace : orderOf a s.trace = {})
    (h : ∀ c k, s.slot a ≠ some (subj, .awaiting c k)) : orderOutline.Begins a subj s :=
  fun _ => ⟨{}, ⟨htrace.symm, nofun, fun c k hslot => absurd hslot (h c k)⟩, ordered_body subj {}⟩

omit [Platform] in
theorem orderOutline_coherent : orderOutline.Coherent where
  enters _ _ hx := hx
  reads _ _ hx := ⟨_, rfl, hx⟩
  writes _ _ _ hx := ⟨hx.1, hx.2.1, fun c k h => hx.2.2 c k (by rwa [Sys.slot_vars] at h)⟩

/-- What is known of every reachable state, and the order established so far. -/
theorem orderOutline_correct (ok : Rules) :
    orderOutline.Correct ok Sys.Disciplined fun s => CallsOrdered s.trace where
  toCoherent := orderOutline_coherent
  frame {s l s' a subj thread x} hd hd' _ _ _ hs ha hl hslot hw hslot' hx := by
    obtain ⟨hquiet, hneutral, hstart⟩ := hd.others_next hslot hw hs ha
    obtain ⟨hview, hown, hcall⟩ := hx
    refine ⟨hview.trans (orderOf_next hd' hs ha hl hstart ?_).symm, fun h => ?_,
      fun c k h => hcall c k (hslot.trans (hslot' ▸ h))⟩
    · intro b subj' t hb hslot''
      exact hd'.others_quiet hslot' hw hslot'' (by rintro rfl; exact ha hb)
    · have hkept := (s.route_describes a).next hd hs hl hquiet hneutral
      exact hkept.proxy.symm.trans (hown h)
  restarted _ _ _ := orderOutline_begins rfl fun _ _ => by simp [Sys.slot, Sys.fresh]
  entered _ _ _ _ _ _ := orderOutline_begins rfl fun _ _ => by simp [Sys.slot]
  dispatched _ _ _ _ _ hc := by cases hc
  answered {s a out subj c k r w x} _ _ _ hslot _ hw _ hslot' hx := by
    obtain ⟨hview, hown, hcall⟩ := hx
    have hissue := (hcall c k hslot).2
    refine ⟨x.land c r, orderReplies_land hw, ?_, ?_, fun _ _ h => by simp [hslot'] at h⟩
    · obtain ⟨new, htrace, hnew⟩ := s.move_trace w
      rw [Sys.answer_trace, htrace]
      have hsame : orderOf a (new ++ s.trace) = orderOf a s.trace := orderOf_settingChanged hnew
      show x.land c r = OrderView.see a (.landed a c r) (orderOf a (new ++ s.trace))
      rw [hsame, ← hview]
      simp [OrderView.see]
    · intro h
      rw [Sys.answer_world]
      exact own_land hissue hown hw h
  suspended {s a subj p v x c k} _ _ _ _ _ _ hslot' _ hcall hx := by
    obtain ⟨hview, hown, -⟩ := hx
    refine ⟨?_, fun h => ?_, fun c' k' h => ?_⟩
    · rw [Sys.suspend_trace]
      have hview : orderOf a s.trace = x := hview.symm
      show x.issue c = OrderView.see a (.issued a c) (orderOf a s.trace)
      simp [OrderView.see, hview]
    · rw [Sys.suspend_world]
      exact hown (by cases c <;> first | exact h | cases h)
    · obtain ⟨rfl, -⟩ : c = c' ∧ k ≍ k' := by simpa [hslot'] using h
      exact permitted_issue hcall
  settled _ _ _ _ _ _ hslot hc _ _ _ := by
    obtain ⟨kind, -, rfl⟩ := Sys.task_of_slot hslot
    cases hc
  keeps {s l s'} hd hd' hsound hordered _ hs := by
    by_cases hresume : ∃ b, l = .resume b
    · obtain ⟨b, rfl⟩ := hresume
      obtain ⟨subj, p, hslot, ⟨v, c, k, hp, rfl⟩ | ⟨v, r, hp, rfl⟩⟩ := Sys.resume_eq_some hs
      · rw [Sys.suspend_trace]
        refine ⟨?_, hordered⟩
        rintro b' c' ho
        obtain ⟨rfl, rfl⟩ : b = b' ∧ c = c' := by simpa using ho
        cases hq : subj.quiet with
        | false =>
            obtain ⟨x, ⟨rfl, -⟩, hcall⟩ := orderOutline_coherent.calls hsound hslot hq hp
            exact hcall
        | true =>
            -- Whoever is quiet issues calls that are bound to no order.
            have hslot' := s.slot_suspend_self b c k (v := v) hslot
            have hmay := hd'.calls hslot'
            refine permitted_of_gentle ?_
            cases subj with
            | boot => cases hq
            | op o => exact Call.gentle_of_records (hmay hq)
            | task kind => exact Call.gentle_of_inspects hmay
      · rw [Sys.finish_trace]
        exact ⟨fun _ _ => (by rintro ⟨⟩), hordered⟩
    · obtain ⟨new, htrace, hof⟩ := Sys.trace_next hs
      rw [htrace]
      refine hordered.append fun o ho b c hissued => ?_
      have hlabel := hof o ho
      rw [hissued] at hlabel
      exact hresume ⟨b, hlabel⟩

theorem orderOutline_reach {ok : Rules} {w : World} {s : Sys} (h : Reach ok (Sys.init w) s) :
    orderOutline.Sound s ∧ CallsOrdered s.trace := by
  have hbegins := Outline.sound_init (w := w) (orderOutline_begins rfl
    fun _ _ => by simp [Sys.slot, Sys.init, Sys.fresh])
  exact (orderOutline_correct ok).reach hbegins trivial (fun hr => hr.disciplined) h

/-- The stored connection is replaced only while there is no own PAC. -/
theorem Reach.own_none {ok : Rules} {w : World} {s : Sys} (h : Reach ok (Sys.init w) s)
    {a : Actor} {subj : Subject} {c : Call} {k : Except String (Reply c) → Js Result}
    (hslot : s.slot a = some (subj, .awaiting c k))
    (hc : (∃ p, c = .storageSet p ∧ p.connection.isSome = true) ∨ c = .storageRemove) :
    s.world.proxy.own = none := by
  have hd := h.disciplined
  cases hq : subj.quiet with
  | false =>
      obtain ⟨x, ⟨-, hown, hcall⟩, -⟩ := (orderOutline_reach h).1.awaiting hslot hq
      refine hown ?_
      rcases hc with ⟨p, rfl, hp⟩ | rfl
      · exact (hcall _ _ hslot).1 hp
      · exact (hcall _ _ hslot).1
  | true =>
      have hmay := hd.calls hslot
      exfalso
      have hgentle : c.gentle = true := by
        cases subj with
        | boot => cases hq
        | op o => exact Call.gentle_of_records (hmay hq)
        | task kind => exact Call.gentle_of_inspects hmay
      rcases hc with ⟨p, rfl, hp⟩ | rfl
      · rw [Call.gentle, Option.isNone_iff_eq_none] at hgentle
        simp [hgentle] at hp
      · cases hgentle

/-- In every run, whatever fails and whoever moves the settings in between:
`chrome.proxy.settings.set` is called only after the operation has read WebRTC
as restricted in the enabled contexts, with no own WebRTC set or clear since,
and the WebRTC policy is cleared only after a `chrome.proxy.settings.clear` that
resolved, with no `set` since. -/
theorem set_and_clear_ordered {ok : Rules} {w : World} {s : Sys} (h : Reach ok (Sys.init w) s)
    {later earlier : List Obs} {a : Actor} {c : Call}
    (htrace : s.trace = later ++ .issued a c :: earlier) :
    (∀ v, c = .proxySet v → (orderOf a earlier).RestrictionRead) ∧
      (c = .webRTCClear → (orderOf a earlier).cleared = true) := by
  have hordered := (orderOutline_reach h).2
  rw [htrace] at hordered
  have hcall := hordered.issued
  refine ⟨?_, ?_⟩
  · rintro v rfl
    exact hcall
  · rintro rfl
    exact hcall

end

section

attribute [local instance] Platform.ascii Browser.sample

/-- `boot` calls `chrome.proxy.settings.set`. -/
def Obs.isBootSet : Obs → Bool
  | .issued .boot (.proxySet _) => true
  | _ => false

/-- A worker that starts on an enabled configuration reads WebRTC in both
contexts before it sets the PAC. -/
theorem set_and_clear_ordered_sample :
    ∃ (s : Sys) (v : ProxyConfig) (earlier : List Obs),
      s.trace = .issued .boot (.proxySet v) :: earlier ∧
        (orderOf .boot earlier).regular = true ∧ (orderOf .boot earlier).incognito = true := by
  obtain ⟨s, h, hset⟩ := Reach.of_follow succeeds (World.sample (.free .system))
    (turns .boot 15 ++ [.resume .boot]) (fun s => s.trace.head?.any Obs.isBootSet = true)
    (by decide +kernel)
  rcases htrace : s.trace with _ | ⟨o, earlier⟩
  · simp [htrace] at hset
  · obtain ⟨v, rfl⟩ : ∃ v, o = .issued .boot (.proxySet v) := by
      rw [htrace] at hset
      cases o with
      | issued a c => cases a <;> cases c <;> first | exact ⟨_, rfl⟩ | cases hset
      | _ => cases hset
    have hsplit : s.trace = [] ++ .issued .boot (.proxySet v) :: earlier := htrace
    obtain ⟨hregular, hincognito⟩ := (set_and_clear_ordered h hsplit).1 v rfl
    exact ⟨s, v, earlier, htrace, hregular, hincognito rfl⟩

end

end BrowserVpn
