import BrowserVpn.Extension.Safety
import BrowserVpn.Extension.Watch

/-!
# Extension.Stored — the configuration is never corrupted

Whatever Chrome rejects and whenever the worker is stopped, the storage holds a
configuration that the worker itself would store: a validated connection, a
normalized list of exclusions, and `enabled` only beside a connection
(`Config.Intact`). So `status()` never finds it corrupted, and a PAC can always
be built from it. Each function knows the configuration exactly while it runs,
for nobody else writes it.
-/

namespace BrowserVpn

open Async

section

variable [Platform]

/-! ## Intact configurations -/

/-- What the worker itself would store. -/
structure Config.Intact (data : Config) : Prop where
  connection : ∀ value, data.connection = some value → ∃ c : Connection, value = c.toJs ∧ c.Valid
  exclusions : ∀ l, data.exclusions = some l → Normalized l
  enabled : data.isEnabled = true → data.connection.isSome = true

/-- The configuration after `chrome.storage.local.set`. -/
def Config.set (data : Config) (p : Patch) : Config where
  connection := p.connection.or data.connection
  enabled := p.enabled.or data.enabled
  exclusions := p.exclusions.or data.exclusions

/-- The configuration after `chrome.storage.local.remove`. -/
def Config.forget (data : Config) : Config := { data with connection := none, exclusions := none }

namespace Config.Intact

variable {data : Config}

theorem empty : Config.Intact ⟨none, none, none⟩ := by
  constructor
  · intro value h
    cases h
  · intro l h
    cases h
  · intro h
    cases h

theorem normalized (h : data.Intact) : Normalized (data.exclusions.getD []) := by
  cases hl : data.exclusions with
  | none => exact Normalized.nil
  | some l => exact h.exclusions l hl

/-- An intact configuration can be read back. -/
theorem configured (h : data.Intact) : ∃ connection,
    BrowserVpn.configured data = .ok (connection, data.exclusions.getD []) ∧
      connection.isSome = data.connection.isSome := by
  have hl : configuredExclusions data = .ok (data.exclusions.getD []) :=
    normalizeExclusions_join h.normalized
  cases hvalue : data.connection with
  | none => exact ⟨none, configured_eq_ok.2 ⟨by rw [configuredConnection, hvalue], hl⟩, rfl⟩
  | some value =>
      rcases h.connection value hvalue with ⟨c, rfl, hc⟩
      refine ⟨some c, configured_eq_ok.2 ⟨?_, hl⟩, rfl⟩
      rw [configuredConnection, hvalue]
      have htruthy : c.toJs.truthy = true := rfl
      simp only [htruthy, if_true, validateConnection_toJs hc]
      rfl

/-! ### The patches of the worker -/

theorem disable (h : data.Intact) : (data.set { enabled := some false }).Intact := by
  refine ⟨h.connection, h.exclusions, ?_⟩
  intro he
  cases he

theorem dismiss (h : data.Intact) (e : Option (Option ProxyError)) :
    (data.set { enabled := some false, proxyError := e }).Intact :=
  ⟨h.connection, h.exclusions, h.disable.enabled⟩

theorem record (h : data.Intact) (e : Option (Option ProxyError)) :
    (data.set { proxyError := e }).Intact := ⟨h.connection, h.exclusions, h.enabled⟩

theorem enable (h : data.Intact) (hsome : data.connection.isSome = true)
    (e : Option (Option ProxyError)) :
    (data.set { enabled := some true, proxyError := e }).Intact :=
  ⟨h.connection, h.exclusions, fun _ => hsome⟩

theorem exclude (h : data.Intact) {l : List JsString} (hl : Normalized l) :
    (data.set { exclusions := some l }).Intact := by
  refine ⟨h.connection, ?_, h.enabled⟩
  intro l' he
  cases he
  exact hl

theorem connect {c : Connection} (hc : c.Valid) (e : Option (Option ProxyError)) :
    (data.set { connection := some c.toJs, exclusions := some [], proxyError := e }).Intact := by
  constructor
  · intro value he
    cases he
    exact ⟨c, rfl, hc⟩
  · intro l he
    cases he
    exact Normalized.nil
  · intro _
    rfl

/-- The connection goes only where nothing is enabled. -/
theorem forget (hoff : data.isEnabled = false) : data.forget.Intact := by
  constructor
  · intro value he
    cases he
  · intro l he
    cases he
  · intro he
    have hoff' : data.forget.isEnabled = false := hoff
    rw [hoff'] at he
    cases he

end Config.Intact

/-- A key that is accepted names a valid connection. -/
theorem parseConnectionKey_valid {raw : JsVal} {c : Connection}
    (h : parseConnectionKey raw = .ok c) : c.Valid := by
  cases raw with
  | str s =>
      unfold parseConnectionKey at h
      simp only [bind, Except.bind, pure, Except.pure, throw, throwThe, MonadExceptOf.throw] at h
      split at h
      · cases h
      split at h
      · cases h
      split at h
      · rename_i c' hdecode
        cases h
        -- What comes out of the decoder has passed the validation.
        split at hdecode
        · cases hdecode
        · exact validateConnection_valid hdecode
      · split at h <;> cases h
  | _ => cases h

/-! ## The logic -/

/-- What a call asks of the configuration: it leaves it intact. -/
def Config.may (x : Config) : Call → Prop
  | .storageSet p => (x.set p).Intact
  | .storageRemove => x.forget.Intact
  | _ => True

/-- What a call leaves of the configuration and tells of it. -/
def Config.Replies (x : Config) : (c : Call) → Except String (Reply c) → Config → Prop
  | .storageGet, r, x' => x' = x ∧ ∀ data : Storage, r = .ok data → data.toConfig = x
  | .storageSet p, .ok (), x' => x' = x.set p
  | .storageRemove, .ok (), x' => x' = x.forget
  | _, _, x' => x' = x

/-- Views are the stored configuration. -/
@[reducible] def keepLogic : Logic api Config where
  reads x _ x' := x' = x
  mayWrite _ _ := True
  write _ x := x
  mayCall c x := x.may c
  issue _ x := x
  replies c x r x' := x.Replies c r x'

instance : Ticks keepLogic where
  mayTick _ := trivial
  tick h := h

variable [Browser] {α β : Type} {x : Config}

/-! ## Functions that leave the configuration -/

/-- Every call but those that write the configuration. -/
def Call.leaves : Call → Bool
  | .storageSet _ | .storageRemove => false
  | _ => true

/-- A function that leaves the configuration alone. -/
abbrev Leaves (p : Js α) : Prop := p.Within (fun c : Call => c.leaves) fun _ : Write => True

section

omit [Platform] [Browser]

theorem Tunes.leaves {p : Js α} (h : Tunes p) : Leaves p :=
  h.mono (fun c hc => by cases c <;> first | rfl | cases hc) fun _ _ => trivial

theorem Asks.leaves {p : Js α} (h : Asks p) : Leaves p :=
  h.mono (fun c hc => by cases c <;> first | rfl | cases hc) fun _ _ => trivial

theorem leaves_await {p : Js α} (hp : Leaves p) : Leaves (await p) := within_await hp rfl

end

omit [Browser] in
theorem leaves_updateBadge : Leaves updateBadge := by
  apply Prog.Within.bind (asks_await asks_status).leaves
  intro current
  exact .bind (within_chrome rfl) fun _ => within_when (within_chrome rfl)

omit [Platform] [Browser] in
theorem leaves_clearOwnSettings : Leaves clearOwnSettings :=
  .bind (leaves_await (within_chrome rfl)) fun _ => leaves_await (within_chrome rfl)

section

omit [Browser]

theorem leaves_badgeAndStatus : Leaves (do await updateBadge; status) :=
  .bind (leaves_await leaves_updateBadge) fun _ => asks_status.leaves

/-- Such a function ends with the configuration it began with. -/
theorem Leaves.keeps {p : Js α} (hp : Leaves p) : wp keepLogic p (fun _ x' => x' = x) x := by
  refine wp_of_within _ (I := (· = x)) hp ?_ ?_ ?_ rfl
  · intro x₁ v x₂ h₁ h₂
    exact h₂.trans h₁
  · intro w x₁ h₁ _
    exact ⟨trivial, h₁⟩
  · intro c x₁ h₁ hc
    subst h₁
    constructor
    · cases c <;> trivial
    · intro r x₂ hr
      cases c with
      | storageSet p => cases hc
      | storageRemove => cases hc
      | storageGet => exact hr.1
      | _ => exact hr

theorem wp_leaves_bind {p : Js α} {f : α → Js β} {Q : Except String β → Config → Prop}
    (hp : Leaves p) (hf : ∀ a, wp keepLogic (f a) Q x) (hQ : ∀ e, Q (.error e) x) :
    wp keepLogic (p >>= f) Q x := by
  apply wp_bind _ hp.keeps
  · intro a x' h
    subst h
    exact hf a
  · intro e x' h
    subst h
    exact hQ e

end

/-! ## Functions that keep it intact -/

/-- From an intact configuration `p` keeps it so, whatever happens. -/
def Sustains (p : Js α) : Prop :=
  ∀ x : Config, x.Intact → wp keepLogic p (fun _ x' => x'.Intact) x

omit [Browser] in
theorem Leaves.sustains {p : Js α} (hp : Leaves p) : Sustains p := by
  intro x hx
  apply wp_mono _ hp.keeps
  intro r x' h
  subst h
  exact hx

namespace Sustains

omit [Browser]

theorem bind {p : Js α} {f : α → Js β} (hp : Sustains p) (hf : ∀ a, Sustains (f a)) :
    Sustains (p >>= f) :=
  fun x hx => wp_bind _ (hp x hx) (fun a x' hx' => hf a x' hx') fun _ _ hx' => hx'

theorem map {p : Js α} (hp : Sustains p) (f : α → β) : Sustains (f <$> p) :=
  fun x hx => wp_map _ (hp x hx)

theorem await {p : Js α} (hp : Sustains p) : Sustains (BrowserVpn.await p) :=
  fun x hx => wp_await (hp x hx)

theorem tryCatch {p : Js α} {h : String → Js α} (hp : Sustains p) (hh : ∀ e, Sustains (h e)) :
    Sustains (tryCatch p h) :=
  fun x hx => wp_tryCatch _ (hp x hx) (fun _ _ hx' => hx') fun e x' hx' => hh e x' hx'

theorem when {b : Bool} {p : Js Unit} (hp : Sustains p) : Sustains (BrowserVpn.when b p) := by
  cases b with
  | true => exact hp
  | false => exact fun _ hx => hx

theorem finallyDo {p : Js α} {cleanup : Js Unit} (hp : Sustains p) (hcleanup : Sustains cleanup) :
    Sustains (p.finallyDo cleanup) := by
  intro x hx
  rw [Prog.finallyDo, wp_andThen]
  apply wp_mono _ (hp x hx)
  intro r x₁ hx₁
  rw [wp_andThen]
  apply wp_mono _ (hcleanup x₁ hx₁)
  intro r' x₂ hx₂
  cases r' <;> exact hx₂

end Sustains

omit [Browser] in
/-- A write that keeps the configuration intact, whether Chrome takes it or not. -/
theorem wp_store {p : Patch} (hx : x.Intact) (hp : (x.set p).Intact) :
    wp keepLogic (chrome (.storageSet p))
      (fun r x' => x'.Intact ∧ (r = .ok () → x' = x.set p)) x := by
  apply wp_mono _ (wp_call (L := keepLogic) (.storageSet p) hp)
  intro r x' hr
  rcases r with e | ⟨⟩
  · have hsame : x' = x := hr
    subst hsame
    exact ⟨hx, fun h => by cases h⟩
  · have hset : x' = x.set p := hr
    subst hset
    exact ⟨hp, fun _ => rfl⟩

omit [Browser] in
theorem sustains_store {p : Patch} (hp : ∀ x : Config, x.Intact → (x.set p).Intact) :
    Sustains (chrome (.storageSet p)) := by
  intro x hx
  apply wp_mono _ (wp_store hx (hp x hx))
  intro r x' h
  exact h.1

/-! ## The functions of the worker -/

section

omit [Browser]

theorem sustains_restoreRoute (c : Connection) (l : List JsString) : Sustains (restoreRoute c l) :=
  (tunes_restoreRoute c l).leaves.sustains

theorem sustains_reconcileRoute (data : Config) : Sustains (reconcileRoute data) := by
  have hdisable : Sustains (chrome (.storageSet { enabled := some false })) :=
    sustains_store fun _ hx => hx.disable
  have hclear := leaves_clearOwnSettings.sustains
  unfold reconcileRoute
  split
  · exact hdisable.bind fun _ => hclear
  · exact hdisable.when.bind fun _ => hclear
  · split
    · exact hclear
    · apply (sustains_restoreRoute _ _).tryCatch
      intro e
      exact (leaves_await (within_chrome rfl)).sustains

theorem sustains_reconcileAtStartup : Sustains reconcileAtStartup := by
  apply (Leaves.sustains (within_chrome rfl)).bind
  intro _
  apply (Leaves.sustains (leaves_await (within_chrome rfl))).bind
  intro data
  apply (sustains_reconcileRoute _).bind
  intro _
  exact (leaves_await leaves_updateBadge).sustains

theorem sustains_boot : Sustains boot := by
  apply sustains_reconcileAtStartup.tryCatch
  intro e
  apply Leaves.sustains
  refine .bind (.tryCatch (leaves_await (within_chrome rfl)) fun _ => trivial) fun _ => ?_
  exact .tryCatch (leaves_await leaves_updateBadge) fun _ => trivial

theorem sustains_importKey (key : JsVal) : Sustains (importKey key) := by
  intro x hx
  apply wp_lift_bind
  · intro connection hkey
    have hvalid := parseConnectionKey_valid hkey
    refine Sustains.bind (sustains_store fun _ hx => hx.disable) (fun _ => ?_) x hx
    apply leaves_clearOwnSettings.sustains.bind
    intro _
    apply (sustains_store fun _ _ => Config.Intact.connect hvalid _).bind
    intro _
    exact leaves_badgeAndStatus.sustains
  · intro e _
    exact hx

theorem sustains_abandonRoute (error : String) : Sustains (abandonRoute error) := by
  apply (sustains_store fun _ hx => hx.disable).bind
  intro _
  apply leaves_clearOwnSettings.sustains.bind
  intro _
  apply (leaves_await leaves_updateBadge).sustains.bind
  intro _
  exact fun _ hx => hx

/-- `enabled` is written beside a connection. -/
theorem sustains_enableRoute (expected : ProxyConfig) (rtc : Setting WebRTCPolicy)
    (hx : x.Intact) (hsome : x.connection.isSome = true) :
    wp keepLogic (enableRoute expected rtc) (fun _ x' => x'.Intact) x := by
  have hclear : Leaves (await clearOwnProxySetting) := leaves_await (within_chrome rfl)
  apply wp_leaves_bind (within_when hclear)
  · intro _
    apply wp_bind _ (wp_store hx (hx.enable hsome _))
    · intro _ x₁ h₁
      refine Sustains.bind ?_ (fun _ => ?_) x₁ h₁.1
      · exact (tunes_establishRoute expected).leaves.sustains.tryCatch sustains_abandonRoute
      · apply Leaves.sustains
        refine .bind ⟨trivial, trivial⟩ fun _ => .bind ⟨trivial, trivial⟩ fun _ => ?_
        exact leaves_badgeAndStatus
    · intro e x₁ h₁
      exact h₁.1
  · intro e
    exact hx

/-- A connection that can be read is stored. -/
theorem isSome_of_requireConnection {data : Config} {message : String} {c : Connection}
    (h : requireConnection data message = .ok c) : data.connection.isSome = true := by
  have hconn := requireConnection_eq_ok h
  rw [configuredConnection] at hconn
  split at hconn
  · rename_i value hvalue
    rw [hvalue]
    rfl
  · cases hconn

/-- `stored` shows the configuration. -/
theorem wp_stored_bind {f : Storage → Js β} {Q : Except String β → Config → Prop}
    (hf : ∀ data : Storage, data.toConfig = x → wp keepLogic (f data) Q x)
    (hQ : ∀ e, Q (.error e) x) : wp keepLogic (await stored >>= f) Q x := by
  apply wp_await_bind (wp_call (L := keepLogic) .storageGet trivial)
  · intro data x' h
    rcases h with ⟨rfl, hdata⟩
    exact hf data (hdata data rfl)
  · intro e x' h
    rcases h with ⟨rfl, -⟩
    exact hQ e

theorem sustains_connect : Sustains connect := by
  intro x hx
  have hrefuse : ∀ {b : Bool} {message : String}, Leaves (BrowserVpn.when b (refuse message)) :=
    fun {_ _} => (Tunes.leaves (within_when (tunes_refuse _)))
  apply wp_stored_bind
  · intro data hdata
    apply wp_lift_bind
    · intro connection hrequire
      have hsome : x.connection.isSome = true := by
        rw [← hdata]
        exact isSome_of_requireConnection hrequire
      refine wp_lift_bind (fun exclusions _ => ?_) fun _ _ => hx
      refine wp_leaves_bind (leaves_await (within_chrome rfl)) (fun setting => ?_) fun _ => hx
      refine wp_leaves_bind hrefuse (fun _ => ?_) fun _ => hx
      refine wp_lift_bind (fun expected _ => ?_) fun _ _ => hx
      refine wp_leaves_bind (tunes_incognitoProxyState expected).leaves (fun incognito => ?_)
        fun _ => hx
      refine wp_leaves_bind hrefuse (fun _ => ?_) fun _ => hx
      refine wp_leaves_bind (leaves_await (within_chrome rfl)) (fun rtc => ?_) fun _ => hx
      refine wp_leaves_bind hrefuse (fun _ => ?_) fun _ => hx
      exact sustains_enableRoute expected rtc hx hsome
    · intro e _
      exact hx
  · intro e
    exact hx

/-- A `disconnect` that returns has disabled the configuration. -/
theorem keeps_disconnect (hx : x.Intact) : wp keepLogic disconnect
    (fun r x' => x'.Intact ∧ ∀ st, r = .ok st → x'.isEnabled = false) x := by
  refine ⟨trivial, ⟨trivial, ?_⟩⟩
  apply wp_bind _ (wp_store hx (hx.dismiss _))
  · intro _ x₁ h₁
    have hoff : x₁.isEnabled = false := by
      rw [h₁.2 rfl]
      rfl
    have hrest : Leaves (do clearOwnSettings; await updateBadge; status) :=
      .bind leaves_clearOwnSettings fun _ => leaves_badgeAndStatus
    apply wp_mono _ hrest.keeps
    intro r x₂ h₂
    subst h₂
    exact ⟨h₁.1, fun _ _ => hoff⟩
  · intro e x₁ h₁
    exact ⟨h₁.1, fun _ h => by cases h⟩

theorem sustains_disconnect : Sustains disconnect := by
  intro x hx
  apply wp_mono _ (keeps_disconnect hx)
  intro r x' h
  exact h.1

theorem sustains_forget : Sustains forget := by
  intro x hx
  apply wp_await_bind (keeps_disconnect hx)
  · intro st x₁ h₁
    have hoff := h₁.2 st rfl
    apply wp_bind _ (wp_call (L := keepLogic) .storageRemove (Config.Intact.forget hoff))
    · intro _ x₂ h₂
      have hremoved : x₂ = x₁.forget := h₂
      subst hremoved
      exact leaves_badgeAndStatus.sustains _ (.forget hoff)
    · intro e x₂ h₂
      have hsame : x₂ = x₁ := h₂
      subst hsame
      exact h₁.1
  · intro e x₁ h₁
    exact h₁.1

/-- The rollback puts the previous list back, which was normalized. -/
theorem sustains_rollbackExclusions (c : Connection) {old : Config} (hold : old.Intact)
    (error : String) : Sustains (rollbackExclusions c old error) := by
  apply (sustains_store fun _ hx => hx.exclude hold.normalized).bind
  intro _
  apply Leaves.sustains
  refine .bind (.tryCatch (tunes_restorePrevious c old).leaves fun _ => ?_) fun _ => ?_
  · exact .tryCatch (leaves_await (within_chrome rfl)) fun _ => trivial
  · exact .bind (leaves_await leaves_updateBadge) fun _ => trivial

theorem sustains_saveExclusions (text : JsVal) : Sustains (saveExclusions text) := by
  intro x hx
  apply wp_lift_bind
  · intro exclusions hlist
    have hnormalized := normalizeExclusions_normalized hlist
    apply wp_stored_bind
    · intro old hold
      subst hold
      refine wp_lift_bind (fun connection _ => ?_) fun _ _ => hx
      refine wp_leaves_bind (Tunes.leaves (within_when (tunes_checkRoute _ _))) (fun _ => ?_)
        fun _ => hx
      refine Sustains.bind (sustains_store fun _ hx => hx.exclude hnormalized) (fun _ => ?_) _ hx
      apply Sustains.bind
      · apply Sustains.when
        apply Sustains.tryCatch (tunes_applyExclusions _ _).leaves.sustains
        exact sustains_rollbackExclusions connection hx
      · intro _
        apply Leaves.sustains
        exact .bind ⟨trivial, trivial⟩ fun _ => leaves_badgeAndStatus
    · intro e
      exact hx
  · intro e _
    exact hx

theorem sustains_onProxyChange : Sustains onProxyChange := by
  apply Sustains.finallyDo
  · apply (Leaves.sustains (leaves_await (within_chrome rfl))).bind
    intro data
    apply Sustains.when
    refine .bind (Leaves.sustains (within_lift _)) fun connection => ?_
    refine .bind (Leaves.sustains (within_lift _)) fun exclusions => ?_
    refine .bind (Leaves.sustains (within_lift _)) fun expected => ?_
    refine .bind (tunes_incognitoProxyState expected).leaves.sustains fun incognito => ?_
    refine .bind (Leaves.sustains (leaves_await (within_chrome rfl))) fun regular => ?_
    refine .bind (Leaves.sustains ?_) fun _ => ?_
    · refine within_ite (.bind ⟨trivial, trivial⟩ fun _ => ⟨trivial, trivial⟩) ?_
      refine .bind within_get fun v => within_when (.bind ⟨trivial, trivial⟩ fun _ => ?_)
      exact .bind (leaves_await (within_chrome rfl)) fun _ => ⟨trivial, trivial⟩
    · refine .bind (Leaves.sustains within_get) fun v => Sustains.when ?_
      refine .bind tunes_restricted.leaves.sustains fun restricted => Sustains.when ?_
      refine .bind (Leaves.sustains ⟨trivial, trivial⟩) fun _ => ?_
      refine .bind (Leaves.sustains ⟨trivial, trivial⟩) fun _ => ?_
      exact sustains_reconcileAtStartup.await
  · exact (leaves_await leaves_updateBadge).sustains

end

/-- Every function that may write the configuration keeps it intact. -/
theorem sustains_body {subj : Subject} (hwriter : subj.quiet = false) : Sustains subj.body := by
  cases subj with
  | boot => exact sustains_boot.map _
  | task kind => cases hwriter
  | op o =>
      apply Sustains.await
      cases o with
      | importKey key => exact (sustains_importKey key).map _
      | connect => exact sustains_connect.map _
      | disconnect => exact sustains_disconnect.map _
      | forget => exact sustains_forget.map _
      | saveExclusions text => exact (sustains_saveExclusions text).map _
      | proxyChanged => exact sustains_onProxyChange.map _
      | webRTCChanged => exact sustains_reconcileAtStartup.map _
      | _ => cases hwriter

/-! ## Every run -/

variable {ok : Rules} {w : World} {s s' : Sys} {l : Label}

/-- The outline of the functions that may write the configuration. -/
@[reducible] def keepOutline : Outline where
  View := Config
  logic := keepLogic
  covers subj := subj.quiet = false
  At a subj x s := s.world.storage.toConfig = x ∧
    ∀ c k, s.slot a = some (subj, .awaiting c k) → x.may c
  post _ _ _ := True

omit [Browser] in
theorem keepOutline_coherent : keepOutline.Coherent where
  enters _ _ hx := hx
  reads _ _ hx := ⟨_, rfl, hx⟩
  writes _ _ _ hx := ⟨hx.1, fun c k h => hx.2 c k (by rwa [Sys.slot_vars] at h)⟩

theorem keepOutline_begins {a : Actor} {subj : Subject} (hs : s.world.storage.toConfig.Intact)
    (hslot : ∀ c k, s.slot a ≠ some (subj, .awaiting c k)) : keepOutline.Begins a subj s := by
  intro hwriter
  refine ⟨_, ⟨rfl, fun c k h => absurd h (hslot c k)⟩, ?_⟩
  exact wp_mono _ (sustains_body hwriter _ hs) fun _ _ _ => trivial

omit [Platform] in
/-- What a call that lands makes of the configuration. -/
theorem World.land_config {w' : World} {c : Call} {o : Outcome} {r : Except String (Reply c)}
    (h : w.land c o = some (r, w')) : w.storage.toConfig.Replies c r w'.storage.toConfig := by
  cases c <;> cases o <;>
    simp only [World.land, Option.some.injEq, Prod.mk.injEq, reduceCtorEq] at h <;>
    obtain ⟨rfl, rfl⟩ := h <;> first
      | rfl
      | exact ⟨rfl, fun data he => by rw [Except.ok.inj he]⟩
      | exact ⟨rfl, fun data he => by cases he⟩

/-- Only landings touch the storage and the badge. -/
theorem Sys.world_next (hs : s.next l = some s') (hl : ∀ a o, l ≠ .land a o) :
    s'.world.storage = s.world.storage ∧ s'.world.badge = s.world.badge := by
  cases l with
  | land a o => exact absurd rfl (hl a o)
  | restart => exact Option.some.inj hs ▸ ⟨rfl, rfl⟩
  | others proxy webRTC => exact Option.some.inj hs ▸ ⟨rfl, rfl⟩
  | resume a =>
      obtain ⟨subj, p, -, ⟨v, c, k, -, rfl⟩ | ⟨v, r, -, rfl⟩⟩ := resume_eq_some hs
      · rw [suspend_world]
        exact ⟨rfl, rfl⟩
      · rw [finish_world]
        exact ⟨rfl, rfl⟩
  | message sender m =>
      obtain rfl := Option.some.inj hs
      split <;> exact ⟨rfl, rfl⟩
  | challenge details =>
      obtain rfl := Option.some.inj hs
      unfold onChallenge
      split <;> exact ⟨rfl, rfl⟩
  | requestDone id => exact Option.some.inj hs ▸ ⟨rfl, rfl⟩
  | proxyError details => exact Option.some.inj hs ▸ ⟨rfl, rfl⟩
  | clock now => exact Option.some.inj hs ▸ ⟨rfl, rfl⟩
  | dispatch t =>
      obtain ⟨kind, -, -, rfl⟩ := dispatch_eq_some hs
      rw [emit_world, park_world]
      exact ⟨rfl, rfl⟩
  | start =>
      obtain ⟨op, owner, rest, -, -, rfl⟩ := startOp_eq_some hs
      exact ⟨rfl, rfl⟩

/-- Only landings touch the configuration, and they leave it intact. -/
theorem Reach.stays_intact (h : Reach ok (Sys.init w) s) (hsound : keepOutline.Sound s)
    (hs : s.next l = some s') (hi : s.world.storage.toConfig.Intact) :
    s'.world.storage.toConfig.Intact := by
  by_cases hland : ∃ a o, l = .land a o
  · rcases hland with ⟨a, o, rfl⟩
    rcases Sys.land_eq_some hs with ⟨subj, c, k, r, w', hslot, hw, rfl⟩
    rw [Sys.answer_world]
    cases hquiet : subj.quiet with
    | true =>
        rw [(h.disciplined.land_quiet hslot hquiet hw).1]
        exact hi
    | false =>
        -- The call of a writer was entitled to what it does.
        rcases hsound.awaiting hslot hquiet with ⟨x, ⟨rfl, hcall⟩, -⟩
        have hmay := hcall c k hslot
        have hreply := World.land_config hw
        cases c with
        | storageGet =>
            rw [hreply.1]
            exact hi
        | storageSet p =>
            rcases r with e | ⟨⟩
            · have hsame : w'.storage.toConfig = s.world.storage.toConfig := hreply
              rw [hsame]
              exact hi
            · have hset : w'.storage.toConfig = s.world.storage.toConfig.set p := hreply
              rw [hset]
              exact hmay
        | storageRemove =>
            rcases r with e | ⟨⟩
            · have hsame : w'.storage.toConfig = s.world.storage.toConfig := hreply
              rw [hsame]
              exact hi
            · have hremoved : w'.storage.toConfig = s.world.storage.toConfig.forget := hreply
              rw [hremoved]
              exact hmay
        | _ =>
            have hsame : w'.storage.toConfig = s.world.storage.toConfig := hreply
            rw [hsame]
            exact hi
  · by_cases hrestart : l = .restart
    · subst hrestart
      have he := Option.some.inj hs
      subst he
      exact hi
    · rw [(Sys.world_next hs fun a o he => hland ⟨a, o, he⟩).1]
      exact hi

theorem keepOutline_correct (ok : Rules) : keepOutline.Correct ok (Reach ok (Sys.init w))
    fun s => s.world.storage.toConfig.Intact where
  toCoherent := keepOutline_coherent
  frame {s l s' a subj thread x} hk _ _ _ _ hs ha hl hslot hwriter hslot' hx := by
    rcases hk.disciplined.others_next hslot hwriter hs ha with ⟨hquiet, -, -⟩
    refine ⟨?_, fun c k h => hx.2 c k (hslot.trans (hslot' ▸ h))⟩
    rw [← hx.1]
    by_cases hland : ∃ b o, l = .land b o
    · rcases hland with ⟨b, o, rfl⟩
      rcases Sys.land_eq_some hs with ⟨subj', c, k, r, w', hslot₁, hw, rfl⟩
      rw [Sys.answer_world]
      exact (hk.disciplined.land_quiet hslot₁ (hquiet b _ _ rfl hslot₁) hw).1
    · rw [(Sys.world_next hs fun b o he => hland ⟨b, o, he⟩).1]
  restarted _ hi _ := keepOutline_begins hi fun _ _ => by simp [Sys.slot, Sys.fresh]
  entered _ hi _ _ _ _ := keepOutline_begins hi fun _ _ => by simp [Sys.slot]
  dispatched _ _ _ _ _ hwriter := by cases hwriter
  answered {s a o subj c k r w' x} _ _ _ _ _ hw _ hslot' hx := by
    rcases hx with ⟨rfl, -⟩
    refine ⟨_, World.land_config hw, ?_, fun _ _ h => by simp [hslot'] at h⟩
    rw [Sys.answer_world]
  suspended {s a subj p v x c k} _ _ _ _ _ _ hslot' _ hcall hx := by
    refine ⟨?_, fun c' k' h => ?_⟩
    · rw [Sys.suspend_world]
      exact hx.1
    · rw [hslot'] at h
      cases h
      exact hcall
  settled _ _ _ _ _ _ hslot hwriter _ _ _ := by
    rcases Sys.task_of_slot hslot with ⟨kind, -, rfl⟩
    cases hwriter
  keeps hk _ hsound hi _ hs := hk.stays_intact hsound hs hi

/-- In every run that begins on an intact configuration, the empty one for
instance, the configuration stays intact, whatever Chrome rejects and whenever
the worker is restarted. It can be read back at any moment, and a route is
wanted only where a connection is there. -/
theorem configuration_stays_intact (hw : w.storage.toConfig.Intact)
    (h : Reach ok (Sys.init w) s) : s.world.storage.toConfig.Intact ∧
      ∃ connection exclusions, configured s.world.storage.toConfig = .ok (connection, exclusions) ∧
        (s.world.storage.isEnabled = true → connection.isSome = true) := by
  have hsound : keepOutline.Sound (Sys.init w) :=
    Outline.sound_init (keepOutline_begins hw fun _ _ => by simp [Sys.slot, Sys.init, Sys.fresh])
  have hi := ((keepOutline_correct ok).reach hsound hw id h).2
  rcases hi.configured with ⟨connection, hread, hsome⟩
  refine ⟨hi, connection, _, hread, ?_⟩
  intro henabled
  rw [hsome]
  exact hi.enabled henabled

end

section

attribute [local instance] Platform.ascii Browser.sample

/-- A worker that starts on the sample configuration keeps it. -/
theorem configuration_stays_intact_sample :
    ∃ s : Sys, s.world.storage.isEnabled = true ∧ s.world.storage.toConfig.Intact ∧
      ∃ connection exclusions, configured s.world.storage.toConfig = .ok (connection, exclusions) ∧
        (s.world.storage.isEnabled = true → connection.isSome = true) := by
  obtain ⟨s, h, hon⟩ := Reach.of_follow succeeds (World.sample (.free .system)) starting
    (fun s => s.world.storage.isEnabled = true) (by decide +kernel)
  refine ⟨s, hon, configuration_stays_intact ?_ h⟩
  refine ⟨?_, ?_, fun _ => rfl⟩
  · intro value hvalue
    cases hvalue
    exact ⟨.sample, rfl, Connection.sample_valid⟩
  · intro l hl
    cases hl
    exact Normalized.nil

end

end BrowserVpn
