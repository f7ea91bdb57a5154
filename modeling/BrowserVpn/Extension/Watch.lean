import BrowserVpn.Extension.Shown
import BrowserVpn.Extension.Told

/-!
# Extension.Watch — who owes the badge a write

Chrome's calls succeed here. Then as long as no change of a setting is pending, a
writer of the storage knows the settings exactly, and so does it know the state
that it has to show: `Watch` is that knowledge, and whether the badge is *due*,
that is, may be wrong and is still to be written. Once a change is pending
nothing has to be known, for the listener of the change writes the badge in the
end. Every function pays what it owes; the one that may not is `clearError`,
when an error waits that will.
-/

namespace BrowserVpn

open Async

section

variable [Platform] [Browser]

/-! ## Views -/

/-- What a function knows while no change of a setting is pending. -/
structure Watch where
  /-- A browser with the effective settings there are, and a storage that says the
  same. -/
  world : World
  /-- Nobody else writes the storage. -/
  alone : Bool
  /-- The badge may be wrong, and the function will write it. -/
  due : Bool
  /-- An error waits in the queue. -/
  erring : Bool
  /-- The counters are those of the beginning, but for errors that wait. -/
  counted : Bool
  epoch : Nat
  settingEpoch : Nat
  errorEpoch : Nat

namespace Watch

/-- The same knowledge after a look at the storage. -/
@[simps] def reading (x : Watch) (data : Storage) : Watch :=
  { x with world := { x.world with storage := data } }

/-- The same knowledge when an error may have come. -/
@[simps] def hears (x : Watch) (b : Bool) : Watch := { x with erring := x.erring || b }

/-- The storage has been written, and the badge with it is due. -/
@[simps] def stores (x : Watch) (data : Storage) : Watch := { x.reading data with due := true }

/-- The badge has been written. -/
@[simps] def pays (x : Watch) : Watch := { x with due := false }

/-- The gist of what is stored. -/
def gist (x : Watch) : Gist := x.world.storage.gist

/-- What the functions may call. `boot` is not alone: it disables a configuration
that nobody could want enabled, before it has written the badge. -/
def may (x : Watch) : Call → Prop
  | .storageSet p => x.alone = false →
      x.due = true ∧ p = { enabled := some false } ∧ x.gist.void = true
  | .storageRemove => x.alone = true
  | .setBadgeText text => text = badgeOf x.world.shown
  | .tabsGet _ | .fetch | .json | .exclusive _ | .order => False
  | _ => True

/-- What a call answers and leaves when it succeeds. -/
def Replies (x : Watch) : (c : Call) → Except String (Reply c) → Watch → Prop
  | .storageGet, r, x' => ∃ data : Storage, r = .ok data ∧ x' = x.reading data ∧
      (x.alone = true → data.gist = x.gist)
  | .storageSet p, r, x' => r = .ok () ∧ ∃ data : Storage, data.gist = x.gist ∧
      x' = x.stores (data.set p)
  | .storageRemove, r, x' => r = .ok () ∧ ∃ data : Storage, data.gist = x.gist ∧
      x' = x.stores data.forget
  | .setBadgeText _, r, x' => r = .ok () ∧ x' = x.pays
  | c, r, x' => r = x.world.reply c ∧ x' = x

/-- What the variables show. -/
def Counts (x : Watch) (v : Vars) (x' : Watch) : Prop :=
  ∃ b, x' = x.hears b ∧ (x.counted = true → v.configurationEpoch = x.epoch ∧
    v.browserSettingEpoch = x.settingEpoch ∧ (b = false → v.proxyErrorEpoch = x.errorEpoch))

end Watch

/-! ## The logic -/

/-- A view is lost once a change of a setting is pending. -/
@[reducible] def watchLogic : Logic api (Option Watch) where
  reads y v y' := y' = none ∨ ∃ x x', y = some x ∧ y' = some x' ∧ x.Counts v x'
  mayWrite w y := ∀ x, y = some x → w ≠ .proxyErrorEpoch
  write _ y := y
  mayCall c y := ∀ x, y = some x → x.may c
  issue _ y := y
  replies c y r y' := y' = none ∨ ∃ x x', y = some x ∧ y' = some x' ∧ x.Replies c r x'

variable {α β : Type} {x : Watch}

/-- From a lost view nothing has to be shown. -/
theorem wp_lost {Q : Except String α → Option Watch → Prop} (hQ : ∀ r, Q r none) (p : Js α) :
    wp watchLogic p Q none := by
  induction p with
  | done r => exact hQ r
  | read k ih =>
      intro v y hread
      rcases hread with rfl | ⟨x, x', h, -⟩
      · exact ih v
      · cases h
  | write w k ih =>
      constructor
      · intro x h
        cases h
      · exact ih
  | call c k ih =>
      constructor
      · intro x h
        cases h
      · intro r y hreply
        rcases hreply with rfl | ⟨x, x', h, -⟩
        · exact ih r
        · cases h

/-- A postcondition that asks nothing of a lost view. -/
def Met (Q : Except String α → Watch → Prop) (r : Except String α) (y : Option Watch) : Prop :=
  ∀ x, y = some x → Q r x

/-- From `x`, whatever happens, `p` settles in `Q` unless the view is lost. -/
def Does (p : Js α) (x : Watch) (Q : Except String α → Watch → Prop) : Prop :=
  wp watchLogic p (Met Q) (some x)

omit [Platform] [Browser] in
theorem met_none (Q : Except String α → Watch → Prop) (r : Except String α) : Met Q r none := by
  intro x h
  cases h

namespace Does

variable {p : Js α} {Q M : Except String α → Watch → Prop}

theorem mono {Q' : Except String α → Watch → Prop} (h : Does p x Q)
    (hQ : ∀ r x', Q r x' → Q' r x') : Does p x Q' :=
  wp_mono _ h fun r _ hm x' hx => hQ r x' (hm x' hx)

theorem done {r : Except String α} (h : Q r x) : Does (.done r) x Q := by
  intro x' hx
  cases hx
  exact h

theorem bind {f : α → Js β} {Q : Except String β → Watch → Prop} (hp : Does p x M)
    (hok : ∀ a x', M (.ok a) x' → Does (f a) x' Q)
    (herr : ∀ e x', M (.error e) x' → Q (.error e) x') : Does (p >>= f) x Q := by
  refine wp_bind _ hp ?_ ?_
  · intro a y hm
    cases y with
    | none => exact wp_lost (met_none Q) _
    | some x' => exact hok a x' (hm x' rfl)
  · intro e y hm x' hx
    exact herr e x' (hm x' hx)

/-- Where `p` always returns. -/
theorem bind_ok {f : α → Js β} {Q : Except String β → Watch → Prop}
    {M : α → Watch → Prop} (hp : Does p x fun r x' => ∃ a, r = .ok a ∧ M a x')
    (hok : ∀ a x', M a x' → Does (f a) x' Q) : Does (p >>= f) x Q := by
  refine hp.bind ?_ ?_
  · rintro a x' ⟨_, ⟨⟩, hm⟩
    exact hok a x' hm
  · rintro e x' ⟨_, ⟨⟩, -⟩

theorem map {f : α → β} {Q : Except String β → Watch → Prop}
    (hp : Does p x fun r x' => Q (f <$> r) x') : Does (f <$> p) x Q :=
  hp.bind (fun _ _ h => done h) fun _ _ h => h

theorem tryCatch {h : String → Js α} (hp : Does p x M) (hok : ∀ a x', M (.ok a) x' → Q (.ok a) x')
    (herr : ∀ e x', M (.error e) x' → Does (h e) x' Q) : Does (tryCatch p h) x Q := by
  refine wp_tryCatch _ hp ?_ ?_
  · intro a y hm x' hx
    exact hok a x' (hm x' hx)
  · intro e y hm
    cases y with
    | none => exact wp_lost (met_none Q) _
    | some x' => exact herr e x' (hm x' rfl)

/-- `try { p } finally { cleanup }` where `cleanup` returns. -/
theorem finallyDo {cleanup : Js Unit} (hp : Does p x M)
    (hcleanup : ∀ r x', M r x' → Does cleanup x' fun r' x'' => r' = .ok () ∧ Q r x'') :
    Does (p.finallyDo cleanup) x Q := by
  rw [Does, Prog.finallyDo, wp_andThen]
  refine wp_mono _ hp fun r y hm => ?_
  cases y with
  | none => exact wp_lost (met_none Q) _
  | some x' =>
      rw [wp_andThen]
      refine wp_mono _ (hcleanup r x' (hm x' rfl)) fun r' y' hm' => ?_
      cases y' with
      | none => exact wp_lost (met_none Q) _
      | some x'' =>
          obtain ⟨rfl, hQ⟩ := hm' x'' rfl
          exact done hQ

theorem await (hp : Does p x Q) : Does (BrowserVpn.await p) x Q := by
  rw [Does, BrowserVpn.await, wp_andThen]
  refine wp_mono _ hp fun r y hm => ?_
  cases y with
  | none => exact wp_lost (met_none Q) _
  | some x' =>
      constructor
      · rintro _ ⟨⟩
        trivial
      · intro r' y' hreply x'' hx
        rcases hreply with rfl | ⟨x₁, x₂, h₁, rfl, -, rfl⟩
        · cases hx
        · cases h₁
          cases hx
          exact hm x' rfl

theorem call {c : Call} {Q : Except String (Reply c) → Watch → Prop} (hmay : x.may c)
    (h : ∀ r x', x.Replies c r x' → Q r x') : Does (chrome c) x Q := by
  constructor
  · rintro _ ⟨⟩
    exact hmay
  · intro r y hreply x' hx
    rcases hreply with rfl | ⟨x₁, x₂, h₁, rfl, hr⟩
    · cases hx
    · cases h₁
      cases hx
      exact h r x' hr

theorem set {w : Write} (hw : w ≠ .proxyErrorEpoch) {Q : Except String Unit → Watch → Prop}
    (h : Q (.ok ()) x) : Does (Prog.set w) x Q :=
  ⟨fun _ _ => hw, done h⟩

theorem get_bind {f : Vars → Js β} {Q : Except String β → Watch → Prop}
    (h : ∀ v x', x.Counts v x' → Does (f v) x' Q) : Does (Prog.get >>= f) x Q := by
  intro v y hread
  rcases hread with rfl | ⟨x₁, x', h₁, rfl, hcounts⟩
  · exact wp_lost (met_none Q) _
  · cases h₁
    exact h v x' hcounts

theorem ensure_bind {b : Bool} {message : String} {f : Unit → Js β}
    {Q : Except String β → Watch → Prop} (h : b = true → Does (f ()) x Q)
    (h' : b = false → Q (.error message) x) : Does (ensure b message >>= f) x Q := by
  cases b with
  | true => exact h rfl
  | false => exact done (h' rfl)

theorem lift_bind {r : Except String α} {f : α → Js β} {Q : Except String β → Watch → Prop}
    (h : ∀ a, r = .ok a → Does (f a) x Q) (h' : ∀ e, r = .error e → Q (.error e) x) :
    Does (lift r >>= f) x Q := by
  cases r with
  | ok a => exact h a rfl
  | error e => exact done (h' e rfl)

theorem when {b : Bool} {p : Js Unit} {Q : Except String Unit → Watch → Prop}
    (h : b = true → Does p x Q) (h' : b = false → Q (.ok ()) x) : Does (BrowserVpn.when b p) x Q := by
  cases b with
  | true => exact h rfl
  | false => exact done (h' rfl)

end Does

/-! ## Answers -/

/-- `p` answers `a` and leaves everything as it is. -/
def Tells (p : Js α) (x : Watch) (a : α) : Prop := Does p x fun r x' => r = .ok a ∧ x' = x

namespace Tells

theorem pure (a : α) : Tells (Pure.pure a : Js α) x a := Does.done ⟨rfl, rfl⟩

theorem bind {p : Js α} {a : α} {f : α → Js β} {Q : Except String β → Watch → Prop}
    (hp : Tells p x a) (hf : Does (f a) x Q) : Does (p >>= f) x Q := by
  refine Does.bind hp ?_ ?_
  · rintro _ _ ⟨⟨⟩, rfl⟩
    exact hf
  · rintro _ _ ⟨⟨⟩, -⟩

theorem await {p : Js α} {a : α} (hp : Tells p x a) : Tells (BrowserVpn.await p) x a :=
  Does.await hp

theorem tryCatch {p : Js α} {a : α} {h : String → Js α} (hp : Tells p x a) :
    Tells (tryCatch p h) x a := by
  refine Does.tryCatch hp (fun _ _ hr => hr) ?_
  rintro _ _ ⟨⟨⟩, -⟩

theorem call {c : Call} {a : Reply c} (hc : c.peeks = true) (ha : x.world.reply c = .ok a) :
    Tells (chrome c) x a := by
  refine Does.call ?_ ?_
  · cases c <;> trivial
  · intro r x' hr
    cases c with
    | proxyGet _ => exact ⟨hr.1.trans ha, hr.2⟩
    | webRTCGet _ => exact ⟨hr.1.trans ha, hr.2⟩
    | isAllowedIncognitoAccess => exact ⟨hr.1.trans ha, hr.2⟩
    | tick => exact ⟨hr.1.trans ha, hr.2⟩
    | _ => cases hc

end Tells

theorem tells_effectiveSetting (incognito : Bool) :
    Tells (effectiveSetting incognito) x (x.world.proxy.effective incognito) := .call rfl rfl

theorem tells_webRTCSetting (incognito : Bool) :
    Tells (webRTCSetting incognito) x (x.world.webRTC.effective incognito) := .call rfl rfl

theorem tells_incognitoWebRTCIsRestricted :
    Tells incognitoWebRTCIsRestricted x
      (!Browser.incognitoAllowed || webRTCIsRestricted (x.world.webRTC.effective true)) := by
  apply Tells.tryCatch
  apply Tells.bind (.call (a := Browser.incognitoAllowed) rfl rfl)
  cases Browser.incognitoAllowed with
  | true => exact (tells_webRTCSetting true).await.bind (Tells.pure _)
  | false => exact Tells.pure _

theorem tells_incognitoProxyState (expected : ProxyConfig) :
    Tells (incognitoProxyState expected) x
      (incognitoStateOf (x.world.proxy.effective true) expected) := by
  apply Tells.tryCatch
  apply Tells.bind (.call (a := Browser.incognitoAllowed) rfl rfl)
  unfold incognitoStateOf
  cases Browser.incognitoAllowed with
  | true => exact (tells_effectiveSetting true).await.bind (Tells.pure _)
  | false => exact Tells.pure _

theorem tells_enabledStatus (base : State → Status) (data : Storage) {c : Connection}
    {l : List JsString} (hc : c.Valid) (hl : Normalized l) :
    Tells (enabledStatus base data c l (x.world.proxy.effective false)
        (x.world.webRTC.effective false)) x
      (enabledStatusOf base data c l x.world.proxy.effective x.world.webRTC.effective) := by
  unfold enabledStatus enabledStatusOf
  cases webRTCIsRestricted (x.world.webRTC.effective false) with
  | false => exact Tells.pure _
  | true =>
      apply tells_incognitoWebRTCIsRestricted.await.bind
      rw [Bool.not_or, Bool.not_not]
      cases Browser.incognitoAllowed && !webRTCIsRestricted (x.world.webRTC.effective true) with
      | true => exact Tells.pure _
      | false =>
          rw [buildProxyConfig_toJs hc hl]
          exact (Tells.pure (proxyConfigOf c l)).bind
            ((tells_incognitoProxyState _).await.bind (Tells.pure _))

/-- `stored` shows what is stored. -/
theorem does_stored : Does stored x fun r x' => ∃ data : Storage, r = .ok data ∧
    x' = x.reading data ∧ (x.alone = true → data.gist = x.gist) :=
  Does.call trivial fun _ _ h => h

/-- What `status` makes of the storage it has read. -/
theorem tells_statusOfStored (data : Storage) :
    Tells
      (do let setting ← await (effectiveSetting false)
          let webRTC ← await (webRTCSetting false)
          match configured data.toConfig with
          | .error _ => pure corruptedStatus
          | .ok (none, exclusions) => pure (baseStatus data none exclusions .unconfigured)
          | .ok (some connection, exclusions) =>
              let base := baseStatus data (some connection) exclusions
              if !data.isEnabled then pure (disabledStatus base setting webRTC)
              else enabledStatus base data connection exclusions setting webRTC) x
      (statusOf data x.world.proxy.effective x.world.webRTC.effective) := by
  apply (tells_effectiveSetting false).await.bind
  apply (tells_webRTCSetting false).await.bind
  rw [statusOf]
  rcases hconf : configured data.toConfig with e | ⟨_ | c, l⟩
  · exact Tells.pure _
  · exact Tells.pure _
  · obtain ⟨hc, hl⟩ := configured_eq_ok.1 hconf
    cases data.isEnabled with
    | false => exact Tells.pure _
    | true =>
        exact tells_enabledStatus _ data (configuredConnection_valid hc)
          (normalizeExclusions_normalized hl)

/-- `status` shows the state there is to show. -/
theorem does_status : Does status x fun r x' => ∃ data : Storage, x' = x.reading data ∧
    (x.alone = true → data.gist = x.gist) ∧
    r = .ok (statusOf data x.world.proxy.effective x.world.webRTC.effective) := by
  refine .bind (Does.await does_stored) ?_ ?_
  · rintro data _ ⟨_, ⟨⟩, rfl, hgist⟩
    refine Does.mono (tells_statusOfStored data) ?_
    rintro r _ ⟨rfl, rfl⟩
    exact ⟨data, rfl, hgist, rfl⟩
  · rintro e _ ⟨_, ⟨⟩, -⟩

/-! ## The badge -/

/-- `x'` is left from `x` with the badge written. -/
def Watch.Paid (x x' : Watch) : Prop := x'.due = false ∧ x'.alone = x.alone

/-- `updateBadge` returns and has written the badge. -/
theorem does_updateBadge : Does updateBadge x fun r x' => r = .ok () ∧ x.Paid x' := by
  refine .bind (Does.await does_status) ?_ ?_
  · rintro st _ ⟨data, rfl, -, hst⟩
    cases hst
    refine .bind (M := fun r x' => r = .ok () ∧ x.Paid x') (.call rfl ?_) ?_ ?_
    · rintro r _ ⟨rfl, rfl⟩
      exact ⟨rfl, rfl, rfl⟩
    · rintro _ x' ⟨-, hpaid⟩
      refine .when (fun _ => .call trivial ?_) fun _ => ⟨rfl, hpaid⟩
      rintro r _ ⟨rfl, rfl⟩
      exact ⟨rfl, hpaid⟩
    · rintro _ _ ⟨⟨⟩, -⟩
  · rintro e _ ⟨data, -, -, ⟨⟩⟩

theorem does_badge : Does (await updateBadge) x fun r x' => r = .ok () ∧ x.Paid x' :=
  Does.await does_updateBadge

/-! ## Functions that leave the storage and the badge alone -/

/-- Questions about the settings and changes of them. -/
def Call.tunes : Call → Bool
  | .proxyGet _ | .proxySet _ | .proxyClear | .webRTCGet _ | .webRTCSet _ | .webRTCClear
  | .isAllowedIncognitoAccess | .setAccessLevel | .setBadgeBackgroundColor _ | .tick => true
  | _ => false

/-- A function that has to do with the settings alone. -/
abbrev Tunes (p : Js α) : Prop :=
  p.Within (fun c : Call => c.tunes) fun w : Write => w ≠ .proxyErrorEpoch

omit [Platform] [Browser] in
theorem Peeks.tunes {p : Js α} (h : Peeks p) : Tunes p :=
  h.mono (fun c hc => by cases c <;> trivial) fun _ hw => hw.elim

omit [Platform] [Browser] in
theorem tunes_await {p : Js α} (hp : Tunes p) : Tunes (await p) := within_await hp rfl

/-- Such a function leaves what is known as it is. -/
theorem Tunes.does {p : Js α} (hp : Tunes p) : Does p x fun _ x' => ∃ b, x' = x.hears b := by
  have hrefl : ∃ b, x = x.hears b := ⟨false, by simp [Watch.hears]⟩
  refine wp_mono _ (wp_of_within _ (I := fun y => ∀ x', y = some x' → ∃ b, x' = x.hears b) hp
    ?_ ?_ ?_ fun x' h => Option.some.inj h ▸ hrefl) fun _ _ h => h
  · intro y v y' hy hread x' hx
    rcases hread with rfl | ⟨x₁, x₂, rfl, rfl, b, rfl, -⟩
    · cases hx
    · obtain ⟨b₁, rfl⟩ := hy x₁ rfl
      cases hx
      exact ⟨b₁ || b, by simp [Watch.hears, Bool.or_assoc]⟩
  · exact fun w y hy hw => ⟨fun _ _ => hw, hy⟩
  · intro c y hy hc
    constructor
    · intro x' _
      cases c <;> trivial
    · intro r y' hreply x' hx
      rcases hreply with rfl | ⟨x₁, x₂, rfl, rfl, hr⟩
      · cases hx
      · cases hx
        have hsame : x' = x₁ := by cases c <;> first | exact hr.2 | cases hc
        exact hsame ▸ hy x₁ rfl

section

omit [Platform] [Browser]

theorem tunes_incognitoProxyState (expected : ProxyConfig) :
    Tunes (await (incognitoProxyState expected)) :=
  tunes_await (peeks_incognitoProxyState expected).tunes

theorem tunes_ensureIncognitoWebRTC : Tunes ensureIncognitoWebRTC :=
  .bind (tunes_await peeks_incognitoWebRTCIsRestricted.tunes) fun _ => within_ensure _ _

theorem tunes_restricted : Tunes (await webRTCIsRestrictedInAllEnabledContexts) := by
  apply tunes_await
  refine .bind (tunes_await (within_chrome rfl)) fun setting => within_ite ?_ trivial
  exact tunes_await peeks_incognitoWebRTCIsRestricted.tunes

theorem tunes_ensureRestricted (message : String) : Tunes (ensureRestricted message) :=
  .bind tunes_restricted fun _ => within_ensure _ _

theorem tunes_setProxy (expected : ProxyConfig) (message : String) :
    Tunes (setProxy expected message) :=
  .bind (within_chrome rfl) fun _ => .bind (tunes_await (within_chrome rfl)) fun _ =>
    within_ensure _ _

theorem tunes_ensureIncognitoProxy (expected : ProxyConfig) (message : String) :
    Tunes (ensureIncognitoProxy expected message) :=
  .bind (tunes_incognitoProxyState expected) fun _ => within_ensure _ _

theorem tunes_refuse (message : String) : Tunes (refuse message) :=
  .bind (tunes_await (within_chrome rfl)) fun _ => trivial

theorem tunes_restrictWebRTC : Tunes restrictWebRTC := by
  refine .bind (tunes_await (within_chrome rfl)) fun rtc => within_when ?_
  refine .bind (tunes_await (within_chrome rfl)) fun _ => .bind (within_ensure _ _) fun _ => ?_
  refine .bind (within_chrome rfl) fun _ => .bind (tunes_await (within_chrome rfl)) fun _ => ?_
  exact within_ensure _ _

end

omit [Browser] in
theorem tunes_restoreRoute (c : Connection) (l : List JsString) : Tunes (restoreRoute c l) := by
  refine .bind tunes_restrictWebRTC fun _ => .bind tunes_ensureIncognitoWebRTC fun _ => ?_
  refine .bind (tunes_await (within_chrome rfl)) fun setting => ?_
  refine .bind (within_ensure _ _) fun _ => .bind (within_lift _) fun expected => ?_
  refine .bind (tunes_incognitoProxyState expected) fun incognito => ?_
  refine .bind (within_when (.bind ⟨nofun, trivial⟩ fun _ => trivial)) fun _ => ?_
  refine .bind (within_when (tunes_setProxy _ _)) fun _ => .bind ?_ fun _ => ?_
  · refine .bind (tunes_await (within_chrome rfl)) fun rtc => .bind (within_ensure _ _) fun _ => ?_
    exact .bind tunes_ensureIncognitoWebRTC fun _ => tunes_ensureIncognitoProxy _ _
  · exact .bind ⟨nofun, trivial⟩ fun _ => ⟨nofun, trivial⟩

omit [Platform] [Browser] in
theorem tunes_establishRoute (expected : ProxyConfig) : Tunes (establishRoute expected) := by
  refine .bind (within_chrome rfl) fun _ => .bind (tunes_await (within_chrome rfl)) fun rtc => ?_
  refine .bind (within_ensure _ _) fun _ => .bind tunes_ensureIncognitoWebRTC fun _ => ?_
  refine .bind (tunes_setProxy _ _) fun _ => .bind (tunes_ensureIncognitoProxy _ _) fun _ => ?_
  exact tunes_ensureRestricted _

section

omit [Browser]

theorem tunes_checkRoute (c : Connection) (old : Config) : Tunes (checkRoute c old) := by
  refine .bind (tunes_await (within_chrome rfl)) fun setting => ?_
  refine .bind (within_when (tunes_refuse _)) fun _ => .bind tunes_restricted fun restricted => ?_
  refine .bind (within_when (tunes_refuse _)) fun _ => .bind (within_lift _) fun _ => ?_
  refine .bind (within_lift _) fun expected => ?_
  refine .bind (tunes_incognitoProxyState expected) fun incognito => within_when ?_
  exact .bind ⟨nofun, trivial⟩ fun _ => tunes_refuse _

theorem tunes_applyExclusions (c : Connection) (l : List JsString) : Tunes (applyExclusions c l) := by
  refine .bind (within_lift _) fun expected => .bind (tunes_setProxy _ _) fun _ => ?_
  exact .bind (tunes_ensureIncognitoProxy _ _) fun _ => tunes_ensureRestricted _

theorem tunes_restorePrevious (c : Connection) (old : Config) : Tunes (restorePrevious c old) := by
  refine .bind (within_lift _) fun _ => .bind (within_lift _) fun previous => ?_
  refine .bind (tunes_ensureRestricted _) fun _ => ?_
  refine .bind (tunes_incognitoProxyState previous) fun _ => .bind (within_ensure _ _) fun _ => ?_
  refine .bind (tunes_setProxy _ _) fun _ => .bind (tunes_ensureIncognitoProxy _ _) fun _ => ?_
  exact tunes_ensureRestricted _

end

/-- A single change of a setting succeeds. -/
theorem does_tune {c : Call} (hc : c.tunes = true) :
    Does (chrome c) x fun r x' => r = x.world.reply c ∧ x' = x := by
  refine .call ?_ ?_
  · cases c <;> trivial
  · intro r x' hr
    cases c <;> first | exact hr | cases hc

theorem does_clearOwnSettings : Does clearOwnSettings x fun r x' => r = .ok () ∧ x' = x := by
  refine .bind (Does.await (does_tune rfl)) ?_ ?_
  · rintro _ _ ⟨-, rfl⟩
    refine (Does.await (does_tune rfl)).mono ?_
    rintro _ _ ⟨rfl, rfl⟩
    exact ⟨rfl, rfl⟩
  · rintro _ _ ⟨⟨⟩, -⟩

/-! ## Startup -/

/-- A write of the storage succeeds, and the badge is due. -/
theorem does_storageSet {p : Patch} (h : x.may (.storageSet p)) :
    Does (chrome (.storageSet p)) x fun r x' => r = .ok () ∧ ∃ data : Storage,
      data.gist = x.gist ∧ x' = x.stores (data.set p) :=
  .call h fun _ _ hr => hr

/-- `reconcileRoute` returns, whatever Chrome has applied. -/
theorem does_reconcileRoute {data : Storage} (h : x.alone = true ∨ x.due = true)
    (hgist : data.gist = x.gist) :
    Does (reconcileRoute data.toConfig) x fun r x' => r = .ok () ∧ x'.alone = x.alone := by
  -- `boot` disables what no route can come from, and owes the badge anyway.
  have hmay : x.gist.void = true → x.may (.storageSet { enabled := some false }) := by
    intro hvoid halone
    refine ⟨?_, rfl, hvoid⟩
    rcases h with h | h
    · rw [halone] at h
      cases h
    · exact h
  have hclear : ∀ y : Watch, y.alone = x.alone →
      Does clearOwnSettings y fun r x' => r = .ok () ∧ x'.alone = x.alone := by
    intro y hy
    refine does_clearOwnSettings.mono ?_
    rintro r _ ⟨rfl, rfl⟩
    exact ⟨rfl, hy⟩
  have hdisable : x.gist.void = true → Does (chrome (.storageSet { enabled := some false })) x
      fun r x' => r = .ok () ∧ x'.alone = x.alone := by
    intro hvoid
    refine (does_storageSet (hmay hvoid)).mono ?_
    rintro r _ ⟨rfl, data', -, rfl⟩
    exact ⟨rfl, rfl⟩
  unfold reconcileRoute
  rcases hconf : configured data.toConfig with e | ⟨_ | c, l⟩
  · have hvoid : x.gist.void = true := by rw [← hgist, gist_of_error hconf]; rfl
    refine (hdisable hvoid).bind (fun _ x' hx' => hclear x' hx'.2) ?_
    rintro _ _ ⟨⟨⟩, -⟩
  · have hvoid : x.gist.void = true := by rw [← hgist, gist_of_none hconf]; rfl
    refine .bind (M := fun r x' => r = .ok () ∧ x'.alone = x.alone)
      (.when (fun _ => hdisable hvoid) fun _ => ⟨rfl, rfl⟩) (fun _ x' hx' => hclear x' hx'.2) ?_
    rintro _ _ ⟨⟨⟩, -⟩
  · cases data.isEnabled with
    | false => exact hclear x rfl
    | true =>
        refine .tryCatch (tunes_restoreRoute c l).does ?_ ?_
        · rintro _ _ ⟨b, rfl⟩
          exact ⟨rfl, rfl⟩
        · rintro _ _ ⟨b, rfl⟩
          refine (Does.await (does_tune rfl)).mono ?_
          rintro _ _ ⟨rfl, rfl⟩
          exact ⟨rfl, rfl⟩

/-- Startup returns with the badge written. -/
theorem does_reconcileAtStartup (h : x.alone = true ∨ x.due = true) :
    Does reconcileAtStartup x fun r x' => r = .ok () ∧ x.Paid x' := by
  refine .bind (does_tune rfl) ?_ ?_
  · rintro _ _ ⟨-, rfl⟩
    refine .bind (Does.await does_stored) ?_ ?_
    · rintro data x₁ ⟨_, ⟨⟩, rfl, -⟩
      refine .bind (does_reconcileRoute h rfl) ?_ ?_
      · rintro _ x₂ ⟨-, halone⟩
        refine does_badge.mono ?_
        rintro r x' ⟨rfl, hdue, halone'⟩
        exact ⟨rfl, hdue, halone'.trans halone⟩
      · rintro _ _ ⟨⟨⟩, -⟩
    · rintro e _ ⟨_, ⟨⟩, -⟩
  · rintro _ _ ⟨⟨⟩, -⟩

theorem does_boot (h : x.due = true) : Does boot x fun _ x' => x'.due = false := by
  refine .tryCatch (does_reconcileAtStartup (Or.inr h)) ?_ ?_
  · rintro _ x' ⟨-, hpaid⟩
    exact hpaid.1
  · rintro _ _ ⟨⟨⟩, -⟩

/-! ## The operations of the user -/

/-- The badge is written, and nobody else writes the storage. -/
def Watch.Clear (x : Watch) : Prop := x.due = false ∧ x.alone = true

/-- `p` settles with the badge written, whatever it answers or throws. -/
def Pays (p : Js α) (x : Watch) : Prop := Does p x fun _ x' => x'.Clear

/-- `p` has nothing to do with the badge. -/
def Spares (p : Js α) (x : Watch) : Prop :=
  Does p x fun _ x' => x'.due = x.due ∧ x'.alone = x.alone

theorem Tunes.spares {p : Js α} (hp : Tunes p) : Spares p x := by
  refine hp.does.mono ?_
  rintro r _ ⟨b, rfl⟩
  exact ⟨rfl, rfl⟩

theorem spares_stored : Spares stored x := by
  refine does_stored.mono ?_
  rintro _ _ ⟨data, -, rfl, -⟩
  exact ⟨rfl, rfl⟩

theorem spares_status : Spares status x := by
  refine does_status.mono ?_
  rintro _ _ ⟨data, rfl, -, -⟩
  exact ⟨rfl, rfl⟩

namespace Pays

variable {p : Js α} {f : α → Js β}

/-- First something that has nothing to do with it. -/
theorem after (hx : x.Clear) (hp : Spares p x) (hf : ∀ a x', x'.Clear → Pays (f a) x') :
    Pays (p >>= f) x := by
  refine .bind hp ?_ ?_
  · rintro a x' ⟨hdue, halone⟩
    exact hf a x' ⟨hdue.trans hx.1, halone.trans hx.2⟩
  · rintro e x' ⟨hdue, halone⟩
    exact ⟨hdue.trans hx.1, halone.trans hx.2⟩

theorem lift {r : Except String α} (hx : x.Clear) (hf : ∀ a, Pays (f a) x) :
    Pays (lift r >>= f) x :=
  .lift_bind (fun a _ => hf a) fun _ _ => hx

/-- A write of the storage, and what follows. -/
theorem store {q : Patch} {f : Unit → Js β} (halone : x.alone = true)
    (hf : ∀ x', x'.alone = true → Pays (f ()) x') : Pays (chrome (.storageSet q) >>= f) x := by
  refine .bind (does_storageSet fun h => ?_) ?_ ?_
  · rw [halone] at h
    cases h
  · rintro _ _ ⟨-, data, -, rfl⟩
    exact hf _ halone
  · rintro _ _ ⟨⟨⟩, -⟩

/-- Both settings are given up. -/
theorem clear {f : Unit → Js β} (hf : Pays (f ()) x) : Pays (clearOwnSettings >>= f) x := by
  refine .bind does_clearOwnSettings ?_ ?_
  · rintro _ _ ⟨-, rfl⟩
    exact hf
  · rintro _ _ ⟨⟨⟩, -⟩

/-- The badge is written, and what comes after has nothing to do with it. -/
theorem badge {f : Unit → Js β} (halone : x.alone = true) (hf : ∀ x', x'.Clear → Pays (f ()) x') :
    Pays (BrowserVpn.await updateBadge >>= f) x := by
  refine .bind does_badge ?_ ?_
  · rintro _ x' ⟨-, hdue, halone'⟩
    exact hf x' ⟨hdue, halone'.trans halone⟩
  · rintro _ _ ⟨⟨⟩, -⟩

theorem status (hx : x.Clear) : Pays status x :=
  spares_status.mono fun _ _ h => ⟨h.1.trans hx.1, h.2.trans hx.2⟩

theorem throw (hx : x.Clear) (e : String) : Pays (throw e : Js α) x := Does.done hx

theorem set {w : Write} {f : Unit → Js β} (hw : w ≠ .proxyErrorEpoch) (hf : Pays (f ()) x) :
    Pays (Prog.set w >>= f) x :=
  .bind (M := fun r x' => r = .ok () ∧ x' = x) (.set hw ⟨rfl, rfl⟩)
    (by rintro _ _ ⟨-, rfl⟩; exact hf) (by rintro _ _ ⟨⟨⟩, -⟩)

theorem when {b : Bool} {p : Js Unit} {f : Unit → Js β} (h : b = true → Pays (p >>= f) x)
    (h' : b = false → Pays (f ()) x) : Pays (BrowserVpn.when b p >>= f) x := by
  cases b with
  | true => exact h rfl
  | false => exact h' rfl

/-- The body or, when it throws, the handler writes the badge. -/
theorem tryCatch {p : Js Unit} {h : String → Js Unit} {f : Unit → Js β}
    (hp : Spares p x) (halone : x.alone = true)
    (hf : ∀ x', x'.alone = true → Pays (f ()) x')
    (hh : ∀ e x', x'.alone = true → Does (h e) x' fun r x'' => (∃ e', r = .error e') ∧ x''.Clear) :
    Pays (tryCatch p h >>= f) x := by
  refine .bind (M := fun r x' => x'.alone = true ∧ (∀ e, r = .error e → x'.Clear))
    (.tryCatch hp ?_ ?_) ?_ ?_
  · rintro a x' ⟨-, halone'⟩
    exact ⟨halone'.trans halone, nofun⟩
  · rintro e x' ⟨-, halone'⟩
    refine (hh e x' (halone'.trans halone)).mono ?_
    rintro r x'' ⟨-, hx⟩
    exact ⟨hx.2, fun _ _ => hx⟩
  · rintro _ x' ⟨halone', -⟩
    exact hf x' halone'
  · rintro e x' ⟨-, hx⟩
    exact hx e rfl

end Pays

theorem pays_badge (halone : x.alone = true) : Pays (await updateBadge) x := by
  refine does_badge.mono ?_
  rintro r x' ⟨-, hdue, halone'⟩
  exact ⟨hdue, halone'.trans halone⟩

/-- How the operations of the user end. -/
theorem pays_badgeAndStatus (halone : x.alone = true) :
    Pays (do await updateBadge; status) x :=
  .badge halone fun _ hx => .status hx

theorem pays_importKey (key : JsVal) (hx : x.Clear) : Pays (importKey key) x := by
  refine .lift hx fun connection => .store hx.2 fun x₁ h₁ => .clear ?_
  exact .store h₁ fun x₂ h₂ => pays_badgeAndStatus h₂

theorem pays_disconnect (halone : x.alone = true) : Pays disconnect x := by
  refine .set nofun (.set nofun (.store halone fun x₁ h₁ => .clear ?_))
  exact pays_badgeAndStatus h₁

theorem pays_forget (halone : x.alone = true) : Pays forget x := by
  -- The badge of `disconnect` shows a connection that is then removed.
  refine .bind (Does.await (pays_disconnect halone)) ?_ fun _ _ h => h
  intro _ x₁ hx₁
  refine .bind (M := fun r x' => r = .ok () ∧ x'.alone = true) (.call hx₁.2 ?_) ?_ ?_
  · rintro _ _ ⟨rfl, data, -, rfl⟩
    exact ⟨rfl, hx₁.2⟩
  · rintro _ x₂ ⟨-, h₂⟩
    exact pays_badgeAndStatus h₂
  · rintro _ _ ⟨⟨⟩, -⟩

/-- The `catch` of `connect` throws again, the badge written. -/
theorem pays_abandonRoute (error : String) (halone : x.alone = true) :
    Does (abandonRoute error) x fun r x' => (∃ e, r = .error e) ∧ x'.Clear := by
  refine .bind (does_storageSet fun h => ?_) ?_ ?_
  · rw [halone] at h
    cases h
  · rintro _ _ ⟨-, data, -, rfl⟩
    refine .bind does_clearOwnSettings ?_ ?_
    · rintro _ _ ⟨-, rfl⟩
      refine .bind does_badge ?_ ?_
      · rintro _ x' ⟨-, hdue, halone'⟩
        exact .done ⟨⟨error, rfl⟩, hdue, halone'.trans halone⟩
      · rintro _ _ ⟨⟨⟩, -⟩
    · rintro _ _ ⟨⟨⟩, -⟩
  · rintro _ _ ⟨⟨⟩, -⟩

theorem pays_enableRoute (expected : ProxyConfig) (rtc : Setting WebRTCPolicy) (hx : x.Clear) :
    Pays (enableRoute expected rtc) x := by
  refine .after hx (Tunes.spares (within_when (tunes_await (within_chrome rfl)))) fun _ x₁ h₁ => ?_
  refine .store h₁.2 fun x₂ h₂ => ?_
  refine .tryCatch (tunes_establishRoute expected).spares h₂ ?_ fun e _ => pays_abandonRoute e
  exact fun x₃ h₃ => .set nofun (.set nofun (pays_badgeAndStatus h₃))

theorem pays_connect (hx : x.Clear) : Pays connect x := by
  have hrefuse : ∀ {b : Bool} {message : String} {y : Watch},
      Spares (BrowserVpn.when b (refuse message)) y :=
    fun {_ _ _} => Tunes.spares (within_when (tunes_refuse _))
  refine .after hx (Does.await spares_stored) fun data x₁ h₁ => ?_
  refine .lift h₁ fun connection => .lift h₁ fun exclusions => ?_
  refine .after h₁ (tunes_await (within_chrome rfl)).spares fun setting x₂ h₂ => ?_
  refine .after h₂ hrefuse fun _ x₃ h₃ => .lift h₃ fun expected => ?_
  refine .after h₃ (tunes_incognitoProxyState expected).spares fun incognito x₄ h₄ => ?_
  refine .after h₄ hrefuse fun _ x₅ h₅ => ?_
  refine .after h₅ (tunes_await (within_chrome rfl)).spares fun rtc x₆ h₆ => ?_
  exact .after h₆ hrefuse fun _ x₇ h₇ => pays_enableRoute expected rtc h₇

/-- The `catch` of `saveExclusions` throws again, the badge written. -/
theorem pays_rollbackExclusions (c : Connection) (old : Config) (error : String)
    (halone : x.alone = true) : Does (rollbackExclusions c old error) x
      fun r x' => (∃ e, r = .error e) ∧ x'.Clear := by
  refine .bind (does_storageSet fun h => ?_) ?_ ?_
  · rw [halone] at h
    cases h
  · rintro _ _ ⟨-, data, -, rfl⟩
    refine .bind (M := fun r x' => r = .ok () ∧ x'.alone = true)
      (.tryCatch (M := fun _ x' => x'.alone = true) ?_ (fun _ _ h => ⟨rfl, h⟩) ?_) ?_ ?_
    · refine (tunes_restorePrevious c old).spares.mono ?_
      rintro _ x' ⟨-, h⟩
      exact h.trans halone
    · intro e x' h
      refine .tryCatch (Does.await (does_tune rfl)) ?_ ?_
      · rintro _ _ ⟨-, rfl⟩
        exact ⟨rfl, h⟩
      · rintro _ _ ⟨⟨⟩, -⟩
    · rintro _ x' ⟨-, h⟩
      refine .bind does_badge ?_ ?_
      · rintro _ x'' ⟨-, hdue, halone'⟩
        exact .done ⟨⟨error, rfl⟩, hdue, halone'.trans h⟩
      · rintro _ _ ⟨⟨⟩, -⟩
    · rintro _ _ ⟨⟨⟩, -⟩
  · rintro _ _ ⟨⟨⟩, -⟩

theorem pays_saveExclusions (text : JsVal) (hx : x.Clear) : Pays (saveExclusions text) x := by
  refine .lift hx fun exclusions => .after hx (Does.await spares_stored) fun old x₁ h₁ => ?_
  refine .lift h₁ fun connection => ?_
  refine .after h₁ (Tunes.spares (within_when (tunes_checkRoute connection _))) fun _ x₂ h₂ => ?_
  refine .store h₂.2 fun x₃ h₃ => .when (fun _ => ?_) fun _ => ?_
  · refine .tryCatch (tunes_applyExclusions connection exclusions).spares h₃ ?_
      fun e _ => pays_rollbackExclusions _ _ e
    exact fun x₄ h₄ => .set nofun (pays_badgeAndStatus h₄)
  · exact .set nofun (pays_badgeAndStatus h₃)

/-! ## The tasks of events -/

/-- An error that finds a route wanted stores itself and writes the badge. -/
theorem pays_onProxyError (details : ErrorDetails) (halone : x.alone = true)
    (hdue : x.due = true → x.gist.enabled = true) : Pays (onProxyError details) x := by
  refine .bind (Does.await does_stored) ?_ ?_
  · rintro data _ ⟨_, ⟨⟩, rfl, hgist⟩
    refine .when (fun _ => .get_bind ?_) ?_
    · rintro v _ ⟨b, rfl, -⟩
      exact Pays.store halone fun x₂ h₂ => pays_badge h₂
    · intro hoff
      refine ⟨?_, halone⟩
      by_contra hon
      have henabled := isEnabled_of_gist ((hgist halone).symm ▸ hdue (by simpa using hon))
      rw [hoff] at henabled
      cases henabled
  · rintro e _ ⟨_, ⟨⟩, -⟩

theorem pays_authFailed (halone : x.alone = true) : Pays authFailed x := by
  refine .get_bind ?_
  rintro v _ ⟨b, rfl, -⟩
  exact Pays.store halone fun x₁ h₁ => pays_badge h₁

/-- Only a wanted route has an error to dismiss. -/
theorem enabled_of_canRetryIp {data : Storage} {proxy : Bool → Setting ProxyConfig}
    {webRTC : Bool → Setting WebRTCPolicy}
    (h : (statusOf data proxy webRTC).canRetryIp = some true) : data.gist.enabled = true := by
  unfold statusOf at h
  rcases hconf : configured data.toConfig with e | ⟨_ | c, l⟩
  · simp [hconf, corruptedStatus] at h
  · simp [hconf, baseStatus] at h
  · rw [gist_of_some hconf]
    cases hon : data.isEnabled with
    | true => rfl
    | false =>
        simp only [hconf, hon, Bool.not_false, if_true] at h
        unfold disabledStatus at h
        split at h <;> simp [baseStatus] at h

/-- What a task leaves: the badge is due only where an error waits that will write it. -/
def Watch.Settled (x : Watch) : Prop :=
  x.alone = true ∧ (x.due = true → x.erring = true ∧ x.gist.enabled = true)

omit [Browser] in
theorem Watch.Clear.settled (hx : x.Clear) : x.Settled := by
  refine ⟨hx.2, fun hdue => ?_⟩
  rw [hx.1] at hdue
  cases hdue

/-- `clearError` throws after its write of the storage when a counter has moved
since the one before: only that of the errors can have. -/
theorem settles_clearError (check : IpCheck) (hx : x.Clear) (hcounted : x.counted = true) :
    Does (clearError check) x fun _ x' => x'.Settled := by
  refine .get_bind ?_
  rintro v₁ _ ⟨b₁, rfl, hv₁⟩
  obtain ⟨hepoch₁, -, -⟩ := hv₁ hcounted
  refine .ensure_bind (fun _ => ?_) fun _ => Watch.Clear.settled hx
  refine .bind (Does.await does_stored) ?_ ?_
  · rintro data _ ⟨_, ⟨⟩, rfl, -⟩
    refine .bind (Does.await does_status) ?_ ?_
    · rintro latest _ ⟨data', rfl, -, hlatest⟩
      cases hlatest
      refine .get_bind ?_
      rintro v₂ _ ⟨b₂, rfl, hv₂⟩
      obtain ⟨hepoch₂, hsetting₂, herror₂⟩ := hv₂ hcounted
      refine .ensure_bind (fun hpass => ?_) fun _ => Watch.Clear.settled hx
      simp only [Bool.and_eq_true, Bool.not_eq_true', epochsChanged, Bool.or_eq_false_iff,
        bne_eq_false_iff_eq, beq_iff_eq] at hpass
      obtain ⟨⟨⟨⟨-, hsetting⟩, herror⟩, -⟩, hretry⟩ := hpass
      have henabled : data'.gist.enabled = true := enabled_of_canRetryIp hretry
      refine .bind (does_storageSet fun h => ?_) ?_ ?_
      · rw [Watch.hears_alone, Watch.reading_alone, Watch.reading_alone, Watch.hears_alone,
          hx.2] at h
        cases h
      · rintro _ _ ⟨-, data₃, hgist₃, rfl⟩
        have henabled₃ : (data₃.set { proxyError := some none }).gist.enabled = true := by
          rw [enabled_clear, hgist₃]
          exact henabled
        refine .get_bind ?_
        rintro v₃ _ ⟨b₃, rfl, hv₃⟩
        obtain ⟨hepoch₃, hsetting₃, herror₃⟩ := hv₃ hcounted
        refine .ensure_bind (fun _ => ?_) fun hfail => ?_
        · refine .bind does_badge ?_ ?_
          · rintro _ x' ⟨-, hdue, halone⟩
            exact .done (Watch.Clear.settled ⟨hdue, halone.trans hx.2⟩)
          · rintro _ _ ⟨⟨⟩, -⟩
        · -- The counters of the tasks and of the settings stand.
          refine ⟨hx.2, fun _ => ⟨?_, henabled₃⟩⟩
          simp only [Bool.not_eq_false', epochsChanged, Bool.or_eq_true, bne_iff_ne] at hfail
          have hraised : v₃.proxyErrorEpoch ≠ v₂.proxyErrorEpoch := by
            rcases hfail with (hepoch | hsetting') | herror'
            · exact absurd (hepoch₃.trans hepoch₁.symm) hepoch
            · exact absurd (hsetting₃.trans (hsetting₂.symm.trans hsetting)) hsetting'
            · rwa [herror]
          cases hb₂ : b₂ with
          | true => simp [Watch.hears, Watch.stores, Watch.reading]
          | false =>
              cases hb₃ : b₃ with
              | true => simp [Watch.hears]
              | false =>
                  exact absurd ((herror₃ hb₃).trans (herror₂ hb₂).symm) hraised
      · rintro _ _ ⟨⟨⟩, -⟩
    · rintro e _ ⟨data', -, -, ⟨⟩⟩
  · rintro e _ ⟨_, ⟨⟩, -⟩

/-- `p` lets nobody else write the storage. -/
def Holds (p : Js α) : Prop :=
  ∀ x : Watch, x.alone = true → Does p x fun _ x' => x'.alone = true

omit [Platform] [Browser] in
theorem Holds.bind [Platform] [Browser] {p : Js α} {f : α → Js β} (hp : Holds p)
    (hf : ∀ a, Holds (f a)) : Holds (p >>= f) :=
  fun x hx => .bind (hp x hx) (fun a x' hx' => hf a x' hx') fun _ _ h => h

theorem Tunes.holds {p : Js α} (hp : Tunes p) : Holds p :=
  fun _ hx => hp.spares.mono fun _ _ h => h.2.trans hx

theorem Holds.when {b : Bool} {p : Js Unit} (hp : Holds p) : Holds (BrowserVpn.when b p) := by
  cases b with
  | true => exact hp
  | false => exact fun _ hx => .done hx

theorem holds_restoreAfterTakeover (incognito : IncognitoProxyState)
    (regular : Setting ProxyConfig) : Holds (restoreAfterTakeover incognito regular) := by
  refine .bind (Tunes.holds within_get) fun v => .when ?_
  refine .bind tunes_restricted.holds fun restricted => .when ?_
  refine .bind (Tunes.holds ⟨nofun, trivial⟩) fun _ => ?_
  refine .bind (Tunes.holds ⟨nofun, trivial⟩) fun _ => fun x hx => ?_
  refine Does.await ((does_reconcileAtStartup (Or.inl hx)).mono ?_)
  rintro r x' ⟨-, -, halone⟩
  exact halone.trans hx

theorem holds_followProxyChange : Holds followProxyChange := by
  refine .bind (fun x hx => Does.await (spares_stored.mono fun _ _ h => h.2.trans hx)) fun data => ?_
  refine .when (.bind (Tunes.holds (within_lift _)) fun connection => ?_)
  refine .bind (Tunes.holds (within_lift _)) fun exclusions => ?_
  refine .bind (Tunes.holds (within_lift _)) fun expected => ?_
  refine .bind (tunes_incognitoProxyState expected).holds fun incognito => ?_
  refine .bind (Tunes.holds (tunes_await (within_chrome rfl))) fun regular => ?_
  refine .bind (Tunes.holds ?_) fun _ => holds_restoreAfterTakeover incognito regular
  refine within_ite (.bind ⟨nofun, trivial⟩ fun _ => ⟨nofun, trivial⟩) ?_
  refine .bind within_get fun v => within_when (.bind ⟨nofun, trivial⟩ fun _ => ?_)
  exact .bind (tunes_await (within_chrome rfl)) fun _ => ⟨nofun, trivial⟩

/-- The listener of the proxy setting writes the badge at the end, whatever
happened before. -/
theorem pays_onProxyChange (halone : x.alone = true) : Pays onProxyChange x := by
  refine .finallyDo (holds_followProxyChange x halone) ?_
  rintro r x₁ h₁
  refine does_badge.mono ?_
  rintro r' x' ⟨rfl, hdue, halone'⟩
  exact ⟨rfl, hdue, halone'.trans h₁⟩

/-! ## All of them -/

/-- Tasks of the events, which may find the badge wrong. -/
def Op.changes : Op → Bool
  | .proxyChanged | .webRTCChanged => true
  | _ => false

/-- The errors that an event or a repeated challenge stores. -/
def Op.errs : Op → Bool
  | .proxyError .. | .authFailed _ => true
  | _ => false

/-- What a task of the queue may begin with: a badge that is due is a change of a
setting, or an error of a wanted route, to pay. -/
structure Watch.Begins (op : Op) (x : Watch) : Prop where
  alone : x.alone = true
  counted : op.isClearError = true → x.counted = true
  due : x.due = true → op.changes = true ∨ op.errs = true ∧ x.gist.enabled = true

/-- Every task pays, or leaves it to an error that waits. -/
theorem settles_body (op : Op) (hx : x.Begins op) :
    Does op.body x fun _ x' => x'.Settled := by
  have hpays : ∀ {γ : Type} {p : Js γ} {f : γ → Result}, Pays p x →
      Does (f <$> p) x fun _ x' => x'.Settled :=
    fun {_ _ _} hp => .map (hp.mono fun _ _ h => h.settled)
  have hclear : op.changes = false → op.errs = false → x.Clear := by
    intro hchanges herrs
    refine ⟨?_, hx.alone⟩
    by_contra hdue
    rcases hx.due (by simpa using hdue) with h | ⟨h, -⟩
    · rw [hchanges] at h
      cases h
    · rw [herrs] at h
      cases h
  refine Does.await ?_
  cases op with
  | importKey key => exact hpays (pays_importKey key (hclear rfl rfl))
  | connect => exact hpays (pays_connect (hclear rfl rfl))
  | disconnect => exact hpays (pays_disconnect hx.alone)
  | forget => exact hpays (pays_forget hx.alone)
  | saveExclusions text => exact hpays (pays_saveExclusions text (hclear rfl rfl))
  | proxyError details stamp =>
      refine hpays (pays_onProxyError details hx.alone fun hdue => ?_)
      rcases hx.due hdue with h | h
      · cases h
      · exact h.2
  | authFailed stamp => exact hpays (pays_authFailed hx.alone)
  | clearError check => exact .map (settles_clearError check (hclear rfl rfl) (hx.counted rfl))
  | proxyChanged => exact hpays (pays_onProxyChange hx.alone)
  | webRTCChanged =>
      refine hpays ((does_reconcileAtStartup (Or.inl hx.alone)).mono ?_)
      rintro r x' ⟨-, hdue, halone⟩
      exact ⟨hdue, halone.trans hx.alone⟩

end

end BrowserVpn
