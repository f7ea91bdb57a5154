import BrowserVpn.Extension.Entries

/-!
# Extension.Told — what a function has read of the storage

Who may store or clear a proxy error, and that nobody calls the route active
whose latest look at the storage found one. Both are told through the storages a
function has read (`Told`), for all functions at once (`told_body`).
-/

namespace BrowserVpn

open Async

/-- Operations of the user that take a stored error back. -/
def Op.dismisses : Op → Bool
  | .importKey _ | .connect | .disconnect | .forget => true
  | _ => false

/-- The number that the event of an error was given. -/
def Op.stamp : Op → Option Nat
  | .proxyError _ stamp => some stamp
  | .authFailed stamp => some stamp
  | _ => none

/-! ## What a function has been told -/

/-- A function and the storages it has read, newest first. -/
structure Told where
  me : Actor
  subj : Subject
  reads : List Storage

/-- The latest look at the storage found no error. -/
def Told.Clear (x : Told) : Prop :=
  ∃ data, x.reads.head? = some data ∧ data.proxyError = none

/-- What a subject may do to the stored error: some operations clear it, and the
tasks of the two events store one. -/
def Subject.MayStore (subj : Subject) (p : Patch) : Prop :=
  (p.proxyError = some none →
    ∃ op, subj = .op op ∧ (op.dismisses || op.isClearError) = true) ∧
  ∀ e, p.proxyError = some (some e) → ∃ op n, subj = .op op ∧ op.stamp = some n

/-- A call in its place: a patch that its subject may store, and the badge of an
active route only after a look that found no error. -/
def Told.May (c : Call) (x : Told) : Prop :=
  (∀ p, c = .storageSet p → x.subj.MayStore p) ∧ (c = .setBadgeText .on → x.Clear)

@[reducible] def toldLogic : Logic api Told where
  reads x _ x' := x' = x
  mayWrite _ _ := True
  write _ x := x
  mayCall := Told.May
  issue _ x := x
  replies c x r x' :=
    x' = { x with reads := (Obs.readBy x.me (.landed x.me c r)).toList ++ x.reads }

instance : Ticks toldLogic where
  mayTick _ := ⟨nofun, nofun⟩
  tick h := h

section

variable {subj : Subject} {x : Told} {α β : Type}

/-- Calls that neither touch the stored error nor show anything. -/
def Call.harmless : Call → Bool
  | .storageSet p => p.proxyError.isNone
  | .setBadgeText _ => false
  | _ => true

theorem may_of_harmless {c : Call} (h : c.harmless = true) : x.May c := by
  refine ⟨?_, ?_⟩
  · rintro p rfl
    have hnone : p.proxyError = none := by simpa [Call.harmless] using h
    exact ⟨fun hp => by simp [hnone] at hp, fun e hp => by simp [hnone] at hp⟩
  · rintro rfl
    cases h

/-- A function that keeps to what its subject may do. -/
def Careful (subj : Subject) (p : Js α) : Prop :=
  ∀ x : Told, x.subj = subj → wp toldLogic p (fun _ x' => x'.subj = subj) x

/-- A function whose status is active only after a look that found no error. -/
def Reports (subj : Subject) (p : Js Status) : Prop :=
  ∀ x : Told, x.subj = subj →
    wp toldLogic p (fun r x' => ∀ st, r = .ok st → st.state = .active → x'.Clear) x

namespace Careful

theorem of_within {p : Js α} (h : p.Within (fun c : Call => c.harmless) fun _ => True) :
    Careful subj p := by
  intro x hx
  refine wp_of_within _ (I := fun x' : Told => x'.subj = subj) h ?_ ?_ ?_ hx
  · rintro x v x' hx rfl
    exact hx
  · exact fun _ _ hx _ => ⟨trivial, hx⟩
  · rintro c x hx hc
    exact ⟨may_of_harmless hc, by rintro r x' rfl; exact hx⟩

theorem asks {p : Js α} (h : Asks p) : Careful subj p :=
  of_within (h.mono (fun c hc => by cases c <;> first | rfl | cases hc) fun _ _ => trivial)

theorem chrome {c : Call} (h : c.harmless = true) : Careful subj (BrowserVpn.chrome c) :=
  of_within (within_chrome h)

theorem store {p : Patch} (h : subj.MayStore p) : Careful subj (BrowserVpn.chrome (.storageSet p)) :=
  fun x hx => ⟨⟨fun p' hp' => by cases hp'; exact hx ▸ h, nofun⟩, by rintro r _ rfl; exact hx⟩

theorem pure (a : α) : Careful subj (Pure.pure a : Js α) := fun _ hx => hx

theorem throw (e : String) : Careful subj (throw e : Js α) := fun _ hx => hx

theorem lift (r : Except String α) : Careful subj (BrowserVpn.lift r) := fun _ hx => hx

theorem ensure (b : Bool) (message : String) : Careful subj (BrowserVpn.ensure b message) :=
  fun _ hx => hx

theorem set (w : Write) : Careful subj (Prog.set w) := fun _ hx => ⟨trivial, hx⟩

theorem get : Careful subj (Prog.get : Js Vars) := by
  rintro x hx v _ rfl
  exact hx

theorem bind {p : Js α} {f : α → Js β} (hp : Careful subj p) (hf : ∀ a, Careful subj (f a)) :
    Careful subj (p >>= f) :=
  fun x hx => wp_bind _ (hp x hx) (fun a x' hx' => hf a x' hx') fun _ _ hx' => hx'

theorem map {p : Js α} (hp : Careful subj p) (f : α → β) : Careful subj (f <$> p) :=
  hp.bind fun _ => pure _

theorem await {p : Js α} (hp : Careful subj p) : Careful subj (BrowserVpn.await p) :=
  fun x hx => wp_await (hp x hx)

theorem tryCatch {p : Js α} {h : String → Js α} (hp : Careful subj p)
    (hh : ∀ e, Careful subj (h e)) : Careful subj (tryCatch p h) :=
  fun x hx => wp_tryCatch _ (hp x hx) (fun _ _ hx' => hx') fun e x' hx' => hh e x' hx'

theorem when {b : Bool} {p : Js Unit} (hp : Careful subj p) : Careful subj (BrowserVpn.when b p) := by
  cases b with
  | true => exact hp
  | false => exact pure ()

theorem ite {b : Prop} [Decidable b] {p q : Js α} (hp : Careful subj p) (hq : Careful subj q) :
    Careful subj (if b then p else q) := by
  split
  · exact hp
  · exact hq

theorem finallyDo {p : Js α} {cleanup : Js Unit} (hp : Careful subj p)
    (hcleanup : Careful subj cleanup) : Careful subj (p.finallyDo cleanup) := by
  intro x hx
  rw [Prog.finallyDo, wp_andThen]
  refine wp_mono _ (hp x hx) fun r x₁ hx₁ => ?_
  rw [wp_andThen]
  refine wp_mono _ (hcleanup x₁ hx₁) fun r' x₂ hx₂ => ?_
  cases r' <;> exact hx₂

end Careful

theorem Reports.bind {p : Js α} {f : α → Js Status} (hp : Careful subj p)
    (hf : ∀ a, Reports subj (f a)) : Reports subj (p >>= f) :=
  fun x hx => wp_bind _ (hp x hx) (fun a x' hx' => hf a x' hx') fun _ _ _ _ h => by cases h

/-! ## The status -/

variable [Platform] [Browser]

/-- A logic in which looks at the settings tell nothing. -/
class Overlooks {X : Type} (L : Logic api X) : Prop extends Ticks L where
  reads : ∀ {x v x'}, L.reads x v x' → x' = x
  may : ∀ {c x}, Call.peeks c = true → L.mayCall c x
  peek : ∀ {c x r x'}, Call.peeks c = true → L.replies c (L.issue c x) r x' → x' = x

instance : Overlooks toldLogic where
  reads h := h
  may {c _} hc := may_of_harmless (by cases c <;> first | rfl | cases hc)
  peek {c x r x'} hc h := by
    obtain rfl := h
    cases c <;> first | rfl | cases hc

instance : Overlooks (Logic.free api) where
  mayTick _ := trivial
  tick _ := rfl
  reads _ := rfl
  may _ := trivial
  peek _ _ := rfl

section Overlooks

variable {X : Type} {L : Logic api X} [hL : Overlooks L] {x : X}

omit [Platform] [Browser] in
theorem wp_peeks {p : Js α} (hp : Peeks p) : wp L p (fun _ x' => x' = x) x := by
  refine wp_of_within _ (I := (· = x)) hp ?_ (fun _ _ _ h => h.elim) ?_ rfl
  · rintro x₁ v _ rfl h
    exact hL.reads h
  · rintro c _ rfl hc
    exact ⟨hL.may hc, fun _ _ h => hL.peek hc h⟩

omit [Browser] in
/-- Where the stored configuration is enabled, an active status comes from a
storage without an error. -/
theorem enabledStatus_active {data : Storage} {c : Connection} {l : List JsString}
    (setting : Setting ProxyConfig) (webRTC : Setting WebRTCPolicy)
    (h : configured data.toConfig = .ok (some c, l)) :
    wp L (enabledStatus (baseStatus data (some c) l) data c l setting webRTC)
      (fun r x' => x' = x ∧ ∀ st, r = .ok st → st.state = .active → data.proxyError = none) x := by
  obtain ⟨hc, hl⟩ := configured_eq_ok.1 h
  unfold enabledStatus
  split
  · exact ⟨rfl, by rintro _ ⟨⟩ ⟨⟩⟩
  · refine wp_await_bind (wp_peeks peeks_incognitoWebRTCIsRestricted) ?_ ?_
    · rintro restricted _ rfl
      split
      · exact ⟨rfl, by rintro _ ⟨⟩ ⟨⟩⟩
      · rw [buildProxyConfig_configured hc (normalizeExclusions_normalized hl)]
        refine wp_lift_bind (fun expected he => ?_) nofun
        cases he
        refine wp_await_bind (wp_peeks (peeks_incognitoProxyState _)) ?_ ?_
        · rintro incognito _ rfl
          refine ⟨rfl, ?_⟩
          rintro _ ⟨⟩ hactive
          exact (routeStatus_tells h).active hactive
        · rintro e _ rfl
          exact ⟨rfl, fun _ h => by cases h⟩
    · rintro e _ rfl
      exact ⟨rfl, fun _ h => by cases h⟩

omit [Browser] in
/-- What `status` makes of the storage it has read. -/
theorem statusOfStored_active (data : Storage) :
    wp L
      (do let setting ← await (effectiveSetting false)
          let webRTC ← await (webRTCSetting false)
          match configured data.toConfig with
          | .error _ => pure corruptedStatus
          | .ok (none, exclusions) => pure (baseStatus data none exclusions .unconfigured)
          | .ok (some connection, exclusions) =>
              let base := baseStatus data (some connection) exclusions
              if !data.isEnabled then pure (disabledStatus base setting webRTC)
              else enabledStatus base data connection exclusions setting webRTC)
      (fun r x' => x' = x ∧ ∀ st, r = .ok st → st.state = .active → data.proxyError = none) x := by
  refine wp_await_bind (wp_peeks (within_chrome rfl)) ?_ ?_
  · rintro setting _ rfl
    refine wp_await_bind (wp_peeks (within_chrome rfl)) ?_ ?_
    · rintro webRTC _ rfl
      split
      · exact ⟨rfl, by rintro _ ⟨⟩ ⟨⟩⟩
      · exact ⟨rfl, by rintro _ ⟨⟩ ⟨⟩⟩
      · rename_i c l hconfigured
        split
        · refine ⟨rfl, ?_⟩
          rintro _ ⟨⟩ hactive
          unfold disabledStatus at hactive
          split at hactive <;> cases hactive
        · exact enabledStatus_active setting webRTC hconfigured
    · rintro e _ rfl
      exact ⟨rfl, fun _ h => by cases h⟩
  · rintro e _ rfl
    exact ⟨rfl, fun _ h => by cases h⟩

end Overlooks

section

omit [Browser]

/-- A status that is active comes from a storage without an error. -/
theorem status_told : wp toldLogic status (fun r x' => x'.subj = x.subj ∧
    ∀ st, r = .ok st → st.state = .active → x'.Clear) x := by
  refine wp_await_bind (wp_call (L := toldLogic) .storageGet (may_of_harmless rfl)) ?_ ?_
  · rintro data _ rfl
    refine wp_mono _ (statusOfStored_active data) ?_
    rintro r _ ⟨rfl, hclear⟩
    exact ⟨rfl, fun st hst hactive => ⟨data, by simp [Obs.readBy], hclear st hst hactive⟩⟩
  · rintro e _ rfl
    exact ⟨rfl, fun _ h => by cases h⟩

/-- A call of `status` begins with its look at the storage. One that finds an
error is not active, whatever else it is told. -/
theorem status_settles : ∃ k, status = .call .storageGet k ∧
    ∀ data, data.proxyError ≠ none →
      (k (.ok data)).Settles fun r => ∀ st, r = .ok st → st.state ≠ .active := by
  refine ⟨_, rfl, fun data herror => ?_⟩
  refine ⟨trivial, fun r _ _ => ?_⟩
  refine wp_mono _ (statusOfStored_active (L := Logic.free api) (x := ()) data) ?_
  rintro r' _ ⟨-, hclear⟩ st hst hactive
  exact herror (hclear st hst hactive)

theorem reports_status : Reports subj status :=
  fun _ _ => wp_mono _ status_told fun _ _ h => h.2

/-- The badge says that the route is active only where the status does. -/
theorem careful_updateBadge : Careful subj updateBadge := by
  intro x hx
  refine wp_await_bind status_told ?_ ?_
  · rintro current x₁ ⟨hsubj, hclear⟩
    refine wp_bind _ (M := fun _ x' => x'.subj = subj) ⟨⟨nofun, ?_⟩, ?_⟩ ?_ fun _ _ h => h
    · intro hon
      refine hclear current rfl ?_
      cases hstate : current.state <;> simp [hstate, badgeOf] at hon
      rfl
    · rintro r _ rfl
      exact hsubj.trans hx
    · exact fun _ x₂ hx₂ => Careful.when (.chrome rfl) x₂ hx₂
  · rintro e x₁ ⟨hsubj, -⟩
    exact hsubj.trans hx

theorem careful_badge : Careful subj (await updateBadge) := careful_updateBadge.await

/-- How the operations of the user end. -/
theorem reports_badgeAndStatus : Reports subj (do await updateBadge; status) :=
  .bind careful_badge fun _ => reports_status

end

/-! ## The operations -/

section

omit [Platform] [Browser]

theorem careful_clearOwnSettings : Careful subj clearOwnSettings :=
  .bind (Careful.await (.chrome rfl)) fun _ => .await (.chrome rfl)

theorem careful_incognitoProxy (expected : ProxyConfig) :
    Careful subj (await (incognitoProxyState expected)) :=
  .asks (asks_await (asks_incognitoProxyState expected))

theorem careful_ensureIncognitoWebRTC : Careful subj ensureIncognitoWebRTC :=
  .bind (.asks (asks_await asks_incognitoWebRTCIsRestricted)) fun _ => .ensure _ _

theorem careful_restricted : Careful subj (await webRTCIsRestrictedInAllEnabledContexts) := by
  refine .await (.bind (.await (.chrome rfl)) fun setting => .ite ?_ (.pure _))
  exact .asks (asks_await asks_incognitoWebRTCIsRestricted)

theorem careful_setProxy (expected : ProxyConfig) (message : String) :
    Careful subj (setProxy expected message) :=
  .bind (.chrome rfl) fun _ => .bind (.await (.chrome rfl)) fun _ => .ensure _ _

theorem careful_ensureIncognitoProxy (expected : ProxyConfig) (message : String) :
    Careful subj (ensureIncognitoProxy expected message) :=
  .bind (careful_incognitoProxy expected) fun _ => .ensure _ _

theorem careful_ensureRestricted (message : String) : Careful subj (ensureRestricted message) :=
  .bind careful_restricted fun _ => .ensure _ _

theorem careful_refuse (message : String) : Careful subj (refuse message) :=
  .bind (Careful.await (.chrome rfl)) fun _ => .throw _

theorem careful_restrictWebRTC : Careful subj restrictWebRTC := by
  refine .bind (.await (.chrome rfl)) fun rtc => .when ?_
  refine .bind (Careful.await (.chrome rfl)) fun _ => .bind (.ensure _ _) fun _ => ?_
  exact .bind (.chrome rfl) fun _ => .bind (.await (.chrome rfl)) fun _ => .ensure _ _

end

omit [Browser] in
theorem careful_restoreRoute (c : Connection) (l : List JsString) :
    Careful subj (restoreRoute c l) := by
  refine .bind careful_restrictWebRTC fun _ => .bind careful_ensureIncognitoWebRTC fun _ => ?_
  refine .bind (.await (.chrome rfl)) fun setting => .bind (.ensure _ _) fun _ => ?_
  refine .bind (.lift _) fun expected => .bind (careful_incognitoProxy expected) fun incognito => ?_
  refine .bind (.when (.bind (.set _) fun _ => .throw _)) fun _ => ?_
  refine .bind (.when (careful_setProxy _ _)) fun _ => .bind ?_ fun _ => ?_
  · refine .bind (.await (.chrome rfl)) fun rtc => .bind (.ensure _ _) fun _ => ?_
    exact .bind careful_ensureIncognitoWebRTC fun _ => careful_ensureIncognitoProxy _ _
  · exact .bind (.set _) fun _ => .set _

omit [Browser] in
theorem careful_reconcileAtStartup : Careful subj reconcileAtStartup := by
  refine .bind (.chrome rfl) fun _ => .bind (.await (.chrome rfl)) fun data => ?_
  refine .bind ?_ fun _ => careful_badge
  unfold reconcileRoute
  split
  · exact .bind (.chrome rfl) fun _ => careful_clearOwnSettings
  · exact .bind (.when (.chrome rfl)) fun _ => careful_clearOwnSettings
  · refine .ite careful_clearOwnSettings ?_
    exact .tryCatch (careful_restoreRoute _ _) fun _ => .await (.chrome rfl)

omit [Platform] [Browser] in
theorem careful_attempt {p : Js Unit} (hp : Careful subj p) : Careful subj (attempt p) :=
  .tryCatch hp.await fun _ => .pure ()

omit [Browser] in
theorem careful_boot : Careful subj boot := by
  refine .tryCatch careful_reconcileAtStartup fun _ => ?_
  exact .bind (careful_attempt (.chrome rfl)) fun _ => careful_attempt careful_updateBadge

omit [Platform] [Browser] in
/-- A subject that may dismiss the stored error. -/
theorem mayStore_of_dismisses {op : Op} (h : op.dismisses = true) {p : Patch}
    (hp : ∀ e, p.proxyError ≠ some (some e)) : (Subject.op op).MayStore p :=
  ⟨fun _ => ⟨op, rfl, by simp [h]⟩, fun e he => absurd he (hp e)⟩

omit [Browser] in
theorem reports_importKey (key : JsVal) : Reports (.op (.importKey key)) (importKey key) := by
  refine .bind (.lift _) fun connection => .bind (.chrome rfl) fun _ => ?_
  refine .bind careful_clearOwnSettings fun _ => ?_
  exact .bind (.store (mayStore_of_dismisses rfl nofun)) fun _ => reports_badgeAndStatus

omit [Platform] [Browser] in
theorem careful_establishRoute (expected : ProxyConfig) :
    Careful subj (establishRoute expected) := by
  refine .bind (.chrome rfl) fun _ => .bind (.await (.chrome rfl)) fun rtc => ?_
  refine .bind (.ensure _ _) fun _ => .bind careful_ensureIncognitoWebRTC fun _ => ?_
  refine .bind (careful_setProxy _ _) fun _ => ?_
  exact .bind (careful_ensureIncognitoProxy _ _) fun _ => careful_ensureRestricted _

section

omit [Browser]

theorem careful_abandonRoute (error : String) : Careful subj (abandonRoute error) := by
  refine .bind (.chrome rfl) fun _ => .bind careful_clearOwnSettings fun _ => ?_
  exact .bind careful_badge fun _ => .throw _

theorem reports_connect : Reports (.op .connect) connect := by
  refine .bind (.await (.chrome rfl)) fun data => .bind (.lift _) fun connection => ?_
  refine .bind (.lift _) fun exclusions => .bind (.await (.chrome rfl)) fun setting => ?_
  refine .bind (.when (careful_refuse _)) fun _ => .bind (.lift _) fun expected => ?_
  refine .bind (careful_incognitoProxy expected) fun incognito => ?_
  refine .bind (.when (careful_refuse _)) fun _ => .bind (.await (.chrome rfl)) fun rtc => ?_
  refine .bind (.when (careful_refuse _)) fun _ => ?_
  refine .bind (.when (.await (.chrome rfl))) fun _ => ?_
  refine .bind (.store (mayStore_of_dismisses rfl nofun)) fun _ => ?_
  refine .bind (.tryCatch (careful_establishRoute expected) careful_abandonRoute) fun _ => ?_
  exact .bind (.set _) fun _ => .bind (.set _) fun _ => reports_badgeAndStatus

/-- `disconnect` is also the first part of `forget`. -/
theorem disconnect_told {op : Op} (h : op.dismisses = true) :
    Careful (.op op) disconnect ∧ Reports (.op op) disconnect := by
  refine ⟨?_, ?_⟩
  · refine .bind (.set _) fun _ => .bind (.set _) fun _ => ?_
    refine .bind (.store (mayStore_of_dismisses h nofun)) fun _ => ?_
    refine .bind careful_clearOwnSettings fun _ => .bind careful_badge fun _ => ?_
    exact .asks asks_status
  · refine .bind (.set _) fun _ => .bind (.set _) fun _ => ?_
    refine .bind (.store (mayStore_of_dismisses h nofun)) fun _ => ?_
    exact .bind careful_clearOwnSettings fun _ => reports_badgeAndStatus

theorem reports_forget : Reports (.op .forget) forget := by
  refine .bind (disconnect_told rfl).1.await fun _ => .bind (.chrome rfl) fun _ => ?_
  exact reports_badgeAndStatus

theorem reports_saveExclusions (text : JsVal) :
    Reports subj (saveExclusions text) := by
  refine .bind (.lift _) fun exclusions => .bind (.await (.chrome rfl)) fun old => ?_
  refine .bind (.lift _) fun connection => .bind (.when ?_) fun _ => ?_
  · refine .bind (.await (.chrome rfl)) fun setting => .bind (.when (careful_refuse _)) fun _ => ?_
    refine .bind careful_restricted fun _ => .bind (.when (careful_refuse _)) fun _ => ?_
    refine .bind (.lift _) fun _ => .bind (.lift _) fun expected => ?_
    refine .bind (careful_incognitoProxy expected) fun incognito => .when ?_
    exact .bind (.set _) fun _ => careful_refuse _
  · refine .bind (.chrome rfl) fun _ => .bind (.when (.tryCatch ?_ fun error => ?_)) fun _ => ?_
    · refine .bind (.lift _) fun expected => .bind (careful_setProxy _ _) fun _ => ?_
      exact .bind (careful_ensureIncognitoProxy _ _) fun _ => careful_ensureRestricted _
    · refine .bind (.chrome rfl) fun _ => .bind (.tryCatch ?_ fun _ => ?_) fun _ => ?_
      · refine .bind (.lift _) fun _ => .bind (.lift _) fun previous => ?_
        refine .bind (careful_ensureRestricted _) fun _ => ?_
        refine .bind (careful_incognitoProxy previous) fun _ => .bind (.ensure _ _) fun _ => ?_
        refine .bind (careful_setProxy _ _) fun _ => ?_
        exact .bind (careful_ensureIncognitoProxy _ _) fun _ => careful_ensureRestricted _
      · exact careful_attempt (.chrome rfl)
      · exact .bind careful_badge fun _ => .throw _
    · exact .bind (.set _) fun _ => reports_badgeAndStatus

end

/-! ## The events -/

omit [Platform] [Browser] in
theorem mayStore_of_stamp {op : Op} {n : Nat} (h : op.stamp = some n) {p : Patch}
    (hp : p.proxyError ≠ some none) : (Subject.op op).MayStore p :=
  ⟨fun hnone => absurd hnone hp, fun _ _ => ⟨op, n, rfl, h⟩⟩

section

omit [Browser]

theorem careful_onProxyError (details : ErrorDetails) (stamp : Nat) :
    Careful (.op (.proxyError details stamp)) (onProxyError details) := by
  refine .bind (.await (.chrome rfl)) fun data => .when (.bind .get fun v => ?_)
  exact .bind (.store (mayStore_of_stamp (n := stamp) rfl nofun)) fun _ => careful_badge

theorem careful_authFailed (stamp : Nat) : Careful (.op (.authFailed stamp)) authFailed := by
  refine .bind .get fun v => ?_
  exact .bind (.store (mayStore_of_stamp (n := stamp) rfl nofun)) fun _ => careful_badge

theorem careful_clearError (check : IpCheck) :
    Careful (.op (.clearError check)) (clearError check) := by
  refine .bind .get fun v => .bind (.ensure _ _) fun _ => .bind (.await (.chrome rfl)) fun data => ?_
  refine .bind (.asks (asks_await asks_status)) fun latest => ?_
  refine .bind .get fun v => .bind (.ensure _ _) fun _ => ?_
  refine .bind (.store ⟨fun _ => ⟨_, rfl, rfl⟩, nofun⟩) fun _ => .bind .get fun v => ?_
  exact .bind (.ensure _ _) fun _ => .bind careful_badge fun _ => .pure _

theorem careful_onProxyChange : Careful subj onProxyChange := by
  refine .finallyDo (.bind (.await (.chrome rfl)) fun data => .when ?_) careful_badge
  refine .bind (.lift _) fun connection => .bind (.lift _) fun exclusions => ?_
  refine .bind (.lift _) fun expected => .bind (careful_incognitoProxy expected) fun incognito => ?_
  refine .bind (.await (.chrome rfl)) fun regular => .bind (.ite ?_ ?_) fun _ => ?_
  · exact .bind (.set _) fun _ => .set _
  · refine .bind .get fun v => .when (.bind (.set _) fun _ => ?_)
    exact .bind (Careful.await (.chrome rfl)) fun _ => .set _
  · refine .bind .get fun v => .when (.bind careful_restricted fun restricted => .when ?_)
    exact .bind (.set _) fun _ => .bind (.set _) fun _ => careful_reconcileAtStartup.await

end

/-! ## All of them -/

/-- The subject's own result, not that of a task it has handed over. -/
def Subject.Own (subj : Subject) : Prop := ∀ kind, subj = .task kind → kind.hands = none

/-- What a result that is an active status goes with. -/
def Told.Reports (subj : Subject) (r : Except String Result) (x : Told) : Prop :=
  subj.Own → ∀ st, r = .ok (.status st) → st.state = .active → x.Clear

section

omit [Platform] [Browser]

/-- A function that resolves with a status. -/
theorem told_of_reports {p : Js Status} (h : Reports subj p) (hx : x.subj = subj) :
    wp toldLogic (.status <$> p : Js Result) (fun r x' => x'.Reports subj r) x := by
  refine wp_map _ (wp_mono _ (h x hx) ?_)
  rintro r x' hclear - st hr
  cases r with
  | error e => cases hr
  | ok st' =>
      cases hr
      exact hclear st rfl

/-- A function that resolves with something else. -/
theorem told_of_careful {p : Js α} {f : α → Result} (hp : Careful subj p) (hx : x.subj = subj)
    (hf : ∀ a st, f a ≠ .status st) :
    wp toldLogic (f <$> p) (fun r x' => x'.Reports subj r) x := by
  refine wp_map _ (wp_mono _ (hp x hx) ?_)
  rintro r x' - - st hr
  cases r with
  | error e => cases hr
  | ok a => exact absurd (Except.ok.inj hr) (hf a st)

theorem Inspects.careful {p : Js α} (h : Inspects p) : Careful subj p :=
  .of_within (h.mono (fun c hc => by cases c <;> first | rfl | cases hc) fun _ _ => trivial)

end

theorem told_body (hx : x.subj = subj) :
    wp toldLogic subj.body (fun r x' => x'.Reports subj r) x := by
  cases subj with
  | boot => exact told_of_careful careful_boot hx (by rintro _ _ ⟨⟩)
  | op o =>
      refine wp_await ?_
      cases o with
      | importKey key => exact told_of_reports (reports_importKey key) hx
      | connect => exact told_of_reports reports_connect hx
      | disconnect => exact told_of_reports (disconnect_told rfl).2 hx
      | forget => exact told_of_reports reports_forget hx
      | saveExclusions text => exact told_of_reports (reports_saveExclusions text) hx
      | proxyError details stamp =>
          exact told_of_careful (careful_onProxyError details stamp) hx (by rintro _ _ ⟨⟩)
      | authFailed stamp => exact told_of_careful (careful_authFailed stamp) hx (by rintro _ _ ⟨⟩)
      | clearError check => exact told_of_careful (careful_clearError check) hx (by rintro _ _ ⟨⟩)
      | proxyChanged => exact told_of_careful careful_onProxyChange hx (by rintro _ _ ⟨⟩)
      | webRTCChanged => exact told_of_careful careful_reconcileAtStartup hx (by rintro _ _ ⟨⟩)
  | task kind =>
      cases hhands : kind.hands with
      | some op =>
          -- The result is that of the task handed over.
          refine wp_mono _ ((inspects_body kind).careful x hx) fun r x' _ hown => ?_
          simp [hown kind rfl] at hhands
      | none =>
          cases kind with
          | challenge details =>
              exact told_of_careful (inspects_onAuthRequired details).careful hx (by rintro _ _ ⟨⟩)
          | proxyChanged => cases hhands
          | webRTCChanged => cases hhands
          | message m =>
              cases m with
              | getState => exact told_of_reports reports_status hx
              | testIp => exact told_of_careful inspects_testIp.careful hx (by rintro _ _ ⟨⟩)
              | other => exact fun _ _ h => by cases h
              | _ => cases hhands

/-! ## Every run -/

/-- The outline of what the functions have been told. -/
@[reducible] def toldOutline : Outline where
  View := Told
  logic := toldLogic
  covers _ := True
  At a subj x s := x.me = a ∧ x.subj = subj ∧ readsOf a s.trace = x.reads ∧
    ∀ c k, s.slot a = some (subj, .awaiting c k) → x.May c
  post subj r x := x.Reports subj r

variable {ok : Rules} {w : World} {s s' : Sys} {l : Label}

omit [Platform] [Browser] in
theorem toldOutline_coherent : toldOutline.Coherent where
  enters _ _ hx := hx
  reads _ _ hx := ⟨_, rfl, hx⟩
  writes _ _ _ hx := ⟨hx.1, hx.2.1, hx.2.2.1, fun c k h => hx.2.2.2 c k (by rwa [Sys.slot_vars] at h)⟩

theorem toldOutline_begins {a : Actor} (hslot : ∀ c k, s.slot a ≠ some (subj, .awaiting c k))
    (hreads : readsOf a s.trace = []) : toldOutline.Begins a subj s :=
  fun _ => ⟨⟨a, subj, []⟩, ⟨rfl, rfl, hreads, fun c k h => absurd h (hslot c k)⟩, told_body rfl⟩

theorem toldOutline_correct (ok : Rules) :
    toldOutline.Correct ok (fun _ => True) fun _ => True where
  toCoherent := toldOutline_coherent
  frame {s l s' a subj thread x} _ _ _ _ _ hs ha hl hslot _ hslot' hx := by
    obtain ⟨hme, hsubj, hreads, hcall⟩ := hx
    have hstart : l = .start → a ≠ .op := by
      rintro rfl rfl
      obtain ⟨op, owner, rest, hnone, -, -⟩ := Sys.startOp_eq_some hs
      obtain ⟨op', owner', hrun, -⟩ := Sys.slot_op hslot
      simp [hnone] at hrun
    have hdispatch : ∀ t, l = .dispatch t → a ≠ .task t := by
      rintro t rfl rfl
      obtain ⟨kind, -, hparked, -⟩ := Sys.dispatch_eq_some hs
      obtain ⟨kind', ht, -⟩ := Sys.task_of_slot hslot
      simp [hparked] at ht
    exact ⟨hme, hsubj, (own_next hs ha hl hstart hdispatch).1.trans hreads,
      fun c k h => hcall c k (hslot.trans (hslot' ▸ h))⟩
  restarted _ _ _ :=
    toldOutline_begins (fun _ _ => by simp [Sys.slot, Sys.fresh]) (readsOf_begins rfl)
  entered _ _ _ _ _ _ :=
    toldOutline_begins (fun _ _ => by simp [Sys.slot]) (readsOf_begins (by simp [Obs.begins]))
  dispatched _ _ _ _ ht :=
    toldOutline_begins (fun _ _ => by simp [Sys.slot, Sys.park, ht])
      (readsOf_begins (by simp [Obs.begins]))
  answered {s a o subj c k r w x} _ _ _ hslot _ hland _ hslot' hx := by
    obtain ⟨rfl, rfl, hreads, hcall⟩ := hx
    refine ⟨_, rfl, rfl, rfl, ?_, fun _ _ h => by simp [hslot'] at h⟩
    obtain ⟨new, htrace, hnew⟩ := s.move_trace w
    have hsame : readsOf x.me (new ++ s.trace) = readsOf x.me s.trace :=
      (own_append fun o ho => by rw [hnew o ho]; exact ⟨rfl, rfl, rfl⟩).1
    rw [Sys.answer_trace, htrace, readsOf_cons rfl, hsame, hreads]
  suspended {s a subj p v x c k} _ _ _ hslot _ _ hslot' _ hcall hx := by
    obtain ⟨hme, hsubj, hreads, -⟩ := hx
    refine ⟨hme, hsubj, ?_, fun c' k' h => ?_⟩
    · rw [Sys.suspend_trace, readsOf_cons rfl]
      exact hreads
    · obtain ⟨rfl, -⟩ : c = c' ∧ k ≍ k' := by simpa [hslot'] using h
      exact hcall
  settled {s op t p v r subj op' k x} _ _ _ _ _ _ _ _ _ hslot' hx := by
    obtain ⟨hme, hsubj, hreads, -⟩ := hx
    refine ⟨x, rfl, hme, hsubj, ?_, fun _ _ h => by simp [hslot'] at h⟩
    rw [Sys.finish_trace, readsOf_cons rfl]
    exact hreads
  keeps _ _ _ _ _ _ := trivial

theorem Reach.told (h : Reach ok (Sys.init w) s) : toldOutline.Sound s := by
  have hbegins := Outline.sound_init (w := w) (toldOutline_begins
    (fun _ _ => by simp [Sys.slot, Sys.init, Sys.fresh]) rfl)
  exact ((toldOutline_correct ok).reach hbegins trivial (fun _ => trivial) h).1

/-! ### The stored error -/

/-- What lands in the storage was for its subject to store. -/
theorem Reach.mayStore (h : Reach ok (Sys.init w) s) {a : Actor} {subj : Subject} {p : Patch}
    {k : Except String Unit → Js Result}
    (hslot : s.slot a = some (subj, .awaiting (.storageSet p) k)) : subj.MayStore p := by
  obtain ⟨x, ⟨-, rfl, -, hcall⟩, -⟩ := h.told.awaiting hslot trivial
  exact (hcall _ _ hslot).1 p rfl

end

end BrowserVpn
