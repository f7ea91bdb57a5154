import BrowserVpn.Extension.Background

/-!
# Extension.Status — what `status()` shows of a browser at rest

`World.ask` runs a function that only asks while nothing else moves. What
`status()` resolves with then is a function of the storage and of the effective
settings (`statusOf`, `ask_status`); this is what the badge is compared with.
-/

namespace BrowserVpn

open Async

section

variable [Browser]

/-- The answer of a question that lands at once. -/
def World.reply (w : World) (c : Call) : Except String (Reply c) :=
  match w.land c .done with
  | some (r, _) => r
  | none => .error "no answer"

/-- What a function resolves with while the browser stands still and every
question is answered. -/
def World.ask {α : Type} (w : World) (v : Vars) : Js α → Except String α
  | .done r => r
  | .read k => w.ask v (k v)
  | .write _ k => w.ask v k
  | .call c k => w.ask v (k (w.reply c))

namespace World

variable {α β : Type} (w : World) (v : Vars)

@[simp] theorem ask_done (r : Except String α) : w.ask v (.done r) = r := rfl

@[simp] theorem ask_pure (a : α) : w.ask v (pure a : Js α) = .ok a := rfl

@[simp] theorem ask_andThen (p : Js α) (f : Except String α → Js β) :
    w.ask v (p.andThen f) = w.ask v (f (w.ask v p)) := by
  induction p with
  | done r => rfl
  | read k ih => exact ih v
  | write x k ih => exact ih
  | call c k ih => exact ih (w.reply c)

theorem ask_bind {p : Js α} {a : α} (h : w.ask v p = .ok a) (f : α → Js β) :
    w.ask v (p >>= f) = w.ask v (f a) := by
  rw [Prog.bind_eq, ask_andThen, h]
  rfl

@[simp] theorem ask_await (p : Js α) : w.ask v (await p) = w.ask v p := by
  simp only [await, ask_andThen]
  rfl

theorem ask_tryCatch {p : Js α} {a : α} (h : w.ask v p = .ok a) (handler : String → Js α) :
    w.ask v (tryCatch p handler) = .ok a := by
  rw [Prog.tryCatch_eq, ask_andThen, h]
  rfl

theorem ask_map {p : Js α} {a : α} (h : w.ask v p = .ok a) (f : α → β) :
    w.ask v (f <$> p) = .ok (f a) :=
  ask_bind w v h fun a => pure (f a)

end World

/-! ## The questions of `status()` -/

/-- `incognitoProxyState` at rest. -/
def incognitoStateOf (setting : Setting ProxyConfig) (expected : ProxyConfig) :
    IncognitoProxyState :=
  if Browser.incognitoAllowed then
    { controllable := setting.levelOfControl.controllable
      effective := isEffectiveProxySetting setting expected
      levelOfControl := some setting.levelOfControl }
  else { controllable := true, effective := true, levelOfControl := none }

namespace World

variable (w : World) (v : Vars)

@[simp] theorem ask_stored : w.ask v stored = .ok w.storage := rfl

@[simp] theorem ask_effectiveSetting (incognito : Bool) :
    w.ask v (effectiveSetting incognito) = .ok (w.proxy.effective incognito) := rfl

@[simp] theorem ask_webRTCSetting (incognito : Bool) :
    w.ask v (webRTCSetting incognito) = .ok (w.webRTC.effective incognito) := rfl

theorem ask_incognitoWebRTCIsRestricted :
    w.ask v incognitoWebRTCIsRestricted =
      .ok (!Browser.incognitoAllowed || webRTCIsRestricted (w.webRTC.effective true)) := by
  refine ask_tryCatch w v ?_ _
  rw [ask_bind w v (a := Browser.incognitoAllowed) rfl]
  split
  · rename_i h
    rw [ask_map w v (ask_await w v _)]
    simp [h]
  · rename_i h
    simp [h]

theorem ask_incognitoProxyState (expected : ProxyConfig) :
    w.ask v (incognitoProxyState expected) =
      .ok (incognitoStateOf (w.proxy.effective true) expected) := by
  refine ask_tryCatch w v ?_ _
  rw [ask_bind w v (a := Browser.incognitoAllowed) rfl, incognitoStateOf]
  split
  · rw [ask_bind w v (ask_await w v _)]
    rfl
  · rfl

end World

variable [Platform]

/-- `status()` from where the configuration is known to be enabled, at rest. -/
def enabledStatusOf (base : State → Status) (data : Storage) (connection : Connection)
    (exclusions : List JsString) (proxy : Bool → Setting ProxyConfig)
    (webRTC : Bool → Setting WebRTCPolicy) : Status :=
  if !webRTCIsRestricted (webRTC false) then
    { base .error with
      message := some "Chrome не применил ограничение прямых WebRTC-соединений." }
  else if Browser.incognitoAllowed && !webRTCIsRestricted (webRTC true) then
    { base .error with
      message := some "Chrome не применил ограничение WebRTC в режиме инкогнито." }
  else
    routeStatus base data (proxy false) (proxyConfigOf connection exclusions)
      (incognitoStateOf (proxy true) (proxyConfigOf connection exclusions))

/-- `status()` at rest, from the storage and the effective settings. -/
def statusOf (data : Storage) (proxy : Bool → Setting ProxyConfig)
    (webRTC : Bool → Setting WebRTCPolicy) : Status :=
  match configured data.toConfig with
  | .error _ => corruptedStatus
  | .ok (none, exclusions) => baseStatus data none exclusions .unconfigured
  | .ok (some connection, exclusions) =>
      let base := baseStatus data (some connection) exclusions
      if !data.isEnabled then disabledStatus base (proxy false) (webRTC false)
      else enabledStatusOf base data connection exclusions proxy webRTC

/-- `status()` reports what the browser is. -/
theorem World.ask_status (w : World) (v : Vars) :
    w.ask v status = .ok (statusOf w.storage w.proxy.effective w.webRTC.effective) := by
  rw [status, ask_bind w v (ask_await w v stored), ask_bind w v (ask_await w v _),
    ask_bind w v (ask_await w v _), statusOf]
  rcases hconfigured : configured w.storage.toConfig with e | ⟨_ | connection, exclusions⟩
  · rfl
  · rfl
  · obtain ⟨hc, hl⟩ := configured_eq_ok.1 hconfigured
    cases hon : w.storage.isEnabled with
    | false => simp
    | true =>
        simp only [Bool.not_true, Bool.false_eq_true, if_false, enabledStatus, enabledStatusOf]
        split
        · rfl
        · rw [ask_bind w v ((ask_await w v _).trans (w.ask_incognitoWebRTCIsRestricted v))]
          have hrestricted : (!(!Browser.incognitoAllowed ||
              webRTCIsRestricted (w.webRTC.effective true))) =
              (Browser.incognitoAllowed && !webRTCIsRestricted (w.webRTC.effective true)) := by
            simp
          rw [hrestricted]
          split
          · rfl
          · rw [buildProxyConfig_configured hc (normalizeExclusions_normalized hl)]
            refine (ask_bind w v (a := proxyConfigOf connection exclusions) rfl _).trans ?_
            rw [ask_bind w v ((ask_await w v _).trans (w.ask_incognitoProxyState v _))]
            rfl

end

end BrowserVpn
