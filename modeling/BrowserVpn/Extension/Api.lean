import BrowserVpn.Async.Program
import BrowserVpn.Core.Pac

/-!
# Extension.Api — what the service worker shares and awaits

The Chrome side of `background.js`: the two browser settings with whoever else
may hold them, `chrome.storage.local`, the badge, the calls the worker awaits
and what each does to the browser (`World.land`). The module variables of the
script are `Vars`.
-/

namespace BrowserVpn

/-! ## Chrome settings -/

/-- Another extension or a policy in control of the regular value. -/
structure Holder (V : Type) where
  policy : Bool
  value : V
deriving DecidableEq

/-- The holder as `ChromeSetting.get` shows it. -/
def Holder.setting {V : Type} (h : Holder V) : Setting V :=
  ⟨if h.policy then .notControllable else .controlledByOtherExtensions, h.value⟩

/-- What is not this extension's own doing: who holds the regular value, an
incognito-specific value in force, and the value when nobody sets one. -/
structure Others (V : Type) where
  held : Option (Holder V)
  incognito : Option (Setting V)
  fallback : V
deriving DecidableEq

/-- A Chrome setting: this extension's own preference and the others. -/
structure ChromeSetting (V : Type) where
  own : Option V
  others : Others V
deriving DecidableEq

namespace ChromeSetting

variable {V : Type}

/-- The effective value of the regular context. -/
def regular (s : ChromeSetting V) : Setting V :=
  match s.others.held with
  | some holder => holder.setting
  | none =>
      match s.own with
      | some v => ⟨.controlledByThisExtension, v⟩
      | none => ⟨.controllableByThisExtension, s.others.fallback⟩

/-- `get({ incognito })`. Incognito inherits the regular value unless it has
one of its own. -/
def effective (s : ChromeSetting V) : Bool → Setting V
  | false => s.regular
  | true => s.others.incognito.getD s.regular

/-- A controllable setting is held by nobody else. -/
theorem held_eq_none {s : ChromeSetting V} (h : s.regular.levelOfControl.controllable = true) :
    s.others.held = none := by
  rcases hheld : s.others.held with _ | ⟨policy, v⟩
  · rfl
  · cases policy <;> simp [regular, hheld, Holder.setting, LevelOfControl.controllable] at h

/-- What this extension controls is its own preference. -/
theorem own_of_regular {s : ChromeSetting V}
    (h : s.regular.levelOfControl = .controlledByThisExtension) :
    s.own = some s.regular.value := by
  have hheld : s.others.held = none := held_eq_none (by rw [h]; rfl)
  rcases hown : s.own with _ | v
  · simp [regular, hheld, hown] at h
  · simp [regular, hheld, hown]

theorem regular_own {s : ChromeSetting V} {v : V} (h : s.others.held = none)
    (hown : s.own = some v) : s.regular = ⟨.controlledByThisExtension, v⟩ := by
  simp [regular, h, hown]

/-- Whether a context sees a difference. -/
def differs [DecidableEq V] (s s' : ChromeSetting V) : Bool :=
  s.effective false != s'.effective false || s.effective true != s'.effective true

end ChromeSetting

inductive WebRTCPolicy where
  | default
  | defaultPublicAndPrivateInterfaces
  | defaultPublicInterfaceOnly
  | disableNonProxiedUdp
deriving DecidableEq, Repr

/-- `WEBRTC_POLICY`. -/
def webRTCPolicy : WebRTCPolicy := .disableNonProxiedUdp

/-! ## Storage -/

/-- `proxyError` as it is stored. -/
structure ProxyError where
  possibleDirect : Bool
  code : JsString
  atTime : Nat
deriving DecidableEq

/-- The configuration in storage; an absent key is `none`. -/
structure Config where
  connection : Option JsVal
  enabled : Option Bool
  exclusions : Option (List JsString)

/-- The keys of `STORAGE_KEYS`. -/
structure Storage extends Config where
  proxyError : Option ProxyError

/-- The argument of `chrome.storage.local.set`: the keys it names. -/
structure Patch where
  connection : Option JsVal := none
  enabled : Option Bool := none
  exclusions : Option (List JsString) := none
  proxyError : Option (Option ProxyError) := none

/-- `chrome.storage.local.set`. -/
def Storage.set (s : Storage) (p : Patch) : Storage where
  connection := p.connection.or s.connection
  enabled := p.enabled.or s.enabled
  exclusions := p.exclusions.or s.exclusions
  proxyError := p.proxyError.getD s.proxyError

/-- `chrome.storage.local.remove(['connection', 'exclusions'])`. -/
def Storage.forget (s : Storage) : Storage := { s with connection := none, exclusions := none }

/-- `data.enabled`, as a condition. -/
def Config.isEnabled (data : Config) : Bool := data.enabled.getD false

/-- `data.connection`, as a condition. -/
def Config.hasConnection (data : Config) : Bool := data.connection.any JsVal.truthy

/-! ## The browser -/

inductive BadgeText where
  | on
  | alert
  | empty
deriving DecidableEq, Repr

/-- Facts about the browser that do not change while the worker lives. A tab
is incognito or not; `none` stands for a tab whose `incognito` is missing. -/
class Browser where
  incognitoAllowed : Bool
  inIncognitoContext : Bool
  runtimeId : JsString
  tabIncognito : Int → Option Bool

/-- The browser state the worker acts on. -/
structure World where
  storage : Storage
  proxy : ChromeSetting ProxyConfig
  webRTC : ChromeSetting WebRTCPolicy
  badge : BadgeText

/-! ## Operations and results -/

/-- The states of `status()`. -/
inductive State where
  | unconfigured
  | off
  | active
  | conflict
  | error
deriving DecidableEq, Repr

/-- The object `status()` resolves with. A missing property is `none`. -/
structure Status where
  state : State
  message : Option String := none
  enabled : Bool
  hasConnection : Bool
  server : Option JsString := none
  exclusions : List JsString
  proxyError : Option ProxyError := none
  canRetryIp : Option Bool := none

/-- What `onAuthRequired` answers: credentials, `{ cancel: true }` or `{}`. -/
inductive AuthResponse where
  | credentials (username password : JsString)
  | cancel
  | pass

/-- What an asynchronous function of the worker resolves with. -/
inductive Result where
  | none
  | status (s : Status)
  | epoch (n : Nat)
  | ip (text : JsString)
  | auth (answer : AuthResponse)

/-- Details of `chrome.proxy.onProxyError`. -/
structure ErrorDetails where
  error : Option JsString
  fatal : Option Bool

/-- The epochs a running IP check compares against, and the error it saw. -/
structure IpCheck where
  epoch : Nat
  settingEpoch : Nat
  errorEpoch : Nat
  previousError : ProxyError

/-- The tasks that are handed to `exclusive`. A proxy error carries the
`proxyErrorEpoch` its event was given. -/
inductive Op where
  | importKey (key : JsVal)
  | connect
  | disconnect
  | forget
  | saveExclusions (text : JsVal)
  | proxyError (details : ErrorDetails) (stamp : Nat)
  | authFailed (stamp : Nat)
  | clearError (check : IpCheck)
  | proxyChanged
  | webRTCChanged

/-- Messages of the popup. -/
inductive Message where
  | getState
  | importKey (key : JsVal)
  | connect
  | disconnect
  | forget
  | saveExclusions (text : JsVal)
  | testIp
  | other

/-! ## Calls -/

/-- What the worker awaits: Chrome's asynchronous functions, `fetch`, the turn
of an exclusive task, and the microtasks of its own promises (`tick`, and
`order` for the order in which `Promise.all` settles). -/
inductive Call where
  | storageGet
  | storageSet (patch : Patch)
  | storageRemove
  | setAccessLevel
  | proxyGet (incognito : Bool)
  | proxySet (value : ProxyConfig)
  | proxyClear
  | webRTCGet (incognito : Bool)
  | webRTCSet (value : WebRTCPolicy)
  | webRTCClear
  | isAllowedIncognitoAccess
  | tabsGet (tabId : Int)
  | setBadgeText (text : BadgeText)
  | setBadgeBackgroundColor (color : String)
  | fetch
  | json
  | exclusive (op : Op)
  | tick
  | order

/-- The value each call resolves with. `fetch` has `response.ok`, `json` the
`ip` of the body when it is a string. -/
abbrev Reply : Call → Type
  | .storageGet => Storage
  | .proxyGet _ => Setting ProxyConfig
  | .webRTCGet _ => Setting WebRTCPolicy
  | .isAllowedIncognitoAccess => Bool
  | .tabsGet _ => Option Bool
  | .fetch => Bool
  | .json => Option JsString
  | .exclusive _ => Result
  | .order => Bool
  | _ => Unit

/-! ## Module variables -/

/-- The module variables of `background.js`, and the clock of `Date.now()`.
The queue behind `operation` belongs to the runtime. -/
structure Vars where
  configurationChanging : Bool := false
  configurationEpoch : Nat := 0
  proxyErrorEpoch : Nat := 0
  browserSettingEpoch : Nat := 0
  restoreAfterIncognitoTakeover : Bool := false
  ownProxyClearedForConflict : Bool := false
  authAttempts : List Nat := []
  now : Nat := 0
deriving DecidableEq

/-- The writes the async functions make to the module variables. -/
inductive Write where
  | restoreAfterIncognitoTakeover (b : Bool)
  | ownProxyClearedForConflict (b : Bool)
  | proxyErrorEpoch
  | authAttempt (requestId : Nat)

def Write.apply : Write → Vars → Vars
  | .restoreAfterIncognitoTakeover b, v => { v with restoreAfterIncognitoTakeover := b }
  | .ownProxyClearedForConflict b, v => { v with ownProxyClearedForConflict := b }
  | .proxyErrorEpoch, v => { v with proxyErrorEpoch := v.proxyErrorEpoch + 1 }
  | .authAttempt id, v => { v with authAttempts := id :: v.authAttempts }

/-- The interface of the worker's async functions. -/
@[reducible] def api : Async.Api where
  Call := Call
  Reply := Reply
  Error := String
  Var := Vars
  Write := Write
  apply := Write.apply

/-- An async function of the worker. -/
abbrev Js (α : Type) := Async.Prog api α

/-! ## What a call does -/

/-- How an awaited call ends. Most calls resolve with what the browser has or
reject; a `set` may also be ignored; the outside world answers `fetch`. -/
inductive Outcome where
  | done
  | ignored
  | rejected (message : String)
  | flag (b : Bool)
  | text (s : Option JsString)

/-- The effect of a call and its settled reply; `none` when the outcome is not
one of this call's. -/
def World.land [Browser] (w : World) :
    (c : Call) → Outcome → Option (Except String (Reply c) × World)
  | .tick, .done => some (.ok (), w)
  | .tick, _ => none
  | .order, .flag b => some (.ok b, w)
  | .order, _ => none
  | .exclusive _, _ => none
  | _, .rejected message => some (.error message, w)
  | .storageGet, .done => some (.ok w.storage, w)
  | .storageSet p, .done => some (.ok (), { w with storage := w.storage.set p })
  | .storageRemove, .done => some (.ok (), { w with storage := w.storage.forget })
  | .setAccessLevel, .done => some (.ok (), w)
  | .proxyGet incognito, .done => some (.ok (w.proxy.effective incognito), w)
  | .proxySet v, .done => some (.ok (), { w with proxy := { w.proxy with own := some v } })
  | .proxySet _, .ignored => some (.ok (), w)
  | .proxyClear, .done => some (.ok (), { w with proxy := { w.proxy with own := none } })
  | .webRTCGet incognito, .done => some (.ok (w.webRTC.effective incognito), w)
  | .webRTCSet v, .done => some (.ok (), { w with webRTC := { w.webRTC with own := some v } })
  | .webRTCSet _, .ignored => some (.ok (), w)
  | .webRTCClear, .done => some (.ok (), { w with webRTC := { w.webRTC with own := none } })
  | .isAllowedIncognitoAccess, .done => some (.ok Browser.incognitoAllowed, w)
  | .tabsGet id, .done => some (.ok (Browser.tabIncognito id), w)
  | .setBadgeText text, .done => some (.ok (), { w with badge := text })
  | .setBadgeBackgroundColor _, .done => some (.ok (), w)
  | .fetch, .flag ok => some (.ok ok, w)
  | .json, .text ip => some (.ok ip, w)
  | _, _ => none

end BrowserVpn
