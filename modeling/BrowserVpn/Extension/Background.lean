import BrowserVpn.Extension.Api

/-!
# Extension.Background — the async functions of the service worker

`background.js`, function by function, as programs over the calls of
`Extension.Api`. `await` marks every `await` of a promise that is not itself a
Chrome call: the caller resumes in a later microtask, so other code may run in
between.
-/

namespace BrowserVpn

open Async

/-- Await one Chrome call. -/
def chrome (c : Call) : Js (Reply c) := .call c .done

/-- Await another async function: its result arrives one microtask later. -/
def await {α : Type} (p : Js α) : Js α := p.andThen fun r => .call .tick fun _ => .done r

/-- A synchronous function that may throw. -/
def lift {α : Type} (r : Except String α) : Js α := .done r

/-- `if (!b) throw new Error(message)`. -/
def ensure (b : Bool) (message : String) : Js Unit := .done (if b then .ok () else .error message)

/-- `if (b) await p`. -/
def when (b : Bool) (p : Js Unit) : Js Unit := if b then p else pure ()

section

variable [Platform]

/-! ## Stored configuration -/

def stored : Js Storage := chrome .storageGet

def configuredConnection (data : Config) : Except String (Option Connection) :=
  match data.connection with
  | some value => if value.truthy then (validateConnection value).map some else .ok none
  | none => .ok none

def configuredExclusions (data : Config) : Except String (List JsString) :=
  normalizeExclusions (.str (joinWith (unit '\n') (data.exclusions.getD [])))

/-- The two reads of the stored configuration that stand in one `try`. -/
def configured (data : Config) : Except String (Option Connection × List JsString) := do
  let connection ← configuredConnection data
  let exclusions ← configuredExclusions data
  return (connection, exclusions)

/-- A stored connection that is there and valid. -/
def requireConnection (data : Config) (message : String) : Except String Connection := do
  match ← configuredConnection data with
  | some connection => return connection
  | none => throw message

theorem configuredConnection_valid {data : Config} {c : Connection}
    (h : configuredConnection data = .ok (some c)) : c.Valid := by
  rw [configuredConnection] at h
  split at h
  · split at h
    · rename_i value _ _
      rcases hv : validateConnection value with e | c'
      · simp [hv, Except.map] at h
      · obtain rfl : c' = c := by simpa [hv, Except.map] using h
        exact validateConnection_valid hv
    · cases h
  · cases h

theorem configured_eq_ok {data : Config} {connection : Option Connection} {l : List JsString} :
    configured data = .ok (connection, l) ↔
      configuredConnection data = .ok connection ∧ configuredExclusions data = .ok l := by
  rw [configured]
  rcases configuredConnection data with e | connection'
  · simp [bind, Except.bind]
  · rcases configuredExclusions data with e | l' <;> simp [bind, Except.bind, pure, Except.pure]

/-- What is configured yields its proxy configuration. -/
theorem buildProxyConfig_configured {data : Config} {c : Connection} {l : List JsString}
    (hc : configuredConnection data = .ok (some c)) (hl : Normalized l) :
    buildProxyConfig c.toJs l = .ok (proxyConfigOf c l) :=
  buildProxyConfig_toJs (configuredConnection_valid hc) hl

/-! ## Settings -/

def effectiveSetting (incognito : Bool) : Js (Setting ProxyConfig) := chrome (.proxyGet incognito)

def clearOwnProxySetting : Js Unit := chrome .proxyClear

def clearOwnWebRTCSetting : Js Unit := chrome .webRTCClear

def webRTCSetting (incognito : Bool) : Js (Setting WebRTCPolicy) := chrome (.webRTCGet incognito)

def webRTCIsRestricted (setting : Setting WebRTCPolicy) : Bool :=
  setting.levelOfControl == .controlledByThisExtension && setting.value == webRTCPolicy

def incognitoWebRTCIsRestricted : Js Bool :=
  tryCatch
    (do
      let allowed ← chrome .isAllowedIncognitoAccess
      if allowed then webRTCIsRestricted <$> await (webRTCSetting true) else pure true)
    fun _ => pure false

def webRTCIsRestrictedInAllEnabledContexts : Js Bool := do
  let setting ← await (webRTCSetting false)
  if webRTCIsRestricted setting then await incognitoWebRTCIsRestricted else pure false

/-- The answer of `incognitoProxyState`. -/
structure IncognitoProxyState where
  controllable : Bool
  effective : Bool
  levelOfControl : Option LevelOfControl

def incognitoProxyState (expected : ProxyConfig) : Js IncognitoProxyState :=
  tryCatch
    (do
      let allowed ← chrome .isAllowedIncognitoAccess
      if allowed then
        let setting ← await (effectiveSetting true)
        pure {
          controllable := setting.levelOfControl.controllable
          effective := isEffectiveProxySetting setting expected
          levelOfControl := some setting.levelOfControl }
      else pure { controllable := true, effective := true, levelOfControl := none })
    fun _ => pure { controllable := false, effective := false, levelOfControl := none }

/-! ## Status -/

def corruptedStatus : Status :=
  { state := .error, message := some "Сохранённая конфигурация повреждена.", enabled := false,
    hasConnection := false, exclusions := [] }

/-- `base` of `status()`. -/
def baseStatus (data : Storage) (connection : Option Connection) (exclusions : List JsString)
    (state : State) : Status :=
  { state
    enabled := data.enabled == some true
    hasConnection := connection.isSome
    server := connection.map fun c => c.host ++ js ":" ++ decimal c.port
    exclusions
    proxyError := data.proxyError }

/-- The branch of `status()` for a configuration that is not enabled. -/
def disabledStatus (base : State → Status) (setting : Setting ProxyConfig)
    (webRTC : Setting WebRTCPolicy) : Status :=
  if setting.levelOfControl == .controlledByThisExtension ||
      webRTC.levelOfControl == .controlledByThisExtension then
    { base .error with message := some "Настройки ещё активны в Chrome. Повторите отключение." }
  else base .off

/-- The last branch of `status()`: everything is in force. -/
def errorOrActive (base : State → Status) (data : Storage) : Status :=
  match data.proxyError with
  | some e =>
      { base .error with
        canRetryIp := some (!e.possibleDirect)
        message := some (if e.possibleDirect then
          "Chrome сообщил о прямом подключении. Отключите прокси и проверьте настройки Chrome."
          else "Chrome сообщил об ошибке прокси. Проверьте сервер и повторите проверку IP.") }
  | none => base .active

/-- The checks of `status()` that follow the two incognito reads. -/
def routeStatus (base : State → Status) (data : Storage) (setting : Setting ProxyConfig)
    (expected : ProxyConfig) (incognitoProxy : IncognitoProxyState) : Status :=
  if !incognitoProxy.controllable then
    { base .conflict with
      message := some "Chrome не разрешает этому расширению управлять прокси в режиме инкогнито." }
  else if setting.levelOfControl != .controlledByThisExtension then
    { base .conflict with
      message := some "Chrome не разрешает этому расширению управлять прокси." }
  else if !isEffectiveProxySetting setting expected then
    { base .error with message := some "Настройка прокси в Chrome отличается от выбранной." }
  else if !incognitoProxy.effective then
    { base .error with
      message := some "Настройка прокси в режиме инкогнито отличается от выбранной." }
  else errorOrActive base data

/-- `status()` from where the configuration is known to be enabled. -/
def enabledStatus (base : State → Status) (data : Storage) (connection : Connection)
    (exclusions : List JsString) (setting : Setting ProxyConfig)
    (webRTC : Setting WebRTCPolicy) : Js Status :=
  if !webRTCIsRestricted webRTC then
    pure { base .error with
      message := some "Chrome не применил ограничение прямых WebRTC-соединений." }
  else do
    let restricted ← await incognitoWebRTCIsRestricted
    if !restricted then
      pure { base .error with
        message := some "Chrome не применил ограничение WebRTC в режиме инкогнито." }
    else
      let expected ← lift (buildProxyConfig connection.toJs exclusions)
      let incognitoProxy ← await (incognitoProxyState expected)
      pure (routeStatus base data setting expected incognitoProxy)

def status : Js Status := do
  let data ← await stored
  let setting ← await (effectiveSetting false)
  let webRTC ← await (webRTCSetting false)
  match configured data.toConfig with
  | .error _ => pure corruptedStatus
  | .ok (none, exclusions) => pure (baseStatus data none exclusions .unconfigured)
  | .ok (some connection, exclusions) =>
      let base := baseStatus data (some connection) exclusions
      if !data.isEnabled then pure (disabledStatus base setting webRTC)
      else enabledStatus base data connection exclusions setting webRTC

/-- The badge for a state. -/
def badgeOf : State → BadgeText
  | .active => .on
  | .conflict => .alert
  | .error => .alert
  | .unconfigured => .empty
  | .off => .empty

def updateBadge : Js Unit := do
  let current ← await status
  let badge := badgeOf current.state
  chrome (.setBadgeText badge)
  when (badge != .empty)
    (chrome (.setBadgeBackgroundColor (if badge == .on then "#087f63" else "#bd3b3b")))

/-! ## Startup -/

/-- The first part of the `try` of `reconcileAtStartup`: restrict WebRTC. -/
def restrictWebRTC : Js Unit := do
  let rtc ← await (webRTCSetting false)
  when (!webRTCIsRestricted rtc) do
    await clearOwnProxySetting
    ensure rtc.levelOfControl.controllable "Chrome не разрешает ограничить WebRTC."
    chrome (.webRTCSet webRTCPolicy)
    let rtc ← await (webRTCSetting false)
    ensure (webRTCIsRestricted rtc) "Chrome не применил ограничение WebRTC."

/-- `if (!await incognitoWebRTCIsRestricted()) throw …`. -/
def ensureIncognitoWebRTC : Js Unit := do
  let restricted ← await incognitoWebRTCIsRestricted
  ensure restricted "Chrome не применил ограничение WebRTC в режиме инкогнито."

/-- Set the PAC, read the regular setting back and throw unless it is there. -/
def setProxy (expected : ProxyConfig) (message : String) : Js Unit := do
  chrome (.proxySet expected)
  let applied ← await (effectiveSetting false)
  ensure (isEffectiveProxySetting applied expected) message

/-- `if (!(await incognitoProxyState(expected)).effective) throw …`. -/
def ensureIncognitoProxy (expected : ProxyConfig) (message : String) : Js Unit := do
  let incognito ← await (incognitoProxyState expected)
  ensure incognito.effective message

/-- `if (!await webRTCIsRestrictedInAllEnabledContexts()) throw …`. -/
def ensureRestricted (message : String) : Js Unit := do
  let restricted ← await webRTCIsRestrictedInAllEnabledContexts
  ensure restricted message

/-- Set the regular PAC unless it is in force. -/
def applyProxy (setting : Setting ProxyConfig) (expected : ProxyConfig) : Js Unit :=
  when (!isEffectiveProxySetting setting expected)
    (setProxy expected "Chrome не применил настройку прокси.")

/-- The checks that close the `try` of `reconcileAtStartup`. -/
def verifyRoute (expected : ProxyConfig) : Js Unit := do
  let rtc ← await (webRTCSetting false)
  ensure (webRTCIsRestricted rtc) "Chrome потерял ограничение WebRTC."
  ensureIncognitoWebRTC
  ensureIncognitoProxy expected "Chrome не применил настройку прокси в режиме инкогнито."

/-- The body of the `try` of `reconcileAtStartup`. -/
def restoreRoute (connection : Connection) (exclusions : List JsString) : Js Unit := do
  restrictWebRTC
  ensureIncognitoWebRTC
  let setting ← await (effectiveSetting false)
  ensure setting.levelOfControl.controllable "Chrome не разрешает управлять прокси."
  let expected ← lift (buildProxyConfig connection.toJs exclusions)
  let incognito ← await (incognitoProxyState expected)
  when (!incognito.controllable) do
    Prog.set (.restoreAfterIncognitoTakeover true)
    throw "Chrome не разрешает управлять прокси в режиме инкогнито."
  applyProxy setting expected
  verifyRoute expected
  Prog.set (.restoreAfterIncognitoTakeover false)
  Prog.set (.ownProxyClearedForConflict false)

/-- Give up both settings. -/
def clearOwnSettings : Js Unit := do
  await clearOwnProxySetting
  await clearOwnWebRTCSetting

/-- What `reconcileAtStartup` does for a stored configuration. -/
def reconcileRoute (data : Config) : Js Unit :=
  match configured data with
  | .error _ => do
      chrome (.storageSet { enabled := some false })
      clearOwnSettings
  | .ok (none, _) => do
      when data.isEnabled (chrome (.storageSet { enabled := some false }))
      clearOwnSettings
  | .ok (some connection, exclusions) =>
      if !data.isEnabled then clearOwnSettings
      else
        -- A stored PAC must never remain active if WebRTC cannot be restricted.
        tryCatch (restoreRoute connection exclusions) fun _ => await clearOwnProxySetting

def reconcileAtStartup : Js Unit := do
  chrome .setAccessLevel
  let data ← await stored
  reconcileRoute data.toConfig
  await updateBadge

/-- `try { await p } catch { }`. -/
def attempt (p : Js Unit) : Js Unit := tryCatch (await p) fun _ => pure ()

/-- `boot`: startup, and the attempt to leave nothing behind when it fails. -/
def boot : Js Unit :=
  tryCatch reconcileAtStartup fun _ => do
    attempt clearOwnProxySetting
    attempt updateBadge

/-! ## Popup operations -/

def importKey (key : JsVal) : Js Status := do
  let connection ← lift (parseConnectionKey key)
  chrome (.storageSet { enabled := some false })
  clearOwnSettings
  chrome (.storageSet
    { connection := some connection.toJs, exclusions := some [], proxyError := some none })
  await updateBadge
  status

/-- The `try` of `connect`: WebRTC first, then the PAC, then every check again. -/
def establishRoute (expected : ProxyConfig) : Js Unit := do
  chrome (.webRTCSet webRTCPolicy)
  let rtc ← await (webRTCSetting false)
  ensure (webRTCIsRestricted rtc) "Chrome не применил ограничение WebRTC."
  ensureIncognitoWebRTC
  setProxy expected "Chrome не применил настройку прокси."
  ensureIncognitoProxy expected "Chrome не применил настройку прокси в режиме инкогнито."
  ensureRestricted "Chrome потерял ограничение WebRTC."

/-- The `catch` of `connect`. -/
def abandonRoute (error : String) : Js Unit := do
  chrome (.storageSet { enabled := some false })
  clearOwnSettings
  await updateBadge
  throw error

/-- `connect` after its checks. -/
def enableRoute (expected : ProxyConfig) (rtc : Setting WebRTCPolicy) : Js Status := do
  when (!webRTCIsRestricted rtc) (await clearOwnProxySetting)
  chrome (.storageSet { enabled := some true, proxyError := some none })
  tryCatch (establishRoute expected) abandonRoute
  Prog.set (.restoreAfterIncognitoTakeover false)
  Prog.set (.ownProxyClearedForConflict false)
  await updateBadge
  status

/-- Give up the own PAC and throw. -/
def refuse (message : String) : Js Unit := do
  await clearOwnProxySetting
  throw message

def connect : Js Status := do
  let data ← await stored
  let connection ← lift (requireConnection data.toConfig "Сначала добавьте ключ подключения.")
  let exclusions ← lift (configuredExclusions data.toConfig)
  let setting ← await (effectiveSetting false)
  when (!setting.levelOfControl.controllable)
    (refuse "Другое расширение или политика Chrome управляет прокси.")
  let expected ← lift (buildProxyConfig connection.toJs exclusions)
  let incognito ← await (incognitoProxyState expected)
  when (!incognito.controllable)
    (refuse "Другое расширение или политика Chrome управляет прокси в режиме инкогнито.")
  let rtc ← await (webRTCSetting false)
  when (!rtc.levelOfControl.controllable)
    (refuse "Chrome не разрешает ограничить прямые WebRTC-соединения.")
  enableRoute expected rtc

def disconnect : Js Status := do
  Prog.set (.restoreAfterIncognitoTakeover false)
  Prog.set (.ownProxyClearedForConflict false)
  chrome (.storageSet { enabled := some false, proxyError := some none })
  clearOwnSettings
  await updateBadge
  status

def forget : Js Status := do
  let _ ← await disconnect
  chrome .storageRemove
  await updateBadge
  status

/-! ## Exclusions -/

/-- The checks of `saveExclusions` on an enabled configuration. -/
def checkRoute (connection : Connection) (old : Config) : Js Unit := do
  let setting ← await (effectiveSetting false)
  when (!setting.levelOfControl.controllable)
    (refuse "Другое расширение или политика Chrome управляет прокси.")
  let restricted ← await webRTCIsRestrictedInAllEnabledContexts
  when (!restricted) (refuse "Chrome не применил ограничение WebRTC.")
  let exclusions ← lift (configuredExclusions old)
  let expected ← lift (buildProxyConfig connection.toJs exclusions)
  let incognito ← await (incognitoProxyState expected)
  when (!incognito.controllable) do
    Prog.set (.restoreAfterIncognitoTakeover true)
    refuse "Другое расширение или политика Chrome управляет прокси в режиме инкогнито."

/-- The `try` of `saveExclusions`. -/
def applyExclusions (connection : Connection) (exclusions : List JsString) : Js Unit := do
  let expected ← lift (buildProxyConfig connection.toJs exclusions)
  setProxy expected "Chrome не применил исключения."
  ensureIncognitoProxy expected "Chrome не применил исключения в режиме инкогнито."
  ensureRestricted "Chrome потерял ограничение WebRTC."

/-- The inner `try` of the rollback: put the previous PAC back and verify it. -/
def restorePrevious (connection : Connection) (old : Config) : Js Unit := do
  let exclusions ← lift (configuredExclusions old)
  let previous ← lift (buildProxyConfig connection.toJs exclusions)
  ensureRestricted "Chrome не разрешает восстановить прежний прокси."
  let incognito ← await (incognitoProxyState previous)
  ensure incognito.controllable "Chrome не разрешает восстановить прежний прокси."
  setProxy previous "Chrome не восстановил прежний прокси во всех окнах."
  ensureIncognitoProxy previous "Chrome не восстановил прежний прокси во всех окнах."
  ensureRestricted "Chrome не восстановил прежний прокси во всех окнах."

/-- The `catch` of `saveExclusions`. -/
def rollbackExclusions (connection : Connection) (old : Config) (error : String) : Js Unit := do
  chrome (.storageSet { exclusions := some (old.exclusions.getD []) })
  tryCatch (restorePrevious connection old) fun _ => attempt clearOwnProxySetting
  await updateBadge
  throw error

def saveExclusions (text : JsVal) : Js Status := do
  let exclusions ← lift (normalizeExclusions text)
  let old ← await stored
  let connection ← lift (requireConnection old.toConfig "Сначала добавьте ключ подключения.")
  when old.isEnabled (checkRoute connection old.toConfig)
  chrome (.storageSet { exclusions := some exclusions })
  when old.isEnabled
    (tryCatch (applyExclusions connection exclusions) (rollbackExclusions connection old.toConfig))
  Prog.set (.ownProxyClearedForConflict false)
  await updateBadge
  status

/-! ## The IP check -/

/-- `changed()` of `testIp`. -/
def epochsChanged (epoch settingEpoch errorEpoch : Nat) (v : Vars) : Bool :=
  v.configurationEpoch != epoch || v.browserSettingEpoch != settingEpoch ||
    v.proxyErrorEpoch != errorEpoch

/-- `current.state === 'active' || current.canRetryIp === true`. -/
def Status.testable (s : Status) : Bool := s.state == .active || s.canRetryIp == some true

/-- The task `testIp` hands to `exclusive`. It resolves with the epoch that
`testIp` continues to compare with. -/
def clearError (check : IpCheck) : Js Nat := do
  let v ← Prog.get
  ensure (v.configurationEpoch == check.epoch + 1)
    "Параметры подключения изменились во время проверки."
  let epoch := v.configurationEpoch
  let data ← await stored
  let latest ← await status
  let v ← Prog.get
  ensure (!epochsChanged epoch check.settingEpoch check.errorEpoch v &&
      data.proxyError == some check.previousError && latest.canRetryIp == some true)
    "Во время проверки возникла ошибка прокси."
  chrome (.storageSet { proxyError := some none })
  let v ← Prog.get
  ensure (!epochsChanged epoch check.settingEpoch check.errorEpoch v)
    "Во время проверки возникла ошибка прокси."
  await updateBadge
  pure epoch

/-- `/^[0-9a-fA-F:.]+$/` and the length limit. -/
def isIpText (s : JsString) : Bool :=
  s.length ≤ 64 && !s.isEmpty && s.all fun u =>
    isDigit u || (97 ≤ u.toNat && u.toNat ≤ 102) || (65 ≤ u.toNat && u.toNat ≤ 70) ||
      u == unit ':' || u == unit '.'

/-- The address in the body of the answer. -/
def ipOf (body : Option JsString) : Except String JsString :=
  match body with
  | some ip =>
      if isIpText ip then .ok ip else .error "Сервис проверки IP вернул некорректный ответ."
  | none => .error "Сервис проверки IP вернул некорректный ответ."

/-- Hand the error to `clearError` when there was one. The result is the epoch
to compare with from here on. -/
def dismissError (start : Vars) : Option ProxyError → Js Nat
  | some previousError => do
      let r ← chrome (.exclusive (.clearError {
        epoch := start.configurationEpoch
        settingEpoch := start.browserSettingEpoch
        errorEpoch := start.proxyErrorEpoch
        previousError }))
      match r with
      | .epoch n => pure n
      | _ => pure start.configurationEpoch
  | none => pure start.configurationEpoch

/-- The `try` of `testIp`. -/
def fetchIp (start : Vars) (previousError : Option ProxyError) : Js JsString := do
  let ok ← chrome .fetch
  ensure ok "Сервис проверки IP недоступен."
  let body ← chrome .json
  let ip ← lift (ipOf body)
  let after ← await status
  let v ← Prog.get
  ensure (!(v.configurationChanging || epochsChanged start.configurationEpoch
      start.browserSettingEpoch start.proxyErrorEpoch v || !after.testable))
    "Во время проверки возникла ошибка прокси."
  let epoch ← dismissError start previousError
  let v ← Prog.get
  ensure (!(v.configurationChanging ||
      epochsChanged epoch start.browserSettingEpoch start.proxyErrorEpoch v))
    "Параметры подключения изменились во время проверки."
  pure ip

def testIp : Js JsString := do
  let start ← Prog.get
  let current ← await status
  let v ← Prog.get
  ensure (!(v.configurationChanging || epochsChanged start.configurationEpoch
      start.browserSettingEpoch start.proxyErrorEpoch v))
    "Параметры подключения изменились во время проверки. Повторите проверку IP."
  ensure current.testable "Сначала включите подключение и устраните ошибки прокси."
  ensure (!isExcludedHost (js "api.ipify.org") current.exclusions)
    "Сервис проверки IP находится в исключениях. Удалите его из списка и повторите проверку."
  tryCatch (fetchIp start current.proxyError) fun _ =>
    throw "Не удалось проверить внешний IP. Проверьте сервер и попробуйте ещё раз."

/-! ## Event tasks -/

/-- The error a repeated challenge stores. -/
def authFailed : Js Unit := do
  let v ← Prog.get
  chrome (.storageSet {
    proxyError := some (some { possibleDirect := false, code := js "AUTH_FAILED", atTime := v.now }) })
  await updateBadge

/-- `/^[A-Z_]+$/` on the reported error, else `PROXY_ERROR`. -/
def errorCode (details : ErrorDetails) : JsString :=
  match details.error with
  | some e =>
      if !e.isEmpty && e.all (fun u => isUpper u || u == unit '_') then e else js "PROXY_ERROR"
  | none => js "PROXY_ERROR"

def onProxyError (details : ErrorDetails) : Js Unit := do
  let data ← await stored
  when data.isEnabled do
    let v ← Prog.get
    chrome (.storageSet {
      proxyError := some (some {
        possibleDirect := details.fatal == some false
        code := errorCode details
        atTime := v.now }) })
    await updateBadge

/-- The conflict test of the proxy listener. -/
def clearOnConflict (incognito : IncognitoProxyState) : Js Unit :=
  if incognito.effective then do
    Prog.set (.restoreAfterIncognitoTakeover false)
    Prog.set (.ownProxyClearedForConflict false)
  else do
    let v ← Prog.get
    when (!v.ownProxyClearedForConflict) do
      Prog.set (.restoreAfterIncognitoTakeover (!incognito.controllable))
      await clearOwnProxySetting
      Prog.set (.ownProxyClearedForConflict true)

/-- The restore test of the proxy listener. -/
def restoreAfterTakeover (incognito : IncognitoProxyState) (regular : Setting ProxyConfig) :
    Js Unit := do
  let v ← Prog.get
  when (v.restoreAfterIncognitoTakeover &&
      incognito.levelOfControl == some .controllableByThisExtension &&
      regular.levelOfControl == .controllableByThisExtension) do
    let restricted ← await webRTCIsRestrictedInAllEnabledContexts
    when restricted do
      Prog.set (.restoreAfterIncognitoTakeover false)
      Prog.set (.ownProxyClearedForConflict false)
      await reconcileAtStartup

/-- The `try` of the proxy listener. -/
def followProxyChange : Js Unit := do
  let data ← await stored
  when (data.isEnabled && data.hasConnection) do
    let connection ← lift (requireConnection data.toConfig "Некорректный ключ подключения.")
    let exclusions ← lift (configuredExclusions data.toConfig)
    let expected ← lift (buildProxyConfig connection.toJs exclusions)
    let incognito ← await (incognitoProxyState expected)
    let regular ← await (effectiveSetting false)
    clearOnConflict incognito
    restoreAfterTakeover incognito regular

/-- The task of `chrome.proxy.settings.onChange`. -/
def onProxyChange : Js Unit := followProxyChange.finallyDo (await updateBadge)

/-- What each exclusive task does. -/
def Op.task : Op → Js Result
  | .importKey key => .status <$> BrowserVpn.importKey key
  | .connect => .status <$> BrowserVpn.connect
  | .disconnect => .status <$> BrowserVpn.disconnect
  | .forget => .status <$> BrowserVpn.forget
  | .saveExclusions text => .status <$> BrowserVpn.saveExclusions text
  | .proxyError details _ => (fun _ => .none) <$> onProxyError details
  | .authFailed _ => (fun _ => .none) <$> BrowserVpn.authFailed
  | .clearError check => .epoch <$> BrowserVpn.clearError check
  | .proxyChanged => (fun _ => .none) <$> onProxyChange
  | .webRTCChanged => (fun _ => .none) <$> reconcileAtStartup

/-! ## Proxy authorization -/

variable [Browser]

/-- Where a request comes from, as far as `onAuthRequired` can tell. -/
inductive RequestContext where
  | tab (tabId : Int)
  | worker
  | unknown
deriving DecidableEq

def requestContext (details : AuthDetails) : RequestContext :=
  match details.tabId with
  | some id =>
      if 0 ≤ id then .tab id
      else if id = -1 ∧ details.initiator = some (js "chrome-extension://" ++ Browser.runtimeId) then
        .worker
      else .unknown
  | none => .unknown

/-- The filter of the listener, before anything is awaited. -/
def isBasicProxyChallenge (details : AuthDetails) : Bool :=
  details.isProxy && details.statusCode == 407 && toLowerCase details.scheme == js "basic"

/-- `Promise.all` of the two settings of one context. Either read may come
first; the first rejection rejects the whole. -/
def bothSettings (incognito : Bool) : Js (Setting ProxyConfig × Setting WebRTCPolicy) := do
  let proxyFirst ← chrome .order
  if proxyFirst then
    let setting ← effectiveSetting incognito
    let rtc ← webRTCSetting incognito
    pure (setting, rtc)
  else
    let rtc ← webRTCSetting incognito
    let setting ← effectiveSetting incognito
    pure (setting, rtc)

/-- The incognito flag of the request's context; `none` cancels. -/
def requestIncognito (details : AuthDetails) : Js (Option Bool) :=
  match requestContext details with
  | .tab id => chrome (.tabsGet id)
  | .worker => pure (some Browser.inIncognitoContext)
  | .unknown => pure none

/-- What the handler knows once it has `matched`. -/
structure Challenge where
  start : Vars
  data : Storage
  connection : Connection

/-- What follows the read of the storage, up to `matched = true`. -/
def matchStored (details : AuthDetails) (start : Vars) (data : Storage) :
    Except String (AuthResponse ⊕ Challenge) :=
  if !data.isEnabled || !data.hasConnection then .ok (.inl .pass)
  else do
    match ← configuredConnection data.toConfig with
    | none => return .inl .pass
    | some connection =>
        if !isMatchingProxyChallenge details connection then return .inl .pass
        else return .inr { start, data, connection }

/-- The handler up to `matched = true`. -/
def matchChallenge (details : AuthDetails) : Js (AuthResponse ⊕ Challenge) := do
  let start ← Prog.get
  if start.configurationChanging then pure (.inl .cancel)
  else
    let data ← await stored
    lift (matchStored details start data)

/-- Record a repeated challenge as an authorization failure. -/
def recordAuthFailure : Js AuthResponse := do
  Prog.set .proxyErrorEpoch
  let v ← Prog.get
  let _ ← chrome (.exclusive (.authFailed v.proxyErrorEpoch))
  pure .cancel

/-- The synchronous tail of the handler. No secret is handed out after either
our configuration or Chrome's effective setting has changed. -/
def releaseCredentials (details : AuthDetails) (c : Challenge) (expected : ProxyConfig)
    (setting : Setting ProxyConfig) (rtc : Setting WebRTCPolicy) : Js AuthResponse := do
  let v ← Prog.get
  if v.configurationChanging || v.configurationEpoch != c.start.configurationEpoch ||
      v.browserSettingEpoch != c.start.browserSettingEpoch ||
      !isEffectiveProxySetting setting expected || !webRTCIsRestricted rtc then
    pure .cancel
  else if v.authAttempts.contains details.requestId then recordAuthFailure
  else
    Prog.set (.authAttempt details.requestId)
    pure (.credentials c.connection.username c.connection.password)

/-- The handler from `matched = true`. -/
def answerChallenge (details : AuthDetails) (c : Challenge) : Js AuthResponse := do
  match ← requestIncognito details with
  | none => pure .cancel
  | some incognito =>
      let exclusions ← lift (configuredExclusions c.data.toConfig)
      let expected ← lift (buildProxyConfig c.connection.toJs exclusions)
      let (setting, rtc) ← await (bothSettings incognito)
      releaseCredentials details c expected setting rtc

/-- The handler after `await boot`. A rejection answers `{}` before `matched`
is set and `{ cancel: true }` after. -/
def onAuthRequired (details : AuthDetails) : Js AuthResponse := do
  let first ← tryCatch (matchChallenge details) fun _ => pure (.inl .pass)
  match first with
  | .inl answer => pure answer
  | .inr c => tryCatch (answerChallenge details c) fun _ => pure .cancel

end

end BrowserVpn
