import BrowserVpn.Core.Exclusions

/-!
# Core.Pac — the proxy configuration

`buildPacScript`, `buildProxyConfig` and the two comparisons of `core.mjs`,
over the settings of `chrome.proxy` as the extension reads them. For one
connection the script determines the exclusions it was built from
(`pacText_inj`).
-/

namespace BrowserVpn

/-! ## Settings -/

/-- `levelOfControl` of a Chrome setting. -/
inductive LevelOfControl where
  | notControllable
  | controlledByOtherExtensions
  | controllableByThisExtension
  | controlledByThisExtension
deriving DecidableEq, Repr

/-- `['controlled_by_this_extension', 'controllable_by_this_extension'].includes(level)`. -/
def LevelOfControl.controllable : LevelOfControl → Bool
  | .notControllable => false
  | .controlledByOtherExtensions => false
  | .controllableByThisExtension => true
  | .controlledByThisExtension => true

/-- The answer of `ChromeSetting.get`. -/
structure Setting (V : Type) where
  levelOfControl : LevelOfControl
  value : V
deriving DecidableEq

inductive ProxyMode where
  | direct
  | autoDetect
  | pacScript
  | fixedServers
  | system
deriving DecidableEq, Repr

structure PacScript where
  data : JsString
  mandatory : Bool
deriving DecidableEq

/-- The value of `chrome.proxy.settings`. -/
structure ProxyConfig where
  mode : ProxyMode
  pacScript : Option PacScript
deriving DecidableEq

/-- What `webRequest.onAuthRequired` reports. A missing field is `none`. -/
structure AuthDetails where
  requestId : Nat
  isProxy : Bool
  statusCode : Int
  scheme : JsString
  challengerHost : Option JsString
  challengerPort : Option Int
  tabId : Option Int
  initiator : Option JsString

/-! ## The script -/

/-- The text of the script for a proxy directive and a normalized list. -/
def pacText (proxy : JsString) (normalized : List JsString) : JsString :=
  js "var SHBVPN_PROXY = " ++ jsonString proxy ++ js ";\n" ++
  js "var SHBVPN_EXCLUSIONS = " ++ jsonStrings normalized ++ js ";\n" ++
  js "function FindProxyForURL(url, host) \x7b\n" ++
  js "  var h = host.toLowerCase().replace(/\\.$/, '');\n" ++
  js "  for (var i = 0; i < SHBVPN_EXCLUSIONS.length; i++) \x7b\n" ++
  js "    var d = SHBVPN_EXCLUSIONS[i];\n" ++
  js "    if (h === d || h.slice(-(d.length + 1)) === '.' + d) return 'DIRECT';\n" ++
  js "  \x7d\n" ++
  js "  return SHBVPN_PROXY;\n" ++
  js "\x7d\n"

/-- The directive for a connection: `HTTPS host:port`. -/
def proxyDirective (c : Connection) : JsString :=
  js "HTTPS " ++ c.host ++ js ":" ++ decimal c.port

/-- `{ mode: 'pac_script', pacScript: { data, mandatory: true } }`. -/
def pacConfig (data : JsString) : ProxyConfig :=
  { mode := .pacScript, pacScript := some { data, mandatory := true } }

/-- The configuration of a validated connection and a normalized list. -/
def proxyConfigOf (c : Connection) (domains : List JsString) : ProxyConfig :=
  pacConfig (pacText (proxyDirective c) domains)

/-- `setting.value?.pacScript?.data === expectedConfig.pacScript.data` and the
rest of `isEffectiveProxySetting`. -/
def isEffectiveProxySetting (setting : Setting ProxyConfig) (expectedConfig : ProxyConfig) :
    Bool :=
  setting.levelOfControl == .controlledByThisExtension &&
    setting.value.mode == .pacScript &&
    match setting.value.pacScript, expectedConfig.pacScript with
    | some pac, some expected => pac.mandatory && pac.data == expected.data
    | _, _ => false

/-- An effective setting is under this extension's control and carries exactly
the expected configuration. -/
theorem isEffectiveProxySetting_iff (setting : Setting ProxyConfig) (c : Connection)
    (domains : List JsString) :
    isEffectiveProxySetting setting (proxyConfigOf c domains) = true ↔
      setting = ⟨.controlledByThisExtension, proxyConfigOf c domains⟩ := by
  obtain ⟨level, mode, pac⟩ := setting
  cases pac with
  | none => simp [isEffectiveProxySetting, proxyConfigOf, pacConfig]
  | some pac =>
      obtain ⟨data, mandatory⟩ := pac
      simp [isEffectiveProxySetting, proxyConfigOf, pacConfig, and_assoc, and_comm]

/-- A code unit that JSON leaves as it is. -/
def isPlainUnit (u : UInt16) : Bool :=
  32 ≤ u.toNat && u.toNat < 128 && u != unit '"' && u != unit '\\'

theorem jsonString_of_plain {s : JsString} (h : ∀ u ∈ s, isPlainUnit u = true) :
    jsonString s = js "\"" ++ s ++ js "\"" := by
  have hunit : ∀ before u after, isPlainUnit u = true → jsonUnit before u after = [u] := by
    intro before u after hu
    simp only [isPlainUnit, Bool.and_eq_true, decide_eq_true_eq, bne_iff_ne, ne_eq] at hu
    have hquote : u.toNat ≠ 34 := fun heq => hu.1.2 (UInt16.toNat_inj.1 (heq.trans (by decide)))
    have hslash : u.toNat ≠ 92 := fun heq => hu.2 (UInt16.toNat_inj.1 (heq.trans (by decide)))
    simp only [jsonUnit, Option.any_some]
    rw [if_neg hquote, if_neg hslash, if_neg (by omega), if_neg (by omega), if_neg (by omega),
      if_neg (by omega), if_neg (by omega), if_neg (by omega), if_neg, if_neg]
    · simp only [Bool.and_eq_true, decide_eq_true_eq]
      omega
    · simp only [Bool.and_eq_true, decide_eq_true_eq]
      omega
  have hfrom : ∀ t before, (∀ u ∈ t, isPlainUnit u = true) → jsonFrom before t = t := by
    intro t
    induction t with
    | nil => intro _ _; rfl
    | cons u rest ih =>
        intro before ht
        rw [jsonFrom, hunit before u rest (ht u (by simp)), ih _ fun w hw => ht w (by simp [hw])]
        rfl
  rw [jsonString, hfrom s [] h]
  rfl

theorem isPlainUnit_of_isHostUnit {u : UInt16} (h : isHostUnit u = true) :
    isPlainUnit u = true := by
  have hlow : 32 ≤ u.toNat := by
    simp only [isHostUnit, isLabelUnit, isLower, isDigit, Bool.or_eq_true, Bool.and_eq_true,
      decide_eq_true_eq, beq_iff_eq] at h
    rcases h with ((h | h) | rfl) | rfl
    · omega
    · omega
    · decide
    · decide
  have hquote : u ≠ unit '"' := by
    rintro rfl
    exact absurd h (by decide)
  have hslash : u ≠ unit '\\' := by
    rintro rfl
    exact absurd h (by decide)
  simp [isPlainUnit, hlow, (isHostUnit_plain h).2.1, hquote, hslash]

/-- The text of a JSON string of host units: nothing is escaped. -/
theorem jsonString_of_units {d : JsString} (h : ∀ u ∈ d, isHostUnit u = true) :
    jsonString d = [unit '"'] ++ d ++ [unit '"'] :=
  jsonString_of_plain fun u hu => isPlainUnit_of_isHostUnit (h u hu)

/-- Joined pieces without the separator determine the pieces. -/
theorem joinWith_inj {separator : UInt16} {l l' : List JsString}
    (hl : ∀ p ∈ l, p ≠ [] ∧ separator ∉ p) (hl' : ∀ p ∈ l', p ≠ [] ∧ separator ∉ p)
    (h : joinWith separator l = joinWith separator l') : l = l' := by
  have hnil : ∀ k : List JsString, (∀ p ∈ k, p ≠ [] ∧ separator ∉ p) →
      joinWith separator k = [] → k = [] := by
    intro k hk hjoin
    cases k with
    | nil => rfl
    | cons p rest =>
        cases rest with
        | nil =>
            rw [joinWith, List.intercalate_singleton] at hjoin
            exact absurd hjoin (hk p (by simp)).1
        | cons q rest => simp [joinWith] at hjoin
  by_cases hempty : l = []
  · rw [hempty] at h ⊢
    exact (hnil l' hl' (by rw [← h]; rfl)).symm
  · have hempty' : l' ≠ [] := by
      rintro rfl
      exact hempty (hnil l hl (by rw [h]; rfl))
    calc l = (joinWith separator l).splitOn separator :=
          (List.splitOn_intercalate separator (fun p hp => (hl p hp).2) hempty).symm
      _ = (joinWith separator l').splitOn separator := by rw [h]
      _ = l' := List.splitOn_intercalate separator (fun p hp => (hl' p hp).2) hempty'

section

variable [Platform]

theorem jsonStrings_inj {l l' : List JsString} (hl : Normalized l) (hl' : Normalized l')
    (h : jsonStrings l = jsonStrings l') : l = l' := by
  have hjoin : joinWith (unit ',') (l.map jsonString) = joinWith (unit ',') (l'.map jsonString) :=
    List.append_cancel_left (List.append_cancel_right h)
  have hpiece : ∀ k : List JsString, Normalized k →
      ∀ p ∈ k.map jsonString, p ≠ [] ∧ unit ',' ∉ p := by
    intro k hk p hp
    rw [List.mem_map] at hp
    obtain ⟨d, hd, rfl⟩ := hp
    rw [jsonString_of_units (hk.units d hd)]
    refine ⟨by simp, fun hmem => ?_⟩
    simp only [List.mem_append, List.mem_singleton] at hmem
    rcases hmem with (hq | hmem) | hq
    · exact absurd hq (by decide)
    · exact absurd (hk.units d hd _ hmem) (by decide)
    · exact absurd hq (by decide)
  have hmap := joinWith_inj (hpiece l hl) (hpiece l' hl') hjoin
  -- stripping the quotes again gives the domains back
  have hstrip : ∀ k : List JsString, Normalized k →
      (k.map jsonString).map (fun p => p.tail.dropLast) = k := by
    intro k hk
    rw [List.map_map]
    refine (List.map_congr_left fun d hd => ?_).trans (List.map_id k)
    simp [jsonString_of_units (hk.units d hd)]
  rw [← hstrip l hl, ← hstrip l' hl', hmap]

/-- For one directive the script determines its list. -/
theorem pacText_inj {proxy : JsString} {l l' : List JsString} (hl : Normalized l)
    (hl' : Normalized l') (h : pacText proxy l = pacText proxy l') : l = l' := by
  simp only [pacText, List.append_assoc, List.append_cancel_left_eq] at h
  refine jsonStrings_inj hl hl' ?_
  simp only [← List.append_assoc, List.append_cancel_right_eq] at h
  exact h

/-- `buildPacScript`. That every exclusion is a string is its type here. -/
def buildPacScript (connection : JsVal) (exclusions : List JsString) :
    Except String JsString := do
  let safe ← validateConnection connection
  let normalized ← normalizeExclusions (.str (joinWith (unit '\n') exclusions))
  return pacText (proxyDirective safe) normalized

def buildProxyConfig (connection : JsVal) (exclusions : List JsString) :
    Except String ProxyConfig := do
  let data ← buildPacScript connection exclusions
  return pacConfig data

/-- `buildProxyConfig` does not fail on what was validated and normalized. -/
theorem buildProxyConfig_toJs {c : Connection} {domains : List JsString} (hc : c.Valid)
    (hd : Normalized domains) :
    buildProxyConfig c.toJs domains = .ok (proxyConfigOf c domains) := by
  rw [buildProxyConfig, buildPacScript, validateConnection_toJs hc]
  simp only [bind, Except.bind, normalizeExclusions_join hd]
  rfl

theorem proxyConfigOf_inj {c : Connection} {l l' : List JsString} (hl : Normalized l)
    (hl' : Normalized l') (h : proxyConfigOf c l = proxyConfigOf c l') : l = l' := by
  simp only [proxyConfigOf, pacConfig, ProxyConfig.mk.injEq, true_and, Option.some.injEq,
    PacScript.mk.injEq, and_true] at h
  exact pacText_inj hl hl' h

/-! ## Comparisons -/

def isMatchingProxyChallenge (details : AuthDetails) (connection : Connection) : Bool :=
  details.isProxy && details.statusCode == 407 &&
    toLowerCase details.scheme == js "basic" &&
    details.challengerHost.any (fun host => toLowerCase host == connection.host) &&
    details.challengerPort == some (connection.port : Int)

end

end BrowserVpn
