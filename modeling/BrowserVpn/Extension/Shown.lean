import BrowserVpn.Extension.Status

/-!
# Extension.Shown — what the badge has to show

The state of `status()` at rest, as a function of the storage and the effective
settings, and how far a change of the storage can move it: not at all as long as
the storage has the same gist (`state_of_gist`), and from active to error only
when all that comes is a proxy error (`state_of_error`).
-/

namespace BrowserVpn

section

variable [Platform]

/-! ## The gist of a storage -/

/-- What the state of `status()` depends on. -/
inductive Gist where
  | corrupted
  | unconfigured
  | configured (connection : Connection) (exclusions : List JsString) (enabled : Bool)
      (proxyError : Option ProxyError)

def Storage.gist (data : Storage) : Gist :=
  match configured data.toConfig with
  | .error _ => .corrupted
  | .ok (none, _) => .unconfigured
  | .ok (some connection, exclusions) =>
      .configured connection exclusions data.isEnabled data.proxyError

/-- A route is wanted. -/
def Gist.enabled : Gist → Bool
  | .configured _ _ enabled _ => enabled
  | _ => false

/-- A route is wanted, and an error is stored. -/
def Gist.failed : Gist → Bool
  | .configured _ _ enabled proxyError => enabled && proxyError.isSome
  | _ => false

/-- No route can be wanted. -/
def Gist.void : Gist → Bool
  | .configured .. => false
  | _ => true

theorem gist_of_error {data : Storage} {e : String} (h : configured data.toConfig = .error e) :
    data.gist = .corrupted := by
  simp [Storage.gist, h]

theorem gist_of_none {data : Storage} {l : List JsString}
    (h : configured data.toConfig = .ok (none, l)) : data.gist = .unconfigured := by
  simp [Storage.gist, h]

theorem gist_of_some {data : Storage} {c : Connection} {l : List JsString}
    (h : configured data.toConfig = .ok (some c, l)) :
    data.gist = .configured c l data.isEnabled data.proxyError := by
  simp [Storage.gist, h]

/-- A gist with a wanted route comes from an enabled storage. -/
theorem isEnabled_of_gist {data : Storage} (h : data.gist.enabled = true) :
    data.isEnabled = true := by
  rcases hconf : configured data.toConfig with e | ⟨_ | c, l⟩
  · simp [gist_of_error hconf, Gist.enabled] at h
  · simp [gist_of_none hconf, Gist.enabled] at h
  · simpa [gist_of_some hconf, Gist.enabled] using h

theorem proxyError_of_failed {data : Storage} (h : data.gist.failed = true) :
    data.proxyError.isSome = true := by
  rcases hconf : configured data.toConfig with e | ⟨_ | c, l⟩
  · simp [gist_of_error hconf, Gist.failed] at h
  · simp [gist_of_none hconf, Gist.failed] at h
  · rw [gist_of_some hconf, Gist.failed, Bool.and_eq_true] at h
    exact h.2

/-- Whether a route can be wanted does not depend on the stored error. -/
theorem void_congr {data data' : Storage} (h : data.toConfig = data'.toConfig) :
    data.gist.void = data'.gist.void := by
  rcases hconf : configured data.toConfig with e | ⟨_ | c, l⟩
  · rw [gist_of_error hconf, gist_of_error (h ▸ hconf)]
  · rw [gist_of_none hconf, gist_of_none (h ▸ hconf)]
  · rw [gist_of_some hconf, gist_of_some (h ▸ hconf)]
    rfl

/-- `enabled: false` on a storage that wants no route says nothing new. -/
theorem gist_disable {data : Storage} (h : data.gist.void = true) :
    (data.set { enabled := some false }).gist = data.gist := by
  -- What is configured does not look at `enabled`.
  have hsame : configured (data.set { enabled := some false }).toConfig =
      configured data.toConfig := rfl
  rcases hconf : configured data.toConfig with e | ⟨_ | c, l⟩
  · rw [gist_of_error hconf, gist_of_error (hsame.trans hconf)]
  · rw [gist_of_none hconf, gist_of_none (hsame.trans hconf)]
  · simp [gist_of_some hconf, Gist.void] at h

/-- Clearing the stored error leaves a wanted route wanted. -/
theorem enabled_clear {data : Storage} :
    (data.set { proxyError := some none }).gist.enabled = data.gist.enabled := by
  have hsame : configured (data.set { proxyError := some none }).toConfig =
      configured data.toConfig := rfl
  rcases hconf : configured data.toConfig with e | ⟨_ | c, l⟩
  · rw [gist_of_error hconf, gist_of_error (hsame.trans hconf)]
  · rw [gist_of_none hconf, gist_of_none (hsame.trans hconf)]
  · rw [gist_of_some hconf, gist_of_some (hsame.trans hconf)]
    rfl

/-! ## The state -/

variable [Browser]

/-- The state that `status()` would show. -/
def World.shown (w : World) : State := (statusOf w.storage w.proxy.effective w.webRTC.effective).state

omit [Platform] [Browser] in
/-- `errorOrActive` looks at the stored error alone. -/
theorem errorOrActive_state {base base' : State → Status} (h : ∀ st, (base st).state = st)
    (h' : ∀ st, (base' st).state = st) {data data' : Storage}
    (he : data.proxyError = data'.proxyError) :
    (errorOrActive base data).state = (errorOrActive base' data').state := by
  rw [errorOrActive, errorOrActive, he]
  cases data'.proxyError with
  | none => exact (h _).trans (h' _).symm
  | some e => exact (h _).trans (h' _).symm

omit [Platform] in
theorem enabledStatusOf_state {base base' : State → Status} (h : ∀ st, (base st).state = st)
    (h' : ∀ st, (base' st).state = st) {data data' : Storage}
    (he : data.proxyError = data'.proxyError) (c : Connection) (l : List JsString)
    (proxy : Bool → Setting ProxyConfig) (webRTC : Bool → Setting WebRTCPolicy) :
    (enabledStatusOf base data c l proxy webRTC).state =
      (enabledStatusOf base' data' c l proxy webRTC).state := by
  unfold enabledStatusOf routeStatus
  split
  · exact (h _).trans (h' _).symm
  split
  · exact (h _).trans (h' _).symm
  split
  · exact (h _).trans (h' _).symm
  split
  · exact (h _).trans (h' _).symm
  split
  · exact (h _).trans (h' _).symm
  split
  · exact (h _).trans (h' _).symm
  · exact errorOrActive_state h h' he

omit [Platform] [Browser] in
theorem disabledStatus_state {base base' : State → Status} (h : ∀ st, (base st).state = st)
    (h' : ∀ st, (base' st).state = st) (setting : Setting ProxyConfig)
    (webRTC : Setting WebRTCPolicy) :
    (disabledStatus base setting webRTC).state = (disabledStatus base' setting webRTC).state := by
  unfold disabledStatus
  split
  · exact (h _).trans (h' _).symm
  · exact (h _).trans (h' _).symm

/-- The same gist and the same settings show the same state. -/
theorem state_of_gist {data data' : Storage} (h : data.gist = data'.gist)
    (proxy : Bool → Setting ProxyConfig) (webRTC : Bool → Setting WebRTCPolicy) :
    (statusOf data proxy webRTC).state = (statusOf data' proxy webRTC).state := by
  rcases hconf : configured data.toConfig with e | ⟨_ | c, l⟩ <;>
    rcases hconf' : configured data'.toConfig with e' | ⟨_ | c', l'⟩ <;>
    simp only [Storage.gist, hconf, hconf', reduceCtorEq, Gist.configured.injEq] at h
  · simp [statusOf, hconf, hconf']
  · simp [statusOf, hconf, hconf', baseStatus]
  · obtain ⟨rfl, rfl, henabled, herror⟩ := h
    simp only [statusOf, hconf, hconf', henabled]
    split
    · exact disabledStatus_state (fun _ => rfl) (fun _ => rfl) _ _
    · exact enabledStatusOf_state (fun _ => rfl) (fun _ => rfl) herror _ _ _ _

/-- A proxy error that comes can turn an active route into an error and nothing
else. -/
theorem state_of_error {data data' : Storage} (hconfig : data.toConfig = data'.toConfig)
    (herror : data.proxyError ≠ none → data'.proxyError ≠ none)
    (proxy : Bool → Setting ProxyConfig) (webRTC : Bool → Setting WebRTCPolicy) :
    (statusOf data' proxy webRTC).state = (statusOf data proxy webRTC).state ∨
      (statusOf data proxy webRTC).state = .active ∧
        (statusOf data' proxy webRTC).state = .error ∧ data'.gist.failed = true := by
  rcases hconf : configured data.toConfig with e | ⟨_ | c, l⟩
  · left
    simp [statusOf, ← hconfig, hconf]
  · left
    simp [statusOf, ← hconfig, hconf, baseStatus]
  · have henabled : data'.isEnabled = data.isEnabled := by rw [hconfig]
    simp only [statusOf, ← hconfig, hconf]
    split
    · left
      exact disabledStatus_state (fun _ => rfl) (fun _ => rfl) _ _
    · rename_i hen
      unfold enabledStatusOf routeStatus
      -- Only the last branch looks at the stored error.
      split
      · exact Or.inl rfl
      split
      · exact Or.inl rfl
      split
      · exact Or.inl rfl
      split
      · exact Or.inl rfl
      split
      · exact Or.inl rfl
      split
      · exact Or.inl rfl
      · unfold errorOrActive
        rcases hdata : data.proxyError with _ | e <;> rcases hdata' : data'.proxyError with _ | e'
        · exact Or.inl rfl
        · right
          refine ⟨rfl, rfl, ?_⟩
          rw [gist_of_some (hconfig ▸ hconf), Gist.failed, ← hconfig, hdata']
          simpa using hen
        · exact absurd hdata' (herror (by simp [hdata]))
        · exact Or.inl rfl

end

end BrowserVpn
