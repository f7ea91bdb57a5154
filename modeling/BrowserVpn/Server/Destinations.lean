import BrowserVpn.Server.Guard
import BrowserVpn.Server.Target

/-!
# Server.Destinations — where a request may go

`destinations` takes the authority of a request to the addresses that are dialed
for it: the literal itself, or the public addresses that its name resolves to,
without those of the proxy. It needs the set of `selfAddresses` and has no target
without it.
-/

namespace BrowserVpn

open Data

/-- `isSelfAddress`. -/
def isSelfAddress (self : Finset Addr) (address : Addr) : Bool := address.unmap ∈ self

/-- Public and not the proxy itself. -/
def admissible (self : Finset Addr) (address : Addr) : Bool :=
  publicAddress address && !isSelfAddress self address

section

variable [Netip]

/-- The target that is dialed for an address. -/
def dialTarget (port : GoString) (address : Addr) : GoString :=
  joinHostPort (Netip.text address.unmap) port

variable [Unicode]

/-- The host of a request is the name of the proxy, up to case and a trailing dot. -/
def isOwnHost (config : GuardConfig) (host : GoString) : Bool :=
  config.selfHost ≠ [] &&
    equalFold (trimSuffix host (go ".")) (trimSuffix config.selfHost (go "."))

/-- `destinations`, with the result of its call of `selfAddresses` and what `lookup`
answers. -/
def destinations (config : GuardConfig) (guard : Except DestinationError (Finset Addr))
    (lookup : GoString → Except GoString (List Addr)) (authority defaultPort : GoString) :
    Except DestinationError (List GoString) :=
  match splitTarget authority defaultPort with
  | .error message => .error (.invalid message)
  | .ok (host, port) =>
      if isOwnHost config host then .error .forbidden
      else match guard with
        | .error err => .error err
        | .ok self =>
            match Netip.parseAddr host with
            | some literal =>
                if !publicAddress literal || isSelfAddress self literal then .error .forbidden
                else .ok [dialTarget port literal]
            | none =>
                match lookup host with
                | .error err => .error (.lookup err)
                | .ok addrs =>
                    let targets := (addrs.filter (admissible self)).map (dialTarget port)
                    if targets.isEmpty then .error .forbidden else .ok targets

/-- Without the guard there are no targets. -/
theorem destinations_of_error (config : GuardConfig) (e : DestinationError)
    (lookup : GoString → Except GoString (List Addr)) (authority defaultPort : GoString)
    (targets : List GoString) :
    destinations config (.error e) lookup authority defaultPort ≠ .ok targets := by
  intro h
  rw [destinations] at h
  split at h
  · cases h
  split at h <;> cases h

/-! ## The guard over all runs -/

namespace Guard

variable {config : GuardConfig} {g : Guard} {ls : List GuardLabel}

/-- What holds of the guard after a run of calls. -/
structure Guards (config : GuardConfig) (ls : List GuardLabel) (g : Guard) : Prop where
  /-- A call that starts after a lookup was recorded has its addresses. -/
  remembers : ∀ before between rest id other cancelled now addresses self,
    ls = before ++ .update id cancelled now :: (between ++ .call other :: rest) →
    .lookup id (.ok addresses) ∈ before → g.phase other = .done (.ok self) →
      ∀ a ∈ addresses, a.unmap ∈ self
  /-- All sets have the addresses of the flags and of the interfaces, -/
  contains : ∀ id self, g.phase id = .done (.ok self) → (∀ a ∈ config.extraSelf, a.unmap ∈ self) ∧
    ∃ addresses, .locals id (.ok addresses) ∈ ls ∧ ∀ a ∈ addresses, a.unmap ∈ self
  /-- and a public one. -/
  isPublic : config.selfHost ≠ [] → ∀ id self, g.phase id = .done (.ok self) →
    ∃ a ∈ self, publicAddress a = true
  /-- While nothing was found, a call whose lookup fails has no set and no target. -/
  failsClosed : FoundNothing ls → ∀ id err result, .lookup id (.error err) ∈ ls →
    g.phase id = .done result → ∃ e, result = .error e ∧
      ∀ lookup authority defaultPort targets,
        destinations config result lookup authority defaultPort ≠ .ok targets
  /-- Such a call can be brought to its end by steps of its own. -/
  ends : FoundNothing ls → ∀ id err, .lookup id (.error err) ∈ ls → ∃ rest g' e,
    Run (step config) g rest g' ∧ (∀ l ∈ rest, actor l = id) ∧ g'.phase id = .done (.error e)

/-- Over every run of concurrent calls the guard forgets nothing and fails closed. -/
theorem guards_of_run (h : Run (step config) init ls g) : Guards config ls g := by
  have hsub : ∀ {addresses : List Addr} {self : Finset Addr}, unmapped addresses ⊆ self →
      ∀ a ∈ addresses, a.unmap ∈ self := fun hs a ha => hs (mem_unmapped.2 ⟨a, ha, rfl⟩)
  refine ⟨?_, fun id self hdone => ⟨?_, ?_⟩, fun hhost id self hdone => ?_, ?_,
    fun hfound id err hmem => call_fails h hfound hmem⟩
  · rintro before between rest id other cancelled now addresses self rfl hlookup hdone
    exact hsub (remembers_of_run h hlookup hdone)
  · have hall := run_all (K := ∅) (i := id) (fun known _ => keeps_extraSelf known) h
      (Finset.empty_subset _) trivial
    rw [hdone] at hall
    exact hsub hall
  · obtain ⟨addresses, hmem, hlocals⟩ := locals_of_done h hdone
    exact ⟨addresses, hmem, hsub hlocals⟩
  · have hall := run_all (K := ∅) (i := id) (fun known _ => keeps_public hhost known) h
      (Finset.empty_subset _) trivial
    rw [hdone] at hall
    exact hall
  · intro hfound id err result hmem hdone
    obtain ⟨e, rfl⟩ := failed_of_run h hfound hmem hdone
    exact ⟨e, rfl, destinations_of_error config e⟩

end Guard

end

section

attribute [local instance] Netip.sample Unicode.sample

def GuardConfig.sample : GuardConfig := ⟨go "proxy.test", []⟩

/-- A call that looks the name of the proxy up, and another that does not. -/
def Guard.sampleRun : List GuardLabel :=
  [.call 0, .decide 0 1, .lookup 0 (.ok [.v4 0x08080808#32]), .update 0 false 2, .call 1, .read 0,
    .decide 1 3, .locals 0 (.ok []), .lookup 1 (.error (go "timeout")), .update 1 false 4, .read 1,
    .locals 1 (.ok [])]

theorem Guard.guards_of_run_sample : ∃ g, Guards .sample sampleRun g := by
  have hsome : (follow (step .sample) init sampleRun).isSome = true := by decide +kernel
  obtain ⟨g, hg⟩ := Option.isSome_iff_exists.1 hsome
  exact ⟨g, guards_of_run (.of_follow hg)⟩

end

end BrowserVpn
