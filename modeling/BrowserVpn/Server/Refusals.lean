import BrowserVpn.Server.Destinations

/-!
# Server.Refusals — the status of a refusal

`writeDestinationError` has only the error of `destinations` to tell why there is
no target, and for two causes it looks at the text. A lookup that fails puts the
resolver's text into it, and the resolver quotes the name that it looked up.
-/

namespace BrowserVpn

open Data

/-! ## The handler -/

/-- `strings.Contains`. -/
def containsText (s text : GoString) : Bool := decide (text <:+: s)

/-- `writeDestinationError`: the status and the text of the answer. -/
def writeDestinationError (err : DestinationError) : Nat × GoString :=
  match err with
  | .selfUnavailable _ => (502, go "proxy address guard is unavailable")
  | _ =>
      if err = .forbidden || containsText err.message (go "blocked") then
        (403, go "destination is blocked")
      else if (go "resolve destination:").isPrefixOf err.message then
        (502, go "destination lookup failed")
      else (400, go "invalid destination")

/-- A text that begins with a byte that `front` does not have begins after it. -/
theorem infix_append_iff {front rest text : GoString} {b : UInt8} (hb : b ∉ front) :
    b :: text <:+: front ++ rest ↔ b :: text <:+: rest := by
  constructor
  · rintro ⟨before, after, h⟩
    rw [List.append_assoc] at h
    rcases List.append_eq_append_iff.1 h with ⟨a, hfront, hrest⟩ | ⟨c, -, hrest⟩
    · cases a with
      | nil => exact ⟨[], after, by simpa using hrest⟩
      | cons x a =>
          -- the text would begin inside `front`
          obtain rfl : b = x := by simpa using congrArg List.head? hrest
          exact absurd (by rw [hfront]; simp) hb
    · exact ⟨c, after, by rw [List.append_assoc, hrest]⟩
  · rintro ⟨before, after, rfl⟩
    exact ⟨front ++ before, after, by simp⟩

/-- The status for a lookup that failed depends on what the resolver wrote. -/
theorem writeDestinationError_lookup (detail : GoString) :
    (writeDestinationError (.lookup detail)).1 =
      if containsText detail (go "blocked") then 403 else 502 := by
  have hblocked : go "blocked" = 98 :: go "locked" := by decide +kernel
  have hfront : (98 : UInt8) ∉ go "resolve destination: " := by decide +kernel
  have hcontains : containsText (DestinationError.lookup detail).message (go "blocked") =
      containsText detail (go "blocked") := by
    rw [containsText, containsText, hblocked, DestinationError.message]
    exact decide_eq_decide.2 (infix_append_iff hfront)
  have hprefix : (go "resolve destination:").isPrefixOf (DestinationError.lookup detail).message =
      true := by
    have hsplit : go "resolve destination: " = go "resolve destination:" ++ go " " := by
      decide +kernel
    rw [List.isPrefixOf_iff_prefix, DestinationError.message, hsplit, List.append_assoc]
    exact List.prefix_append _ _
  rw [writeDestinationError]
  · simp only [hcontains, hprefix]
    by_cases h : containsText detail (go "blocked") = true
    · simp [h]
    · simp [h]
  · intro detail h
    cases h

/-! ## Causes -/

/-- The authority names a host, and a port by its number. -/
structure Names (authority defaultPort host port : GoString) (n : Int) : Prop where
  ne_nil : authority ≠ []
  clean : ∀ b ∈ authority, b ∉ forbiddenBytes
  split : splitAuthority authority defaultPort = .ok (host, port)
  host_ne : host ≠ []
  host_ne_dot : host ≠ go "."
  percent_notMem : 37 ∉ host
  number : atoi port = some n
  range : 1 ≤ n ∧ n ≤ 65535

/-- The authority is malformed. -/
def Malformed (authority defaultPort : GoString) : Prop :=
  ¬ ∃ host port n, Names authority defaultPort host port n

/-- The errors of `splitTarget` for what it cannot read. -/
def malformedMessages : List GoString :=
  [go "invalid target", go "invalid target address", go "invalid target host",
    go "invalid target port"]

theorem splitTarget_of_names {authority defaultPort host port : GoString} {n : Int}
    (h : Names authority defaultPort host port n) :
    splitTarget authority defaultPort =
      if n ∈ allowedPorts then .ok (host, port) else .error (go "destination port is blocked") := by
  obtain ⟨hlow, hhigh⟩ := h.range
  have hok : (host.isEmpty || host = go "." || host.contains 37) = false := by
    simp [h.host_ne, h.host_ne_dot, h.percent_notMem]
  have hvalue : (n < 1 || n > 65535) = false := by
    simp only [Bool.or_eq_false_iff, decide_eq_false_iff_not]
    omega
  rw [splitTarget_of_clean h.ne_nil h.clean h.split]
  simp only [checkTarget, hok, h.number, hvalue]
  by_cases hallowed : n ∈ allowedPorts
  · simp [hallowed]
  · simp [hallowed]

theorem splitTarget_of_malformed {authority defaultPort : GoString}
    (h : Malformed authority defaultPort) :
    ∃ message ∈ malformedMessages, splitTarget authority defaultPort = .error message := by
  rw [splitTarget]
  split
  · exact ⟨_, by simp [malformedMessages], rfl⟩
  rename_i hclean
  simp only [Bool.or_eq_true, not_or, List.isEmpty_iff, Bool.not_eq_true,
    containsAny_eq_false] at hclean
  split
  · rename_i message hsplit
    refine ⟨message, ?_, rfl⟩
    rw [splitAuthority] at hsplit
    split at hsplit
    · cases hsplit
    split at hsplit
    · split at hsplit
      · cases hsplit
        simp [malformedMessages]
      · cases hsplit
    · cases hsplit
  rename_i host port hsplit
  rw [checkTarget]
  split
  · exact ⟨_, by simp [malformedMessages], rfl⟩
  rename_i hhost
  simp only [Bool.or_eq_true, not_or, List.isEmpty_iff, decide_eq_true_eq,
    List.contains_iff_mem] at hhost
  split
  · exact ⟨_, by simp [malformedMessages], rfl⟩
  rename_i n hn
  split
  · exact ⟨_, by simp [malformedMessages], rfl⟩
  rename_i hrange
  simp only [Bool.or_eq_true, not_or, decide_eq_true_eq] at hrange
  exact absurd ⟨host, port, n, hclean.1, hclean.2, hsplit, hhost.1.1, hhost.1.2, hhost.2, hn,
    by omega, by omega⟩ h

section

variable [Netip] [Unicode]

/-- What `destinations` is given. -/
structure Asked where
  config : GuardConfig
  /-- What the guard returned, with the text of its error. -/
  guard : Except GoString (Finset Addr)
  lookup : GoString → Except GoString (List Addr)
  authority : GoString
  defaultPort : GoString

namespace Asked

/-- The errors of the guard are `errSelfUnavailable` with a text. -/
def guarded (q : Asked) : Except DestinationError (Finset Addr) :=
  q.guard.mapError .selfUnavailable

def destinations (q : Asked) : Except DestinationError (List GoString) :=
  BrowserVpn.destinations q.config q.guarded q.lookup q.authority q.defaultPort

/-- The authority names an allowed port of a host. -/
def Target (q : Asked) (host : GoString) : Prop :=
  ∃ port n, Names q.authority q.defaultPort host port n ∧ n ∈ allowedPorts

/-- The port is a number outside the allowed set. -/
def PortBlocked (q : Asked) : Prop :=
  ∃ host port n, Names q.authority q.defaultPort host port n ∧ n ∉ allowedPorts

/-- The host is the proxy itself. -/
def OwnHost (q : Asked) : Prop := ∃ host, q.Target host ∧ isOwnHost q.config host = true

/-- The host of the target, when it is not the proxy, so that the guard is asked. -/
def Other (q : Asked) (host : GoString) : Prop := q.Target host ∧ isOwnHost q.config host = false

def GuardUnavailable (q : Asked) : Prop := ∃ host text, q.Other host ∧ q.guard = .error text

/-- The name of the host is looked up, with this result. -/
def LookedUp (q : Asked) (result : Except GoString (List Addr)) : Prop :=
  ∃ host self, q.Other host ∧ q.guard = .ok self ∧ Netip.parseAddr host = none ∧
    q.lookup host = result

def LookupFailed (q : Asked) : Prop := ∃ text, q.LookedUp (.error text)

/-- No address of the host, as it stands there or as it was looked up, is public
and not the proxy. -/
def NoneAdmissible (q : Asked) : Prop :=
  ∃ host self, q.Other host ∧ q.guard = .ok self ∧
    ((∃ address, Netip.parseAddr host = some address ∧ admissible self address = false) ∨
      Netip.parseAddr host = none ∧ ∃ addrs, q.lookup host = .ok addrs ∧
        ∀ address ∈ addrs, admissible self address = false)

/-- A failing call is answered by its cause. -/
def Classified (q : Asked) : Prop :=
  ∀ err, q.destinations = .error err →
    (q.GuardUnavailable ∨ q.LookupFailed → (writeDestinationError err).1 = 502) ∧
    ((writeDestinationError err).1 = 403 ↔ q.OwnHost ∨ q.PortBlocked ∨ q.NoneAdmissible) ∧
    (Malformed q.authority q.defaultPort → (writeDestinationError err).1 = 400)

variable {q : Asked}

/-! ### The error for each cause -/

theorem destinations_of_malformed (h : Malformed q.authority q.defaultPort) :
    ∃ message ∈ malformedMessages, q.destinations = .error (.invalid message) := by
  obtain ⟨message, hmessage, hsplit⟩ := splitTarget_of_malformed h
  exact ⟨message, hmessage, by rw [destinations, BrowserVpn.destinations, hsplit]⟩

theorem destinations_of_portBlocked (h : q.PortBlocked) :
    q.destinations = .error (.invalid (go "destination port is blocked")) := by
  obtain ⟨host, port, n, hnames, hblocked⟩ := h
  rw [destinations, BrowserVpn.destinations, splitTarget_of_names hnames, if_neg hblocked]

/-- With a target, the rest of `destinations` is about its host. -/
theorem destinations_of_target {host : GoString} (h : q.Target host) :
    ∃ port, q.destinations =
      if isOwnHost q.config host then .error .forbidden
      else match q.guarded with
        | .error err => .error err
        | .ok self =>
            match Netip.parseAddr host with
            | some literal =>
                if !publicAddress literal || isSelfAddress self literal then .error .forbidden
                else .ok [dialTarget port literal]
            | none =>
                match q.lookup host with
                | .error err => .error (.lookup err)
                | .ok addrs =>
                    let targets := (addrs.filter (admissible self)).map (dialTarget port)
                    if targets.isEmpty then .error .forbidden else .ok targets := by
  obtain ⟨port, n, hnames, hallowed⟩ := h
  refine ⟨port, ?_⟩
  rewrite [destinations, BrowserVpn.destinations, splitTarget_of_names hnames, if_pos hallowed]
  rfl

theorem destinations_of_ownHost (h : q.OwnHost) : q.destinations = .error .forbidden := by
  obtain ⟨host, htarget, hown⟩ := h
  obtain ⟨port, heq⟩ := destinations_of_target htarget
  rw [heq, if_pos hown]

theorem destinations_of_guardUnavailable (h : q.GuardUnavailable) :
    ∃ text, q.destinations = .error (.selfUnavailable text) := by
  obtain ⟨host, text, ⟨htarget, hother⟩, hguard⟩ := h
  obtain ⟨port, heq⟩ := destinations_of_target htarget
  refine ⟨text, ?_⟩
  rw [heq, guarded, hguard]
  simp [hother, Except.mapError]

theorem destinations_of_lookupFailed {text : GoString} (h : q.LookedUp (.error text)) :
    q.destinations = .error (.lookup text) := by
  obtain ⟨host, self, ⟨htarget, hother⟩, hguard, hparse, hlookup⟩ := h
  obtain ⟨port, heq⟩ := destinations_of_target htarget
  rw [heq, guarded, hguard, hparse, hlookup]
  simp [hother, Except.mapError]

theorem destinations_of_noneAdmissible (h : q.NoneAdmissible) :
    q.destinations = .error .forbidden := by
  obtain ⟨host, self, ⟨htarget, hother⟩, hguard, hnone⟩ := h
  obtain ⟨port, heq⟩ := destinations_of_target htarget
  rw [heq, guarded, hguard]
  rcases hnone with ⟨address, hparse, hbad⟩ | ⟨hparse, addrs, hlookup, hbad⟩
  · have hrefused : (!publicAddress address || isSelfAddress self address) = true := by
      rw [admissible] at hbad
      cases hpub : publicAddress address
      · rfl
      · simpa [hpub] using hbad
    rw [hparse]
    simp [hother, Except.mapError, hrefused]
  · have hempty : addrs.filter (admissible self) = [] := by
      rw [List.filter_eq_nil_iff]
      intro address hmem
      simp [hbad address hmem]
    rw [hparse, hlookup]
    simp [hother, Except.mapError, hempty]

/-- A call that fails has one of these causes. -/
theorem cause_of_error {err : DestinationError} (h : q.destinations = .error err) :
    Malformed q.authority q.defaultPort ∨ q.PortBlocked ∨ q.OwnHost ∨ q.GuardUnavailable ∨
      (∃ text, q.LookedUp (.error text)) ∨ q.NoneAdmissible := by
  by_cases hnames : ∃ host port n, Names q.authority q.defaultPort host port n
  · obtain ⟨host, port, n, hnames⟩ := hnames
    by_cases hallowed : n ∈ allowedPorts
    · have htarget : q.Target host := ⟨port, n, hnames, hallowed⟩
      obtain ⟨port, heq⟩ := destinations_of_target htarget
      rw [heq] at h
      cases hown : isOwnHost q.config host with
      | true => exact Or.inr (Or.inr (Or.inl ⟨host, htarget, hown⟩))
      | false =>
          have hother : q.Other host := ⟨htarget, hown⟩
          cases hguard : q.guard with
          | error text => exact Or.inr (Or.inr (Or.inr (Or.inl ⟨host, text, hother, hguard⟩)))
          | ok self =>
              simp only [hown, guarded, hguard, Except.mapError] at h
              cases hparse : Netip.parseAddr host with
              | some address =>
                  refine Or.inr (Or.inr (Or.inr (Or.inr (Or.inr
                    ⟨host, self, hother, hguard, Or.inl ⟨address, hparse, ?_⟩⟩))))
                  rw [Bool.eq_false_iff]
                  intro hgood
                  simp only [admissible, Bool.and_eq_true, Bool.not_eq_true'] at hgood
                  simp [hparse, hgood.1, hgood.2] at h
              | none =>
                  cases hlookup : q.lookup host with
                  | error text =>
                      exact Or.inr (Or.inr (Or.inr (Or.inr (Or.inl
                        ⟨text, host, self, hother, hguard, hparse, hlookup⟩))))
                  | ok addrs =>
                      refine Or.inr (Or.inr (Or.inr (Or.inr (Or.inr
                        ⟨host, self, hother, hguard, Or.inr ⟨hparse, addrs, hlookup, ?_⟩⟩))))
                      intro address hmem
                      rw [Bool.eq_false_iff]
                      intro hgood
                      have hne : addrs.filter (admissible self) ≠ [] := by
                        intro hempty
                        rw [List.filter_eq_nil_iff] at hempty
                        exact hempty address hmem hgood
                      simp [hparse, hlookup, hne] at h
    · exact Or.inr (Or.inl ⟨host, port, n, hnames, hallowed⟩)
  · exact Or.inl hnames

/-! ### The status for each cause -/

theorem status_of_malformed {err : DestinationError} (h : Malformed q.authority q.defaultPort)
    (herr : q.destinations = .error err) : (writeDestinationError err).1 = 400 := by
  have hmessages : ∀ message ∈ malformedMessages,
      (writeDestinationError (.invalid message)).1 = 400 := by decide +kernel
  obtain ⟨message, hmessage, heq⟩ := destinations_of_malformed h
  obtain rfl := Except.error.inj (herr.symm.trans heq)
  exact hmessages message hmessage

theorem status_of_forbidden {err : DestinationError}
    (h : q.OwnHost ∨ q.PortBlocked ∨ q.NoneAdmissible) (herr : q.destinations = .error err) :
    (writeDestinationError err).1 = 403 := by
  rcases h with h | h | h
  · obtain rfl := Except.error.inj (herr.symm.trans (destinations_of_ownHost h))
    rfl
  · obtain rfl := Except.error.inj (herr.symm.trans (destinations_of_portBlocked h))
    decide +kernel
  · obtain rfl := Except.error.inj (herr.symm.trans (destinations_of_noneAdmissible h))
    rfl

theorem status_of_guardUnavailable {err : DestinationError} (h : q.GuardUnavailable)
    (herr : q.destinations = .error err) : (writeDestinationError err).1 = 502 := by
  obtain ⟨text, heq⟩ := destinations_of_guardUnavailable h
  obtain rfl := Except.error.inj (herr.symm.trans heq)
  rfl

/-- Refusals are classified by their cause unless the resolver's text says `blocked`. -/
theorem classified_iff (q : Asked) :
    q.Classified ↔
      ¬ ∃ text, q.LookedUp (.error text) ∧ containsText text (go "blocked") = true := by
  constructor
  · rintro h ⟨text, hlookup, hblocked⟩
    have herr := destinations_of_lookupFailed hlookup
    have hstatus := (h _ herr).1 (Or.inr ⟨text, hlookup⟩)
    rw [writeDestinationError_lookup, if_pos hblocked] at hstatus
    exact absurd hstatus (by decide)
  · intro hclean err herr
    have hfailed : ∀ text, q.LookedUp (.error text) → (writeDestinationError err).1 = 502 := by
      intro text hlookup
      obtain rfl := Except.error.inj (herr.symm.trans (destinations_of_lookupFailed hlookup))
      rw [writeDestinationError_lookup, if_neg fun hblocked => hclean ⟨text, hlookup, hblocked⟩]
    refine ⟨?_, ⟨?_, fun h => status_of_forbidden h herr⟩, fun h => status_of_malformed h herr⟩
    · rintro (h | ⟨text, hlookup⟩)
      · exact status_of_guardUnavailable h herr
      · exact hfailed text hlookup
    · -- the causes of another status
      intro hstatus
      rcases cause_of_error herr with h | h | h | h | ⟨text, h⟩ | h
      · rw [status_of_malformed h herr] at hstatus
        exact absurd hstatus (by decide)
      · exact Or.inr (Or.inl h)
      · exact Or.inl h
      · rw [status_of_guardUnavailable h herr] at hstatus
        exact absurd hstatus (by decide)
      · rw [hfailed text h] at hstatus
        exact absurd hstatus (by decide)
      · exact Or.inr (Or.inr h)

end Asked

end

/-! ## The errors of the guard -/

namespace Guard

variable [Netip] {config : GuardConfig} {g : Guard} {ls : List GuardLabel}

/-- Any error of a phase is `errSelfUnavailable`. -/
def Unavailable (p : CallPhase) : Prop :=
  ∀ err, p = .done (.error err) → ∃ text, err = .selfUnavailable text

omit [Netip] in
theorem unavailable_checkPublic (self : Finset Addr) : Unavailable (checkPublic self) := by
  intro err h
  rw [checkPublic] at h
  split at h
  · cases h
  · cases h
    exact ⟨_, rfl⟩

theorem Moves.unavailable {known : Known} {l : GuardLabel} {p p' : CallPhase}
    (h : Moves config known l p p') : Unavailable p' := by
  intro err herr
  cases h with
  | call id =>
      simp only [startGuard] at herr
      split at herr
      · cases herr
      · split at herr
        · exact unavailable_checkPublic _ err herr
        · cases herr
  | decide id now self =>
      rw [decideLookup] at herr
      split at herr <;> cases herr
  | lookup id self result => cases herr
  | update id cancelled now self result => cases herr
  | read id self lookupErr =>
      cases lookupErr with
      | none => exact unavailable_checkPublic _ err herr
      | some text =>
          rw [readKnown] at herr
          split at herr
          · cases herr
            exact ⟨_, rfl⟩
          · exact unavailable_checkPublic _ err herr
  | locals id self result =>
      cases result with
      | error text =>
          cases herr
          exact ⟨_, rfl⟩
      | ok addresses => cases herr

/-- What a call of the guard returns in a run is of the form that `Asked` gives it. -/
theorem guarded_of_run (h : Run (step config) init ls g) {id : Nat}
    {result : Except DestinationError (Finset Addr)} (hdone : g.phase id = .done result) :
    ∃ guard : Except GoString (Finset Addr), result = guard.mapError .selfUnavailable := by
  have hall : ∀ id, Unavailable (g.phase id) := by
    refine h.invariant (P := fun g => ∀ id, Unavailable (g.phase id)) (fun {s l t} hstep hs => ?_)
      fun id err herr => ?_
    · intro id
      have hstepped := step_cases hstep
      by_cases hactor : id = actor l
      · rw [hactor]
        exact hstepped.moves.unavailable
      · rw [hstepped.others id hactor]
        exact hs id
    · cases herr
  cases result with
  | ok self => exact ⟨.ok self, rfl⟩
  | error err =>
      obtain ⟨text, rfl⟩ := hall id err hdone
      exact ⟨.error text, rfl⟩

end Guard

section

attribute [local instance] Netip.sample Unicode.sample

/-- A name that is not found and that says `blocked`. -/
def Asked.blockedName : Asked where
  config := ⟨go "proxy.test", []⟩
  guard := .ok ∅
  lookup host := .error (go "lookup " ++ host ++ go ": no such host")
  authority := go "blocked.example.com:443"
  defaultPort := []

theorem Asked.blockedName_not_classified : ¬ Asked.blockedName.Classified := by
  intro h
  have hnames : Names (go "blocked.example.com:443") [] (go "blocked.example.com") (go "443") 443 :=
    ⟨by decide +kernel, by decide +kernel, by decide +kernel, by decide +kernel, by decide +kernel,
      by decide +kernel, by decide +kernel, by decide⟩
  have hlookup : blockedName.LookedUp (.error (go "lookup blocked.example.com: no such host")) :=
    ⟨go "blocked.example.com", ∅, ⟨⟨go "443", 443, hnames, by decide⟩, by decide +kernel⟩, rfl,
      by decide +kernel, by decide +kernel⟩
  have hstatus := (h _ (destinations_of_lookupFailed hlookup)).1 (Or.inr ⟨_, hlookup⟩)
  rw [writeDestinationError_lookup] at hstatus
  exact absurd hstatus (by decide +kernel)

end

end BrowserVpn
