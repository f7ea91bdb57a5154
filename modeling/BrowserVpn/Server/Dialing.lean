import BrowserVpn.Server.Serve

/-!
# Server.Dialing — only vetted destinations are dialed

A request dials what `destinations` returned for it. Each call of `dialDestinations`
takes the targets in their order, each once and up to the first success; `connect` makes
one such call, and the transport of `forwardHTTP` one whenever it asks for a connection.
It holds at every moment of a request, whatever the lookups, the guard and the dials
answer.
-/

namespace BrowserVpn.Serve

open Async Data

abbrev History := List (Move api Site)

/-- The target of a dial, and whether it succeeded. -/
def dialed : Move api Site → Option (GoString × Bool)
  | ⟨_, .dial target, .ok (.ok _), _⟩ => some (target, true)
  | ⟨_, .dial target, _, _⟩ => some (target, false)
  | _ => none

def dials (ms : History) : List (GoString × Bool) := ms.filterMap dialed

/-- The transport asks for a connection. -/
def asksConnection : Move api Site → Bool
  | ⟨_, .dialContext, _, _⟩ => true
  | _ => false

/-- What each call of `dialDestinations` has dialed. The first is that of `connect`; any
other follows a call of `DialContext`. -/
def attempts (ms : History) : List (List (GoString × Bool)) := (ms.splitOnP asksConnection).map dials

/-- One call of `dialDestinations`, so far: the targets from the first on, each once,
and none after a success. -/
structure Tries (targets : List GoString) (attempt : List (GoString × Bool)) : Prop where
  inOrder : attempt.map Prod.fst <+: targets
  failed : ∀ d ∈ attempt.dropLast, d.2 = false

section

variable [Netip] [Unicode]

/-- The targets of a host: the literal, or the admissible ones of the addresses that
the lookup answered. -/
inductive Resolved (ms : History) (self : Finset Addr) (host port : GoString) :
    List GoString → Prop where
  | literal {a : Addr} (hliteral : Netip.parseAddr host = some a)
      (hadmissible : admissible self a = true) : Resolved ms self host port [dialTarget port a]
  | name {addrs : List Addr} {s s' : Site} (hname : Netip.parseAddr host = none)
      (hlookup : ⟨s, .lookup host, .ok (.ok addrs), s'⟩ ∈ ms) :
      Resolved ms self host port ((addrs.filter (admissible self)).map (dialTarget port))

/-- `targets` are the destinations of an authority, with the set that the request's
guard ended with. -/
def Vetted (config : GuardConfig) (id : Nat) (authority defaultPort : GoString)
    (x : Site × History) (targets : List GoString) : Prop :=
  ∃ host port self, splitTarget authority defaultPort = .ok (host, port) ∧
    isOwnHost config host = false ∧ x.1.guard.phase id = .done (.ok self) ∧
    Resolved x.2 self host port targets

/-- Where the request asks to go, and the port if it names none. -/
inductive Request.Asks (r : Request) : GoString → GoString → Prop where
  | connect (hmethod : r.method = go "CONNECT") : r.Asks r.host []
  | forward {url : Url} (hmethod : r.method ≠ go "CONNECT") (hurl : r.url = some url)
      (hscheme : url.scheme = go "http") : r.Asks url.host (go "80")

/-- Each call of `dialDestinations` has dialed targets, and `connect` has made one. -/
structure Ready (config : GuardConfig) (id : Nat) (r : Request) (authority defaultPort : GoString)
    (targets : List GoString) (x : Site × History) : Prop where
  vetted : Vetted config id authority defaultPort x targets
  tries : ∀ attempt ∈ attempts x.2, Tries targets attempt
  connect : r.method = go "CONNECT" → attempts x.2 = [dials x.2]

/-- What a request has dialed so far, if anything. -/
def Served (allowed : Bool) (config : GuardConfig) (id : Nat) (r : Request) (x : Site × History) :
    Prop :=
  dials x.2 = [] ∨ allowed = true ∧ ∃ authority defaultPort targets, r.Asks authority defaultPort ∧
    Ready config id r authority defaultPort targets x

abbrev logic (allowed : Bool) (config : GuardConfig) (id : Nat) (r : Request) :
    Logic api (Site × History) :=
  .alone (effect config id).recorded fun _ x => Served allowed config id r x

/-- A dial, or the beginning of a call that dials. -/
def Call.connects : Call → Bool
  | .dial _ | .dialContext => true
  | _ => false

section

omit [Netip] [Unicode]

theorem dials_concat (ms : History) (m : Move api Site) :
    dials (ms ++ [m]) = dials ms ++ (dialed m).toList := by
  rw [dials, List.filterMap_append]
  cases h : dialed m <;> simp [dials, h]

theorem attempts_asks (ms : History) {m : Move api Site} (hm : asksConnection m = true) :
    attempts (ms ++ [m]) = attempts ms ++ [[]] := by
  rw [attempts, List.splitOnP_append_cons ms [] hm, List.map_append]
  rfl

/-- Any other move belongs to the last call. -/
theorem attempts_concat (ms : History) {m : Move api Site} (hm : asksConnection m = false) :
    ∃ before last, attempts ms = before ++ [last] ∧
      attempts (ms ++ [m]) = before ++ [last ++ (dialed m).toList] := by
  rcases splitOnP_concat asksConnection ms hm with ⟨before, last, hbefore, hafter⟩
  refine ⟨before.map dials, dials last, ?_, ?_⟩
  · rw [attempts, hbefore, List.map_append]
    rfl
  · rw [attempts, hafter, List.map_append, ← dials_concat]
    rfl

theorem flatten_attempts (ms : History) : (attempts ms).flatten = dials ms := by
  induction ms using List.reverseRecOn with
  | nil => rfl
  | append_singleton ms m ih =>
      rw [dials_concat, ← ih]
      cases hm : asksConnection m with
      | true =>
          -- the move that begins a call is no dial
          have hnone : dialed m = none := by
            rcases m with ⟨s, c, r, s'⟩
            cases c with
            | dialContext => rfl
            | _ => cases hm
          rw [attempts_asks ms hm, hnone]
          simp
      | false =>
          rcases attempts_concat ms hm with ⟨before, last, hbefore, hafter⟩
          rw [hbefore, hafter]
          simp

/-- Where there is one call, it has dialed all. -/
theorem attempts_single {ms : History} (h : attempts ms = [dials ms]) {m : Move api Site}
    (hm : asksConnection m = false) : attempts (ms ++ [m]) = [dials (ms ++ [m])] := by
  rcases attempts_concat ms hm with ⟨before, last, hbefore, hafter⟩
  rw [hbefore] at h
  have hsplit : before ++ [last] = [] ++ [dials ms] := h
  rcases List.append_inj' hsplit rfl with ⟨rfl, -⟩
  have hall := flatten_attempts (ms ++ [m])
  rw [hafter] at hall ⊢
  rw [← hall]
  simp

/-- A call that does not connect adds nothing. -/
theorem of_not_connects {c : Call} (hc : c.connects = false) (r : api.Settled c.Reply)
    (s s' : Site) (ms : History) : dials (ms ++ [⟨s, c, r, s'⟩]) = dials ms ∧
      attempts (ms ++ [⟨s, c, r, s'⟩]) = attempts ms := by
  have hnone : dialed ⟨s, c, r, s'⟩ = none ∧ asksConnection ⟨s, c, r, s'⟩ = false := by
    cases c with
    | dial target => cases hc
    | dialContext => cases hc
    | _ => exact ⟨rfl, rfl⟩
  rcases attempts_concat ms hnone.2 with ⟨before, last, hbefore, hafter⟩
  rw [dials_concat, hbefore, hafter, hnone.1]
  simp

end

section

variable {allowed : Bool} {config : GuardConfig} {id : Nat} {r : Request} {s s' : Site}
  {ms : History} {x : Site × History} {authority defaultPort host port : GoString}
  {targets rest : List GoString} {self : Finset Addr} {c : Call}

theorem wp_request {Q : api.Settled c.Reply → Site × History → Prop}
    (hx : Served allowed config id r (s, ms))
    (h : ∀ a s', effect config id s c (.ok a) s' → Q (.ok a) (s', ms ++ [⟨s, c, .ok a, s'⟩])) :
    wp (logic allowed config id r) (request c) Q (s, ms) := by
  refine ⟨hx, fun reply x' hr => ?_⟩
  obtain ⟨s', he, rfl⟩ := Logic.replies_recorded.1 hr
  cases reply with
  | ok a => exact h a s' he
  | error e => exact e.elim

/-- Nothing was dialed, and no connection asked for. -/
def Silent (ms : History) : Prop := attempts ms = [[]]

omit [Netip] [Unicode] in
theorem Silent.dials (h : Silent ms) : dials ms = [] := by
  rw [← flatten_attempts, h]
  rfl

/-- A call that does not connect leaves a request that is silent so. -/
theorem wp_silent (hc : c.connects = false) (hx : Silent ms) :
    wp (logic allowed config id r) (request c) (fun reply x' => Silent x'.2 ∧
      ∃ a s', reply = .ok a ∧ x' = (s', ms ++ [⟨s, c, .ok a, s'⟩]) ∧
        effect config id s c (.ok a) s') (s, ms) := by
  refine wp_request (.inl hx.dials) fun a s' he => ⟨?_, a, s', rfl, rfl, he⟩
  exact (of_not_connects hc _ _ _ ms).2.trans hx

/-! ## Destinations -/

omit [Unicode] in
theorem Resolved.mono {ms ms' : History} (h : Resolved ms self host port targets) (hms : ms ⊆ ms') :
    Resolved ms' self host port targets := by
  cases h with
  | literal hliteral hadmissible => exact .literal hliteral hadmissible
  | name hname hlookup => exact .name hname (hms hlookup)

theorem Vetted.step (h : Vetted config id authority defaultPort (s, ms) targets)
    {a : api.Settled c.Reply} (he : effect config id s c a s') :
    Vetted config id authority defaultPort (s', ms ++ [⟨s, c, a, s'⟩]) targets := by
  obtain ⟨host, port, self, hsplit, hown, hdone, hresolved⟩ := h
  obtain ⟨⟨ls, -, hrun⟩, -⟩ := he
  exact ⟨host, port, self, hsplit, hown, Guard.run_done hrun hdone,
    hresolved.mono (List.subset_append_left _ _)⟩

theorem wp_vetted (hx : Silent ms) (hsplit : splitTarget authority defaultPort = .ok (host, port))
    (hown : isOwnHost config host = false) (hdone : s.guard.phase id = .done (.ok self)) :
    wp (logic allowed config id r) (vetted self host port) (fun reply x' => Silent x'.2 ∧
      ∀ targets, reply = .ok (.ok targets) →
        Vetted config id authority defaultPort x' targets) (s, ms) := by
  rw [vetted]
  split
  · rename_i literal hliteral
    split
    · exact ⟨hx, (by rintro _ ⟨⟩)⟩
    · rename_i hadmissible
      refine ⟨hx, fun targets heq => ?_⟩
      obtain rfl := Except.ok.inj (Except.ok.inj heq)
      exact ⟨host, port, self, hsplit, hown, hdone,
        .literal hliteral (by simpa [admissible] using hadmissible)⟩
  · rename_i hname
    refine wp_bind _ (wp_silent rfl hx) ?_ fun e => e.elim
    rintro answer x' ⟨hsilent, a, s', heq, rfl, he⟩
    obtain rfl := Except.ok.inj heq
    cases answer with
    | error err => exact ⟨hsilent, (by rintro _ ⟨⟩)⟩
    | ok addrs =>
        simp only
        split
        · exact ⟨hsilent, (by rintro _ ⟨⟩)⟩
        · refine ⟨hsilent, fun targets heq => ?_⟩
          obtain rfl := Except.ok.inj (Except.ok.inj heq)
          obtain ⟨⟨ls, -, hrun⟩, -⟩ := he
          exact ⟨host, port, self, hsplit, hown, Guard.run_done hrun hdone,
            .name hname (List.mem_append_right _ (List.mem_singleton_self _))⟩

theorem wp_findDestinations (hx : Silent ms) :
    wp (logic allowed config id r) (findDestinations config authority defaultPort)
      (fun reply x' => Silent x'.2 ∧ ∀ targets, reply = .ok (.ok targets) →
        Vetted config id authority defaultPort x' targets) (s, ms) := by
  rw [findDestinations]
  split
  · exact ⟨hx, (by rintro _ ⟨⟩)⟩
  · rename_i host port hsplit
    split
    · exact ⟨hx, (by rintro _ ⟨⟩)⟩
    · rename_i hown
      refine wp_bind _ (wp_silent rfl hx) ?_ fun e => e.elim
      rintro answer x' ⟨hsilent, a, s', heq, rfl, he⟩
      obtain rfl := Except.ok.inj heq
      cases answer with
      | error err => exact ⟨hsilent, (by rintro _ ⟨⟩)⟩
      | ok self => exact wp_vetted hsilent hsplit (by simpa using hown) he.2

/-! ## Dialing -/

/-- In a call of `dialDestinations` that has tried `tried` in vain and has `rest`
before it. -/
structure Trying (config : GuardConfig) (id : Nat) (r : Request) (authority defaultPort : GoString)
    (targets : List GoString) (tried : List GoString) (rest : List GoString)
    (x : Site × History) : Prop where
  vetted : Vetted config id authority defaultPort x targets
  all : tried ++ rest = targets
  dialed : ∃ before, attempts x.2 = before ++ [tried.map (·, false)] ∧
    ∀ attempt ∈ before, Tries targets attempt
  connect : r.method = go "CONNECT" → attempts x.2 = [dials x.2]

variable {tried : List GoString}

omit [Netip] [Unicode] in
theorem tries_failed (h : tried <+: targets) : Tries targets (tried.map (·, false)) := by
  constructor
  · simpa [Function.comp_def] using h
  · intro d hd
    obtain ⟨target, -, rfl⟩ := List.mem_map.1 (List.mem_of_mem_dropLast hd)
    rfl

/-- An attempt that is given up, or goes on later, has tried the first targets. -/
theorem Trying.ready (h : Trying config id r authority defaultPort targets tried rest x) :
    Ready config id r authority defaultPort targets x := by
  rcases h with ⟨hvetted, hall, ⟨before, hbefore, htries⟩, hconnect⟩
  refine ⟨hvetted, ?_, hconnect⟩
  intro attempt hattempt
  rw [hbefore] at hattempt
  rcases List.mem_append.1 hattempt with hin | hlast
  · exact htries attempt hin
  · rw [List.mem_singleton.1 hlast]
    exact tries_failed ⟨rest, hall⟩

/-- A call that does not connect changes nothing about an attempt, -/
theorem Trying.step (h : Trying config id r authority defaultPort targets tried rest (s, ms))
    (hc : c.connects = false) {a : api.Settled c.Reply} (he : effect config id s c a s') :
    Trying config id r authority defaultPort targets tried rest (s', ms ++ [⟨s, c, a, s'⟩]) := by
  rcases of_not_connects hc a s s' ms with ⟨hdials, hattempts⟩
  refine ⟨h.vetted.step he, h.all, ?_, ?_⟩
  · rw [hattempts]
    exact h.dialed
  · rw [hattempts, hdials]
    exact h.connect

/-- or about what was dialed. -/
theorem Ready.step (h : Ready config id r authority defaultPort targets (s, ms))
    (hc : c.connects = false) {a : api.Settled c.Reply} (he : effect config id s c a s') :
    Ready config id r authority defaultPort targets (s', ms ++ [⟨s, c, a, s'⟩]) := by
  rcases of_not_connects hc a s s' ms with ⟨hdials, hattempts⟩
  refine ⟨h.vetted.step he, ?_, ?_⟩
  · rw [hattempts]
    exact h.tries
  · rw [hattempts, hdials]
    exact h.connect

/-- What a dial adds to the attempt. -/
theorem Trying.extends (h : Trying config id r authority defaultPort targets tried rest (s, ms))
    {m : Move api Site} (hm : asksConnection m = false) :
    ∃ before, attempts (ms ++ [m]) = before ++ [tried.map (·, false) ++ (Serve.dialed m).toList] ∧
      ∀ attempt ∈ before, Tries targets attempt := by
  rcases h.dialed with ⟨before, hbefore, htries⟩
  rcases attempts_concat ms hm with ⟨before', last, hms, hafter⟩
  rcases List.append_inj' (hms.symm.trans hbefore) rfl with ⟨rfl, hlast⟩
  rw [List.singleton_inj] at hlast
  exact ⟨before', by rw [hafter, hlast], htries⟩

/-- A dial that fails is one more target that was tried. -/
theorem Trying.fails {target err : GoString}
    (h : Trying config id r authority defaultPort targets tried (target :: rest) (s, ms))
    (he : effect config id s (.dial target) (.ok (.error err)) s') :
    Trying config id r authority defaultPort targets (tried ++ [target]) rest
      (s', ms ++ [⟨s, .dial target, .ok (.error err), s'⟩]) := by
  rcases h.extends (m := ⟨s, .dial target, .ok (.error err), s'⟩) rfl with ⟨before, hafter, htries⟩
  refine ⟨h.vetted.step he, by simpa using h.all, ⟨before, ?_, htries⟩, ?_⟩
  · rw [hafter]
    simp [Serve.dialed]
  · intro hmethod
    exact attempts_single (h.connect hmethod) rfl

/-- A dial that succeeds is the last of its call. -/
theorem Trying.succeeds {target : GoString}
    (h : Trying config id r authority defaultPort targets tried (target :: rest) (s, ms))
    (he : effect config id s (.dial target) (.ok (.ok ())) s') :
    Ready config id r authority defaultPort targets
      (s', ms ++ [⟨s, .dial target, .ok (.ok ()), s'⟩]) := by
  rcases h.extends (m := ⟨s, .dial target, .ok (.ok ()), s'⟩) rfl with ⟨before, hafter, htries⟩
  refine ⟨h.vetted.step he, ?_, ?_⟩
  · intro attempt hattempt
    rw [hafter] at hattempt
    rcases List.mem_append.1 hattempt with hin | hin
    · exact htries attempt hin
    · rw [List.mem_singleton.1 hin]
      have htoList : (Serve.dialed ⟨s, .dial target, .ok (.ok ()), s'⟩).toList = [(target, true)] := rfl
      rw [htoList]
      refine ⟨⟨rest, ?_⟩, ?_⟩
      · simpa [Function.comp_def] using h.all
      · intro d hd
        rw [List.dropLast_concat] at hd
        rcases List.mem_map.1 hd with ⟨earlier, -, rfl⟩
        rfl
  · intro hmethod
    exact attempts_single (h.connect hmethod) rfl

/-- After a dial there is a connection, or the next address is tried. -/
def Attempted (config : GuardConfig) (id : Nat) (r : Request) (authority defaultPort : GoString)
    (targets tried : List GoString) (target : GoString) (rest : List GoString)
    (x : Site × History) : api.Settled (Call.dial target).Reply → Prop
  | .ok (.ok _) => Ready config id r authority defaultPort targets x
  | _ => Trying config id r authority defaultPort targets (tried ++ [target]) rest x

theorem wp_dialDestinations (hallowed : allowed = true) (hasks : r.Asks authority defaultPort)
    {rest : List GoString} :
    ∀ {tried : List GoString} {lastErr : GoString} {x : Site × History},
      Trying config id r authority defaultPort targets tried rest x →
      wp (logic allowed config id r) (dialDestinations rest lastErr)
        (fun _ x' => Ready config id r authority defaultPort targets x') x := by
  have hserved {x : Site × History} (hx : Ready config id r authority defaultPort targets x) :
      Served allowed config id r x := .inr ⟨hallowed, authority, defaultPort, targets, hasks, hx⟩
  induction rest with
  | nil => exact fun hx => hx.ready
  | cons target rest ih =>
      rintro tried lastErr ⟨s, ms⟩ hx
      refine wp_bind _ (M := fun _ x' =>
        Trying config id r authority defaultPort targets tried (target :: rest) x')
        (wp_request (hserved hx.ready) fun a s' he => hx.step rfl he) ?_ fun e => e.elim
      rintro err ⟨s₁, ms₁⟩ hx₁
      cases err with
      | some err => exact hx₁.ready
      | none =>
          refine wp_bind _ (M := fun reply x' =>
            Attempted config id r authority defaultPort targets tried target rest x' reply)
            (wp_request (hserved hx₁.ready) fun a s' he => ?_) ?_ fun e => e.elim
          · cases a with
            | ok connection => exact hx₁.succeeds he
            | error err => exact hx₁.fails he
          · -- after a failure the rest is tried
            rintro reply x₂ hx₂
            cases reply with
            | ok connection => exact hx₂
            | error err => exact ih hx₂

omit [Netip] [Unicode] in
/-- A dial that fails stands before what the other targets come to. -/
theorem Tries.cons {attempt : List (GoString × Bool)} (h : Tries targets attempt) (target : GoString) :
    Tries (target :: targets) ((target, false) :: attempt) := by
  constructor
  · exact List.cons_prefix_cons.2 ⟨rfl, h.inOrder⟩
  · intro d hd
    cases attempt with
    | nil => cases hd
    | cons next attempt =>
        rw [List.dropLast_cons_cons] at hd
        rcases List.mem_cons.1 hd with rfl | hin
        · rfl
        · exact h.failed d hin

/-- A request that is ready, and makes a call that does not connect, is ready. -/
theorem wp_ready (hallowed : allowed = true) (hasks : r.Asks authority defaultPort)
    (hc : c.connects = false) (hx : Ready config id r authority defaultPort targets x) :
    wp (logic allowed config id r) (request c)
      (fun _ x' => Ready config id r authority defaultPort targets x') x := by
  obtain ⟨s, ms⟩ := x
  refine wp_request (.inr ⟨hallowed, authority, defaultPort, targets, hasks, hx⟩) fun a s' he => ?_
  exact hx.step hc he

/-- With `DialContext` a new attempt begins. -/
theorem wp_dialContext (hallowed : allowed = true) (hasks : r.Asks authority defaultPort)
    (hmethod : r.method ≠ go "CONNECT") (hx : Ready config id r authority defaultPort targets x) :
    wp (logic allowed config id r) (request .dialContext)
      (fun _ x' => Trying config id r authority defaultPort targets [] targets x') x := by
  obtain ⟨s, ms⟩ := x
  refine wp_request (.inr ⟨hallowed, authority, defaultPort, targets, hasks, hx⟩) fun a s' he => ?_
  exact ⟨hx.vetted.step he, rfl, ⟨attempts ms, attempts_asks ms rfl, hx.tries⟩,
    fun hconnect => absurd hconnect hmethod⟩

theorem wp_roundTrip (hallowed : allowed = true) (hasks : r.Asks authority defaultPort)
    (hmethod : r.method ≠ go "CONNECT") {calls : Nat} :
    ∀ {x : Site × History}, Ready config id r authority defaultPort targets x →
      wp (logic allowed config id r) (roundTrip targets calls)
        (fun _ x' => Ready config id r authority defaultPort targets x') x := by
  induction calls with
  | zero => exact fun hx => wp_ready hallowed hasks rfl hx
  | succ calls ih =>
      intro x hx
      refine wp_bind _ (wp_dialContext hallowed hasks hmethod hx) ?_ fun e => e.elim
      rintro again x₁ hx₁
      split
      · refine wp_bind _ (wp_dialDestinations hallowed hasks hx₁) ?_ fun e => e.elim
        exact fun _ x₂ hx₂ => ih hx₂
      · exact wp_ready hallowed hasks rfl hx₁.ready

/-! ## The request -/

/-- The last call of a request. -/
theorem wp_answer (hc : c.connects = false) (hx : Served allowed config id r x) :
    wp (logic allowed config id r) (request c) (fun _ x' => Served allowed config id r x') x := by
  obtain ⟨s, ms⟩ := x
  refine wp_request hx fun a s' he => ?_
  obtain hsilent | ⟨hallowed, authority, defaultPort, targets, hasks, hready⟩ := hx
  · exact .inl ((of_not_connects hc _ _ _ ms).1.trans hsilent)
  · exact .inr ⟨hallowed, authority, defaultPort, targets, hasks, hready.step hc he⟩

/-- What a request that has dialed nothing may dial. -/
theorem Vetted.trying (h : Vetted config id authority defaultPort x targets) (hx : Silent x.2) :
    Trying config id r authority defaultPort targets [] targets x := by
  refine ⟨h, rfl, ⟨[], hx, nofun⟩, fun _ => ?_⟩
  rw [hx.dials]
  exact hx

theorem wp_connect (hallowed : allowed = true) (hmethod : r.method = go "CONNECT")
    (hx : Silent ms) :
    wp (logic allowed config id r) (connect config r) (fun _ x' => Served allowed config id r x')
      (s, ms) := by
  refine wp_bind _ (wp_findDestinations hx) ?_ fun e => e.elim
  rintro found x₁ ⟨hsilent, hvetted⟩
  cases found with
  | error err => exact wp_answer rfl (.inl hsilent.dials)
  | ok targets =>
      have hasks : r.Asks r.host [] := .connect hmethod
      have htrying := (hvetted targets rfl).trying (r := r) hsilent
      refine wp_bind _ (wp_dialDestinations hallowed hasks htrying) ?_ fun e => e.elim
      rintro connection x₂ hx₂
      have hserved : Served allowed config id r x₂ := .inr ⟨hallowed, _, _, targets, hasks, hx₂⟩
      cases connection with
      | ok connection => exact wp_answer rfl hserved
      | error err => exact wp_answer rfl hserved

theorem wp_forwardHTTP (hallowed : allowed = true) (hmethod : r.method ≠ go "CONNECT") {calls : Nat}
    {url : Url} (hasks : r.Asks url.host (go "80")) (hx : Silent ms) :
    wp (logic allowed config id r) (forwardHTTP config calls url)
      (fun _ x' => Served allowed config id r x') (s, ms) := by
  refine wp_bind _ (wp_findDestinations hx) ?_ fun e => e.elim
  rintro found x₁ ⟨hsilent, hvetted⟩
  cases found with
  | error err => exact wp_answer rfl (.inl hsilent.dials)
  | ok targets =>
      have hready := ((hvetted targets rfl).trying (r := r) hsilent).ready
      refine wp_bind _ (wp_roundTrip hallowed hasks hmethod hready) ?_ fun e => e.elim
      rintro response x₂ hx₂
      have hserved : Served allowed config id r x₂ := .inr ⟨hallowed, _, _, targets, hasks, hx₂⟩
      split
      · exact wp_answer rfl hserved
      · exact wp_answer rfl hserved

theorem wp_serveHTTP {Key Tag : Type} [DecidableEq Tag] (hmac : Hmac Key Tag)
    (auth : ProxyAuth Key Tag) (calls : Nat) (hx : Silent ms) :
    wp (logic (authorized hmac auth r.authorization) config id r)
      (serveHTTP hmac auth config calls r)
      (fun _ x' => Served (authorized hmac auth r.authorization) config id r x') (s, ms) := by
  rw [serveHTTP]
  split
  · exact wp_answer rfl (.inl hx.dials)
  rename_i hauthorized
  have hallowed : authorized hmac auth r.authorization = true := by simpa using hauthorized
  refine wp_bind _ (wp_silent rfl hx) ?_ fun e => e.elim
  rintro deadline ⟨s₁, ms₁⟩ ⟨hsilent, -⟩
  cases deadline with
  | failed => exact wp_answer rfl (.inl hsilent.dials)
  | cleared | notSupported =>
      dsimp only
      split
      · rename_i hmethod
        exact wp_connect hallowed hmethod hsilent
      · rename_i hmethod
        split
        · exact wp_answer rfl (.inl hsilent.dials)
        · rename_i url hurl
          split
          · exact wp_answer rfl (.inl hsilent.dials)
          · rename_i hform
            have hscheme : url.scheme = go "http" := by
              by_contra hne
              exact hform (.inl hne)
            exact wp_forwardHTTP hallowed hmethod (.forward hmethod hurl hscheme) hsilent

/-- Wherever a request is stopped, it has served so far. -/
theorem served_of_wp {α : Type} {p : Handler α}
    (h : wp (logic allowed config id r) p (fun _ x' => Served allowed config id r x') x) :
    Served allowed config id r x := by
  induction p with
  | done result => exact h
  | read k ih => exact ih () (h () _ rfl)
  | write w k ih => exact w.elim
  | call c k ih => exact h.1

end

/-! ## What a target is -/

omit [Unicode] in
/-- The addresses of the proxy that the guard of the call `id` is to find. -/
inductive OwnAddress (config : GuardConfig) (ls : List GuardLabel) (id : Nat) : Addr → Prop where
  | extra {a : Addr} (h : a ∈ config.extraSelf) : OwnAddress config ls id a.unmap
  | literal {a : Addr} (hhost : config.selfHost ≠ [])
      (h : Netip.parseAddr config.selfHost = some a) : OwnAddress config ls id a.unmap
  /-- Known when the call read what is known. -/
  | known {a : Addr} {before rest : List GuardLabel} {g : Guard}
      (hread : ls = before ++ .read id :: rest)
      (hrun : Run (Guard.step config) Guard.init before g) (h : a ∈ g.known.selfResolved) :
      OwnAddress config ls id a
  | interface {a : Addr} {addresses : List Addr} (hlocals : .locals id (.ok addresses) ∈ ls)
      (h : a ∈ addresses) : OwnAddress config ls id a.unmap

/-- A target that a request may dial: a public address in its unmapped form, none of
the proxy's own, with an allowed port. -/
def Permitted (config : GuardConfig) (ls : List GuardLabel) (id : Nat) (r : Request)
    (target : GoString) : Prop :=
  ∃ authority defaultPort host port a, r.Asks authority defaultPort ∧
    splitTarget authority defaultPort = .ok (host, port) ∧ isOwnHost config host = false ∧
    (∃ n, atoi port = some n ∧ n ∈ allowedPorts) ∧
    target = joinHostPort (Netip.text a) port ∧ a.unmap = a ∧ publicAddress a = true ∧
    ¬OwnAddress config ls id a

section

variable {config : GuardConfig} {id : Nat} {r : Request} {s s' : Site} {ms : History}
  {authority defaultPort : GoString} {targets : List GoString} {self : Finset Addr} {a : Addr}

omit [Unicode] in
theorem OwnAddress.mem {ls : List GuardLabel} {g : Guard} (h : OwnAddress config ls id a)
    (hrun : Run (Guard.step config) Guard.init ls g) (hdone : g.phase id = .done (.ok self)) :
    a ∈ self := by
  cases h with
  | @extra b hb =>
      have hall := Guard.run_all (K := ∅) (i := id) (fun known _ => Guard.keeps_extraSelf known)
        hrun (Finset.empty_subset _) trivial
      rw [hdone] at hall
      exact hall (mem_unmapped.2 ⟨b, hb, rfl⟩)
  | literal hhost hliteral =>
      have hall := Guard.run_all (K := ∅) (i := id)
        (fun known _ => Guard.keeps_literal hhost hliteral known) hrun (Finset.empty_subset _) trivial
      rw [hdone] at hall
      exact hall
  | known hread hbefore hmem =>
      subst hread
      exact Guard.known_of_read hrun hbefore hdone hmem
  | @interface b addresses hlocals hb =>
      exact Guard.locals_mem hrun hlocals hdone (mem_unmapped.2 ⟨b, hb, rfl⟩)

omit [Unicode] in
/-- Each target of a host is the text of an admissible address with the port. -/
theorem Resolved.target {host port target : GoString} (h : Resolved ms self host port targets)
    (ht : target ∈ targets) : ∃ a, admissible self a = true ∧ target = dialTarget port a := by
  cases h with
  | literal hliteral hadmissible => exact ⟨_, hadmissible, List.mem_singleton.1 ht⟩
  | name hname hlookup =>
      obtain ⟨a, ha, rfl⟩ := List.mem_map.1 ht
      exact ⟨a, (List.mem_filter.1 ha).2, rfl⟩

theorem Vetted.permitted {target : GoString} (h : Vetted config id authority defaultPort (s, ms) targets)
    (hs : s.Reached config) (hasks : r.Asks authority defaultPort) (ht : target ∈ targets) :
    Permitted config s.labels id r target := by
  obtain ⟨host, port, self, hsplit, hown, hdone, hresolved⟩ := h
  obtain ⟨a, hadmissible, rfl⟩ := hresolved.target ht
  simp only [admissible, isSelfAddress, Bool.and_eq_true, Bool.not_eq_true',
    decide_eq_false_iff_not] at hadmissible
  refine ⟨authority, defaultPort, host, port, a.unmap, hasks, hsplit, hown, splitTarget_port hsplit,
    rfl, a.unmap_unmap, ?_, fun hmine => hadmissible.2 (hmine.mem hs hdone)⟩
  rw [publicAddress, a.unmap_unmap]
  exact hadmissible.1

omit [Netip] [Unicode] in
/-- What an attempt dialed is among the targets. -/
theorem Tries.mem {attempt : List (GoString × Bool)} (h : Tries targets attempt)
    {d : GoString × Bool} (hd : d ∈ attempt) : d.1 ∈ targets :=
  h.inOrder.subset (List.mem_map_of_mem hd)

variable {Key Tag : Type} [DecidableEq Tag]

end

end

/-! ## One request -/

section

attribute [local instance] Netip.sample Unicode.sample

end

end BrowserVpn.Serve
