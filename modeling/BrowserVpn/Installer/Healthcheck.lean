import BrowserVpn.Deploy.Entrypoint
import BrowserVpn.Server.Refusals

/-!
# Installer.Healthcheck — what a live check of the proxy shows

`healthcheck.py` asks the running proxy for what it must refuse: a request without
credentials, a private address, and each of the proxy's own. It is what decides about a
rollback, so that it may neither pass a proxy without a guard nor fail one that works.
-/

namespace BrowserVpn

open Data Python Async Serve

/-! ## The answers of the server -/

namespace Serve

section

variable (answers : (c : Call) → c.Reply) {α β : Type}

/-- The calls of a handler where each has one answer. -/
def called : Handler α → List Call
  | .done _ => []
  | .read k => called (k ())
  | .write w _ => w.elim
  | .call c k => c :: called (k (.ok (answers c)))

theorem called_bind (p : Handler α) (f : α → Handler β) :
    called answers (p >>= f) = called answers p ++ called answers (f (returned answers p)) := by
  induction p with
  | done r =>
      cases r with
      | ok a => rfl
      | error e => exact e.elim
  | read k ih => exact ih ()
  | write w k ih => exact w.elim
  | call c k ih => exact congrArg (List.cons c) (ih (.ok (answers c)))

/-- The last call of what comes last. -/
theorem getLast?_called_bind (p : Handler α) {f : α → Handler Unit} {c : Call}
    (h : (called answers (f (returned answers p))).getLast? = some c) :
    (called answers (p >>= f)).getLast? = some c := by
  rw [called_bind, List.getLast?_append, h]
  rfl

end

/-- The status that a request is answered with. That of a response which is passed on is the
destination's. -/
def Call.status (upstream : Nat) : Call → Option Nat
  | .proxyAuthRequired => some 407
  | .httpError status _ => some status
  | .writeDestinationError err => some (BrowserVpn.writeDestinationError err).1
  | .tunnel => some 200
  | .relay => some upstream
  | _ => none

/-- The status of a request where each call has one answer. -/
def answer [Netip] [Unicode] {Key Tag : Type} [DecidableEq Tag] (hmac : Hmac Key Tag)
    (auth : ProxyAuth Key Tag) (config : GuardConfig) (calls upstream : Nat)
    (answers : (c : Call) → c.Reply) (r : Request) : Option Nat :=
  (called answers (serveHTTP hmac auth config calls r)).getLast?.bind (Call.status upstream)

end Serve

/-! ## healthcheck.py -/

/-- What ends one check. A connection that failed may be tried again. -/
inductive CheckError where
  | connection
  | runtime (message : String)
  | other
deriving DecidableEq

/-- `authorization` as a header, if there is one. -/
def authorization (encoded : GoString) : GoString :=
  if encoded = [] then [] else go "Basic " ++ encoded

/-- `request` for the default target, as the server sees it. -/
def getProbe (encoded : GoString) : Request :=
  ⟨go "GET", authorization encoded, go "127.0.0.1", some ⟨go "http", go "127.0.0.1", false⟩⟩

/-- `request` with the method `CONNECT`. -/
def connectProbe (encoded : GoString) (target : List Char) : Request :=
  ⟨go "CONNECT", authorization encoded, utf8 target, some ⟨[], utf8 target, false⟩⟩

/-- `target_host` with its port. -/
def addressTarget (address : List Char) : List Char :=
  (if ':' ∈ address then '[' :: address ++ [']'] else address) ++ ":443".toList

/-- One probe, and what is raised on another status. -/
def expectStatus (request : Request → Except CheckError Nat) (probe : Request) (status : Nat)
    (message : String) : Except CheckError Unit :=
  match request probe with
  | .error err => .error err
  | .ok actual => if actual ≠ status then .error (.runtime message) else .ok ()

/-- Each probe has a connection of its own: `request i` is made on the one after `i` others. -/
def checkProxy (request : Nat → Request → Except CheckError Nat) (host : List Char)
    (encoded : GoString) (addresses : List (List Char)) : Except CheckError Unit := do
  expectStatus (request 0) (getProbe []) 407 "Proxy accepted a request without authentication"
  expectStatus (request 1) (getProbe encoded) 403 "Proxy did not block a private destination"
  expectStatus (request 2) (connectProbe encoded (host ++ ":443".toList)) 403
    "Proxy did not block its own hostname or IP address"
  forM (addresses.zipIdx 3) fun (address, i) =>
    expectStatus (request i) (connectProbe encoded (addressTarget address)) 403
      ("Proxy did not block its own address: " ++ String.ofList address)

/-- The loop of `main`: the checks, each with whether the deadline is over after it. -/
def checkLoop : List (Except CheckError Unit × Bool) → Option (Except CheckError Unit)
  | [] => none
  | (.ok (), _) :: _ => some (.ok ())
  | (.error .connection, false) :: rest => checkLoop rest
  | (.error err, _) :: _ => some (.error err)

/-- `read_text(encoding="utf-8")` but for the line ends. -/
def decodeText (bytes : List UInt8) : Option (List Char) :=
  bytes.toByteArray.utf8Decode?.map fun text => text.toList

/-- What `main` encodes, `none` for a `UnicodeDecodeError`. -/
def sentCredentials (credentials : GoString) : Option GoString :=
  (decodeText credentials).map fun content => utf8 (healthcheckCredentials content)

/-- What the calls of a handler are answered. -/
abbrev Replies := (c : Serve.Call) → c.Reply

/-- What comes of a connection that `request` makes. -/
inductive Contact where
  /-- It is refused or reset, or breaks. -/
  | failed
  /-- Something else is raised. -/
  | raised
  /-- The handshake has shown the certificate of the proxy, and its handler is called. -/
  | made (peer : List UInt8) (replies : Replies)

/-- The connections of one check, in their order. -/
abbrev Contacts := Nat → Contact

section

variable [Netip] [Unicode] {Key Tag : Type} [DecidableEq Tag]

/-- `request` on its connection. `certificate` is the one that is installed. -/
def Healthcheck.request (hmac : Hmac Key Tag) (auth : ProxyAuth Key Tag) (guard : GuardConfig)
    (calls upstream : Nat) (certificate : List UInt8) (contacts : Contacts) (i : Nat) (r : Request) :
    Except CheckError Nat :=
  match contacts i with
  | .failed => .error .connection
  | .raised => .error .other
  | .made peer replies =>
      if peer ≠ certificate then
        .error (.runtime "Proxy is serving a certificate other than the installed one")
      else match answer hmac auth guard calls upstream replies r with
        | none => .error .other
        | some status => .ok status

/-- `main` once the configuration and the certificate are read: the tries of its loop, each
with whether the deadline is over after it. -/
def Healthcheck.main (hmac : Hmac Key Tag) (auth : ProxyAuth Key Tag) (guard : GuardConfig)
    (calls upstream : Nat) (config : SavedConfig) (certificate : List UInt8) (credentials : GoString)
    (tries : List (Contacts × Bool)) : Option (Except CheckError Unit) :=
  match sentCredentials credentials with
  | none => some (.error .other)
  | some sent =>
      checkLoop (tries.map fun attempt =>
        (checkProxy (request hmac auth guard calls upstream certificate attempt.1) config.host
          (base64Encode sent) config.selfAddresses, attempt.2))

end

/-! ## The probes of a check -/

/-- What is checked of the proxy. -/
inductive Probe where
  | anonymous
  | privateHost
  | ownHost (host : List Char)
  | ownAddress (address : List Char)

namespace Probe

def request (encoded : GoString) : Probe → Request
  | anonymous => getProbe []
  | privateHost => getProbe encoded
  | ownHost host => connectProbe encoded (host ++ ":443".toList)
  | ownAddress address => connectProbe encoded (addressTarget address)

def status : Probe → Nat
  | anonymous => 407
  | _ => 403

def message : Probe → String
  | anonymous => "Proxy accepted a request without authentication"
  | privateHost => "Proxy did not block a private destination"
  | ownHost _ => "Proxy did not block its own hostname or IP address"
  | ownAddress address => "Proxy did not block its own address: " ++ String.ofList address

/-- The host that it asks for with credentials. -/
def host : Probe → Option GoString
  | anonymous => none
  | privateHost => some (go "127.0.0.1")
  | ownHost host => some (utf8 host)
  | ownAddress address => some (utf8 address)

end Probe

/-- The probes in their order. -/
def probes (host : List Char) (addresses : List (List Char)) : List Probe :=
  .anonymous :: .privateHost :: .ownHost host :: addresses.map .ownAddress

/-! ## When a check passes -/

theorem expectStatus_eq_ok {request : Request → Except CheckError Nat} {probe : Request}
    {status : Nat} {message : String} :
    expectStatus request probe status message = .ok () ↔ request probe = .ok status := by
  rw [expectStatus]
  cases request probe with
  | error err => simp
  | ok actual => simp

/-- Another status is no failure of the connection. -/
theorem expectStatus_eq_connection {request : Request → Except CheckError Nat} {probe : Request}
    {status : Nat} {message : String} :
    expectStatus request probe status message = .error .connection ↔
      request probe = .error .connection := by
  rw [expectStatus]
  cases request probe with
  | error err => simp
  | ok actual =>
      simp only [reduceCtorEq, iff_false]
      split <;> simp

section

variable {α ε : Type} {f : α → Except ε Unit}

theorem forM_eq_ok {l : List α} : forM l f = .ok () ↔ ∀ a ∈ l, f a = .ok () := by
  induction l with
  | nil => simp [pure, Except.pure]
  | cons a l ih =>
      rw [List.forM_cons, List.forall_mem_cons]
      cases hfirst : f a with
      | error err => simp [bind, Except.bind]
      | ok u => simpa [bind, Except.bind] using ih

/-- The error of a list is that of its first element with one. -/
theorem forM_eq_error {l : List α} {err : ε} : forM l f = .error err ↔
    ∃ before a after, l = before ++ a :: after ∧ (∀ b ∈ before, f b = .ok ()) ∧ f a = .error err := by
  constructor
  · intro h
    induction l with
    | nil => cases h
    | cons a l ih =>
        rw [List.forM_cons] at h
        cases hfirst : f a with
        | error other =>
            rw [hfirst] at h
            obtain rfl := Except.error.inj h
            exact ⟨[], a, l, rfl, nofun, hfirst⟩
        | ok u =>
            rw [hfirst] at h
            rcases ih h with ⟨before, b, after, rfl, hbefore, hb⟩
            exact ⟨a :: before, b, after, rfl, List.forall_mem_cons.2 ⟨hfirst, hbefore⟩, hb⟩
  · rintro ⟨before, a, after, rfl, hbefore, ha⟩
    induction before with
    | nil =>
        rw [List.nil_append, List.forM_cons, ha]
        rfl
    | cons b before ih =>
        rcases List.forall_mem_cons.1 hbefore with ⟨hb, hrest⟩
        rw [List.cons_append, List.forM_cons, hb]
        exact ih hrest

end

section

variable {request : Nat → Request → Except CheckError Nat} {host : List Char} {encoded : GoString}
  {addresses : List (List Char)}

/-- A check makes its probes one after another. -/
theorem checkProxy_eq : checkProxy request host encoded addresses =
    forM (probes host addresses).zipIdx fun p =>
      expectStatus (request p.2) (p.1.request encoded) p.1.status p.1.message := by
  have hall : ∀ (addresses : List (List Char)) (n : Nat), (forM (addresses.zipIdx n) fun p =>
      expectStatus (request p.2) (connectProbe encoded (addressTarget p.1)) 403
        ("Proxy did not block its own address: " ++ String.ofList p.1)) =
      forM ((addresses.map Probe.ownAddress).zipIdx n) fun p =>
        expectStatus (request p.2) (p.1.request encoded) p.1.status p.1.message := by
    intro addresses
    induction addresses with
    | nil => exact fun n => rfl
    | cons address addresses ih =>
        intro n
        rw [List.map_cons, List.zipIdx_cons, List.zipIdx_cons, List.forM_cons, List.forM_cons, ih]
        rfl
  simp only [probes, List.zipIdx_cons, List.forM_cons, ← hall]
  rfl

/-- It passes when each gets its status, -/
theorem checkProxy_eq_ok : checkProxy request host encoded addresses = .ok () ↔
    ∀ p ∈ (probes host addresses).zipIdx, request p.2 (p.1.request encoded) = .ok p.1.status := by
  simp only [checkProxy_eq, forM_eq_ok, expectStatus_eq_ok]

/-- and is made again after one that finds no connection, when those before it have. -/
theorem checkProxy_eq_connection : checkProxy request host encoded addresses = .error .connection ↔
    ∃ before p after, (probes host addresses).zipIdx = before ++ p :: after ∧
      (∀ b ∈ before, request b.2 (b.1.request encoded) = .ok b.1.status) ∧
      request p.2 (p.1.request encoded) = .error .connection := by
  simp only [checkProxy_eq, forM_eq_error, expectStatus_eq_ok, expectStatus_eq_connection]

end

/-- Only checks that fail so in time are followed by another. -/
theorem checkLoop_eq_ok {checks : List (Except CheckError Unit × Bool)} :
    checkLoop checks = some (.ok ()) ↔ ∃ failed late rest, checks = failed ++ (.ok (), late) :: rest ∧
      ∀ check ∈ failed, check = (.error .connection, false) := by
  constructor
  · intro h
    induction checks with
    | nil => cases h
    | cons check checks ih =>
        rcases check with ⟨result, late⟩
        cases result with
        | ok u => exact ⟨[], late, checks, rfl, nofun⟩
        | error err =>
            cases err with
            | connection =>
                cases late with
                | true => simp [checkLoop] at h
                | false =>
                    rcases ih h with ⟨failed, late, rest, rfl, hfailed⟩
                    exact ⟨_ :: failed, late, rest, rfl, List.forall_mem_cons.2 ⟨rfl, hfailed⟩⟩
            | runtime message => simp [checkLoop] at h
            | other => simp [checkLoop] at h
  · rintro ⟨failed, late, rest, rfl, hfailed⟩
    induction failed with
    | nil => rfl
    | cons check failed ih =>
        rcases List.forall_mem_cons.1 hfailed with ⟨rfl, hrest⟩
        exact ih hrest

/-! ## What the server answers -/

namespace Serve

section

variable [Netip] [Unicode] {Key Tag : Type} [DecidableEq Tag] {hmac : Hmac Key Tag}
  {auth : ProxyAuth Key Tag} {config : GuardConfig} {calls upstream : Nat}
  {answers : (c : Call) → c.Reply} {r : Request}

theorem answer_of_last {c : Call}
    (h : (called answers (serveHTTP hmac auth config calls r)).getLast? = some c) :
    answer hmac auth config calls upstream answers r = c.status upstream := by
  rw [answer, h]
  rfl

/-- Without credentials the answer is 407, whatever else. -/
theorem answer_of_unauthorized (h : authorized hmac auth r.authorization = false) :
    answer hmac auth config calls upstream answers r = some 407 := by
  refine answer_of_last (c := .proxyAuthRequired) ?_
  rw [serveHTTP, h]
  rfl

theorem answer_of_deadline (h : authorized hmac auth r.authorization = true)
    (hdeadline : answers .setReadDeadline = .failed) :
    answer hmac auth config calls upstream answers r = some 500 := by
  refine answer_of_last (c := .httpError 500 (go "could not prepare authenticated connection")) ?_
  rw [serveHTTP, h, serveAuthorized]
  refine getLast?_called_bind answers (request .setReadDeadline) ?_
  have hreturned : returned answers (request .setReadDeadline) = .failed := hdeadline
  rw [hreturned]
  rfl

/-- An authorized request for a tunnel to what is no destination. -/
theorem answer_connect (h : authorized hmac auth r.authorization = true)
    (hdeadline : answers .setReadDeadline ≠ .failed) (hmethod : r.method = go "CONNECT")
    {err : DestinationError} (hrefused : destinations config (answers .selfAddresses)
      (fun host => answers (.lookup host)) r.host [] = .error err) :
    answer hmac auth config calls upstream answers r =
      some (BrowserVpn.writeDestinationError err).1 := by
  have hconnect : (called answers (connect config r)).getLast? = some (.writeDestinationError err) := by
    rw [connect]
    refine getLast?_called_bind answers (findDestinations config r.host []) ?_
    rw [findDestinations_eq, hrefused]
    rfl
  refine answer_of_last (c := .writeDestinationError err) ?_
  rw [serveHTTP, h, serveAuthorized]
  refine getLast?_called_bind answers (request .setReadDeadline) ?_
  rw [show returned answers (request .setReadDeadline) = answers .setReadDeadline from rfl]
  cases hd : answers .setReadDeadline with
  | failed => exact absurd hd hdeadline
  | cleared =>
      simp only [hmethod, if_true]
      exact hconnect
  | notSupported =>
      simp only [hmethod, if_true]
      exact hconnect

/-- An authorized request for a page on what is no destination. -/
theorem answer_forward (h : authorized hmac auth r.authorization = true)
    (hdeadline : answers .setReadDeadline ≠ .failed) (hmethod : r.method ≠ go "CONNECT") {url : Url}
    (hurl : r.url = some url) (hscheme : url.scheme = go "http") (hhost : url.host ≠ [])
    (huser : url.hasUser = false) {err : DestinationError}
    (hrefused : destinations config (answers .selfAddresses) (fun host => answers (.lookup host))
      url.host (go "80") = .error err) :
    answer hmac auth config calls upstream answers r =
      some (BrowserVpn.writeDestinationError err).1 := by
  have hforward : (called answers (forwardHTTP config calls url)).getLast? =
      some (.writeDestinationError err) := by
    rw [forwardHTTP]
    refine getLast?_called_bind answers (findDestinations config url.host (go "80")) ?_
    rw [findDestinations_eq, hrefused]
    rfl
  have habsolute : ¬ (url.scheme ≠ go "http" ∨ url.host = [] ∨ url.hasUser = true) := by
    simp [hscheme, hhost, huser]
  refine answer_of_last (c := .writeDestinationError err) ?_
  rw [serveHTTP, h, serveAuthorized]
  refine getLast?_called_bind answers (request .setReadDeadline) ?_
  rw [show returned answers (request .setReadDeadline) = answers .setReadDeadline from rfl]
  cases hd : answers .setReadDeadline with
  | failed => exact absurd hd hdeadline
  | cleared =>
      simp only [hmethod, if_false, hurl, if_neg habsolute]
      exact hforward
  | notSupported =>
      simp only [hmethod, if_false, hurl, if_neg habsolute]
      exact hforward

variable (config answers) in
omit hmac auth calls upstream in
/-- A literal that is not public, or the proxy's own, is refused. -/
theorem destinations_of_refused {authority defaultPort host port : GoString} {a : Addr}
    (hsplit : splitTarget authority defaultPort = .ok (host, port))
    (hparse : Netip.parseAddr host = some a)
    (hrefused : ∀ self, answers .selfAddresses = .ok self → admissible self a = false) :
    destinations config (answers .selfAddresses) (fun host => answers (.lookup host))
      authority defaultPort =
        .error (if isOwnHost config host then .forbidden
          else match answers .selfAddresses with
            | .error err => err
            | .ok _ => .forbidden) := by
  simp only [destinations, hsplit]
  split
  · rfl
  cases hself : answers .selfAddresses with
  | error err => rfl
  | ok self =>
      have hno := hrefused self hself
      rw [admissible, Bool.and_eq_false_iff, Bool.not_eq_false'] at hno
      simp only [hparse]
      rw [if_pos]
      rcases hno with hprivate | hself
      · simp [hprivate]
      · simp [hself]

omit [Netip] in
/-- Such a request gets 403 exactly if the proxy knows itself. -/
theorem status_of_refused {host : GoString} {err : DestinationError}
    (hguard : ∀ err, answers .selfAddresses = .error err → ∃ text, err = .selfUnavailable text)
    (herr : err = if isOwnHost config host then .forbidden
      else match answers .selfAddresses with
        | .error err => err
        | .ok _ => .forbidden) :
    (BrowserVpn.writeDestinationError err).1 = 403 ↔
      (isOwnHost config host = false → ∃ self, answers .selfAddresses = .ok self) := by
  subst herr
  cases isOwnHost config host with
  | true => simp [BrowserVpn.writeDestinationError]
  | false =>
      cases hself : answers .selfAddresses with
      | error err =>
          rcases hguard err hself with ⟨text, rfl⟩
          simp [BrowserVpn.writeDestinationError]
      | ok self => simp [BrowserVpn.writeDestinationError]

end

end Serve

/-! ## The probes of an installation -/

section

/-- Neither a bracket nor what an authority may not contain. -/
theorem clean_of_chars {t : List Char} (h : ∀ c ∈ t, isHostChar c = true ∨ c = ':') :
    ∀ b ∈ utf8 t, b ∉ forbiddenBytes ++ [openBracket, closeBracket, 37] := by
  have hall : ∀ n < 128, (isHostChar (Char.ofNat n) = true ∨ Char.ofNat n = ':') →
      asciiByte (Char.ofNat n) ∉ forbiddenBytes ++ [openBracket, closeBracket, 37] := by
    decide +kernel
  have hascii : ∀ c ∈ t, c.toNat < 128 := by
    intro c hc
    rcases h c hc with hhost | rfl
    · exact toNat_of_isHostChar hhost
    · decide
  intro b hb
  rw [utf8_ascii hascii] at hb
  rcases List.mem_map.1 hb with ⟨c, hc, rfl⟩
  have hchar := hall c.toNat (hascii c hc)
  rw [Char.ofNat_toNat] at hchar
  exact hchar (h c hc)

/-- The target of a probe is what the server joins a host and a port to. -/
theorem utf8_addressTarget (t : List Char) :
    utf8 (addressTarget t) = joinHostPort (utf8 t) (go "443") := by
  have hport : utf8 ":443".toList = colon :: go "443" := by decide
  have hcolon : colon ∈ utf8 t ↔ ':' ∈ t := asciiByte_mem_utf8 (c := ':') (by decide)
  rw [addressTarget, joinHostPort, utf8_append, hport]
  by_cases hmem : ':' ∈ t
  · have hcontains : (utf8 t).contains colon = true := List.contains_iff_mem.2 (hcolon.2 hmem)
    have hopen : utf8 ['['] = [openBracket] := by decide
    have hclose : utf8 [']'] = [closeBracket] := by decide
    have hcons : '[' :: t ++ [']'] = ['['] ++ t ++ [']'] := rfl
    rw [if_pos hmem, if_pos hcontains, hcons, utf8_append, utf8_append, hopen, hclose]
    simp
  · have hcontains : ¬ (utf8 t).contains colon = true := fun h =>
      hmem (hcolon.1 (List.contains_iff_mem.1 h))
    rw [if_neg hmem, if_neg hcontains]

/-- The server finds the host and the port of a probe. -/
theorem splitTarget_addressTarget {t : List Char} (h : ∀ c ∈ t, isHostChar c = true ∨ c = ':')
    (hnil : t ≠ []) (hdot : t ≠ ['.']) :
    splitTarget (utf8 (addressTarget t)) [] = .ok (utf8 t, go "443") := by
  have hclean := clean_of_chars h
  simp only [List.mem_append, not_or, List.mem_cons, List.not_mem_nil, or_false] at hclean
  have hport : IsTargetPort (go "443") := ⟨443, by decide, by decide⟩
  have hhost : IsTargetHost (utf8 t) := by
    refine ⟨fun heq => hnil (utf8_eq_nil.1 heq), ?_, fun hmem => (hclean _ hmem).2.2.2 rfl,
      fun b hb => (hclean b hb).1⟩
    intro heq
    have hsame : utf8 t = utf8 ['.'] := heq
    exact hdot (utf8_injective hsame)
  have hopen : openBracket ∉ utf8 t := fun hmem => (hclean _ hmem).2.1 rfl
  have hclose : closeBracket ∉ utf8 t := fun hmem => (hclean _ hmem).2.2.1 rfl
  have hsplit := splitAuthority_joinHostPort [] hopen hclose hport
  rw [utf8_addressTarget]
  have hne : joinHostPort (utf8 t) (go "443") ≠ [] := by
    rw [joinHostPort]
    split <;> simp
  have hbytes : ∀ b ∈ joinHostPort (utf8 t) (go "443"), b ∉ forbiddenBytes := by
    have hrest : ∀ b ∈ openBracket :: closeBracket :: colon :: go "443", b ∉ forbiddenBytes := by
      decide +kernel
    intro b hb
    rw [joinHostPort] at hb
    split at hb
    · simp only [List.cons_append, List.mem_cons, List.mem_append] at hb
      rcases hb with rfl | hb | rfl | rfl | hb
      · exact hrest _ (by simp)
      · exact (hclean b hb).1
      · exact hrest _ (by simp)
      · exact hrest _ (by simp)
      · exact hrest _ (by simp [hb])
    · simp only [List.mem_cons, List.mem_append] at hb
      rcases hb with hb | rfl | hb
      · exact (hclean b hb).1
      · exact hrest _ (by simp)
      · exact hrest _ (by simp [hb])
  rw [splitTarget_of_clean hne hbytes hsplit, checkTarget_of hhost hport]

variable [Ipv6] [Netip] [Unicode] {Key Tag : Type} [DecidableEq Tag] {hmac : Hmac Key Tag}
  {key : Key} {user password : GoString} {config : SavedConfig} {addresses : List IpAddress}
  {calls upstream : Nat}

/-- The probes of an installation. -/
def SavedConfig.probes (config : SavedConfig) : List Probe :=
  BrowserVpn.probes config.host config.selfAddresses

/-- What the server was started with. -/
def SavedConfig.guard (config : SavedConfig) (addresses : List IpAddress) : GuardConfig :=
  ⟨utf8 config.host, addresses.map IpAddress.toAddr⟩

/-- What the guard answers comes from one of its runs. -/
def Guarded (config : GuardConfig) (replies : Replies) : Prop :=
  ∃ ls g id, Run (Guard.step config) Guard.init ls g ∧ g.phase id = .done (replies .selfAddresses)

omit [Ipv6] [Unicode] in
theorem Guarded.unavailable {guard : GuardConfig} {replies : Replies} (h : Guarded guard replies)
    {err : DestinationError} (herr : replies .selfAddresses = .error err) :
    ∃ text, err = .selfUnavailable text := by
  rcases h with ⟨ls, g, id, hrun, hdone⟩
  rcases Guard.guarded_of_run hrun hdone with ⟨result, hresult⟩
  rw [herr] at hresult
  cases result with
  | ok self => cases hresult
  | error text => exact ⟨text, Except.error.inj hresult⟩

omit [Unicode] in
/-- The addresses of an installation are not admissible for its own proxy. -/
theorem not_admissible (hnet : Understands) (haddresses : Printed config.selfAddresses addresses)
    {replies : Replies} (hguarded : Guarded (config.guard addresses) replies)
    {t : List Char} (ht : t ∈ config.selfAddresses) {self : Finset Addr}
    (hself : replies .selfAddresses = .ok self) :
    ∃ a, Netip.parseAddr (utf8 t) = some a ∧ admissible self a = false := by
  rcases haddresses.exists_mem ht with ⟨a, hmem, hcanonical, rfl⟩
  refine ⟨a.toAddr, hnet.parse a hcanonical, ?_⟩
  rcases hguarded with ⟨ls, g, id, hrun, hdone⟩
  rw [hself] at hdone
  have hall := Guard.run_all (K := ∅) (i := id) (fun known _ => Guard.keeps_extraSelf known) hrun
    (Finset.empty_subset _) trivial
  rw [hdone] at hall
  have hown : a.toAddr.unmap ∈ self :=
    hall (mem_unmapped.2 ⟨a.toAddr, List.mem_map_of_mem hmem, rfl⟩)
  simp [admissible, isSelfAddress, hown]

omit [Netip] in
/-- The host of an installation names itself. -/
theorem SavedConfig.Valid.isOwnHost (hvalid : config.Valid) :
    isOwnHost (config.guard addresses) (utf8 config.host) = true := by
  have hne : utf8 config.host ≠ [] := fun hnil => hvalid.host_ne (utf8_eq_nil.1 hnil)
  simp [BrowserVpn.isOwnHost, SavedConfig.guard, hne]

omit [Unicode] in
/-- What a valid configuration probes are texts with a port. -/
theorem SavedConfig.Valid.chars (hnet : Understands) (hvalid : config.Valid) {t : List Char}
    (ht : t ∈ config.host :: config.selfAddresses) :
    (∀ c ∈ t, isHostChar c = true ∨ c = ':') ∧ t ≠ [] ∧ t ≠ ['.'] := by
  have hlong : ∀ s : List Char, 3 ≤ s.length → s ≠ [] ∧ s ≠ ['.'] := by
    intro s hs
    constructor
    · rintro rfl
      simp at hs
    · rintro rfl
      simp at hs
  rcases List.mem_cons.1 ht with rfl | hmem
  · exact ⟨fun c hc => Or.inl (hvalid.host_chars c hc), hlong _ hvalid.length.1⟩
  · rcases hvalid.addresses.printed t hmem with ⟨a, hcanonical, -, rfl⟩
    refine ⟨hnet.chars_ipText hcanonical, ?_⟩
    cases a with
    | v4 a => exact hlong _ (length_ipv4Text a).1
    | v6 a scopeId =>
        rcases hcanonical with ⟨rfl, -⟩
        have hcolon : ':' ∈ ipText (.v6 a none) := Ipv6.colon_mem a
        constructor
        · exact List.ne_nil_of_mem hcolon
        · intro heq
          rw [heq] at hcolon
          exact absurd hcolon (by decide)

theorem probe_destinations (hnet : Understands) (hvalid : config.Valid)
    (haddresses : Printed config.selfAddresses addresses) {replies : Replies}
    (hguarded : Guarded (config.guard addresses) replies) {t : List Char}
    (ht : t ∈ config.host :: config.selfAddresses) :
    destinations (config.guard addresses) (replies .selfAddresses)
      (fun host => replies (.lookup host)) (utf8 (addressTarget t)) [] =
        .error (if isOwnHost (config.guard addresses) (utf8 t) then .forbidden
          else match replies .selfAddresses with
            | .error err => err
            | .ok _ => .forbidden) := by
  rcases hvalid.chars hnet ht with ⟨hchars, hnil, hdot⟩
  have hsplit := splitTarget_addressTarget hchars hnil hdot
  rcases List.mem_cons.1 ht with rfl | hmem
  · -- the host is refused by its name
    have hown : isOwnHost (config.guard addresses) (utf8 config.host) = true := hvalid.isOwnHost
    simp only [destinations, hsplit, hown, if_true]
  · cases hself : replies .selfAddresses with
    | error err =>
        simp only [destinations, hsplit]
        split <;> rfl
    | ok self =>
        rcases not_admissible hnet haddresses hguarded hmem hself with ⟨a, hparse, hno⟩
        have hrefused := destinations_of_refused (config.guard addresses) replies hsplit hparse
          fun other hother => by
            rw [hself] at hother
            rw [← Except.ok.inj hother]
            exact hno
        rw [hself] at hrefused
        exact hrefused

omit [Netip] [Unicode] in
theorem SavedConfig.Valid.target (hvalid : config.Valid) :
    config.host ++ ":443".toList = addressTarget config.host := by
  have hcolon : ':' ∉ config.host := fun hmem => absurd (hvalid.host_chars _ hmem) (by decide)
  rw [addressTarget, if_neg hcolon]

/-- An authorized probe gets 403 exactly if the proxy knows itself. -/
theorem answer_probe (hnet : Understands) (hvalid : config.Valid)
    (haddresses : Printed config.selfAddresses addresses) {replies : Replies}
    (hguarded : Guarded (config.guard addresses) replies) {encoded : GoString}
    {auth : ProxyAuth Key Tag} (hauthorized : authorized hmac auth (authorization encoded) = true)
    {probe : Probe} (hprobe : probe ∈ config.probes) {host : GoString} (hhost : host ∈ probe.host)
    (hdeadline : replies .setReadDeadline ≠ .failed) :
    answer hmac auth (config.guard addresses) calls upstream replies (probe.request encoded) =
        some 403 ↔
      (isOwnHost (config.guard addresses) host = false →
        ∃ self, replies .selfAddresses = .ok self) := by
  have hunavailable : ∀ err, replies .selfAddresses = .error err →
      ∃ text, err = .selfUnavailable text := fun err herr => hguarded.unavailable herr
  have hconnect : ∀ t ∈ config.host :: config.selfAddresses,
      answer hmac auth (config.guard addresses) calls upstream replies
          (connectProbe encoded (addressTarget t)) = some 403 ↔
        (isOwnHost (config.guard addresses) (utf8 t) = false →
          ∃ self, replies .selfAddresses = .ok self) := by
    intro t ht
    have hrefused := probe_destinations hnet hvalid haddresses hguarded ht
    rw [answer_connect hauthorized hdeadline rfl hrefused, Option.some_inj]
    exact status_of_refused hunavailable rfl
  simp only [SavedConfig.probes, probes, List.mem_cons, List.mem_map] at hprobe
  rcases hprobe with rfl | rfl | rfl | ⟨t, ht, rfl⟩
  · cases hhost
  · obtain rfl := Option.some.inj hhost
    have hlocal : Netip.parseAddr (go "127.0.0.1") = some (.v4 0x7f000001#32) :=
      hnet.parse (.v4 0x7f000001#32) trivial
    have hsplit : splitTarget (go "127.0.0.1") (go "80") = .ok (go "127.0.0.1", go "80") := by
      decide +kernel
    have hprivate : publicAddress (.v4 0x7f000001#32) = false := by decide +kernel
    have hrefused := destinations_of_refused (config.guard addresses) replies
      hsplit hlocal fun self _ => by simp [admissible, hprivate]
    have hget : (getProbe encoded).method ≠ go "CONNECT" := by
      show go "GET" ≠ go "CONNECT"
      decide
    have hne : go "127.0.0.1" ≠ [] := by decide
    rw [Probe.request, answer_forward hauthorized hdeadline hget rfl rfl hne rfl hrefused,
      Option.some_inj]
    exact status_of_refused hunavailable rfl
  · obtain rfl := Option.some.inj hhost
    rw [Probe.request, hvalid.target]
    exact hconnect _ List.mem_cons_self
  · obtain rfl := Option.some.inj hhost
    exact hconnect t (List.mem_cons_of_mem _ ht)

/-! ## What is sent -/

omit [Ipv6] [Netip] [Unicode] in
theorem decodeText_utf8 (s : List Char) : decodeText (utf8 s) = some s := by
  have hbytes : (utf8 s).toByteArray = s.utf8Encode := rfl
  rw [decodeText, hbytes, List.utf8Decode?_utf8Encode]
  simp

omit [Ipv6] [Netip] [Unicode] in
/-- The check sends what the server has read if this is a text without white space around. -/
theorem sentCredentials_iff {credentials : GoString}
    (hread : readCredentials (.ok credentials) = .ok (user, password)) :
    sentCredentials credentials = some (credentialLine user password) ↔
      ∃ line, utf8 line = credentialLine user password ∧ IsStripped line := by
  constructor
  · intro h
    rcases Option.map_eq_some_iff.1 h with ⟨content, -, hsent⟩
    exact ⟨_, hsent, isStripped_strip _⟩
  · rintro ⟨line, hline, hstripped⟩
    rcases readCredentials_eq_ok.1 hread with ⟨hcredentials, ending, hending, rfl⟩
    have hendings : serverEndings = serverTextEndings.map utf8 := by decide +kernel
    rw [hendings] at hending
    rcases List.mem_map.1 hending with ⟨e, he, rfl⟩
    have hplain : ∀ c ∈ line, c ≠ '\r' ∧ c ≠ '\n' := by
      have hbytes : ∀ c : Char, c.toNat < 128 → c ∈ line → asciiByte c ∈ credentialLine user password := by
        intro c hc hmem
        rw [← hline, asciiByte_mem_utf8 hc]
        exact hmem
      intro c hc
      constructor
      · rintro rfl
        exact (hcredentials.line _ (hbytes '\r' (by decide) hc)).1 rfl
      · rintro rfl
        exact (hcredentials.line _ (hbytes '\n' (by decide) hc)).2 rfl
    have hstrip : strip (universalNewlines (line ++ e)) = line := by
      rw [universalNewlines_append fun c hc => (hplain c hc).1]
      have hself := strip_eq_self.2 hstripped
      simp only [serverTextEndings, List.mem_cons, List.not_mem_nil, or_false] at he
      rcases he with rfl | rfl | rfl | rfl
      · simpa [universalNewlines] using hself
      · simpa [universalNewlines, strip_newline] using hself
      · simpa [universalNewlines, strip_newline] using hself
      · have hsplit : line ++ ['\n', '\n'] = line ++ ['\n'] ++ ['\n'] := by simp
        have hends : universalNewlines ['\n', '\r', '\n'] = ['\n', '\n'] := by
          simp [universalNewlines]
        rw [hends, hsplit, strip_newline, strip_newline, hself]
    rw [sentCredentials, ← hline, ← utf8_append, decodeText_utf8, Option.map_some,
      healthcheckCredentials, hstrip]

omit [Ipv6] [Netip] in
/-- The server authorizes what it has read, if it fits into a header. -/
theorem authorized_sent (hcollision : ∀ key, Function.Injective (hmac key)) {line sent : GoString}
    (hline : line ≠ []) :
    authorized hmac ⟨key, hmac key line⟩ (authorization (base64Encode sent)) = true ↔
      sent = line ∧ line.length ≤ 768 := by
  by_cases hsent : sent = []
  · -- without a header
    subst hsent
    constructor
    · intro h
      cases h
    · rintro ⟨heq, -⟩
      exact absurd heq.symm hline
  · have hlength := length_base64Encode sent
    have hpositive : 0 < sent.length := List.length_pos_iff.2 hsent
    have hne : base64Encode sent ≠ [] := by
      intro hnil
      rw [hnil, List.length_nil] at hlength
      omega
    rw [authorization, if_neg hne, authorized_basic]
    constructor
    · rintro ⟨hle, htag⟩
      obtain rfl := hcollision key htag
      exact ⟨rfl, hle⟩
    · rintro ⟨rfl, hle⟩
      exact ⟨hle, rfl⟩

/-! ## When the health check passes -/

/-- What lets a probe pass: the installed certificate, and for one with credentials a
connection that is prepared and, for a host that the proxy does not know by name, the proxy's
own addresses. -/
def Contact.Passes (guard : GuardConfig) (certificate : List UInt8) (probe : Probe) : Contact → Prop
  | .made peer replies => peer = certificate ∧ ∀ host ∈ probe.host,
      replies .setReadDeadline ≠ .failed ∧
        (isOwnHost guard host = false → ∃ self, replies .selfAddresses = .ok self)
  | _ => False

/-- All probes pass. -/
def Contacts.Pass (guard : GuardConfig) (certificate : List UInt8) (probes : List Probe)
    (contacts : Contacts) : Prop :=
  ∀ p ∈ probes.zipIdx, (contacts p.2).Passes guard certificate p.1

/-- One probe finds no connection, and those before it pass. -/
def Contacts.Interrupted (guard : GuardConfig) (certificate : List UInt8) (probes : List Probe)
    (contacts : Contacts) : Prop :=
  ∃ before p after, probes.zipIdx = before ++ p :: after ∧
    (∀ b ∈ before, (contacts b.2).Passes guard certificate b.1) ∧ contacts p.2 = .failed

section

variable {auth : ProxyAuth Key Tag} {guard : GuardConfig} {certificate : List UInt8}
  {contacts : Contacts} {i : Nat} {r : Request}

omit [Ipv6] in
theorem request_eq_ok {status : Nat} :
    Healthcheck.request hmac auth guard calls upstream certificate contacts i r = .ok status ↔
      ∃ replies, contacts i = .made certificate replies ∧
        answer hmac auth guard calls upstream replies r = some status := by
  rw [Healthcheck.request]
  cases contacts i with
  | failed => simp
  | raised => simp
  | made peer replies =>
      simp only [Contact.made.injEq]
      by_cases hpeer : peer = certificate
      · subst hpeer
        cases hanswer : answer hmac auth guard calls upstream replies r with
        | none => simp [hanswer]
        | some actual => simp [hanswer]
      · simp [hpeer]

omit [Ipv6] in
theorem request_eq_connection :
    Healthcheck.request hmac auth guard calls upstream certificate contacts i r =
      .error .connection ↔ contacts i = .failed := by
  rw [Healthcheck.request]
  cases contacts i with
  | failed => simp
  | raised => simp
  | made peer replies =>
      simp only [reduceCtorEq, iff_false]
      split
      · simp
      · split <;> simp

/-- A probe gets its status from a proxy that authorizes the check exactly if it is to pass. -/
theorem request_passes_iff (hnet : Understands) (hvalid : config.Valid)
    (haddresses : Printed config.selfAddresses addresses)
    (hguarded : ∀ peer replies, contacts i = .made peer replies →
      Guarded (config.guard addresses) replies) {encoded : GoString}
    (hauthorized : authorized hmac auth (authorization encoded) = true) {probe : Probe}
    (hprobe : probe ∈ config.probes) :
    Healthcheck.request hmac auth (config.guard addresses) calls upstream certificate contacts i
        (probe.request encoded) = .ok probe.status ↔
      (contacts i).Passes (config.guard addresses) certificate probe := by
  rw [request_eq_ok]
  cases hcontact : contacts i with
  | failed => simp [Contact.Passes]
  | raised => simp [Contact.Passes]
  | made peer replies =>
      have hrun := hguarded peer replies hcontact
      -- the status comes from this connection
      have hanswer : answer hmac auth (config.guard addresses) calls upstream replies
          (probe.request encoded) = some probe.status ↔ ∀ host ∈ probe.host,
            replies .setReadDeadline ≠ .failed ∧
              (isOwnHost (config.guard addresses) host = false →
                ∃ self, replies .selfAddresses = .ok self) := by
        cases hhost : probe.host with
        | none =>
            cases probe with
            | anonymous =>
                have hanonymous : answer hmac auth (config.guard addresses) calls upstream replies
                    (Probe.anonymous.request encoded) = some 407 := answer_of_unauthorized rfl
                rw [show Probe.anonymous.status = 407 from rfl, hanonymous]
                simp
            | _ => cases hhost
        | some host =>
            have hstatus : probe.status = 403 := by
              cases probe with
              | anonymous => cases hhost
              | _ => rfl
            have hheader : (probe.request encoded).authorization = authorization encoded := by
              cases probe with
              | anonymous => cases hhost
              | _ => rfl
            simp only [hstatus, Option.mem_def, Option.some.injEq, forall_eq']
            by_cases hdeadline : replies .setReadDeadline = .failed
            · have hfailed : answer hmac auth (config.guard addresses) calls upstream replies
                  (probe.request encoded) = some 500 :=
                answer_of_deadline (by rw [hheader]; exact hauthorized) hdeadline
              simp [hfailed, hdeadline]
            · rw [answer_probe hnet hvalid haddresses hrun hauthorized hprobe hhost hdeadline]
              exact (and_iff_right hdeadline).symm
      rw [Contact.Passes, ← hanswer]
      constructor
      · rintro ⟨replies', hmade, hstatus⟩
        obtain ⟨rfl, rfl⟩ := Contact.made.inj hmade
        exact ⟨rfl, hstatus⟩
      · rintro ⟨rfl, hstatus⟩
        exact ⟨replies, rfl, hstatus⟩

/-- A check that is authorized passes when every probe is to pass, -/
theorem checkProxy_passes_iff (hnet : Understands) (hvalid : config.Valid)
    (haddresses : Printed config.selfAddresses addresses)
    (hguarded : ∀ i peer replies, contacts i = .made peer replies →
      Guarded (config.guard addresses) replies) {encoded : GoString}
    (hauthorized : authorized hmac auth (authorization encoded) = true) :
    checkProxy (Healthcheck.request hmac auth (config.guard addresses) calls upstream certificate
        contacts) config.host encoded config.selfAddresses = .ok () ↔
      contacts.Pass (config.guard addresses) certificate config.probes := by
  rw [checkProxy_eq_ok]
  refine forall₂_congr fun p hp => ?_
  exact request_passes_iff hnet hvalid haddresses (hguarded p.2) hauthorized
    (List.fst_mem_of_mem_zipIdx hp)

/-- and is made again when one of them finds no connection behind some that pass. -/
theorem checkProxy_interrupted_iff (hnet : Understands) (hvalid : config.Valid)
    (haddresses : Printed config.selfAddresses addresses)
    (hguarded : ∀ i peer replies, contacts i = .made peer replies →
      Guarded (config.guard addresses) replies) {encoded : GoString}
    (hauthorized : authorized hmac auth (authorization encoded) = true) :
    checkProxy (Healthcheck.request hmac auth (config.guard addresses) calls upstream certificate
        contacts) config.host encoded config.selfAddresses = .error .connection ↔
      contacts.Interrupted (config.guard addresses) certificate config.probes := by
  have hpasses : ∀ p ∈ config.probes.zipIdx,
      Healthcheck.request hmac auth (config.guard addresses) calls upstream certificate contacts p.2
          (p.1.request encoded) = .ok p.1.status ↔
        (contacts p.2).Passes (config.guard addresses) certificate p.1 := fun p hp =>
    request_passes_iff hnet hvalid haddresses (hguarded p.2) hauthorized
      (List.fst_mem_of_mem_zipIdx hp)
  rw [checkProxy_eq_connection]
  constructor
  · rintro ⟨before, p, after, hprobes, hbefore, hp⟩
    refine ⟨before, p, after, hprobes, fun b hb => ?_, request_eq_connection.1 hp⟩
    have hmem : b ∈ config.probes.zipIdx := hprobes ▸ List.mem_append_left _ hb
    exact (hpasses b hmem).1 (hbefore b hb)
  · rintro ⟨before, p, after, hprobes, hbefore, hp⟩
    refine ⟨before, p, after, hprobes, fun b hb => ?_, request_eq_connection.2 hp⟩
    have hmem : b ∈ config.probes.zipIdx := hprobes ▸ List.mem_append_left _ hb
    exact (hpasses b hmem).2 (hbefore b hb)

end

/-- The health check passes exactly for a proxy that guards itself. It sends what the server
has read if this is a text without white space around that fits into a header. While a
connection is refused or reset it starts again, up to its deadline. Then every probe finds the
installed certificate, the connection prepared and the proxy's own addresses known. -/
theorem healthcheck_passes_iff (hnet : Understands)
    (hcollision : ∀ key, Function.Injective (hmac key)) (hvalid : config.Valid)
    (haddresses : Printed config.selfAddresses addresses) {credentials : GoString}
    (hread : readCredentials (.ok credentials) = .ok (user, password)) {certificate : List UInt8}
    {tries : List (Contacts × Bool)}
    (hguarded : ∀ attempt ∈ tries, ∀ i peer replies, attempt.1 i = .made peer replies →
      Guarded (config.guard addresses) replies) :
    Healthcheck.main hmac ⟨key, hmac key (credentialLine user password)⟩ (config.guard addresses)
        calls upstream config certificate credentials tries = some (.ok ()) ↔
      (∃ line, utf8 line = credentialLine user password ∧ IsStripped line) ∧
      (credentialLine user password).length ≤ 768 ∧
      ∃ failed contacts late rest, tries = failed ++ (contacts, late) :: rest ∧
        (∀ attempt ∈ failed, attempt.2 = false ∧
          attempt.1.Interrupted (config.guard addresses) certificate config.probes) ∧
        contacts.Pass (config.guard addresses) certificate config.probes := by
  have hline : credentialLine user password ≠ [] := by simp [credentialLine]
  rw [← sentCredentials_iff hread, Healthcheck.main]
  cases hsent : sentCredentials credentials with
  | none => simp
  | some sent =>
      have hauthorized : authorized hmac ⟨key, hmac key (credentialLine user password)⟩
          (authorization (base64Encode sent)) = true ↔
            sent = credentialLine user password ∧ (credentialLine user password).length ≤ 768 :=
        authorized_sent hcollision hline
      simp only [checkLoop_eq_ok, Option.some_inj]
      constructor
      · rintro ⟨failed, late, rest, hmap, hfailed⟩
        rcases List.map_eq_append_iff.1 hmap with ⟨before, after, rfl, rfl, hafter⟩
        rcases List.map_eq_cons_iff.1 hafter with ⟨⟨contacts, late'⟩, others, rfl, hattempt, -⟩
        obtain ⟨hpass, rfl⟩ := Prod.mk.inj hattempt
        -- the first probe with credentials is not answered like one without
        have hpassed : authorized hmac ⟨key, hmac key (credentialLine user password)⟩
            (authorization (base64Encode sent)) = true := by
          by_contra hno
          rw [Bool.not_eq_true] at hno
          have hprivate := checkProxy_eq_ok.1 hpass (.privateHost, 1)
            (List.mem_cons_of_mem _ List.mem_cons_self)
          rcases request_eq_ok.1 hprivate with ⟨replies, -, hstatus⟩
          rw [answer_of_unauthorized (r := Probe.privateHost.request _) hno] at hstatus
          cases hstatus
        refine ⟨(hauthorized.1 hpassed).1, (hauthorized.1 hpassed).2, before, contacts, late', others,
          rfl, ?_, ?_⟩
        · intro attempt hattempt
          have hrun := hguarded attempt (by simp [hattempt])
          have hend := hfailed _ (List.mem_map_of_mem hattempt)
          obtain ⟨hconnection, hlate⟩ := Prod.mk.inj hend
          exact ⟨hlate, (checkProxy_interrupted_iff hnet hvalid haddresses hrun hpassed).1 hconnection⟩
        · have hrun := hguarded (contacts, late') (by simp)
          exact (checkProxy_passes_iff hnet hvalid haddresses hrun hpassed).1 hpass
      · rintro ⟨rfl, hlength, failed, contacts, late, rest, rfl, hfailed, hpass⟩
        have hpassed := hauthorized.2 ⟨rfl, hlength⟩
        rw [List.map_append, List.map_cons]
        refine ⟨_, late, _, congrArg₂ (· ++ ·) rfl (congrArg₂ List.cons (Prod.ext ?_ rfl) rfl), ?_⟩
        · have hrun := hguarded (contacts, late) (by simp)
          exact (checkProxy_passes_iff hnet hvalid haddresses hrun hpassed).2 hpass
        · intro check hcheck
          rcases List.mem_map.1 hcheck with ⟨attempt, hattempt, rfl⟩
          rcases hfailed attempt hattempt with ⟨hlate, hinterrupted⟩
          have hrun := hguarded attempt (by simp [hattempt])
          refine Prod.ext ?_ hlate
          exact (checkProxy_interrupted_iff hnet hvalid haddresses hrun hpassed).2 hinterrupted

end

section

attribute [local instance] Ipv6.sample Tables.ascii Unicode.sample Netip.ofManager

/-- The two addresses of the sample. -/
def ownAddresses : Finset Addr :=
  insert (.v4 0x08080808#32) (unmapped [.v4 0x08080404#32]) ∪ unmapped []

/-- A proxy that works. -/
def Serve.Call.works : (c : Serve.Call) → c.Reply
  | .setReadDeadline => .cleared
  | .selfAddresses => .ok ownAddresses
  | .lookup _ => .error []
  | .ctxErr => none
  | .dial _ => .ok ()
  | .dialContext | .roundTrip => false
  | .proxyAuthRequired | .httpError _ _ | .writeDestinationError _ | .tunnel | .relay => ()

theorem SavedConfig.twoAddresses_valid : SavedConfig.twoAddresses.Valid where
  ip _ := ⟨0x08080808#32, by decide +kernel, by decide +kernel⟩
  domain hkind := absurd hkind (by decide)
  length := by decide
  host_chars := by
    have hall : SavedConfig.twoAddresses.host.all isHostChar = true := by decide
    exact List.all_eq_true.1 hall
  port := checkPort_settingsPort (by rfl : settingsPort "443".toList = .ok 443)
  addresses := by
    refine ⟨by decide, fun t ht => ⟨.v4 0x08080404#32, trivial, by decide +kernel, ?_⟩⟩
    rw [List.mem_singleton.1 ht]
    decide +kernel

theorem SavedConfig.twoAddresses_printed :
    Printed SavedConfig.twoAddresses.selfAddresses [.v4 0x08080404#32] :=
  .cons ⟨trivial, by decide +kernel, by decide +kernel⟩ .nil

theorem guarded_works :
    Guarded (SavedConfig.twoAddresses.guard [.v4 0x08080404#32]) Serve.Call.works := by
  have hhost : Netip.parseAddr (utf8 SavedConfig.twoAddresses.host) = some (.v4 0x08080808#32) :=
    understands_ofManager.parse (.v4 0x08080808#32) trivial
  have hstart : startGuard (SavedConfig.twoAddresses.guard [.v4 0x08080404#32]) =
      .locals (insert (.v4 0x08080808#32) (unmapped [.v4 0x08080404#32])) := by
    have hne : utf8 SavedConfig.twoAddresses.host ≠ [] := by decide
    have hpublic : ∃ a ∈ insert (Addr.v4 0x08080808#32) (unmapped [.v4 0x08080404#32]),
        publicAddress a = true := ⟨_, Finset.mem_insert_self _ _, by decide +kernel⟩
    simp only [startGuard, SavedConfig.guard, hne, if_false, hhost]
    exact if_pos hpublic
  have hrun : Run (Guard.step (SavedConfig.twoAddresses.guard [.v4 0x08080404#32])) Guard.init
      [.call 0, .locals 0 (.ok [])]
      ((Guard.init.setPhase 0 (.locals (insert (.v4 0x08080808#32) (unmapped [.v4 0x08080404#32])))).setPhase
        0 (.done (.ok ownAddresses))) := by
    apply Run.of_follow
    simp only [follow, Guard.step, Guard.init, hstart]
    rfl
  exact ⟨_, _, 0, hrun, Guard.setPhase_self _ _ _⟩

/-- The proxy is up at the second try. -/
theorem healthcheck_passes_iff_sample :
    Healthcheck.main .transparent ⟨(), credentialLine (go "browser") (go "secret")⟩
        (SavedConfig.twoAddresses.guard [.v4 0x08080404#32]) 0 200 .twoAddresses [1, 2]
        (go "browser:secret\n")
        [(fun _ => .failed, false), (fun _ => .made [1, 2] Serve.Call.works, false)] =
      some (.ok ()) := by
  have hcollision : ∀ key, Function.Injective (Hmac.transparent key) := fun _ _ _ h => h
  have hread : readCredentials (.ok (go "browser:secret\n")) = .ok (go "browser", go "secret") := by
    decide +kernel
  refine (healthcheck_passes_iff understands_ofManager hcollision SavedConfig.twoAddresses_valid
    SavedConfig.twoAddresses_printed hread ?_).2 ⟨⟨"browser:secret".toList, ?_, ?_⟩, by decide,
      [_], fun _ => .made [1, 2] Serve.Call.works, false, [], rfl, ?_, ?_⟩
  · intro attempt hattempt i peer replies hmade
    simp only [List.mem_cons, List.not_mem_nil, or_false] at hattempt
    rcases hattempt with rfl | rfl
    · cases hmade
    · obtain ⟨-, rfl⟩ := Contact.made.inj hmade
      exact guarded_works
  · decide +kernel
  · constructor <;>
    · rintro c ⟨⟩
      decide
  · intro attempt hattempt
    rw [List.mem_singleton.1 hattempt]
    exact ⟨rfl, [], _, _, rfl, nofun, rfl⟩
  · intro p _
    refine ⟨rfl, fun host _ => ⟨?_, fun _ => ⟨_, rfl⟩⟩⟩
    intro hfailed
    cases hfailed

end

end BrowserVpn
