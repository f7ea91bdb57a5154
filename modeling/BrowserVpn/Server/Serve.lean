import BrowserVpn.Async.Alone
import BrowserVpn.Server.Auth
import BrowserVpn.Server.Destinations

/-!
# Server.Serve — one request

`ServeHTTP` up to the connection to the destination, with the two ways that lead
there: `connect` dials for itself, `forwardHTTP` hands `dialDestinations` to an
`http.Transport`, which calls it as often as it needs a connection. The guard
that the request computes is a call of `Server.Guard`, which other requests
interleave with.
-/

namespace BrowserVpn.Serve

open Async Data

/-- `url.URL`, as far as it is looked at. -/
structure Url where
  scheme : GoString
  host : GoString
  hasUser : Bool

/-- `http.Request`: `authorization` is the value of its `Proxy-Authorization`. -/
structure Request where
  method : GoString
  authorization : GoString
  host : GoString
  url : Option Url

/-- What `SetReadDeadline` returned. -/
inductive Deadline where
  | cleared
  | notSupported
  | failed
deriving DecidableEq

inductive Call where
  | setReadDeadline
  | selfAddresses
  | lookup (host : GoString)
  | ctxErr
  | dial (target : GoString)
  /-- The transport asks for a connection, or for no other. -/
  | dialContext
  | roundTrip
  | proxyAuthRequired
  | httpError (status : Nat) (text : GoString)
  | writeDestinationError (err : DestinationError)
  /-- What `connect` does with its connection. -/
  | tunnel
  /-- What `forwardHTTP` does with the response. -/
  | relay

@[reducible] def Call.Reply : Call → Type
  | .setReadDeadline => Deadline
  | .selfAddresses => Except DestinationError (Finset Addr)
  | .lookup _ => Except GoString (List Addr)
  | .ctxErr => Option GoString
  | .dial _ => Except GoString Unit
  | .dialContext | .roundTrip => Bool
  | _ => Unit

abbrev api : Api where
  Call := Call
  Reply := Call.Reply
  Error := Empty
  Var := Unit
  Write := Empty
  apply w := w.elim

abbrev Handler := Prog api

def request (c : Call) : Handler c.Reply := Prog.await (A := api) c

section

variable [Netip] [Unicode]

/-- The targets of a host that is not the proxy, with the set of its addresses. -/
def vetted (self : Finset Addr) (host port : GoString) :
    Handler (Except DestinationError (List GoString)) := do
  match Netip.parseAddr host with
  | some literal =>
      if !publicAddress literal || isSelfAddress self literal then
        return .error .forbidden
      else
        return .ok [dialTarget port literal]
  | none =>
      match ← request (.lookup host) with
      | .error err => return .error (.lookup err)
      | .ok addrs =>
          let targets := (addrs.filter (admissible self)).map (dialTarget port)
          if targets.isEmpty then
            return .error .forbidden
          else
            return .ok targets

/-- `destinations`, with its calls. -/
def findDestinations (config : GuardConfig) (authority defaultPort : GoString) :
    Handler (Except DestinationError (List GoString)) := do
  match splitTarget authority defaultPort with
  | .error message => return .error (.invalid message)
  | .ok (host, port) =>
      if isOwnHost config host then
        return .error .forbidden
      else
        match ← request .selfAddresses with
        | .error err => return .error err
        | .ok self => vetted self host port

/-- `dialDestinations`, from the last error on. -/
def dialDestinations : List GoString → GoString → Handler (Except GoString Unit)
  | [], lastErr => return .error (go "connect to public destination: " ++ lastErr)
  | target :: rest, _ => do
      match ← request .ctxErr with
      | some err => return .error err
      | none =>
          match ← request (.dial target) with
          | .ok () => return .ok ()
          | .error err => dialDestinations rest err

/-- How `fmt` prints an error that is `nil`. -/
def nilError : GoString := go "%!w(<nil>)"

def connect (config : GuardConfig) (r : Request) : Handler Unit := do
  match ← findDestinations config r.host [] with
  | .error err => request (.writeDestinationError err)
  | .ok targets =>
      match ← dialDestinations targets nilError with
      | .error _ => request (.httpError 502 (go "upstream connection failed"))
      | .ok () => request .tunnel

/-- `transport.RoundTrip`, in which `DialContext` is called at most `calls` times. -/
def roundTrip (targets : List GoString) : Nat → Handler Bool
  | 0 => request .roundTrip
  | calls + 1 => do
      if ← request .dialContext then
        let _ ← dialDestinations targets nilError
        roundTrip targets calls
      else
        request .roundTrip

def forwardHTTP (config : GuardConfig) (calls : Nat) (url : Url) : Handler Unit := do
  match ← findDestinations config url.host (go "80") with
  | .error err => request (.writeDestinationError err)
  | .ok targets =>
      if ← roundTrip targets calls then
        request .relay
      else
        request (.httpError 502 (go "upstream request failed"))

variable {Key Tag : Type} [DecidableEq Tag]

/-- What `ServeHTTP` does with a request that is authorized. -/
def serveAuthorized (config : GuardConfig) (calls : Nat) (r : Request) : Handler Unit := do
  match ← request .setReadDeadline with
  | .failed => request (.httpError 500 (go "could not prepare authenticated connection"))
  | .cleared | .notSupported =>
      if r.method = go "CONNECT" then
        connect config r
      else
        match r.url with
        | none => request (.httpError 400 (go "absolute HTTP URL required"))
        | some url =>
            if url.scheme ≠ go "http" ∨ url.host = [] ∨ url.hasUser then
              request (.httpError 400 (go "absolute HTTP URL required"))
            else
              forwardHTTP config calls url

def serveHTTP (hmac : Hmac Key Tag) (auth : ProxyAuth Key Tag) (config : GuardConfig) (calls : Nat)
    (r : Request) : Handler Unit :=
  if !authorized hmac auth r.authorization then request .proxyAuthRequired
  else serveAuthorized config calls r

end

section

variable (answers : (c : Call) → c.Reply) {α β : Type}

/-- What a handler returns where each call has one answer. -/
def returned : Handler α → α
  | .done (.ok a) => a
  | .done (.error e) => e.elim
  | .read k => returned (k ())
  | .write w _ => w.elim
  | .call c k => returned (k (.ok (answers c)))

theorem returned_bind (p : Handler α) (f : α → Handler β) :
    returned answers (p >>= f) = returned answers (f (returned answers p)) := by
  induction p with
  | done r =>
      cases r with
      | ok a => rfl
      | error e => exact e.elim
  | read k ih => exact ih ()
  | write w k ih => exact w.elim
  | call c k ih => exact ih (.ok (answers c))

variable [Netip] [Unicode]

/-- The calls of `findDestinations` are those of which `destinations` takes the
answers. -/
theorem findDestinations_eq (config : GuardConfig) (authority defaultPort : GoString) :
    returned answers (findDestinations config authority defaultPort) =
      destinations config (answers .selfAddresses) (fun host => answers (.lookup host))
        authority defaultPort := by
  rw [findDestinations, destinations]
  cases splitTarget authority defaultPort with
  | error message => rfl
  | ok hostPort =>
      obtain ⟨host, port⟩ := hostPort
      simp only
      split
      · rfl
      rw [returned_bind]
      change returned answers (match answers .selfAddresses with
        | .error err => return .error err
        | .ok self => vetted self host port) = _
      cases answers .selfAddresses with
      | error err => rfl
      | ok self =>
          simp only [vetted]
          cases Netip.parseAddr host with
          | some literal =>
              simp only
              split <;> rfl
          | none =>
              simp only
              rw [returned_bind]
              change returned answers (match answers (.lookup host) with
                | .error err => _
                | .ok addrs => _) = _
              cases answers (.lookup host) with
              | error err => rfl
              | ok addrs =>
                  simp only
                  split <;> rfl

end

/-! ## What surrounds a request -/

/-- The guard of the server, and the steps that brought it there. -/
structure Site where
  guard : Guard
  labels : List GuardLabel

variable [Netip]

/-- A state of the guard that a server started with `config` comes to. -/
def Site.Reached (config : GuardConfig) (s : Site) : Prop :=
  Run (Guard.step config) Guard.init s.labels s.guard

/-- While a call is under way the guard goes on. The request's own call of
`selfAddresses` is the one with the number `id`; all else may answer anything. -/
def effect (config : GuardConfig) (id : Nat) : Effect api Site := fun s c r s' =>
  (∃ ls, s'.labels = s.labels ++ ls ∧ Run (Guard.step config) s.guard ls s'.guard) ∧
    match c, r with
    | .selfAddresses, .ok result => s'.guard.phase id = .done result
    | _, _ => True

end BrowserVpn.Serve
