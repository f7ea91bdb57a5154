import BrowserVpn.Async.Implement
import BrowserVpn.Server.Headers
import BrowserVpn.Server.Refusals
import BrowserVpn.Server.Serve

/-!
# Server.Respond — the answer to a request

`Server.Serve` ends where there is a connection or a response. Here is the rest: the
refusals, the tunnel of `connect`, and what `forwardHTTP` does with a response, which is
copied or, when it switches protocols, becomes a tunnel as well. `Wire` is what both
sides have seen of it.
-/

namespace BrowserVpn

open Async Data

/-- `Add`. -/
def Header.add (h : Header) (name value : GoString) : Header :=
  fun k => if k = canonicalKey name then some (h.values name ++ [value]) else h k

/-- A header without fields. -/
def Header.empty : Header := fun _ => none

namespace Respond

/-- `http.Response`. `writable` says that its body is an `io.ReadWriteCloser`. -/
structure Response where
  status : GoString
  statusCode : Nat
  header : Header
  writable : Bool

/-- The error of a `Read`. -/
inductive ReadEnd where
  | none
  | eof
  | failed
deriving DecidableEq

inductive Call where
  /-- A call of the part before. -/
  | ask (c : Serve.Call)
  /-- What the transport has returned. -/
  | response
  | httpError (status : Nat) (text : GoString)
  | setHeader (name value : GoString)
  | addHeader (name value : GoString)
  | writeHeader (status : Nat)
  | write (data : GoString)
  | isFlusher
  | flush
  | isHijacker
  | hijack
  | writeClient (text : GoString)
  /-- `Header.Write` to the client. -/
  | writeFields (header : Header)
  /-- Both copies are started. -/
  | startCopies
  /-- `<-done` -/
  | receiveDone
  | closeClient
  | closeUpstream
  /-- The order in which `range` takes the fields. -/
  | range (header : Header)
  | readBody
  | closeBody
  /-- A loop goes on beyond what is looked at. -/
  | unfinished

@[reducible] def Call.Reply : Call → Type
  | .ask c => c.Reply
  | .response => Response
  | .write _ => Nat × Bool
  | .isFlusher | .isHijacker | .hijack | .writeClient _ | .writeFields _ => Bool
  | .range _ => List GoString
  | .readBody => GoString × ReadEnd
  | .unfinished => Empty
  | _ => Unit

/-- `panic(http.ErrAbortHandler)` -/
inductive Panic where
  | errAbortHandler
deriving DecidableEq

abbrev api : Api where
  Call := Call
  Reply := Call.Reply
  Error := Panic
  Var := Unit
  Write := Empty
  apply w := w.elim

abbrev Responder := Prog api

def request (c : Call) : Responder c.Reply := Prog.await (A := api) c

/-! ## Refusals -/

/-- The end of `ServeHTTP` for a request without credentials. -/
def requireAuth : Responder Unit := do
  request (.setHeader (go "Proxy-Authenticate") (go "Basic realm=\"Self Hosted Browser VPN\""))
  request (.setHeader (go "Cache-Control") (go "no-store"))
  request (.setHeader (go "Content-Length") (go "0"))
  request (.writeHeader 407)

def refuse (err : DestinationError) : Responder Unit :=
  request (.httpError (writeDestinationError err).1 (writeDestinationError err).2)

/-! ## Tunnels -/

/-- The end of `connect` and `relayUpgrade`. -/
def spliceUntilDone (closeUpstream : Responder Unit) : Responder Unit := do
  request .startCopies
  request .receiveDone
  request .closeClient
  closeUpstream
  request .receiveDone

/-- `connect` with its connection. -/
def connectTail : Responder Unit := do
  if !(← request .isHijacker) then
    request .closeUpstream
    request (.httpError 500 (go "tunneling unavailable"))
  else if !(← request .hijack) then
    -- no answer is tried on a connection that could not be taken over
    request .closeUpstream
  else if !(← request (.writeClient (go "HTTP/1.1 200 Connection Established\r\n\r\n"))) then
    request .closeClient
    request .closeUpstream
  else
    spliceUntilDone (request .closeUpstream)

def relayUpgrade (response : Response) : Responder Unit := do
  if !response.writable then
    request (.httpError 502 (go "upstream protocol switch unavailable"))
  else if !(← request .isHijacker) then
    request (.httpError 500 (go "tunneling unavailable"))
  else if !(← request .hijack) then
    -- the body is closed by what `forwardHTTP` has deferred
    return ()
  else if !(← request (.writeClient (go "HTTP/1.1 " ++ response.status ++ go "\r\n"))) then
    request .closeClient
  else if !(← request (.writeFields response.header)) then
    request .closeClient
  else if !(← request (.writeClient (go "\r\n"))) then
    request .closeClient
  else
    spliceUntilDone (request .closeBody)

/-! ## Responses -/

/-- `flushingWriter.Write`. -/
def flushingWrite (data : GoString) : Responder (Nat × Bool) := do
  let (n, failed) ← request (.write data)
  if n > 0 then
    request .flush
  return (n, failed)

/-- One round of `io.Copy` writes only if something was read. -/
def writeChunk (write : GoString → Responder (Nat × Bool)) (data : GoString) :
    Responder (Nat × Bool) :=
  if data ≠ [] then write data else return (0, false)

/-- `io.Copy` from the body: whether it returns an error. -/
def ioCopy (write : GoString → Responder (Nat × Bool)) : Nat → Responder Bool
  | 0 => request .unfinished >>= Empty.elim
  | rounds + 1 => do
      let (data, ended) ← request .readBody
      let (n, failed) ← writeChunk write data
      -- an error of the write comes before `io.ErrShortWrite`, and both before that of the read
      if failed || n ≠ data.length then
        return true
      else match ended with
        | .none => ioCopy write rounds
        | .eof => return false
        | .failed => return true

def addValues (name : GoString) : List GoString → Responder Unit
  | [] => return ()
  | value :: values => do
      request (.addHeader name value)
      addValues name values

/-- The loops over the fields of a header. -/
def copyFields (header : Header) : List GoString → Responder Unit
  | [] => return ()
  | name :: names => do
      addValues name ((header name).getD [])
      copyFields header names

/-- Whether the body could not be copied. -/
def copyBody (rounds : Nat) : Responder Bool := do
  if ← request .isFlusher then
    -- the head goes out before there is any data
    request .flush
    ioCopy flushingWrite rounds
  else
    ioCopy (fun data => request (.write data)) rounds

/-- The response of a server that keeps to its protocol. -/
def copyResponse (rounds : Nat) (response : Response) : Responder Unit := do
  let header := removeHopHeaders response.header
  copyFields header (← request (.range header))
  request (.writeHeader response.statusCode)
  if ← copyBody rounds then
    -- the head is out: only an abort keeps the client from taking a part for the whole
    throw .errAbortHandler

section

variable [Unicode]

def relayResponse (rounds : Nat) (header : Header) (response : Response) : Responder Unit :=
  if response.statusCode = 101 then
    if !wantsUpgrade header || !headerHasToken response.header (go "Connection") (go "Upgrade") ||
        response.header.get (go "Upgrade") = [] then
      request (.httpError 502 (go "invalid upstream protocol switch"))
    else relayUpgrade response
  else copyResponse rounds response

/-- `forwardHTTP` with a response. -/
def forwardTail (rounds : Nat) (header : Header) : Responder Unit := do
  let response ← request .response
  -- `defer response.Body.Close()`
  (relayResponse rounds header response).finallyDo (request .closeBody)

/-! ## ServeHTTP -/

/-- What stands for the calls of `Server.Serve`, for a request with this header. -/
def layer (rounds : Nat) (header : Header) : Implementation Serve.api api where
  var := id
  write := id
  error := Empty.elim
  call c :=
    match c with
    | .proxyAuthRequired => requireAuth
    | .httpError status text => request (.httpError status text)
    | .writeDestinationError err => refuse err
    | .tunnel => connectTail
    | .relay => forwardTail rounds header
    -- the questions about the destination stay calls
    | c => request (.ask c)

variable {Key Tag : Type} [DecidableEq Tag] [Netip]

/-- `ServeHTTP`, to the end. -/
def serveHTTP (hmac : Hmac Key Tag) (auth : ProxyAuth Key Tag) (config : GuardConfig)
    (calls rounds : Nat) (header : Header) (r : Serve.Request) : Responder Unit :=
  (Serve.serveHTTP hmac auth config calls r).implement (layer rounds header)

end

/-! ## What both sides see -/

/-- The beginning of an answer. -/
inductive Head where
  /-- `http.Error`. -/
  | error (status : Nat) (text : GoString)
  /-- `WriteHeader`, with the fields as they are then. -/
  | status (code : Nat) (header : Header)
  | hijacked

/-- What was written to a connection that was taken over. -/
inductive Raw where
  | text (text : GoString)
  | fields (header : Header)

/-- What has happened on the side of the client and on that of the destination. -/
structure Wire where
  header : Header := .empty
  heads : List Head := []
  /-- What `Write` has taken, and how much of it was flushed. -/
  body : GoString := []
  flushed : Nat := 0
  /-- There was a read while something was not flushed. -/
  delayed : Bool := false
  /-- A write was not complete. -/
  cut : Bool := false
  flusher : Bool := false
  hijackFailed : Bool := false
  raw : List Raw := []
  clientClosed : Bool := false
  /-- The copies that were started and not heard of. -/
  copies : Nat := 0
  spliced : Bool := false
  /-- The connections that were made. -/
  dialed : Nat := 0
  upstreamClosed : Bool := false
  response : Option Response := none
  /-- What was read of the body, and how the last read ended. -/
  read : GoString := []
  ended : ReadEnd := .none
  bodyClosed : Bool := false

/-- `Write` and `Flush` begin an answer if nothing has. -/
def Wire.begin (w : Wire) : Wire :=
  if w.heads = [] then { w with heads := [.status 200 w.header] } else w

/-- What a call with its answer leaves. -/
def Wire.after (w : Wire) : (c : Call) → c.Reply → Wire
  | .ask (.dial _), .ok () => { w with dialed := w.dialed + 1 }
  | .response, response => { w with response := some response }
  | .httpError status text, _ => { w with heads := w.heads ++ [.error status text] }
  | .setHeader name value, _ => { w with header := w.header.set name value }
  | .addHeader name value, _ => { w with header := w.header.add name value }
  | .writeHeader status, _ => { w with heads := w.heads ++ [.status status w.header] }
  | .write data, (n, failed) => { w.begin with
      body := w.body ++ data.take n, cut := w.cut || failed || n ≠ data.length }
  | .isFlusher, flusher => { w with flusher := flusher }
  | .flush, _ => { w.begin with flushed := w.body.length }
  | .hijack, true => { w with heads := w.heads ++ [.hijacked] }
  | .hijack, false => { w with hijackFailed := true }
  | .writeClient text, true => { w with raw := w.raw ++ [.text text] }
  | .writeFields header, true => { w with raw := w.raw ++ [.fields header] }
  | .startCopies, _ => { w with copies := 2, spliced := true }
  | .receiveDone, _ => { w with copies := w.copies - 1 }
  | .closeClient, _ => { w with clientClosed := true }
  | .closeUpstream, _ => { w with upstreamClosed := true }
  | .readBody, (data, ended) => { w with
      read := w.read ++ data, ended := ended
      delayed := w.delayed || w.flushed ≠ w.body.length }
  | .closeBody, _ => { w with bodyClosed := true }
  | _, _ => w

/-- What a call can answer. The fields of a header are taken in any order; those that
were received have their keys in canonical form, and a value. -/
def Answers : (c : Call) → c.Reply → Prop
  | .response, response =>
      response.header.Canonical ∧ ∀ name, response.header name ≠ some []
  | .write data, (n, _) => n ≤ data.length
  | .range header, names => names.Nodup ∧ ∀ name, name ∈ names ↔ (header name).isSome = true
  | _, _ => True

def effect : Effect api Wire := fun w c r w' => ∃ a, r = .ok a ∧ Answers c a ∧ w' = w.after c a

end Respond

end BrowserVpn
