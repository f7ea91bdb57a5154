import BrowserVpn.Server.Dialing
import BrowserVpn.Server.Respond

/-!
# Server.Answered — one answer, and nothing left open

However a request ends, the client has got one answer or its connection was taken over,
every connection and body that was opened is closed and no copy goes on. A response is
copied without the fields about its connection and in the order it is read, and the
handler returns only if it was copied to its end: a part of a response is never made to
look like a whole one.
-/

namespace BrowserVpn.Respond

open Async Data

/-! ## What is owed -/

/-- What is written before the copies when protocols are switched. -/
def switching (response : Response) : List Raw :=
  [.text (go "HTTP/1.1 " ++ response.status ++ go "\r\n"), .fields response.header, .text (go "\r\n")]

/-- A response that was copied. -/
structure Copied (response : Response) (returned : Prop) (w : Wire) : Prop where
  head : w.heads = [.status response.statusCode (removeHopHeaders response.header)]
  inOrder : w.body <+: w.read
  whole : w.cut = false → w.body = w.read
  prompt : w.flusher = true → w.delayed = false ∧ w.flushed = w.body.length
  returned_iff : returned ↔ w.ended = .eof ∧ w.cut = false

section

variable [Unicode]

/-- A response that switches protocols. -/
structure Switched (header : Header) (response : Response) (w : Wire) : Prop where
  asked : .hijacked ∈ w.heads → (∃ protocol, AsksUpgrade header protocol) ∧
    headerHasToken response.header (go "Connection") (go "Upgrade") = true ∧
    response.header.get (go "Upgrade") ≠ []
  inOrder : w.raw <+: switching response
  whole : w.spliced = true → .hijacked ∈ w.heads ∧ w.raw = switching response
  untouched : w.body = [] ∧ w.read = []

/-- A request that has ended, by a return or by a panic. -/
structure Concluded (connects : Prop) (header : Header) (returned : Prop) (w : Wire) : Prop where
  answered : (∃ head, w.heads = [head]) ∨ w.heads = [] ∧ w.hijackFailed = true
  copies : w.copies = 0
  client : .hijacked ∈ w.heads → w.clientClosed = true
  body : w.response.isSome = true → w.bodyClosed = true
  upstream : connects → w.dialed ≤ 1 ∧ (w.dialed = 1 → w.upstreamClosed = true)
  complete : w.response = none → returned
  copied : ∀ response, w.response = some response → response.statusCode ≠ 101 →
    Copied response returned w
  switched : ∀ response, w.response = some response → response.statusCode = 101 →
    returned ∧ Switched header response w

end

/-! ## Rules -/

/-- `p` returns in `Q` and panics in `E`. -/
def Does {α : Type} (p : Responder α) (w : Wire) (Q : α → Wire → Prop) (E : Panic → Wire → Prop) :
    Prop :=
  wp (.alone effect fun _ _ => True) p (Settling Q E) w

namespace Does

variable {α β : Type} {p : Responder α} {w : Wire} {Q Q' : α → Wire → Prop} {E : Panic → Wire → Prop}

theorem request {c : Call} {Q : c.Reply → Wire → Prop} (h : ∀ a, Answers c a → Q a (w.after c a)) :
    Does (request c) w Q E := by
  refine ⟨trivial, ?_⟩
  rintro r w' ⟨a, rfl, hanswer, rfl⟩
  exact h a hanswer

theorem bind {f : α → Responder β} {Q : β → Wire → Prop} (h : Does p w (fun a w' => Does (f a) w' Q E) E) :
    Does (p >>= f) w Q E :=
  wp_onReturn h fun _ _ he => he

theorem pure {a : α} (h : Q a w) : Does (pure a) w Q E := h

theorem mono (h : Does p w Q E) (hQ : ∀ a w', Q a w' → Q' a w') : Does p w Q' E := by
  apply wp_mono _ h
  intro r w' hr
  cases r with
  | ok a => exact hQ a w' hr
  | error e => exact hr

/-- A call and what follows it. -/
theorem call {c : Call} {f : c.Reply → Responder β} {Q : β → Wire → Prop}
    (h : ∀ a, Answers c a → Does (f a) (w.after c a) Q E) : Does (Respond.request c >>= f) w Q E :=
  bind (request h)

/-- What is deferred runs in both cases. -/
theorem finallyDo {cleanup : Responder Unit}
    (h : Does p w (fun a w' => Does cleanup w' (fun _ => Q a) E)
      fun e w' => Does cleanup w' (fun _ => E e) E) : Does (p.finallyDo cleanup) w Q E := by
  rw [Does, Prog.finallyDo, wp_andThen]
  apply wp_mono _ h
  intro r w' hr
  cases r with
  | ok a => exact wp_onReturn hr fun _ _ he => he
  | error e => exact wp_onReturn hr fun _ _ he => he

end Does

section

variable [Unicode] {header : Header} {E : Panic → Wire → Prop} {n : Nat}

/-! ## Tunnels -/

variable {connects : Prop} {response : Response}

section

omit [Unicode]

end

/-! ## forwardHTTP -/

/-- When a call may be made: a tunnel has one connection; where `connect` refuses there
is none. -/
def Due (connects : Prop) : Serve.Call → Wire → Prop
  | .proxyAuthRequired, w | .httpError _ _, w | .writeDestinationError _, w =>
      ∃ n, w = { dialed := n } ∧ (connects → n = 0)
  | .tunnel, w => connects ∧ w = { dialed := 1 }
  | .relay, w => ¬ connects ∧ ∃ n, w = { dialed := n }
  | _, _ => True

/-- What a call leaves: with its last one the request has ended. -/
def Leaves (connects : Prop) (header : Header) : (c : Serve.Call) → c.Reply → Wire → Wire → Prop
  | .proxyAuthRequired, _, _, w' | .httpError _ _, _, _, w' | .writeDestinationError _, _, _, w'
  | .tunnel, _, _, w' | .relay, _, _, w' => Concluded connects header True w'
  | c, a, w, w' => w' = w.after (.ask c) a

/-- What `Server.Serve` may rely on. -/
def contract (connects : Prop) (header : Header) : Logic Serve.api Wire where
  reads w _ w' := w' = w
  mayWrite _ _ := True
  write _ w := w
  mayCall := Due connects
  issue _ w := w
  replies c w r w' := ∃ a, r = .ok a ∧ Leaves connects header c a w w'

section

variable [Netip]

/-- A call that leaves both sides as they are. -/
def Inquires : Serve.Call → Prop
  | .setReadDeadline | .selfAddresses | .lookup _ | .ctxErr | .dialContext | .roundTrip => True
  | _ => False

omit [Netip] in
/-- What only asks leaves both sides as they are. -/
theorem wp_inquires {α : Type} {p : Serve.Handler α} (hp : p.Within Inquires fun _ => True) (w : Wire) :
    wp (contract connects header) p (fun _ w' => w' = w) w := by
  apply wp_of_within (I := fun w' => w' = w) _ hp
  · intro x v x' hx hread
    exact hread.trans hx
  · intro write
    exact write.elim
  · intro c x hx hc
    subst hx
    constructor
    · cases c with
      | setReadDeadline | selfAddresses | lookup _ | ctxErr | dialContext | roundTrip => trivial
      | _ => exact hc.elim
    · rintro r x' ⟨a, -, hleaves⟩
      cases c with
      | setReadDeadline | selfAddresses | lookup _ | ctxErr | dialContext | roundTrip => exact hleaves
      | _ => exact hc.elim
  · rfl

omit [Netip] in
theorem wp_asks (c : Serve.Call) (h : Inquires c) (w : Wire) :
    wp (contract connects header) (Serve.request c) (fun _ w' => w' = w) w := by
  have hp : (Serve.request c).Within Inquires fun _ => True := ⟨h, fun _ => trivial⟩
  exact wp_inquires hp w

omit [Unicode] in
theorem within_vetted (self : Finset Addr) (host port : GoString) :
    (Serve.vetted self host port).Within Inquires fun _ => True := by
  rw [Serve.vetted]
  split
  · split
    · trivial
    · trivial
  · refine ⟨trivial, ?_⟩
    intro reply
    cases reply with
    | error e => exact e.elim
    | ok result =>
        cases result with
        | error err => trivial
        | ok addrs =>
            simp only [Prog.andThen, Prog.onReturn]
            split
            · trivial
            · trivial

theorem within_findDestinations (config : GuardConfig) (authority defaultPort : GoString) :
    (Serve.findDestinations config authority defaultPort).Within Inquires fun _ => True := by
  rw [Serve.findDestinations]
  split
  · trivial
  · split
    · trivial
    · refine ⟨trivial, ?_⟩
      intro reply
      cases reply with
      | error e => exact e.elim
      | ok result =>
          cases result with
          | error err => trivial
          | ok self => exact within_vetted self _ _

section

omit [Netip]

/-- The first connection that is made ends the attempts. -/
theorem wp_dialDestinations {targets : List GoString} : ∀ {lastErr : GoString} {w : Wire},
    wp (contract connects header) (Serve.dialDestinations targets lastErr)
      (fun r w' => (∃ err, r = .ok (.error err)) ∧ w' = w ∨
        r = .ok (.ok ()) ∧ w' = { w with dialed := w.dialed + 1 }) w := by
  induction targets with
  | nil => exact fun {lastErr w} => Or.inl ⟨⟨_, rfl⟩, rfl⟩
  | cons target targets ih =>
      intro lastErr w
      apply wp_bind _ (wp_asks .ctxErr trivial w)
      · intro err w' hw'
        subst hw'
        cases err with
        | some err => exact Or.inl ⟨⟨err, rfl⟩, rfl⟩
        | none =>
            refine ⟨trivial, ?_⟩
            rintro r w'' ⟨a, rfl, hleaves⟩
            cases a with
            | ok connection => exact Or.inr ⟨rfl, hleaves⟩
            | error err =>
                rw [show w'' = w' from hleaves]
                exact ih
      · intro e
        exact e.elim

/-- However often the transport dials. -/
theorem wp_roundTrip {targets : List GoString} {calls : Nat} : ∀ {w : Wire} {n : Nat},
    w = { dialed := n } → wp (contract connects header) (Serve.roundTrip targets calls)
      (fun _ w' => ∃ n, w' = { dialed := n }) w := by
  induction calls with
  | zero =>
      intro w n hw
      apply wp_mono _ (wp_asks .roundTrip trivial w)
      intro _ w' hw'
      exact ⟨n, hw'.trans hw⟩
  | succ calls ih =>
      intro w n hw
      apply wp_bind _ (wp_asks .dialContext trivial w)
      · intro again w' hw'
        subst hw'
        split
        · apply wp_bind _ wp_dialDestinations
          · intro _ w'' hw''
            rcases hw'' with ⟨-, rfl⟩ | ⟨-, rfl⟩
            · -- the transport may ask again after a dial that failed
              exact ih hw
            · exact ih (n := n + 1) (by rw [hw])
          · intro e
            exact e.elim
        · apply wp_mono _ (wp_asks .roundTrip trivial w')
          intro _ w'' hw''
          exact ⟨n, hw''.trans hw⟩
      · intro e
        exact e.elim

/-- The last call. -/
theorem wp_last {c : Serve.Call} {w : Wire} {E : Empty → Wire → Prop} (hdue : Due connects c w)
    (hlast : ∀ a w', Leaves connects header c a w w' → Concluded connects header True w')  :
    wp (contract connects header) (Serve.request c)
      (fun r w' => Settling (B := Serve.api) (fun _ => Concluded connects header True) E r w') w := by
  refine ⟨hdue, ?_⟩
  rintro r w' ⟨a, rfl, hleaves⟩
  exact hlast a w' hleaves

end

variable {config : GuardConfig} {r : Serve.Request} {E : Empty → Wire → Prop}

theorem wp_connect (hconnects : connects) :
    wp (contract connects header) (Serve.connect config r)
      (Settling (B := Serve.api) (fun _ => Concluded connects header True) E) {} := by
  rw [Serve.connect]
  apply wp_bind _ (wp_inquires (within_findDestinations config r.host []) {})
  · intro found w hw
    subst hw
    cases found with
    | error err => exact wp_last ⟨0, rfl, fun _ => rfl⟩ fun _ _ hleaves => hleaves
    | ok targets =>
        apply wp_bind _ wp_dialDestinations
        · intro connection w hw
          rcases hw with ⟨⟨err, hfailed⟩, rfl⟩ | ⟨hmade, rfl⟩
          · rw [Except.ok.inj hfailed]
            exact wp_last ⟨0, rfl, fun _ => rfl⟩ fun _ _ hleaves => hleaves
          · rw [Except.ok.inj hmade]
            exact wp_last ⟨hconnects, rfl⟩ fun _ _ hleaves => hleaves
        · intro e
          exact e.elim
  · intro e
    exact e.elim

theorem wp_forwardHTTP (hconnects : ¬ connects) {calls : Nat} {url : Serve.Url} :
    wp (contract connects header) (Serve.forwardHTTP config calls url)
      (Settling (B := Serve.api) (fun _ => Concluded connects header True) E) {} := by
  rw [Serve.forwardHTTP]
  apply wp_bind _ (wp_inquires (within_findDestinations config url.host (go "80")) {})
  · intro found w hw
    subst hw
    cases found with
    | error err => exact wp_last ⟨0, rfl, fun _ => rfl⟩ fun _ _ hleaves => hleaves
    | ok targets =>
        -- the connections of the transport are its own: any number may have been made
        apply wp_bind _ (wp_roundTrip (n := 0) rfl)
        · rintro response w ⟨n, rfl⟩
          split
          · exact wp_last ⟨hconnects, n, rfl⟩ fun _ _ hleaves => hleaves
          · exact wp_last ⟨n, rfl, fun hyes => absurd hyes hconnects⟩ fun _ _ hleaves => hleaves
        · intro e
          exact e.elim
  · intro e
    exact e.elim

variable {Key Tag : Type} [DecidableEq Tag] {hmac : Hmac Key Tag} {auth : ProxyAuth Key Tag}
  {calls : Nat}

theorem wp_serveHTTP :
    wp (contract (r.method = go "CONNECT") header) (Serve.serveHTTP hmac auth config calls r)
      (Settling (B := Serve.api) (fun _ => Concluded (r.method = go "CONNECT") header True) E) {} := by
  have hrefused : ∀ status text, wp (contract (r.method = go "CONNECT") header)
      (Serve.request (.httpError status text))
      (Settling (B := Serve.api) (fun _ => Concluded (r.method = go "CONNECT") header True) E) {} :=
    fun _ _ => wp_last ⟨0, rfl, fun _ => rfl⟩ fun _ _ hleaves => hleaves
  rw [Serve.serveHTTP]
  split
  · exact wp_last ⟨0, rfl, fun _ => rfl⟩ fun _ _ hleaves => hleaves
  rw [Serve.serveAuthorized]
  apply wp_bind _ (wp_asks .setReadDeadline trivial {})
  · intro deadline w hw
    subst hw
    cases deadline with
    | failed => exact hrefused _ _
    | cleared | notSupported =>
        dsimp only
        split
        · rename_i hconnects
          exact wp_connect hconnects
        · rename_i hforwards
          split
          · exact hrefused _ _
          · split
            · exact hrefused _ _
            · exact wp_forwardHTTP hforwards
  · intro e
    exact e.elim

variable {rounds : Nat} {ms : List (Move api Wire)} {result : api.Settled Unit} {w : Wire}

end

end

/-! ## One request -/

section

attribute [local instance] Netip.sample Unicode.sample

end

end BrowserVpn.Respond
