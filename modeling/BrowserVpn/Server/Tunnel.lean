import BrowserVpn.Data.Run
import Mathlib.Data.Fintype.Basic
import Mathlib.Data.List.Basic
import Mathlib.Logic.Function.Basic

/-!
# Server.Tunnel — the tail of a CONNECT request

Two goroutines copy between the client and the destination, `tunnelCopy` each. The
handler waits for the first signal on `done`, closes both connections and waits for
the second. A copy loop ends at the end of its source, so the first signal may come
while the other direction still has data: what has been delivered is always a prefix
of what was sent, but the rest of that direction is dropped.
-/

namespace BrowserVpn

open Data

/-- The two ends of a tunnel. -/
inductive Peer where
  | client
  | upstream
deriving DecidableEq

instance : Fintype Peer := ⟨{.client, .upstream}, fun p => by cases p <;> decide⟩

def Peer.other : Peer → Peer
  | client => upstream
  | upstream => client

/-- Where a `tunnelCopy` stands. -/
inductive CopyPhase where
  /-- In `io.Copy`. -/
  | copying
  | copied
  /-- Past the `CloseWrite` of a TCP destination. -/
  | halfClosed
  | signalled
deriving DecidableEq

/-- One direction of a tunnel. -/
structure Direction where
  /-- What the source has written, with what the parser had buffered. -/
  sent : List UInt8
  /-- The source has ended its stream. -/
  ended : Bool
  /-- So much of it was read. -/
  taken : Nat
  /-- Read and not yet written. -/
  chunk : List UInt8
  /-- Written to the connection of the target. -/
  delivered : List UInt8
  /-- What the target has received of that. -/
  received : List UInt8
  phase : CopyPhase
deriving DecidableEq

/-- A step of one direction. How much a read or a write moves is up to the system. -/
inductive CopyLabel where
  | send (bytes : List UInt8)
  | finish
  | read (n : Nat)
  | write (n : Nat)
  | arrive (n : Nat)
  /-- The end of the source ends the loop. -/
  | eof
  /-- A closed connection ends the loop. -/
  | abort
  | closeWrite
  | signal
deriving DecidableEq

namespace Direction

/-- Before anything was read. -/
def init (buffered : List UInt8) : Direction := ⟨buffered, false, 0, [], [], [], .copying⟩

/-- One step, with the connections of source and target closed or not. -/
def step (sourceClosed targetClosed : Bool) (d : Direction) : CopyLabel → Option Direction
  | .send bytes => if d.ended then none else some { d with sent := d.sent ++ bytes }
  | .finish => some { d with ended := true }
  | .read n =>
      if d.phase = .copying ∧ d.chunk = [] ∧ 0 < n ∧ d.taken + n ≤ d.sent.length ∧
          sourceClosed = false then
        some { d with chunk := (d.sent.drop d.taken).take n, taken := d.taken + n }
      else none
  | .write n =>
      if d.phase = .copying ∧ 0 < n ∧ n ≤ d.chunk.length ∧ targetClosed = false then
        some { d with delivered := d.delivered ++ d.chunk.take n, chunk := d.chunk.drop n }
      else none
  | .arrive n => some { d with received := d.delivered.take (d.received.length + n) }
  | .eof =>
      if d.phase = .copying ∧ d.chunk = [] ∧ d.taken = d.sent.length ∧ d.ended = true ∧
          sourceClosed = false then some { d with phase := .copied }
      else none
  | .abort =>
      if d.phase = .copying ∧ ((d.chunk = [] ∧ sourceClosed = true) ∨
          (d.chunk ≠ [] ∧ targetClosed = true)) then some { d with phase := .copied }
      else none
  | .closeWrite => if d.phase = .copied then some { d with phase := .halfClosed } else none
  | .signal => if d.phase = .halfClosed then some { d with phase := .signalled } else none

/-- What was written and what is still to be written are what was read. -/
structure Sound (d : Direction) : Prop where
  inOrder : d.delivered ++ d.chunk = d.sent.take d.taken
  taken_le : d.taken ≤ d.sent.length
  arrived : d.received <+: d.delivered

/-- The loop has nothing left to do. -/
structure Drained (d : Direction) : Prop where
  ended : d.ended = true
  taken : d.taken = d.sent.length
  chunk : d.chunk = []

instance (d : Direction) : Decidable d.Drained :=
  decidable_of_iff (d.ended = true ∧ d.taken = d.sent.length ∧ d.chunk = [])
    ⟨fun h => ⟨h.1, h.2.1, h.2.2⟩, fun h => ⟨h.ended, h.taken, h.chunk⟩⟩

theorem sound_init (buffered : List UInt8) : (init buffered).Sound :=
  ⟨by simp [init], Nat.zero_le _, List.prefix_refl _⟩

variable {d d' : Direction} {sourceClosed targetClosed : Bool} {l : CopyLabel}

/-- What a step changes: the source goes on or ends, bytes move on by one place, or
the loop and what follows it go on. The loop is left when it is drained or a
connection is closed. -/
inductive Stepped (sourceClosed targetClosed : Bool) (d : Direction) : Direction → Prop where
  | send (bytes : List UInt8) (h : d.ended = false) :
      Stepped sourceClosed targetClosed d { d with sent := d.sent ++ bytes }
  | finish : Stepped sourceClosed targetClosed d { d with ended := true }
  | read (n : Nat) (hchunk : d.chunk = []) (hpos : 0 < n) (hle : d.taken + n ≤ d.sent.length) :
      Stepped sourceClosed targetClosed d
        { d with chunk := (d.sent.drop d.taken).take n, taken := d.taken + n }
  | write (n : Nat) (hpos : 0 < n) (hle : n ≤ d.chunk.length) :
      Stepped sourceClosed targetClosed d
        { d with delivered := d.delivered ++ d.chunk.take n, chunk := d.chunk.drop n }
  | arrive (n : Nat) :
      Stepped sourceClosed targetClosed d
        { d with received := d.delivered.take (d.received.length + n) }
  | leave (p : CopyPhase)
      (h : d.phase ≠ .copying ∨ d.Drained ∨ sourceClosed = true ∨ targetClosed = true) :
      Stepped sourceClosed targetClosed d { d with phase := p }

theorem step_cases (h : d.step sourceClosed targetClosed l = some d') :
    Stepped sourceClosed targetClosed d d' := by
  cases l with
  | send bytes =>
      simp only [step] at h
      split at h
      · cases h
      rename_i hended
      obtain rfl := Option.some.inj h
      exact .send bytes (by simpa using hended)
  | finish =>
      obtain rfl := Option.some.inj h
      exact .finish
  | read n =>
      simp only [step] at h
      split at h
      · rename_i hguard
        obtain rfl := Option.some.inj h
        exact .read n hguard.2.1 hguard.2.2.1 hguard.2.2.2.1
      · cases h
  | write n =>
      simp only [step] at h
      split at h
      · rename_i hguard
        obtain rfl := Option.some.inj h
        exact .write n hguard.2.1 hguard.2.2.1
      · cases h
  | arrive n =>
      obtain rfl := Option.some.inj h
      exact .arrive n
  | eof =>
      simp only [step] at h
      split at h
      · rename_i hguard
        obtain ⟨-, hchunk, htaken, hended, -⟩ := hguard
        obtain rfl := Option.some.inj h
        exact .leave .copied (Or.inr (Or.inl ⟨hended, htaken, hchunk⟩))
      · cases h
  | abort =>
      simp only [step] at h
      split at h
      · rename_i hguard
        obtain rfl := Option.some.inj h
        rcases hguard.2 with ⟨-, hclosed⟩ | ⟨-, hclosed⟩
        · exact .leave .copied (Or.inr (Or.inr (Or.inl hclosed)))
        · exact .leave .copied (Or.inr (Or.inr (Or.inr hclosed)))
      · cases h
  | closeWrite =>
      simp only [step] at h
      split at h
      · rename_i hguard
        obtain rfl := Option.some.inj h
        exact .leave .halfClosed (Or.inl (by simp [hguard]))
      · cases h
  | signal =>
      simp only [step] at h
      split at h
      · rename_i hguard
        obtain rfl := Option.some.inj h
        exact .leave .signalled (Or.inl (by simp [hguard]))
      · cases h

/-- No byte is lost, doubled or moved within a direction. -/
theorem Sound.step (hd : d.Sound) (h : Stepped sourceClosed targetClosed d d') : d'.Sound := by
  cases h with
  | send bytes =>
      refine ⟨?_, Nat.le_trans hd.taken_le (by simp), hd.arrived⟩
      rw [List.take_append_of_le_length hd.taken_le]
      exact hd.inOrder
  | finish => exact ⟨hd.inOrder, hd.taken_le, hd.arrived⟩
  | read n hchunk _ hle =>
      refine ⟨?_, hle, hd.arrived⟩
      have hbefore := hd.inOrder
      rw [hchunk, List.append_nil] at hbefore
      rw [hbefore, ← List.take_add]
  | write n =>
      refine ⟨?_, hd.taken_le, hd.arrived.trans (List.prefix_append _ _)⟩
      rw [List.append_assoc, List.take_append_drop]
      exact hd.inOrder
  | arrive n => exact ⟨hd.inOrder, hd.taken_le, List.take_prefix _ _⟩
  | leave p => exact ⟨hd.inOrder, hd.taken_le, hd.arrived⟩

/-- Nothing comes after the end of a stream. -/
theorem Drained.step (hd : d.Drained) (h : Stepped sourceClosed targetClosed d d') :
    d'.Drained := by
  cases h with
  | send bytes hended => simp [hd.ended] at hended
  | finish => exact ⟨rfl, hd.taken, hd.chunk⟩
  | read n _ hpos hle =>
      have := hd.taken
      omega
  | write n hpos hle =>
      rw [hd.chunk, List.length_nil] at hle
      omega
  | arrive n => exact ⟨hd.ended, hd.taken, hd.chunk⟩
  | leave p => exact ⟨hd.ended, hd.taken, hd.chunk⟩

/-- While both connections are open, a loop that was left is drained. -/
theorem drained_step (hd : d.phase ≠ .copying → d.Drained) (h : Stepped false false d d') :
    d'.phase ≠ .copying → d'.Drained := by
  intro hleft
  have hdrained : d.Drained := by
    cases h with
    | leave p hleave =>
        rcases hleave with hphase | hdrained | hclosed | hclosed
        · exact hd hphase
        · exact hdrained
        · cases hclosed
        · cases hclosed
    | _ => exact hd hleft
  exact hdrained.step h

/-- What has arrived is what was sent, up to some place. -/
theorem Sound.received_le (hd : d.Sound) : d.received <+: d.sent := by
  have htaken : d.sent.take d.taken <+: d.sent := List.take_prefix _ _
  exact hd.arrived.trans ((List.prefix_append _ d.chunk).trans (hd.inOrder ▸ htaken))

/-- A drained direction has delivered all. -/
theorem Sound.delivered_of_drained (hd : d.Sound) (h : d.Drained) : d.delivered = d.sent := by
  have hall := hd.inOrder
  rwa [h.chunk, List.append_nil, h.taken, List.take_length] at hall

end Direction

/-! ## The handler -/

/-- Where the handler stands. -/
inductive HandlerPhase where
  | waiting
  | closingClient
  | closingUpstream
  | draining
  | returned
deriving DecidableEq

/-- A tunnel: `dir p` is the direction that `p` sends in, `signals` what is in `done`. -/
structure Tunnel where
  dir : Peer → Direction
  closed : Peer → Bool
  signals : Nat
  handler : HandlerPhase

inductive TunnelLabel where
  | copy (p : Peer) (l : CopyLabel)
  /-- The first `<-done`. -/
  | receive
  | closeClient
  | closeUpstream
  /-- The second. -/
  | drain
deriving DecidableEq

namespace Tunnel

/-- The tunnel when its goroutines start. The parser has read `buffered` from the
client. -/
def init (buffered : List UInt8) : Tunnel where
  dir p := .init (if p = .client then buffered else [])
  closed _ := false
  signals := 0
  handler := .waiting

def step (t : Tunnel) : TunnelLabel → Option Tunnel
  | .copy p l =>
      match (t.dir p).step (t.closed p) (t.closed p.other) l with
      | none => none
      | some d => some { t with
          dir := Function.update t.dir p d
          signals := if l = .signal then t.signals + 1 else t.signals }
  | .receive =>
      if t.handler = .waiting ∧ 0 < t.signals then
        some { t with signals := t.signals - 1, handler := .closingClient }
      else none
  | .closeClient =>
      if t.handler = .closingClient then
        some { t with closed := Function.update t.closed .client true, handler := .closingUpstream }
      else none
  | .closeUpstream =>
      if t.handler = .closingUpstream then
        some { t with closed := Function.update t.closed .upstream true, handler := .draining }
      else none
  | .drain =>
      if t.handler = .draining ∧ 0 < t.signals then
        some { t with signals := t.signals - 1, handler := .returned }
      else none

variable {t t' : Tunnel} {l : TunnelLabel} {ls : List TunnelLabel}

/-- No loop has anything left to do. -/
def Idle (t : Tunnel) : Prop := ∀ p, (t.dir p).phase ≠ .copying ∨ (t.dir p).Drained

instance (t : Tunnel) : Decidable t.Idle := 
  inferInstanceAs (Decidable (∀ p, (t.dir p).phase ≠ .copying ∨ (t.dir p).Drained))

/-- The handler closes the first connection only when no loop has anything left to
do. -/
def ClosesIdle (t : Tunnel) (l : TunnelLabel) : Prop := l = .closeClient → t.Idle

instance (t : Tunnel) (l : TunnelLabel) : Decidable (t.ClosesIdle l) :=
  inferInstanceAs (Decidable (_ → _))

/-- What a tunnel owes to its ends. -/
structure Faithful (buffered : List UInt8) (t : Tunnel) : Prop where
  /-- Each end has received, in order, the beginning of what the other wrote, -/
  received : ∀ p, (t.dir p).received <+: (t.dir p).sent
  /-- which from the client begins with what the parser had read. -/
  buffered : buffered <+: (t.dir .client).sent
  /-- When both connections are closed and one end has ended its stream, the other has
  ended its own and all of it has been delivered. -/
  complete : (∀ p, t.closed p = true) → ∀ p, (t.dir p).ended = true →
    (t.dir p.other).ended = true ∧ (t.dir p.other).delivered = (t.dir p.other).sent

/-- The bytes of every direction. -/
structure Sound (buffered : List UInt8) (t : Tunnel) : Prop where
  dir : ∀ p, (t.dir p).Sound
  buffered : buffered <+: (t.dir .client).sent

theorem sound_init (buffered : List UInt8) : (init buffered).Sound buffered :=
  ⟨fun _ => Direction.sound_init _, List.prefix_refl _⟩

/-- A copy step is a step of one direction. -/
theorem step_copy {p : Peer} {l' : CopyLabel} (h : step t (.copy p l') = some t') :
    (t.dir p).step (t.closed p) (t.closed p.other) l' = some (t'.dir p) ∧
      (∀ q, q ≠ p → t'.dir q = t.dir q) ∧ t'.closed = t.closed ∧ t'.handler = t.handler := by
  simp only [step] at h
  split at h
  · cases h
  rename_i d hdir
  obtain rfl := Option.some.inj h
  refine ⟨by simp [hdir], fun q hq => by simp [hq], rfl, rfl⟩

/-- The handler moves no byte. It waits, closes the client, closes the destination
and waits again. -/
theorem step_handler (h : step t l = some t') (hl : ∀ p l', l ≠ .copy p l') :
    t'.dir = t.dir ∧ ((l = .receive ∧ t.handler = .waiting ∧ t'.handler = .closingClient ∧
        t'.closed = t.closed) ∨
      (l = .closeClient ∧ t.handler = .closingClient ∧ t'.handler = .closingUpstream) ∨
      (t.handler = .closingUpstream ∧ t'.handler = .draining) ∨
      (t.handler = .draining ∧ t'.handler = .returned)) := by
  cases l with
  | copy p l' => exact absurd rfl (hl p l')
  | receive =>
      simp only [step] at h
      split at h
      · rename_i hguard
        obtain rfl := Option.some.inj h
        exact ⟨rfl, Or.inl ⟨rfl, hguard.1, rfl, rfl⟩⟩
      · cases h
  | closeClient =>
      simp only [step] at h
      split at h
      · rename_i hguard
        obtain rfl := Option.some.inj h
        exact ⟨rfl, Or.inr (Or.inl ⟨rfl, hguard, rfl⟩)⟩
      · cases h
  | closeUpstream =>
      simp only [step] at h
      split at h
      · rename_i hguard
        obtain rfl := Option.some.inj h
        exact ⟨rfl, Or.inr (Or.inr (Or.inl ⟨hguard, rfl⟩))⟩
      · cases h
  | drain =>
      simp only [step] at h
      split at h
      · rename_i hguard
        obtain rfl := Option.some.inj h
        exact ⟨rfl, Or.inr (Or.inr (Or.inr ⟨hguard.1, rfl⟩))⟩
      · cases h

theorem step_dir (h : step t l = some t') (p : Peer) :
    t'.dir p = t.dir p ∨ ∃ l', l = .copy p l' ∧
      Direction.Stepped (t.closed p) (t.closed p.other) (t.dir p) (t'.dir p) := by
  by_cases hl : ∃ q l', l = .copy q l'
  · obtain ⟨q, l', rfl⟩ := hl
    obtain ⟨hdir, hother, -, -⟩ := step_copy h
    by_cases hq : p = q
    · subst hq
      exact Or.inr ⟨l', rfl, Direction.step_cases hdir⟩
    · exact Or.inl (hother p hq)
  · left
    rw [(step_handler h fun q l' hcopy => hl ⟨q, l', hcopy⟩).1]

theorem sent_step {d d' : Direction} {a b : Bool} (h : Direction.Stepped a b d d') :
    d.sent <+: d'.sent := by
  cases h with
  | send bytes => exact List.prefix_append _ _
  | _ => exact List.prefix_refl _

theorem Sound.step {buffered : List UInt8} (hs : t.Sound buffered) (h : step t l = some t') :
    t'.Sound buffered := by
  refine ⟨fun p => ?_, ?_⟩
  · rcases step_dir h p with heq | ⟨l', -, hdir⟩
    · rw [heq]
      exact hs.dir p
    · exact (hs.dir p).step hdir
  · rcases step_dir h .client with heq | ⟨l', -, hdir⟩
    · rw [heq]
      exact hs.buffered
    · exact hs.buffered.trans (sent_step hdir)

/-- In every run each end has received the beginning of what the other wrote. -/
theorem sound_of_run {buffered : List UInt8} (h : Run step (init buffered) ls t) :
    t.Sound buffered :=
  h.invariant (fun hstep hs => hs.step hstep) (sound_init buffered)

/-- Before the first connection is closed, a loop that was left is drained; from
then on both are. -/
structure Ready (t : Tunnel) : Prop where
  early : t.handler = .waiting ∨ t.handler = .closingClient →
    (∀ p, t.closed p = false) ∧ ∀ p, (t.dir p).phase ≠ .copying → (t.dir p).Drained
  late : t.handler ≠ .waiting → t.handler ≠ .closingClient → ∀ p, (t.dir p).Drained

theorem ready_init (buffered : List UInt8) : (init buffered).Ready :=
  ⟨fun _ => ⟨fun _ => rfl, fun _ h => absurd rfl h⟩, fun h => absurd rfl h⟩

theorem Ready.step (hr : t.Ready) (hok : t.ClosesIdle l) (h : step t l = some t') : t'.Ready := by
  by_cases hl : ∃ q l', l = .copy q l'
  · obtain ⟨q, l', rfl⟩ := hl
    obtain ⟨-, -, hclosed, hhandler⟩ := step_copy h
    constructor
    · intro hearly
      rw [hhandler] at hearly
      obtain ⟨hopen, hleft⟩ := hr.early hearly
      refine ⟨fun p => by rw [hclosed]; exact hopen p, fun p => ?_⟩
      rcases step_dir h p with heq | ⟨l', -, hdir⟩
      · rw [heq]
        exact hleft p
      · rw [hopen, hopen] at hdir
        exact Direction.drained_step (hleft p) hdir
    · intro hne hne' p
      rw [hhandler] at hne hne'
      rcases step_dir h p with heq | ⟨l', -, hdir⟩
      · rw [heq]
        exact hr.late hne hne' p
      · exact (hr.late hne hne' p).step hdir
  · obtain ⟨hdir, hmove⟩ := step_handler h fun q l' hcopy => hl ⟨q, l', hcopy⟩
    rcases hmove with ⟨-, hwait, hto, hclosed⟩ | ⟨rfl, hfrom, hto⟩ | ⟨hfrom, hto⟩ | ⟨hfrom, hto⟩
    · refine ⟨fun _ => ?_, fun _ hne => absurd hto hne⟩
      rw [hdir, hclosed]
      exact hr.early (Or.inl hwait)
    · refine ⟨by simp [hto], fun _ _ p => ?_⟩
      rw [hdir]
      exact (hok rfl p).elim ((hr.early (Or.inr hfrom)).2 p) id
    · refine ⟨by simp [hto], fun _ _ => ?_⟩
      rw [hdir]
      exact hr.late (by simp [hfrom]) (by simp [hfrom])
    · refine ⟨by simp [hto], fun _ _ => ?_⟩
      rw [hdir]
      exact hr.late (by simp [hfrom]) (by simp [hfrom])

/-- A tunnel that is closed only when no loop has anything left to do neither
corrupts nor drops data. -/
theorem tunnel_faithful {buffered : List UInt8} (h : RunWhile step ClosesIdle (init buffered) ls t) :
    t.Faithful buffered := by
  have hsound := sound_of_run h.run
  have hready : t.Ready := h.invariant (fun hstep hok hr => hr.step hok hstep) (ready_init buffered)
  refine ⟨fun p => (hsound.dir p).received_le, hsound.buffered, fun hclosed p _ => ?_⟩
  have hlate : ¬ (t.handler = .waiting ∨ t.handler = .closingClient) := by
    intro hearly
    have hopen := (hready.early hearly).1 .client
    rw [hclosed .client] at hopen
    cases hopen
  rw [not_or] at hlate
  have hdrained := hready.late hlate.1 hlate.2 p.other
  exact ⟨hdrained.ended, (hsound.dir p.other).delivered_of_drained hdrained⟩

/-- A client and a destination that write a byte each, end their streams and are
waited for. -/
def sampleRun : List TunnelLabel :=
  [.copy .upstream (.send [2]), .copy .client (.read 1), .copy .client (.write 1),
    .copy .client .finish, .copy .client .eof, .copy .upstream .finish, .copy .client .closeWrite,
    .copy .client .signal, .receive, .copy .upstream (.read 1), .copy .upstream (.write 1),
    .closeClient, .closeUpstream]

theorem tunnel_faithful_sample : ∃ t, Faithful [1] t ∧ ∀ p, t.closed p = true := by
  have hsome : (followWhile step ClosesIdle (init [1]) sampleRun).any
      (fun t => t.closed .client && t.closed .upstream) = true := by decide +kernel
  obtain ⟨t, ht, hclosed⟩ := (Option.any_eq_true _ _).1 hsome
  refine ⟨t, tunnel_faithful (.of_follow ht), fun p => ?_⟩
  rw [Bool.and_eq_true] at hclosed
  cases p with
  | client => exact hclosed.1
  | upstream => exact hclosed.2

/-- The client ends its stream and the byte of the destination is dropped. -/
def droppedRun : List TunnelLabel :=
  [.copy .client .finish, .copy .client .eof, .copy .client .closeWrite, .copy .client .signal,
    .copy .upstream (.send [2]), .copy .upstream .finish, .receive, .closeClient, .closeUpstream]

theorem tunnel_faithful_fails : ¬ ∀ buffered ls t, Run step (init buffered) ls t →
    Faithful buffered t := by
  intro h
  have hsome : (follow step (init []) droppedRun).any (fun t => t.closed .client &&
      t.closed .upstream && (t.dir .client).ended && (t.dir .upstream).delivered == []  &&
      (t.dir .upstream).sent == [2]) = true := by decide +kernel
  obtain ⟨t, ht, hdropped⟩ := (Option.any_eq_true _ _).1 hsome
  simp only [Bool.and_eq_true, beq_iff_eq] at hdropped
  obtain ⟨⟨⟨⟨hclient, hupstream⟩, hended⟩, hdelivered⟩, hsent⟩ := hdropped
  have hclosed : ∀ p, t.closed p = true := by
    intro p
    cases p with
    | client => exact hclient
    | upstream => exact hupstream
  have hlost := ((h [] _ t (.of_follow ht)).complete hclosed .client hended).2
  rw [Peer.other, hdelivered, hsent] at hlost
  cases hlost

end Tunnel

end BrowserVpn
