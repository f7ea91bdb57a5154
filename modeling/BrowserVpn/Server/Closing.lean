import BrowserVpn.Server.Tunnel

/-!
# Server.Closing — how a tunnel ends

A tunnel has ten steps that lead to its end: each of its copies leaves its loop, shuts
down its target and signals, and the handler takes both signals and closes both
connections. In every run each of them is made at most once, and as soon as one copy has
left its loop there is always a next one, whatever the two ends do: the handler cannot be
kept from returning, and when it does no copy goes on.
-/

namespace BrowserVpn

open Data

/-! ## The steps to the end -/

/-- So many steps a copy has before it. -/
def CopyPhase.left : CopyPhase → Nat
  | .copying => 3
  | .copied => 2
  | .halfClosed => 1
  | .signalled => 0

def HandlerPhase.left : HandlerPhase → Nat
  | .waiting => 4
  | .closingClient => 3
  | .closingUpstream => 2
  | .draining => 1
  | .returned => 0

def CopyLabel.ends : CopyLabel → Bool
  | .eof | .abort | .closeWrite | .signal => true
  | _ => false

/-- The steps that neither move bytes nor are made by one of the ends. -/
def TunnelLabel.ends : TunnelLabel → Bool
  | .copy _ l => l.ends
  | _ => true

/-- A copy goes through its phases one by one, and only with the steps to the end. -/
theorem Direction.phase_step {sourceClosed targetClosed : Bool} {d d' : Direction} {l : CopyLabel}
    (h : d.step sourceClosed targetClosed l = some d') :
    (l.ends = false ∧ d'.phase = d.phase) ∨
      ((l = .eof ∨ l = .abort) ∧ d.phase = .copying ∧ d'.phase = .copied) ∨
      (l = .closeWrite ∧ d.phase = .copied ∧ d'.phase = .halfClosed) ∨
      (l = .signal ∧ d.phase = .halfClosed ∧ d'.phase = .signalled) := by
  cases l with
  | send bytes =>
      simp only [step] at h
      split at h
      · cases h
      · cases h
        exact Or.inl ⟨rfl, rfl⟩
  | read n | write n =>
      simp only [step] at h
      split at h
      · cases h
        exact Or.inl ⟨rfl, rfl⟩
      · cases h
  | finish | arrive n =>
      cases h
      exact Or.inl ⟨rfl, rfl⟩
  | eof | abort =>
      simp only [step] at h
      split at h
      · rename_i hguard
        cases h
        exact Or.inr (Or.inl ⟨by simp, hguard.1, rfl⟩)
      · cases h
  | closeWrite =>
      simp only [step] at h
      split at h
      · rename_i hphase
        cases h
        exact Or.inr (Or.inr (Or.inl ⟨rfl, hphase, rfl⟩))
      · cases h
  | signal =>
      simp only [step] at h
      split at h
      · rename_i hphase
        cases h
        exact Or.inr (Or.inr (Or.inr ⟨rfl, hphase, rfl⟩))
      · cases h

theorem Direction.left_step {sourceClosed targetClosed : Bool} {d d' : Direction} {l : CopyLabel}
    (h : d.step sourceClosed targetClosed l = some d') :
    l.ends.toNat + d'.phase.left = d.phase.left := by
  rcases phase_step h with ⟨hends, hsame⟩ | ⟨hl, hbefore, hafter⟩ | ⟨rfl, hbefore, hafter⟩ |
    ⟨rfl, hbefore, hafter⟩
  · rw [hends, hsame, Bool.toNat_false, Nat.zero_add]
  · rw [hbefore, hafter]
    rcases hl with rfl | rfl
    · rfl
    · rfl
  · rw [hbefore, hafter]
    rfl
  · rw [hbefore, hafter]
    rfl

namespace Tunnel

variable {t t' : Tunnel} {l : TunnelLabel} {ls : List TunnelLabel}

/-- So many steps the tunnel has before it. -/
def left (t : Tunnel) : Nat :=
  (t.dir .client).phase.left + (t.dir .upstream).phase.left + t.handler.left

theorem left_step (h : step t l = some t') : l.ends.toNat + t'.left = t.left := by
  cases l with
  | copy p l' =>
      rcases step_copy h with ⟨hdir, hother, -, hhandler⟩
      have hleft := Direction.left_step hdir
      rw [left, left, hhandler, TunnelLabel.ends]
      -- the other copy does not move
      cases p with
      | client =>
          rw [hother .upstream (by decide)]
          omega
      | upstream =>
          rw [hother .client (by decide)]
          omega
  | receive | closeClient | closeUpstream | drain =>
      simp only [step] at h
      split at h
      · rename_i hguard
        cases h
        simp [left, TunnelLabel.ends, HandlerPhase.left, hguard]
        try omega
      · cases h

/-- In a run the steps to the end that were made and those that are left are ten. -/
theorem left_of_run {buffered : List UInt8} (h : Run step (init buffered) ls t) :
    ls.countP TunnelLabel.ends + t.left = 10 := by
  apply h.trace_invariant (P := fun ls t => ls.countP TunnelLabel.ends + t.left = 10) rfl
  intro ls t l u _ hstep hsum
  have hleft := left_step hstep
  rw [List.countP_append, List.countP_singleton]
  cases hends : l.ends with
  | true =>
      rw [hends, Bool.toNat_true] at hleft
      simp
      omega
  | false =>
      rw [hends, Bool.toNat_false] at hleft
      simp
      omega

/-! ## What the handler has heard and closed -/

/-- The signals that the handler has taken. -/
def taken : HandlerPhase → Nat
  | .waiting => 0
  | .closingClient | .closingUpstream | .draining => 1
  | .returned => 2

/-- The signal of a copy, if it was sent. -/
def signalOf (d : Direction) : Nat := if d.phase = .signalled then 1 else 0

/-- Every signal that was sent is taken or waits, and the connections are closed one
after the other. -/
structure Paired (t : Tunnel) : Prop where
  signals : t.signals + taken t.handler = signalOf (t.dir .client) + signalOf (t.dir .upstream)
  client : t.handler = .closingUpstream ∨ t.handler = .draining ∨ t.handler = .returned →
    t.closed .client = true
  upstream : t.handler = .draining ∨ t.handler = .returned → t.closed .upstream = true

theorem paired_init (buffered : List UInt8) : (init buffered).Paired :=
  ⟨rfl, by simp [init], by simp [init]⟩

theorem signalOf_step {sourceClosed targetClosed : Bool} {d d' : Direction} {l : CopyLabel}
    (h : d.step sourceClosed targetClosed l = some d') :
    signalOf d' = signalOf d + if l = .signal then 1 else 0 := by
  rcases Direction.phase_step h with ⟨hends, hsame⟩ | ⟨hl, hbefore, hafter⟩ |
    ⟨rfl, hbefore, hafter⟩ | ⟨rfl, hbefore, hafter⟩
  · have hnot : l ≠ .signal := by
      rintro rfl
      cases hends
    rw [signalOf, signalOf, hsame, if_neg hnot, Nat.add_zero]
  · rcases hl with rfl | rfl
    · simp [signalOf, hbefore, hafter]
    · simp [signalOf, hbefore, hafter]
  · simp [signalOf, hbefore, hafter]
  · simp [signalOf, hbefore, hafter]

theorem Paired.step (ht : t.Paired) (h : step t l = some t') : t'.Paired := by
  rcases ht with ⟨hsignals, hclient, hupstream⟩
  cases l with
  | copy p l' =>
      simp only [Tunnel.step] at h
      split at h
      · cases h
      rename_i d hdir
      have hsent := signalOf_step hdir
      cases h
      refine ⟨?_, hclient, hupstream⟩
      by_cases hsignal : l' = .signal
      · rw [if_pos hsignal] at hsent
        cases p with
        | client => simp [hsignal, hsent]; omega
        | upstream => simp [hsignal, hsent]; omega
      · rw [if_neg hsignal] at hsent
        cases p with
        | client => simp [hsignal, hsent]; omega
        | upstream => simp [hsignal, hsent]; omega
  | receive | closeClient | closeUpstream | drain =>
      simp only [Tunnel.step] at h
      split at h
      · rename_i hguard
        cases h
        constructor
        · simp_all [taken]
          try omega
        · simp_all
        · simp_all
      · cases h

theorem paired_of_run {buffered : List UInt8} (h : Run step (init buffered) ls t) : t.Paired :=
  h.invariant (fun hstep ht => ht.step hstep) (paired_init buffered)

/-! ## The next step -/

/-- A copy that has left its loop, or finds a closed connection, can go on to its signal. -/
theorem exists_copy_step (p : Peer) (hphase : (t.dir p).phase ≠ .signalled)
    (hleft : (t.dir p).phase ≠ .copying ∨ (t.closed p = true ∧ t.closed p.other = true)) :
    ∃ l t', l.ends = true ∧ step t l = some t' := by
  have hcopy : ∀ l' d, (t.dir p).step (t.closed p) (t.closed p.other) l' = some d →
      l'.ends = true → ∃ l t', l.ends = true ∧ step t l = some t' := by
    intro l' d hd hends
    refine ⟨.copy p l', { t with
      dir := Function.update t.dir p d
      signals := if l' = .signal then t.signals + 1 else t.signals }, hends, ?_⟩
    simp only [step, hd]
  cases hat : (t.dir p).phase with
  | copying =>
      rcases hleft with hleft | ⟨hsource, htarget⟩
      · exact absurd hat hleft
      · apply hcopy .abort { t.dir p with phase := .copied }
        · simp only [Direction.step]
          rw [if_pos]
          refine ⟨hat, ?_⟩
          by_cases hchunk : (t.dir p).chunk = []
          · exact Or.inl ⟨hchunk, hsource⟩
          · exact Or.inr ⟨hchunk, htarget⟩
        · rfl
  | copied => exact hcopy .closeWrite _ (if_pos hat) rfl
  | halfClosed => exact hcopy .signal _ (if_pos hat) rfl
  | signalled => exact absurd hat hphase

/-- A tunnel in which a copy has left its loop is never stuck. -/
theorem exists_step (ht : t.Paired) (hleft : ∃ p, (t.dir p).phase ≠ .copying)
    (hhandler : t.handler ≠ .returned) : ∃ l t', l.ends = true ∧ step t l = some t' := by
  cases hat : t.handler with
  | waiting =>
      rcases hleft with ⟨p, hp⟩
      by_cases hsignalled : (t.dir p).phase = .signalled
      · -- the copy is over, but its signal has not been taken
        have hpositive : 0 < t.signals := by
          have hsum := ht.signals
          have hsent : signalOf (t.dir p) = 1 := if_pos hsignalled
          rw [hat] at hsum
          cases p with
          | client => simp only [taken] at hsum; omega
          | upstream => simp only [taken] at hsum; omega
        exact ⟨.receive, _, rfl, if_pos ⟨hat, hpositive⟩⟩
      · exact exists_copy_step p hsignalled (Or.inl hp)
  | closingClient => exact ⟨.closeClient, _, rfl, if_pos hat⟩
  | closingUpstream => exact ⟨.closeUpstream, _, rfl, if_pos hat⟩
  | draining =>
      have hclient := ht.client (Or.inr (Or.inl hat))
      have hupstream := ht.upstream (Or.inl hat)
      -- with both connections closed a copy cannot stay in its loop, whatever its ends do
      have hclosed : ∀ p, t.closed p = true := by
        intro p
        cases p with
        | client => exact hclient
        | upstream => exact hupstream
      by_cases hpositive : 0 < t.signals
      · exact ⟨.drain, _, rfl, if_pos ⟨hat, hpositive⟩⟩
      · -- one signal was taken, so that one of the copies has not sent its own
        have hsum := ht.signals
        rw [hat] at hsum
        simp only [taken] at hsum
        by_cases hsignalled : (t.dir .client).phase = .signalled
        · apply exists_copy_step .upstream _ (Or.inr ⟨hclosed _, hclosed _⟩)
          intro hother
          have hboth : signalOf (t.dir .client) = 1 ∧ signalOf (t.dir .upstream) = 1 :=
            ⟨if_pos hsignalled, if_pos hother⟩
          omega
        · exact exists_copy_step .client hsignalled (Or.inr ⟨hclosed _, hclosed _⟩)
  | returned => exact absurd hat hhandler

/-- A handler that has returned has heard of both copies. -/
theorem Paired.signalled (ht : t.Paired) (h : t.handler = .returned) (p : Peer) :
    (t.dir p).phase = .signalled := by
  have hsum := ht.signals
  rw [h] at hsum
  simp only [taken, signalOf] at hsum
  by_contra hnot
  cases p with
  | client =>
      rw [if_neg hnot] at hsum
      split at hsum <;> omega
  | upstream =>
      rw [if_neg hnot] at hsum
      split at hsum <;> omega

/-- Nothing is left exactly when the handler has returned. -/
theorem Paired.left_eq_zero (ht : t.Paired) : t.left = 0 ↔ t.handler = .returned := by
  constructor
  · intro h
    have hzero : t.handler.left = 0 := by
      rw [left] at h
      omega
    cases hat : t.handler with
    | returned => rfl
    | _ => simp [hat, HandlerPhase.left] at hzero
  · intro h
    rw [left, ht.signalled h, ht.signalled h, h]
    rfl

/-- What has left its loop does not come back. -/
theorem out_step (h : step t l = some t') {p : Peer} (hp : (t.dir p).phase ≠ .copying) :
    (t'.dir p).phase ≠ .copying := by
  -- only in its loop a copy has three steps before it, and their number does not grow
  have hout : ∀ phase : CopyPhase, phase ≠ .copying ↔ phase.left < 3 := by
    intro phase
    cases phase <;> simp [CopyPhase.left]
  rw [hout] at hp ⊢
  cases l with
  | copy q l' =>
      rcases step_copy h with ⟨hdir, hother, -, -⟩
      by_cases hsame : p = q
      · subst hsame
        have hleft := Direction.left_step hdir
        omega
      · rw [hother p hsame]
        exact hp
  | receive | closeClient | closeUpstream | drain =>
      rw [(step_handler h nofun).1]
      exact hp

/-- From there on the steps to the end lead to it, one after the other. -/
theorem exists_run {n : Nat} : ∀ {t : Tunnel}, t.Paired → (∃ p, (t.dir p).phase ≠ .copying) →
    t.left = n → ∃ rest t', Run step t rest t' ∧ (∀ l ∈ rest, l.ends = true) ∧ rest.length = n ∧
      t'.handler = .returned := by
  induction n with
  | zero =>
      intro t ht _ hzero
      exact ⟨[], t, .nil, nofun, rfl, ht.left_eq_zero.1 hzero⟩
  | succ n ih =>
      intro t ht hout hleft
      have hnot : t.handler ≠ .returned := by
        intro hreturned
        rw [ht.left_eq_zero.2 hreturned] at hleft
        cases hleft
      rcases exists_step ht hout hnot with ⟨l, t', hends, hstep⟩
      have hless := left_step hstep
      rw [hends, Bool.toNat_true] at hless
      rcases hout with ⟨p, hp⟩
      rcases ih (ht.step hstep) ⟨p, out_step hstep hp⟩ (by omega) with
        ⟨rest, t'', hrun, hall, hlength, hreturned⟩
      refine ⟨l :: rest, t'', hrun.cons hstep, ?_, by rw [List.length_cons, hlength], hreturned⟩
      intro l' hl'
      rcases List.mem_cons.1 hl' with rfl | hin
      · exact hends
      · exact hall l' hin

/-- However the copies, the handler and the two ends take turns, the tunnel makes at most
ten steps towards its end; it has made them all exactly when the handler has returned, and
then both connections are closed and both copies are over. As soon as one copy has left
its loop, what is left of the ten can be made, whatever the two ends do. -/
theorem tunnel_ends {buffered : List UInt8} (h : Run step (init buffered) ls t) :
    ls.countP TunnelLabel.ends ≤ 10 ∧
      (t.handler = .returned ↔ ls.countP TunnelLabel.ends = 10) ∧
      (t.handler = .returned → ∀ p, (t.dir p).phase = .signalled ∧ t.closed p = true) ∧
      ((∃ p, (t.dir p).phase ≠ .copying) → ∃ rest t', Run step t rest t' ∧
        (∀ l ∈ rest, l.ends = true) ∧ ls.countP TunnelLabel.ends + rest.length = 10 ∧
        t'.handler = .returned) := by
  have ht := paired_of_run h
  have hsum := left_of_run h
  refine ⟨by omega, ?_, ?_, ?_⟩
  · rw [← ht.left_eq_zero]
    omega
  · intro hreturned p
    refine ⟨ht.signalled hreturned p, ?_⟩
    cases p with
    | client => exact ht.client (Or.inr (Or.inr hreturned))
    | upstream => exact ht.upstream (Or.inr hreturned)
  · intro hout
    rcases exists_run ht hout rfl with ⟨rest, t', hrun, hall, hlength, hreturned⟩
    exact ⟨rest, t', hrun, hall, by omega, hreturned⟩

/-- After `sampleRun` the second copy and the handler have four steps before them. -/
theorem tunnel_ends_sample : ∃ t rest t', Run step (init [1]) sampleRun t ∧ Run step t rest t' ∧
    rest.length = 4 ∧ t'.handler = .returned := by
  have hsome : (follow step (init [1]) sampleRun).any
      (fun t => (t.dir .client).phase == .signalled) = true := by decide +kernel
  rcases (Option.any_eq_true _ _).1 hsome with ⟨t, ht, hphase⟩
  have hrun : Run step (init [1]) sampleRun t := .of_follow ht
  have hout : (t.dir .client).phase ≠ .copying := by
    rw [beq_iff_eq.1 hphase]
    decide
  rcases (tunnel_ends hrun).2.2.2 ⟨.client, hout⟩ with ⟨rest, t', hrest, -, hlength, hreturned⟩
  have hcount : sampleRun.countP TunnelLabel.ends = 6 := by decide
  exact ⟨t, rest, t', hrun, hrest, by omega, hreturned⟩

end Tunnel

end BrowserVpn
