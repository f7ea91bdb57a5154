import BrowserVpn.Deploy.Stages

/-!
# Deploy.Children — the processes that the manager starts

`run_external` starts Certbot or `healthcheck.py` and waits for it; when its own
patience ends it terminates the child and, ten seconds later, kills it. `main` does this
for as long as the container lives. A child that is not waited for stays a zombie at
best, and two Certbots at once would fight over one lineage: at no moment there is more
than one child, but for those whose own calls have raised.
-/

namespace BrowserVpn.Manager

open Async Data

/-! ## `main` -/

def failureInterval : Int := 60 * 60 * second

def successInterval : Int := 12 * 60 * 60 * second

/-- One cycle, and how long to wait after it: not at all once a stop was requested. -/
def manageCycle (patience : Patience) : Py (Option Int) :=
  tryCatch
    (do
      runCycle patience
      return some successInterval)
    fun
      | .stopRequested => return none
      | _ => return some failureInterval

/-- `main` with the command `run`, for as many cycles as there are patiences. -/
def main : List Patience → Py Unit
  | [] => request .unfinished >>= Empty.elim
  | patience :: patiences => do
      if ← request .stopIsSet then
        return ()
      match ← manageCycle patience with
      | none => return ()
      | some interval =>
          request (.stopWait interval)
          main patiences

/-! ## Children -/

/-- What became of the processes that were started: the last one until it is waited
for, those before it that never were, and how many calls on a process raised. -/
structure Children where
  running : Option Child
  left : List Child
  faults : Nat
deriving DecidableEq

namespace Children

/-- What a call makes of them. A call on a process is one on the last that was started. -/
def after (k : Children) : (c : Call) → api.Settled c.Reply → Children
  | .popen child, .ok _ => ⟨some child, k.running.toList ++ k.left, k.faults⟩
  | .poll _, .ok (some _) | .wait _, .ok _ | .waitAtMost _ _, .ok true => { k with running := none }
  | .poll _, .error _ | .terminate _, .error _ | .kill _, .error _ | .wait _, .error _
  | .waitAtMost _ _, .error _ => { k with faults := k.faults + 1 }
  | _, _ => k

/-- How many have not been waited for. -/
def unwaited (k : Children) : Nat := k.running.toList.length + k.left.length

/-- A child was abandoned only where a call on it raised. -/
def Tended (k : Children) : Prop := k.left.length ≤ k.faults

/-- The same, and none is running. -/
def Ended (k : Children) : Prop := k.unwaited ≤ k.faults

theorem Ended.tended {k : Children} (h : k.Ended) : k.Tended :=
  (Nat.le_add_left _ _).trans h

end Children

/-- The children of a run. -/
def children (ms : History) : Children :=
  ms.foldl (fun k m => k.after m.call m.reply) ⟨none, [], 0⟩

theorem children_concat (ms : History) (m : Move api Tls) :
    children (ms ++ [m]) = (children ms).after m.call m.reply := by
  rw [children, List.foldl_append]
  rfl

/-- The calls on a process. -/
def Call.tends : Call → Bool
  | .poll _ | .terminate _ | .kill _ | .wait _ | .waitAtMost _ _ => true
  | _ => false

/-- The calls that are neither on a process nor start one. -/
def Call.apart : Call → Bool
  | .popen _ => false
  | c => !c.tends

/-- The calls that are made while a child runs: those on it, the clock, the stop event
and a wait of at most a second. -/
def Call.waits : Call → Bool
  | .monotonic | .stopIsSet | .unfinished => true
  | .stopWait timeout => timeout ≤ second
  | c => c.tends

theorem Children.after_apart {c : Call} (hc : c.apart = true) (k : Children)
    (r : api.Settled c.Reply) : k.after c r = k := by
  cases c with
  | popen | poll | terminate | kill | wait | waitAtMost => cases hc
  | _ => rfl

/-- While a child may run nothing is called but what waits for it. -/
def Attended (c : Call) (ms : History) : Prop :=
  (children ms).Tended ∧ (c.waits = false → (children ms).Ended)

/-- The logic of programs that look after their children. -/
abbrev careful : Logic api (Tls × History) :=
  .alone effect.recorded fun c x => Attended c x.2

section

variable {α β : Type} {s : Tls} {ms : History} {x : Tls × History} {c : Call} {child : Child}

theorem careful_request {Q : api.Settled c.Reply → Tls × History → Prop} (hc : Attended c ms)
    (h : ∀ r s', effect s c r s' → Q r (s', ms ++ [⟨s, c, r, s'⟩])) :
    wp careful (request c) Q (s, ms) := by
  constructor
  · exact hc
  · intro r x' hr
    rcases Logic.replies_recorded.1 hr with ⟨s', he, rfl⟩
    exact h r s' he

/-! ## Programs between two children -/

/-- `p` starts and settles when all children were waited for. -/
def Careful (p : Py α) : Prop :=
  ∀ x, (children x.2).Ended → wp careful p (fun _ x' => (children x'.2).Ended) x

theorem careful_of_apart (hc : c.apart = true) : Careful (request c) := by
  rintro ⟨s, ms⟩ hx
  apply careful_request ⟨hx.tended, fun _ => hx⟩
  intro r s' _
  show (children (ms ++ [_])).Ended
  rw [children_concat, Children.after_apart hc]
  exact hx

theorem careful_done (r : api.Settled α) : Careful (.done r) := fun _ hx => hx

theorem Careful.bind {p : Py α} {f : α → Py β} (hp : Careful p) (hf : ∀ a, Careful (f a)) :
    Careful (p >>= f) := by
  intro x hx
  exact wp_bind careful (hp x hx) (fun a x' hx' => hf a x' hx') fun e x' hx' => hx'

theorem Careful.tryCatch {p : Py α} {handler : Raised → Py α} (hp : Careful p)
    (hh : ∀ e, Careful (handler e)) : Careful (tryCatch p handler) := by
  intro x hx
  exact wp_tryCatch careful (hp x hx) (fun a x' hx' => hx') fun e x' hx' => hh e x' hx'

theorem Careful.ite {b : Prop} [Decidable b] {p q : Py α} (hp : Careful p) (hq : Careful q) :
    Careful (if b then p else q) := by
  split
  · exact hp
  · exact hq

theorem Careful.finallyDo {p : Py α} {cleanup : Py Unit} (hp : Careful p) (hcleanup : Careful cleanup) :
    Careful (p.finallyDo cleanup) := by
  intro x hx
  rw [Prog.finallyDo, wp_andThen]
  apply wp_mono careful (hp x hx)
  intro r x' hx'
  rw [wp_andThen]
  apply wp_mono careful (hcleanup x' hx')
  intro r' x'' hx''
  cases r' with
  | ok _ => exact hx''
  | error e => exact hx''

theorem careful_whileTrue {rounds : Nat} {body : Py (Option α)} (hbody : Careful body) :
    Careful (whileTrue rounds body) := by
  induction rounds with
  | zero => exact (careful_of_apart rfl).bind fun a => a.elim
  | succ rounds ih =>
      apply hbody.bind
      intro a
      cases a with
      | some a => exact careful_done _
      | none => exact ih

/-! ## A child that runs -/

theorem Call.waits_of_tends (hc : c.tends = true) : c.waits = true := by
  cases c with
  | poll | terminate | kill | wait | waitAtMost => rfl
  | _ => cases hc

theorem Children.after_fault (hc : c.tends = true) (k : Children) (e : Raised) :
    k.after c (.error e) = { k with faults := k.faults + 1 } := by
  cases c with
  | poll | terminate | kill | wait | waitAtMost => rfl
  | _ => cases hc

theorem Call.isOwn_of_tends (hc : c.tends = true) {e : Raised} (he : c.mayRaise e = true) :
    e.isOwn = false := by
  apply isOwn_of_mayRaise ?_ he
  cases c with
  | setUp => cases hc
  | _ => rfl

/-- A fault makes up for the child that may be running. -/
theorem Children.Tended.fault {k : Children} (h : k.Tended) :
    ({ k with faults := k.faults + 1 } : Children).Ended := by
  have hone : k.running.toList.length ≤ 1 := by
    cases k.running <;> simp
  have hleft : k.left.length ≤ k.faults := h
  show k.running.toList.length + k.left.length ≤ k.faults + 1
  omega

/-- The child was waited for. -/
theorem Children.Tended.waited {k : Children} (h : k.Tended) :
    ({ k with running := none } : Children).Ended := by
  show 0 + k.left.length ≤ k.faults
  rw [Nat.zero_add]
  exact h

/-- A call on the child either answers or is a fault. -/
theorem careful_tend {Q : api.Settled c.Reply → Tls × History → Prop} (hc : c.tends = true)
    (hx : (children x.2).Tended)
    (hok : ∀ a x', children x'.2 = (children x.2).after c (.ok a) → Q (.ok a) x')
    (herr : ∀ e x', e.isOwn = false → (children x'.2).Ended → Q (.error e) x') :
    wp careful (request c) Q x := by
  rcases x with ⟨s, ms⟩
  apply careful_request
  · constructor
    · exact hx
    · intro hno
      rw [Call.waits_of_tends hc] at hno
      cases hno
  intro r s' he
  cases r with
  | ok a => exact hok a _ (children_concat _ _)
  | error e =>
      apply herr e _ (Call.isOwn_of_tends hc he.1)
      show (children (ms ++ [_])).Ended
      rw [children_concat, Children.after_fault hc]
      exact hx.fault

theorem careful_tend_bind {f : c.Reply → Py α} {Q : api.Settled α → Tls × History → Prop}
    (hc : c.tends = true) (hx : (children x.2).Tended)
    (hf : ∀ a x', children x'.2 = (children x.2).after c (.ok a) → wp careful (f a) Q x')
    (herr : ∀ e x', e.isOwn = false → (children x'.2).Ended → Q (.error e) x') :
    wp careful (request c >>= f) Q x :=
  wp_bind careful
    (M := fun r x' => match r with
      | .ok a => children x'.2 = (children x.2).after c (.ok a)
      | .error e => e.isOwn = false ∧ (children x'.2).Ended)
    (careful_tend hc hx (fun _ _ h => h) fun _ _ hown hended => ⟨hown, hended⟩)
    (fun a x' h => hf a x' h) fun e x' h => herr e x' h.1 h.2

/-- A call that leaves the children alone and does not raise, and then `f`. -/
theorem careful_calm_of {I : Children → Prop} {f : c.Reply → Py α}
    {Q : api.Settled α → Tls × History → Prop} (hmay : Attended c x.2)
    (hc : c.apart = true) (hcalm : ∀ e, c.mayRaise e = false) (hx : I (children x.2))
    (hf : ∀ a x', I (children x'.2) → wp careful (f a) Q x') : wp careful (request c >>= f) Q x := by
  rcases x with ⟨s, ms⟩
  apply wp_bind careful (M := fun r x' => I (children x'.2) ∧ ∀ e, r ≠ .error e)
  · apply careful_request hmay
    intro r s' he
    constructor
    · show I (children (ms ++ [_]))
      rw [children_concat, Children.after_apart hc]
      exact hx
    · rintro e rfl
      have hraised := he.1
      rw [hcalm e] at hraised
      cases hraised
  · exact fun a x' hx' => hf a x' hx'.1
  · exact fun e x' hx' => absurd rfl (hx'.2 e)

/-- While a child may run. -/
theorem careful_calm {f : c.Reply → Py α} {Q : api.Settled α → Tls × History → Prop}
    (hwaits : c.waits = true) (hc : c.apart = true) (hcalm : ∀ e, c.mayRaise e = false)
    (hx : (children x.2).Tended)
    (hf : ∀ a x', (children x'.2).Tended → wp careful (f a) Q x') :
    wp careful (request c >>= f) Q x := by
  refine careful_calm_of ⟨hx, fun hno => ?_⟩ hc hcalm hx hf
  rw [hwaits] at hno
  cases hno

/-- Between two children. -/
theorem careful_calm_ended {f : c.Reply → Py α} {Q : api.Settled α → Tls × History → Prop}
    (hc : c.apart = true) (hcalm : ∀ e, c.mayRaise e = false) (hx : (children x.2).Ended)
    (hf : ∀ a x', (children x'.2).Ended → wp careful (f a) Q x') :
    wp careful (request c >>= f) Q x :=
  careful_calm_of ⟨hx.tended, fun _ => hx⟩ hc hcalm hx hf

/-- How a wait leaves the child: waited for, or perhaps still running after an
exception of the manager's own. -/
def Awaited (done : α → Prop) (r : api.Settled α) (x : Tls × History) : Prop :=
  (children x.2).Tended ∧ match r with
    | .ok a => done a → (children x.2).Ended
    | .error e => e.isOwn = false → (children x.2).Ended

theorem wp_awaitChild (deadline : Int) (hx : (children x.2).Tended) :
    wp careful (awaitChild child deadline) (Awaited fun a => a.isSome) x := by
  have hown : ∀ {e : Raised} {y : Tls × History}, e.isOwn = true → (children y.2).Tended →
      Awaited (fun a : Option Unit => a.isSome) (.error e) y := by
    intro e y he hy
    refine ⟨hy, fun hno => ?_⟩
    rw [he] at hno
    cases hno
  apply careful_tend_bind rfl hx
  · intro status x' hafter
    cases status with
    | some result =>
        have hended : (children x'.2).Ended := by
          rw [hafter]
          exact hx.waited
        simp only
        split
        · exact hown rfl hended.tended
        · exact ⟨hended.tended, fun _ => hended⟩
    | none =>
        have hx' : (children x'.2).Tended := by
          rw [hafter]
          exact hx
        -- nothing is called on the child until the next round
        apply careful_calm rfl rfl (fun _ => rfl) hx'
        intro stopping y hy
        split
        · exact hown rfl hy
        apply careful_calm rfl rfl (fun _ => rfl) hy
        intro now z hz
        split
        · exact hown rfl hz
        apply careful_calm rfl rfl (fun _ => rfl) hz
        intro later u hu
        apply careful_calm ?_ rfl (fun _ => rfl) hu
        · exact fun _ v hv => ⟨hv, nofun⟩
        · exact decide_eq_true (Int.min_le_left _ _)
  · exact fun e x' _ hended => ⟨hended.tended, fun _ => hended⟩

theorem wp_whileTrue_await {rounds : Nat} {body : Py (Option α)}
    (hbody : ∀ x, (children x.2).Tended → wp careful body (Awaited fun a => a.isSome) x)
    (hx : (children x.2).Tended) :
    wp careful (whileTrue rounds body) (Awaited fun _ => True) x := by
  induction rounds generalizing x with
  | zero => exact careful_calm rfl rfl (fun _ => rfl) hx fun a => a.elim
  | succ rounds ih =>
      apply wp_bind careful (hbody x hx)
      · intro a x' hx'
        cases a with
        | some a => exact ⟨hx'.1, fun _ => hx'.2 rfl⟩
        | none => exact ih hx'.1
      · exact fun e x' hx' => hx'

/-- A child that has not ended is made to. -/
theorem wp_endChild (hx : (children x.2).Tended) :
    wp careful (endChild child) (fun _ x' => (children x'.2).Ended) x := by
  have hkept {y : Tls × History} {k : Children} (h : children y.2 = k) (hk : k.Tended) :
      (children y.2).Tended := by
    rw [h]
    exact hk
  apply careful_tend_bind rfl hx
  · intro status x' hpolled
    cases status with
    | some result =>
        show (children x'.2).Ended
        rw [hpolled]
        exact hx.waited
    | none =>
        apply careful_tend_bind rfl (hkept hpolled hx)
        · intro _ y hterminated
          have hy := hkept hterminated (hkept hpolled hx)
          apply careful_tend_bind rfl hy
          · intro ended z hwaited
            cases ended with
            | true =>
                show (children z.2).Ended
                rw [hwaited]
                exact hy.waited
            | false =>
                -- the ten seconds are over
                apply careful_tend_bind rfl (hkept hwaited hy)
                · intro _ u hkilled
                  have hu := hkept hkilled (hkept hwaited hy)
                  apply careful_tend rfl hu
                  · intro _ v hreaped
                    rw [hreaped]
                    exact hu.waited
                  · exact fun e _ _ hended => hended
                · exact fun e _ _ hended => hended
          · exact fun e _ _ hended => hended
        · exact fun e _ _ hended => hended
  · exact fun e _ _ hended => hended

/-- Whatever `run_external` ends with, its child has ended. -/
theorem careful_runExternal (patience : Patience) (child : Child) (timeout : Int) :
    Careful (runExternal patience child timeout) := by
  rintro ⟨s, ms⟩ hx
  apply wp_bind careful (M := fun r x' => match r with
    | .ok _ => (children x'.2).Tended
    | .error _ => (children x'.2).Ended)
  · apply careful_request ⟨hx.tended, fun _ => hx⟩
    intro r s' _
    have hafter : children (ms ++ [⟨s, .popen child, r, s'⟩]) = (children ms).after (.popen child) r :=
      children_concat _ _
    cases r with
    | ok _ =>
        show (children (ms ++ [_])).Tended
        rw [hafter]
        show ((children ms).running.toList ++ (children ms).left).length ≤ (children ms).faults
        rw [List.length_append]
        exact hx
    | error e =>
        show (children (ms ++ [_])).Ended
        rw [hafter]
        exact hx
  · intro _ x' hx'
    apply careful_calm rfl rfl (fun _ => rfl) hx'
    intro now y hy
    apply wp_tryCatch careful (wp_whileTrue_await (fun z hz => wp_awaitChild _ hz) hy)
    · exact fun _ z hz => hz.2 trivial
    · intro e z hz
      cases he : e.isOwn with
      | true =>
          simp only [if_true]
          apply wp_bind careful (wp_endChild hz.1)
          · exact fun _ u hu => hu
          · exact fun _ u hu => hu
      | false =>
          simp only [Bool.false_eq_true, if_false]
          exact hz.2 he
  · exact fun e x' hx' => hx'

/-! ## The cycle -/

theorem careful_fsyncDirectory (path : Place) : Careful (fsyncDirectory path) :=
  (careful_of_apart rfl).bind fun _ => (careful_of_apart rfl).finallyDo (careful_of_apart rfl)

theorem careful_atomicWrite (directory : Place) (name : Name) (data : Bytes) :
    Careful (atomicWrite directory name data) := by
  apply (careful_of_apart rfl).bind
  intro temporary
  apply Careful.finallyDo
  · apply (careful_of_apart rfl).bind
    intro _
    apply Careful.bind
    · apply Careful.finallyDo _ (careful_of_apart rfl)
      apply (careful_of_apart rfl).bind
      intro _
      apply (careful_of_apart rfl).bind
      intro _
      apply (careful_of_apart rfl).bind
      intro _
      exact careful_of_apart rfl
    · intro _
      apply (careful_of_apart rfl).bind
      intro _
      exact careful_fsyncDirectory directory
  · apply (careful_of_apart rfl).bind
    intro found
    apply Careful.ite
    · exact careful_of_apart rfl
    · exact careful_done _

theorem careful_switchToVersion (name : Name) : Careful (switchToVersion name) := by
  apply (careful_of_apart rfl).bind
  intro token
  apply Careful.finallyDo
  · apply (careful_of_apart rfl).bind
    intro _
    apply (careful_of_apart rfl).bind
    intro _
    exact careful_fsyncDirectory []
  · apply (careful_of_apart rfl).bind
    intro found
    apply Careful.ite
    · exact careful_of_apart rfl
    · exact careful_done _

theorem careful_refuseSymlink (target : Name) (file : PairFile) :
    Careful (refuseSymlink target file) := by
  apply (careful_of_apart rfl).bind
  intro linked
  exact (careful_done _).ite (careful_done _)

theorem careful_currentTarget : Careful currentTarget := by
  apply (careful_of_apart rfl).bind
  intro found
  apply (careful_done _).ite
  apply (careful_of_apart rfl).bind
  intro linked
  apply (careful_done _).ite
  apply (careful_of_apart rfl).bind
  intro target
  apply (careful_done _).ite
  apply (careful_of_apart rfl).bind
  intro linked
  apply (careful_done _).ite
  apply (careful_refuseSymlink target .fullchain).bind
  intro _
  apply (careful_refuseSymlink target .privkey).bind
  intro _
  exact careful_done _

theorem careful_lineageIsComplete : Careful lineageIsComplete := by
  apply (careful_of_apart rfl).bind
  intro found
  exact (careful_of_apart rfl).ite (careful_done _)

theorem careful_matchingPublishedPair (certData keyData : Bytes) :
    Careful (matchingPublishedPair certData keyData) := by
  apply Careful.tryCatch
  · apply (careful_of_apart rfl).bind
    intro cert
    apply Careful.ite
    · apply (careful_of_apart rfl).bind
      intro key
      exact careful_done _
    · exact careful_done _
  · intro e
    cases e with
    | _ => exact careful_done _

theorem careful_validatePair (certificate privateKey : Place) :
    Careful (validatePair certificate privateKey) := by
  apply (careful_of_apart rfl).tryCatch
  intro e
  exact (careful_done _).ite (careful_done _)

theorem careful_publishStaging (staging version : Name) (certData keyData : Bytes) :
    Careful (publishStaging staging version certData keyData) := by
  apply (careful_of_apart rfl).bind
  intro _
  apply (careful_atomicWrite _ _ _).bind
  intro _
  apply (careful_atomicWrite _ _ _).bind
  intro _
  apply (careful_validatePair _ _).bind
  intro _
  apply (careful_of_apart rfl).bind
  intro _
  apply (careful_fsyncDirectory []).bind
  intro _
  exact careful_switchToVersion version

theorem careful_removeStaging (staging : Name) : Careful (removeStaging staging) := by
  apply (careful_of_apart rfl).bind
  intro found
  exact (careful_of_apart rfl).ite (careful_done _)

theorem careful_publishCertificate : Careful publishCertificate := by
  apply careful_lineageIsComplete.bind
  intro complete
  apply (careful_done _).ite
  apply (careful_of_apart rfl).bind
  intro certData
  apply (careful_of_apart rfl).bind
  intro keyData
  apply careful_currentTarget.bind
  intro previous
  apply (careful_matchingPublishedPair certData keyData).bind
  intro published
  apply (careful_done _).ite
  apply (careful_of_apart rfl).bind
  intro token
  apply (careful_of_apart rfl).bind
  intro _
  apply Careful.bind
  · exact (careful_publishStaging _ _ _ _).finallyDo (careful_removeStaging _)
  · exact fun _ => careful_done _

theorem careful_runCertbot (patience : Patience) : Careful (runCertbot patience) := by
  apply careful_lineageIsComplete.bind
  intro complete
  apply Careful.tryCatch
  · exact (careful_runExternal patience _ _).bind fun _ => careful_done _
  · intro e
    cases e with
    | managerError message =>
        apply careful_lineageIsComplete.bind
        intro complete
        exact (careful_done _).ite (careful_done _)
    | _ => exact careful_done _

theorem careful_runHealthcheck (patience : Patience) (timeout : Nat) :
    Careful (runHealthcheck patience timeout) := by
  apply (careful_of_apart rfl).bind
  intro now
  apply careful_whileTrue
  apply (careful_of_apart rfl).bind
  intro stopping
  apply (careful_done _).ite
  apply Careful.tryCatch
  · apply (careful_of_apart rfl).bind
    intro now
    exact (careful_runExternal patience _ _).bind fun _ => careful_done _
  · intro e
    cases e with
    | managerError message =>
        apply (careful_of_apart rfl).bind
        intro now
        apply (careful_done _).ite
        apply (careful_of_apart rfl).bind
        intro now
        exact (careful_of_apart rfl).bind fun _ => careful_done _
    | _ => exact careful_done _

theorem careful_rollBack (previous : Option Name) (e : Raised) : Careful (rollBack previous e) := by
  apply Careful.ite
  · cases previous with
    | none => exact careful_done _
    | some version => exact (careful_switchToVersion version).bind fun _ => careful_done _
  · exact careful_done _

theorem careful_runCycle (patience : Patience) : Careful (runCycle patience) := by
  apply Careful.bind
  · iterate 5
      apply (careful_of_apart rfl).bind
      intro _
    apply (careful_runCertbot patience).bind
    intro failure
    exact careful_publishCertificate.bind fun _ => careful_done _
  · rintro ⟨failure, previous⟩
    apply Careful.bind
    · exact (careful_runHealthcheck patience 120).tryCatch (careful_rollBack previous)
    · intro _
      cases failure with
      | none => exact careful_done _
      | some e => exact careful_done _

/-- `main` returns, and has waited for every child. -/
theorem wp_main (patiences : List Patience) (hx : (children x.2).Ended) :
    wp careful (main patiences) (fun r x' => r = .ok () ∧ (children x'.2).Ended) x := by
  induction patiences generalizing x with
  | nil => exact careful_calm rfl rfl (fun _ => rfl) hx.tended fun a => a.elim
  | cons patience patiences ih =>
      apply careful_calm_ended rfl (fun _ => rfl) hx
      intro stopping y hy
      split
      · exact ⟨rfl, hy⟩
      -- a cycle catches all that it can raise
      apply wp_bind careful (M := fun r x' => (∃ next, r = .ok next) ∧ (children x'.2).Ended)
      · apply wp_tryCatch careful (M := fun _ x' => (children x'.2).Ended)
        · exact ((careful_runCycle patience).bind fun _ => careful_done _) y hy
        · exact fun next z hz => ⟨⟨next, rfl⟩, hz⟩
        · intro e z hz
          cases e with
          | _ => exact ⟨⟨_, rfl⟩, hz⟩
      · intro next z hz
        cases next with
        | none => exact ⟨rfl, hz.2⟩
        | some interval =>
            apply careful_calm_ended rfl (fun _ => rfl) hz.2
            exact fun _ u hu => ih hu
      · rintro e z ⟨⟨next, hnext⟩, -⟩
        cases hnext

end

/-- Wherever such a program is stopped, no child was abandoned. -/
theorem tended_of_wp {α : Type} {p : Py α} {Q : api.Settled α → Tls × History → Prop}
    {x : Tls × History} (h : wp careful p Q x)
    (hQ : ∀ r x', Q r x' → (children x'.2).Tended) : (children x.2).Tended := by
  induction p with
  | done r => exact hQ r x h
  | read k ih => exact ih () (h () _ rfl)
  | write w k ih => exact w.elim
  | call c k ih => exact h.1.1

/-- At no moment of a run of `main` there are more children than the one that was started
last, but for those whose own calls raised; while one runs nothing is called but what waits
for it; and when `main` returns, which is all it can end with, none is left. -/
theorem children_are_waited_for {patiences : List Patience} {s s' : Tls} {ms : History} {p : Py Unit}
    (h : Path effect (main patiences) s ms p s') :
    (children ms).left.length ≤ (children ms).faults ∧
      (∀ c k, p = .call c k → c.waits = false → (children ms).unwaited ≤ (children ms).faults) ∧
      ∀ r, p = .done r → r = .ok () ∧ (children ms).unwaited ≤ (children ms).faults := by
  have hstart : (children []).Ended := Nat.zero_le _
  rcases h.recorded [] with ⟨ms', hrecorded⟩
  have hp := hrecorded.wp (wp_main patiences (x := (s, [])) hstart)
  refine ⟨tended_of_wp hp fun r x' hx' => hx'.2.tended, ?_, ?_⟩
  · rintro c k rfl hwaits
    exact hp.1.2 hwaits
  · rintro r rfl
    exact hp

/-- Nothing goes wrong, and a stop is requested once a certificate is published. -/
def stoppingWorld (s : Tls) : (c : Call) → Option (api.Settled c.Reply × Tls)
  | .stopIsSet => some (.ok (s.now.isSome), s)
  | c => sampleWorld 'a' [1] [2] (fun _ _ => false) s c

theorem stoppingWorld_effect {s s' : Tls} {c : Call} {r : api.Settled c.Reply}
    (h : stoppingWorld s c = some (r, s')) : effect s c r s' := by
  cases c with
  | stopIsSet =>
      obtain ⟨rfl, rfl⟩ := Prod.mk.inj (Option.some.inj h)
      rfl
  | _ =>
      have hsample : sampleWorld 'a' [1] [2] (fun _ _ => false) s _ = some (r, s') := h
      exact sampleWorld_effect hsample

/-- The first cycle publishes, and is then asked to stop. -/
theorem children_are_waited_for_sample :
    ∃ ms s, Path effect (main [⟨1, 1⟩]) .empty ms (.done (.ok ())) s ∧
      (children ms).faults = 0 ∧ (children ms).unwaited ≤ 0 := by
  have hplay : (play stoppingWorld (main [⟨1, 1⟩]) .empty).map
      (fun x => (x.2.1, (children x.1).faults)) = some (.ok (), 0) := by decide +kernel
  rcases Option.map_eq_some_iff.1 hplay with ⟨⟨ms, r, s⟩, hrun, hsame⟩
  rcases Prod.mk.inj hsame with ⟨rfl, hfaults⟩
  have hpath : Path effect _ _ _ _ _ := Path.of_play (fun _ _ _ _ => stoppingWorld_effect) hrun
  have hended := ((children_are_waited_for hpath).2.2 _ rfl).2
  rw [hfaults] at hended
  exact ⟨ms, s, hpath, hfaults, hended⟩

end BrowserVpn.Manager
