import BrowserVpn.Extension.IpCheck

/-!
# Extension.Entries — what enters the queue

Which tasks a callback hands over (`TaskKind.MayHand`), how a step moves the
entries of the queue (`Sys.EntryStep`), and that errors raised later have higher
numbers.
-/

namespace BrowserVpn

open Async

def Op.isClearError : Op → Bool
  | .clearError _ => true
  | _ => false

section

variable [Platform] [Browser] {ok : Rules} {w : World} {s s' : Sys} {l : Label} {α : Type}

/-! ## Who hands over what -/

/-- The tasks a callback may hand over. -/
def TaskKind.MayHand (kind : TaskKind) (op : Op) : Prop :=
  kind.hands = some op ∨ (kind = .message .testIp ∧ op.isClearError = true) ∨
    (∃ details, kind = .challenge details) ∧ ∃ n, op = .authFailed n

/-- A function that hands over tasks in `O` only. -/
abbrev HandsOver (O : Op → Prop) (p : Js α) : Prop :=
  p.Within (fun c : Call => ∀ op, c = .exclusive op → O op) fun _ => True

section HandsOver

variable {O : Op → Prop}

omit [Platform] [Browser] in
theorem Asks.handsOver {p : Js α} (h : Asks p) : HandsOver O p := by
  refine h.mono ?_ fun _ hw => hw.elim
  rintro c hc op rfl
  cases hc

omit [Platform] [Browser] in
theorem handsOver_chrome {c : Call} (h : ∀ op, c ≠ .exclusive op) : HandsOver O (chrome c) :=
  within_chrome fun op hc => absurd hc (h op)

omit [Browser] in
theorem handsOver_testIp (h : ∀ check, O (.clearError check)) : HandsOver O testIp := by
  refine .bind within_get fun start => .bind (asks_await asks_status).handsOver fun current => ?_
  refine .bind within_get fun v => .bind (within_ensure _ _) fun _ => ?_
  refine .bind (within_ensure _ _) fun _ => .bind (within_ensure _ _) fun _ => ?_
  refine .tryCatch ?_ fun _ => trivial
  refine .bind (handsOver_chrome nofun) fun ok => .bind (within_ensure _ _) fun _ => ?_
  refine .bind (handsOver_chrome nofun) fun body => .bind (within_lift _) fun ip => ?_
  refine .bind (asks_await asks_status).handsOver fun after => ?_
  refine .bind within_get fun v => .bind (within_ensure _ _) fun _ => .bind ?_ fun epoch => ?_
  · unfold dismissError
    split
    · refine .bind (within_chrome (by rintro op ⟨⟩; exact h _)) fun r => ?_
      split <;> trivial
    · trivial
  · exact .bind within_get fun v => .bind (within_ensure _ _) fun _ => trivial

omit [Platform] [Browser] in
theorem handsOver_bothSettings (incognito : Bool) : HandsOver O (bothSettings incognito) := by
  have hproxy : HandsOver O (effectiveSetting incognito) := handsOver_chrome nofun
  have hrtc : HandsOver O (webRTCSetting incognito) := handsOver_chrome nofun
  refine .bind (handsOver_chrome nofun) fun first => within_ite ?_ ?_
  · exact .bind hproxy fun _ => .bind hrtc fun _ => trivial
  · exact .bind hrtc fun _ => .bind hproxy fun _ => trivial

theorem handsOver_answerChallenge (h : ∀ n, O (.authFailed n)) (details : AuthDetails)
    (c : Challenge) : HandsOver O (answerChallenge details c) := by
  refine .bind ?_ fun incognito => ?_
  · unfold requestIncognito
    split
    · exact handsOver_chrome nofun
    · trivial
    · trivial
  · split
    · trivial
    · refine .bind (within_lift _) fun exclusions => .bind (within_lift _) fun expected => ?_
      refine .bind (within_await (handsOver_bothSettings _) nofun) fun (setting, rtc) => ?_
      refine .bind within_get fun v => within_ite trivial (within_ite ?_ ?_)
      · refine .bind ⟨trivial, trivial⟩ fun _ => .bind within_get fun v => ?_
        exact .bind (within_chrome (by rintro op ⟨⟩; exact h _)) fun _ => trivial
      · exact .bind ⟨trivial, trivial⟩ fun _ => trivial

theorem handsOver_onAuthRequired (h : ∀ n, O (.authFailed n)) (details : AuthDetails) :
    HandsOver O (onAuthRequired details) := by
  refine .bind (.tryCatch (.bind within_get fun start => within_ite trivial ?_) fun _ => trivial)
    fun first => ?_
  · exact .bind (asks_await asks_stored).handsOver fun data => within_lift _
  · split
    · trivial
    · exact .tryCatch (handsOver_answerChallenge h details _) fun _ => trivial

theorem handsOver_body (kind : TaskKind) : HandsOver kind.MayHand kind.body := by
  have hplain : ∀ {op}, kind.hands = some op → HandsOver kind.MayHand kind.body := by
    intro op h
    rw [TaskKind.body_of_hands h]
    exact within_chrome (by rintro op' ⟨⟩; exact Or.inl h)
  cases kind with
  | message m =>
      cases m with
      | getState => exact .map asks_status.handsOver _
      | testIp => exact .map (handsOver_testIp fun _ => Or.inr (Or.inl ⟨rfl, rfl⟩)) _
      | other => trivial
      | _ => exact hplain rfl
  | challenge details =>
      refine .map (handsOver_onAuthRequired (fun n => ?_) details) _
      exact Or.inr (Or.inr ⟨⟨details, rfl⟩, n, rfl⟩)
  | proxyChanged => exact hplain rfl
  | webRTCChanged => exact hplain rfl

end HandsOver

theorem Reach.mayHand (h : Reach ok (Sys.init w) s) {t : Nat} {kind : TaskKind} {op : Op}
    {k : Except String Result → Js Result}
    (hslot : s.slot (.task t) = some (.task kind, .awaiting (.exclusive op) k)) :
    kind.MayHand op := by
  have hwithin := Reach.calls_within (fun subj => (?_ : subj.body.Within (fun c : Call => ∀ kind,
    subj = .task kind → ∀ op, c = .exclusive op → kind.MayHand op) fun _ => True)) h hslot
  · exact hwithin kind rfl op rfl
  cases subj with
  | task kind =>
      refine (handsOver_body kind).mono ?_ fun _ h => h
      rintro c hc _ ⟨⟩
      exact hc
  | _ => exact (Prog.within_true _).mono (fun _ _ => nofun) fun _ h => h

omit [Platform] [Browser] in
theorem TaskKind.MayHand.not_proxyError {kind : TaskKind} {op : Op} (h : kind.MayHand op) :
    op.isProxyError = false := by
  rcases h with h | ⟨-, h⟩ | ⟨-, n, rfl⟩
  · cases kind with
    | message m => cases m <;> cases h <;> rfl
    | _ => cases h <;> rfl
  · cases op <;> first | rfl | cases h
  · rfl

omit [Platform] [Browser] in
theorem TaskKind.MayHand.testIp {kind : TaskKind} {check : IpCheck}
    (h : kind.MayHand (.clearError check)) : kind = .message .testIp := by
  rcases h with h | ⟨h, -⟩ | ⟨-, n, h⟩
  · cases kind with
    | message m => cases m <;> cases h
    | _ => cases h
  · exact h
  · cases h

/-- How a step moves the entries, and where a new one comes from. -/
inductive Sys.EntryStep (s : Sys) (l : Label) (s' : Sys) : Prop
  | same (h : s'.entries = s.entries)
  | raised {details : ErrorDetails} (hl : l = .proxyError details)
      (h : s'.entries = s.entries ++ [(.proxyError details s'.vars.proxyErrorEpoch, none)])
  | handed {t : Nat} {op : Op} (hl : l = .resume (.task t))
      (htrace : s'.trace = .issued (.task t) (.exclusive op) :: s.trace)
      (h : s'.entries = s.entries ++ [(op, some t)])
  | ended {e : Op × Option Nat} (hl : l = .resume .op) (h : s.entries = e :: s'.entries)

theorem Sys.entryStep (hs : s.next l = some s') (hl : l ≠ .restart) : s.EntryStep l s' := by
  cases l with
  | restart => exact absurd rfl hl
  | message sender m =>
      obtain rfl := Option.some.inj hs
      split <;> exact .same rfl
  | challenge details =>
      obtain rfl := Option.some.inj hs
      unfold onChallenge
      split <;> exact .same rfl
  | requestDone id => exact Option.some.inj hs ▸ .same rfl
  | proxyError details => exact Option.some.inj hs ▸ .raised rfl (List.append_assoc ..).symm
  | others proxy webRTC =>
      obtain rfl := Option.some.inj hs
      exact .same (by simp [entries])
  | clock now => exact Option.some.inj hs ▸ .same rfl
  | dispatch t =>
      obtain ⟨kind, -, -, rfl⟩ := dispatch_eq_some hs
      exact .same rfl
  | start =>
      obtain ⟨op, owner, rest, hr, hq, rfl⟩ := startOp_eq_some hs
      exact .same (by simp [entries, hr, hq])
  | land a o =>
      obtain ⟨subj, c, k, r, w, -, -, rfl⟩ := land_eq_some hs
      exact .same ((entries_park (s.move w) a (.ready (k r))).trans (by simp [entries]))
  | resume a =>
      obtain ⟨subj, p, hslot, ⟨v, c, k, -, rfl⟩ | ⟨v, r, -, rfl⟩⟩ := resume_eq_some hs
      · have he : (({ s with vars := v } : Sys).suspend a c k).entries =
            s.entries ++ enqueued a c := by
          have hpark := entries_park { s with vars := v } a (.awaiting c k)
          simp only [entries] at hpark
          simp only [suspend, entries, issue_running, issue_queue, ← List.append_assoc, hpark]
        cases a with
        | boot => exact .same (he.trans (List.append_nil _))
        | op => exact .same (he.trans (List.append_nil _))
        | task t =>
            cases c with
            | exclusive op => exact .handed rfl (by simp) he
            | _ => exact .same (he.trans (List.append_nil _))
      · cases a with
        | boot => exact .same rfl
        | task t => exact .same rfl
        | op =>
            obtain ⟨op, owner, hr, rfl⟩ := slot_op hslot
            refine .ended (e := (op, owner)) rfl ?_
            rw [entries_finish, entries, hr]
            rfl

/-! ## Owners and numbers -/

/-- A task without an owner comes from the error listener. -/
theorem Reach.owner_isSome (h : Reach ok (Sys.init w) s) :
    ∀ e ∈ s.entries, e.2 = none → e.1.isProxyError = true := by
  induction h with
  | init => exact nofun
  | @step s s' l _ _ hn ih =>
      by_cases hrestart : l = .restart
      · subst hrestart
        obtain rfl := Option.some.inj hn
        exact nofun
      intro e he howner
      cases Sys.entryStep hn hrestart with
      | same h => exact ih e (h ▸ he) howner
      | raised _ h =>
          rw [h, List.mem_append, List.mem_singleton] at he
          rcases he with he | rfl
          · exact ih e he howner
          · rfl
      | handed _ _ h =>
          rw [h, List.mem_append, List.mem_singleton] at he
          rcases he with he | rfl
          · exact ih e he howner
          · cases howner
      | ended _ h => exact ih e (h ▸ List.mem_cons_of_mem _ he) howner

/-- The counter of the errors never falls while the worker lives. -/
theorem Sys.raises_next (hs : s.next l = some s') (hl : l ≠ .restart) :
    s.vars.proxyErrorEpoch ≤ s'.vars.proxyErrorEpoch := by
  obtain ⟨new, hpassed, -⟩ := passed_next hs hl
  have hraises := hpassed.raises
  omega

/-- What is raised later has a higher number. -/
theorem Later.raised_after {s₀ : Sys} (hr : Reach ok (Sys.init w) s₀) (h : Later ok s₀ s)
    {new : List Obs} (htrace : s.trace = new ++ s₀.trace) {n : Nat}
    (hmem : Obs.errorRaised n ∈ new ∨
      ∃ t, Obs.issued (.task t) (.exclusive (.authFailed n)) ∈ new) :
    s₀.vars.proxyErrorEpoch < n := by
  induction h generalizing new with
  | init =>
      obtain rfl : new = [] := by simpa using htrace
      simp at hmem
  | @step s₁ s₂ l h₁ hl hn ih =>
      obtain ⟨new₁, hpassed⟩ := Later.passed h₁
      obtain ⟨new₂, hpassed', hof⟩ := Sys.passed_next hn hl.2
      obtain rfl : new = new₂ ++ new₁ := by
        refine List.append_cancel_right (htrace.symm.trans ?_)
        rw [hpassed'.trace, hpassed.trace, List.append_assoc]
      have hraises := hpassed.raises
      have hold : (Obs.errorRaised n ∈ new₁ ∨
          ∃ t, Obs.issued (.task t) (.exclusive (.authFailed n)) ∈ new₁) →
          s₀.vars.proxyErrorEpoch < n := ih hpassed.trace
      simp only [List.mem_append, exists_or] at hmem
      rcases hmem with (hmem | hmem) | ⟨t, hmem⟩ | hmem
      · obtain ⟨details, rfl⟩ := hof _ hmem
        obtain rfl := Option.some.inj hn
        have hone : [Obs.errorRaised (s₁.vars.proxyErrorEpoch + 1)] = new₂ :=
          List.append_cancel_right hpassed'.trace
        obtain rfl : n = s₁.vars.proxyErrorEpoch + 1 := by simpa [← hone] using hmem
        omega
      · exact hold (Or.inl hmem)
      · obtain rfl : l = .resume (.task t) := hof _ hmem
        obtain ⟨o, hone, -⟩ := Sys.resume_trace hn
        have htrace' := hone.symm.trans hpassed'.trace
        obtain rfl : new₂ = [o] :=
          (List.append_cancel_right (show [o] ++ s₁.trace = new₂ ++ s₁.trace from htrace')).symm
        obtain rfl := List.mem_singleton.1 hmem
        obtain ⟨hraised, hnumber⟩ := (hr.later h₁).authFailed_raises hl.1 hn hone
        omega
      · exact hold (Or.inr hmem)

end

end BrowserVpn
