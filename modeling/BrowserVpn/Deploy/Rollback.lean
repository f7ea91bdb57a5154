import BrowserVpn.Deploy.Crash

/-!
# Deploy.Rollback — what an unverified certificate is followed by

`run_cycle` switches back when the health check raises an exception of the manager's
own. An exception of a call goes through: one raised after `current` was replaced,
by the rest of the publication, by the check itself or by the switch back, leaves
the new version published.
-/

namespace BrowserVpn.Manager

open Async Data

variable {s s' : Tls} {ms : History} {patience : Patience}

/-- In the cycle that made these moves, the health check returned. -/
def Verified (patience : Patience) (s : Tls) (ms : History) : Prop :=
  ∃ result t t' ms₁ ms₂ ms₃,
    Path effect (renewAndPublish patience) s ms₁ (.done (.ok result)) t ∧
      Path effect (runHealthcheck patience 120) t ms₂ (.done (.ok ())) t' ∧ ms = ms₁ ++ (ms₂ ++ ms₃)

/-- Where a cycle has ended that has published and did not stay calm. -/
theorem On.back_iff {start : Option (Node Name Bytes)} {st : Stage} (h : On start st (s, ms))
    (hpublished : 0 < Manager.switches ms) (hcalm : st ≠ .calm) :
    s.now = start ↔ ¬Disturbed ms := by
  have hswitches : Manager.switches ms = st.switches := h.switches
  rw [h.disturbed]
  cases st with
  | before =>
      rw [hswitches] at hpublished
      cases hpublished
  | calm => exact absurd rfl hcalm
  | upset => simpa using h.moved rfl
  | restored => simpa using h.now rfl

/-- A cycle that published a version in the place of `v` and raised without a health
check that returned has put `v` back if and only if no call raised while `v` was
replaced. -/
theorem rolled_back_iff {v : Name} {e : Raised} (hs : World.Reached ⟨s, none⟩)
    (hv : s.now = some (.link v))
    (hpath : Path effect (runCycle patience) s ms (.done (.error e)) s')
    (hpublished : 0 < switches ms) (hunverified : ¬Verified patience s ms) :
    s'.now = some (.link v) ↔ ¬Disturbed ms := by
  have hon : On (some (.link v)) .before (s, []) := hv ▸ hs.sound.consistent.on
  obtain ⟨q, t, ms₁, ms₂, hrenew, hrest, rfl⟩ := Path.of_andThen hpath
  have hrenewed := hrenew.post_recorded (wp_renewAndPublish patience hon)
  cases q with
  | error e' =>
      obtain ⟨rfl, -, rfl⟩ := hrest.of_done
      rw [List.append_nil] at hpublished ⊢
      obtain hx | hx := hrenewed
      · exact hx.back_iff hpublished nofun
      · exact hx.back_iff hpublished nofun
  | ok result =>
      obtain ⟨failure, previous⟩ := result
      obtain ⟨q, t₂, ms₃, ms₄, htry, hrest, rfl⟩ := Path.of_andThen hrest
      obtain ⟨r, t₁, ms₅, ms₆, hcheck, hhandle, rfl⟩ := Path.of_andThen htry
      cases r with
      | ok u =>
          refine absurd ⟨_, _, _, _, _, ms₆ ++ ms₄, hrenew, hcheck, ?_⟩ hunverified
          rw [List.append_assoc]
      | error e' =>
          -- The handler is left in a stage other than the calm one.
          have hfailed := hcheck.post_recorded (wp_check patience hrenewed)
          obtain ⟨st, hx, hcalm⟩ := hhandle.post_recorded (wp_rollBack hfailed)
          have hlast : ms₄ = [] ∧ s' = t₂ := by
            cases q with
            | error e'' => exact ⟨hrest.of_done.1, hrest.of_done.2.2⟩
            | ok u => cases failure <;> exact ⟨hrest.of_done.1, hrest.of_done.2.2⟩
          obtain ⟨rfl, rfl⟩ := hlast
          rw [List.nil_append, List.append_assoc] at hx
          rw [List.append_nil] at hpublished ⊢
          exact hx.back_iff hpublished (hcalm nofun)

/-! ## The version that stays -/

/-- The second cycle, in which the directory cannot be synced once `current` names
the new version. -/
def sampleFailure (s : Tls) :
    Option (History × api.Settled (Option Raised × Option Name) × Tls) :=
  play
    (sampleWorld 'b' [3] [4] fun s c =>
      c = .fsync [] && s.now = some (.link (sampleVersion 'b')))
    (renewAndPublish ⟨1, 1⟩) s

theorem sampleFailure_stays :
    (sampleCycle.bind fun x => (sampleFailure x.2.2).map fun y =>
      decide (x.2.2.now = some (.link (sampleVersion 'a')) ∧ y.2.1.isOk = false ∧
        y.2.2.now = some (.link (sampleVersion 'b')) ∧ switches y.1 = 1)) = some true := by
  decide +kernel

/-- Publication raises after the link was replaced, and nothing replaces it back. -/
theorem stays_published :
    ∃ (s s' : Tls) (e : Raised) (ms : History), World.Reached ⟨s, none⟩ ∧
      s.now = some (.link (sampleVersion 'a')) ∧
      Path effect (runCycle ⟨1, 1⟩) s ms (.done (.error e)) s' ∧ 0 < switches ms ∧
      ¬Verified ⟨1, 1⟩ s ms ∧ s'.now ≠ some (.link (sampleVersion 'a')) := by
  have hworld {α : Type} {digit : Char} {cert key : Bytes} {fails : Tls → Call → Bool} {p : Py α}
      {s s' : Tls} {ms : History} {r : api.Settled α}
      (h : play (sampleWorld digit cert key fails) p s = some (ms, r, s')) :
      Path effect p s ms (.done r) s' :=
    Path.of_play (fun _ _ _ _ => sampleWorld_effect) h
  obtain ⟨⟨ms₀, r₀, s⟩, hfirst, hrest⟩ := Option.bind_eq_some_iff.1 sampleFailure_stays
  obtain ⟨⟨ms, r, s'⟩, hsecond, hend⟩ := Option.map_eq_some_iff.1 hrest
  obtain ⟨hbefore, hraised, hafter, hone⟩ := of_decide_eq_true hend
  cases r with
  | ok result => cases hraised
  | error e =>
      have hpath := hworld hsecond
      refine ⟨s, s', e, ms, .cycle ⟨[], .nil⟩ (hworld hfirst), hbefore, ?_,
        hone ▸ Nat.one_pos, ?_, ?_⟩
      · rw [← List.append_nil ms, runCycle, Prog.bind_eq]
        exact hpath.andThen .nil
      · rintro ⟨result, t, t', ms₁, ms₂, ms₃, hrenew, -, hms⟩
        cases hrenew.deterministic hpath hms
      · rw [hafter]
        decide

/-- The second cycle, which is asked to stop. -/
def stoppedWorld (s : Tls) : (c : Call) → Option (api.Settled c.Reply × Tls)
  | .stopIsSet => some (.ok true, s)
  | c => sampleWorld 'b' [3] [4] (fun _ _ => false) s c

theorem stoppedWorld_effect {s s' : Tls} {c : Call} {r : api.Settled c.Reply}
    (h : stoppedWorld s c = some (r, s')) : effect s c r s' := by
  cases c with
  | stopIsSet =>
      obtain ⟨rfl, rfl⟩ := Prod.mk.inj (Option.some.inj h)
      rfl
  | _ =>
      have hsample : sampleWorld 'b' [3] [4] (fun _ _ => false) s _ = some (r, s') := h
      exact sampleWorld_effect hsample

/-- What it does up to the health check, in it, and behind it. -/
def sampleStop (s : Tls) : Option ((History × api.Settled (Option Raised × Option Name) × Tls) ×
    (History × api.Settled Unit × Tls) × (History × api.Settled Unit × Tls)) := do
  let renewed ← play stoppedWorld (renewAndPublish ⟨1, 1⟩) s
  let checked ← play stoppedWorld (runHealthcheck ⟨1, 1⟩ 120) renewed.2.2
  let restored ← play stoppedWorld (rollBack (some (sampleVersion 'a')) .stopRequested) checked.2.2
  return (renewed, checked, restored)

theorem sampleStop_returns :
    (sampleCycle.bind fun x => (sampleStop x.2.2).map fun y =>
      decide (x.2.2.now = some (.link (sampleVersion 'a')) ∧
        y.1.2.1 = .ok (none, some (sampleVersion 'a')) ∧ y.2.1.2.1 = .error .stopRequested ∧
        y.2.2.2.1 = .error .stopRequested ∧ 0 < switches y.1.1 ∧
        y.2.2.2.2.now = some (.link (sampleVersion 'a')))) = some true := by
  decide +kernel

/-- The new version is not checked, and the old one is put back. -/
theorem goes_back :
    ∃ (s s' : Tls) (e : Raised) (ms : History), World.Reached ⟨s, none⟩ ∧
      s.now = some (.link (sampleVersion 'a')) ∧
      Path effect (runCycle ⟨1, 1⟩) s ms (.done (.error e)) s' ∧ 0 < switches ms ∧
      ¬Verified ⟨1, 1⟩ s ms ∧ s'.now = some (.link (sampleVersion 'a')) := by
  have hworld {α : Type} {p : Py α} {s s' : Tls} {ms : History} {r : api.Settled α}
      (h : play stoppedWorld p s = some (ms, r, s')) : Path effect p s ms (.done r) s' :=
    Path.of_play (fun _ _ _ _ => stoppedWorld_effect) h
  obtain ⟨⟨ms₀, r₀, s⟩, hfirst, hrest⟩ := Option.bind_eq_some_iff.1 sampleStop_returns
  obtain ⟨⟨⟨ms₁, r₁, t₁⟩, ⟨ms₂, r₂, t₂⟩, ms₃, r₃, s'⟩, hstop, hend⟩ := Option.map_eq_some_iff.1 hrest
  obtain ⟨hbefore, hrenewed, hchecked, hrestored, hone, hafter⟩ := of_decide_eq_true hend
  dsimp only at hrenewed hchecked hrestored hone hafter hbefore
  subst hrenewed hchecked hrestored
  simp only [sampleStop, bind, Option.bind_eq_some_iff] at hstop
  obtain ⟨_, hrenew, _, hcheck, _, hrestore, heq⟩ := hstop
  obtain ⟨rfl, rfl, rfl⟩ : _ = (ms₁, _, t₁) ∧ _ = (ms₂, _, t₂) ∧ _ = (ms₃, _, s') := by
    simpa using heq
  have hrenew := hworld hrenew
  have hcheck := hworld hcheck
  have hrestore := hworld hrestore
  have hfirst : Path effect (runCycle ⟨1, 1⟩) .empty ms₀ (.done r₀) s :=
    Path.of_play (fun _ _ _ _ => sampleWorld_effect) hfirst
  have htry : Path effect (tryCatch (runHealthcheck ⟨1, 1⟩ 120) (rollBack (some (sampleVersion 'a'))))
      t₁ (ms₂ ++ ms₃) (.done (.error .stopRequested)) s' := hcheck.andThen hrestore
  have hpath : Path effect (runCycle ⟨1, 1⟩) s (ms₁ ++ (ms₂ ++ ms₃ ++ []))
      (.done (.error .stopRequested)) s' := by
    rw [runCycle, Prog.bind_eq]
    exact hrenew.andThen (htry.andThen .nil)
  rw [List.append_nil] at hpath
  refine ⟨s, s', .stopRequested, ms₁ ++ (ms₂ ++ ms₃), .cycle ⟨[], .nil⟩ hfirst, hbefore, hpath, ?_, ?_,
    hafter⟩
  · rw [switches, List.countP_append]
    rw [switches] at hone
    omega
  · -- What returns from the same moves is the same.
    rintro ⟨result, u, u', ms₄, ms₅, ms₆, hrenew', hcheck', hms⟩
    have hraised : Path effect (renewAndPublish ⟨1, 1⟩ >>= fun _ => runHealthcheck ⟨1, 1⟩ 120) s
        (ms₁ ++ ms₂) (.done (.error .stopRequested)) t₂ := hrenew.andThen hcheck
    have hreturned : Path effect (renewAndPublish ⟨1, 1⟩ >>= fun _ => runHealthcheck ⟨1, 1⟩ 120) s
        (ms₄ ++ ms₅) (.done (.ok ())) u' := hrenew'.andThen hcheck'
    have hsame : (ms₁ ++ ms₂) ++ ms₃ = (ms₄ ++ ms₅) ++ ms₆ := by
      rw [List.append_assoc, hms, List.append_assoc]
    rcases List.append_eq_append_iff.1 hsame with ⟨later, hlater, -⟩ | ⟨later, hlater, -⟩
    · cases hraised.deterministic hreturned hlater
    · cases hreturned.deterministic hraised hlater

theorem rolled_back_iff_sample :
    (∃ (s s' : Tls) (e : Raised) (ms : History), World.Reached ⟨s, none⟩ ∧
      Path effect (runCycle ⟨1, 1⟩) s ms (.done (.error e)) s' ∧
      s'.now ≠ some (.link (sampleVersion 'a')) ∧ Disturbed ms) ∧
    ∃ (s s' : Tls) (e : Raised) (ms : History), World.Reached ⟨s, none⟩ ∧
      Path effect (runCycle ⟨1, 1⟩) s ms (.done (.error e)) s' ∧
      s'.now = some (.link (sampleVersion 'a')) ∧ ¬Disturbed ms := by
  constructor
  · obtain ⟨s, s', e, ms, hs, hnow, hpath, hpublished, hunverified, hstays⟩ := stays_published
    have hiff := rolled_back_iff hs hnow hpath hpublished hunverified
    exact ⟨s, s', e, ms, hs, hpath, hstays, not_not.1 fun hno => hstays (hiff.2 hno)⟩
  · obtain ⟨s, s', e, ms, hs, hnow, hpath, hpublished, hunverified, hback⟩ := goes_back
    have hiff := rolled_back_iff hs hnow hpath hpublished hunverified
    exact ⟨s, s', e, ms, hs, hpath, hback, hiff.1 hback⟩

theorem rolled_back_fails :
    ¬∀ (s s' : Tls) (v : Name) (e : Raised) (ms : History) (patience : Patience),
      World.Reached ⟨s, none⟩ → s.now = some (.link v) →
      Path effect (runCycle patience) s ms (.done (.error e)) s' → 0 < switches ms →
      ¬Verified patience s ms → s'.now = some (.link v) := by
  intro h
  obtain ⟨s, s', e, ms, hs, hnow, hpath, hpublished, hunverified, hstays⟩ := stays_published
  exact hstays (h s s' _ e ms _ hs hnow hpath hpublished hunverified)

end BrowserVpn.Manager
