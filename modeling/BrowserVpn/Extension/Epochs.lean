import BrowserVpn.Extension.Ordering

/-!
# Extension.Epochs — what an unchanged counter proves

Functions of the worker protect themselves by comparing counters before and
after their awaits. `Passed` counts what the trace shows between two states of
one worker lifetime against those counters, so that equal counters mean that
nothing of the kind has happened in between: no task of the queue has started,
no effective setting has changed, no proxy error was raised.
-/

namespace BrowserVpn

open Async

/-! ## Readings of the trace -/

def Obs.starts : Obs → Bool
  | .started .. => true
  | _ => false

def Obs.changes : Obs → Bool
  | .settingChanged => true
  | _ => false

def Obs.raises : Obs → Bool
  | .errorRaised _ => true
  | _ => false

/-- The task of the queue that runs at the end of a trace. -/
def busy : List Obs → Option (Op × Option Nat)
  | [] => none
  | .restarted :: _ => none
  | .started op owner :: _ => some (op, owner)
  | .ended .op _ :: _ => none
  | _ :: trace => busy trace

/-- What has passed between two states of one worker. -/
structure Passed (s₀ s : Sys) (new : List Obs) : Prop where
  trace : s.trace = new ++ s₀.trace
  alive : Obs.restarted ∉ new
  starts : s.vars.configurationEpoch = s₀.vars.configurationEpoch + new.countP Obs.starts
  changes : s.vars.browserSettingEpoch = s₀.vars.browserSettingEpoch + new.countP Obs.changes
  raises : s₀.vars.proxyErrorEpoch + new.countP Obs.raises ≤ s.vars.proxyErrorEpoch

namespace Passed

variable {s₀ s₁ s₂ : Sys} {new new' : List Obs}

theorem refl (s : Sys) : Passed s s [] := ⟨rfl, by simp, rfl, rfl, Nat.le_refl _⟩

theorem trans (h : Passed s₀ s₁ new) (h' : Passed s₁ s₂ new') : Passed s₀ s₂ (new' ++ new) := by
  refine ⟨?_, ?_, ?_, ?_, ?_⟩
  · rw [h'.trace, h.trace, List.append_assoc]
  · rw [List.mem_append]
    exact fun hmem => hmem.elim h'.alive h.alive
  · have hstarts := h.starts
    have hstarts' := h'.starts
    rw [List.countP_append]
    omega
  · have hchanges := h.changes
    have hchanges' := h'.changes
    rw [List.countP_append]
    omega
  · have hraises := h.raises
    have hraises' := h'.raises
    rw [List.countP_append]
    omega

/-- Equal counters: nothing has started. -/
theorem no_start (h : Passed s₀ s₁ new)
    (he : s₁.vars.configurationEpoch = s₀.vars.configurationEpoch) :
    ∀ op owner, Obs.started op owner ∉ new := by
  have hzero : new.countP Obs.starts = 0 := by
    have hstarts := h.starts
    omega
  intro op owner hmem
  exact absurd rfl (List.countP_eq_zero.1 hzero _ hmem)

/-- Equal counters: no effective setting has changed. -/
theorem no_change (h : Passed s₀ s₁ new)
    (he : s₁.vars.browserSettingEpoch = s₀.vars.browserSettingEpoch) :
    Obs.settingChanged ∉ new := by
  have hzero : new.countP Obs.changes = 0 := by
    have hchanges := h.changes
    omega
  intro hmem
  exact absurd rfl (List.countP_eq_zero.1 hzero _ hmem)

/-- Equal counters: no proxy error was raised. -/
theorem no_raise (h : Passed s₀ s₁ new)
    (he : s₁.vars.proxyErrorEpoch = s₀.vars.proxyErrorEpoch) :
    ∀ stamp, Obs.errorRaised stamp ∉ new := by
  have hzero : new.countP Obs.raises = 0 := by
    have hraises := h.raises
    omega
  intro stamp hmem
  exact absurd rfl (List.countP_eq_zero.1 hzero _ hmem)

end Passed

/-- A segment does not touch the counters of tasks and settings, and never
takes an error back. -/
theorem run_epochs {p : Js Result} {v v' : Vars} {stop : Stop api Result}
    (h : p.run v = (v', stop)) :
    v'.configurationEpoch = v.configurationEpoch ∧
      v'.browserSettingEpoch = v.browserSettingEpoch ∧
      v.proxyErrorEpoch ≤ v'.proxyErrorEpoch := by
  have hrel := Prog.run_rel (A := api) (R := fun u v =>
      v.configurationEpoch = u.configurationEpoch ∧
        v.browserSettingEpoch = u.browserSettingEpoch ∧ u.proxyErrorEpoch ≤ v.proxyErrorEpoch)
    (fun _ => ⟨rfl, rfl, Nat.le_refl _⟩)
    (fun h h' => ⟨h'.1.trans h.1, h'.2.1.trans h.2.1, Nat.le_trans h.2.2 h'.2.2⟩)
    (fun w v => by cases w <;> simp [Write.apply]) p v
  rwa [h] at hrel

/-- What a move of the browser counts. -/
theorem Sys.move_passed (s : Sys) (w : World) : ∃ new, Passed s (s.move w) new ∧
    ∀ o ∈ new, o = .settingChanged := by
  simp only [move]
  split <;> split
  · refine ⟨[.settingChanged, .settingChanged], ⟨rfl, by simp, rfl, rfl, ?_⟩, by simp⟩
    exact Nat.le_refl _
  · refine ⟨[.settingChanged], ⟨rfl, by simp, rfl, rfl, ?_⟩, by simp⟩
    exact Nat.le_refl _
  · refine ⟨[.settingChanged], ⟨rfl, by simp, rfl, rfl, ?_⟩, by simp⟩
    exact Nat.le_refl _
  · exact ⟨[], ⟨rfl, by simp, rfl, rfl, Nat.le_refl _⟩, by simp⟩

section

variable [Platform] [Browser] {s s' : Sys} {l : Label}

/-- One step, with the observations of its label. -/
theorem Sys.passed_next (hs : s.next l = some s') (hl : l ≠ .restart) :
    ∃ new, Passed s s' new ∧ ∀ o ∈ new, o.Of l := by
  -- A step that shows one thing and counts nothing.
  have hplain : ∀ {o : Obs}, s'.trace = o :: s.trace → o.starts = false → o.changes = false →
      o.raises = false → o ≠ .restarted → o.Of l →
      s'.vars.configurationEpoch = s.vars.configurationEpoch ∧
        s'.vars.browserSettingEpoch = s.vars.browserSettingEpoch ∧
        s.vars.proxyErrorEpoch ≤ s'.vars.proxyErrorEpoch →
      ∃ new, Passed s s' new ∧ ∀ o ∈ new, o.Of l := by
    intro o htrace hstarts hchanges hraises halive hof hv
    refine ⟨[o], ⟨htrace, by simpa using Ne.symm halive, ?_, ?_, ?_⟩, by simpa using hof⟩
    · simpa [hstarts] using hv.1
    · simpa [hchanges] using hv.2.1
    · simpa [hraises] using hv.2.2
  cases l with
  | restart => exact absurd rfl hl
  | message sender m =>
      obtain rfl := Option.some.inj hs
      refine ⟨[], ?_, by simp⟩
      split <;> exact ⟨rfl, by simp, rfl, rfl, Nat.le_refl _⟩
  | challenge details =>
      obtain rfl := Option.some.inj hs
      refine ⟨[], ?_, by simp⟩
      unfold onChallenge
      split <;> exact ⟨rfl, by simp, rfl, rfl, Nat.le_refl _⟩
  | requestDone id =>
      obtain rfl := Option.some.inj hs
      exact hplain rfl rfl rfl rfl (by rintro ⟨⟩) rfl ⟨rfl, rfl, Nat.le_refl _⟩
  | proxyError details =>
      obtain rfl := Option.some.inj hs
      refine ⟨[.errorRaised (s.vars.proxyErrorEpoch + 1)], ⟨rfl, by simp, rfl, rfl, ?_⟩, ?_⟩
      · exact Nat.le_refl _
      · simp [Obs.Of]
  | others proxy webRTC =>
      obtain rfl := Option.some.inj hs
      obtain ⟨new, hpassed, hnew⟩ := s.move_passed _
      exact ⟨new, hpassed, fun o ho => by simp [hnew o ho, Obs.Of]⟩
  | clock now =>
      obtain rfl := Option.some.inj hs
      exact ⟨[], ⟨rfl, by simp, rfl, rfl, Nat.le_refl _⟩, by simp⟩
  | dispatch t =>
      obtain ⟨kind, -, -, rfl⟩ := dispatch_eq_some hs
      exact hplain (o := .began t kind) rfl rfl rfl rfl (by rintro ⟨⟩) rfl ⟨rfl, rfl, Nat.le_refl _⟩
  | start =>
      obtain ⟨op, owner, rest, -, -, rfl⟩ := startOp_eq_some hs
      refine ⟨[.started op owner], ⟨rfl, by simp, rfl, rfl, ?_⟩, by simp [Obs.Of]⟩
      exact Nat.le_refl _
  | land a o =>
      obtain ⟨subj, c, k, r, w, -, -, rfl⟩ := land_eq_some hs
      obtain ⟨new, hpassed, hnew⟩ := s.move_passed w
      refine ⟨.landed a c r :: new, ⟨?_, ?_, ?_, ?_, ?_⟩, ?_⟩
      · rw [answer_trace, hpassed.trace]
        rfl
      · simpa using hpassed.alive
      · rw [answer_vars, hpassed.starts]
        rfl
      · rw [answer_vars, hpassed.changes]
        rfl
      · rw [answer_vars]
        exact hpassed.raises
      · intro o' ho'
        rcases List.mem_cons.1 ho' with rfl | ho'
        · exact ⟨o, rfl⟩
        · simp [hnew o' ho', Obs.Of]
  | resume a =>
      obtain ⟨subj, p, -, ⟨v, c, k, hp, rfl⟩ | ⟨v, r, hp, rfl⟩⟩ := resume_eq_some hs
      · have hv := run_epochs hp
        exact hplain (o := .issued a c) (by simp) rfl rfl rfl (by rintro ⟨⟩) rfl (by simpa using hv)
      · have hv := run_epochs hp
        obtain ⟨b, hb⟩ := ({ s with vars := v } : Sys).finish_vars a r
        refine hplain (o := .ended a r) (by simp) rfl rfl rfl (by rintro ⟨⟩) rfl ?_
        rw [hb]
        exact hv

/-! ## Later in the same lifetime -/

omit [Platform] [Browser] in
/-- The steps of one worker. -/
def Rules.alive (ok : Rules) : Rules := fun s l => ok s l ∧ l ≠ .restart

/-- `s` comes after `s₀` in the same worker lifetime. -/
abbrev Later (ok : Rules) (s₀ s : Sys) : Prop := Reach ok.alive s₀ s

variable {ok : Rules} {w : World} {s₀ s₁ : Sys}

theorem Reach.trans (h : Reach ok s₀ s₁) (h' : Reach ok s₁ s) : Reach ok s₀ s := by
  induction h' with
  | init => exact h
  | step _ hl hn ih => exact ih.step hl hn

theorem Reach.later (h : Reach ok s₀ s₁) (h' : Later ok s₁ s) : Reach ok s₀ s := by
  induction h' with
  | init => exact h
  | step _ hl hn ih => exact ih.step hl.1 hn

theorem Later.passed (h : Later ok s₀ s) : ∃ new, Passed s₀ s new := by
  induction h with
  | init => exact ⟨[], Passed.refl s₀⟩
  | step _ hl hn ih =>
      obtain ⟨new, hpassed⟩ := ih
      obtain ⟨new', hpassed', -⟩ := Sys.passed_next hn hl.2
      exact ⟨_, hpassed.trans hpassed'⟩

/-- Between equal readings of the counter of tasks it stands still. -/
theorem Later.starts_between (h : Later ok s₀ s₁) (h' : Later ok s₁ s)
    (he : s.vars.configurationEpoch = s₀.vars.configurationEpoch) :
    s₁.vars.configurationEpoch = s₀.vars.configurationEpoch := by
  obtain ⟨new, hpassed⟩ := h.passed
  obtain ⟨new', hpassed'⟩ := h'.passed
  have hstarts := hpassed.starts
  have hstarts' := hpassed'.starts
  omega

/-- Between equal readings of the counter of settings it stands still. -/
theorem Later.changes_between (h : Later ok s₀ s₁) (h' : Later ok s₁ s)
    (he : s.vars.browserSettingEpoch = s₀.vars.browserSettingEpoch) :
    s₁.vars.browserSettingEpoch = s₀.vars.browserSettingEpoch := by
  obtain ⟨new, hpassed⟩ := h.passed
  obtain ⟨new', hpassed'⟩ := h'.passed
  have hchanges := hpassed.changes
  have hchanges' := hpassed'.changes
  omega

/-! ### The queue -/

theorem Sys.busy_next (hs : s.next l = some s')
    (h : busy s.trace = s.running.map fun r => (r.op, r.owner)) :
    busy s'.trace = s'.running.map fun r => (r.op, r.owner) := by
  cases l with
  | message sender m =>
      obtain rfl := Option.some.inj hs
      split <;> exact h
  | challenge details =>
      obtain rfl := Option.some.inj hs
      unfold onChallenge
      split <;> exact h
  | others proxy webRTC =>
      obtain rfl := Option.some.inj hs
      obtain ⟨new, htrace, hnew⟩ := s.move_trace { s.world with
        proxy := { s.world.proxy with others := proxy }
        webRTC := { s.world.webRTC with others := webRTC } }
      have hbusy : busy (new ++ s.trace) = busy s.trace :=
        reading_next fun o ho t => by rw [hnew o ho]; rfl
      rw [htrace, move_running, hbusy, h]
  | start =>
      obtain ⟨op, owner, rest, -, -, rfl⟩ := startOp_eq_some hs
      rfl
  | dispatch t =>
      obtain ⟨kind, -, -, rfl⟩ := dispatch_eq_some hs
      exact h
  | land a o =>
      obtain ⟨subj, c, k, r, w, -, -, rfl⟩ := land_eq_some hs
      obtain ⟨new, htrace, hnew⟩ := s.move_trace w
      rw [answer_trace, htrace]
      have hbusy : busy (new ++ s.trace) = busy s.trace :=
        reading_next fun o ho t => by rw [hnew o ho]; rfl
      show busy (new ++ s.trace) = _
      rw [hbusy, h]
      cases a <;> simp [answer, park, Function.comp_def]
  | resume a =>
      obtain ⟨subj, p, -, ⟨v, c, k, -, rfl⟩ | ⟨v, r, -, rfl⟩⟩ := resume_eq_some hs
      · rw [suspend_trace]
        show busy s.trace = _
        rw [h]
        cases a <;> simp [suspend, park, Function.comp_def]
      · rw [finish_trace]
        cases a with
        | boot => exact h
        | task t => exact h
        | op =>
            simp only [finish]
            split <;> rfl
  | requestDone id => exact Option.some.inj hs ▸ h
  | proxyError details => exact Option.some.inj hs ▸ h
  | clock now => exact Option.some.inj hs ▸ h
  | restart => exact Option.some.inj hs ▸ rfl

theorem Reach.busy (h : Reach ok (Sys.init w) s) :
    BrowserVpn.busy s.trace = s.running.map fun r => (r.op, r.owner) := by
  induction h with
  | init => rfl
  | step _ _ hn ih => exact Sys.busy_next hn ih

omit [Platform] [Browser] in
/-- What runs at the end of a trace started in it or ran before. -/
theorem started_of_busy {new old : List Obs} {op : Op} {owner : Option Nat}
    (h : busy (new ++ old) = some (op, owner)) :
    Obs.started op owner ∈ new ∨ busy old = some (op, owner) := by
  induction new with
  | nil => exact Or.inr h
  | cons o new ih =>
      have hlater : busy (new ++ old) = some (op, owner) →
          Obs.started op owner ∈ o :: new ∨ busy old = some (op, owner) :=
        fun h => (ih h).imp_left (List.mem_cons_of_mem o)
      cases o with
      | started op' owner' =>
          obtain ⟨rfl, rfl⟩ : op' = op ∧ owner' = owner := by simpa [busy] using h
          exact Or.inl (List.mem_cons_self ..)
      | restarted => cases h
      | ended a r => cases a <;> first | cases h | exact hlater h
      | _ => exact hlater h

/-- Where nothing ran and nothing has started, nothing runs. -/
theorem Later.running_none (hr : Reach ok (Sys.init w) s₀) (h : Later ok s₀ s)
    (hnone : s₀.running = none)
    (he : s.vars.configurationEpoch = s₀.vars.configurationEpoch) : s.running = none := by
  obtain ⟨new, hpassed⟩ := h.passed
  have hbusy := (hr.later h).busy
  rw [hpassed.trace] at hbusy
  cases hrun : s.running with
  | none => rfl
  | some r =>
      rw [hrun] at hbusy
      rcases started_of_busy hbusy with hmem | hold
      · exact absurd hmem (hpassed.no_start he _ _)
      · rw [hr.busy, hnone] at hold
        cases hold

omit [Platform] in
theorem Sys.boot_next [Platform] (hs : s.next l = some s') (hl : l ≠ .restart)
    (h : s.boot = none) : s'.boot = none := by
  by_contra hne
  obtain ⟨hboot, -⟩ := booting_next hs hl (Option.isSome_iff_ne_none.2 hne)
  simp [h] at hboot

theorem Later.boot_none (h : Later ok s₀ s) (hboot : s₀.boot = none) : s.boot = none := by
  induction h with
  | init => exact hboot
  | step _ hl hn ih => exact Sys.boot_next hn hl.2 ih

/-! ### The settings -/

omit [Platform] [Browser] in
/-- A move that raises no event changes no effective setting. -/
theorem Sys.effective_move (s : Sys) (w : World)
    (he : (s.move w).vars.browserSettingEpoch = s.vars.browserSettingEpoch) :
    w.proxy.effective = s.world.proxy.effective ∧
      w.webRTC.effective = s.world.webRTC.effective := by
  cases hproxy : s.world.proxy.differs w.proxy <;>
    cases hwebRTC : s.world.webRTC.differs w.webRTC <;>
    simp only [move, hproxy, hwebRTC, Bool.false_eq_true, if_false, if_true, raise] at he
  · exact ⟨ChromeSetting.effective_of_not_differs hproxy,
      ChromeSetting.effective_of_not_differs hwebRTC⟩
  all_goals omega

theorem Sys.effective_next (hs : s.next l = some s')
    (he : s'.vars.browserSettingEpoch = s.vars.browserSettingEpoch) :
    s'.world.proxy.effective = s.world.proxy.effective ∧
      s'.world.webRTC.effective = s.world.webRTC.effective := by
  have hsame : s'.world = s.world → s'.world.proxy.effective = s.world.proxy.effective ∧
      s'.world.webRTC.effective = s.world.webRTC.effective := fun h => by rw [h]; exact ⟨rfl, rfl⟩
  cases l with
  | message sender m =>
      obtain rfl := Option.some.inj hs
      refine hsame ?_
      split <;> rfl
  | challenge details =>
      obtain rfl := Option.some.inj hs
      refine hsame ?_
      unfold onChallenge
      split <;> rfl
  | others proxy webRTC =>
      obtain rfl := Option.some.inj hs
      exact s.effective_move _ he
  | start =>
      obtain ⟨op, owner, rest, -, -, rfl⟩ := startOp_eq_some hs
      exact ⟨rfl, rfl⟩
  | dispatch t =>
      obtain ⟨kind, -, -, rfl⟩ := dispatch_eq_some hs
      exact ⟨rfl, rfl⟩
  | land a o =>
      obtain ⟨subj, c, k, r, w, -, -, rfl⟩ := land_eq_some hs
      rw [answer_vars] at he
      rw [answer_world]
      exact s.effective_move w he
  | resume a =>
      obtain ⟨subj, p, -, ⟨v, c, k, -, rfl⟩ | ⟨v, r, -, rfl⟩⟩ := resume_eq_some hs
      · exact hsame (by simp)
      · exact hsame (by simp)
  | requestDone id => exact hsame (Option.some.inj hs ▸ rfl)
  | proxyError details => exact hsame (Option.some.inj hs ▸ rfl)
  | clock now => exact hsame (Option.some.inj hs ▸ rfl)
  | restart => exact hsame (Option.some.inj hs ▸ rfl)

/-- An invariant of the steps that leave the counter of the settings alone. -/
theorem Later.induction_calm {P : Sys → Prop} (h : Later ok s₀ s)
    (he : s.vars.browserSettingEpoch = s₀.vars.browserSettingEpoch) (h₀ : P s₀)
    (hstep : ∀ {s₁ l s₂}, Later ok s₀ s₁ → P s₁ → l ≠ .restart → s₁.next l = some s₂ →
      s₂.vars.browserSettingEpoch = s₁.vars.browserSettingEpoch →
      s₁.vars.browserSettingEpoch = s₀.vars.browserSettingEpoch → P s₂) : P s := by
  induction h with
  | init => exact h₀
  | step h₁ hl hn ih =>
      obtain ⟨new, hpassed⟩ := Later.passed h₁
      obtain ⟨new', hpassed', -⟩ := Sys.passed_next hn hl.2
      have hchanges := hpassed.changes
      have hchanges' := hpassed'.changes
      exact hstep h₁ (ih (by omega)) hl.2 hn (by omega) (by omega)

/-- Equal counters: the effective settings are what they were. -/
theorem Later.effective (h : Later ok s₀ s)
    (he : s.vars.browserSettingEpoch = s₀.vars.browserSettingEpoch) :
    s.world.proxy.effective = s₀.world.proxy.effective ∧
      s.world.webRTC.effective = s₀.world.webRTC.effective := by
  refine h.induction_calm (P := fun s => s.world.proxy.effective = s₀.world.proxy.effective ∧
    s.world.webRTC.effective = s₀.world.webRTC.effective) he ⟨rfl, rfl⟩
    fun _ ih _ hn hcalm _ => ?_
  obtain ⟨hproxy, hwebRTC⟩ := Sys.effective_next hn hcalm
  exact ⟨hproxy.trans ih.1, hwebRTC.trans ih.2⟩

/-! ### The storage -/

/-- While `boot` is done and no task runs but a neutral one, the stored
configuration stays. -/
theorem Sys.Disciplined.config_next (hd : s.Disciplined) (hs : s.next l = some s')
    (hboot : s.boot = none) (hrun : ∀ r, s.running = some r → r.op.neutral = true) :
    s'.world.storage.toConfig = s.world.storage.toConfig := by
  cases l with
  | message sender m =>
      obtain rfl := Option.some.inj hs
      split <;> rfl
  | challenge details =>
      obtain rfl := Option.some.inj hs
      unfold Sys.onChallenge
      split <;> rfl
  | others proxy webRTC => exact Option.some.inj hs ▸ rfl
  | start =>
      obtain ⟨op, owner, rest, -, -, rfl⟩ := Sys.startOp_eq_some hs
      rfl
  | dispatch t =>
      obtain ⟨kind, -, -, rfl⟩ := Sys.dispatch_eq_some hs
      rfl
  | land a o =>
      obtain ⟨subj, c, k, r, w, hslot, hw, rfl⟩ := Sys.land_eq_some hs
      rw [Sys.answer_world]
      refine (hd.land_quiet hslot ?_ hw).1
      cases a with
      | boot => simpa [hboot] using (Sys.slot_boot hslot).2
      | op =>
          obtain ⟨op, owner, hr, rfl⟩ := Sys.slot_op hslot
          exact hrun _ hr
      | task t =>
          obtain ⟨kind, -, rfl⟩ := Sys.task_of_slot hslot
          rfl
  | resume a =>
      obtain ⟨subj, p, -, ⟨v, c, k, -, rfl⟩ | ⟨v, r, -, rfl⟩⟩ := Sys.resume_eq_some hs
      · rw [Sys.suspend_world]
      · rw [Sys.finish_world]
  | requestDone id => exact Option.some.inj hs ▸ rfl
  | proxyError details => exact Option.some.inj hs ▸ rfl
  | clock now => exact Option.some.inj hs ▸ rfl
  | restart => exact Option.some.inj hs ▸ rfl

/-- Where only neutral tasks have run, the stored configuration is what it was. -/
theorem Later.config (hr : Reach ok (Sys.init w) s₀) (h : Later ok s₀ s)
    (hboot : s₀.boot = none) (hrun : ∀ r, s₀.running = some r → r.op.neutral = true)
    {new : List Obs} (htrace : s.trace = new ++ s₀.trace)
    (hnew : ∀ op owner, Obs.started op owner ∈ new → op.neutral = true) :
    s.world.storage.toConfig = s₀.world.storage.toConfig := by
  induction h generalizing new with
  | init => rfl
  | @step s₁ s₂ l h₁ hl hn ih =>
      obtain ⟨new₁, hpassed⟩ := Later.passed h₁
      obtain ⟨new₂, hpassed', -⟩ := Sys.passed_next hn hl.2
      obtain rfl : new = new₂ ++ new₁ := by
        refine List.append_cancel_right (htrace.symm.trans ?_)
        rw [hpassed'.trace, hpassed.trace, List.append_assoc]
      have hnew₁ : ∀ op owner, Obs.started op owner ∈ new₁ → op.neutral = true :=
        fun op owner hmem => hnew op owner (List.mem_append_right _ hmem)
      have hreach₁ : Reach ok (Sys.init w) s₁ := hr.later h₁
      refine (hreach₁.disciplined.config_next hn (Later.boot_none h₁ hboot) ?_).trans
        (ih hpassed.trace hnew₁)
      intro r hrun₁
      have hbusy := hreach₁.busy
      rw [hpassed.trace, hrun₁] at hbusy
      rcases started_of_busy hbusy with hmem | hold
      · exact hnew₁ _ _ hmem
      · rw [hr.busy] at hold
        obtain ⟨r₀, hr₀, he⟩ := Option.map_eq_some_iff.1 hold
        rw [← (Prod.mk.inj he).1]
        exact hrun r₀ hr₀

omit [Platform] in
theorem World.land_connection {w w' : World} {c : Call} {o : Outcome}
    {r : Except String (Reply c)} (h : w.land c o = some (r, w'))
    (hset : ∀ p, c = .storageSet p → p.connection = none) (hremove : c ≠ .storageRemove) :
    w'.storage.connection = w.storage.connection := by
  cases c with
  | storageSet p =>
      cases o <;> simp only [World.land, Option.some.injEq, Prod.mk.injEq, reduceCtorEq] at h <;>
        obtain ⟨-, rfl⟩ := h
      · simp [Storage.set, hset p rfl]
      · rfl
  | storageRemove => exact absurd rfl hremove
  | _ =>
      cases o <;> simp only [World.land, Option.some.injEq, Prod.mk.injEq, reduceCtorEq] at h <;>
        obtain ⟨-, rfl⟩ := h <;> rfl

/-- While there is an own PAC the stored connection stays. -/
theorem Reach.connection_next (h : Reach ok (Sys.init w) s) (hs : s.next l = some s')
    (hown : s.world.proxy.own ≠ none) :
    s'.world.storage.connection = s.world.storage.connection := by
  cases l with
  | message sender m =>
      obtain rfl := Option.some.inj hs
      split <;> rfl
  | challenge details =>
      obtain rfl := Option.some.inj hs
      unfold Sys.onChallenge
      split <;> rfl
  | others proxy webRTC => exact Option.some.inj hs ▸ rfl
  | start =>
      obtain ⟨op, owner, rest, -, -, rfl⟩ := Sys.startOp_eq_some hs
      rfl
  | dispatch t =>
      obtain ⟨kind, -, -, rfl⟩ := Sys.dispatch_eq_some hs
      rfl
  | land a o =>
      obtain ⟨subj, c, k, r, w, hslot, hw, rfl⟩ := Sys.land_eq_some hs
      rw [Sys.answer_world]
      refine World.land_connection hw ?_ ?_
      · rintro p rfl
        by_contra hp
        exact hown (h.own_none hslot (Or.inl ⟨p, rfl, Option.isSome_iff_ne_none.2 hp⟩))
      · rintro rfl
        exact hown (h.own_none hslot (Or.inr rfl))
  | resume a =>
      obtain ⟨subj, p, -, ⟨v, c, k, -, rfl⟩ | ⟨v, r, -, rfl⟩⟩ := Sys.resume_eq_some hs
      · rw [Sys.suspend_world]
      · rw [Sys.finish_world]
  | requestDone id => exact Option.some.inj hs ▸ rfl
  | proxyError details => exact Option.some.inj hs ▸ rfl
  | clock now => exact Option.some.inj hs ▸ rfl
  | restart => exact Option.some.inj hs ▸ rfl

/-- Equal counters, and this extension in control: the stored connection is what
it was. -/
theorem Later.connection (hr : Reach ok (Sys.init w) s₀) (h : Later ok s₀ s)
    (he : s.vars.browserSettingEpoch = s₀.vars.browserSettingEpoch)
    (hctrl : (s₀.world.proxy.effective false).levelOfControl = .controlledByThisExtension) :
    s.world.storage.connection = s₀.world.storage.connection := by
  refine h.induction_calm
    (P := fun s => s.world.storage.connection = s₀.world.storage.connection) he rfl
    fun h₁ ih _ hn _ hsame => ?_
  refine ((hr.later h₁).connection_next hn ?_).trans ih
  rw [← (Later.effective h₁ hsame).1] at hctrl
  simp [ChromeSetting.own_of_regular hctrl]

end

end BrowserVpn
