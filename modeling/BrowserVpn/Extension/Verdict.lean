import BrowserVpn.Extension.Standing

/-!
# Extension.Verdict — what a rejected IP check leaves stored

An IP check that is rejected should not have cleared the stored error. The check
clears it in the midst of its task and can still fail afterwards, so this holds
of the runs in which nothing disturbs a check between its patch and its end
(`undisturbed`).
-/

namespace BrowserVpn

open Async

/-! ## Readings -/

/-- Whether what runs is the task of the IP check of the callback `t`. -/
def ownCheck (t : Nat) : Option (Op × Option Nat) → Bool
  | some (.clearError _, some u) => u == t
  | _ => false

/-- Whether, since the callback `t` began, the stored error was replaced or cleared
by the task of its own IP check (`own`) or by another task. -/
def patchedBy (t : Nat) (own : Bool) : List Obs → Bool
  | [] => false
  | .restarted :: _ => false
  | .began u _ :: trace => u != t && patchedBy t own trace
  | .landed .op (.storageSet p) (.ok _) :: trace =>
      (p.proxyError.isSome && ownCheck t (busy trace) == own) || patchedBy t own trace
  | _ :: trace => patchedBy t own trace

/-! ## The condition -/

/-- Calls whose rejection is caught where they are made. -/
def Call.caught : Call → Bool
  | .isAllowedIncognitoAccess => true
  | .proxyGet incognito => incognito
  | .webRTCGet incognito => incognito
  | _ => false

/-- The callback `t` is under way and its IP check has cleared the error. -/
def Sys.cleared (s : Sys) (t : Nat) : Bool :=
  (s.slot (.task t)).isSome && patchedBy t true s.trace

/-- The patch of an IP check lands before a counter has moved. -/
def prompt (s : Sys) : Label → Bool
  | .land .op .done =>
      match s.running with
      | some ⟨.clearError check, _, .awaiting (.storageSet _) _⟩ =>
          !epochsChanged (check.epoch + 1) check.settingEpoch check.errorEpoch s.vars
      | _ => true
  | _ => true

section

variable [Platform] [Browser]

/-- The worker goes on, no counter moves, and no call of the running task fails
that would make the task fail. -/
def calm (s : Sys) : Label → Bool
  | .restart => false
  | .land .op (.rejected _) =>
      match s.running with
      | some ⟨_, _, .awaiting c _⟩ => c.caught
      | _ => true
  | l => (s.next l).all fun s' => !epochsChanged s.vars.configurationEpoch
      s.vars.browserSettingEpoch s.vars.proxyErrorEpoch s'.vars

/-- Between the patch of an IP check and the end of the check, all is calm. -/
def undisturbed (s : Sys) (l : Label) : Bool :=
  prompt s l && (List.range s.tasks.length).all fun t => !s.cleared t || calm s l

/-! ## What the readings make of a step -/

variable {ok : Rules} {w : World} {s s' : Sys} {l : Label} {t : Nat} {own : Bool} {α β : Type}

omit [Platform] [Browser] in
theorem patchedBy_landed {a : Actor} {c : Call} {r : Except String (Reply c)} {trace : List Obs}
    (h : ∀ p, a = .op → c = .storageSet p → (∃ u, r = .ok u) → p.proxyError = none) :
    patchedBy t own (.landed a c r :: trace) = patchedBy t own trace := by
  cases a with
  | boot => rfl
  | task u => rfl
  | op =>
      cases c with
      | storageSet p =>
          cases r with
          | error e => rfl
          | ok u => simp [patchedBy, h p rfl rfl ⟨u, rfl⟩]
      | _ => rfl

omit [Platform] [Browser] in
/-- What was patched stays so until the callback begins anew. -/
theorem patchedBy_append {new trace : List Obs} (hnew : Obs.restarted ∉ new)
    (hbegan : ∀ kind, Obs.began t kind ∉ new) (h : patchedBy t own trace = true) :
    patchedBy t own (new ++ trace) = true := by
  induction new with
  | nil => exact h
  | cons o new ih =>
      have ih := ih (fun hmem => hnew (List.mem_cons_of_mem _ hmem))
        fun kind hmem => hbegan kind (List.mem_cons_of_mem _ hmem)
      cases o with
      | restarted => exact absurd (List.mem_cons_self ..) hnew
      | began u kind =>
          have hne : u ≠ t := by
            rintro rfl
            exact hbegan kind (List.mem_cons_self ..)
          simpa [patchedBy, hne] using ih
      | landed a c r =>
          cases a with
          | boot => exact ih
          | task u => exact ih
          | op =>
              cases c with
              | storageSet p =>
                  cases r with
                  | error e => exact ih
                  | ok u => simp [patchedBy, ih]
              | _ => exact ih
      | _ => exact ih

theorem patchedBy_kept (hs : s.next l = some s') (hl : l ≠ .restart) (ht : l ≠ .dispatch t)
    (h : patchedBy t own s.trace = true) : patchedBy t own s'.trace = true := by
  obtain ⟨new, htrace, hof⟩ := Sys.trace_next hs
  rw [htrace]
  exact patchedBy_append (fun hmem => hl (hof _ hmem)) (fun kind hmem => ht (hof _ hmem)) h

/-- A patch of the stored error that lands, and whose it is. -/
structure Sys.Patches (s : Sys) (l : Label) (op : Op) (owner : Option Nat) (p : Patch)
    (k : Except String Unit → Js Result) : Prop where
  label : l = .land .op .done
  running : s.running = some ⟨op, owner, .awaiting (.storageSet p) k⟩
  patch : p.proxyError.isSome = true

/-- What is patched after a step was so before, or the patch lands in the step. -/
theorem patchedBy_next (h : Reach ok (Sys.init w) s) (hs : s.next l = some s')
    (hpatched : patchedBy t own s'.trace = true) :
    (l ≠ .restart ∧ l ≠ .dispatch t ∧ patchedBy t own s.trace = true) ∨
      ∃ op owner p k, s.Patches l op owner p k ∧ ownCheck t (some (op, owner)) = own := by
  -- Every other step is passed over by the reading.
  have hplain : (∀ a o, l ≠ .land a o) → l ≠ .restart → l ≠ .dispatch t →
      patchedBy t own s.trace = true := by
    intro hland hrestart hdispatch
    obtain ⟨new, htrace, hof⟩ := Sys.trace_next hs
    rw [htrace] at hpatched
    refine (Sys.reading_next fun o ho trace => ?_).symm.trans hpatched
    have hlabel := hof o ho
    cases o with
    | restarted => exact absurd hlabel hrestart
    | landed a c r =>
        obtain ⟨o, hlabel⟩ := hlabel
        exact absurd hlabel (hland a o)
    | began u kind =>
        have hne : u ≠ t := by
          rintro rfl
          exact hdispatch hlabel
        simp [patchedBy, hne]
    | _ => rfl
  cases l with
  | restart =>
      obtain rfl := Option.some.inj hs
      cases hpatched
  | dispatch u =>
      by_cases hu : u = t
      · subst hu
        obtain ⟨kind, -, -, rfl⟩ := Sys.dispatch_eq_some hs
        simp [patchedBy] at hpatched
      · have hne : Label.dispatch u ≠ .dispatch t := by simpa using hu
        exact Or.inl ⟨by simp, hne, hplain (by simp) (by simp) hne⟩
  | land a o =>
      obtain ⟨subj, c, k, r, w', hslot, hw, rfl⟩ := Sys.land_eq_some hs
      obtain ⟨new, hmove, hnew⟩ := s.move_trace w'
      have hsame : patchedBy t own (new ++ s.trace) = patchedBy t own s.trace :=
        Sys.reading_next fun o ho trace => by rw [hnew o ho]; rfl
      have hbusy : BrowserVpn.busy (new ++ s.trace) = BrowserVpn.busy s.trace :=
        Sys.reading_next fun o ho trace => by rw [hnew o ho]; rfl
      rw [Sys.answer_trace, hmove] at hpatched
      have hpassed : (∀ p, a = .op → c = .storageSet p → (∃ u, r = .ok u) → p.proxyError = none) →
          patchedBy t own s.trace = true := by
        intro hnone
        rwa [patchedBy_landed hnone, hsame] at hpatched
      cases c with
      | storageSet p =>
          cases hp : p.proxyError with
          | none => exact Or.inl ⟨by simp, by simp, hpassed (by rintro _ - ⟨⟩ -; exact hp)⟩
          | some e =>
              cases a with
              | boot => exact Or.inl ⟨by simp, by simp, hpassed nofun⟩
              | task u => exact Or.inl ⟨by simp, by simp, hpassed nofun⟩
              | op =>
                  obtain ⟨op, owner, hrun, rfl⟩ := Sys.slot_op hslot
                  cases o <;>
                    simp only [World.land, Option.some.injEq, Prod.mk.injEq, reduceCtorEq] at hw <;>
                    obtain ⟨rfl, rfl⟩ := hw
                  · have hbusy' : BrowserVpn.busy s.trace = some (op, owner) := by
                      rw [h.busy, hrun]
                      rfl
                    simp only [patchedBy, hp, Option.isSome_some, hbusy, hbusy', hsame, Bool.true_and,
                      Bool.or_eq_true, beq_iff_eq] at hpatched
                    rcases hpatched with hown | hold
                    · exact Or.inr ⟨op, owner, p, k, ⟨rfl, hrun, by simp [hp]⟩, hown⟩
                    · exact Or.inl ⟨by simp, by simp, hold⟩
                  · exact Or.inl ⟨by simp, by simp, hpassed (by rintro _ - - ⟨u, hu⟩; cases hu)⟩
      | _ => exact Or.inl ⟨by simp, by simp, hpassed (by rintro p - ⟨⟩)⟩
  | _ => exact Or.inl ⟨by simp, by simp, hplain (by simp) (by simp) (by simp)⟩

/-! ## Calm steps -/

omit [Platform] [Browser] in
theorem Sys.move_vars_same {v : World} (hproxy : v.proxy = s.world.proxy)
    (hwebRTC : v.webRTC = s.world.webRTC) : (s.move v).vars = s.vars := by
  simp [move, hproxy, hwebRTC, ChromeSetting.differs]

omit [Platform] in
/-- A call that fails leaves the browser as it was. -/
theorem World.land_error {v v' : World} {c : Call} {o : Outcome} {e : String}
    (h : v.land c o = some (.error e, v')) : o = .rejected e ∧ v' = v := by
  cases c <;> cases o <;> simp only [World.land, Option.some.injEq, Prod.mk.injEq, reduceCtorEq,
    false_and, Except.error.injEq] at h <;> obtain ⟨rfl, rfl⟩ := h <;> exact ⟨rfl, rfl⟩

omit [Platform] [Browser] in
theorem IpCheck.unchanged_iff {check : IpCheck} {v : Vars} :
    check.Unchanged v ↔
      epochsChanged (check.epoch + 1) check.settingEpoch check.errorEpoch v = false := by
  simp only [epochsChanged, Bool.or_eq_false_iff, bne_eq_false_iff_eq]
  constructor
  · intro h
    exact ⟨⟨h.starts, h.changes⟩, h.raises⟩
  · rintro ⟨⟨hstarts, hchanges⟩, hraises⟩
    exact ⟨hstarts, hchanges, hraises⟩

/-- A calm step moves no counter. -/
theorem calm_unchanged (hcalm : calm s l = true) (hs : s.next l = some s') {check : IpCheck}
    (h : check.Unchanged s.vars) : check.Unchanged s'.vars := by
  have hsame : ∀ l', ((s.next l').all fun s' => !epochsChanged s.vars.configurationEpoch
      s.vars.browserSettingEpoch s.vars.proxyErrorEpoch s'.vars) = true → s.next l' = some s' →
      check.Unchanged s'.vars := by
    intro l' hall hs'
    rw [hs'] at hall
    simp only [Option.all_some, Bool.not_eq_true', epochsChanged, Bool.or_eq_false_iff,
      bne_eq_false_iff_eq] at hall
    obtain ⟨⟨hstarts, hchanges⟩, hraises⟩ := hall
    exact ⟨hstarts.trans h.starts, hchanges.trans h.changes, hraises.trans h.raises⟩
  unfold calm at hcalm
  split at hcalm
  · cases hcalm
  · -- A call that fails moves nothing.
    obtain ⟨subj, c, k, r, w', -, hw, rfl⟩ := Sys.land_eq_some hs
    have hsame : w' = s.world := by
      cases c <;> simp only [World.land, Option.some.injEq, Prod.mk.injEq, reduceCtorEq] at hw <;>
        exact hw.2.symm
    subst hsame
    rw [Sys.answer_vars, Sys.move_vars_same rfl rfl]
    exact h
  · exact hsame _ hcalm hs

theorem calm_start (hcalm : calm s .start = true) : s.next .start = none := by
  cases hs : s.next .start with
  | none => rfl
  | some s' =>
      obtain ⟨op, owner, rest, -, -, rfl⟩ := Sys.startOp_eq_some hs
      simp [calm, hs, epochsChanged] at hcalm

/-- While a check has cleared the error and is under way, all is calm. -/
theorem undisturbed_calm (hl : undisturbed s l = true) {subj : Subject} {thread : Thread api Result}
    (hslot : s.slot (.task t) = some (subj, thread)) (h : patchedBy t true s.trace = true) :
    calm s l = true := by
  obtain ⟨kind, ht, -⟩ := Sys.task_of_slot hslot
  obtain ⟨hlt, -⟩ := List.getElem?_eq_some_iff.1 ht
  have hall := (Bool.and_eq_true_iff.1 hl).2
  rw [List.all_eq_true] at hall
  have hcalm := hall t (List.mem_range.2 hlt)
  simpa [Sys.cleared, hslot, h] using hcalm

/-! ## The course of a check -/

omit [Platform] [Browser] in
/-- How far a check or its task has come: the error is as it was, the task is in
the queue, the task has cleared the error, the check knows that it has. -/
inductive Stage where
  | intact
  | asked
  | cleared
  | resolved

/-- What a check and its task may rely on. The check is known once its task has
been handed over. -/
structure Course where
  check : Option IpCheck
  stage : Stage

/-- What the variables show. -/
def Course.Shows (x : Course) (v : Vars) : Prop :=
  (x.stage = .cleared ∨ x.stage = .resolved → ∀ check, x.check = some check → check.Unchanged v) ∧
    (x.stage = .resolved → v.configurationChanging = false)

/-- Calls that are neither of the two that matter. -/
def Call.plain : Call → Bool
  | .exclusive _ => false
  | .storageSet _ => false
  | _ => true

omit [Platform] [Browser] in
/-- Before the patch is known of, the variables may show anything. -/
theorem Course.shows_untold {x : Course} {v : Vars} (h : x.stage = .intact ∨ x.stage = .asked) :
    x.Shows v := by
  constructor
  · intro htold
    rcases h with h | h <;> simp [h] at htold
  · intro htold
    rcases h with h | h <;> simp [h] at htold

/-- Before anything was cleared, a check may hand over its task, and the task may
clear the error. -/
def Course.May (c : Call) (x : Course) : Prop :=
  (∀ op, c = .exclusive op → x.stage = .intact ∧ ∃ check, op = .clearError check) ∧
    ∀ p, c = .storageSet p → x.stage = .intact ∧ p.proxyError = some none

omit [Platform] [Browser] in
/-- After the patch only plain calls are left. -/
theorem Course.May.plain {c : Call} {x : Course} (h : x.May c) (hx : x.stage ≠ .intact) :
    c.plain = true := by
  cases c with
  | exclusive op => exact absurd (h.1 op rfl).1 hx
  | storageSet p => exact absurd (h.2 p rfl).1 hx
  | _ => rfl

def Course.issue (c : Call) (x : Course) : Course :=
  match c with
  | .exclusive (.clearError check) => ⟨some check, .asked⟩
  | _ => x

/-- What a reply tells. A task that fails has not cleared the error; after the
patch no call fails that would make the task fail. -/
def Course.Replies : (c : Call) → Course → Except String (Reply c) → Course → Prop
  | .exclusive _, x, .error _, x' => x' = { x with stage := .intact }
  | .exclusive _, x, .ok result, x' => ∃ check, x.check = some check ∧
      result = .epoch (check.epoch + 1) ∧ x' = { x with stage := .resolved }
  | .storageSet _, x, .error _, x' => x' = x
  | .storageSet _, x, .ok _, x' => x' = { x with stage := .cleared }
  | c, x, r, x' => x' = x ∧ (x.stage = .cleared → c.caught = false → ∃ a, r = .ok a)

@[reducible] def courseLogic : Logic api Course where
  reads x v x' := x' = x ∧ x.Shows v
  mayWrite _ _ := False
  write _ x := x
  mayCall := Course.May
  issue := Course.issue
  replies := Course.Replies

instance : Ticks courseLogic where
  mayTick _ := ⟨nofun, nofun⟩
  tick h := h.1

variable {x : Course}

section

omit [Platform] [Browser]

theorem Course.may_plain {c : Call} (h : c.plain = true) : x.May c := by
  constructor
  · rintro op rfl
    cases h
  · rintro p rfl
    cases h

theorem Course.issue_plain {c : Call} (h : c.plain = true) : x.issue c = x := by
  cases c <;> first | rfl | cases h

theorem Course.replies_plain {c : Call} (h : c.plain = true) {r : Except String (Reply c)}
    {x' : Course} : Course.Replies c x r x' ↔
      x' = x ∧ (x.stage = .cleared → c.caught = false → ∃ a, r = .ok a) := by
  cases c <;> first | exact Iff.rfl | cases h

/-- Before the patch, a plain call may end as it likes. -/
theorem Course.replies_untold {c : Call} (h : c.plain = true) (hx : x.stage ≠ .cleared)
    {r : Except String (Reply c)} : Course.Replies c x r x :=
  (Course.replies_plain h).2 ⟨rfl, fun hcleared => absurd hcleared hx⟩

/-- What the reply to a plain call tells. -/
theorem Course.told_plain {c : Call} (h : c.plain = true) {r : Except String (Reply c)}
    {x' : Course} (hr : courseLogic.replies c (courseLogic.issue c x) r x') :
    x' = x ∧ (x.stage = .cleared → c.caught = false → ∃ a, r = .ok a) := by
  have hissue : courseLogic.issue c x = x := Course.issue_plain h
  rw [hissue] at hr
  exact (Course.replies_plain h).1 hr

/-- One plain call. -/
theorem wp_course_call {c : Call} (h : c.plain = true) :
    wp courseLogic (chrome c) (fun r x' => x' = x ∧
      (x.stage = .cleared → c.caught = false → ∃ a, r = .ok a)) x :=
  wp_mono _ (wp_call (L := courseLogic) c (Course.may_plain h)) fun _ _ hr =>
    Course.told_plain h hr

/-- A function that only asks stays where it is. -/
theorem wp_course_asks {p : Js α} (hp : Asks p) :
    wp courseLogic p (fun _ x' => x' = x) x := by
  have hplain : ∀ {c : Call}, c.asks = true → c.plain = true := by
    intro c hc
    cases c <;> first | rfl | cases hc
  refine wp_of_within _ (I := (· = x)) hp ?_ (fun _ _ _ h => h.elim) ?_ rfl
  · rintro x₁ v _ rfl ⟨h, -⟩
    exact h
  · rintro c x₁ rfl hc
    exact ⟨Course.may_plain (hplain hc), fun r x' hr => (Course.told_plain (hplain hc) hr).1⟩

/-- A function that cannot fail once the error is cleared. -/
def Sturdy (p : Js α) : Prop :=
  ∀ x : Course, x.stage = .cleared → wp courseLogic p (fun r x' => x' = x ∧ ∃ a, r = .ok a) x

namespace Sturdy

theorem pure (a : α) : Sturdy (Pure.pure a : Js α) := fun _ _ => ⟨rfl, a, rfl⟩

theorem chrome {c : Call} (hc : c.plain = true) (hcaught : c.caught = false) :
    Sturdy (chrome c) := by
  intro x hx
  refine wp_mono _ (wp_course_call hc) ?_
  rintro r _ ⟨rfl, hok⟩
  exact ⟨rfl, hok hx hcaught⟩

theorem bind {p : Js α} {f : α → Js β} (hp : Sturdy p) (hf : ∀ a, Sturdy (f a)) :
    Sturdy (p >>= f) := by
  intro x hx
  refine wp_bind _ (hp x hx) ?_ ?_
  · rintro a _ ⟨rfl, -⟩
    exact hf a _ hx
  · rintro e _ ⟨-, a, h⟩
    cases h

theorem await {p : Js α} (hp : Sturdy p) : Sturdy (BrowserVpn.await p) :=
  fun x hx => wp_await (hp x hx)

theorem when {b : Bool} {p : Js Unit} (hp : Sturdy p) : Sturdy (BrowserVpn.when b p) := by
  cases b with
  | true => exact hp
  | false => exact pure ()

/-- What is tried may fail, the handler may not. -/
theorem tryCatch {p : Js α} (hp : Asks p) {h : String → Js α} (hh : ∀ e, Sturdy (h e)) :
    Sturdy (tryCatch p h) := by
  intro x hx
  refine wp_tryCatch _ (wp_course_asks hp) ?_ ?_
  · rintro a _ rfl
    exact ⟨rfl, a, rfl⟩
  · rintro e _ rfl
    exact hh e _ hx

end Sturdy

end

/-! ### Its functions -/

omit [Platform] [Browser] in
theorem sturdy_incognitoWebRTC : Sturdy incognitoWebRTCIsRestricted := by
  refine .tryCatch (.bind (within_chrome rfl) fun allowed => ?_) fun _ => .pure _
  exact within_ite (.map (asks_await (asks_webRTCSetting true)) _) trivial

omit [Platform] [Browser] in
theorem sturdy_incognitoProxy (expected : ProxyConfig) :
    Sturdy (incognitoProxyState expected) := by
  refine .tryCatch (.bind (within_chrome rfl) fun allowed => ?_) fun _ => .pure _
  exact within_ite (.bind (asks_await (asks_effectiveSetting true)) fun _ => trivial) trivial

section

omit [Browser]

theorem sturdy_status : Sturdy status := by
  refine .bind (.await (.chrome rfl rfl)) fun data => ?_
  refine .bind (.await (.chrome rfl rfl)) fun setting => ?_
  refine .bind (.await (.chrome rfl rfl)) fun webRTC => ?_
  split
  · exact .pure _
  · exact .pure _
  · rename_i connection exclusions hconfigured
    obtain ⟨hc, hl⟩ := configured_eq_ok.1 hconfigured
    split
    · exact .pure _
    · unfold enabledStatus
      split
      · exact .pure _
      · refine .bind sturdy_incognitoWebRTC.await fun restricted => ?_
        split
        · exact .pure _
        · -- A configuration that is read without an error has a PAC.
          rw [buildProxyConfig_configured hc (normalizeExclusions_normalized hl)]
          refine .bind (.pure _) fun expected => ?_
          exact .bind (sturdy_incognitoProxy expected).await fun _ => .pure _

theorem sturdy_updateBadge : Sturdy updateBadge :=
  .bind sturdy_status.await fun _ => .bind (.chrome rfl rfl) fun _ => .when (.chrome rfl rfl)

/-- The task fails only where it has not cleared the error. -/
theorem clearError_course {check : IpCheck} (hx : x = ⟨some check, .intact⟩) :
    wp courseLogic (clearError check) (fun r x' => (∀ e, r = .error e → x'.stage = .intact) ∧
      ∀ epoch, r = .ok epoch → epoch = check.epoch + 1 ∧ x' = ⟨some check, .cleared⟩) x := by
  subst hx
  refine wp_get_bind ?_
  rintro v _ ⟨rfl, -⟩
  refine wp_ensure_bind (fun hepoch => ?_) fun _ => ⟨fun _ _ => rfl, nofun⟩
  have hepoch : v.configurationEpoch = check.epoch + 1 := by simpa using hepoch
  refine wp_await_bind (wp_course_asks asks_stored) ?_ ?_
  · rintro data _ rfl
    refine wp_await_bind (wp_course_asks asks_status) ?_ ?_
    · rintro latest _ rfl
      refine wp_get_bind ?_
      rintro v' _ ⟨rfl, -⟩
      refine wp_ensure_bind (fun _ => ?_) fun _ => ⟨fun _ _ => rfl, nofun⟩
      refine wp_bind _ (wp_call (L := courseLogic) _ ⟨nofun, ?_⟩) ?_ ?_
      · rintro p ⟨⟩
        exact ⟨rfl, rfl⟩
      · -- From here on nothing moves and no call fails.
        rintro _ _ rfl
        refine wp_get_bind ?_
        rintro v'' _ ⟨rfl, hshows, -⟩
        have hunchanged := hshows (Or.inl rfl) check rfl
        have hensured : (!epochsChanged v.configurationEpoch check.settingEpoch check.errorEpoch
            v'') = true := by
          rw [hepoch, IpCheck.unchanged_iff.1 hunchanged]
          rfl
        refine wp_ensure_bind (fun _ => ?_) fun h => absurd hensured (by simp [h])
        refine wp_bind _ (sturdy_updateBadge.await _ rfl) ?_ ?_
        · rintro _ _ ⟨rfl, -⟩
          refine ⟨nofun, ?_⟩
          rintro epoch ⟨⟩
          exact ⟨hepoch, rfl⟩
        · rintro e _ ⟨-, a, h⟩
          cases h
      · rintro e _ rfl
        exact ⟨fun _ _ => rfl, nofun⟩
    · rintro e _ rfl
      exact ⟨fun _ _ => rfl, nofun⟩
  · rintro e _ rfl
    exact ⟨fun _ _ => rfl, nofun⟩

end

/-- The task of a check that began with `start`. -/
def taskOf (start : Vars) (previousError : ProxyError) : IpCheck where
  epoch := start.configurationEpoch
  settingEpoch := start.browserSettingEpoch
  errorEpoch := start.proxyErrorEpoch
  previousError := previousError

omit [Platform] [Browser] in
theorem dismissError_course (start : Vars) (previousError : Option ProxyError)
    (hx : x.stage = .intact) :
    wp courseLogic (dismissError start previousError) (fun r x' => (∀ e, r = .error e →
      x'.stage = .intact) ∧ ∀ epoch, r = .ok epoch → x'.stage = .intact ∨
        ∃ e, x' = ⟨some (taskOf start e), .resolved⟩ ∧ epoch = start.configurationEpoch + 1) x := by
  cases previousError with
  | none =>
      constructor
      · rintro e ⟨⟩
      · rintro epoch ⟨⟩
        exact Or.inl hx
  | some previousError =>
      refine wp_bind _ (wp_call (L := courseLogic) (.exclusive (.clearError
        (taskOf start previousError))) ⟨?_, nofun⟩) ?_ ?_
      · rintro op ⟨⟩
        exact ⟨hx, _, rfl⟩
      · rintro result _ ⟨check, hcheck, rfl, rfl⟩
        obtain rfl : taskOf start previousError = check := Option.some.inj hcheck
        constructor
        · rintro e ⟨⟩
        · rintro epoch ⟨⟩
          exact Or.inr ⟨previousError, rfl, rfl⟩
      · rintro e _ rfl
        constructor
        · intro _ _
          rfl
        · rintro epoch ⟨⟩

omit [Browser] in
theorem fetchIp_course (start : Vars) (previousError : Option ProxyError)
    (hx : x.stage = .intact) :
    wp courseLogic (fetchIp start previousError)
      (fun r x' => ∀ e, r = .error e → x'.stage = .intact) x := by
  refine wp_bind _ (wp_course_call (c := .fetch) rfl) ?_ ?_
  · rintro answered _ ⟨rfl, -⟩
    refine wp_ensure_bind (fun _ => ?_) fun _ _ _ => hx
    refine wp_bind _ (wp_course_call (c := .json) rfl) ?_ ?_
    · rintro body _ ⟨rfl, -⟩
      refine wp_lift_bind (fun ip _ => ?_) fun _ _ _ _ => hx
      refine wp_await_bind (wp_course_asks asks_status) ?_ ?_
      · rintro after _ rfl
        refine wp_get_bind ?_
        rintro v _ ⟨rfl, -⟩
        refine wp_ensure_bind (fun _ => ?_) fun _ _ _ => hx
        refine wp_bind _ (dismissError_course start previousError hx) ?_ ?_
        · rintro epoch x₁ ⟨-, hepoch⟩
          refine wp_get_bind ?_
          rintro v' _ ⟨rfl, hshows, hflag⟩
          rcases hepoch epoch rfl with hintact | ⟨e, rfl, rfl⟩
          · exact wp_ensure_bind (fun _ _ h => by cases h) fun _ _ _ => hintact
          · -- The counters are those that the check compares with.
            have hunchanged := IpCheck.unchanged_iff.1 (hshows (Or.inr rfl) _ rfl)
            have hensured : (!(v'.configurationChanging || epochsChanged (start.configurationEpoch + 1)
                start.browserSettingEpoch start.proxyErrorEpoch v')) = true := by
              rw [hflag rfl]
              simpa [taskOf] using hunchanged
            refine wp_ensure_bind (fun _ _ h => by cases h) fun h => absurd hensured (by simp [h])
        · rintro e x₁ ⟨hintact, -⟩ e' -
          exact hintact e rfl
      · rintro e _ rfl _ _
        exact hx
    · rintro e _ ⟨rfl, -⟩ _ _
      exact hx
  · rintro e _ ⟨rfl, -⟩ _ _
    exact hx

omit [Browser] in
/-- The check is rejected only where its task has not cleared the error. -/
theorem testIp_course (hx : x.stage = .intact) :
    wp courseLogic testIp (fun r x' => ∀ e, r = .error e → x'.stage = .intact) x := by
  refine wp_get_bind ?_
  rintro start _ ⟨rfl, -⟩
  refine wp_await_bind (wp_course_asks asks_status) ?_ ?_
  · rintro current _ rfl
    refine wp_get_bind ?_
    rintro v _ ⟨rfl, -⟩
    refine wp_ensure_bind (fun _ => ?_) fun _ _ _ => hx
    refine wp_ensure_bind (fun _ => ?_) fun _ _ _ => hx
    refine wp_ensure_bind (fun _ => ?_) fun _ _ _ => hx
    refine wp_tryCatch _ (fetchIp_course start current.proxyError hx) (fun _ _ _ _ h => by cases h) ?_
    intro e x' hintact _ _
    exact hintact e rfl
  · rintro e _ rfl _ _
    exact hx

/-! ## What a course says about a state -/

/-- The meaning of a course. A check that has heard of the patch, and the task that
has made it, know that no counter has moved. -/
inductive Course.At (s : Sys) : Actor → Subject → Course → Prop
  | intact {t : Nat} {check : Option IpCheck} (hnone : patchedBy t true s.trace = false)
      (hcall : ∀ c k, s.slot (.task t) = some (.task (.message .testIp), .awaiting c k) →
        c.plain = true) :
      At s (.task t) (.task (.message .testIp)) ⟨check, .intact⟩
  | asked {t : Nat} {check : IpCheck} {k : Except String Result → Js Result}
      (hslot : s.slot (.task t) =
        some (.task (.message .testIp), .awaiting (.exclusive (.clearError check)) k)) :
      At s (.task t) (.task (.message .testIp)) ⟨some check, .asked⟩
  | resolved {t : Nat} {check : IpCheck} (hpatched : patchedBy t true s.trace = true)
      (hunchanged : check.Unchanged s.vars) (hflag : s.vars.configurationChanging = false)
      (hcall : ∀ c k, s.slot (.task t) = some (.task (.message .testIp), .awaiting c k) →
        c.plain = true) :
      At s (.task t) (.task (.message .testIp)) ⟨some check, .resolved⟩
  | task {t : Nat} {check : IpCheck} (hbusy : busy s.trace = some (.clearError check, some t))
      (hnone : patchedBy t true s.trace = false)
      (hcall : ∀ c k, s.slot .op = some (.op (.clearError check), .awaiting c k) →
        Course.May c ⟨some check, .intact⟩) :
      At s .op (.op (.clearError check)) ⟨some check, .intact⟩
  | cleared {t : Nat} {check : IpCheck} (hbusy : busy s.trace = some (.clearError check, some t))
      (hpatched : patchedBy t true s.trace = true) (hunchanged : check.Unchanged s.vars)
      (hcall : ∀ c k, s.slot .op = some (.op (.clearError check), .awaiting c k) →
        c.plain = true) :
      At s .op (.op (.clearError check)) ⟨some check, .cleared⟩

/-- How a check or its task ends. -/
structure Course.Ends (subj : Subject) (r : Except String Result) (x : Course) : Prop where
  rejected : ∀ e, r = .error e → x.stage = .intact
  task : ∀ check, subj = .op (.clearError check) → ∀ result, r = .ok result →
    result = .epoch (check.epoch + 1) ∧ x.stage = .cleared
  check : subj = .task (.message .testIp) → ∀ result, r = .ok result → ∃ ip, result = .ip ip

@[reducible] def courseOutline : Outline where
  View := Course
  logic := courseLogic
  covers subj := subj = .task (.message .testIp) ∨ ∃ check, subj = .op (.clearError check)
  At a subj x s := x.At s a subj
  post subj r x := x.Ends subj r

omit [Platform] [Browser] in
theorem courseOutline_coherent : courseOutline.Coherent where
  enters _ _ hx := hx
  reads {s a subj p x v} _ _ hx := by
    refine ⟨x, ⟨rfl, ?_⟩, hx⟩
    cases hx with
    | intact => exact Course.shows_untold (Or.inl rfl)
    | asked => exact Course.shows_untold (Or.inr rfl)
    | task => exact Course.shows_untold (Or.inl rfl)
    | resolved _ hunchanged hflag _ =>
        constructor
        · rintro - _ ⟨⟩
          exact hunchanged
        · intro _
          exact hflag
    | cleared _ _ hunchanged _ =>
        constructor
        · rintro - _ ⟨⟩
          exact hunchanged
        · rintro ⟨⟩
  writes _ _ hw _ := hw.elim

theorem course_begins {a : Actor} {subj : Subject} (hslot : s.slot a = some (subj, .ready subj.body))
    (ht : ∀ t, a = .task t → patchedBy t true s.trace = false)
    (hop : ∀ check, subj = .op (.clearError check) → a = .op ∧ ∃ t,
      busy s.trace = some (.clearError check, some t) ∧ patchedBy t true s.trace = false) :
    courseOutline.Begins a subj s := by
  rintro (rfl | ⟨check, rfl⟩)
  · obtain ⟨t, rfl⟩ : ∃ t, a = .task t := by
      cases a with
      | boot => exact nomatch (Sys.slot_boot hslot).1
      | op =>
          obtain ⟨op, owner, -, he⟩ := Sys.slot_op hslot
          cases he
      | task t => exact ⟨t, rfl⟩
    refine ⟨⟨none, .intact⟩, .intact (ht t rfl) fun c k h => by simp [hslot] at h, ?_⟩
    refine wp_map _ (wp_mono _ (testIp_course rfl) fun r x hr => ?_)
    cases r with
    | error e =>
        refine ⟨fun _ _ => hr e rfl, ?_, ?_⟩
        · rintro check ⟨⟩
        · rintro - result ⟨⟩
    | ok ip =>
        refine ⟨?_, ?_, ?_⟩
        · rintro e ⟨⟩
        · rintro check ⟨⟩
        · rintro - result ⟨⟩
          exact ⟨ip, rfl⟩
  · obtain ⟨rfl, t, hbusy, hnone⟩ := hop check rfl
    refine ⟨⟨some check, .intact⟩, .task hbusy hnone fun c k h => by simp [hslot] at h, ?_⟩
    refine wp_await (wp_map _ (wp_mono _ (clearError_course rfl) fun r x hr => ?_))
    cases r with
    | error e =>
        refine ⟨fun _ _ => hr.1 e rfl, ?_, ?_⟩
        · rintro check' - result ⟨⟩
        · rintro ⟨⟩
    | ok epoch =>
        obtain ⟨rfl, rfl⟩ := hr.2 epoch rfl
        refine ⟨?_, ?_, ?_⟩
        · rintro e ⟨⟩
        · rintro check' ⟨⟩ result ⟨⟩
          exact ⟨rfl, rfl⟩
        · rintro ⟨⟩

/-! ### Steps -/

omit [Platform] in
theorem Sys.next_land [Platform] {a : Actor} {o : Outcome} {subj : Subject} {c : Call}
    {k : Except String (Reply c) → Js Result} {r : Except String (Reply c)} {v : World}
    (hslot : s.slot a = some (subj, .awaiting c k)) (hw : s.world.land c o = some (r, v)) :
    s.next (.land a o) = some (s.answer a c k r v) := by
  simp [next, land, thread, hslot, hw]

theorem Sys.not_dispatch (hs : s.next l = some s') {subj : Subject} {thread : Thread api Result}
    (hslot : s.slot (.task t) = some (subj, thread)) : l ≠ .dispatch t := by
  rintro rfl
  obtain ⟨kind, -, hparked, -⟩ := dispatch_eq_some hs
  simp [slot, hparked] at hslot

/-- A callback that is not awaiting its task cannot lose what is intact. -/
theorem Reach.intact_next (h : Reach ok (Sys.init w) s) (hs : s.next l = some s') {subj : Subject}
    {thread : Thread api Result} (hslot : s.slot (.task t) = some (subj, thread))
    (hthread : ∀ op k, thread ≠ .awaiting (.exclusive op) k)
    (hnone : patchedBy t true s.trace = false) : patchedBy t true s'.trace = false := by
  rw [Bool.eq_false_iff]
  intro hpatched
  rcases patchedBy_next h hs hpatched with ⟨-, -, hold⟩ | ⟨op, owner, p, k, hpatch, hown⟩
  · simp [hnone] at hold
  · -- Its task would be the one that runs.
    obtain rfl : owner = some t := by
      cases op <;> cases owner <;> simp [ownCheck] at hown
      rw [hown]
    obtain ⟨subj', k', hawaits⟩ := h.orderly.awaited op t (by simp [Sys.entries, hpatch.running])
    obtain ⟨-, rfl⟩ : subj = subj' ∧ thread = .awaiting (.exclusive op) k' := by
      simpa [hslot] using hawaits
    exact hthread op k' rfl

/-- A callback whose task has cleared the error sees no counter move. -/
theorem Sys.resolved_next (hl : undisturbed s l = true) (hs : s.next l = some s') {subj : Subject}
    {thread : Thread api Result}
    (hslot : s.slot (.task t) = some (subj, thread)) (hpatched : patchedBy t true s.trace = true)
    {check : IpCheck} (hunchanged : check.Unchanged s.vars) :
    patchedBy t true s'.trace = true ∧ check.Unchanged s'.vars := by
  have hcalm := undisturbed_calm hl hslot hpatched
  have hrestart : l ≠ .restart := by
    rintro rfl
    cases hcalm
  exact ⟨patchedBy_kept hs hrestart (Sys.not_dispatch hs hslot) hpatched,
    calm_unchanged hcalm hs hunchanged⟩

/-- Nobody takes the queue while a callback has cleared the error. -/
theorem Reach.flag_next (h : Reach ok (Sys.init w) s) (h' : Reach ok (Sys.init w) s')
    (hs : s.next l = some s') (hstart : l ≠ .start)
    (hflag : s.vars.configurationChanging = false) : s'.vars.configurationChanging = false := by
  rw [h'.orderly.changing]
  cases hrun : s'.running with
  | none => rfl
  | some r =>
      have hbusy : BrowserVpn.busy s'.trace = some (r.op, r.owner) := by
        rw [h'.busy, hrun]
        rfl
      have hold := Sys.busy_of_next hs hstart hbusy
      rw [h.busy, h.running_none hflag] at hold
      cases hold

/-- The owner of the task that runs. -/
theorem Reach.owner_awaits (h : Reach ok (Sys.init w) s) {op : Op}
    (hbusy : BrowserVpn.busy s.trace = some (op, some t)) :
    ∃ subj k, s.slot (.task t) = some (subj, .awaiting (.exclusive op) k) := by
  rw [h.busy] at hbusy
  obtain ⟨r, hrun, he⟩ := Option.map_eq_some_iff.1 hbusy
  refine h.orderly.awaited op t ?_
  rw [← he]
  simp [Sys.entries, hrun]

/-- What runs runs on through the steps of others. -/
theorem Reach.busy_kept (h' : Reach ok (Sys.init w) s')
    (hs : s.next l = some s') (hstart : l ≠ .start) {subj : Subject} {thread : Thread api Result}
    (hslot : s'.slot .op = some (subj, thread)) :
    BrowserVpn.busy s'.trace = BrowserVpn.busy s.trace := by
  obtain ⟨op, owner, hrun, -⟩ := Sys.slot_op hslot
  have hbusy : BrowserVpn.busy s'.trace = some (op, owner) := by
    rw [h'.busy, hrun]
    rfl
  rw [hbusy, Sys.busy_of_next hs hstart hbusy]

theorem Sys.not_start (hs : s.next l = some s') {subj : Subject} {thread : Thread api Result}
    (hslot : s.slot .op = some (subj, thread)) : l ≠ .start := by
  rintro rfl
  obtain ⟨op, owner, rest, hnone, -, -⟩ := startOp_eq_some hs
  obtain ⟨op', owner', hrun, -⟩ := slot_op hslot
  simp [hnone] at hrun

theorem courseOutline_correct (w : World) :
    courseOutline.Correct (undisturbed · ·) (Reach (undisturbed · ·) (Sys.init w))
      fun _ => True where
  toCoherent := courseOutline_coherent
  frame {s l s' a subj thread x} hr hr' _ _ hl hs ha hrestart hslot _ hslot' hx := by
    have hkept : ∀ {c k}, s'.slot a = some (subj, .awaiting c k) →
        s.slot a = some (subj, .awaiting c k) := by
      intro c k h
      rw [hslot, ← hslot', h]
    cases hx with
    | @intact t check hnone hcall =>
        refine .intact (hr.intact_next hs hslot ?_ hnone) fun c k h => hcall c k (hkept h)
        rintro op k rfl
        cases hcall _ _ hslot
    | asked hslotAsked => exact .asked (hslot'.trans (hslot.symm.trans hslotAsked))
    | resolved hpatched hunchanged hflag hcall =>
        obtain ⟨hpatched', hunchanged'⟩ := Sys.resolved_next hl hs hslot hpatched hunchanged
        refine .resolved hpatched' hunchanged' (hr.flag_next hr' hs ?_ hflag)
          fun c k h => hcall c k (hkept h)
        rintro rfl
        simp [calm_start (undisturbed_calm hl hslot hpatched)] at hs
    | @task t check hbusy hnone hcall =>
        have hbusy' := hr'.busy_kept hs (Sys.not_start hs hslot) hslot'
        refine .task (hbusy'.trans hbusy) ?_ fun c k h => hcall c k (hkept h)
        rw [Bool.eq_false_iff]
        intro hpatched
        rcases patchedBy_next hr hs hpatched with ⟨-, -, hold⟩ | ⟨_, _, _, _, hpatch, -⟩
        · simp [hnone] at hold
        · rw [hpatch.label] at ha
          exact ha rfl
    | @cleared t check hbusy hpatched hunchanged hcall =>
        have hbusy' := hr'.busy_kept hs (Sys.not_start hs hslot) hslot'
        obtain ⟨subj', k', hawaits⟩ := hr.owner_awaits hbusy
        obtain ⟨hpatched', hunchanged'⟩ := Sys.resolved_next hl hs hawaits hpatched hunchanged
        exact .cleared (hbusy'.trans hbusy) hpatched' hunchanged' fun c k h => hcall c k (hkept h)
  restarted _ _ _ := by
    rintro (h | ⟨check, h⟩) <;> cases h
  entered {s op owner rest} hr _ hl hrun hqueue hr' := by
    refine course_begins (by simp [Sys.slot]; rfl) (by simp) ?_
    rintro check ⟨⟩
    have hentry : (Op.clearError check, owner) ∈ s.entries := by simp [Sys.entries, hrun, hqueue]
    obtain ⟨t, rfl⟩ : ∃ t, owner = some t := by
      cases owner with
      | some t => exact ⟨t, rfl⟩
      | none => cases hr.owner_isSome _ hentry rfl
    obtain ⟨subj, k, hawaits⟩ := hr.orderly.awaited _ t hentry
    refine ⟨rfl, t, rfl, ?_⟩
    rw [Sys.enter_trace, Bool.eq_false_iff]
    intro hpatched
    -- The task does not start while its callback is disturbed by any start.
    have hnone := calm_start (undisturbed_calm hl hawaits hpatched)
    simp [Sys.next, Sys.startOp, hrun, hqueue] at hnone
  dispatched {s t kind} hr _ hl hb ht := by
    refine course_begins (by simp [Sys.slot, Sys.park, ht]; rfl) ?_ ?_
    · rintro u ⟨⟩
      simp [patchedBy]
    · rintro check ⟨⟩
  answered {s a o subj c k r v x} hr _ hl hslot _ hw hr' hslot' hx := by
    have hs := Sys.next_land hslot hw
    have hready : ∀ {P : Call → Prop} (c' : Call) (k' : Except String (Reply c') → Js Result),
        (s.answer a c k r v).slot a = some (subj, .awaiting c' k') → P c' :=
      fun c' k' h => by simp [hslot'] at h
    cases hx with
    | @intact t check hnone hcall =>
        have hplain := hcall c k hslot
        refine ⟨_, Course.replies_untold (x := ⟨check, .intact⟩) hplain (by simp), .intact ?_ hready⟩
        refine hr.intact_next hs hslot ?_ hnone
        rintro op k' h
        obtain ⟨rfl, -⟩ := Thread.awaiting.inj h
        cases hplain
    | asked hslotAsked =>
        obtain ⟨rfl, -⟩ : c = .exclusive _ ∧ _ := by simpa [hslot] using hslotAsked
        simp [World.land] at hw
    | resolved hpatched hunchanged hflag hcall =>
        have hplain := hcall c k hslot
        obtain ⟨hpatched', hunchanged'⟩ := Sys.resolved_next hl hs hslot hpatched hunchanged
        refine ⟨_, Course.replies_untold (x := ⟨some _, .resolved⟩) hplain (by simp),
          .resolved hpatched' hunchanged' ?_ hready⟩
        exact hr.flag_next hr' hs (by simp) hflag
    | @task t check hbusy hnone hcall =>
        have hbusy' := hr'.busy_kept hs (by simp) hslot'
        -- Unless the patch lands, the error stays.
        have hstays : (∀ p, o = .done → c ≠ .storageSet p) →
            patchedBy t true (s.answer .op c k r v).trace = false := by
          intro hland
          rw [Bool.eq_false_iff]
          intro hpatched
          rcases patchedBy_next hr hs hpatched with ⟨-, -, hold⟩ | ⟨_, _, p, k', hpatch, -⟩
          · simp [hnone] at hold
          · obtain rfl : o = .done := by simpa using hpatch.label
            obtain ⟨op, owner, hrun, -⟩ := Sys.slot_op hslot
            have hthread := hrun.symm.trans hpatch.running
            simp only [Option.some.injEq, Running.mk.injEq, Thread.awaiting.injEq] at hthread
            exact hland p rfl hthread.2.2.1
        cases hplain : c.plain with
        | true =>
            refine ⟨_, Course.replies_untold (x := ⟨some check, .intact⟩) hplain (by simp), ?_⟩
            refine .task (hbusy'.trans hbusy) (hstays ?_) hready
            rintro p - rfl
            cases hplain
        | false =>
            cases c with
            | storageSet p =>
                obtain ⟨-, hpatch⟩ := (hcall _ k hslot).2 p rfl
                cases r with
                | error e =>
                    obtain ⟨rfl, -⟩ := World.land_error hw
                    exact ⟨_, rfl, .task (hbusy'.trans hbusy) (hstays (by simp)) hready⟩
                | ok u => 
                    obtain ⟨op, owner, hrun, he⟩ := Sys.slot_op hslot
                    cases he
                    cases o <;>
                      simp only [World.land, Option.some.injEq, Prod.mk.injEq, reduceCtorEq,
                        false_and] at hw
                    obtain ⟨-, rfl⟩ := hw
                    refine ⟨_, rfl, .cleared (hbusy'.trans hbusy) ?_ ?_ hready⟩
                    · obtain ⟨new, hmove, hnew⟩ := s.move_trace
                        { s.world with storage := s.world.storage.set p }
                      have hbusyNew : BrowserVpn.busy (new ++ s.trace) = BrowserVpn.busy s.trace :=
                        Sys.reading_next fun o ho trace => by rw [hnew o ho]; rfl
                      rw [Sys.answer_trace, hmove]
                      simp [patchedBy, hpatch, hbusyNew, hbusy, ownCheck]
                    · have hsame : (s.move { s.world with storage := s.world.storage.set p }).vars =
                          s.vars := Sys.move_vars_same rfl rfl
                      rw [Sys.answer_vars, hsame]
                      have hprompt := (Bool.and_eq_true_iff.1 hl).1
                      rw [IpCheck.unchanged_iff]
                      simpa [prompt, hrun] using hprompt
            | exclusive op => simp [World.land] at hw
            | _ => cases hplain
    | @cleared t check hbusy hpatched hunchanged hcall =>
        have hplain := hcall c k hslot
        obtain ⟨subj', k', hawaits⟩ := hr.owner_awaits hbusy
        obtain ⟨hpatched', hunchanged'⟩ := Sys.resolved_next hl hs hawaits hpatched hunchanged
        have hbusy' := hr'.busy_kept hs (by simp) hslot'
        refine ⟨_, (Course.replies_plain hplain).2 ⟨rfl, fun _ hcaught => ?_⟩,
          .cleared (hbusy'.trans hbusy) hpatched' hunchanged' hready⟩
        cases r with
        | ok a => exact ⟨a, rfl⟩
        | error e =>
            -- A call that fails now is one whose failure is caught.
            obtain ⟨rfl, -⟩ := World.land_error hw
            obtain ⟨op, owner, hrun, he⟩ := Sys.slot_op hslot
            have hcalm := undisturbed_calm hl hawaits hpatched
            simp [calm, hrun, hcaught] at hcalm
  suspended {s a subj p v x c k} hr _ hl hslot _ hr' hslot' hp hmay hx := by
    have hcalls : ∀ {P : Call → Prop}, P c → ∀ c' k',
        (({ s with vars := v } : Sys).suspend a c k).slot a = some (subj, .awaiting c' k') →
        P c' := by
      intro P hc c' k' h
      obtain ⟨rfl, -⟩ : c = c' ∧ k ≍ k' := by simpa [hslot'] using h
      exact hc
    have hread : ∀ t, patchedBy t true (({ s with vars := v } : Sys).suspend a c k).trace =
        patchedBy t true s.trace := by
      intro t
      rw [Sys.suspend_trace]
      rfl
    have hsame : ∀ {x : Course}, c.plain = true → courseLogic.issue c x = x :=
      fun h => Course.issue_plain h
    cases hx with
    | @intact t check hnone hcall =>
        cases hplain : c.plain with
        | true =>
            rw [hsame hplain]
            exact .intact ((hread t).trans hnone) (hcalls hplain)
        | false =>
            cases c with
            | exclusive op =>
                obtain ⟨-, check, rfl⟩ := hmay.1 op rfl
                exact .asked hslot'
            | storageSet p =>
                -- Callbacks store nothing.
                obtain ⟨op, he, -⟩ := (hr'.mayStore hslot').1 (hmay.2 p rfl).2
                cases he
            | _ => cases hplain
    | asked hslotAsked =>
        rw [Sys.slot_vars] at hslotAsked
        simp [hslot] at hslotAsked
    | @resolved t check hpatched hunchanged hflag hcall =>
        have hplain : c.plain = true := hmay.plain (by simp)
        rw [hsame hplain]
        refine .resolved ((hread t).trans hpatched) ?_ ?_ (hcalls hplain)
        · rw [Sys.suspend_vars]
          exact hunchanged
        · rw [Sys.suspend_vars]
          exact hflag
    | @task t check hbusy hnone hcall =>
        have hbusy' : BrowserVpn.busy (({ s with vars := v } : Sys).suspend .op c k).trace =
            some (.clearError check, some t) := by
          rw [Sys.suspend_trace]
          exact hbusy
        cases hplain : c.plain with
        | true =>
            rw [hsame hplain]
            exact .task hbusy' ((hread t).trans hnone) (hcalls (Course.may_plain hplain))
        | false =>
            cases c with
            | exclusive op =>
                -- The task hands over nothing.
                have hrecords := hr'.calls_within Subject.within hslot'
                cases hrecords rfl
            | storageSet p => exact .task hbusy' ((hread t).trans hnone) (hcalls hmay)
            | _ => cases hplain
    | @cleared t check hbusy hpatched hunchanged hcall =>
        have hbusy' : BrowserVpn.busy (({ s with vars := v } : Sys).suspend .op c k).trace =
            some (.clearError check, some t) := by
          rw [Sys.suspend_trace]
          exact hbusy
        have hplain : c.plain = true := hmay.plain (by simp)
        rw [hsame hplain]
        refine .cleared hbusy' ((hread t).trans hpatched) ?_ (hcalls hplain)
        rw [Sys.suspend_vars]
        exact hunchanged
  settled {s op t p v r subj op' k x} hr _ hsound hl hrun hp hslot _ hr' hslot' hx := by
    cases hx with
    | intact _ hcall => cases hcall _ k hslot
    | resolved _ _ _ hcall => cases hcall _ k hslot
    | @asked _ check k₀ hslotAsked =>
        obtain ⟨rfl, -⟩ : op' = .clearError check ∧ k ≍ k₀ := by simpa [hslot] using hslotAsked
        -- The task that has ended is the one that was handed over.
        obtain ⟨subj', k', hawaits⟩ := hr.orderly.awaited op t (by simp [Sys.entries, hrun])
        obtain ⟨-, rfl, -⟩ : _ ∧ Op.clearError check = op ∧ k ≍ k' := by
          simpa [hslot] using hawaits
        have hslotOp : s.slot .op = some (.op (.clearError check), .ready p) := by
          simp [Sys.slot, hrun]
        obtain ⟨y, hy, hends⟩ :=
          courseOutline_coherent.finished hsound hslotOp (Or.inr ⟨check, rfl⟩) hp
        have hbusy : BrowserVpn.busy s.trace = some (.clearError check, some t) := by
          rw [hr.busy, hrun]
          rfl
        have hread : patchedBy t true (({ s with vars := v } : Sys).finish .op r).trace =
            patchedBy t true s.trace := by
          rw [Sys.finish_trace]
          rfl
        have hready : ∀ (c' : Call) (k' : Except String (Reply c') → Js Result),
            (({ s with vars := v } : Sys).finish .op r).slot (.task t) =
              some (.task (.message .testIp), .awaiting c' k') → c'.plain = true :=
          fun c' k' h => by simp [hslot'] at h
        cases r with
        | error e =>
            have hstage := hends.rejected e rfl
            refine ⟨⟨some check, .intact⟩, rfl, ?_⟩
            cases hy with
            | cleared => cases hstage
            | @task u _ hbusy' hnone _ =>
                obtain rfl : t = u := by simpa [hbusy] using hbusy'
                exact .intact (hread.trans hnone) hready
        | ok result =>
            obtain ⟨rfl, hstage⟩ := hends.task check rfl result rfl
            refine ⟨⟨some check, .resolved⟩, ⟨check, rfl, rfl, rfl⟩, ?_⟩
            cases hy with
            | task => cases hstage
            | @cleared u _ hbusy' hpatched hunchanged _ =>
                obtain rfl : t = u := by simpa [hbusy] using hbusy'
                obtain ⟨b, hvars⟩ := ({ s with vars := v } : Sys).finish_vars .op
                  (.ok (.epoch (check.epoch + 1)))
                refine .resolved (hread.trans hpatched) ?_ ?_ hready
                · rw [hvars]
                  exact ⟨hunchanged.starts, hunchanged.changes, hunchanged.raises⟩
                · rw [hr'.orderly.changing]
                  simp only [Sys.finish]
                  split <;> rfl
  keeps _ _ _ _ _ _ := trivial

/-! ## Every run -/

theorem Reach.courses (h : Reach (undisturbed · ·) (Sys.init w) s) : courseOutline.Sound s := by
  have hbegins := Outline.sound_init (w := w) (O := courseOutline)
    (by rintro (h | ⟨check, h⟩) <;> cases h)
  exact ((courseOutline_correct w).reach hbegins trivial (fun hr => hr) h).1

/-- The stored error changes with a patch that lands. -/
theorem Reach.stored_next (h : Reach ok (Sys.init w) s) (hs : s.next l = some s') (t : Nat) :
    s'.world.storage.proxyError = s.world.storage.proxyError ∨
      ∃ own, patchedBy t own s'.trace = true := by
  have hlanded : l = .land .op .done → s'.world.storage.proxyError = s.world.storage.proxyError ∨
      ∃ own, patchedBy t own s'.trace = true := by
    rintro rfl
    obtain ⟨subj, c, k, r, v, hslot, hw, rfl⟩ := Sys.land_eq_some hs
    cases c with
    | storageSet p =>
        obtain ⟨rfl, rfl⟩ : Except.ok () = r ∧
            { s.world with storage := s.world.storage.set p } = v := by
          simpa [World.land] using hw
        cases hp : p.proxyError with
        | none => exact Or.inl (by simp [Storage.set, hp])
        | some e =>
            right
            obtain ⟨new, hmove, -⟩ := s.move_trace
              { s.world with storage := s.world.storage.set p }
            refine ⟨ownCheck t (BrowserVpn.busy (new ++ s.trace)), ?_⟩
            rw [Sys.answer_trace, hmove]
            simp [patchedBy, hp]
    | _ =>
        left
        rw [Sys.answer_world]
        exact World.land_proxyError hw (by rintro p ⟨⟩)
  cases h.errorStep hs with
  | same _ hstored => exact Or.inl hstored
  | started _ hstored => exact Or.inl hstored
  | restarted _ hstored => exact Or.inl hstored
  | stored hl => exact hlanded hl
  | cleared hl => exact hlanded hl

/-- A callback that is under way has begun, and what was stored then is stored
still unless somebody has patched it. -/
theorem Reach.unpatched (h : Reach ok (Sys.init w) s) {kind : TaskKind}
    {thread : Thread api Result} (hslot : s.slot (.task t) = some (.task kind, thread)) :
    ∃ s₁, Reach ok (Sys.init w) s₁ ∧ (∃ before, s₁.trace = .began t kind :: before) ∧
      Later ok s₁ s ∧ ((∀ own, patchedBy t own s.trace = false) →
        s.world.storage.proxyError = s₁.world.storage.proxyError) := by
  induction h generalizing thread with
  | init => simp [Sys.slot, Sys.init, Sys.fresh] at hslot
  | @step s s' l hr hl hn ih =>
      rcases Sys.kind_next hn hslot with ⟨-, htrace⟩ | ⟨hrestart, hdispatch, thread', hslot'⟩
      · exact ⟨s', hr.step hl hn, ⟨_, htrace⟩, Reach.init, fun _ => rfl⟩
      · obtain ⟨s₁, hreach, hbegan, hlater, hstored⟩ := ih hslot'
        refine ⟨s₁, hreach, hbegan, hlater.step ⟨hl, hrestart⟩ hn, fun hnone => ?_⟩
        have hold : ∀ own, patchedBy t own s.trace = false := by
          intro own
          rw [Bool.eq_false_iff]
          intro hpatched
          have hkept := patchedBy_kept hn hrestart hdispatch hpatched
          simp [hnone own] at hkept
        rcases hr.stored_next hn t with hsame | ⟨own, hpatched⟩
        · exact hsame.trans (hstored hold)
        · simp [hnone own] at hpatched

/-- How an IP check that settles with `r` leaves the stored error. -/
structure CheckSettled (ok : Rules) (w : World) (t : Nat) (r : Except String Result)
    (s s' : Sys) : Prop where
  /-- It has cleared the error only if it resolves with an address. -/
  cleared : patchedBy t true s.trace = true → ∃ ip, r = .ok (.ip ip)
  /-- If it is rejected, what is stored is what was stored when it began, unless
  another task has replaced or cleared that. -/
  rejected : ∀ e, r = .error e → ∃ s₁, Reach ok (Sys.init w) s₁ ∧
    (∃ before, s₁.trace = .began t (.message .testIp) :: before) ∧ Later ok s₁ s ∧
    (patchedBy t false s.trace = false →
      s'.world.storage.proxyError = s₁.world.storage.proxyError)

/-- In every run in which nothing disturbs a check between its patch and its end, a
check that is rejected has not cleared the stored error. -/
theorem rejected_check_spares_error (h : Reach (undisturbed · ·) (Sys.init w) s)
    (hs : s.next (.resume (.task t)) = some s')
    (hkind : kindOf t s.trace = some (.message .testIp)) {r : Except String Result}
    (hend : s'.trace = .ended (.task t) r :: s.trace) :
    CheckSettled (undisturbed · ·) w t r s s' := by
  obtain ⟨subj, p, hslot, ⟨v, c, k, -, rfl⟩ | ⟨v, r', hp, rfl⟩⟩ := Sys.resume_eq_some hs
  · simp at hend
  · obtain ⟨kind, -, rfl⟩ := Sys.task_of_slot hslot
    obtain rfl : kind = .message .testIp := Option.some.inj ((h.kindOf hslot).symm.trans hkind)
    obtain rfl : r' = r := by simpa using hend
    obtain ⟨x, hx, hends⟩ := courseOutline_coherent.finished h.courses hslot (Or.inl rfl) hp
    -- Where the check is rejected, its course says that the error is intact.
    have hintact : ∀ e, r' = .error e → patchedBy t true s.trace = false := by
      intro e he
      have hstage := hends.rejected e he
      cases hx with
      | intact hnone _ => exact hnone
      | asked => cases hstage
      | resolved => cases hstage
    constructor
    · intro hpatched
      cases r' with
      | error e => simp [hintact e rfl] at hpatched
      | ok result =>
          obtain ⟨ip, rfl⟩ := hends.check rfl result rfl
          exact ⟨ip, rfl⟩
    · intro e he
      obtain ⟨s₁, hreach, hbegan, hlater, hstored⟩ := h.unpatched hslot
      refine ⟨s₁, hreach, hbegan, hlater, fun hothers => ?_⟩
      rw [Sys.finish_world]
      apply hstored
      intro own
      cases own with
      | true => exact hintact e he
      | false => exact hothers

end

section

attribute [local instance] Platform.ascii Browser.sample

/-- Up to the patch of an IP check, which is about to land. -/
def checking : List Label :=
  turns .boot 46 ++ [.resume .boot, .proxyError ⟨none, some true⟩, .start] ++ turns .op 22 ++
    [.resume .op, .message (js "extension") .testIp, .dispatch 1] ++ turns (.task 1) 15 ++
    [.resume (.task 1), .land (.task 1) (.flag true), .resume (.task 1),
      .land (.task 1) (.text (some (js "192.0.2.1")))] ++ turns (.task 1) 15 ++
    [.resume (.task 1), .start] ++ turns .op 17 ++ [.resume .op]

/-- How the newest step of a trace has ended a callback. -/
def endedWith : List Obs → Option (Except String Result)
  | .ended (.task _) r :: _ => some r
  | _ => none

theorem kindOf_testIp {t : Nat} {trace : List Obs}
    (h : (kindOf t trace).any TaskKind.isTestIp = true) :
    kindOf t trace = some (.message .testIp) := by
  obtain ⟨kind, hkind, htest⟩ := (Option.any_eq_true _ _).1 h
  rw [hkind]
  cases kind with
  | message m => cases m <;> first | rfl | cases htest
  | _ => cases htest

theorem ended_of_endedWith [Platform] [Browser] {s s' : Sys} {t : Nat}
    {r : Except String Result} (hs : s.next (.resume (.task t)) = some s')
    (h : endedWith s'.trace = some r) : s'.trace = .ended (.task t) r :: s.trace := by
  obtain ⟨o, htrace, hof⟩ := Sys.resume_trace hs
  rw [htrace] at h ⊢
  cases o with
  | ended a r' =>
      cases hof
      simpa [endedWith] using h
  | _ => cases h

/-- An IP check that clears the error and resolves with an address. -/
theorem rejected_check_spares_error_sample :
    ∃ (s s' : Sys) (r : Except String Result), patchedBy 1 true s.trace = true ∧
      s'.trace = .ended (.task 1) r :: s.trace ∧
      CheckSettled (undisturbed · ·) (World.sample (.free .system)) 1 r s s' := by
  obtain ⟨s, h, hkind, hpatched, hnext⟩ := Reach.of_follow undisturbed
    (World.sample (.free .system)) (checking ++ [.land .op .done] ++ turns .op 19 ++ [.resume .op])
    (fun s => (kindOf 1 s.trace).any TaskKind.isTestIp = true ∧ patchedBy 1 true s.trace = true ∧
      (s.next (.resume (.task 1))).any (fun s' => (endedWith s'.trace).isSome) = true)
    (by decide +kernel)
  obtain ⟨s', hs, hend⟩ := (Option.any_eq_true _ _).1 hnext
  obtain ⟨r, hr⟩ := Option.isSome_iff_exists.1 hend
  have hended := ended_of_endedWith hs hr
  exact ⟨s, s', r, hpatched, hended,
    rejected_check_spares_error h hs (kindOf_testIp hkind) hended⟩

/-- Somebody takes the proxy right after the patch: the check is rejected and the
error is gone. -/
theorem rejected_check_clears_error :
    ∃ (s s' : Sys) (e : String), Reach (fun _ _ => true) (Sys.init (World.sample (.free .system))) s ∧
      s.next (.resume (.task 1)) = some s' ∧ kindOf 1 s.trace = some (.message .testIp) ∧
      s'.trace = .ended (.task 1) (.error e) :: s.trace ∧ patchedBy 1 true s.trace = true ∧
      patchedBy 1 false s.trace = false ∧ s'.world.storage.proxyError = none := by
  obtain ⟨s, h, hkind, hpatched, hothers, hnext⟩ := Reach.of_follow (fun _ _ => true)
    (World.sample (.free .system)) (checking ++ [.land .op .done, .others .taken (.free .default)] ++
      turns .op 1 ++ [.resume .op])
    (fun s => (kindOf 1 s.trace).any TaskKind.isTestIp = true ∧ patchedBy 1 true s.trace = true ∧
      patchedBy 1 false s.trace = false ∧ (s.next (.resume (.task 1))).any (fun s' =>
        (endedWith s'.trace).any (fun r => !r.isOk) && s'.world.storage.proxyError.isNone) = true)
    (by decide +kernel)
  obtain ⟨s', hs, hend⟩ := (Option.any_eq_true _ _).1 hnext
  rw [Bool.and_eq_true] at hend
  obtain ⟨r, hr, herror⟩ := (Option.any_eq_true _ _).1 hend.1
  cases r with
  | ok result => cases herror
  | error e =>
      exact ⟨s, s', e, h, hs, kindOf_testIp hkind, ended_of_endedWith hs hr, hpatched, hothers,
        Option.isNone_iff_eq_none.1 hend.2⟩

end

end BrowserVpn
