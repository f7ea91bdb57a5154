import BrowserVpn.Extension.Challenge

/-!
# Extension.IpCheck — what an IP check that succeeds has established

`testIp` and the task it hands to `exclusive`, told through moments. The check
compares three counters at four moments; `Fetched` is what is known of the state
in which the request leaves, `Moment.Resolves` what is known when the check ends
with an address.
-/

namespace BrowserVpn

open Async

section

variable [Platform] [Browser]

/-! ## The account -/

/-- The state in which an IP check began: it had not called anything yet. -/
structure Began (ok : Rules) (w : World) (start : Vars) (a : Actor) (s₀ s : Sys) : Prop where
  reach : Reach ok (Sys.init w) s₀
  boot : s₀.boot = none
  first : callsOf a s₀.trace = 0
  later : Later ok s₀ s
  vars : s₀.vars = start

/-- The variables are those of a check that is about to clear the error, up to
the task that does it. -/
structure IpCheck.Unchanged (check : IpCheck) (v : Vars) : Prop where
  starts : v.configurationEpoch = check.epoch + 1
  changes : v.browserSettingEpoch = check.settingEpoch
  raises : v.proxyErrorEpoch = check.errorEpoch

/-- What holds where the stored error is about to be cleared. -/
structure IpCheck.MayClear (check : IpCheck) (s : Sys) : Prop where
  unchanged : check.Unchanged s.vars
  stored : s.world.storage.proxyError = some check.previousError
  indirect : check.previousError.possibleDirect = false

/-- The request has left from `f`: nobody held the queue, no counter had moved
since the check began, and the route was that of the stored configuration. -/
structure Fetched (ok : Rules) (w : World) (a : Actor) (start : Vars) (data : Storage)
    (c : Connection) (l : List JsString) (f : Sys) : Prop where
  reach : Reach ok (Sys.init w) f
  boot : f.boot = none
  idle : f.running = none
  starts : f.vars.configurationEpoch = start.configurationEpoch
  changes : f.vars.browserSettingEpoch = start.browserSettingEpoch
  raises : f.vars.proxyErrorEpoch = start.proxyErrorEpoch
  began : ∃ s₀, Began ok w start a s₀ f
  connection : f.world.storage.connection = data.connection
  configured : BrowserVpn.configured data.toConfig = .ok (some c, l)
  regular : f.world.proxy.effective false = ⟨.controlledByThisExtension, proxyConfigOf c l⟩
  allowed : isExcludedHost (js "api.ipify.org") l = false

/-- The counter of tasks has not moved since the state `f`, or by the task of the
callback `t` alone. -/
def OnlyOwn (ok : Rules) (t : Nat) (f s : Sys) (epoch : Nat) : Prop :=
  epoch = f.vars.configurationEpoch ∨ epoch = f.vars.configurationEpoch + 1 ∧
    ∃ s₁ check thread, Later ok f s₁ ∧ Later ok s₁ s ∧
      s₁.running = some ⟨.clearError check, some t, thread⟩

/-- A check has ended with an address at this moment. -/
structure Moment.Resolves (ok : Rules) (w : World) (x : Moment) : Prop where
  here : x.here = true
  idle : x.now.running = none
  seen : ∃ t start data data' c l f s₁, x.me = .task t ∧ Fetched ok w x.me start data c l f ∧
    Issues ok f x.me .fetch s₁ ∧ Later ok s₁ x.now ∧ x.reads = [data', data] ∧
    OnlyOwn ok t f x.now x.now.vars.configurationEpoch ∧
    x.now.vars.browserSettingEpoch = f.vars.browserSettingEpoch ∧
    x.now.vars.proxyErrorEpoch = f.vars.proxyErrorEpoch ∧
    configuredExclusions x.now.world.storage.toConfig = .ok l

/-- The IP check and the task that clears the error on its behalf. A check hands
over the counters it began with; the task clears the error it was given, while
nothing has moved. -/
def ipAccount (ok : Rules) (w : World) : Account where
  covers subj := subj = .task (.message .testIp) ∨ ∃ check, subj = .op (.clearError check)
  may c x := (∀ n, c ≠ .exclusive (.authFailed n)) ∧
    (∀ check, c = .exclusive (.clearError check) → ∃ start s₀, Began ok w start x.me s₀ x.now ∧
      check.epoch = start.configurationEpoch ∧ check.settingEpoch = start.browserSettingEpoch ∧
      check.errorEpoch = start.proxyErrorEpoch) ∧
    ∀ check patch, x.subj = .op (.clearError check) → c = .storageSet patch →
      patch = { proxyError := some none } ∧ x.here = true ∧ x.wrote = [] ∧ check.MayClear x.now
  post subj r x := (subj = .task (.message .testIp) → ∀ ip, r = .ok (.ip ip) → x.Resolves ok w) ∧
    ∀ check, subj = .op (.clearError check) → ∀ result, r = .ok result →
      result = .epoch (check.epoch + 1)
  asks c x h := by
    refine ⟨?_, ?_, ?_⟩
    · rintro n rfl
      cases h
    · rintro check rfl
      cases h
    · rintro check patch - rfl
      cases h

variable {ok : Rules} {w : World} {A : Account} {x : Moment} {α : Type}

/-- A function whose calls are open to all. -/
theorem wp_open {p : Js α} (hp : p.Within (fun c : Call => ∀ x, A.may c x) fun _ => True) :
    wp (historyLogic A ok w) p (fun _ _ => True) x :=
  wp_of_within _ (I := fun _ => True) hp (fun _ _ _ _ _ => trivial) (fun _ _ _ _ => ⟨trivial, trivial⟩)
    (fun _ x _ hc => ⟨hc x, fun _ _ _ => trivial⟩) trivial

/-- Questions and the badge. -/
def Call.shows : Call → Bool
  | .setBadgeText _ | .setBadgeBackgroundColor _ => true
  | c => c.asks

/-- Calls that neither hand over a task nor store anything are open to the check
and its task. -/
theorem ipAccount_may {c : Call} (hexclusive : ∀ op, c ≠ .exclusive op)
    (hstore : ∀ patch, c ≠ .storageSet patch) : (ipAccount ok w).may c x :=
  ⟨fun _ h => absurd h (hexclusive _), fun _ h => absurd h (hexclusive _),
    fun _ _ _ h => absurd h (hstore _)⟩

theorem open_updateBadge :
    updateBadge.Within (fun c : Call => ∀ x, (ipAccount ok w).may c x) fun _ => True := by
  have hshows : updateBadge.Within (fun c : Call => c.shows) fun _ => False := by
    refine .bind (within_await (asks_status.mono (fun c hc => ?_) fun _ h => h) rfl) fun _ =>
      .bind (within_chrome rfl) fun _ => within_when (within_chrome rfl)
    cases c <;> first | exact hc | cases hc
  refine hshows.mono (fun c hc x => ipAccount_may ?_ ?_) fun _ h => h.elim
  · rintro op rfl
    cases hc
  · rintro patch rfl
    cases hc

/-! ## The task that clears the error -/

omit [Browser] in
/-- Where the stored error is the one that was given and a second look finds it
retriable, it does not speak of a direct connection. -/
theorem Status.Tells.indirect {st : Status} {data : Storage} {setting : Setting ProxyConfig}
    {e : ProxyError} (h : st.Tells data setting) (hretry : st.canRetryIp = some true)
    (he : data.proxyError = some e) : e.possibleDirect = false := by
  obtain ⟨e', he', hindirect⟩ := h.retry hretry
  rw [he] at he'
  cases he'
  exact hindirect

theorem clearError_seen {check : IpCheck} (hx : x.Open ok w) (hme : x.me = .op)
    (hsubj : x.subj = .op (.clearError check)) (hboot : x.now.boot = none) :
    wp (historyLogic (ipAccount ok w) ok w) (clearError check)
      (fun r _ => ∀ epoch, r = .ok epoch → epoch = check.epoch + 1) x := by
  refine wp_get_bind ?_
  rintro v x₁ ⟨s₁, hduring, rfl⟩
  obtain ⟨hx₁, rfl⟩ := Moment.leads_read hx hduring
  refine wp_ensure_bind (fun hepoch => ?_) fun _ _ h => by cases h
  have hepoch : s₁.vars.configurationEpoch = check.epoch + 1 := by simpa using hepoch
  refine wp_bind _ (wp_history_await (wp_mono _ stored_seen fun r m hm m' hm' =>
    (⟨m, hm, hm'⟩ : ∃ m, (∃ l, Moment.Leads ok w _ m l ∧
      ∀ data, r = .ok data → l = [data] ∧ data = m.now.world.storage) ∧
      m.Leads ok w m' []))) ?_ fun _ _ _ _ h => by cases h
  rintro data x₂ ⟨m, ⟨l, hm, hdata⟩, hx₂⟩
  obtain ⟨-, rfl⟩ := hdata data rfl
  refine wp_bind _ (wp_history_await (wp_mono _ status_seen fun r m' hm' x₃ hx₃ =>
    (⟨m', hm', hx₃⟩ : ∃ m', StatusSeen ok w _ r m' ∧ m'.Leads ok w x₃ []))) ?_
    fun _ _ _ _ h => by cases h
  rintro latest x₃ ⟨m', ⟨l', hm', hlatest⟩, hx₃⟩
  obtain ⟨m₁, m₂, -, hm₁, -, -, htells⟩ := hlatest latest rfl
  refine wp_get_bind ?_
  rintro v x₄ ⟨s₄, hduring₄, rfl⟩
  obtain ⟨hx₄, rfl⟩ := Moment.leads_read hx₃.isOpen hduring₄
  refine wp_ensure_bind (fun hsame => ?_) fun _ _ h => by cases h
  simp only [epochsChanged, Bool.and_eq_true, Bool.not_eq_true', Bool.or_eq_false_iff,
    bne_eq_false_iff_eq, beq_iff_eq] at hsame
  obtain ⟨⟨⟨⟨hstarts, hchanges⟩, hraises⟩, hstored⟩, hretry⟩ := hsame
  -- Nobody else writes the storage while this task holds the queue.
  have hme₁ : m.me = .op := hm.me.trans hme
  have hboot₁ : m.now.boot = none := 
    Later.boot_none (hx₁.trans hm).later hboot
  have hsecond := (hx₂.trans hm₁).held hme₁ hboot₁
  have hpresent := (hx₂.trans (hm'.trans (hx₃.trans hx₄))).held hme₁ hboot₁
  refine wp_bind _ (M := fun _ _ => True) ⟨⟨nofun, nofun, ?_⟩, fun _ _ _ => trivial⟩ ?_
    fun _ _ _ _ h => by cases h
  · rintro check' patch hsubj' ⟨⟩
    obtain rfl : check' = check := by
      have hsame := (hx₁.trans (hm.trans (hx₂.trans (hm'.trans (hx₃.trans hx₄))))).subj
      cases (hsubj'.symm.trans hsame).trans hsubj
      rfl
    refine ⟨rfl, rfl, hx₄.wrote, ⟨hstarts.trans hepoch, hchanges, hraises⟩, ?_,
      htells.indirect hretry ?_⟩
    · show s₄.world.storage.proxyError = _
      rw [hpresent.1]
      exact hstored
    · rw [hsecond.1]
      exact hstored
  · intro _ x₅ _
    refine wp_get_bind fun v x₆ _ => ?_
    refine wp_ensure_bind (fun _ => ?_) fun _ _ h => by cases h
    refine wp_bind _ (wp_open (within_await open_updateBadge fun x => ipAccount_may nofun nofun)) ?_
      fun _ _ _ _ h => by cases h
    rintro _ x₇ - epoch ⟨⟩
    exact hepoch

/-! ## The check -/

/-- A request that leaves in the present segment. -/
theorem wp_fetch (hhere : x.here = true) :
    wp (historyLogic (ipAccount ok w) ok w) (chrome .fetch) (fun _ x' =>
      x.Leads ok w x' [] ∧ ∃ s₁, Issues ok x.now x.me .fetch s₁ ∧ Later ok s₁ x'.now) x := by
  refine wp_mono _ (wp_history_call nofun (ipAccount_may nofun nofun)) ?_
  rintro r _ ⟨s, s', hr, hbefore, hheld, hlands, rfl⟩
  refine ⟨Moment.leads_land rfl hr hbefore hheld hlands, ?_⟩
  simp only [Moment.Before, Moment.issue, hhere, if_true] at hbefore
  obtain ⟨s₁, hissues, hlater⟩ := hbefore
  exact ⟨s₁, hissues, Reach.trans hlater hlands.later⟩

omit [Platform] [Browser] in
/-- A list with one element that satisfies `p` has no other. -/
theorem eq_of_countP_eq_one {β : Type} {p : β → Bool} {l : List β} (h : l.countP p = 1) {b b' : β}
    (hb : b ∈ l) (hpb : p b = true) (hb' : b' ∈ l) (hpb' : p b' = true) : b = b' := by
  rw [List.countP_eq_length_filter] at h
  obtain ⟨o, ho⟩ := List.length_eq_one_iff.1 h
  have hmem : ∀ {b}, b ∈ l → p b = true → b = o := fun hb hpb => by
    simpa [ho] using List.mem_filter.2 ⟨hb, hpb⟩
  rw [hmem hb hpb, hmem hb' hpb']

/-- What has started since, by the counter, is the own task. -/
theorem OnlyOwn.started {t : Nat} {f s : Sys} (h : OnlyOwn ok t f s s.vars.configurationEpoch)
    (hr : Reach ok (Sys.init w) f) (hidle : f.running = none) {new : List Obs}
    (hpassed : Passed f s new) {op : Op} {owner : Option Nat} (hmem : .started op owner ∈ new) :
    owner = some t ∧ op.neutral = true := by
  rcases h with he | ⟨he, s₁, check, thread, hlater, hlater', hrun⟩
  · exact absurd hmem (hpassed.no_start he op owner)
  · obtain ⟨new₁, hpassed₁⟩ := Later.passed hlater
    obtain ⟨new₂, hpassed₂⟩ := Later.passed hlater'
    obtain rfl : new = new₂ ++ new₁ := by
      refine List.append_cancel_right (hpassed.trace.symm.trans ?_)
      rw [hpassed₂.trace, hpassed₁.trace, List.append_assoc]
    have hone : (new₂ ++ new₁).countP Obs.starts = 1 := by
      have hstarts := hpassed.starts
      omega
    have hbusy := (hr.later hlater).busy
    rw [hpassed₁.trace, hrun] at hbusy
    have hown : Obs.started (.clearError check) (some t) ∈ new₁ := by
      refine (started_of_busy hbusy).resolve_right fun hold => ?_
      rw [hr.busy, hidle] at hold
      cases hold
    cases eq_of_countP_eq_one hone hmem rfl (List.mem_append_right _ hown) rfl
    exact ⟨rfl, rfl⟩

/-- Where nothing but the own task has started, the stored configuration stays. -/
theorem OnlyOwn.config {t : Nat} {f s m : Sys}
    (h : OnlyOwn ok t f s s.vars.configurationEpoch) (hr : Reach ok (Sys.init w) f)
    (hidle : f.running = none) (hboot : f.boot = none) (hm : Later ok f m) (hm' : Later ok m s) :
    s.world.storage.toConfig = m.world.storage.toConfig := by
  obtain ⟨new, hpassed⟩ := Later.passed hm
  obtain ⟨new', hpassed'⟩ := Later.passed hm'
  have hstarted : ∀ {op owner}, Obs.started op owner ∈ new' ++ new → op.neutral = true :=
    fun hmem => (h.started hr hidle (hpassed.trans hpassed') hmem).2
  refine Later.config (hr.later hm) hm' (Later.boot_none hm hboot) ?_ hpassed'.trace
    fun op owner hmem => hstarted (List.mem_append_left _ hmem)
  intro r hrun
  have hbusy := (hr.later hm).busy
  rw [hpassed.trace, hrun] at hbusy
  rcases started_of_busy hbusy with hmem | hold
  · exact hstarted (List.mem_append_right _ hmem)
  · rw [hr.busy, hidle] at hold
    cases hold

/-- A later look at a route that stood still finds the list it was built from. -/
theorem Fetched.exclusions {a : Actor} {start : Vars} {data data' : Storage} {c : Connection}
    {l : List JsString} {f : Sys} {st : Status} {setting : Setting ProxyConfig}
    (h : Fetched ok w a start data c l f)
    (hconnection : data'.connection = f.world.storage.connection)
    (hsetting : setting = f.world.proxy.effective false) (htells : st.Tells data' setting)
    (htestable : st.testable = true) : configuredExclusions data'.toConfig = .ok l := by
  obtain ⟨c', l', hconfigured, -, hroute, -⟩ := htells.route htestable
  obtain ⟨hc, hl⟩ := configured_eq_ok.1 h.configured
  obtain ⟨hc', hl'⟩ := configured_eq_ok.1 hconfigured
  have hsame : configuredConnection data'.toConfig = configuredConnection data.toConfig := by
    simp only [configuredConnection, hconnection, h.connection]
  obtain rfl : c' = c := by
    rw [hsame, hc] at hc'
    cases hc'
    rfl
  have hvalue : proxyConfigOf c' l = proxyConfigOf c' l' :=
    (Setting.mk.inj ((hsetting.trans h.regular).symm.trans hroute)).2
  obtain rfl := proxyConfigOf_inj (normalizeExclusions_normalized hl)
    (normalizeExclusions_normalized hl') hvalue
  exact hl'

/-- The task that a check hands over, and how it ends. -/
theorem dismissError_seen {a : Actor} {start : Vars} {data : Storage} {c : Connection}
    {l : List JsString} {f : Sys} {t : Nat} (h : Fetched ok w a start data c l f)
    (hme : x.me = a) (ht : a = .task t) (hx : x.Open ok w) (hlater : Later ok f x.now)
    (previousError : Option ProxyError) :
    wp (historyLogic (ipAccount ok w) ok w) (dismissError start previousError) (fun r x' =>
      x.Leads ok w x' [] ∧ ∀ epoch, r = .ok epoch → OnlyOwn ok t f x'.now epoch) x := by
  unfold dismissError
  split
  · rename_i previousError
    refine wp_bind _ (M := fun r x' => x.Leads ok w x' [] ∧ ∀ result, r = .ok result →
        result = .epoch (f.vars.configurationEpoch + 1) ∧
          ∃ s check thread, Later ok f s ∧ Later ok s x'.now ∧
            s.running = some ⟨.clearError check, some t, thread⟩)
      ⟨⟨nofun, ?_, nofun⟩, ?_⟩ ?_ fun e x' h => ⟨h.1, fun _ h => by cases h⟩
    · rintro check ⟨⟩
      obtain ⟨s₀, hbegan⟩ := h.began
      refine ⟨start, s₀, ?_, rfl, rfl, rfl⟩
      rw [hme]
      exact { hbegan with later := Reach.trans hbegan.later hlater }
    · rintro r x' ⟨s, s', u, hr, hbefore, hu, hsettles, rfl⟩
      have hu : x.me = .task u := hu
      obtain rfl : u = t := Actor.task.inj (hu.symm.trans (hme.trans ht))
      have hlater' := hbefore.later_issue
      refine ⟨⟨rfl, rfl, hr.step hsettles.admitted hsettles.next,
        Reach.trans hlater' hsettles.later, fun hop => ?_, rfl, rfl, rfl⟩, ?_⟩
      · rw [hme, ht] at hop
        cases hop
      · rintro result rfl
        obtain ⟨y, v, -, -, -, -, hpost⟩ := hsettles.post (Or.inr ⟨_, rfl⟩)
        obtain ⟨thread, hrun⟩ := hsettles.running
        refine ⟨?_, s, _, thread, Reach.trans hlater hlater', hsettles.later, hrun⟩
        rw [h.starts]
        exact hpost _ rfl _ rfl
    · rintro result x' ⟨hx', hresult⟩
      obtain ⟨rfl, hown⟩ := hresult result rfl
      refine ⟨hx', ?_⟩
      rintro epoch ⟨⟩
      exact Or.inr ⟨rfl, hown⟩
  · refine ⟨.refl hx, ?_⟩
    rintro epoch ⟨⟩
    exact Or.inl h.starts.symm

omit [Platform] [Browser] in
/-- Readings of the variables that no counter and no flag tells apart. -/
theorem epochs_of_ensured {v : Vars} {epoch settingEpoch errorEpoch : Nat}
    (h : (!(v.configurationChanging || epochsChanged epoch settingEpoch errorEpoch v)) = true) :
    v.configurationChanging = false ∧ v.configurationEpoch = epoch ∧
      v.browserSettingEpoch = settingEpoch ∧ v.proxyErrorEpoch = errorEpoch := by
  simpa [epochsChanged, and_assoc] using h

/-- The flag of the queue is down where nobody holds it. -/
theorem Reach.running_none {s : Sys} (h : Reach ok (Sys.init w) s)
    (hflag : s.vars.configurationChanging = false) : s.running = none := by
  rw [h.disciplined.orderly.changing] at hflag
  simpa using hflag

/-- From the request to the end of a check. -/
theorem fetchIp_seen {start : Vars} {data : Storage} {c : Connection} {l : List JsString} {t : Nat}
    (h : Fetched ok w x.me start data c l x.now) (hhere : x.here = true)
    (hme : x.me = .task t) (hreads : x.reads = [data]) (previousError : Option ProxyError) :
    wp (historyLogic (ipAccount ok w) ok w) (fetchIp start previousError)
      (fun r x' => ∀ ip, r = .ok ip → x'.Resolves ok w) x := by
  refine wp_bind _ (wp_fetch hhere) ?_ fun _ _ _ _ h => by cases h
  rintro answered x₁ ⟨hx₁, s₁, hissues, hs₁⟩
  refine wp_ensure_bind (fun _ => ?_) fun _ _ h => by cases h
  refine wp_bind _ (wp_inspect (c := .json) rfl nofun (ipAccount_may nofun nofun)) ?_
    fun _ _ _ _ h => by cases h
  rintro body x₂ ⟨hx₂, -⟩
  refine wp_lift_bind (fun ip _ => ?_) fun _ _ _ h => by cases h
  refine wp_bind _ (wp_history_await (wp_mono _ status_seen fun r m hm x₃ hx₃ =>
    (⟨m, hm, hx₃⟩ : ∃ m, StatusSeen ok w _ r m ∧ m.Leads ok w x₃ []))) ?_
    fun _ _ _ _ h => by cases h
  rintro after x₃ ⟨m, ⟨l', hm, hafter⟩, hx₃⟩
  obtain ⟨m₃, m₄, rfl, hm₃, hm₄, hm₄', htells⟩ := hafter after rfl
  have hm₄' := hm₄'.trans hx₃
  have hx₃ := hm.trans hx₃
  refine wp_get_bind ?_
  rintro v x₄ ⟨s₄, hduring₄, rfl⟩
  obtain ⟨hx₄, rfl⟩ := Moment.leads_read hx₃.isOpen hduring₄
  refine wp_ensure_bind (fun hsame => ?_) fun _ _ h => by cases h
  simp only [Bool.not_or, Bool.and_eq_true, Bool.not_eq_true', epochsChanged,
    bne_eq_false_iff_eq] at hsame
  obtain ⟨⟨-, ⟨hstarts₄, hchanges₄⟩, hraises₄⟩, htestable⟩ := hsame
  have hx₄' := hx₁.trans (hx₂.trans (hx₃.trans hx₄))
  refine wp_bind _ (dismissError_seen h hx₄'.me hme hx₄'.isOpen hx₄'.later previousError) ?_
    fun _ _ _ _ h => by cases h
  rintro epoch x₅ ⟨hx₅, hown⟩
  refine wp_get_bind ?_
  rintro v x₆ ⟨s₆, hduring₆, rfl⟩
  obtain ⟨hx₆, rfl⟩ := Moment.leads_read hx₅.isOpen hduring₆
  refine wp_ensure_bind (fun hsame => ?_) fun _ _ h => by cases h
  obtain ⟨hflag, hstarts, hchanges, hraises⟩ := epochs_of_ensured hsame
  rintro ip' ⟨⟩
  have hx₆' := hx₄'.trans (hx₅.trans hx₆)
  have hchanges' : s₆.vars.browserSettingEpoch = x.now.vars.browserSettingEpoch :=
    hchanges.trans h.changes.symm
  -- Nothing but the own task has started since the request left.
  have hown' : OnlyOwn ok t x.now s₆ epoch := by
    refine (hown epoch rfl).imp_right fun ⟨he, s, check, thread, hs, hs', hrun⟩ => ?_
    exact ⟨he, s, check, thread, hs, Reach.trans hs' hx₆.later, hrun⟩
  have hm₃' := hx₁.trans (hx₂.trans hm₃)
  have hend := hm₄'.trans (hx₄.trans (hx₅.trans hx₆))
  have hlater₄ : Later ok x.now m₄.now := (hm₃'.trans hm₄).later
  have hchanges₄' := Later.changes_between hlater₄ hend.later hchanges'
  have hchanges₃ := Later.changes_between hm₃'.later hm₄.later hchanges₄'
  have hctrl : (x.now.world.proxy.effective false).levelOfControl =
      .controlledByThisExtension := by
    rw [h.regular]
  have hown'' : OnlyOwn ok t x.now s₆ s₆.vars.configurationEpoch := hstarts.symm ▸ hown'
  have hreads' := hx₆'.reads
  rw [hreads] at hreads'
  refine ⟨rfl, hduring₆.reach.running_none hflag, t, start, data, m₃.now.world.storage, c, l, x.now,
    s₁, hx₆'.me.trans hme, hx₆'.me.symm ▸ h, hx₆'.me.symm ▸ hissues, ?_, hreads', hown'', hchanges',
    hraises.trans h.raises.symm, ?_⟩
  · exact Reach.trans hs₁ (hx₂.trans (hx₃.trans (hx₄.trans (hx₅.trans hx₆)))).later
  · have hconfig := hown''.config h.reach h.idle h.boot hm₃'.later (hm₄.trans hend).later
    show configuredExclusions s₆.world.storage.toConfig = _
    rw [hconfig]
    refine h.exclusions (Later.connection h.reach hm₃'.later hchanges₃ hctrl) ?_ htells
      (by simpa using htestable)
    rw [(Later.effective hlater₄ hchanges₄').1]

/-- What is known where the request leaves. -/
theorem testIp_seen {t : Nat} (hx : x.Open ok w) (hme : x.me = .task t)
    (hboot : x.now.boot = none) (hcalls : x.calls = 0) (hreads : x.reads = []) :
    wp (historyLogic (ipAccount ok w) ok w) testIp
      (fun r x' => ∀ ip, r = .ok ip → x'.Resolves ok w) x := by
  refine wp_get_bind ?_
  rintro v x₁ ⟨s₀, hduring, rfl⟩
  obtain ⟨hx₁, rfl⟩ := Moment.leads_read hx hduring
  refine wp_bind _ (wp_history_await (wp_mono _ status_seen fun r m hm x₂ hx₂ =>
    (⟨m, hm, hx₂⟩ : ∃ m, StatusSeen ok w _ r m ∧ m.Leads ok w x₂ []))) ?_
    fun _ _ _ _ h => by cases h
  rintro current x₂ ⟨m, ⟨l', hm, hcurrent⟩, hx₂⟩
  obtain ⟨m₁, m₂, rfl, hm₁, hm₂, hm₂', htells⟩ := hcurrent current rfl
  refine wp_get_bind ?_
  rintro v x₃ ⟨f, hduring₃, rfl⟩
  obtain ⟨hx₃, rfl⟩ := Moment.leads_read hx₂.isOpen hduring₃
  refine wp_ensure_bind (fun hsame => ?_) fun _ _ h => by cases h
  obtain ⟨hflag, hstarts, hchanges, hraises⟩ := epochs_of_ensured hsame
  refine wp_ensure_bind (fun htestable => ?_) fun _ _ h => by cases h
  refine wp_ensure_bind (fun hallowed => ?_) fun _ _ h => by cases h
  obtain ⟨c, l, hconfigured, hl, hroute, -⟩ := htells.route htestable
  have hend := hm₂'.trans (hx₂.trans hx₃)
  have hall := hm.trans (hx₂.trans hx₃)
  have hchanges₂ : m₂.now.vars.browserSettingEpoch = s₀.vars.browserSettingEpoch :=
    Later.changes_between (hm₁.trans hm₂).later hend.later hchanges
  have hchanges₁ := Later.changes_between hm₁.later hm₂.later hchanges₂
  have hfetched : Fetched ok w x.me s₀.vars m₁.now.world.storage c l f :=
    { reach := hduring₃.reach
      boot := Later.boot_none (hx₁.trans hall).later hboot
      idle := hduring₃.reach.running_none hflag
      starts := hstarts
      changes := hchanges
      raises := hraises
      began := ⟨s₀, hduring.reach, Later.boot_none hduring.later hboot, hduring.calls.trans hcalls,
        hall.later, rfl⟩
      connection := by
        refine Later.connection hm₁.reach (hm₂.trans hend).later (hchanges.trans hchanges₁.symm) ?_
        rw [← (Later.effective hm₂.later (hchanges₂.trans hchanges₁.symm)).1, hroute]
      configured := hconfigured
      regular := by
        rw [(Later.effective hend.later (hchanges.trans hchanges₂.symm)).1, hroute]
      allowed := by simpa [hl] using hallowed }
  have hme₃ := (hx₁.trans hall).me
  have hreads₃ := (hx₁.trans hall).reads
  rw [hreads] at hreads₃
  refine wp_tryCatch _ (fetchIp_seen (hme₃.symm ▸ hfetched) rfl
    (hme₃.trans hme) hreads₃ current.proxyError) (fun _ _ h => h) ?_
  exact fun _ _ _ _ h => by cases h

/-! ## Every run -/

/-- The task that clears the error runs when `boot` is done. -/
theorem Reach.boot_of_clearError {s : Sys} (h : Reach ok (Sys.init w) s) {a : Actor}
    {check : IpCheck} {thread : Thread api Result}
    (hslot : s.slot a = some (.op (.clearError check), thread)) : a = .op ∧ s.boot = none := by
  cases a with
  | boot => exact nomatch (Sys.slot_boot hslot).1
  | task t =>
      obtain ⟨kind, -, he⟩ := Sys.task_of_slot hslot
      cases he
  | op =>
      refine ⟨rfl, ?_⟩
      obtain ⟨op, owner, hrun, he⟩ := Sys.slot_op hslot
      cases he
      by_contra hboot
      have herror := (h.disciplined.orderly.booting (Option.isSome_iff_ne_none.2 hboot)).2
        (.clearError check, owner) (by simp [Sys.entries, hrun])
      cases herror

theorem Reach.ipChecks {s : Sys} (h : Reach ok (Sys.init w) s) :
    (historyOutline (ipAccount ok w) ok w).Sound s := by
  refine historyOutline_reach ?_ h
  rintro a subj s (rfl | ⟨check, rfl⟩) hr hslot
  · obtain ⟨hboot, t, rfl⟩ := hr.boot_of_task hslot
    refine wp_map _ (wp_mono _ (testIp_seen ⟨hr, rfl, rfl⟩ rfl hboot rfl rfl) ?_)
    refine fun r x h => ⟨fun _ ip hr' => ?_, fun _ h => nomatch h⟩
    cases r with
    | error e => cases hr'
    | ok ip' => exact h ip' rfl
  · obtain ⟨rfl, hboot⟩ := hr.boot_of_clearError hslot
    refine wp_history_await (wp_map _ (wp_mono _
      (clearError_seen ⟨hr, rfl, rfl⟩ rfl rfl hboot) fun r x h x' _ => ⟨nofun, ?_⟩))
    rintro check' ⟨⟩ result hr'
    cases r with
    | error e => cases hr'
    | ok epoch =>
        cases hr'
        rw [h epoch rfl]

/-! ### Authorization failures -/

/-- Callbacks that do nothing but ask for a status or hand over a task. -/
def TaskKind.isPlain : TaskKind → Bool
  | .challenge _ => false
  | .message .testIp => false
  | _ => true

theorem plain_within (kind : TaskKind) (h : kind.isPlain = true) :
    kind.body.Within (fun c : Call => ∀ n, c ≠ .exclusive (.authFailed n)) fun _ => True := by
  cases kind with
  | challenge details => cases h
  | proxyChanged => exact within_chrome nofun
  | webRTCChanged => exact within_chrome nofun
  | message m =>
      cases m with
      | testIp => cases h
      | other => trivial
      | getState =>
          refine (Prog.Within.map asks_status _).mono (fun c hc n hc' => ?_) fun _ h => h.elim
          subst hc'
          cases hc
      | _ => exact within_chrome nofun

/-- Only challenges hand over authorization failures. -/
theorem Reach.awaits_authFailed {s : Sys} (h : Reach ok (Sys.init w) s) {t n : Nat}
    {kind : TaskKind} {k : Except String Result → Js Result}
    (hslot : s.slot (.task t) = some (.task kind, .awaiting (.exclusive (.authFailed n)) k)) :
    ∃ details, kind = .challenge details := by
  have hwithin := Reach.calls_within (fun subj => (?_ : subj.body.Within (fun c : Call => ∀ kind,
    subj = .task kind → kind.isPlain = true → ∀ n, c ≠ .exclusive (.authFailed n))
    fun _ => True)) h hslot kind rfl
  · cases kind with
    | challenge details => exact ⟨details, rfl⟩
    | message m =>
        cases m with
        | testIp =>
            obtain ⟨x, ⟨-, -, -, hcall⟩, -⟩ := h.ipChecks.awaiting hslot (Or.inl rfl)
            obtain ⟨y, hmay, -⟩ := hcall _ _ hslot
            exact absurd rfl (hmay.1 n)
        | _ => exact absurd rfl (hwithin rfl n)
    | _ => exact absurd rfl (hwithin rfl n)
  · cases subj with
    | task kind =>
        cases hplain : kind.isPlain with
        | true => exact (plain_within kind hplain).mono (fun c hc _ _ _ => hc) fun _ h => h
        | false =>
            refine (Prog.within_true _).mono ?_ fun _ h => h
            rintro c - kind' ⟨⟩ hplain'
            rw [hplain] at hplain'
            cases hplain'
    | _ => exact (Prog.within_true _).mono (fun _ _ _ h => nomatch h) fun _ h => h

/-- Whoever hands over an authorization failure has raised the counter of errors
in the same segment. -/
theorem Reach.authFailed_raises {s s' : Sys} (h : Reach ok (Sys.init w) s) {t n : Nat}
    (hok : ok s (.resume (.task t))) (hs : s.next (.resume (.task t)) = some s')
    (htrace : s'.trace = .issued (.task t) (.exclusive (.authFailed n)) :: s.trace) :
    s'.vars.proxyErrorEpoch = s.vars.proxyErrorEpoch + 1 ∧ n = s'.vars.proxyErrorEpoch := by
  obtain ⟨subj, p, hslot, ⟨v, c, k, hp, rfl⟩ | ⟨v, r, hp, rfl⟩⟩ := Sys.resume_eq_some hs
  · obtain rfl : c = .exclusive (.authFailed n) := by simpa using htrace
    obtain ⟨kind, -, rfl⟩ := Sys.task_of_slot hslot
    obtain ⟨details, rfl⟩ := (h.step hok hs).awaits_authFailed (Sys.slot_suspend_self _ _ _ _ hslot)
    obtain ⟨x, ⟨-, -, hduring⟩, hmay⟩ :=
      historyOutline_coherent.calls h.challenges hslot ⟨details, rfl⟩ hp
    obtain ⟨hhere, hwrote, rfl⟩ := hmay n rfl
    obtain rfl := hduring.here hhere
    rw [Sys.suspend_vars]
    have hv : v.proxyErrorEpoch = x.now.vars.proxyErrorEpoch + 1 := by
      rw [hduring.vars, hwrote]
      rfl
    exact ⟨hv, hv.symm⟩
  · simp at htrace

/-- Equal counters: no authorization has failed. -/
theorem Later.no_authFailed {s₀ s : Sys} (hr : Reach ok (Sys.init w) s₀) (h : Later ok s₀ s)
    (he : s.vars.proxyErrorEpoch = s₀.vars.proxyErrorEpoch) {new : List Obs}
    (htrace : s.trace = new ++ s₀.trace) (t n : Nat) :
    Obs.issued (.task t) (.exclusive (.authFailed n)) ∉ new := by
  induction h generalizing new with
  | init =>
      obtain rfl : new = [] := by simpa using htrace
      simp
  | @step s₁ s₂ l h₁ hl hn ih =>
      obtain ⟨new₁, hpassed⟩ := Later.passed h₁
      obtain ⟨new₂, hpassed', hof⟩ := Sys.passed_next hn hl.2
      obtain rfl : new = new₂ ++ new₁ := by
        refine List.append_cancel_right (htrace.symm.trans ?_)
        rw [hpassed'.trace, hpassed.trace, List.append_assoc]
      have hraises := hpassed.raises
      have hraises' := hpassed'.raises
      rw [List.mem_append]
      rintro (hmem | hmem)
      · -- The segment that hands it over has raised the counter.
        obtain rfl : l = .resume (.task t) := hof _ hmem
        obtain ⟨o, hone, -⟩ := Sys.resume_trace hn
        have htrace' := hone.symm.trans hpassed'.trace
        obtain rfl : new₂ = [o] :=
          (List.append_cancel_right (show [o] ++ s₁.trace = new₂ ++ s₁.trace from htrace')).symm
        obtain rfl := List.mem_singleton.1 hmem
        have hraised := ((hr.later h₁).authFailed_raises hl.1 hn hone).1
        omega
      · exact ih (by omega) hpassed.trace hmem

/-! ### A check that succeeds -/

/-- What a check that ends with an address has established, in the state it
leaves. -/
structure Sys.IpChecked (s : Sys) (t : Nat) : Prop where
  idle : s.running = none
  /-- Since the request left, nobody else has held the queue, no effective setting
  has changed and no proxy error was raised. -/
  undisturbed : ∃ during before, s.trace = during ++ .issued (.task t) .fetch :: before ∧
    Obs.restarted ∉ during ∧ busy before = none ∧
    (∀ op owner, Obs.started op owner ∈ during → owner = some t) ∧
    Obs.settingChanged ∉ during ∧ (∀ stamp, Obs.errorRaised stamp ∉ during) ∧
    ∀ u n, Obs.issued (.task u) (.exclusive (.authFailed n)) ∉ during
  /-- The check has read the storage twice. What it read first is what is stored
  now, and the service is not excluded. -/
  stored : ∃ data data' l, readsOf (.task t) s.trace = [data', data] ∧
    s.world.storage.connection = data.connection ∧
    configuredExclusions data.toConfig = .ok l ∧
    configuredExclusions s.world.storage.toConfig = .ok l ∧
    isExcludedHost (js "api.ipify.org") l = false

/-- Whenever an IP check ends with an address, then since its request left no
other task of the queue has run or started, no effective setting has changed and
no proxy error was raised, and the stored connection and exclusions are the ones
that its first status was computed from. -/
theorem ip_check_undisturbed {s s' : Sys} {t : Nat} {ip : JsString}
    (h : Reach ok (Sys.init w) s) (hs : s.next (.resume (.task t)) = some s')
    (hkind : kindOf t s.trace = some (.message .testIp))
    (hend : s'.trace = .ended (.task t) (.ok (.ip ip)) :: s.trace) : s'.IpChecked t := by
  obtain ⟨subj, p, hslot, ⟨v, c, k, -, rfl⟩ | ⟨v, r, hp, rfl⟩⟩ := Sys.resume_eq_some hs
  · simp at hend
  · obtain ⟨kind, -, rfl⟩ := Sys.task_of_slot hslot
    obtain rfl : kind = .message .testIp := Option.some.inj ((h.kindOf hslot).symm.trans hkind)
    obtain rfl : r = .ok (.ip ip) := by simpa using hend
    obtain ⟨x, ⟨hme, -, hduring⟩, hpost⟩ :=
      historyOutline_coherent.finished h.ipChecks hslot (Or.inl rfl) hp
    obtain ⟨hhere, hidle, t', start, data, data', c, l, f, s₁, hme', hfetched, hissues, hlater, hreads,
      hown, hchanges, hraises, hexclusions⟩ := hpost.1 rfl ip rfl
    obtain rfl := hduring.here hhere
    obtain rfl : t' = t := Actor.task.inj (hme'.symm.trans hme)
    rw [hme] at hfetched hissues
    have hlater' : Later ok f x.now := hissues.later.trans hlater
    obtain ⟨new, hpassed⟩ := Later.passed hlater
    have htrace : x.now.trace = (new ++ [.issued (.task t') .fetch]) ++ f.trace := by
      rw [hpassed.trace, hissues.trace]
      simp
    obtain ⟨new', hpassed'⟩ := Later.passed hlater'
    obtain rfl : new' = new ++ [.issued (.task t') .fetch] :=
      List.append_cancel_right (hpassed'.trace.symm.trans htrace)
    refine ⟨hidle, ⟨.ended (.task t') (.ok (.ip ip)) :: new, f.trace, ?_, ?_, ?_, ?_, ?_, ?_, ?_⟩,
      data, data', l, ?_, ?_, ?_, hexclusions, hfetched.allowed⟩
    · rw [hend, htrace]
      simp
    · simpa using hpassed.alive
    · rw [hfetched.reach.busy, hfetched.idle]
      rfl
    · intro op owner hmem
      have hstarted : .started op owner ∈ new ++ [.issued (.task t') .fetch] := by simpa using hmem
      exact (hown.started hfetched.reach hfetched.idle hpassed' hstarted).1
    · have hnone := hpassed'.no_change hchanges
      simpa using hnone
    · intro stamp
      have hnone := hpassed'.no_raise hraises stamp
      simpa using hnone
    · intro u n
      have hnone := Later.no_authFailed hfetched.reach hlater' hraises hpassed'.trace u n
      simpa using hnone
    · rw [hend, readsOf_cons rfl, ← hme, hduring.reads, hreads]
      rfl
    · exact (Later.connection hfetched.reach hlater' hchanges (by rw [hfetched.regular])).trans
        hfetched.connection
    · exact (configured_eq_ok.1 hfetched.configured).2

end

section

attribute [local instance] Platform.ascii Browser.sample

/-- A callback ends with an address. -/
def Obs.isAddress : Obs → Bool
  | .ended _ (.ok (.ip _)) => true
  | _ => false

def TaskKind.isTestIp : TaskKind → Bool
  | .message .testIp => true
  | _ => false

/-- A worker that has started on an enabled configuration checks its address. -/
theorem ip_check_undisturbed_sample :
    ∃ s s' : Sys, s.next (.resume (.task 1)) = some s' ∧
      s'.trace.head?.any Obs.isAddress = true ∧ s'.IpChecked 1 := by
  obtain ⟨s, h, hQ⟩ := Reach.of_follow (fun _ _ => true) (World.sample (.free .system))
    (turns .boot 46 ++ [.resume .boot, .message (js "extension") .testIp, .dispatch 1] ++
      turns (.task 1) 15 ++ [.resume (.task 1), .land (.task 1) (.flag true),
        .resume (.task 1), .land (.task 1) (.text (some (js "192.0.2.1")))] ++ turns (.task 1) 15)
    (fun s => (kindOf 1 s.trace).any TaskKind.isTestIp = true ∧
      (s.next (.resume (.task 1))).any (fun s' => s'.trace.head?.any Obs.isAddress) = true)
    (by decide +kernel)
  obtain ⟨hkind, hnext⟩ := hQ
  obtain ⟨kind, hkind, htest⟩ := (Option.any_eq_true _ _).1 hkind
  obtain ⟨s', hs, haddress⟩ := (Option.any_eq_true _ _).1 hnext
  obtain rfl : kind = .message .testIp := by
    cases kind with
    | message m => cases m <;> first | rfl | cases htest
    | _ => cases htest
  obtain ⟨o, htrace, hof⟩ := Sys.resume_trace hs
  rw [htrace] at haddress
  obtain ⟨ip, rfl⟩ : ∃ ip, o = .ended (.task 1) (.ok (.ip ip)) := by
    cases o with
    | ended a r =>
        cases hof
        rcases r with e | (_ | _ | _ | ip | _) <;> first | exact ⟨ip, rfl⟩ | cases haddress
    | _ => cases haddress
  exact ⟨s, s', hs, by rw [htrace]; exact haddress, ip_check_undisturbed h hs hkind htrace⟩

end

end BrowserVpn
