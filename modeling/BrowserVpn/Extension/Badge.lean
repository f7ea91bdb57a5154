import BrowserVpn.Extension.Safety
import BrowserVpn.Extension.Standing
import BrowserVpn.Extension.Stored

/-!
# Extension.Badge — the badge whenever nobody is at work

The specifications of `Extension.Watch`, run over every interleaving. While a
task of the queue or `boot` is under way the badge may be wrong, but then a write
of it is due; between tasks it is right, or a change of a setting is pending, or
an error waits that finds a route wanted (`Sys.Fine`). So at rest the badge shows
what `status()` would, with one exception: `boot` may write `ON` over the error
that an early proxy error has stored in the meantime.
-/

namespace BrowserVpn

open Async

section

variable [Platform] [Browser] {ok : Rules} {w : World} {s s' : Sys} {l : Label}

/-! ## Errors that wait -/

/-- An error waits in the queue. -/
def Sys.Erring (s : Sys) : Prop := ∃ e ∈ s.queue, e.1.errs = true

/-- A function that raises no error and hands over none. -/
abbrev Calm {α : Type} (p : Js α) : Prop :=
  p.Within (fun _ => True) fun w : Write => w ≠ .proxyErrorEpoch

/-- Whether the counter of errors has moved in the present segment. Then the
segment ends with the authorization failure it hands over. -/
@[reducible] def raiseLogic : Logic api Bool where
  reads x _ x' := x' = x
  mayWrite _ _ := True
  write
    | .proxyErrorEpoch, _ => true
    | _, x => x
  mayCall c x := x = true → ∃ n, c = .exclusive (.authFailed n)
  issue _ _ := false
  replies _ x _ x' := x' = x

omit [Platform] [Browser] in
theorem Calm.raises {α : Type} {p : Js α} (hp : Calm p) :
    wp raiseLogic p (fun _ x => x = false) false := by
  refine wp_of_within _ (I := (· = false)) hp ?_ ?_ ?_ rfl
  · rintro _ v _ rfl rfl
    rfl
  · rintro w _ rfl hw
    refine ⟨trivial, ?_⟩
    cases w <;> first | rfl | exact absurd rfl hw
  · rintro c _ rfl -
    refine ⟨nofun, ?_⟩
    rintro r _ rfl
    rfl

omit [Browser] in
theorem calm_testIp : Calm testIp := by
  have hstatus : Calm (await status) := (asks_await asks_status).mono (fun _ _ => trivial) nofun
  refine .bind within_get fun start => .bind hstatus fun current => ?_
  refine .bind within_get fun v => .bind (within_ensure _ _) fun _ => ?_
  refine .bind (within_ensure _ _) fun _ => .bind (within_ensure _ _) fun _ => ?_
  refine .tryCatch ?_ fun _ => trivial
  refine .bind (within_chrome trivial) fun ok => .bind (within_ensure _ _) fun _ => ?_
  refine .bind (within_chrome trivial) fun body => .bind (within_lift _) fun ip => ?_
  refine .bind hstatus fun after => .bind within_get fun v => .bind (within_ensure _ _) fun _ => ?_
  refine .bind ?_ fun epoch => .bind within_get fun v => .bind (within_ensure _ _) fun _ => trivial
  rcases current.proxyError with _ | e
  · trivial
  · refine .bind (within_chrome trivial) fun r => ?_
    split <;> trivial

omit [Platform] [Browser] in
/-- Only a repeated challenge raises the counter, and hands over its failure. -/
theorem raises_releaseCredentials (details : AuthDetails) (c : Challenge) (expected : ProxyConfig)
    (setting : Setting ProxyConfig) (rtc : Setting WebRTCPolicy) :
    wp raiseLogic (releaseCredentials details c expected setting rtc) (fun _ x => x = false)
      false := by
  refine wp_get_bind ?_
  rintro v _ rfl
  split
  · rfl
  split
  · refine ⟨trivial, ?_⟩
    rintro v' _ rfl
    refine ⟨fun _ => ⟨_, rfl⟩, ?_⟩
    rintro r _ rfl
    cases r <;> rfl
  · exact ⟨trivial, rfl⟩

theorem raises_onAuthRequired (details : AuthDetails) :
    wp raiseLogic (onAuthRequired details) (fun _ x => x = false) false := by
  have hcalm : ∀ {α β : Type} {p : Js α} {f : α → Js β}, Calm p →
      (∀ a, wp raiseLogic (f a) (fun _ x => x = false) false) →
      wp raiseLogic (p >>= f) (fun _ x => x = false) false := by
    intro α β p f hp hf
    refine wp_bind _ hp.raises ?_ fun _ _ h => h
    rintro a _ rfl
    exact hf a
  have hasks : ∀ {α : Type} {p : Js α}, Asks p → Calm p :=
    fun {_ _} hp => hp.mono (fun _ _ => trivial) nofun
  refine hcalm ?_ fun first => ?_
  · refine .tryCatch (.bind within_get fun start => within_ite trivial ?_) fun _ => trivial
    exact .bind (hasks (asks_await asks_stored)) fun data => within_lift _
  · cases first with
    | inl answer => rfl
    | inr c =>
        refine wp_tryCatch _ (M := fun _ x => x = false) ?_ (fun _ _ h => h) fun _ _ h => h
        refine hcalm ?_ fun incognito => ?_
        · unfold requestIncognito
          split
          · exact within_chrome trivial
          · trivial
          · trivial
        · rcases incognito with _ | incognito
          · rfl
          · refine hcalm (within_lift _) fun exclusions => hcalm (within_lift _) fun expected => ?_
            refine hcalm (within_await ?_ trivial) fun ⟨setting, rtc⟩ => ?_
            · refine .bind (within_chrome trivial) fun first => within_ite ?_ ?_
              · exact .bind (within_chrome trivial) fun _ => .bind (within_chrome trivial)
                  fun _ => trivial
              · exact .bind (within_chrome trivial) fun _ => .bind (within_chrome trivial)
                  fun _ => trivial
            · exact raises_releaseCredentials _ _ _ _ _

theorem raises_body (kind : TaskKind) :
    wp raiseLogic kind.body (fun _ x => x = false) false := by
  have hchrome : ∀ op, Calm (chrome (.exclusive op)) := fun op => within_chrome trivial
  cases kind with
  | message m =>
      cases m with
      | getState =>
          exact Calm.raises (.map (asks_status.mono (fun _ _ => trivial) nofun) _)
      | testIp => exact Calm.raises (.map calm_testIp _)
      | other => rfl
      | _ => exact (hchrome _).raises
  | challenge details =>
      refine wp_map _ (wp_mono _ (raises_onAuthRequired details) ?_)
      exact fun _ _ h => h
  | proxyChanged => exact (hchrome _).raises
  | webRTCChanged => exact (hchrome _).raises

/-- The outline of the callbacks that raise errors. -/
@[reducible] def raiseOutline : Outline where
  View := Bool
  logic := raiseLogic
  covers subj := ∃ kind, subj = .task kind
  At _ _ x _ := x = false
  post _ _ x := x = false
  In _ _ x s v := x = true ∨ v.proxyErrorEpoch = s.vars.proxyErrorEpoch

omit [Platform] [Browser] in
theorem raiseOutline_coherent : raiseOutline.Coherent where
  enters _ _ _ := Or.inr rfl
  reads _ _ hx := ⟨_, rfl, hx⟩
  writes {s a subj p x v w} _ _ _ hx := by
    cases w with
    | proxyErrorEpoch => exact Or.inl rfl
    | _ => exact hx

theorem raiseOutline_correct (ok : Rules) :
    raiseOutline.Correct ok (fun _ => True) fun _ => True where
  toCoherent := raiseOutline_coherent
  frame _ _ _ _ _ _ _ _ _ _ _ hx := hx
  restarted _ _ _ := by rintro ⟨kind, ⟨⟩⟩
  entered _ _ _ _ _ _ := by rintro ⟨kind, ⟨⟩⟩
  dispatched _ _ _ _ _ _ := ⟨false, rfl, raises_body _⟩
  answered _ _ _ _ _ _ _ _ hx := ⟨_, rfl, hx⟩
  suspended _ _ _ _ _ _ _ _ _ _ := rfl
  settled _ _ _ _ _ _ _ _ _ _ hx := ⟨_, rfl, hx⟩
  keeps _ _ _ _ _ _ := trivial

/-- A callback that moves the counter of errors leaves one in the queue. -/
theorem Reach.raises_task (h : Reach ok (Sys.init w) s) {t : Nat}
    (hs : s.next (.resume (.task t)) = some s') :
    s'.vars.proxyErrorEpoch = s.vars.proxyErrorEpoch ∨ s'.Erring := by
  have hsound : raiseOutline.Sound s := by
    refine ((raiseOutline_correct ok).reach (Outline.sound_init ?_) trivial (fun _ => trivial) h).1
    rintro ⟨kind, ⟨⟩⟩
  obtain ⟨subj, p, hslot, ⟨v, c, k, hp, rfl⟩ | ⟨v, r, hp, rfl⟩⟩ := Sys.resume_eq_some hs
  · obtain ⟨kind, -, rfl⟩ := Sys.task_of_slot hslot
    obtain ⟨x, hx, hmay⟩ := raiseOutline_coherent.calls hsound hslot ⟨kind, rfl⟩ hp
    rcases hx with rfl | hx
    · obtain ⟨n, rfl⟩ := hmay rfl
      right
      exact ⟨(.authFailed n, some t), by simp [Sys.enqueued], rfl⟩
    · left
      simpa using hx
  · obtain ⟨kind, -, rfl⟩ := Sys.task_of_slot hslot
    obtain ⟨x, hx, rfl⟩ := raiseOutline_coherent.finished hsound hslot ⟨kind, rfl⟩ hp
    left
    simpa [Sys.finish] using hx

/-! ## What a step does to what is pending -/

omit [Platform] [Browser] in
theorem Sys.Pending.mono {P Q : Op → Bool} (h : s.Pending P) (hPQ : ∀ op, P op = true → Q op = true) :
    s.Pending Q := by
  rcases h with ⟨task, hmem, hp⟩ | ⟨e, hmem, hp⟩
  · refine Or.inl ⟨task, hmem, ?_⟩
    unfold Task.pends at hp ⊢
    split
    · rename_i hphase
      simp only [hphase] at hp
      obtain ⟨op, hop, hp⟩ := (Option.any_eq_true P _).1 hp
      simp [hop, hPQ op hp]
    · rename_i hphase
      simp only [hphase] at hp
      exact hPQ _ hp
    · split at hp
      · exact absurd ‹_› ‹task.phase = .parked → False›
      · exact (‹∀ op k, task.phase = _ → False› _ _ ‹_›).elim
      · cases hp
  · exact Or.inr ⟨e, hmem, hPQ _ hp⟩

/-- A change of a setting is pending. -/
def Sys.Changing (s : Sys) : Prop := s.Pending Op.changes

omit [Platform] [Browser] in
/-- A move of the browser that leaves no change pending changes nothing. -/
theorem Sys.move_calm (s : Sys) (w : World) (h : ¬ (s.move w).Changing) :
    w.proxy.effective = s.world.proxy.effective ∧ w.webRTC.effective = s.world.webRTC.effective ∧
      (s.move w).vars = s.vars := by
  have hproxy : s.world.proxy.differs w.proxy = false := by
    cases hd : s.world.proxy.differs w.proxy with
    | false => rfl
    | true =>
        refine absurd (Or.inl ⟨⟨.proxyChanged, .parked⟩, ?_, rfl⟩) h
        simp only [move, hd]
        split <;> simp
  have hwebRTC : s.world.webRTC.differs w.webRTC = false := by
    cases hd : s.world.webRTC.differs w.webRTC with
    | false => rfl
    | true =>
        refine absurd (Or.inl ⟨⟨.webRTCChanged, .parked⟩, ?_, rfl⟩) h
        simp [move, hd]
  refine ⟨ChromeSetting.effective_of_not_differs hproxy,
    ChromeSetting.effective_of_not_differs hwebRTC, ?_⟩
  simp [move, hproxy, hwebRTC]

/-- A step after which no change is pending has changed no effective setting. -/
theorem Sys.calm_next (hs : s.next l = some s') (hl : l ≠ .restart) (h : ¬ s'.Changing) :
    s'.world.proxy.effective = s.world.proxy.effective ∧
      s'.world.webRTC.effective = s.world.webRTC.effective ∧
      s'.vars.browserSettingEpoch = s.vars.browserSettingEpoch := by
  suffices he : s'.vars.browserSettingEpoch = s.vars.browserSettingEpoch by
    obtain ⟨hproxy, hwebRTC⟩ := Sys.effective_next hs he
    exact ⟨hproxy, hwebRTC, he⟩
  cases l with
  | restart => exact absurd rfl hl
  | others proxy webRTC =>
      obtain rfl := Option.some.inj hs
      rw [(s.move_calm _ h).2.2]
  | land a o =>
      obtain ⟨subj, c, k, r, w, hslot, -, rfl⟩ := land_eq_some hs
      -- A parked event survives the parking of the thread.
      have hmove : ¬ (s.move w).Changing := by
        intro hp
        refine h (Pending.park hp a (.ready (k r)) ?_)
        rintro t task rfl htask
        obtain ⟨kind, ht, -⟩ := task_of_slot ((slot_move s w _).trans hslot)
        obtain rfl := Option.some.inj (ht.symm.trans htask)
        rfl
      rw [answer_vars, (s.move_calm w hmove).2.2]
  | resume a =>
      obtain ⟨new, hpassed, hof⟩ := passed_next hs hl
      have hzero : new.countP Obs.changes = 0 := by
        rw [List.countP_eq_zero]
        intro o ho
        have hlabel := hof o ho
        rintro hchanges
        cases o <;> simp [Obs.changes, Obs.Of] at hchanges hlabel
      rw [hpassed.changes, hzero, Nat.add_zero]
  | message sender m =>
      obtain rfl := Option.some.inj hs
      split <;> rfl
  | challenge details =>
      obtain rfl := Option.some.inj hs
      unfold onChallenge
      split <;> rfl
  | requestDone id => exact Option.some.inj hs ▸ rfl
  | proxyError details => exact Option.some.inj hs ▸ rfl
  | clock now => exact Option.some.inj hs ▸ rfl
  | dispatch t =>
      obtain ⟨kind, -, -, rfl⟩ := dispatch_eq_some hs
      simp
  | start =>
      obtain ⟨op, owner, rest, -, -, rfl⟩ := startOp_eq_some hs
      rfl

/-- Only the start of a task takes from the queue. -/
theorem Sys.queue_next (hs : s.next l = some s') (hl : l ≠ .restart) (hstart : l ≠ .start) :
    ∃ new, s'.queue = s.queue ++ new := by
  have hsame : ∀ {s'' : Sys}, s''.queue = s.queue → ∃ new, s''.queue = s.queue ++ new :=
    fun h => ⟨[], by rw [h, List.append_nil]⟩
  cases l with
  | restart => exact absurd rfl hl
  | start => exact absurd rfl hstart
  | message sender m =>
      obtain rfl := Option.some.inj hs
      split <;> exact hsame rfl
  | challenge details =>
      obtain rfl := Option.some.inj hs
      unfold onChallenge
      split <;> exact hsame rfl
  | requestDone id => exact Option.some.inj hs ▸ hsame rfl
  | proxyError details => exact Option.some.inj hs ▸ ⟨_, rfl⟩
  | others proxy webRTC => exact Option.some.inj hs ▸ hsame (move_queue _ _)
  | clock now => exact Option.some.inj hs ▸ hsame rfl
  | dispatch t =>
      obtain ⟨kind, -, -, rfl⟩ := dispatch_eq_some hs
      exact hsame (by simp)
  | land a o =>
      obtain ⟨subj, c, k, r, w, -, -, rfl⟩ := land_eq_some hs
      exact hsame (by simp)
  | resume a =>
      obtain ⟨subj, p, -, ⟨v, c, k, -, rfl⟩ | ⟨v, r, -, rfl⟩⟩ := resume_eq_some hs
      · exact ⟨_, suspend_queue ..⟩
      · exact hsame (finish_queue ..)

theorem Sys.Erring.next (h : s.Erring) (hs : s.next l = some s') (hl : l ≠ .restart)
    (hstart : l ≠ .start) : s'.Erring := by
  obtain ⟨e, hmem, he⟩ := h
  obtain ⟨new, hqueue⟩ := Sys.queue_next hs hl hstart
  exact ⟨e, by rw [hqueue]; exact List.mem_append_left _ hmem, he⟩

/-- Where `boot` and the queue stand still, a counter of errors that moves leaves
an error in the queue. -/
theorem Reach.errors_next (h : Reach ok (Sys.init w) s) (hs : s.next l = some s')
    (hl : l ≠ .restart) (hop : l ≠ .resume .op) (hboot : l ≠ .resume .boot) :
    s'.vars.proxyErrorEpoch = s.vars.proxyErrorEpoch ∨ s'.Erring := by
  cases l with
  | restart => exact absurd rfl hl
  | resume a =>
      cases a with
      | boot => exact absurd rfl hboot
      | op => exact absurd rfl hop
      | task t => exact h.raises_task hs
  | proxyError details =>
      obtain rfl := Option.some.inj hs
      right
      exact ⟨(.proxyError details (s.vars.proxyErrorEpoch + 1), none), by simp, rfl⟩
  | message sender m =>
      obtain rfl := Option.some.inj hs
      left
      split <;> rfl
  | challenge details =>
      obtain rfl := Option.some.inj hs
      left
      unfold Sys.onChallenge
      split <;> rfl
  | requestDone id => exact Option.some.inj hs ▸ Or.inl rfl
  | clock now => exact Option.some.inj hs ▸ Or.inl rfl
  | others proxy webRTC =>
      obtain rfl := Option.some.inj hs
      obtain ⟨n, -, hv⟩ := s.move_vars { s.world with
        proxy := { s.world.proxy with others := proxy }
        webRTC := { s.world.webRTC with others := webRTC } }
      left
      rw [hv]
  | dispatch t =>
      obtain ⟨kind, -, -, rfl⟩ := Sys.dispatch_eq_some hs
      left
      simp
  | start =>
      obtain ⟨op, owner, rest, -, -, rfl⟩ := Sys.startOp_eq_some hs
      exact Or.inl rfl
  | land a o =>
      obtain ⟨subj, c, k, r, w', -, -, rfl⟩ := Sys.land_eq_some hs
      obtain ⟨n, -, hv⟩ := s.move_vars w'
      left
      rw [Sys.answer_vars, hv]

/-! ## What a view says -/

/-- Since the worker has started, `boot` has written the badge. -/
def greeted : List Obs → Bool
  | [] => false
  | .restarted :: _ => false
  | .landed .boot (.setBadgeText _) _ :: _ => true
  | _ :: trace => greeted trace

/-- Every call succeeds. -/
def Rules.Succeeds (ok : Rules) : Prop :=
  ∀ s a o, ok s (.land a o) → o ≠ .ignored ∧ ∀ message, o ≠ .rejected message

/-- `boot` does not write `ON` over a stored error. -/
def Rules.HeedsErrors (ok : Rules) : Prop :=
  ∀ s o k, ok s (.land .boot o) → s.slot .boot = some (.boot, .awaiting (.setBadgeText .on) k) →
    s.world.storage.proxyError = none

/-- The badge shows the state there is to show. In runs that `P` does not select
it may be `ON` over a stored error. -/
def World.Fits (P : Prop) (w : World) : Prop :=
  w.badge = badgeOf w.shown ∨
    ¬ P ∧ w.badge = .on ∧ w.shown = .error ∧ w.storage.gist.failed = true

/-- The badge is right, or `boot` or an error that waits will write it. -/
def Sys.Fine (P : Prop) (s : Sys) : Prop :=
  (s.boot.isSome = true ∧ greeted s.trace = false) ∨ s.world.Fits P ∨
    (s.world.storage.gist.enabled = true ∧ s.Erring)

namespace Watch

/-- What a view of a task says about a state. -/
structure OfOp (P : Prop) (subj : Subject) (x : Watch) (s : Sys) : Prop where
  alone : x.alone = true
  gist : s.world.storage.gist = x.gist
  due : x.due = false → s.Fine P
  erring : x.erring = true → s.Erring
  check : x.counted = true → ∃ check, subj = .op (.clearError check)
  counted : x.counted = true → s.vars.configurationEpoch = x.epoch ∧
    s.vars.browserSettingEpoch = x.settingEpoch ∧
    (s.vars.proxyErrorEpoch = x.errorEpoch ∨ s.Erring)

/-- What a view of `boot` says: an early proxy error may have come since. -/
structure OfBoot (x : Watch) (s : Sys) : Prop where
  alone : x.alone = false
  counted : x.counted = false
  config : x.world.storage.toConfig = s.world.storage.toConfig
  error : x.world.storage.proxyError ≠ none → s.world.storage.proxyError ≠ none
  due : x.due = !greeted s.trace

/-- What a view of an actor says. -/
def Of (P : Prop) : Actor → Subject → Watch → Sys → Prop
  | .op, subj, x, s => x.OfOp P subj s
  | .boot, _, x, s => x.OfBoot s
  | .task _, _, _, _ => False

/-- The view has the settings there are, and the awaited call is in its place. -/
structure Sees (P : Prop) (a : Actor) (subj : Subject) (x : Watch) (s : Sys) : Prop where
  proxy : s.world.proxy.effective = x.world.proxy.effective
  webRTC : s.world.webRTC.effective = x.world.webRTC.effective
  of : x.Of P a subj s
  call : ∀ c k, s.slot a = some (subj, .awaiting c k) → x.may c

/-- What a function that has settled leaves. -/
def Done (x : Watch) : Subject → Prop
  | .boot => x.due = false
  | _ => x.Settled

end Watch

/-- The outline of the badge. -/
@[reducible] def badgeOutline (P : Prop) : Outline where
  View := Option Watch
  logic := watchLogic
  covers subj := ∀ kind, subj ≠ .task kind
  At a subj y s := s.Changing ∨ ∃ x, y = some x ∧ x.Sees P a subj s
  post subj _ y := ∀ x, y = some x → x.Done subj

/-- Between two tasks the badge is fine, unless a change is pending. -/
def BadgeIdle (P : Prop) (s : Sys) : Prop := s.running = none → s.Changing ∨ s.Fine P

variable {P : Prop}

/-! ## What keeps the badge fine -/

theorem shown_congr {w w' : World} (hgist : w'.storage.gist = w.storage.gist)
    (hproxy : w'.proxy.effective = w.proxy.effective)
    (hwebRTC : w'.webRTC.effective = w.webRTC.effective) : w'.shown = w.shown := by
  unfold World.shown
  rw [hproxy, hwebRTC]
  exact state_of_gist hgist _ _

theorem Sys.Fine.keep (h : s.Fine P)
    (hboot : s.boot.isSome = true → greeted s.trace = false →
      s'.boot.isSome = true ∧ greeted s'.trace = false)
    (hbadge : s'.world.badge = s.world.badge)
    (hgist : s'.world.storage.gist = s.world.storage.gist)
    (hproxy : s'.world.proxy.effective = s.world.proxy.effective)
    (hwebRTC : s'.world.webRTC.effective = s.world.webRTC.effective)
    (herring : s.world.storage.gist.enabled = true → s.Erring → s'.Erring) : s'.Fine P := by
  have hshown := shown_congr hgist hproxy hwebRTC
  rcases h with ⟨hsome, hgreeted⟩ | hfits | ⟨henabled, herr⟩
  · exact Or.inl (hboot hsome hgreeted)
  · right; left
    rcases hfits with hright | ⟨hP, hon, herror, hfailed⟩
    · left
      rw [hbadge, hshown]
      exact hright
    · right
      exact ⟨hP, hbadge.trans hon, hshown.trans herror, by rw [hgist]; exact hfailed⟩
  · right; right
    exact ⟨by rw [hgist]; exact henabled, herring henabled herr⟩

omit [Platform] [Browser] in
theorem greeted_landed {a : Actor} {c : Call} {r : Except String (Reply c)} {trace : List Obs}
    (h : a = .boot → ∀ text, c ≠ .setBadgeText text) :
    greeted (.landed a c r :: trace) = greeted trace := by
  cases a with
  | boot =>
      cases c with
      | setBadgeText text => exact absurd rfl (h rfl text)
      | _ => rfl
  | op => rfl
  | task t => rfl

omit [Platform] [Browser] in
theorem greeted_move (s : Sys) (w : World) : greeted (s.move w).trace = greeted s.trace := by
  obtain ⟨new, htrace, hnew⟩ := s.move_trace w
  rw [htrace]
  exact Sys.reading_next fun o ho t => by rw [hnew o ho]; rfl

/-- Only a landing of `boot` greets. -/
theorem greeted_next (hs : s.next l = some s') (hl : l ≠ .restart) (hland : ∀ a o, l ≠ .land a o) :
    greeted s'.trace = greeted s.trace := by
  obtain ⟨new, htrace, hof⟩ := Sys.trace_next hs
  rw [htrace]
  refine Sys.reading_next fun o ho t => ?_
  have hlabel := hof o ho
  cases o with
  | restarted => exact absurd hlabel hl
  | landed a c r =>
      obtain ⟨out, he⟩ := hlabel
      exact absurd he (hland a out)
  | _ => rfl

omit [Platform] in
/-- A call about the settings succeeds and leaves the storage and the badge. -/
theorem World.land_tunes {w w' : World} {c : Call} {o : Outcome} {r : Except String (Reply c)}
    (h : w.land c o = some (r, w')) (hc : c.tunes = true)
    (ho : o ≠ .ignored ∧ ∀ message, o ≠ .rejected message) :
    r = w.reply c ∧ w'.storage = w.storage ∧ w'.badge = w.badge := by
  cases o with
  | ignored => exact absurd rfl ho.1
  | rejected message => exact absurd rfl (ho.2 message)
  | done =>
      refine ⟨by rw [World.reply, h], ?_⟩
      cases c with
      | proxyGet _ | proxySet _ | proxyClear | webRTCGet _ | webRTCSet _ | webRTCClear
      | isAllowedIncognitoAccess | setAccessLevel | setBadgeBackgroundColor _ | tick =>
          simp only [World.land, Option.some.injEq, Prod.mk.injEq] at h
          obtain ⟨-, rfl⟩ := h
          exact ⟨rfl, rfl⟩
      | _ => cases hc
  | flag b => cases c <;> first | (cases h; done) | cases hc
  | text ip => cases c <;> first | (cases h; done) | cases hc

omit [Platform] in
/-- Equal settings give equal answers about the settings. -/
theorem reply_congr {w w' : World} {c : Call} (hc : c.tunes = true)
    (hproxy : w.proxy.effective = w'.proxy.effective)
    (hwebRTC : w.webRTC.effective = w'.webRTC.effective) : w.reply c = w'.reply c := by
  cases c with
  | proxyGet incognito => simp [World.reply, World.land, hproxy]
  | webRTCGet incognito => simp [World.reply, World.land, hwebRTC]
  | _ => first | rfl | cases hc

/-- Where `boot` writes the badge it fits. -/
theorem fits_boot (hP : P → ok.HeedsErrors) {o : Outcome} (hok : ok s (.land .boot o)) {text : BadgeText}
    {k : Except String Unit → Js Result}
    (hslot : s.slot .boot = some (.boot, .awaiting (.setBadgeText text) k)) {x : Watch}
    (hx : x.Sees P .boot .boot s) : World.Fits P { s.world with badge := text } := by
  have htext : text = badgeOf x.world.shown := hx.call _ _ hslot
  have hof : x.OfBoot s := hx.of
  have hstate := state_of_error hof.config hof.error s.world.proxy.effective
    s.world.webRTC.effective
  have hshown : x.world.shown =
      (statusOf x.world.storage s.world.proxy.effective s.world.webRTC.effective).state := by
    unfold World.shown
    rw [hx.proxy, hx.webRTC]
  rcases hstate with hsame | ⟨hactive, herror, hfailed⟩
  · left
    exact htext.trans (by rw [hshown, ← hsame]; rfl)
  · -- The error that has come is stored, and the badge says `ON`.
    obtain rfl : text = .on := htext.trans (by rw [hshown, hactive]; rfl)
    right
    refine ⟨fun hp => ?_, rfl, herror, hfailed⟩
    have hstored := proxyError_of_failed hfailed
    rw [hP hp s o k hok hslot] at hstored
    cases hstored

/-- Where the queue stands still and no change is pending, a landing leaves the
gist of the storage, and the badge unless it fits. -/
theorem Reach.calm_land (h : Reach ok (Sys.init w) s) (hsound : (badgeOutline P).Sound s)
    (hsucceeds : ok.Succeeds) (hP : P → ok.HeedsErrors) {a : Actor} {o : Outcome} {subj : Subject}
    {c : Call} {k : Except String (Reply c) → Js Result} {r : Except String (Reply c)} {w' : World}
    (hok : ok s (.land a o)) (hcalm : ¬ s.Changing) (ha : a ≠ .op)
    (hslot : s.slot a = some (subj, .awaiting c k)) (hw : s.world.land c o = some (r, w')) :
    w'.storage.gist = s.world.storage.gist ∧
      (w'.badge = s.world.badge ∧ (a = .boot → ∀ text, c ≠ .setBadgeText text) ∨ w'.Fits P) := by
  have hout := hsucceeds s a o hok
  cases a with
  | op => exact absurd rfl ha
  | task t =>
      obtain ⟨kind, -, rfl⟩ := Sys.task_of_slot hslot
      rw [World.land_inspects hw (h.disciplined.calls hslot)]
      exact ⟨rfl, Or.inl ⟨rfl, by simp⟩⟩
  | boot =>
      obtain ⟨rfl, -⟩ := Sys.slot_boot hslot
      obtain ⟨y, hy, -⟩ := hsound.awaiting hslot (by simp)
      obtain ⟨x, rfl, hx⟩ := hy.resolve_left hcalm
      have hof : x.OfBoot s := hx.of
      have hmay := hx.call _ _ hslot
      have htunes : c.tunes = true → w'.storage.gist = s.world.storage.gist ∧
          (w'.badge = s.world.badge ∧ (Actor.boot = .boot → ∀ text, c ≠ .setBadgeText text) ∨
            w'.Fits P) := by
        intro hc
        obtain ⟨-, hstorage, hbadge⟩ := World.land_tunes hw hc hout
        refine ⟨by rw [hstorage], Or.inl ⟨hbadge, ?_⟩⟩
        rintro - text rfl
        cases hc
      cases c with
      | storageGet =>
          rw [World.land_inspects hw rfl]
          exact ⟨rfl, Or.inl ⟨rfl, by simp⟩⟩
      | storageSet p =>
          obtain ⟨-, rfl, hvoid⟩ := hmay hof.alone
          have hvoid' : s.world.storage.gist.void = true := (void_congr hof.config).symm.trans hvoid
          cases o <;> simp only [World.land, Option.some.injEq, Prod.mk.injEq, reduceCtorEq] at hw <;>
            obtain ⟨-, rfl⟩ := hw
          · exact ⟨gist_disable hvoid', Or.inl ⟨rfl, by simp⟩⟩
          · exact ⟨rfl, Or.inl ⟨rfl, by simp⟩⟩
      | storageRemove =>
          have halone : x.alone = true := hmay
          rw [hof.alone] at halone
          cases halone
      | setBadgeText text =>
          cases o with
          | done =>
              obtain ⟨-, rfl⟩ : _ ∧ { s.world with badge := text } = w' := by
                simpa [World.land] using hw
              exact ⟨rfl, Or.inr (fits_boot hP hok hslot hx)⟩
          | ignored => exact absurd rfl hout.1
          | rejected message => exact absurd rfl (hout.2 message)
          | flag b => cases hw
          | text ip => cases hw
      | tabsGet id => exact hmay.elim
      | fetch => exact hmay.elim
      | json => exact hmay.elim
      | exclusive op => exact hmay.elim
      | order => exact hmay.elim
      | _ => exact htunes rfl

/-! ## Segments -/

theorem badgeOutline_coherent : (badgeOutline P).Coherent where
  enters _ _ hx := hx
  reads {s a subj p y v} _ _ hy := by
    rcases hy with hchanging | ⟨x, rfl, hx⟩
    · exact ⟨none, Or.inl rfl, Or.inl hchanging⟩
    -- An error is heard where the counter has moved.
    let b := x.counted && decide (v.proxyErrorEpoch ≠ x.errorEpoch)
    have hcall : ∀ c k, ({ s with vars := v } : Sys).slot a = some (subj, .awaiting c k) →
        (x.hears b).may c := hx.call
    cases a with
    | task t => exact hx.of.elim
    | boot =>
        have hof : x.OfBoot { s with vars := v } := hx.of
        have hb : b = false := by simp [b, hof.counted]
        refine ⟨some (x.hears b), Or.inr ⟨x, _, rfl, rfl, b, rfl, fun hc => ?_⟩, Or.inr ⟨_, rfl, ?_⟩⟩
        · rw [hof.counted] at hc
          cases hc
        · exact ⟨hx.proxy, hx.webRTC,
            ⟨hof.alone, hof.counted, hof.config, hof.error, hof.due⟩, hcall⟩
    | op =>
        have hof : x.OfOp P subj { s with vars := v } := hx.of
        refine ⟨some (x.hears b), Or.inr ⟨x, _, rfl, rfl, b, rfl, fun hc => ?_⟩, Or.inr ⟨_, rfl, ?_⟩⟩
        · obtain ⟨hepoch, hsetting, -⟩ := hof.counted hc
          exact ⟨hepoch, hsetting, fun hb => by simpa [b, hc] using hb⟩
        · refine ⟨hx.proxy, hx.webRTC, ⟨hof.alone, hof.gist, hof.due, ?_, hof.check, hof.counted⟩,
            hcall⟩
          intro herring
          rcases Bool.or_eq_true_iff.1 herring with he | hb
          · exact hof.erring he
          · obtain ⟨hc, hne⟩ := Bool.and_eq_true_iff.1 hb
            exact (hof.counted hc).2.2.resolve_left (of_decide_eq_true hne)
  writes {s a subj p y v w} _ _ hw hy := by
    rcases hy with hchanging | ⟨x, rfl, hx⟩
    · exact Or.inl hchanging
    have hne := hw x rfl
    refine Or.inr ⟨x, rfl, hx.proxy, hx.webRTC, ?_, hx.call⟩
    cases a with
    | task t => exact hx.of.elim
    | boot =>
        have hof : x.OfBoot { s with vars := v } := hx.of
        exact ⟨hof.alone, hof.counted, hof.config, hof.error, hof.due⟩
    | op =>
        have hof : x.OfOp P subj { s with vars := v } := hx.of
        refine ⟨hof.alone, hof.gist, hof.due, hof.erring, hof.check, fun hc => ?_⟩
        cases w with
        | proxyErrorEpoch => exact absurd rfl hne
        | _ => exact hof.counted hc

/-- While `boot` has not written the badge it goes on. -/
theorem greeting_next (hsound : (badgeOutline P).Sound s) (hs : s.next l = some s')
    (hl : l ≠ .restart) (hcalm : ¬ s.Changing) (hboot : s.boot.isSome = true)
    (hgreeted : greeted s.trace = false) : s'.boot.isSome = true := by
  obtain ⟨thread, hthread⟩ := Option.isSome_iff_exists.1 hboot
  have hslot : s.slot .boot = some (.boot, thread) := by simp [Sys.slot, hthread]
  by_cases ha : l.actor = some .boot
  · cases l with
    | land a o =>
        obtain rfl : a = .boot := by simpa [Label.actor] using ha
        obtain ⟨subj, c, k, r, w', -, -, rfl⟩ := Sys.land_eq_some hs
        rfl
    | resume a =>
        obtain rfl : a = .boot := by simpa [Label.actor] using ha
        obtain ⟨subj, p, hslot', ⟨v, c, k, -, rfl⟩ | ⟨v, r, hp, rfl⟩⟩ := Sys.resume_eq_some hs
        · rfl
        · -- A `boot` that is done has written the badge.
          obtain ⟨rfl, -⟩ := Sys.slot_boot hslot'
          obtain ⟨y, hy, hpost⟩ := badgeOutline_coherent.finished hsound hslot' (by simp) hp
          obtain ⟨x, rfl, hx⟩ := hy.resolve_left hcalm
          have hof : x.OfBoot { s with vars := v } := hx.of
          have hdue : x.due = false := hpost x rfl
          have hnot := hof.due
          rw [hdue] at hnot
          simp [hgreeted] at hnot
    | _ => cases ha
  · rcases Sys.slot_next hs hslot ha hl with h | ⟨op, t, p, v, r, -, he, -⟩
    · exact (Sys.slot_boot h).2
    · cases he

/-- Where the queue stands still and no change is pending, the gist stays and a
badge that is fine stays so. -/
theorem Reach.fine_next (h : Reach ok (Sys.init w) s) (hsound : (badgeOutline P).Sound s)
    (hsucceeds : ok.Succeeds) (hP : P → ok.HeedsErrors) (hok : ok s l) (hs : s.next l = some s')
    (hl : l ≠ .restart) (hstart : l ≠ .start) (hop : l.actor ≠ some .op) (hcalm : ¬ s.Changing)
    (hcalm' : ¬ s'.Changing) :
    s'.world.storage.gist = s.world.storage.gist ∧ (s.Fine P → s'.Fine P) := by
  obtain ⟨hproxy, hwebRTC, -⟩ := Sys.calm_next hs hl hcalm'
  have herring : s.world.storage.gist.enabled = true → s.Erring → s'.Erring :=
    fun _ he => he.next hs hl hstart
  have hboot : s.boot.isSome = true → greeted s.trace = false → s'.boot.isSome = true :=
    greeting_next hsound hs hl hcalm
  by_cases hland : ∃ a o, l = .land a o
  · obtain ⟨a, o, rfl⟩ := hland
    have ha : a ≠ .op := by
      rintro rfl
      exact hop rfl
    obtain ⟨subj, c, k, r, w', hslot, hw, rfl⟩ := Sys.land_eq_some hs
    rw [Sys.answer_world] at hproxy hwebRTC ⊢
    obtain ⟨hgist, ⟨hbadge, hnone⟩ | hfits⟩ := h.calm_land hsound hsucceeds hP hok hcalm ha hslot hw
    · refine ⟨hgist, fun hfine => ?_⟩
      refine hfine.keep (fun hsome hg => ⟨hboot hsome hg, ?_⟩) ?_ ?_ ?_ ?_ herring
      · rw [Sys.answer_trace, greeted_landed hnone, greeted_move]
        exact hg
      · rw [Sys.answer_world, hbadge]
      · rw [Sys.answer_world, hgist]
      · rw [Sys.answer_world, hproxy]
      · rw [Sys.answer_world, hwebRTC]
    · refine ⟨hgist, fun _ => Or.inr (Or.inl ?_)⟩
      rw [Sys.answer_world]
      exact hfits
  · have hland' : ∀ a o, l ≠ .land a o := fun a o he => hland ⟨a, o, he⟩
    obtain ⟨hstorage, hbadge⟩ := Sys.world_next hs hland'
    refine ⟨by rw [hstorage], fun hfine => ?_⟩
    refine hfine.keep (fun hsome hg => ⟨hboot hsome hg, ?_⟩) hbadge (by rw [hstorage]) hproxy hwebRTC
      herring
    rw [greeted_next hs hl hland']
    exact hg

/-! ## Steps of others -/

/-- Only the start of a task moves the counter of tasks. -/
theorem Sys.epoch_next (hs : s.next l = some s') (hl : l ≠ .restart) (hstart : l ≠ .start) :
    s'.vars.configurationEpoch = s.vars.configurationEpoch := by
  obtain ⟨new, hpassed, hof⟩ := Sys.passed_next hs hl
  have hzero : new.countP Obs.starts = 0 := by
    rw [List.countP_eq_zero]
    intro o ho hstarts
    have hlabel := hof o ho
    cases o with
    | started op owner => exact hstart hlabel
    | _ => cases hstarts
  rw [hpassed.starts, hzero, Nat.add_zero]

/-- A change that is pending stays so while `boot` or a task of the queue is
under way: nothing but a proxy error can start. -/
theorem Reach.changing_next (h : Reach ok (Sys.init w) s) (hs : s.next l = some s')
    (hl : l ≠ .restart) (hbusy : s.boot.isSome = true ∨ s.running.isSome = true)
    (hchanging : s.Changing) : s'.Changing := by
  refine Sys.Pending.next hchanging hs hl ?_
  rintro op owner rest rfl hqueue
  obtain ⟨op', owner', rest', hr, hqueue', -⟩ := Sys.startOp_eq_some hs
  rcases hbusy with hboot | hrun
  · have herror := (h.orderly.booting hboot).2 (op, owner) (by simp [Sys.entries, hqueue])
    cases op with
    | proxyError details stamp => rfl
    | _ => cases herror
  · simp [hr] at hrun

theorem Reach.frame_op (h : Reach ok (Sys.init w) s) (hsound : (badgeOutline P).Sound s)
    (hsucceeds : ok.Succeeds) (hP : P → ok.HeedsErrors) (hok : ok s l) (hs : s.next l = some s')
    (hl : l ≠ .restart) (ha : l.actor ≠ some .op) {subj : Subject} {thread : Thread api Result}
    (hslot : s.slot .op = some (subj, thread)) (hcalm : ¬ s.Changing) (hcalm' : ¬ s'.Changing)
    {x : Watch} (hx : x.OfOp P subj s) : x.OfOp P subj s' := by
  have hstart : l ≠ .start := by
    rintro rfl
    obtain ⟨op, owner, rest, hr, -, -⟩ := Sys.startOp_eq_some hs
    simp [Sys.slot, hr] at hslot
  obtain ⟨hgist, hfine⟩ := h.fine_next hsound hsucceeds hP hok hs hl hstart ha hcalm hcalm'
  refine ⟨hx.alone, hgist.trans hx.gist, fun hdue => hfine (hx.due hdue), ?_, hx.check, ?_⟩
  · exact fun he => (hx.erring he).next hs hl hstart
  · intro hcounted
    obtain ⟨hepoch, hsetting, herror⟩ := hx.counted hcounted
    -- Whoever counts is an IP check, and `boot` is done.
    obtain ⟨check, rfl⟩ := hx.check hcounted
    obtain ⟨-, hboot⟩ := h.boot_of_clearError hslot
    have hturn : l ≠ .resume .boot := by
      rintro rfl
      obtain ⟨subj, p, hslot', -⟩ := Sys.resume_eq_some hs
      have hsome := (Sys.slot_boot hslot').2
      simp [hboot] at hsome
    have hop : l ≠ .resume .op := by
      rintro rfl
      exact ha rfl
    refine ⟨(Sys.epoch_next hs hl hstart).trans hepoch,
      (Sys.calm_next hs hl hcalm').2.2.trans hsetting, ?_⟩
    rcases herror with herror | herror
    · rcases h.errors_next hs hl hop hturn with hsame | he
      · exact Or.inl (hsame.trans herror)
      · exact Or.inr he
    · exact Or.inr (herror.next hs hl hstart)

theorem Reach.frame_boot (h : Reach ok (Sys.init w) s) (hs : s.next l = some s')
    (hl : l ≠ .restart) (ha : l.actor ≠ some .boot) {thread : Thread api Result}
    (hslot : s.slot .boot = some (.boot, thread)) {x : Watch} (hx : x.OfBoot s) : x.OfBoot s' := by
  obtain ⟨hquiet, -, -⟩ := h.disciplined.others_next hslot rfl hs ha
  have hboot := (Sys.slot_boot hslot).2
  -- What runs beside `boot` is a proxy error, and it takes no error back.
  have herror : s.world.storage.proxyError ≠ none → s'.world.storage.proxyError ≠ none := by
    intro hne
    cases h.errorStep hs with
    | same _ hstored => exact hstored ▸ hne
    | started _ hstored => exact hstored ▸ hne
    | restarted he => exact absurd he hl
    | stored _ _ _ hstored => simp [hstored]
    | @cleared op owner he hbusy hop =>
        have hrun : s.running.map (fun r => (r.op, r.owner)) = some (op, owner) := by
          rw [← h.busy, hbusy]
        have hentry : (op, owner) ∈ s.entries := by simp [Sys.entries, hrun]
        have hproxy := (h.orderly.booting hboot).2 _ hentry
        cases op with
        | proxyError details stamp => cases hop
        | _ => cases hproxy
  have hconfig : s'.world.storage.toConfig = s.world.storage.toConfig := by
    by_cases hland : ∃ a o, l = .land a o
    · obtain ⟨a, o, rfl⟩ := hland
      obtain ⟨subj, c, k, r, w', hslot', hw, rfl⟩ := Sys.land_eq_some hs
      rw [Sys.answer_world]
      exact (h.disciplined.land_quiet hslot' (hquiet a _ _ rfl hslot') hw).1
    · rw [(Sys.world_next hs fun a o he => hland ⟨a, o, he⟩).1]
  have hgreeted : greeted s'.trace = greeted s.trace := by
    by_cases hland : ∃ a o, l = .land a o
    · obtain ⟨a, o, rfl⟩ := hland
      obtain ⟨subj, c, k, r, w', -, -, rfl⟩ := Sys.land_eq_some hs
      rw [Sys.answer_trace, greeted_landed, greeted_move]
      rintro rfl
      exact absurd rfl ha
    · exact greeted_next hs hl fun a o he => hland ⟨a, o, he⟩
  exact ⟨hx.alone, hx.counted, hx.config.trans hconfig.symm, fun hne => herror (hx.error hne),
    by rw [hgreeted]; exact hx.due⟩

/-! ## The obligations -/

omit [Platform] [Browser] in
theorem set_congr {data data' : Storage} (h : data.toConfig = data'.toConfig) (p : Patch) :
    (data.set p).toConfig = (data'.set p).toConfig := by
  simp only [Storage.set, h]

/-- What `boot` knows when its call has landed. -/
theorem Watch.OfBoot.answered {x : Watch} {o : Outcome} {c : Call}
    {k : Except String (Reply c) → Js Result} {r : Except String (Reply c)} {w' : World}
    (hof : x.OfBoot s) (hsucceeds : o ≠ .ignored ∧ ∀ message, o ≠ .rejected message)
    (hslot : s.slot .boot = some (.boot, .awaiting c k)) (hw : s.world.land c o = some (r, w'))
    (hmay : x.may c) (hproxy : s.world.proxy.effective = x.world.proxy.effective)
    (hwebRTC : s.world.webRTC.effective = x.world.webRTC.effective) :
    ∃ x' : Watch, x.Replies c r x' ∧ x'.world.proxy = x.world.proxy ∧
      x'.world.webRTC = x.world.webRTC ∧ x'.OfBoot (s.answer .boot c k r w') := by
  have hgreeted : (∀ text, c ≠ .setBadgeText text) →
      greeted (s.answer .boot c k r w').trace = greeted s.trace := by
    intro hne
    rw [Sys.answer_trace, greeted_landed fun _ => hne, greeted_move]
  have htunes : c.tunes = true → (∀ x' : Watch, r = x.world.reply c ∧ x' = x → x.Replies c r x') →
      ∃ x' : Watch, x.Replies c r x' ∧ x'.world.proxy = x.world.proxy ∧
        x'.world.webRTC = x.world.webRTC ∧ x'.OfBoot (s.answer .boot c k r w') := by
    intro hc hreplies
    obtain ⟨hr, hstorage, -⟩ := World.land_tunes hw hc hsucceeds
    refine ⟨x, hreplies x ⟨hr.trans (reply_congr hc hproxy hwebRTC), rfl⟩, rfl, rfl, hof.alone,
      hof.counted, ?_, ?_, ?_⟩
    · rw [Sys.answer_world, hstorage]
      exact hof.config
    · rw [Sys.answer_world, hstorage]
      exact hof.error
    · rw [hgreeted (by rintro text rfl; cases hc)]
      exact hof.due
  cases c with
  | storageGet =>
      cases o with
      | done =>
          obtain ⟨rfl, rfl⟩ : .ok s.world.storage = r ∧ s.world = w' := by
            simpa [World.land] using hw
          refine ⟨x.reading s.world.storage, ⟨_, rfl, rfl, fun halone => ?_⟩, rfl, rfl, hof.alone,
            hof.counted, rfl, id, ?_⟩
          · rw [hof.alone] at halone
            cases halone
          · rw [hgreeted (by simp)]
            exact hof.due
      | ignored => exact absurd rfl hsucceeds.1
      | rejected message => exact absurd rfl (hsucceeds.2 message)
      | flag b => cases hw
      | text ip => cases hw
  | storageSet p =>
      cases o with
      | done =>
          obtain ⟨hdue, rfl, -⟩ := hmay hof.alone
          obtain ⟨rfl, rfl⟩ : .ok () = r ∧
              { s.world with storage := s.world.storage.set { enabled := some false } } = w' := by
            simpa [World.land] using hw
          refine ⟨x.stores (x.world.storage.set { enabled := some false }), ⟨rfl, _, rfl, rfl⟩, rfl,
            rfl, hof.alone, hof.counted, ?_, hof.error, ?_⟩
          · exact set_congr hof.config _
          · rw [hgreeted (by simp), ← hof.due, hdue]
            rfl
      | ignored => exact absurd rfl hsucceeds.1
      | rejected message => exact absurd rfl (hsucceeds.2 message)
      | flag b => cases hw
      | text ip => cases hw
  | storageRemove =>
      have halone : x.alone = true := hmay
      rw [hof.alone] at halone
      cases halone
  | setBadgeText text =>
      cases o with
      | done =>
          obtain ⟨rfl, rfl⟩ : .ok () = r ∧ { s.world with badge := text } = w' := by
            simpa [World.land] using hw
          exact ⟨x.pays, ⟨rfl, rfl⟩, rfl, rfl, hof.alone, hof.counted, hof.config, hof.error, rfl⟩
      | ignored => exact absurd rfl hsucceeds.1
      | rejected message => exact absurd rfl (hsucceeds.2 message)
      | flag b => cases hw
      | text ip => cases hw
  | tabsGet id => exact hmay.elim
  | fetch => exact hmay.elim
  | json => exact hmay.elim
  | exclusive op => exact hmay.elim
  | order => exact hmay.elim
  | _ => exact htunes rfl fun _ h => h

/-- What a task knows when its call has landed and no change is pending. -/
theorem Watch.OfOp.answered {subj : Subject} {x : Watch} {o : Outcome} {c : Call}
    {k : Except String (Reply c) → Js Result} {r : Except String (Reply c)} {w' : World}
    (hof : x.OfOp P subj s) (hsucceeds : o ≠ .ignored ∧ ∀ message, o ≠ .rejected message)
    (hw : s.world.land c o = some (r, w')) (hmay : x.may c)
    (hproxy : s.world.proxy.effective = x.world.proxy.effective)
    (hwebRTC : s.world.webRTC.effective = x.world.webRTC.effective)
    (hproxy' : w'.proxy.effective = s.world.proxy.effective)
    (hwebRTC' : w'.webRTC.effective = s.world.webRTC.effective)
    (hsetting : (s.answer .op c k r w').vars.browserSettingEpoch = s.vars.browserSettingEpoch) :
    ∃ x' : Watch, x.Replies c r x' ∧ x'.world.proxy = x.world.proxy ∧
      x'.world.webRTC = x.world.webRTC ∧ x'.OfOp P subj (s.answer .op c k r w') := by
  have hqueue : ∀ {e}, e ∈ s.queue → e ∈ (s.answer .op c k r w').queue := by
    intro e he
    rw [Sys.answer_queue]
    exact he
  have herring : s.Erring → (s.answer .op c k r w').Erring := by
    rintro ⟨e, hmem, he⟩
    exact ⟨e, hqueue hmem, he⟩
  have hcounted : x.counted = true →
      (s.answer .op c k r w').vars.configurationEpoch = x.epoch ∧
        (s.answer .op c k r w').vars.browserSettingEpoch = x.settingEpoch ∧
        ((s.answer .op c k r w').vars.proxyErrorEpoch = x.errorEpoch ∨
          (s.answer .op c k r w').Erring) := by
    intro hc
    obtain ⟨hepoch, hset, herror⟩ := hof.counted hc
    obtain ⟨n, -, hv⟩ := s.move_vars w'
    refine ⟨?_, hsetting.trans hset, herror.imp ?_ herring⟩
    · rw [Sys.answer_vars, hv]
      exact hepoch
    · intro he
      rw [Sys.answer_vars, hv]
      exact he
  have hfine : w'.storage.gist = s.world.storage.gist → w'.badge = s.world.badge →
      x.due = false → (s.answer .op c k r w').Fine P := by
    intro hgist hbadge hdue
    refine (hof.due hdue).keep (fun hsome hg => ⟨?_, ?_⟩) ?_ ?_ ?_ ?_ fun _ => herring
    · simpa [Sys.answer, Sys.park] using hsome
    · rw [Sys.answer_trace, greeted_landed (by rintro ⟨⟩), greeted_move]
      exact hg
    · rw [Sys.answer_world, hbadge]
    · rw [Sys.answer_world, hgist]
    · rw [Sys.answer_world, hproxy']
    · rw [Sys.answer_world, hwebRTC']
  have htunes : c.tunes = true → (∀ x' : Watch, r = x.world.reply c ∧ x' = x → x.Replies c r x') →
      ∃ x' : Watch, x.Replies c r x' ∧ x'.world.proxy = x.world.proxy ∧
        x'.world.webRTC = x.world.webRTC ∧ x'.OfOp P subj (s.answer .op c k r w') := by
    intro hc hreplies
    obtain ⟨hr, hstorage, hbadge⟩ := World.land_tunes hw hc hsucceeds
    refine ⟨x, hreplies x ⟨hr.trans (reply_congr hc hproxy hwebRTC), rfl⟩, rfl, rfl, hof.alone, ?_,
      hfine (by rw [hstorage]) hbadge, fun he => herring (hof.erring he), hof.check, hcounted⟩
    rw [Sys.answer_world, hstorage]
    exact hof.gist
  cases c with
  | storageGet =>
      cases o with
      | done =>
          obtain ⟨rfl, rfl⟩ : .ok s.world.storage = r ∧ s.world = w' := by
            simpa [World.land] using hw
          exact ⟨x.reading s.world.storage, ⟨_, rfl, rfl, fun _ => hof.gist⟩, rfl, rfl, hof.alone,
            rfl, hfine rfl rfl, fun he => herring (hof.erring he), hof.check, hcounted⟩
      | ignored => exact absurd rfl hsucceeds.1
      | rejected message => exact absurd rfl (hsucceeds.2 message)
      | flag b => cases hw
      | text ip => cases hw
  | storageSet p =>
      cases o with
      | done =>
          obtain ⟨rfl, rfl⟩ : .ok () = r ∧
              { s.world with storage := s.world.storage.set p } = w' := by
            simpa [World.land] using hw
          exact ⟨x.stores (s.world.storage.set p), ⟨rfl, _, hof.gist, rfl⟩, rfl, rfl, hof.alone,
            rfl, by rintro ⟨⟩, fun he => herring (hof.erring he), hof.check, hcounted⟩
      | ignored => exact absurd rfl hsucceeds.1
      | rejected message => exact absurd rfl (hsucceeds.2 message)
      | flag b => cases hw
      | text ip => cases hw
  | storageRemove =>
      cases o with
      | done =>
          obtain ⟨rfl, rfl⟩ : .ok () = r ∧
              { s.world with storage := s.world.storage.forget } = w' := by
            simpa [World.land] using hw
          exact ⟨x.stores s.world.storage.forget, ⟨rfl, _, hof.gist, rfl⟩, rfl, rfl, hof.alone,
            rfl, by rintro ⟨⟩, fun he => herring (hof.erring he), hof.check, hcounted⟩
      | ignored => exact absurd rfl hsucceeds.1
      | rejected message => exact absurd rfl (hsucceeds.2 message)
      | flag b => cases hw
      | text ip => cases hw
  | setBadgeText text =>
      cases o with
      | done =>
          obtain ⟨rfl, rfl⟩ : .ok () = r ∧ { s.world with badge := text } = w' := by
            simpa [World.land] using hw
          refine ⟨x.pays, ⟨rfl, rfl⟩, rfl, rfl, hof.alone, hof.gist, fun _ => ?_,
            fun he => herring (hof.erring he), hof.check, hcounted⟩
          -- What the task knows is what there is.
          right; left; left
          have htext : text = badgeOf x.world.shown := hmay
          exact htext.trans (congrArg badgeOf (shown_congr hof.gist hproxy hwebRTC).symm)
      | ignored => exact absurd rfl hsucceeds.1
      | rejected message => exact absurd rfl (hsucceeds.2 message)
      | flag b => cases hw
      | text ip => cases hw
  | tabsGet id => exact hmay.elim
  | fetch => exact hmay.elim
  | json => exact hmay.elim
  | exclusive op => exact hmay.elim
  | order => exact hmay.elim
  | _ => exact htunes rfl fun _ h => h

/-- `boot` begins with the badge to write. -/
theorem badgeOutline_begins_boot {w : World} {trace : List Obs} (h : greeted trace = false) :
    (badgeOutline P).Begins .boot .boot (Sys.fresh w trace) := by
  intro _
  let x : Watch :=
    { world := w, alone := false, due := true, erring := false, counted := false, epoch := 0,
      settingEpoch := 0, errorEpoch := 0 }
  refine ⟨some x, Or.inr ⟨x, rfl, rfl, rfl, ⟨rfl, rfl, rfl, id, ?_⟩, ?_⟩, ?_⟩
  · change true = !greeted trace
    rw [h]
    rfl
  · intro c k hslot
    simp [Sys.slot, Sys.fresh] at hslot
  · exact Does.map ((does_boot rfl).mono fun _ _ hdue => hdue)

/-- A task of the queue begins with what is pending or fine. -/
theorem badgeOutline_begins_op (hidle : BadgeIdle P s) (hr : s.running = none) {op : Op}
    {owner : Option Nat} {rest : List (Op × Option Nat)} (hqueue : s.queue = (op, owner) :: rest) :
    (badgeOutline P).Begins .op (.op op) (s.enter op owner rest) := by
  intro _
  by_cases hcalm : (s.enter op owner rest).Changing
  · exact ⟨none, Or.inl hcalm, wp_lost (by rintro r x ⟨⟩) _⟩
  let x : Watch :=
    { world := s.world, alone := true
      due := op.changes || (op.errs && s.world.storage.gist.enabled)
      erring := false, counted := op.isClearError
      epoch := s.vars.configurationEpoch + 1
      settingEpoch := s.vars.browserSettingEpoch, errorEpoch := s.vars.proxyErrorEpoch }
  refine ⟨some x, Or.inr ⟨x, rfl, rfl, rfl, ?_, ?_⟩, ?_⟩
  · refine ⟨rfl, rfl, fun hdue => ?_, by rintro ⟨⟩, fun hc => ?_, fun _ => ⟨rfl, rfl, Or.inl rfl⟩⟩
    · obtain ⟨hchanges, herrs⟩ := Bool.or_eq_false_iff.1 hdue
      have hfine : s.Fine P := by
        refine (hidle hr).resolve_left fun hp => hcalm ?_
        exact Sys.Pending.enter hp hr hqueue hchanges
      -- An error that waits is not the one that begins.
      refine hfine.keep (fun hsome hg => ⟨hsome, hg⟩) rfl rfl rfl rfl ?_
      rintro henabled ⟨e, hmem, he⟩
      rw [hqueue, List.mem_cons] at hmem
      rcases hmem with rfl | hmem
      · rw [he, henabled] at herrs
        cases herrs
      · exact ⟨e, hmem, he⟩
    · cases op with
      | clearError check => exact ⟨check, rfl⟩
      | _ => cases hc
  · intro c k hslot
    simp [Sys.slot] at hslot
  · refine settles_body op ⟨rfl, fun hc => hc, fun hdue => ?_⟩
    rcases Bool.or_eq_true_iff.1 hdue with h | h
    · exact Or.inl h
    · exact Or.inr (Bool.and_eq_true_iff.1 h)

/-- What a step leaves between two tasks. -/
theorem Reach.badgeIdle_next (h : Reach ok (Sys.init w) s) (hsucceeds : ok.Succeeds)
    (hP : P → ok.HeedsErrors) (hsound : (badgeOutline P).Sound s) (hidle : BadgeIdle P s)
    (hok : ok s l) (hs : s.next l = some s') : BadgeIdle P s' := by
  intro hrun'
  by_cases hl : l = .restart
  · subst hl
    obtain rfl := Option.some.inj hs
    exact Or.inr (Or.inl ⟨rfl, rfl⟩)
  by_cases hstart : l = .start
  · subst hstart
    obtain ⟨op, owner, rest, -, -, rfl⟩ := Sys.startOp_eq_some hs
    cases hrun'
  have hchanging : s.Changing → s'.Changing :=
    fun hp => Sys.Pending.next hp hs hl fun _ _ _ he => absurd he hstart
  by_cases hcalm' : s'.Changing
  · exact Or.inl hcalm'
  have hcalm : ¬ s.Changing := fun hp => hcalm' (hchanging hp)
  right
  by_cases hop : l.actor = some .op
  · -- The task that ran has settled.
    cases l with
    | land a o =>
        obtain rfl : a = .op := by simpa [Label.actor] using hop
        obtain ⟨subj, c, k, r, w', hslot, -, rfl⟩ := Sys.land_eq_some hs
        obtain ⟨op, owner, hr, -⟩ := Sys.slot_op hslot
        simp [Sys.answer, Sys.park, hr] at hrun'
    | resume a =>
        obtain rfl : a = .op := by simpa [Label.actor] using hop
        obtain ⟨subj, p, hslot, ⟨v, c, k, -, rfl⟩ | ⟨v, r, hp, rfl⟩⟩ := Sys.resume_eq_some hs
        · obtain ⟨op, owner, hr, -⟩ := Sys.slot_op hslot
          simp [Sys.suspend, Sys.park, hr] at hrun'
        · obtain ⟨op, owner, hr, rfl⟩ := Sys.slot_op hslot
          obtain ⟨y, hy, hpost⟩ := badgeOutline_coherent.finished hsound hslot (by simp) hp
          obtain ⟨x, rfl, hx⟩ := hy.resolve_left hcalm
          have hof : x.OfOp P (.op op) { s with vars := v } := hx.of
          have hsettled : x.Settled := hpost x rfl
          have herring : s.Erring → (({ s with vars := v } : Sys).finish .op r).Erring := by
            rintro ⟨e, hmem, he⟩
            exact ⟨e, by rw [Sys.finish_queue]; exact hmem, he⟩
          cases hdue : x.due with
          | true =>
              obtain ⟨he, henabled⟩ := hsettled.2 hdue
              refine Or.inr (Or.inr ⟨?_, herring (hof.erring he)⟩)
              have hgist : s.world.storage.gist = x.gist := hof.gist
              rw [Sys.finish_world, hgist]
              exact henabled
          | false =>
              have hfine : s.Fine P := hof.due hdue
              refine hfine.keep (fun hsome hg => ⟨?_, ?_⟩) ?_ ?_ ?_ ?_ fun _ => herring
              · rcases howner : s.running.bind Running.owner with _ | t <;>
                  simpa [Sys.finish, howner] using hsome
              · rw [Sys.finish_trace]
                exact hg
              · rw [Sys.finish_world]
              · rw [Sys.finish_world]
              · rw [Sys.finish_world]
              · rw [Sys.finish_world]
    | _ => cases hop
  · have hrun : s.running = none := by
      by_contra hne
      obtain ⟨⟨op, owner, thread⟩, hr⟩ := Option.ne_none_iff_exists'.1 hne
      have hslot : s.slot .op = some (.op op, thread) := by simp [Sys.slot, hr]
      rcases Sys.slot_next hs hslot hop hl with h' | ⟨_, t, _, _, _, _, he, _⟩
      · simp [Sys.slot, hrun'] at h'
      · cases he
    refine (h.fine_next hsound hsucceeds hP hok hs hl hstart hop hcalm hcalm').2 ?_
    exact (hidle hrun).resolve_left hcalm

theorem badgeOutline_correct (hsucceeds : ok.Succeeds) (hP : P → ok.HeedsErrors) :
    (badgeOutline P).Correct ok (Reach ok (Sys.init w)) (BadgeIdle P) where
  toCoherent := badgeOutline_coherent
  frame {s l s' a subj thread y} hk _ _ hsound hok hs ha hl hslot hc hslot' hy := by
    have hbusy : s.boot.isSome = true ∨ s.running.isSome = true := by
      cases a with
      | boot => exact Or.inl (Sys.slot_boot hslot).2
      | op =>
          obtain ⟨op, owner, hr, -⟩ := Sys.slot_op hslot
          exact Or.inr (by simp [hr])
      | task t =>
          obtain ⟨kind, -, rfl⟩ := Sys.task_of_slot hslot
          exact absurd rfl (hc kind)
    by_cases hcalm' : s'.Changing
    · exact Or.inl hcalm'
    have hcalm : ¬ s.Changing := fun hp => hcalm' (hk.changing_next hs hl hbusy hp)
    obtain ⟨x, rfl, hx⟩ := hy.resolve_left hcalm
    obtain ⟨hproxy, hwebRTC, -⟩ := Sys.calm_next hs hl hcalm'
    refine Or.inr ⟨x, rfl, hproxy.trans hx.proxy, hwebRTC.trans hx.webRTC, ?_,
      fun c k h => hx.call c k (hslot.trans (hslot' ▸ h))⟩
    cases a with
    | task t => exact hx.of.elim
    | boot =>
        obtain ⟨rfl, -⟩ := Sys.slot_boot hslot
        exact hk.frame_boot hs hl ha hslot hx.of
    | op => exact hk.frame_op hsound hsucceeds hP hok hs hl ha hslot hcalm hcalm' hx.of
  restarted _ _ _ := badgeOutline_begins_boot rfl
  entered _ hidle _ hr hqueue _ := badgeOutline_begins_op hidle hr hqueue
  dispatched _ _ _ _ _ hc := absurd rfl (hc _)
  answered {s a o subj c k r w' y} hk _ hok hslot hc hland hk' hslot' hy := by
    by_cases hcalm' : (s.answer a c k r w').Changing
    · exact ⟨none, Or.inl rfl, Or.inl hcalm'⟩
    have hs : s.next (.land a o) = some (s.answer a c k r w') := by
      simp [Sys.next, Sys.land, Sys.thread, hslot, hland]
    have hcalm : ¬ s.Changing := fun hp =>
      hcalm' (Sys.Pending.next hp hs (by rintro ⟨⟩) (by rintro op owner rest ⟨⟩))
    obtain ⟨x, rfl, hx⟩ := hy.resolve_left hcalm
    obtain ⟨hproxy, hwebRTC, hsetting⟩ := Sys.calm_next hs (by rintro ⟨⟩) hcalm'
    have hcall : ∀ (x' : Watch) c' k', (s.answer a c k r w').slot a = some (subj, .awaiting c' k') →
        x'.may c' := by
      intro x' c' k' h
      rw [hslot'] at h
      cases h
    rw [Sys.answer_world] at hproxy hwebRTC
    cases a with
    | task t => exact hx.of.elim
    | boot =>
        obtain ⟨rfl, -⟩ := Sys.slot_boot hslot
        obtain ⟨x', hreplies, hp, hr, hof⟩ := Watch.OfBoot.answered hx.of (hsucceeds _ _ _ hok)
          hslot hland (hx.call _ _ hslot) hx.proxy hx.webRTC
        refine ⟨some x', Or.inr ⟨x, x', rfl, rfl, hreplies⟩, Or.inr ⟨x', rfl, ?_, ?_, hof, hcall x'⟩⟩
        · rw [Sys.answer_world, hp, hproxy, hx.proxy]
        · rw [Sys.answer_world, hr, hwebRTC, hx.webRTC]
    | op =>
        obtain ⟨x', hreplies, hp, hr, hof⟩ := Watch.OfOp.answered hx.of (hsucceeds _ _ _ hok)
          hland (hx.call _ _ hslot) hx.proxy hx.webRTC hproxy hwebRTC hsetting
        refine ⟨some x', Or.inr ⟨x, x', rfl, rfl, hreplies⟩, Or.inr ⟨x', rfl, ?_, ?_, hof, hcall x'⟩⟩
        · rw [Sys.answer_world, hp, hproxy, hx.proxy]
        · rw [Sys.answer_world, hr, hwebRTC, hx.webRTC]
  suspended {s a subj p v y c k} hk _ _ hslot hc _ hslot' hp hcall hy := by
    have hs : s.next (.resume a) = some (({ s with vars := v } : Sys).suspend a c k) := by
      simp [Sys.next, Sys.resume, Sys.thread, hslot, Sys.advance, hp]
    rcases hy with hchanging | ⟨x, rfl, hx⟩
    · left
      have hp' : s.Changing := hchanging
      exact Sys.Pending.next hp' hs (by rintro ⟨⟩) (by rintro op owner rest ⟨⟩)
    have hmay : x.may c := hcall x rfl
    have herring : s.Erring → (({ s with vars := v } : Sys).suspend a c k).Erring :=
      fun he => he.next hs (by rintro ⟨⟩) (by rintro ⟨⟩)
    have htrace : greeted (({ s with vars := v } : Sys).suspend a c k).trace = greeted s.trace := by
      rw [Sys.suspend_trace]
      rfl
    refine Or.inr ⟨x, rfl, ?_, ?_, ?_, fun c' k' h => ?_⟩
    · rw [Sys.suspend_world]
      exact hx.proxy
    · rw [Sys.suspend_world]
      exact hx.webRTC
    · cases a with
      | task t => exact hx.of.elim
      | boot =>
          have hof : x.OfBoot { s with vars := v } := hx.of
          exact ⟨hof.alone, hof.counted, hof.config, hof.error, by rw [htrace]; exact hof.due⟩
      | op =>
          have hof : x.OfOp P subj { s with vars := v } := hx.of
          refine ⟨hof.alone, hof.gist, fun hdue => ?_, fun he => herring (hof.erring he), hof.check,
            fun hcounted => ?_⟩
          · have hfine : s.Fine P := hof.due hdue
            exact hfine.keep (fun hsome hg => ⟨hsome, htrace.trans hg⟩) rfl rfl rfl rfl
              fun _ => herring
          · obtain ⟨hepoch, hsetting, herror⟩ := hof.counted hcounted
            exact ⟨hepoch, hsetting, herror.imp id herring⟩
    · obtain ⟨rfl, -⟩ : c = c' ∧ k ≍ k' := by simpa [hslot'] using h
      exact hmay
  settled {s op t p v r subj op' k y} _ _ _ _ _ _ hslot hc _ _ _ := by
    obtain ⟨kind, -, rfl⟩ := Sys.task_of_slot hslot
    exact absurd rfl (hc kind)
  keeps {s l s'} hk _ hsound hidle hok hs := hk.badgeIdle_next hsucceeds hP hsound hidle hok hs

/-! ## Over whole runs -/

/-- Between two tasks the badge is fine, unless a change is pending. -/
theorem Reach.badgeIdle (hsucceeds : ok.Succeeds) (hP : P → ok.HeedsErrors)
    (h : Reach ok (Sys.init w) s) : BadgeIdle P s := by
  have hsound : (badgeOutline P).Sound (Sys.init w) :=
    Outline.sound_init (badgeOutline_begins_boot rfl)
  have hidle : BadgeIdle P (Sys.init w) := fun _ => Or.inr (Or.inl ⟨rfl, rfl⟩)
  exact ((badgeOutline_correct hsucceeds hP).reach hsound hidle id h).2

/-- Once `boot` is done and no operation runs, the badge fits, unless an event of a setting
or of an error is still unhandled. -/
theorem Reach.fits (hsucceeds : ok.Succeeds) (hP : P → ok.HeedsErrors) (h : Reach ok (Sys.init w) s)
    (hboot : s.boot = none) (hrunning : s.running = none)
    (hhandled : ¬ s.Pending fun op => op.changes || op.errs) : s.world.Fits P := by
  rcases h.badgeIdle hsucceeds hP hrunning with hchanging | hfine
  · exact absurd (hchanging.mono fun op hop => by simp [hop]) hhandled
  · rcases hfine with ⟨hsome, -⟩ | hfits | ⟨-, e, hmem, he⟩
    · simp [hboot] at hsome
    · exact hfits
    · exact absurd (Or.inr ⟨e, hmem, by simp [he]⟩) hhandled

/-- Once `boot` is done and no operation runs, the badge shows what `status()`
would, whatever the user has asked for by then, unless an event of a setting or
of an error is still unhandled. The one exception is the `ON` that `boot` has
written over the error of a task that was quicker. -/
theorem badge_shows_status (hsucceeds : ok.Succeeds) (h : Reach ok (Sys.init w) s)
    (hboot : s.boot = none) (hrunning : s.running = none)
    (hhandled : ¬ s.Pending fun op => op.changes || op.errs) :
    ∃ st, s.world.ask s.vars status = .ok st ∧
      (s.world.badge = badgeOf st.state ∨
        ¬ ok.HeedsErrors ∧ s.world.badge = .on ∧ st.state = .error ∧
          s.world.storage.proxyError.isSome = true) := by
  refine ⟨_, World.ask_status _ _, ?_⟩
  rcases h.fits (P := ok.HeedsErrors) hsucceeds id hboot hrunning hhandled with
    hright | ⟨hlate, hon, herror, hfailed⟩
  · exact Or.inl hright
  · exact Or.inr ⟨hlate, hon, herror, proxyError_of_failed hfailed⟩

/-- The badge tells the states of `status()` apart as `updateBadge` does. -/
def Sys.Agrees (s : Sys) : Prop :=
  ∃ st, s.world.ask s.vars status = .ok st ∧ (s.world.badge = .on ↔ st.state = .active) ∧
    (s.world.badge = .alert ↔ st.state = .conflict ∨ st.state = .error) ∧
    (s.world.badge = .empty ↔ st.state = .unconfigured ∨ st.state = .off)

/-- As long as `boot` does not write `ON` over a stored error, the badge agrees with `status()`
in every state where all is done. -/
theorem badge_agrees_with_status (hsucceeds : ok.Succeeds) (hheeds : ok.HeedsErrors)
    (h : Reach ok (Sys.init w) s) (hquiescent : s.Quiescent) : s.Agrees := by
  refine ⟨_, World.ask_status _ _, ?_⟩
  rcases h.fits (P := True) hsucceeds (fun _ => hheeds) hquiescent.boot hquiescent.running
    (hquiescent.not_pending _) with hright | ⟨hlate, -⟩
  · have hbadge : s.world.badge = badgeOf s.world.shown := hright
    have hstates : ∀ st : State, (badgeOf st = .on ↔ st = .active) ∧
        (badgeOf st = .alert ↔ st = .conflict ∨ st = .error) ∧
        (badgeOf st = .empty ↔ st = .unconfigured ∨ st = .off) := by
      intro st
      cases st <;> decide
    rw [hbadge]
    exact hstates s.world.shown
  · exact absurd trivial hlate

end

section

attribute [local instance] Platform.ascii Browser.sample

/-- A worker that has started on an enabled configuration shows `ON`. -/
theorem badge_shows_status_sample :
    ∃ s : Sys, s.Quiescent ∧ s.world.badge = .on ∧ ∃ st, s.world.ask s.vars status = .ok st ∧
      (s.world.badge = badgeOf st.state ∨
        ¬ Rules.HeedsErrors (succeeds · ·) ∧ s.world.badge = .on ∧ st.state = .error ∧
          s.world.storage.proxyError.isSome = true) := by
  obtain ⟨s, h, hon, hq⟩ := Reach.of_follow succeeds (World.sample (.free .system)) starting
    (fun s => s.world.badge = .on ∧ s.Quiescent) (by decide +kernel)
  refine ⟨s, hq, hon, badge_shows_status (fun s a o hok => ?_) h hq.boot hq.running
    (hq.not_pending _)⟩
  rw [done_of_succeeds hok]
  exact ⟨by rintro ⟨⟩, by rintro message ⟨⟩⟩

/-- Nothing lands over an error where there is none. -/
def errorFree (s : Sys) (l : Label) : Bool :=
  succeeds s l && s.world.storage.proxyError.isNone

theorem badge_agrees_with_status_sample :
    ∃ s : Sys, s.Quiescent ∧ s.world.badge = .on ∧ s.Agrees := by
  obtain ⟨s, h, hon, hq⟩ := Reach.of_follow errorFree (World.sample (.free .system)) starting
    (fun s => s.world.badge = .on ∧ s.Quiescent) (by decide +kernel)
  refine ⟨s, hq, hon, badge_agrees_with_status (fun s a o hok => ?_) (fun s o k hok _ => ?_) h hq⟩
  · rw [errorFree, Bool.and_eq_true] at hok
    rw [done_of_succeeds hok.1]
    exact ⟨by rintro ⟨⟩, by rintro message ⟨⟩⟩
  · rw [errorFree, Bool.and_eq_true] at hok
    exact Option.isNone_iff_eq_none.1 hok.2

/-- `boot` is about to write `ON` when a proxy error comes, and its task is done before that
write lands. -/
def overtaken : List Label :=
  turns .boot 40 ++ [.resume .boot, .proxyError ⟨none, some true⟩, .start] ++ turns .op 22 ++
    [.resume .op, .land .boot .done] ++ turns .boot 2 ++ [.resume .boot]

/-- The badge is left at `ON` while the state is the error. -/
theorem badge_agrees_with_status_fails : ¬ ∀ (w : World) (s : Sys),
    Reach (succeeds · ·) (Sys.init w) s → s.Quiescent → s.Agrees := by
  intro hall
  obtain ⟨s, h, hq, hon, hstate⟩ := Reach.of_follow succeeds
    { World.sample (.free .system) with proxy := ⟨some .sample, .free .system⟩ } overtaken
    (fun s => s.Quiescent ∧ s.world.badge = .on ∧ s.world.shown = .error) (by decide +kernel)
  obtain ⟨st, hask, hagrees, -⟩ := hall _ s h hq
  rw [World.ask_status] at hask
  obtain rfl := Except.ok.inj hask
  cases hstate.symm.trans (hagrees.1 hon)

end

end BrowserVpn
