import BrowserVpn.Extension.Trace

/-!
# Extension.Discipline — who may do what

Facts about every reachable state that later arguments take for granted: the
bookkeeping of the queue (`Sys.Orderly`), and the calls and writes that
callbacks and error operations keep to (`keepsTo`). Together they say that
configuration, settings and conflict flags have one writer at a time.
-/

namespace BrowserVpn

open Async

/-! ## The queue -/

def Op.isProxyError : Op → Bool
  | .proxyError .. => true
  | _ => false

/-- The running and the waiting tasks of `exclusive`, with their owners. -/
def Sys.entries (s : Sys) : List (Op × Option Nat) :=
  (s.running.map fun r => (r.op, r.owner)).toList ++ s.queue

/-- The bookkeeping of the worker. -/
structure Sys.Orderly (s : Sys) : Prop where
  changing : s.vars.configurationChanging = s.running.isSome
  /-- Until `boot` has settled, only proxy errors reach the queue. -/
  booting : s.boot.isSome → (∀ t, s.slot (.task t) = none) ∧ ∀ e ∈ s.entries, e.1.isProxyError
  /-- A callback awaits one exclusive task at a time. -/
  owners : (s.entries.filterMap Prod.snd).Nodup
  awaited : ∀ op t, (op, some t) ∈ s.entries →
    ∃ subj k, s.slot (.task t) = some (subj, .awaiting (.exclusive op) k)

theorem Sys.orderly_fresh (w : World) (trace : List Obs) [Platform] [Browser] :
    (Sys.fresh w trace).Orderly :=
  ⟨rfl, fun _ => ⟨fun _ => rfl, by simp [entries, fresh]⟩, by simp [entries, fresh],
    by simp [entries, fresh]⟩

/-- How a step moves the entries. -/
inductive Sys.QueueStep (s s' : Sys) (l : Label) : Prop
  | same (h : s'.entries = s.entries)
  | raised {op : Op} (h : s'.entries = s.entries ++ [(op, none)]) (hop : op.isProxyError)
  | handed {op : Op} {t : Nat} {subj : Subject} {p : Js Result}
      {k : Except String Result → Js Result} (hslot : s.slot (.task t) = some (subj, .ready p))
      (hslot' : s'.slot (.task t) = some (subj, .awaiting (.exclusive op) k))
      (h : s'.entries = s.entries ++ [(op, some t)])
  | ended {e : Op × Option Nat} (hl : l = .resume .op) (h : s.entries = e :: s'.entries)

/-- The flag of `exclusive` is no function's to write. -/
theorem run_configurationChanging {p : Js Result} {v v' : Vars} {stop : Stop api Result}
    (h : p.run v = (v', stop)) : v'.configurationChanging = v.configurationChanging := by
  have hkeeps := Prog.run_keeps (f := Vars.configurationChanging)
    (fun w v => by cases w <;> rfl) p v
  rwa [h] at hkeeps

theorem Sys.entries_park (s : Sys) (a : Actor) (thread : Thread api Result) :
    (s.park a thread).entries = s.entries := by
  cases a with
  | boot => rfl
  | op => simp [park, entries, Function.comp_def]
  | task t => rfl

/-- The end of the running task takes its entry off. -/
theorem Sys.entries_finish (s : Sys) (r : Except String Result) :
    (s.finish .op r).entries = s.queue := by
  simp only [finish]
  split <;> simp [entries]

section

variable [Platform] [Browser]

theorem Sys.queueStep {s s' : Sys} {l : Label} (hs : s.next l = some s') (hl : l ≠ .restart) :
    QueueStep s s' l := by
  cases l with
  | restart => exact absurd rfl hl
  | message sender m =>
      obtain rfl := Option.some.inj hs
      split <;> exact .same rfl
  | challenge details =>
      obtain rfl := Option.some.inj hs
      unfold onChallenge
      split <;> exact .same rfl
  | requestDone id => exact Option.some.inj hs ▸ .same rfl
  | proxyError details =>
      obtain rfl := Option.some.inj hs
      exact .raised (List.append_assoc ..).symm rfl
  | others proxy webRTC =>
      obtain rfl := Option.some.inj hs
      exact .same (by simp [entries])
  | clock now => exact Option.some.inj hs ▸ .same rfl
  | dispatch t =>
      obtain ⟨kind, hb, ht, rfl⟩ := dispatch_eq_some hs
      exact .same rfl
  | start =>
      obtain ⟨op, owner, rest, hr, hq, rfl⟩ := startOp_eq_some hs
      exact .same (by simp [entries, hr, hq])
  | land a o =>
      obtain ⟨subj, c, k, r, w, hslot, hw, rfl⟩ := land_eq_some hs
      refine .same ((entries_park (s.move w) a (.ready (k r))).trans ?_)
      simp [entries]
  | resume a =>
      obtain ⟨subj, p, hslot, ⟨v, c, k, hp, rfl⟩ | ⟨v, r, hp, rfl⟩⟩ := resume_eq_some hs
      · have he : (({ s with vars := v } : Sys).suspend a c k).entries =
            s.entries ++ enqueued a c := by
          have hpark := entries_park { s with vars := v } a (.awaiting c k)
          simp only [entries] at hpark
          simp only [suspend, entries, issue_running, issue_queue, ← List.append_assoc, hpark]
        rcases hc : enqueued a c with _ | ⟨e, es⟩
        · exact .same (by rw [he, hc, List.append_nil])
        · cases a with
          | boot => cases hc
          | op => cases hc
          | task t =>
              cases c with
              | exclusive op =>
                  refine .handed (k := k) hslot ?_ he
                  rw [suspend, slot_issue]
                  exact slot_park_self _ ((slot_vars s v _).trans hslot) _
              | _ => cases hc
      · cases a with
        | boot => exact .same rfl
        | task t => exact .same rfl
        | op =>
            simp only [slot, Option.map_eq_some_iff, Prod.mk.injEq] at hslot
            obtain ⟨⟨op, owner, thread⟩, hr, -, rfl⟩ := hslot
            refine .ended (e := (op, owner)) rfl ?_
            rw [entries_finish, entries, hr]
            rfl

/-- `configurationChanging` is up exactly while a task of the queue runs. -/
theorem Sys.changing_next {s s' : Sys} {l : Label} (hs : s.next l = some s')
    (h : s.vars.configurationChanging = s.running.isSome) :
    s'.vars.configurationChanging = s'.running.isSome := by
  cases l with
  | restart => exact Option.some.inj hs ▸ rfl
  | message sender m =>
      obtain rfl := Option.some.inj hs
      split <;> exact h
  | challenge details =>
      obtain rfl := Option.some.inj hs
      unfold onChallenge
      split <;> exact h
  | requestDone id => exact Option.some.inj hs ▸ h
  | proxyError details => exact Option.some.inj hs ▸ h
  | others proxy webRTC =>
      obtain rfl := Option.some.inj hs
      obtain ⟨n, -, hv⟩ := s.move_vars _
      rw [hv, move_running]
      exact h
  | clock now => exact Option.some.inj hs ▸ h
  | dispatch t =>
      obtain ⟨kind, hb, ht, rfl⟩ := dispatch_eq_some hs
      exact h
  | start =>
      obtain ⟨op, owner, rest, hr, hq, rfl⟩ := startOp_eq_some hs
      rfl
  | land a o =>
      obtain ⟨subj, c, k, r, w, hslot, hw, rfl⟩ := land_eq_some hs
      obtain ⟨n, -, hv⟩ := s.move_vars w
      cases a <;> simp [answer, park, hv, h]
  | resume a =>
      obtain ⟨subj, p, hslot, ⟨v, c, k, hp, rfl⟩ | ⟨v, r, hp, rfl⟩⟩ := resume_eq_some hs
      · have hv := run_configurationChanging hp
        cases a <;> simp [suspend, park, hv, h]
      · have hv := run_configurationChanging hp
        cases a with
        | boot => exact hv.trans h
        | task t => exact hv.trans h
        | op =>
            simp only [finish]
            split <;> rfl

/-- A callback keeps waiting for its exclusive task until that has ended. -/
theorem Sys.slot_exclusive_next {s s' : Sys} {l : Label} (hs : s.next l = some s')
    (hl : l ≠ .restart) {t : Nat} {subj : Subject} {op : Op} {k : Except String Result → Js Result}
    (h : s.slot (.task t) = some (subj, .awaiting (.exclusive op) k)) :
    s'.slot (.task t) = s.slot (.task t) ∨
      l = .resume .op ∧ ∃ op' p v r, s.running = some ⟨op', some t, .ready p⟩ ∧
        p.run s.vars = (v, .finished r) ∧ s' = ({ s with vars := v } : Sys).finish .op r := by
  have hact : l.actor ≠ some (.task t) := by
    intro ha
    cases l with
    | land a o =>
        obtain rfl : a = .task t := by simpa [Label.actor] using ha
        obtain ⟨subj', c, k', r, w, hslot, hw, -⟩ := land_eq_some hs
        obtain ⟨rfl, ⟨rfl, -⟩⟩ : subj' = subj ∧ c = .exclusive op ∧ k' ≍ k := by
          simpa [h] using hslot.symm
        cases o <;> cases hw
    | resume a =>
        obtain rfl : a = .task t := by simpa [Label.actor] using ha
        obtain ⟨subj', p, hslot, -⟩ := resume_eq_some hs
        simp [h] at hslot
    | _ => cases ha
  rcases slot_next hs h hact hl with hkept | ⟨op', u, p, v, r, rfl, hu, hr, hp, rfl⟩
  · exact Or.inl (hkept.trans h.symm)
  · obtain rfl : t = u := by simpa using hu
    exact Or.inr ⟨rfl, op', p, v, r, hr, hp, rfl⟩

/-- Until `boot` has settled, no callback runs. -/
theorem Sys.booting_next {s s' : Sys} {l : Label} (hs : s.next l = some s') (hl : l ≠ .restart)
    (hb' : s'.boot.isSome) : s.boot.isSome ∧
      ((∀ t, s.slot (.task t) = none) → ∀ t, s'.slot (.task t) = none) := by
  obtain ⟨⟨bsubj, bthread⟩, hbslot⟩ : ∃ x, s'.slot .boot = some x := by
    obtain ⟨thread, hthread⟩ := Option.isSome_iff_exists.1 hb'
    exact ⟨(.boot, thread), by simp [slot, hthread]⟩
  have hboot : s.boot.isSome := by
    have hsome : ∀ subj thread, s.slot .boot = some (subj, thread) → s.boot.isSome := by
      intro subj thread h
      obtain ⟨x, hx, -⟩ := Option.map_eq_some_iff.1 h
      simp [hx]
    cases slotStep hs hbslot with
    | kept _ _ h => exact hsome _ _ h
    | restarted => exact absurd rfl hl
    | answered h _ => exact hsome _ _ h
    | suspended h _ => exact hsome _ _ h
  refine ⟨hboot, fun hnone t => ?_⟩
  by_contra hne
  obtain ⟨⟨subj, thread⟩, hslot⟩ := Option.ne_none_iff_exists'.1 hne
  cases slotStep hs hslot with
  | kept _ _ h => simp [hnone] at h
  | dispatched hb _ => simp [hb] at hboot
  | answered h _ => simp [hnone] at h
  | suspended h _ => simp [hnone] at h
  | settled _ _ h => simp [hnone] at h

/-- The bookkeeping survives every step. -/
theorem Sys.Orderly.next {s s' : Sys} {l : Label} (h : s.Orderly) (hs : s.next l = some s') :
    s'.Orderly := by
  by_cases hl : l = .restart
  · subst hl
    exact Option.some.inj hs ▸ orderly_fresh s.world _
  have hqueue := queueStep hs hl
  -- Who awaits an entry that stays is still awaiting it: the entry that goes is another's.
  have hold : ∀ op t, (op, some t) ∈ s.entries → (op, some t) ∈ s'.entries →
      ∃ subj k, s'.slot (.task t) = some (subj, .awaiting (.exclusive op) k) := by
    intro op t hmem hmem'
    obtain ⟨subj, k, hslot⟩ := h.awaited op t hmem
    rcases slot_exclusive_next hs hl hslot with hkept | ⟨-, op', p, v, r, hr, -, rfl⟩
    · exact ⟨subj, k, hkept.trans hslot⟩
    · rw [entries_finish] at hmem'
      have howners := h.owners
      have hentries : s.entries = (op', some t) :: s.queue := by simp [entries, hr]
      have hcons : s.entries.filterMap Prod.snd = t :: s.queue.filterMap Prod.snd := by
        rw [hentries]
        rfl
      rw [hcons, List.nodup_cons] at howners
      have hgone : t ∈ s.queue.filterMap Prod.snd := List.mem_filterMap.2 ⟨_, hmem', rfl⟩
      exact absurd hgone howners.1
  refine ⟨changing_next hs h.changing, fun hb' => ?_, ?_, fun op t hmem => ?_⟩
  · obtain ⟨hb, hslots⟩ := booting_next hs hl hb'
    obtain ⟨hnone, herrors⟩ := h.booting hb
    refine ⟨hslots hnone, fun e hmem => ?_⟩
    cases hqueue with
    | same he => exact herrors e (he ▸ hmem)
    | raised he hop =>
        rcases List.mem_append.1 (he ▸ hmem) with hmem | hmem
        · exact herrors e hmem
        · rw [List.mem_singleton.1 hmem]
          exact hop
    | handed hslot => simp [hnone] at hslot
    | ended _ he => exact herrors e (he ▸ List.mem_cons_of_mem _ hmem)
  · have howners := h.owners
    cases hqueue with
    | same he => rwa [he]
    | raised he => simpa [he] using howners
    | @handed op t subj p k hslot hslot' he =>
        rw [he, List.filterMap_append, List.nodup_append]
        refine ⟨howners, by simp, fun u hu u' hu' => ?_⟩
        obtain rfl : u' = t := by simpa using hu'
        rintro rfl
        obtain ⟨⟨op', owner⟩, hmem, rfl⟩ := List.mem_filterMap.1 hu
        obtain ⟨subj', k', hawaits⟩ := h.awaited op' u hmem
        simp [hslot] at hawaits
    | ended _ he =>
        rw [he] at howners
        exact howners.sublist ((List.sublist_cons_self _ _).filterMap _)
  · have hmem' := hmem
    cases hqueue with
    | same he => exact hold op t (he ▸ hmem') hmem
    | raised he =>
        rcases List.mem_append.1 (he ▸ hmem') with hmem' | hmem'
        · exact hold op t hmem' hmem
        · simp at hmem'
    | @handed op' t' subj p k hslot hslot' he =>
        rcases List.mem_append.1 (he ▸ hmem') with hmem' | hmem'
        · exact hold op t hmem' hmem
        · obtain ⟨rfl, rfl⟩ : op = op' ∧ t = t' := by simpa using hmem'
          exact ⟨subj, k, hslot'⟩
    | ended _ he => exact hold op t (he ▸ List.mem_cons_of_mem _ hmem') hmem

theorem Reach.orderly {ok : Rules} {w : World} {s : Sys} (h : Reach ok (Sys.init w) s) :
    s.Orderly := by
  induction h with
  | init => exact Sys.orderly_fresh w []
  | step _ _ hn ih => exact ih.next hn

end

/-! ## Functions that only ask -/

/-- Calls that ask Chrome and change nothing. -/
def Call.asks : Call → Bool
  | .storageGet | .proxyGet _ | .webRTCGet _ | .isAllowedIncognitoAccess | .tick => true
  | _ => false

/-- A function that only asks. -/
abbrev Asks {α : Type} (p : Js α) : Prop := p.Within (fun c : Call => c.asks) fun _ => False

section

variable {C : Call → Prop} {W : Write → Prop} {α : Type}

theorem within_chrome {c : Call} (h : C c) : (chrome c).Within (A := api) C W :=
  ⟨h, fun _ => trivial⟩

theorem within_await {p : Js α} (hp : p.Within C W) (htick : C .tick) : (await p).Within C W :=
  hp.andThen fun _ => ⟨htick, fun _ => trivial⟩

theorem within_ensure (b : Bool) (message : String) : (ensure b message).Within C W := trivial

theorem within_lift (r : Except String α) : (lift r).Within C W := trivial

theorem within_when {b : Bool} {p : Js Unit} (hp : p.Within C W) : (when b p).Within C W := by
  cases b
  · trivial
  · exact hp

theorem within_get : (Prog.get : Js Vars).Within C W := fun _ => trivial

theorem within_ite {b : Prop} [Decidable b] {p q : Js α} (hp : p.Within C W)
    (hq : q.Within C W) : (if b then p else q).Within C W := by
  split
  · exact hp
  · exact hq

end

theorem asks_await {α : Type} {p : Js α} (hp : Asks p) : Asks (await p) := within_await hp rfl

theorem asks_effectiveSetting (incognito : Bool) : Asks (effectiveSetting incognito) :=
  within_chrome rfl

theorem asks_webRTCSetting (incognito : Bool) : Asks (webRTCSetting incognito) :=
  within_chrome rfl

theorem asks_stored : Asks stored := within_chrome rfl

theorem asks_incognitoWebRTCIsRestricted : Asks incognitoWebRTCIsRestricted := by
  refine .tryCatch (.bind (within_chrome rfl) fun allowed => ?_) fun _ => trivial
  exact within_ite (.map (asks_await (asks_webRTCSetting true)) _) trivial

theorem asks_incognitoProxyState (expected : ProxyConfig) : Asks (incognitoProxyState expected) := by
  refine .tryCatch (.bind (within_chrome rfl) fun allowed => ?_) fun _ => trivial
  exact within_ite (.bind (asks_await (asks_effectiveSetting true)) fun _ => trivial) trivial

/-- Calls of callbacks: questions to Chrome and the network, and tasks for
`exclusive`. -/
def Call.inspects : Call → Bool
  | .tabsGet _ | .fetch | .json | .order | .exclusive _ => true
  | c => c.asks

/-- A patch of the stored proxy error alone. -/
def Patch.errorOnly (p : Patch) : Bool :=
  p.connection.isNone && p.enabled.isNone && p.exclusions.isNone

/-- The operations that touch the stored proxy error and the badge only. -/
def Op.neutral : Op → Bool
  | .proxyError .. | .authFailed _ | .clearError _ => true
  | _ => false

/-- Calls of the neutral operations. -/
def Call.records : Call → Bool
  | .storageSet p => p.errorOnly
  | .setBadgeText _ | .setBadgeBackgroundColor _ => true
  | c => c.asks

/-- What callbacks may write: their own bookkeeping, never a flag. -/
def Write.inspects : Write → Bool
  | .proxyErrorEpoch | .authAttempt _ => true
  | _ => false

theorem Call.inspects_of_asks {c : Call} (h : c.asks = true) : c.inspects = true := by
  cases c <;> simp_all [Call.asks, Call.inspects]

theorem Call.records_of_asks {c : Call} (h : c.asks = true) : c.records = true := by
  cases c <;> simp_all [Call.asks, Call.records]

/-! ## Callbacks and error operations -/

/-- A function of a callback. -/
abbrev Inspects {α : Type} (p : Js α) : Prop := 
  p.Within (fun c : Call => c.inspects) fun w : Write => w.inspects

/-- A function of a neutral operation. -/
abbrev Records {α : Type} (p : Js α) : Prop := 
  p.Within (fun c : Call => c.records) fun _ => False

theorem Asks.inspects {α : Type} {p : Js α} (h : Asks p) : Inspects p :=
  h.mono (fun _ => Call.inspects_of_asks) fun _ hw => hw.elim

theorem Asks.records {α : Type} {p : Js α} (h : Asks p) : Records p :=
  h.mono (fun _ => Call.records_of_asks) fun _ hw => hw

theorem records_await {α : Type} {p : Js α} (hp : Records p) : Records (await p) :=
  within_await hp rfl

theorem inspects_await {α : Type} {p : Js α} (hp : Inspects p) : Inspects (await p) :=
  within_await hp rfl

theorem inspects_dismissError (start : Vars) (e : Option ProxyError) :
    Inspects (dismissError start e) := by
  cases e with
  | none => trivial
  | some e =>
      refine .bind (within_chrome rfl) fun r => ?_
      split <;> trivial

theorem inspects_bothSettings (incognito : Bool) : Inspects (bothSettings incognito) := by
  have hproxy := (asks_effectiveSetting incognito).inspects
  have hrtc := (asks_webRTCSetting incognito).inspects
  refine .bind (within_chrome rfl) fun first => within_ite ?_ ?_
  · exact .bind hproxy fun _ => .bind hrtc fun _ => trivial
  · exact .bind hrtc fun _ => .bind hproxy fun _ => trivial

theorem inspects_releaseCredentials (details : AuthDetails) (c : Challenge)
    (expected : ProxyConfig) (setting : Setting ProxyConfig) (rtc : Setting WebRTCPolicy) :
    Inspects (releaseCredentials details c expected setting rtc) := by
  refine .bind within_get fun v => within_ite trivial (within_ite ?_ ?_)
  · refine .bind ⟨rfl, trivial⟩ fun _ => .bind within_get fun v => ?_
    exact .bind (within_chrome rfl) fun _ => trivial
  · exact .bind ⟨rfl, trivial⟩ fun _ => trivial

section

variable [Platform]

theorem asks_enabledStatus (base : State → Status) (data : Storage) (connection : Connection)
    (exclusions : List JsString) (setting : Setting ProxyConfig) (webRTC : Setting WebRTCPolicy) :
    Asks (enabledStatus base data connection exclusions setting webRTC) := by
  refine within_ite trivial (.bind (asks_await asks_incognitoWebRTCIsRestricted) fun _ => ?_)
  refine within_ite trivial (.bind (within_lift _) fun expected => ?_)
  exact .bind (asks_await (asks_incognitoProxyState expected)) fun _ => trivial

theorem asks_status : Asks status := by
  refine .bind (asks_await asks_stored) fun data => ?_
  refine .bind (asks_await (asks_effectiveSetting false)) fun setting => ?_
  refine .bind (asks_await (asks_webRTCSetting false)) fun webRTC => ?_
  split
  · trivial
  · trivial
  · exact within_ite trivial (asks_enabledStatus ..)

theorem records_updateBadge : Records updateBadge := by
  refine .bind (records_await asks_status.records) fun current => ?_
  exact .bind (within_chrome rfl) fun _ => within_when (within_chrome rfl)

theorem records_onProxyError (details : ErrorDetails) : Records (onProxyError details) := by
  refine .bind (records_await asks_stored.records) fun data => within_when ?_
  refine .bind within_get fun v => .bind (within_chrome rfl) fun _ => ?_
  exact records_await records_updateBadge

theorem records_authFailed : Records authFailed := by
  refine .bind within_get fun v => .bind (within_chrome rfl) fun _ => ?_
  exact records_await records_updateBadge

theorem records_clearError (check : IpCheck) : Records (clearError check) := by
  refine .bind within_get fun v => .bind (within_ensure _ _) fun _ => ?_
  refine .bind (records_await asks_stored.records) fun data => ?_
  refine .bind (records_await asks_status.records) fun latest => ?_
  refine .bind within_get fun v => .bind (within_ensure _ _) fun _ => ?_
  refine .bind (within_chrome rfl) fun _ => .bind within_get fun v => ?_
  refine .bind (within_ensure _ _) fun _ => ?_
  exact .bind (records_await records_updateBadge) fun _ => trivial

/-- The neutral operations keep to the proxy error and the badge. -/
theorem records_body {op : Op} (h : op.neutral = true) : Records op.body := by
  cases op <;> simp only [Op.neutral, reduceCtorEq] at h
  · exact records_await (.map (records_onProxyError _) _)
  · exact records_await (.map records_authFailed _)
  · exact records_await (.map (records_clearError _) _)

theorem inspects_fetchIp (start : Vars) (e : Option ProxyError) : Inspects (fetchIp start e) := by
  refine .bind (within_chrome rfl) fun ok => .bind (within_ensure _ _) fun _ => ?_
  refine .bind (within_chrome rfl) fun body => .bind (within_lift _) fun ip => ?_
  refine .bind (inspects_await asks_status.inspects) fun after => ?_
  refine .bind within_get fun v => .bind (within_ensure _ _) fun _ => ?_
  refine .bind (inspects_dismissError start e) fun epoch => ?_
  exact .bind within_get fun v => .bind (within_ensure _ _) fun _ => trivial

theorem inspects_testIp : Inspects testIp := by
  refine .bind within_get fun start => ?_
  refine .bind (inspects_await asks_status.inspects) fun current => ?_
  refine .bind within_get fun v => .bind (within_ensure _ _) fun _ => ?_
  refine .bind (within_ensure _ _) fun _ => .bind (within_ensure _ _) fun _ => ?_
  exact .tryCatch (inspects_fetchIp start _) fun _ => trivial

variable [Browser]

theorem inspects_answerChallenge (details : AuthDetails) (c : Challenge) :
    Inspects (answerChallenge details c) := by
  refine .bind ?_ fun incognito => ?_
  · unfold requestIncognito
    split
    · exact within_chrome rfl
    · trivial
    · trivial
  · split
    · trivial
    · refine .bind (within_lift _) fun exclusions => .bind (within_lift _) fun expected => ?_
      refine .bind (inspects_await (inspects_bothSettings _)) fun (setting, rtc) => ?_
      exact inspects_releaseCredentials _ _ _ _ _

theorem inspects_onAuthRequired (details : AuthDetails) : Inspects (onAuthRequired details) := by
  refine .bind (.tryCatch (.bind within_get fun start => within_ite trivial ?_) fun _ => trivial)
    fun first => ?_
  · exact .bind (inspects_await asks_stored.inspects) fun data => within_lift _
  · split
    · trivial
    · exact .tryCatch (inspects_answerChallenge details _) fun _ => trivial

/-- Callbacks ask, and leave changes to `exclusive`. -/
theorem inspects_body (kind : TaskKind) : Inspects kind.body := by
  cases kind with
  | message m =>
      cases m with
      | getState => exact .map asks_status.inspects _
      | testIp => exact .map inspects_testIp _
      | other => trivial
      | _ => exact within_chrome rfl
  | challenge details => exact .map (inspects_onAuthRequired details) _
  | proxyChanged => exact within_chrome rfl
  | webRTCChanged => exact within_chrome rfl

/-! ## In every reachable state -/

/-- The calls a subject keeps to. -/
def Subject.may : Subject → Call → Prop
  | .task _, c => c.inspects
  | .op o, c => o.neutral → c.records
  | .boot, _ => True

/-- The writes a subject keeps to. -/
def Subject.mayWrite : Subject → Write → Prop
  | .task _, w => w.inspects
  | .op o, _ => o.neutral = false
  | .boot, _ => True

section Within

variable {may : Subject → Call → Prop} {mayWrite : Subject → Write → Prop}

/-- The outline of functions that keep to some calls and writes: a view is the
subject itself. -/
@[reducible] def withinOutline (may : Subject → Call → Prop)
    (mayWrite : Subject → Write → Prop) : Outline where
  View := Subject
  logic :=
    { reads := fun x _ x' => x' = x
      mayWrite := fun w x => mayWrite x w
      write := fun _ x => x
      mayCall := fun c x => may x c
      issue := fun _ x => x
      replies := fun _ x _ x' => x' = x }
  covers _ := True
  At a subj x s := x = subj ∧ ∀ c k, s.slot a = some (subj, .awaiting c k) → may subj c
  post _ _ _ := True

theorem withinOutline_begins {a : Actor} {subj : Subject} {s : Sys}
    (hbody : subj.body.Within (may subj) (mayWrite subj))
    (h : ∀ c k, s.slot a ≠ some (subj, .awaiting c k)) :
    (withinOutline may mayWrite).Begins a subj s := by
  refine fun _ => ⟨subj, ⟨rfl, fun c k hslot => absurd hslot (h c k)⟩, ?_⟩
  refine wp_mono _ (wp_of_within _ (I := (· = subj)) hbody ?_ ?_ ?_ rfl) fun _ _ _ => trivial
  · rintro x v x' hx rfl
    exact hx
  · rintro w x rfl hw
    exact ⟨hw, rfl⟩
  · rintro c x rfl hc
    exact ⟨hc, fun _ _ h => h⟩

theorem withinOutline_correct (ok : Rules)
    (hbody : ∀ subj : Subject, subj.body.Within (may subj) (mayWrite subj)) :
    (withinOutline may mayWrite).Correct ok (fun _ => True) fun _ => True where
  frame _ _ _ _ _ _ _ _ hslot _ hslot' hx := ⟨hx.1, fun c k h => hx.2 c k (hslot.trans (hslot' ▸ h))⟩
  restarted _ _ _ := withinOutline_begins (hbody _) fun _ _ => by simp [Sys.slot, Sys.fresh]
  entered _ _ _ _ _ _ := withinOutline_begins (hbody _) fun _ _ => by simp [Sys.slot]
  dispatched _ _ _ _ ht :=
    withinOutline_begins (hbody _) fun _ _ => by simp [Sys.slot, Sys.park, ht]
  answered _ _ _ _ _ _ _ hslot' hx := ⟨_, rfl, hx.1, fun _ _ h => by simp [hslot'] at h⟩
  enters _ _ hx := hx
  reads _ _ hx := ⟨_, rfl, hx⟩
  writes _ _ _ hx := ⟨hx.1, fun c k h => hx.2 c k (by rwa [Sys.slot_vars] at h)⟩
  suspended _ _ _ _ _ _ hslot' _ hcall hx := by
    refine ⟨hx.1, fun c' k' h => ?_⟩
    obtain ⟨rfl, -⟩ : _ = c' ∧ _ ≍ k' := by simpa [hslot'] using h
    exact hx.1 ▸ hcall
  settled _ _ _ _ _ _ _ _ _ hslot' hx := ⟨_, rfl, hx.1, fun _ _ h => by simp [hslot'] at h⟩
  keeps _ _ _ _ _ _ := trivial

theorem withinOutline_sound {ok : Rules}
    (hbody : ∀ subj : Subject, subj.body.Within (may subj) (mayWrite subj)) {w : World} {s : Sys}
    (h : Reach ok (Sys.init w) s) : (withinOutline may mayWrite).Sound s := by
  have hbegins := Outline.sound_init (w := w) (withinOutline_begins (hbody .boot)
    fun _ _ => by simp [Sys.slot, Sys.init, Sys.fresh])
  exact ((withinOutline_correct ok hbody).reach hbegins trivial (fun _ => trivial) h).1

/-- What the bodies keep to, the calls of every reachable state keep to. -/
theorem Reach.calls_within {ok : Rules}
    (hbody : ∀ subj : Subject, subj.body.Within (may subj) (mayWrite subj)) {w : World} {s : Sys}
    (h : Reach ok (Sys.init w) s) {a : Actor} {subj : Subject} {c : Call}
    {k : Except String (Reply c) → Js Result} (hslot : s.slot a = some (subj, .awaiting c k)) :
    may subj c := by
  obtain ⟨x, ⟨rfl, hx⟩, -⟩ := (withinOutline_sound hbody h).awaiting hslot trivial
  exact hx c k hslot

/-- Segments keep what the writes of their subject keep. -/
theorem Reach.run_within {ok : Rules}
    (hbody : ∀ subj : Subject, subj.body.Within (may subj) (mayWrite subj)) {w : World} {s : Sys}
    (h : Reach ok (Sys.init w) s) {β : Type} {f : Vars → β} {a : Actor} {subj : Subject}
    {p : Js Result} (hslot : s.slot a = some (subj, .ready p))
    (hf : ∀ w v, mayWrite subj w → f (w.apply v) = f v) (v : Vars) : f (p.run v).1 = f v := by
  obtain ⟨x, ⟨rfl, -⟩, hwp⟩ := (withinOutline_sound hbody h).ready hslot trivial
  exact wp_run_keeps _ (I := (· = x)) (fun y _ hy => ⟨y, rfl, hy⟩)
    (fun w y v hy hw => ⟨hy, hf w v (hy ▸ hw)⟩) rfl hwp v

end Within

/-- Every subject keeps to its calls and writes. -/
theorem Subject.within (subj : Subject) : subj.body.Within subj.may subj.mayWrite := by
  cases subj with
  | boot => exact Prog.within_true _
  | task kind => exact inspects_body kind
  | op o =>
      cases ho : o.neutral with
      | true => exact (records_body ho).mono (fun _ hc _ => hc) fun _ hw => hw.elim
      | false => exact (Prog.within_true _).mono (fun _ _ h => by simp [ho] at h) fun _ _ => ho

/-- What every later argument knows of a reachable state. -/
structure Sys.Disciplined (s : Sys) : Prop where
  orderly : s.Orderly
  calls : ∀ {a subj c k}, s.slot a = some (subj, .awaiting c k) → subj.may c
  keeps : ∀ {β : Type} {f : Vars → β} {a subj p},
    s.slot a = some (subj, .ready p) → (∀ w v, subj.mayWrite w → f (w.apply v) = f v) →
    ∀ v, f (p.run v).1 = f v

theorem Reach.disciplined {ok : Rules} {w : World} {s : Sys} (h : Reach ok (Sys.init w) s) :
    s.Disciplined :=
  ⟨h.orderly, fun hslot => h.calls_within Subject.within hslot,
    fun hslot hf v => h.run_within Subject.within hslot hf v⟩

end

end BrowserVpn
