import BrowserVpn.Extension.Reapply

/-!
# Extension.Settling — the queue is worked off

Once nobody else moves, the callbacks and tasks that still begin are bounded by
the potential of the state (`Sys.potential`), however Chrome's calls end: only a
refused question about incognito windows adds to it, and only where others are
answered (`no_reapply_loop`).
-/

namespace BrowserVpn

open Async

/-! ## The task under way

A task that was under way when the others came to rest may have read what no
longer holds. It has a bounded number of costly calls left all the same.
-/

/-- What a call costs at worst. -/
def Call.worst (c : Call) : Nat := max (c.price false) (c.price true)

theorem Call.price_le_worst (c : Call) (enabled : Bool) : c.price enabled ≤ c.worst := by
  cases enabled
  · exact Nat.le_max_left _ _
  · exact Nat.le_max_right _ _

theorem Call.price_le (c : Call) (enabled : Bool) : c.price enabled ≤ 24 := by
  cases c <;> simp only [price, Nat.zero_le, Nat.reduceLeDiff] <;> split <;> decide

/-- A function spends what its calls and writes cost at worst. -/
@[reducible] def worstLogic : Logic api Nat where
  reads n _ n' := n' = n
  mayWrite
    | .restoreAfterIncognitoTakeover _, n => 4 ≤ n
    | _, _ => True
  write
    | .restoreAfterIncognitoTakeover _, n => n - 4
    | _, n => n
  mayCall c n := c.worst ≤ n
  issue c n := n - c.worst
  replies _ n _ n' := n' = n

/-- Whatever is read and replied, `p` spends `m` at most. -/
def Spends {α : Type} (p : Js α) (m : Nat) : Prop :=
  ∀ n, wp worstLogic p (fun _ n' => n ≤ n') (n + m)

section

variable {α β : Type} {m n : Nat} {p : Js α}

theorem Spends.mono (h : Spends p m) (hle : m ≤ n) : Spends p n := fun k => by
  obtain ⟨j, rfl⟩ := Nat.exists_eq_add_of_le hle
  have hp := h (k + j)
  rw [Nat.add_assoc, Nat.add_comm j] at hp
  exact wp_mono _ hp fun _ _ hk => (Nat.le_add_right k j).trans hk

/-- One function after the other, whether the first returns or throws. -/
theorem Spends.andThen {f : Except String α → Js β} (hp : Spends p m)
    (hf : ∀ r, Spends (f r) n) : Spends (p.andThen f) (m + n) := fun k => by
  have hp := hp (k + n)
  rw [Nat.add_assoc, Nat.add_comm n] at hp
  rw [wp_andThen]
  refine wp_mono _ hp fun r j hj => ?_
  obtain ⟨i, rfl⟩ := Nat.exists_eq_add_of_le hj
  have hf := hf r (k + i)
  rw [Nat.add_right_comm] at hf
  exact wp_mono _ hf fun _ _ hk => (Nat.le_add_right k i).trans hk

theorem Spends.done (r : Except String α) : Spends (.done r) n := fun k => Nat.le_add_right k n

theorem Spends.bind {f : α → Js β} (hp : Spends p m) (hf : ∀ a, Spends (f a) n) :
    Spends (p >>= f) (m + n) :=
  hp.andThen fun r => by
    cases r with
    | ok a => exact hf a
    | error e => exact .done _

theorem Spends.tryCatch {h : String → Js α} (hp : Spends p m) (hh : ∀ e, Spends (h e) n) :
    Spends (tryCatch p h) (m + n) :=
  hp.andThen fun r => by
    cases r with
    | ok a => exact .done _
    | error e => exact hh e

theorem spends_when {b : Bool} {p : Js Unit} (hp : Spends p m) : Spends (when b p) m := by
  cases b with
  | true => exact hp
  | false => exact .done _

theorem spends_chrome {c : Call} (h : c.worst ≤ m) : Spends (chrome c) m := fun k => by
  refine ⟨h.trans (Nat.le_add_left m k), ?_⟩
  rintro r _ rfl
  show k ≤ k + m - c.worst
  omega

theorem spends_restore (b : Bool) : Spends (Prog.set (.restoreAfterIncognitoTakeover b)) 4 :=
  fun k => ⟨Nat.le_add_left 4 k, (Nat.add_sub_cancel k 4).ge⟩

/-- What costs nothing spends nothing. -/
theorem spends_free (hp : Free p) : Spends p 0 := fun k => by
  refine wp_of_within _ (I := (k ≤ ·)) hp ?_ ?_ ?_ (Nat.le_refl k)
  · rintro x v _ hk rfl
    exact hk
  · intro w x hk hw
    cases w with
    | restoreAfterIncognitoTakeover b => exact absurd rfl (hw b)
    | _ => exact ⟨trivial, hk⟩
  · intro c x hk hc
    have hworst : c.worst = 0 := by simp [Call.worst, (hc false).1, (hc true).1]
    refine ⟨hworst.le.trans (Nat.zero_le x), ?_⟩
    rintro r _ rfl
    show k ≤ x - c.worst
    omega

theorem spends_free_bind {f : α → Js β} (hp : Free p) (hf : ∀ a, Spends (f a) n) :
    Spends (p >>= f) n :=
  ((spends_free hp).bind hf).mono (Nat.zero_add n).le

theorem spends_bind_free {f : α → Js β} (hp : Spends p n) (hf : ∀ a, Free (f a)) :
    Spends (p >>= f) n :=
  hp.bind fun a => spends_free (hf a)

theorem spends_lift_bind {r : Except String α} {f : α → Js β} (hf : ∀ a, Spends (f a) n) :
    Spends (lift r >>= f) n :=
  spends_free_bind (within_lift r) hf

theorem spends_await (hp : Spends p n) : Spends (await p) n :=
  hp.andThen fun r => spends_free (p := .call .tick fun _ => .done r)
    ⟨fun _ => ⟨rfl, fun _ => rfl⟩, fun _ => trivial⟩

/-- Whoever has enough affords it, whatever it has been told. -/
theorem affords_of_spends {T : Tally} {level : Bool} {Q : Except String α → Nat → Prop} {x : Purse}
    (h : wp worstLogic p Q n) (hcredit : n ≤ x.credit) : Purse.Affords T level p x := by
  induction p generalizing n x with
  | done r => trivial
  | read k ih =>
      rintro v x' ⟨hx, -⟩
      rw [hx]
      exact ih v (h v n rfl) hcredit
  | write w k ih =>
      cases w with
      | restoreAfterIncognitoTakeover b =>
          have hle := bonus_le level b
          have hpaid : 4 ≤ n := h.1
          refine ⟨?_, ih h.2 ?_⟩
          · show bonus level b ≤ x.credit + bonus level x.restore
            omega
          · show n - 4 ≤ x.credit + bonus level x.restore - bonus level b
            omega
      | _ => exact ⟨trivial, ih h.2 hcredit⟩
  | call c k ih =>
      have hle := c.price_le_worst x.enabled
      have hpaid : c.worst ≤ n := h.1
      refine ⟨?_, ?_⟩
      · show c.price x.enabled ≤ x.credit
        omega
      · rintro r x' ⟨hx, -⟩
        rw [hx]
        refine ih r (h.2 r (n - c.worst) rfl) ?_
        show n - c.worst ≤ x.credit - c.price x.enabled + _
        omega

/-! What each function spends. -/

theorem spends_clearOwnSettings : Spends clearOwnSettings 12 :=
  spends_free_bind (free_await free_clearOwnProxySetting) fun _ =>
    spends_await (spends_chrome (c := .webRTCClear) (by decide))

theorem spends_disable {p : Patch} (h : p.enabled = some false) :
    Spends (chrome (.storageSet p)) 0 :=
  spends_chrome (by simp [Call.worst, Call.price, h])

theorem spends_disable_bind {p : Patch} {f : Unit → Js β} (h : p.enabled = some false)
    (hf : ∀ a, Spends (f a) n) : Spends (chrome (.storageSet p) >>= f) n :=
  ((spends_disable h).bind hf).mono (Nat.zero_add n).le

theorem spends_setProxy (expected : ProxyConfig) (message : String) :
    Spends (setProxy expected message) 4 :=
  spends_bind_free (spends_chrome (Nat.le_refl 4)) fun _ =>
    .bind (free_await (asks_effectiveSetting false).free) fun _ => trivial

theorem spends_restrictWebRTC : Spends restrictWebRTC 24 := by
  refine spends_free_bind (free_await (asks_webRTCSetting false).free) fun rtc => spends_when ?_
  refine spends_free_bind (free_await free_clearOwnProxySetting) fun _ => ?_
  refine spends_free_bind (within_ensure _ _) fun _ => ?_
  refine spends_bind_free (spends_chrome (by decide)) fun _ => ?_
  exact .bind (free_await (asks_webRTCSetting false).free) fun _ => trivial

theorem spends_reset : Spends (do
    Prog.set (.restoreAfterIncognitoTakeover false)
    Prog.set (.ownProxyClearedForConflict false)) 4 :=
  spends_bind_free (spends_restore false) fun _ => free_ownProxyClearedForConflict false

variable [Platform]

theorem free_finish : Free (await updateBadge >>= fun _ => status) :=
  .bind (free_await free_updateBadge) fun _ => free_status

theorem spends_restoreRoute (connection : Connection) (exclusions : List JsString) :
    Spends (restoreRoute connection exclusions) 36 := by
  refine .bind (n := 12) spends_restrictWebRTC fun _ => ?_
  refine spends_free_bind free_ensureIncognitoWebRTC fun _ => ?_
  refine spends_free_bind (free_await (asks_effectiveSetting false).free) fun setting => ?_
  refine spends_free_bind (within_ensure _ _) fun _ => spends_lift_bind fun expected => ?_
  refine spends_free_bind (free_await (asks_incognitoProxyState expected).free) fun st => ?_
  refine .bind (n := 8) (spends_when ?_) fun _ => ?_
  · exact spends_bind_free (spends_restore true) fun _ => trivial
  refine .bind (n := 4) (spends_when (spends_setProxy expected _)) fun _ => ?_
  exact spends_free_bind (free_verifyRoute expected) fun _ => spends_reset

theorem spends_reconcileRoute (data : Config) : Spends (reconcileRoute data) 36 := by
  have hclear : Spends clearOwnSettings 36 := spends_clearOwnSettings.mono (by decide)
  unfold reconcileRoute
  split
  · exact spends_disable_bind rfl fun _ => hclear
  · exact ((spends_when (spends_disable rfl)).bind fun _ => hclear).mono (by decide)
  · split
    · exact hclear
    · exact .tryCatch (n := 0) (spends_restoreRoute _ _) fun _ =>
        spends_free (free_await free_clearOwnProxySetting)

theorem spends_reconcileAtStartup : Spends reconcileAtStartup 36 := by
  refine spends_free_bind (within_chrome fun _ => ⟨rfl, fun _ => rfl⟩) fun _ => ?_
  refine spends_free_bind (free_await asks_stored.free) fun data => ?_
  exact spends_bind_free (spends_reconcileRoute _) fun _ => free_await free_updateBadge

theorem spends_importKey (key : JsVal) : Spends (importKey key) 12 := by
  refine spends_lift_bind fun connection => ?_
  refine spends_disable_bind rfl fun _ => spends_bind_free spends_clearOwnSettings fun _ => ?_
  exact .bind (within_chrome (Patch.free rfl)) fun _ => free_finish

theorem spends_disconnect : Spends disconnect 16 := by
  refine .bind (n := 12) (spends_restore false) fun _ => ?_
  refine spends_free_bind (free_ownProxyClearedForConflict false) fun _ => ?_
  refine spends_disable_bind rfl fun _ => ?_
  exact spends_bind_free spends_clearOwnSettings fun _ => free_finish

theorem spends_forget : Spends forget 16 :=
  spends_bind_free (spends_await spends_disconnect) fun _ =>
    .bind (within_chrome fun _ => ⟨rfl, fun _ => rfl⟩) fun _ => free_finish

omit [Platform] in
theorem spends_establishRoute (expected : ProxyConfig) : Spends (establishRoute expected) 28 := by
  refine .bind (n := 4) (spends_chrome (m := 24) (by decide)) fun _ => ?_
  refine spends_free_bind (free_await (asks_webRTCSetting false).free) fun rtc => ?_
  refine spends_free_bind (within_ensure _ _) fun _ => ?_
  refine spends_free_bind free_ensureIncognitoWebRTC fun _ => ?_
  refine spends_bind_free (spends_setProxy expected _) fun _ => ?_
  exact .bind (free_ensureIncognitoProxy _ _) fun _ => free_ensureRestricted _

theorem spends_abandonRoute (error : String) : Spends (abandonRoute error) 12 := by
  refine spends_disable_bind rfl fun _ => ?_
  refine spends_bind_free spends_clearOwnSettings fun _ => ?_
  exact .bind (free_await free_updateBadge) fun _ => trivial

theorem spends_enableRoute (expected : ProxyConfig) (rtc : Setting WebRTCPolicy) :
    Spends (enableRoute expected rtc) 56 := by
  refine spends_free_bind (within_when (free_await free_clearOwnProxySetting)) fun _ => ?_
  refine .bind (n := 44) (spends_chrome (Nat.le_refl 12)) fun _ => ?_
  refine .bind (n := 4) (.tryCatch (spends_establishRoute expected) spends_abandonRoute) fun _ => ?_
  refine spends_bind_free (spends_restore false) fun _ => ?_
  exact .bind (free_ownProxyClearedForConflict false) fun _ => free_finish

theorem spends_connect : Spends connect 56 := by
  refine spends_free_bind (free_await asks_stored.free) fun data => ?_
  refine spends_lift_bind fun connection => spends_lift_bind fun exclusions => ?_
  refine spends_free_bind (free_await (asks_effectiveSetting false).free) fun setting => ?_
  refine spends_free_bind (within_when (free_refuse _)) fun _ => spends_lift_bind fun expected => ?_
  refine spends_free_bind (free_await (asks_incognitoProxyState expected).free) fun st => ?_
  refine spends_free_bind (within_when (free_refuse _)) fun _ => ?_
  refine spends_free_bind (free_await (asks_webRTCSetting false).free) fun rtc => ?_
  exact spends_free_bind (within_when (free_refuse _)) fun _ => spends_enableRoute expected rtc

theorem spends_checkRoute (connection : Connection) (old : Config) :
    Spends (checkRoute connection old) 4 := by
  refine spends_free_bind (free_await (asks_effectiveSetting false).free) fun setting => ?_
  refine spends_free_bind (within_when (free_refuse _)) fun _ => ?_
  refine spends_free_bind (free_await free_restrictedInAllEnabledContexts) fun _ => ?_
  refine spends_free_bind (within_when (free_refuse _)) fun _ => ?_
  refine spends_lift_bind fun exclusions => spends_lift_bind fun expected => ?_
  refine spends_free_bind (free_await (asks_incognitoProxyState expected).free) fun st => ?_
  exact spends_when (spends_bind_free (spends_restore true) fun _ => free_refuse _)

theorem spends_rollbackExclusions (connection : Connection) (old : Config) (error : String) :
    Spends (rollbackExclusions connection old error) 4 := by
  refine spends_free_bind (within_chrome (Patch.free rfl)) fun _ => ?_
  refine spends_bind_free (.tryCatch (n := 0) ?_ fun _ =>
    spends_free (free_attempt free_clearOwnProxySetting)) fun _ =>
      .bind (free_await free_updateBadge) fun _ => trivial
  refine spends_lift_bind fun exclusions => spends_lift_bind fun previous => ?_
  refine spends_free_bind (free_ensureRestricted _) fun _ => ?_
  refine spends_free_bind (free_await (asks_incognitoProxyState previous).free) fun st => ?_
  refine spends_free_bind (within_ensure _ _) fun _ => ?_
  refine spends_bind_free (spends_setProxy previous _) fun _ => ?_
  exact .bind (free_ensureIncognitoProxy _ _) fun _ => free_ensureRestricted _

theorem spends_saveExclusions (text : JsVal) : Spends (saveExclusions text) 12 := by
  refine spends_lift_bind fun exclusions => ?_
  refine spends_free_bind (free_await asks_stored.free) fun old => spends_lift_bind fun connection => ?_
  refine .bind (n := 8) (spends_when (spends_checkRoute connection _)) fun _ => ?_
  refine spends_free_bind (within_chrome (Patch.free rfl)) fun _ => ?_
  refine spends_bind_free (spends_when (.tryCatch (m := 4) (n := 4) ?_ fun e =>
    spends_rollbackExclusions connection _ e)) fun _ =>
      .bind (free_ownProxyClearedForConflict false) fun _ => free_finish
  refine spends_lift_bind fun expected => spends_bind_free (spends_setProxy expected _) fun _ => ?_
  exact .bind (free_ensureIncognitoProxy _ _) fun _ => free_ensureRestricted _

omit [Platform] in
theorem spends_clearOnConflict (st : IncognitoProxyState) : Spends (clearOnConflict st) 4 := by
  unfold clearOnConflict
  split
  · exact spends_reset
  · refine spends_free_bind within_get fun v => spends_when ?_
    refine spends_bind_free (spends_restore _) fun _ => ?_
    exact .bind (free_await free_clearOwnProxySetting) fun _ => free_ownProxyClearedForConflict true

theorem spends_restoreAfterTakeover (st : IncognitoProxyState) (regular : Setting ProxyConfig) :
    Spends (restoreAfterTakeover st regular) 40 := by
  refine spends_free_bind within_get fun v => spends_when ?_
  refine spends_free_bind (free_await free_restrictedInAllEnabledContexts) fun restricted =>
    spends_when ?_
  refine .bind (n := 36) (spends_restore false) fun _ => ?_
  exact spends_free_bind (free_ownProxyClearedForConflict false) fun _ =>
    spends_await spends_reconcileAtStartup

theorem spends_onProxyChange : Spends onProxyChange 44 := by
  refine .andThen (n := 0) ?_ fun r => .andThen (n := 0)
    (spends_free (free_await free_updateBadge)) fun r' => by cases r' <;> exact .done _
  refine spends_free_bind (free_await asks_stored.free) fun data => spends_when ?_
  refine spends_lift_bind fun connection => spends_lift_bind fun exclusions => ?_
  refine spends_lift_bind fun expected => ?_
  refine spends_free_bind (free_await (asks_incognitoProxyState expected).free) fun st => ?_
  refine spends_free_bind (free_await (asks_effectiveSetting false).free) fun regular => ?_
  exact .bind (spends_clearOnConflict st) fun _ => spends_restoreAfterTakeover st regular

/-- No task spends more than this. -/
theorem spends_body (op : Op) : Spends op.body 56 := by
  cases hop : op.neutral with
  | true => exact (spends_free (records_body hop).free).mono (Nat.zero_le 56)
  | false =>
      refine spends_await ?_
      have hmap : ∀ {α : Type} {p : Js α} {m : Nat} (f : α → Result), Spends p m → m ≤ 56 →
          Spends (f <$> p) 56 := fun f hp hm =>
        (spends_bind_free (f := fun a => pure (f a)) hp fun _ => trivial).mono hm
      cases op with
      | importKey key => exact hmap _ (spends_importKey key) (by decide)
      | connect => exact hmap _ spends_connect (by decide)
      | disconnect => exact hmap _ spends_disconnect (by decide)
      | forget => exact hmap _ spends_forget (by decide)
      | saveExclusions text => exact hmap _ (spends_saveExclusions text) (by decide)
      | proxyChanged => exact hmap _ spends_onProxyChange (by decide)
      | webRTCChanged => exact hmap _ spends_reconcileAtStartup (by decide)
      | _ => cases hop

end

/-! ## The potential -/

/-- The steps of the worker itself, and of the calls it awaits. -/
def Label.own : Label → Bool
  | .requestDone _ | .clock _ | .dispatch _ | .start | .land _ _ | .resume _ => true
  | _ => false

/-- Nobody else takes or releases a setting, no message or event comes in from
outside, and the worker is not restarted. Calls may end as they like. -/
def Rules.leftAlone : Rules := fun _ l => l.own = true

/-- Whether the incognito value of a setting is open to this extension. -/
def Others.admits {V : Type} (o : Others V) : Bool :=
  match o.incognito with
  | some setting => setting.levelOfControl.controllable
  | none => o.held.isNone

theorem ChromeSetting.effective_admits {V : Type} (s : ChromeSetting V) :
    (s.effective true).levelOfControl.controllable = s.others.admits := by
  unfold effective Others.admits
  rcases hincognito : s.others.incognito with _ | setting
  · rcases hheld : s.others.held with _ | ⟨_ | _, v⟩
    · rcases hown : s.own with _ | v <;>
        simp [regular, hheld, hown, LevelOfControl.controllable]
    · simp [regular, hheld, Holder.setting, LevelOfControl.controllable]
    · simp [regular, hheld, Holder.setting, LevelOfControl.controllable]
  · rfl

/-- What has begun, and all that can still begin. -/
def Sys.potential (level : Bool) (s : Sys) : Nat :=
  executions s.trace + s.waiting + s.world.due +
    bonus level s.vars.restoreAfterIncognitoTakeover

/-- Changes of settings count as nothing by themselves. -/
theorem executions_move (s : Sys) (w : World) : executions (s.move w).trace = executions s.trace := by
  obtain ⟨new, htrace, hnew⟩ := s.move_trace w
  rw [htrace]
  exact Sys.reading_next fun o ho t => by rw [hnew o ho]; rfl

theorem Tally.count_move (T : Tally) (s : Sys) (w : World) :
    T.count (s.move w).trace = T.count s.trace := by
  obtain ⟨new, htrace, hnew⟩ := s.move_trace w
  rw [htrace]
  exact Sys.reading_next fun o ho t => by rw [hnew o ho]; rfl

section

variable [Platform] [Browser] {s s' : Sys} {l : Label}

/-- What is known while nobody else moves. -/
structure Sys.Undisturbed (s : Sys) : Prop where
  boot : s.boot = none
  disciplined : s.Disciplined
  hands : handOutline.Sound s

omit [Platform] [Browser] in
theorem Sys.potential_le (level : Bool)
    (hruns : executions s'.trace + s'.waiting ≤ executions s.trace + s.waiting)
    (hworld : s'.world.due = s.world.due)
    (hrestore : s'.vars.restoreAfterIncognitoTakeover = s.vars.restoreAfterIncognitoTakeover) :
    s'.potential level ≤ s.potential level := by
  unfold potential
  rw [hworld, hrestore]
  omega

/-- Steps other than the running task's: nothing that it relies on moves, and
the potential does not rise. -/
theorem Sys.Undisturbed.others (hk : s.Undisturbed) (level : Bool) (T : Tally)
    (hs : s.next l = some s') (hl : l.own = true) (hstart : l ≠ .start)
    (ha : l.actor ≠ some .op) :
    s'.potential level ≤ s.potential level ∧ s'.running = s.running ∧
      s'.world.storage = s.world.storage ∧
      s'.vars.restoreAfterIncognitoTakeover = s.vars.restoreAfterIncognitoTakeover ∧
      T.count s'.trace = T.count s.trace := by
  -- No `boot` is left: a thread that moves is a callback's.
  have hcallback : ∀ a, l.actor = some a → ∀ {subj thread}, s.slot a = some (subj, thread) →
      ∃ t kind, a = .task t ∧ subj = .task kind := by
    rintro (_ | _ | t) hactor subj thread hslot
    · simpa [hk.boot] using (slot_boot hslot).2
    · exact absurd hactor ha
    · obtain ⟨kind, -, rfl⟩ := task_of_slot hslot
      exact ⟨t, kind, rfl, rfl⟩
  cases l with
  | requestDone id =>
      obtain rfl := Option.some.inj hs
      have hwaiting : (s.onRequestDone id).waiting = s.waiting :=
        waiting_congr rfl rfl fun _ => rfl
      refine ⟨potential_le level ?_ rfl rfl, rfl, rfl, rfl, rfl⟩
      rw [hwaiting]
      exact Nat.le_refl _
  | clock now =>
      obtain rfl := Option.some.inj hs
      exact ⟨Nat.le_refl _, rfl, rfl, rfl, rfl⟩
  | dispatch t =>
      have hwaiting := waiting_dispatch hs
      obtain ⟨kind, -, -, rfl⟩ := dispatch_eq_some hs
      refine ⟨potential_le level ?_ rfl rfl, rfl, rfl, rfl, rfl⟩
      show executions s.trace + 1 + _ ≤ _
      omega
  | land a o =>
      obtain ⟨subj, c, k, r, w, hslot, hw, rfl⟩ := land_eq_some hs
      obtain ⟨t, kind, rfl, rfl⟩ := hcallback a rfl hslot
      have hwaiting := waiting_callback hk.disciplined hk.hands hs rfl
      obtain rfl := World.land_inspects hw (hk.disciplined.calls hslot)
      rw [answer, move_self] at hwaiting ⊢
      exact ⟨potential_le level (Nat.add_le_add_left hwaiting _) rfl rfl, rfl, rfl, rfl, rfl⟩
  | resume a =>
      obtain ⟨subj, p, hslot, hend⟩ := resume_eq_some hs
      obtain ⟨t, kind, rfl, rfl⟩ := hcallback a rfl hslot
      have hwaiting := waiting_callback hk.disciplined hk.hands hs rfl
      have hrestore := (hk.disciplined.run_quiet hslot rfl).1
      rcases hend with ⟨v, c, k, hp, rfl⟩ | ⟨v, r, hp, rfl⟩
      all_goals
        rw [hp] at hrestore
        exact ⟨potential_le level (Nat.add_le_add_left hwaiting _) rfl hrestore, rfl, rfl,
          hrestore, rfl⟩
  | start => exact absurd rfl hstart
  | _ => cases hl

end

/-! ## The outline -/

/-- What a purse says about a state: the task has all it needs to pay with. -/
structure Purse.Fits (T : Tally) (level : Bool) (N base : Nat) (x : Purse) (s : Sys) : Prop where
  enabled : s.world.storage.isEnabled = x.enabled
  restore : s.vars.restoreAfterIncognitoTakeover = x.restore
  covered : s.potential level + x.credit + 4 * base ≤ N + 4 * T.count s.trace
  pays : ∀ {subj c k}, s.slot .op = some (subj, .awaiting c k) → c.price x.enabled ≤ x.credit

section

variable {T : Tally} {level : Bool} {N base : Nat} {x : Purse} {s s' : Sys} {l : Label}

namespace Purse.Fits

/-- A restoration is set aside, or given back, out of the credit. -/
theorem write (h : x.Fits T level N base s) {subj : Subject} {p : Js Result}
    (hslot : s.slot .op = some (subj, .ready p)) {w : Write}
    (hw : (purseLogic T level).mayWrite w x) :
    ((purseLogic T level).write w x).Fits T level N base { s with vars := w.apply s.vars } := by
  have hready : ∀ {subj c k}, ({ s with vars := w.apply s.vars } : Sys).slot .op ≠
      some (subj, .awaiting c k) := fun h => by simp [Sys.slot_vars, hslot] at h
  cases w with
  | restoreAfterIncognitoTakeover b =>
      refine ⟨h.enabled, rfl, ?_, fun h => absurd h hready⟩
      have hcovered := h.covered
      have hw : bonus level b ≤ x.credit + bonus level x.restore := hw
      simp only [Sys.potential, h.restore] at hcovered
      show executions s.trace + s.waiting + s.world.due + bonus level b +
        (x.credit + bonus level x.restore - bonus level b) + 4 * base ≤ N + 4 * T.count s.trace
      omega
  | _ => exact ⟨h.enabled, h.restore, h.covered, fun h => absurd h hready⟩

/-- The steps of the others leave a purse as it is. -/
theorem others [Platform] [Browser] (h : x.Fits T level N base s) (hk : s.Undisturbed)
    (hs : s.next l = some s') (hl : l.own = true) (ha : l.actor ≠ some .op) {subj : Subject}
    {thread : Thread api Result} (hslot : s.slot .op = some (subj, thread))
    (hslot' : s'.slot .op = some (subj, thread)) : x.Fits T level N base s' := by
  have hstart : l ≠ .start := by
    rintro rfl
    obtain ⟨op, owner, rest, hr, -, -⟩ := Sys.startOp_eq_some hs
    obtain ⟨op', owner', hr', -⟩ := Sys.slot_op hslot
    simp [hr] at hr'
  obtain ⟨hpotential, -, hstorage, hrestore, hcount⟩ := hk.others level T hs hl hstart ha
  refine ⟨hstorage ▸ h.enabled, hrestore.trans h.restore, ?_, fun h' => ?_⟩
  · have hcovered := h.covered
    rw [hcount]
    omega
  · exact h.pays (hslot.trans (hslot'.symm.trans h'))

/-- A task begins with the cost of its start. -/
theorem enter [Platform] {op : Op} {owner : Option Nat} {rest : List (Op × Option Nat)}
    (hcovered : s.potential level + 4 * base ≤ N + 4 * T.count s.trace)
    (hq : s.queue = (op, owner) :: rest) :
    (⟨s.world.storage.isEnabled, s.vars.restoreAfterIncognitoTakeover, op.cost - 1⟩ : Purse).Fits
      T level N base (s.enter op owner rest) := by
  refine ⟨rfl, rfl, ?_, fun h => ?_⟩
  · have hwaiting := Sys.waiting_enter hq
    have hcost := op.cost_pos
    have hcovered' : executions s.trace + s.waiting + s.world.due +
        bonus level s.vars.restoreAfterIncognitoTakeover + 4 * base ≤
          N + 4 * T.count s.trace := hcovered
    show executions s.trace + 1 + (s.enter op owner rest).waiting + s.world.due +
      bonus level s.vars.restoreAfterIncognitoTakeover + (op.cost - 1) + 4 * base ≤
        N + 4 * T.count s.trace
    omega
  · simp [Sys.slot] at h

/-- A call lands: it has been paid for. -/
theorem land [Browser] (h : x.Fits T level N base s) {subj : Subject} {c : Call}
    {k : Except String (Reply c) → Js Result} {o : Outcome} {r : Except String (Reply c)}
    {w : World} (hslot : s.slot .op = some (subj, .awaiting c k))
    (hw : s.world.land c o = some (r, w))
    (hslot' : (s.answer .op c k r w).slot .op = some (subj, .ready (k r))) :
    (x.land T c r).Fits T level N base (s.answer .op c k r w) := by
  obtain ⟨n, -, hvars⟩ := s.move_vars w
  have hrestore : (s.answer .op c k r w).vars.restoreAfterIncognitoTakeover = x.restore := by
    rw [Sys.answer_vars, hvars]
    exact h.restore
  refine ⟨?_, hrestore, ?_, fun h' => by simp [hslot'] at h'⟩
  · rw [Sys.answer_world, World.land_enabled hw, h.enabled]
    rfl
  · have hpays := h.pays hslot
    have hdue := World.due_land hw
    have hwaiting := s.waiting_answer c k r w
    have hcovered := h.covered
    have hcount : T.count (s.answer .op c k r w).trace =
        T.count s.trace + if T.counts c r then 1 else 0 := by
      rw [Sys.answer_trace, Tally.count, Tally.count_move]
    have hruns : executions (s.answer .op c k r w).trace = executions s.trace := by
      rw [Sys.answer_trace]
      exact executions_move s w
    simp only [Sys.potential, h.restore] at hcovered
    rw [h.enabled] at hdue
    simp only [Sys.potential, hrestore, hcount, hruns, hwaiting, Sys.answer_world, Purse.land]
    split <;> omega

/-- A task comes to a call that it can pay for. -/
theorem suspend {v : Vars} (h : x.Fits T level N base { s with vars := v }) {subj : Subject}
    {c : Call} {k : Except String (Reply c) → Js Result} (hcall : c.price x.enabled ≤ x.credit)
    (hslot : (({ s with vars := v } : Sys).suspend .op c k).slot .op =
      some (subj, .awaiting c k)) :
    x.Fits T level N base (({ s with vars := v } : Sys).suspend .op c k) := by
  refine ⟨h.enabled, h.restore, ?_, fun {subj' c' k'} h' => ?_⟩
  · have hwaiting := Sys.waiting_suspend (s := s) v c k
    have hsame : (({ s with vars := v } : Sys).suspend .op c k).potential level =
        ({ s with vars := v } : Sys).potential level := by
      unfold Sys.potential
      rw [hwaiting]
      rfl
    rw [hsame]
    exact h.covered
  · obtain ⟨-, rfl, -⟩ : subj = subj' ∧ c = c' ∧ k ≍ k' := by simpa [hslot] using h'
    exact hcall

/-- What is left at the end of a task is not needed. -/
theorem finish {v : Vars} (h : x.Fits T level N base { s with vars := v })
    (r : Except String Result) :
    (({ s with vars := v } : Sys).finish .op r).potential level + 4 * base ≤
      N + 4 * T.count s.trace := by
  have hwaiting := Sys.waiting_finish (s := s) v r
  have hcovered : executions s.trace + s.waiting + s.world.due +
      bonus level v.restoreAfterIncognitoTakeover + x.credit + 4 * base ≤
        N + 4 * T.count s.trace := h.covered
  obtain ⟨b, hb⟩ := ({ s with vars := v } : Sys).finish_vars .op r
  unfold Sys.potential
  rw [Sys.finish_trace, Sys.finish_world, hb]
  show executions s.trace + _ + s.world.due + bonus level v.restoreAfterIncognitoTakeover +
    4 * base ≤ _
  omega

end Purse.Fits

variable [Platform] [Browser]

/-- The outline of the tasks. -/
@[reducible] def purseOutline (T : Tally) (level : Bool) (N base : Nat) : Outline where
  View := Purse
  logic := purseLogic T level
  covers subj := ∃ op, subj = .op op
  At _ _ x s := x.Fits T level N base s
  post _ _ _ := True

/-- What is known on the way: the incognito proxy is controllable or not. -/
structure Informed (T : Tally) (level : Bool) (s : Sys) : Prop extends s.Undisturbed where
  tells : T = .refusals → s.world.proxy.others.admits = level

/-- Between the tasks the potential is covered. -/
def Covered (T : Tally) (level : Bool) (N base : Nat) (s : Sys) : Prop :=
  s.running = none → s.potential level + 4 * base ≤ N + 4 * T.count s.trace

omit [Platform] in
/-- What a landing tells the running task. -/
theorem told_land {c : Call} {o : Outcome} {r : Except String (Reply c)} {w : World}
    (htells : T = .refusals → s.world.proxy.others.admits = level)
    (hx : s.world.storage.isEnabled = x.enabled) (hw : s.world.land c o = some (r, w)) :
    x.told T level c r := by
  cases c with
  | storageGet =>
      cases o <;> simp only [World.land, reduceCtorEq, Option.some.injEq, Prod.mk.injEq] at hw <;>
        obtain ⟨rfl, -⟩ := hw
      · exact hx
      · trivial
  | proxyGet incognito =>
      cases o <;> simp only [World.land, reduceCtorEq, Option.some.injEq, Prod.mk.injEq] at hw <;>
        obtain ⟨rfl, -⟩ := hw
      · cases incognito with
        | false => trivial
        | true => exact fun hT => (s.world.proxy.effective_admits).trans (htells hT)
      · cases incognito <;> trivial
  | _ => cases r <;> trivial

omit [Platform] [Browser] in
theorem purseOutline_coherent : (purseOutline T level N base).Coherent where
  enters _ _ hx := hx
  reads _ _ hx := ⟨_, ⟨rfl, hx.restore⟩, hx⟩
  writes hslot hc hw hx := by
    obtain ⟨op, rfl⟩ := hc
    obtain rfl := Sys.actor_of_op hslot
    exact hx.write ((Sys.slot_vars _ _ _).trans hslot) hw

theorem purseOutline_correct (hT : T = .answers → level = false) :
    (purseOutline T level N base).Correct Rules.leftAlone (Informed T level)
      (Covered T level N base) where
  toCoherent := purseOutline_coherent
  frame hk _ _ _ hl hs ha _ hslot hc hslot' hx := by
    obtain ⟨op, rfl⟩ := hc
    obtain rfl := Sys.actor_of_op hslot
    exact hx.others hk.toUndisturbed hs hl ha hslot hslot'
  restarted _ _ hl := by cases hl
  entered {s op owner rest} _ hi _ hr hq _ _ := by
    have hcost := op.cost_pos
    exact ⟨_, Purse.Fits.enter (hi hr) hq, Purse.affords_body hT op (by
      show op.cost ≤ op.cost - 1 + 1
      omega)⟩
  dispatched _ _ _ _ _ hc := by
    obtain ⟨op, hop⟩ := hc
    cases hop
  answered {s a o subj c k r w x} hk _ _ hslot hc hw _ hslot' hx := by
    obtain ⟨op, rfl⟩ := hc
    obtain rfl := Sys.actor_of_op hslot
    exact ⟨x.land T c r, ⟨rfl, told_land hk.tells hx.enabled hw⟩, hx.land hslot hw hslot'⟩
  suspended _ _ _ hslot hc _ hslot' _ hcall hx := by
    obtain ⟨op, rfl⟩ := hc
    obtain rfl := Sys.actor_of_op hslot
    exact hx.suspend hcall hslot'
  settled _ _ _ _ _ _ hslot hc := by
    obtain ⟨op, rfl⟩ := hc
    cases Sys.actor_of_op hslot
  keeps {s l s'} hk _ hsound hi hl hs hr' := by
    have hidle : ∀ subj thread, s'.slot .op ≠ some (subj, thread) := fun subj thread h => by
      obtain ⟨op, owner, hr, -⟩ := Sys.slot_op h
      simp [hr] at hr'
    by_cases ha : l.actor = some .op
    · cases l with
      | land a o =>
          obtain rfl : a = .op := Option.some.inj ha
          obtain ⟨subj, c, k, r, w, hslot, hw, rfl⟩ := Sys.land_eq_some hs
          refine absurd ?_ (hidle subj (.ready (k r)))
          rw [Sys.answer, Sys.slot_emit]
          exact Sys.slot_park_self _ ((Sys.slot_move s w _).trans hslot) _
      | resume a =>
          obtain rfl : a = .op := Option.some.inj ha
          obtain ⟨subj, p, hslot, ⟨v, c, k, hp, rfl⟩ | ⟨v, r, hp, rfl⟩⟩ := Sys.resume_eq_some hs
          · exact absurd (Sys.slot_suspend_self s .op c k hslot) (hidle _ _)
          · obtain ⟨op, owner, -, rfl⟩ := Sys.slot_op hslot
            have hcoherent : (purseOutline T level N base).Coherent := purseOutline_coherent
            obtain ⟨x, hx, -⟩ := hcoherent.finished hsound hslot ⟨op, rfl⟩ hp
            rw [Sys.finish_trace]
            exact hx.finish r
      | _ => cases ha
    · have hstart : l ≠ .start := by
        rintro rfl
        obtain ⟨op, owner, rest, -, -, rfl⟩ := Sys.startOp_eq_some hs
        cases hr'
      obtain ⟨hpotential, hrunning, -, -, hcount⟩ := hk.others level T hs hl hstart ha
      have hcovered := hi (hrunning.symm.trans hr')
      rw [hcount]
      omega

/-! ## The task under way -/

/-- The outline of the tasks as far as any run is concerned. -/
@[reducible] def worstOutline : Outline where
  View := Nat
  logic := worstLogic
  covers subj := ∃ op, subj = .op op
  At _ _ n _ := n ≤ 56
  post _ _ _ := True

theorem worstOutline_correct (ok : Rules) :
    worstOutline.Correct ok (fun _ => True) fun _ => True where
  enters _ _ hx := hx
  reads _ _ hx := ⟨_, rfl, hx⟩
  writes {s a subj p n v w} _ _ _ hn := by
    cases w with
    | restoreAfterIncognitoTakeover b => exact (Nat.sub_le n 4).trans hn
    | _ => exact hn
  frame _ _ _ _ _ _ _ _ _ _ _ hx := hx
  restarted _ _ _ hc := by
    obtain ⟨op, hop⟩ := hc
    cases hop
  entered {s op owner rest} _ _ _ _ _ _ _ :=
    ⟨56, Nat.le_refl 56, wp_mono _ (spends_body op 0) fun _ _ _ => trivial⟩
  dispatched _ _ _ _ _ hc := by
    obtain ⟨op, hop⟩ := hc
    cases hop
  answered _ _ _ _ _ _ _ _ hx := ⟨_, rfl, hx⟩
  suspended _ _ _ _ _ _ _ _ _ hx := (Nat.sub_le _ _).trans hx
  settled _ _ _ _ _ _ _ _ _ _ hx := ⟨_, rfl, hx⟩
  keeps _ _ _ _ _ _ := trivial

/-- In every reachable state the task under way has a bounded number of costly
calls left. -/
theorem worstOutline_sound {ok : Rules} {w : World} (h : Reach ok (Sys.init w) s) :
    worstOutline.Sound s :=
  ((worstOutline_correct ok).reach (Outline.sound_init fun hc => by
    obtain ⟨op, hop⟩ := hc
    cases hop) trivial (fun _ => trivial) h).1

/-- With 80 to spend, the task under way is on course: 56 for what it has yet
to do, and what the call it awaits may cost. -/
theorem purseOutline_sound {ok : Rules} {w : World} (h : Reach ok (Sys.init w) s)
    (hN : s.potential level + 80 + 4 * base ≤ N + 4 * T.count s.trace) :
    (purseOutline T level N base).Sound s := by
  rintro a subj thread hslot ⟨op, rfl⟩
  obtain rfl := Sys.actor_of_op hslot
  have hworst := worstOutline_sound h .op _ thread hslot ⟨op, rfl⟩
  have hfits : (⟨s.world.storage.isEnabled, s.vars.restoreAfterIncognitoTakeover, 80⟩ :
      Purse).Fits T level N base s :=
    ⟨rfl, rfl, hN, fun {_ c _} _ => (c.price_le _).trans (Nat.le_add_left 24 56)⟩
  cases thread with
  | ready p =>
      obtain ⟨n, hn, hp⟩ := hworst
      exact ⟨_, hfits, affords_of_spends hp (hn.trans (Nat.le_add_right 56 24))⟩
  | awaiting c k =>
      obtain ⟨n, hn, hk⟩ := hworst
      refine ⟨_, hfits, fun r x' hx => affords_of_spends (hk r n rfl) ?_⟩
      have hprice := c.price_le s.world.storage.isEnabled
      have hn : n ≤ 56 := hn
      rw [hx.1]
      refine le_trans ?_ (Nat.le_add_right (80 - c.price s.world.storage.isEnabled) _)
      omega

/-! ## No loop -/

/-- The bound on what has begun and can still begin, when nobody else moves. -/
def Sys.bound (s : Sys) : Nat := executions s.trace + s.waiting + s.world.due + 84

/-- Nobody else's hold on a setting changes. -/
theorem Sys.others_fixed (hs : s.next l = some s') (hl : l.own = true) :
    s'.world.proxy.others = s.world.proxy.others := by
  cases l with
  | start =>
      obtain ⟨op, owner, rest, -, -, rfl⟩ := startOp_eq_some hs
      rfl
  | dispatch t =>
      obtain ⟨kind, -, -, rfl⟩ := dispatch_eq_some hs
      rfl
  | land a o =>
      obtain ⟨subj, c, k, r, w, -, hw, rfl⟩ := land_eq_some hs
      rw [answer_world]
      exact (World.land_others hw).1
  | resume a =>
      obtain ⟨subj, p, -, ⟨v, c, k, -, rfl⟩ | ⟨v, r, -, rfl⟩⟩ := resume_eq_some hs
      · rw [suspend_world]
      · rw [finish_world]
  | requestDone id => exact Option.some.inj hs ▸ rfl
  | clock now => exact Option.some.inj hs ▸ rfl
  | _ => cases hl

theorem Reach.known {ok : Rules} {w : World} (h : Reach ok (Sys.init w) s) (hb : s.boot = none)
    (htells : T = .refusals → s.world.proxy.others.admits = level)
    (h' : Reach Rules.leftAlone s s') : Informed T level s' := by
  have hall : Reach (fun _ _ => True) (Sys.init w) s' :=
    (h.mono fun _ _ _ => trivial).trans (h'.mono fun _ _ _ => trivial)
  suffices s'.boot = none ∧ s'.world.proxy.others = s.world.proxy.others from
    ⟨⟨this.1, hall.disciplined, handOutline_sound hall⟩, fun hT => this.2 ▸ htells hT⟩
  clear hall
  induction h' with
  | init => exact ⟨hb, rfl⟩
  | @step s₁ s₂ l _ hl hs ih =>
      have hrestart : l ≠ .restart := by
        rintro rfl
        cases hl
      exact ⟨Sys.boot_next hs hrestart ih.1, (Sys.others_fixed hs hl).trans ih.2⟩

/-- What has begun is bounded, but for the replies that are counted. -/
theorem Reach.executions_le {ok : Rules} {w : World} (h : Reach ok (Sys.init w) s)
    (hb : s.boot = none) (hT : T = .answers → level = false)
    (htells : T = .refusals → s.world.proxy.others.admits = level)
    (h' : Reach Rules.leftAlone s s') :
    executions s'.trace + 4 * T.count s.trace ≤ s.bound + 4 * T.count s'.trace := by
  have hsound : (purseOutline T level (s.potential level + 80) (T.count s.trace)).Sound s :=
    purseOutline_sound h (Nat.le_refl _)
  have hidle : Covered T level (s.potential level + 80) (T.count s.trace) s := fun _ => by omega
  obtain ⟨hsound', hidle'⟩ := (purseOutline_correct hT).reach hsound hidle
    (fun hr => h.known hb htells hr) h'
  have hcovered : s'.potential level + 4 * T.count s.trace ≤
      s.potential level + 80 + 4 * T.count s'.trace := by
    rcases hr : s'.running with _ | ⟨op, owner, thread⟩
    · exact hidle' hr
    · have hslot : s'.slot .op = some (.op op, thread) := by simp [Sys.slot, hr]
      have hok := hsound' .op _ thread hslot ⟨op, rfl⟩
      obtain ⟨x, hx⟩ : ∃ x : Purse, x.Fits T level (s.potential level + 80) (T.count s.trace) s' := by
        cases thread with
        | ready p => exact ⟨hok.choose, hok.choose_spec.1⟩
        | awaiting c k => exact ⟨hok.choose, hok.choose_spec.1⟩
      have hcovered := hx.covered
      omega
  have hbonus := bonus_le level s.vars.restoreAfterIncognitoTakeover
  have hbound : s.potential level + 80 ≤ s.bound := by
    unfold Sys.potential Sys.bound
    omega
  have hruns : executions s'.trace ≤ s'.potential level := by
    unfold Sys.potential
    omega
  omega

/-- Once `boot` is done and nobody else moves, the callbacks and tasks that still
begin are bounded, whatever waits and however the calls end: beyond the bound
Chrome has to refuse questions about incognito windows, and answer them, again
and again. -/
theorem no_reapply_loop {ok : Rules} {w : World} (h : Reach ok (Sys.init w) s)
    (hb : s.boot = none) (h' : Reach Rules.leftAlone s s') :
    executions s'.trace ≤ s.bound +
      4 * min (Tally.refusals.count s'.trace - Tally.refusals.count s.trace)
        (Tally.answers.count s'.trace - Tally.answers.count s.trace) := by
  have hrefusals := h.executions_le hb (T := .refusals) nofun (fun _ => rfl) h'
  have hanswers := h.executions_le hb (T := .answers) (fun _ => rfl) nofun h'
  omega

end

section

attribute [local instance] Platform.ascii Browser.sample

/-- `boot` sets the sample PAC; then the listener of that change and its task
run, and nothing else begins. -/
theorem no_reapply_loop_sample :
    ∃ s s' : Sys, s.boot = none ∧ Reach Rules.leftAlone s s' ∧
      executions s.trace + 2 = executions s'.trace ∧ executions s'.trace ≤ s.bound +
        4 * min (Tally.refusals.count s'.trace - Tally.refusals.count s.trace)
          (Tally.answers.count s'.trace - Tally.answers.count s.trace) := by
  obtain ⟨s, h, hboot, hfound⟩ := Reach.of_follow succeeds (World.sample (.free .system))
    (turns .boot 46 ++ [.resume .boot])
    (fun s => s.boot.isNone = true ∧ (s.follow (fun _ l => l.own) (handling 0 27)).any (fun s' =>
      executions s.trace + 2 = executions s'.trace) = true) (by decide +kernel)
  obtain ⟨s', hfollow, hruns⟩ := (Option.any_eq_true _ _).1 hfound
  have hboot : s.boot = none := Option.isNone_iff_eq_none.1 hboot
  have h' : Reach Rules.leftAlone s s' := Reach.init.follow hfollow
  exact ⟨s, s', hboot, h', of_decide_eq_true hruns, no_reapply_loop h hboot h'⟩

end

end BrowserVpn
