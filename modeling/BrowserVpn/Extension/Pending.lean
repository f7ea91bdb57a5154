import BrowserVpn.Extension.Discipline

/-!
# Extension.Pending — what has happened and is not yet handled

Between an event and the exclusive task that handles it the event is *pending*:
its callback waits for `boot`, or its task waits in the queue. A pending task
stays pending until it starts (`Sys.Pending.next`), and a change of an
effective setting is pending from the moment it happens
(`Sys.effective_move`). So what a function has seen of the settings either
still holds or something is pending.
-/

namespace BrowserVpn

open Async

/-! ## Pending tasks -/

/-- The exclusive task that a callback does nothing but hand over. -/
def TaskKind.hands : TaskKind → Option Op
  | .message (.importKey key) => some (.importKey key)
  | .message .connect => some .connect
  | .message .disconnect => some .disconnect
  | .message .forget => some .forget
  | .message (.saveExclusions text) => some (.saveExclusions text)
  | .message _ => none
  | .challenge _ => none
  | .proxyChanged => some .proxyChanged
  | .webRTCChanged => some .webRTCChanged

theorem TaskKind.body_of_hands [Platform] [Browser] {kind : TaskKind} {op : Op}
    (h : kind.hands = some op) : kind.body = chrome (.exclusive op) := by
  cases kind with
  | message m => cases m <;> simp_all [hands] <;> subst h <;> rfl
  | challenge details => cases h
  | proxyChanged => cases h; rfl
  | webRTCChanged => cases h; rfl

/-- A callback on its way to `exclusive` with a task that satisfies `P`. -/
def Task.pends (P : Op → Bool) (task : Task) : Bool :=
  match task.phase with
  | .parked => task.kind.hands.any P
  | .running (.ready (.call (.exclusive op) _)) => P op
  | _ => false

namespace Sys

/-- Some task that satisfies `P` has yet to start. -/
def Pending (s : Sys) (P : Op → Bool) : Prop :=
  (∃ task ∈ s.tasks, task.pends P) ∨ ∃ e ∈ s.queue, P e.1

instance (s : Sys) (P : Op → Bool) : Decidable (s.Pending P) :=
  inferInstanceAs (Decidable (_ ∨ _))

variable {P : Op → Bool}

theorem Pending.of_tasks {s : Sys} {t : Nat} {task : Task} (h : s.tasks[t]? = some task)
    (hp : task.pends P) : s.Pending P :=
  Or.inl ⟨task, List.mem_of_getElem? h, hp⟩

/-- More tasks and more entries leave a pending task pending. -/
theorem Pending.append {s s' : Sys} (h : s.Pending P) {n : List Task}
    {q : List (Op × Option Nat)} (ht : s'.tasks = s.tasks ++ n)
    (hq : s'.queue = s.queue ++ q) : s'.Pending P := by
  rcases h with ⟨task, hmem, hp⟩ | ⟨e, hmem, hp⟩
  · exact Or.inl ⟨task, by rw [ht]; exact List.mem_append_left _ hmem, hp⟩
  · exact Or.inr ⟨e, by rw [hq]; exact List.mem_append_left _ hmem, hp⟩

/-- A change of one callback leaves a pending task pending, unless that
callback was the one on its way. -/
theorem Pending.modify {s s' : Sys} (h : s.Pending P) {t : Nat} {f : Task → Task}
    {q : List (Op × Option Nat)} (ht : s'.tasks = s.tasks.modify t f)
    (hq : s'.queue = s.queue ++ q)
    (hf : ∀ task, s.tasks[t]? = some task → task.pends P → (f task).pends P ∨ s'.Pending P) :
    s'.Pending P := by
  rcases h with ⟨task, hmem, hp⟩ | ⟨e, hmem, hp⟩
  · obtain ⟨u, hu⟩ := List.mem_iff_getElem?.1 hmem
    rcases eq_or_ne t u with rfl | hne
    · rcases hf task hu hp with hp' | hp'
      · exact .of_tasks (t := t) (by rw [ht, List.getElem?_modify, hu]; simp) hp'
      · exact hp'
    · exact .of_tasks (t := u) (by rw [ht, List.getElem?_modify, hu]; simp [hne]) hp
  · exact Or.inr ⟨e, by rw [hq]; exact List.mem_append_left _ hmem, hp⟩

theorem Pending.park {s : Sys} (h : s.Pending P) (a : Actor) (thread : Thread api Result)
    (hne : ∀ t task, a = .task t → s.tasks[t]? = some task → task.pends P = false) :
    (s.park a thread).Pending P := by
  cases a with
  | boot => exact h
  | op => exact h
  | task t =>
      refine h.modify (q := []) rfl (List.append_nil _).symm fun task htask hp => ?_
      rw [hne t task rfl htask] at hp
      cases hp

theorem task_of_slot {s : Sys} {t : Nat} {subj : Subject} {thread : Thread api Result}
    (h : s.slot (.task t) = some (subj, thread)) :
    ∃ kind, s.tasks[t]? = some ⟨kind, .running thread⟩ ∧ subj = .task kind := by
  simp only [slot] at h
  rcases ht : s.tasks[t]? with _ | ⟨kind, phase⟩
  · simp [ht] at h
  · cases phase <;> simp only [ht, reduceCtorEq, Option.some.injEq, Prod.mk.injEq] at h
    obtain ⟨rfl, rfl⟩ := h
    exact ⟨kind, rfl, rfl⟩

section

variable [Platform] [Browser]

/-- A pending task stays pending until it starts. -/
theorem Pending.next {s s' : Sys} {l : Label} (h : s.Pending P) (hs : s.next l = some s')
    (hl : l ≠ .restart)
    (hstart : ∀ op owner rest, l = .start → s.queue = (op, owner) :: rest → P op = false) :
    s'.Pending P := by
  cases l with
  | restart => exact absurd rfl hl
  | message sender m =>
      obtain rfl := Option.some.inj hs
      split
      · exact h.append (q := []) rfl (List.append_nil _).symm
      · exact h
  | challenge details =>
      obtain rfl := Option.some.inj hs
      unfold onChallenge
      split
      · exact h.append (q := []) rfl (List.append_nil _).symm
      · exact h.append (q := []) rfl (List.append_nil _).symm
  | requestDone id => exact Option.some.inj hs ▸ h
  | proxyError details =>
      obtain rfl := Option.some.inj hs
      exact h.append (List.append_nil _).symm rfl
  | others proxy webRTC =>
      obtain rfl := Option.some.inj hs
      obtain ⟨new, hnew, -⟩ := s.move_tasks _
      exact h.append (q := []) hnew (by simp)
  | clock now => exact Option.some.inj hs ▸ h
  | start =>
      obtain ⟨op, owner, rest, hr, hq, rfl⟩ := startOp_eq_some hs
      rcases h with htask | ⟨e, hmem, hp⟩
      · exact Or.inl htask
      · rw [hq] at hmem
        rcases List.mem_cons.1 hmem with rfl | hmem
        · rw [hstart _ _ _ rfl hq] at hp
          cases hp
        · exact Or.inr ⟨e, hmem, hp⟩
  | dispatch t =>
      obtain ⟨kind, hb, ht, rfl⟩ := dispatch_eq_some hs
      refine h.modify (q := []) rfl (List.append_nil _).symm fun task htask hp => Or.inl ?_
      obtain rfl := Option.some.inj (ht.symm.trans htask)
      obtain ⟨op, hop, hp⟩ := (Option.any_eq_true P kind.hands).1 hp
      simpa [Task.pends, TaskKind.body_of_hands hop, chrome] using hp
  | land a o =>
      obtain ⟨subj, c, k, r, w, hslot, hw, rfl⟩ := land_eq_some hs
      obtain ⟨new, hnew, -⟩ := s.move_tasks w
      have hmove : (s.move w).Pending P := h.append (q := []) hnew (by simp)
      refine hmove.park a (.ready (k r)) fun t task ha htask => ?_
      subst ha
      obtain ⟨kind, ht, -⟩ := task_of_slot ((slot_move s w _).trans hslot)
      obtain rfl := Option.some.inj (ht.symm.trans htask)
      rfl
  | resume a =>
      obtain ⟨subj, p, hslot, ⟨v, c, k, hp, rfl⟩ | ⟨v, r, hp, rfl⟩⟩ := resume_eq_some hs
      · cases a with
        | boot => exact h.append (n := []) (List.append_nil _).symm rfl
        | op => exact h.append (n := []) (List.append_nil _).symm rfl
        | task t =>
            refine h.modify rfl rfl fun task htask hpends => Or.inr (Or.inr ?_)
            obtain ⟨kind, ht, -⟩ := task_of_slot hslot
            obtain rfl := Option.some.inj (ht.symm.trans htask)
            simp only [Task.pends] at hpends
            split at hpends
            · cases ‹Phase.running _ = Phase.parked›
            · rename_i op k' hphase
              obtain rfl : p = .call (.exclusive op) k' := by simpa using hphase
              obtain ⟨rfl, ⟨rfl, -⟩⟩ : s.vars = v ∧ Call.exclusive op = c ∧ k' ≍ k := by
                simpa [Prog.run] using hp
              exact ⟨(op, some t), by simp [suspend, issue, enqueued], hpends⟩
            · cases hpends
      · cases a with
        | boot => exact h
        | task t =>
            refine h.modify (q := []) rfl (List.append_nil _).symm
              fun task htask hpends => ?_
            obtain ⟨kind, ht, -⟩ := task_of_slot hslot
            obtain rfl := Option.some.inj (ht.symm.trans htask)
            simp only [Task.pends] at hpends
            split at hpends
            · cases ‹Phase.running _ = Phase.parked›
            · rename_i op k' hphase
              obtain rfl : p = .call (.exclusive op) k' := by simpa using hphase
              simp [Prog.run] at hp
            · cases hpends
        | op =>
            simp only [finish]
            split
            · refine h.modify (q := []) rfl (List.append_nil _).symm
                fun task htask hpends => Or.inl ?_
              obtain ⟨kind, phase⟩ := task
              simp only [Task.settle]
              split
              · simp_all [Task.pends]
              · exact hpends
            · exact h

end

end Sys

/-! ## Changes of the settings -/

def Op.isProxyChanged : Op → Bool
  | .proxyChanged => true
  | _ => false

def Op.isWebRTCChanged : Op → Bool
  | .webRTCChanged => true
  | _ => false

theorem ChromeSetting.effective_of_not_differs {V : Type} [DecidableEq V]
    {x y : ChromeSetting V} (h : x.differs y = false) : y.effective = x.effective := by
  simp only [differs, Bool.or_eq_false_iff, bne_eq_false_iff_eq] at h
  funext b
  cases b with
  | false => exact h.1.symm
  | true => exact h.2.symm

/-- A change of what the proxy setting is in some context is pending. -/
theorem Sys.proxy_move (s : Sys) (w : World) :
    (s.move w).Pending Op.isProxyChanged ∨ w.proxy.effective = s.world.proxy.effective := by
  cases hd : s.world.proxy.differs w.proxy with
  | false => exact Or.inr (ChromeSetting.effective_of_not_differs hd)
  | true =>
      refine Or.inl (Or.inl ⟨⟨.proxyChanged, .parked⟩, ?_, rfl⟩)
      simp only [move, hd]
      split <;> simp

theorem Sys.webRTC_move (s : Sys) (w : World) :
    (s.move w).Pending Op.isWebRTCChanged ∨ w.webRTC.effective = s.world.webRTC.effective := by
  cases hd : s.world.webRTC.differs w.webRTC with
  | false => exact Or.inr (ChromeSetting.effective_of_not_differs hd)
  | true =>
      refine Or.inl (Or.inl ⟨⟨.webRTCChanged, .parked⟩, ?_, rfl⟩)
      simp [move, hd]

end BrowserVpn
