import Mathlib.Algebra.BigOperators.Group.Finset.Basic
import Mathlib.Algebra.GroupWithZero.Nat
import Mathlib.Algebra.Order.BigOperators.Group.Finset
import BrowserVpn.Extension.Writer

/-!
# Extension.Handover — what is still to come

A callback hands over one task to `exclusive` at most (`handOutline_sound`). So
what waits, in the queue and in the callbacks, has a cost that only events can
raise (`Sys.waiting`): the callbacks and tasks still to begin, and those that
each of them can bring about.
-/

namespace BrowserVpn

open Async

/-! ## Costs -/

/-- What the start of a task amounts to: the task itself, and the executions
that its calls can bring about beyond what `Sys.due` sets aside. -/
def Op.cost : Op → Nat
  | .connect => 17
  | .saveExclusions _ => 9
  | .webRTCChanged => 5
  | _ => 1

theorem Op.cost_pos (op : Op) : 1 ≤ op.cost := by
  cases op <;> simp [cost]

/-- What a callback can hand over. -/
def TaskKind.cost : TaskKind → Nat
  | .message .testIp => 1
  | .challenge _ => 1
  | kind => (kind.hands.map Op.cost).getD 0

/-- Whether the present run of the callback `t` has handed over its task. -/
def handed (t : Nat) : List Obs → Bool
  | [] => false
  | .restarted :: _ => false
  | .began t' _ :: trace => t' != t && handed t trace
  | .issued (.task t') (.exclusive _) :: trace => t' == t || handed t trace
  | _ :: trace => handed t trace

/-- What is left to hand over. -/
def Task.left (task : Task) (handed : Bool) : Nat :=
  match task.phase with
  | .parked => task.kind.cost + 1
  | .running _ => if handed then 0 else task.kind.cost
  | .settled _ => 0

/-- What the events of a move of the browser amount to: each is one listener
and the task it hands over. -/
def World.raises (w w' : World) : Nat :=
  (if w.proxy.differs w'.proxy then 2 else 0) + if w.webRTC.differs w'.webRTC then 6 else 0

namespace Sys

/-- What the callback `t` has left to hand over. -/
def leftAt (s : Sys) (t : Nat) : Nat :=
  match s.tasks[t]? with
  | some task => task.left (handed t s.trace)
  | none => 0

/-- What the tasks in the queue amount to. -/
def queued (s : Sys) : Nat := (s.queue.map fun e => e.1.cost).sum

/-- What waits in the queue and in the callbacks. -/
def waiting (s : Sys) : Nat := (∑ t ∈ Finset.range s.tasks.length, s.leftAt t) + s.queued

variable {s s' : Sys}

theorem waiting_le (hlength : s'.tasks.length = s.tasks.length)
    (hleft : ∀ t, s'.leftAt t ≤ s.leftAt t) (hqueue : s'.queue = s.queue) :
    s'.waiting ≤ s.waiting := by
  unfold waiting queued
  rw [hlength, hqueue]
  exact Nat.add_le_add_right (Finset.sum_le_sum fun t _ => hleft t) _

theorem waiting_congr (htasks : s'.tasks = s.tasks) (hqueue : s'.queue = s.queue)
    (hhanded : ∀ t, handed t s'.trace = handed t s.trace) : s'.waiting = s.waiting := by
  unfold waiting queued leftAt
  simp only [htasks, hqueue, hhanded]

/-- A callback pays `n` out of what it has left. -/
theorem waiting_pays (s' : Sys) {t n : Nat} (hlength : s'.tasks.length = s.tasks.length)
    (ht : t < s.tasks.length) (hleft : ∀ u, u ≠ t → s'.leftAt u ≤ s.leftAt u)
    (hpays : s'.leftAt t + n ≤ s.leftAt t) :
    s'.waiting + n + s.queued ≤ s.waiting + s'.queued := by
  have hmem : t ∈ Finset.range s.tasks.length := Finset.mem_range.2 ht
  have hothers : ∑ u ∈ (Finset.range s.tasks.length).erase t, s'.leftAt u ≤
      ∑ u ∈ (Finset.range s.tasks.length).erase t, s.leftAt u :=
    Finset.sum_le_sum fun u hu => hleft u (Finset.ne_of_mem_erase hu)
  have hsum := Finset.add_sum_erase _ s.leftAt hmem
  have hsum' := Finset.add_sum_erase _ s'.leftAt hmem
  unfold waiting
  rw [hlength]
  omega

/-- A new callback waits with what it can hand over. -/
theorem waiting_raise (s : Sys) (kind : TaskKind) :
    (s.raise kind).waiting = s.waiting + (kind.cost + 1) := by
  have hlast : (s.raise kind).leftAt s.tasks.length = kind.cost + 1 := by
    have hget : (s.raise kind).tasks[s.tasks.length]? = some ⟨kind, .parked⟩ := by
      rw [raise_tasks, List.getElem?_concat_length]
    simp only [leftAt, hget, Task.left]
  have hold : ∀ t ∈ Finset.range s.tasks.length, (s.raise kind).leftAt t = s.leftAt t := by
    intro t ht
    have hget : (s.raise kind).tasks[t]? = s.tasks[t]? := by
      rw [raise_tasks, List.getElem?_append_left (Finset.mem_range.1 ht)]
    simp only [leftAt, hget, raise_trace, handed]
  have hsum : ∑ t ∈ Finset.range s.tasks.length, (s.raise kind).leftAt t =
      ∑ t ∈ Finset.range s.tasks.length, s.leftAt t := Finset.sum_congr rfl hold
  have hqueue : (s.raise kind).queued = s.queued := rfl
  unfold waiting
  rw [raise_tasks, List.length_append, List.length_singleton, Finset.sum_range_succ, hlast, hsum,
    hqueue]
  omega

theorem waiting_move (s : Sys) (w : World) : (s.move w).waiting = s.waiting + s.world.raises w := by
  have hworld : ∀ s' : Sys, ({ s' with world := w } : Sys).waiting = s'.waiting := fun _ => rfl
  unfold move World.raises
  rw [hworld]
  split <;> split
  · rw [waiting_raise, waiting_raise]
    simp only [TaskKind.cost, TaskKind.hands, Op.cost, Option.map_some, Option.getD_some]
  · rw [waiting_raise]
    rfl
  · rw [waiting_raise]
    simp only [TaskKind.cost, TaskKind.hands, Op.cost, Option.map_some, Option.getD_some]
  · rfl

end Sys

/-! ## One task for each callback -/

section

variable [Platform] [Browser] {α β : Type} {n : Nat}

/-- A callback pays for the task it hands over with all it has left. -/
@[reducible] def handLogic : Logic api Nat where
  reads n _ n' := n' = n
  mayWrite _ _ := True
  write _ n := n
  mayCall
    | .exclusive op, n => op.cost ≤ n
    | _, _ => True
  issue
    | .exclusive _, _ => 0
    | _, n => n
  replies _ n _ n' := n' = n

/-- A call that hands nothing over. -/
def Call.keeps : Call → Bool
  | .exclusive _ => false
  | _ => true

/-- A function that hands nothing over. -/
abbrev KeepsHand (p : Js α) : Prop := p.Within (fun c : Call => c.keeps) fun _ => True

section

omit [Platform] [Browser]

theorem Asks.keeps {p : Js α} (h : Asks p) : KeepsHand p :=
  h.mono (fun c hc => by cases c <;> first | rfl | cases hc) fun _ hw => hw.elim

theorem KeepsHand.spec {p : Js α} (hp : KeepsHand p) : wp handLogic p (fun _ n' => n' = n) n := by
  refine wp_of_within _ (I := (· = n)) hp ?_ ?_ ?_ rfl
  · rintro x v _ rfl rfl
    rfl
  · rintro w x rfl -
    exact ⟨trivial, rfl⟩
  · rintro c x rfl hc
    cases c with
    | exclusive op => cases hc
    | _ => exact ⟨trivial, fun _ _ h => h⟩

/-- Whatever follows a function that hands nothing over. -/
theorem wp_keeps_bind {p : Js α} {f : α → Js β} (hp : KeepsHand p)
    (hf : ∀ a, wp handLogic (f a) (fun _ _ => True) n) :
    wp handLogic (p >>= f) (fun _ _ => True) n := by
  refine wp_bind _ hp.spec ?_ fun _ _ _ => trivial
  rintro a _ rfl
  exact hf a

theorem KeepsHand.done {p : Js α} (hp : KeepsHand p) : wp handLogic p (fun _ _ => True) n :=
  wp_mono _ hp.spec fun _ _ _ => trivial

/-- Handing a task over, and what follows. -/
theorem wp_hand_bind {op : Op} {f : Result → Js β} (hop : op.cost ≤ n) (hf : ∀ r, KeepsHand (f r)) :
    wp handLogic (chrome (.exclusive op) >>= f) (fun _ _ => True) n := by
  refine wp_bind _ (M := fun _ _ => True) ⟨hop, fun _ _ _ => trivial⟩ ?_ fun _ _ _ => trivial
  exact fun r n' _ => (hf r).done

end

omit [Browser] in
theorem fetchIp_hands (start : Vars) (e : Option ProxyError) (hn : 1 ≤ n) :
    wp handLogic (fetchIp start e) (fun _ _ => True) n := by
  refine wp_keeps_bind (within_chrome rfl) fun ok => ?_
  refine wp_keeps_bind (within_ensure _ _) fun _ => ?_
  refine wp_keeps_bind (within_chrome rfl) fun body => ?_
  refine wp_keeps_bind (within_lift _) fun ip => ?_
  refine wp_keeps_bind (within_await asks_status.keeps rfl) fun after => ?_
  refine wp_keeps_bind within_get fun v => ?_
  refine wp_keeps_bind (within_ensure _ _) fun _ => ?_
  refine wp_bind _ (M := fun _ _ => True) ?_ (fun epoch n' _ => KeepsHand.done ?_) fun _ _ _ => trivial
  · cases e with
    | none => trivial
    | some e =>
        refine wp_hand_bind hn fun r => ?_
        split <;> trivial
  · exact .bind within_get fun v => .bind (within_ensure _ _) fun _ => trivial

omit [Browser] in
theorem testIp_hands (hn : 1 ≤ n) : wp handLogic testIp (fun _ _ => True) n := by
  refine wp_keeps_bind within_get fun start => ?_
  refine wp_keeps_bind (within_await asks_status.keeps rfl) fun current => ?_
  refine wp_keeps_bind within_get fun v => ?_
  refine wp_keeps_bind (within_ensure _ _) fun _ => ?_
  refine wp_keeps_bind (within_ensure _ _) fun _ => ?_
  refine wp_keeps_bind (within_ensure _ _) fun _ => ?_
  exact wp_tryCatch _ (fetchIp_hands _ _ hn) (fun _ _ _ => trivial) fun _ _ _ => trivial

omit [Platform] [Browser] in
theorem releaseCredentials_hands (details : AuthDetails) (c : Challenge) (expected : ProxyConfig)
    (setting : Setting ProxyConfig) (rtc : Setting WebRTCPolicy) (hn : 1 ≤ n) :
    wp handLogic (releaseCredentials details c expected setting rtc) (fun _ _ => True) n := by
  refine wp_keeps_bind within_get fun v => ?_
  split
  · trivial
  split
  · refine wp_keeps_bind (p := Prog.set .proxyErrorEpoch) ⟨trivial, trivial⟩ fun _ => ?_
    refine wp_keeps_bind within_get fun v => ?_
    exact wp_hand_bind hn fun _ => trivial
  · exact ⟨trivial, trivial⟩

theorem answerChallenge_hands (details : AuthDetails) (c : Challenge) (hn : 1 ≤ n) :
    wp handLogic (answerChallenge details c) (fun _ _ => True) n := by
  refine wp_keeps_bind ?_ fun incognito => ?_
  · unfold requestIncognito
    split
    · exact within_chrome rfl
    · trivial
    · trivial
  · split
    · trivial
    · refine wp_keeps_bind (within_lift _) fun exclusions => ?_
      refine wp_keeps_bind (within_lift _) fun expected => ?_
      refine wp_keeps_bind (within_await ?_ rfl) fun (setting, rtc) => ?_
      · have hproxy : ∀ incognito, KeepsHand (effectiveSetting incognito) :=
          fun incognito => (asks_effectiveSetting incognito).keeps
        have hrtc : ∀ incognito, KeepsHand (webRTCSetting incognito) :=
          fun incognito => (asks_webRTCSetting incognito).keeps
        refine .bind (within_chrome rfl) fun first => within_ite ?_ ?_
        · exact .bind (hproxy _) fun _ => .bind (hrtc _) fun _ => trivial
        · exact .bind (hrtc _) fun _ => .bind (hproxy _) fun _ => trivial
      · exact releaseCredentials_hands _ _ _ _ _ hn

theorem onAuthRequired_hands (details : AuthDetails) (hn : 1 ≤ n) :
    wp handLogic (onAuthRequired details) (fun _ _ => True) n := by
  refine wp_keeps_bind (.tryCatch ?_ fun _ => trivial) fun first => ?_
  · refine .bind within_get fun start => within_ite trivial ?_
    exact .bind (within_await asks_stored.keeps rfl) fun data => within_lift _
  · split
    · trivial
    · exact wp_tryCatch _ (answerChallenge_hands details _ hn) (fun _ _ _ => trivial)
        fun _ _ _ => trivial

/-- Every callback hands over one task at most, of the cost set aside for it. -/
theorem body_hands (kind : TaskKind) :
    wp handLogic kind.body (fun _ _ => True) kind.cost := by
  cases hkind : kind.hands with
  | some op =>
      have hcost : op.cost ≤ kind.cost := by
        cases kind with
        | message m =>
            cases m <;> simp only [TaskKind.hands, reduceCtorEq, Option.some.injEq] at hkind <;>
              subst hkind <;> exact Nat.le_refl _
        | challenge details => cases hkind
        | proxyChanged =>
            cases hkind
            exact Nat.le_refl _
        | webRTCChanged =>
            cases hkind
            exact Nat.le_refl _
      rw [TaskKind.body_of_hands hkind]
      exact ⟨hcost, fun _ _ _ => trivial⟩
  | none =>
      cases kind with
      | message m =>
          cases m with
          | getState => exact wp_map _ asks_status.keeps.done
          | testIp => exact wp_map _ (testIp_hands (Nat.le_refl 1))
          | other => trivial
          | _ => cases hkind
      | challenge details => exact wp_map _ (onAuthRequired_hands details (Nat.le_refl 1))
      | proxyChanged => cases hkind
      | webRTCChanged => cases hkind

/-- The outline of the callbacks. -/
@[reducible] def handOutline : Outline where
  View := Nat
  logic := handLogic
  covers subj := ∃ kind, subj = .task kind
  At a subj n s := ∀ t kind, a = .task t → subj = .task kind →
    n = if handed t s.trace then 0 else kind.cost
  post _ _ _ := True

variable {s s' : Sys} {l : Label} {t : Nat}

omit [Platform] [Browser] in
/-- Observations of anybody else. -/
theorem handed_append {new trace : List Obs} (h : ∀ o ∈ new, o ≠ .restarted ∧
    (∀ kind, o ≠ .began t kind) ∧ ∀ op, o ≠ .issued (.task t) (.exclusive op)) :
    handed t (new ++ trace) = handed t trace := by
  refine Sys.reading_next fun o ho t' => ?_
  obtain ⟨hrestarted, hbegan, hissued⟩ := h o ho
  cases o with
  | restarted => exact absurd rfl hrestarted
  | began u kind =>
      have hne : u ≠ t := fun h => hbegan kind (by rw [h])
      simp [handed, hne]
  | issued a c =>
      cases a with
      | task u =>
          cases c with
          | exclusive op =>
              have hne : u ≠ t := fun h => hissued op (by rw [h])
              simp [handed, hne]
          | _ => rfl
      | _ => rfl
  | _ => rfl

/-- The steps of anybody else hand nothing over for the callback `t`. -/
theorem handed_next (hs : s.next l = some s') (ha : l.actor ≠ some (.task t))
    (hl : l ≠ .restart) (hdispatch : l ≠ .dispatch t) :
    handed t s'.trace = handed t s.trace := by
  obtain ⟨new, htrace, hof⟩ := Sys.trace_next hs
  rw [htrace]
  refine handed_append fun o ho => ⟨?_, ?_, ?_⟩
  · rintro rfl
    exact hl (hof _ ho)
  · rintro kind rfl
    exact hdispatch (hof _ ho)
  · rintro op rfl
    have hlabel : l = .resume (.task t) := hof _ ho
    exact ha (by rw [hlabel]; rfl)

theorem handOutline_correct (ok : Rules) :
    handOutline.Correct ok (fun _ => True) fun _ => True where
  enters _ _ hx := hx
  reads _ _ hx := ⟨_, rfl, hx⟩
  writes _ _ _ hx := hx
  frame {s l s' a subj thread n} _ _ _ _ _ hs ha hl hslot _ _ hx := by
    rintro t kind rfl rfl
    have hdispatch : l ≠ .dispatch t := by
      rintro rfl
      obtain ⟨kind', -, hparked, -⟩ := Sys.dispatch_eq_some hs
      obtain ⟨kind'', ht, -⟩ := Sys.task_of_slot hslot
      simp [hparked] at ht
    rw [handed_next hs ha hl hdispatch]
    exact hx t kind rfl rfl
  restarted _ _ _ hc := by
    obtain ⟨kind, hc⟩ := hc
    cases hc
  entered _ _ _ _ _ _ hc := by
    obtain ⟨kind, hc⟩ := hc
    cases hc
  dispatched {s t kind} _ _ _ _ _ _ := by
    refine ⟨kind.cost, ?_, body_hands kind⟩
    rintro t' kind' ⟨⟩ ⟨⟩
    simp [Sys.emit, handed]
  answered {s a o subj c k r w n} _ _ _ _ _ _ _ _ hx := by
    refine ⟨n, rfl, ?_⟩
    rintro t kind rfl rfl
    obtain ⟨new, htrace, hnew⟩ := s.move_trace w
    have hsame : handed t (s.answer (.task t) c k r w).trace = handed t s.trace := by
      rw [Sys.answer_trace, htrace]
      show handed t ((.landed (.task t) c r :: new) ++ s.trace) = handed t s.trace
      refine handed_append fun o ho => ?_
      rcases List.mem_cons.1 ho with rfl | ho
      · exact ⟨(by rintro ⟨⟩), (by rintro _ ⟨⟩), (by rintro _ ⟨⟩)⟩
      · rw [hnew o ho]
        exact ⟨(by rintro ⟨⟩), (by rintro _ ⟨⟩), (by rintro _ ⟨⟩)⟩
    rw [hsame]
    exact hx t kind rfl rfl
  suspended {s a subj p v n c k} _ _ _ _ _ _ _ _ _ hx := by
    rintro t kind rfl rfl
    rw [Sys.suspend_trace]
    have hx := hx t kind rfl rfl
    cases c with
    | exclusive op => simp [handed]
    | _ => exact hx
  settled {s op t p v r subj op' k n} _ _ _ _ _ _ _ _ _ _ hx := by
    refine ⟨n, rfl, ?_⟩
    rintro t' kind ⟨⟩ rfl
    rw [Sys.finish_trace]
    exact hx t kind rfl rfl
  keeps _ _ _ _ _ _ := trivial

/-- In every reachable state every callback has enough left for the task it
hands over. -/
theorem handOutline_sound {ok : Rules} {w : World} (h : Reach ok (Sys.init w) s) :
    handOutline.Sound s :=
  ((handOutline_correct ok).reach (Outline.sound_init fun hc => by
    obtain ⟨kind, hc⟩ := hc
    cases hc) trivial (fun _ => trivial) h).1

/-! ## What waits, step by step -/

namespace Sys

section

omit [Platform] [Browser]

/-- A change of one callback leaves what the others have left. -/
theorem leftAt_of_ne {u : Nat} {f : Task → Task} (htasks : s'.tasks = s.tasks.modify u f)
    (hne : t ≠ u) (hhanded : handed t s'.trace = handed t s.trace) :
    s'.leftAt t = s.leftAt t := by
  have hget : s'.tasks[t]? = s.tasks[t]? := by
    rw [htasks, List.getElem?_modify]
    simp [Ne.symm hne]
  unfold leftAt
  rw [hget, hhanded]

theorem leftAt_self {f : Task → Task} (htasks : s'.tasks = s.tasks.modify t f) {task : Task}
    (ht : s.tasks[t]? = some task) : s'.leftAt t = (f task).left (handed t s'.trace) := by
  have hget : s'.tasks[t]? = some (f task) := by
    rw [htasks, List.getElem?_modify, ht]
    simp
  simp only [leftAt, hget]

/-- A change of one callback that leaves it no more. -/
theorem waiting_modify {u : Nat} {f : Task → Task} (htasks : s'.tasks = s.tasks.modify u f)
    (hqueue : s'.queue = s.queue) (hhanded : ∀ t, t ≠ u → handed t s'.trace = handed t s.trace)
    (hf : ∀ task, s.tasks[u]? = some task →
      (f task).left (handed u s'.trace) ≤ task.left (handed u s.trace)) :
    s'.waiting ≤ s.waiting := by
  refine waiting_le (by rw [htasks, List.length_modify]) (fun t => ?_) hqueue
  rcases eq_or_ne t u with rfl | hne
  · rcases ht : s.tasks[t]? with _ | task
    · have hnone : s'.tasks[t]? = none := by
        rw [htasks, List.getElem?_modify, ht]
        rfl
      simp [leftAt, hnone]
    · rw [leftAt_self htasks ht]
      simp only [leftAt, ht]
      exact hf task ht
  · exact (leftAt_of_ne htasks hne (hhanded t hne)).le

/-- Nothing is raised where nothing changes. -/
theorem move_self (s : Sys) : s.move s.world = s := by
  simp [move, ChromeSetting.differs]

end

/-- The start of a callback takes it off what waits. -/
theorem waiting_dispatch {u : Nat} (hs : s.next (.dispatch u) = some s') :
    s'.waiting + 1 ≤ s.waiting := by
  obtain ⟨kind, -, ht, rfl⟩ := dispatch_eq_some hs
  have hpays := waiting_pays (s := s) (t := u) (n := 1)
    ((s.park (.task u) (.ready kind.body)).emit (.began u kind)) (by simp [park])
    (List.getElem?_eq_some_iff.1 ht).1 (fun t hne => ?_) ?_
  · exact Nat.le_of_add_le_add_right hpays
  · exact (leftAt_of_ne (u := u) rfl hne (by simp [emit, handed, Ne.symm hne])).le
  · rw [leftAt_self (s := s) rfl ht]
    simp [leftAt, ht, Task.left, emit, handed]

/-- A further step of a callback leaves no more to come. -/
theorem waiting_callback (hd : s.Disciplined) (hsound : handOutline.Sound s)
    (hs : s.next l = some s') {u : Nat} (hl : l.actor = some (.task u)) :
    s'.waiting ≤ s.waiting := by
  cases l with
  | land a o =>
      obtain rfl : a = .task u := by simpa [Label.actor] using hl
      obtain ⟨subj, c, k, r, w, hslot, hw, rfl⟩ := land_eq_some hs
      obtain ⟨kind, ht, rfl⟩ := task_of_slot hslot
      obtain rfl := World.land_inspects hw (hd.calls hslot)
      rw [answer, move_self]
      refine waiting_modify (u := u) rfl rfl (fun t _ => rfl) fun task htask => ?_
      obtain rfl := Option.some.inj (ht.symm.trans htask)
      exact Nat.le_refl _
  | resume a =>
      obtain rfl : a = .task u := by simpa [Label.actor] using hl
      obtain ⟨subj, p, hslot, ⟨v, c, k, hp, rfl⟩ | ⟨v, r, hp, rfl⟩⟩ := resume_eq_some hs
      · obtain ⟨kind, ht, rfl⟩ := task_of_slot hslot
        obtain ⟨n, hn, hcall⟩ := (handOutline_correct fun _ _ => True).calls hsound hslot
          ⟨kind, rfl⟩ hp
        have hn : n = if handed u s.trace then 0 else kind.cost := hn u kind rfl rfl
        have hleft : s.leftAt u = n := by simp only [leftAt, ht, Task.left, hn]
        cases c with
        | exclusive op =>
            -- The task that joins the queue is the one the callback had left.
            have hcall : op.cost ≤ n := hcall
            have hpays := waiting_pays (s := s) (t := u) (n := op.cost)
              (({ s with vars := v } : Sys).suspend (.task u) (.exclusive op) k)
              (by simp [suspend, park]) (List.getElem?_eq_some_iff.1 ht).1 (fun t hne => ?_) ?_
            · have hqueued : (({ s with vars := v } : Sys).suspend (.task u) (.exclusive op) k).queued =
                  s.queued + op.cost := by simp [queued, suspend, enqueued]
              omega
            · refine (leftAt_of_ne (u := u) rfl hne ?_).le
              simp [suspend, handed, Ne.symm hne]
            · rw [leftAt_self (s := s) rfl ht, hleft]
              simp [Task.left, suspend, handed, hcall]
        | _ =>
            refine waiting_modify (s := s) (u := u) rfl (List.append_nil _) (fun t _ => rfl)
              fun task htask => ?_
            obtain rfl := Option.some.inj (ht.symm.trans htask)
            exact Nat.le_refl _
      · exact waiting_modify (s := s) (u := u) rfl rfl (fun t _ => rfl) fun _ _ => Nat.zero_le _
  | _ => cases hl

section

omit [Platform] [Browser]

/-- The start of a task takes it off what waits. -/
theorem waiting_enter [Platform] {op : Op} {owner : Option Nat} {rest : List (Op × Option Nat)}
    (hq : s.queue = (op, owner) :: rest) :
    (s.enter op owner rest).waiting + op.cost = s.waiting := by
  have hqueue : s.queued = op.cost + (s.enter op owner rest).queued := by
    simp [queued, hq]
  have hleft : ∀ t, (s.enter op owner rest).leftAt t = s.leftAt t := fun t => by
    simp only [leftAt, enter_tasks, enter_trace, handed]
  have hsum : ∑ t ∈ Finset.range s.tasks.length, (s.enter op owner rest).leftAt t =
      ∑ t ∈ Finset.range s.tasks.length, s.leftAt t := Finset.sum_congr rfl fun t _ => hleft t
  unfold waiting
  rw [hqueue, enter_tasks, hsum]
  omega

/-- A call of the running task lands: the listeners it brings about wait. -/
theorem waiting_answer (c : Call) (k : Except String (Reply c) → Js Result)
    (r : Except String (Reply c)) (w : World) :
    (s.answer .op c k r w).waiting = s.waiting + s.world.raises w :=
  (waiting_congr rfl rfl fun _ => rfl).trans (s.waiting_move w)

/-- A call of the running task leaves what waits as it is. -/
theorem waiting_suspend (v : Vars) (c : Call) (k : Except String (Reply c) → Js Result) :
    (({ s with vars := v } : Sys).suspend .op c k).waiting = s.waiting :=
  waiting_congr rfl (List.append_nil _) fun _ => rfl

/-- The end of a task leaves what waits as it is: its owner has handed it over. -/
theorem waiting_finish (v : Vars) (r : Except String Result) :
    (({ s with vars := v } : Sys).finish .op r).waiting ≤ s.waiting := by
  simp only [finish]
  split
  · rename_i t howner
    refine waiting_modify (s := s) (u := t) rfl rfl (fun _ _ => rfl) fun task htask => ?_
    obtain ⟨kind, phase⟩ := task
    cases phase with
    | running thread =>
        cases thread with
        | awaiting c k => cases c <;> exact Nat.le_refl _
        | ready p => exact Nat.le_refl _
    | _ => exact Nat.le_refl _
  · exact (waiting_congr (s := s) rfl rfl fun _ => rfl).le

end

end Sys

end

end BrowserVpn
