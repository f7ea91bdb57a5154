import BrowserVpn.Extension.Threads

/-!
# Extension.Trace — what a step shows and what it leaves alone

The observations a step adds come from its label (`Obs.Of`), and parking,
suspending, answering and finishing touch one part of the state each. Both are
said once here, for every argument that follows the trace.
-/

namespace BrowserVpn

open Async

namespace Sys

variable (s : Sys)

/-! ## Parts of the state -/

section Park

variable (a : Actor) (thread : Thread api Result)

@[simp] theorem park_world : (s.park a thread).world = s.world := by cases a <;> rfl

@[simp] theorem park_vars : (s.park a thread).vars = s.vars := by cases a <;> rfl

@[simp] theorem park_trace : (s.park a thread).trace = s.trace := by cases a <;> rfl

@[simp] theorem park_queue : (s.park a thread).queue = s.queue := by cases a <;> rfl

end Park

section Suspend

variable (a : Actor) (c : Call) (k : Except String (Reply c) → Js Result)

@[simp] theorem suspend_world : (s.suspend a c k).world = s.world := park_world ..

@[simp] theorem suspend_vars : (s.suspend a c k).vars = s.vars := park_vars ..

@[simp] theorem suspend_trace : (s.suspend a c k).trace = .issued a c :: s.trace := by
  simp [suspend]

@[simp] theorem suspend_queue : (s.suspend a c k).queue = s.queue ++ enqueued a c := by
  simp [suspend]

theorem slot_suspend_self {subj : Subject} {p : Js Result} {v : Vars}
    (h : s.slot a = some (subj, .ready p)) :
    (({ s with vars := v } : Sys).suspend a c k).slot a = some (subj, .awaiting c k) := by
  rw [suspend, slot_issue]
  exact slot_park_self _ ((slot_vars s v a).trans h) _

end Suspend

section Finish

variable (a : Actor) (r : Except String Result)

@[simp] theorem finish_world : (s.finish a r).world = s.world := by
  cases a <;> simp only [finish] <;> try split
  all_goals rfl

@[simp] theorem finish_trace : (s.finish a r).trace = .ended a r :: s.trace := by
  cases a <;> simp only [finish] <;> try split
  all_goals rfl

@[simp] theorem finish_queue : (s.finish a r).queue = s.queue := by
  cases a <;> simp only [finish] <;> try split
  all_goals rfl

/-- The end of a function touches the flag of `exclusive` at most. -/
theorem finish_vars : ∃ b, (s.finish a r).vars = { s.vars with configurationChanging := b } := by
  cases a with
  | boot => exact ⟨_, rfl⟩
  | task t => exact ⟨_, rfl⟩
  | op =>
      refine ⟨false, ?_⟩
      simp only [finish]
      split <;> rfl

end Finish

section Answer

variable (a : Actor) (c : Call) (k : Except String (Reply c) → Js Result)
  (r : Except String (Reply c)) (w : World)

@[simp] theorem answer_world : (s.answer a c k r w).world = w := by simp [answer]

theorem answer_vars : (s.answer a c k r w).vars = (s.move w).vars := by simp [answer]

@[simp] theorem answer_queue : (s.answer a c k r w).queue = s.queue := by simp [answer]

@[simp] theorem answer_trace :
    (s.answer a c k r w).trace = .landed a c r :: (s.move w).trace := by simp [answer]

end Answer

/-- A move of the browser shows as changes of settings. -/
theorem move_trace (w : World) :
    ∃ new, (s.move w).trace = new ++ s.trace ∧ ∀ o ∈ new, o = .settingChanged := by
  simp only [move]
  split <;> split
  · exact ⟨[.settingChanged, .settingChanged], by simp, by simp⟩
  · exact ⟨[.settingChanged], by simp, by simp⟩
  · exact ⟨[.settingChanged], by simp, by simp⟩
  · exact ⟨[], by simp, by simp⟩

end Sys

/-! ## What a step shows -/

/-- The observations that a step with label `l` can add. -/
def Obs.Of (l : Label) : Obs → Prop
  | .started _ _ => l = .start
  | .began t _ => l = .dispatch t
  | .issued a _ => l = .resume a
  | .landed a _ _ => ∃ o, l = .land a o
  | .ended a _ => l = .resume a
  | .settingChanged => (∃ proxy webRTC, l = .others proxy webRTC) ∨ ∃ a o, l = .land a o
  | .errorRaised _ => ∃ details, l = .proxyError details
  | .requestDone id => l = .requestDone id
  | .restarted => l = .restart

section

variable [Platform] [Browser]

theorem Sys.trace_next {s s' : Sys} {l : Label} (hs : s.next l = some s') :
    ∃ new, s'.trace = new ++ s.trace ∧ ∀ o ∈ new, o.Of l := by
  cases l with
  | message sender m =>
      obtain rfl := Option.some.inj hs
      exact ⟨[], by split <;> rfl, by simp⟩
  | challenge details =>
      obtain rfl := Option.some.inj hs
      refine ⟨[], ?_, by simp⟩
      unfold onChallenge
      split <;> rfl
  | requestDone id =>
      obtain rfl := Option.some.inj hs
      exact ⟨[.requestDone id], rfl, by simp [Obs.Of]⟩
  | proxyError details =>
      obtain rfl := Option.some.inj hs
      exact ⟨[.errorRaised _], rfl, by simp [Obs.Of]⟩
  | others proxy webRTC =>
      obtain rfl := Option.some.inj hs
      obtain ⟨new, hnew, hmem⟩ := s.move_trace _
      exact ⟨new, hnew, fun o ho => by simp [hmem o ho, Obs.Of]⟩
  | clock now => 
      obtain rfl := Option.some.inj hs
      exact ⟨[], rfl, by simp⟩
  | dispatch t =>
      obtain ⟨kind, -, -, rfl⟩ := dispatch_eq_some hs
      exact ⟨[.began t kind], rfl, by simp [Obs.Of]⟩
  | start =>
      obtain ⟨op, owner, rest, -, -, rfl⟩ := startOp_eq_some hs
      exact ⟨[.started op owner], rfl, by simp [Obs.Of]⟩
  | land a o =>
      obtain ⟨subj, c, k, r, w, -, -, rfl⟩ := land_eq_some hs
      obtain ⟨new, hnew, hmem⟩ := s.move_trace w
      refine ⟨.landed a c r :: new, by simp [hnew], fun o ho => ?_⟩
      rcases List.mem_cons.1 ho with rfl | ho
      · exact ⟨_, rfl⟩
      · simp [hmem o ho, Obs.Of]
  | resume a =>
      obtain ⟨subj, p, -, ⟨v, c, k, -, rfl⟩ | ⟨v, r, -, rfl⟩⟩ := resume_eq_some hs
      · exact ⟨[.issued a c], by simp, by simp [Obs.Of]⟩
      · exact ⟨[.ended a r], by simp, by simp [Obs.Of]⟩
  | restart =>
      obtain rfl := Option.some.inj hs
      exact ⟨[.restarted], rfl, by simp [Obs.Of]⟩

/-- A segment shows where it ends. -/
theorem Sys.resume_trace {s s' : Sys} {a : Actor} (hs : s.next (.resume a) = some s') :
    ∃ o, s'.trace = o :: s.trace ∧ o.Of (.resume a) := by
  obtain ⟨subj, p, -, ⟨v, c, k, -, rfl⟩ | ⟨v, r, -, rfl⟩⟩ := resume_eq_some hs
  · exact ⟨.issued a c, suspend_trace .., rfl⟩
  · exact ⟨.ended a r, finish_trace .., rfl⟩

end

/-- A reading of the trace that passes over what a step adds. -/
theorem Sys.reading_next {α : Type} {f : List Obs → α} {new trace : List Obs}
    (h : ∀ o ∈ new, ∀ t, f (o :: t) = f t) : f (new ++ trace) = f trace := by
  induction new with
  | nil => rfl
  | cons o new ih =>
      rw [List.cons_append, h o (List.mem_cons_self ..), ih fun o ho => h o (List.mem_cons_of_mem _ ho)]

end BrowserVpn
