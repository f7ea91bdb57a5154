import Mathlib.Tactic.Simps.Basic
import BrowserVpn.Extension.Background

/-!
# Extension.Worker — the service worker as a transition system

What runs around the async functions: the queue behind `exclusive`, the
callbacks that wait for `boot`, and Chrome, which settles calls, changes
settings and raises events at any time. An awaited call takes effect when it
lands (`Label.land`); its caller runs on at some later moment
(`Label.resume`), so every other step may come in between.
-/

namespace BrowserVpn

open Async

/-! ## Tasks -/

/-- What a message or an event that waits for `boot` will do. -/
inductive TaskKind where
  | message (m : Message)
  | challenge (details : AuthDetails)
  | proxyChanged
  | webRTCChanged

/-- A callback of the worker: waiting for `boot`, running, or settled. -/
inductive Phase where
  | parked
  | running (thread : Thread api Result)
  | settled (r : Except String Result)

structure Task where
  kind : TaskKind
  phase : Phase

/-- Who is executing: `boot`, the holder of the queue, or a callback. -/
inductive Actor where
  | boot
  | op
  | task (t : Nat)
deriving DecidableEq

/-- What an actor executes. -/
inductive Subject where
  | boot
  | op (o : Op)
  | task (kind : TaskKind)

/-- The task behind `exclusive` that holds the queue, and the callback that
awaits it. -/
structure Running where
  op : Op
  owner : Option Nat
  thread : Thread api Result

/-- What an observer of the worker sees, step by step. -/
inductive Obs where
  | started (op : Op) (owner : Option Nat)
  | began (t : Nat) (kind : TaskKind)
  | issued (a : Actor) (c : Call)
  | landed (a : Actor) (c : Call) (r : Except String (Reply c))
  | ended (a : Actor) (r : Except String Result)
  | settingChanged
  | errorRaised (stamp : Nat)
  | requestDone (requestId : Nat)
  | restarted

/-- The browser and its service worker. The trace has the newest event first. -/
structure Sys where
  world : World
  vars : Vars := {}
  boot : Option (Thread api Result)
  running : Option Running := none
  queue : List (Op × Option Nat) := []
  tasks : List Task := []
  trace : List Obs := []

namespace Sys

@[simps world vars boot running queue tasks trace]
def emit (s : Sys) (o : Obs) : Sys := { s with trace := o :: s.trace }

@[simps world vars boot running queue tasks trace]
def addTask (s : Sys) (kind : TaskKind) : Sys :=
  { s with tasks := s.tasks ++ [⟨kind, .parked⟩] }

/-! ## Chrome's side -/

/-- An `onChange` listener: the epoch moves at once, the rest waits for
`boot`. -/
@[simps world vars boot running queue tasks trace]
def raise (s : Sys) (kind : TaskKind) : Sys :=
  { s with
    vars := { s.vars with browserSettingEpoch := s.vars.browserSettingEpoch + 1 }
    tasks := s.tasks ++ [⟨kind, .parked⟩]
    trace := .settingChanged :: s.trace }

/-- The browser moves on. Each setting with an effective value or level that
is not what it was raises its event. -/
def move (s : Sys) (w : World) : Sys :=
  let s₁ := if s.world.proxy.differs w.proxy then s.raise .proxyChanged else s
  let s₂ := if s.world.webRTC.differs w.webRTC then s₁.raise .webRTCChanged else s₁
  { s₂ with world := w }

section Move

variable (s : Sys) (w : World)

@[simp] theorem move_world : (s.move w).world = w := rfl

@[simp] theorem move_boot : (s.move w).boot = s.boot := by
  simp only [move]
  split <;> split <;> rfl

@[simp] theorem move_running : (s.move w).running = s.running := by
  simp only [move]
  split <;> split <;> rfl

@[simp] theorem move_queue : (s.move w).queue = s.queue := by
  simp only [move]
  split <;> split <;> rfl

/-- Only the epoch of the settings moves, and only upwards. -/
theorem move_vars : ∃ n, s.vars.browserSettingEpoch ≤ n ∧
    (s.move w).vars = { s.vars with browserSettingEpoch := n } := by
  simp only [move]
  split <;> split
  · exact ⟨_, Nat.le_add_right _ 2, rfl⟩
  · exact ⟨_, Nat.le_add_right _ 1, rfl⟩
  · exact ⟨_, Nat.le_add_right _ 1, rfl⟩
  · exact ⟨_, Nat.le_refl _, rfl⟩

/-- The events of a move wait for `boot`. -/
theorem move_tasks : ∃ new, (s.move w).tasks = s.tasks ++ new ∧
    ∀ task ∈ new, task.phase = .parked := by
  simp only [move]
  split <;> split
  · exact ⟨[⟨.proxyChanged, .parked⟩, ⟨.webRTCChanged, .parked⟩], by simp, by simp⟩
  · exact ⟨[⟨.webRTCChanged, .parked⟩], by simp, by simp⟩
  · exact ⟨[⟨.proxyChanged, .parked⟩], by simp, by simp⟩
  · exact ⟨[], by simp, by simp⟩

end Move

/-! ## Threads -/

/-- What an actor executes and how far it has come. -/
def slot (s : Sys) : Actor → Option (Subject × Thread api Result)
  | .boot => s.boot.map fun thread => (.boot, thread)
  | .op => s.running.map fun r => (.op r.op, r.thread)
  | .task t =>
      match s.tasks[t]? with
      | some ⟨kind, .running thread⟩ => some (.task kind, thread)
      | _ => none

/-- The thread of an actor. -/
def thread (s : Sys) (a : Actor) : Option (Thread api Result) := (s.slot a).map Prod.snd

/-- Put an actor's thread where it belongs. -/
def park (s : Sys) (a : Actor) (thread : Thread api Result) : Sys :=
  match a with
  | .boot => { s with boot := some thread }
  | .op => { s with running := s.running.map fun r => { r with thread } }
  | .task t => { s with tasks := s.tasks.modify t fun task => { task with phase := .running thread } }

/-- What a call hands to `exclusive`. Only callbacks do so. -/
def enqueued : Actor → Call → List (Op × Option Nat)
  | .task t, .exclusive op => [(op, some t)]
  | _, _ => []

/-- A call leaves for Chrome; `exclusive` appends to the queue. -/
@[simps world vars boot running queue tasks trace]
def issue (s : Sys) (a : Actor) (c : Call) : Sys :=
  { s with queue := s.queue ++ enqueued a c, trace := .issued a c :: s.trace }

end Sys

/-- Whoever awaits an exclusive task is readied by its result. -/
def Task.settle (r : Except String Result) (task : Task) : Task :=
  match task.phase with
  | .running (.awaiting (.exclusive _) k) => { task with phase := .running (.ready (k r)) }
  | _ => task

namespace Sys

/-- An actor's function has settled. For the holder of the queue this is the
`finally` of `exclusive`. -/
def finish (s : Sys) (a : Actor) (r : Except String Result) : Sys :=
  let s := s.emit (.ended a r)
  match a with
  | .boot => { s with boot := none }
  | .op =>
      let s' := { s with running := none, vars := { s.vars with configurationChanging := false } }
      match s.running.bind Running.owner with
      | some t => { s' with tasks := s.tasks.modify t (Task.settle r) }
      | none => s'
  | .task t => { s with tasks := s.tasks.modify t fun task => { task with phase := .settled r } }

/-- An actor's function has come to an await. -/
def suspend (s : Sys) (a : Actor) (c : Call) (k : Except String (Reply c) → Js Result) : Sys :=
  (s.park a (.awaiting c k)).issue a c

/-- One synchronous segment of an actor. -/
def advance (s : Sys) (a : Actor) (p : Js Result) : Sys :=
  match p.run s.vars with
  | (v, .suspended c k) => { s with vars := v }.suspend a c k
  | (v, .finished r) => { s with vars := v }.finish a r

/-- A call has taken effect: the browser has moved and the caller is ready. -/
def answer (s : Sys) (a : Actor) (c : Call) (k : Except String (Reply c) → Js Result)
    (r : Except String (Reply c)) (w : World) : Sys :=
  ((s.move w).park a (.ready (k r))).emit (.landed a c r)

end Sys

/-! ## Steps -/

/-- The steps of the system. -/
inductive Label where
  | message (sender : JsString) (m : Message)
  | challenge (details : AuthDetails)
  | requestDone (requestId : Nat)
  | proxyError (details : ErrorDetails)
  | others (proxy : Others ProxyConfig) (webRTC : Others WebRTCPolicy)
  | clock (now : Nat)
  | dispatch (t : Nat)
  | start
  | land (a : Actor) (o : Outcome)
  | resume (a : Actor)
  | restart

section

variable [Platform] [Browser]

/-- The body of the message listener after `await boot`. -/
def onMessage : Message → Js Result
  | .getState => .status <$> status
  | .importKey key => chrome (.exclusive (.importKey key))
  | .connect => chrome (.exclusive .connect)
  | .disconnect => chrome (.exclusive .disconnect)
  | .forget => chrome (.exclusive .forget)
  | .saveExclusions text => chrome (.exclusive (.saveExclusions text))
  | .testIp => .ip <$> testIp
  | .other => throw "Неизвестная команда."

/-- What a callback does once `boot` has settled. -/
def TaskKind.body : TaskKind → Js Result
  | .message m => onMessage m
  | .challenge details => .auth <$> onAuthRequired details
  | .proxyChanged => chrome (.exclusive .proxyChanged)
  | .webRTCChanged => chrome (.exclusive .webRTCChanged)

/-- `return await task()` inside `exclusive`. -/
def Op.body (op : Op) : Js Result := await op.task

def bootBody : Js Result := (fun _ => .none) <$> boot

/-- A worker that has just been started. -/
def Sys.fresh (w : World) (trace : List Obs) : Sys :=
  { world := w, boot := some (.ready bootBody), trace }

/-- The worker's first state over a browser state. -/
def Sys.init (w : World) : Sys := Sys.fresh w []

/-- Enter a task of the queue: `configurationChanging = true` and
`configurationEpoch++`. -/
@[simps world vars boot running queue tasks trace]
def Sys.enter (s : Sys) (op : Op) (owner : Option Nat)
    (rest : List (Op × Option Nat)) : Sys :=
  { s with
    queue := rest
    running := some ⟨op, owner, .ready op.body⟩
    vars := { s.vars with
      configurationChanging := true
      configurationEpoch := s.vars.configurationEpoch + 1 }
    trace := .started op owner :: s.trace }

/-- Take the next task off the queue. -/
def Sys.startOp (s : Sys) : Option Sys :=
  match s.running, s.queue with
  | none, (op, owner) :: rest => some (s.enter op owner rest)
  | _, _ => none

/-- Continue a callback that waited for `boot`. -/
def Sys.dispatch (s : Sys) (t : Nat) : Option Sys :=
  match s.boot, s.tasks[t]? with
  | none, some ⟨kind, .parked⟩ => some ((s.park (.task t) (.ready kind.body)).emit (.began t kind))
  | _, _ => none

/-- An awaited call takes effect and its promise settles. -/
def Sys.land (s : Sys) (a : Actor) (o : Outcome) : Option Sys :=
  match s.thread a with
  | some (.awaiting c k) => (s.world.land c o).map fun p => s.answer a c k p.1 p.2
  | _ => none

/-- Run an actor whose promise has settled. -/
def Sys.resume (s : Sys) (a : Actor) : Option Sys :=
  match s.thread a with
  | some (.ready p) => some (s.advance a p)
  | _ => none

/-- The listener of `onAuthRequired`: other challenges are answered `{}` at
once. -/
def Sys.onChallenge (s : Sys) (details : AuthDetails) : Sys :=
  if isBasicProxyChallenge details then s.addTask (.challenge details)
  else { s with tasks := s.tasks ++ [⟨.challenge details, .settled (.ok (.auth .pass))⟩] }

/-- The listener of `onProxyError`, which does not wait for `boot`. -/
@[simps world vars boot running queue tasks trace]
def Sys.onProxyError (s : Sys) (details : ErrorDetails) : Sys :=
  let stamp := s.vars.proxyErrorEpoch + 1
  { s with
    vars := { s.vars with proxyErrorEpoch := stamp }
    queue := s.queue ++ [(Op.proxyError details stamp, none)]
    trace := .errorRaised stamp :: s.trace }

/-- `clearAuthAttempt`. -/
@[simps world vars boot running queue tasks trace]
def Sys.onRequestDone (s : Sys) (requestId : Nat) : Sys :=
  { s with
    vars := { s.vars with authAttempts := s.vars.authAttempts.filter (· ≠ requestId) }
    trace := .requestDone requestId :: s.trace }

/-- One step of the system; `none` when the step is not enabled. -/
def Sys.next (s : Sys) : Label → Option Sys
  | .message sender m => some (if sender = Browser.runtimeId then s.addTask (.message m) else s)
  | .challenge details => some (s.onChallenge details)
  | .requestDone requestId => some (s.onRequestDone requestId)
  | .proxyError details => some (s.onProxyError details)
  | .others proxy webRTC =>
      some (s.move { s.world with
        proxy := { s.world.proxy with others := proxy }
        webRTC := { s.world.webRTC with others := webRTC } })
  | .clock now => some { s with vars := { s.vars with now } }
  | .dispatch t => s.dispatch t
  | .start => s.startOp
  | .land a o => s.land a o
  | .resume a => s.resume a
  | .restart => some (Sys.fresh s.world (.restarted :: s.trace))

/-! ## Runs -/

/-- Which steps a run may take. -/
abbrev Rules := Sys → Label → Prop

/-- The states reached from `s₀` by steps that `ok` admits. -/
inductive Reach (ok : Rules) (s₀ : Sys) : Sys → Prop
  | init : Reach ok s₀ s₀
  | step {s s' : Sys} {l : Label} (h : Reach ok s₀ s) (hl : ok s l) (hs : s.next l = some s') :
      Reach ok s₀ s'

/-- Take the steps of a list, each under a check. -/
def Sys.follow (check : Sys → Label → Bool) : Sys → List Label → Option Sys
  | s, [] => some s
  | s, l :: ls => if check s l then (s.next l).bind fun s' => s'.follow check ls else none

/-- What can be followed can be reached. -/
theorem Reach.follow {check : Sys → Label → Bool} {s₀ s s' : Sys} {ls : List Label}
    (h : Reach (check · ·) s₀ s) (hls : s.follow check ls = some s') :
    Reach (check · ·) s₀ s' := by
  induction ls generalizing s with
  | nil => exact Option.some.inj hls ▸ h
  | cons l ls ih =>
      rw [Sys.follow] at hls
      split at hls
      · rename_i hl
        obtain ⟨s₁, hs, hls⟩ := Option.bind_eq_some_iff.1 hls
        exact ih (h.step hl hs) hls
      · cases hls

/-- A state that the steps of a list lead to. -/
theorem Reach.of_follow (check : Sys → Label → Bool) (w : World) (ls : List Label)
    (Q : Sys → Prop) [DecidablePred Q]
    (h : ((Sys.init w).follow check ls).any (fun s => Q s) = true) :
    ∃ s, Reach (check · ·) (Sys.init w) s ∧ Q s := by
  obtain ⟨s, hs, hQ⟩ := (Option.any_eq_true _ _).1 h
  exact ⟨s, Reach.init.follow hs, of_decide_eq_true hQ⟩

end

/-! ## A worker to run -/

/-- A browser with incognito access. -/
@[reducible] def Browser.sample : Browser where
  incognitoAllowed := true
  inIncognitoContext := false
  runtimeId := js "extension"
  tabIncognito _ := some false

/-- The PAC of the sample connection. -/
def ProxyConfig.sample : ProxyConfig := proxyConfigOf .sample []

/-- A setting that nobody else holds. -/
def Others.free {V : Type} (fallback : V) : Others V := ⟨none, none, fallback⟩

def ProxyConfig.system : ProxyConfig := ⟨.system, none⟩

/-- Somebody else has incognito windows. -/
def Others.incognitoTaken : Others ProxyConfig :=
  ⟨none, some ⟨.controlledByOtherExtensions, .system⟩, .system⟩

/-- Somebody else has all windows. -/
def Others.taken : Others ProxyConfig := ⟨some ⟨false, .system⟩, none, .system⟩

/-- An enabled configuration with WebRTC restricted and no PAC. -/
def World.sample (proxy : Others ProxyConfig) : World where
  storage :=
    { connection := some Connection.sample.toJs, enabled := some true, exclusions := some [],
      proxyError := none }
  proxy := ⟨none, proxy⟩
  webRTC := ⟨some webRTCPolicy, .free .default⟩
  badge := .empty

/-- Every call succeeds. -/
def succeeds (_ : Sys) : Label → Bool
  | .land _ .done => true
  | .land _ _ => false
  | _ => true

theorem done_of_succeeds {s : Sys} {a : Actor} {o : Outcome}
    (h : succeeds s (.land a o) = true) : o = .done := by
  cases o <;> first | rfl | cases h

/-- `n` segments of an actor, each followed by the landing of its call. -/
def turns (a : Actor) (n : Nat) : List Label :=
  (List.replicate n [.resume a, .land a .done]).flatten

/-- A callback that hands over its task, and the task from start to end. -/
def handling (t n : Nat) : List Label :=
  [.dispatch t, .resume (.task t), .start] ++ turns .op n ++ [.resume .op, .resume (.task t)]

end BrowserVpn
