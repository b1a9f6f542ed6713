import LaneSwitchboards.Actor.Task
import LaneSwitchboards.Lib.Chan
import LaneSwitchboards.Lib.Transition

/-!
# The actor runtime: tasks, channels and the registry

All actor tasks of a process with what they share: the global registry `ACTORS`, one mailbox
and one control channel per actor, and the signal channels of supervisors. An event is one
step of one task, or a move of the environment: a user's request through an `ActorRef`, a
spawn, a clone or drop of a reference, a supervisor taking a signal. Every interleaving is a
list of events, executed by `Runtime.run`. The registry and the statistics of an actor are written
by its spawn and its own task: `registry::unregister_actor` and the `register`, `unregister` and
`mark_inactive` of `ActorMonitor` are public, but no event here is a call of them from elsewhere
(`Monitor.InFlight` has those of the monitor).

`Runtime.observe` is what the shared state answers to a task at its next step; it is the only
place where a task step touches another actor. `taskStep_inv` splits a task step into that
access and the local step of `Task`.
-/

namespace LaneSwitchboards

open Function

/-- What a lookup in the global registry `ACTORS` finds for a registered actor: its control
sender leads to the control channel of the same id. -/
structure ActorEntry where
  supervisor : Option SupId
deriving DecidableEq

/-- The shared state of all actors, with every task spawned so far. -/
structure Runtime (M A : Type) where
  /-- `ACTOR_COUNTER`. -/
  nextId : ℕ
  /-- The next signal channel. -/
  nextSup : SupId
  tasks : ActorId → Option (Task M A)
  /-- `ACTORS`. -/
  registry : ActorId → Option ActorEntry
  mailbox : ActorId → Chan (Envelope M A)
  control : ActorId → Chan ControlMsg
  /-- How many clones of an actor's `ActorRef` are alive. -/
  refs : ActorId → ℕ
  signals : SupId → Chan RestartSignal
  stats : ActorMonitor

/-- What the scheduler and the user code decide in one step of a task. -/
inductive Choice
  | poll
  | preStart (r : CallbackResult)
  /-- Poll the control branch; `trap` is what `trap_exit()` answers if it is asked. -/
  | recvControl (trap : Bool)
  | recvMailbox
  | handleBegin (r : CallbackResult)
  | handle (o : HandleOutcome) (elapsed : Duration)
  | timeout (elapsed : Duration)
  | handleStuck (r : CallbackResult)
  | onUpgrade (r : CallbackResult)
  | postStop (r : CallbackResult)
  /-- A registry lookup. -/
  | lookup
  /-- An awaited channel send completes. -/
  | send
  | next (peer : ActorId)
  | linksDone
  | unregister
  | finish
  | panic

/-- One event of the runtime. -/
inductive RtEvent (M A : Type)
  /-- One step of an actor task. -/
  | task (i : ActorId) (c : Choice)
  /-- `spawn_on_runtime`. -/
  | spawn (config : ActorConfig) (actor : A) (supervisor : Option SupId)
  /-- `ActorId::new()` outside of a spawn. -/
  | newId
  /-- A request through an `ActorRef` (`send`, `stop`, `kill`, `link`, `unlink`, `upgrade`,
  `monitor`, `demonitor`) completes: its envelope enters the mailbox. -/
  | post (i : ActorId) (e : Envelope M A)
  | cloneRef (i : ActorId)
  | dropRef (i : ActorId)
  /-- A supervisor opens its signal channel. -/
  | openSignals (capacity : ℕ)
  | recvSignal (k : SupId)
  | closeSignals (k : SupId)

namespace Runtime

variable {M A : Type}

/-- The process before anything is spawned. -/
def init : Runtime M A where
  nextId := 1
  nextSup := 0
  tasks := fun _ => none
  registry := fun _ => none
  mailbox := fun _ => .absent
  control := fun _ => .absent
  refs := fun _ => 0
  signals := fun _ => .absent
  stats := fun _ => none

/-- `get_control_sender(peer)` finds a sender. -/
def hasControlSender (w : Runtime M A) (peer : ActorId) : Bool := (w.registry peer).isSome

/-- `get_supervisor_sender`. -/
def supervisorSender (w : Runtime M A) (i : ActorId) : Option SupId :=
  (w.registry i).bind ActorEntry.supervisor

/-- Replace the local state of a task. -/
def setTask (w : Runtime M A) (i : ActorId) (t : Task M A) : Runtime M A :=
  { w with tasks := update w.tasks i (some t) }

/-- Replace a control channel. -/
def setControl (w : Runtime M A) (i : ActorId) (c : Chan ControlMsg) : Runtime M A :=
  { w with control := update w.control i c }

/-- Replace a mailbox. -/
def setMailbox (w : Runtime M A) (i : ActorId) (c : Chan (Envelope M A)) : Runtime M A :=
  { w with mailbox := update w.mailbox i c }

/-- Replace a signal channel. -/
def setSignals (w : Runtime M A) (k : SupId) (c : Chan RestartSignal) : Runtime M A :=
  { w with signals := update w.signals k c }

/-- Drop both receivers of a task that has ended. -/
def dropReceivers (w : Runtime M A) (i : ActorId) : Runtime M A :=
  { w with
    mailbox := update w.mailbox i (w.mailbox i).close
    control := update w.control i (w.control i).close }

/-- `control_rx.recv()` as the biased first branch of the select. The channel is closed when no
sender is left, which is so once the registry entry is gone. -/
def observeControl (w : Runtime M A) (i : ActorId) (trap : Bool) : Input M A × Runtime M A :=
  match (w.control i).recv with
  | some (m, c) => (.control (some m) trap, w.setControl i c)
  | none => if w.hasControlSender i then (.controlEmpty, w) else (.control none trap, w)

/-- `rx.recv()` as the second branch; the mailbox is closed when no `ActorRef` is left. -/
def observeMailbox (w : Runtime M A) (i : ActorId) : Input M A × Runtime M A :=
  match (w.mailbox i).recv with
  | some (e, c) => (.envelope (some e), w.setMailbox i c)
  | none => if w.refs i = 0 then (.envelope none, w) else (.mailboxEmpty, w)

/-- The registry lookup a task is about to make. -/
def observeLookup (w : Runtime M A) (i : ActorId) : Phase M → Option (Input M A)
  | .reverseLink peer => some (.found (w.hasControlSender peer))
  | .lookupPeer _ peer _ => some (.found (w.hasControlSender peer))
  | .notify _ => some (.supervisor (w.supervisorSender i))
  | _ => none

/-- The channel send a task is awaiting, if it can complete now. -/
def completeSend (w : Runtime M A) (i : ActorId) : Phase M → Option (Runtime M A)
  | .sendLink peer => ((w.control peer).send (.link i)).map (w.setControl peer)
  | .sendLinkedExit r peer _ => ((w.control peer).send (.linkedExit i r)).map (w.setControl peer)
  | .sendSignal k r => ((w.signals k).send ⟨i, r⟩).map (w.setSignals k)
  | _ => none

/-- What the shared state answers to the task of `i` in phase `p`, and the shared state after
that access. -/
def observe (w : Runtime M A) (i : ActorId) (p : Phase M) : Choice →
    Option (Input M A × Runtime M A)
  | .poll => some (.poll, w)
  | .preStart r => some (.preStart r, w)
  | .recvControl trap => if p matches .select then some (w.observeControl i trap) else none
  | .recvMailbox => if p matches .pollMailbox then some (w.observeMailbox i) else none
  | .handleBegin r => some (.handleBegin r, w)
  | .handle o elapsed => some (.handle o elapsed, w)
  | .timeout elapsed => some (.timeout elapsed, w)
  | .handleStuck r => some (.handleStuck r, w)
  | .onUpgrade r => some (.onUpgrade r, w)
  | .postStop r => some (.postStop r, w)
  | .lookup => (w.observeLookup i p).map fun x => (x, w)
  | .send => (w.completeSend i p).map fun w' => (.sent, w')
  | .next peer => some (.next peer, w)
  | .linksDone => some (.linksDone, w)
  | .unregister => some (.unregistered, { w with registry := update w.registry i none })
  | .finish => some (.finished, w.dropReceivers i)
  | .panic => some (.panicked, w.dropReceivers i)

/-- One step of the task of `i`: the access to the shared state, then the local step. -/
def taskStep (w : Runtime M A) (i : ActorId) (c : Choice) : Option (Runtime M A) :=
  (w.tasks i).bind fun t => (w.observe i t.phase c).bind fun (x, w') => (t.step x).map fun t' =>
    { w'.setTask i t' with stats := w.stats.record i (t.recordStats x) }

/-- `spawn_on_runtime`: a fresh id, its two channels, its registry entry and its task. It panics
with the channel constructor. -/
def spawnOnRuntime (w : Runtime M A) (config : ActorConfig) (actor : A)
    (supervisor : Option SupId) : Option (ActorId × Runtime M A) :=
  if ¬ Chan.Fits config.mailboxCapacity then none else
  let id : ActorId := ⟨w.nextId⟩
  some (id,
    { w with
      nextId := w.nextId + 1
      tasks := update w.tasks id (some ⟨.spawned, actor, ∅, [], config⟩)
      registry := update w.registry id (some ⟨supervisor⟩)
      mailbox := update w.mailbox id (.new config.mailboxCapacity)
      control := update w.control id (.new config.mailboxCapacity)
      refs := update w.refs id 1
      stats := w.stats.register id })

/-- A request completes: the sender exists, the mailbox has room and its receiver is alive. -/
def post (w : Runtime M A) (i : ActorId) (e : Envelope M A) : Option (Runtime M A) :=
  if 0 < w.refs i ∧ (w.mailbox i).hasRoom = true then
    some (w.setMailbox i ((w.mailbox i).push e))
  else none

/-- One event of the runtime; `none` where it is not enabled. -/
def step (w : Runtime M A) : RtEvent M A → Option (Runtime M A)
  | .task i c => w.taskStep i c
  | .spawn config actor supervisor =>
    if supervisor.all (· < w.nextSup) then
      (w.spawnOnRuntime config actor supervisor).map Prod.snd
    else none
  | .newId => some { w with nextId := w.nextId + 1 }
  | .post i e => w.post i e
  | .cloneRef i => if 0 < w.refs i then some { w with refs := update w.refs i (w.refs i + 1) }
      else none
  | .dropRef i => some { w with refs := update w.refs i (w.refs i - 1) }
  | .openSignals capacity =>
    if ¬ Chan.Fits capacity then none else
    some { w with
      nextSup := w.nextSup + 1
      signals := update w.signals w.nextSup (.new capacity) }
  | .recvSignal k => (w.signals k).recv.map fun (_, c) => w.setSignals k c
  | .closeSignals k => some (w.setSignals k (w.signals k).close)

/-- Execute a list of events. -/
abbrev run : Runtime M A → List (RtEvent M A) → Option (Runtime M A) := Transition.run step

/-- Reached from the empty process by some interleaving. -/
def Reachable (w : Runtime M A) : Prop := ∃ es, init.run es = some w

/-- The phase of an actor's task. -/
def phase (w : Runtime M A) (i : ActorId) : Option (Phase M) := (w.tasks i).map Task.phase

/-! ### Splitting a task step -/

section TaskStep

variable {w w' w₁ : Runtime M A} {i j : ActorId} {c : Choice} {p : Phase M} {x : Input M A}

/-- **Inversion of a task step**: the access to the shared state and the local step. -/
theorem taskStep_inv (h : w.taskStep i c = some w') : ∃ t x w₁ t',
    w.tasks i = some t ∧ w.observe i t.phase c = some (x, w₁) ∧ t.step x = some t' ∧
      w' = { w₁.setTask i t' with stats := w.stats.record i (t.recordStats x) } := by
  simp only [taskStep, Option.bind_eq_some_iff, Option.map_eq_some_iff, Prod.exists] at h
  obtain ⟨t, ht, x, w₁, hx, t', ht', rfl⟩ := h
  exact ⟨t, x, w₁, t', ht, hx, ht', rfl⟩

end TaskStep

end Runtime

end LaneSwitchboards
