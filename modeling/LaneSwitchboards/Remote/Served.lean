import LaneSwitchboards.Actor.History
import LaneSwitchboards.Actor.Mailbox
import LaneSwitchboards.Limits
import LaneSwitchboards.Remote.Order

/-!
# A served actor

`serve_actor_on_runtime` spawns an actor, binds a node, and leaves a bridge task between the bridge
channel of the node and the mailbox of the actor. The task owns the only `ActorRef` of the actor and
the receiver of the channel; the sender is in the dispatch table under the target, and in the
dispatch tasks that have looked it up. Everything else in the process and on the node is free to go
on as it likes.

The bridge task is a relay, so that the mailbox and the bridge channel are one longer queue:
`served_in_order`.
-/

namespace LaneSwitchboards

open Function Transition

variable {M A : Type}

/-- Where the bridge task of a served actor is. -/
inductive BridgePhase (M : Type)
  /-- Awaiting `rx.recv()`. -/
  | idle
  /-- Awaiting room in the mailbox. -/
  | sending (d : Delivery M)
  | ended
deriving DecidableEq

/-- A served actor, with its process and its node. -/
structure Served (M A : Type) where
  rt : Runtime M A
  node : Node M
  target : String
  bridge : BridgeId
  actor : ActorId
  phase : BridgePhase M

/-- One event of a served actor, its process and its node. -/
inductive ServedEvent (M A : Type)
  | rt (e : RtEvent M A)
  | node (e : NodeEvent)
  /-- `rx.recv()` returns a message. -/
  | recv
  /-- `rx.recv()` returns `None`. -/
  | recvNone
  /-- `actor_ref.send(msg)` returns `Ok`. -/
  | send
  /-- `actor_ref.send(msg)` returns an error. -/
  | sendFailed

/-- The message that has left the bridge channel and not entered the mailbox. -/
def BridgePhase.message : BridgePhase M → List (Delivery M)
  | .sending d => [d]
  | _ => []

/-- A message as it enters the mailbox. -/
def Delivery.envelope (A : Type) (d : Delivery M) : Envelope M A := .msg d.msg

namespace Served

/-- The state that `serve_actor_on_runtime` leaves behind. -/
def start (w : Runtime M A) (target : String) (actor : A) (distributed : DistributedConfig)
    (actorConfig : ActorConfig) : Option (Served M A) :=
  (w.spawnOnRuntime actorConfig actor none).bind fun (id, rt) =>
    (Node.serve distributed target).map fun node => ⟨rt, node, target, 0, id, .idle⟩

/-- Nobody but the bridge task has an `ActorRef` of the actor. -/
def rtAllowed (s : Served M A) : RtEvent M A → Bool
  | .post i _ | .cloneRef i | .dropRef i => i ≠ s.actor
  | _ => true

/-- Nobody but the bridge task has the receiver of the bridge channel, and nobody but the node a
sender. -/
def nodeAllowed (s : Served M A) : NodeEvent → Bool
  | .register _ b | .recvBridge b | .closeBridge b => b ≠ s.bridge
  | _ => true

/-- No sender of the bridge channel is left. -/
def senderless (s : Served M A) : Bool :=
  decide (s.node.table s.target ≠ some s.bridge) && s.node.tasks.all (·.phase ≠ .send s.bridge)

/-- The bridge task ends: it drops its `ActorRef` and its receiver. -/
def finish (s : Served M A) : Served M A :=
  { s with
    rt := s.rt.releaseRef s.actor
    node := s.node.setBridge s.bridge (s.node.bridges s.bridge).close
    phase := .ended }

/-- One event of a served actor; `none` where it is not enabled. -/
def step (codec : Codec M) (s : Served M A) : ServedEvent M A → Option (Served M A)
  | .rt e => if s.rtAllowed e then (s.rt.step e).map fun rt => { s with rt := rt } else none
  | .node e =>
    if s.nodeAllowed e then (s.node.step codec e).map fun node => { s with node := node } else none
  | .recv =>
    match s.phase with
    | .idle => (s.node.bridges s.bridge).recv.map fun (d, ch) =>
      { s with node := s.node.setBridge s.bridge ch, phase := .sending d }
    | _ => none
  | .recvNone =>
    match s.phase with
    | .idle =>
      if (s.node.bridges s.bridge).queue = [] ∧ s.senderless = true then some s.finish else none
    | _ => none
  | .send =>
    match s.phase with
    | .sending d => (s.rt.post s.actor (d.envelope A)).map fun rt =>
      { s with rt := rt, phase := .idle }
    | _ => none
  | .sendFailed =>
    match s.phase with
    | .sending _ => if (s.rt.mailbox s.actor).isOpen = false then some s.finish else none
    | _ => none

/-- Execute a list of events. -/
abbrev run (codec : Codec M) : Served M A → List (ServedEvent M A) → Option (Served M A) :=
  Transition.run (step codec)

/-- What a step does to the process. -/
def toRt (s : Served M A) : ServedEvent M A → List (RtEvent M A)
  | .rt e => [e]
  | .send => s.phase.message.map fun d => .post s.actor (d.envelope A)
  | .recvNone | .sendFailed => [.dropRef s.actor]
  | _ => []

/-- What a step does to the node. -/
def toNode (s : Served M A) : ServedEvent M A → List NodeEvent
  | .node e => [e]
  | .recv => [.recvBridge s.bridge]
  | .recvNone | .sendFailed => [.closeBridge s.bridge]
  | _ => []

/-- What a run does to the process. -/
def rtEvents (codec : Codec M) (s : Served M A) (es : List (ServedEvent M A)) :
    List (RtEvent M A) :=
  trace (step codec) (fun s e _ => s.toRt e) s es

/-- What a run does to the node. -/
def nodeEvents (codec : Codec M) (s : Served M A) (es : List (ServedEvent M A)) : List NodeEvent :=
  trace (step codec) (fun s e _ => s.toNode e) s es

/-- Everything that has ever entered the bridge channel. -/
def history (s : Served M A) : List (Delivery M) := (s.node.bridges s.bridge).accepted

/-- What the bridge task has not passed on: the message it holds, and those that are queued. -/
def backlog (s : Served M A) : List (Delivery M) :=
  s.phase.message ++ (s.node.bridges s.bridge).queue

/-- The mailbox of the actor. -/
def mailbox (s : Served M A) : Chan (Envelope M A) := s.rt.mailbox s.actor

/-- The ways in which a served actor steps. -/
inductive Step (codec : Codec M) (s : Served M A) : ServedEvent M A → Served M A → Prop
  | rt {e rt} (hallowed : s.rtAllowed e = true) (hrt : s.rt.step e = some rt) :
      Step codec s (.rt e) { s with rt := rt }
  | node {e node} (hallowed : s.nodeAllowed e = true) (hnode : s.node.step codec e = some node) :
      Step codec s (.node e) { s with node := node }
  | recv {d ch} (hphase : s.phase = .idle)
      (hrecv : (s.node.bridges s.bridge).recv = some (d, ch)) :
      Step codec s .recv { s with node := s.node.setBridge s.bridge ch, phase := .sending d }
  | recvNone (hphase : s.phase = .idle) (hqueue : (s.node.bridges s.bridge).queue = [])
      (hsenders : s.senderless = true) : Step codec s .recvNone s.finish
  | send {d rt} (hphase : s.phase = .sending d) (hrt : s.rt.post s.actor (d.envelope A) = some rt) :
      Step codec s .send { s with rt := rt, phase := .idle }
  | sendFailed {d} (hphase : s.phase = .sending d) (hclosed : s.mailbox.isOpen = false) :
      Step codec s .sendFailed s.finish

variable {codec : Codec M} {s s' s₀ : Served M A} {e : ServedEvent M A}
  {es : List (ServedEvent M A)} {w : Runtime M A} {target : String} {actor : A}
  {distributed : DistributedConfig} {actorConfig : ActorConfig}

/-- **Inversion of a step.** -/
theorem step_inv (h : s.step codec e = some s') : Step codec s e s' := by
  cases e with
  | rt e =>
    obtain ⟨hallowed, h⟩ := Option.ite_none_right_eq_some.mp h
    obtain ⟨rt, hrt, rfl⟩ := Option.map_eq_some_iff.mp h
    exact .rt hallowed hrt
  | node e =>
    obtain ⟨hallowed, h⟩ := Option.ite_none_right_eq_some.mp h
    obtain ⟨node, hnode, rfl⟩ := Option.map_eq_some_iff.mp h
    exact .node hallowed hnode
  | recv =>
    simp only [step] at h
    split at h
    · next hphase =>
      obtain ⟨⟨d, ch⟩, hrecv, rfl⟩ := Option.map_eq_some_iff.mp h
      exact .recv hphase hrecv
    · cases h
  | recvNone =>
    simp only [step] at h
    split at h
    · next hphase =>
      obtain ⟨⟨hqueue, hsenders⟩, h⟩ := Option.ite_none_right_eq_some.mp h
      cases h
      exact .recvNone hphase hqueue hsenders
    · cases h
  | send =>
    simp only [step] at h
    split at h
    · next d hphase =>
      obtain ⟨rt, hrt, rfl⟩ := Option.map_eq_some_iff.mp h
      exact .send hphase hrt
    · cases h
  | sendFailed =>
    simp only [step] at h
    split at h
    · next d hphase =>
      obtain ⟨hclosed, h⟩ := Option.ite_none_right_eq_some.mp h
      cases h
      exact .sendFailed hphase hclosed
    · cases h

/-- A call of `serve_actor_on_runtime` that returns leaves this state behind. -/
theorem start_of_serve {E : Type} {nodeName address : String} {rt : Runtime M A}
    {handle : NodeHandle M}
    (h : serveActorOnRuntime w nodeName target actor distributed actorConfig
      (.ok address : Except E String) = .ok (.ok handle) rt) :
    ∃ s₀ : Served M A, start w target actor distributed actorConfig = some s₀ ∧ s₀.rt = rt ∧
      s₀.node = handle.node ∧ handle.member = ⟨nodeName, address, s₀.target⟩ := by
  unfold serveActorOnRuntime at h
  unfold start
  cases hspawn : w.spawnOnRuntime actorConfig actor none with
  | none => simp [hspawn] at h
  | some p =>
    cases hserve : (Node.serve distributed target : Option (Node M)) with
    | none => simp [hspawn, hserve] at h
    | some node =>
      simp only [hspawn, hserve] at h
      cases h
      exact ⟨_, rfl, rfl, rfl, rfl⟩

/-! ### The process and the node, on their own -/

/-- The process runs on what the served actor does to it. -/
theorem run_rtEvents (h : s.run codec es = some s') :
    s.rt.run (s.rtEvents codec es) = some s'.rt := by
  have hsim : ∀ {s : Served M A} {w : Runtime M A} {e : ServedEvent M A} {s' : Served M A},
      s.rt = w → s.step codec e = some s' → ∃ w', w.run (s.toRt e) = some w' ∧ s'.rt = w' := by
    rintro s _ e s' rfl h
    cases step_inv h with
    | rt hallowed hrt => exact ⟨_, by simp [toRt, hrt], rfl⟩
    | node | recv => exact ⟨_, rfl, rfl⟩
    | recvNone | sendFailed => exact ⟨_, rfl, rfl⟩
    | send hphase hrt =>
      exact ⟨_, by simp [toRt, hphase, BridgePhase.message, Runtime.step, hrt], rfl⟩
  obtain ⟨w', hrun, rfl⟩ := run_trace (R := fun s w => s.rt = w) hsim rfl h
  exact hrun

/-- The node runs on what the served actor does to it. -/
theorem run_nodeEvents (h : s.run codec es = some s') :
    s.node.run codec (s.nodeEvents codec es) = some s'.node := by
  have hsim : ∀ {s : Served M A} {n : Node M} {e : ServedEvent M A} {s' : Served M A},
      s.node = n → s.step codec e = some s' →
        ∃ n', n.run codec (s.toNode e) = some n' ∧ s'.node = n' := by
    rintro s _ e s' rfl h
    cases step_inv h with
    | node hallowed hnode => exact ⟨_, by simp [toNode, hnode], rfl⟩
    | rt | send => exact ⟨_, rfl, rfl⟩
    | recvNone | sendFailed => exact ⟨_, rfl, rfl⟩
    | recv hphase hrecv => exact ⟨_, by simp [toNode, Node.step, hrecv], rfl⟩
  obtain ⟨n', hrun, rfl⟩ := run_trace (R := fun s n => s.node = n) hsim rfl h
  exact hrun

end Served

/-! ### The relay -/

namespace Served

variable {codec : Codec M} {s s' s₀ : Served M A} {e : ServedEvent M A}
  {es : List (ServedEvent M A)} {w : Runtime M A} {target : String} {actor : A}
  {distributed : DistributedConfig} {actorConfig : ActorConfig} {m n : ℕ}

/-- The bridge channel and the mailbox as one queue, of which the bridge task holds one message.
Where the task has ended and the actor has not, everything was passed on. -/
structure Piped (m n : ℕ) (s : Served M A) : Prop where
  fresh : s.rt.Fresh
  spawned : ∃ t, s.rt.tasks s.actor = some t
  lt : s.bridge < s.node.nextBridge
  mailbox : s.mailbox.Bounded ∧ s.mailbox.capacity = m
  bridge : (s.node.bridges s.bridge).Bounded ∧ (s.node.bridges s.bridge).capacity = n
  carries : s.phase ≠ .ended → ∃ sent, Relay.Carries (Delivery.envelope A)
    (s.node.bridges s.bridge) s.phase.message s.mailbox sent
  ended : s.phase = .ended → (s.node.bridges s.bridge).isOpen = false ∧
    (s.node.bridges s.bridge).queue = [] ∧
    ∃ sent lost, s.mailbox.accepted = sent.map (Delivery.envelope A) ∧ s.history = sent ++ lost ∧
      (s.mailbox.isOpen = true → lost = [])

/-- The process goes on, and posts nothing to the actor. -/
theorem Piped.rt (h : s.Piped m n) {e : RtEvent M A} {rt : Runtime M A}
    (hallowed : s.rtAllowed e = true) (hrt : s.rt.step e = some rt) :
    { s with rt := rt }.Piped m n := by
  obtain ⟨t, ht⟩ := h.spawned
  obtain ⟨hcapacity, hmailbox⟩ := Runtime.mailbox_spawned_step h.fresh ht hrt
  obtain ⟨haccepted, hqueue, hopen⟩ := hmailbox.resolve_right (by
    rintro ⟨env, rfl, -⟩
    simp [rtAllowed] at hallowed)
  refine ⟨h.fresh.step hrt, Runtime.tasks_mono hrt ht, h.lt, ⟨?_, hcapacity.trans h.mailbox.2⟩,
    h.bridge, fun hphase => ?_, fun hphase => ?_⟩
  · exact hqueue.length_le.trans (h.mailbox.1.trans hcapacity.ge)
  · obtain ⟨sent, hsent⟩ := h.carries hphase
    exact ⟨sent, hsent.of_accepted haccepted⟩
  · obtain ⟨hclosed, hnil, sent, lost, hsent, hsplit, hlost⟩ := h.ended hphase
    exact ⟨hclosed, hnil, sent, lost, haccepted.trans hsent, hsplit, fun h' => hlost (hopen h')⟩

/-- The node goes on, and may hand a message to the bridge channel. -/
theorem Piped.node (h : s.Piped m n) {e : NodeEvent} {node : Node M}
    (hallowed : s.nodeAllowed e = true) (hnode : s.node.step codec e = some node) :
    { s with node := node }.Piped m n := by
  have hne : e ≠ .recvBridge s.bridge ∧ e ≠ .closeBridge s.bridge := by
    constructor <;> rintro rfl <;> simp [nodeAllowed] at hallowed
  have hlt := h.lt.trans_le (Node.nextBridge_of_step hnode)
  rcases Node.bridges_of_step h.lt hne.1 hne.2 hnode with hsame | ⟨d, hsend⟩
  · refine ⟨h.fresh, h.spawned, hlt, h.mailbox, ?_, fun hphase => ?_, fun hphase => ?_⟩
    · simpa only [hsame] using h.bridge
    · simpa only [hsame, Served.mailbox] using h.carries hphase
    · simpa only [hsame, Served.mailbox, history] using h.ended hphase
  · refine ⟨h.fresh, h.spawned, hlt, h.mailbox,
      ⟨h.bridge.1.send hsend, (Chan.capacity_send hsend).trans h.bridge.2⟩, fun hphase => ?_,
      fun hphase => ?_⟩
    · obtain ⟨sent, hsent⟩ := h.carries hphase
      exact ⟨sent, hsent.accept hsend⟩
    · -- a send on the closed channel changes nothing
      obtain ⟨hclosed, hrest⟩ := h.ended hphase
      rcases Chan.send_eq_some.mp hsend with ⟨hroom, -⟩ | ⟨-, hsame⟩
      · rw [Chan.isOpen_of_hasRoom hroom] at hclosed
        cases hclosed
      · simpa only [hsame, Served.mailbox, history] using h.ended hphase

/-- The bridge task ends with what it holds and what is queued, which is lost. -/
theorem Piped.finish (h : s.Piped m n) (hphase : s.phase ≠ .ended)
    (hlost : s.mailbox.isOpen = true → s.backlog = []) : s.finish.Piped m n := by
  obtain ⟨sent, hsent⟩ := h.carries hphase
  have hdrop : s.rt.step (.dropRef s.actor) = some s.finish.rt := rfl
  refine ⟨h.fresh.step hdrop, h.spawned, h.lt, h.mailbox, ?_, fun hne => absurd rfl hne,
    fun _ => ⟨?_, ?_, sent, s.backlog, hsent.passed, ?_, hlost⟩⟩
  · simp only [Served.finish, Node.setBridge, update_self]
    exact ⟨Chan.bounded_close, h.bridge.2⟩
  · simp [Served.finish, Node.setBridge]
  · simp [Served.finish, Node.setBridge]
  · have hsplit := hsent.split
    simpa [Served.finish, Node.setBridge, history, backlog] using hsplit

/-- **Every step keeps the messages in one line.** -/
theorem Piped.step (h : s.Piped m n) (hst : s.step codec e = some s') : s'.Piped m n := by
  cases step_inv hst with
  | rt hallowed hrt => exact h.rt hallowed hrt
  | node hallowed hnode => exact h.node hallowed hnode
  | @recv d ch hphase hrecv =>
    obtain ⟨sent, hsent⟩ := h.carries (by simp [hphase])
    rw [hphase] at hsent
    refine ⟨h.fresh, h.spawned, h.lt, h.mailbox, ?_, fun _ => ⟨sent, ?_⟩,
      fun hended => (by cases hended)⟩
    · simp only [Node.setBridge, update_self]
      exact ⟨h.bridge.1.recv hrecv, (Chan.capacity_recv hrecv).trans h.bridge.2⟩
    · simp only [Node.setBridge, update_self]
      exact hsent.recv hrecv
  | recvNone hphase hqueue hsenders =>
    refine h.finish (by simp [hphase]) fun _ => ?_
    rw [backlog, hphase, hqueue]
    rfl
  | @send d rt hphase hrt =>
    obtain ⟨t, ht⟩ := h.spawned
    have hstep : s.rt.step (.post s.actor (d.envelope A)) = some rt := hrt
    obtain ⟨hroom, hrt'⟩ := Runtime.step_post hstep
    have hmailbox : rt.mailbox s.actor = s.mailbox.push (d.envelope A) := by
      rw [hrt']
      simp [Runtime.setMailbox, Served.mailbox]
    obtain ⟨sent, hsent⟩ := h.carries (by simp [hphase])
    rw [hphase] at hsent
    refine ⟨h.fresh.step hstep, Runtime.tasks_mono hstep ht, h.lt, ?_, h.bridge,
      fun _ => ⟨sent ++ [d], ?_⟩, fun hended => (by cases hended)⟩
    · simp only [Served.mailbox, hmailbox]
      exact ⟨Chan.Bounded.push hroom, h.mailbox.2⟩
    · simp only [Served.mailbox, hmailbox]
      exact hsent.send
  | sendFailed hphase hclosed =>
    refine h.finish (by simp [hphase]) fun hopen => ?_
    rw [hclosed] at hopen
    cases hopen

/-- What `serve_actor_on_runtime` leaves behind: a spawned actor, and a bridge channel that is
registered under the target. -/
theorem start_spec (h : start w target actor distributed actorConfig = some s₀) :
    w.step (.spawn actorConfig actor none) = some s₀.rt ∧ s₀.actor = ⟨w.nextId⟩ ∧
    Node.serve distributed target = some s₀.node ∧ s₀.target = target ∧ s₀.bridge = 0 ∧
    s₀.phase = .idle := by
  simp only [start, Option.bind_eq_some_iff, Option.map_eq_some_iff, Prod.exists] at h
  obtain ⟨id, rt, hspawn, node, hserve, rfl⟩ := h
  obtain ⟨hid, -⟩ := Runtime.spawnOnRuntime_eq hspawn
  exact ⟨Runtime.step_of_spawn nofun hspawn, hid, hserve, rfl, rfl, rfl⟩

/-- The node of a served actor. -/
theorem serve_spec {node : Node M} (h : Node.serve distributed target = some node) :
    node.config = distributed ∧ node.table = update (fun _ => none) target (some 0) ∧
    node.bridges 0 = .new distributed.bridgeCapacity ∧ node.nextBridge = 1 ∧ node.tasks = [] := by
  obtain ⟨node₀, hbind, h⟩ := Option.bind_eq_some_iff.mp h
  obtain ⟨-, hbind⟩ := Option.ite_none_left_eq_some.mp hbind
  obtain ⟨ch, hch, rfl⟩ := Option.map_eq_some_iff.mp h
  obtain ⟨-, hch⟩ := Option.ite_none_left_eq_some.mp hch
  cases hbind
  cases hch
  simp [Node.setBridge, Node.bind]

theorem piped_start (hw : w.Reachable)
    (h : start w target actor distributed actorConfig = some s₀) :
    s₀.Piped actorConfig.mailboxCapacity distributed.bridgeCapacity := by
  obtain ⟨hspawn, hactor, hserve, -, hbridge, hphase⟩ := start_spec h
  obtain ⟨-, -, hch, hnext, -⟩ := serve_spec hserve
  have hmailbox : s₀.mailbox = .new actorConfig.mailboxCapacity := by
    rw [mailbox, hactor, Runtime.step_spawn_eq hspawn]
    simp
  refine ⟨hw.fresh.step hspawn, ?_, ?_, ?_, ?_, fun _ => ⟨[], ?_⟩, fun hended => ?_⟩
  · rw [hactor]
    exact ⟨_, (Runtime.spawned_spec hspawn).1⟩
  · rw [hbridge, hnext]
    exact Nat.one_pos
  · rw [hmailbox]
    exact ⟨Chan.bounded_new _, rfl⟩
  · rw [hbridge, hch]
    exact ⟨Chan.bounded_new _, rfl⟩
  · rw [hmailbox, hbridge, hch, hphase]
    exact Relay.carries_new ..
  · rw [hphase] at hended
    cases hended

theorem Piped.run (h : s₀.Piped m n) (hrun : s₀.run codec es = some s) : s.Piped m n :=
  invariant_run (P := fun s => s.Piped m n) (fun h hst => h.step hst) h hrun

/-- The actor is the same throughout. -/
theorem actor_of_run (hrun : s₀.run codec es = some s) : s.actor = s₀.actor := by
  refine invariant_run (P := fun s => s.actor = s₀.actor) ?_ rfl hrun
  intro s e s' hs hst
  cases step_inv hst <;> exact hs

/-- What has reached the mailbox, what is on the way to it, and what was lost. -/
theorem Piped.split (h : s.Piped m n) : ∃ sent lost,
    s.mailbox.accepted = sent.map (Delivery.envelope A) ∧ s.history = sent ++ s.backlog ++ lost ∧
    (s.mailbox.isOpen = true → lost = []) := by
  by_cases hphase : s.phase = .ended
  · obtain ⟨-, hnil, sent, lost, hsent, hsplit, hlost⟩ := h.ended hphase
    refine ⟨sent, lost, hsent, ?_, hlost⟩
    simp [backlog, hphase, hnil, hsplit, BridgePhase.message]
  · obtain ⟨sent, hsent⟩ := h.carries hphase
    refine ⟨sent, [], hsent.passed, ?_, fun _ => rfl⟩
    rw [history, hsent.split, backlog, List.append_nil, List.append_assoc]

/-- The bridge task holds at most one message. -/
theorem length_message (p : BridgePhase M) : p.message.length ≤ 1 := by
  cases p <;> simp [BridgePhase.message]

theorem Piped.length_le (h : s.Piped m n) :
    s.mailbox.queue.length + s.backlog.length ≤ m + 1 + n := by
  obtain ⟨hmailbox, hm⟩ := h.mailbox
  obtain ⟨hbridge, hn⟩ := h.bridge
  have hmessage := length_message s.phase
  unfold Chan.Bounded at hmailbox hbridge
  rw [backlog, List.length_append]
  omega

/-- What the actor has taken is the start of what has entered the bridge channel; what waits comes
next. -/
theorem taken_of_run (hw : w.Reachable)
    (hstart : start w target actor distributed actorConfig = some s₀)
    (hrun : s₀.run codec es = some s) : ∃ taken rest lost,
      s.history = taken ++ rest ++ lost ∧
      s₀.rt.envelopes s₀.actor (s₀.rtEvents codec es) = taken.map (Delivery.envelope A) ∧
      (s.mailbox.isOpen = true → lost = [] ∧
        rest.map (Delivery.envelope A) =
          s.mailbox.queue ++ s.backlog.map (Delivery.envelope A)) := by
  have hpiped := (piped_start hw hstart).run hrun
  obtain ⟨hspawn, hactor, -⟩ := start_spec hstart
  obtain ⟨htask, hempty, -⟩ := Runtime.spawned_spec hspawn
  rw [← hactor] at htask hempty
  have hfresh := hw.fresh.step hspawn
  have hrtRun := run_rtEvents hrun
  obtain ⟨hfirst, hrest⟩ := Runtime.envelopes_spec hfresh htask hempty hrtRun
  obtain ⟨sent, lost, hsent, hsplit, hlost⟩ := hpiped.split
  have hsame := actor_of_run hrun
  rw [mailbox, hsame] at hsent
  rw [hsent] at hfirst hrest
  -- what was taken is the start of what has reached the mailbox
  obtain ⟨taken, ⟨queued, rfl⟩, htaken⟩ := List.prefix_map_iff.mp hfirst
  refine ⟨taken, queued ++ s.backlog, lost, ?_, htaken, fun hopen => ⟨hlost hopen, ?_⟩⟩
  · rw [hsplit, List.append_assoc taken]
  · rw [mailbox, hsame] at hopen ⊢
    obtain ⟨t, ht, hdone⟩ := (((hw.step hspawn).run hrtRun).mailbox_isOpen s₀.actor).mp hopen
    have hqueued := hrest t ht hdone
    rw [htaken, List.map_append] at hqueued
    rw [List.map_append, List.append_cancel_left hqueued]

/-- **A served actor takes the messages of its bridge channel in order.** Over every run of the
process and the node, the envelopes that it takes are the first messages that have entered the
bridge channel. As long as it has not ended, the others are in its mailbox, with the bridge task or
in the bridge channel, in this order, and none is lost; and no more wait than the two capacities
and the one that the bridge task holds. -/
theorem served_in_order (hw : w.Reachable)
    (hstart : start w target actor distributed actorConfig = some s₀)
    (hrun : s₀.run codec es = some s) : ∃ taken rest lost,
      s.history = taken ++ rest ++ lost ∧
      s₀.rt.envelopes s₀.actor (s₀.rtEvents codec es) = taken.map (Delivery.envelope A) ∧
      (s.mailbox.isOpen = true → lost = [] ∧
        rest.map (Delivery.envelope A) =
          s.mailbox.queue ++ s.backlog.map (Delivery.envelope A)) ∧
      s.mailbox.queue.length + s.backlog.length ≤
        actorConfig.mailboxCapacity + 1 + distributed.bridgeCapacity := by
  obtain ⟨taken, rest, lost, hsplit, htaken, hopen⟩ := taken_of_run hw hstart hrun
  exact ⟨taken, rest, lost, hsplit, htaken, hopen, ((piped_start hw hstart).run hrun).length_le⟩

/-- An actor that is served as `t` in a process of its own. -/
def serving : Served ℕ Unit := (start .init "t" () .default .default).get rfl

theorem start_serving :
    start (.init : Runtime ℕ Unit) "t" () .default .default = some serving := rfl

/-- The frame at the front of a connection is read, and its message enters the bridge channel. -/
def dispatches (c : ConnId) : List (ServedEvent ℕ Unit) :=
  let events : List NodeEvent := [.read c .header, .read c .body, .acquire c, .lookup 0, .send 0]
  events.map .node

/-- The bridge task passes a message on, and the actor takes it. -/
def takes : List (ServedEvent ℕ Unit) :=
  let choices : List Choice := [.poll, .preStart (.ok ()), .recvControl false, .recvMailbox]
  [.recv, .send] ++ choices.map fun c => .rt (.task ⟨1⟩ c)

/-- The bridge task passes the next message on, and the actor takes it after the one it handles. -/
def takesNext : List (ServedEvent ℕ Unit) :=
  let choices : List Choice := [.handleBegin (.ok ()), .handle .ok 0, .recvControl false,
    .recvMailbox]
  [.recv, .send] ++ choices.map fun c => .rt (.task ⟨1⟩ c)

/-- Two frames arrive on one connection, and both messages enter the bridge channel. -/
def arrives : List (ServedEvent ℕ Unit) :=
  let events : List NodeEvent := [.accept, .arrive 0 (Node.numberFrame 1),
    .arrive 0 (Node.numberFrame 2)]
  events.map .node ++ dispatches 0 ++ dispatches 0

/-- The actor takes the two numbers that it is sent in their order. -/
theorem served_two : ∃ s : Served ℕ Unit,
    serving.run Node.numberCodec (arrives ++ takes ++ takesNext) = some s ∧
    s.history = [⟨0, 0, 1⟩, ⟨0, 1, 2⟩] ∧
    ∃ taken rest, s.history = taken ++ rest ∧ taken.map (Delivery.envelope Unit) =
      [.msg 1, .msg 2] := by
  have hsome : (serving.run Node.numberCodec (arrives ++ takes ++ takesNext)).isSome := rfl
  have hrun := (Option.some_get hsome).symm
  obtain ⟨taken, rest, lost, hsplit, htaken, -⟩ :=
    served_in_order ⟨[], rfl⟩ start_serving hrun
  refine ⟨_, hrun, rfl, taken, rest ++ lost, by rw [hsplit, List.append_assoc], ?_⟩
  rw [← htaken]
  rfl

end Served

end LaneSwitchboards
