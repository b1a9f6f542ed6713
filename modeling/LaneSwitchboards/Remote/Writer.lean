import LaneSwitchboards.Remote.Node
import Mathlib.Data.Finset.Insert

/-!
# A remote reference and the node it writes to

`remote_write_loop` behind a `RemoteActorRef`: it connects, takes the messages of its queue one
at a time and writes each as one frame; when a write fails it drops the message together with
the stream and connects again. `RemoteSystem` puts it next to a `Node` of the same configuration
that stays up with the target registered, over a network that never fails: a connection is only
ever closed by the node, which has read to the end or has timed out, or by the writer. A write on a
connection that the node has closed may succeed locally or fail; either way nobody reads the frame.

The environment is free to use the node through other connections and other targets.
-/

namespace LaneSwitchboards

open Function

/-- Where a `remote_write_loop` is. -/
inductive WriterPhase (M : Type)
  | connecting
  /-- Awaiting the next message, with a stream. -/
  | idle (c : ConnId)
  /-- In `write_frame`, with a message that has left the queue. -/
  | writing (c : ConnId) (msg : M)
  | ended
deriving DecidableEq

/-- A remote reference: its queue, how many clones of it are alive, and its write loop. -/
structure Writer (M : Type) where
  target : String
  queue : Chan M
  senders : ℕ
  phase : WriterPhase M
deriving DecidableEq

/-- One event of a reference and its write loop. -/
inductive WriterEvent (M : Type)
  /-- A `send` returns `Ok`. -/
  | send (msg : M)
  | cloneRef
  | dropRef
  | connected (c : ConnId)
  | connectFailed
  | recv
  /-- `rx.recv()` returns `None`. -/
  | recvNone
  /-- `write_frame` returns `Ok`. -/
  | written
  /-- `write_frame` returns an error. -/
  | writeFailed

namespace Writer

variable {M : Type}

/-- `RemoteActorRef::with_config`. -/
def withConfig (target : String) (config : DistributedConfig) : Writer M :=
  ⟨target, .new (max 1 config.remoteSendCapacity), 1, .connecting⟩

/-- The write loop returns and drops its receiver. -/
def finish (w : Writer M) : Writer M := { w with queue := w.queue.close, phase := .ended }

/-- One event of a reference and its write loop; `none` where it is not enabled. -/
def step (w : Writer M) : WriterEvent M → Option (Writer M)
  | .send msg =>
    if 0 < w.senders ∧ w.queue.hasRoom = true then some { w with queue := w.queue.push msg }
    else none
  | .cloneRef => if 0 < w.senders then some { w with senders := w.senders + 1 } else none
  | .dropRef => some { w with senders := w.senders - 1 }
  | .connected c => if w.phase matches .connecting then some { w with phase := .idle c } else none
  | .connectFailed =>
    if w.phase matches .connecting then some (if w.senders = 0 then w.finish else w) else none
  | .recv =>
    match w.phase with
    | .idle c => w.queue.recv.map fun (msg, queue) =>
      { w with queue := queue, phase := .writing c msg }
    | _ => none
  | .recvNone =>
    if (w.phase matches .idle _) ∧ w.queue.queue = [] ∧ w.senders = 0 then some w.finish else none
  | .written =>
    match w.phase with
    | .writing c _ => some { w with phase := .idle c }
    | _ => none
  | .writeFailed =>
    match w.phase with
    | .writing _ _ => some { w with phase := .connecting }
    | _ => none

/-- The ways in which a reference and its write loop step. -/
inductive Step (w : Writer M) : WriterEvent M → Writer M → Prop
  | send {msg} (hsenders : 0 < w.senders) (hroom : w.queue.hasRoom = true) :
      Step w (.send msg) { w with queue := w.queue.push msg }
  | cloneRef (hsenders : 0 < w.senders) : Step w .cloneRef { w with senders := w.senders + 1 }
  | dropRef : Step w .dropRef { w with senders := w.senders - 1 }
  | connected {c} (hphase : w.phase = .connecting) :
      Step w (.connected c) { w with phase := .idle c }
  | connectFailed (hphase : w.phase = .connecting) (hsenders : w.senders ≠ 0) :
      Step w .connectFailed w
  | giveUp (hphase : w.phase = .connecting) (hsenders : w.senders = 0) :
      Step w .connectFailed w.finish
  | recv {c msg queue} (hphase : w.phase = .idle c) (hrecv : w.queue.recv = some (msg, queue)) :
      Step w .recv { w with queue := queue, phase := .writing c msg }
  | recvNone {c} (hphase : w.phase = .idle c) (hqueue : w.queue.queue = [])
      (hsenders : w.senders = 0) : Step w .recvNone w.finish
  | written {c msg} (hphase : w.phase = .writing c msg) :
      Step w .written { w with phase := .idle c }
  | writeFailed {c msg} (hphase : w.phase = .writing c msg) :
      Step w .writeFailed { w with phase := .connecting }

/-- **Inversion of a step.** -/
theorem step_inv {w w' : Writer M} {e : WriterEvent M} (h : w.step e = some w') : Step w e w' := by
  have hconnecting (hp : (w.phase matches .connecting) = true) : w.phase = .connecting := by
    cases hphase : w.phase <;> simp [hphase] at hp
    rfl
  cases e with
  | send msg =>
    obtain ⟨⟨hsenders, hroom⟩, h⟩ := Option.ite_none_right_eq_some.mp h
    cases h
    exact .send hsenders hroom
  | cloneRef =>
    obtain ⟨hsenders, h⟩ := Option.ite_none_right_eq_some.mp h
    cases h
    exact .cloneRef hsenders
  | dropRef => cases h; exact .dropRef
  | connected c =>
    obtain ⟨hphase, h⟩ := Option.ite_none_right_eq_some.mp h
    cases h
    exact .connected (hconnecting hphase)
  | connectFailed =>
    obtain ⟨hphase, h⟩ := Option.ite_none_right_eq_some.mp h
    split_ifs at h with hsenders
    · cases h
      exact .giveUp (hconnecting hphase) hsenders
    · cases h
      exact .connectFailed (hconnecting hphase) hsenders
  | recv =>
    simp only [step] at h
    split at h
    · next c hphase =>
      obtain ⟨⟨msg, queue⟩, hrecv, rfl⟩ := Option.map_eq_some_iff.mp h
      exact .recv hphase hrecv
    · cases h
  | recvNone =>
    obtain ⟨⟨hidle, hqueue, hsenders⟩, h⟩ := Option.ite_none_right_eq_some.mp h
    cases h
    cases hphase : w.phase with
    | idle c => exact .recvNone hphase hqueue hsenders
    | _ => simp [hphase] at hidle
  | written =>
    simp only [step] at h
    split at h
    · next c msg hphase =>
      cases h
      exact .written hphase
    · cases h
  | writeFailed =>
    simp only [step] at h
    split at h
    · next c msg hphase =>
      cases h
      exact .writeFailed hphase
    · cases h

/-- The target is fixed. -/
theorem target_of_step {w w' : Writer M} {e : WriterEvent M} (h : w.step e = some w') :
    w'.target = w.target := by
  cases step_inv h <;> rfl

end Writer

/-- A remote reference, the node it writes to, the bridge channel of its target and the
connections that its write loop has opened. -/
structure RemoteSystem (M : Type) where
  node : Node M
  writer : Writer M
  bridge : BridgeId
  conns : Finset ConnId

/-- One event of the system. -/
inductive RemoteEvent (M : Type)
  | node (e : NodeEvent)
  | send (msg : M)
  | cloneRef
  | dropRef
  | connect
  | recv
  | recvNone
  /-- `write_frame` returns; `ok` is the answer on a connection that the node has closed. -/
  | write (ok : Bool)

namespace RemoteSystem

variable {M : Type}

/-- A new reference to the target that is registered with the bridge channel `b`. -/
def start (node : Node M) (target : String) (b : BridgeId) : RemoteSystem M :=
  ⟨node, .withConfig target node.config, b, ∅⟩

/-- The frame of a message: its body, if it can be written and is within the limit. -/
def frame (codec : Codec M) (s : RemoteSystem M) (msg : M) : Option (List UInt8) :=
  (codec.encode s.writer.target msg).filter (·.length ≤ s.node.config.maxFrameBytes)

/-- The node has closed the connection. -/
def NodeClosed (s : RemoteSystem M) (c : ConnId) : Prop :=
  ∃ conn, s.node.conns c = some conn ∧ conn.phase = .closed

instance (s : RemoteSystem M) (c : ConnId) : Decidable (s.NodeClosed c) :=
  decidable_of_iff ((s.node.conns c).any (·.phase matches .closed)) <| by
    unfold NodeClosed
    cases s.node.conns c with
    | none => simp
    | some conn => cases hp : conn.phase <;> simp [hp]

/-- What the environment may do with the node: the connections of the write loop are not its own,
the target stays registered and its bridge channel open. -/
def allowed (s : RemoteSystem M) : NodeEvent → Bool
  | .arrive c _ | .hangUp c => c ∉ s.conns
  | .register target _ | .unregister target => target ≠ s.writer.target
  | .closeBridge b => b ≠ s.bridge
  | _ => true

/-- The writer drops its stream and goes on with `e`. -/
def drop (codec : Codec M) (s : RemoteSystem M) (c : ConnId) (e : WriterEvent M) :
    Option (RemoteSystem M) :=
  (s.node.step codec (.hangUp c)).bind fun node => (s.writer.step e).map fun writer =>
    { s with node := node, writer := writer }

/-- `write_frame` on the connection `c`. -/
def write (codec : Codec M) (s : RemoteSystem M) (c : ConnId) (msg : M) (ok : Bool) :
    Option (RemoteSystem M) :=
  match s.frame codec msg with
  | none => s.drop codec c .writeFailed
  | some body =>
    if s.NodeClosed c ∧ ok = false then s.drop codec c .writeFailed
    else
      (s.node.step codec (.arrive c body)).bind fun node =>
        (s.writer.step .written).map fun writer => { s with node := node, writer := writer }

/-- One event of the system; `none` where it is not enabled. -/
def step (codec : Codec M) (s : RemoteSystem M) : RemoteEvent M → Option (RemoteSystem M)
  | .node e =>
    if s.allowed e then (s.node.step codec e).map fun node => { s with node := node } else none
  | .send msg => (s.writer.step (.send msg)).map fun writer => { s with writer := writer }
  | .cloneRef => (s.writer.step .cloneRef).map fun writer => { s with writer := writer }
  | .dropRef => (s.writer.step .dropRef).map fun writer => { s with writer := writer }
  | .connect => (s.node.step codec .accept).bind fun node =>
    (s.writer.step (.connected s.node.nextConn)).map fun writer =>
      { s with node := node, writer := writer, conns := insert s.node.nextConn s.conns }
  | .recv => (s.writer.step .recv).map fun writer => { s with writer := writer }
  | .recvNone =>
    match s.writer.phase with
    | .idle c => s.drop codec c .recvNone
    | _ => none
  | .write ok =>
    match s.writer.phase with
    | .writing c msg => s.write codec c msg ok
    | _ => none

/-- Execute a list of events. -/
abbrev run (codec : Codec M) : RemoteSystem M → List (RemoteEvent M) → Option (RemoteSystem M) :=
  Transition.run (step codec)

/-- The ways in which the system steps. -/
inductive Step (codec : Codec M) (s : RemoteSystem M) : RemoteEvent M → RemoteSystem M → Prop
  | node {e n} (hallowed : s.allowed e = true) (hnode : s.node.step codec e = some n) :
      Step codec s (.node e) { s with node := n }
  | send {msg w} (hwriter : s.writer.step (.send msg) = some w) :
      Step codec s (.send msg) { s with writer := w }
  | cloneRef {w} (hwriter : s.writer.step .cloneRef = some w) :
      Step codec s .cloneRef { s with writer := w }
  | dropRef {w} (hwriter : s.writer.step .dropRef = some w) :
      Step codec s .dropRef { s with writer := w }
  | connect {n w} (hnode : s.node.step codec .accept = some n)
      (hwriter : s.writer.step (.connected s.node.nextConn) = some w) : Step codec s .connect
        { s with node := n, writer := w, conns := insert s.node.nextConn s.conns }
  | recv {w} (hwriter : s.writer.step .recv = some w) : Step codec s .recv { s with writer := w }
  | recvNone {c n w} (hphase : s.writer.phase = .idle c)
      (hnode : s.node.step codec (.hangUp c) = some n)
      (hwriter : s.writer.step .recvNone = some w) :
      Step codec s .recvNone { s with node := n, writer := w }
  /-- The message has no frame within the limit. -/
  | unframed {ok c msg n w} (hphase : s.writer.phase = .writing c msg)
      (hframe : s.frame codec msg = none) (hnode : s.node.step codec (.hangUp c) = some n)
      (hwriter : s.writer.step .writeFailed = some w) :
      Step codec s (.write ok) { s with node := n, writer := w }
  | failed {c msg body n w} (hphase : s.writer.phase = .writing c msg)
      (hframe : s.frame codec msg = some body) (hclosed : s.NodeClosed c)
      (hnode : s.node.step codec (.hangUp c) = some n)
      (hwriter : s.writer.step .writeFailed = some w) :
      Step codec s (.write false) { s with node := n, writer := w }
  | written {ok c msg body n w} (hphase : s.writer.phase = .writing c msg)
      (hframe : s.frame codec msg = some body)
      (hnode : s.node.step codec (.arrive c body) = some n)
      (hwriter : s.writer.step .written = some w) :
      Step codec s (.write ok) { s with node := n, writer := w }

variable {codec : Codec M} {s s' : RemoteSystem M} {e : RemoteEvent M}

/-- A writer that drops its stream. -/
theorem drop_inv {c : ConnId} {we : WriterEvent M} (h : s.drop codec c we = some s') :
    ∃ n w, s.node.step codec (.hangUp c) = some n ∧ s.writer.step we = some w ∧
      s' = { s with node := n, writer := w } := by
  obtain ⟨n, hnode, h⟩ := Option.bind_eq_some_iff.mp h
  obtain ⟨w, hwriter, rfl⟩ := Option.map_eq_some_iff.mp h
  exact ⟨n, w, hnode, hwriter, rfl⟩

/-- **Inversion of a step.** -/
theorem step_inv (h : s.step codec e = some s') : Step codec s e s' := by
  cases e with
  | node e =>
    obtain ⟨hallowed, h⟩ := Option.ite_none_right_eq_some.mp h
    obtain ⟨n, hnode, rfl⟩ := Option.map_eq_some_iff.mp h
    exact .node hallowed hnode
  | send msg =>
    obtain ⟨w, hwriter, rfl⟩ := Option.map_eq_some_iff.mp h
    exact .send hwriter
  | cloneRef =>
    obtain ⟨w, hwriter, rfl⟩ := Option.map_eq_some_iff.mp h
    exact .cloneRef hwriter
  | dropRef =>
    simp only [step] at h
    obtain ⟨w, hwriter, rfl⟩ := Option.map_eq_some_iff.mp h
    exact .dropRef hwriter
  | connect =>
    simp only [step] at h
    obtain ⟨n, hnode, h⟩ := Option.bind_eq_some_iff.mp h
    obtain ⟨w, hwriter, rfl⟩ := Option.map_eq_some_iff.mp h
    exact .connect hnode hwriter
  | recv =>
    obtain ⟨w, hwriter, rfl⟩ := Option.map_eq_some_iff.mp h
    exact .recv hwriter
  | recvNone =>
    simp only [step] at h
    split at h
    · next c hphase =>
      obtain ⟨n, w, hnode, hwriter, rfl⟩ := drop_inv h
      exact .recvNone hphase hnode hwriter
    · cases h
  | write ok =>
    simp only [step] at h
    split at h
    · next c msg hphase =>
      unfold write at h
      split at h
      · next hframe =>
        obtain ⟨n, w, hnode, hwriter, rfl⟩ := drop_inv h
        exact .unframed hphase hframe hnode hwriter
      · next body hframe =>
        split_ifs at h with hclosed
        · obtain ⟨hclosed, rfl⟩ := hclosed
          obtain ⟨n, w, hnode, hwriter, rfl⟩ := drop_inv h
          exact .failed hphase hframe hclosed hnode hwriter
        · obtain ⟨n, hnode, h⟩ := Option.bind_eq_some_iff.mp h
          obtain ⟨w, hwriter, rfl⟩ := Option.map_eq_some_iff.mp h
          exact .written hphase hframe hnode hwriter
    · cases h

/-- The target of the reference and the configuration of the node are fixed. -/
theorem settings_of_step (h : s.step codec e = some s') :
    s'.writer.target = s.writer.target ∧ s'.node.config = s.node.config := by
  cases step_inv h with
  | node hallowed hnode => exact ⟨rfl, Node.config_of_step hnode⟩
  | send hwriter | cloneRef hwriter | dropRef hwriter | recv hwriter =>
    exact ⟨Writer.target_of_step hwriter, rfl⟩
  | connect hnode hwriter | recvNone _ hnode hwriter | unframed _ _ hnode hwriter
  | failed _ _ _ hnode hwriter | written _ _ hnode hwriter =>
    exact ⟨Writer.target_of_step hwriter, Node.config_of_step hnode⟩

end RemoteSystem

end LaneSwitchboards
