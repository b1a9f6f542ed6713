import LaneSwitchboards.Remote.Transit
import LaneSwitchboards.Remote.Writer

/-!
# Delivery to a node that stays up

Every message that a remote reference has accepted, with a frame within the limit, is queued, in
the write loop, on a connection, in a dispatch task or handed to the bridge channel; or it is
lost. It is lost when the write loop writes it on a connection that the node has closed, and when
a read times out on a connection with something unread: `delivered_iff`.
-/

namespace LaneSwitchboards

open Function Transition

variable {M : Type}

/-! ### The write loop -/

/-- The message that has left the queue and is being written. -/
def WriterPhase.message : WriterPhase M → List M
  | .writing _ msg => [msg]
  | _ => []

/-- The connection of the write loop. -/
def WriterPhase.conn : WriterPhase M → Option ConnId
  | .idle c | .writing c _ => some c
  | _ => none

namespace Writer

variable {fits : M → Bool} {w w' : Writer M} {e : WriterEvent M}

/-- The messages whose `send` returned `Ok`, among those that fit into a frame. -/
def sent (fits : M → Bool) (w : Writer M) : Multiset M := (w.queue.accepted.filter fits : List M)

/-- The messages that the write loop has not yet written. -/
def unsent (fits : M → Bool) (w : Writer M) : Multiset M :=
  ((w.phase.message ++ w.queue.queue).filter fits : List M)

/-- The message that an event takes off the write loop. -/
def taken (fits : M → Bool) (w : Writer M) : WriterEvent M → Multiset M
  | .written | .writeFailed => (w.phase.message.filter fits : List M)
  | _ => 0

/-- **The write loop** takes each message once, unless it returns with messages queued. -/
theorem sent_of_step (fits : M → Bool) (hne : e ≠ .connectFailed) (h : w.step e = some w') :
    w'.sent fits + w.unsent fits = w.sent fits + (w'.unsent fits + w.taken fits e) := by
  cases step_inv h with
  | @send msg hsenders hroom =>
    simp only [sent, unsent, taken, Chan.accepted_push, Chan.queue_push, List.filter_append,
      ← Multiset.coe_add]
    abel
  | cloneRef | dropRef => simp [sent, unsent, taken]
  | connected hphase => simp [sent, unsent, taken, WriterPhase.message, hphase]
  | connectFailed | giveUp => exact absurd rfl hne
  | recv hphase hrecv =>
    have hqueue := (Chan.recv_eq_some.mp hrecv).1
    have haccepted := Chan.accepted_recv hrecv
    simp [sent, unsent, taken, WriterPhase.message, hphase, haccepted, hqueue]
  | recvNone hphase hqueue hsenders =>
    simp [sent, unsent, taken, finish, WriterPhase.message, hphase, hqueue]
  | written hphase | writeFailed hphase =>
    simp only [sent, unsent, taken, hphase, WriterPhase.message, List.filter_append,
      ← Multiset.coe_add]
    simp [add_comm]

/-- The write loop keeps its connection, gives it up, or has just connected. -/
theorem conn_of_step (h : w.step e = some w') {c : ConnId} (hc : w'.phase.conn = some c) :
    w.phase.conn = some c ∨ e = .connected c := by
  cases step_inv h with
  | connected =>
    cases hc
    exact Or.inr rfl
  | giveUp | recvNone | writeFailed => cases hc
  | recv hphase | written hphase => exact Or.inl (hphase ▸ hc)
  | _ => exact Or.inl hc

end Writer

/-! ### The reference and the node -/

/-- What is written as a frame is read back. -/
structure Codec.Lawful (codec : Codec M) : Prop where
  roundTrip : ∀ {target msg body}, codec.encode target msg = some body →
    codec.decode body = some (target, msg)
  nonempty : ∀ {target msg body}, codec.encode target msg = some body → body.length ≠ 0

theorem Node.numberCodec_lawful : Node.numberCodec.Lawful where
  roundTrip := by
    intro target msg body h
    obtain ⟨⟨rfl, rfl | rfl⟩, h⟩ := Option.ite_none_right_eq_some.mp h
    · cases h
      rfl
    · cases h
      rfl
  nonempty := by
    intro target msg body h
    obtain ⟨⟨rfl, rfl | rfl⟩, h⟩ := Option.ite_none_right_eq_some.mp h
    · cases h
      decide
    · cases h
      decide

namespace RemoteSystem

variable {codec : Codec M} {s s' : RemoteSystem M} {e : RemoteEvent M}

/-- The message has a frame within the limit. -/
def fits (codec : Codec M) (s : RemoteSystem M) (msg : M) : Bool := (s.frame codec msg).isSome

/-- The messages whose `send` returned `Ok` and whose frames are within the limit. -/
def sent (codec : Codec M) (s : RemoteSystem M) : Multiset M := s.writer.sent (s.fits codec)

/-- The messages of the reference that were handed to the bridge channel. -/
def handed (s : RemoteSystem M) : Multiset M :=
  Node.handed s.conns (s.node.bridges s.bridge).accepted

/-- Every message that was sent has been handed to the bridge channel. -/
def Delivered (codec : Codec M) (s : RemoteSystem M) : Prop := s.sent codec ≤ s.handed

/-- Nothing of the reference is queued, on a connection or in a dispatch task. -/
structure Quiescent (s : RemoteSystem M) : Prop where
  queue : s.writer.queue.queue = []
  writer : ∀ c msg, s.writer.phase ≠ .writing c msg
  conns : ∀ c ∈ s.conns, ∀ conn, s.node.conns c = some conn →
    conn.wire = [] ∧ (∀ frame, conn.phase ≠ .body frame) ∧
      ∀ target msg, conn.phase ≠ .permit target msg
  tasks : ∀ t ∈ s.node.tasks, t.conn ∉ s.conns

/-- An event that loses a message: one that fits is written on a connection that the node has
closed, or a read of the node times out with something unread on the connection. -/
def Loses (codec : Codec M) (s : RemoteSystem M) (e : RemoteEvent M) : Prop :=
  (∃ ok c msg, e = .write ok ∧ s.writer.phase = .writing c msg ∧ s.fits codec msg = true ∧
    s.NodeClosed c) ∨
  ∃ e', e = .node e' ∧ s.node.TimesOut s.conns e'

/-- The messages that were sent and not lost. -/
def kept (codec : Codec M) (s : RemoteSystem M) : Multiset M :=
  s.writer.unsent (s.fits codec) + s.node.held codec s.conns s.bridge

/-- What the system keeps while the node serves the target. -/
structure Linked (codec : Codec M) (s : RemoteSystem M) : Prop where
  framed : s.node.Framed codec s.conns s.writer.target s.bridge
  conn : ∀ c, s.writer.phase.conn = some c → c ∈ s.conns

theorem fits_of_step (h : s.step codec e = some s') : s'.fits codec = s.fits codec := by
  obtain ⟨htarget, hconfig⟩ := settings_of_step h
  funext msg
  simp only [fits, frame, htarget, hconfig]

/-- A frame of the reference is read as its message. -/
theorem frameFor_of_frame (hcodec : codec.Lawful) {msg : M} {body : List UInt8}
    (h : s.frame codec msg = some body) :
    codec.decode body = some (s.writer.target, msg) ∧
      FrameFor codec s.node.config s.writer.target body := by
  obtain ⟨hencode, hmax⟩ := Option.filter_eq_some_iff.mp h
  have hdecode := hcodec.roundTrip hencode
  exact ⟨hdecode, hcodec.nonempty hencode, by simpa using hmax, msg, hdecode⟩

/-- The environment writes nothing on the connections of the write loop. -/
theorem arrive_of_allowed {e : NodeEvent} (h : s.allowed e = true) :
    ∀ c body, e = .arrive c body → c ∉ s.conns := by
  rintro c body rfl
  simpa [allowed] using h

theorem spares_of_allowed {e : NodeEvent} (h : s.allowed e = true) :
    Node.Spares codec s.node.config s.conns s.writer.target s.bridge e where
  arrive c body he hmem := absurd hmem (arrive_of_allowed h c body he)
  register b' := by
    rintro rfl
    simp [allowed] at h
  unregister := by
    rintro rfl
    simp [allowed] at h
  closeBridge := by
    rintro rfl
    simp [allowed] at h

theorem spares_hangUp {c : ConnId} :
    Node.Spares codec s.node.config s.conns s.writer.target s.bridge (.hangUp c) :=
  ⟨nofun, nofun, nofun, nofun⟩

theorem Linked.step (hcodec : codec.Lawful) (hl : s.Linked codec) (h : s.step codec e = some s') :
    s'.Linked codec := by
  have hkeep {we : WriterEvent M} {w : Writer M} (hwriter : s.writer.step we = some w)
      (hne : ∀ c, we ≠ .connected c) : ∀ c, w.phase.conn = some c → c ∈ s.conns := by
    intro c hc
    rcases Writer.conn_of_step hwriter hc with hc | he
    · exact hl.conn c hc
    · exact absurd he (hne c)
  have htarget := (settings_of_step h).1
  cases step_inv h with
  | node hallowed hnode => exact ⟨hl.framed.step (spares_of_allowed hallowed) hnode, hl.conn⟩
  | send hwriter | cloneRef hwriter | dropRef hwriter | recv hwriter =>
    refine ⟨?_, hkeep hwriter nofun⟩
    rw [htarget]
    exact hl.framed
  | connect hnode hwriter =>
    refine ⟨?_, fun c hc => ?_⟩
    · rw [htarget]
      exact (hl.framed.accept hnode).1
    · rcases Writer.conn_of_step hwriter hc with hc | he
      · exact Finset.mem_insert_of_mem (hl.conn c hc)
      · cases he
        exact Finset.mem_insert_self _ _
  | recvNone hphase hnode hwriter | unframed hphase hframe hnode hwriter
  | failed hphase hframe hclosed hnode hwriter =>
    refine ⟨?_, hkeep hwriter nofun⟩
    rw [htarget]
    exact hl.framed.step spares_hangUp hnode
  | written hphase hframe hnode hwriter =>
    refine ⟨?_, hkeep hwriter nofun⟩
    rw [htarget]
    have hframeFor := (frameFor_of_frame hcodec hframe).2
    refine hl.framed.step (e := .arrive _ _) ⟨fun c body he _ => ?_, nofun, nofun, nofun⟩ hnode
    cases he
    exact hframeFor

/-- Closing the peer's side of a connection loses nothing. -/
theorem Linked.held_hangUp (hl : s.Linked codec) {c : ConnId} {n : Node M}
    (h : s.node.step codec (.hangUp c) = some n) :
    n.held codec s.conns s.bridge = s.node.held codec s.conns s.bridge := by
  obtain ⟨lost, hheld, hlost⟩ := hl.framed.held_of_step (fun _ _ he => by cases he) h
  have hnone : lost = 0 := by
    refine hlost.mpr ?_
    rintro ⟨c', -, conn, he, -⟩
    cases he
  rw [hheld, hnone, add_zero]

/-- **Conservation.** What is sent and what is kept grow together, but for what is lost. -/
theorem Linked.sent_of_step (hcodec : codec.Lawful) (hl : s.Linked codec)
    (h : s.step codec e = some s') :
    ∃ lost, s'.sent codec + s.kept codec = s.sent codec + (s'.kept codec + lost) ∧
      (lost = 0 ↔ ¬ s.Loses codec e) := by
  -- a step of the writer for which the node keeps what it holds
  have hquiet {we : WriterEvent M} {w : Writer M} {held : Multiset M}
      (hwriter : s.writer.step we = some w) (hne : we ≠ .connectFailed)
      (hheld : held = s.node.held codec s.conns s.bridge) :
      w.sent (s.fits codec) + s.kept codec = s.sent codec +
        (w.unsent (s.fits codec) + held + s.writer.taken (s.fits codec) we) := by
    have hsent := Writer.sent_of_step (s.fits codec) hne hwriter
    rw [hheld, kept, sent, ← add_assoc, hsent]
    abel
  have hfits := fits_of_step h
  simp only [kept, sent, hfits] at hquiet ⊢
  have hsafe (hwrite : ∀ ok, e ≠ .write ok) (hnode : ∀ e', e ≠ .node e') :
      (0 : Multiset M) = 0 ↔ ¬ s.Loses codec e := by
    refine iff_of_true rfl ?_
    rintro (⟨ok, c, msg, he, -⟩ | ⟨e', he, -⟩)
    · exact hwrite ok he
    · exact hnode e' he
  cases step_inv h with
  | @node e n hallowed hnode =>
    obtain ⟨lost, hheld, hlost⟩ := hl.framed.held_of_step (arrive_of_allowed hallowed) hnode
    refine ⟨lost, by rw [hheld, add_assoc], hlost.trans (not_congr ?_)⟩
    constructor
    · exact fun htimeout => Or.inr ⟨e, rfl, htimeout⟩
    · rintro (⟨ok, c, msg, he, -⟩ | ⟨e', he, htimeout⟩)
      · cases he
      · cases he
        exact htimeout
  | send hwriter | cloneRef hwriter | dropRef hwriter | recv hwriter =>
    exact ⟨0, hquiet hwriter nofun rfl, hsafe nofun nofun⟩
  | connect hnode hwriter =>
    exact ⟨0, hquiet hwriter nofun (hl.framed.accept hnode).2, hsafe nofun nofun⟩
  | recvNone hphase hnode hwriter =>
    exact ⟨0, hquiet hwriter nofun (hl.held_hangUp hnode), hsafe nofun nofun⟩
  | @unframed ok c msg n w hphase hframe hnode hwriter =>
    have hfit : s.fits codec msg = false := by rw [fits, hframe]; rfl
    have hsum := hquiet hwriter nofun (hl.held_hangUp hnode)
    simp only [Writer.taken, hphase, WriterPhase.message, List.filter_singleton, hfit] at hsum
    refine ⟨0, hsum, iff_of_true rfl ?_⟩
    rintro (⟨ok', c', msg', -, hphase', hfit', -⟩ | ⟨e', he, -⟩)
    · rw [hphase] at hphase'
      cases hphase'
      rw [hfit] at hfit'
      cases hfit'
    · cases he
  | @failed c msg body n w hphase hframe hclosed hnode hwriter =>
    have hfit : s.fits codec msg = true := by rw [fits, hframe]; rfl
    have hsum := hquiet hwriter nofun (hl.held_hangUp hnode)
    simp only [Writer.taken, hphase, WriterPhase.message, List.filter_singleton, hfit] at hsum
    refine ⟨{msg}, hsum, iff_of_false (Multiset.singleton_ne_zero msg) (not_not.mpr ?_)⟩
    exact Or.inl ⟨false, c, msg, rfl, hphase, hfit, hclosed⟩
  | @written ok c msg body n w hphase hframe hnode hwriter =>
    have hfit : s.fits codec msg = true := by rw [fits, hframe]; rfl
    have hmem := hl.conn c (by rw [hphase]; rfl)
    have hdecode := (frameFor_of_frame hcodec hframe).1
    have hsum := hquiet hwriter nofun rfl
    simp only [Writer.taken, hphase, WriterPhase.message, List.filter_singleton, hfit] at hsum
    rcases Node.held_of_arrive hmem hdecode hnode with ⟨hclosed, rfl⟩ | ⟨hopen, hheld⟩
    · refine ⟨{msg}, hsum, iff_of_false (Multiset.singleton_ne_zero msg) (not_not.mpr ?_)⟩
      exact Or.inl ⟨ok, c, msg, rfl, hphase, hfit, hclosed⟩
    · refine ⟨0, ?_, iff_of_true rfl ?_⟩
      · rw [hheld, add_zero, ← add_assoc (w.unsent (s.fits codec))]
        exact hsum
      · rintro (⟨ok', c', msg', -, hphase', -, hclosed⟩ | ⟨e', he, -⟩)
        · rw [hphase] at hphase'
          cases hphase'
          exact hopen hclosed
        · cases he

/-! ### Whole runs -/

variable {config : DistributedConfig} {node : Node M} {target : String} {b : BridgeId}
  {es : List (RemoteEvent M)}

theorem linked_start (hnode : node.Reachable codec config) (hserves : node.Serves target b) :
    (start node target b).Linked codec where
  framed :=
    { numbered := by
        obtain ⟨es, hrun⟩ := hnode
        exact invariant_run (P := Node.Numbered) (fun hn h => hn.step h) Node.numbered_bind hrun
      serves := hserves
      conns := fun c hmem => absurd hmem (Finset.notMem_empty c)
      tasks := fun t _ hmem => absurd hmem (Finset.notMem_empty t.conn) }
  conn := nofun

theorem kept_start : (start node target b).kept codec = 0 := by
  simp [kept, start, Writer.unsent, Writer.withConfig, WriterPhase.message, Chan.new, Node.held,
    Node.onConns, Node.dispatching, Node.handed]

/-- **Conservation over a run**: what was sent is kept, or lost by a step that loses a message. -/
theorem sent_of_run (hcodec : codec.Lawful) (hnode : node.Reachable codec config)
    (hserves : node.Serves target b) (hrun : (start node target b).run codec es = some s) :
    ∃ lost, s.sent codec = s.kept codec + lost ∧
      (lost = 0 ↔
        Along (step codec) (fun s e _ => ¬ s.Loses codec e) (start node target b) es) := by
  refine (run_induction (motive := fun es s => s.Linked codec ∧ ∃ lost,
    s.sent codec = s.kept codec + lost ∧ (lost = 0 ↔
      Along (step codec) (fun s e _ => ¬ s.Loses codec e) (start node target b) es)) ?_ ?_ hrun).2
  · refine ⟨linked_start hnode hserves, 0, ?_, by simp⟩
    rw [kept_start, zero_add]
    rfl
  · rintro es s e s' hrun ⟨hl, lost, hsum, hlost⟩ hstep
    obtain ⟨lost', hsum', hlost'⟩ := hl.sent_of_step hcodec hstep
    refine ⟨hl.step hcodec hstep, lost + lost', ?_, ?_⟩
    · rw [hsum, add_comm (s'.sent codec), add_assoc] at hsum'
      rw [add_left_cancel hsum']
      abel
    · rw [add_eq_zero_iff_of_nonneg (Multiset.zero_le _) (Multiset.zero_le _), hlost, hlost',
        along_concat]
      refine and_congr_right fun _ => ⟨fun hsafe t t' ht ht' => ?_, fun hsafe => ?_⟩
      · obtain rfl : s = t := Option.some.inj (hrun.symm.trans ht)
        exact hsafe
      · exact hsafe s s' hrun hstep

/-- What is kept when nothing is in transit. -/
theorem Quiescent.kept_eq (hq : s.Quiescent) : s.kept codec = s.handed := by
  have hmessage : s.writer.phase.message = [] := by
    cases hphase : s.writer.phase with
    | writing c msg => exact absurd hphase (hq.writer c msg)
    | _ => rfl
  have hunsent : s.writer.unsent (s.fits codec) = 0 := by
    simp [Writer.unsent, hmessage, hq.queue]
  have honConns : s.node.onConns codec s.conns = 0 := by
    refine Finset.sum_eq_zero fun c hmem => ?_
    cases hc : s.node.conns c with
    | none => rfl
    | some conn =>
      obtain ⟨hwire, hbody, hpermit⟩ := hq.conns c hmem conn hc
      cases hphase : conn.phase with
      | body frame => exact absurd hphase (hbody frame)
      | permit target msg => exact absurd hphase (hpermit target msg)
      | header | closed => simp [Conn.load, hwire, hphase]
  have hdispatching : Node.dispatching s.conns s.node.tasks = 0 := by
    have hnone : (s.node.tasks.filter fun t => t.conn ∈ s.conns) = [] := by
      simpa [List.filter_eq_nil_iff] using hq.tasks
    rw [Node.dispatching, hnone]
    rfl
  rw [kept, Node.held, hunsent, honConns, hdispatching, zero_add, zero_add, zero_add, handed]

/-- **Delivery to a node that stays up.** When nothing is in transit any more, every message that
was sent within the limit has been handed to the bridge channel exactly when no message was
written on a connection that the node had closed, and no read had timed out on a connection with
something unread. -/
theorem delivered_iff (codec : Codec M) (config : DistributedConfig) (hcodec : codec.Lawful)
    (hnode : node.Reachable codec config) (hserves : node.Serves target b)
    (hrun : (start node target b).run codec es = some s) (hq : s.Quiescent) :
    s.Delivered codec ↔
      Along (step codec) (fun s e _ => ¬ s.Loses codec e) (start node target b) es := by
  obtain ⟨lost, hsum, hlost⟩ := sent_of_run hcodec hnode hserves hrun
  rw [← hlost, Delivered, hsum, hq.kept_eq]
  constructor
  · intro hle
    exact Multiset.le_zero.mp (le_of_add_le_add_left (hle.trans_eq (add_zero _).symm))
  · rintro rfl
    rw [add_zero]

/-- The message 1 is sent, written, read and handed to the bridge channel. -/
def served : List (RemoteEvent ℕ) :=
  [.connect, .send 1, .recv, .write true, .node (.read 0 .header), .node (.read 0 .body),
    .node (.acquire 0), .node (.lookup 0), .node (.send 0)]

/-- The node closes the idle connection, and the message 2 is written on it. -/
def afterIdle : List (RemoteEvent ℕ) := [.node (.read 0 .timeout), .send 2, .recv, .write true]

/-- In the run that serves the message 1 no step loses a message. -/
theorem served_delivered : ∃ node : Node ℕ,
    (Node.bind .default).run Node.numberCodec [.openBridge 32, .register "t" 0] = some node ∧
    Along (step Node.numberCodec) (fun s e _ => ¬ s.Loses Node.numberCodec e) (start node "t" 0)
      served := by
  refine ⟨_, rfl, (delivered_iff Node.numberCodec .default Node.numberCodec_lawful
    ⟨[.openBridge 32, .register "t" 0], rfl⟩ ⟨rfl, rfl, by decide⟩ rfl ?_).mp ?_⟩
  · refine ⟨rfl, nofun, fun c hmem conn hc => ?_, nofun⟩
    obtain rfl : c = 0 := Finset.mem_singleton.mp hmem
    cases hc
    exact ⟨rfl, nofun, nofun⟩
  · unfold Delivered
    decide

/-- The message 2, whose `send` returned `Ok`, is nowhere in the quiescent state after an idle
timeout. -/
theorem message_lost : ∃ node : Node ℕ, node.Reachable Node.numberCodec .default ∧
    node.Serves "t" 0 ∧
    ∃ s, (start node "t" 0).run Node.numberCodec (served ++ afterIdle) = some s ∧
      s.Quiescent ∧ ¬ s.Delivered Node.numberCodec := by
  refine ⟨_, ⟨[.openBridge 32, .register "t" 0], rfl⟩, ⟨rfl, rfl, by decide⟩, _, rfl,
    ⟨rfl, nofun, fun c hmem conn hc => ?_, nofun⟩, ?_⟩
  · obtain rfl : c = 0 := Finset.mem_singleton.mp hmem
    cases hc
    exact ⟨rfl, nofun, nofun⟩
  · unfold Delivered
    decide

end RemoteSystem

end LaneSwitchboards
