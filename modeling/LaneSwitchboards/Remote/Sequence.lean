import LaneSwitchboards.Remote.EndToEnd

/-!
# The order of a reference's messages

The messages that a `RemoteActorRef` sends over one connection stand in one line: those that have
entered the bridge channel come first, then those of the dispatch tasks, those on the connection,
the one being written and those in the send queue. With one permit every step keeps this line in
the order of the sends, with gaps for what is lost (`InLine.step`).

* `dispatch_order`: the bridge channels keep the order of each connection exactly with one permit,
  and with one permit the actor takes the messages that a reference sends over one connection in
  the order in which they were sent.
* `overtaken`: with more permits a message of the same connection can be overtaken, and after a
  reconnect one of the earlier connection can, also with one permit.
-/

namespace LaneSwitchboards

open Function Transition

variable {M A : Type}

theorem sublist_of_eq {l l' : List M} (h : l = l') : l.Sublist l' := by rw [h]

/-! ### The line through a node -/

namespace Conn

variable {codec : Codec M} {config : DistributedConfig} {conn conn' : Conn M} {r : ReadChoice}

/-- The messages on a connection, the oldest first. -/
def carried (codec : Codec M) (conn : Conn M) : List M :=
  (match conn.phase with
    | .body frame => ((codec.decode frame).map Prod.snd).toList
    | .permit _ msg => [msg]
    | _ => []) ++ conn.wire.filterMap fun frame => (codec.decode frame).map Prod.snd

/-- A read keeps the messages of a connection in order, or loses some. -/
theorem carried_read (h : conn.read config codec r = some conn') :
    (conn'.carried codec).Sublist (conn.carried codec) := by
  have hclose : (conn.close.carried codec).Sublist (conn.carried codec) := List.nil_sublist _
  unfold Conn.read at h
  split at h
  · next hphase =>
    split at h
    · cases h
    · next frame rest hwire =>
      split_ifs at h with hlen
      · cases h
        exact hclose
      · cases h
        refine sublist_of_eq ?_
        cases hdec : codec.decode frame <;> simp [carried, hphase, hwire, hdec]
  · split_ifs at h
    cases h
    exact hclose
  · next frame hphase =>
    split at h
    · cases h
      exact hclose
    · next target msg hdec =>
      cases h
      exact sublist_of_eq (by simp [carried, hphase, hdec])
  · cases h
    exact hclose
  · cases h
    exact hclose
  · cases h

end Conn

namespace Node

variable {codec : Codec M} {n n' : Node M} {e : NodeEvent} {c : ConnId} {b : BridgeId}

/-- The messages of a connection that have entered the bridge channel `b`, and those on the way
there, the oldest first. -/
def line (codec : Codec M) (c : ConnId) (b : BridgeId) (n : Node M) : List M :=
  ((n.bridges b).accepted.filter (·.conn = c)).map (·.msg) ++
    (n.tasks.filter (·.conn = c)).map (·.msg) ++ (n.conns c).elim [] (Conn.carried codec)

/-- The line of a connection that is replaced by one with no new messages. -/
theorem line_setConn {c' : ConnId} {new : Conn M}
    (hsub : c = c' → (new.carried codec).Sublist ((n.conns c).elim [] (Conn.carried codec))) :
    ((n.setConn c' new).line codec c b).Sublist (n.line codec c b) := by
  by_cases hc : c = c'
  · subst hc
    refine List.Sublist.append (List.Sublist.refl _) ?_
    simpa [setConn] using hsub rfl
  · simp [line, setConn, update_of_ne hc]

/-- The line after a step of the bridge channels and the tasks. -/
theorem line_sublist (hconns : n'.conns = n.conns)
    (haccepted : (n'.bridges b).accepted.Sublist (n.bridges b).accepted)
    (htasks : n'.tasks.Sublist n.tasks) : (n'.line codec c b).Sublist (n.line codec c b) := by
  unfold line
  rw [hconns]
  exact (((haccepted.filter _).map _).append ((htasks.filter _).map _)).append
    (List.Sublist.refl _)

/-- The only task hands its message over, or finds the channel closed. -/
theorem line_send {t : Dispatch M} {b' : BridgeId} {ch : Chan (Delivery M)}
    (htasks : n.tasks = [t]) (hsend : (n.bridges b').send ⟨t.conn, t.seq, t.msg⟩ = some ch) :
    (line codec c b { n.setBridge b' ch with tasks := [] }).Sublist (n.line codec c b) := by
  rcases Chan.send_eq_some.mp hsend with ⟨-, rfl⟩ | ⟨-, rfl⟩
  · by_cases hb : b = b'
    · subst hb
      refine sublist_of_eq ?_
      by_cases hconn : t.conn = c <;> simp [line, setBridge, htasks, hconn]
    · exact line_sublist rfl (by simp [setBridge, update_of_ne hb]) (List.nil_sublist _)
  · exact line_sublist rfl (sublist_of_eq (accepted_setBridge rfl)) (List.nil_sublist _)

/-- **With one permit every step keeps the line in order**, unless the peer writes a frame. -/
theorem Serial.line_of_step (hs : n.Serial) (harrive : ∀ body, e ≠ .arrive c body)
    (h : n.step codec e = some n') : (n'.line codec c b).Sublist (n.line codec c b) := by
  have honly {k : ℕ} {t : Dispatch M} (ht : n.tasks[k]? = some t) : n.tasks = [t] ∧ k = 0 := by
    obtain ⟨hlt, rfl⟩ := List.getElem?_eq_some_iff.mp ht
    obtain ⟨t, htasks⟩ := List.length_eq_one_iff.mp
      (le_antisymm hs.one (Nat.one_le_iff_ne_zero.mpr (Nat.ne_zero_of_lt hlt)))
    have hk : k = 0 := by
      rw [htasks] at hlt
      exact Nat.lt_one_iff.mp hlt
    subst hk
    exact ⟨by simp [htasks], rfl⟩
  cases step_inv h with
  | accept =>
    have hnew : ((n.setConn n.nextConn .new).line codec c b).Sublist (n.line codec c b) :=
      line_setConn fun _ => List.nil_sublist _
    exact hnew
  | arrive hc heof hopen =>
    exact line_setConn fun hcc => absurd (by rw [hcc]) (harrive _)
  | hangUp hc =>
    refine line_setConn fun hcc => sublist_of_eq ?_
    rw [hcc, hc]
    rfl
  | read hc hread =>
    refine line_setConn fun hcc => ?_
    rw [hcc, hc]
    exact Conn.carried_read hread
  | @acquire c' conn target msg hc hphase hpermit =>
    refine sublist_of_eq ?_
    by_cases hcc : c = c'
    · subst hcc
      simp [line, setConn, hc, Conn.carried, hphase]
    · simp [line, setConn, update_of_ne hcc, Ne.symm hcc]
  | @found k t b' ht hphase htable =>
    obtain ⟨htasks, rfl⟩ := honly ht
    refine sublist_of_eq ?_
    by_cases hconn : t.conn = c <;> simp [line, htasks, hconn]
  | missing ht hphase htable =>
    exact line_sublist rfl (List.Sublist.refl _) (List.eraseIdx_sublist ..)
  | @send k t b' ch ht hphase hsend =>
    obtain ⟨htasks, rfl⟩ := honly ht
    have hnil : n.tasks.eraseIdx 0 = [] := by rw [htasks]; rfl
    rw [hnil]
    exact line_send htasks hsend
  | openBridge hcapacity =>
    refine line_sublist rfl ?_ (List.Sublist.refl _)
    by_cases hb : b = n.nextBridge
    · subst hb
      simp [setBridge, Chan.new]
    · simp [setBridge, update_of_ne hb]
  | recvBridge hrecv =>
    exact line_sublist rfl (sublist_of_eq (accepted_setBridge (Chan.accepted_recv hrecv)))
      (List.Sublist.refl _)
  | closeBridge =>
    exact line_sublist rfl (sublist_of_eq (accepted_setBridge rfl)) (List.Sublist.refl _)
  | _ => exact List.Sublist.refl _

/-- A frame that is written joins the end of the line, or is lost. -/
theorem line_arrive {body : List UInt8} {target : String} {msg : M}
    (hdec : codec.decode body = some (target, msg))
    (h : n.step codec (.arrive c body) = some n') :
    (n'.line codec c b).Sublist (n.line codec c b ++ [msg]) := by
  cases step_inv h with
  | arriveClosed => exact List.sublist_append_left _ _
  | arrive hc heof hopen =>
    refine sublist_of_eq ?_
    simp [line, setConn, hc, Conn.carried, hdec]

/-- A new connection has an empty line. -/
theorem Numbered.line_accept (hn : n.Numbered) (h : n.step codec .accept = some n') :
    n'.line codec n.nextConn b = [] := by
  have hnone : n.conns n.nextConn = none := hn.fresh _ le_rfl
  have hfresh {c seq : ℕ} (hlt : ∃ conn, n.conns c = some conn ∧ seq < conn.received) :
      c ≠ n.nextConn := by
    rintro rfl
    obtain ⟨conn, hc, -⟩ := hlt
    rw [hnone] at hc
    cases hc
  have haccepted : (n.bridges b).accepted.filter (·.conn = n.nextConn) = [] :=
    List.filter_eq_nil_iff.mpr fun d hd => by simpa using hfresh (hn.accepted b d hd)
  have htasks : n.tasks.filter (·.conn = n.nextConn) = [] :=
    List.filter_eq_nil_iff.mpr fun t ht => by simpa using hfresh (hn.tasks t ht)
  cases h
  simp only [line, setConn, haccepted, htasks, update_self]
  rfl

end Node

/-! ### The line of a reference -/

namespace Writer

variable {w w' : Writer M} {e : WriterEvent M} {l l' : List M}

/-- The messages that the write loop has yet to write, the oldest first. -/
def waiting (w : Writer M) : List M := w.phase.message ++ w.queue.queue

/-- The message that leaves the write loop with an event. -/
def passed (w : Writer M) : WriterEvent M → List M
  | .written | .writeFailed => w.phase.message
  | _ => []

/-- **Every step of the write loop keeps the line in the order of the sends.** -/
theorem line_of_step (h : w.step e = some w') (hl : (l ++ w.waiting).Sublist w.queue.accepted)
    (hl' : l'.Sublist (l ++ w.passed e)) : (l' ++ w'.waiting).Sublist w'.queue.accepted := by
  have hkeep (hpassed : w.passed e = []) (hwaiting : w'.waiting.Sublist w.waiting)
      (haccepted : w'.queue.accepted = w.queue.accepted) :
      (l' ++ w'.waiting).Sublist w'.queue.accepted := by
    rw [hpassed, List.append_nil] at hl'
    rw [haccepted]
    exact (hl'.append hwaiting).trans hl
  cases step_inv h with
  | @send msg hsenders hroom =>
    have hsub : l'.Sublist l := by simpa [passed] using hl'
    have happend := ((hsub.append (List.Sublist.refl w.waiting)).trans hl).append
      (List.Sublist.refl [msg])
    simpa [waiting] using happend
  | cloneRef | dropRef | connectFailed => exact hkeep rfl (List.Sublist.refl _) rfl
  | connected hphase =>
    refine hkeep rfl (sublist_of_eq ?_) rfl
    simp [waiting, hphase, WriterPhase.message]
  | giveUp | recvNone => exact hkeep rfl (List.nil_sublist _) rfl
  | @recv c msg queue hphase hrecv =>
    refine hkeep rfl (sublist_of_eq ?_) (Chan.accepted_recv hrecv)
    simp [waiting, hphase, (Chan.recv_eq_some.mp hrecv).1, WriterPhase.message]
  | @written c msg hphase | @writeFailed c msg hphase =>
    have hmessage : w.phase.message = [msg] := by rw [hphase]; rfl
    have hsub : l'.Sublist (l ++ [msg]) := by simpa only [passed, hmessage] using hl'
    have hall : ((l ++ [msg]) ++ w.queue.queue).Sublist w.queue.accepted := by
      simpa [waiting, hmessage] using hl
    exact (hsub.append (List.Sublist.refl _)).trans hall

end Writer

namespace RemoteServed

variable {codec : Codec M} {s s' : RemoteServed M A} {e : RemoteServedEvent M A}

/-- The invariant of a reference to a node with one permit: on each of its connections the messages
stand in the order in which they were sent. -/
structure InLine (codec : Codec M) (s : RemoteServed M A) : Prop where
  serial : s.served.node.Serial
  waiting : s.writer.waiting.Sublist s.writer.queue.accepted
  line : ∀ c ∈ s.conns, (s.served.node.line codec c s.served.bridge ++ s.writer.waiting).Sublist
    s.writer.queue.accepted

theorem InLine.step (hcodec : codec.Lawful) (hs : s.InLine codec) (h : s.step codec e = some s') :
    s'.InLine codec := by
  obtain ⟨-, -, -, hbridge⟩ := settings_of_step h
  have hwaiting {we : WriterEvent M} {w : Writer M} (hwriter : s.writer.step we = some w) :
      w.waiting.Sublist w.queue.accepted :=
    Writer.line_of_step hwriter (show ([] ++ _ : List M).Sublist _ from hs.waiting)
      (List.nil_sublist _)
  have hother {n n' : Node M} {c c' : ConnId} (hn : n.Serial)
      (hnode : n.step codec (.hangUp c') = some n') :
      (n'.line codec c s.served.bridge).Sublist (n.line codec c s.served.bridge) :=
    hn.line_of_step (fun _ he => by cases he) hnode
  cases step_inv h with
  | served hallowed hserved =>
    rcases node_of_served hallowed hserved with hsame | ⟨ne, hnode, harrive, -⟩
    · refine ⟨by rw [hsame]; exact hs.serial, hs.waiting, fun c hc => ?_⟩
      rw [hsame, hbridge]
      exact hs.line c hc
    · refine ⟨hs.serial.step hnode, hs.waiting, fun c hc => ?_⟩
      have hkeep := hs.serial.line_of_step (c := c) (b := s.served.bridge)
        (fun body he => harrive c body he hc) hnode
      rw [hbridge]
      exact (hkeep.append (List.Sublist.refl _)).trans (hs.line c hc)
  | writer he hwriter =>
    refine ⟨hs.serial, hwaiting hwriter, fun c hc => ?_⟩
    exact Writer.line_of_step hwriter (hs.line c hc) (List.sublist_append_left _ _)
  | connect hnode hwriter =>
    refine ⟨hs.serial.step hnode, hwaiting hwriter, fun c hc => ?_⟩
    rcases Finset.mem_insert.mp hc with rfl | hc
    · rw [hs.serial.numbered.line_accept hnode, List.nil_append]
      exact hwaiting hwriter
    · exact Writer.line_of_step hwriter (hs.line c hc)
        ((hs.serial.line_of_step (fun _ he => by cases he) hnode).trans
          (List.sublist_append_left _ _))
  | recvNone hphase hnode hwriter | unframed hphase hframe hnode hwriter =>
    refine ⟨hs.serial.step hnode, hwaiting hwriter, fun c hc => ?_⟩
    exact Writer.line_of_step hwriter (hs.line c hc)
      ((hother hs.serial hnode).trans (List.sublist_append_left _ _))
  | @write reaches ok c' msg body n₁ n₂ w hphase hframe harrive hhang hwriter =>
    have hdec := decode_of_frame hcodec hframe
    -- the frame joins the line of its connection only
    obtain ⟨hserial, hline⟩ : n₁.Serial ∧ ∀ c, (n₁.line codec c s.served.bridge).Sublist
        (s.served.node.line codec c s.served.bridge ++ [msg]) := by
      cases reaches with
      | false =>
        cases harrive
        exact ⟨hs.serial, fun c => List.sublist_append_left _ _⟩
      | true =>
        have hnode := run_one.mp harrive
        refine ⟨hs.serial.step hnode, fun c => ?_⟩
        by_cases hc : c = c'
        · subst hc
          exact Node.line_arrive hdec hnode
        · refine (hs.serial.line_of_step (fun _ he => ?_) hnode).trans
            (List.sublist_append_left _ _)
          cases he
          exact hc rfl
    have hpassed : s.writer.passed (if ok then .written else .writeFailed) = [msg] := by
      cases ok <;> simp [Writer.passed, hphase, WriterPhase.message]
    obtain ⟨hserial₂, hline₂⟩ : n₂.Serial ∧ ∀ c, (n₂.line codec c s.served.bridge).Sublist
        (n₁.line codec c s.served.bridge) := by
      cases ok with
      | true =>
        cases hhang
        exact ⟨hserial, fun c => List.Sublist.refl _⟩
      | false =>
        have hnode := run_one.mp hhang
        exact ⟨hserial.step hnode, fun c => hother hserial hnode⟩
    refine ⟨hserial₂, hwaiting hwriter, fun c hc => Writer.line_of_step hwriter (hs.line c hc) ?_⟩
    rw [hpassed]
    exact (hline₂ c).trans (hline c)

/-! ### Whole runs -/

variable {w : Runtime M A} {name target : String} {actor : A}
  {distributed config : DistributedConfig} {actorConfig : ActorConfig} {s₀ s₁ : Served M A}
  {ds : List (ServedEvent M A)} {es : List (RemoteServedEvent M A)}

/-- A reference to an actor that is served with one permit, before its first message. -/
theorem inLine_start (hone : distributed.maxInFlight ≤ 1)
    (hstart : Served.start w name actor distributed actorConfig = some s₀)
    (hserved : s₀.run codec ds = some s₁) : (start s₁ target config).InLine codec := by
  obtain ⟨-, -, hserve, -⟩ := Served.start_spec hstart
  have hrun := run_trans (Node.run_serve codec hserve) (Served.run_nodeEvents hserved)
  refine ⟨invariant_run (P := Node.Serial) (fun hs h => hs.step h) (Node.serial_bind hone) hrun, ?_,
    fun c hc => absurd hc (Finset.notMem_empty c)⟩
  simp [start, Writer.waiting, Writer.withConfig, WriterPhase.message, Chan.new]

/-- **With one permit the actor takes the messages of one connection in the order of the sends.** -/
theorem taken_in_order (hcodec : codec.Lawful) (hone : distributed.maxInFlight ≤ 1)
    (hw : w.Reachable) (hstart : Served.start w name actor distributed actorConfig = some s₀)
    (hserved : s₀.run codec ds = some s₁) (hrun : (start s₁ target config).run codec es = some s) :
    ∃ taken rest, s.served.history = taken ++ rest ∧
      s₀.rt.envelopes s₀.actor
          (s₀.rtEvents codec (ds ++ (start s₁ target config).servedEvents codec es)) =
        taken.map (Delivery.envelope A) ∧
      ∀ c ∈ s.conns, ((taken.filter (·.conn = c)).map (·.msg)).Sublist s.writer.queue.accepted := by
  obtain ⟨taken, rest, lost, hsplit, htaken, -⟩ := taken_of_run hw hstart hserved hrun
  have hline : s.InLine codec := invariant_run (P := InLine codec)
    (fun hs h => hs.step hcodec h) (inLine_start hone hstart hserved) hrun
  have hhistory : s.served.history = taken ++ (rest ++ lost) := by
    rw [hsplit, List.append_assoc]
  refine ⟨taken, rest ++ lost, hhistory, htaken, fun c hc => ?_⟩
  have hfirst : taken.Sublist s.served.history := by
    rw [hhistory]
    exact List.sublist_append_left _ _
  have hsub : ((taken.filter (·.conn = c)).map (·.msg)).Sublist
      (s.served.node.line codec c s.served.bridge) := by
    rw [Node.line, List.append_assoc]
    exact ((hfirst.filter _).map _).trans (List.sublist_append_left _ _)
  exact (hsub.trans (List.sublist_append_left _ _)).trans (hline.line c hc)

/-- **The order of dispatch.** The messages of each connection enter each bridge channel in the
order of their frames, in every reachable state of a node, exactly when the node has one permit
only, or no frame is readable at all. And with one permit the actor takes the messages that a
`RemoteActorRef` sends over one connection in the order in which they were sent. -/
theorem dispatch_order (codec : Codec M) (distributed : DistributedConfig) :
    ((∀ n, Node.Reachable codec distributed n → n.InOrder) ↔
      distributed.maxInFlight ≤ 1 ∨ ¬ ∃ body, Node.Readable codec distributed body) ∧
    (codec.Lawful → distributed.maxInFlight ≤ 1 → ∀ (w : Runtime M A) (name target : String)
      (actor : A) (actorConfig : ActorConfig) (config : DistributedConfig) (s₀ s₁ : Served M A)
      (ds : List (ServedEvent M A)) (es : List (RemoteServedEvent M A)) (s : RemoteServed M A),
      w.Reachable → Served.start w name actor distributed actorConfig = some s₀ →
      s₀.run codec ds = some s₁ → (start s₁ target config).run codec es = some s →
      ∃ taken rest, s.served.history = taken ++ rest ∧
        s₀.rt.envelopes s₀.actor
            (s₀.rtEvents codec (ds ++ (start s₁ target config).servedEvents codec es)) =
          taken.map (Delivery.envelope A) ∧
        ∀ c ∈ s.conns,
          ((taken.filter (·.conn = c)).map (·.msg)).Sublist s.writer.queue.accepted) :=
  ⟨Node.inOrder_iff codec distributed,
    fun hcodec hone _ _ _ _ _ _ _ _ _ _ _ hw hstart hserved hrun =>
      taken_in_order hcodec hone hw hstart hserved hrun⟩

/-- An actor that is served as `t` with one permit. -/
def servingOne : Served ℕ Unit :=
  (Served.start .init "t" () { DistributedConfig.default with maxInFlight := 1 } .default).get rfl

/-- Two numbers are sent over one connection, dispatched and taken. -/
def sendsTwo : List (RemoteServedEvent ℕ Unit) :=
  [.connect, .send 1, .send 2, .recv, .write true true, .recv, .write true true] ++
    (Served.dispatches 0 ++ Served.dispatches 0 ++ Served.takes ++ Served.takesNext).map .served

/-- The result for two numbers over one connection. -/
theorem dispatch_order_two : ∃ s : RemoteServed ℕ Unit,
    (start servingOne "t" .default).run Node.numberCodec sendsTwo = some s ∧
    s.conns = {0} ∧ s.writer.queue.accepted = [1, 2] ∧
    ∃ taken rest, s.served.history = taken ++ rest ∧
      taken.map (Delivery.envelope Unit) = [.msg 1, .msg 2] ∧
      ((taken.filter (·.conn = 0)).map (·.msg)).Sublist [1, 2] := by
  have hsome : ((start servingOne "t" .default).run Node.numberCodec sendsTwo).isSome := rfl
  have hrun := (Option.some_get hsome).symm
  obtain ⟨taken, rest, hsplit, htaken, horder⟩ :=
    (dispatch_order Node.numberCodec { DistributedConfig.default with maxInFlight := 1 }).2
      Node.numberCodec_lawful le_rfl .init "t" "t" () .default .default servingOne servingOne []
      sendsTwo _ ⟨[], rfl⟩ rfl (run_nil _ servingOne) hrun
  refine ⟨_, hrun, rfl, rfl, taken, rest, hsplit, ?_, horder 0 ?_⟩
  · rw [← htaken]
    rfl
  · exact Finset.mem_insert_self 0 ∅

/-- A number is written on a connection; the next message has no frame, so the write loop drops
the stream and connects again, and the second number is written on the new connection. Its frame
is read first. -/
def reconnects : List (RemoteServedEvent ℕ Unit) :=
  [.connect, .send 1, .send 3, .send 2, .recv, .write true true, .recv, .write true true,
    .connect, .recv, .write true true] ++
    (Served.dispatches 1 ++ Served.dispatches 0 ++ Served.takes ++ Served.takesNext).map .served

/-- Two numbers on one connection of a node with 32 permits, of which the second enters the bridge
channel first; and, with one permit, two numbers on two connections of one reference, of which the
actor takes the second first. -/
theorem overtaken :
    (∃ n : Node ℕ, (Node.bind .default).run Node.numberCodec ([.openBridge 32, .register "t" 0,
        .accept, .arrive 0 (Node.numberFrame 1), .arrive 0 (Node.numberFrame 2)] ++
        Node.receive ++ Node.receive ++ Node.overtake) = some n ∧
      (n.bridges 0).accepted = [⟨0, 1, 2⟩, ⟨0, 0, 1⟩] ∧ ¬ n.InOrder) ∧
    ∃ s : RemoteServed ℕ Unit,
      (start servingOne "t" .default).run Node.numberCodec reconnects = some s ∧
      s.writer.queue.accepted = [1, 3, 2] ∧ s.served.history = [⟨1, 0, 2⟩, ⟨0, 0, 1⟩] ∧
      servingOne.rt.envelopes servingOne.actor (servingOne.rtEvents Node.numberCodec
        ((start servingOne "t" .default).servedEvents Node.numberCodec reconnects)) =
        [.msg 2, .msg 1] := by
  refine ⟨Node.second_frame_first, ?_⟩
  have hsome : ((start servingOne "t" .default).run Node.numberCodec reconnects).isSome := rfl
  exact ⟨_, (Option.some_get hsome).symm, rfl, rfl, rfl⟩

end RemoteServed

end LaneSwitchboards
