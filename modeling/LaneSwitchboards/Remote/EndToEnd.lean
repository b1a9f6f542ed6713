import LaneSwitchboards.Remote.Delivery
import LaneSwitchboards.Remote.Served

/-!
# A remote reference and the actor that is served under its address

A `RemoteActorRef` next to the process that listens at its address: the write loop, the node with
its connections and dispatch tasks, the bridge task and the actor. The network may fail at any
time. A connect may fail, a write may fail before or after the frame has got through, and a read of
the node may fail, which loses what is on the connection. Other peers use the node through
connections of their own.

Over every run, the actor takes each message of the reference at most once, and none if the
reference names another target: `taken_at_most_once`.
-/

namespace LaneSwitchboards

open Function Transition

variable {M A : Type}

/-! ### A node loses messages but never gains any -/

/-- The frames on a connection are for the target. -/
structure Conn.Addressed (codec : Codec M) (target : String) (conn : Conn M) : Prop where
  wire : ∀ frame ∈ conn.wire, ∀ p, codec.decode frame = some p → p.1 = target
  body : ∀ frame, conn.phase = .body frame → ∀ p, codec.decode frame = some p → p.1 = target
  permit : ∀ target' msg, conn.phase = .permit target' msg → target' = target

namespace Conn

variable {codec : Codec M} {config : DistributedConfig} {target : String} {conn conn' : Conn M}
  {r : ReadChoice}

theorem addressed_new : (new : Conn M).Addressed codec target :=
  ⟨fun _ hmem => (by cases hmem), nofun, nofun⟩

theorem addressed_close : conn.close.Addressed codec target :=
  ⟨fun _ hmem => (by cases hmem), nofun, nofun⟩

/-- **A read** keeps the messages of a connection, or loses some. -/
theorem Addressed.read (ha : conn.Addressed codec target)
    (h : conn.read config codec r = some conn') :
    conn'.Addressed codec target ∧ conn'.load codec ≤ conn.load codec := by
  have hclose : conn.close.Addressed codec target ∧ conn.close.load codec ≤ conn.load codec :=
    ⟨addressed_close, by rw [load_close]; exact Multiset.zero_le _⟩
  unfold Conn.read at h
  split at h
  · next hphase =>
    split at h
    · cases h
    · next frame rest hw =>
      split_ifs at h with hlen
      · cases h
        exact hclose
      · cases h
        refine ⟨⟨fun f hf => ha.wire f (by simp [hw, hf]), fun f hf => ?_,
          fun target' msg' hper => (by cases hper)⟩, le_of_eq ?_⟩
        · cases hf
          exact ha.wire frame (by simp [hw])
        · cases hdec : codec.decode frame <;>
            simp [load, hw, hdec, hphase, ← Multiset.cons_coe, ← Multiset.singleton_add, add_comm]
  · split_ifs at h
    cases h
    exact hclose
  · next frame hphase =>
    split at h
    · cases h
      exact hclose
    · next target' msg hdec =>
      cases h
      refine ⟨⟨ha.wire, fun frame' hbody => (by cases hbody), fun target'' msg' hper => ?_⟩,
        le_of_eq ?_⟩
      · cases hper
        exact ha.body frame hphase _ hdec
      · simp [load, hphase, hdec]
  · cases h
    exact hclose
  · cases h
    exact hclose
  · cases h

end Conn

namespace Node

variable {codec : Codec M} {own : Finset ConnId} {target name : String} {b : BridgeId}
  {n n' : Node M} {e : NodeEvent} {c : ConnId} {old new : Conn M}

/-- The connections `own` carry frames for `target`, and the bridge channel `b` is registered under
`name` only. -/
structure Addressed (codec : Codec M) (own : Finset ConnId) (target name : String) (b : BridgeId)
    (n : Node M) : Prop where
  numbered : n.Numbered
  lt : b < n.nextBridge
  conns : ∀ c ∈ own, ∃ conn, n.conns c = some conn ∧ conn.Addressed codec target
  tasks : ∀ t ∈ n.tasks, (t.conn ∈ own → t.target = target) ∧ (t.phase = .send b → t.target = name)
  table : ∀ target', n.table target' = some b → target' = name
  routed : ∀ d ∈ (n.bridges b).accepted, d.conn ∈ own → target = name

theorem Addressed.notMem_nextConn (ha : n.Addressed codec own target name b) :
    n.nextConn ∉ own := by
  intro hmem
  obtain ⟨conn, hc, -⟩ := ha.conns _ hmem
  rw [ha.numbered.fresh _ le_rfl] at hc
  cases hc

/-- **Every step keeps the addresses**, where frames for the target only are written on the
connections `own`, and the bridge channel is registered under its name only. -/
theorem Addressed.step (ha : n.Addressed codec own target name b)
    (harrive : ∀ c body, e = .arrive c body → c ∈ own →
      ∀ p, codec.decode body = some p → p.1 = target)
    (hregister : ∀ target', e = .register target' b → target' = name)
    (h : n.step codec e = some n') : n'.Addressed codec own target name b := by
  have hset {c' : ConnId} {old new : Conn M} (hc' : n.conns c' = some old)
      (hnew : c' ∈ own → old.Addressed codec target → new.Addressed codec target) :
      ∀ c ∈ own, ∃ conn, (n.setConn c' new).conns c = some conn ∧ conn.Addressed codec target := by
    intro c hmem
    obtain ⟨conn, hc, hconn⟩ := ha.conns c hmem
    by_cases hcc : c = c'
    · subst hcc
      obtain rfl : conn = old := Option.some.inj (hc.symm.trans hc')
      exact ⟨new, by simp [setConn], hnew hmem hconn⟩
    · exact ⟨conn, by simp [setConn, update_of_ne hcc, hc], hconn⟩
  have hconns : ∀ c ∈ own, ∃ conn, n'.conns c = some conn ∧ conn.Addressed codec target := by
    cases step_inv h with
    | accept =>
      intro c hmem
      have hne : c ≠ n.nextConn := fun heq => ha.notMem_nextConn (heq ▸ hmem)
      simpa [setConn, update_of_ne hne] using ha.conns c hmem
    | arrive hc heof hopen =>
      refine hset hc fun hmem hconn => ⟨fun frame hframe => ?_, hconn.body, hconn.permit⟩
      rcases List.mem_append.mp hframe with hframe | hframe
      · exact hconn.wire frame hframe
      · obtain rfl := List.mem_singleton.mp hframe
        exact harrive _ _ rfl hmem
    | hangUp hc => exact hset hc fun _ hconn => ⟨hconn.wire, hconn.body, hconn.permit⟩
    | read hc hread => exact hset hc fun _ hconn => (hconn.read hread).1
    | acquire hc hphase hpermit => exact hset hc fun _ hconn => ⟨hconn.wire, by simp, by simp⟩
    | _ => exact ha.conns
  have htasks : ∀ t ∈ n'.tasks,
      (t.conn ∈ own → t.target = target) ∧ (t.phase = .send b → t.target = name) := by
    intro t' ht'
    cases step_inv h with
    | @acquire c' conn' target' msg' hc hphase hpermit =>
      rcases List.mem_append.mp ht' with ht' | ht'
      · exact ha.tasks t' ht'
      · obtain rfl := List.mem_singleton.mp ht'
        refine ⟨fun hmem => ?_, fun hsend => (by cases hsend)⟩
        obtain ⟨conn, hc', hconn⟩ := ha.conns _ hmem
        obtain rfl := Option.some.inj (hc'.symm.trans hc)
        exact hconn.permit _ _ hphase
    | found ht hphase htable =>
      rcases List.mem_or_eq_of_mem_set ht' with ht' | rfl
      · exact ha.tasks t' ht'
      · refine ⟨(ha.tasks _ (List.mem_of_getElem? ht)).1, fun hsend => ?_⟩
        cases hsend
        exact ha.table _ htable
    | missing | send => exact ha.tasks t' (List.mem_of_mem_eraseIdx ht')
    | _ => exact ha.tasks t' ht'
  have htable : ∀ target', n'.table target' = some b → target' = name := by
    intro T hT
    cases step_inv h with
    | @register target' b' hb =>
      by_cases hTT : T = target'
      · subst hTT
        simp only [update_self, Option.some.injEq] at hT
        subst hT
        exact hregister T rfl
      · simp only [update_of_ne hTT] at hT
        exact ha.table T hT
    | @unregister target' =>
      by_cases hTT : T = target'
      · subst hTT
        simp at hT
      · simp only [update_of_ne hTT] at hT
        exact ha.table T hT
    | _ => exact ha.table T hT
  have hrouted : ∀ d ∈ (n'.bridges b).accepted, d.conn ∈ own → target = name := by
    intro d hd hmem
    cases step_inv h with
    | @send k t b' ch ht hphase hsend =>
      by_cases hbb : b = b'
      · subst hbb
        obtain ⟨htarget, hname⟩ := ha.tasks t (List.mem_of_getElem? ht)
        simp only [setBridge, update_self] at hd
        rcases Chan.send_eq_some.mp hsend with ⟨-, rfl⟩ | ⟨-, rfl⟩
        · rcases List.mem_append.mp hd with hd | hd
          · exact ha.routed d hd hmem
          · obtain rfl := List.mem_singleton.mp hd
            exact (htarget hmem).symm.trans (hname hphase)
        · exact ha.routed d hd hmem
      · simp only [setBridge, update_of_ne hbb] at hd
        exact ha.routed d hd hmem
    | openBridge hcapacity =>
      simp only [setBridge, update_of_ne ha.lt.ne] at hd
      exact ha.routed d hd hmem
    | recvBridge hrecv =>
      rw [accepted_setBridge (Chan.accepted_recv hrecv)] at hd
      exact ha.routed d hd hmem
    | closeBridge =>
      rw [accepted_setBridge Chan.accepted_close] at hd
      exact ha.routed d hd hmem
    | _ => exact ha.routed d hd hmem
  exact ⟨ha.numbered.step h, ha.lt.trans_le (nextBridge_of_step h), hconns, htasks, htable, hrouted⟩

/-- The messages on a connection that is replaced by one with no more. -/
theorem onConns_setConn_le (hc : n.conns c = some old)
    (hload : c ∈ own → new.load codec ≤ old.load codec) :
    (n.setConn c new).onConns codec own ≤ n.onConns codec own := by
  by_cases hmem : c ∈ own
  · have hsum := onConns_setConn codec new hmem hc
    refine le_of_add_le_add_right (hsum.le.trans ?_)
    exact add_le_add le_rfl (hload hmem)
  · exact (onConns_setConn_of_notMem codec n new hmem).le

/-- What the tasks hold when one has ended. -/
theorem dispatching_eraseIdx_le {tasks : List (Dispatch M)} {k : ℕ} {t : Dispatch M}
    (ht : tasks[k]? = some t) :
    dispatching own (tasks.eraseIdx k) ≤ dispatching own tasks := by
  rw [dispatching_eraseIdx ht]
  exact le_add_of_nonneg_left (Multiset.zero_le _)

/-- A dispatch task that ends hands its message to the bridge channel at most once. -/
theorem held_send_le {k : ℕ} {t : Dispatch M} {b' : BridgeId} {ch : Chan (Delivery M)}
    (ht : n.tasks[k]? = some t) (hsend : (n.bridges b').send ⟨t.conn, t.seq, t.msg⟩ = some ch) :
    held codec own b { n.setBridge b' ch with tasks := n.tasks.eraseIdx k } ≤
      n.held codec own b := by
  have hhanded : handed own ((n.setBridge b' ch).bridges b).accepted ≤
      handed own (n.bridges b).accepted + if t.conn ∈ own then {t.msg} else 0 := by
    rcases Chan.send_eq_some.mp hsend with ⟨-, rfl⟩ | ⟨-, rfl⟩
    · by_cases hbb : b = b'
      · subst hbb
        simp only [setBridge, update_self, Chan.accepted_push, handed_concat, le_refl]
      · simp only [setBridge, update_of_ne hbb]
        exact le_add_of_nonneg_right (Multiset.zero_le _)
    · rw [accepted_setBridge rfl]
      exact le_add_of_nonneg_right (Multiset.zero_le _)
  calc n.onConns codec own + dispatching own (n.tasks.eraseIdx k) +
        handed own ((n.setBridge b' ch).bridges b).accepted
      ≤ n.onConns codec own + dispatching own (n.tasks.eraseIdx k) +
        (handed own (n.bridges b).accepted + if t.conn ∈ own then {t.msg} else 0) :=
        add_le_add le_rfl hhanded
    _ = n.held codec own b := by
        rw [held, dispatching_eraseIdx ht]
        abel

/-- **Nothing is gained**: a step of the node that writes nothing on the connections `own` adds no
message of theirs. -/
theorem Addressed.held_le (ha : n.Addressed codec own target name b)
    (harrive : ∀ c body, e = .arrive c body → c ∉ own) (h : n.step codec e = some n') :
    n'.held codec own b ≤ n.held codec own b := by
  have hconn {c' : ConnId} {old new : Conn M} (hc : n.conns c' = some old)
      (hload : c' ∈ own → new.load codec ≤ old.load codec) :
      (n.setConn c' new).held codec own b ≤ n.held codec own b :=
    add_le_add (add_le_add (onConns_setConn_le hc hload) le_rfl) le_rfl
  cases step_inv h with
  | accept =>
    have hsum : (n.setConn n.nextConn .new).onConns codec own = n.onConns codec own :=
      onConns_setConn_of_notMem codec n .new ha.notMem_nextConn
    exact (congrArg (· + _ + _) hsum).le
  | arrive hc heof hopen => exact hconn hc fun hmem => absurd hmem (harrive _ _ rfl)
  | hangUp hc => exact hconn hc fun _ => le_rfl
  | @read c r conn conn' hc hread =>
    refine hconn hc fun hmem => ?_
    obtain ⟨conn₀, hc₀, haddressed⟩ := ha.conns c hmem
    obtain rfl := Option.some.inj (hc₀.symm.trans hc)
    exact (haddressed.read hread).2
  | acquire hc hphase hpermit => exact (held_acquire hc hphase).le
  | found ht hphase htable =>
    refine le_of_eq ?_
    exact congrArg (_ + · + _) (dispatching_set ht rfl rfl)
  | missing ht hphase htable =>
    exact add_le_add (add_le_add le_rfl (dispatching_eraseIdx_le ht)) le_rfl
  | send ht hphase hsend => exact held_send_le ht hsend
  | openBridge hcapacity =>
    refine le_of_eq ?_
    simp [held, setBridge, update_of_ne ha.lt.ne, onConns]
  | recvBridge hrecv =>
    exact (congrArg (_ + handed own ·) (accepted_setBridge (Chan.accepted_recv hrecv))).le
  | closeBridge =>
    exact (congrArg (_ + handed own ·) (accepted_setBridge Chan.accepted_close)).le
  | _ => exact le_rfl

/-- A new connection has nothing on it, and nothing came from it. -/
theorem Addressed.accept (ha : n.Addressed codec own target name b)
    (h : n.step codec .accept = some n') :
    n'.Addressed codec (insert n.nextConn own) target name b ∧
      n'.held codec (insert n.nextConn own) b = n.held codec own b := by
  have hnone : n.conns n.nextConn = none := ha.numbered.fresh _ le_rfl
  have htask : ∀ t ∈ n.tasks, t.conn ≠ n.nextConn := by
    rintro t ht hconn
    obtain ⟨conn, hc, -⟩ := ha.numbered.tasks t ht
    rw [hconn, hnone] at hc
    cases hc
  have hdelivery : ∀ d ∈ (n.bridges b).accepted, d.conn ≠ n.nextConn := by
    rintro d hd hconn
    obtain ⟨conn, hc, -⟩ := ha.numbered.accepted b d hd
    rw [hconn, hnone] at hc
    cases hc
  have ha' := ha.step (fun _ _ he => by cases he) (fun _ he => by cases he) h
  cases h
  refine ⟨⟨ha'.numbered, ha'.lt, fun c hc => ?_, fun t ht => ⟨fun hown => ?_, (ha'.tasks t ht).2⟩,
    ha'.table, fun d hd hown => ?_⟩, ?_⟩
  · rcases Finset.mem_insert.mp hc with rfl | hc
    · exact ⟨.new, by simp [setConn], Conn.addressed_new⟩
    · exact ha'.conns c hc
  · rcases Finset.mem_insert.mp hown with hconn | hown
    · exact absurd hconn (htask t ht)
    · exact (ha'.tasks t ht).1 hown
  · rcases Finset.mem_insert.mp hown with hconn | hown
    · exact absurd hconn (hdelivery d hd)
    · exact ha'.routed d hd hown
  · have hconns : (n.setConn n.nextConn .new).onConns codec (insert n.nextConn own) =
        n.onConns codec own := by
      have hrest := onConns_setConn_of_notMem codec n .new ha.notMem_nextConn
      rw [← hrest, onConns, Finset.sum_insert ha.notMem_nextConn]
      simp [onConns, setConn, Conn.load_new]
    have htasks : dispatching (insert n.nextConn own) n.tasks = dispatching own n.tasks := by
      unfold dispatching
      rw [List.filter_congr fun t ht => ?_]
      simp [htask t ht]
    have haccepted : handed (insert n.nextConn own) (n.bridges b).accepted =
        handed own (n.bridges b).accepted := by
      unfold handed
      rw [List.filter_congr fun d hd => ?_]
      simp [hdelivery d hd]
    exact congrArg₂ (· + ·) (congrArg₂ (· + ·) hconns htasks) haccepted

theorem handed_append (own : Finset ConnId) (ds ds' : List (Delivery M)) :
    handed own (ds ++ ds') = handed own ds + handed own ds' := by
  simp [handed, ← Multiset.coe_add]

theorem handed_eq_zero {ds : List (Delivery M)} (h : ∀ d ∈ ds, d.conn ∉ own) :
    handed own ds = 0 := by
  have hnone : ds.filter (fun d => d.conn ∈ own) = [] := by
    simpa [List.filter_eq_nil_iff] using h
  rw [handed, hnone]
  rfl

/-- A frame that is written adds its message, unless the node has closed the connection. -/
theorem held_arrive_le {body : List UInt8} {target' : String} {msg : M} (hmem : c ∈ own)
    (hdec : codec.decode body = some (target', msg)) (h : n.step codec (.arrive c body) = some n') :
    n'.held codec own b ≤ n.held codec own b + {msg} := by
  rcases held_of_arrive (b := b) hmem hdec h with ⟨-, rfl⟩ | ⟨-, hheld⟩
  · exact le_add_of_nonneg_right (Multiset.zero_le _)
  · exact hheld.le

end Node

namespace Served

variable {codec : Codec M} {s s' : Served M A} {e : ServedEvent M A}

/-- What a step of a served actor does to its node. -/
theorem node_of_step (h : s.step codec e = some s') : s'.node = s.node ∨
    ∃ ne, s.node.step codec ne = some s'.node ∧
      (e = .node ne ∧ s.nodeAllowed ne = true ∨ ne = .recvBridge s.bridge ∨
        ne = .closeBridge s.bridge) := by
  cases step_inv h with
  | rt | send => exact Or.inl rfl
  | node hallowed hnode => exact Or.inr ⟨_, hnode, Or.inl ⟨rfl, hallowed⟩⟩
  | recv hphase hrecv =>
    exact Or.inr ⟨.recvBridge s.bridge, by simp [Node.step, hrecv], Or.inr (Or.inl rfl)⟩
  | recvNone | sendFailed => exact Or.inr ⟨.closeBridge s.bridge, rfl, Or.inr (Or.inr rfl)⟩

variable {w : Runtime M A} {name target : String} {actor : A} {distributed : DistributedConfig}
  {actorConfig : ActorConfig} {s₀ : Served M A} {es : List (ServedEvent M A)}

/-- The bridge channel of a served actor is registered under its name only. -/
theorem addressed_of_run (target : String)
    (hstart : start w name actor distributed actorConfig = some s₀)
    (hrun : s₀.run codec es = some s) :
    s.node.Addressed codec ∅ target s.target s.bridge ∧ s.target = name ∧ s.bridge = 0 := by
  obtain ⟨-, -, hserve, htarget, hbridge, -⟩ := start_spec hstart
  refine invariant_run (P := fun s => s.node.Addressed codec ∅ target s.target s.bridge ∧
    s.target = name ∧ s.bridge = 0) ?_ ⟨?_, htarget, hbridge⟩ hrun
  · rintro s e s' ⟨ha, hname, hb⟩ hstep
    have hsame : s'.target = s.target ∧ s'.bridge = s.bridge := by
      cases step_inv hstep <;> exact ⟨rfl, rfl⟩
    rw [hsame.1, hsame.2]
    refine ⟨?_, hname, hb⟩
    rcases node_of_step hstep with hnode | ⟨ne, hnode, hne⟩
    · rw [hnode]
      exact ha
    · refine ha.step (fun c _ _ hmem => absurd hmem (Finset.notMem_empty c)) ?_ hnode
      rintro target rfl
      rcases hne with ⟨-, hne⟩ | hne | hne
      · simp [nodeAllowed] at hne
      · cases hne
      · cases hne
  · obtain ⟨-, htable, hch, hnext, htasks⟩ := serve_spec hserve
    have hrunNode := Node.run_serve codec hserve
    rw [htarget, hbridge]
    refine ⟨invariant_run (P := Node.Numbered) (fun hn h => hn.step h) Node.numbered_bind hrunNode,
      ?_, fun c hmem => absurd hmem (Finset.notMem_empty c), ?_, ?_, ?_⟩
    · rw [hnext]
      exact Nat.one_pos
    · rw [htasks]
      intro t ht
      cases ht
    · intro target' hsome
      by_contra hne
      rw [htable, update_of_ne hne] at hsome
      cases hsome
    · rw [hch]
      intro d hd
      cases hd

end Served

namespace Writer

variable {w w' : Writer M} {e : WriterEvent M}

/-- **The write loop** takes each message at most once: it takes none when it gives up. -/
theorem unsent_of_step (fits : M → Bool) (h : w.step e = some w') :
    w'.unsent fits + w.taken fits e + w.sent fits ≤ w.unsent fits + w'.sent fits := by
  by_cases he : e = .connectFailed
  · subst he
    cases step_inv h with
    | connectFailed => simp [taken]
    | giveUp hphase hsenders =>
      refine add_le_add ?_ le_rfl
      have hnone : (w.finish).unsent fits + w.taken fits .connectFailed = 0 := by
        simp [unsent, taken, finish, WriterPhase.message]
      rw [hnone]
      exact Multiset.zero_le _
  · have hsum := sent_of_step fits he h
    refine le_of_eq ?_
    rw [add_comm (w.unsent fits), hsum]
    abel

end Writer

/-! ### The reference and the served actor -/

/-- A remote reference, the served actor at its address, and the connections that its write loop has
opened. -/
structure RemoteServed (M A : Type) where
  served : Served M A
  writer : Writer M
  /-- The configuration of the reference. -/
  config : DistributedConfig
  conns : Finset ConnId

/-- One event of a reference and the served actor at its address. -/
inductive RemoteServedEvent (M A : Type)
  | served (e : ServedEvent M A)
  | send (msg : M)
  | cloneRef
  | dropRef
  | connect
  | connectFailed
  | recv
  | recvNone
  /-- `write_frame` returns; whether the whole frame has got through, and what it returns. -/
  | write (reaches ok : Bool)

namespace RemoteServed

/-- A new reference. -/
def start (served : Served M A) (target : String) (config : DistributedConfig) :
    RemoteServed M A :=
  ⟨served, .withConfig target config, config, ∅⟩

/-- Nobody but the write loop writes on its connections or closes them. -/
def allowed (s : RemoteServed M A) : ServedEvent M A → Bool
  | .node (.arrive c _) | .node (.hangUp c) => c ∉ s.conns
  | _ => true

/-- The frame of a message: its body, if it can be written and is within the limit. -/
def frame (codec : Codec M) (s : RemoteServed M A) (msg : M) : Option (List UInt8) :=
  (codec.encode s.writer.target msg).filter (·.length ≤ s.config.maxFrameBytes)

/-- The node and the write loop go on together. -/
def both (codec : Codec M) (s : RemoteServed M A) (es : List NodeEvent) (we : WriterEvent M) :
    Option (RemoteServed M A) :=
  (s.served.node.run codec es).bind fun node => (s.writer.step we).map fun writer =>
    { s with served := { s.served with node := node }, writer := writer }

/-- `write_frame` on the connection `c`. A stream whose write failed is dropped. -/
def write (codec : Codec M) (s : RemoteServed M A) (c : ConnId) (msg : M) (reaches ok : Bool) :
    Option (RemoteServed M A) :=
  match s.frame codec msg with
  | none => s.both codec [.hangUp c] .writeFailed
  | some body =>
    let arrives : List NodeEvent := if reaches then [.arrive c body] else []
    if ok then s.both codec arrives .written
    else s.both codec (arrives ++ [.hangUp c]) .writeFailed

/-- One event; `none` where it is not enabled. -/
def step (codec : Codec M) (s : RemoteServed M A) :
    RemoteServedEvent M A → Option (RemoteServed M A)
  | .served e =>
    if s.allowed e then (s.served.step codec e).map fun served => { s with served := served }
    else none
  | .send msg => s.both codec [] (.send msg)
  | .cloneRef => s.both codec [] .cloneRef
  | .dropRef => s.both codec [] .dropRef
  | .connect => (s.both codec [.accept] (.connected s.served.node.nextConn)).map fun s' =>
    { s' with conns := insert s.served.node.nextConn s.conns }
  | .connectFailed => s.both codec [] .connectFailed
  | .recv => s.both codec [] .recv
  | .recvNone =>
    match s.writer.phase with
    | .idle c => s.both codec [.hangUp c] .recvNone
    | _ => none
  | .write reaches ok =>
    match s.writer.phase with
    | .writing c msg => s.write codec c msg reaches ok
    | _ => none

/-- Execute a list of events. -/
abbrev run (codec : Codec M) :
    RemoteServed M A → List (RemoteServedEvent M A) → Option (RemoteServed M A) :=
  Transition.run (step codec)

/-- What a step does to the served actor. -/
def toServed (codec : Codec M) (s : RemoteServed M A) : RemoteServedEvent M A →
    List (ServedEvent M A)
  | .served e => [e]
  | .connect => [.node .accept]
  | .recvNone => s.writer.phase.conn.toList.map fun c => .node (.hangUp c)
  | .write reaches ok =>
    match s.writer.phase with
    | .writing c msg =>
      match s.frame codec msg with
      | none => [.node (.hangUp c)]
      | some body => (if reaches then [.node (.arrive c body)] else []) ++
          if ok then [] else [.node (.hangUp c)]
    | _ => []
  | _ => []

/-- What a run does to the served actor. -/
def servedEvents (codec : Codec M) (s : RemoteServed M A) (es : List (RemoteServedEvent M A)) :
    List (ServedEvent M A) :=
  trace (step codec) (fun s e _ => s.toServed codec e) s es

/-- The event of the write loop, where the node has no part in it. -/
def RemoteServedEvent.toWriter : RemoteServedEvent M A → Option (WriterEvent M)
  | .send msg => some (.send msg)
  | .cloneRef => some .cloneRef
  | .dropRef => some .dropRef
  | .connectFailed => some .connectFailed
  | .recv => some .recv
  | _ => none

/-- The ways in which the system steps. -/
inductive Step (codec : Codec M) (s : RemoteServed M A) :
    RemoteServedEvent M A → RemoteServed M A → Prop
  | served {e served} (hallowed : s.allowed e = true)
      (hserved : s.served.step codec e = some served) :
      Step codec s (.served e) { s with served := served }
  | writer {e we w} (he : RemoteServedEvent.toWriter e = some we)
      (hwriter : s.writer.step we = some w) : Step codec s e { s with writer := w }
  | connect {n w} (hnode : s.served.node.step codec .accept = some n)
      (hwriter : s.writer.step (.connected s.served.node.nextConn) = some w) :
      Step codec s .connect
        { s with
          served := { s.served with node := n }
          writer := w
          conns := insert s.served.node.nextConn s.conns }
  | recvNone {c n w} (hphase : s.writer.phase = .idle c)
      (hnode : s.served.node.step codec (.hangUp c) = some n)
      (hwriter : s.writer.step .recvNone = some w) :
      Step codec s .recvNone { s with served := { s.served with node := n }, writer := w }
  /-- The message has no frame within the limit. -/
  | unframed {reaches ok c msg n w} (hphase : s.writer.phase = .writing c msg)
      (hframe : s.frame codec msg = none) (hnode : s.served.node.step codec (.hangUp c) = some n)
      (hwriter : s.writer.step .writeFailed = some w) :
      Step codec s (.write reaches ok) { s with served := { s.served with node := n }, writer := w }
  | write {reaches ok c msg body n₁ n₂ w} (hphase : s.writer.phase = .writing c msg)
      (hframe : s.frame codec msg = some body)
      (harrive : s.served.node.run codec (if reaches then [.arrive c body] else []) = some n₁)
      (hhangUp : n₁.run codec (if ok then [] else [.hangUp c]) = some n₂)
      (hwriter : s.writer.step (if ok then .written else .writeFailed) = some w) :
      Step codec s (.write reaches ok)
        { s with served := { s.served with node := n₂ }, writer := w }

variable {codec : Codec M} {s s' : RemoteServed M A} {e : RemoteServedEvent M A}

theorem both_inv {nes : List NodeEvent} {we : WriterEvent M} (h : s.both codec nes we = some s') :
    ∃ n w, s.served.node.run codec nes = some n ∧ s.writer.step we = some w ∧
      s' = { s with served := { s.served with node := n }, writer := w } := by
  obtain ⟨n, hnode, h⟩ := Option.bind_eq_some_iff.mp h
  obtain ⟨w, hwriter, rfl⟩ := Option.map_eq_some_iff.mp h
  exact ⟨n, w, hnode, hwriter, rfl⟩

/-- **Inversion of a step.** -/
theorem step_inv (h : s.step codec e = some s') : Step codec s e s' := by
  have hlocal {we : WriterEvent M} (he : RemoteServedEvent.toWriter e = some we)
      (h : s.both codec [] we = some s') : Step codec s e s' := by
    obtain ⟨n, w, hnode, hwriter, rfl⟩ := both_inv h
    cases hnode
    exact .writer he hwriter
  cases e with
  | served e =>
    obtain ⟨hallowed, h⟩ := Option.ite_none_right_eq_some.mp h
    obtain ⟨served, hserved, rfl⟩ := Option.map_eq_some_iff.mp h
    exact .served hallowed hserved
  | send msg | cloneRef | dropRef | connectFailed | recv => exact hlocal rfl h
  | connect =>
    obtain ⟨s₁, hboth, rfl⟩ := Option.map_eq_some_iff.mp h
    obtain ⟨n, w, hnode, hwriter, rfl⟩ := both_inv hboth
    exact .connect (run_one.mp hnode) hwriter
  | recvNone =>
    simp only [step] at h
    split at h
    · next c hphase =>
      obtain ⟨n, w, hnode, hwriter, rfl⟩ := both_inv h
      exact .recvNone hphase (run_one.mp hnode) hwriter
    · cases h
  | write reaches ok =>
    simp only [step] at h
    split at h
    · next c msg hphase =>
      unfold write at h
      split at h
      · next hframe =>
        obtain ⟨n, w, hnode, hwriter, rfl⟩ := both_inv h
        exact .unframed hphase hframe (run_one.mp hnode) hwriter
      · next body hframe =>
        cases ok with
        | true =>
          obtain ⟨n, w, hnode, hwriter, rfl⟩ := both_inv h
          exact .write hphase hframe hnode rfl hwriter
        | false =>
          obtain ⟨n, w, hnode, hwriter, rfl⟩ := both_inv h
          obtain ⟨n₁, hn₁, hn₂⟩ := Option.bind_eq_some_iff.mp (run_append.symm.trans hnode)
          exact .write hphase hframe hn₁ hn₂ hwriter
    · cases h

/-- The settings are fixed. -/
theorem settings_of_step (h : s.step codec e = some s') :
    s'.writer.target = s.writer.target ∧ s'.config = s.config ∧
    s'.served.target = s.served.target ∧ s'.served.bridge = s.served.bridge := by
  cases step_inv h with
  | served hallowed hserved =>
    cases Served.step_inv hserved <;> exact ⟨rfl, rfl, rfl, rfl⟩
  | writer he hwriter | connect hnode hwriter | recvNone hphase hnode hwriter
  | unframed hphase hframe hnode hwriter | write hphase hframe harrive hhangUp hwriter =>
    exact ⟨Writer.target_of_step hwriter, rfl, rfl, rfl⟩

/-- The message has a frame within the limit. -/
def fits (codec : Codec M) (s : RemoteServed M A) (msg : M) : Bool := (s.frame codec msg).isSome

/-- The messages whose `send` returned `Ok` and whose frames are within the limit. -/
def sent (codec : Codec M) (s : RemoteServed M A) : Multiset M := s.writer.sent (s.fits codec)

/-- The messages that were sent and not lost on the way to the bridge channel. -/
def kept (codec : Codec M) (s : RemoteServed M A) : Multiset M :=
  s.writer.unsent (s.fits codec) + s.served.node.held codec s.conns s.served.bridge

theorem fits_of_step (h : s.step codec e = some s') : s'.fits codec = s.fits codec := by
  obtain ⟨htarget, hconfig, -⟩ := settings_of_step h
  funext msg
  simp only [fits, frame, htarget, hconfig]

/-- What the system keeps over every run. -/
structure Linked (codec : Codec M) (s : RemoteServed M A) : Prop where
  addressed : s.served.node.Addressed codec s.conns s.writer.target s.served.target s.served.bridge
  conn : ∀ c, s.writer.phase.conn = some c → c ∈ s.conns

/-- What a step of the served actor does to the node: it writes nothing on the connections of the
write loop, and registers the bridge channel under no other target. -/
theorem node_of_served {e : ServedEvent M A} {served : Served M A} (hallowed : s.allowed e = true)
    (h : s.served.step codec e = some served) : served.node = s.served.node ∨
    ∃ ne, s.served.node.step codec ne = some served.node ∧
      (∀ c body, ne = .arrive c body → c ∉ s.conns) ∧
      ∀ target, ne ≠ .register target s.served.bridge := by
  rcases Served.node_of_step h with hsame | ⟨ne, hnode, ⟨rfl, hne⟩ | rfl | rfl⟩
  · exact Or.inl hsame
  · refine Or.inr ⟨ne, hnode, ?_, ?_⟩
    · rintro c body rfl
      simpa [allowed] using hallowed
    · rintro target rfl
      simp [Served.nodeAllowed] at hne
  · exact Or.inr ⟨_, hnode, fun _ _ he => (by cases he), fun _ he => (by cases he)⟩
  · exact Or.inr ⟨_, hnode, fun _ _ he => (by cases he), fun _ he => (by cases he)⟩

/-- A frame of the reference is read as its message. -/
theorem decode_of_frame (hcodec : codec.Lawful) {msg : M} {body : List UInt8}
    (h : s.frame codec msg = some body) : codec.decode body = some (s.writer.target, msg) :=
  hcodec.roundTrip (Option.filter_eq_some_iff.mp h).1

/-- What a write does to the node before the stream is dropped. -/
theorem Linked.arrive (hcodec : codec.Lawful) (hl : s.Linked codec) {reaches : Bool} {c : ConnId}
    {msg : M} {body : List UInt8} {n : Node M} (hphase : s.writer.phase = .writing c msg)
    (hframe : s.frame codec msg = some body)
    (harrive : s.served.node.run codec (if reaches then [.arrive c body] else []) = some n) :
    n.Addressed codec s.conns s.writer.target s.served.target s.served.bridge ∧
      n.held codec s.conns s.served.bridge ≤
        s.served.node.held codec s.conns s.served.bridge + {msg} := by
  have hdec := decode_of_frame hcodec hframe
  cases reaches with
  | false =>
    cases harrive
    exact ⟨hl.addressed, le_add_of_nonneg_right (Multiset.zero_le _)⟩
  | true =>
    have hnode := run_one.mp harrive
    refine ⟨hl.addressed.step (fun c body he _ p hp => ?_) (fun _ he => by cases he) hnode,
      Node.held_arrive_le (hl.conn c (by rw [hphase]; rfl)) hdec hnode⟩
    cases he
    rw [hdec] at hp
    cases hp
    rfl

theorem Linked.step (hcodec : codec.Lawful) (hl : s.Linked codec) (h : s.step codec e = some s') :
    s'.Linked codec := by
  obtain ⟨htarget, -, hname, hbridge⟩ := settings_of_step h
  have hkeep {we : WriterEvent M} {w : Writer M} (hwriter : s.writer.step we = some w)
      (hne : ∀ c, we ≠ .connected c) : ∀ c, w.phase.conn = some c → c ∈ s.conns := by
    intro c hc
    rcases Writer.conn_of_step hwriter hc with hc | he
    · exact hl.conn c hc
    · exact absurd he (hne c)
  have hhangUp {c : ConnId} {n n' : Node M}
      (hn : n.Addressed codec s.conns s.writer.target s.served.target s.served.bridge)
      (hnode : n.step codec (.hangUp c) = some n') :
      n'.Addressed codec s.conns s.writer.target s.served.target s.served.bridge :=
    hn.step (fun _ _ he => by cases he) (fun _ he => by cases he) hnode
  constructor
  · rw [htarget, hname, hbridge]
    cases step_inv h with
    | served hallowed hserved =>
      rcases node_of_served hallowed hserved with hsame | ⟨ne, hnode, harrive, hregister⟩
      · rw [hsame]
        exact hl.addressed
      · exact hl.addressed.step (fun c body he hmem => absurd hmem (harrive c body he))
          (fun target he => absurd he (hregister target)) hnode
    | writer he hwriter => exact hl.addressed
    | connect hnode hwriter => exact (hl.addressed.accept hnode).1
    | recvNone hphase hnode hwriter | unframed hphase hframe hnode hwriter =>
      exact hhangUp hl.addressed hnode
    | @write reaches ok c msg body n₁ n₂ w hphase hframe harrive hhang hwriter =>
      have hn₁ := (hl.arrive hcodec hphase hframe harrive).1
      cases ok with
      | true => cases hhang; exact hn₁
      | false => exact hhangUp hn₁ (run_one.mp hhang)
  · cases step_inv h with
    | served => exact hl.conn
    | writer he hwriter =>
      refine hkeep hwriter fun c hc => ?_
      subst hc
      cases e <;> cases he
    | connect hnode hwriter =>
      intro c hc
      rcases Writer.conn_of_step hwriter hc with hc | he
      · exact Finset.mem_insert_of_mem (hl.conn c hc)
      · cases he
        exact Finset.mem_insert_self _ _
    | recvNone hphase hnode hwriter | unframed hphase hframe hnode hwriter =>
      exact hkeep hwriter nofun
    | @write reaches ok c msg body n₁ n₂ w hphase hframe harrive hhang hwriter =>
      cases ok <;> exact hkeep hwriter nofun

/-- **Nothing is gained**: what is kept grows with what is sent, and with nothing else. -/
theorem Linked.kept_le (hcodec : codec.Lawful) (hl : s.Linked codec)
    (h : s.step codec e = some s') :
    s'.kept codec + s.sent codec ≤ s.kept codec + s'.sent codec := by
  have hfits := fits_of_step h
  -- a step of the write loop, with what it takes on its way to the node
  have hwrites {we : WriterEvent M} {w : Writer M} {held held' : Multiset M}
      (hwriter : s.writer.step we = some w)
      (hheld : held' ≤ held + s.writer.taken (s.fits codec) we) :
      w.unsent (s.fits codec) + held' + s.writer.sent (s.fits codec) ≤
        s.writer.unsent (s.fits codec) + held + w.sent (s.fits codec) := by
    have hle := Writer.unsent_of_step (s.fits codec) hwriter
    calc w.unsent (s.fits codec) + held' + s.writer.sent (s.fits codec)
        ≤ w.unsent (s.fits codec) + (held + s.writer.taken (s.fits codec) we) +
          s.writer.sent (s.fits codec) := add_le_add (add_le_add le_rfl hheld) le_rfl
      _ = w.unsent (s.fits codec) + s.writer.taken (s.fits codec) we +
          s.writer.sent (s.fits codec) + held := by abel
      _ ≤ s.writer.unsent (s.fits codec) + w.sent (s.fits codec) + held := add_le_add hle le_rfl
      _ = _ := by abel
  have hnone {we : WriterEvent M} {held held' : Multiset M} (hheld : held' ≤ held) :
      held' ≤ held + s.writer.taken (s.fits codec) we :=
    hheld.trans (le_add_of_nonneg_right (Multiset.zero_le _))
  have hhangUp {c : ConnId} {n : Node M} (hnode : s.served.node.step codec (.hangUp c) = some n) :
      n.held codec s.conns s.served.bridge ≤ s.served.node.held codec s.conns s.served.bridge :=
    hl.addressed.held_le (fun _ _ he => by cases he) hnode
  simp only [kept, sent, hfits]
  cases step_inv h with
  | served hallowed hserved =>
    refine add_le_add (add_le_add le_rfl ?_) le_rfl
    rw [(settings_of_step h).2.2.2]
    rcases node_of_served hallowed hserved with hsame | ⟨ne, hnode, harrive, -⟩
    · rw [hsame]
    · exact hl.addressed.held_le harrive hnode
  | writer he hwriter => exact hwrites hwriter (hnone le_rfl)
  | connect hnode hwriter => exact hwrites hwriter (hnone (hl.addressed.accept hnode).2.le)
  | recvNone hphase hnode hwriter | unframed hphase hframe hnode hwriter =>
    exact hwrites hwriter (hnone (hhangUp hnode))
  | @write reaches ok c msg body n₁ n₂ w hphase hframe harrive hhang hwriter =>
    obtain ⟨hn₁, hle⟩ := hl.arrive hcodec hphase hframe harrive
    have hfit : s.fits codec msg = true := by rw [fits, hframe]; rfl
    have htaken {we : WriterEvent M} (he : we = .written ∨ we = .writeFailed) :
        s.writer.taken (s.fits codec) we = {msg} := by
      rcases he with rfl | rfl <;>
        simp [Writer.taken, hphase, WriterPhase.message, hfit]
    refine hwrites hwriter ?_
    cases ok with
    | true =>
      cases hhang
      exact hle.trans_eq (congrArg _ (htaken (Or.inl rfl)).symm)
    | false =>
      have hdrop := hn₁.held_le (fun _ _ he => by cases he) (run_one.mp hhang)
      exact (hdrop.trans hle).trans_eq (congrArg _ (htaken (Or.inr rfl)).symm)

/-! ### Whole runs -/

variable {w : Runtime M A} {name target : String} {actor : A}
  {distributed config : DistributedConfig} {actorConfig : ActorConfig} {s₀ s₁ : Served M A}
  {ds : List (ServedEvent M A)} {es : List (RemoteServedEvent M A)}

/-- The served actor runs on what the system does to it. -/
theorem run_servedEvents {r : RemoteServed M A} (h : r.run codec es = some s) :
    r.served.run codec (r.servedEvents codec es) = some s.served := by
  have hnode {s : Served M A} (nes : List NodeEvent) {n : Node M} (hall : ∀ ne ∈ nes,
      (∃ c body, ne = .arrive c body) ∨ (∃ c, ne = .hangUp c) ∨ ne = .accept)
      (h : s.node.run codec nes = some n) :
      s.run codec (nes.map .node) = some { s with node := n } := by
    induction nes generalizing s with
    | nil => cases h; rfl
    | cons ne nes ih =>
      obtain ⟨n₁, hn₁, hrest⟩ := Option.bind_eq_some_iff.mp h
      have hallowed : s.nodeAllowed ne = true := by
        rcases hall ne List.mem_cons_self with ⟨c, body, rfl⟩ | ⟨c, rfl⟩ | rfl <;> rfl
      have hstep : s.step codec (.node ne) = some { s with node := n₁ } := by
        simp only [Served.step, if_pos hallowed, hn₁, Option.map_some]
      rw [List.map_cons, Served.run, run_cons_of_step hstep]
      exact ih (fun ne hne => hall ne (List.mem_cons_of_mem _ hne)) hrest
  have hsim : ∀ {s : RemoteServed M A} {v : Served M A} {e : RemoteServedEvent M A}
      {s' : RemoteServed M A}, s.served = v → s.step codec e = some s' →
        ∃ v', v.run codec (s.toServed codec e) = some v' ∧ s'.served = v' := by
    rintro s _ e s' rfl h
    cases step_inv h with
    | served hallowed hserved => exact ⟨_, run_one.mpr hserved, rfl⟩
    | writer he hwriter =>
      refine ⟨_, ?_, rfl⟩
      cases e <;> first | rfl | cases he
    | connect hstep hwriter =>
      exact ⟨_, hnode [.accept] (by simp) (run_one.mpr hstep), rfl⟩
    | @recvNone c n w hphase hstep hwriter =>
      refine ⟨_, ?_, rfl⟩
      simp only [toServed, hphase]
      exact hnode [.hangUp c] (by simp) (run_one.mpr hstep)
    | @unframed reaches ok c msg n w hphase hframe hstep hwriter =>
      refine ⟨_, ?_, rfl⟩
      simp only [toServed, hphase, hframe]
      exact hnode [.hangUp c] (by simp) (run_one.mpr hstep)
    | @write reaches ok c msg body n₁ n₂ w hphase hframe harrive hhang hwriter =>
      refine ⟨_, ?_, rfl⟩
      have hboth := run_trans harrive hhang
      have hall := hnode (s := s.served) _ (fun ne hne => ?_) hboth
      · simp only [toServed, hphase, hframe]
        cases reaches <;> cases ok <;> exact hall
      · cases reaches <;> cases ok <;> simp at hne <;> aesop
  obtain ⟨v, hrun, rfl⟩ := run_trace (R := fun s v => s.served = v) hsim rfl h
  exact hrun

theorem kept_start : (start s₁ target config).kept codec = 0 := by
  simp [kept, start, Writer.unsent, Writer.withConfig, WriterPhase.message, Chan.new, Node.held,
    Node.onConns, Node.dispatching, Node.handed]

/-- A reference to the served actor, before its first message. -/
theorem linked_start (hstart : Served.start w name actor distributed actorConfig = some s₀)
    (hserved : s₀.run codec ds = some s₁) : (start s₁ target config).Linked codec := by
  obtain ⟨haddressed, -, -⟩ := Served.addressed_of_run target hstart hserved
  exact ⟨haddressed, nofun⟩

/-- **What is kept was sent**, each message at most as often. -/
theorem kept_le_sent (hcodec : codec.Lawful)
    (hstart : Served.start w name actor distributed actorConfig = some s₀)
    (hserved : s₀.run codec ds = some s₁) (hrun : (start s₁ target config).run codec es = some s) :
    s.Linked codec ∧ s.kept codec ≤ s.sent codec := by
  refine run_induction (motive := fun _ s => s.Linked codec ∧ s.kept codec ≤ s.sent codec) ?_ ?_
    hrun
  · refine ⟨linked_start hstart hserved, ?_⟩
    rw [kept_start]
    exact Multiset.zero_le _
  · rintro es s e s' - ⟨hl, hle⟩ hstep
    refine ⟨hl.step hcodec hstep, ?_⟩
    have hgrows := hl.kept_le hcodec hstep
    refine le_of_add_le_add_right (a := s.sent codec) (hgrows.trans ?_)
    rw [add_comm (s'.sent codec)]
    exact add_le_add hle le_rfl

/-- The two targets are fixed. -/
theorem names_of_run (hstart : Served.start w name actor distributed actorConfig = some s₀)
    (hserved : s₀.run codec ds = some s₁) (hrun : (start s₁ target config).run codec es = some s) :
    s.writer.target = target ∧ s.served.target = name := by
  refine invariant_run (P := fun s => s.writer.target = target ∧ s.served.target = name) ?_
    ⟨rfl, (Served.addressed_of_run target hstart hserved).2.1⟩ hrun
  rintro s e s' ⟨htarget, hname⟩ hstep
  obtain ⟨htarget', -, hname', -⟩ := settings_of_step hstep
  exact ⟨htarget'.trans htarget, hname'.trans hname⟩

/-- What was handed to the bridge channel was kept. -/
theorem handed_le_kept : Node.handed s.conns s.served.history ≤ s.kept codec := by
  rw [kept, Node.held, ← add_assoc]
  exact le_add_of_nonneg_left (Multiset.zero_le _)

/-- What the actor takes over a run of the whole system. -/
theorem taken_of_run (hw : w.Reachable)
    (hstart : Served.start w name actor distributed actorConfig = some s₀)
    (hserved : s₀.run codec ds = some s₁) (hrun : (start s₁ target config).run codec es = some s) :
    ∃ taken rest lost, s.served.history = taken ++ rest ++ lost ∧
      s₀.rt.envelopes s₀.actor
          (s₀.rtEvents codec (ds ++ (start s₁ target config).servedEvents codec es)) =
        taken.map (Delivery.envelope A) ∧
      (s.served.mailbox.isOpen = true → lost = [] ∧ rest.map (Delivery.envelope A) =
        s.served.mailbox.queue ++ s.served.backlog.map (Delivery.envelope A)) :=
  Served.taken_of_run hw hstart (run_trans hserved (run_servedEvents hrun))

/-- **The actor takes each message of a reference at most once.** Whatever is lost on the way, and
whatever the process, the node and the other peers do: the actor takes the messages that have
entered its bridge channel, in order, and among those that came from the reference each one at most
as often as it was sent. It takes none of them if the reference names another target. -/
theorem taken_at_most_once (hcodec : codec.Lawful) (hw : w.Reachable)
    (hstart : Served.start w name actor distributed actorConfig = some s₀)
    (hserved : s₀.run codec ds = some s₁) (hrun : (start s₁ target config).run codec es = some s) :
    ∃ taken rest, s.served.history = taken ++ rest ∧
      s₀.rt.envelopes s₀.actor
          (s₀.rtEvents codec (ds ++ (start s₁ target config).servedEvents codec es)) =
        taken.map (Delivery.envelope A) ∧
      Node.handed s.conns taken ≤ if target = name then s.sent codec else 0 := by
  obtain ⟨taken, rest, lost, hsplit, htaken, -⟩ := taken_of_run hw hstart hserved hrun
  obtain ⟨hl, hkept⟩ := kept_le_sent hcodec hstart hserved hrun
  obtain ⟨htarget, hname⟩ := names_of_run hstart hserved hrun
  have hhistory : s.served.history = taken ++ (rest ++ lost) := by
    rw [hsplit, List.append_assoc]
  refine ⟨taken, rest ++ lost, hhistory, htaken, ?_⟩
  split_ifs with heq
  · have hle : Node.handed s.conns taken ≤ Node.handed s.conns s.served.history := by
      rw [hhistory, Node.handed_append]
      exact le_add_of_nonneg_right (Multiset.zero_le _)
    exact (hle.trans handed_le_kept).trans hkept
  · refine (Node.handed_eq_zero fun d hd hmem => heq ?_).le
    rw [← htarget, ← hname]
    have hd' : d ∈ s.served.history := by
      rw [hhistory]
      exact List.mem_append_left _ hd
    exact hl.addressed.routed d hd' hmem

/-- The reference connects, and its message is written. -/
def writes (ok : Bool) : List (RemoteServedEvent ℕ Unit) :=
  [.connect, .send 1, .recv, .write true ok]

/-- The message is read, dispatched, relayed and taken. -/
def delivers : List (RemoteServedEvent ℕ Unit) :=
  (Served.dispatches 0 ++ Served.takes).map .served

/-- A write that fails after the frame has got through: the actor takes the message, once. -/
theorem taken_once : ∃ s : RemoteServed ℕ Unit,
    (start Served.serving "t" .default).run Node.numberCodec (writes false ++ delivers) = some s ∧
    s.sent Node.numberCodec = {1} ∧
    ∃ taken rest, s.served.history = taken ++ rest ∧ Node.handed s.conns taken ≤ {1} := by
  have hsome : ((start Served.serving "t" .default).run Node.numberCodec
    (writes false ++ delivers)).isSome := rfl
  have hrun := (Option.some_get hsome).symm
  obtain ⟨taken, rest, hsplit, -, hle⟩ :=
    taken_at_most_once Node.numberCodec_lawful ⟨[], rfl⟩ Served.start_serving
      (run_nil _ Served.serving) hrun
  exact ⟨_, hrun, rfl, taken, rest, hsplit, hle⟩

end RemoteServed

end LaneSwitchboards
