import LaneSwitchboards.Lib.Trace
import LaneSwitchboards.Remote.Order
import Mathlib.Data.List.Perm.Basic

/-!
# What becomes of a frame

`handle_conn` numbers the frames of its connection as it dispatches them. Each dispatch task ends
in one of three ways: its target has no entry in the table, the bridge channel that it found is
closed, or its message enters that channel. Over every run of a node, the frames that were
received are those of the tasks that are still there and those of the tasks that have ended, each
frame once; and what the bridge channels have taken are the messages of the latter, each in a
channel that was registered under the target of its frame: `accounted`.

A task keeps its permit while it awaits room in its bridge channel, so that one actor that does not
take its messages can hold up all targets of the node: `head_of_line`.
-/

namespace LaneSwitchboards

open Function Transition

variable {M : Type}

/-- What becomes of a dispatched frame. -/
inductive Fate
  /-- Its target has no entry in the dispatch table. -/
  | unregistered
  /-- The bridge channel is closed. -/
  | closed (b : BridgeId)
  /-- Its message has entered the bridge channel. -/
  | handed (b : BridgeId)
deriving DecidableEq

/-- The connection of a frame and its number there. -/
def Dispatch.key (t : Dispatch M) : ConnId × ℕ := (t.conn, t.seq)

/-- The message of a frame, as it enters a bridge channel. -/
def Dispatch.delivery (t : Dispatch M) : Delivery M := ⟨t.conn, t.seq, t.msg⟩

namespace Node

/-- The frames that the peer of `c` has written. -/
def written (c : ConnId) (es : List NodeEvent) : List (List UInt8) :=
  es.filterMap fun
    | .arrive c' body => if c' = c then some body else none
    | _ => none

/-- How many frames of `c` were dispatched. -/
def received (n : Node M) (c : ConnId) : ℕ := ((n.conns c).map Conn.received).getD 0

/-- The dispatch task that ends with an event, and what has become of its frame. -/
def ends (n : Node M) : NodeEvent → List (Dispatch M × Fate)
  | .lookup k => (n.tasks[k]?.filter fun t => n.table t.target = none).toList.map
      fun t => (t, .unregistered)
  | .send k => n.tasks[k]?.toList.filterMap fun t =>
      match t.phase with
      | .send b => some (t, if (n.bridges b).isOpen then .handed b else .closed b)
      | .lookup => none
  | _ => []

/-- The dispatch tasks that end in a run, in this order. -/
def ended (codec : Codec M) (n : Node M) (es : List NodeEvent) : List (Dispatch M × Fate) :=
  trace (step codec) (fun n e _ => n.ends e) n es

/-- What a dispatch task has put into the bridge channel `b`. -/
def handedTo (b : BridgeId) (p : Dispatch M × Fate) : Option (Delivery M) :=
  if p.2 = .handed b then some p.1.delivery else none

/-- The task has the frame of its number among those that were written. -/
def HasFrame (codec : Codec M) (config : DistributedConfig) (frames : List (List UInt8))
    (t : Dispatch M) : Prop :=
  ∃ body, frames[t.seq]? = some body ∧ Readable codec config body ∧
    codec.decode body = some (t.target, t.msg)

/-- The frames that were dispatched, the ended ones last. -/
def dispatched (n : Node M) (l : List (Dispatch M × Fate)) : List (Dispatch M) :=
  n.tasks ++ l.map Prod.fst

/-- **The frames of a node are accounted for**, where `l` lists the tasks that have ended. -/
structure Accounted (codec : Codec M) (config : DistributedConfig) (es : List NodeEvent)
    (n : Node M) (l : List (Dispatch M × Fate)) : Prop where
  /-- No frame is dispatched twice. -/
  nodup : ((n.dispatched l).map Dispatch.key).Nodup
  /-- Each frame that was received is dispatched, and no other. -/
  mem_keys : ∀ c k, (c, k) ∈ (n.dispatched l).map Dispatch.key ↔ k < n.received c
  frames : ∀ t ∈ n.dispatched l, HasFrame codec config (written t.conn es) t
  /-- Nothing else enters a bridge channel. -/
  handed : ∀ b, (n.bridges b).accepted = l.filterMap (handedTo b)
  named : ∀ p ∈ l, ∀ b, p.2 = .handed b → .register p.1.target b ∈ es

variable {codec : Codec M} {config : DistributedConfig} {n n' : Node M} {e : NodeEvent}
  {es : List NodeEvent} {c : ConnId}

theorem written_concat (c : ConnId) (es : List NodeEvent) (e : NodeEvent) :
    written c (es ++ [e]) = written c es ++ written c [e] :=
  List.filterMap_append

theorem written_one_of_ne (h : ∀ body, e ≠ .arrive c body) : written c [e] = [] := by
  cases e with
  | arrive c' body =>
    have hne : c' ≠ c := by
      rintro rfl
      exact h body rfl
    simp [written, hne]
  | _ => rfl

theorem HasFrame.mono {frames frames' : List (List UInt8)} {t : Dispatch M}
    (h : HasFrame codec config frames t) : HasFrame codec config (frames ++ frames') t := by
  obtain ⟨body, hbody, hrest⟩ := h
  have hlt := (List.getElem?_eq_some_iff.mp hbody).1
  exact ⟨body, by rw [List.getElem?_append_left hlt, hbody], hrest⟩

/-- The loop of a connection has read the frames that were written there in order: those that are
not received yet are with the loop and on the wire. -/
def Reads (codec : Codec M) (config : DistributedConfig) (frames : List (List UInt8))
    (conn : Conn M) : Prop :=
  conn.received ≤ frames.length ∧
  match conn.phase with
  | .header => frames.drop conn.received = conn.wire
  | .body body => frames.drop conn.received = body :: conn.wire ∧ body.length ≠ 0 ∧
      body.length ≤ config.maxFrameBytes
  | .permit target msg => ∃ body, frames.drop conn.received = body :: conn.wire ∧
      Readable codec config body ∧ codec.decode body = some (target, msg)
  | .closed => True

/-- The peer writes a frame. -/
theorem Reads.arrive {frames : List (List UInt8)} {conn : Conn M} {body : List UInt8}
    (h : Reads codec config frames conn) :
    Reads codec config (frames ++ [body]) { conn with wire := conn.wire ++ [body] } := by
  obtain ⟨hle, hphase⟩ := h
  refine ⟨by simp only [List.length_append]; omega, ?_⟩
  have hdrop : (frames ++ [body]).drop conn.received = frames.drop conn.received ++ [body] :=
    List.drop_append_of_le_length hle
  cases hp : conn.phase with
  | header => simp_all
  | body frame => simp_all
  | permit target msg =>
    simp only [hp] at hphase ⊢
    obtain ⟨frame, hframe, hrest⟩ := hphase
    exact ⟨frame, by rw [hdrop, hframe]; rfl, hrest⟩
  | closed => trivial

/-- The loop reads. -/
theorem Reads.read {frames : List (List UInt8)} {conn conn' : Conn M} {r : ReadChoice}
    (h : Reads codec config frames conn) (hread : conn.read config codec r = some conn') :
    Reads codec config frames conn' := by
  obtain ⟨hle, hphase⟩ := h
  refine ⟨(received_read hread).trans_le hle, ?_⟩
  unfold Conn.read at hread
  split at hread
  · next hp =>
    simp only [hp] at hphase
    split at hread
    · cases hread
    · next body rest hwire =>
      split_ifs at hread with hlen
      · cases hread
        trivial
      · cases hread
        push Not at hlen
        exact ⟨by rw [hphase, hwire], hlen⟩
  · split_ifs at hread
    cases hread
    trivial
  · next body hp =>
    simp only [hp] at hphase
    split at hread
    · cases hread
      trivial
    · next target msg hdec =>
      cases hread
      exact ⟨body, hphase.1, ⟨hphase.2.1, hphase.2.2, by rw [hdec]; rfl⟩, hdec⟩
  · cases hread
    trivial
  · cases hread
    trivial
  · cases hread

/-- The loop dispatches the frame that it has read. -/
theorem Reads.acquire {frames : List (List UInt8)} {conn : Conn M} {target : String} {msg : M}
    (h : Reads codec config frames conn) (hphase : conn.phase = .permit target msg) :
    HasFrame codec config frames ⟨c, conn.received, target, msg, .lookup⟩ ∧
      Reads codec config frames { conn with phase := .header, received := conn.received + 1 } := by
  obtain ⟨-, h⟩ := h
  simp only [hphase] at h
  obtain ⟨body, hdrop, hreadable, hdec⟩ := h
  have hbody : frames[conn.received]? = some body := by
    rw [← List.head?_drop, hdrop]
    rfl
  refine ⟨⟨body, hbody, hreadable, hdec⟩, (List.getElem?_eq_some_iff.mp hbody).1, ?_⟩
  rw [← List.drop_drop, hdrop]
  rfl

/-! ### One step -/

/-- Replacing a connection by one with as many received frames. -/
theorem received_setConn {old new : Conn M} (hc : n.conns c = some old)
    (hsame : new.received = old.received) (c' : ConnId) :
    (n.setConn c new).received c' = n.received c' := by
  by_cases hcc : c' = c
  · subst hcc
    simp [received, setConn, hc, hsame]
  · simp [received, setConn, update_of_ne hcc]

/-- A send on the bridge channel has to wait. -/
def Full (n : Node M) (b : BridgeId) : Prop := (n.bridges b).isFull = true

/-- What a step does to the dispatch tasks. -/
inductive TaskMove (n : Node M) (e : NodeEvent) (n' : Node M) : Prop
  | keep (hends : n.ends e = []) (htasks : n'.tasks = n.tasks)
      (hreceived : ∀ c, n'.received c = n.received c)
  | found {k t b} (ht : n.tasks[k]? = some t) (hphase : t.phase = .lookup)
      (htable : n.table t.target = some b) (hends : n.ends e = [])
      (htasks : n'.tasks = n.tasks.set k { t with phase := .send b })
      (hreceived : ∀ c, n'.received c = n.received c)
  | spawn {c conn target msg} (hc : n.conns c = some conn)
      (hphase : conn.phase = .permit target msg) (hpermit : n.tasks.length < n.permits)
      (hends : n.ends e = [])
      (htasks : n'.tasks = n.tasks ++ [⟨c, conn.received, target, msg, .lookup⟩])
      (hreceived : ∀ c', n'.received c' = if c' = c then conn.received + 1 else n.received c')
  | finish {k t f} (ht : n.tasks[k]? = some t) (hends : n.ends e = [(t, f)])
      (htasks : n'.tasks = n.tasks.eraseIdx k) (hreceived : ∀ c, n'.received c = n.received c)
      (hphase : ∀ b, f = .handed b → t.phase = .send b)
      (hfree : ∀ b, t.phase = .send b → ¬ n.Full b)

theorem taskMove_of_step (hfresh : ∀ c, n.nextConn ≤ c → n.conns c = none)
    (h : n.step codec e = some n') : TaskMove n e n' := by
  cases step_inv h with
  | accept =>
    refine .keep rfl rfl fun c => ?_
    by_cases hc : c = n.nextConn
    · subst hc
      simp [received, setConn, hfresh _ le_rfl, Conn.new]
    · simp [received, setConn, update_of_ne hc]
  | arrive hc heof hopen => exact .keep rfl rfl (received_setConn hc rfl)
  | hangUp hc => exact .keep rfl rfl (received_setConn hc rfl)
  | read hc hread => exact .keep rfl rfl (received_setConn hc (received_read hread))
  | @acquire c conn target msg hc hphase hpermit =>
    refine .spawn hc hphase hpermit rfl rfl fun c' => ?_
    by_cases hcc : c' = c
    · subst hcc
      simp [received, setConn]
    · simp [received, setConn, hcc]
  | found ht hphase htable =>
    refine .found ht hphase htable ?_ rfl fun c => rfl
    simp [ends, ht, htable]
  | missing ht hphase htable =>
    refine .finish (f := .unregistered) ht ?_ rfl (fun c => rfl) (fun b hb => by cases hb)
      fun b hb => ?_
    · simp [ends, ht, htable]
    · rw [hphase] at hb
      cases hb
  | @send k t b ch ht hphase hsend =>
    refine .finish (f := if (n.bridges b).isOpen then .handed b else .closed b) ht ?_ rfl
      (fun c => rfl) (fun b' hb' => ?_) fun b' hb' hfull => ?_
    · simp [ends, ht, hphase]
    · split_ifs at hb' with hopen
      cases hb'
      exact hphase
    · obtain rfl : b' = b := by simpa [hphase] using hb'.symm
      rw [Chan.send_eq_none.mpr hfull] at hsend
      cases hsend
  | _ => exact .keep rfl rfl fun c => rfl

/-- What the bridge channels take. -/
theorem handed_of_step (hunopened : ∀ b, n.nextBridge ≤ b → (n.bridges b).accepted = [])
    (h : n.step codec e = some n') (b : BridgeId) :
    (n'.bridges b).accepted = (n.bridges b).accepted ++ (n.ends e).filterMap (handedTo b) := by
  cases step_inv h with
  | missing ht hphase htable => simp [ends, ht, handedTo]
  | found ht hphase htable => simp [ends, ht, htable]
  | @send k t b' ch ht hphase hsend =>
    rcases Chan.send_eq_some.mp hsend with ⟨hroom, rfl⟩ | ⟨hclosed, rfl⟩
    · by_cases hb : b = b'
      · subst hb
        simp [ends, ht, hphase, Chan.isOpen_of_hasRoom hroom, handedTo, setBridge,
          Dispatch.delivery]
      · simp [ends, ht, hphase, Chan.isOpen_of_hasRoom hroom, handedTo, setBridge,
          update_of_ne hb, Ne.symm hb]
    · rw [accepted_setBridge rfl]
      simp [ends, ht, hphase, hclosed, handedTo]
  | openBridge =>
    by_cases hb : b = n.nextBridge
    · subst hb
      simp [setBridge, Chan.new, ends, hunopened _ le_rfl]
    · simp [setBridge, update_of_ne hb, ends]
  | recvBridge hrecv => simp [accepted_setBridge (Chan.accepted_recv hrecv), ends]
  | closeBridge => simp [accepted_setBridge Chan.accepted_close, ends]
  | _ => exact (List.append_nil _).symm

/-- What the loops of the connections have read. A connection that has not been accepted has nothing
on it. -/
def LoopsRead (codec : Codec M) (config : DistributedConfig) (es : List NodeEvent) (n : Node M) :
    Prop :=
  ∀ c, match n.conns c with
    | none => written c es = []
    | some conn => Reads codec config (written c es) conn

theorem LoopsRead.conn (hl : LoopsRead codec config es n) {conn : Conn M}
    (hc : n.conns c = some conn) : Reads codec config (written c es) conn := by
  have h := hl c
  rwa [hc] at h

/-- A step that writes on the connection `c` only, if at all. -/
theorem LoopsRead.update (hl : LoopsRead codec config es n) {conn : Conn M}
    (hother : ∀ c', c' ≠ c → written c' [e] = [])
    (hconn : Reads codec config (written c (es ++ [e])) conn)
    (hc : n'.conns c = some conn) (hconns : ∀ c', c' ≠ c → n'.conns c' = n.conns c') :
    LoopsRead codec config (es ++ [e]) n' := by
  intro c'
  by_cases hcc : c' = c
  · subst hcc
    rw [hc]
    exact hconn
  · rw [hconns c' hcc, written_concat, hother c' hcc, List.append_nil]
    exact hl c'

/-- **The loops read on**, whatever the node does. -/
theorem LoopsRead.step (hl : LoopsRead codec config es n) (hconfig : n.config = config)
    (hfresh : ∀ c, n.nextConn ≤ c → n.conns c = none) (h : n.step codec e = some n') :
    LoopsRead codec config (es ++ [e]) n' := by
  -- a step that writes nothing and replaces the connection `c`
  have hset {c : ConnId} {old new : Conn M} (hc : n.conns c = some old)
      (hquiet : ∀ c body, e ≠ .arrive c body)
      (hnew : Reads codec config (written c es) new) (hn' : n'.conns = (n.setConn c new).conns) :
      LoopsRead codec config (es ++ [e]) n' := by
    rw [← List.append_nil (written c es), ← written_one_of_ne (hquiet c), ← written_concat] at hnew
    refine hl.update (fun c' _ => written_one_of_ne (hquiet c')) hnew ?_ ?_
    · simp [hn', setConn]
    · intro c' hne
      simp [hn', setConn, update_of_ne hne]
  have hsame (hquiet : ∀ c body, e ≠ .arrive c body) (hn' : n'.conns = n.conns) :
      LoopsRead codec config (es ++ [e]) n' := by
    intro c
    rw [hn', written_concat, written_one_of_ne (hquiet c), List.append_nil]
    exact hl c
  have hwritten {c : ConnId} {body : List UInt8} (he : e = .arrive c body) :
      written c [e] = [body] ∧ ∀ c', c' ≠ c → written c' [e] = [] := by
    subst he
    refine ⟨by simp [written], fun c' hne => written_one_of_ne fun body' he => ?_⟩
    cases he
    exact hne rfl
  cases step_inv h with
  | accept =>
    have hnone := hl n.nextConn
    rw [hfresh _ le_rfl] at hnone
    have hnew : Reads codec config (written n.nextConn (es ++ [.accept])) .new := by
      rw [written_concat, hnone]
      exact ⟨Nat.zero_le _, rfl⟩
    refine hl.update (fun c' _ => written_one_of_ne fun _ he => by cases he) hnew ?_ ?_
    · simp [setConn]
    · intro c' hne
      simp [setConn, update_of_ne hne]
  | arrive hc heof hopen =>
    obtain ⟨hone, hother⟩ := hwritten rfl
    refine hl.update hother ?_ (Function.update_self ..) fun c' hne => ?_
    · rw [written_concat, hone]
      exact (hl.conn hc).arrive
    · simp [setConn, update_of_ne hne]
  | arriveClosed hc heof hclosed =>
    obtain ⟨-, hother⟩ := hwritten rfl
    refine hl.update hother ?_ hc fun c' _ => rfl
    obtain ⟨hle, -⟩ := hl.conn hc
    refine ⟨?_, by rw [hclosed]; trivial⟩
    rw [written_concat, List.length_append]
    exact hle.trans (Nat.le_add_right ..)
  | @hangUp c conn hc =>
    have hreads := hl.conn hc
    have hnew : Reads codec config (written c es) { conn with eof := true } := hreads
    exact hset hc (fun _ _ he => by cases he) hnew rfl
  | read hc hread =>
    exact hset hc (fun _ _ he => by cases he) ((hl.conn hc).read (hconfig ▸ hread)) rfl
  | acquire hc hphase hpermit =>
    exact hset hc (fun _ _ he => by cases he) ((hl.conn hc).acquire (c := 0) hphase).2 rfl
  | _ => exact hsame (fun _ _ he => by cases he) rfl

/-- The table names registered channels only. -/
structure Registered (es : List NodeEvent) (n : Node M) : Prop where
  unopened : ∀ b, n.nextBridge ≤ b → (n.bridges b).accepted = []
  table : ∀ target b, n.table target = some b → b < n.nextBridge ∧ .register target b ∈ es
  tasks : ∀ t ∈ n.tasks, ∀ b, t.phase = .send b → b < n.nextBridge ∧ .register t.target b ∈ es

theorem Registered.step (hr : n.Registered es) (h : n.step codec e = some n') :
    n'.Registered (es ++ [e]) := by
  have hold {target : String} {b : BridgeId} (hmem : .register target b ∈ es) :
      .register target b ∈ es ++ [e] := List.mem_append_left _ hmem
  have htable (target : String) (b : BridgeId) (hb : n.table target = some b) :
      b < n.nextBridge ∧ .register target b ∈ es ++ [e] :=
    (hr.table target b hb).imp_right hold
  have htasks (t : Dispatch M) (ht : t ∈ n.tasks) (b : BridgeId) (hb : t.phase = .send b) :
      b < n.nextBridge ∧ .register t.target b ∈ es ++ [e] :=
    (hr.tasks t ht b hb).imp_right hold
  have hset {b' : BridgeId} {ch : Chan (Delivery M)} (hb' : b' < n.nextBridge) (b : BridgeId)
      (hb : n.nextBridge ≤ b) : ((n.setBridge b' ch).bridges b).accepted = [] := by
    simpa [setBridge, update_of_ne (hb'.trans_le hb).ne'] using hr.unopened b hb
  cases step_inv h with
  | acquire hc hphase hpermit =>
    refine ⟨hr.unopened, htable, fun t ht => ?_⟩
    rcases List.mem_append.mp ht with ht | ht
    · exact htasks t ht
    · obtain rfl := List.mem_singleton.mp ht
      exact fun b hb => by cases hb
  | found ht hphase hfound =>
    refine ⟨hr.unopened, htable, fun t ht' b hb => ?_⟩
    rcases List.mem_or_eq_of_mem_set ht' with ht' | rfl
    · exact htasks t ht' b hb
    · cases hb
      exact htable _ _ hfound
  | missing =>
    exact ⟨hr.unopened, htable, fun t ht => htasks t (List.mem_of_mem_eraseIdx ht)⟩
  | send ht hphase hsend =>
    refine ⟨hset (hr.tasks _ (List.mem_of_getElem? ht) _ hphase).1, htable, fun t ht' => ?_⟩
    exact htasks t (List.mem_of_mem_eraseIdx ht')
  | openBridge =>
    refine ⟨fun b hb => ?_, fun target b hb => ?_, fun t ht b hb => ?_⟩
    · have hlt : n.nextBridge < b := hb
      simpa [setBridge, update_of_ne hlt.ne'] using hr.unopened b hlt.le
    · exact (htable target b hb).imp_left Nat.lt_succ_of_lt
    · exact (htasks t ht b hb).imp_left Nat.lt_succ_of_lt
  | @register target' b' hb' =>
    refine ⟨hr.unopened, fun target b hb => ?_, htasks⟩
    by_cases hT : target = target'
    · subst hT
      simp only [update_self, Option.some.injEq] at hb
      subst hb
      exact ⟨hb', by simp⟩
    · simp only [update_of_ne hT] at hb
      exact htable target b hb
  | @unregister target' =>
    refine ⟨hr.unopened, fun target b hb => ?_, htasks⟩
    by_cases hT : target = target'
    · subst hT
      simp at hb
    · simp only [update_of_ne hT] at hb
      exact htable target b hb
  | recvBridge hrecv =>
    refine ⟨fun b hb => ?_, htable, htasks⟩
    rw [accepted_setBridge (Chan.accepted_recv hrecv)]
    exact hr.unopened b hb
  | closeBridge =>
    refine ⟨fun b hb => ?_, htable, htasks⟩
    rw [accepted_setBridge Chan.accepted_close]
    exact hr.unopened b hb
  | _ => exact ⟨hr.unopened, htable, htasks⟩

variable {l : List (Dispatch M × Fate)}

/-- **Every step accounts for the frames.** -/
theorem Accounted.step (ha : Accounted codec config es n l) (hl : LoopsRead codec config es n)
    (hr : n.Registered es) (hfresh : ∀ c, n.nextConn ≤ c → n.conns c = none)
    (h : n.step codec e = some n') : Accounted codec config (es ++ [e]) n' (l ++ n.ends e) := by
  have hframe {t : Dispatch M} (ht : HasFrame codec config (written t.conn es) t) :
      HasFrame codec config (written t.conn (es ++ [e])) t := by
    rw [written_concat]
    exact ht.mono
  have hhanded (b : BridgeId) :
      (n'.bridges b).accepted = (l ++ n.ends e).filterMap (handedTo b) := by
    rw [List.filterMap_append, handed_of_step hr.unopened h, ha.handed]
  have hnamed (hends : ∀ p ∈ n.ends e, ∀ b, p.2 = .handed b → .register p.1.target b ∈ es) :
      ∀ p ∈ l ++ n.ends e, ∀ b, p.2 = .handed b → .register p.1.target b ∈ es ++ [e] := by
    intro p hp b hb
    refine List.mem_append_left _ ?_
    rcases List.mem_append.mp hp with hp | hp
    · exact ha.named p hp b hb
    · exact hends p hp b hb
  cases taskMove_of_step hfresh h with
  | keep hends htasks hreceived =>
    have hsame : n'.dispatched (l ++ n.ends e) = n.dispatched l := by
      rw [dispatched, dispatched, hends, htasks, List.append_nil]
    refine ⟨?_, ?_, ?_, hhanded, hnamed (by simp [hends])⟩
    · rw [hsame]
      exact ha.nodup
    · simpa only [hsame, hreceived] using ha.mem_keys
    · rw [hsame]
      exact fun t ht => hframe (ha.frames t ht)
  | @found k t b ht hphase htable hends htasks hreceived =>
    have hkeys : (n'.dispatched (l ++ n.ends e)).map Dispatch.key =
        (n.dispatched l).map Dispatch.key := by
      obtain ⟨hk, rfl⟩ := List.getElem?_eq_some_iff.mp ht
      have hset : (n.tasks.map Dispatch.key).set k n.tasks[k].key = n.tasks.map Dispatch.key := by
        rw [← List.map_set, List.set_getElem_self]
      rw [dispatched, dispatched, hends, htasks, List.append_nil, List.map_append, List.map_append,
        List.map_set]
      exact congrArg (· ++ _) hset
    refine ⟨?_, ?_, fun t' ht' => ?_, hhanded, hnamed (by simp [hends])⟩
    · rw [hkeys]
      exact ha.nodup
    · simpa only [hkeys, hreceived] using ha.mem_keys
    · rw [dispatched, hends, htasks, List.append_nil] at ht'
      rcases List.mem_append.mp ht' with ht' | ht'
      · rcases List.mem_or_eq_of_mem_set ht' with ht' | rfl
        · exact hframe (ha.frames t' (List.mem_append_left _ ht'))
        · exact hframe (ha.frames t (List.mem_append_left _ (List.mem_of_getElem? ht)))
      · exact hframe (ha.frames t' (List.mem_append_right _ ht'))
  | @spawn c conn target msg hc hphase hpermit hends htasks hreceived =>
    have hperm : (n'.dispatched (l ++ n.ends e)).Perm
        (⟨c, conn.received, target, msg, .lookup⟩ :: n.dispatched l) := by
      rw [dispatched, hends, htasks, List.append_nil, List.append_assoc]
      exact List.perm_middle
    have hcount : n.received c = conn.received := by
      rw [received, hc]
      rfl
    have hkeys := hperm.map Dispatch.key
    refine ⟨?_, fun c' k => ?_, fun t ht => ?_, hhanded, hnamed (by simp [hends])⟩
    · refine hkeys.nodup_iff.mpr (List.nodup_cons.mpr ⟨fun hmem => ?_, ha.nodup⟩)
      exact absurd ((ha.mem_keys c conn.received).mp hmem) (by omega)
    · rw [hkeys.mem_iff, List.map_cons, List.mem_cons, ha.mem_keys, hreceived]
      simp only [Dispatch.key, Prod.mk.injEq]
      split_ifs with hcc
      · subst hcc
        simp only [true_and, hcount]
        omega
      · simp [hcc]
    · rcases List.mem_cons.mp (hperm.mem_iff.mp ht) with rfl | ht
      · exact hframe ((hl.conn hc).acquire hphase).1
      · exact hframe (ha.frames t ht)
  | @finish k t f ht hends htasks hreceived hphase hfree =>
    have hmem := List.mem_of_getElem? ht
    have hperm : (n'.dispatched (l ++ n.ends e)).Perm (n.dispatched l) := by
      obtain ⟨hk, rfl⟩ := List.getElem?_eq_some_iff.mp ht
      have htask := List.getElem_cons_eraseIdx_perm hk
      rw [dispatched, dispatched, hends, htasks, List.map_append, ← List.append_assoc]
      exact (List.perm_append_singleton _ _).trans (htask.append_right _)
    refine ⟨?_, ?_, ?_, hhanded, hnamed ?_⟩
    · exact (hperm.map Dispatch.key).nodup_iff.mpr ha.nodup
    · intro c k
      rw [(hperm.map Dispatch.key).mem_iff, hreceived]
      exact ha.mem_keys c k
    · exact fun t ht => hframe (ha.frames t (hperm.mem_iff.mp ht))
    · rw [hends]
      rintro p hp b hb
      obtain rfl := List.mem_singleton.mp hp
      exact (hr.tasks t hmem b (hphase b hb)).2

/-- What a node keeps about its connections, its table and its permits. -/
structure Sane (es : List NodeEvent) (n : Node M) : Prop where
  fresh : ∀ c, n.nextConn ≤ c → n.conns c = none
  registered : n.Registered es
  length_le : n.tasks.length ≤ n.permits

theorem sane_bind : (bind config : Node M).Sane [] :=
  ⟨fun _ _ => rfl, ⟨fun _ _ => rfl, nofun, nofun⟩, Nat.zero_le _⟩

theorem permits_of_step (h : n.step codec e = some n') : n'.permits = n.permits := by
  rw [permits, permits, config_of_step h]

theorem Sane.step (hs : n.Sane es) (h : n.step codec e = some n') : n'.Sane (es ++ [e]) := by
  refine ⟨fresh_of_step hs.fresh h, hs.registered.step h, ?_⟩
  rw [permits_of_step h]
  rcases length_tasks_of_step h with hle | ⟨hlt, heq⟩
  · exact hle.trans hs.length_le
  · rw [heq]
    exact hlt

theorem Sane.run {fs : List NodeEvent} (hs : n.Sane es) (h : n.run codec fs = some n') :
    n'.Sane (es ++ fs) := by
  refine run_induction (motive := fun fs n' => n'.Sane (es ++ fs)) ?_ ?_ h
  · rwa [List.append_nil]
  · intro fs n' e n'' _ hs hstep
    rw [← List.append_assoc]
    exact hs.step hstep

/-- **Every frame is accounted for.** Over every run of a node, with any peers, any targets that are
registered and unregistered, and any scheduling of its dispatch tasks: the frames that were
received on a connection are those of the tasks that are still there and of the tasks that have
ended, each frame once; each task has the target and the message of its frame, as it was written;
the bridge channels have taken the messages of the ended tasks and nothing else, in the order in
which these ended; and a message enters only a channel that was registered under its target. -/
theorem accounted (hrun : (bind config).run codec es = some n) :
    Accounted codec config es n (ended codec (bind config) es) := by
  refine (run_induction (motive := fun es n => n.config = config ∧
    LoopsRead codec config es n ∧ Accounted codec config es n (ended codec (bind config) es))
    ?_ ?_ hrun).2.2
  · refine ⟨rfl, fun c => rfl, List.nodup_nil, fun c k => ?_, nofun, fun b => rfl, nofun⟩
    simp [dispatched, bind, ended, received]
  · rintro es n e n' hrun ⟨hconfig, hl, ha⟩ hstep
    have hs := sane_bind.run hrun
    refine ⟨(config_of_step hstep).trans hconfig, hl.step hconfig hs.fresh hstep, ?_⟩
    rw [ended, trace_concat hrun hstep]
    exact ha.step hl hs.registered hs.fresh hstep

/-- The target of the second frame has been unregistered by the time of its lookup. -/
def unregisteredLater : List NodeEvent :=
  [.openBridge 32, .register "t" 0, .accept, .arrive 0 (numberFrame 1),
    .arrive 0 (numberFrame 2)] ++ receive ++ [.lookup 0, .send 0, .unregister "t"] ++ receive ++
    [.lookup 0]

/-- The first of two frames is handed to the channel of its target, and the second one is lost. -/
theorem accounted_two : ∃ n : Node ℕ,
    (bind .default).run numberCodec unregisteredLater = some n ∧
    ended numberCodec (bind .default) unregisteredLater =
      [(⟨0, 0, "t", 1, .send 0⟩, .handed 0), (⟨0, 1, "t", 2, .lookup⟩, .unregistered)] ∧
    Accounted numberCodec .default unregisteredLater n
      [(⟨0, 0, "t", 1, .send 0⟩, .handed 0), (⟨0, 1, "t", 2, .lookup⟩, .unregistered)] :=
  ⟨_, rfl, rfl, accounted rfl⟩

/-! ### Permits -/

/-- All permits are with tasks that await room in a bridge channel. -/
structure HeldUp (n : Node M) : Prop where
  permits : n.permits ≤ n.tasks.length
  tasks : ∀ t ∈ n.tasks, ∃ b, t.phase = .send b ∧ n.Full b

/-- Nobody receives from a full bridge channel, or closes it. -/
def Quiet (n : Node M) (fs : List NodeEvent) : Prop :=
  ∀ e ∈ fs, ∀ b, n.Full b → e ≠ .recvBridge b ∧ e ≠ .closeBridge b

/-- The tasks of the node `n₀` still wait, and nothing else was dispatched or handed over. -/
structure Waiting (n₀ n : Node M) : Prop where
  tasks : n.tasks = n₀.tasks
  permits : n.permits = n₀.permits
  received : ∀ c, n.received c = n₀.received c
  accepted : ∀ b, (n.bridges b).accepted = (n₀.bridges b).accepted
  full : ∀ t ∈ n.tasks, ∃ b, t.phase = .send b ∧ n₀.Full b ∧ n.Full b

variable {n₀ : Node M}

theorem Waiting.step (hw : Waiting n₀ n) (hheld : n₀.HeldUp) (hs : n.Sane es)
    (hquiet : ∀ b, n₀.Full b → e ≠ .recvBridge b ∧ e ≠ .closeBridge b)
    (h : n.step codec e = some n') : Waiting n₀ n' := by
  cases taskMove_of_step hs.fresh h with
  | keep hends htasks hreceived =>
    refine ⟨htasks.trans hw.tasks, (permits_of_step h).trans hw.permits,
      fun c => (hreceived c).trans (hw.received c), fun b => ?_, ?_⟩
    · rw [handed_of_step hs.registered.unopened h b, hends, hw.accepted]
      exact List.append_nil _
    · rw [htasks]
      intro t ht
      obtain ⟨b, hphase, hfull₀, hfull⟩ := hw.full t ht
      refine ⟨b, hphase, hfull₀, ?_⟩
      obtain ⟨hrecv, hclose⟩ := hquiet b hfull₀
      have hlt := (hs.registered.tasks t ht b hphase).1
      rcases bridges_of_step hlt hrecv hclose h with hsame | ⟨d, hsend⟩
      · rw [Full, hsame]
        exact hfull
      · rw [Chan.send_eq_none.mpr hfull] at hsend
        cases hsend
  | found ht hphase =>
    obtain ⟨b, hsend, -⟩ := hw.full _ (List.mem_of_getElem? ht)
    rw [hphase] at hsend
    cases hsend
  | spawn hc hphase hpermit =>
    have hle := hheld.permits
    rw [hw.tasks, hw.permits] at hpermit
    exact absurd hpermit (not_lt.mpr hle)
  | finish ht hends htasks hreceived hphase hfree =>
    obtain ⟨b, hsend, -, hfull⟩ := hw.full _ (List.mem_of_getElem? ht)
    exact absurd hfull (hfree b hsend)

theorem Waiting.run {fs : List NodeEvent} (hheld : n.HeldUp) (hs : n.Sane es)
    (hquiet : n.Quiet fs) (h : n.run codec fs = some n') : Waiting n n' := by
  refine run_induction (motive := fun fs n' => n.Quiet fs → Waiting n n') ?_ ?_ h hquiet
  · refine fun _ => ⟨rfl, rfl, fun _ => rfl, fun _ => rfl, fun t ht => ?_⟩
    obtain ⟨b, hphase, hfull⟩ := hheld.tasks t ht
    exact ⟨b, hphase, hfull, hfull⟩
  · intro fs n' e n'' hrun ih hstep hquiet
    exact (ih fun e he => hquiet e (List.mem_append_left _ he)).step hheld (hs.run hrun)
      (hquiet e (by simp)) hstep

/-- With a permit left, a frame that waits for one is dispatched. -/
theorem acquires (codec : Codec M) {conn : Conn M} {target : String} {msg : M}
    (hc : n.conns c = some conn) (hphase : conn.phase = .permit target msg)
    (hlt : n.tasks.length < n.permits) :
    ∃ n', n.step codec (.acquire c) = some n' ∧ n.received c < n'.received c := by
  let n' := n.setConn c { conn with phase := .header, received := conn.received + 1 }
  refine ⟨{ n' with tasks := n'.tasks ++ [⟨c, conn.received, target, msg, .lookup⟩] }, ?_, ?_⟩
  · simp only [step, acquire, hc, Option.bind_some, hphase, if_pos hlt]
    rfl
  · simp [received, setConn, hc, n']

/-- **Head-of-line blocking.** While all permits are with tasks that await room in full bridge
channels, no frame of any connection is dispatched and no message enters any channel, for whatever
target, until the receiver of a full channel goes on. Otherwise a frame that waits for a permit can
be dispatched without that. -/
theorem head_of_line (hrun : (bind config).run codec es = some n) :
    (n.HeldUp → ∀ fs n', n.Quiet fs → n.run codec fs = some n' →
      (∀ c, n'.received c = n.received c) ∧
      ∀ b, (n'.bridges b).accepted = (n.bridges b).accepted) ∧
    (¬ n.HeldUp → ∀ c conn target msg, n.conns c = some conn →
      conn.phase = .permit target msg →
      ∃ fs n', n.Quiet fs ∧ n.run codec fs = some n' ∧ n.received c < n'.received c) := by
  have hs := sane_bind.run hrun
  constructor
  · intro hheld fs n' hquiet hfs
    have hwaiting := Waiting.run hheld hs hquiet hfs
    exact ⟨hwaiting.received, hwaiting.accepted⟩
  · intro hheld c conn target msg hc hphase
    by_cases hlt : n.tasks.length < n.permits
    · obtain ⟨n', hstep, hreceived⟩ := acquires codec hc hphase hlt
      exact ⟨[.acquire c], n', by simp [Quiet], run_one.mpr hstep, hreceived⟩
    -- a task that can end leaves its permit
    have hends {k : ℕ} (n₁ : Node M) (hk : k < n.tasks.length)
        (htasks : n₁.tasks = n.tasks.eraseIdx k) (hconns : n₁.conns = n.conns)
        (hpermits : n₁.permits = n.permits) :
        ∃ n', n₁.step codec (.acquire c) = some n' ∧ n.received c < n'.received c := by
      have hroom : n₁.tasks.length < n₁.permits := by
        have hle := hs.length_le
        rw [htasks, hpermits, List.length_eraseIdx_of_lt hk]
        omega
      have hsame : n₁.received c = n.received c := by rw [received, received, hconns]
      rw [← hsame]
      exact acquires codec (hconns ▸ hc) hphase hroom
    have hfree : ∃ t ∈ n.tasks, ∀ b, t.phase = .send b → ¬ n.Full b := by
      by_contra hall
      push Not at hall
      exact hheld ⟨not_lt.mp hlt, hall⟩
    obtain ⟨t, ht, hfree⟩ := hfree
    obtain ⟨k, hk, hkt⟩ := List.mem_iff_getElem.mp ht
    have ht' : n.tasks[k]? = some t := List.getElem?_eq_some_iff.mpr ⟨hk, hkt⟩
    cases hphase' : t.phase with
    | lookup =>
      obtain ⟨n', hstep, hreceived⟩ := hends { n with
        table := update n.table t.target none, tasks := n.tasks.eraseIdx k } hk rfl rfl rfl
      refine ⟨[.unregister t.target, .lookup k, .acquire c], n', by simp [Quiet], ?_, hreceived⟩
      simpa [step, lookup, ht', hphase'] using hstep
    | send b =>
      cases hsend : (n.bridges b).send ⟨t.conn, t.seq, t.msg⟩ with
      | none => exact absurd (Chan.send_eq_none.mp hsend) (hfree b hphase')
      | some ch =>
        obtain ⟨n', hstep, hreceived⟩ := hends { n.setBridge b ch with
          tasks := n.tasks.eraseIdx k } hk rfl rfl rfl
        refine ⟨[.send k, .acquire c], n', by simp [Quiet], ?_, hreceived⟩
        simpa [step, send, ht', hphase', hsend] using hstep

/-- Three frames for a bridge channel with room for one message, on a node with one permit: the
second message waits for room, and the third frame for the permit. -/
def overloaded : List NodeEvent :=
  [.openBridge 1, .register "t" 0, .accept, .arrive 0 (numberFrame 1), .arrive 0 (numberFrame 2),
    .arrive 0 (numberFrame 1)] ++ receive ++ [.lookup 0, .send 0] ++ receive ++
    [.lookup 0, .read 0 .header, .read 0 .body]

/-- An overloaded node dispatches nothing until its actor goes on. -/
theorem overloaded_waits : ∃ n : Node ℕ,
    (bind ⟨1, 1, 4194304, 32⟩).run numberCodec overloaded = some n ∧
    ∀ fs n', n.Quiet fs → n.run numberCodec fs = some n' →
      (∀ c, n'.received c = n.received c) ∧
      ∀ b, (n'.bridges b).accepted = (n.bridges b).accepted := by
  have hsome : ((bind ⟨1, 1, 4194304, 32⟩).run numberCodec overloaded).isSome := rfl
  have hrun := (Option.some_get hsome).symm
  refine ⟨_, hrun, (head_of_line hrun).1 ⟨Nat.le_refl 1, fun t ht => ?_⟩⟩
  obtain rfl := List.mem_singleton.mp ht
  exact ⟨0, rfl, rfl⟩

end Node

end LaneSwitchboards
