import LaneSwitchboards.Lib.Chan
import LaneSwitchboards.Lib.Transition

/-!
# A TCP node

A `Node` with its connections: one `handle_conn` loop for each, which reads frames, waits for a
permit and spawns a dispatch task; and the dispatch tasks, each of which looks up the target in
the table, awaits room in the bridge channel it found and gives its permit back. Frames are
whole: what a peer has written and the loop has not read stands on the `wire`. A read may time
out at any time, since a frame may be on its way for as long as it likes.

Each frame received on a connection has a number there, which its message keeps until it enters
a bridge channel. `step_inv` is the inversion of a step.
-/

namespace LaneSwitchboards

open Function

/-- Configuration of the distributed layer. -/
structure DistributedConfig where
  bridgeCapacity : ℕ
  /-- Max in-flight frame dispatches per node. -/
  maxInFlight : ℕ
  /-- Reject frames larger than this. -/
  maxFrameBytes : ℕ
  /-- Outbound queue depth of a remote reference. -/
  remoteSendCapacity : ℕ
deriving DecidableEq

/-- The default configuration. -/
def DistributedConfig.default : DistributedConfig := ⟨32, 32, 4 * 1024 * 1024, 32⟩

/-- How a message and its target are written as a frame body, and a body is read. -/
structure Codec (M : Type) where
  encode : String → M → Option (List UInt8)
  decode : List UInt8 → Option (String × M)

abbrev ConnId := ℕ

abbrev BridgeId := ℕ

/-- Where a `handle_conn` loop is. -/
inductive ConnPhase (M : Type)
  /-- Reading a length. -/
  | header
  /-- Reading the body. -/
  | body (frame : List UInt8)
  /-- Awaiting a permit. -/
  | permit (target : String) (msg : M)
  /-- The loop has returned and dropped its stream. -/
  | closed
deriving DecidableEq

/-- A connection. -/
structure Conn (M : Type) where
  /-- The frame bodies that the peer has written and the loop has not begun to read. -/
  wire : List (List UInt8)
  /-- The peer has closed its side. -/
  eof : Bool
  phase : ConnPhase M
  /-- How many frames were received. -/
  received : ℕ
deriving DecidableEq

/-- Where a dispatch task is. -/
inductive DispatchPhase
  | lookup
  | send (bridge : BridgeId)
deriving DecidableEq

/-- A dispatch task, with the connection and the number of its frame. -/
structure Dispatch (M : Type) where
  conn : ConnId
  seq : ℕ
  target : String
  msg : M
  phase : DispatchPhase
deriving DecidableEq

/-- A message in a bridge channel. -/
structure Delivery (M : Type) where
  conn : ConnId
  seq : ℕ
  msg : M
deriving DecidableEq

/-- A node with its connections, its dispatch tasks and the bridge channels. -/
structure Node (M : Type) where
  config : DistributedConfig
  conns : ConnId → Option (Conn M)
  nextConn : ConnId
  tasks : List (Dispatch M)
  /-- The dispatch table. -/
  table : String → Option BridgeId
  bridges : BridgeId → Chan (Delivery M)
  nextBridge : BridgeId

/-- One step of a `handle_conn` loop before it spawns. -/
inductive ReadChoice
  | header
  /-- End of the stream at a frame boundary. -/
  | eof
  | body
  | timeout

/-- One event of a node. -/
inductive NodeEvent
  | accept
  /-- The peer writes a frame. -/
  | arrive (c : ConnId) (body : List UInt8)
  /-- The peer closes its side. -/
  | hangUp (c : ConnId)
  | read (c : ConnId) (r : ReadChoice)
  /-- The loop gets a permit and spawns a dispatch task. -/
  | acquire (c : ConnId)
  /-- A dispatch task looks up its target. -/
  | lookup (k : ℕ)
  /-- A dispatch task completes its send. -/
  | send (k : ℕ)
  | openBridge (capacity : ℕ)
  | register (target : String) (b : BridgeId)
  | unregister (target : String)
  | recvBridge (b : BridgeId)
  | closeBridge (b : BridgeId)

variable {M : Type}

/-- A fresh connection. -/
def Conn.new : Conn M := ⟨[], false, .header, 0⟩

/-- The loop returns; what is on the wire is lost. -/
def Conn.close (conn : Conn M) : Conn M := { conn with wire := [], phase := .closed }

/-- The reads of `handle_conn`. An empty frame ends the loop like the end of the stream does; a
frame that is too large or does not decode ends it with an error. -/
def Conn.read (config : DistributedConfig) (codec : Codec M) (conn : Conn M) (r : ReadChoice) :
    Option (Conn M) :=
  match r, conn.phase with
  | .header, .header =>
    match conn.wire with
    | [] => none
    | body :: rest =>
      if body.length = 0 ∨ config.maxFrameBytes < body.length then some conn.close
      else some { conn with wire := rest, phase := .body body }
  | .eof, .header => if conn.wire = [] ∧ conn.eof = true then some conn.close else none
  | .body, .body frame =>
    match codec.decode frame with
    | none => some conn.close
    | some (target, msg) => some { conn with phase := .permit target msg }
  | .timeout, .header | .timeout, .body _ => some conn.close
  | _, _ => none

namespace Node

/-- A node that has just been bound. -/
def bind (config : DistributedConfig) : Node M :=
  ⟨config, fun _ => none, 0, [], fun _ => none, fun _ => .absent, 0⟩

/-- `bind_on_runtime` with a listener: it panics where the semaphore cannot have its permits. -/
def bindOnRuntime (config : DistributedConfig) : Option (Node M) :=
  if Chan.maxPermits < max 1 config.maxInFlight then none else some (bind config)

/-- The permits of the semaphore of a node that `bindOnRuntime` has bound. -/
def permits (n : Node M) : ℕ := max 1 n.config.maxInFlight

/-- Replace a connection. -/
def setConn (n : Node M) (c : ConnId) (conn : Conn M) : Node M :=
  { n with conns := update n.conns c (some conn) }

/-- Replace a bridge channel. -/
def setBridge (n : Node M) (b : BridgeId) (ch : Chan (Delivery M)) : Node M :=
  { n with bridges := update n.bridges b ch }

/-- The peer writes a frame. On a connection that the node has closed it is lost. -/
def arrive (n : Node M) (c : ConnId) (body : List UInt8) : Option (Node M) :=
  (n.conns c).bind fun conn =>
    if conn.eof = true then none
    else if conn.phase matches .closed then some n
    else some (n.setConn c { conn with wire := conn.wire ++ [body] })

/-- The loop of `c` gets a permit and spawns a dispatch task. -/
def acquire (n : Node M) (c : ConnId) : Option (Node M) :=
  (n.conns c).bind fun conn =>
    match conn.phase with
    | .permit target msg =>
      if n.tasks.length < n.permits then
        let n := n.setConn c { conn with phase := .header, received := conn.received + 1 }
        some { n with tasks := n.tasks ++ [⟨c, conn.received, target, msg, .lookup⟩] }
      else none
    | _ => none

/-- The lookup of a dispatch task. Without an entry for the target the task ends. -/
def lookup (n : Node M) (k : ℕ) : Option (Node M) :=
  n.tasks[k]?.bind fun t =>
    if t.phase = .lookup then
      match n.table t.target with
      | some b => some { n with tasks := n.tasks.set k { t with phase := .send b } }
      | none => some { n with tasks := n.tasks.eraseIdx k }
    else none

/-- The send of a dispatch task, which ends with it. -/
def send (n : Node M) (k : ℕ) : Option (Node M) :=
  n.tasks[k]?.bind fun t =>
    match t.phase with
    | .send b => ((n.bridges b).send ⟨t.conn, t.seq, t.msg⟩).map fun ch =>
      { n.setBridge b ch with tasks := n.tasks.eraseIdx k }
    | .lookup => none

/-- One event of a node; `none` where it is not enabled. -/
def step (codec : Codec M) (n : Node M) : NodeEvent → Option (Node M)
  | .accept => some { n.setConn n.nextConn .new with nextConn := n.nextConn + 1 }
  | .arrive c body => n.arrive c body
  | .hangUp c => (n.conns c).map fun conn => n.setConn c { conn with eof := true }
  | .read c r => (n.conns c).bind fun conn => (conn.read n.config codec r).map (n.setConn c)
  | .acquire c => n.acquire c
  | .lookup k => n.lookup k
  | .send k => n.send k
  | .openBridge capacity =>
    if ¬ Chan.Fits capacity then none else
    some { n.setBridge n.nextBridge (.new capacity) with nextBridge := n.nextBridge + 1 }
  | .register target b =>
    if b < n.nextBridge then some { n with table := update n.table target (some b) } else none
  | .unregister target => some { n with table := update n.table target none }
  | .recvBridge b => (n.bridges b).recv.map fun (_, ch) => n.setBridge b ch
  | .closeBridge b => some (n.setBridge b (n.bridges b).close)

/-- Execute a list of events. -/
abbrev run (codec : Codec M) : Node M → List NodeEvent → Option (Node M) :=
  Transition.run (step codec)

/-- Reached from a node that has just been bound. -/
def Reachable (codec : Codec M) (config : DistributedConfig) (n : Node M) : Prop :=
  ∃ es, (bind config).run codec es = some n

/-- The target is registered, and its bridge channel is open. -/
structure Serves (n : Node M) (target : String) (b : BridgeId) : Prop where
  table : n.table target = some b
  isOpen : (n.bridges b).isOpen = true
  lt : b < n.nextBridge

/-! ### Splitting a step -/

/-- The ways in which a node steps. -/
inductive Step (codec : Codec M) (n : Node M) : NodeEvent → Node M → Prop
  | accept : Step codec n .accept { n.setConn n.nextConn .new with nextConn := n.nextConn + 1 }
  | arrive {c body conn} (hc : n.conns c = some conn) (heof : conn.eof = false)
      (hopen : conn.phase ≠ .closed) :
      Step codec n (.arrive c body) (n.setConn c { conn with wire := conn.wire ++ [body] })
  | arriveClosed {c body conn} (hc : n.conns c = some conn) (heof : conn.eof = false)
      (hclosed : conn.phase = .closed) : Step codec n (.arrive c body) n
  | hangUp {c conn} (hc : n.conns c = some conn) :
      Step codec n (.hangUp c) (n.setConn c { conn with eof := true })
  | read {c r conn conn'} (hc : n.conns c = some conn)
      (hread : conn.read n.config codec r = some conn') :
      Step codec n (.read c r) (n.setConn c conn')
  | acquire {c conn target msg} (hc : n.conns c = some conn)
      (hphase : conn.phase = .permit target msg) (hpermit : n.tasks.length < n.permits) :
      Step codec n (.acquire c)
        { n.setConn c { conn with phase := .header, received := conn.received + 1 } with
          tasks := n.tasks ++ [⟨c, conn.received, target, msg, .lookup⟩] }
  | found {k t b} (ht : n.tasks[k]? = some t) (hphase : t.phase = .lookup)
      (htable : n.table t.target = some b) :
      Step codec n (.lookup k) { n with tasks := n.tasks.set k { t with phase := .send b } }
  | missing {k t} (ht : n.tasks[k]? = some t) (hphase : t.phase = .lookup)
      (htable : n.table t.target = none) :
      Step codec n (.lookup k) { n with tasks := n.tasks.eraseIdx k }
  | send {k t b ch} (ht : n.tasks[k]? = some t) (hphase : t.phase = .send b)
      (hsend : (n.bridges b).send ⟨t.conn, t.seq, t.msg⟩ = some ch) :
      Step codec n (.send k) { n.setBridge b ch with tasks := n.tasks.eraseIdx k }
  | openBridge {capacity} (hcapacity : Chan.Fits capacity) : Step codec n (.openBridge capacity)
      { n.setBridge n.nextBridge (.new capacity) with nextBridge := n.nextBridge + 1 }
  | register {target b} (hb : b < n.nextBridge) :
      Step codec n (.register target b) { n with table := update n.table target (some b) }
  | unregister {target} :
      Step codec n (.unregister target) { n with table := update n.table target none }
  | recvBridge {b d ch} (hrecv : (n.bridges b).recv = some (d, ch)) :
      Step codec n (.recvBridge b) (n.setBridge b ch)
  | closeBridge {b} : Step codec n (.closeBridge b) (n.setBridge b (n.bridges b).close)

variable {codec : Codec M} {n n' : Node M} {e : NodeEvent}

/-- **Inversion of a step.** -/
theorem step_inv (h : n.step codec e = some n') : Step codec n e n' := by
  cases e with
  | accept => cases h; exact .accept
  | arrive c body =>
    obtain ⟨conn, hc, h⟩ := Option.bind_eq_some_iff.mp h
    split_ifs at h with heof hclosed
    · cases h
      exact .arriveClosed hc (by simpa using heof) (by revert hclosed; cases conn.phase <;> simp)
    · cases h
      refine .arrive hc (by simpa using heof) fun hphase => hclosed ?_
      rw [hphase]
  | hangUp c =>
    obtain ⟨conn, hc, rfl⟩ := Option.map_eq_some_iff.mp h
    exact .hangUp hc
  | read c r =>
    obtain ⟨conn, hc, h⟩ := Option.bind_eq_some_iff.mp h
    obtain ⟨conn', hread, rfl⟩ := Option.map_eq_some_iff.mp h
    exact .read hc hread
  | acquire c =>
    obtain ⟨conn, hc, h⟩ := Option.bind_eq_some_iff.mp h
    split at h
    · next target msg hphase =>
      split_ifs at h with hpermit
      cases h
      exact .acquire hc hphase hpermit
    · cases h
  | lookup k =>
    obtain ⟨t, ht, h⟩ := Option.bind_eq_some_iff.mp h
    split_ifs at h with hphase
    split at h
    · next b htable =>
      cases h
      exact .found ht hphase htable
    · next htable =>
      cases h
      exact .missing ht hphase htable
  | send k =>
    obtain ⟨t, ht, h⟩ := Option.bind_eq_some_iff.mp h
    split at h
    · next b hphase =>
      obtain ⟨ch, hsend, rfl⟩ := Option.map_eq_some_iff.mp h
      exact .send ht hphase hsend
    · cases h
  | openBridge capacity =>
    obtain ⟨hcapacity, h⟩ := Option.ite_none_left_eq_some.mp h
    cases h
    exact .openBridge (not_not.mp hcapacity)
  | register target b =>
    obtain ⟨hb, h⟩ := Option.ite_none_right_eq_some.mp h
    cases h
    exact .register hb
  | unregister target => cases h; exact .unregister
  | recvBridge b =>
    obtain ⟨⟨d, ch⟩, hrecv, rfl⟩ := Option.map_eq_some_iff.mp h
    exact .recvBridge hrecv
  | closeBridge b => cases h; exact .closeBridge

/-! ### What a step changes -/

theorem config_of_step (h : n.step codec e = some n') : n'.config = n.config := by
  cases step_inv h <;> rfl

/-- The reads of a loop do not count as received frames. -/
theorem received_read {config : DistributedConfig} {conn conn' : Conn M} {r : ReadChoice}
    (h : conn.read config codec r = some conn') : conn'.received = conn.received := by
  unfold Conn.read at h
  split at h
  · split at h
    · cases h
    · split_ifs at h <;> cases h <;> rfl
  · split_ifs at h
    cases h
    rfl
  · split at h <;> cases h <;> rfl
  · cases h
    rfl
  · cases h
    rfl
  · cases h

/-- A connection stays, and the count of its frames grows. -/
theorem conns_of_step (hfresh : ∀ c, n.nextConn ≤ c → n.conns c = none)
    (h : n.step codec e = some n') {c : ConnId} {conn : Conn M} (hc : n.conns c = some conn) :
    ∃ conn', n'.conns c = some conn' ∧ conn.received ≤ conn'.received ∧
      (e = .acquire c → conn'.received = conn.received + 1) := by
  -- a step that replaces the connection `c'`
  have hset {c' : ConnId} {old new : Conn M} (hc' : n.conns c' = some old)
      (hrec : old.received ≤ new.received ∧
        (e = .acquire c' → new.received = old.received + 1))
      (hne : c ≠ c' → e ≠ .acquire c) :
      ∃ conn', (n.setConn c' new).conns c = some conn' ∧ conn.received ≤ conn'.received ∧
        (e = .acquire c → conn'.received = conn.received + 1) := by
    by_cases hcc : c = c'
    · subst hcc
      obtain rfl : conn = old := Option.some.inj (hc.symm.trans hc')
      exact ⟨new, by simp [setConn], hrec⟩
    · exact ⟨conn, by simp [setConn, update_of_ne hcc, hc], le_rfl, fun he => absurd he (hne hcc)⟩
  cases step_inv h with
  | accept =>
    have hlt : c ≠ n.nextConn := by
      rintro rfl
      rw [hfresh _ le_rfl] at hc
      cases hc
    exact ⟨conn, by simp [setConn, update_of_ne hlt, hc], le_rfl, fun he => by cases he⟩
  | arrive hc' heof hopen => exact hset hc' ⟨le_rfl, fun he => by cases he⟩ fun _ => nofun
  | hangUp hc' => exact hset hc' ⟨le_rfl, fun he => by cases he⟩ fun _ => nofun
  | read hc' hread =>
    exact hset hc' ⟨(received_read hread).ge, fun he => by cases he⟩ fun _ => nofun
  | @acquire c' conn' target msg hc' hphase hpermit =>
    refine hset hc' ⟨Nat.le_succ _, fun _ => rfl⟩ fun hne he => hne ?_
    cases he
    rfl
  | _ => exact ⟨conn, hc, le_rfl, fun he => by cases he⟩

/-- A task was there before the step, with the same frame, or is the one that was spawned. -/
theorem tasks_of_step (h : n.step codec e = some n') {t' : Dispatch M} (ht' : t' ∈ n'.tasks) :
    (∃ t ∈ n.tasks, t'.conn = t.conn ∧ t'.seq = t.seq ∧ t'.target = t.target ∧ t'.msg = t.msg) ∨
    ∃ c conn target msg, e = .acquire c ∧ n.conns c = some conn ∧
      conn.phase = .permit target msg ∧ n.tasks.length < n.permits ∧
      n'.tasks = n.tasks ++ [t'] ∧ t' = ⟨c, conn.received, target, msg, .lookup⟩ := by
  have hsame {t : Dispatch M} (ht : t ∈ n.tasks) : ∃ s ∈ n.tasks,
      t.conn = s.conn ∧ t.seq = s.seq ∧ t.target = s.target ∧ t.msg = s.msg :=
    ⟨t, ht, rfl, rfl, rfl, rfl⟩
  cases step_inv h with
  | @acquire c conn target msg hc hphase hpermit =>
    rcases List.mem_append.mp ht' with ht' | ht'
    · exact Or.inl (hsame ht')
    · obtain rfl := List.mem_singleton.mp ht'
      exact Or.inr ⟨c, conn, target, msg, rfl, hc, hphase, hpermit, rfl, rfl⟩
  | found ht hphase htable =>
    rcases List.mem_or_eq_of_mem_set ht' with ht' | rfl
    · exact Or.inl (hsame ht')
    · exact Or.inl ⟨_, List.mem_of_getElem? ht, rfl, rfl, rfl, rfl⟩
  | missing | send => exact Or.inl (hsame (List.mem_of_mem_eraseIdx ht'))
  | _ => exact Or.inl (hsame ht')

/-- A bridge channel that is replaced by one of the same history. -/
theorem accepted_setBridge {b b' : BridgeId} {ch : Chan (Delivery M)}
    (hch : ch.accepted = (n.bridges b').accepted) :
    ((n.setBridge b' ch).bridges b).accepted = (n.bridges b).accepted := by
  by_cases hb : b = b'
  · subst hb
    simpa [setBridge] using hch
  · simp [setBridge, update_of_ne hb]

/-- A bridge channel keeps its history, is opened, or takes the message of a task that ends. -/
theorem accepted_of_step (h : n.step codec e = some n') (b : BridgeId) :
    (n'.bridges b).accepted = (n.bridges b).accepted ∨ (n'.bridges b).accepted = [] ∨
    ∃ k t, e = .send k ∧ n.tasks[k]? = some t ∧ n'.tasks = n.tasks.eraseIdx k ∧
      (n'.bridges b).accepted = (n.bridges b).accepted ++ [⟨t.conn, t.seq, t.msg⟩] := by
  cases step_inv h with
  | @send k t b' ch ht hphase hsend =>
    rcases Chan.send_eq_some.mp hsend with ⟨-, rfl⟩ | ⟨-, rfl⟩
    · by_cases hb : b = b'
      · subst hb
        exact Or.inr (Or.inr ⟨k, t, rfl, ht, rfl, by simp [setBridge]⟩)
      · exact Or.inl (by simp [setBridge, update_of_ne hb])
    · exact Or.inl (accepted_setBridge rfl)
  | openBridge =>
    by_cases hb : b = n.nextBridge
    · subst hb
      exact Or.inr (Or.inl (by simp [setBridge, Chan.new]))
    · exact Or.inl (by simp [setBridge, update_of_ne hb])
  | recvBridge hrecv => exact Or.inl (accepted_setBridge (Chan.accepted_recv hrecv))
  | closeBridge => exact Or.inl (accepted_setBridge rfl)
  | _ => exact Or.inl rfl

/-- Tasks end, or one is spawned with a permit that was left. -/
theorem length_tasks_of_step (h : n.step codec e = some n') :
    n'.tasks.length ≤ n.tasks.length ∨
      n.tasks.length < n.permits ∧ n'.tasks.length = n.tasks.length + 1 := by
  cases step_inv h with
  | acquire hc hphase hpermit => exact Or.inr ⟨hpermit, by simp⟩
  | found => exact Or.inl (by simp)
  | missing | send => exact Or.inl (List.length_eraseIdx_le ..)
  | _ => exact Or.inl le_rfl

/-- The numbers of connections are not used twice. -/
theorem fresh_of_step (hfresh : ∀ c, n.nextConn ≤ c → n.conns c = none)
    (h : n.step codec e = some n') : ∀ c, n'.nextConn ≤ c → n'.conns c = none := by
  have hset {c' : ConnId} {old new : Conn M} (hc' : n.conns c' = some old) (c : ConnId)
      (hc : n.nextConn ≤ c) : (n.setConn c' new).conns c = none := by
    have hne : c ≠ c' := by
      rintro rfl
      rw [hfresh c hc] at hc'
      cases hc'
    simpa [setConn, update_of_ne hne] using hfresh c hc
  cases step_inv h with
  | accept =>
    intro c hc
    have hne : c ≠ n.nextConn := (Nat.lt_of_succ_le hc).ne'
    simpa [setConn, update_of_ne hne] using hfresh c (Nat.le_of_succ_le hc)
  | arrive hc' heof hopen => exact hset hc'
  | hangUp hc' => exact hset hc'
  | read hc' hread => exact hset hc'
  | acquire hc' hphase hpermit => exact hset hc'
  | _ => exact hfresh

/-- The bridge channel `b` takes a message or stays as it is, where nobody receives from it, closes
it or opens it. -/
theorem bridges_of_step {b : BridgeId} (hb : b < n.nextBridge) (hrecv : e ≠ .recvBridge b)
    (hclose : e ≠ .closeBridge b) (h : n.step codec e = some n') :
    n'.bridges b = n.bridges b ∨ ∃ d, (n.bridges b).send d = some (n'.bridges b) := by
  have hother {b' : BridgeId} {ch : Chan (Delivery M)} (hne : b ≠ b') :
      (n.setBridge b' ch).bridges b = n.bridges b := by
    simp [setBridge, update_of_ne hne]
  cases step_inv h with
  | @send k t b' ch ht hphase hsend =>
    by_cases hbb : b = b'
    · subst hbb
      exact Or.inr ⟨_, by simpa [setBridge] using hsend⟩
    · exact Or.inl (hother hbb)
  | openBridge hcapacity => exact Or.inl (hother hb.ne)
  | @recvBridge b' d ch hqueue =>
    refine Or.inl (hother fun hbb => hrecv ?_)
    rw [hbb]
  | @closeBridge b' =>
    refine Or.inl (hother fun hbb => hclose ?_)
    rw [hbb]
  | _ => exact Or.inl rfl

/-- The channels of a node are numbered upwards. -/
theorem nextBridge_of_step (h : n.step codec e = some n') : n.nextBridge ≤ n'.nextBridge := by
  cases step_inv h with
  | openBridge hcapacity => exact Nat.le_succ _
  | _ => exact le_rfl

end Node

end LaneSwitchboards
