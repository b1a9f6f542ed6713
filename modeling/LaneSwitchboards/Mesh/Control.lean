import LaneSwitchboards.Mesh.Service

/-!
# The TCP control plane of the registry

A control message is a length-prefixed JSON body. `writeControl` refuses a body above
`maxControlFrame`, whatever the message, and so the loop of `handle_registry_conn` ends with an
error when the reply to a `List` is larger than that. How the messages are written as JSON is a
parameter.

* `Lawful.readControl`: what is written reads back.
* `Lawful.controlStep_spec`: a request that is acknowledged is a call on the registry.
-/

namespace LaneSwitchboards

/-- Records must be renewed within this window. -/
def defaultRecordTtl : Duration := 30 * 1000000000

/-- Max control-plane frame size. -/
def maxControlFrame : ℕ := 64 * 1024

/-- Control-plane message. -/
inductive MeshControlMsg
  | register (record : ServiceRecord)
  | deregister (service instanceId : String)
  | list
  | listReply (records : List ServiceRecord)
  | ping
  | pong
deriving DecidableEq

/-- How a control message is written as a frame body, and a body is read. -/
structure ControlCodec where
  encode : MeshControlMsg → Option (List UInt8)
  decode : List UInt8 → Option MeshControlMsg

/-- Why a control request failed. -/
inductive ControlError
  | encode
  | decode
  /-- `control frame too large: {bytes} bytes`. -/
  | tooLarge (bytes : ℕ)
  /-- `registry closed connection`. -/
  | unexpectedEof
  /-- `control read timed out`. -/
  | timedOut
  /-- `unexpected registry reply`. -/
  | unexpectedReply
  /-- An error of the stream, such as `BrokenPipe`. -/
  | io
deriving DecidableEq

/-- What the loop of a connection does after a frame: it writes a reply and reads on, it reads
on, or it returns and drops the stream. -/
inductive Answer
  | reply (body : List UInt8)
  | silent
  | closed
deriving DecidableEq

/-- The server's end of a connection. -/
inductive Handler
  | serving
  /-- The loop has returned, after an error or an idle period. If the connection is `broken`, the
  next request cannot be written any more, else it is written and finds no reply. -/
  | returned (broken : Bool)
deriving DecidableEq

/-- The error of a request that gets no reply. -/
def Handler.lost : Handler → ControlError
  | .returned true => .io
  | _ => .unexpectedEof

namespace MeshRegistry

/-- `MeshRegistry::new`. -/
def new : MeshRegistry := withTtl defaultRecordTtl

/-- The registry after a message, and the reply. A `List` is answered with `list`. -/
def handle (reg : MeshRegistry) (now : ℕ) (list : List ServiceRecord) :
    MeshControlMsg → MeshRegistry × Option MeshControlMsg
  | .register record => (reg.register record now, some .pong)
  | .deregister service instanceId => (reg.deregister service instanceId, some .pong)
  | .list => (reg, some (.listReply list))
  | .ping => (reg, some .pong)
  | .pong | .listReply _ => (reg, none)

end MeshRegistry

namespace ControlCodec

variable (codec : ControlCodec)

/-- `write_control`: the body of the frame. -/
def writeControl (msg : MeshControlMsg) : Except ControlError (List UInt8) :=
  match codec.encode msg with
  | none => .error .encode
  | some body =>
    if maxControlFrame < body.length then .error (.tooLarge body.length) else .ok body

/-- `read_control`. An empty frame reads like the end of the stream. -/
def readControl (body : List UInt8) : Except ControlError (Option MeshControlMsg) :=
  if body.length = 0 then .ok none
  else if maxControlFrame < body.length then .error (.tooLarge body.length)
  else
    match codec.decode body with
    | none => .error .decode
    | some msg => .ok (some msg)

/-- One turn of the loop of `handle_registry_conn`. -/
def handleFrame (reg : MeshRegistry) (now : ℕ) (list : List ServiceRecord) (body : List UInt8) :
    MeshRegistry × Answer :=
  match codec.readControl body with
  | .ok (some msg) =>
    match reg.handle now list msg with
    | (reg', none) => (reg', .silent)
    | (reg', some reply) =>
      match codec.writeControl reply with
      | .ok body => (reg', .reply body)
      -- the request has taken effect all the same
      | .error _ => (reg', .closed)
  | .ok none => (reg, .closed)
  | .error _ => (reg, .closed)

end ControlCodec

/-- Client of the registry, with its connection if it has one. -/
structure MeshRegistryClient where
  stream : Option Handler
deriving DecidableEq

namespace MeshRegistryClient

variable (codec : ControlCodec)

/-- `conn`: the connection, which is opened if there is none. -/
def conn (client : MeshRegistryClient) : Handler := client.stream.getD .serving

/-- `request`: write, and read the reply. The connection is dropped with every error. -/
def request (client : MeshRegistryClient) (reg : MeshRegistry) (now : ℕ)
    (list : List ServiceRecord) (msg : MeshControlMsg) :
    Except ControlError MeshControlMsg × MeshRegistryClient × MeshRegistry :=
  match codec.writeControl msg with
  | .error e => (.error e, ⟨none⟩, reg)
  | .ok body =>
    match client.conn with
    | .returned broken => (.error (Handler.returned broken).lost, ⟨none⟩, reg)
    | .serving =>
      match codec.handleFrame reg now list body with
      | (reg', .reply answer) =>
        match codec.readControl answer with
        | .ok (some reply) => (.ok reply, ⟨some .serving⟩, reg')
        | .ok none => (.error .unexpectedEof, ⟨none⟩, reg')
        | .error e => (.error e, ⟨none⟩, reg')
      | (reg', .silent) => (.error .timedOut, ⟨none⟩, reg')
      | (reg', .closed) => (.error .unexpectedEof, ⟨none⟩, reg')

/-- The records that the registry lists. -/
def list (client : MeshRegistryClient) (reg : MeshRegistry) (now : ℕ)
    (records : List ServiceRecord) :
    Except ControlError (List ServiceRecord) × MeshRegistryClient × MeshRegistry :=
  match client.request codec reg now records .list with
  | (.ok (.listReply list), client, reg) => (.ok list, client, reg)
  | (.ok _, client, reg) => (.error .unexpectedReply, client, reg)
  | (.error e, client, reg) => (.error e, client, reg)

end MeshRegistryClient

/-- A request that changes the registry, or a tick of the eviction task. -/
inductive ControlEvent
  | register (record : ServiceRecord) (now : ℕ)
  | deregister (service instanceId : String) (now : ℕ)
  | evictExpired (now : ℕ)

namespace ControlCodec

variable (codec : ControlCodec)

/-- The registry after a request that the server accepts and acknowledges with a `Pong`. -/
def acknowledge (reg : MeshRegistry) (now : ℕ) (msg : MeshControlMsg) : Option MeshRegistry :=
  match codec.writeControl msg with
  | .error _ => none
  | .ok body =>
    match codec.handleFrame reg now [] body with
    | (reg', .reply answer) =>
      match codec.readControl answer with
      | .ok (some .pong) => some reg'
      | _ => none
    | _ => none

/-- One event of the server. -/
def controlStep (reg : MeshRegistry) : ControlEvent → Option MeshRegistry
  | .register record now => codec.acknowledge reg now (.register record)
  | .deregister service instanceId now => codec.acknowledge reg now (.deregister service instanceId)
  | .evictExpired now => some (reg.evictExpired now)

/-- Reached by acknowledged requests, and ticks of the eviction task between them. -/
def Served (reg : MeshRegistry) : Prop :=
  ∃ events, Transition.run codec.controlStep .new events = some reg

/-- What the code relies on: a body reads back as its message, and is never empty; the two
messages without a payload are written as their names. -/
structure Lawful : Prop where
  roundTrip : ∀ msg body, codec.encode msg = some body → codec.decode body = some msg
  nonempty : ∀ msg body, codec.encode msg = some body → body ≠ []
  list : codec.encode .list = some "\"List\"".toUTF8.data.toList
  pong : codec.encode .pong = some "\"Pong\"".toUTF8.data.toList

/-- The reply with these records fits a frame. -/
def Fits (records : List ServiceRecord) : Prop :=
  ∃ body ∈ codec.encode (.listReply records), body.length ≤ maxControlFrame

instance (records : List ServiceRecord) : Decidable (codec.Fits records) :=
  inferInstanceAs (Decidable (∃ body ∈ codec.encode _, _))

end ControlCodec

/-! ### Frames -/

namespace ControlCodec

variable {codec : ControlCodec} {reg reg' : MeshRegistry} {now : ℕ} {msg : MeshControlMsg}
  {records : List ServiceRecord} {body : List UInt8}

theorem writeControl_eq_ok :
    codec.writeControl msg = .ok body ↔
      codec.encode msg = some body ∧ body.length ≤ maxControlFrame := by
  unfold writeControl
  cases codec.encode msg with
  | none => simp
  | some b =>
    dsimp only
    split_ifs with hb
    · simp only [Option.some.injEq, false_iff]
      rintro ⟨rfl, hle⟩
      exact absurd hb hle.not_gt
    · simp only [Except.ok.injEq, Option.some.injEq]
      exact ⟨fun h => ⟨h, h ▸ not_lt.mp hb⟩, And.left⟩

/-- **What is written reads back.** -/
theorem Lawful.readControl (h : codec.Lawful) (hbody : codec.writeControl msg = .ok body) :
    codec.readControl body = .ok (some msg) := by
  obtain ⟨hencode, hle⟩ := writeControl_eq_ok.mp hbody
  have hne : body.length ≠ 0 := fun h0 =>
    h.nonempty _ _ hencode (List.length_eq_zero_iff.mp h0)
  simp only [ControlCodec.readControl, if_neg hne, if_neg hle.not_gt, h.roundTrip _ _ hencode]

theorem Lawful.writeControl_list (h : codec.Lawful) :
    codec.writeControl .list = .ok "\"List\"".toUTF8.data.toList :=
  writeControl_eq_ok.mpr ⟨h.list, by decide⟩

theorem Lawful.writeControl_pong (h : codec.Lawful) :
    codec.writeControl .pong = .ok "\"Pong\"".toUTF8.data.toList :=
  writeControl_eq_ok.mpr ⟨h.pong, by decide⟩

/-- The turn on a frame that reads as a message with a reply. -/
theorem handleFrame_reply {reply : MeshControlMsg}
    (hread : codec.readControl body = .ok (some msg))
    (hhandle : reg.handle now records msg = (reg', some reply)) :
    codec.handleFrame reg now records body =
      (reg', match codec.writeControl reply with
        | .ok body => .reply body
        | .error _ => .closed) := by
  simp only [handleFrame, hread, hhandle]
  cases codec.writeControl reply <;> rfl

/-- **A request is acknowledged** iff its body fits a frame. -/
theorem Lawful.acknowledge_eq_some (h : codec.Lawful) {reg₁ : MeshRegistry}
    (hmsg : reg.handle now [] msg = (reg₁, some .pong)) :
    codec.acknowledge reg now msg = some reg' ↔
      reg' = reg₁ ∧ ∃ body, codec.writeControl msg = .ok body := by
  cases hbody : codec.writeControl msg with
  | error e => simp [acknowledge, hbody]
  | ok body =>
    have hack : codec.acknowledge reg now msg = some reg₁ := by
      simp only [acknowledge, hbody, handleFrame_reply (h.readControl hbody) hmsg,
        h.writeControl_pong, h.readControl h.writeControl_pong]
    rw [hack, Option.some.injEq, eq_comm]
    exact ⟨fun heq => ⟨heq, body, rfl⟩, And.left⟩

/-- **A request that is acknowledged is a call on the registry.** -/
theorem Lawful.controlStep_spec (h : codec.Lawful) {event : ControlEvent}
    (hst : codec.controlStep reg event = some reg') : ∃ op, reg.step op = some reg' := by
  cases event with
  | register record now =>
    obtain ⟨rfl, -⟩ := (h.acknowledge_eq_some rfl).mp hst
    exact ⟨.register record now, rfl⟩
  | deregister service instanceId now =>
    obtain ⟨rfl, -⟩ := (h.acknowledge_eq_some rfl).mp hst
    exact ⟨.deregister service instanceId, rfl⟩
  | evictExpired now => exact ⟨.evictExpired now, hst⟩

theorem served_new : codec.Served .new := ⟨[], rfl⟩

/-- A registration that fits a frame is acknowledged. -/
theorem Served.register (h : codec.Served reg) (hcodec : codec.Lawful) {record : ServiceRecord}
    (hencode : codec.encode (.register record) = some body) (hle : body.length ≤ maxControlFrame)
    (now : ℕ) : codec.Served (reg.register record now) := by
  obtain ⟨events, hrun⟩ := h
  have hst : codec.controlStep reg (.register record now) = some (reg.register record now) :=
    (hcodec.acknowledge_eq_some rfl).mpr ⟨rfl, body, writeControl_eq_ok.mpr ⟨hencode, hle⟩⟩
  exact ⟨events ++ [.register record now], Transition.run_concat.mpr ⟨reg, hrun, hst⟩⟩

theorem Lawful.keyed (h : codec.Lawful) (hreg : codec.Served reg) : reg.Keyed := by
  obtain ⟨events, hrun⟩ := hreg
  refine Transition.invariant_run (P := MeshRegistry.Keyed) (fun hk hst => ?_)
    (fun _ _ hr => by cases hr) hrun
  obtain ⟨op, hop⟩ := h.controlStep_spec hst
  exact hk.step hop

end ControlCodec

end LaneSwitchboards
