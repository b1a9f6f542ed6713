import LaneSwitchboards.Wire

/-!
# A registry client on its connections

A `MeshRegistryClient` and the `handle_registry_conn` loops of its connections, byte by byte. A
request writes its frame and reads a frame; what is dropped midway leaves the connection as it
is, with a part of a frame written, or a reply under way. The loops and the client are parties of
their own: each of them may take its next step at any time, and any of them may meet a time-out
or an error of its stream.

Replies carry no number. An `Exchange` says for which bytes of a connection a loop wrote which
others, and a request that returns says which bytes it had written and which it has read.
-/

namespace LaneSwitchboards

open Framing Function

/-- A call of a client. `renew` is `register`. -/
inductive ClientCall
  | register (record : ServiceRecord)
  | list
deriving DecidableEq

namespace ClientCall

/-- The message of a call. -/
def msg : ClientCall → MeshControlMsg
  | register record => .register record
  | list => .list

/-- The replies that a call does not take for unexpected. -/
def Expects : ClientCall → MeshControlMsg → Prop
  | register _, .pong => True
  | list, .listReply _ => True
  | _, _ => False

instance (call : ClientCall) (reply : MeshControlMsg) : Decidable (call.Expects reply) :=
  match call, reply with
  | register _, .pong => .isTrue trivial
  | list, .listReply _ => .isTrue trivial
  | register _, .register _ | register _, .deregister .. | register _, .list
  | register _, .listReply _ | register _, .ping => .isFalse id
  | list, .register _ | list, .deregister .. | list, .list | list, .ping | list, .pong =>
    .isFalse id

end ClientCall

/-- A request and its reply, with the places where their frames begin on the connection. -/
structure Exchange where
  requestAt : ℕ
  request : MeshControlMsg
  replyAt : ℕ
  reply : MeshControlMsg
deriving DecidableEq

/-- Where the loop of a connection is. -/
inductive LoopPhase
  | reading
  /-- Writing a reply, with the bytes that are left of it. -/
  | replying (rest : List UInt8)
  /-- The loop has returned. -/
  | returned
deriving DecidableEq

/-- A connection, with all the bytes written on it. -/
structure ControlConn where
  toServer : List UInt8
  /-- How many bytes the loop has read. -/
  taken : ℕ
  toClient : List UInt8
  /-- How many bytes the client has read. -/
  received : ℕ
  loop : LoopPhase
  /-- The replies that the loop has begun to write. -/
  exchanges : List Exchange
deriving DecidableEq

/-- Where a client is. -/
inductive RequestPhase
  | idle
  | connecting (call : ClientCall)
  /-- Writing a frame that begins at a place of the connection: what is sent of it, and what is
  left. -/
  | writing (call : ClientCall) (requestAt : ℕ) (sent rest : List UInt8)
  /-- Reading a frame that begins at a place of the connection: what it has got of it. -/
  | reading (call : ClientCall) (requestAt replyAt : ℕ) (got : List UInt8)
deriving DecidableEq

/-- What a request has returned. -/
inductive Returned
  | ok (c : ConnId) (x : Exchange)
  /-- `unexpected registry reply`. -/
  | unexpected (c : ConnId) (x : Exchange)
  | error (e : ControlError)
  /-- An error of the stream. -/
  | ioError
deriving DecidableEq

/-- A client, its connections and the registry. -/
structure ClientSession where
  registry : MeshRegistry
  conns : ConnId → Option ControlConn
  nextConn : ConnId
  /-- The connection that the client holds. -/
  stream : Option ConnId
  phase : RequestPhase
  returned : List Returned

/-- One event of a client, of the loop of a connection, or of the registry. -/
inductive StreamEvent
  | call (call : ClientCall)
  | connected
  /-- The client writes a byte. -/
  | send
  /-- The client reads a byte. -/
  | receive
  /-- The client finds the end of the stream. -/
  | eof
  /-- `control read timed out`, for the client. -/
  | timeout
  | ioError
  /-- The caller drops the future of the request. -/
  | drop
  /-- The loop takes a frame. -/
  | serve (c : ConnId) (now : ℕ) (list : List ServiceRecord)
  /-- The loop writes a byte. -/
  | reply (c : ConnId)
  /-- The loop returns: a time-out, the end of the stream, or an error. -/
  | close (c : ConnId)
  /-- The registry changes through others. -/
  | registry (reg : MeshRegistry)

/-- A fresh connection. -/
def ControlConn.new : ControlConn := ⟨[], 0, [], 0, .reading, []⟩

namespace ControlConn

variable (codec : ControlCodec) (conn : ControlConn)

/-- The bytes that the loop has not read. -/
def unread : List UInt8 := conn.toServer.drop conn.taken

/-- One turn of `handle_registry_conn`, up to the first byte of the reply. -/
def serve (reg : MeshRegistry) (now : ℕ) (list : List ServiceRecord) :
    Option (ControlConn × MeshRegistry) :=
  if conn.loop = .reading ∧ Ready (.ofNat maxControlFrame) conn.unread then
    match Wire.readControl codec [conn.unread] with
    | .ok (some (msg, rest)) =>
      let taken := conn.toServer.length - rest.flatten.length
      match reg.handle now list msg with
      | (reg', none) => some ({ conn with taken := taken }, reg')
      | (reg', some reply) =>
        match Wire.writeControl codec reply with
        | .ok bytes =>
          let x : Exchange := ⟨conn.taken, msg, conn.toClient.length, reply⟩
          some ({ conn with
            taken := taken, loop := .replying bytes, exchanges := conn.exchanges ++ [x] }, reg')
        -- the request has taken effect all the same
        | .error _ => some ({ conn with taken := taken, loop := .returned }, reg')
    | .ok none | .error _ => some ({ conn with loop := .returned }, reg)
  else none

/-- The loop writes a byte of a reply. -/
def reply : Option ControlConn :=
  match conn.loop with
  | .replying (b :: rest) => some { conn with
      toClient := conn.toClient ++ [b], loop := if rest = [] then .reading else .replying rest }
  | _ => none

/-- The loop returns. -/
def close : ControlConn := { conn with loop := .returned }

end ControlConn

namespace ClientSession

variable (codec : ControlCodec) (s : ClientSession)

/-- A client that has not connected. -/
def new (reg : MeshRegistry) : ClientSession := ⟨reg, fun _ => none, 0, none, .idle, []⟩

def setConn (c : ConnId) (conn : ControlConn) : ClientSession :=
  { s with conns := update s.conns c (some conn) }

/-- The request returns, and the connection is kept. -/
def finish (r : Returned) : ClientSession :=
  { s with phase := .idle, returned := s.returned ++ [r] }

/-- The request returns an error, and the connection is dropped with it: `invalidate`. -/
def fail (r : Returned) : ClientSession := { s.finish r with stream := none }

/-- The request has its connection: `write_control`, up to the first byte. -/
def beginWrite (conn : ControlConn) (call : ClientCall) : ClientSession :=
  match Wire.writeControl codec call.msg with
  | .ok bytes => { s with phase := .writing call conn.toServer.length [] bytes }
  -- nothing was written, but `request` drops the connection with every error
  | .error (.tooLarge bytes) => s.fail (.error (.tooLarge bytes))
  | .error .invalid => s.fail (.error .encode)

/-- `conn`: the connection that the client holds, or a new one. -/
def call (call : ClientCall) : Option ClientSession :=
  match s.phase, s.stream with
  | .idle, some c => (s.conns c).map fun conn => s.beginWrite codec conn call
  | .idle, none => some { s with phase := .connecting call }
  | _, _ => none

def connected : Option ClientSession :=
  match s.phase with
  | .connecting call =>
    let s := { s.setConn s.nextConn .new with
      nextConn := s.nextConn + 1, stream := some s.nextConn }
    some (s.beginWrite codec .new call)
  | _ => none

/-- `write_control`, a byte. After the last one the request reads. -/
def send : Option ClientSession :=
  match s.phase, s.stream with
  | .writing call requestAt sent (b :: rest), some c => (s.conns c).map fun conn =>
    { s.setConn c { conn with toServer := conn.toServer ++ [b] } with
      phase := if rest = [] then .reading call requestAt conn.received []
        else .writing call requestAt (sent ++ [b]) rest }
  | _, _ => none

/-- `read_control` has got some bytes on the connection. -/
def got (c : ConnId) (call : ClientCall) (requestAt replyAt : ℕ) (bytes : List UInt8) :
    ClientSession :=
  if Ready (.ofNat maxControlFrame) bytes then
    match Wire.readControl codec [bytes] with
    | .ok (some (reply, _)) =>
      -- a reply of the wrong kind is an error of `register` or `list`, outside `request`: the
      -- connection stays
      let x : Exchange := ⟨requestAt, call.msg, replyAt, reply⟩
      s.finish (if call.Expects reply then .ok c x else .unexpected c x)
    | .ok none => s.fail (.error .unexpectedEof)
    | .error e => s.fail (.error (Wire.controlError e))
  else { s with phase := .reading call requestAt replyAt bytes }

/-- `read_control`, a byte. -/
def receive : Option ClientSession :=
  match s.phase, s.stream with
  | .reading call requestAt replyAt bytes, some c => (s.conns c).bind fun conn =>
    (conn.toClient[conn.received]?).map fun b =>
      (s.setConn c { conn with received := conn.received + 1 }).got codec c call requestAt replyAt
        (bytes ++ [b])
  | _, _ => none

/-- `registry closed connection`, or the end of the stream inside a reply. -/
def eof : Option ClientSession :=
  match s.phase, s.stream with
  | .reading .., some c => (s.conns c).bind fun conn =>
    -- what the loop wrote before it returned is still there to be read
    if conn.loop = .returned ∧ conn.received = conn.toClient.length then
      some (s.fail (.error .unexpectedEof))
    else none
  | _, _ => none

def step : StreamEvent → Option ClientSession
  | .call c => s.call codec c
  | .connected => s.connected codec
  | .send => s.send
  | .receive => s.receive codec
  | .eof => s.eof
  | .timeout =>
    match s.phase with
    | .reading .. => some (s.fail (.error .timedOut))
    | _ => none
  | .ioError => if s.phase = .idle then none else some (s.fail .ioError)
  -- the stream that the request wrote on, or read from, is still the client's
  | .drop => if s.phase = .idle then none else some { s with phase := .idle }
  | .serve c now list => (s.conns c).bind fun conn =>
    (conn.serve codec s.registry now list).map fun (conn', reg) =>
      { s.setConn c conn' with registry := reg }
  | .reply c => (s.conns c).bind fun conn => conn.reply.map (s.setConn c)
  | .close c => (s.conns c).map fun conn => s.setConn c conn.close
  | .registry reg => some { s with registry := reg }

/-- Execute a list of events. -/
abbrev run : ClientSession → List StreamEvent → Option ClientSession :=
  Transition.run (step codec)

end ClientSession

end LaneSwitchboards
