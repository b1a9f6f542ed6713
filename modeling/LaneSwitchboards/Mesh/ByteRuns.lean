import LaneSwitchboards.Mesh.Idle
import LaneSwitchboards.Mesh.InTurn

/-!
# Requests as runs on bytes

A request of `MeshRegistryClient`, which takes whole frames, is a run of a `ClientSession` that
nothing interrupts: the client writes the bytes of its frame, the loop takes the frame and writes
the bytes of its reply, and the client reads them. So is an idle period after which the loop
returns.

* `run_send`, `run_reply`, `run_receive`: a whole frame, byte by byte.
* `Represents.request`, `Represents.idle_run`: what the client does with frames, the session can
  do with bytes.
* `Represents.results_run`: so for a sequence of calls with idle periods between them.
-/

namespace LaneSwitchboards

open Framing Function Transition

variable {codec : ControlCodec}

namespace ClientSession

variable {s : ClientSession} {c : ConnId} {conn : ControlConn} {call : ClientCall}
  {requestAt replyAt : ℕ} {sent got rest : List UInt8}

@[simp] theorem setConn_setConn (s : ClientSession) (c : ConnId) (conn conn' : ControlConn) :
    (s.setConn c conn).setConn c conn' = s.setConn c conn' := by
  simp [setConn]

@[simp] theorem conns_setConn (s : ClientSession) (c : ConnId) (conn : ControlConn) :
    (s.setConn c conn).conns c = some conn := by
  simp [setConn]

/-- The client writes the rest of a frame. -/
theorem run_send (hrest : rest ≠ []) (hphase : s.phase = .writing call requestAt sent rest)
    (hstream : s.stream = some c) (hc : s.conns c = some conn) :
    s.run codec (List.replicate rest.length .send) =
      some { s.setConn c { conn with toServer := conn.toServer ++ rest } with
        phase := .reading call requestAt conn.received [] } := by
  induction rest generalizing s sent conn with
  | nil => exact absurd rfl hrest
  | cons b rest ih =>
    have hstep : s.step codec .send =
        some { s.setConn c { conn with toServer := conn.toServer ++ [b] } with
          phase := if rest = [] then .reading call requestAt conn.received []
            else .writing call requestAt (sent ++ [b]) rest } := by
      simp only [step, send, hphase, hstream, hc, Option.map_some]
    rw [List.length_cons, List.replicate_succ, run, run_cons_of_step hstep]
    by_cases hnil : rest = []
    · subst hnil
      rfl
    · rw [if_neg hnil]
      refine (ih (s := { s.setConn c { conn with toServer := conn.toServer ++ [b] } with
        phase := .writing call requestAt (sent ++ [b]) rest }) hnil rfl hstream
        (conns_setConn ..)).trans ?_
      simp [setConn]

/-- The loop writes the rest of a reply. -/
theorem run_reply (hrest : rest ≠ []) (hc : s.conns c = some conn)
    (hloop : conn.loop = .replying rest) :
    s.run codec (List.replicate rest.length (.reply c)) =
      some (s.setConn c { conn with toClient := conn.toClient ++ rest, loop := .reading }) := by
  induction rest generalizing s conn with
  | nil => exact absurd rfl hrest
  | cons b rest ih =>
    have hstep : s.step codec (.reply c) = some (s.setConn c { conn with
        toClient := conn.toClient ++ [b]
        loop := if rest = [] then .reading else .replying rest }) := by
      simp only [step, hc, Option.bind_some, ControlConn.reply, hloop, Option.map_some]
    rw [List.length_cons, List.replicate_succ, run, run_cons_of_step hstep]
    by_cases hnil : rest = []
    · subst hnil
      rfl
    · rw [if_neg hnil]
      refine (ih hnil (conns_setConn ..) rfl).trans ?_
      simp [setConn]

/-- The client reads the rest of a reply. -/
theorem run_receive (hcodec : codec.Lawful) {reply : MeshControlMsg} (hrest : rest ≠ [])
    (hwritten : Wire.writeControl codec reply = .ok (got ++ rest))
    (hphase : s.phase = .reading call requestAt replyAt got) (hstream : s.stream = some c)
    (hc : s.conns c = some conn) (hdrop : conn.toClient.drop conn.received = rest) :
    s.run codec (List.replicate rest.length .receive) =
      some ((s.setConn c { conn with received := conn.received + rest.length }).finish
        (if call.Expects reply then .ok c ⟨requestAt, call.msg, replyAt, reply⟩
          else .unexpected c ⟨requestAt, call.msg, replyAt, reply⟩)) := by
  induction rest generalizing s got conn with
  | nil => exact absurd rfl hrest
  | cons b rest ih =>
    have hlt : conn.received < conn.toClient.length := by
      by_contra hle
      rw [List.drop_eq_nil_of_le (Nat.not_lt.mp hle)] at hdrop
      cases hdrop
    have hcons := hdrop
    rw [List.drop_eq_getElem_cons hlt] at hcons
    obtain ⟨hb, hdrop'⟩ := List.cons.inj hcons
    have hget : conn.toClient[conn.received]? = some b := by
      rw [List.getElem?_eq_getElem hlt, hb]
    have hwritten' : Wire.writeControl codec reply = .ok ((got ++ [b]) ++ rest) := by
      rw [hwritten, List.append_assoc, List.singleton_append]
    have hready := Wire.ready_iff_of_write hcodec hwritten'
    have hstep : s.step codec .receive =
        some ((s.setConn c { conn with received := conn.received + 1 }).got codec c call requestAt
          replyAt (got ++ [b])) := by
      simp only [step, receive, hphase, hstream, hc, Option.bind_some, hget, Option.map_some]
    rw [List.length_cons, List.replicate_succ, run, run_cons_of_step hstep, ClientSession.got]
    by_cases hnil : rest = []
    · subst hnil
      rw [List.append_nil] at hwritten'
      obtain ⟨rest', hread, -⟩ := Wire.readControl_of_write hcodec hwritten'
      rw [if_pos (hready.mpr rfl), hread]
      rfl
    · rw [if_neg (mt hready.mp hnil)]
      refine (ih (s := { s.setConn c { conn with received := conn.received + 1 } with
        phase := .reading call requestAt replyAt (got ++ [b]) }) hnil hwritten' rfl hstream
        (conns_setConn ..) hdrop').trans ?_
      simp [setConn, finish, Nat.add_assoc, Nat.add_comm 1]

/-- The stream fails. -/
theorem run_ioError (codec : ControlCodec) (hphase : s.phase ≠ .idle) :
    s.run codec [.ioError] = some (s.fail .ioError) := by
  have hstep : s.step codec .ioError = some (s.fail .ioError) := if_neg hphase
  rw [run, run_cons_of_step hstep]
  rfl

/-- The client finds the end of the stream. -/
theorem run_eof (codec : ControlCodec) (hphase : s.phase = .reading call requestAt replyAt got)
    (hstream : s.stream = some c) (hc : s.conns c = some conn) (hloop : conn.loop = .returned)
    (hreceived : conn.received = conn.toClient.length) :
    s.run codec [.eof] = some (s.fail (.error .unexpectedEof)) := by
  have hstep : s.step codec .eof = some (s.fail (.error .unexpectedEof)) := by
    simp only [step, eof, hphase, hstream, hc, Option.bind_some]
    rw [if_pos ⟨hloop, hreceived⟩]
  rw [run, run_cons_of_step hstep]
  rfl

variable {now : ℕ} {list : List ServiceRecord} {reg' : MeshRegistry} {reply : MeshControlMsg}
  {bytes answer : List UInt8}

/-- The loop takes a request. -/
theorem run_serve {conn' : ControlConn} (hc : s.conns c = some conn)
    (hserve : conn.serve codec s.registry now list = some (conn', reg')) :
    s.run codec [.serve c now list] = some { s.setConn c conn' with registry := reg' } := by
  have hstep : s.step codec (.serve c now list) =
      some { s.setConn c conn' with registry := reg' } := by
    simp only [step, hc, Option.bind_some, hserve, Option.map_some]
  rw [run, run_cons_of_step hstep]
  rfl

/-- A request is on the connection, and the client gets its reply. -/
theorem run_exchange (hcodec : codec.Lawful)
    (hphase : s.phase = .reading call requestAt conn.received []) (hstream : s.stream = some c)
    (hc : s.conns c = some conn) (hloop : conn.loop = .reading)
    (hreceived : conn.received = conn.toClient.length) (hunread : conn.unread = bytes)
    (hbytes : Wire.writeControl codec call.msg = .ok bytes)
    (hhandle : s.registry.handle now list call.msg = (reg', some reply))
    (hanswer : Wire.writeControl codec reply = .ok answer) :
    ∃ es conn', s.run codec es = some (({ s.setConn c conn' with registry := reg' }).finish
        (if call.Expects reply then .ok c ⟨requestAt, call.msg, conn.received, reply⟩
          else .unexpected c ⟨requestAt, call.msg, conn.received, reply⟩)) ∧
      conn'.InTurn codec .idle ∧ conn'.loop = .reading := by
  have hne := Wire.writeControl_ne_nil hanswer
  have hserve := ControlConn.serve_of_write hcodec hloop hunread hbytes hhandle
  rw [hanswer] at hserve
  have hserved := run_serve hc hserve
  have hreplied := run_trans hserved (run_reply hne (conns_setConn ..) rfl)
  have hdrop : (conn.toClient ++ answer).drop conn.received = answer :=
    List.drop_left' hreceived.symm
  have hgot := run_trans hreplied (run_receive hcodec hne (List.nil_append answer ▸ hanswer) hphase
    hstream (conns_setConn ..) hdrop)
  let conn' : ControlConn := { conn with
    taken := conn.toServer.length
    toClient := conn.toClient ++ answer
    received := conn.received + answer.length
    loop := .reading
    exchanges := conn.exchanges ++ [⟨conn.taken, call.msg, conn.toClient.length, reply⟩] }
  have hturn : conn'.InTurn codec .idle := by
    refine ⟨rfl, List.drop_length, ?_, .inr ⟨rfl, rfl⟩⟩
    rw [List.length_append, ← hreceived]
  refine ⟨_, conn', hgot.trans ?_, hturn, rfl⟩
  simp [setConn, finish, conn']

end ClientSession

/-! ### Whole frames -/

namespace Wire

/-- What fits a frame is written as that frame. -/
theorem writeControl_of_ok {msg : MeshControlMsg} {body : List UInt8}
    (h : codec.writeControl msg = .ok body) : writeControl codec msg = .ok (frame body) := by
  obtain ⟨hencode, hle⟩ := ControlCodec.writeControl_eq_ok.mp h
  exact write_eq_ok.mpr ⟨body, hencode, hle, rfl⟩

/-- What does not fit a frame is refused with the same error. -/
theorem beginWrite_of_error {s : ClientSession} {conn : ControlConn} {call : ClientCall}
    {e : ControlError} (h : codec.writeControl call.msg = .error e) :
    s.beginWrite codec conn call = s.fail (.error e) := by
  have hlimit : (UInt32.ofNat maxControlFrame).toNat = maxControlFrame := by decide
  unfold ControlCodec.writeControl at h
  unfold ClientSession.beginWrite writeControl write
  rw [hlimit]
  cases hencode : codec.encode call.msg with
  | none =>
    rw [hencode] at h
    cases h
    rfl
  | some body =>
    rw [hencode] at h
    dsimp only at h ⊢
    split_ifs at h with hlarge
    cases h
    rw [if_pos hlarge]

/-- A reply that does not fit a frame is refused. -/
theorem exists_error_of_error {msg : MeshControlMsg} {e : ControlError}
    (h : codec.writeControl msg = .error e) : ∃ e', writeControl codec msg = .error e' := by
  cases hwrite : writeControl codec msg with
  | error e' => exact ⟨e', rfl⟩
  | ok bytes =>
    obtain ⟨body, hencode, hle, -⟩ := write_eq_ok.mp hwrite
    rw [ControlCodec.writeControl_eq_ok.mpr ⟨hencode, hle⟩] at h
    cases h

end Wire

/-- What a call returned, without the places of its frames. -/
def Returned.Gives (call : ClientCall) : Returned → Except ControlError MeshControlMsg → Prop
  | .ok _ x, .ok reply => x.reply = reply ∧ call.Expects reply
  | .error e, .error e' => e = e'
  | .ioError, .error e => e = .io
  | _, _ => False

/-- Whether a call succeeded, and its error if not. -/
def Returned.Succeeds : Returned → Except ControlError Unit → Prop
  | .ok .., .ok _ => True
  | .error e, .error e' => e = e'
  | .ioError, .error e => e = .io
  | _, _ => False

theorem Returned.Gives.inv {call : ClientCall} {r : Returned}
    {result : Except ControlError MeshControlMsg} (h : r.Gives call result) :
    (∃ c x, r = .ok c x ∧ result = .ok x.reply ∧ call.Expects x.reply) ∨
      ∃ e, result = .error e ∧ r.Succeeds (.error e) := by
  cases r with
  | ok c x =>
    cases result with
    | ok reply =>
      obtain ⟨rfl, hexpects⟩ := h
      exact .inl ⟨c, x, rfl, rfl, hexpects⟩
    | error e => exact absurd h id
  | unexpected c x => exact absurd h id
  | error e =>
    cases result with
    | ok reply => exact absurd h id
    | error e' => exact .inr ⟨e', rfl, h⟩
  | ioError =>
    cases result with
    | ok reply => exact absurd h id
    | error e => exact .inr ⟨e, rfl, h⟩

theorem ClientCall.eq_pong_of_expects {record : ServiceRecord} {reply : MeshControlMsg}
    (h : (register record).Expects reply) : reply = .pong := by
  cases reply with
  | pong => rfl
  | _ => exact absurd h id

theorem ClientCall.eq_listReply_of_expects {reply : MeshControlMsg}
    (h : list.Expects reply) : ∃ records, reply = .listReply records := by
  cases reply with
  | listReply records => exact ⟨records, rfl⟩
  | _ => exact absurd h id

variable (codec) in
/-- A client between two requests, and its session. -/
structure Represents (client : MeshRegistryClient) (s : ClientSession) : Prop where
  idle : s.phase = .idle
  unconnected : client.stream = none → s.stream = none
  connected : ∀ handler, client.stream = some handler → ∃ c conn, s.stream = some c ∧
    s.conns c = some conn ∧ conn.InTurn codec .idle ∧
      (handler = .serving → conn.loop = .reading) ∧ (handler ≠ .serving → conn.loop = .returned)

namespace Represents

variable {client : MeshRegistryClient} {s : ClientSession}

theorem new (reg : MeshRegistry) : Represents codec ⟨none⟩ (ClientSession.new reg) where
  idle := rfl
  unconnected := fun _ => rfl
  connected := fun _ => nofun

/-- A request that has failed leaves no connection. -/
theorem fail (s : ClientSession) (r : Returned) : Represents codec ⟨none⟩ (s.fail r) where
  idle := rfl
  unconnected := fun _ => rfl
  connected := fun _ => nofun

/-- The connection of a request, which is opened if there is none. -/
theorem exists_connected (h : Represents codec client s) (call : ClientCall) :
    ∃ (es : List StreamEvent) (s₀ : ClientSession) (c : ConnId) (conn : ControlConn),
      s.run codec es = some (s₀.beginWrite codec conn call) ∧
      s₀.stream = some c ∧ s₀.conns c = some conn ∧ conn.InTurn codec .idle ∧
      (client.conn = .serving → conn.loop = .reading) ∧
      (client.conn ≠ .serving → conn.loop = .returned) ∧
      s₀.registry = s.registry ∧ s₀.returned = s.returned := by
  cases hclient : client.stream with
  | none =>
    have hstream := h.unconnected hclient
    have hconn : client.conn = .serving := by simp [MeshRegistryClient.conn, hclient]
    refine ⟨[.call call, .connected], { s.setConn s.nextConn .new with
      phase := .connecting call, nextConn := s.nextConn + 1, stream := some s.nextConn },
      s.nextConn, .new, ?_, rfl, by simp [ClientSession.setConn], ControlConn.inTurn_new,
      fun _ => rfl, fun hreturned => absurd hconn hreturned, rfl, rfl⟩
    simp [ClientSession.step, ClientSession.call, ClientSession.connected, h.idle, hstream,
      ClientSession.setConn]
  | some handler =>
    obtain ⟨c, conn, hstream, hc, hturn, hserving, hreturned⟩ := h.connected handler hclient
    have hconn : client.conn = handler := by simp [MeshRegistryClient.conn, hclient]
    rw [hconn]
    refine ⟨[.call call], s, c, conn, ?_, hstream, hc, hturn, hserving, hreturned, rfl, rfl⟩
    simp [ClientSession.step, ClientSession.call, h.idle, hstream, hc]

/-- **A request is a run on bytes**, with its result and what becomes of the registry. -/
theorem request (hcodec : codec.Lawful) (h : Represents codec client s) (call : ClientCall)
    (now : ℕ) (list : List ServiceRecord) :
    ∃ es s' r, s.run codec es = some s' ∧
      Represents codec (client.request codec s.registry now list call.msg).2.1 s' ∧
      s'.registry = (client.request codec s.registry now list call.msg).2.2 ∧
      s'.returned = s.returned ++ [r] ∧
      r.Gives call (client.request codec s.registry now list call.msg).1 := by
  obtain ⟨es, s₀, c, conn, hrun, hstream, hc, hturn, hserving, hreturned, hreg, hret⟩ :=
    h.exists_connected call
  cases hbody : codec.writeControl call.msg with
  | error e =>
    have hrequest : client.request codec s.registry now list call.msg =
        (.error e, ⟨none⟩, s.registry) := by
      simp only [MeshRegistryClient.request, hbody]
    rw [hrequest]
    rw [Wire.beginWrite_of_error hbody] at hrun
    exact ⟨es, _, .error e, hrun, .fail .., hreg, congrArg (· ++ _) hret, rfl⟩
  | ok body =>
    have hframe := Wire.writeControl_of_ok hbody
    have hne := Wire.writeControl_ne_nil hframe
    -- the request is written
    have hbegin : s₀.beginWrite codec conn call =
        { s₀ with phase := .writing call conn.toServer.length [] (frame body) } := by
      simp only [ClientSession.beginWrite, hframe]
    rw [hbegin] at hrun
    let conn₁ : ControlConn := { conn with toServer := conn.toServer ++ frame body }
    let s₁ : ClientSession := { s₀.setConn c conn₁ with
      phase := .reading call conn.toServer.length conn.received [] }
    have hsent := run_trans hrun (ClientSession.run_send hne rfl hstream hc)
    have hphase₁ : s₁.phase = .reading call conn.toServer.length conn₁.received [] := rfl
    have hstream₁ : s₁.stream = some c := hstream
    have hc₁ : s₁.conns c = some conn₁ := ClientSession.conns_setConn ..
    have hreceived₁ : conn₁.received = conn₁.toClient.length := hturn.received
    cases hconn : client.conn with
    | returned broken =>
      have hrequest : client.request codec s.registry now list call.msg =
          (.error (Handler.returned broken).lost, ⟨none⟩, s.registry) := by
        simp only [MeshRegistryClient.request, hbody, hconn]
      have hloop : conn.loop = .returned := hreturned (hconn ▸ by simp)
      rw [hrequest]
      cases broken with
      | true =>
        -- not a byte is written
        have hend := run_trans hrun (ClientSession.run_ioError codec (by simp))
        exact ⟨_, _, .ioError, hend, .fail .., hreg, congrArg (· ++ _) hret, rfl⟩
      | false =>
        have hend := run_trans hsent
          (ClientSession.run_eof codec hphase₁ hstream₁ hc₁ hloop hreceived₁)
        exact ⟨_, _, .error .unexpectedEof, hend, .fail .., hreg, congrArg (· ++ _) hret, rfl⟩
    | serving =>
      have hloop₁ : conn₁.loop = .reading := hserving hconn
      have hunread : conn₁.unread = frame body := by
        rcases hturn.loop with hreturned | ⟨-, htaken⟩
        · rw [hserving hconn] at hreturned
          cases hreturned
        · change (conn.toServer ++ frame body).drop conn.taken = frame body
          rw [htaken, List.drop_left' rfl]
      -- the loop takes the request
      obtain ⟨reg', reply, hhandle, hexpects⟩ := call.handle_msg s.registry now list
      have hhandle₁ : s₁.registry.handle now list call.msg = (reg', some reply) := by
        change s₀.registry.handle now list call.msg = (reg', some reply)
        rw [hreg, hhandle]
      have hframeTurn := ControlCodec.handleFrame_reply (hcodec.readControl hbody) hhandle
      cases hanswer : codec.writeControl reply with
      | error e =>
        have hrequest : client.request codec s.registry now list call.msg =
            (.error .unexpectedEof, ⟨none⟩, reg') := by
          simp only [MeshRegistryClient.request, hbody, hconn, hframeTurn, hanswer]
        obtain ⟨e', hrefused⟩ := Wire.exists_error_of_error hanswer
        have hserve := ControlConn.serve_of_write hcodec hloop₁ hunread hframe hhandle₁
        rw [hrefused] at hserve
        have hserved := run_trans hsent (ClientSession.run_serve hc₁ hserve)
        have hend := run_trans hserved
          (ClientSession.run_eof codec rfl hstream₁ (ClientSession.conns_setConn ..) rfl hreceived₁)
        rw [hrequest]
        exact ⟨_, _, .error .unexpectedEof, hend, .fail .., rfl, congrArg (· ++ _) hret, rfl⟩
      | ok answer =>
        have hrequest : client.request codec s.registry now list call.msg =
            (.ok reply, ⟨some .serving⟩, reg') := by
          simp only [MeshRegistryClient.request, hbody, hconn, hframeTurn, hanswer,
            hcodec.readControl hanswer]
        obtain ⟨es', conn', hexchange, hturn', hloop'⟩ := ClientSession.run_exchange
          hcodec hphase₁ hstream₁ hc₁ hloop₁ hreceived₁ hunread hframe hhandle₁
          (Wire.writeControl_of_ok hanswer)
        rw [if_pos hexpects] at hexchange
        rw [hrequest]
        refine ⟨_, _, .ok c _, run_trans hsent hexchange, ⟨rfl, by simp, ?_⟩, rfl,
          congrArg (· ++ _) hret, rfl, hexpects⟩
        intro handler hhandler
        obtain rfl : Handler.serving = handler := Option.some.inj hhandler
        exact ⟨c, conn', hstream₁, ClientSession.conns_setConn .., hturn', fun _ => hloop', by simp⟩

/-- **An idle period is a run**: the loop returns in it, or nothing happens. -/
theorem idle_run (h : Represents codec client s) (gap : Duration) (broken : Bool) :
    ∃ es s', s.run codec es = some s' ∧ Represents codec (client.idle gap broken) s' ∧
      s'.registry = s.registry ∧ s'.returned = s.returned := by
  cases hclient : client.stream with
  | none =>
    refine ⟨[], s, rfl, ⟨h.idle, fun _ => h.unconnected hclient, ?_⟩, rfl, rfl⟩
    simp [MeshRegistryClient.idle, hclient]
  | some handler =>
    obtain ⟨c, conn, hstream, hc, hturn, hserving, hreturned⟩ := h.connected handler hclient
    -- an event is needed only where the loop returns
    cases hidle : handler.idle gap broken with
    | returned broken' =>
      refine ⟨[.close c], s.setConn c conn.close, ?_, ⟨h.idle, ?_, ?_⟩, rfl, rfl⟩
      · simp [ClientSession.step, hc]
      · simp [MeshRegistryClient.idle, hclient]
      · intro handler' hhandler'
        obtain rfl : .returned broken' = handler' := by
          simpa [MeshRegistryClient.idle, hclient, hidle] using hhandler'
        exact ⟨c, conn.close, hstream, ClientSession.conns_setConn .., hturn.close, by simp,
          fun _ => rfl⟩
    | serving =>
      have hhandler : handler = .serving := by
        cases handler with
        | serving => rfl
        | returned broken' => cases hidle
      refine ⟨[], s, rfl, ⟨h.idle, ?_, ?_⟩, rfl, rfl⟩
      · simp [MeshRegistryClient.idle, hclient]
      · intro handler' hhandler'
        obtain rfl : .serving = handler' := by
          simpa [MeshRegistryClient.idle, hclient, hidle] using hhandler'
        exact ⟨c, conn, hstream, hc, hturn, fun _ => hserving hhandler, fun hne => absurd rfl hne⟩

/-- A call succeeds where its request gives a reply. -/
theorem succeeds_of_gives {r : TimedCall} {records : List ServiceRecord} {returned : Returned}
    (hrecords : records = if r.call = .list then r.records else [])
    (hgives : returned.Gives r.call
      ((client.idle r.gap r.broken).request codec r.registry r.now records r.call.msg).1) :
    returned.Succeeds (client.perform codec r).1 ∧ (client.perform codec r).2 =
      ((client.idle r.gap r.broken).request codec r.registry r.now records r.call.msg).2.1 := by
  unfold MeshRegistryClient.perform
  cases hcall : r.call with
  | register record =>
    rw [hcall, if_neg nofun] at hrecords
    subst hrecords
    rw [hcall] at hgives
    change returned.Gives _ ((client.idle r.gap r.broken).request codec r.registry r.now []
      (.register record)).1 at hgives
    simp only [MeshRegistryClient.register, ClientCall.msg]
    generalize (client.idle r.gap r.broken).request codec r.registry r.now []
      (.register record) = out at hgives
    obtain ⟨result, client', reg'⟩ := out
    rcases hgives.inv with ⟨c, x, rfl, rfl, hexpects⟩ | ⟨e, rfl, hfails⟩
    · rw [ClientCall.eq_pong_of_expects hexpects]
      exact ⟨trivial, rfl⟩
    · exact ⟨hfails, rfl⟩
  | list =>
    rw [hcall, if_pos rfl] at hrecords
    subst hrecords
    rw [hcall] at hgives
    change returned.Gives _ ((client.idle r.gap r.broken).request codec r.registry r.now r.records
      .list).1 at hgives
    simp only [MeshRegistryClient.list, ClientCall.msg]
    generalize (client.idle r.gap r.broken).request codec r.registry r.now r.records .list = out
      at hgives
    obtain ⟨result, client', reg'⟩ := out
    rcases hgives.inv with ⟨c, x, rfl, rfl, hexpects⟩ | ⟨e, rfl, hfails⟩
    · obtain ⟨records, hrecords⟩ := ClientCall.eq_listReply_of_expects hexpects
      rw [hrecords]
      exact ⟨trivial, rfl⟩
    · exact ⟨hfails, rfl⟩

/-- A call after its idle period is a run. -/
theorem perform_run (hcodec : codec.Lawful) (h : Represents codec client s) (r : TimedCall) :
    ∃ es s' returned, s.run codec es = some s' ∧
      Represents codec (client.perform codec r).2 s' ∧
      s'.returned = s.returned ++ [returned] ∧
      returned.Succeeds (client.perform codec r).1 := by
  obtain ⟨es₁, s₁, hrun₁, h₁, -, hret₁⟩ := h.idle_run r.gap r.broken
  -- the registry is that of the call
  have hreg : s₁.run codec [.registry r.registry] = some { s₁ with registry := r.registry } := rfl
  have h₂ : Represents codec (client.idle r.gap r.broken) { s₁ with registry := r.registry } :=
    ⟨h₁.idle, h₁.unconnected, h₁.connected⟩
  obtain ⟨es₃, s₃, returned, hrun₃, h₃, -, hret₃, hgives⟩ := h₂.request hcodec r.call r.now
    (if r.call = .list then r.records else [])
  obtain ⟨hsucceeds, hclient⟩ := succeeds_of_gives rfl hgives
  refine ⟨_, s₃, returned, run_trans (run_trans hrun₁ hreg) hrun₃, hclient ▸ h₃, ?_, hsucceeds⟩
  rw [hret₃]
  exact congrArg (· ++ _) hret₁

/-- **A sequence of calls is a run on bytes**, with the same results. -/
theorem results_run (hcodec : codec.Lawful) (h : Represents codec client s) (rs : List TimedCall) :
    ∃ es s' returned, s.run codec es = some s' ∧ s'.returned = s.returned ++ returned ∧
      List.Forall₂ Returned.Succeeds returned (client.results codec rs) := by
  induction rs generalizing client s with
  | nil => exact ⟨[], s, [], rfl, (List.append_nil _).symm, .nil⟩
  | cons r rs ih =>
    obtain ⟨es₁, s₁, returned, hrun₁, h₁, hret₁, hsucceeds⟩ := h.perform_run hcodec r
    obtain ⟨es₂, s₂, returned', hrun₂, hret₂, hrest⟩ := ih h₁
    refine ⟨es₁ ++ es₂, s₂, returned :: returned', run_trans hrun₁ hrun₂, ?_,
      .cons hsucceeds hrest⟩
    rw [hret₂, hret₁, List.append_assoc, List.singleton_append]

end Represents

end LaneSwitchboards
