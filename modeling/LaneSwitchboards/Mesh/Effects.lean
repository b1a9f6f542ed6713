import LaneSwitchboards.Lib.Trace
import LaneSwitchboards.Mesh.InTurn

/-!
# What requests do to a registry

A client knows the replies it has read; this module follows what its requests have done. The loop
of a connection may take a frame when the client has given up on it and dropped the connection,
and so after frames of later requests (`takes_effect_late`). But as long as no request is dropped
after its first byte is sent, the client writes at most one frame for each call, the loops take
each frame at most once, and a call that returns `Ok` took effect between its beginning and its
return, with the reply that the registry gave at that moment (`takes_effect_once`).
-/

namespace LaneSwitchboards

open Framing Function Transition

variable {codec : ControlCodec}

/-- A frame that a client has written, and the call that it is for. -/
structure WrittenFrame where
  conn : ConnId
  requestAt : ℕ
  call : ClientCall
deriving DecidableEq

/-- The call whose frame is not written yet. -/
def RequestPhase.unsent : RequestPhase → List ClientCall
  | .connecting call | .writing call .. => [call]
  | .idle | .reading .. => []

/-- Where the frame of the call begins. -/
def RequestPhase.begunAt : RequestPhase → Option ℕ
  | .writing _ requestAt _ _ | .reading _ requestAt _ _ => some requestAt
  | .idle | .connecting _ => none

/-- The reply that a call returned, with its connection. -/
def Returned.exchange : Returned → Option (ConnId × Exchange)
  | .ok c x => some (c, x)
  | .unexpected .. | .error _ | .ioError => none

/-! ### What a loop finds -/

namespace ControlConn

variable {conn conn' : ControlConn} {c : ConnId} {frames : List WrittenFrame}
  {reg reg' : MeshRegistry} {now : ℕ} {list : List ServiceRecord}

variable (codec) in
/-- What the loop has not read is nothing, a part of a frame, or the frame of a call. -/
def Owes (conn : ControlConn) (c : ConnId) (frames : List WrittenFrame) : Prop :=
  conn.loop ≠ .returned → conn.unread = [] ∨
    (∃ msg rest, rest ≠ [] ∧ Wire.writeControl codec msg = .ok (conn.unread ++ rest)) ∨
    ∃ call, ⟨c, conn.taken, call⟩ ∈ frames ∧ Wire.writeControl codec call.msg = .ok conn.unread

/-- A turn of the loop leaves what the client has sent. -/
theorem toServer_of_serve (h : conn.serve codec reg now list = some (conn', reg')) :
    conn'.toServer = conn.toServer := by
  unfold serve at h
  split_ifs at h
  split at h
  · dsimp only at h
    split at h
    · cases h
      rfl
    · split at h
      · cases h
        rfl
      · cases h
        rfl
  · cases h
    rfl
  · cases h
    rfl

/-- The loop takes the frame of a call, as a whole. -/
theorem Owes.serve (hcodec : codec.Lawful) (h : conn.Owes codec c frames)
    (hst : conn.serve codec reg now list = some (conn', reg')) :
    ∃ call rest reply, ⟨c, conn.taken, call⟩ ∈ frames ∧
      Wire.readControl codec [conn.unread] = .ok (some (call.msg, rest)) ∧
      (reg.handle now list call.msg).2 = some reply ∧ conn.taken < conn.toServer.length ∧
      conn'.taken = conn.toServer.length ∧ conn'.toServer = conn.toServer ∧
      ∀ x ∈ conn'.exchanges, x ∈ conn.exchanges ∨
        x = ⟨conn.taken, call.msg, conn.toClient.length, reply⟩ := by
  obtain ⟨hloop, hready⟩ := loop_of_serve hst
  have hopen : conn.loop ≠ .returned := by
    rw [hloop]
    exact nofun
  rcases h hopen with hnil | ⟨msg, rest, hrest, hpart⟩ | ⟨call, hmem, hbytes⟩
  · rw [hnil] at hready
    exact absurd hready.1 (by decide)
  · exact absurd ((Wire.ready_iff_of_write hcodec hpart).mp hready) hrest
  · obtain ⟨rest, hread, -⟩ := Wire.readControl_of_write hcodec hbytes
    obtain ⟨reg₁, reply, hhandle, -⟩ := call.handle_msg reg now list
    have hlt : conn.taken < conn.toServer.length := by
      have hne := Wire.writeControl_ne_nil hbytes
      rw [unread, Ne, List.drop_eq_nil_iff] at hne
      omega
    rw [serve_of_write hcodec hloop rfl hbytes hhandle, Option.some.injEq] at hst
    refine ⟨call, rest, reply, hmem, hread, by rw [hhandle], hlt, ?_⟩
    cases hreply : Wire.writeControl codec reply with
    | error e =>
      rw [hreply] at hst
      cases hst
      exact ⟨rfl, rfl, fun x hx => .inl hx⟩
    | ok answer =>
      rw [hreply] at hst
      cases hst
      refine ⟨rfl, rfl, fun x hx => ?_⟩
      rcases List.mem_append.mp hx with hx | hx
      · exact .inl hx
      · exact .inr (List.mem_singleton.mp hx)

theorem Owes.mono {frames' : List WrittenFrame} (h : conn.Owes codec c frames)
    (hsub : frames ⊆ frames') (htoServer : conn'.toServer = conn.toServer)
    (htaken : conn'.taken = conn.taken) (hloop : conn.loop = .returned → conn'.loop = .returned) :
    conn'.Owes codec c frames' := by
  intro hopen
  have hunread : conn'.unread = conn.unread := by rw [unread, unread, htoServer, htaken]
  rw [hunread, htaken]
  refine (h (mt hloop hopen)).imp_right (Or.imp_right ?_)
  rintro ⟨call, hmem, hbytes⟩
  exact ⟨call, hsub hmem, hbytes⟩

end ControlConn

/-! ### What a run does -/

namespace ClientSession

/-- The call that begins. -/
def called (_ : ClientSession) : StreamEvent → ClientSession → List ClientCall
  | .call call, _ => [call]
  | _, _ => []

/-- The frame whose last byte is sent. -/
def wrote (s : ClientSession) : StreamEvent → ClientSession → List WrittenFrame
  | .send, _ =>
    match s.phase, s.stream with
    | .writing call requestAt _ [_], some c => [⟨c, requestAt, call⟩]
    | _, _ => []
  | _, _ => []

/-- The frame that a loop takes, with the answer of the registry. One without an answer changes
nothing. -/
def handled (codec : ControlCodec) (s : ClientSession) :
    StreamEvent → ClientSession → List (ConnId × Exchange)
  | .serve c now list, _ =>
    match s.conns c with
    | none => []
    | some conn =>
      match Wire.readControl codec [conn.unread] with
      | .ok (some (msg, _)) => (s.registry.handle now list msg).2.toList.map fun reply =>
        (c, ⟨conn.taken, msg, conn.toClient.length, reply⟩)
      | .ok none | .error _ => []
  | _, _ => []

/-- The replies that calls returned, in order. -/
def replies (s : ClientSession) : List (ConnId × Exchange) :=
  s.returned.filterMap Returned.exchange

variable {s s' : ClientSession} {e : StreamEvent} {c : ConnId} {conn conn' : ControlConn}
  {call : ClientCall} {calls : List ClientCall} {frames : List WrittenFrame}
  {taken : List (ConnId × Exchange)} {r : Returned}

@[simp] theorem replies_setConn : (s.setConn c conn).replies = s.replies := rfl

theorem replies_finish_ok {x : Exchange} :
    (s.finish (.ok c x)).replies = s.replies ++ [(c, x)] := by
  simp [replies, finish, Returned.exchange]

theorem replies_finish (h : r.exchange = none) : (s.finish r).replies = s.replies := by
  simp [replies, finish, h]

theorem registry_beginWrite : (s.beginWrite codec conn call).registry = s.registry := by
  unfold beginWrite
  split <;> rfl

theorem registry_got {requestAt replyAt : ℕ} {bytes : List UInt8} :
    (s.got codec c call requestAt replyAt bytes).registry = s.registry := by
  unfold got
  split_ifs
  · split <;> rfl
  · rfl

variable (codec s c conn call) in
/-- What a request finds before its first byte. -/
theorem beginWrite_spec :
    (s.beginWrite codec conn call).conns = s.conns ∧
      (s.beginWrite codec conn call).replies = s.replies ∧
      ((s.beginWrite codec conn call).phase = .idle ∨
        (s.beginWrite codec conn call).stream = s.stream ∧ ∃ bytes,
          (s.beginWrite codec conn call).phase =
            .writing call conn.toServer.length [] bytes) := by
  unfold beginWrite
  split
  · next bytes _ => exact ⟨rfl, rfl, .inr ⟨rfl, bytes, rfl⟩⟩
  · exact ⟨rfl, replies_finish (s := s) rfl, .inl rfl⟩
  · exact ⟨rfl, replies_finish (s := s) rfl, .inl rfl⟩

variable (codec s c call) in
/-- What a byte of a reply may lead to. -/
theorem got_spec (requestAt replyAt : ℕ) (bytes : List UInt8) :
    (s.got codec c call requestAt replyAt bytes).conns = s.conns ∧
      ((s.got codec c call requestAt replyAt bytes).replies = s.replies ∧
          ((s.got codec c call requestAt replyAt bytes).phase = .idle ∨
            (s.got codec c call requestAt replyAt bytes).stream = s.stream ∧
            (s.got codec c call requestAt replyAt bytes).phase =
              .reading call requestAt replyAt bytes) ∨
        ∃ x, x.requestAt = requestAt ∧
          s.got codec c call requestAt replyAt bytes = s.finish (.ok c x)) := by
  unfold got
  split_ifs
  · split
    · next reply _ _ =>
      dsimp only
      split_ifs
      · exact ⟨rfl, .inr ⟨_, rfl, rfl⟩⟩
      · exact ⟨rfl, .inl ⟨replies_finish rfl, .inl rfl⟩⟩
    · exact ⟨rfl, .inl ⟨replies_finish (s := s) rfl, .inl rfl⟩⟩
    · exact ⟨rfl, .inl ⟨replies_finish (s := s) rfl, .inl rfl⟩⟩
  · exact ⟨rfl, .inl ⟨rfl, .inr ⟨rfl, rfl⟩⟩⟩

variable (codec s c call) in
theorem phase_got (requestAt replyAt : ℕ) (bytes : List UInt8) :
    (s.got codec c call requestAt replyAt bytes).phase = .idle ∨
      (s.got codec c call requestAt replyAt bytes).phase =
        .reading call requestAt replyAt bytes := by
  rcases (got_spec codec s c call requestAt replyAt bytes).2 with
    ⟨-, hidle | ⟨-, hreading⟩⟩ | ⟨x, -, hx⟩
  · exact .inl hidle
  · exact .inr hreading
  · rw [hx]
    exact .inl rfl

variable (codec) in
/-- What an event does. -/
inductive Move (s : ClientSession) : StreamEvent → ClientSession → Prop
  /-- The request ends, or only the registry changes. -/
  | rest {e : StreamEvent} {s' : ClientSession} (called : s.called e s' = [])
      (wrote : s.wrote e s' = []) (handled : s.handled codec e s' = [])
      (registry : s'.registry = s.registry ∨ e = .registry s'.registry)
      (conns : s'.conns = s.conns) (replies : s'.replies = s.replies)
      (phase : s'.phase = .idle ∨ s'.phase = s.phase ∧ s'.stream = s.stream) : Move s e s'
  | call {s' : ClientSession} (call : ClientCall) (idle : s.phase = .idle)
      (registry : s'.registry = s.registry)
      (conns : s'.conns = s.conns) (replies : s'.replies = s.replies)
      (phase : s'.phase = .idle ∨ s'.phase = .connecting call ∨ ∃ c conn bytes,
        s'.stream = some c ∧ s.conns c = some conn ∧
          s'.phase = .writing call conn.toServer.length [] bytes) : Move s (.call call) s'
  | connected {s' : ClientSession} (call : ClientCall) (connecting : s.phase = .connecting call)
      (registry : s'.registry = s.registry)
      (conns : s'.conns = update s.conns s.nextConn (some .new)) (replies : s'.replies = s.replies)
      (phase : s'.phase = .idle ∨ s'.stream = some s.nextConn ∧ ∃ bytes,
        s'.phase = .writing call 0 [] bytes) : Move s .connected s'
  | send (call : ClientCall) (requestAt : ℕ) (sent : List UInt8) (b : UInt8) (rest : List UInt8)
      (c : ConnId) (conn : ControlConn)
      (writing : s.phase = .writing call requestAt sent (b :: rest))
      (stream : s.stream = some c) (hc : s.conns c = some conn) :
      Move s .send { s.setConn c { conn with toServer := conn.toServer ++ [b] } with
        phase := if rest = [] then .reading call requestAt conn.received []
          else .writing call requestAt (sent ++ [b]) rest }
  | receive (call : ClientCall) (requestAt replyAt : ℕ) (got : List UInt8) (b : UInt8) (c : ConnId)
      (conn : ControlConn) (reading : s.phase = .reading call requestAt replyAt got)
      (stream : s.stream = some c) (hc : s.conns c = some conn) :
      Move s .receive ((s.setConn c { conn with received := conn.received + 1 }).got codec c call
        requestAt replyAt (got ++ [b]))
  | serve (c : ConnId) (now : ℕ) (list : List ServiceRecord) (conn conn' : ControlConn)
      (reg : MeshRegistry) (hc : s.conns c = some conn)
      (hserve : conn.serve codec s.registry now list = some (conn', reg)) :
      Move s (.serve c now list) { s.setConn c conn' with registry := reg }
  /-- A loop writes a byte, or returns. -/
  | loop {e : StreamEvent} (c : ConnId) (conn conn' : ControlConn)
      (called : s.called e (s.setConn c conn') = []) (wrote : s.wrote e (s.setConn c conn') = [])
      (handled : s.handled codec e (s.setConn c conn') = []) (hc : s.conns c = some conn)
      (toServer : conn'.toServer = conn.toServer) (taken : conn'.taken = conn.taken)
      (exchanges : conn'.exchanges = conn.exchanges)
      (loop : conn.loop = .returned → conn'.loop = .returned) : Move s e (s.setConn c conn')

theorem move_of_fail {r : Returned} (hr : r.exchange = none) (called : s.called e (s.fail r) = [])
    (wrote : s.wrote e (s.fail r) = []) (handled : s.handled codec e (s.fail r) = []) :
    Move codec s e (s.fail r) :=
  .rest called wrote handled (.inl rfl) rfl (replies_finish hr) (.inl rfl)

/-- **Inversion of a step.** -/
theorem move_of_step (hst : s.step codec e = some s') : Move codec s e s' := by
  cases e with
  | call call =>
    change s.call codec call = some s' at hst
    unfold ClientSession.call at hst
    split at hst
    · next c hphase hstream =>
      obtain ⟨conn, hc, rfl⟩ := Option.map_eq_some_iff.mp hst
      obtain ⟨hconns, hreplies, hbegun⟩ := beginWrite_spec codec s conn call
      refine .call call hphase registry_beginWrite hconns hreplies
        (hbegun.imp_right fun ⟨hs', bytes, hwriting⟩ => ?_)
      exact .inr ⟨c, conn, bytes, hs'.trans hstream, hc, hwriting⟩
    · next hphase _ =>
      cases hst
      exact .call call hphase rfl rfl rfl (.inr (.inl rfl))
    · cases hst
  | connected =>
    change s.connected codec = some s' at hst
    unfold ClientSession.connected at hst
    split at hst
    · next call hphase =>
      cases hst
      obtain ⟨hconns, hreplies, hbegun⟩ := beginWrite_spec codec
        { s.setConn s.nextConn .new with nextConn := s.nextConn + 1, stream := some s.nextConn }
        .new call
      exact .connected call hphase registry_beginWrite hconns hreplies hbegun
    · cases hst
  | send =>
    change s.send = some s' at hst
    unfold ClientSession.send at hst
    split at hst
    · next call requestAt sent b rest c hphase hstream =>
      obtain ⟨conn, hc, rfl⟩ := Option.map_eq_some_iff.mp hst
      exact .send call requestAt sent b rest c conn hphase hstream hc
    · cases hst
  | receive =>
    change s.receive codec = some s' at hst
    unfold ClientSession.receive at hst
    split at hst
    · next call requestAt replyAt got c hphase hstream =>
      obtain ⟨conn, hc, hst⟩ := Option.bind_eq_some_iff.mp hst
      obtain ⟨b, -, rfl⟩ := Option.map_eq_some_iff.mp hst
      exact .receive call requestAt replyAt got b c conn hphase hstream hc
    · cases hst
  | eof =>
    change s.eof = some s' at hst
    unfold ClientSession.eof at hst
    split at hst
    · obtain ⟨conn, -, hst⟩ := Option.bind_eq_some_iff.mp hst
      split_ifs at hst
      cases hst
      exact move_of_fail rfl rfl rfl rfl
    · cases hst
  | timeout =>
    simp only [step] at hst
    split at hst
    · cases hst
      exact move_of_fail rfl rfl rfl rfl
    · cases hst
  | ioError =>
    simp only [step] at hst
    split_ifs at hst
    cases hst
    exact move_of_fail rfl rfl rfl rfl
  | drop =>
    simp only [step] at hst
    split_ifs at hst
    cases hst
    exact .rest rfl rfl rfl (.inl rfl) rfl rfl (.inl rfl)
  | serve c now list =>
    obtain ⟨conn, hc, hst⟩ := Option.bind_eq_some_iff.mp hst
    obtain ⟨⟨conn', reg⟩, hserve, rfl⟩ := Option.map_eq_some_iff.mp hst
    exact .serve c now list conn conn' reg hc hserve
  | reply c =>
    obtain ⟨conn, hc, hst⟩ := Option.bind_eq_some_iff.mp hst
    obtain ⟨conn', hreply, rfl⟩ := Option.map_eq_some_iff.mp hst
    obtain ⟨b, rest, hloop, rfl⟩ := ControlConn.reply_spec hreply
    refine .loop c conn _ rfl rfl rfl hc rfl rfl rfl fun hreturned => ?_
    rw [hloop] at hreturned
    cases hreturned
  | close c =>
    obtain ⟨conn, hc, rfl⟩ := Option.map_eq_some_iff.mp hst
    exact .loop c conn _ rfl rfl rfl hc rfl rfl rfl fun _ => rfl
  | registry reg =>
    cases hst
    exact .rest rfl rfl rfl (.inr rfl) rfl rfl (.inr ⟨rfl, rfl⟩)

/-- What was returned stays returned. -/
theorem length_replies_of_step (hst : s.step codec e = some s') :
    s.replies.length ≤ s'.replies.length := by
  cases move_of_step hst with
  | rest called wrote handled registry conns replies phase => rw [replies]
  | call call idle registry conns replies phase => rw [replies]
  | connected call connecting registry conns replies phase => rw [replies]
  | send call requestAt sent b rest c conn writing stream hc => exact le_rfl
  | receive call requestAt replyAt got b c conn reading stream hc =>
    obtain ⟨-, ⟨hreplies, -⟩ | ⟨x, -, hok⟩⟩ := got_spec codec
      (s.setConn c { conn with received := conn.received + 1 }) c call requestAt replyAt
      (got ++ [b])
    · rw [hreplies, replies_setConn]
    · rw [hok, replies_finish_ok, replies_setConn, List.length_append]
      exact Nat.le_add_right _ _
  | serve c now list conn conn' reg hc hserve => exact le_rfl
  | loop c conn conn' called wrote handled hc toServer taken exchanges loop => exact le_rfl

/-! ### Frames -/

/-- The frames that are written, each for a call of its own. -/
structure Writes (calls : List ClientCall) (frames : List WrittenFrame) (s : ClientSession) :
    Prop where
  calls : (frames.map (·.call) ++ s.phase.unsent).Sublist calls
  nodup : (frames.map fun w => (w.conn, w.requestAt)).Nodup
  before : ∀ w ∈ frames, ∃ conn, s.conns w.conn = some conn ∧ w.requestAt < conn.toServer.length
  begun : ∀ c call requestAt sent rest, s.stream = some c →
    s.phase = .writing call requestAt sent rest →
      ∀ w ∈ frames, w.conn = c → w.requestAt < requestAt

theorem writes_new (reg : MeshRegistry) : (new reg).Writes [] [] where
  calls := List.Sublist.refl _
  nodup := List.nodup_nil
  before := fun _ hw => absurd hw List.not_mem_nil
  begun := fun _ _ _ _ _ _ _ _ hw => absurd hw List.not_mem_nil

/-- What the client has sent stays on the connections. -/
theorem Writes.before_setConn (conn' : ControlConn) (h : s.Writes calls frames)
    (hc : s.conns c = some conn)
    (hle : conn.toServer.length ≤ conn'.toServer.length) :
    ∀ w ∈ frames, ∃ conn₁, (s.setConn c conn').conns w.conn = some conn₁ ∧
      w.requestAt < conn₁.toServer.length := by
  intro w hw
  obtain ⟨conn₁, hc₁, hlt⟩ := h.before w hw
  by_cases hwc : w.conn = c
  · rw [hwc, hc] at hc₁
    obtain rfl := Option.some.inj hc₁
    exact ⟨conn', by simp [setConn, hwc], hlt.trans_le hle⟩
  · exact ⟨conn₁, by simpa [setConn, update_of_ne hwc] using hc₁, hlt⟩

theorem Writes.step (h : s.Writes calls frames) (hturn : s.InTurn codec)
    (hst : s.step codec e = some s') :
    s'.Writes (calls ++ s.called e s') (frames ++ s.wrote e s') := by
  cases move_of_step hst with
  | rest called wrote handled registry conns replies phase =>
    rw [called, wrote, List.append_nil, List.append_nil]
    refine ⟨?_, h.nodup, by rw [conns]; exact h.before, ?_⟩
    · rcases phase with hphase | ⟨hphase, -⟩
      · rw [hphase, RequestPhase.unsent, List.append_nil]
        exact (List.sublist_append_left _ _).trans h.calls
      · rw [hphase]
        exact h.calls
    · intro c call requestAt sent rest hstream hwriting
      rcases phase with hphase | ⟨hphase, hs'⟩
      · rw [hphase] at hwriting
        cases hwriting
      · exact h.begun c call requestAt sent rest (hs' ▸ hstream) (hphase ▸ hwriting)
  | call call idle registry conns replies phase =>
    change s'.Writes (calls ++ [call]) (frames ++ [])
    have hcalls := h.calls
    rw [idle, RequestPhase.unsent, List.append_nil] at hcalls
    rw [List.append_nil]
    refine ⟨?_, h.nodup, by rw [conns]; exact h.before, ?_⟩
    · rcases phase with hphase | hphase | ⟨_, _, _, _, _, hphase⟩ <;>
        rw [hphase, RequestPhase.unsent]
      · rw [List.append_nil]
        exact hcalls.trans (List.sublist_append_left _ _)
      · exact hcalls.append_right _
      · exact hcalls.append_right _
    · intro c call' requestAt sent rest hstream hwriting w hw hwc
      rcases phase with hphase | hphase | ⟨c', conn, bytes, hstream', hc, hphase⟩ <;>
        rw [hphase] at hwriting <;> cases hwriting
      obtain rfl : c' = c := Option.some.inj (hstream'.symm.trans hstream)
      obtain ⟨conn', hc', hlt⟩ := h.before w hw
      rw [hwc, hc] at hc'
      obtain rfl := Option.some.inj hc'
      exact hlt
  | connected call connecting registry conns replies phase =>
    change s'.Writes (calls ++ []) (frames ++ [])
    have hcalls := h.calls
    rw [connecting, RequestPhase.unsent] at hcalls
    rw [List.append_nil, List.append_nil]
    have hold : ∀ w ∈ frames, w.conn ≠ s.nextConn := by
      intro w hw hwc
      obtain ⟨conn, hc, -⟩ := h.before w hw
      rw [hwc, hturn.fresh _ le_rfl] at hc
      cases hc
    refine ⟨?_, h.nodup, fun w hw => ?_, ?_⟩
    · rcases phase with hphase | ⟨_, _, hphase⟩ <;> rw [hphase, RequestPhase.unsent]
      · rw [List.append_nil]
        exact (List.sublist_append_left _ _).trans hcalls
      · exact hcalls
    · rw [conns, update_of_ne (hold w hw)]
      exact h.before w hw
    · intro c call' requestAt sent rest hstream hwriting w hw hwc
      rcases phase with hphase | ⟨hstream', bytes, hphase⟩
      · rw [hphase] at hwriting
        cases hwriting
      · obtain rfl : s.nextConn = c := Option.some.inj (hstream'.symm.trans hstream)
        exact absurd hwc (hold w hw)
  | send call requestAt sent b rest c conn writing stream hc =>
    obtain ⟨conn₁, hc₁, hsending, -⟩ := (writing ▸ hturn.conn c stream :)
    obtain rfl : conn = conn₁ := Option.some.inj (hc.symm.trans hc₁)
    have hlength := hsending.length
    have hbefore := h.before_setConn { conn with toServer := conn.toServer ++ [b] } hc (by simp)
    have hcalls := h.calls
    rw [writing, RequestPhase.unsent] at hcalls
    change Writes (calls ++ []) _ _
    rw [List.append_nil]
    by_cases hrest : rest = []
    · -- the last byte: the frame is written
      subst hrest
      have hwrote : s.wrote .send { s.setConn c { conn with toServer := conn.toServer ++ [b] } with
          phase := .reading call requestAt conn.received [] } = [⟨c, requestAt, call⟩] := by
        simp only [wrote, writing, stream]
      rw [if_pos rfl, hwrote]
      refine ⟨?_, ?_, ?_, fun _ _ _ _ _ _ hwriting => by cases hwriting⟩
      · rw [List.map_append, RequestPhase.unsent, List.append_nil]
        exact hcalls
      · rw [List.map_append, List.map_singleton, List.nodup_append]
        refine ⟨h.nodup, List.nodup_singleton _, fun p hp q hq hpq => ?_⟩
        obtain ⟨w, hw, rfl⟩ := List.mem_map.mp hp
        obtain ⟨hwc, hwat⟩ := Prod.mk.inj (hpq.trans (List.mem_singleton.mp hq))
        exact absurd hwat (h.begun c call requestAt sent _ stream writing w hw hwc).ne
      · intro w hw
        rcases List.mem_append.mp hw with hw | hw
        · exact hbefore w hw
        · obtain rfl := List.mem_singleton.mp hw
          refine ⟨{ conn with toServer := conn.toServer ++ [b] }, by simp [setConn], ?_⟩
          change requestAt < (conn.toServer ++ [b]).length
          rw [List.length_append, hlength, List.length_singleton]
          omega
    · have hwrote : ∀ s', s.wrote .send s' = [] := by
        intro s'
        obtain ⟨b', rest', rfl⟩ := List.exists_cons_of_ne_nil hrest
        simp only [wrote, writing]
      rw [if_neg hrest, hwrote, List.append_nil]
      refine ⟨hcalls, h.nodup, hbefore, fun c' call' requestAt' sent' rest' hstream hwriting => ?_⟩
      cases hwriting
      exact h.begun c' call requestAt sent _ hstream writing
  | receive call requestAt replyAt got b c conn reading stream hc =>
    have hbefore := h.before_setConn { conn with received := conn.received + 1 } hc le_rfl
    have hcalls := h.calls
    rw [reading, RequestPhase.unsent, List.append_nil] at hcalls
    have hphase := phase_got codec (s.setConn c { conn with received := conn.received + 1 }) c call
      requestAt replyAt (got ++ [b])
    change Writes (calls ++ []) (frames ++ []) _
    rw [List.append_nil, List.append_nil]
    refine ⟨?_, h.nodup, ?_, fun _ _ _ _ _ _ hwriting => ?_⟩
    · rcases hphase with hphase | hphase <;> rw [hphase, RequestPhase.unsent, List.append_nil] <;>
        exact hcalls
    · rw [(got_spec _ _ _ _ _ _ _).1]
      exact hbefore
    · rcases hphase with hphase | hphase <;> rw [hphase] at hwriting <;> cases hwriting
  | serve c now list conn conn' reg hc hserve =>
    change Writes (calls ++ []) (frames ++ []) _
    rw [List.append_nil, List.append_nil]
    refine ⟨h.calls, h.nodup, h.before_setConn conn' hc ?_, h.begun⟩
    rw [ControlConn.toServer_of_serve hserve]
  | loop c conn conn' called wrote handled hc toServer taken exchanges loop =>
    rw [called, wrote, List.append_nil, List.append_nil]
    exact ⟨h.calls, h.nodup, h.before_setConn conn' hc (by rw [toServer]), h.begun⟩

/-! ### Frames that are taken -/

variable (codec) in
/-- The frames that the loops have taken. -/
structure Takes (frames : List WrittenFrame) (taken : List (ConnId × Exchange))
    (s : ClientSession) : Prop where
  owes : ∀ c conn, s.conns c = some conn → conn.Owes codec c frames
  nodup : (taken.map fun p => (p.1, p.2.requestAt)).Nodup
  before : ∀ p ∈ taken, ∃ conn, s.conns p.1 = some conn ∧ p.2.requestAt < conn.taken
  written : ∀ p ∈ taken, ∃ call, ⟨p.1, p.2.requestAt, call⟩ ∈ frames ∧ p.2.request = call.msg

theorem takes_new (reg : MeshRegistry) : (new reg).Takes codec [] [] where
  owes := fun _ _ hc => by cases hc
  nodup := List.nodup_nil
  before := fun _ hp => absurd hp List.not_mem_nil
  written := fun _ hp => absurd hp List.not_mem_nil

/-- A connection changes otherwise than by a turn of its loop. -/
theorem Takes.setConn {frames' : List WrittenFrame} (h : s.Takes codec frames taken)
    (hsub : frames ⊆ frames') (hc : s.conns c = some conn) (htaken : conn'.taken = conn.taken)
    (howes : conn'.Owes codec c frames') : (s.setConn c conn').Takes codec frames' taken where
  owes := by
    intro c' conn₁ hc₁
    by_cases hcc : c' = c
    · subst hcc
      obtain rfl : conn' = conn₁ := by simpa [ClientSession.setConn] using hc₁
      exact howes
    · have hc₁' : s.conns c' = some conn₁ := by
        simpa [ClientSession.setConn, update_of_ne hcc] using hc₁
      exact (h.owes c' conn₁ hc₁').mono hsub rfl rfl id
  nodup := h.nodup
  before := by
    intro p hp
    obtain ⟨conn₁, hc₁, hlt⟩ := h.before p hp
    by_cases hpc : p.1 = c
    · rw [hpc, hc] at hc₁
      obtain rfl := Option.some.inj hc₁
      exact ⟨conn', by simp [ClientSession.setConn, hpc], by rwa [htaken]⟩
    · exact ⟨conn₁, by simpa [ClientSession.setConn, update_of_ne hpc] using hc₁, hlt⟩
  written := by
    intro p hp
    obtain ⟨call, hmem, hrequest⟩ := h.written p hp
    exact ⟨call, hsub hmem, hrequest⟩

/-- Only the connections matter. -/
theorem Takes.congr (h : s.Takes codec frames taken) (hconns : s'.conns = s.conns) :
    s'.Takes codec frames taken :=
  ⟨hconns ▸ h.owes, h.nodup, hconns ▸ h.before, h.written⟩

/-- A loop takes a frame of a call. -/
theorem handled_of_serve (s' : ClientSession) (hcodec : codec.Lawful)
    (h : s.Takes codec frames taken) {now : ℕ}
    {list : List ServiceRecord} {reg : MeshRegistry} (hc : s.conns c = some conn)
    (hserve : conn.serve codec s.registry now list = some (conn', reg)) :
    ∃ x call, s.handled codec (.serve c now list) s' = [(c, x)] ∧ x.requestAt = conn.taken ∧
      x.request = call.msg ∧ ⟨c, conn.taken, call⟩ ∈ frames ∧ conn.taken < conn.toServer.length ∧
      conn'.taken = conn.toServer.length ∧ conn'.toServer = conn.toServer ∧
      ∀ y ∈ conn'.exchanges, y ∈ conn.exchanges ∨ y = x := by
  obtain ⟨call, rest, reply, hmem, hread, hhandle, hlt, htaken, htoServer, hx⟩ :=
    (h.owes c conn hc).serve hcodec hserve
  refine ⟨⟨conn.taken, call.msg, conn.toClient.length, reply⟩, call, ?_, rfl, rfl, hmem, hlt,
    htaken, htoServer, hx⟩
  simp only [handled, hc, hread, hhandle, Option.toList_some, List.map_singleton]

theorem Takes.step (hcodec : codec.Lawful) (h : s.Takes codec frames taken)
    (hturn : s.InTurn codec) (hst : s.step codec e = some s') :
    s'.Takes codec (frames ++ s.wrote e s') (taken ++ s.handled codec e s') := by
  cases move_of_step hst with
  | rest called wrote handled registry conns replies phase =>
    rw [wrote, handled, List.append_nil, List.append_nil]
    exact h.congr conns
  | call call idle registry conns replies phase =>
    change s'.Takes codec (frames ++ []) (taken ++ [])
    rw [List.append_nil, List.append_nil]
    exact h.congr conns
  | connected call connecting registry conns replies phase =>
    change s'.Takes codec (frames ++ []) (taken ++ [])
    rw [List.append_nil, List.append_nil]
    refine ⟨fun c conn hc => ?_, h.nodup, fun p hp => ?_, h.written⟩
    · rw [conns] at hc
      by_cases hcc : c = s.nextConn
      · rw [hcc, update_self, Option.some.injEq] at hc
        exact fun _ => .inl (hc ▸ rfl)
      · rw [update_of_ne hcc] at hc
        exact h.owes c conn hc
    · obtain ⟨conn, hc, hlt⟩ := h.before p hp
      have hne : p.1 ≠ s.nextConn := by
        intro hpc
        rw [hpc, hturn.fresh _ le_rfl] at hc
        cases hc
      exact ⟨conn, by rwa [conns, update_of_ne hne], hlt⟩
  | send call requestAt sent b rest c conn writing stream hc =>
    obtain ⟨conn₁, hc₁, hsending, hwritten, -⟩ := (writing ▸ hturn.conn c stream :)
    obtain rfl : conn = conn₁ := Option.some.inj (hc.symm.trans hc₁)
    set conn' : ControlConn := { conn with toServer := conn.toServer ++ [b] } with hconn'
    change Takes codec _ (taken ++ []) _
    rw [List.append_nil]
    suffices (s.setConn c conn').Takes codec _ taken from this.congr rfl
    refine h.setConn (List.subset_append_left _ _) hc rfl fun hopen => ?_
    -- the loop has not read a byte of the frame
    obtain ⟨hloop, htaken⟩ := (hsending.send b).loop.resolve_left hopen
    have hunread : conn'.unread = sent ++ [b] := (hsending.send b).unread_eq hloop
    rw [hunread]
    by_cases hrest : rest = []
    · subst hrest
      refine .inr (.inr ⟨call, List.mem_append_right _ ?_, hwritten⟩)
      rw [htaken]
      simp only [wrote, writing, stream, List.mem_singleton]
    · refine .inr (.inl ⟨call.msg, rest, hrest, ?_⟩)
      rw [hwritten, List.append_assoc, List.singleton_append]
  | receive call requestAt replyAt got b c conn reading stream hc =>
    change Takes codec (frames ++ []) (taken ++ []) _
    rw [List.append_nil, List.append_nil]
    have hset :
        (s.setConn c { conn with received := conn.received + 1 }).Takes codec frames taken :=
      h.setConn (List.Subset.refl _) hc rfl
        ((h.owes c conn hc).mono (List.Subset.refl _) rfl rfl id)
    exact hset.congr (got_spec _ _ _ _ _ _ _).1
  | serve c now list conn conn' reg hc hserve =>
    change Takes codec (frames ++ []) _ _
    rw [List.append_nil]
    obtain ⟨x, call, hhandled, hat, hrequest, hmem, hlt, htaken, htoServer, -⟩ :=
      handled_of_serve { s.setConn c conn' with registry := reg } hcodec h hc hserve
    rw [hhandled]
    refine ⟨fun c' conn₁ hc₁ => ?_, ?_, ?_, ?_⟩
    · by_cases hcc : c' = c
      · subst hcc
        obtain rfl : conn' = conn₁ := by simpa [ClientSession.setConn] using hc₁
        refine fun _ => .inl ?_
        rw [ControlConn.unread, htaken, htoServer, List.drop_length]
      · have hc₁' : s.conns c' = some conn₁ := by
          simpa [ClientSession.setConn, update_of_ne hcc] using hc₁
        exact h.owes c' conn₁ hc₁'
    · rw [List.map_append, List.map_singleton, List.nodup_append]
      refine ⟨h.nodup, List.nodup_singleton _, fun p hp q hq hpq => ?_⟩
      obtain ⟨y, hy, rfl⟩ := List.mem_map.mp hp
      obtain ⟨hyc, hyat⟩ := Prod.mk.inj (hpq.trans (List.mem_singleton.mp hq))
      obtain ⟨conn₁, hc₁, hlt₁⟩ := h.before y hy
      rw [hyc, hc] at hc₁
      obtain rfl := Option.some.inj hc₁
      rw [hyat, hat] at hlt₁
      exact hlt₁.false
    · intro p hp
      rcases List.mem_append.mp hp with hp | hp
      · obtain ⟨conn₁, hc₁, hlt₁⟩ := h.before p hp
        by_cases hpc : p.1 = c
        · rw [hpc, hc] at hc₁
          obtain rfl := Option.some.inj hc₁
          exact ⟨conn', by simp [ClientSession.setConn, hpc], by rw [htaken]; omega⟩
        · exact ⟨conn₁, by simpa [ClientSession.setConn, update_of_ne hpc] using hc₁, hlt₁⟩
      · obtain rfl := List.mem_singleton.mp hp
        exact ⟨conn', by simp [ClientSession.setConn], by rwa [hat, htaken]⟩
    · intro p hp
      rcases List.mem_append.mp hp with hp | hp
      · exact h.written p hp
      · obtain rfl := List.mem_singleton.mp hp
        exact ⟨call, hat ▸ hmem, hrequest⟩
  | loop c conn conn' called wrote handled hc toServer taken' exchanges loop =>
    rw [wrote, handled, List.append_nil, List.append_nil]
    exact h.setConn (List.Subset.refl _) hc taken'
      ((h.owes c conn hc).mono (List.Subset.refl _) toServer taken' loop)

/-! ### Replies that are returned -/

/-- The replies that the calls returned since some moment, when `n` had been returned and the
frames `before` were taken, are among the answers of the registry since then, in order. -/
structure Answers (before taken : List (ConnId × Exchange)) (n : ℕ) (s : ClientSession) :
    Prop where
  exchanges : ∀ c conn, s.conns c = some conn → ∀ x ∈ conn.exchanges, (c, x) ∈ before ++ taken
  le : n ≤ s.replies.length
  replies : (s.replies.drop n).Sublist taken
  current : ∀ c requestAt, s.stream = some c → s.phase.begunAt = some requestAt →
    ∀ x, (c, x) ∈ before ++ taken → x.requestAt = requestAt →
      (s.replies.drop n ++ [(c, x)]).Sublist taken

variable {before : List (ConnId × Exchange)} {n : ℕ}

/-- The moment itself, when no request is under way. -/
theorem answers_of_idle
    (hx : ∀ c conn, s.conns c = some conn → ∀ x ∈ conn.exchanges, (c, x) ∈ before)
    (hidle : s.phase = .idle) : s.Answers before [] s.replies.length where
  exchanges := by rwa [List.append_nil]
  le := le_rfl
  replies := by rw [List.drop_length]
  current := by
    intro c requestAt _ hat
    rw [hidle] at hat
    cases hat

/-- A frame is taken. -/
theorem Answers.append (h : s.Answers before taken n) (more : List (ConnId × Exchange)) :
    s.Answers before (taken ++ more) n where
  exchanges := by
    intro c conn hc x hx
    rw [← List.append_assoc]
    exact List.mem_append_left _ (h.exchanges c conn hc x hx)
  le := h.le
  replies := h.replies.trans (List.sublist_append_left _ _)
  current := by
    intro c requestAt hstream hat x hx hxat
    rw [← List.append_assoc] at hx
    rcases List.mem_append.mp hx with hx | hx
    · exact (h.current c requestAt hstream hat x hx hxat).trans (List.sublist_append_left _ _)
    · exact h.replies.append (List.singleton_sublist.mpr hx)

/-- A connection changes. -/
theorem Answers.setConn (h : s.Answers before taken n)
    (hx : ∀ x ∈ conn'.exchanges, (c, x) ∈ before ++ taken) :
    (s.setConn c conn').Answers before taken n where
  exchanges := by
    intro c' conn₁ hc₁ x hx₁
    by_cases hcc : c' = c
    · subst hcc
      obtain rfl : conn' = conn₁ := by simpa [ClientSession.setConn] using hc₁
      exact hx x hx₁
    · have hc₁' : s.conns c' = some conn₁ := by
        simpa [ClientSession.setConn, update_of_ne hcc] using hc₁
      exact h.exchanges c' conn₁ hc₁' x hx₁
  le := h.le
  replies := h.replies
  current := h.current

/-- The request goes on, or ends without a reply. -/
theorem Answers.congr (h : s.Answers before taken n)
    (hx : ∀ c conn, s'.conns c = some conn → ∀ x ∈ conn.exchanges, (c, x) ∈ before ++ taken)
    (hreplies : s'.replies = s.replies)
    (hcurrent : s'.phase.begunAt = none ∨
      s'.phase.begunAt = s.phase.begunAt ∧ s'.stream = s.stream) : s'.Answers before taken n where
  exchanges := hx
  le := hreplies ▸ h.le
  replies := hreplies ▸ h.replies
  current := by
    intro c requestAt hstream hat
    rcases hcurrent with hnone | ⟨hsame, hs'⟩
    · rw [hnone] at hat
      cases hat
    · rw [hreplies]
      exact h.current c requestAt (hs' ▸ hstream) (hsame ▸ hat)

/-- A request begins. -/
theorem Answers.begin (h : s.Answers before taken n) {requestAt : ℕ}
    (hx : ∀ c conn, s'.conns c = some conn → ∀ x ∈ conn.exchanges, (c, x) ∈ before ++ taken)
    (hreplies : s'.replies = s.replies) (hstream : s'.stream = some c)
    (hat : s'.phase.begunAt = some requestAt)
    (hnew : ∀ x, (c, x) ∈ before ++ taken → x.requestAt ≠ requestAt) :
    s'.Answers before taken n where
  exchanges := hx
  le := hreplies ▸ h.le
  replies := hreplies ▸ h.replies
  current := by
    intro c' requestAt' hstream' hat' x hmem hxat
    obtain rfl : c = c' := Option.some.inj (hstream.symm.trans hstream')
    obtain rfl : requestAt = requestAt' := Option.some.inj (hat.symm.trans hat')
    exact absurd hxat (hnew x hmem)

theorem Answers.step (hcodec : codec.Lawful) (h : s.Answers before taken n)
    (hwrites : s.Writes calls frames) (htakes : s.Takes codec frames (before ++ taken))
    (hturn : s.InTurn codec) (hturn' : s'.InTurn codec) (hst : s.step codec e = some s') :
    s'.Answers before (taken ++ s.handled codec e s') n := by
  cases move_of_step hst with
  | rest called wrote handled registry conns replies phase =>
    rw [handled, List.append_nil]
    refine h.congr (conns ▸ h.exchanges) replies
      (phase.imp (fun hphase => ?_) fun ⟨hphase, hs'⟩ => ?_)
    · rw [hphase]
      rfl
    · exact ⟨by rw [hphase], hs'⟩
  | call call idle registry conns replies phase =>
    change s'.Answers before (taken ++ []) n
    rw [List.append_nil]
    rcases phase with hphase | hphase | ⟨c, conn, bytes, hstream, hc, hphase⟩
    · exact h.congr (conns ▸ h.exchanges) replies (.inl (by rw [hphase]; rfl))
    · exact h.congr (conns ▸ h.exchanges) replies (.inl (by rw [hphase]; rfl))
    · refine h.begin (conns ▸ h.exchanges) replies hstream (by rw [hphase]; rfl) fun x hx hat => ?_
      -- every frame on the connection begins before its end
      obtain ⟨call', hmem, -⟩ := htakes.written _ hx
      obtain ⟨conn₁, hc₁, hlt⟩ := hwrites.before _ hmem
      obtain rfl : conn = conn₁ := Option.some.inj (hc.symm.trans hc₁)
      exact hlt.ne hat
  | connected call connecting registry conns replies phase =>
    change s'.Answers before (taken ++ []) n
    rw [List.append_nil]
    have hexchanges : ∀ c conn, s'.conns c = some conn →
        ∀ x ∈ conn.exchanges, (c, x) ∈ before ++ taken := by
      intro c conn hc x hx
      rw [conns] at hc
      by_cases hcc : c = s.nextConn
      · rw [hcc, update_self, Option.some.injEq] at hc
        rw [← hc] at hx
        cases hx
      · rw [update_of_ne hcc] at hc
        exact h.exchanges c conn hc x hx
    rcases phase with hphase | ⟨hstream, bytes, hphase⟩
    · exact h.congr hexchanges replies (.inl (by rw [hphase]; rfl))
    · refine h.begin hexchanges replies hstream (by rw [hphase]; rfl) fun x hx _ => ?_
      obtain ⟨conn, hc, -⟩ := htakes.before _ hx
      rw [hturn.fresh _ le_rfl] at hc
      cases hc
  | send call requestAt sent b rest c conn writing stream hc =>
    change Answers before (taken ++ []) n _
    rw [List.append_nil]
    have hset : (s.setConn c { conn with toServer := conn.toServer ++ [b] }).Answers before taken
        n := h.setConn (h.exchanges c conn hc)
    refine hset.congr hset.exchanges rfl (.inr ⟨?_, rfl⟩)
    change RequestPhase.begunAt (if rest = [] then _ else _) = s.phase.begunAt
    rw [writing]
    split_ifs <;> rfl
  | receive call requestAt replyAt got b c conn reading stream hc =>
    change Answers before (taken ++ []) n _
    rw [List.append_nil]
    set conn' : ControlConn := { conn with received := conn.received + 1 } with hconn'
    have hset : (s.setConn c conn').Answers before taken n := h.setConn (h.exchanges c conn hc)
    obtain ⟨hconns, ⟨hreplies, hphase⟩ | ⟨x, hat, hok⟩⟩ :=
      got_spec codec (s.setConn c conn') c call requestAt replyAt (got ++ [b])
    · refine hset.congr (hconns ▸ hset.exchanges) hreplies
        (hphase.imp (fun hphase => ?_) fun ⟨hs', hphase⟩ => ?_)
      · rw [hphase]
        rfl
      · refine ⟨?_, hs'⟩
        rw [hphase]
        change _ = s.phase.begunAt
        rw [reading]
        rfl
    · -- the reply is one of those that the loop of the connection wrote
      rw [hok] at hturn' ⊢
      obtain ⟨conn₁, hc₁, hx⟩ := hturn'.matched c x
        (.inl (mem_returned_finish.mpr (.inr rfl)))
      have hconn₁ : conn' = conn₁ := by simpa [ClientSession.setConn, finish] using hc₁
      rw [← hconn₁] at hx
      have hcurrent : (s.replies.drop n ++ [(c, x)]).Sublist taken := by
        refine h.current c requestAt stream ?_ x (h.exchanges c conn hc x hx) hat
        rw [reading]
        rfl
      refine ⟨hset.exchanges, ?_, ?_, fun c' requestAt' _ hat' => by cases hat'⟩
      · rw [replies_finish_ok, List.length_append]
        exact h.le.trans (Nat.le_add_right _ _)
      · rw [replies_finish_ok, replies_setConn, List.drop_append_of_le_length h.le]
        exact hcurrent
  | serve c now list conn conn' reg hc hserve =>
    obtain ⟨x, call, hhandled, -, -, -, -, -, -, hexchanges⟩ :=
      handled_of_serve { s.setConn c conn' with registry := reg } hcodec htakes hc hserve
    rw [hhandled]
    have hset : (s.setConn c conn').Answers before (taken ++ [(c, x)]) n := by
      refine (h.append [(c, x)]).setConn fun y hy => ?_
      rw [← List.append_assoc]
      rcases hexchanges y hy with hy | rfl
      · exact List.mem_append_left _ (h.exchanges c conn hc y hy)
      · exact List.mem_append_right _ List.mem_cons_self
    exact hset.congr hset.exchanges rfl (.inr ⟨rfl, rfl⟩)
  | loop c conn conn' called wrote handled hc toServer taken' exchanges loop =>
    rw [handled, List.append_nil]
    exact h.setConn (exchanges ▸ h.exchanges c conn hc)

/-! ### Main result -/

variable {reg : MeshRegistry} {es fs : List StreamEvent} {t : ClientSession}

/-- The frames of a run, those that the loops take, and the turns. -/
theorem takes_of_run (hcodec : codec.Lawful)
    (hkept : Along (step codec) (fun s e _ => ¬ s.Abandons e) (new reg) es)
    (hrun : (new reg).run codec es = some s) : s.InTurn codec ∧
      s.Writes (trace (step codec) called (new reg) es) (trace (step codec) wrote (new reg) es) ∧
      s.Takes codec (trace (step codec) wrote (new reg) es)
        (trace (step codec) (handled codec) (new reg) es) := by
  revert hkept
  refine run_induction (motive := fun es s =>
    Along (step codec) (fun s e _ => ¬ s.Abandons e) (new reg) es → s.InTurn codec ∧
      s.Writes (trace (step codec) called (new reg) es) (trace (step codec) wrote (new reg) es) ∧
      s.Takes codec (trace (step codec) wrote (new reg) es)
        (trace (step codec) (handled codec) (new reg) es))
    (fun _ => ⟨inTurn_new reg, writes_new reg, takes_new reg⟩) ?_ hrun
  intro es s e s' hrun ih hst hkept
  obtain ⟨hkept, hlast⟩ := along_concat.mp hkept
  obtain ⟨hturn, hwrites, htakes⟩ := ih hkept
  rw [trace_concat hrun hst, trace_concat hrun hst, trace_concat hrun hst]
  exact ⟨hturn.step hcodec (hlast s s' hrun hst) hst, hwrites.step hturn hst,
    htakes.step hcodec hturn hst⟩

/-- The replies since some moment. -/
theorem answers_run (es : List StreamEvent) (hcodec : codec.Lawful)
    (hkept : Along (step codec) (fun s e _ => ¬ s.Abandons e) (new reg) (es ++ fs))
    (hrun : (new reg).run codec es = some s)
    (h : s.Answers (trace (step codec) (handled codec) (new reg) es) [] n)
    (hrest : s.run codec fs = some t) :
    t.Answers (trace (step codec) (handled codec) (new reg) es)
      (trace (step codec) (handled codec) s fs) n := by
  revert hkept
  refine run_induction (motive := fun fs t =>
    Along (step codec) (fun s e _ => ¬ s.Abandons e) (new reg) (es ++ fs) →
      t.Answers (trace (step codec) (handled codec) (new reg) es)
        (trace (step codec) (handled codec) s fs) n) (fun _ => h) ?_ hrest
  intro fs t e t' hrest ih hst hkept
  rw [← List.append_assoc] at hkept
  obtain ⟨hkept, hlast⟩ := along_concat.mp hkept
  have hall : (new reg).run codec (es ++ fs) = some t := run_trans hrun hrest
  obtain ⟨hturn, hwrites, htakes⟩ := takes_of_run hcodec hkept hall
  have hturn' : t'.InTurn codec := hturn.step hcodec (hlast t t' hall hst) hst
  rw [trace_append (f := handled codec) hrun] at htakes
  rw [trace_concat hrest hst]
  exact (ih hkept).step hcodec hwrites htakes hturn hturn' hst

/-- The replies since a moment at which no call was under way. -/
theorem answers_of_run (hcodec : codec.Lawful)
    (hkept : Along (step codec) (fun s e _ => ¬ s.Abandons e) (new reg) (es ++ fs))
    (hrun : (new reg).run codec es = some s) (hidle : s.phase = .idle)
    (hrest : s.run codec fs = some t) :
    t.Answers (trace (step codec) (handled codec) (new reg) es)
      (trace (step codec) (handled codec) s fs) s.replies.length := by
  have hfirst := answers_run [] hcodec (along_append.mp hkept).1 rfl
    (answers_of_idle (fun _ _ hc => by cases hc) rfl) hrun
  exact answers_run es hcodec hkept hrun (answers_of_idle hfirst.exchanges hidle) hrest

/-- A `register` times out when its frame is written. -/
def timedOut : List StreamEvent :=
  [.call (.register oneRecord), .connected] ++ List.replicate 95 .send ++ [.timeout]

end ClientSession

end LaneSwitchboards
