import LaneSwitchboards.Mesh.ControlStream

/-!
# Replies in turn

As long as no request is dropped after its first byte is sent, the client and the loop of its
connection take turns (`ControlConn.InTurn`): a request begins when every byte on the connection
has been read, and its reply is the next frame that the loop writes. Then a request returns the
reply to the very frame that it wrote (`in_turn`).

A request that is dropped later leaves its reply, or a part of its frame, to the next one, and
neither that nor a reply of the wrong kind makes the client drop the connection
(`reply_left_over`).
-/

namespace LaneSwitchboards

open Framing Function Transition

variable {codec : ControlCodec}

/-! ### One connection -/

namespace Wire

/-- A frame that was written reads back, with nothing after it. -/
theorem readControl_of_write (hcodec : codec.Lawful) {msg : MeshControlMsg} {bytes : List UInt8}
    (h : writeControl codec msg = .ok bytes) :
    ∃ rest, readControl codec [bytes] = .ok (some (msg, rest)) ∧ rest.flatten = [] := by
  have hframe := frameOf_of_write hcodec.roundTrip hcodec.nonempty h
  have hchunks : [bytes].flatten = bytes ++ [] := by simp
  have hread := (hframe.parsesFrame []).readFrame_eq hchunks
  unfold readControl
  generalize readFrame _ _ _ = next at hread
  match next, hread with
  | .ok (some (msg', rest)), hread =>
    obtain ⟨rfl, hrest⟩ : msg' = msg ∧ rest.flatten = [] := by simpa [Except.map] using hread
    exact ⟨rest, rfl, hrest⟩

theorem writeControl_ne_nil {msg : MeshControlMsg} {bytes : List UInt8}
    (h : writeControl codec msg = .ok bytes) : bytes ≠ [] := by
  obtain ⟨body, -, -, rfl⟩ := write_eq_ok.mp h
  exact List.cons_ne_nil _ _

/-- A reader waits for the whole of a frame that was written. -/
theorem ready_iff_of_write (hcodec : codec.Lawful) {msg : MeshControlMsg} {pre post : List UInt8}
    (h : writeControl codec msg = .ok (pre ++ post)) :
    Ready (.ofNat maxControlFrame) pre ↔ post = [] :=
  (frameOf_of_write hcodec.roundTrip hcodec.nonempty h).ready_iff

end Wire

/-- The registry answers a call, with a reply that the call expects. -/
theorem ClientCall.handle_msg (call : ClientCall) (reg : MeshRegistry) (now : ℕ)
    (list : List ServiceRecord) :
    ∃ reg' reply, reg.handle now list call.msg = (reg', some reply) ∧ call.Expects reply := by
  cases call with
  | register record => exact ⟨_, _, rfl, trivial⟩
  | list => exact ⟨_, _, rfl, trivial⟩

namespace ControlConn

variable {conn conn' : ControlConn} {call : ClientCall} {phase : RequestPhase}
  {requestAt replyAt : ℕ} {sent got : List UInt8} {reg reg' : MeshRegistry} {now : ℕ}
  {list : List ServiceRecord}

/-- A part of a request is sent, and there is no reply to it. -/
structure Sending (conn : ControlConn) (requestAt : ℕ) (sent : List UInt8) : Prop where
  length : conn.toServer.length = requestAt + sent.length
  drop : conn.toServer.drop requestAt = sent
  received : conn.received = conn.toClient.length
  loop : conn.loop = .returned ∨ conn.loop = .reading ∧ conn.taken = requestAt

variable (codec) in
/-- The loop replies to a call: what the client has got of the reply, what it can read of it, and
what is left to write. -/
structure Answering (conn : ControlConn) (call : ClientCall) (requestAt replyAt : ℕ)
    (got unread rest : List UInt8) (reply : MeshControlMsg) : Prop where
  exchange : ⟨requestAt, call.msg, replyAt, reply⟩ ∈ conn.exchanges
  expects : call.Expects reply
  written : Wire.writeControl codec reply = .ok (got ++ (unread ++ rest))
  received : conn.received = replyAt + got.length
  length : conn.toClient.length = conn.received + unread.length
  drop : conn.toClient.drop conn.received = unread
  loop : conn.loop = .returned ∨ conn.taken = conn.toServer.length ∧
    conn.loop = if rest = [] then .reading else .replying rest

variable (codec) in
/-- The client and the loop take turns. -/
def InTurn (conn : ControlConn) : RequestPhase → Prop
  | .idle => conn.Sending conn.toServer.length []
  | .connecting _ => False
  | .writing call requestAt sent rest => conn.Sending requestAt sent ∧
    Wire.writeControl codec call.msg = .ok (sent ++ rest) ∧ rest ≠ []
  | .reading call requestAt replyAt got =>
    (∃ bytes, conn.Sending requestAt bytes ∧ Wire.writeControl codec call.msg = .ok bytes ∧
      replyAt = conn.received ∧ got = []) ∨
    ∃ unread rest reply, conn.Answering codec call requestAt replyAt got unread rest reply

theorem inTurn_new : ControlConn.new.InTurn codec .idle := ⟨rfl, rfl, rfl, .inr ⟨rfl, rfl⟩⟩

theorem Sending.unread_eq (h : conn.Sending requestAt sent) (hloop : conn.loop = .reading) :
    conn.unread = sent := by
  rcases h.loop with hreturned | ⟨-, htaken⟩
  · rw [hreturned] at hloop
    cases hloop
  · rw [unread, htaken, h.drop]

/-- A turn of the loop begins with a frame. -/
theorem loop_of_serve (h : conn.serve codec reg now list = some (conn', reg')) :
    conn.loop = .reading ∧ Ready (.ofNat maxControlFrame) conn.unread := by
  unfold serve at h
  split_ifs at h with hready
  exact hready

/-- A turn of the loop keeps the replies that it has written. -/
theorem exchanges_of_serve (h : conn.serve codec reg now list = some (conn', reg')) :
    ∀ x ∈ conn.exchanges, x ∈ conn'.exchanges := by
  intro x hx
  unfold serve at h
  split_ifs at h
  split at h
  · dsimp only at h
    split at h
    · cases h
      exact hx
    · split at h
      · cases h
        exact List.mem_append_left _ hx
      · cases h
        exact hx
  · cases h
    exact hx
  · cases h
    exact hx

/-- The turn of the loop on a whole frame. -/
theorem serve_of_write (hcodec : codec.Lawful) {msg reply : MeshControlMsg} {bytes : List UInt8}
    (hloop : conn.loop = .reading) (hunread : conn.unread = bytes)
    (hbytes : Wire.writeControl codec msg = .ok bytes)
    (hhandle : reg.handle now list msg = (reg', some reply)) :
    conn.serve codec reg now list = some (match Wire.writeControl codec reply with
      | .ok answer => ({ conn with
          taken := conn.toServer.length
          loop := .replying answer
          exchanges := conn.exchanges ++ [⟨conn.taken, msg, conn.toClient.length, reply⟩] }, reg')
      | .error _ => ({ conn with taken := conn.toServer.length, loop := .returned }, reg')) := by
  have hready : Ready (.ofNat maxControlFrame) conn.unread := by
    rw [← List.append_nil bytes] at hbytes
    rw [hunread]
    exact (Wire.ready_iff_of_write hcodec hbytes).mpr rfl
  obtain ⟨rest, hread, hrest⟩ := Wire.readControl_of_write hcodec hbytes
  rw [ControlConn.serve, if_pos ⟨hloop, hready⟩, hunread, hread]
  simp only [hhandle, hrest, List.length_nil, Nat.sub_zero]
  cases Wire.writeControl codec reply <;> rfl

/-- The loop takes a whole request, and replies to it or returns. -/
theorem Sending.serve (hcodec : codec.Lawful) {bytes : List UInt8}
    (h : conn.Sending requestAt bytes) (hbytes : Wire.writeControl codec call.msg = .ok bytes)
    (hst : conn.serve codec reg now list = some (conn', reg')) :
    conn'.Sending requestAt bytes ∧ conn'.received = conn.received ∨
      ∃ rest reply, conn'.Answering codec call requestAt conn.received [] [] rest reply := by
  have hloop := (loop_of_serve hst).1
  obtain ⟨reg₁, reply, hhandle, hexpects⟩ := call.handle_msg reg now list
  rw [serve_of_write hcodec hloop (h.unread_eq hloop) hbytes hhandle, Option.some.injEq] at hst
  cases hreply : Wire.writeControl codec reply with
  | error e =>
    rw [hreply] at hst
    cases hst
    exact .inl ⟨⟨h.length, h.drop, h.received, .inl rfl⟩, rfl⟩
  | ok answer =>
    rw [hreply] at hst
    cases hst
    have htaken : conn.taken = requestAt := by
      rcases h.loop with hreturned | ⟨-, htaken⟩
      · rw [hreturned] at hloop
        cases hloop
      · exact htaken
    refine .inr ⟨answer, reply, ?_, hexpects, hreply, rfl, h.received.symm, ?_, .inr ⟨rfl, ?_⟩⟩
    · rw [← htaken, h.received]
      exact List.mem_append_right _ List.mem_cons_self
    · rw [h.received]
      exact List.drop_length
    · rw [if_neg (Wire.writeControl_ne_nil hreply)]

/-- The loop has nothing to take while it replies, and nothing after that. -/
theorem Answering.serve_eq_none {unread rest : List UInt8} {reply : MeshControlMsg}
    (h : conn.Answering codec call requestAt replyAt got unread rest reply) :
    conn.serve codec reg now list = none := by
  rw [ControlConn.serve, if_neg]
  rintro ⟨hloop, hready⟩
  rcases h.loop with hreturned | ⟨htaken, -⟩
  · rw [hreturned] at hloop
    cases hloop
  · rw [ControlConn.unread, htaken, List.drop_length] at hready
    exact absurd hready.1 (by decide)

/-- The loop has nothing to take while a request is not whole. -/
theorem Sending.serve_eq_none (hcodec : codec.Lawful) {rest : List UInt8}
    {msg : MeshControlMsg} (h : conn.Sending requestAt sent)
    (hwritten : Wire.writeControl codec msg = .ok (sent ++ rest)) (hrest : rest ≠ []) :
    conn.serve codec reg now list = none := by
  rw [ControlConn.serve, if_neg]
  rintro ⟨hloop, hready⟩
  rw [h.unread_eq hloop, Wire.ready_iff_of_write hcodec hwritten] at hready
  exact hrest hready

/-- **A turn of the loop** is taken for a whole request only. -/
theorem InTurn.serve (hcodec : codec.Lawful) (h : conn.InTurn codec phase)
    (hst : conn.serve codec reg now list = some (conn', reg')) : conn'.InTurn codec phase := by
  cases phase with
  | idle =>
    obtain ⟨hloop, hready⟩ := loop_of_serve hst
    rw [Sending.unread_eq h hloop] at hready
    exact absurd hready.1 (by decide)
  | connecting call => exact absurd h id
  | writing call requestAt sent rest =>
    obtain ⟨hsending, hwritten, hrest⟩ := h
    rw [hsending.serve_eq_none hcodec hwritten hrest] at hst
    cases hst
  | reading call requestAt replyAt got =>
    rcases h with ⟨bytes, hsending, hbytes, rfl, rfl⟩ | ⟨unread, rest, reply, hanswering⟩
    · -- the request is whole, and this is the turn that answers it
      rcases hsending.serve hcodec hbytes hst with ⟨hsending', hreceived⟩ | ⟨rest, reply, h'⟩
      · exact .inl ⟨bytes, hsending', hbytes, hreceived.symm, rfl⟩
      · exact .inr ⟨[], rest, reply, h'⟩
    · rw [hanswering.serve_eq_none] at hst
      cases hst

/-- The loop writes a byte. -/
theorem reply_spec (h : conn.reply = some conn') :
    ∃ b rest, conn.loop = .replying (b :: rest) ∧ conn' = { conn with
      toClient := conn.toClient ++ [b]
      loop := if rest = [] then .reading else .replying rest } := by
  unfold ControlConn.reply at h
  split at h
  · next b rest hloop =>
    cases h
    exact ⟨b, rest, hloop, rfl⟩
  · cases h

theorem InTurn.reply (h : conn.InTurn codec phase) (hst : conn.reply = some conn') :
    conn'.InTurn codec phase := by
  obtain ⟨b, rest, hloop, rfl⟩ := reply_spec hst
  have hsending {requestAt : ℕ} {sent : List UInt8} (h : conn.Sending requestAt sent) : False := by
    rcases h.loop with hreturned | ⟨hreading, -⟩
    · rw [hreturned] at hloop
      cases hloop
    · rw [hreading] at hloop
      cases hloop
  cases phase with
  | idle => exact (hsending h).elim
  | connecting call => exact absurd h id
  | writing call requestAt sent rest => exact (hsending h.1).elim
  | reading call requestAt replyAt got =>
    rcases h with ⟨bytes, h, -⟩ | ⟨unread, left, reply, h⟩
    · exact (hsending h).elim
    · rcases h.loop with hreturned | ⟨htaken, hloop'⟩
      · rw [hreturned] at hloop
        cases hloop
      · have hleft : left = b :: rest := by
          rw [hloop] at hloop'
          split_ifs at hloop'
          exact (LoopPhase.replying.inj hloop').symm
        have hlen := h.length
        have hle : conn.received ≤ conn.toClient.length := by omega
        refine .inr ⟨unread ++ [b], rest, reply, h.exchange, h.expects, ?_, h.received, ?_, ?_,
          .inr ⟨htaken, rfl⟩⟩
        · rw [h.written, hleft, List.append_assoc, List.singleton_append]
        · rw [List.length_append, List.length_append, hlen, Nat.add_assoc]
        · rw [List.drop_append_of_le_length hle, h.drop]

theorem InTurn.close (h : conn.InTurn codec phase) : conn.close.InTurn codec phase := by
  have hsending {requestAt : ℕ} {sent : List UInt8} (h : conn.Sending requestAt sent) :
      conn.close.Sending requestAt sent := ⟨h.length, h.drop, h.received, .inl rfl⟩
  cases phase with
  | idle => exact hsending h
  | connecting call => exact absurd h id
  | writing call requestAt sent rest => exact ⟨hsending h.1, h.2⟩
  | reading call requestAt replyAt got =>
    rcases h with ⟨bytes, h, hbytes⟩ | ⟨unread, rest, reply, h⟩
    · exact .inl ⟨bytes, hsending h, hbytes⟩
    · exact .inr ⟨unread, rest, reply, h.exchange, h.expects, h.written, h.received, h.length,
        h.drop, .inl rfl⟩

/-- The client writes a byte. -/
theorem Sending.send (h : conn.Sending requestAt sent) (b : UInt8) :
    { conn with toServer := conn.toServer ++ [b] }.Sending requestAt (sent ++ [b]) where
  length := by rw [List.length_append, List.length_append, h.length, Nat.add_assoc]
  drop := by
    have hle : requestAt ≤ conn.toServer.length := by
      rw [h.length]
      omega
    rw [List.drop_append_of_le_length hle, h.drop]
  received := h.received
  loop := h.loop

/-- The client reads a byte of the reply. -/
theorem Answering.receive {unread rest : List UInt8} {reply : MeshControlMsg} {b : UInt8}
    (h : conn.Answering codec call requestAt replyAt got unread rest reply)
    (hb : conn.toClient[conn.received]? = some b) :
    ∃ unread', unread = b :: unread' ∧
      { conn with received := conn.received + 1 }.Answering codec call requestAt replyAt
        (got ++ [b]) unread' rest reply := by
  obtain ⟨hlt, hget⟩ := List.getElem?_eq_some_iff.mp hb
  have hunread : unread = b :: conn.toClient.drop (conn.received + 1) := by
    rw [← h.drop, List.drop_eq_getElem_cons hlt, hget]
  have hlen := h.length
  rw [hunread, List.length_cons] at hlen
  refine ⟨_, hunread, h.exchange, h.expects, ?_, ?_, ?_, rfl, h.loop⟩
  · rw [h.written, hunread, List.append_assoc, List.cons_append, List.singleton_append]
  · rw [h.received, List.length_append, List.length_singleton, Nat.add_assoc]
  · rw [hlen, Nat.add_assoc, Nat.add_comm 1]

/-- The whole of a reply is read. -/
theorem Answering.done {reply : MeshControlMsg}
    (h : conn.Answering codec call requestAt replyAt got [] [] reply) :
    conn.InTurn codec .idle where
  length := rfl
  drop := List.drop_length
  received := h.length.symm
  loop := h.loop.imp_right fun ⟨htaken, hloop⟩ => ⟨hloop, htaken⟩

end ControlConn

/-! ### A session -/

/-- A byte of the request is sent. -/
def RequestPhase.Midway : RequestPhase → Prop
  | .writing _ _ sent _ => sent ≠ []
  | .reading .. => True
  | .idle | .connecting _ => False

instance : ∀ phase : RequestPhase, Decidable phase.Midway
  | .writing _ _ sent _ => inferInstanceAs (Decidable (sent ≠ []))
  | .reading .. => .isTrue trivial
  | .idle | .connecting _ => .isFalse id

namespace ClientSession

variable {s s' : ClientSession} {e : StreamEvent}

/-- The caller drops a request of which a byte is sent. -/
def Abandons (s : ClientSession) : StreamEvent → Prop
  | .drop => s.phase.Midway
  | _ => False

instance (s : ClientSession) : ∀ e, Decidable (s.Abandons e)
  | .drop => inferInstanceAs (Decidable s.phase.Midway)
  | .call _ | .connected | .send | .receive | .eof | .timeout | .ioError | .serve .. | .reply _
  | .close _ | .registry _ => .isFalse id

/-- **Every request that returned a reply** returned the one that the loop wrote to the frame of
that request. -/
def Matched (s : ClientSession) : Prop :=
  ∀ c x, .ok c x ∈ s.returned ∨ .unexpected c x ∈ s.returned →
    ∃ conn, s.conns c = some conn ∧ x ∈ conn.exchanges

variable (codec) in
/-- The client and the loop of its connection take turns. -/
structure InTurn (s : ClientSession) : Prop where
  fresh : ∀ c, s.nextConn ≤ c → s.conns c = none
  conn : ∀ c, s.stream = some c → ∃ conn, s.conns c = some conn ∧ conn.InTurn codec s.phase
  matched : s.Matched
  /-- No reply was of the wrong kind. -/
  expected : ∀ c x, .unexpected c x ∉ s.returned

theorem inTurn_new (reg : MeshRegistry) : (new reg).InTurn codec where
  fresh := fun _ _ => rfl
  conn := fun _ h => by cases h
  matched := fun c x h => by rcases h with h | h <;> cases h
  expected := fun _ _ h => by cases h

variable {c : ConnId} {conn conn' : ControlConn}

/-- A connection changes, and its replies stay. -/
theorem matched_setConn (h : s.Matched) (hc : s.conns c = some conn)
    (hx : ∀ x ∈ conn.exchanges, x ∈ conn'.exchanges) : (s.setConn c conn').Matched := by
  intro c' x hr
  obtain ⟨conn₁, hc', hmem⟩ := h c' x hr
  by_cases hcc : c' = c
  · subst hcc
    obtain rfl : conn₁ = conn := Option.some.inj (hc'.symm.trans hc)
    exact ⟨conn', by simp [setConn], hx x hmem⟩
  · exact ⟨conn₁, by simpa [setConn, update_of_ne hcc] using hc', hmem⟩

theorem fresh_setConn (h : ∀ c, s.nextConn ≤ c → s.conns c = none) (hc : s.conns c = some conn) :
    ∀ c', s.nextConn ≤ c' → (s.setConn c conn').conns c' = none := by
  intro c' hle
  have hcc : c' ≠ c := by
    rintro rfl
    rw [h c' hle] at hc
    cases hc
  simpa [setConn, update_of_ne hcc] using h c' hle

/-- The loop of a connection takes a step. -/
theorem InTurn.setConn (h : s.InTurn codec) (hc : s.conns c = some conn)
    (hx : ∀ x ∈ conn.exchanges, x ∈ conn'.exchanges)
    (hturn : ∀ {phase}, conn.InTurn codec phase → conn'.InTurn codec phase) :
    (s.setConn c conn').InTurn codec where
  fresh := fresh_setConn h.fresh hc
  conn := by
    intro c' hstream
    obtain ⟨conn₁, hc', hturn₁⟩ := h.conn c' hstream
    by_cases hcc : c' = c
    · subst hcc
      obtain rfl : conn₁ = conn := Option.some.inj (hc'.symm.trans hc)
      exact ⟨conn', by simp [ClientSession.setConn], hturn hturn₁⟩
    · exact ⟨conn₁, by simpa [ClientSession.setConn, update_of_ne hcc] using hc', hturn₁⟩
  matched := matched_setConn h.matched hc hx
  expected := h.expected

theorem mem_returned_finish {r r' : Returned} :
    r' ∈ (s.finish r).returned ↔ r' ∈ s.returned ∨ r' = r := by
  simp [finish]

/-- A request fails. -/
theorem InTurn.fail (h : s.InTurn codec) {r : Returned} (hok : ∀ c x, .ok c x ≠ r)
    (hunexpected : ∀ c x, .unexpected c x ≠ r) : (s.fail r).InTurn codec where
  fresh := h.fresh
  conn := fun _ hstream => by cases hstream
  matched := by
    intro c x hr
    refine h.matched c x (hr.imp (fun hmem => ?_) (fun hmem => ?_))
    · exact (mem_returned_finish.mp hmem).resolve_right (hok c x)
    · exact (mem_returned_finish.mp hmem).resolve_right (hunexpected c x)
  expected := by
    intro c x hmem
    exact h.expected c x ((mem_returned_finish.mp hmem).resolve_right (hunexpected c x))

/-- A request that has its connection begins to write. -/
theorem inTurn_beginWrite (hfresh : ∀ c, s.nextConn ≤ c → s.conns c = none)
    (hconn : ∀ c, s.stream = some c → s.conns c = some conn ∧ conn.InTurn codec .idle)
    (hmatched : s.Matched) (hexpected : ∀ c x, .unexpected c x ∉ s.returned) (call : ClientCall) :
    (s.beginWrite codec conn call).InTurn codec := by
  have hidle : ({ s with phase := .idle, stream := none } : ClientSession).InTurn codec :=
    ⟨hfresh, fun _ => nofun, hmatched, hexpected⟩
  unfold beginWrite
  split
  · next bytes hbytes =>
    refine ⟨hfresh, fun c hstream => ?_, hmatched, hexpected⟩
    obtain ⟨hc, hturn⟩ := hconn c hstream
    exact ⟨conn, hc, hturn, hbytes, Wire.writeControl_ne_nil hbytes⟩
  · exact hidle.fail (fun _ _ => nofun) (fun _ _ => nofun)
  · exact hidle.fail (fun _ _ => nofun) (fun _ _ => nofun)

theorem InTurn.call (h : s.InTurn codec) {call : ClientCall} (hst : s.call codec call = some s') :
    s'.InTurn codec := by
  unfold ClientSession.call at hst
  split at hst
  · next c hphase hstream =>
    obtain ⟨conn, hc, hturn⟩ := h.conn c hstream
    rw [hc, Option.map_some, Option.some.injEq] at hst
    subst hst
    refine inTurn_beginWrite h.fresh (fun c' hstream' => ?_) h.matched h.expected call
    obtain rfl : c = c' := Option.some.inj (hstream.symm.trans hstream')
    rw [hphase] at hturn
    exact ⟨hc, hturn⟩
  · next hstream =>
    cases hst
    refine ⟨h.fresh, fun c hstream' => ?_, h.matched, h.expected⟩
    dsimp only at hstream'
    rw [hstream] at hstream'
    cases hstream'
  · cases hst

theorem InTurn.connected (h : s.InTurn codec) (hst : s.connected codec = some s') :
    s'.InTurn codec := by
  unfold ClientSession.connected at hst
  split at hst
  · next call hphase =>
    cases hst
    refine inTurn_beginWrite (s := { s.setConn s.nextConn .new with
      nextConn := s.nextConn + 1, stream := some s.nextConn }) (fun c hle => ?_)
      (fun c hstream => ?_) (fun c x hr => ?_) h.expected call
    · have hne : c ≠ s.nextConn := by
        rintro rfl
        exact absurd hle (Nat.not_succ_le_self _)
      simpa [ClientSession.setConn, update_of_ne hne] using h.fresh c (Nat.le_of_succ_le hle)
    · obtain rfl : s.nextConn = c := Option.some.inj hstream
      exact ⟨by simp [ClientSession.setConn], ControlConn.inTurn_new⟩
    · obtain ⟨conn, hc, hx⟩ := h.matched c x hr
      have hne : c ≠ s.nextConn := by
        rintro rfl
        rw [h.fresh _ le_rfl] at hc
        cases hc
      exact ⟨conn, by simpa [ClientSession.setConn, update_of_ne hne] using hc, hx⟩
  · cases hst

theorem InTurn.send (h : s.InTurn codec) (hst : s.send = some s') : s'.InTurn codec := by
  unfold ClientSession.send at hst
  split at hst
  · next call requestAt sent b rest c hphase hstream =>
    obtain ⟨conn, hc, hturn⟩ := h.conn c hstream
    rw [hphase] at hturn
    obtain ⟨hsending, hwritten, -⟩ := hturn
    rw [hc, Option.map_some, Option.some.injEq] at hst
    subst hst
    set conn' : ControlConn := { conn with toServer := conn.toServer ++ [b] } with hconn'
    have hsending' : conn'.Sending requestAt (sent ++ [b]) := hsending.send b
    have hwritten' : Wire.writeControl codec call.msg = .ok ((sent ++ [b]) ++ rest) := by
      rw [hwritten, List.append_assoc, List.singleton_append]
    refine ⟨fresh_setConn h.fresh hc, fun c' hstream' => ?_,
      matched_setConn h.matched hc fun _ hx => hx, h.expected⟩
    obtain rfl : c = c' := Option.some.inj (hstream.symm.trans hstream')
    refine ⟨conn', by simp [ClientSession.setConn], ?_⟩
    dsimp only
    split_ifs with hrest
    · rw [hrest, List.append_nil] at hwritten'
      exact .inl ⟨_, hsending', hwritten', rfl, rfl⟩
    · exact ⟨hsending', hwritten', hrest⟩
  · cases hst

theorem InTurn.receive (hcodec : codec.Lawful) (h : s.InTurn codec)
    (hst : s.receive codec = some s') : s'.InTurn codec := by
  unfold ClientSession.receive at hst
  split at hst
  · next call requestAt replyAt got c hphase hstream =>
    obtain ⟨conn, hc, hturn⟩ := h.conn c hstream
    rw [hphase] at hturn
    rw [hc, Option.bind_some, Option.map_eq_some_iff] at hst
    obtain ⟨b, hb, rfl⟩ := hst
    -- without a reply there is no byte to read
    rcases hturn with ⟨bytes, hsending, -⟩ | ⟨unread, rest, reply, hanswering⟩
    · rw [hsending.received, List.getElem?_eq_none le_rfl] at hb
      cases hb
    obtain ⟨unread', rfl, hanswering'⟩ := hanswering.receive hb
    set conn' : ControlConn := { conn with received := conn.received + 1 } with hconn'
    have hfresh : ∀ c', s.nextConn ≤ c' → (s.setConn c conn').conns c' = none :=
      fresh_setConn h.fresh hc
    have hmatched : (s.setConn c conn').Matched := matched_setConn h.matched hc fun _ hx => hx
    -- the reply is whole exactly when nothing of it is left to read or to write
    have hready := Wire.ready_iff_of_write hcodec hanswering'.written
    unfold ClientSession.got
    split_ifs with hif
    · obtain ⟨rfl, rfl⟩ := List.append_eq_nil_iff.mp (hready.mp hif)
      have hwritten := hanswering'.written
      rw [List.append_nil, List.append_nil] at hwritten
      obtain ⟨rest', hread, -⟩ := Wire.readControl_of_write hcodec hwritten
      rw [hread]
      dsimp only
      rw [if_pos hanswering'.expects]
      refine ⟨hfresh, fun c' hstream' => ?_, fun c' x hr => ?_, fun c' x hmem => ?_⟩
      · obtain rfl : c = c' := Option.some.inj (hstream.symm.trans hstream')
        exact ⟨conn', by simp [ClientSession.setConn, finish], hanswering'.done⟩
      · rcases hr with hmem | hmem
        · rcases mem_returned_finish.mp hmem with hmem | heq
          · exact hmatched c' x (.inl hmem)
          · obtain ⟨rfl, rfl⟩ := Returned.ok.inj heq
            exact ⟨conn', by simp [ClientSession.setConn, finish], hanswering'.exchange⟩
        · exact hmatched c' x (.inr ((mem_returned_finish.mp hmem).resolve_right nofun))
      · exact h.expected c' x ((mem_returned_finish.mp hmem).resolve_right nofun)
    · refine ⟨hfresh, fun c' hstream' => ?_, hmatched, h.expected⟩
      obtain rfl : c = c' := Option.some.inj (hstream.symm.trans hstream')
      exact ⟨conn', by simp [ClientSession.setConn], .inr ⟨unread', rest, reply, hanswering'⟩⟩
  · cases hst

/-- A request that has sent nothing is dropped. -/
theorem InTurn.drop (h : s.InTurn codec) (hkept : ¬ s.Abandons .drop) (hphase : s.phase ≠ .idle) :
    ({ s with phase := .idle } : ClientSession).InTurn codec where
  fresh := h.fresh
  conn := by
    intro c hstream
    obtain ⟨conn, hc, hturn⟩ := h.conn c hstream
    change ¬ s.phase.Midway at hkept
    cases hp : s.phase with
    | idle => exact absurd hp hphase
    | connecting call =>
      rw [hp] at hturn
      exact absurd hturn id
    | writing call requestAt sent rest =>
      -- without a byte of it on the connection, the request has not been there
      rw [hp] at hturn hkept
      obtain rfl : sent = [] := not_not.mp hkept
      obtain ⟨hsending, -⟩ := hturn
      obtain rfl : conn.toServer.length = requestAt := hsending.length
      exact ⟨conn, hc, hsending⟩
    | reading call requestAt replyAt got =>
      rw [hp] at hkept
      exact absurd trivial hkept
  matched := h.matched
  expected := h.expected

/-- **Turns are kept** by every step that does not drop a request of which a byte is sent. -/
theorem InTurn.step (hcodec : codec.Lawful) (h : s.InTurn codec) (hkept : ¬ s.Abandons e)
    (hst : s.step codec e = some s') : s'.InTurn codec := by
  cases e with
  | call call => exact h.call hst
  | connected => exact h.connected hst
  | send => exact h.send hst
  | receive => exact h.receive hcodec hst
  | eof =>
    simp only [ClientSession.step, ClientSession.eof] at hst
    split at hst
    · obtain ⟨conn, -, hst⟩ := Option.bind_eq_some_iff.mp hst
      split_ifs at hst
      cases hst
      exact h.fail (fun _ _ => nofun) (fun _ _ => nofun)
    · cases hst
  | timeout =>
    simp only [ClientSession.step] at hst
    split at hst
    · cases hst
      exact h.fail (fun _ _ => nofun) (fun _ _ => nofun)
    · cases hst
  | ioError =>
    simp only [ClientSession.step] at hst
    split_ifs at hst
    cases hst
    exact h.fail (fun _ _ => nofun) (fun _ _ => nofun)
  | drop =>
    simp only [ClientSession.step] at hst
    split_ifs at hst with hphase
    cases hst
    exact h.drop hkept hphase
  | serve c now list =>
    obtain ⟨conn, hc, hst⟩ := Option.bind_eq_some_iff.mp hst
    obtain ⟨⟨conn', reg⟩, hserve, rfl⟩ := Option.map_eq_some_iff.mp hst
    have hset : (s.setConn c conn').InTurn codec :=
      h.setConn hc (ControlConn.exchanges_of_serve hserve) fun hturn => hturn.serve hcodec hserve
    exact ⟨hset.fresh, hset.conn, hset.matched, hset.expected⟩
  | reply c =>
    obtain ⟨conn, hc, hst⟩ := Option.bind_eq_some_iff.mp hst
    obtain ⟨conn', hreply, rfl⟩ := Option.map_eq_some_iff.mp hst
    refine h.setConn hc ?_ fun hturn => hturn.reply hreply
    obtain ⟨b, rest, -, rfl⟩ := ControlConn.reply_spec hreply
    exact fun _ hx => hx
  | close c =>
    obtain ⟨conn, hc, rfl⟩ := Option.map_eq_some_iff.mp hst
    exact h.setConn hc (fun _ hx => hx) fun hturn => hturn.close
  | registry reg =>
    cases hst
    exact ⟨h.fresh, h.conn, h.matched, h.expected⟩

/-- **Every reply is the reply to that very request**, in every run in which no request is dropped
after a byte of it is sent, and no reply is of the wrong kind. -/
theorem in_turn (hcodec : codec.Lawful) {reg : MeshRegistry} {es : List StreamEvent}
    (hkept : Along (step codec) (fun s e _ => ¬ s.Abandons e) (new reg) es)
    (hrun : (new reg).run codec es = some s) :
    s.Matched ∧ ∀ c x, .unexpected c x ∉ s.returned := by
  have hturn : s.InTurn codec := by
    refine invariant_along (P := InTurn codec) ?_ (inTurn_new reg) hkept hrun
    exact fun h hkept hst => h.step hcodec hkept hst
  exact ⟨hturn.matched, hturn.expected⟩

/-! ### A left-over reply -/

/-- The record of an instance `i` of a service `s`. -/
def oneRecord : ServiceRecord := ⟨"s", "i", "a", "t", 0⟩

/-- The codec of the messages of the runs below. -/
def listCodec : ControlCodec :=
  tableCodec [.list, .listReply [], .pong, .register oneRecord]

theorem lawful_listCodec : listCodec.Lawful :=
  lawful_tableCodec (by decide +kernel) (by decide +kernel) (by decide +kernel)

/-- A request whose frame has `n` bytes, the turn of the loop after it, and the `m` bytes of a
reply. -/
def turn (call : ClientCall) (n m : ℕ) : List StreamEvent :=
  .call call :: (List.replicate n .send ++ .serve 0 0 [] ::
    (List.replicate m (.reply 0) ++ List.replicate m .receive))

/-- A request is dropped before it has sent a byte, and the next one returns its own reply. -/
theorem in_turn_dropped_early : ∃ s,
    (new .new).run listCodec ([.call .list, .connected, .drop] ++ turn .list 10 20) = some s ∧
      s.returned = [.ok 0 ⟨0, .list, 0, .listReply []⟩] ∧ s.Matched := by
  have hreturned : ((new .new).run listCodec
      ([.call .list, .connected, .drop] ++ turn .list 10 20)).map (·.returned) =
        some [.ok 0 ⟨0, .list, 0, .listReply []⟩] := by decide +kernel
  have hkept : Along (step listCodec) (fun s e _ => ¬ s.Abandons e) (new .new)
      ([.call .list, .connected, .drop] ++ turn .list 10 20) := by decide +kernel
  obtain ⟨s, hrun, hs⟩ := Option.map_eq_some_iff.mp hreturned
  exact ⟨s, hrun, hs, (in_turn lawful_listCodec hkept hrun).1⟩

/-- The events of `reply_left_over`. -/
def dropped : List StreamEvent :=
  [.call .list, .connected] ++ List.replicate 10 .send ++ [.drop] ++ turn .list 10 20 ++
    turn (.register oneRecord) 95 20 ++ turn .list 10 10

/-- **A reply is left over**: a `list` is dropped when its frame is sent, and the next one
returns its reply. The `register` after them reads the reply to the second `list`, and then a
`list` the reply to `register`; both find it unexpected, and keep the connection. -/
theorem reply_left_over : ∃ s, (new .new).run listCodec dropped = some s ∧
    s.returned = [.ok 0 ⟨10, .list, 0, .listReply []⟩,
      .unexpected 0 ⟨20, .register oneRecord, 20, .listReply []⟩,
      .unexpected 0 ⟨115, .list, 40, .pong⟩] ∧
    (s.conns 0).map (·.exchanges) = some [⟨0, .list, 0, .listReply []⟩,
      ⟨10, .list, 20, .listReply []⟩, ⟨20, .register oneRecord, 40, .pong⟩] ∧
    s.stream = some 0 ∧ ¬ s.Matched := by
  have hend : ((new .new).run listCodec dropped).map
      (fun s => (s.returned, (s.conns 0).map (·.exchanges), s.stream)) =
        some ([.ok 0 ⟨10, .list, 0, .listReply []⟩,
          .unexpected 0 ⟨20, .register oneRecord, 20, .listReply []⟩,
          .unexpected 0 ⟨115, .list, 40, .pong⟩],
        some [⟨0, .list, 0, .listReply []⟩, ⟨10, .list, 20, .listReply []⟩,
          ⟨20, .register oneRecord, 40, .pong⟩], some 0) := by decide +kernel
  obtain ⟨s, hrun, hs⟩ := Option.map_eq_some_iff.mp hend
  obtain ⟨hreturned, hrest⟩ := Prod.mk.inj hs
  obtain ⟨hexchanges, hstream⟩ := Prod.mk.inj hrest
  refine ⟨s, hrun, hreturned, hexchanges, hstream, fun hmatched => ?_⟩
  have hmem : Returned.ok 0 ⟨10, .list, 0, .listReply []⟩ ∈ s.returned := by
    rw [hreturned]
    exact List.mem_cons_self
  obtain ⟨conn, hc, hx⟩ := hmatched _ _ (.inl hmem)
  rw [hc, Option.map_some, Option.some.injEq] at hexchanges
  rw [hexchanges] at hx
  exact absurd hx (by decide)

end ClientSession

end LaneSwitchboards
