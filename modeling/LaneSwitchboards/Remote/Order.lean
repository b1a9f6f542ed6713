import LaneSwitchboards.Remote.Node

/-!
# The order of dispatch

Each frame is dispatched by a task of its own, and up to `max_in_flight` tasks run side by side.
With one permit a task has ended before the next frame is dispatched, so the messages of a
connection enter a bridge channel in the order of their frames. With more than one, a later frame
can overtake an earlier one: `inOrder_iff`.
-/

namespace LaneSwitchboards

namespace Node

open Transition Function

variable {M : Type} {codec : Codec M} {config : DistributedConfig} {n n' : Node M} {e : NodeEvent}

/-- In each bridge channel, the messages of one connection stand in the order of their frames. -/
def InOrder (n : Node M) : Prop :=
  ∀ b, (n.bridges b).accepted.Pairwise fun d d' => d.conn = d'.conn → d.seq < d'.seq

/-- The frame body is read as a message by a node of this configuration. -/
def Readable (codec : Codec M) (config : DistributedConfig) (body : List UInt8) : Prop :=
  body.length ≠ 0 ∧ body.length ≤ config.maxFrameBytes ∧ (codec.decode body).isSome = true

/-! ### One permit -/

/-- The numbers of all frames are below the counts of their connections. -/
structure Numbered (n : Node M) : Prop where
  fresh : ∀ c, n.nextConn ≤ c → n.conns c = none
  tasks : ∀ t ∈ n.tasks, ∃ conn, n.conns t.conn = some conn ∧ t.seq < conn.received
  accepted : ∀ b, ∀ d ∈ (n.bridges b).accepted,
    ∃ conn, n.conns d.conn = some conn ∧ d.seq < conn.received

theorem Numbered.step (hn : n.Numbered) (h : n.step codec e = some n') : n'.Numbered := by
  -- what was below the count of its connection still is
  have hkeep {c seq : ℕ} (hlt : ∃ conn, n.conns c = some conn ∧ seq < conn.received) :
      ∃ conn, n'.conns c = some conn ∧ seq < conn.received := by
    obtain ⟨conn, hc, hlt⟩ := hlt
    obtain ⟨conn', hc', hle, -⟩ := conns_of_step hn.fresh h hc
    exact ⟨conn', hc', hlt.trans_le hle⟩
  refine ⟨fun c hc => ?_, fun t ht => ?_, fun b d hd => ?_⟩
  · exact fresh_of_step hn.fresh h c hc
  · rcases tasks_of_step h ht with ⟨s, hs, hconn, hseq, -⟩ |
      ⟨c, conn, target, msg, rfl, hc, -, -, -, rfl⟩
    · rw [hconn, hseq]
      exact hkeep (hn.tasks s hs)
    · obtain ⟨conn', hc', -, hreceived⟩ := conns_of_step hn.fresh h hc
      exact ⟨conn', hc', by rw [hreceived rfl]; exact Nat.lt_succ_self _⟩
  · rcases accepted_of_step h b with hsame | hnil | ⟨k, t, -, ht, -, happend⟩
    · exact hkeep (hn.accepted b d (hsame ▸ hd))
    · rw [hnil] at hd
      cases hd
    · rw [happend] at hd
      rcases List.mem_append.mp hd with hd | hd
      · exact hkeep (hn.accepted b d hd)
      · obtain rfl := List.mem_singleton.mp hd
        exact hkeep (hn.tasks t (List.mem_of_getElem? ht))

theorem numbered_bind : (bind config : Node M).Numbered where
  fresh := fun _ _ => rfl
  tasks := fun _ ht => by cases ht
  accepted := fun _ _ hd => by cases hd

/-- The invariant of a node with one permit: a task is later than all messages of its connection
in the bridge channels. -/
structure Serial (n : Node M) : Prop where
  numbered : n.Numbered
  permits : n.permits = 1
  one : n.tasks.length ≤ 1
  later : ∀ t ∈ n.tasks, ∀ b, ∀ d ∈ (n.bridges b).accepted, d.conn = t.conn → d.seq < t.seq
  inOrder : n.InOrder

/-- **With one permit the order is kept** by every step. -/
theorem Serial.step (hs : n.Serial) (h : n.step codec e = some n') : n'.Serial := by
  have hpermits : n'.permits = 1 := by
    rw [Node.permits, config_of_step h]
    exact hs.permits
  refine ⟨hs.numbered.step h, hpermits, ?_, fun t ht b d hd hconn => ?_, fun b => ?_⟩
  · have hlength := length_tasks_of_step h
    have hone := hs.one
    have hpermit := hs.permits
    omega
  · rcases accepted_of_step h b with hsame | hnil | ⟨k, t₀, he, ht₀, herase, -⟩
    · rw [hsame] at hd
      rcases tasks_of_step h ht with ⟨s, hsmem, hsconn, hseq, -⟩ |
        ⟨c, conn, target, msg, -, hc, -, -, -, rfl⟩
      · rw [hseq]
        exact hs.later s hsmem b d hd (hconn.trans hsconn)
      · -- the new task has the number of the frame that was received last
        obtain ⟨conn', hc', hlt⟩ := hs.numbered.accepted b d hd
        rw [hconn] at hc'
        obtain rfl := Option.some.inj (hc.symm.trans hc')
        exact hlt
    · rw [hnil] at hd
      cases hd
    · -- the only task has ended
      have hlength := List.length_eraseIdx_of_lt (List.getElem?_eq_some_iff.mp ht₀).1
      have hone := hs.one
      have hnil : n'.tasks = [] := by
        refine List.length_eq_zero_iff.mp ?_
        rw [herase, hlength]
        omega
      rw [hnil] at ht
      cases ht
  · rcases accepted_of_step h b with hsame | hnil | ⟨k, t₀, -, ht₀, -, happend⟩
    · rw [hsame]
      exact hs.inOrder b
    · rw [hnil]
      exact List.Pairwise.nil
    · rw [happend]
      refine List.pairwise_append.mpr ⟨hs.inOrder b, List.pairwise_singleton _ _, ?_⟩
      intro d hd d' hd'
      obtain rfl := List.mem_singleton.mp hd'
      exact hs.later t₀ (List.mem_of_getElem? ht₀) b d hd

theorem serial_bind (hone : config.maxInFlight ≤ 1) : (bind config : Node M).Serial where
  numbered := numbered_bind
  permits := by
    rw [permits, show (bind config : Node M).config = config from rfl]
    omega
  one := Nat.zero_le 1
  later := fun _ ht => by cases ht
  inOrder := fun _ => List.Pairwise.nil

/-! ### No frame that can be read -/

/-- What a loop has read of a frame. -/
def Fetched (codec : Codec M) (config : DistributedConfig) (conn : Conn M) : Prop :=
  match conn.phase with
  | .body frame => frame.length ≠ 0 ∧ frame.length ≤ config.maxFrameBytes
  | .permit _ _ => ∃ body, Readable codec config body
  | _ => True

theorem Fetched.read {conn conn' : Conn M} {r : ReadChoice} (hf : Fetched codec config conn)
    (h : conn.read config codec r = some conn') : Fetched codec config conn' := by
  unfold Conn.read at h
  split at h
  · next hphase =>
    split at h
    · cases h
    · split_ifs at h with hlen
      · cases h
        trivial
      · cases h
        exact ⟨fun hzero => hlen (Or.inl hzero), not_lt.mp fun hlt => hlen (Or.inr hlt)⟩
  · split_ifs at h
    cases h
    trivial
  · next frame hphase =>
    rw [Fetched, hphase] at hf
    split at h
    · cases h
      trivial
    · next target msg hdec =>
      cases h
      exact ⟨frame, hf.1, hf.2, by rw [hdec]; rfl⟩
  · cases h
    trivial
  · cases h
    trivial
  · cases h

/-- The invariant of a node for which no frame is readable. -/
structure Silent (codec : Codec M) (config : DistributedConfig) (n : Node M) : Prop where
  configured : n.config = config
  fetched : ∀ c conn, n.conns c = some conn → Fetched codec config conn
  tasks : n.tasks = []
  accepted : ∀ b, (n.bridges b).accepted = []

theorem Silent.step (hs : n.Silent codec config) (hnone : ¬ ∃ body, Readable codec config body)
    (h : n.step codec e = some n') : n'.Silent codec config := by
  have hset {c' : ConnId} {new : Conn M} (hnew : Fetched codec config new) :
      ∀ c conn, (n.setConn c' new).conns c = some conn → Fetched codec config conn := by
    intro c conn hc
    by_cases hcc : c = c'
    · subst hcc
      simp only [setConn, update_self, Option.some.injEq] at hc
      exact hc ▸ hnew
    · simp only [setConn, update_of_ne hcc] at hc
      exact hs.fetched c conn hc
  have htask {k : ℕ} {t : Dispatch M} (ht : n.tasks[k]? = some t) : False := by
    rw [hs.tasks] at ht
    simp at ht
  have hfetched : ∀ c conn, n'.conns c = some conn → Fetched codec config conn := by
    cases step_inv h with
    | accept => exact hset trivial
    | arrive hc heof hopen | hangUp hc =>
      have hf := hs.fetched _ _ hc
      exact hset hf
    | read hc hread => exact hset ((hs.fetched _ _ hc).read (hs.configured ▸ hread))
    | acquire hc hphase hpermit => exact hset trivial
    | _ => exact hs.fetched
  refine ⟨(config_of_step h).trans hs.configured, hfetched, ?_, fun b => ?_⟩
  · refine List.eq_nil_iff_forall_not_mem.mpr fun t ht => ?_
    rcases tasks_of_step h ht with ⟨s, hmem, -⟩ | ⟨c, conn, target, msg, -, hc, hphase, -⟩
    · rw [hs.tasks] at hmem
      cases hmem
    · have hread := hs.fetched c conn hc
      rw [Fetched, hphase] at hread
      exact hnone hread
  · rcases accepted_of_step h b with hsame | hnil | ⟨k, t, -, ht, -⟩
    · rw [hsame, hs.accepted]
    · exact hnil
    · exact (htask ht).elim

/-! ### A frame that overtakes -/

variable {c : ConnId} {conn : Conn M} {body : List UInt8} {rest : List (List UInt8)}
  {target : String} {msg : M}

/-- A readable frame is received and dispatched. -/
theorem run_receive (c : ConnId) (conn : Conn M) (hc : n.conns c = some conn)
    (hphase : conn.phase = .header) (hwire : conn.wire = body :: rest)
    (hlen : ¬ (body.length = 0 ∨ n.config.maxFrameBytes < body.length))
    (hdec : codec.decode body = some (target, msg)) (hpermit : n.tasks.length < n.permits) :
    n.run codec [.read c .header, .read c .body, .acquire c] = some
      { n.setConn c { conn with wire := rest, phase := .header, received := conn.received + 1 } with
        tasks := n.tasks ++ [⟨c, conn.received, target, msg, .lookup⟩] } := by
  have hheader : conn.read n.config codec .header =
      some { conn with wire := rest, phase := .body body } := by
    simp only [Conn.read, hphase, hwire, if_neg hlen]
  have hbody : Conn.read n.config codec { conn with wire := rest, phase := .body body } .body =
      some { conn with wire := rest, phase := .permit target msg } := by
    simp only [Conn.read, hdec]
  let conn₁ : Conn M := { conn with wire := rest, phase := .body body }
  let conn₂ : Conn M := { conn with wire := rest, phase := .permit target msg }
  have hfirst : n.step codec (.read c .header) = some (n.setConn c conn₁) := by
    simp only [Node.step, hc, Option.bind_some, hheader, Option.map_some, conn₁]
  have hsecond : (n.setConn c conn₁).step codec (.read c .body) = some (n.setConn c conn₂) := by
    simp [Node.step, setConn, hbody, conn₁, conn₂]
  have hthird : (n.setConn c conn₂).step codec (.acquire c) = some
      { n.setConn c { conn with wire := rest, phase := .header, received := conn.received + 1 } with
        tasks := n.tasks ++ [⟨c, conn.received, target, msg, .lookup⟩] } := by
    simp only [Node.step, acquire, setConn, update_self, Option.bind_some, conn₂]
    exact (if_pos hpermit).trans (by simp)
  rw [Node.run, Transition.run_cons_of_step hfirst, Transition.run_cons_of_step hsecond,
    Transition.run_cons_of_step hthird]
  rfl

/-- A peer connects and writes the same frame twice. -/
def twoFrames (target : String) (body : List UInt8) : List NodeEvent :=
  [.openBridge 2, .register target 0, .accept, .arrive 0 body, .arrive 0 body]

/-- The loop of the connection receives a frame. -/
def receive : List NodeEvent := [.read 0 .header, .read 0 .body, .acquire 0]

/-- The later of two dispatch tasks runs first. -/
def overtake : List NodeEvent := [.lookup 1, .send 1, .lookup 0, .send 0]

theorem run_overtake (c : ConnId) (msg' : M)
    (htasks : n.tasks = [⟨c, 0, target, msg, .lookup⟩, ⟨c, 1, target, msg', .lookup⟩])
    (htable : n.table target = some 0) (hbridge : n.bridges 0 = .new 2) :
    ∃ n', n.run codec overtake = some n' ∧
      (n'.bridges 0).accepted = [⟨c, 1, msg'⟩, ⟨c, 0, msg⟩] := by
  refine ⟨{ n with
    tasks := []
    bridges := update n.bridges 0
      ⟨2, true, [⟨c, 1, msg'⟩, ⟨c, 0, msg⟩], [⟨c, 1, msg'⟩, ⟨c, 0, msg⟩]⟩ },
    ?_, by simp⟩
  simp [overtake, Node.run, step, lookup, send, htasks, htable, hbridge, Chan.send, Chan.hasRoom,
    Chan.new, Chan.push, setBridge]

theorem run_reorder (hmany : 1 < config.maxInFlight) (hne : body ≠ [])
    (hmax : body.length ≤ config.maxFrameBytes) (hdec : codec.decode body = some (target, msg)) :
    ∃ n : Node M, (bind config).run codec
      (twoFrames target body ++ receive ++ receive ++ overtake) = some n ∧
      (n.bridges 0).accepted = [⟨0, 1, msg⟩, ⟨0, 0, msg⟩] := by
  have hlen : ¬ (body.length = 0 ∨ config.maxFrameBytes < body.length) := by
    have hpos : body.length ≠ 0 := by simpa using hne
    omega
  have htwo : (bind config : Node M).run codec (twoFrames target body) = some
      ⟨config, update (fun _ => none) 0 (some ⟨[body, body], false, .header, 0⟩), 1, [],
        update (fun _ => none) target (some 0), update (fun _ => .absent) 0 (.new 2), 1⟩ := by
    have hfits : Chan.Fits 2 := by decide
    simp [twoFrames, Node.run, step, bind, setBridge, setConn, arrive, Conn.new, hfits]
  have hfirst := run_trans htwo (run_receive 0 ⟨[body, body], false, .header, 0⟩ (by simp) rfl rfl
    hlen hdec (Nat.lt_of_lt_of_le Nat.one_pos (Nat.le_max_left ..)))
  obtain ⟨n₂, hsecond, htasks, htable, hbridge⟩ : ∃ n₂ : Node M,
      (bind config).run codec (twoFrames target body ++ receive ++ receive) = some n₂ ∧
      n₂.tasks = [⟨0, 0, target, msg, .lookup⟩, ⟨0, 1, target, msg, .lookup⟩] ∧
      n₂.table target = some 0 ∧ n₂.bridges 0 = .new 2 :=
    ⟨_, run_trans hfirst (run_receive 0 ⟨[body], false, .header, 1⟩ (by simp [setConn]) rfl rfl
      hlen hdec (Nat.lt_of_lt_of_le hmany (Nat.le_max_right ..))), rfl, by simp [setConn],
      by simp [setConn]⟩
  obtain ⟨n', hrun, haccepted⟩ := run_overtake 0 msg htasks htable hbridge
  exact ⟨n', run_trans hsecond hrun, haccepted⟩

/-- **The order of dispatch.** The messages of each connection enter each bridge channel in the
order of their frames, in every reachable state of a node, exactly when the node has one permit
only, or no frame is readable at all. -/
theorem inOrder_iff (codec : Codec M) (config : DistributedConfig) :
    (∀ n, Reachable codec config n → n.InOrder) ↔
      config.maxInFlight ≤ 1 ∨ ¬ ∃ body, Readable codec config body := by
  constructor
  · intro hall
    by_contra hcond
    obtain ⟨hmany, body, hne, hmax, hdec⟩ : 1 < config.maxInFlight ∧
        ∃ body, Readable codec config body := by
      simpa [not_or] using hcond
    obtain ⟨⟨target, msg⟩, hdec⟩ := Option.isSome_iff_exists.mp hdec
    obtain ⟨n, hrun, haccepted⟩ := run_reorder hmany (by simpa using hne) hmax hdec
    have horder := hall n ⟨_, hrun⟩ 0
    rw [haccepted] at horder
    have hlt : 1 < 0 := (List.pairwise_cons.mp horder).1 _ List.mem_cons_self rfl
    exact absurd hlt (by decide)
  · rintro (hone | hnone) n ⟨es, hrun⟩
    · have hserial : n.Serial :=
        invariant_run (P := Serial) (fun hs hst => hs.step hst) (serial_bind hone) hrun
      exact hserial.inOrder
    · have hsilent : n.Silent codec config := invariant_run (P := Silent codec config)
        (fun hs hst => hs.step hnone hst) ⟨rfl, fun _ _ h => (by cases h), rfl, fun _ => rfl⟩ hrun
      intro b
      rw [hsilent.accepted b]
      exact List.Pairwise.nil

/-! ### Two numbers -/

/-- The frame of a number for the target `t`. -/
def numberFrame (payload : ℕ) : List UInt8 :=
  ("\x7b\"target\":\"t\",\"payload\":" ++ toString payload ++ "\x7d").toUTF8.data.toList

/-- The frames of 1 and 2 for the target `t` in JSON. -/
def numberCodec : Codec ℕ where
  encode target payload :=
    if target = "t" ∧ (payload = 1 ∨ payload = 2) then some (numberFrame payload) else none
  decode body :=
    if body = numberFrame 1 then some ("t", 1)
    else if body = numberFrame 2 then some ("t", 2)
    else none

/-- The frame of 2 is received after that of 1 on the same connection, and its message enters the
bridge channel first. -/
theorem second_frame_first : ∃ n : Node ℕ,
    (bind .default).run numberCodec ([.openBridge 32, .register "t" 0, .accept,
      .arrive 0 (numberFrame 1), .arrive 0 (numberFrame 2)] ++ receive ++ receive ++ overtake) =
      some n ∧
    (n.bridges 0).accepted = [⟨0, 1, 2⟩, ⟨0, 0, 1⟩] ∧ ¬ n.InOrder := by
  refine ⟨_, rfl, rfl, fun horder => ?_⟩
  have hlt := (List.pairwise_cons.mp (horder 0)).1 _ List.mem_cons_self rfl
  exact absurd hlt (by decide)

end Node

end LaneSwitchboards
