import LaneSwitchboards.Wire

/-!
# The attempts of a write loop

`remote_write_loop` over any network: a connect may fail, and `write_frame` may fail before it
writes a byte (the message does not encode, or its frame is too large) or after any number of
bytes of the frame, also after all of them where the flush fails. `WriteLoop` keeps what was
written to each connection, in the order in which they were opened, with the calls of
`write_frame` that wrote it.

The messages that were attempted are a prefix of those that the reference has accepted, one
attempt each; each connection carries the frames that were written whole and at most a part of
one more; and the whole frames of all connections are a subsequence of what was accepted:
`writeLoop_spec`.
-/

namespace LaneSwitchboards

open Transition

/-- One call of `write_frame`, with the bytes that reached the stream. -/
structure WriteAttempt (M : Type) where
  msg : M
  bytes : List UInt8
deriving DecidableEq

/-- A stream to the node: what was written to it, and by which calls. -/
structure WriteStream (M : Type) where
  bytes : List UInt8
  attempts : List (WriteAttempt M)
deriving DecidableEq

/-- A remote reference, and the streams that its write loop has opened. -/
structure WriteLoop (M : Type) where
  writer : Writer M
  streams : List (WriteStream M)
deriving DecidableEq

/-- One event of a reference and its write loop. -/
inductive WriteLoopEvent (M : Type)
  | send (msg : M)
  | cloneRef
  | dropRef
  | connect
  | connectFailed
  | recv
  | recvNone
  /-- `write_frame` returns; the stream fails after some bytes of the frame, or not at all. -/
  | write (failsAfter : Option ℕ)

namespace WriteStream

variable {M : Type}

/-- `tls::connect` returns a stream. -/
def opened : WriteStream M := ⟨[], []⟩

/-- A call of `write_frame` that writes some bytes. -/
def write (stream : WriteStream M) (msg : M) (bytes : List UInt8) : WriteStream M :=
  ⟨stream.bytes ++ bytes, stream.attempts ++ [⟨msg, bytes⟩]⟩

end WriteStream

namespace WriteAttempt

variable {M : Type} (frame : M → Except Framing.WriteError (List UInt8))

/-- The whole frame was written. -/
def Whole (a : WriteAttempt M) : Prop := frame a.msg = .ok a.bytes

instance (a : WriteAttempt M) : Decidable (a.Whole frame) := inferInstanceAs (Decidable (_ = _))

/-- Nothing was written, or a part of the frame. -/
def Cut (a : WriteAttempt M) : Prop :=
  a.bytes = [] ∨ ∃ bytes, frame a.msg = .ok bytes ∧ a.bytes <+: bytes ∧ a.bytes ≠ bytes

end WriteAttempt

namespace WriteStream

variable {M : Type} (frame : M → Except Framing.WriteError (List UInt8))

/-- The messages whose whole frames were written. -/
def written (stream : WriteStream M) : List M :=
  (stream.attempts.filter (·.Whole frame)).map WriteAttempt.msg

/-- The bytes of a stream are those of its attempts, of which all but the last are whole. -/
structure Framed (stream : WriteStream M) : Prop where
  bytes : stream.bytes = (stream.attempts.map WriteAttempt.bytes).flatten
  whole : ∀ a ∈ stream.attempts.dropLast, a.Whole frame
  last : ∀ a ∈ stream.attempts.getLast?, a.Whole frame ∨ a.Cut frame

/-- The stream carries whole frames, and a part of one more. -/
def Carries (stream : WriteStream M) : Prop :=
  ∃ frames rest, stream.bytes = frames.flatten ++ rest ∧
    List.Forall₂ (fun msg bytes => frame msg = .ok bytes) (stream.written frame) frames ∧
    (rest = [] ∨ ∃ msg bytes, frame msg = .ok bytes ∧ rest <+: bytes ∧ rest ≠ bytes)

variable {frame} {stream : WriteStream M} {msg : M} {bytes : List UInt8}

theorem framed_opened : (opened : WriteStream M).Framed frame where
  bytes := rfl
  whole := fun _ h => by cases h
  last := fun _ h => by cases h

/-- A call after whole frames. -/
theorem Framed.write (h : stream.Framed frame) (hall : ∀ a ∈ stream.attempts, a.Whole frame)
    (hnew : WriteAttempt.Whole frame ⟨msg, bytes⟩ ∨ WriteAttempt.Cut frame ⟨msg, bytes⟩) :
    (stream.write msg bytes).Framed frame where
  bytes := by simp [WriteStream.write, h.bytes]
  whole := by simpa [WriteStream.write] using hall
  last := by simpa [WriteStream.write] using hnew

/-- Attempts that are all whole. -/
theorem forall₂_whole {attempts : List (WriteAttempt M)} (h : ∀ a ∈ attempts, a.Whole frame) :
    List.Forall₂ (fun msg bytes => frame msg = .ok bytes) (attempts.map WriteAttempt.msg)
      (attempts.map WriteAttempt.bytes) := by
  rw [List.forall₂_map_left_iff, List.forall₂_map_right_iff]
  exact List.forall₂_same.mpr h

/-- **What a stream carries**: the frames of the attempts that are whole, and what the last one
has written where it is not. -/
theorem Framed.carries (h : stream.Framed frame) : stream.Carries frame := by
  obtain hnil | ⟨init, a, hconcat⟩ := List.eq_nil_or_concat stream.attempts
  · refine ⟨[], [], ?_, ?_, Or.inl rfl⟩
    · rw [h.bytes, hnil]
      rfl
    · rw [written, hnil]
      exact .nil
  · have hwhole := h.whole
    have hlast := h.last
    rw [List.concat_eq_append] at hconcat
    rw [hconcat] at hwhole hlast
    rw [List.dropLast_concat] at hwhole
    have hinit : init.filter (·.Whole frame) = init :=
      List.filter_eq_self.mpr fun a ha => by simpa using hwhole a ha
    unfold Carries
    rw [h.bytes, written, hconcat, List.filter_append, hinit, List.map_append, List.map_append,
      List.flatten_append]
    by_cases ha : a.Whole frame
    · refine ⟨(init ++ [a]).map WriteAttempt.bytes, [], by simp, ?_, Or.inl rfl⟩
      have hall : ∀ b ∈ init ++ [a], b.Whole frame := by
        simpa [or_imp, forall_and, ha] using hwhole
      simpa [ha] using forall₂_whole hall
    · refine ⟨init.map WriteAttempt.bytes, a.bytes, by simp, ?_, ?_⟩
      · simpa [ha] using forall₂_whole hwhole
      · rcases (hlast a (by simp)).resolve_left ha with hnil | ⟨bytes, hframe, hprefix, hne⟩
        · exact Or.inl hnil
        · exact Or.inr ⟨a.msg, bytes, hframe, hprefix, hne⟩

end WriteStream

namespace WriteLoop

variable {M : Type}

/-- `RemoteActorRef::with_config`. -/
def start (target : String) (config : DistributedConfig) : WriteLoop M :=
  ⟨.withConfig target config, []⟩

variable (codec : Codec M) (config : DistributedConfig)

/-- The frame of a message, or why there is none. -/
def frame (target : String) (msg : M) : Except Framing.WriteError (List UInt8) :=
  Wire.writeFrame codec (.ofNat config.maxFrameBytes) target msg

/-- `write_frame` on a stream. -/
def write (s : WriteLoop M) (c : ConnId) (msg : M) (failsAfter : Option ℕ) :
    Option (WriteLoop M) :=
  match frame codec config s.writer.target msg, failsAfter with
  | .error _, _ => (s.writer.step .writeFailed).map fun writer =>
    ⟨writer, s.streams.modify c (·.write msg [])⟩
  | .ok frame, some n => (s.writer.step .writeFailed).map fun writer =>
    ⟨writer, s.streams.modify c (·.write msg (frame.take n))⟩
  | .ok frame, none => (s.writer.step .written).map fun writer =>
    ⟨writer, s.streams.modify c (·.write msg frame)⟩

/-- One event of a reference and its write loop; `none` where it is not enabled. -/
def step (s : WriteLoop M) : WriteLoopEvent M → Option (WriteLoop M)
  | .send msg => (s.writer.step (.send msg)).map fun writer => { s with writer := writer }
  | .cloneRef => (s.writer.step .cloneRef).map fun writer => { s with writer := writer }
  | .dropRef => (s.writer.step .dropRef).map fun writer => { s with writer := writer }
  | .connect => (s.writer.step (.connected s.streams.length)).map fun writer =>
    ⟨writer, s.streams ++ [.opened]⟩
  | .connectFailed => (s.writer.step .connectFailed).map fun writer => { s with writer := writer }
  | .recv => (s.writer.step .recv).map fun writer => { s with writer := writer }
  | .recvNone => (s.writer.step .recvNone).map fun writer => { s with writer := writer }
  | .write failsAfter =>
    match s.writer.phase with
    | .writing c msg => s.write codec config c msg failsAfter
    | _ => none

/-- The attempts over all streams. -/
def attempts (s : WriteLoop M) : List (WriteAttempt M) := s.streams.flatMap WriteStream.attempts

end WriteLoop

namespace Writer

variable {M : Type} {w w' : Writer M} {e : WriterEvent M}

/-- The message that has left the queue and is being written. -/
def inHand (w : Writer M) : List M :=
  match w.phase with
  | .writing _ msg => [msg]
  | _ => []

/-- The stream of the loop. -/
def stream (w : Writer M) : Option ConnId :=
  match w.phase with
  | .idle c | .writing c _ => some c
  | _ => none

/-- Until the loop ends, the messages that it has attempted, has in hand and has queued are those
that were accepted. -/
structure Accounts (w : Writer M) (attempted : List M) : Prop where
  taken : attempted ++ w.inHand <+: w.queue.accepted
  all : w.phase ≠ .ended → attempted ++ w.inHand ++ w.queue.queue = w.queue.accepted

theorem accounts_withConfig (target : String) (config : DistributedConfig) :
    (withConfig target config : Writer M).Accounts [] where
  taken := List.nil_prefix
  all := fun _ => rfl

/-- The loop ends, and what it has queued is lost. -/
theorem Accounts.finish {attempted : List M} (h : w.Accounts attempted) (hhand : w.inHand = []) :
    w.finish.Accounts attempted where
  taken := by
    have htaken := h.taken
    rw [hhand] at htaken
    exact htaken
  all := fun hne => absurd rfl hne

/-- A call of `write_frame` returns. -/
theorem Accounts.attempt {attempted : List M} {c : ConnId} {msg : M} {phase : WriterPhase M}
    (h : w.Accounts attempted) (hphase : w.phase = .writing c msg)
    (hhand : ({ w with phase := phase } : Writer M).inHand = []) :
    ({ w with phase := phase } : Writer M).Accounts (attempted ++ [msg]) := by
  have hmsg : w.inHand = [msg] := by rw [inHand, hphase]
  have htaken := h.taken
  have hall := h.all (by rw [hphase]; exact fun hp => by cases hp)
  rw [hmsg] at htaken hall
  refine ⟨?_, fun _ => ?_⟩
  · rw [hhand, List.append_nil]
    exact htaken
  · rw [hhand, List.append_nil]
    exact hall

/-- **The other events** neither lose a message nor take it out of turn. -/
theorem Accounts.step {attempted : List M} (h : w.Accounts attempted)
    (hst : w.step e = some w') (hwritten : e ≠ .written) (hfailed : e ≠ .writeFailed) :
    w'.Accounts attempted := by
  have hin {p : WriterPhase M} (hphase : w.phase = p) :
      w.inHand = ({ w with phase := p }).inHand := by
    rw [← hphase]
  cases step_inv hst with
  | @send msg =>
    refine ⟨h.taken.trans (List.prefix_append _ _), fun hne => ?_⟩
    rw [Chan.accepted_push, ← h.all hne, Chan.queue_push, ← List.append_assoc]
    rfl
  | cloneRef | dropRef | connectFailed => exact ⟨h.taken, h.all⟩
  | connected hphase =>
    have hall := h.all (by rw [hphase]; exact fun hp => by cases hp)
    rw [hin hphase] at hall
    refine ⟨?_, fun _ => hall⟩
    have htaken := h.taken
    rw [hin hphase] at htaken
    exact htaken
  | giveUp hphase => exact h.finish (hin hphase)
  | recvNone hphase => exact h.finish (hin hphase)
  | @recv c msg queue hphase hrecv =>
    have hall := h.all (by rw [hphase]; exact fun hp => by cases hp)
    have hnil : w.inHand = [] := hin hphase
    have hqueue := (Chan.recv_eq_some.mp hrecv).1
    rw [hnil, hqueue, List.append_nil] at hall
    have hall' : attempted ++ [msg] ++ queue.queue = queue.accepted := by
      rw [Chan.accepted_recv hrecv, ← hall, List.append_assoc]
      rfl
    exact ⟨⟨queue.queue, hall'⟩, fun _ => hall'⟩
  | written => exact absurd rfl hwritten
  | writeFailed => exact absurd rfl hfailed

/-- The stream of the loop changes where it connects or drops it. -/
theorem stream_of_step (hst : w.step e = some w') (hconnected : ∀ c, e ≠ .connected c) :
    w'.stream = w.stream ∨ w'.stream = none := by
  cases step_inv hst with
  | send | cloneRef | dropRef | connectFailed => exact Or.inl rfl
  | connected => exact absurd rfl (hconnected _)
  | giveUp | recvNone | writeFailed => exact Or.inr rfl
  | recv hphase | written hphase =>
    left
    unfold stream
    rw [hphase]

end Writer

namespace WriteLoop

variable {M : Type} {codec : Codec M} {config : DistributedConfig} {target : String}
  {s s' : WriteLoop M} {e : WriteLoopEvent M}

/-- The invariant of a write loop: its stream is the last one, and carries whole frames only. -/
structure Sound (codec : Codec M) (config : DistributedConfig) (target : String)
    (s : WriteLoop M) : Prop where
  aimed : s.writer.target = target
  accounts : s.writer.Accounts (s.attempts.map WriteAttempt.msg)
  framed : ∀ stream ∈ s.streams, stream.Framed (frame codec config target)
  current : ∀ c, s.writer.stream = some c → ∃ init stream, s.streams = init ++ [stream] ∧
    c = init.length ∧ ∀ a ∈ stream.attempts, a.Whole (frame codec config target)

theorem sound_start (codec : Codec M) (config : DistributedConfig) (target : String) :
    (start target config).Sound codec config target where
  aimed := rfl
  accounts := Writer.accounts_withConfig target config
  framed := fun _ h => by cases h
  current := fun _ h => by cases h

/-- An event that does not touch the streams. -/
theorem Sound.quiet (h : s.Sound codec config target) {we : WriterEvent M} {w : Writer M}
    (hst : s.writer.step we = some w) (hconnected : ∀ c, we ≠ .connected c)
    (hwritten : we ≠ .written) (hfailed : we ≠ .writeFailed) :
    ({ s with writer := w } : WriteLoop M).Sound codec config target where
  aimed := (Writer.target_of_step hst).trans h.aimed
  accounts := h.accounts.step hst hwritten hfailed
  framed := h.framed
  current := fun c hc => by
    rcases Writer.stream_of_step hst hconnected with hsame | hnone
    · exact h.current c (hsame ▸ hc)
    · rw [hnone] at hc
      cases hc

/-- A call of `write_frame` on the stream of the loop. -/
theorem Sound.write (h : s.Sound codec config target) {c : ConnId} {msg : M} {bytes : List UInt8}
    {phase : WriterPhase M} (hphase : s.writer.phase = .writing c msg)
    (hnew : WriteAttempt.Whole (frame codec config target) ⟨msg, bytes⟩ ∧ phase = .idle c ∨
      (WriteAttempt.Whole (frame codec config target) ⟨msg, bytes⟩ ∨
        WriteAttempt.Cut (frame codec config target) ⟨msg, bytes⟩) ∧ phase = .connecting) :
    (⟨{ s.writer with phase := phase }, s.streams.modify c (·.write msg bytes)⟩ :
      WriteLoop M).Sound codec config target := by
  obtain ⟨init, stream, hstreams, rfl, hall⟩ := h.current c (by rw [Writer.stream, hphase])
  have hmodify : s.streams.modify init.length (·.write msg bytes) =
      init ++ [stream.write msg bytes] := by
    rw [hstreams, List.modify_eq_take_cons_drop (by simp)]
    simp
  have hattempts : (⟨{ s.writer with phase := phase }, init ++ [stream.write msg bytes]⟩ :
      WriteLoop M).attempts = s.attempts ++ [⟨msg, bytes⟩] := by
    simp [attempts, hstreams, WriteStream.write]
  have hhand : ({ s.writer with phase := phase } : Writer M).inHand = [] := by
    rcases hnew with ⟨-, rfl⟩ | ⟨-, rfl⟩ <;> rfl
  rw [hmodify]
  refine ⟨h.aimed, ?_, fun stream' hstream' => ?_, fun c hc => ?_⟩
  · rw [hattempts, List.map_append]
    exact h.accounts.attempt hphase hhand
  · rcases List.mem_append.mp hstream' with hold | hwritten
    · exact h.framed stream' (hstreams ▸ List.mem_append_left _ hold)
    · rw [List.mem_singleton.mp hwritten]
      have hframed := h.framed stream (hstreams ▸ List.mem_append_right _ List.mem_cons_self)
      exact hframed.write hall (hnew.elim (fun hwhole => Or.inl hwhole.1) And.left)
  · rcases hnew with ⟨hwhole, rfl⟩ | ⟨-, rfl⟩
    · obtain rfl : init.length = c := Option.some.inj hc
      refine ⟨init, _, rfl, rfl, fun a ha => ?_⟩
      rcases List.mem_append.mp ha with ha | ha
      · exact hall a ha
      · rw [List.mem_singleton.mp ha]
        exact hwhole
    · cases hc

/-- **Every event keeps the invariant.** -/
theorem Sound.step (h : s.Sound codec config target) (hst : s.step codec config e = some s') :
    s'.Sound codec config target := by
  cases e with
  | send msg | cloneRef | connectFailed | recv | recvNone | dropRef =>
    simp only [WriteLoop.step] at hst
    obtain ⟨w, hw, rfl⟩ := Option.map_eq_some_iff.mp hst
    exact h.quiet hw (by simp) (by simp) (by simp)
  | connect =>
    simp only [WriteLoop.step] at hst
    obtain ⟨w, hw, rfl⟩ := Option.map_eq_some_iff.mp hst
    have hphase : w.stream = some s.streams.length := by
      cases Writer.step_inv hw
      rfl
    refine ⟨(Writer.target_of_step hw).trans h.aimed, ?_, fun stream hstream => ?_, fun c hc => ?_⟩
    · have hattempts : (⟨w, s.streams ++ [.opened]⟩ : WriteLoop M).attempts = s.attempts := by
        simp [attempts, WriteStream.opened]
      rw [hattempts]
      exact h.accounts.step hw (by simp) (by simp)
    · rcases List.mem_append.mp hstream with hold | hnew
      · exact h.framed stream hold
      · rw [List.mem_singleton.mp hnew]
        exact WriteStream.framed_opened
    · obtain rfl : s.streams.length = c := Option.some.inj (hphase.symm.trans hc)
      exact ⟨s.streams, .opened, rfl, rfl, fun a ha => by cases ha⟩
  | write failsAfter =>
    simp only [WriteLoop.step] at hst
    split at hst
    · next c msg hphase =>
      unfold WriteLoop.write at hst
      rw [h.aimed] at hst
      cases hframe : frame codec config target msg with
      | error err =>
        simp only [hframe] at hst
        obtain ⟨w, hw, rfl⟩ := Option.map_eq_some_iff.mp hst
        cases Writer.step_inv hw
        exact h.write hphase (Or.inr ⟨Or.inr (Or.inl rfl), rfl⟩)
      | ok bytes =>
        cases failsAfter with
        | none =>
          simp only [hframe] at hst
          obtain ⟨w, hw, rfl⟩ := Option.map_eq_some_iff.mp hst
          cases Writer.step_inv hw with
          | written hphase' =>
            obtain ⟨rfl, -⟩ := WriterPhase.writing.inj (hphase'.symm.trans hphase)
            exact h.write hphase (Or.inl ⟨hframe, rfl⟩)
        | some n =>
          simp only [hframe] at hst
          obtain ⟨w, hw, rfl⟩ := Option.map_eq_some_iff.mp hst
          cases Writer.step_inv hw
          refine h.write hphase (Or.inr ⟨?_, rfl⟩)
          by_cases hall : bytes.take n = bytes
          · exact Or.inl (by rw [WriteAttempt.Whole, hall, hframe])
          · exact Or.inr (Or.inr ⟨bytes, hframe, List.take_prefix n bytes, hall⟩)
    · cases hst

/-- **The attempts of a write loop.** For every sequence of sends, connects and writes, with any
outcomes: the messages that were attempted, over all streams, are the first ones that the
reference has accepted, so that each has one attempt at most; every stream carries the frames
that were written whole, and at most a part of one more; and the whole frames of the streams, in
the order in which they were opened, are a subsequence of what was accepted. -/
theorem writeLoop_spec (codec : Codec M) (config : DistributedConfig) (target : String)
    (events : List (WriteLoopEvent M))
    (hrun : run (step codec config) (start target config) events = some s) :
    s.attempts.map WriteAttempt.msg <+: s.writer.queue.accepted ∧
    (∀ stream ∈ s.streams,
      stream.bytes = (stream.attempts.map WriteAttempt.bytes).flatten ∧
      stream.Carries (frame codec config target)) ∧
    (s.streams.flatMap (·.written (frame codec config target))).Sublist
      s.writer.queue.accepted := by
  have h : s.Sound codec config target := invariant_run
    (P := fun s : WriteLoop M => s.Sound codec config target) (fun hs hst => hs.step hst)
    (sound_start codec config target) hrun
  have hattempted : s.attempts.map WriteAttempt.msg <+: s.writer.queue.accepted :=
    (List.prefix_append _ _).trans h.accounts.taken
  refine ⟨hattempted, fun stream hstream => ?_, ?_⟩
  · exact ⟨(h.framed stream hstream).bytes, (h.framed stream hstream).carries⟩
  · refine List.Sublist.trans ?_ hattempted.sublist
    have hwritten : s.streams.flatMap (·.written (frame codec config target)) =
        (s.attempts.filter (·.Whole (frame codec config target))).map WriteAttempt.msg := by
      rw [attempts, List.filter_flatMap, List.map_flatMap]
      rfl
    rw [hwritten]
    exact List.filter_sublist.map _

/-- The first frame is cut, the second write succeeds, the third message has no frame, and the
fourth one is not attempted. -/
def interrupted : List (WriteLoopEvent ℕ) :=
  [.send 1, .send 2, .send 3, .connectFailed, .connect, .recv, .write (some 3), .connect, .recv,
    .write none, .recv, .write none, .send 1]

/-- What is written in this run. -/
theorem writeLoop_spec_interrupted : ∃ s : WriteLoop ℕ,
    run (step Node.numberCodec .default) (start "t" .default) interrupted = some s ∧
    s.attempts.map WriteAttempt.msg = [1, 2, 3] ∧ s.writer.queue.accepted = [1, 2, 3, 1] ∧
    (s.streams.flatMap (·.written (frame Node.numberCodec .default "t"))).Sublist [1, 2, 3, 1] := by
  refine ⟨_, rfl, by decide +kernel, rfl, ?_⟩
  exact (writeLoop_spec Node.numberCodec .default "t" interrupted rfl).2.2

end WriteLoop

end LaneSwitchboards
