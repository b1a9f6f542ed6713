import LaneSwitchboards.Lib.Framing
import LaneSwitchboards.Mesh.ControlJson
import LaneSwitchboards.Remote.Delivery

/-!
# The bytes on the wire

Data frames and control messages are framed alike, by two codecs that were written separately:
`writeFrame` and `handleConn`, `writeControl` and `readControl`. No read times out here, and the
stream ends after its last byte.

* `read_written`: what is written reads back, and then the stream ends.
* `cleanEnd_spec`: the streams that a reader takes for closed.
* `map_readControl`, `read_frame`: the reads of whole frames are those of their bytes.
-/

namespace LaneSwitchboards.Wire

open Framing

variable {M : Type}

/-! ### Data frames -/

/-- `write_frame`: the bytes of the frame, or `frame too large: {bytes} bytes`. -/
def writeFrame (codec : Codec M) (maxFrameBytes : UInt32) (target : String) (msg : M) :
    Except WriteError (List UInt8) :=
  write maxFrameBytes (fun (target, msg) => codec.encode target msg) (target, msg)

/-- `read_u32_le_timeout`. -/
def readU32LeTimeout (maxFrameBytes : UInt32) (chunks : Chunks) :
    Except ReadError (Option (UInt32 × Chunks)) :=
  readLen maxFrameBytes chunks

/-- `handle_conn`: the messages that it dispatches, and what it returns. -/
def handleConn (codec : Codec M) (maxFrameBytes : UInt32) (chunks : Chunks) :
    List (String × M) × Except ReadError Unit :=
  readFrames maxFrameBytes codec.decode chunks

/-! ### Control messages -/

/-- `write_control`: the bytes of the frame, or `control frame too large: {bytes} bytes`. -/
def writeControl (codec : ControlCodec) (msg : MeshControlMsg) : Except WriteError (List UInt8) :=
  write (.ofNat maxControlFrame) codec.encode msg

/-- `read_control_len`. -/
def readControlLen (chunks : Chunks) : Except ReadError (Option (UInt32 × Chunks)) :=
  readLen (.ofNat maxControlFrame) chunks

/-- `read_control`. -/
def readControl (codec : ControlCodec) (chunks : Chunks) :
    Except ReadError (Option (MeshControlMsg × Chunks)) :=
  readFrame (.ofNat maxControlFrame) codec.decode chunks

/-- The reads of `handle_registry_conn`: the messages, and what the loop returns. -/
def readControls (codec : ControlCodec) (chunks : Chunks) :
    List MeshControlMsg × Except ReadError Unit :=
  readFrames (.ofNat maxControlFrame) codec.decode chunks

/-! ### Round trips -/

/-- **What is written reads back**: of the frames that the writer accepts, one after the other and
in any chunks, the reader makes the messages in order and then the end of the stream; no length
is truncated or too large for it. -/
theorem read_written (codec : Codec M) (hcodec : codec.Lawful) (maxFrameBytes : UInt32)
    (control : ControlCodec)
    (hround : ∀ msg body, control.encode msg = some body → control.decode body = some msg)
    (hne : ∀ msg body, control.encode msg = some body → body ≠ []) :
    (ReadsBack (fun (target, msg) => writeFrame codec maxFrameBytes target msg)
        (handleConn codec maxFrameBytes) ∧
      LengthFits (fun (target, msg) => codec.encode target msg)
        (fun (target, msg) => writeFrame codec maxFrameBytes target msg)
        (readU32LeTimeout maxFrameBytes)) ∧
    (ReadsBack (writeControl control) (readControls control) ∧
      LengthFits control.encode (writeControl control) readControlLen) := by
  have hround' : ∀ (x : String × M) body, codec.encode x.1 x.2 = some body →
      codec.decode body = some x := fun _ _ h => hcodec.roundTrip h
  have hne' : ∀ (x : String × M) body, codec.encode x.1 x.2 = some body → body ≠ [] :=
    fun _ _ h => List.ne_nil_of_length_pos (Nat.pos_of_ne_zero (hcodec.nonempty h))
  exact ⟨⟨readsBack hround' hne', lengthFits hne'⟩, readsBack hround hne, lengthFits hne⟩

/-- The codec of the messages without a payload. -/
def plainCodec : ControlCodec := tableCodec [.list, .pong, .ping]

theorem lawful_plainCodec : plainCodec.Lawful :=
  lawful_tableCodec (by decide) (by decide) (by decide)

/-- Two data frames, cut inside the first length, and a `Ping`. -/
theorem read_written_chunks :
    handleConn Node.numberCodec 4194304 [(frame (Node.numberFrame 1)).take 2,
        (frame (Node.numberFrame 1)).drop 2 ++ frame (Node.numberFrame 2)] =
        ([("t", 1), ("t", 2)], .ok ()) ∧
      readControls plainCodec [[6, 0, 0, 0, 34], [80, 105, 110, 103, 34]] = ([.ping], .ok ()) := by
  have hspec := read_written Node.numberCodec Node.numberCodec_lawful 4194304 plainCodec
    lawful_plainCodec.roundTrip lawful_plainCodec.nonempty
  constructor
  · refine hspec.1.1 _ [frame (Node.numberFrame 1), frame (Node.numberFrame 2)] _ ?_ (by decide)
    exact .cons (by decide) (.cons (by decide) .nil)
  · refine hspec.2.1 _ [[6, 0, 0, 0, 34, 80, 105, 110, 103, 34]] _ ?_ rfl
    exact .cons (by decide) .nil

/-! ### Whole frames -/

/-- The error of `read_control`. -/
def controlError : ReadError → ControlError
  | .tooLarge n => .tooLarge n.toNat
  | .unexpectedEof => .unexpectedEof
  | .invalid => .decode

/-- **A control message is read from its bytes** as it is from the body of its frame. -/
theorem map_readControl (codec : ControlCodec) {body rest : List UInt8} {chunks : Chunks}
    (hlen : body.length < 2 ^ 32) (hchunks : chunks.flatten = frame body ++ rest) :
    ((readControl codec chunks).mapError controlError).map
        (·.map fun (msg, rest) => (msg, rest.flatten)) =
      (codec.readControl body).map (·.map fun msg => (msg, rest)) := by
  have hread := (parsesFrame_frame (.ofNat maxControlFrame) codec.decode hlen rest).readFrame_eq
    hchunks
  have hlimit : (UInt32.ofNat maxControlFrame).toNat = maxControlFrame := by decide
  have hn : (UInt32.ofNat body.length).toNat = body.length := UInt32.toNat_ofNat_of_lt' hlen
  have hmap : ((readControl codec chunks).mapError controlError).map
      (·.map fun (msg, rest) => (msg, rest.flatten)) =
        ((readControl codec chunks).map (·.map fun (msg, rest) => (msg, rest.flatten))).mapError
          controlError := by
    cases readControl codec chunks <;> rfl
  rw [hmap, readControl, hread, hlimit, ControlCodec.readControl]
  split_ifs with hzero hlarge
  · rfl
  · simp only [Except.mapError, controlError, hn]
    rfl
  · cases codec.decode body <;> rfl

/-- **A data frame is read from its bytes** as it is from the wire of a connection. -/
theorem read_frame (codec : Codec M) {config : DistributedConfig} {maxFrameBytes : UInt32}
    (hconfig : config.maxFrameBytes = maxFrameBytes.toNat) {conn : Conn M} {body : List UInt8}
    {wire : List (List UInt8)} (hphase : conn.phase = .header) (hwire : conn.wire = body :: wire)
    {rest : List UInt8} {chunks : Chunks} (hlen : body.length < 2 ^ 32)
    (hchunks : chunks.flatten = frame body ++ rest) :
    match readFrame maxFrameBytes codec.decode chunks with
    | .ok (some ((target, msg), rest')) => rest'.flatten = rest ∧
      (conn.read config codec .header).bind (·.read config codec .body) =
        some { conn with wire := wire, phase := .permit target msg }
    | .error .invalid =>
      (conn.read config codec .header).bind (·.read config codec .body) =
        some { conn with wire := [], phase := .closed }
    | _ => conn.read config codec .header = some conn.close := by
  have hread := (parsesFrame_frame maxFrameBytes codec.decode hlen rest).readFrame_eq hchunks
  have hfirst : conn.read config codec .header =
      if body.length = 0 ∨ config.maxFrameBytes < body.length then some conn.close
      else some { conn with wire := wire, phase := .body body } := by
    simp only [Conn.read, hphase, hwire]
  rw [hconfig] at hfirst
  -- by what the frame reads as: closed, too large, not a message, or a message
  generalize readFrame maxFrameBytes codec.decode chunks = next at hread
  split_ifs at hread with hzero hlarge
  · rw [if_pos (.inl hzero)] at hfirst
    rcases next with e | _ | x
    · cases hread
    · exact hfirst
    · cases hread
  · rw [if_pos (.inr hlarge)] at hfirst
    rcases next with e | x
    · obtain rfl : e = .tooLarge (.ofNat body.length) := by simpa [Except.map] using hread
      exact hfirst
    · cases hread
  · have hneither : ¬ (body.length = 0 ∨ maxFrameBytes.toNat < body.length) := by
      rintro (h | h)
      · exact hzero h
      · exact hlarge h
    rw [if_neg hneither] at hfirst
    cases hdecode : codec.decode body with
    | none =>
      rw [hdecode] at hread
      rcases next with e | x
      · obtain rfl : e = .invalid := by simpa [Except.map] using hread
        dsimp only
        rw [hfirst, Option.bind_some]
        simp only [Conn.read, hdecode, Conn.close]
      · cases hread
    | some x =>
      rw [hdecode] at hread
      rcases next with e | _ | ⟨⟨target, msg⟩, rest'⟩
      · cases hread
      · cases hread
      · obtain ⟨rfl, hrest⟩ : (target, msg) = x ∧ rest'.flatten = rest := by
          simpa [Except.map] using hread
        refine ⟨hrest, ?_⟩
        rw [hfirst, Option.bind_some]
        simp only [Conn.read, hdecode]

/-! ### Clean ends -/

/-- **The streams that a reader takes for closed**: whole frames, with nothing after them or a
length of zero and anything. Of a stream that ends inside a length nothing is said; every other
one ends in an error. -/
theorem cleanEnd_spec (codec : Codec M) (maxFrameBytes : UInt32) (control : ControlCodec)
    (chunks : Chunks) :
    ((∀ xs, CleanEnd maxFrameBytes codec.decode xs chunks.flatten →
        handleConn codec maxFrameBytes chunks = (xs, .ok ())) ∧
      (¬ CutInLength maxFrameBytes codec.decode chunks.flatten →
        (∀ xs, ¬ CleanEnd maxFrameBytes codec.decode xs chunks.flatten) →
          ∃ e, (handleConn codec maxFrameBytes chunks).2 = .error e)) ∧
    ((∀ xs, CleanEnd (.ofNat maxControlFrame) control.decode xs chunks.flatten →
        readControls control chunks = (xs, .ok ())) ∧
      (¬ CutInLength (.ofNat maxControlFrame) control.decode chunks.flatten →
        (∀ xs, ¬ CleanEnd (.ofNat maxControlFrame) control.decode xs chunks.flatten) →
          ∃ e, (readControls control chunks).2 = .error e)) :=
  ⟨⟨fun _ h => h.readFrames_eq, exists_error_of_not_cleanEnd⟩,
    fun _ h => h.readFrames_eq, exists_error_of_not_cleanEnd⟩

/-- A data frame, a length of zero and a byte. -/
theorem cleanEnd_spec_zero :
    handleConn Node.numberCodec 4194304 [frame (Node.numberFrame 1) ++ [0, 0], [0, 0, 7]] =
      ([("t", 1)], .ok ()) := by
  have hframe : FrameOf 4194304 Node.numberCodec.decode ("t", 1) (frame (Node.numberFrame 1)) :=
    ⟨_, rfl, by decide, by decide, by decide⟩
  exact (cleanEnd_spec Node.numberCodec 4194304 plainCodec _).1.1 _
    ⟨_, frames_nil.cons hframe, .inr ⟨[7], by decide⟩⟩

/-- **Bytes after a length of zero are not reported**: such a stream is not made of whole frames,
and both readers take it for closed. -/
theorem zero_length_closes :
    (handleConn Node.numberCodec 4194304 [[0, 0, 0, 0, 1]] = ([], .ok ()) ∧
      ∀ xs, ¬ Frames 4194304 Node.numberCodec.decode xs [0, 0, 0, 0, 1]) ∧
    (readControls plainCodec [[0, 0, 0, 0, 1]] = ([], .ok ()) ∧
      ∀ xs, ¬ Frames (.ofNat maxControlFrame) plainCodec.decode xs [0, 0, 0, 0, 1]) := by
  have hbytes : ([0, 0, 0, 0, 1] : List UInt8) = [] ++ (u32Le 0 ++ [1]) := rfl
  have hframes {α : Type} {limit : UInt32} {decode : List UInt8 → Option α} (xs : List α) :
      ¬ Frames limit decode xs [0, 0, 0, 0, 1] := by
    intro h
    cases h.tail_eq_nil frames_nil (.inr ⟨[1], rfl⟩) hbytes
  refine ⟨⟨?_, hframes⟩, ?_, hframes⟩
  · exact CleanEnd.readFrames_eq ⟨[], frames_nil, .inr ⟨[1], rfl⟩⟩
  · exact CleanEnd.readFrames_eq ⟨[], frames_nil, .inr ⟨[1], rfl⟩⟩

end LaneSwitchboards.Wire
