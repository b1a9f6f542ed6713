import Mathlib.Algebra.Group.Nat.Defs
import Mathlib.Data.List.Forall2
import Mathlib.Tactic.Common

/-!
# Length-prefixed frames

A frame is the length of its body in four bytes, little endian, and the body. A reader takes
frames from a stream of bytes that arrives in chunks and then ends. A length of zero reads like
the end of the stream, and so does an end of the stream inside a length.

* `Parses` is the grammar of a stream: a reader makes of its bytes what the grammar says, and
  nothing else, however they are cut into chunks (`readFrames_eq_iff`).
* `FrameOf.ready_iff`: a reader waits for the whole of a frame, and for no more.
* `parses_ok_iff`: the streams with a clean end.
* `readsBack`, `lengthFits`: what a writer accepts is read back.
-/

namespace Framing

/-! ### Four bytes, little endian -/

/-- The bytes of a length. -/
def u32Le (n : UInt32) : List UInt8 :=
  [UInt8.ofNat n.toNat, UInt8.ofNat (n.toNat / 256), UInt8.ofNat (n.toNat / 65536),
    UInt8.ofNat (n.toNat / 16777216)]

/-- The length of four bytes. -/
def ofU32Le : List UInt8 → UInt32
  | [b₀, b₁, b₂, b₃] =>
    UInt32.ofNat (b₀.toNat + 256 * b₁.toNat + 65536 * b₂.toNat + 16777216 * b₃.toNat)
  | _ => 0

@[simp] theorem length_u32Le (n : UInt32) : (u32Le n).length = 4 := rfl

@[simp] theorem ofU32Le_u32Le (n : UInt32) : ofU32Le (u32Le n) = n := by
  have hlt : n.toNat < 2 ^ 32 := UInt32.toNat_lt n
  refine UInt32.toNat_inj.mp ?_
  simp only [u32Le, ofU32Le, UInt32.toNat_ofNat', UInt8.toNat_ofNat']
  omega

theorem u32Le_ofU32Le {header : List UInt8} (h : header.length = 4) :
    u32Le (ofU32Le header) = header := by
  obtain ⟨b₀, b₁, b₂, b₃, rfl⟩ : ∃ b₀ b₁ b₂ b₃, header = [b₀, b₁, b₂, b₃] := by
    match header, h with
    | [b₀, b₁, b₂, b₃], _ => exact ⟨b₀, b₁, b₂, b₃, rfl⟩
  have h₀ := UInt8.toNat_lt b₀
  have h₁ := UInt8.toNat_lt b₁
  have h₂ := UInt8.toNat_lt b₂
  have h₃ := UInt8.toNat_lt b₃
  simp only [u32Le, ofU32Le, UInt32.toNat_ofNat', List.cons.injEq, and_true,
    ← UInt8.toNat_inj, UInt8.toNat_ofNat']
  omega

/-! ### Writing -/

/-- Why a writer refuses a message. -/
inductive WriteError
  | invalid
  | tooLarge (bytes : ℕ)
deriving DecidableEq

/-- The bytes of a frame. -/
def frame (body : List UInt8) : List UInt8 := u32Le (UInt32.ofNat body.length) ++ body

/-- The frame of a message, whose body is held to a limit. -/
def write {α : Type} (limit : UInt32) (encode : α → Option (List UInt8)) (x : α) :
    Except WriteError (List UInt8) :=
  match encode x with
  | none => .error .invalid
  | some body =>
    if limit.toNat < body.length then .error (.tooLarge body.length) else .ok (frame body)

theorem write_eq_ok {α : Type} {limit : UInt32} {encode : α → Option (List UInt8)} {x : α}
    {bytes : List UInt8} :
    write limit encode x = .ok bytes ↔
      ∃ body, encode x = some body ∧ body.length ≤ limit.toNat ∧ bytes = frame body := by
  unfold write
  cases encode x with
  | none => simp
  | some body =>
    dsimp only
    split_ifs with hlt
    · simp [Nat.not_le.mpr hlt]
    · simp [Nat.not_lt.mp hlt, eq_comm]

/-- The limit keeps the length of the body within its four bytes. -/
theorem toNat_ofNat_length {limit : UInt32} {body : List UInt8} (h : body.length ≤ limit.toNat) :
    (UInt32.ofNat body.length).toNat = body.length :=
  UInt32.toNat_ofNat_of_lt' (Nat.lt_of_le_of_lt h (UInt32.toNat_lt limit))

/-! ### Reading -/

/-- A stream: the chunks in which its bytes arrive. After the last one it ends. -/
abbrev Chunks := List (List UInt8)

/-- Why a reader gives up. -/
inductive ReadError
  | tooLarge (bytes : UInt32)
  | unexpectedEof
  | invalid
deriving DecidableEq

/-- Take a number of bytes; `none` where the stream ends before. -/
def readExact : ℕ → Chunks → Option (List UInt8 × Chunks)
  | n, [] => if n = 0 then some ([], []) else none
  | n, chunk :: chunks =>
    if n ≤ chunk.length then some (chunk.take n, chunk.drop n :: chunks)
    else (readExact (n - chunk.length) chunks).map fun (bytes, rest) => (chunk ++ bytes, rest)

/-- Take a length. -/
def readU32Le (chunks : Chunks) : Option (UInt32 × Chunks) :=
  (readExact 4 chunks).map fun (header, rest) => (ofU32Le header, rest)

/-- Take a length up to a limit. -/
def readLen (limit : UInt32) (chunks : Chunks) : Except ReadError (Option (UInt32 × Chunks)) :=
  match readU32Le chunks with
  | some (n, rest) =>
    -- what follows a length of zero is not looked at
    if n = 0 then .ok none
    else if limit < n then .error (.tooLarge n)
    else .ok (some (n, rest))
  -- also where the stream ends inside the length
  | none => .ok none

variable {α : Type} (limit : UInt32) (decode : List UInt8 → Option α)

/-- Take a frame. -/
def readFrame (chunks : Chunks) : Except ReadError (Option (α × Chunks)) :=
  match readLen limit chunks with
  | .error e => .error e
  | .ok none => .ok none
  | .ok (some (n, rest)) =>
    match readExact n.toNat rest with
    | none => .error .unexpectedEof
    | some (body, rest) =>
      match decode body with
      | none => .error .invalid
      | some x => .ok (some (x, rest))

variable {limit decode}

/-- Enough bytes are taken, whatever the chunks. -/
theorem readExact_of_le {n : ℕ} {chunks : Chunks} (h : n ≤ chunks.flatten.length) :
    ∃ rest, readExact n chunks = some (chunks.flatten.take n, rest) ∧
      rest.flatten = chunks.flatten.drop n := by
  induction chunks generalizing n with
  | nil =>
    obtain rfl : n = 0 := Nat.le_zero.mp h
    exact ⟨[], rfl, rfl⟩
  | cons chunk chunks ih =>
    rw [List.flatten_cons, List.length_append] at h
    by_cases hn : n ≤ chunk.length
    · refine ⟨chunk.drop n :: chunks, ?_, ?_⟩
      · rw [readExact, if_pos hn, List.flatten_cons, List.take_append_of_le_length hn]
      · rw [List.flatten_cons, List.flatten_cons, List.drop_append_of_le_length hn]
    · have hlt : chunk.length ≤ n := by omega
      have htake : chunk.take n = chunk := List.take_of_length_le hlt
      have hdrop : chunk.drop n = [] := List.drop_of_length_le hlt
      have hle : n - chunk.length ≤ chunks.flatten.length := by omega
      obtain ⟨rest, hread, hrest⟩ := ih hle
      refine ⟨rest, ?_, ?_⟩
      · simp only [readExact, if_neg hn, hread, Option.map_some, List.flatten_cons,
          List.take_append, htake]
      · rw [hrest, List.flatten_cons, List.drop_append, hdrop, List.nil_append]

/-- The end of the stream, whatever the chunks. -/
theorem readExact_of_lt {n : ℕ} {chunks : Chunks} (h : chunks.flatten.length < n) :
    readExact n chunks = none := by
  induction chunks generalizing n with
  | nil =>
    have hn : n ≠ 0 := Nat.ne_zero_of_lt h
    rw [readExact, if_neg hn]
  | cons chunk chunks ih =>
    rw [List.flatten_cons, List.length_append] at h
    have hn : ¬ n ≤ chunk.length := by omega
    rw [readExact, if_neg hn, ih (by omega), Option.map_none]

/-- A length in front of a stream is taken. -/
theorem readU32Le_of_append {n : UInt32} {rest : List UInt8} {chunks : Chunks}
    (h : chunks.flatten = u32Le n ++ rest) :
    ∃ rest', readU32Le chunks = some (n, rest') ∧ rest'.flatten = rest := by
  have hlen : 4 ≤ chunks.flatten.length := by
    rw [h, List.length_append, length_u32Le]
    omega
  obtain ⟨rest', hread, hrest⟩ := readExact_of_le hlen
  refine ⟨rest', ?_, ?_⟩
  · have htake : (u32Le n ++ rest).take 4 = u32Le n := List.take_left' rfl
    simp only [readU32Le, hread, h, htake, Option.map_some, ofU32Le_u32Le]
  · rw [hrest, h]
    exact List.drop_left' rfl

/-! ### The grammar -/

variable (limit decode)

/-- What the next frame of a stream is: `none` for a clean end, or the message and the bytes after
it. -/
inductive ParsesFrame : List UInt8 → Except ReadError (Option (α × List UInt8)) → Prop
  | cut {bytes} (h : bytes.length < 4) : ParsesFrame bytes (.ok none)
  | zero (rest) : ParsesFrame (u32Le 0 ++ rest) (.ok none)
  | tooLarge {n} (rest) (h : limit < n) : ParsesFrame (u32Le n ++ rest) (.error (.tooLarge n))
  | short {n rest} (hn : n ≠ 0) (hle : n ≤ limit) (h : rest.length < n.toNat) :
      ParsesFrame (u32Le n ++ rest) (.error .unexpectedEof)
  | invalid {n body} (rest) (hn : n ≠ 0) (hle : n ≤ limit) (hlen : body.length = n.toNat)
      (h : decode body = none) : ParsesFrame (u32Le n ++ (body ++ rest)) (.error .invalid)
  | frame {n body x} (rest) (hn : n ≠ 0) (hle : n ≤ limit) (hlen : body.length = n.toNat)
      (h : decode body = some x) : ParsesFrame (u32Le n ++ (body ++ rest)) (.ok (some (x, rest)))

/-- What the frames of a stream are, and how it ends. -/
inductive Parses : List UInt8 → List α → Except ReadError Unit → Prop
  | done {bytes} (h : ParsesFrame limit decode bytes (.ok none)) : Parses bytes [] (.ok ())
  | error {bytes e} (h : ParsesFrame limit decode bytes (.error e)) : Parses bytes [] (.error e)
  | frame {bytes x rest xs result} (h : ParsesFrame limit decode bytes (.ok (some (x, rest))))
      (hrest : Parses rest xs result) : Parses bytes (x :: xs) result

variable {limit decode}

/-- Every stream parses. -/
theorem exists_parsesFrame (limit : UInt32) (decode : List UInt8 → Option α)
    (bytes : List UInt8) : ∃ next, ParsesFrame limit decode bytes next := by
  by_cases hcut : bytes.length < 4
  · exact ⟨_, .cut hcut⟩
  have hheader : (bytes.take 4).length = 4 := by
    rw [List.length_take]
    omega
  obtain ⟨n, rest, rfl⟩ : ∃ n rest, bytes = u32Le n ++ rest := by
    refine ⟨ofU32Le (bytes.take 4), bytes.drop 4, ?_⟩
    rw [u32Le_ofU32Le hheader, List.take_append_drop]
  by_cases hn : n = 0
  · subst hn
    exact ⟨_, .zero rest⟩
  by_cases hlarge : limit < n
  · exact ⟨_, .tooLarge rest hlarge⟩
  have hle : n ≤ limit := UInt32.not_lt.mp hlarge
  by_cases hshort : rest.length < n.toNat
  · exact ⟨_, .short hn hle hshort⟩
  have hlen : (rest.take n.toNat).length = n.toNat := by
    rw [List.length_take]
    omega
  rw [← List.take_append_drop n.toNat rest]
  cases hdecode : decode (rest.take n.toNat) with
  | none => exact ⟨_, .invalid _ hn hle hlen hdecode⟩
  | some x => exact ⟨_, .frame _ hn hle hlen hdecode⟩

/-- A reader finds the frame that stands in the stream. -/
theorem ParsesFrame.readFrame_eq {bytes : List UInt8}
    {next : Except ReadError (Option (α × List UInt8))} (h : ParsesFrame limit decode bytes next)
    {chunks : Chunks} (hbytes : chunks.flatten = bytes) :
    (readFrame limit decode chunks).map (·.map fun (x, rest) => (x, rest.flatten)) = next := by
  have hbody {n : ℕ} {body rest : List UInt8} {rest' : Chunks}
      (hrest : rest'.flatten = body ++ rest) (hlen : body.length = n) :
      ∃ rest'', readExact n rest' = some (body, rest'') ∧ rest''.flatten = rest := by
    have hle : n ≤ rest'.flatten.length := by
      rw [hrest, List.length_append]
      omega
    obtain ⟨rest'', hread, hrest''⟩ := readExact_of_le hle
    rw [hrest, List.take_left' hlen] at hread
    rw [hrest, List.drop_left' hlen] at hrest''
    exact ⟨rest'', hread, hrest''⟩
  cases h with
  | cut hcut =>
    have hread : readU32Le chunks = none := by
      rw [readU32Le, readExact_of_lt (hbytes ▸ hcut), Option.map_none]
    simp only [readFrame, readLen, hread]
    rfl
  | zero rest =>
    obtain ⟨rest', hread, -⟩ := readU32Le_of_append hbytes
    simp only [readFrame, readLen, hread, if_pos]
    rfl
  | @tooLarge n rest hlarge =>
    obtain ⟨rest', hread, -⟩ := readU32Le_of_append hbytes
    have hn : n ≠ 0 := by
      rintro rfl
      exact UInt32.not_lt_zero hlarge
    simp only [readFrame, readLen, hread, if_neg hn, if_pos hlarge]
    rfl
  | short hn hle hshort =>
    obtain ⟨rest', hread, hrest⟩ := readU32Le_of_append hbytes
    simp only [readFrame, readLen, hread, if_neg hn, if_neg (UInt32.not_lt.mpr hle),
      readExact_of_lt (hrest ▸ hshort)]
    rfl
  | invalid rest hn hle hlen hdecode =>
    obtain ⟨rest', hread, hrest⟩ := readU32Le_of_append hbytes
    obtain ⟨rest'', hread', -⟩ := hbody hrest hlen
    simp only [readFrame, readLen, hread, if_neg hn, if_neg (UInt32.not_lt.mpr hle), hread',
      hdecode]
    rfl
  | frame rest hn hle hlen hdecode =>
    obtain ⟨rest', hread, hrest⟩ := readU32Le_of_append hbytes
    obtain ⟨rest'', hread', hrest''⟩ := hbody hrest hlen
    simp only [readFrame, readLen, hread, if_neg hn, if_neg (UInt32.not_lt.mpr hle), hread',
      hdecode, ← hrest'']
    rfl

theorem ParsesFrame.unique {bytes : List UInt8}
    {next next' : Except ReadError (Option (α × List UInt8))}
    (h : ParsesFrame limit decode bytes next) (h' : ParsesFrame limit decode bytes next') :
    next = next' := by
  have hflatten : [bytes].flatten = bytes := by simp
  rw [← h.readFrame_eq hflatten, ← h'.readFrame_eq hflatten]

/-- **A reader follows the grammar**, whatever the chunks. -/
theorem parsesFrame_readFrame (limit : UInt32) (decode : List UInt8 → Option α) (chunks : Chunks) :
    ParsesFrame limit decode chunks.flatten
      ((readFrame limit decode chunks).map (·.map fun (x, rest) => (x, rest.flatten))) := by
  obtain ⟨next, hnext⟩ := exists_parsesFrame limit decode chunks.flatten
  rw [hnext.readFrame_eq rfl]
  exact hnext

/-- A frame takes bytes. -/
theorem ParsesFrame.length_lt {bytes rest : List UInt8} {x : α}
    (h : ParsesFrame limit decode bytes (.ok (some (x, rest)))) : rest.length < bytes.length := by
  cases h with
  | frame _ _ _ _ _ =>
    simp only [List.length_append, length_u32Le]
    omega

theorem parsesFrame_of_readFrame {chunks rest : Chunks} {x : α}
    (h : readFrame limit decode chunks = .ok (some (x, rest))) :
    ParsesFrame limit decode chunks.flatten (.ok (some (x, rest.flatten))) := by
  have hparses := parsesFrame_readFrame limit decode chunks
  rw [h] at hparses
  exact hparses

/-- What the frame of a body reads as. -/
theorem parsesFrame_frame (limit : UInt32) (decode : List UInt8 → Option α) {body : List UInt8}
    (hlen : body.length < 2 ^ 32) (rest : List UInt8) :
    ParsesFrame limit decode (frame body ++ rest)
      (if body.length = 0 then .ok none
      else if limit.toNat < body.length then .error (.tooLarge (.ofNat body.length))
      else
        match decode body with
        | none => .error .invalid
        | some x => .ok (some (x, rest))) := by
  have hn : (UInt32.ofNat body.length).toNat = body.length := UInt32.toNat_ofNat_of_lt' hlen
  rw [frame, List.append_assoc]
  split_ifs with hzero hlarge
  · rw [hzero]
    exact .zero _
  · refine .tooLarge _ ?_
    rw [UInt32.lt_iff_toNat_lt, hn]
    exact hlarge
  · have hne : UInt32.ofNat body.length ≠ 0 := by
      intro h0
      rw [h0, UInt32.toNat_zero] at hn
      exact hzero hn.symm
    have hle : UInt32.ofNat body.length ≤ limit := by
      rw [UInt32.le_iff_toNat_le, hn]
      omega
    cases hdecode : decode body with
    | none => exact .invalid rest hne hle hn.symm hdecode
    | some x => exact .frame rest hne hle hn.symm hdecode

/-! ### Whole streams -/

variable (limit decode) in
/-- Take frames until the stream ends, or an error. -/
def readFrames (chunks : Chunks) : List α × Except ReadError Unit :=
  match _h : readFrame limit decode chunks with
  | .error e => ([], .error e)
  | .ok none => ([], .ok ())
  | .ok (some (x, rest)) =>
    let (xs, result) := readFrames rest
    (x :: xs, result)
termination_by chunks.flatten.length
decreasing_by exact (parsesFrame_of_readFrame _h).length_lt

theorem parses_readFrames (limit : UInt32) (decode : List UInt8 → Option α) (chunks : Chunks) :
    Parses limit decode chunks.flatten (readFrames limit decode chunks).1
      (readFrames limit decode chunks).2 := by
  induction chunks using readFrames.induct limit decode with
  | case1 chunks e h =>
    have hparses := parsesFrame_readFrame limit decode chunks
    rw [h] at hparses
    rw [readFrames, h]
    exact .error hparses
  | case2 chunks h =>
    have hparses := parsesFrame_readFrame limit decode chunks
    rw [h] at hparses
    rw [readFrames, h]
    exact .done hparses
  | case3 chunks x rest h xs result hrest ih =>
    rw [readFrames, h]
    exact .frame (parsesFrame_of_readFrame h) ih

theorem Parses.unique {bytes : List UInt8} {xs xs' : List α}
    {result result' : Except ReadError Unit} (h : Parses limit decode bytes xs result)
    (h' : Parses limit decode bytes xs' result') :
    xs = xs' ∧ result = result' := by
  induction h generalizing xs' with
  | done h =>
    cases h' with
    | done h' => exact ⟨rfl, rfl⟩
    | error h' => cases h.unique h'
    | frame h' _ => cases h.unique h'
  | error h =>
    cases h' with
    | done h' => cases h.unique h'
    | error h' =>
      obtain rfl := Except.error.inj (h.unique h')
      exact ⟨rfl, rfl⟩
    | frame h' _ => cases h.unique h'
  | frame h _ ih =>
    cases h' with
    | done h' => cases h.unique h'
    | error h' => cases h.unique h'
    | frame h' hrest' =>
      obtain ⟨rfl, rfl⟩ := Prod.mk.inj (Option.some.inj (Except.ok.inj (h.unique h')))
      obtain ⟨rfl, rfl⟩ := ih hrest'
      exact ⟨rfl, rfl⟩

/-- **A reader makes of a stream what the grammar says**, however it is cut into chunks. -/
theorem readFrames_eq_iff {chunks : Chunks} {xs : List α} {result : Except ReadError Unit} :
    readFrames limit decode chunks = (xs, result) ↔
      Parses limit decode chunks.flatten xs result := by
  have hparses := parses_readFrames limit decode chunks
  constructor
  · intro h
    rw [h] at hparses
    exact hparses
  · intro h
    obtain ⟨hxs, hresult⟩ := hparses.unique h
    exact Prod.ext hxs hresult

/-! ### Clean ends -/

variable (limit decode) in
/-- The frame of a message, as a reader takes it: neither empty nor above the limit. -/
def FrameOf (x : α) (bytes : List UInt8) : Prop :=
  ∃ body, bytes = frame body ∧ 1 ≤ body.length ∧ body.length ≤ limit.toNat ∧ decode body = some x

theorem FrameOf.parsesFrame {x : α} {bytes : List UInt8} (h : FrameOf limit decode x bytes)
    (rest : List UInt8) : ParsesFrame limit decode (bytes ++ rest) (.ok (some (x, rest))) := by
  obtain ⟨body, rfl, hpos, hle, hdecode⟩ := h
  have hlt : body.length < 2 ^ 32 := Nat.lt_of_le_of_lt hle (UInt32.toNat_lt limit)
  have hparses := parsesFrame_frame limit decode hlt rest
  rw [if_neg (Nat.ne_of_gt hpos), if_neg (Nat.not_lt.mpr hle), hdecode] at hparses
  exact hparses

theorem ParsesFrame.frameOf {x : α} {bytes rest : List UInt8}
    (h : ParsesFrame limit decode bytes (.ok (some (x, rest)))) :
    ∃ bytes', FrameOf limit decode x bytes' ∧ bytes = bytes' ++ rest := by
  cases h with
  | @frame n body _ _ hn hle hlen hdecode =>
    have hof : UInt32.ofNat body.length = n := by rw [hlen, UInt32.ofNat_toNat]
    refine ⟨Framing.frame body, ⟨body, rfl, ?_, ?_, hdecode⟩, ?_⟩
    · have hpos : n.toNat ≠ 0 := fun h0 => hn (UInt32.toNat_inj.mp h0)
      omega
    · rw [hlen]
      exact UInt32.le_iff_toNat_le.mp hle
    · rw [Framing.frame, hof, List.append_assoc]

theorem parsesFrame_none_iff {bytes : List UInt8} :
    ParsesFrame limit decode bytes (.ok none) ↔
      bytes.length < 4 ∨ ∃ rest, bytes = u32Le 0 ++ rest := by
  constructor
  · intro h
    cases h with
    | cut h => exact .inl h
    | zero rest => exact .inr ⟨rest, rfl⟩
  · rintro (hcut | ⟨rest, rfl⟩)
    · exact .cut hcut
    · exact .zero rest

variable (limit) in
/-- A reader waits for no more bytes: it has a frame, or a length that it takes none after. -/
def Ready (bytes : List UInt8) : Prop :=
  4 ≤ bytes.length ∧ (ofU32Le (bytes.take 4) = 0 ∨ limit < ofU32Le (bytes.take 4) ∨
    4 + (ofU32Le (bytes.take 4)).toNat ≤ bytes.length)

instance (bytes : List UInt8) : Decidable (Ready limit bytes) :=
  inferInstanceAs (Decidable (_ ∧ _))

/-- A reader waits for the whole of a frame, and for no more. -/
theorem FrameOf.ready_iff {x : α} {pre post : List UInt8}
    (h : FrameOf limit decode x (pre ++ post)) : Ready limit pre ↔ post = [] := by
  obtain ⟨body, hbytes, hpos, hle, -⟩ := h
  have hn : (UInt32.ofNat body.length).toNat = body.length := toNat_ofNat_length hle
  have hlen : pre.length + post.length = 4 + body.length := by
    rw [← List.length_append, hbytes, frame, List.length_append, length_u32Le]
  have hheader (h4 : 4 ≤ pre.length) : ofU32Le (pre.take 4) = UInt32.ofNat body.length := by
    have htake : (pre ++ post).take 4 = pre.take 4 := List.take_append_of_le_length h4
    rw [hbytes, frame, List.take_left' (length_u32Le _)] at htake
    rw [← htake, ofU32Le_u32Le]
  constructor
  · rintro ⟨h4, hready⟩
    rw [hheader h4, UInt32.lt_iff_toNat_lt, hn] at hready
    rcases hready with hzero | hlarge | hwhole
    · rw [hzero, UInt32.toNat_zero] at hn
      omega
    · omega
    · exact List.length_eq_zero_iff.mp (by omega)
  · rintro rfl
    rw [List.length_nil, Nat.add_zero] at hlen
    have h4 : 4 ≤ pre.length := by omega
    refine ⟨h4, .inr (.inr ?_)⟩
    rw [hheader h4, hn]
    omega

variable (limit decode) in
/-- Whole frames of messages. -/
def Frames (xs : List α) (bytes : List UInt8) : Prop :=
  ∃ frames, List.Forall₂ (FrameOf limit decode) xs frames ∧ bytes = frames.flatten

theorem frames_nil : Frames limit decode [] [] := ⟨[], .nil, rfl⟩

theorem Frames.cons {x : α} {xs : List α} {bytes whole : List UInt8}
    (h : FrameOf limit decode x bytes) (hs : Frames limit decode xs whole) :
    Frames limit decode (x :: xs) (bytes ++ whole) := by
  obtain ⟨frames, hframes, rfl⟩ := hs
  exact ⟨bytes :: frames, .cons h hframes, rfl⟩

/-- Frames, and what follows them. -/
theorem Frames.parses {xs ys : List α} {whole rest : List UInt8} {result : Except ReadError Unit}
    (h : Frames limit decode xs whole) (hrest : Parses limit decode rest ys result) :
    Parses limit decode (whole ++ rest) (xs ++ ys) result := by
  obtain ⟨frames, hframes, rfl⟩ := h
  induction hframes with
  | nil => exact hrest
  | cons h _ ih =>
    rw [List.flatten_cons, List.append_assoc]
    exact .frame (h.parsesFrame _) ih

/-- **The streams with a clean end**: frames, and then nothing, or less than a length, or a length
of zero. -/
theorem parses_ok_iff {bytes : List UInt8} {xs : List α} :
    Parses limit decode bytes xs (.ok ()) ↔
      ∃ whole tail, Frames limit decode xs whole ∧ bytes = whole ++ tail ∧
        (tail.length < 4 ∨ ∃ rest, tail = u32Le 0 ++ rest) := by
  constructor
  · intro h
    generalize hresult : Except.ok () = result at h
    -- the frames are those of the derivation, and the tail is where it ends
    induction h with
    | @done bytes h =>
      exact ⟨[], bytes, frames_nil, rfl, parsesFrame_none_iff.mp h⟩
    | error h => cases hresult
    | frame h _ ih =>
      obtain ⟨whole, tail, hwhole, rfl, htail⟩ := ih hresult
      obtain ⟨bytes', hbytes', rfl⟩ := h.frameOf
      exact ⟨bytes' ++ whole, tail, hwhole.cons hbytes', (List.append_assoc ..).symm, htail⟩
  · rintro ⟨whole, tail, hwhole, rfl, htail⟩
    have hparses := hwhole.parses (.done (parsesFrame_none_iff.mpr htail))
    rwa [List.append_nil] at hparses

/-- Whole frames are told from frames with something after them. -/
theorem Frames.tail_eq_nil {xs ys : List α} {whole whole' tail : List UInt8}
    (h : Frames limit decode xs whole) (h' : Frames limit decode ys whole')
    (htail : tail.length < 4 ∨ ∃ rest, tail = u32Le 0 ++ rest) (heq : whole = whole' ++ tail) :
    tail = [] := by
  obtain ⟨frames, hframes, rfl⟩ := h
  obtain ⟨frames', hframes', rfl⟩ := h'
  -- frame by frame from the front: both lists have the same first frame, or `tail` would be one
  induction hframes' generalizing xs frames with
  | nil =>
    cases hframes with
    | nil => exact (List.nil_eq_append_iff.mp heq).2
    | @cons x bytes xs frames hx hxs =>
      rw [List.flatten_nil, List.nil_append, List.flatten_cons] at heq
      have hframe := hx.parsesFrame frames.flatten
      rw [heq] at hframe
      cases (parsesFrame_none_iff.mpr htail).unique hframe
  | @cons y bytes' ys frames' hy hys ih =>
    rw [List.flatten_cons, List.append_assoc] at heq
    have hframe' := hy.parsesFrame (frames'.flatten ++ tail)
    cases hframes with
    | nil =>
      rw [← heq] at hframe'
      have hlt := hframe'.length_lt
      rw [List.flatten_nil, List.length_nil] at hlt
      omega
    | @cons x bytes xs frames hx hxs =>
      have hframe := hx.parsesFrame frames.flatten
      rw [List.flatten_cons] at heq
      rw [heq] at hframe
      obtain ⟨-, hrest⟩ := Prod.mk.inj (Option.some.inj (Except.ok.inj (hframe.unique hframe')))
      exact ih _ hxs hrest

variable (limit decode) in
/-- Frames with nothing after them, or with a length of zero and anything. -/
def CleanEnd (xs : List α) (bytes : List UInt8) : Prop :=
  ∃ whole, Frames limit decode xs whole ∧
    (bytes = whole ∨ ∃ rest, bytes = whole ++ (u32Le 0 ++ rest))

variable (limit decode) in
/-- Frames with a part of a length after them. -/
def CutInLength (bytes : List UInt8) : Prop :=
  ∃ xs whole cut, Frames limit decode xs whole ∧ bytes = whole ++ cut ∧
    0 < cut.length ∧ cut.length < 4

theorem CleanEnd.readFrames_eq {xs : List α} {chunks : Chunks}
    (h : CleanEnd limit decode xs chunks.flatten) :
    readFrames limit decode chunks = (xs, .ok ()) := by
  obtain ⟨whole, hwhole, heq | ⟨rest, heq⟩⟩ := h
  · have hend : ([] : List UInt8).length < 4 := by decide
    refine readFrames_eq_iff.mpr (parses_ok_iff.mpr ⟨whole, [], hwhole, ?_, .inl hend⟩)
    rw [heq, List.append_nil]
  · exact readFrames_eq_iff.mpr (parses_ok_iff.mpr ⟨whole, _, hwhole, heq, .inr ⟨rest, rfl⟩⟩)

/-- Another stream ends in an error, unless it ends inside a length. -/
theorem exists_error_of_not_cleanEnd {chunks : Chunks}
    (hcut : ¬ CutInLength limit decode chunks.flatten)
    (hclean : ∀ xs, ¬ CleanEnd limit decode xs chunks.flatten) :
    ∃ e, (readFrames limit decode chunks).2 = .error e := by
  have hparses := parses_readFrames limit decode chunks
  cases hresult : (readFrames limit decode chunks).2 with
  | error e => exact ⟨e, rfl⟩
  | ok u =>
    rw [hresult] at hparses
    obtain ⟨whole, tail, hwhole, heq, hlt | ⟨rest, rfl⟩⟩ := parses_ok_iff.mp hparses
    · by_cases hpos : 0 < tail.length
      · exact absurd ⟨_, whole, tail, hwhole, heq, hpos, hlt⟩ hcut
      · have hnil : tail = [] := List.length_eq_zero_iff.mp (Nat.eq_zero_of_not_pos hpos)
        rw [hnil, List.append_nil] at heq
        exact absurd ⟨whole, hwhole, .inl heq⟩ (hclean _)
    · exact absurd ⟨whole, hwhole, .inr ⟨rest, heq⟩⟩ (hclean _)

/-! ### Round trips -/

/-- What a writer accepts, a reader of whole streams makes of its bytes. -/
def ReadsBack (write : α → Except WriteError (List UInt8))
    (read : Chunks → List α × Except ReadError Unit) : Prop :=
  ∀ (xs : List α) (frames : List (List UInt8)) (chunks : Chunks),
    List.Forall₂ (fun x bytes => write x = .ok bytes) xs frames →
      chunks.flatten = frames.flatten → read chunks = (xs, .ok ())

/-- The length in front of a frame that a writer accepts is that of the body, and a reader of
lengths takes it. -/
def LengthFits (encode : α → Option (List UInt8)) (write : α → Except WriteError (List UInt8))
    (readLen : Chunks → Except ReadError (Option (UInt32 × Chunks))) : Prop :=
  ∀ (x : α) (bytes rest : List UInt8) (chunks : Chunks), write x = .ok bytes →
    chunks.flatten = bytes ++ rest →
      ∃ n body rest', encode x = some body ∧ bytes = u32Le n ++ body ∧ n.toNat = body.length ∧
        readLen chunks = .ok (some (n, rest'))

/-- A frame that a writer accepts. -/
theorem frameOf_of_write {encode : α → Option (List UInt8)}
    (hround : ∀ x body, encode x = some body → decode body = some x)
    (hne : ∀ x body, encode x = some body → body ≠ []) {x : α} {bytes : List UInt8}
    (h : write limit encode x = .ok bytes) : FrameOf limit decode x bytes := by
  obtain ⟨body, hencode, hle, rfl⟩ := write_eq_ok.mp h
  have hpos : 1 ≤ body.length := List.length_pos_of_ne_nil (hne x body hencode)
  exact ⟨body, rfl, hpos, hle, hround x body hencode⟩

/-- **What a writer accepts is read back**, in order, and then the stream ends. -/
theorem readsBack {encode : α → Option (List UInt8)}
    (hround : ∀ x body, encode x = some body → decode body = some x)
    (hne : ∀ x body, encode x = some body → body ≠ []) :
    ReadsBack (write limit encode) (readFrames limit decode) := by
  intro xs frames chunks hwrite hchunks
  have hframes : List.Forall₂ (FrameOf limit decode) xs frames :=
    hwrite.imp fun {x bytes} h => frameOf_of_write hround hne h
  exact CleanEnd.readFrames_eq ⟨_, ⟨frames, hframes, rfl⟩, .inl hchunks⟩

/-- **The length fits**: it is not truncated, and not too large for the reader. -/
theorem lengthFits {encode : α → Option (List UInt8)}
    (hne : ∀ x body, encode x = some body → body ≠ []) :
    LengthFits encode (write limit encode) (readLen limit) := by
  intro x bytes rest chunks hwrite hchunks
  obtain ⟨body, hencode, hle, rfl⟩ := write_eq_ok.mp hwrite
  have hpos : 0 < body.length := List.length_pos_of_ne_nil (hne x body hencode)
  have hn : (UInt32.ofNat body.length).toNat = body.length := toNat_ofNat_length hle
  rw [frame, List.append_assoc] at hchunks
  obtain ⟨rest', hread, -⟩ := readU32Le_of_append hchunks
  refine ⟨.ofNat body.length, body, rest', hencode, rfl, hn, ?_⟩
  have hzero : UInt32.ofNat body.length ≠ 0 := by
    intro h0
    rw [h0, UInt32.toNat_zero] at hn
    omega
  have hlarge : ¬ limit < UInt32.ofNat body.length := by
    rw [UInt32.lt_iff_toNat_lt, hn]
    omega
  simp only [readLen, hread, if_neg hzero, if_neg hlarge]

end Framing
