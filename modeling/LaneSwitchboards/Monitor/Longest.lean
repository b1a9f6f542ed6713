import LaneSwitchboards.Lib.Trace
import LaneSwitchboards.Monitor

/-!
# The longest handle

`finish_handle` and `record_timeout` on the cell of one actor, with concurrent callers: each
atomic access is a step. Both store the duration as the last one. `finish_handle` then raises the
maximum, with a loop around a compare-and-exchange that fails where another caller came first;
`record_timeout` does not touch it.

* `access_finish`: a caller of `finish_handle` that is alone does what `StatsCell.finishHandle`
  says.
* `Raised.step`: the maximum is that of the durations of `finish_handle`, but for the callers that
  are still in the loop.
* `longest_iff`: when nobody is calling, the maximum is that of all durations recorded exactly
  when no timeout was longer than every handle that finished.
-/

namespace LaneSwitchboards

open Function Transition

/-- A caller of the monitor. -/
abbrev RecorderId := ℕ

/-- The next access of a `finish_handle`. -/
inductive FinishStage
  | inFlight
  | messagesHandled
  | lastHandle
  | loadMax
  /-- The compare-and-exchange, with the maximum that was loaded. -/
  | exchangeMax (prev : UInt64)
  | slowHandles
deriving DecidableEq

/-- The next access of a `record_timeout`. -/
inductive TimeoutStage
  | handleTimeouts
  | inFlight
  | lastHandle
deriving DecidableEq

/-- Where a caller is. -/
inductive RecordPhase
  | idle
  | finish (stage : FinishStage) (elapsed : Duration) (slowThreshold : Option Duration)
  | timeout (stage : TimeoutStage) (elapsed : Duration)
deriving DecidableEq

/-- The next access of a caller to the cell. -/
def RecordPhase.access (c : StatsCell) : RecordPhase → Option (StatsCell × RecordPhase)
  | .idle => none
  | .finish .inFlight d slow =>
    some ({ c with inFlight := c.inFlight - 1 }, .finish .messagesHandled d slow)
  | .finish .messagesHandled d slow =>
    some ({ c with messagesHandled := c.messagesHandled + 1 }, .finish .lastHandle d slow)
  | .finish .lastHandle d slow =>
    some ({ c with lastHandleMs := d.asMillis }, .finish .loadMax d slow)
  | .finish .loadMax d slow =>
    some (c, .finish (if d.asMillis ≤ c.maxHandleMs then .slowHandles
      else .exchangeMax c.maxHandleMs) d slow)
  | .finish (.exchangeMax prev) d slow =>
    if c.maxHandleMs = prev then
      some ({ c with maxHandleMs := d.asMillis }, .finish .slowHandles d slow)
    else some (c, .finish .loadMax d slow)
  | .finish .slowHandles d slow =>
    some ({ c with
      slowHandles := if slow.any (· < d) then c.slowHandles + 1 else c.slowHandles }, .idle)
  | .timeout .handleTimeouts d =>
    some ({ c with handleTimeouts := c.handleTimeouts + 1 }, .timeout .inFlight d)
  | .timeout .inFlight d => some ({ c with inFlight := c.inFlight - 1 }, .timeout .lastHandle d)
  | .timeout .lastHandle d => some ({ c with lastHandleMs := d.asMillis }, .idle)

/-- The cell of an actor and its callers. -/
structure Recording where
  cell : StatsCell
  callers : RecorderId → RecordPhase

inductive RecordEvent
  | finishHandle (k : RecorderId) (elapsed : Duration) (slowThreshold : Option Duration)
  | recordTimeout (k : RecorderId) (elapsed : Duration)
  /-- The next access of a caller. -/
  | access (k : RecorderId)
deriving DecidableEq

/-- A duration stored as the last one, in milliseconds. -/
inductive Stored
  | finished (ms : UInt64)
  | timedOut (ms : UInt64)
deriving DecidableEq

/-- The milliseconds. -/
def Stored.ms : Stored → UInt64
  | .finished ms | .timedOut ms => ms

/-- What the next access stores as the last duration. -/
def RecordPhase.stores : RecordPhase → List Stored
  | .finish .lastHandle d _ => [.finished d.asMillis]
  | .timeout .lastHandle d => [.timedOut d.asMillis]
  | _ => []

namespace Recording

/-- A new cell that nobody is calling. -/
def new : Recording := ⟨.new, fun _ => .idle⟩

/-- One call, or one access. -/
def step (s : Recording) : RecordEvent → Option Recording
  | .finishHandle k d slow =>
    if s.callers k = .idle then
      some { s with callers := update s.callers k (.finish .inFlight d slow) }
    else none
  | .recordTimeout k d =>
    if s.callers k = .idle then
      some { s with callers := update s.callers k (.timeout .handleTimeouts d) }
    else none
  | .access k => ((s.callers k).access s.cell).map fun (cell, phase) =>
    ⟨cell, update s.callers k phase⟩

/-- Execute a list of events. -/
abbrev run : Recording → List RecordEvent → Option Recording := Transition.run step

/-- What a step stores as the last duration. -/
def stores (s : Recording) : RecordEvent → List Stored
  | .access k => (s.callers k).stores
  | _ => []

/-- The durations that a run stores. -/
def stored (s : Recording) (es : List RecordEvent) : List Stored :=
  trace step (fun s e _ => s.stores e) s es

/-- Nobody is calling. -/
def Quiescent (s : Recording) : Prop := ∀ k, s.callers k = .idle

/-- The maximum of some durations, zero if there are none. -/
def IsLongest (ms : UInt64) (durations : List UInt64) : Prop :=
  ms ∈ 0 :: durations ∧ ∀ d ∈ durations, d ≤ ms

end Recording

/-- The caller has stored the duration and has yet to raise the maximum to it. -/
def RecordPhase.owes (ms : UInt64) : RecordPhase → Prop
  | .finish .loadMax d _ | .finish (.exchangeMax _) d _ => d.asMillis = ms
  | _ => False

theorem RecordPhase.owes_unique {phase : RecordPhase} {ms ms' : UInt64} (h : phase.owes ms)
    (h' : phase.owes ms') : ms = ms' := by
  unfold owes at h h'
  split at h
  · exact h.symm.trans h'
  · exact h.symm.trans h'
  · exact h.elim

/-- A caller goes on to the exchange only if its duration exceeds the maximum that it loaded. -/
theorem RecordPhase.not_le_of_access {phase : RecordPhase} {c c' : StatsCell} {prev : UInt64}
    {d : Duration} {slow : Option Duration}
    (h : phase.access c = some (c', .finish (.exchangeMax prev) d slow)) :
    ¬ d.asMillis ≤ prev := by
  cases phase with
  | idle => cases h
  | timeout stage elapsed => cases stage <;> cases h
  | finish stage elapsed slow' =>
    cases stage with
    | loadMax =>
      simp only [access] at h
      split_ifs at h with hle
      · cases h
      · cases h
        exact hle
    | exchangeMax prev' =>
      simp only [access] at h
      split_ifs at h <;> cases h
    | _ => cases h

namespace Recording

variable {s s' : Recording} {e : RecordEvent} {es : List RecordEvent} {k : RecorderId}
  {l : List Stored} {ms : UInt64}

/-! ### Alone -/

/-- **`finish_handle` alone.** A caller that nobody disturbs returns after six accesses at most,
and leaves the cell that `StatsCell.finishHandle` describes. -/
theorem access_finish (s : Recording) (hidle : s.callers k = .idle)
    (elapsed : Duration) (slow : Option Duration) :
    ∃ n ≤ 6, s.run (.finishHandle k elapsed slow :: List.replicate n (.access k)) =
      some { s with cell := s.cell.finishHandle elapsed slow } := by
  have hback : update s.callers k .idle = s.callers := by rw [← hidle, update_eq_self]
  have hmax : max s.cell.maxHandleMs elapsed.asMillis =
    if s.cell.maxHandleMs ≤ elapsed.asMillis then elapsed.asMillis else s.cell.maxHandleMs := rfl
  by_cases hle : elapsed.asMillis ≤ s.cell.maxHandleMs
  · refine ⟨5, by decide, ?_⟩
    have hsame : max s.cell.maxHandleMs elapsed.asMillis = s.cell.maxHandleMs := by
      rw [hmax]
      split_ifs with hge
      · exact UInt64.le_antisymm hle hge
      · rfl
    simp [step, RecordPhase.access, hidle, hle, hsame, StatsCell.finishHandle, hback]
  · refine ⟨6, by decide, ?_⟩
    have hraised : max s.cell.maxHandleMs elapsed.asMillis = elapsed.asMillis := by
      rw [hmax, if_pos ((UInt64.le_total ..).resolve_left hle)]
    simp [step, RecordPhase.access, hidle, hle, hraised, StatsCell.finishHandle, hback]

/-- **`record_timeout` alone.** -/
theorem access_timeout (s : Recording) (hidle : s.callers k = .idle)
    (elapsed : Duration) :
    s.run (.recordTimeout k elapsed :: List.replicate 3 (.access k)) =
      some { s with cell := s.cell.recordTimeout elapsed } := by
  have hback : update s.callers k .idle = s.callers := by rw [← hidle, update_eq_self]
  simp [step, RecordPhase.access, hidle, StatsCell.recordTimeout, hback]

/-! ### Together -/

/-- What a step means for the maximum, the last duration and the callers in the loop. -/
inductive Move (s : Recording) (e : RecordEvent) (s' : Recording) : Prop
  | keep (hst : s.stores e = []) (hmax : s'.cell.maxHandleMs = s.cell.maxHandleMs)
      (hlast : s'.cell.lastHandleMs = s.cell.lastHandleMs)
      (howes : ∀ j ms, (s'.callers j).owes ms ↔ (s.callers j).owes ms)
  | timedOut (ms : UInt64) (hst : s.stores e = [.timedOut ms])
      (hmax : s'.cell.maxHandleMs = s.cell.maxHandleMs) (hlast : s'.cell.lastHandleMs = ms)
      (howes : ∀ j ms, (s'.callers j).owes ms ↔ (s.callers j).owes ms)
  /-- A duration is stored, and its caller enters the loop. -/
  | finished (k : RecorderId) (ms : UInt64) (hst : s.stores e = [.finished ms])
      (hmax : s'.cell.maxHandleMs = s.cell.maxHandleMs) (hlast : s'.cell.lastHandleMs = ms)
      (howes : ∀ j ms', (s'.callers j).owes ms' ↔ j = k ∧ ms = ms' ∨ (s.callers j).owes ms')
  /-- A caller leaves the loop. -/
  | settle (k : RecorderId) (ms : UInt64) (hst : s.stores e = [])
      (hk : (s.callers k).owes ms) (hle : ms ≤ s'.cell.maxHandleMs)
      (hge : s.cell.maxHandleMs ≤ s'.cell.maxHandleMs)
      (hmax : s'.cell.maxHandleMs = s.cell.maxHandleMs ∨ s'.cell.maxHandleMs = ms)
      (hlast : s'.cell.lastHandleMs = s.cell.lastHandleMs)
      (howes : ∀ j ms', (s'.callers j).owes ms' ↔ j ≠ k ∧ (s.callers j).owes ms')

/-- A caller tries to exchange a maximum that is below its duration. -/
def Loaded (s : Recording) : Prop := ∀ k prev d slow,
  s.callers k = .finish (.exchangeMax prev) d slow → ¬ d.asMillis ≤ prev

/-- The phase of one caller changes. -/
theorem Loaded.update (hs : s.Loaded) {phase : RecordPhase} {cell : StatsCell}
    (hphase : ∀ prev d slow, phase = .finish (.exchangeMax prev) d slow → ¬ d.asMillis ≤ prev) :
    Loaded ⟨cell, Function.update s.callers k phase⟩ := by
  intro j prev d slow hj
  simp only [update_apply] at hj
  split_ifs at hj
  · exact hphase prev d slow hj
  · exact hs j prev d slow hj

theorem Loaded.step (hs : s.Loaded) (h : s.step e = some s') : s'.Loaded := by
  cases e with
  | finishHandle k d slow | recordTimeout k d =>
    simp only [Recording.step, Option.ite_none_right_eq_some, Option.some.injEq] at h
    rw [← h.2]
    exact hs.update fun _ _ _ heq => by cases heq
  | access k =>
    obtain ⟨⟨cell, phase⟩, haccess, rfl⟩ := Option.map_eq_some_iff.mp h
    exact hs.update fun prev d slow heq => RecordPhase.not_le_of_access (heq ▸ haccess)

/-- A caller that owes what it did leaves the loop as it was. -/
theorem owes_update {phase : RecordPhase}
    (hphase : ∀ ms, phase.owes ms ↔ (s.callers k).owes ms) (j : RecorderId) (ms : UInt64) :
    (Function.update s.callers k phase j).owes ms ↔ (s.callers j).owes ms := by
  rw [update_apply]
  split_ifs with hj
  · rw [hphase ms, hj]
  · exact Iff.rfl

/-- A caller that owes nothing any more has left it. -/
theorem owes_update_of_not {phase : RecordPhase} (hphase : ∀ ms, ¬ phase.owes ms)
    (j : RecorderId) (ms : UInt64) :
    (Function.update s.callers k phase j).owes ms ↔ j ≠ k ∧ (s.callers j).owes ms := by
  rw [update_apply]
  split_ifs with hj
  · exact ⟨fun h => absurd h (hphase ms), fun h => absurd hj h.1⟩
  · exact ⟨fun h => ⟨hj, h⟩, fun h => h.2⟩

/-- **Inversion of a step.** -/
theorem step_move (hs : s.Loaded) (h : s.step e = some s') : Move s e s' := by
  cases e with
  | finishHandle k d slow | recordTimeout k d =>
    simp only [step, Option.ite_none_right_eq_some, Option.some.injEq] at h
    obtain ⟨hidle, rfl⟩ := h
    exact .keep rfl rfl rfl (owes_update fun ms => by rw [hidle]; exact Iff.rfl)
  | access k =>
    obtain ⟨⟨cell, phase⟩, haccess, rfl⟩ := Option.map_eq_some_iff.mp h
    cases hphase : s.callers k with
    | idle =>
      rw [hphase] at haccess
      cases haccess
    | timeout stage d =>
      have hkeep (ms : UInt64) : ¬ (s.callers k).owes ms := by rw [hphase]; exact id
      rw [hphase] at haccess
      cases stage with
      | lastHandle =>
        cases haccess
        exact .timedOut d.asMillis (congrArg RecordPhase.stores hphase) rfl rfl
          (owes_update fun ms => iff_of_false id (hkeep ms))
      | _ =>
        cases haccess
        exact .keep (congrArg RecordPhase.stores hphase) rfl rfl
          (owes_update fun ms => iff_of_false id (hkeep ms))
    | finish stage d slow =>
      rw [hphase] at haccess
      cases stage with
      | lastHandle =>
        cases haccess
        refine .finished k d.asMillis (congrArg RecordPhase.stores hphase) rfl rfl fun j ms => ?_
        simp only [update_apply]
        split_ifs with hj
        · rw [hj, hphase]
          exact ⟨fun hms => Or.inl ⟨rfl, hms⟩, fun h => h.elim And.right False.elim⟩
        · exact ⟨Or.inr, fun h => h.elim (fun h => absurd h.1 hj) id⟩
      | loadMax =>
        simp only [RecordPhase.access, Option.some.injEq, Prod.mk.injEq] at haccess
        obtain ⟨rfl, rfl⟩ := haccess
        split_ifs with hle
        · exact .settle k d.asMillis (congrArg RecordPhase.stores hphase) (by rw [hphase]; rfl) hle
            (UInt64.le_refl _) (Or.inl rfl) rfl (owes_update_of_not fun _ => id)
        · exact .keep (congrArg RecordPhase.stores hphase) rfl rfl
            (owes_update fun ms => by rw [hphase]; exact Iff.rfl)
      | exchangeMax prev =>
        simp only [RecordPhase.access] at haccess
        split_ifs at haccess with hsame
        · cases haccess
          -- the maximum is still the one that was loaded, which the duration exceeds
          have hge : s.cell.maxHandleMs ≤ d.asMillis := by
            rw [hsame]
            exact (UInt64.le_total ..).resolve_right (hs k prev d slow hphase)
          exact .settle k d.asMillis (congrArg RecordPhase.stores hphase) (by rw [hphase]; rfl)
            (UInt64.le_refl _) hge (Or.inr rfl) rfl (owes_update_of_not fun _ => id)
        · cases haccess
          exact .keep (congrArg RecordPhase.stores hphase) rfl rfl
            (owes_update fun ms => by rw [hphase]; exact Iff.rfl)
      | _ =>
        cases haccess
        exact .keep (congrArg RecordPhase.stores hphase) rfl rfl
          (owes_update fun ms => by rw [hphase]; exact Iff.rfl)

/-- What the maximum is after the durations `l` were stored. -/
structure Raised (s : Recording) (l : List Stored) : Prop where
  loaded : s.Loaded
  /-- The maximum is a duration of `finish_handle`. -/
  attained : s.cell.maxHandleMs = 0 ∨ .finished s.cell.maxHandleMs ∈ l
  /-- No such duration exceeds it, but for callers in the loop. -/
  raised : ∀ ms, .finished ms ∈ l → ms ≤ s.cell.maxHandleMs ∨ ∃ k, (s.callers k).owes ms
  owed : ∀ k ms, (s.callers k).owes ms → .finished ms ∈ l
  last : s.cell.lastHandleMs = 0 ∨ s.cell.lastHandleMs ∈ l.map Stored.ms

theorem raised_new : new.Raised [] where
  loaded := fun _ _ _ _ h => by cases h
  attained := Or.inl rfl
  raised := fun _ h => by cases h
  owed := fun _ _ h => by cases h
  last := Or.inl rfl

/-- **Every step keeps the maximum raised.** -/
theorem Raised.step (hs : s.Raised l) (h : s.step e = some s') : s'.Raised (l ++ s.stores e) := by
  have hloaded := hs.loaded.step h
  cases step_move hs.loaded h with
  | keep hst hmax hlast howes =>
    rw [hst, List.append_nil]
    refine ⟨hloaded, by rw [hmax]; exact hs.attained, fun ms hms => ?_, fun k ms hk => ?_,
      by rw [hlast]; exact hs.last⟩
    · rw [hmax]
      simpa only [howes] using hs.raised ms hms
    · exact hs.owed k ms ((howes k ms).mp hk)
  | timedOut ms hst hmax hlast howes =>
    rw [hst]
    refine ⟨hloaded, ?_, fun ms' hms => ?_, fun k ms' hk => ?_, Or.inr ?_⟩
    · rw [hmax]
      exact hs.attained.imp_right (List.mem_append_left _)
    · rcases List.mem_append.mp hms with hms | hms
      · rw [hmax]
        simpa only [howes] using hs.raised ms' hms
      · cases List.mem_singleton.mp hms
    · exact List.mem_append_left _ (hs.owed k ms' ((howes k ms').mp hk))
    · simp [hlast, Stored.ms]
  | finished k ms hst hmax hlast howes =>
    rw [hst]
    refine ⟨hloaded, ?_, fun ms' hms => ?_, fun j ms' hj => ?_, Or.inr ?_⟩
    · rw [hmax]
      exact hs.attained.imp_right (List.mem_append_left _)
    · rw [hmax]
      rcases List.mem_append.mp hms with hms | hms
      · rcases hs.raised ms' hms with hle | ⟨j, hj⟩
        · exact Or.inl hle
        · exact Or.inr ⟨j, (howes j ms').mpr (Or.inr hj)⟩
      · obtain rfl : ms' = ms := by simpa using hms
        exact Or.inr ⟨k, (howes k ms').mpr (Or.inl ⟨rfl, rfl⟩)⟩
    · rcases (howes j ms').mp hj with ⟨-, rfl⟩ | hj
      · exact List.mem_append_right _ List.mem_cons_self
      · exact List.mem_append_left _ (hs.owed j ms' hj)
    · simp [hlast, Stored.ms]
  | settle k ms hst hk hle hge hmax hlast howes =>
    rw [hst, List.append_nil]
    refine ⟨hloaded, ?_, fun ms' hms => ?_, fun j ms' hj => hs.owed j ms' ((howes j ms').mp hj).2,
      by rw [hlast]; exact hs.last⟩
    · rcases hmax with hmax | hmax
      · rw [hmax]
        exact hs.attained
      · rw [hmax]
        exact Or.inr (hs.owed k ms hk)
    · rcases hs.raised ms' hms with hle' | ⟨j, hj⟩
      · exact Or.inl (UInt64.le_trans hle' hge)
      · by_cases hjk : j = k
        · subst hjk
          exact Or.inl (RecordPhase.owes_unique hj hk ▸ hle)
        · exact Or.inr ⟨j, (howes j ms').mpr ⟨hjk, hj⟩⟩

theorem raised_run (hrun : new.run es = some s) : s.Raised (new.stored es) := by
  refine run_induction (motive := fun es s => s.Raised (new.stored es)) raised_new ?_ hrun
  intro es s e s' hrun hs hst
  have hstored : new.stored (es ++ [e]) = new.stored es ++ s.stores e := trace_concat hrun hst
  rw [hstored]
  exact hs.step hst

/-- **The longest handle.** For every sequence of `finish_handle` and `record_timeout` on the cell
of an actor, with any durations and any interleaving of concurrent callers: when nobody is
calling, the maximum is that of all durations that were stored as the last one, and so is at
least the last one, exactly when no timeout was longer than every handle that finished. -/
theorem longest_iff (hrun : new.run es = some s) (hidle : s.Quiescent) :
    (IsLongest s.cell.maxHandleMs ((new.stored es).map Stored.ms) ∧
      s.cell.lastHandleMs ≤ s.cell.maxHandleMs) ↔
    ∀ ms, .timedOut ms ∈ new.stored es →
      ms = 0 ∨ ∃ ms', .finished ms' ∈ new.stored es ∧ ms ≤ ms' := by
  have hs := raised_run hrun
  have hfinished {ms : UInt64} (hms : .finished ms ∈ new.stored es) :
      ms ≤ s.cell.maxHandleMs := by
    rcases hs.raised ms hms with hle | ⟨k, hk⟩
    · exact hle
    · rw [hidle k] at hk
      exact hk.elim
  have hzero {ms : UInt64} : (0 : UInt64) ≤ ms := UInt64.zero_le
  constructor
  · rintro ⟨⟨-, hall⟩, -⟩ ms hms
    have hle := hall ms (List.mem_map.mpr ⟨_, hms, rfl⟩)
    rcases hs.attained with hmax | hmax
    · rw [hmax] at hle
      exact Or.inl (UInt64.le_antisymm hle hzero)
    · exact Or.inr ⟨_, hmax, hle⟩
  · intro htimedOut
    have hall : ∀ d ∈ (new.stored es).map Stored.ms, d ≤ s.cell.maxHandleMs := by
      intro d hd
      obtain ⟨x, hx, rfl⟩ := List.mem_map.mp hd
      cases x with
      | finished ms => exact hfinished hx
      | timedOut ms =>
        rcases htimedOut ms hx with hms | ⟨ms', hms', hle⟩
        · change ms ≤ _
          rw [hms]
          exact hzero
        · exact UInt64.le_trans hle (hfinished hms')
    refine ⟨⟨?_, hall⟩, ?_⟩
    · rcases hs.attained with hmax | hmax
      · rw [hmax]
        exact List.mem_cons_self
      · exact List.mem_cons_of_mem _ (List.mem_map.mpr ⟨_, hmax, rfl⟩)
    · rcases hs.last with hlast | hlast
      · rw [hlast]
        exact hzero
      · exact hall _ hlast

/-- Two callers raise the maximum at the same time: the exchange of the first one fails and is
tried again. A timeout that was not as long comes last. -/
def contended : List RecordEvent :=
  [.finishHandle 0 5000000000 none, .finishHandle 1 3000000000 none] ++
    [0, 0, 0, 0, 1, 1, 1, 1, 1, 1, 0, 0, 0, 0].map .access ++
    .recordTimeout 1 4000000000 :: [1, 1, 1].map .access

/-- The result for these calls. -/
theorem longest_contended : ∃ s, new.run contended = some s ∧
    s.cell.maxHandleMs = 5000 ∧ s.cell.lastHandleMs = 4000 ∧
    IsLongest s.cell.maxHandleMs ((new.stored contended).map Stored.ms) := by
  have hrun : new.run contended = some _ := rfl
  refine ⟨_, hrun, rfl, rfl, ((longest_iff hrun fun k => ?_).mpr fun ms hms => ?_).1⟩
  · rcases k with _ | _ | k <;> rfl
  · have hstored : new.stored contended =
        [.finished 5000, .finished 3000, .timedOut 4000] := by decide
    rw [hstored] at hms ⊢
    obtain rfl : ms = 4000 := by simpa using hms
    exact Or.inr ⟨5000, List.mem_cons_self, by decide⟩

/-- A handle that times out before any has finished: the last duration exceeds the maximum. -/
theorem timeout_exceeds_longest : ∃ s,
    new.run (.recordTimeout 0 5000000000 :: [0, 0, 0].map .access) = some s ∧ s.Quiescent ∧
    s.cell.maxHandleMs = 0 ∧ s.cell.lastHandleMs = 5000 ∧
    ¬ IsLongest s.cell.maxHandleMs
      ((new.stored (.recordTimeout 0 5000000000 :: [0, 0, 0].map .access)).map Stored.ms) := by
  refine ⟨_, rfl, fun k => ?_, rfl, rfl, fun h => ?_⟩
  · rcases k with _ | k <;> rfl
  · exact absurd (h.2 5000 (by decide)) (by decide)

end Recording

end LaneSwitchboards
