import LaneSwitchboards.Actor.Cleanup
import LaneSwitchboards.Actor.Lifecycle

/-!
# What the statistics of an actor say

A task counts in its cell of the monitor as it goes on, in five places of `handle_message` and one
of the end. While nobody else writes to the cell, it is the summary of what the task has observed
(`StatsCell.summary`), and says more than its numbers do: every message that was taken returned
`Ok` from `handle`, but for the last one at most, which is in progress, or failed and ended the
actor (`stats_spec`).
-/

namespace LaneSwitchboards

open Function Transition

variable {M A : Type}

/-! ### The summary -/

/-- A message of the user. -/
def Envelope.isMsg : Envelope M A → Bool
  | .msg _ => true
  | _ => false

namespace Input

/-- A message is taken. -/
def isMsg : Input M A → Bool
  | .envelope (some (.msg _)) => true
  | _ => false

/-- How long a `handle` took that returned `Ok`. -/
def handledIn : Input M A → Option Duration
  | .handle .ok elapsed => some elapsed
  | _ => none

/-- `on_handle_begin` or `handle` returns an error. -/
def isError : Input M A → Bool
  | .handleBegin (.error _) | .handle (.err _) _ => true
  | _ => false

/-- A panic of `handle` is caught. -/
def isCaught : Input M A → Bool
  | .handle .panicked _ => true
  | _ => false

/-- What `last_handle_ms` is set to: not the time of a `handle` that failed. -/
def elapsed : Input M A → Option Duration
  | .handle .ok elapsed | .timeout elapsed => some elapsed
  | _ => none

/-- A message has failed. -/
def isFailure (x : Input M A) : Bool := x.isError || x.isCaught || x.timedOut

variable {x : Input M A}

theorem isMsg_of_isFailure (h : x.isFailure = true) : x.isMsg = false := by
  cases x <;> first | rfl | cases h

theorem handledIn_of_isFailure (h : x.isFailure = true) : x.handledIn = none := by
  unfold handledIn
  split
  · cases h
  · rfl

end Input

/-- How many messages are taken, and neither handled nor failed. -/
def pending (xs : List (Input M A)) : ℕ :=
  xs.countP Input.isMsg - ((xs.filterMap Input.handledIn).length + xs.countP Input.isFailure)

/-- What the cell of a task says of the inputs that the task has observed. -/
def StatsCell.summary (config : ActorConfig) (xs : List (Input M A)) : StatsCell where
  messagesHandled := .ofNat (xs.filterMap Input.handledIn).length
  handleErrors := .ofNat (xs.countP Input.isError)
  panics := .ofNat (xs.countP Input.isCaught)
  handleTimeouts := .ofNat (xs.countP Input.timedOut)
  inFlight := .ofNat (pending xs)
  lastHandleMs := ((xs.filterMap Input.elapsed).map Duration.asMillis).getLastD 0
  maxHandleMs := ((xs.filterMap Input.handledIn).map Duration.asMillis).foldl max 0
  slowHandles := .ofNat ((xs.filterMap Input.handledIn).countP fun elapsed =>
    config.effectiveSlowThreshold.any (· < elapsed))

/-- The task awaits `on_handle_begin` or `handle`. -/
def Phase.handling : Phase M → Bool
  | .handleBegin _ | .handle _ => true
  | _ => false

/-- What a step is for the statistics. -/
inductive Counts (t : Task M A) (x : Input M A) (t' : Task M A) : Prop
  /-- A message is taken. -/
  | begin (m : M) (hp : t.phase = .pollMailbox) (hx : x = .envelope (some (.msg m)))
      (hp' : t'.phase = .handleBegin m)
  | begun (m : M) (r : Unit) (hp : t.phase = .handleBegin m) (hx : x = .handleBegin (.ok r))
      (hp' : t'.phase = .handle m)
  | handled (m : M) (elapsed : Duration) (hp : t.phase = .handle m)
      (hx : x = .handle .ok elapsed) (hp' : t'.phase = .select)
  /-- The message fails, and the loop is being left. -/
  | failed (hp : t.phase.handling = true) (hx : x.isFailure = true)
      (hp' : t'.phase.handling = false) (hclosing : t'.phase.closing = true)
  /-- A panic escapes from `on_handle_begin`. -/
  | escaped (hp : t.phase.handling = true) (hx : x = .panicked)
      (hp' : t'.phase = .done .panicked)
  /-- The step has no part in the statistics. -/
  | other (hp : t.phase.handling = false) (hmsg : x.isMsg = false) (hx : x.handledIn = none)
      (hfailure : x.isFailure = false) (hstats : t.recordStats x = id ∨ x = .finished)
      (hp' : t'.phase.handling = false)
      (hclosing : t.phase.closing = true → t'.phase.closing = true)

namespace Task

variable {t t' : Task M A} {x : Input M A} {xs : List (Input M A)}

theorem handling_recvControl {m : Option ControlMsg} {trap : Bool} :
    (t.recvControl trap m).phase.handling = false := by
  unfold recvControl
  split
  · rfl
  · unfold insertLink
    split_ifs <;> rfl
  · split <;> rfl

theorem handling_recvEnvelope {e : Option (Envelope M A)}
    (h : (.envelope e : Input M A).isMsg = false) :
    (t.recvEnvelope e).phase.handling = false := by
  unfold recvEnvelope
  split
  · rfl
  · cases h
  · unfold insertLink
    split_ifs <;> rfl
  all_goals rfl

/-- What is recorded without a message is that the task has ended. -/
theorem recordStats_eq_id (hmsg : x.isMsg = false) (hx : x.handledIn = none)
    (hfailure : x.isFailure = false) : t.recordStats x = id ∨ x = .finished := by
  unfold recordStats
  split
  · cases hmsg
  · cases hfailure
  · cases hx
  · cases hfailure
  · cases hfailure
  · cases hfailure
  · exact .inr rfl
  · exact .inl rfl

/-- **Inversion of a step**, for the statistics. -/
theorem counts_of_step (h : t.step x = some t') : Counts t x t' := by
  have hclosing : t.phase.closing = true → t'.phase.closing = true :=
    fun hp => (closing_step h hp).1
  unfold step at h
  split at h
  all_goals try cases h
  all_goals try
    (next hp =>
      exact .other (by rw [hp]; rfl) rfl rfl rfl (recordStats_eq_id rfl rfl rfl) rfl hclosing)
  · next hp =>
    exact .other (by rw [hp]; rfl) rfl rfl rfl (recordStats_eq_id rfl rfl rfl)
      handling_recvControl hclosing
  · next e hp =>
    by_cases hmsg : (.envelope e : Input M A).isMsg = true
    · obtain ⟨m, rfl⟩ : ∃ m, e = some (.msg m) := by
        unfold Input.isMsg at hmsg
        split at hmsg
        · next m he =>
          cases he
          exact ⟨m, rfl⟩
        · cases hmsg
      exact .begin m hp rfl rfl
    · have hmsg' := Bool.of_not_eq_true hmsg
      exact .other (by rw [hp]; rfl) hmsg' rfl rfl (recordStats_eq_id hmsg' rfl rfl)
        (handling_recvEnvelope hmsg') hclosing
  · next m r hp => exact .begun m r hp rfl rfl
  · next m e hp => exact .failed (by rw [hp]; rfl) rfl rfl rfl
  · next m o elapsed hp =>
    cases o with
    | ok => exact .handled m elapsed hp rfl rfl
    | err e => exact .failed (by rw [hp]; rfl) rfl rfl rfl
    | panicked => exact .failed (by rw [hp]; rfl) rfl rfl rfl
  · next m elapsed hp =>
    split at h
    · cases h
      exact .failed (by rw [hp]; rfl) rfl rfl rfl
    · cases h
  · next r o hp =>
    refine .other (by rw [hp]; rfl) rfl rfl rfl (recordStats_eq_id rfl rfl rfl) ?_ hclosing
    unfold stopped
    dsimp only
    split_ifs <;> rfl
  · next hp =>
    split_ifs at h
    cases h
    exact .other (by rw [hp]; rfl) rfl rfl rfl (recordStats_eq_id rfl rfl rfl) rfl hclosing
  · next hp =>
    split_ifs at h
    cases h
    exact .other (by rw [hp]; rfl) rfl rfl rfl (recordStats_eq_id rfl rfl rfl) rfl hclosing
  · split_ifs at h
    cases h
    by_cases hp : t.phase.handling = true
    · exact .escaped hp rfl rfl
    · exact .other (Bool.of_not_eq_true hp) rfl rfl rfl (recordStats_eq_id rfl rfl rfl) rfl
        hclosing

/-- The configuration of a task stays. -/
theorem config_of_step (h : t.step x = some t') : t'.config = t.config := by
  have hinsert (peer : ActorId) : (t.insertLink peer).config = t.config := by
    unfold insertLink
    split_ifs <;> rfl
  unfold step at h
  split at h
  all_goals try cases h
  all_goals try rfl
  · unfold recvControl
    split
    · rfl
    · exact hinsert _
    · split <;> rfl
  · unfold recvEnvelope
    split
    all_goals try rfl
    exact hinsert _
  · next o _ _ => cases o <;> rfl
  · split at h <;> cases h
    rfl
  · split_ifs at h
    cases h
    rfl
  · split_ifs at h
    cases h
    rfl
  · split_ifs at h
    cases h
    rfl

/-! ### Messages taken, handled and failed -/

/-- All messages that a task has taken are handled, but for one at most: the last one, which is in
progress, or failed and ended the loop, or was lost in a panic of `on_handle_begin`. -/
def Tallied (t : Task M A) (xs : List (Input M A)) : Prop :=
  (t.phase.handling = true ∧ xs.countP Input.isFailure = 0 ∧
      xs.countP Input.isMsg = (xs.filterMap Input.handledIn).length + 1) ∨
    (t.phase.handling = false ∧ xs.countP Input.isFailure ≤ 1 ∧
      (xs.countP Input.isFailure = 1 → t.phase.closing = true) ∧
      xs.countP Input.isMsg =
        (xs.filterMap Input.handledIn).length + xs.countP Input.isFailure) ∨
    (t.phase = .done .panicked ∧ xs.countP Input.isFailure = 0 ∧
      xs.countP Input.isMsg = (xs.filterMap Input.handledIn).length + 1)

theorem Tallied.of_handling (h : t.Tallied xs) (hp : t.phase.handling = true) :
    xs.countP Input.isFailure = 0 ∧
      xs.countP Input.isMsg = (xs.filterMap Input.handledIn).length + 1 := by
  rcases h with ⟨-, h⟩ | ⟨hp', -⟩ | ⟨hp', -⟩
  · exact h
  · rw [hp'] at hp
    cases hp
  · rw [hp'] at hp
    cases hp

theorem Tallied.of_live (h : t.Tallied xs) (hp : t.phase.handling = false)
    (hlive : t.phase.isDone = false) : xs.countP Input.isFailure ≤ 1 ∧
      (xs.countP Input.isFailure = 1 → t.phase.closing = true) ∧
      xs.countP Input.isMsg =
        (xs.filterMap Input.handledIn).length + xs.countP Input.isFailure := by
  rcases h with ⟨hp', -⟩ | ⟨-, h⟩ | ⟨hp', -⟩
  · rw [hp] at hp'
    cases hp'
  · exact h
  · rw [hp'] at hlive
    cases hlive

theorem Tallied.step (h : t.Tallied xs) (hst : t.step x = some t') : t'.Tallied (xs ++ [x]) := by
  have hlive := (step_move hst).not_isDone
  unfold Tallied
  rw [List.countP_append, List.countP_append, List.filterMap_append, List.length_append]
  cases counts_of_step hst with
  | begin m hp hx hp' =>
    obtain ⟨hle, hclosing, htotal⟩ := h.of_live (by rw [hp]; rfl) hlive
    have hzero : xs.countP Input.isFailure = 0 := by
      by_contra hne
      have hlast := hclosing (by omega)
      rw [hp] at hlast
      cases hlast
    refine .inl ⟨by rw [hp']; rfl, ?_, ?_⟩
    · rw [hzero, hx]
      rfl
    · rw [htotal, hzero, hx]
      rfl
  | begun m r hp hx hp' =>
    obtain ⟨hzero, htotal⟩ := h.of_handling (by rw [hp]; rfl)
    refine .inl ⟨by rw [hp']; rfl, ?_, ?_⟩
    · rw [hzero, hx]
      rfl
    · rw [htotal, hx]
      rfl
  | handled m elapsed hp hx hp' =>
    obtain ⟨hzero, htotal⟩ := h.of_handling (by rw [hp]; rfl)
    have hnone : xs.countP Input.isFailure + [x].countP Input.isFailure = 0 := by
      rw [hzero, hx]
      rfl
    refine .inr (.inl ⟨by rw [hp']; rfl, ?_, ?_, ?_⟩) <;> rw [hnone]
    · exact Nat.zero_le 1
    · exact fun hone => absurd hone (by decide)
    · rw [htotal, hx]
      rfl
  | failed hp hx hp' hclosing =>
    obtain ⟨hzero, htotal⟩ := h.of_handling hp
    have hone : [x].countP Input.isFailure = 1 := by simp [hx]
    have hmsg : [x].countP Input.isMsg = 0 := by simp [Input.isMsg_of_isFailure hx]
    have hhandled : ([x].filterMap Input.handledIn).length = 0 := by
      simp [Input.handledIn_of_isFailure hx]
    refine .inr (.inl ⟨hp', ?_, fun _ => hclosing, ?_⟩) <;> rw [hzero, hone]
    rw [htotal, hmsg, hhandled]
  | escaped hp hx hp' =>
    obtain ⟨hzero, htotal⟩ := h.of_handling hp
    refine .inr (.inr ⟨hp', ?_, ?_⟩)
    · rw [hzero, hx]
      rfl
    · rw [htotal, hx]
      rfl
  | other hp hmsg hx hfailure hstats hp' hclosing =>
    obtain ⟨hle, hlast, htotal⟩ := h.of_live hp hlive
    have hnone : [x].countP Input.isFailure = 0 := List.countP_eq_zero.mpr (by simpa using hfailure)
    have hmsg : [x].countP Input.isMsg = 0 := List.countP_eq_zero.mpr (by simpa using hmsg)
    have hhandled : [x].filterMap Input.handledIn = [] := by simp [hx]
    refine .inr (.inl ⟨hp', ?_, ?_, ?_⟩) <;> rw [hnone, Nat.add_zero]
    · exact hle
    · exact fun hone => hclosing (hlast hone)
    · rw [hmsg, hhandled]
      exact htotal

theorem tallied_initial (config : ActorConfig) (a : A) :
    (initial (M := M) config a).Tallied [] :=
  .inr (.inl ⟨rfl, Nat.zero_le _, fun hone => absurd hone Nat.zero_ne_one, rfl⟩)

/-! ### The cell of a task -/

theorem Tallied.pending_of_handling (h : t.Tallied xs) (hp : t.phase.handling = true) :
    pending xs = 1 := by
  obtain ⟨hzero, htotal⟩ := h.of_handling hp
  unfold pending
  omega

theorem Tallied.pending_of_live (h : t.Tallied xs) (hp : t.phase.handling = false)
    (hlive : t.phase.isDone = false) : pending xs = 0 := by
  obtain ⟨-, -, htotal⟩ := h.of_live hp hlive
  unfold pending
  omega

variable {config : ActorConfig}

/-- An input without a duration that is no failure. -/
theorem summary_of_quiet (hhandled : x.handledIn = none) (helapsed : x.elapsed = none)
    (hfailure : x.isFailure = false) : StatsCell.summary config (xs ++ [x]) =
      { StatsCell.summary config xs with inFlight := .ofNat (pending (xs ++ [x])) } := by
  obtain ⟨⟨herror, hcaught⟩, htimedOut⟩ : (x.isError = false ∧ x.isCaught = false) ∧
      x.timedOut = false := by simpa [Input.isFailure] using hfailure
  simp [StatsCell.summary, List.filterMap_append, List.countP_append, hhandled, helapsed, herror,
    hcaught, htimedOut]

/-- A failure. -/
theorem summary_of_failure (hfailure : x.isFailure = true) :
    StatsCell.summary config (xs ++ [x]) =
      { StatsCell.summary config xs with
        handleErrors := (StatsCell.summary config xs).handleErrors + if x.isError then 1 else 0
        panics := (StatsCell.summary config xs).panics + if x.isCaught then 1 else 0
        handleTimeouts :=
          (StatsCell.summary config xs).handleTimeouts + if x.timedOut then 1 else 0
        lastHandleMs := (x.elapsed.map Duration.asMillis).getD
          (StatsCell.summary config xs).lastHandleMs
        inFlight := .ofNat (pending (xs ++ [x])) } := by
  have hhandled := Input.handledIn_of_isFailure hfailure
  have hcount (p : Input M A → Bool) : UInt64.ofNat (xs.countP p + [x].countP p) =
      UInt64.ofNat (xs.countP p) + if p x then 1 else 0 := by
    rw [UInt64.ofNat_add, List.countP_singleton]
    split_ifs <;> rfl
  simp only [StatsCell.summary, List.filterMap_append, List.countP_append, hcount]
  cases helapsed : x.elapsed <;> simp [hhandled, helapsed]

/-- A message is handled. -/
theorem summary_of_handled (elapsed : Duration) :
    StatsCell.summary config (xs ++ [.handle .ok elapsed]) =
      { StatsCell.finishHandle elapsed config.effectiveSlowThreshold
          (StatsCell.summary config xs) with
        inFlight := .ofNat (pending (xs ++ [.handle .ok elapsed])) } := by
  have herror : (.handle .ok elapsed : Input M A).isError = false := rfl
  have hcaught : (.handle .ok elapsed : Input M A).isCaught = false := rfl
  have htimedOut : (.handle .ok elapsed : Input M A).timedOut = false := rfl
  have hhandled : (.handle .ok elapsed : Input M A).handledIn = some elapsed := rfl
  have helapsed : (.handle .ok elapsed : Input M A).elapsed = some elapsed := rfl
  simp only [StatsCell.summary, StatsCell.finishHandle, List.filterMap_append, List.countP_append,
    List.filterMap_cons_some hhandled, List.filterMap_cons_some helapsed, List.filterMap_nil,
    List.map_append, List.foldl_append, List.length_append, UInt64.ofNat_add]
  split_ifs with hslow <;> simp [herror, hcaught, htimedOut, hslow]

theorem pending_of_quiet (hmsg : x.isMsg = false) (hhandled : x.handledIn = none)
    (hfailure : x.isFailure = false) : pending (xs ++ [x]) = pending xs := by
  simp [pending, List.filterMap_append, List.countP_append, hmsg, hhandled, hfailure]

/-- What a failure records. -/
theorem recordStats_of_failure (hst : t.step x = some t') (hx : x.isFailure = true)
    {c : StatsCell} : t.recordStats x c =
      { c with
        handleErrors := c.handleErrors + if x.isError then 1 else 0
        panics := c.panics + if x.isCaught then 1 else 0
        handleTimeouts := c.handleTimeouts + if x.timedOut then 1 else 0
        lastHandleMs := (x.elapsed.map Duration.asMillis).getD c.lastHandleMs
        inFlight := c.inFlight - 1 } := by
  have hp : t.phase.handling = true := by
    cases counts_of_step hst with
    | failed hp => exact hp
    | begin m hp hx' | begun m r hp hx' | handled m elapsed hp hx' | escaped hp hx' =>
      rw [hx'] at hx
      cases hx
    | other hp hmsg hhandled hfailure =>
      rw [hfailure] at hx
      cases hx
  unfold step at hst
  unfold recordStats
  cases hphase : t.phase with
  | handleBegin m =>
    rw [hphase] at hst
    cases x with
    | handleBegin r =>
      cases r with
      | ok r => cases hx
      | error e =>
        simp [Input.isError, Input.isCaught, Input.timedOut, Input.elapsed, StatsCell.recordError]
    | handle | timeout => cases hst
    | _ => cases hx
  | handle m =>
    rw [hphase] at hst
    cases x with
    | handleBegin r => cases hst
    | handle o elapsed =>
      cases o with
      | ok => cases hx
      | err e =>
        simp [Input.isError, Input.isCaught, Input.timedOut, Input.elapsed, StatsCell.recordError]
      | panicked =>
        simp [Input.isError, Input.isCaught, Input.timedOut, Input.elapsed, StatsCell.recordPanic]
    | timeout elapsed =>
      simp [Input.isError, Input.isCaught, Input.timedOut, Input.elapsed, StatsCell.recordTimeout]
    | _ => cases hx
  | _ =>
    rw [hphase] at hp
    cases hp

/-- **A step keeps the summary.** -/
theorem Tallied.recordStats_summary (h : t.Tallied xs) (hst : t.step x = some t') :
    t.recordStats x (.summary t.config xs) = .summary t.config (xs ++ [x]) := by
  have hlive := (step_move hst).not_isDone
  have hnext := h.step hst
  -- what has no part in the statistics
  have hquiet (hmsg : x.isMsg = false) (hhandled : x.handledIn = none)
      (hfailure : x.isFailure = false) :
      StatsCell.summary t.config (xs ++ [x]) = .summary t.config xs := by
    have helapsed : x.elapsed = none := by
      unfold Input.elapsed
      split
      · cases hhandled
      · cases hfailure
      · rfl
    rw [summary_of_quiet hhandled helapsed hfailure, pending_of_quiet hmsg hhandled hfailure]
    rfl
  cases counts_of_step hst with
  | begin m hp hx hp' =>
    have hone := hnext.pending_of_handling (by rw [hp']; rfl)
    have hzero := h.pending_of_live (by rw [hp]; rfl) hlive
    have hrecord : t.recordStats x = .beginHandle := by
      unfold recordStats
      rw [hp, hx]
    rw [summary_of_quiet (by rw [hx]; rfl) (by rw [hx]; rfl) (by rw [hx]; rfl), hone, hrecord,
      StatsCell.beginHandle]
    simp [StatsCell.summary, hzero]
  | begun m r hp hx hp' =>
    subst hx
    rw [hquiet rfl rfl rfl]
    unfold recordStats
    rw [hp]
    rfl
  | handled m elapsed hp hx hp' =>
    have hone := h.pending_of_handling (by rw [hp]; rfl)
    have hzero : pending (xs ++ [x]) = 0 :=
      hnext.pending_of_live (by rw [hp']; rfl) (by rw [hp']; rfl)
    have hrecord : t.recordStats x =
        .finishHandle elapsed t.config.effectiveSlowThreshold := by
      unfold recordStats
      rw [hp, hx]
    rw [hrecord]
    subst hx
    rw [summary_of_handled, hzero, StatsCell.finishHandle]
    simp [StatsCell.summary, hone]
  | failed hp hx hp' hclosing =>
    have hone := h.pending_of_handling hp
    have hzero : pending (xs ++ [x]) = 0 := by
      obtain ⟨hnone, htotal⟩ := h.of_handling hp
      simp [pending, List.filterMap_append, List.countP_append, Input.isMsg_of_isFailure hx,
        Input.handledIn_of_isFailure hx, hx, hnone, htotal]
    rw [recordStats_of_failure hst hx, summary_of_failure hx, hzero]
    simp [StatsCell.summary, hone]
  | escaped hp hx hp' =>
    subst hx
    rcases recordStats_eq_id (t := t) (x := .panicked) rfl rfl rfl with hid | hx
    · rw [hquiet rfl rfl rfl, hid]
      rfl
    · cases hx
  | other hp hmsg hx hfailure hstats hp' hclosing =>
    rw [hquiet hmsg hx hfailure]
    rcases hstats with hid | rfl
    · rw [hid]
      rfl
    · -- nothing is in progress when the task ends
      obtain ⟨e, hphase, -⟩ := phase_of_finished hst
      have hzero := h.pending_of_live hp hlive
      unfold recordStats
      rw [hphase]
      simp [StatsCell.markInactive, StatsCell.summary, hzero]

end Task

namespace Runtime

variable {w w' w₀ : Runtime M A} {i : ActorId} {e : RtEvent M A} {es : List (RtEvent M A)}
  {config : ActorConfig} {actor : A} {supervisor : Option SupId}

/-- There is no cell without a task. -/
theorem stats_of_step (h : ∀ i, w.tasks i = none → w.stats i = none)
    (hst : w.step e = some w') : ∀ i, w'.tasks i = none → w'.stats i = none := by
  intro i hi
  cases e with
  | task j c =>
    obtain ⟨t, x, w₁, t', ht, hobs, -, rfl⟩ := taskStep_inv hst
    have hne : i ≠ j := by
      rintro rfl
      simp [setTask] at hi
    have htask : w.tasks i = none := by
      simpa [setTask, update_of_ne hne, (observe_access hobs).frame.1] using hi
    simpa [ActorMonitor.record, update_of_ne hne] using h i htask
  | spawn config actor supervisor =>
    obtain rfl := step_spawn_eq hst
    have hne : i ≠ ⟨w.nextId⟩ := by
      rintro rfl
      simp at hi
    have htask : w.tasks i = none := by simpa [update_of_ne hne] using hi
    simpa [ActorMonitor.register, update_of_ne hne] using h i htask
  | post j env =>
    obtain ⟨-, rfl⟩ := step_post hst
    exact h i hi
  | recvSignal k =>
    obtain ⟨a, -, rfl⟩ := Option.map_eq_some_iff.mp hst
    exact h i hi
  | cloneRef j | openSignals n =>
    simp only [step, Option.ite_none_right_eq_some, Option.ite_none_left_eq_some,
      Option.some.injEq] at hst
    rw [← hst.2] at hi ⊢
    exact h i hi
  | newId | dropRef j | closeSignals k =>
    cases hst
    exact h i hi

/-- The cell of a task that was spawned with a fresh one. -/
theorem summary_of_run (hf : w₀.Fresh) (ht : w₀.tasks i = some (.initial config actor))
    (hstats : w₀.stats i = some .new) (hrun : w₀.run es = some w') :
    ∃ t, w'.tasks i = some t ∧ t.config = config ∧ t.Tallied (w₀.inputs i es) ∧
      w'.stats i = some (.summary config (w₀.inputs i es)) := by
  have hall := run_induction
    (motive := fun es v => v.Fresh ∧ ∃ t, v.tasks i = some t ∧ t.config = config ∧
      t.Tallied (w₀.inputs i es) ∧ v.stats i = some (.summary config (w₀.inputs i es)))
    ⟨hf, _, ht, rfl, Task.tallied_initial _ _, hstats⟩ ?_ hrun
  · exact hall.2
  · rintro es v e v' hrun ⟨hv, t, ht, hconfig, htallied, hcell⟩ hst
    refine ⟨hv.step hst, ?_⟩
    cases hx : v.input i e with
    | none =>
      obtain ⟨ht', -, hstats', -⟩ := frame_step hv ht hst hx
      rw [inputs_concat_of_none hrun hst hx]
      exact ⟨t, ht', hconfig, htallied, hstats'.trans hcell⟩
    | some x =>
      obtain ⟨t₁, w₁, t', ht₁, -, hstep, rfl⟩ := (input_eq_some.mp hx).step hst
      obtain rfl : t = t₁ := Option.some.inj (ht.symm.trans ht₁)
      rw [inputs_concat_of_some hrun hst hx]
      refine ⟨t', by simp [setTask], (Task.config_of_step hstep).trans hconfig,
        htallied.step hstep, ?_⟩
      rw [← hconfig, ← htallied.recordStats_summary hstep]
      simp [ActorMonitor.record, hcell, hconfig]

/-- The messages among the envelopes that a task takes. -/
theorem countP_isMsg : (w.inputs i es).countP Input.isMsg =
    (w.envelopes i es).countP Envelope.isMsg := by
  unfold envelopes
  induction w.inputs i es with
  | nil => rfl
  | cons x xs ih =>
    cases htaken : x.taken with
    | none =>
      have hmsg : x.isMsg = false := by
        unfold Input.isMsg
        split
        · cases htaken
        · rfl
      rw [List.filterMap_cons_none htaken, List.countP_cons, hmsg, ih]
      rfl
    | some env =>
      have hmsg : x.isMsg = env.isMsg := by
        unfold Input.taken at htaken
        split at htaken
        · subst htaken
          cases env <;> rfl
        · cases htaken
      rw [List.filterMap_cons_some htaken, List.countP_cons, List.countP_cons, hmsg, ih]

/-- **The statistics of an actor are the summary of its history**, in every run after its spawn in
which nobody else writes to them, and whatever its callbacks do. Of the messages that it has taken
from its mailbox all are counted as handled, but for the last one at most: that one is in progress,
or has failed and is what the actor ends with, or was lost in a panic of `on_handle_begin`. -/
theorem stats_spec (hw : w.Reachable)
    (hspawn : w.step (.spawn config actor supervisor) = some w₀) (hrun : w₀.run es = some w') :
    w'.stats ⟨w.nextId⟩ = some (.summary config (w₀.inputs ⟨w.nextId⟩ es)) ∧
      (w₀.inputs ⟨w.nextId⟩ es).countP Input.isMsg =
        (w₀.envelopes ⟨w.nextId⟩ es).countP Envelope.isMsg ∧
      ∃ t, w'.tasks ⟨w.nextId⟩ = some t ∧ t.Tallied (w₀.inputs ⟨w.nextId⟩ es) := by
  obtain ⟨htask, -⟩ := spawned_spec hspawn
  have hnone : w.stats ⟨w.nextId⟩ = none := by
    obtain ⟨es, hes⟩ := hw
    refine invariant_run (P := fun v : Runtime M A => ∀ i, v.tasks i = none → v.stats i = none)
      (fun h hst => stats_of_step h hst) (fun _ _ => rfl) hes _ ?_
    exact (Reachable.fresh ⟨es, hes⟩).tasks _ le_rfl
  have hcell : w₀.stats ⟨w.nextId⟩ = some .new := by
    obtain rfl := step_spawn_eq hspawn
    simp [ActorMonitor.register, hnone]
  obtain ⟨t, ht, -, htallied, hstats⟩ :=
    summary_of_run (hw.fresh.step hspawn) htask hcell hrun
  exact ⟨hstats, countP_isMsg, t, ht, htallied⟩

/-- Two messages are taken: one is handled in 5 ms, and the other one fails. -/
def failsSecond : List (RtEvent Unit Unit) :=
  let start : List Choice := [.poll, .preStart (.ok ())]
  let take : List Choice := [.recvControl false, .recvMailbox, .handleBegin (.ok ())]
  let outcomes : List Choice := [.handle .ok 5000000, .handle (.err "refused") 7000000]
  [.post ⟨1⟩ (.msg ()), .post ⟨1⟩ (.msg ())] ++
    (start ++ outcomes.flatMap fun outcome => take ++ [outcome]).map (.task ⟨1⟩)

/-- The statistics of the actor on its way out. -/
theorem stats_fails_second : ∃ w', oneActor.run failsSecond = some w' ∧
    w'.stats ⟨1⟩ = some ⟨1, 1, 0, 0, 0, 5, 5, 0⟩ ∧
    ∃ t, w'.tasks ⟨1⟩ = some t ∧ t.Tallied (oneActor.inputs ⟨1⟩ failsSecond) := by
  have hspawn : (init : Runtime Unit Unit).step (.spawn .default () none) = some oneActor := rfl
  have hsome : (oneActor.run failsSecond).isSome := rfl
  have hrun := (Option.some_get hsome).symm
  obtain ⟨hstats, -, htallied⟩ := stats_spec ⟨[], rfl⟩ hspawn hrun
  exact ⟨_, hrun, hstats, htallied⟩

end Runtime

end LaneSwitchboards
