import LaneSwitchboards.Lib.Transition
import LaneSwitchboards.Monitor

/-!
# The in-flight counter

A handle adds one to the counter of its actor when it begins and takes one off when it ends, in
one of four ways. Anybody may call the public operations of the monitor in between: `mark_inactive`
clears the counter, `unregister` forgets the cell, and `register` makes a new one where there is
none. An actor handles one message at a time, and each operation changes the counter with a single
atomic access, so operations are the steps. What another thread sees within a call, and the
snapshot of `get`, which loads the counters one after the other, are below this granularity.

A handle is `counted` while its one is in the counter. Where every handle that ends at a cell is
counted, the counter is the number of handles in progress, and the five counters account for the
messages begun: `inFlight_iff`. Where one is not, the counter wraps below zero.
-/

namespace LaneSwitchboards

open Function Transition

/-- How a handle ends. -/
inductive HandleEnd
  | finish (elapsed : Duration) (slowThreshold : Option Duration)
  | error
  | panic
  | timeout (elapsed : Duration)
deriving DecidableEq

/-- What is recorded of it. -/
def HandleEnd.record : HandleEnd → StatsCell → StatsCell
  | .finish elapsed slowThreshold => .finishHandle elapsed slowThreshold
  | .error => .recordError
  | .panic => .recordPanic
  | .timeout elapsed => .recordTimeout elapsed

/-- A call of the monitor. -/
inductive StatsEvent
  | register (i : ActorId)
  | unregister (i : ActorId)
  | markInactive (i : ActorId)
  /-- A read of the counters. -/
  | get (i : ActorId)
  | beginHandle (i : ActorId)
  | endHandle (i : ActorId) (how : HandleEnd)
deriving DecidableEq

namespace StatsEvent

/-- The id that the call is about. -/
def id : StatsEvent → ActorId
  | register i | unregister i | markInactive i | get i | beginHandle i | endHandle i _ => i

/-- The call is a public one that changes the cell of an id. -/
def Resets (i : ActorId) : StatsEvent → Prop
  | .register j | .unregister j | .markInactive j => j = i
  | _ => False

/-- The number of handles of an id that begin. -/
def begun (i : ActorId) (es : List StatsEvent) : ℕ := es.count (.beginHandle i)

end StatsEvent

namespace StatsCell

/-- The four outcomes and the handles in progress. -/
def total (c : StatsCell) : ℕ :=
  c.messagesHandled.toNat + c.handleErrors.toNat + c.panics.toNat + c.handleTimeouts.toNat +
    c.inFlight.toNat

/-- Their sum in the arithmetic of the counters. -/
def sum (c : StatsCell) : UInt64 :=
  c.messagesHandled + c.handleErrors + c.panics + c.handleTimeouts + c.inFlight

variable {c : StatsCell}

theorem inFlight_record (how : HandleEnd) (c : StatsCell) :
    (how.record c).inFlight = c.inFlight - 1 := by
  cases how <;> rfl

theorem sum_beginHandle (c : StatsCell) : c.beginHandle.sum = c.sum + 1 := by
  simp only [sum, beginHandle]
  grind

/-- The end of a handle counts for an outcome what it takes off the handles in progress. -/
theorem sum_record (how : HandleEnd) (c : StatsCell) : (how.record c).sum = c.sum := by
  cases how <;> simp only [sum, HandleEnd.record, finishHandle, recordError, recordPanic,
    recordTimeout] <;> grind

theorem total_beginHandle (h : c.inFlight = 0) : c.beginHandle.total = c.total + 1 := by
  simp [total, beginHandle, h]

/-- No counter overflows before the messages are too many to be counted. -/
theorem total_record (how : HandleEnd) (h : c.inFlight = 1) (hlt : c.total < 2 ^ 64) :
    (how.record c).total = c.total := by
  have hone : (1 : UInt64).toNat = 1 := rfl
  have hsucc {n : UInt64} (hn : n.toNat + 1 < 2 ^ 64) : (n + 1).toNat = n.toNat + 1 := by
    rw [UInt64.toNat_add, hone, Nat.mod_eq_of_lt hn]
  have hzero : (1 - 1 : UInt64).toNat = 0 := rfl
  simp only [total, h, hone] at hlt ⊢
  cases how <;> simp only [HandleEnd.record, finishHandle, recordError, recordPanic,
    recordTimeout, h, hzero] <;> rw [hsucc (by omega)] <;> omega

end StatsCell

/-- The monitor, and the handles in progress. -/
structure Handling where
  monitor : ActorMonitor
  /-- The actor handles a message. -/
  handling : ActorId → Bool
  /-- The id was registered when this handle began, and neither `unregister` nor `mark_inactive`
  was called for it since. -/
  counted : ActorId → Bool

namespace Handling

/-- Nobody is registered, and nobody handles a message. -/
def new : Handling := ⟨fun _ => none, fun _ => false, fun _ => false⟩

/-- One call. -/
def step (s : Handling) : StatsEvent → Option Handling
  | .register i => some { s with monitor := s.monitor.register i }
  | .unregister i => some
    { s with
      monitor := s.monitor.unregister i
      counted := update s.counted i false }
  | .markInactive i => some
    { s with
      monitor := s.monitor.record i .markInactive
      counted := update s.counted i false }
  | .get _ => some s
  | .beginHandle i =>
    if s.handling i then none else some
      { monitor := s.monitor.record i .beginHandle
        handling := update s.handling i true
        counted := update s.counted i (s.monitor i).isSome }
  | .endHandle i how =>
    if s.handling i then some
      { monitor := s.monitor.record i how.record
        handling := update s.handling i false
        counted := update s.counted i false }
    else none

/-- Execute a list of calls. -/
abbrev run : Handling → List StatsEvent → Option Handling := Transition.run step

/-- No counter exceeds the number of handles in progress. -/
def Bounded (s : Handling) : Prop :=
  ∀ i c, s.monitor i = some c → c.inFlight.toNat ≤ (s.handling i).toNat

/-- While nobody changes the cell of an id, its counters account for the messages begun. -/
def Accounts (s : Handling) (es : List StatsEvent) (s' : Handling) : Prop :=
  ∀ i c, (∀ e ∈ es, ¬ e.Resets i) → s.monitor i = some c →
    ∃ c', s'.monitor i = some c' ∧ c'.sum = c.sum + UInt64.ofNat (StatsEvent.begun i es) ∧
      (c.total + StatsEvent.begun i es < 2 ^ 64 → c'.total = c.total + StatsEvent.begun i es)

/-- A handle that ends while its id is registered is counted. -/
def EndsCounted (s : Handling) (e : StatsEvent) : Prop :=
  ∀ i how, e = .endHandle i how → (s.monitor i).isSome = true → s.counted i = true

/-- The counters are right. -/
structure Counted (s : Handling) (i : ActorId) : Prop where
  inFlight : ∀ c, s.monitor i = some c → c.inFlight = if s.counted i then 1 else 0
  handling : s.counted i = true → s.handling i = true
  registered : s.counted i = true → (s.monitor i).isSome = true

variable {s s' : Handling} {e : StatsEvent} {es : List StatsEvent} {i : ActorId} {c : StatsCell}

/-- What a call means for an id. -/
inductive At (i : ActorId) (s : Handling) (e : StatsEvent) (s' : Handling) : Prop
  | register (he : e.Resets i) (hc : s'.monitor i = some ((s.monitor i).getD .new))
      (hh : s'.handling i = s.handling i) (hcounted : s'.counted i = s.counted i)
  | unregister (he : e.Resets i) (hc : s'.monitor i = none)
      (hh : s'.handling i = s.handling i) (hcounted : s'.counted i = false)
  | markInactive (he : e.Resets i) (hc : s'.monitor i = (s.monitor i).map .markInactive)
      (hh : s'.handling i = s.handling i) (hcounted : s'.counted i = false)
  | beginHandle (he : e = .beginHandle i) (hc : s'.monitor i = (s.monitor i).map .beginHandle)
      (hidle : s.handling i = false) (hh : s'.handling i = true)
      (hcounted : s'.counted i = (s.monitor i).isSome)
  | endHandle (how : HandleEnd) (he : e = .endHandle i how)
      (hc : s'.monitor i = (s.monitor i).map how.record) (hbusy : s.handling i = true)
      (hh : s'.handling i = false) (hcounted : s'.counted i = false)
  | other (he : e ≠ .beginHandle i) (hend : ∀ how, e ≠ .endHandle i how)
      (hc : s'.monitor i = s.monitor i) (hh : s'.handling i = s.handling i)
      (hcounted : s'.counted i = s.counted i)

/-- **Frame**: a call about another id changes nothing here. -/
theorem step_of_ne (h : s.step e = some s') (hi : i ≠ e.id) :
    s'.monitor i = s.monitor i ∧ s'.handling i = s.handling i ∧ s'.counted i = s.counted i := by
  cases e with
  | register j =>
    cases h
    exact ⟨update_of_ne hi .., rfl, rfl⟩
  | unregister j | markInactive j =>
    cases h
    exact ⟨update_of_ne hi .., rfl, update_of_ne hi ..⟩
  | get j =>
    cases h
    exact ⟨rfl, rfl, rfl⟩
  | beginHandle j =>
    simp only [step, Option.ite_none_left_eq_some, Option.some.injEq] at h
    obtain ⟨-, rfl⟩ := h
    exact ⟨update_of_ne hi .., update_of_ne hi .., update_of_ne hi ..⟩
  | endHandle j how =>
    simp only [step, Option.ite_none_right_eq_some, Option.some.injEq] at h
    obtain ⟨-, rfl⟩ := h
    exact ⟨update_of_ne hi .., update_of_ne hi .., update_of_ne hi ..⟩

/-- **Inversion of a step**, at an id. -/
theorem step_at (h : s.step e = some s') (i : ActorId) : At i s e s' := by
  by_cases hi : i = e.id
  · subst hi
    cases e with
    | register j =>
      cases h
      exact .register rfl (update_self ..) rfl rfl
    | unregister j =>
      cases h
      exact .unregister rfl (update_self ..) rfl (update_self ..)
    | markInactive j =>
      cases h
      exact .markInactive rfl (update_self ..) rfl (update_self ..)
    | get j =>
      cases h
      exact .other (by simp) (by simp) rfl rfl rfl
    | beginHandle j =>
      simp only [step, Option.ite_none_left_eq_some, Option.some.injEq] at h
      obtain ⟨hidle, rfl⟩ := h
      exact .beginHandle rfl (update_self ..) (Bool.eq_false_of_not_eq_true hidle)
        (update_self ..) (update_self ..)
    | endHandle j how =>
      simp only [step, Option.ite_none_right_eq_some, Option.some.injEq] at h
      obtain ⟨hbusy, rfl⟩ := h
      exact .endHandle how rfl (update_self ..) hbusy (update_self ..) (update_self ..)
  · obtain ⟨hc, hh, hcounted⟩ := step_of_ne h hi
    refine .other ?_ (fun how => ?_) hc hh hcounted
    · rintro rfl
      exact hi rfl
    · rintro rfl
      exact hi rfl

/-! ### What keeps the counters right -/

theorem counted_new (i : ActorId) : new.Counted i where
  inFlight := fun _ h => by cases h
  handling := fun h => by cases h
  registered := fun h => by cases h

/-- Where no handle is counted the counter is zero. -/
theorem counted_of_eq_zero (hcounted : s.counted i = false)
    (hzero : ∀ c, s.monitor i = some c → c.inFlight = 0) : s.Counted i where
  inFlight := fun c hc => by
    rw [hcounted]
    exact hzero c hc
  handling := fun h => by
    rw [hcounted] at h
    cases h
  registered := fun h => by
    rw [hcounted] at h
    cases h

/-- An actor without a message has its counter at zero. -/
theorem Counted.inFlight_eq_zero (hs : s.Counted i) (hidle : s.handling i = false)
    (hc : s.monitor i = some c) : c.inFlight = 0 := by
  rw [hs.inFlight c hc, if_neg]
  intro hcounted
  rw [hs.handling hcounted] at hidle
  cases hidle

/-- **Every call keeps the counters right**, while each handle that ends at a cell is counted. -/
theorem Counted.step (hs : s.Counted i) (hends : s.EndsCounted e) (h : s.step e = some s') :
    s'.Counted i := by
  cases step_at h i with
  | register he hc hh hcounted =>
    refine ⟨fun c hc' => ?_, by rw [hcounted, hh]; exact hs.handling, fun _ => by rw [hc]; rfl⟩
    rw [hc, Option.some.injEq] at hc'
    rw [hcounted]
    cases hi : s.monitor i with
    | some d =>
      rw [hi] at hc'
      exact hs.inFlight c (hc' ▸ hi)
    | none =>
      rw [hi] at hc'
      rw [← hc', if_neg]
      · rfl
      · intro hcounted'
        have hcell := hs.registered hcounted'
        rw [hi] at hcell
        cases hcell
  | unregister he hc hh hcounted =>
    refine counted_of_eq_zero hcounted fun c hc' => ?_
    rw [hc] at hc'
    cases hc'
  | markInactive he hc hh hcounted =>
    refine counted_of_eq_zero hcounted fun c hc' => ?_
    rw [hc] at hc'
    obtain ⟨d, -, rfl⟩ := Option.map_eq_some_iff.mp hc'
    rfl
  | beginHandle he hc hidle hh hcounted =>
    refine ⟨fun c hc' => ?_, fun _ => hh, fun _ => ?_⟩
    · rw [hc] at hc'
      obtain ⟨d, hd, rfl⟩ := Option.map_eq_some_iff.mp hc'
      rw [hcounted, hd]
      change d.inFlight + 1 = 1
      rw [hs.inFlight_eq_zero hidle hd]
      rfl
    · rwa [hc, Option.isSome_map, ← hcounted]
  | endHandle how he hc hbusy hh hcounted =>
    refine counted_of_eq_zero hcounted fun c hc' => ?_
    rw [hc] at hc'
    obtain ⟨d, hd, rfl⟩ := Option.map_eq_some_iff.mp hc'
    have hone := hs.inFlight d hd
    rw [if_pos (hends i how he (by rw [hd]; rfl))] at hone
    rw [StatsCell.inFlight_record, hone]
    rfl
  | other he hend hc hh hcounted =>
    exact ⟨by rw [hc, hcounted]; exact hs.inFlight, by rw [hcounted, hh]; exact hs.handling,
      by rw [hcounted, hc]; exact hs.registered⟩

/-- Right counters do not exceed the handles in progress. -/
theorem bounded_of_counted (hs : ∀ i, s.Counted i) : s.Bounded := by
  intro i c hc
  rw [(hs i).inFlight c hc]
  split_ifs with hcounted
  · rw [(hs i).handling hcounted]
    exact le_rfl
  · exact Nat.zero_le _

/-- One call accounts for the message that it begins. -/
theorem Counted.account (hs : s.Counted i) (hends : s.EndsCounted e) (h : s.step e = some s')
    (hquiet : ¬ e.Resets i) (hc : s.monitor i = some c) :
    ∃ c', s'.monitor i = some c' ∧ c'.sum = c.sum + UInt64.ofNat (StatsEvent.begun i [e]) ∧
      (c.total < 2 ^ 64 → c'.total = c.total + StatsEvent.begun i [e]) := by
  have hnone (he : e ≠ .beginHandle i) : StatsEvent.begun i [e] = 0 :=
    List.count_eq_zero_of_not_mem fun hmem => he (List.mem_singleton.mp hmem).symm
  cases step_at h i with
  | register he | unregister he | markInactive he => exact absurd he hquiet
  | beginHandle he hc' hidle =>
    have hone : StatsEvent.begun i [e] = 1 := by rw [he]; exact List.count_singleton_self
    rw [hc, Option.map_some] at hc'
    refine ⟨_, hc', ?_, fun _ => ?_⟩
    · rw [hone]
      exact c.sum_beginHandle
    · rw [hone]
      exact StatsCell.total_beginHandle (hs.inFlight_eq_zero hidle hc)
  | endHandle how he hc' =>
    have hin := hs.inFlight c hc
    rw [if_pos (hends i how he (by rw [hc]; rfl))] at hin
    rw [hc, Option.map_some] at hc'
    rw [hnone (by rw [he]; exact fun heq => by cases heq)]
    refine ⟨_, hc', ?_, fun hlt => StatsCell.total_record how hin hlt⟩
    rw [StatsCell.sum_record]
    exact (add_zero c.sum).symm
  | other he hend hc' =>
    rw [hnone he]
    exact ⟨c, hc'.trans hc, (add_zero c.sum).symm, fun _ => rfl⟩

/-- **The counters account for the messages** of a run without public operations on the cell. -/
theorem accounts_run (hs : ∀ i, s.Counted i)
    (hends : Along step (fun s e _ => s.EndsCounted e) s es) (hrun : s.run es = some s') :
    s.Accounts es s' := by
  intro i
  induction es generalizing s with
  | nil =>
    cases hrun
    exact fun c _ hc => ⟨c, hc, (add_zero c.sum).symm, fun _ => rfl⟩
  | cons e es ih =>
    intro c hquiet hc
    obtain ⟨t, hst, hrest⟩ := Option.bind_eq_some_iff.mp hrun
    obtain ⟨hend, hends'⟩ := hends t hst
    obtain ⟨d, hd, hsum, htotal⟩ :=
      (hs i).account hend hst (hquiet e List.mem_cons_self) hc
    obtain ⟨c', hc', hsum', htotal'⟩ := ih (fun j => (hs j).step hend hst) hends' hrest d
      (fun e he => hquiet e (List.mem_cons_of_mem _ he)) hd
    have hbegun : StatsEvent.begun i (e :: es) =
        StatsEvent.begun i [e] + StatsEvent.begun i es := by
      rw [StatsEvent.begun, ← List.singleton_append, List.count_append]
      rfl
    refine ⟨c', hc', ?_, fun hlt => ?_⟩
    · rw [hsum', hsum, hbegun, UInt64.ofNat_add, UInt64.add_assoc]
    · rw [htotal' (by rw [htotal (by omega)]; omega), htotal (by omega)]
      omega

/-- A handle that is not counted takes the counter below zero. -/
theorem not_bounded_of_step (hs : ∀ i, s.Counted i) (hends : ¬ s.EndsCounted e)
    (h : s.step e = some s') : ¬ s'.Bounded := by
  simp only [EndsCounted, not_forall] at hends
  obtain ⟨i, how, rfl, hcell, hcounted⟩ := hends
  obtain ⟨c, hc⟩ := Option.isSome_iff_exists.mp hcell
  intro hbounded
  cases step_at h i with
  | register he | unregister he | markInactive he => exact he
  | beginHandle he => cases he
  | endHandle how' he hc' hbusy hh =>
    cases he
    rw [hc, Option.map_some] at hc'
    have hle := hbounded i _ hc'
    have hzero := (hs i).inFlight c hc
    rw [if_neg hcounted] at hzero
    rw [hh, StatsCell.inFlight_record, hzero] at hle
    exact absurd hle (by decide)
  | other he hend => exact hend how rfl

/-- **The in-flight counter.** For every interleaving of the handles of any actors with calls of
the public operations: no counter ever exceeds the number of handles in progress, and in every
stretch without a public operation on the cell, other than a read, its five counters account for
the messages begun, exactly when each handle that ends while its id is registered began while it
was, with neither `unregister` nor `mark_inactive` in between. -/
theorem inFlight_iff (es : List StatsEvent) :
    (Always step Bounded new es ∧
      ∀ before fs after, es = before ++ (fs ++ after) →
        ∀ s s', new.run before = some s → s.run fs = some s' → s.Accounts fs s') ↔
    Along step (fun s e _ => s.EndsCounted e) new es := by
  have hstart : ∀ i, new.Counted i := counted_new
  constructor
  · rintro ⟨halways, -⟩
    refine along_of_invariant (P := fun s : Handling => ∀ i, s.Counted i)
      (fun {s e s'} hs hbounded hst => ?_) hstart halways.along
    have hends : s.EndsCounted e := by
      by_contra hnot
      exact not_bounded_of_step hs hnot hst hbounded
    exact ⟨fun i => (hs i).step hends hst, hends⟩
  · intro hends
    have halways : Always step (fun s => ∀ i, s.Counted i) new es :=
      always_of_invariant (fun hs hend hst i => (hs i).step hend hst) hstart hends
    refine ⟨halways.mono bounded_of_counted, ?_⟩
    rintro before fs after rfl s s' hbefore hrun
    obtain ⟨-, hrest⟩ := along_append.mp hends
    have hs : ∀ i, s.Counted i := (always_append.mp halways).1.last hbefore
    exact accounts_run hs (along_append.mp (hrest s hbefore)).1 hrun

/-- `mark_inactive` while a message is handled. -/
def clearedMidway : List StatsEvent :=
  [.register ⟨1⟩, .beginHandle ⟨1⟩, .markInactive ⟨1⟩, .endHandle ⟨1⟩ (.finish 0 none)]

/-- A new cell while a message is handled. -/
def replacedMidway : List StatsEvent :=
  [.register ⟨1⟩, .beginHandle ⟨1⟩, .unregister ⟨1⟩, .register ⟨1⟩, .endHandle ⟨1⟩ .error]

/-- Both leave the counter of an idle actor at the largest number. -/
theorem inFlight_wraps :
    (∃ s c, new.run clearedMidway = some s ∧ s.monitor ⟨1⟩ = some c ∧
      s.handling ⟨1⟩ = false ∧ c.inFlight.toNat = 2 ^ 64 - 1) ∧
    (∃ s c, new.run replacedMidway = some s ∧ s.monitor ⟨1⟩ = some c ∧
      s.handling ⟨1⟩ = false ∧ c.inFlight.toNat = 2 ^ 64 - 1) ∧
    ¬ Always step Bounded new clearedMidway := by
  refine ⟨⟨_, _, rfl, rfl, rfl, by decide⟩, ⟨_, _, rfl, rfl, rfl, by decide⟩, fun h => ?_⟩
  have hrun : new.run clearedMidway = some _ := rfl
  have hle := h.last hrun ⟨1⟩ _ rfl
  exact absurd hle (by decide)

end Handling

end LaneSwitchboards
