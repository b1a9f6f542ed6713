import LaneSwitchboards.Actor.Effects
import LaneSwitchboards.Actor.Moves
import LaneSwitchboards.Actor.Stages
import LaneSwitchboards.Lib.Trace

/-!
# The history of a task

Along a run of the runtime a task observes a list of inputs (`Runtime.inputs`), and it runs on
these alone (`run_inputs`): what happens to a task is a statement about the runs of `Task.step`.
The envelopes among the inputs are the start of the history of its mailbox, and up to the end of
the task the rest of it is queued (`envelopes_spec`).
-/

namespace LaneSwitchboards

open Function Transition

variable {M A : Type}

/-- The envelope that the input takes from the mailbox. -/
def Input.taken : Input M A → Option (Envelope M A)
  | .envelope e => e
  | _ => none

namespace Task

/-- A task as it is spawned. -/
def initial (config : ActorConfig) (actor : A) : Task M A := ⟨.spawned, actor, ∅, [], config⟩

/-- Execute a list of inputs. -/
abbrev run : Task M A → List (Input M A) → Option (Task M A) := Transition.run step

variable {t t' : Task M A} {x : Input M A} {xs : List (Input M A)} {config : ActorConfig} {a : A}

theorem termination_initial : (initial config a : Task M A).phase.termination ≠ some .panicked := by
  simp [initial, Phase.termination]

theorem termination_of_panicked (h : t.step .panicked = some t') :
    t'.phase = .done .panicked := by
  unfold step at h
  split at h
  all_goals try cases h
  all_goals try contradiction
  split at h <;> cases h
  rfl

/-- A task that ends where it is, ends by a panic. -/
theorem eq_panicked_of_termination (h : t.step x = some t')
    (hp : t.phase.termination ≠ some .panicked) (hp' : t'.phase.termination = some .panicked) :
    x = .panicked := by
  rcases step_progress h with ⟨-, -, hrun⟩ | ⟨r, -, -, -, hq⟩ | ⟨r, k, -, -, hq⟩ | ⟨r, -, -, hq⟩ |
    ⟨r, k, -, -, hq⟩ | ⟨r, -, -, hq⟩ | ⟨-, -, hq⟩ | ⟨e, he, -, he'⟩ | ⟨-, hx, -⟩
  · rw [Phase.termination_of_running hrun] at hp'
    cases hp'
  · rw [hq] at hp'
    cases hp'
  · rw [hq] at hp'
    cases hp'
  · rw [hq] at hp'
    cases hp'
  · rw [hq] at hp'
    cases hp'
  · rw [hq] at hp'
    cases hp'
  · rw [hq] at hp'
    cases hp'
  · exact absurd (he.trans (he'.symm.trans hp')) hp
  · exact hx

/-- **A panic** that escapes is the last thing that a task observes. -/
theorem panicked_run {s : Task M A} (hs : s.phase.termination ≠ some .panicked)
    (h : s.run xs = some t) :
    (t.phase.termination = some .panicked ↔ .panicked ∈ xs) ∧
    (.panicked ∈ xs → t.phase = .done .panicked) := by
  refine run_induction
    (motive := fun xs t => (t.phase.termination = some .panicked ↔ .panicked ∈ xs) ∧
      (.panicked ∈ xs → t.phase = .done .panicked)) ?_ ?_ h
  · exact ⟨iff_of_false hs List.not_mem_nil, fun h => by cases h⟩
  · rintro xs t x t' - ⟨hiff, hdone⟩ hst
    have hnot : .panicked ∉ xs := fun hmem => by
      have hlive := (step_move hst).not_isDone
      rw [hdone hmem] at hlive
      cases hlive
    have hone : (.panicked ∈ xs ++ [x]) ↔ x = .panicked := by
      rw [List.mem_append, or_iff_right hnot, List.mem_singleton, eq_comm]
    rw [hone]
    have hphase : x = .panicked → t'.phase = .done .panicked := by
      rintro rfl
      exact termination_of_panicked hst
    refine ⟨⟨eq_panicked_of_termination hst (mt hiff.mp hnot), fun hx => ?_⟩, hphase⟩
    rw [hphase hx]
    rfl

end Task

namespace Runtime

/-- What the task of `i` observes at an event, if the event is a step of it. -/
def input (w : Runtime M A) (i : ActorId) : RtEvent M A → Option (Input M A)
  | .task j c =>
    if j = i then (w.tasks j).bind fun t => (w.observe j t.phase c).map Prod.fst else none
  | _ => none

/-- What the task of `i` observes along a run. -/
def inputs (w : Runtime M A) (i : ActorId) (es : List (RtEvent M A)) : List (Input M A) :=
  trace Runtime.step (fun w e _ => (w.input i e).toList) w es

/-- The envelopes that the task of `i` takes along a run. -/
def envelopes (w : Runtime M A) (i : ActorId) (es : List (RtEvent M A)) : List (Envelope M A) :=
  (w.inputs i es).filterMap Input.taken

variable {w w' w₀ w₁ : Runtime M A} {i j : ActorId} {e : RtEvent M A} {es : List (RtEvent M A)}
  {t t' : Task M A} {x : Input M A} {p : Phase M} {config : ActorConfig} {a : A}

theorem input_eq_some : w.input i e = some x ↔ w.Observes i e x := by
  constructor
  · intro h
    cases e with
    | task j c =>
      simp only [input, Option.ite_none_right_eq_some, Option.bind_eq_some_iff,
        Option.map_eq_some_iff, Prod.exists] at h
      obtain ⟨rfl, t, ht, y, w₁, hobs, rfl⟩ := h
      exact ⟨c, t, w₁, rfl, ht, hobs⟩
    | _ => cases h
  · rintro ⟨c, t, w₁, rfl, ht, hobs⟩
    simp [input, ht, hobs]

/-! ### One event, seen from one task -/

/-- Another task's access to the shared state leaves the mailbox alone. -/
theorem Access.mailbox_of_ne (h : Access w j p x w₁) (hne : i ≠ j) :
    w₁.mailbox i = w.mailbox i := by
  cases h <;> simp [setMailbox, setControl, setSignals, dropReceivers, update_of_ne hne]

/-- The task's own access takes what it observes from the mailbox, or drops it. -/
theorem Access.mailbox_own (h : Access w i p x w₁) :
    (w₁.mailbox i).accepted = (w.mailbox i).accepted ∧
    ((w.mailbox i).queue = x.taken.toList ++ (w₁.mailbox i).queue ∨
      x = .finished ∨ x = .panicked) := by
  cases h with
  | recvMailbox h =>
    obtain ⟨hqueue, hch⟩ := Chan.recv_eq_some.mp h
    refine ⟨?_, Or.inl ?_⟩
    · simp [setMailbox, Chan.accepted_recv h]
    · simpa [setMailbox, Input.taken] using hqueue
  | internal hx =>
    refine ⟨rfl, Or.inl ?_⟩
    cases x <;> first | rfl | cases hx
  | finish => exact ⟨by simp [dropReceivers], Or.inr (Or.inl rfl)⟩
  | panic => exact ⟨by simp [dropReceivers], Or.inr (Or.inr rfl)⟩
  | _ => exact ⟨rfl, Or.inl rfl⟩

/-- **An event that is no step of the task** leaves it where it is, with its registry entry and
its statistics; its mailbox may take a request. -/
theorem frame_step (hf : w.Fresh) (ht : w.tasks i = some t) (h : w.step e = some w')
    (hx : w.input i e = none) : w'.tasks i = some t ∧ w'.registry i = w.registry i ∧
    w'.stats i = w.stats i ∧
    (w'.mailbox i = w.mailbox i ∨ ∃ env, w'.mailbox i = (w.mailbox i).push env) := by
  cases e with
  | task j c =>
    obtain ⟨s, y, w₁, s', hs, hobs, -, rfl⟩ := taskStep_inv h
    have hne : i ≠ j := by
      rintro rfl
      rw [input_eq_some.mpr ⟨c, s, w₁, rfl, hs, hobs⟩] at hx
      cases hx
    have hacc := observe_access hobs
    refine ⟨?_, ?_, ?_, Or.inl (hacc.mailbox_of_ne hne)⟩
    · simp [setTask, update_of_ne hne, hacc.frame.1, ht]
    · rcases hacc.registry with hreg | ⟨-, hreg⟩ <;> simp [setTask, hreg, update_of_ne hne]
    · simp [ActorMonitor.record, update_of_ne hne]
  | spawn config actor supervisor =>
    obtain rfl := step_spawn_eq h
    have hne := hf.ne_nextId ht
    simp [update_of_ne hne, ActorMonitor.register, ht]
  | post j env =>
    obtain ⟨-, rfl⟩ := step_post h
    refine ⟨ht, rfl, rfl, ?_⟩
    by_cases hj : i = j
    · subst hj
      exact Or.inr ⟨env, by simp [setMailbox]⟩
    · exact Or.inl (by simp [setMailbox, update_of_ne hj])
  | recvSignal k =>
    obtain ⟨a, -, rfl⟩ := Option.map_eq_some_iff.mp h
    exact ⟨ht, rfl, rfl, Or.inl rfl⟩
  | cloneRef i | openSignals n =>
    simp only [step, Option.ite_none_right_eq_some, Option.ite_none_left_eq_some,
      Option.some.injEq] at h
    rw [← h.2]
    exact ⟨ht, rfl, rfl, Or.inl rfl⟩
  | newId | dropRef i | closeSignals k =>
    cases h
    exact ⟨ht, rfl, rfl, Or.inl rfl⟩

/-! ### A run, seen from one task -/

theorem inputs_concat_of_none {v : Runtime M A} (hrun : w.run es = some v)
    (h : v.step e = some w') (hx : v.input i e = none) :
    w.inputs i (es ++ [e]) = w.inputs i es := by
  rw [inputs, trace_concat hrun h, hx]
  exact List.append_nil _

theorem inputs_concat_of_some {v : Runtime M A} (hrun : w.run es = some v)
    (h : v.step e = some w') (hx : v.input i e = some x) :
    w.inputs i (es ++ [e]) = w.inputs i es ++ [x] := by
  rw [inputs, trace_concat hrun h, hx]
  rfl

/-- **A task runs on what it observes.** -/
theorem run_inputs (hf : w.Fresh) (ht : w.tasks i = some t) (h : w.run es = some w') :
    ∃ t', t.run (w.inputs i es) = some t' ∧ w'.tasks i = some t' := by
  have hsim : ∀ {v : Runtime M A} {s : Task M A} {e : RtEvent M A} {v' : Runtime M A},
      v.Fresh ∧ v.tasks i = some s → v.step e = some v' →
        ∃ s', s.run (v.input i e).toList = some s' ∧ v'.Fresh ∧ v'.tasks i = some s' := by
    rintro v s e v' ⟨hv, hs⟩ hst
    cases hx : v.input i e with
    | none =>
      obtain ⟨hs', -⟩ := frame_step hv hs hst hx
      exact ⟨s, rfl, hv.step hst, hs'⟩
    | some x =>
      have hv' := hv.step hst
      obtain ⟨s₁, w₁, s', hs₁, -, hstep, rfl⟩ := (input_eq_some.mp hx).step hst
      obtain rfl : s = s₁ := Option.some.inj (hs.symm.trans hs₁)
      exact ⟨s', by simp [hstep], hv', by simp [setTask]⟩
  obtain ⟨t', hrun, -, ht'⟩ := run_trace hsim ⟨hf, ht⟩ h
  exact ⟨t', hrun, ht'⟩

/-- A panic has escaped from the callbacks of a task that has ended if it has ended by one. -/
theorem panicked_mem_inputs {p : Termination} (hf : w.Fresh)
    (ht : w.tasks i = some (.initial config a)) (h : w.run es = some w')
    (hdone : w'.phase i = some (.done p)) : .panicked ∈ w.inputs i es ↔ p = .panicked := by
  obtain ⟨t, hrun, ht'⟩ := run_inputs hf ht h
  have hphase : t.phase = .done p := by simpa [phase, ht'] using hdone
  rw [← (Task.panicked_run Task.termination_initial hrun).1, hphase]
  exact Option.some_inj

/-- None has escaped yet while the task goes on. -/
theorem not_panicked_of_live (hf : w.Fresh) (ht : w.tasks i = some (.initial config a))
    (h : w.run es = some w') (ht' : w'.tasks i = some t') (hlive : t'.phase.isDone = false) :
    .panicked ∉ w.inputs i es := by
  obtain ⟨s, hrun, hs⟩ := run_inputs hf ht h
  obtain rfl : t' = s := Option.some.inj (ht'.symm.trans hs)
  intro hmem
  rw [(Task.panicked_run Task.termination_initial hrun).2 hmem] at hlive
  cases hlive

/-- **The envelopes that a task takes** are the start of the history of its mailbox; until the
task has ended the rest of it is queued. -/
theorem envelopes_spec (hf : w.Fresh) (ht : w.tasks i = some t)
    (hempty : (w.mailbox i).accepted = (w.mailbox i).queue) (h : w.run es = some w') :
    w.envelopes i es <+: (w'.mailbox i).accepted ∧
    ∀ t', w'.tasks i = some t' → t'.phase.isDone = false →
      (w'.mailbox i).accepted = w.envelopes i es ++ (w'.mailbox i).queue := by
  have hall := run_induction
    (motive := fun es v => v.Fresh ∧ (∃ t', v.tasks i = some t') ∧
      w.envelopes i es <+: (v.mailbox i).accepted ∧
      ∀ t', v.tasks i = some t' → t'.phase.isDone = false →
        (v.mailbox i).accepted = w.envelopes i es ++ (v.mailbox i).queue)
    ⟨hf, ⟨t, ht⟩, List.nil_prefix, fun _ _ _ => hempty⟩ ?_ h
  · exact hall.2.2
  · rintro es v e v' hrun ⟨hv, ⟨s, hs⟩, hfirst, hrest⟩ hst
    cases hx : v.input i e with
    | none =>
      obtain ⟨hs', -, -, hmailbox⟩ := frame_step hv hs hst hx
      have hsame : w.envelopes i (es ++ [e]) = w.envelopes i es := by
        rw [envelopes, inputs_concat_of_none hrun hst hx]
        rfl
      refine ⟨hv.step hst, ⟨s, hs'⟩, ?_, fun t' ht' hdone => ?_⟩
      · rw [hsame]
        exact hfirst.trans (hv.accepted_grows hst i)
      · obtain rfl : s = t' := Option.some.inj (hs'.symm.trans ht')
        rw [hsame]
        rcases hmailbox with heq | ⟨env, heq⟩
        · rw [heq]
          exact hrest s hs hdone
        · rw [heq, Chan.accepted_push, Chan.queue_push, hrest s hs hdone, List.append_assoc]
    | some x =>
      obtain ⟨s₁, w₁, s', hs₁, hacc, hstep, hv'⟩ := (input_eq_some.mp hx).step hst
      obtain rfl : s = s₁ := Option.some.inj (hs.symm.trans hs₁)
      have hmove := Task.step_move hstep
      have hqueue := hrest s hs hmove.not_isDone
      have htask : v'.tasks i = some s' := by simp [hv', setTask]
      have hmailbox : v'.mailbox = w₁.mailbox := by rw [hv']; rfl
      have hnew : w.envelopes i (es ++ [e]) = w.envelopes i es ++ x.taken.toList := by
        rw [envelopes, inputs_concat_of_some hrun hst hx, List.filterMap_append]
        cases htaken : x.taken <;> simp [htaken, envelopes]
      obtain ⟨haccepted, hown⟩ := hacc.mailbox_own
      have hsplit : ∀ t', v'.tasks i = some t' → t'.phase.isDone = false →
          (v'.mailbox i).accepted = w.envelopes i (es ++ [e]) ++ (v'.mailbox i).queue := by
        intro t' ht' hdone
        obtain rfl : s' = t' := Option.some.inj (htask.symm.trans ht')
        rcases hown with hown | hlast
        · rw [hmailbox, haccepted, hqueue, hown, hnew, List.append_assoc]
        · rw [hmove.isDone_iff.mpr hlast] at hdone
          cases hdone
      refine ⟨hv.step hst, ⟨s', htask⟩, ?_, hsplit⟩
      by_cases hdone : s'.phase.isDone = false
      · rw [hsplit s' htask hdone]
        exact List.prefix_append _ _
      · have htaken : x.taken = none := by
          rcases hmove.isDone_iff.mp (Bool.of_not_eq_false hdone) with rfl | rfl <;> rfl
        rw [hnew, htaken, Option.toList_none, List.append_nil, hmailbox, haccepted]
        exact hfirst

/-- A task as it is spawned. -/
theorem spawned_spec {config : ActorConfig} {actor : A} {supervisor : Option SupId}
    (h : w.step (.spawn config actor supervisor) = some w₀) :
    w₀.tasks ⟨w.nextId⟩ = some (.initial config actor) ∧
    (w₀.mailbox ⟨w.nextId⟩).accepted = (w₀.mailbox ⟨w.nextId⟩).queue ∧
    (w₀.registry ⟨w.nextId⟩).isSome = true ∧ (w₀.stats ⟨w.nextId⟩).isSome = true := by
  obtain rfl := step_spawn_eq h
  simp [Chan.new, ActorMonitor.register, Task.initial]

end Runtime

end LaneSwitchboards
