import LaneSwitchboards.Actor.Effects
import LaneSwitchboards.Actor.Moves
import LaneSwitchboards.Actor.Stages

/-!
# How an actor is wired to the others

An actor is in the registry as long as its end is not fixed, and its control channel has a
receiver until its task is done (`Wired`). So a lookup of a running actor finds it, and what is
sent to it is queued.
-/

namespace LaneSwitchboards

namespace Runtime

open Function

variable {M A : Type} {w w' w₁ : Runtime M A} {i j : ActorId} {p : Phase M} {x : Input M A}
  {e : RtEvent M A} {c : Choice} {t t' : Task M A}

/-- **Inversion of a task event**, with the move it makes. -/
theorem task_move (h : w.step (.task i c) = some w') : ∃ t x w₁ t',
    w.tasks i = some t ∧ (∀ j y, w.Observes j (.task i c) y ↔ j = i ∧ y = x) ∧
      Access w i t.phase x w₁ ∧ t.step x = some t' ∧ Move t x t' ∧
      w'.tasks = update w.tasks i (some t') ∧ w'.control = w₁.control ∧
      w'.registry = w₁.registry := by
  obtain ⟨t, x, w₁, t', ht, hx, hstep, rfl⟩ := taskStep_inv h
  have hacc := observe_access hx
  refine ⟨t, x, w₁, t', ht, fun j y => ?_, hacc, hstep, Task.step_move hstep,
    by simp [setTask, hacc.frame.1], rfl, rfl⟩
  constructor
  · intro hobs
    obtain ⟨_, _, _, heq, -⟩ := id hobs
    obtain rfl : i = j := (RtEvent.task.inj heq).1
    exact ⟨rfl, (observes_task ht hx).mp hobs⟩
  · rintro ⟨rfl, rfl⟩
    exact (observes_task ht hx).mpr rfl

namespace Access

/-- A control channel loses its receiver only with its own task. -/
theorem isOpen_control (h : Access w i p x w₁) (j : ActorId) :
    (w₁.control j).isOpen = (w.control j).isOpen ∨
      j = i ∧ (x = .finished ∨ x = .panicked) ∧ w₁.control j = (w.control j).close := by
  cases h with
  | recvControl h =>
    by_cases hj : j = i
    · subst hj
      exact Or.inl (by simp [setControl, Chan.isOpen_recv h])
    · exact Or.inl (by simp [setControl, update_of_ne hj])
  | @sendLink peer ch h | @sendLinkedExit _ peer _ ch h =>
    by_cases hj : j = peer
    · subst hj
      exact Or.inl (by simp [setControl, Chan.isOpen_send h])
    · exact Or.inl (by simp [setControl, update_of_ne hj])
  | finish | panic =>
    by_cases hj : j = i
    · subst hj
      exact Or.inr ⟨rfl, by simp, by simp [dropReceivers]⟩
    · exact Or.inl (by simp [dropReceivers, update_of_ne hj])
  | _ => exact Or.inl rfl

/-- A task that drops its receivers. -/
theorem control_dropped (h : Access w i p x w₁) (hx : x = .finished ∨ x = .panicked) :
    w₁.control i = (w.control i).close := by
  rcases hx with rfl | rfl <;> cases h <;> first
    | contradiction
    | simp [dropReceivers]

/-- Nothing enters a control channel without a receiver. -/
theorem queue_control_closed (h : Access w i p x w₁) (hopen : (w.control j).isOpen = false)
    (hq : (w.control j).queue = []) : (w₁.control j).queue = [] := by
  by_contra hne
  obtain ⟨m, hm⟩ := List.exists_mem_of_ne_nil _ hne
  have hclosed : ∀ {m ch}, (w.control j).send m = some ch → ch.queue = [] := by
    intro m ch hsend
    rcases Chan.send_eq_some.mp hsend with ⟨hroom, -⟩ | ⟨-, rfl⟩
    · rw [Chan.isOpen_of_hasRoom hroom] at hopen
      cases hopen
    · exact hq
  cases h with
  | recvControl h =>
    by_cases hj : j = i
    · subst hj
      rw [(Chan.recv_eq_some.mp h).1] at hq
      cases hq
    · exact hne (by simp [setControl, update_of_ne hj, hq])
  | @sendLink peer ch h | @sendLinkedExit _ peer _ ch h =>
    by_cases hj : j = peer
    · subst hj
      exact hne (by simp [setControl, hclosed h])
    · exact hne (by simp [setControl, update_of_ne hj, hq])
  | finish | panic =>
    by_cases hj : j = i
    · subst hj
      exact hne (by simp [dropReceivers])
    · exact hne (by simp [dropReceivers, update_of_ne hj, hq])
  | _ => exact hne hq

end Access

/-- How the actor `i` is wired. -/
structure Wired (w : Runtime M A) (i : ActorId) : Prop where
  /-- Before its spawn it has no registry entry. -/
  absent : w.tasks i = none → w.registry i = none
  registered : ∀ t, w.tasks i = some t → t.phase.termination = none → (w.registry i).isSome = true
  /-- The receiver of its control channel lives as long as its task. -/
  isOpen : (w.control i).isOpen = true ↔ ∃ t, w.tasks i = some t ∧ t.phase.isDone = false
  closed : (w.control i).isOpen = false → (w.control i).queue = []

theorem wired_init (i : ActorId) : (init : Runtime M A).Wired i where
  absent _ := rfl
  registered t ht := by cases ht
  isOpen := ⟨fun h => (by cases h), fun ⟨_, ht, _⟩ => (by cases ht)⟩
  closed _ := rfl

theorem Wired.step_own (hw : w.Wired i) (h : w.step (.task i c) = some w') : w'.Wired i := by
  obtain ⟨t, x, w₁, t', ht, -, hacc, hstep, hmove, htasks, hcontrol, hregistry⟩ := task_move h
  have hopen : (w.control i).isOpen = true := hw.isOpen.mpr ⟨t, ht, hmove.not_isDone⟩
  have htask : w'.tasks i = some t' := by rw [htasks, update_self]
  refine ⟨fun hnone => ?_, fun t'' ht'' hend => ?_, ?_, fun hclosed => ?_⟩
  · rw [htask] at hnone
    cases hnone
  · obtain rfl : t' = t'' := Option.some.inj (htask.symm.trans ht'')
    rcases hacc.registry with hreg | ⟨rfl, -⟩
    · rw [hregistry, hreg]
      exact hw.registered t ht (Task.termination_of_step hstep hend)
    · exact absurd hend (Task.termination_unregistered hstep)
  · rw [hcontrol]
    by_cases hx : x = .finished ∨ x = .panicked
    · have hdone := hmove.isDone_iff.mpr hx
      refine iff_of_false (by simp [hacc.control_dropped hx]) ?_
      rintro ⟨t'', ht'', hnot⟩
      obtain rfl : t' = t'' := Option.some.inj (htask.symm.trans ht'')
      rw [hdone] at hnot
      cases hnot
    · have hnot : t'.phase.isDone = false := by
        rw [← Bool.not_eq_true, hmove.isDone_iff]
        exact hx
      refine iff_of_true ?_ ⟨t', htask, hnot⟩
      rcases hacc.isOpen_control i with hsame | ⟨-, hx', -⟩
      · exact hsame.trans hopen
      · exact absurd hx' hx
  · rw [hcontrol] at hclosed ⊢
    by_cases hx : x = .finished ∨ x = .panicked
    · rw [hacc.control_dropped hx]
      rfl
    · rcases hacc.isOpen_control i with hsame | ⟨-, hx', -⟩
      · cases (hsame.trans hopen).symm.trans hclosed
      · exact absurd hx' hx

theorem Wired.step_other (hw : w.Wired i) (h : w.step (.task j c) = some w') (hne : i ≠ j) :
    w'.Wired i := by
  obtain ⟨t, x, w₁, t', -, -, hacc, -, -, htasks, hcontrol, hregistry⟩ := task_move h
  have htask : w'.tasks i = w.tasks i := by rw [htasks, update_of_ne hne]
  have hreg : w'.registry i = w.registry i := by
    rw [hregistry]
    rcases hacc.registry with hreg | ⟨-, hreg⟩
    · rw [hreg]
    · rw [hreg, update_of_ne hne]
  have hopen : (w'.control i).isOpen = (w.control i).isOpen := by
    rw [hcontrol]
    rcases hacc.isOpen_control i with hsame | ⟨rfl, -⟩
    · exact hsame
    · exact absurd rfl hne
  refine ⟨fun hnone => ?_, fun s hs hend => ?_, ?_, fun hclosed => ?_⟩
  · rw [hreg]
    exact hw.absent (htask.symm.trans hnone)
  · rw [hreg]
    exact hw.registered s (htask.symm.trans hs) hend
  · rw [hopen, htask]
    exact hw.isOpen
  · have hclosed' := hopen.symm.trans hclosed
    rw [hcontrol]
    exact hacc.queue_control_closed hclosed' (hw.closed hclosed')

theorem Wired.step (hw : w.Wired i) (h : w.step e = some w') : w'.Wired i := by
  cases e with
  | task j c =>
    by_cases hi : i = j
    · subst hi
      exact hw.step_own h
    · exact hw.step_other h hi
  | spawn config actor supervisor =>
    obtain rfl := step_spawn_eq h
    by_cases hi : i = ⟨w.nextId⟩
    · subst hi
      refine ⟨fun hnone => ?_, fun t ht hend => ?_, ?_, fun hclosed => ?_⟩
      · simp at hnone
      · simp
      · exact iff_of_true (by simp [Chan.new]) ⟨_, update_self .., rfl⟩
      · simp [Chan.new] at hclosed
    · refine ⟨fun hnone => ?_, fun t ht hend => ?_, ?_, fun hclosed => ?_⟩
      · simp only [update_of_ne hi] at hnone ⊢
        exact hw.absent hnone
      · simp only [update_of_ne hi] at ht ⊢
        exact hw.registered t ht hend
      · simp only [update_of_ne hi]
        exact hw.isOpen
      · simp only [update_of_ne hi] at hclosed ⊢
        exact hw.closed hclosed
  | _ =>
    obtain ⟨htasks, hcontrol, hregistry⟩ := env_frame h rfl
    refine ⟨fun hnone => ?_, fun t ht hend => ?_, ?_, fun hclosed => ?_⟩
    · rw [hregistry]
      exact hw.absent (htasks ▸ hnone)
    · rw [hregistry]
      exact hw.registered t (htasks ▸ ht) hend
    · rw [htasks, hcontrol]
      exact hw.isOpen
    · rw [hcontrol] at hclosed ⊢
      exact hw.closed hclosed

/-- **Every actor is wired.** -/
theorem Reachable.wired (h : w.Reachable) (i : ActorId) : w.Wired i := by
  obtain ⟨es, hes⟩ := h
  exact Transition.invariant_run (P := fun w : Runtime M A => w.Wired i)
    (fun hw hst => hw.step hst) (wired_init i) hes

/-- The control channel of an actor that has no task, or one that is done, is empty. -/
theorem Wired.queue_eq_nil (hw : w.Wired i)
    (h : ∀ t, w.tasks i = some t → t.phase.isDone = true) : (w.control i).queue = [] := by
  refine hw.closed ?_
  rw [← Bool.not_eq_true, hw.isOpen]
  rintro ⟨t, ht, hnot⟩
  rw [h t ht] at hnot
  cases hnot

/-- **What is queued stays queued** until its receiver takes it or drops it. -/
theorem control_kept {m : ControlMsg} (hw : w.Reachable) (h : w.step e = some w')
    (hm : m ∈ (w.control j).queue) : m ∈ (w'.control j).queue ∨
      (∃ trap, w.Observes j e (.control (some m) trap)) ∨
      w.Observes j e .finished ∨ w.Observes j e .panicked := by
  cases e with
  | task i c =>
    obtain ⟨t, x, w₁, t', ht, hobs, hacc, -, -, -, hcontrol, -⟩ := task_move h
    rw [hcontrol]
    generalize t.phase = p at hacc
    cases hacc with
    | @recvControl m' trap ch hrecv =>
      by_cases hj : j = i
      · subst hj
        obtain ⟨hq, -⟩ := Chan.recv_eq_some.mp hrecv
        rw [hq] at hm
        rcases List.mem_cons.mp hm with rfl | hm
        · exact Or.inr (Or.inl ⟨trap, (hobs _ _).mpr ⟨rfl, rfl⟩⟩)
        · exact Or.inl (by simpa [setControl] using hm)
      · exact Or.inl (by simpa [setControl, update_of_ne hj] using hm)
    | @sendLink peer ch hsend | @sendLinkedExit _ peer _ ch hsend =>
      refine Or.inl ?_
      by_cases hj : j = peer
      · subst hj
        rcases Chan.send_eq_some.mp hsend with ⟨-, rfl⟩ | ⟨-, rfl⟩
        · simpa [setControl] using Or.inl hm
        · simpa [setControl] using hm
      · simpa [setControl, update_of_ne hj] using hm
    | finish =>
      by_cases hj : j = i
      · exact Or.inr (Or.inr (Or.inl ((hobs _ _).mpr ⟨hj, rfl⟩)))
      · exact Or.inl (by simpa [dropReceivers, update_of_ne hj] using hm)
    | panic =>
      by_cases hj : j = i
      · exact Or.inr (Or.inr (Or.inr ((hobs _ _).mpr ⟨hj, rfl⟩)))
      · exact Or.inl (by simpa [dropReceivers, update_of_ne hj] using hm)
    | _ => exact Or.inl hm
  | spawn config actor supervisor =>
    obtain rfl := step_spawn_eq h
    by_cases hj : j = ⟨w.nextId⟩
    · subst hj
      have hnone : w.tasks ⟨w.nextId⟩ = none := hw.fresh.tasks _ le_rfl
      rw [(hw.wired _).queue_eq_nil (fun t ht => by rw [hnone] at ht; cases ht)] at hm
      cases hm
    · exact Or.inl (by simpa [update_of_ne hj] using hm)
  | _ =>
    rw [(env_frame h rfl).2.1]
    exact Or.inl hm

/-- **A queued request stays queued** until the actor takes it or drops its receivers. -/
theorem mailbox_kept {env : Envelope M A} (hw : w.Reachable) (h : w.step e = some w')
    (hm : env ∈ (w.mailbox j).queue) : env ∈ (w'.mailbox j).queue ∨
      w.Observes j e (.envelope (some env)) ∨
      w.Observes j e .finished ∨ w.Observes j e .panicked := by
  cases e with
  | task i c =>
    obtain ⟨t, x, w₁, t', ht, hx, -, rfl⟩ := taskStep_inv h
    have hobs : w.Observes i (.task i c) x := ⟨c, t, w₁, rfl, ht, hx⟩
    have hacc := observe_access hx
    simp only [setTask]
    generalize t.phase = p at hacc
    cases hacc with
    | @recvMailbox env' ch hrecv =>
      by_cases hj : j = i
      · subst hj
        rw [(Chan.recv_eq_some.mp hrecv).1] at hm
        rcases List.mem_cons.mp hm with rfl | hm
        · exact Or.inr (Or.inl hobs)
        · exact Or.inl (by simpa [setMailbox] using hm)
      · exact Or.inl (by simpa [setMailbox, update_of_ne hj] using hm)
    | finish =>
      by_cases hj : j = i
      · subst hj
        exact Or.inr (Or.inr (Or.inl hobs))
      · exact Or.inl (by simpa [dropReceivers, update_of_ne hj] using hm)
    | panic =>
      by_cases hj : j = i
      · subst hj
        exact Or.inr (Or.inr (Or.inr hobs))
      · exact Or.inl (by simpa [dropReceivers, update_of_ne hj] using hm)
    | _ => exact Or.inl hm
  | spawn config actor supervisor =>
    obtain rfl := step_spawn_eq h
    by_cases hj : j = ⟨w.nextId⟩
    · subst hj
      have hnew := (hw.fifo ⟨w.nextId⟩).subset hm
      rw [(hw.fresh.mailbox ⟨w.nextId⟩ le_rfl).1] at hnew
      cases hnew
    · exact Or.inl (by simpa [update_of_ne hj] using hm)
  | post i env' =>
    obtain ⟨-, rfl⟩ := step_post h
    by_cases hj : j = i
    · subst hj
      exact Or.inl (by simpa [setMailbox] using Or.inl hm)
    · exact Or.inl (by simpa [setMailbox, update_of_ne hj] using hm)
  | recvSignal k =>
    obtain ⟨a, -, rfl⟩ := Option.map_eq_some_iff.mp h
    exact Or.inl hm
  | cloneRef i | openSignals n =>
    simp only [step, Option.ite_none_right_eq_some, Option.ite_none_left_eq_some,
      Option.some.injEq] at h
    rw [← h.2]
    exact Or.inl hm
  | newId | dropRef i | closeSignals k =>
    cases h
    exact Or.inl hm

end Runtime

end LaneSwitchboards
