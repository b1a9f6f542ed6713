import LaneSwitchboards.Actor.Wiring
import LaneSwitchboards.Lib.Relay

/-!
# The mailbox of an actor

The receiver of a mailbox lives as long as the task of its actor: the mailbox is open exactly until
the task is done (`Reachable.mailbox_isOpen`). Between its spawn and that moment it gains what is
posted to it and nothing else, within its capacity (`mailbox_spawned_step`).
-/

namespace LaneSwitchboards

namespace Runtime

open Function

variable {M A : Type} {w w' w₁ : Runtime M A} {i j : ActorId} {p : Phase M} {x : Input M A}
  {e : RtEvent M A} {t : Task M A}

namespace Access

theorem capacity_mailbox (h : Access w i p x w₁) (j : ActorId) :
    (w₁.mailbox j).capacity = (w.mailbox j).capacity := by
  cases h with
  | @recvMailbox env ch h =>
    by_cases hj : j = i
    · subst hj
      simpa [setMailbox] using Chan.capacity_recv h
    · simp [setMailbox, update_of_ne hj]
  | finish | panic =>
    by_cases hj : j = i
    · subst hj
      simp [dropReceivers, Chan.close]
    · simp [dropReceivers, update_of_ne hj]
  | _ => rfl

/-- A mailbox loses its receiver only with its own task. -/
theorem isOpen_mailbox (h : Access w i p x w₁) (j : ActorId) :
    (w₁.mailbox j).isOpen = (w.mailbox j).isOpen ∨ j = i ∧ (x = .finished ∨ x = .panicked) := by
  cases h with
  | @recvMailbox env ch h =>
    by_cases hj : j = i
    · subst hj
      exact Or.inl (by simpa [setMailbox] using Chan.isOpen_recv h)
    · exact Or.inl (by simp [setMailbox, update_of_ne hj])
  | finish =>
    by_cases hj : j = i
    · exact Or.inr ⟨hj, Or.inl rfl⟩
    · exact Or.inl (by simp [dropReceivers, update_of_ne hj])
  | panic =>
    by_cases hj : j = i
    · exact Or.inr ⟨hj, Or.inr rfl⟩
    · exact Or.inl (by simp [dropReceivers, update_of_ne hj])
  | _ => exact Or.inl rfl

/-- A task that drops its receivers. -/
theorem mailbox_dropped (h : Access w i p x w₁) (hx : x = .finished ∨ x = .panicked) :
    w₁.mailbox i = (w.mailbox i).close := by
  rcases hx with rfl | rfl <;> cases h <;> first
    | contradiction
    | simp [dropReceivers]

end Access

/-- The events of the environment open and close no mailbox. -/
theorem isOpen_mailbox_env (h : w.step e = some w') (he : e.isEnv = true) (j : ActorId) :
    (w'.mailbox j).isOpen = (w.mailbox j).isOpen := by
  cases e with
  | task | spawn => cases he
  | post i env =>
    obtain ⟨-, rfl⟩ := step_post h
    by_cases hj : j = i
    · subst hj
      simp [setMailbox]
    · simp [setMailbox, update_of_ne hj]
  | recvSignal k =>
    obtain ⟨a, -, rfl⟩ := Option.map_eq_some_iff.mp h
    rfl
  | cloneRef i | openSignals n =>
    simp only [step, Option.ite_none_right_eq_some, Option.ite_none_left_eq_some,
      Option.some.injEq] at h
    rw [← h.2]
  | newId | dropRef i | closeSignals k =>
    cases h
    rfl

/-- **The receiver of a mailbox lives as long as its task.** -/
theorem Reachable.mailbox_isOpen (hw : w.Reachable) (i : ActorId) :
    (w.mailbox i).isOpen = true ↔ ∃ t, w.tasks i = some t ∧ t.phase.isDone = false := by
  obtain ⟨es, hes⟩ := hw
  refine Transition.invariant_run (P := fun w : Runtime M A =>
    (w.mailbox i).isOpen = true ↔ ∃ t, w.tasks i = some t ∧ t.phase.isDone = false) ?_ ?_ hes
  · intro w e w' hiff hst
    cases e with
    | task j c =>
      obtain ⟨t, x, w₁, t', ht, hacc, hstep, rfl⟩ := step_task hst
      have htasks := hacc.frame.1
      by_cases hi : i = j
      · subst hi
        have hmove := Task.step_move hstep
        have hopen : (w.mailbox i).isOpen = true := hiff.mpr ⟨t, ht, hmove.not_isDone⟩
        simp only [setTask, update_self, Option.some.injEq, exists_eq_left']
        by_cases hx : x = .finished ∨ x = .panicked
        · rw [hacc.mailbox_dropped hx, hmove.isDone_iff.mpr hx]
          simp
        · have hnot : t'.phase.isDone = false := by
            rw [← Bool.not_eq_true, hmove.isDone_iff]
            exact hx
          have hsame := (hacc.isOpen_mailbox i).resolve_right fun h => hx h.2
          exact iff_of_true (hsame.trans hopen) hnot
      · have hsame := (hacc.isOpen_mailbox i).resolve_right fun h => hi h.1
        simp only [setTask, update_of_ne hi, htasks, hsame]
        exact hiff
    | spawn config actor supervisor =>
      obtain rfl := step_spawn_eq hst
      by_cases hi : i = ⟨w.nextId⟩
      · subst hi
        exact iff_of_true (by simp [Chan.new]) ⟨_, update_self .., rfl⟩
      · simp only [update_of_ne hi]
        exact hiff
    | _ =>
      rw [isOpen_mailbox_env hst rfl, (env_frame hst rfl).1]
      exact hiff
  · refine iff_of_false Bool.false_ne_true ?_
    rintro ⟨t, ht, -⟩
    cases ht

/-- **A mailbox** of a spawned actor gains what is posted to it, keeps its capacity, and does not
open again. -/
theorem mailbox_spawned_step (hf : w.Fresh) (ht : w.tasks j = some t) (h : w.step e = some w') :
    (w'.mailbox j).capacity = (w.mailbox j).capacity ∧
    (((w'.mailbox j).accepted = (w.mailbox j).accepted ∧
        (w'.mailbox j).queue <:+ (w.mailbox j).queue ∧
        ((w'.mailbox j).isOpen = true → (w.mailbox j).isOpen = true)) ∨
      ∃ env, e = .post j env ∧ (w.mailbox j).hasRoom = true ∧
        w'.mailbox j = (w.mailbox j).push env) := by
  have hcapacity : (w'.mailbox j).capacity = (w.mailbox j).capacity := by
    cases e with
    | task i c =>
      obtain ⟨t, x, w₁, t', ht, hacc, hstep, rfl⟩ := step_task h
      exact hacc.capacity_mailbox j
    | spawn config actor supervisor =>
      obtain rfl := step_spawn_eq h
      simp [update_of_ne (hf.ne_nextId ht)]
    | post i env =>
      obtain ⟨-, rfl⟩ := step_post h
      by_cases hj : j = i
      · subst hj
        simp [setMailbox, Chan.push]
      · simp [setMailbox, update_of_ne hj]
    | recvSignal k =>
      obtain ⟨a, -, rfl⟩ := Option.map_eq_some_iff.mp h
      rfl
    | cloneRef i | openSignals n =>
      simp only [step, Option.ite_none_right_eq_some, Option.ite_none_left_eq_some,
        Option.some.injEq] at h
      rw [← h.2]
    | newId | dropRef i | closeSignals k =>
      cases h
      rfl
  refine ⟨hcapacity, ?_⟩
  rcases mailbox_step h j with hsame | hpost | ⟨_, _, _, -, hj, -⟩
  · exact Or.inl hsame
  · exact Or.inr hpost
  · exact absurd hj (hf.ne_nextId ht)

end Runtime

end LaneSwitchboards
