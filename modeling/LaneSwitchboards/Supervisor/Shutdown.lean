import LaneSwitchboards.Actor.Moves
import LaneSwitchboards.Supervisor.Replacement

/-!
# The shutdown of a supervisor against the failures of its children

On its way out a supervisor takes no more signals and sends each child a `Stop`, an ordinary
bounded send. A child on its way out takes no more messages and sends its supervisor a signal,
another bounded send. When both channels are full, each waits for the other (`Standoff`). A run
meets no such state iff neither of the two comes to wait for the other while the other waits for
it (`no_standoff_iff`).
-/

namespace LaneSwitchboards

open Function Transition

/-- A task awaits its notification where it has just looked up its supervisor. -/
theorem Move.of_sendSignal {M A : Type} {t t' : Task M A} {x : Input M A} {k : SupId}
    {r : ExitReason} (h : Move t x t') (hp : t'.phase = .sendSignal k r) :
    t.phase = .notify r ∧ x = .supervisor (some k) := by
  cases h with
  | notify r' k' hp₀ hx hl hp' =>
    rw [hp] at hp'
    cases k' <;> cases hp'
    exact ⟨hp₀, hx⟩
  | loop _ _ _ _ hp' =>
    rw [hp] at hp'
    cases hp'
  | leave _ _ _ _ hp' =>
    rw [hp] at hp'
    cases hp'
  | foundLink _ b _ _ _ hp' | foundPeer _ _ _ b _ _ _ hp' =>
    rw [hp] at hp'
    cases b <;> cases hp'
  | stopped r o _ _ _ hp' =>
    rw [hp] at hp'
    split_ifs at hp'
  | insert _ _ _ _ _ _ hp' | known _ _ _ _ _ _ hp' | erase _ _ _ _ hp' | sentLink _ _ _ _ hp'
    | heard _ _ _ _ _ hp' | notified _ _ _ _ _ hp' | next _ _ _ _ _ _ _ hp'
    | linksDone _ _ _ _ hp' | sentExit _ _ _ _ _ _ hp' | unregistered _ _ _ _ hp'
    | finished _ _ _ _ hp' | panicked _ _ _ hp' =>
    rw [hp] at hp'
    cases hp'

namespace Runtime

variable {M A : Type} {w w' w₁ : Runtime M A} {i j : ActorId} {k : SupId} {ph : Phase M}
  {x : Input M A} {e : RtEvent M A}

/-- The task of `i` is in `notify_supervisor`, sending to the channel `k`. -/
def Notifying (w : Runtime M A) (i : ActorId) (k : SupId) : Prop :=
  ∃ t r, w.tasks i = some t ∧ t.phase = .sendSignal k r

theorem Access.isFull_mailbox (h : Access w j ph x w₁) (hfull : (w₁.mailbox i).isFull = true) :
    (w.mailbox i).isFull = true := by
  cases h with
  | recvMailbox h =>
    by_cases hi : i = j
    · subst hi
      simp only [setMailbox, update_self] at hfull
      exact Chan.isFull_of_recv h hfull
    · simp only [setMailbox, update_of_ne hi] at hfull
      exact hfull
  | finish | panic =>
    by_cases hi : i = j
    · subst hi
      simp [dropReceivers, Chan.isFull] at hfull
    · simp only [dropReceivers, update_of_ne hi] at hfull
      exact hfull
  | _ => exact hfull

/-- A mailbox is filled by the request that takes the last room. -/
theorem isFull_mailbox_step (h : w.step e = some w') (hfull : (w'.mailbox i).isFull = true) :
    (w.mailbox i).isFull = true ∨ ∃ env, e = .post i env ∧ (w.mailbox i).hasLastRoom = true := by
  cases e with
  | task j c =>
    obtain ⟨t, x, w₁, t', -, hacc, -, rfl⟩ := step_task h
    exact Or.inl (hacc.isFull_mailbox hfull)
  | spawn config actor supervisor =>
    obtain ⟨-, hspawn⟩ := step_spawn h
    have hnew := (not_isFull_spawned hspawn).1
    obtain ⟨-, rfl⟩ := spawnOnRuntime_eq hspawn
    by_cases hi : i = ⟨w.nextId⟩
    · subst hi
      rw [hfull] at hnew
      cases hnew
    · simp only [update_of_ne hi] at hfull
      exact Or.inl hfull
  | post j env =>
    obtain ⟨hroom, rfl⟩ := step_post h
    by_cases hi : i = j
    · subst hi
      simp only [setMailbox, update_self] at hfull
      have hsend : (w.mailbox i).send env = some ((w.mailbox i).push env) := if_pos hroom
      exact Or.inr ⟨env, rfl, (Chan.isFull_of_send hsend).mp hfull⟩
    · simp only [setMailbox, update_of_ne hi] at hfull
      exact Or.inl hfull
  | recvSignal k =>
    obtain ⟨a, -, rfl⟩ := Option.map_eq_some_iff.mp h
    exact Or.inl hfull
  | cloneRef j | openSignals n =>
    simp only [step, Option.ite_none_right_eq_some, Option.ite_none_left_eq_some,
      Option.some.injEq] at h
    rw [← h.2] at hfull
    exact Or.inl hfull
  | newId | dropRef j | closeSignals k =>
    cases h
    exact Or.inl hfull

/-- The lookup of a supervisor changes nothing. -/
theorem Access.of_supervisor (h : Access w j ph x w₁) {s : Option SupId} (hx : x = .supervisor s) :
    w₁ = w := by
  cases h <;> first | rfl | cases hx

/-- A task that notifies did so before, or has just looked up its supervisor. -/
theorem Notifying.of_step (h : w'.Notifying i k) (hst : w.step e = some w') :
    w.Notifying i k ∨ ∃ t r, w.tasks i = some t ∧ t.phase = .notify r ∧
      w.Observes i e (.supervisor (some k)) := by
  obtain ⟨t, r, ht, hp⟩ := h
  rcases tasks_step hst i with hsame | ⟨c, s, x, w₁, t', -, hs, -, hobs, hstep, ht'⟩ |
    ⟨_, _, _, -, -, ht'⟩
  · exact Or.inl ⟨t, r, hsame.symm.trans ht, hp⟩
  · obtain rfl : t = t' := Option.some.inj (ht.symm.trans ht')
    obtain ⟨hp₀, rfl⟩ := (Task.step_move hstep).of_sendSignal hp
    exact Or.inr ⟨s, r, hs, hp₀, hobs⟩
  · rw [ht'] at ht
    cases ht
    cases hp

/-- What a task observes that notifies after the step. -/
theorem Notifying.observed (h : w'.Notifying i k) (hst : w.step e = some w')
    (hobs : w.Observes i e x) : x = .supervisor (some k) := by
  obtain ⟨t, r, ht, hp⟩ := h
  obtain ⟨_, _, t', -, -, hstep, rfl⟩ := hobs.step hst
  obtain rfl : t' = t := by simpa [setTask] using ht
  exact ((Task.step_move hstep).of_sendSignal hp).2

/-- A signal channel is filled by the notification that takes the last room. -/
theorem isFull_signals_step (hk : k < w.nextSup) (h : w.step e = some w')
    (hfull : (w'.signals k).isFull = true) : (w.signals k).isFull = true ∨
      ∃ j, w.Notifying j k ∧ w.Observes j e .sent ∧ (w.signals k).hasLastRoom = true := by
  cases e with
  | task j c =>
    obtain ⟨t, x, w₁, t', ht, hx, -, rfl⟩ := taskStep_inv h
    rcases (observe_access hx).signals k with hsame | ⟨rfl, r, hp, hsend⟩
    · simp only [setTask, hsame] at hfull
      exact Or.inl hfull
    · exact Or.inr ⟨j, ⟨t, r, ht, hp⟩, ⟨c, t, w₁, rfl, ht, hx⟩,
        (Chan.isFull_of_send hsend).mp hfull⟩
  | spawn config actor supervisor =>
    obtain rfl := step_spawn_eq h
    exact Or.inl hfull
  | post j env =>
    rw [(step_post h).2] at hfull
    exact Or.inl hfull
  | recvSignal k' =>
    simp only [step, Option.map_eq_some_iff, Prod.exists] at h
    obtain ⟨sig, ch, hrecv, rfl⟩ := h
    by_cases hk' : k = k'
    · subst hk'
      simp only [setSignals, update_self] at hfull
      exact Or.inl (Chan.isFull_of_recv hrecv hfull)
    · simp only [setSignals, update_of_ne hk'] at hfull
      exact Or.inl hfull
  | closeSignals k' =>
    cases h
    by_cases hk' : k = k'
    · subst hk'
      simp [setSignals, Chan.isFull] at hfull
    · simp only [setSignals, update_of_ne hk'] at hfull
      exact Or.inl hfull
  | openSignals n =>
    simp only [step, Option.ite_none_left_eq_some, Option.some.injEq] at h
    obtain ⟨-, rfl⟩ := h
    simp only [update_of_ne (Nat.ne_of_lt hk)] at hfull
    exact Or.inl hfull
  | cloneRef j =>
    simp only [step, Option.ite_none_right_eq_some, Option.some.injEq] at h
    rw [← h.2] at hfull
    exact Or.inl hfull
  | newId | dropRef j =>
    cases h
    exact Or.inl hfull

/-- No signal channel holds more than it has room for. -/
theorem Reachable.signals_bounded (h : w.Reachable) (k : SupId) : (w.signals k).Bounded := by
  obtain ⟨es, hes⟩ := h
  refine invariant_run (P := fun w : Runtime M A => (w.signals k).Bounded) ?_ (Nat.zero_le _) hes
  intro w e w' hb hst
  cases e with
  | task j c =>
    obtain ⟨t, x, w₁, t', -, hacc, -, rfl⟩ := step_task hst
    rcases hacc.signals k with hsame | ⟨-, r, -, hsend⟩
    · have hb₁ : (w₁.signals k).Bounded := hsame ▸ hb
      exact hb₁
    · exact hb.send hsend
  | spawn config actor supervisor =>
    obtain rfl := step_spawn_eq hst
    exact hb
  | post j env =>
    rw [(step_post hst).2]
    exact hb
  | recvSignal k' =>
    simp only [Runtime.step, Option.map_eq_some_iff, Prod.exists] at hst
    obtain ⟨sig, ch, hrecv, rfl⟩ := hst
    by_cases hk : k = k'
    · subst hk
      simpa [setSignals] using hb.recv hrecv
    · simpa [setSignals, update_of_ne hk] using hb
  | closeSignals k' =>
    cases hst
    by_cases hk : k = k'
    · subst hk
      simpa [setSignals] using Chan.bounded_close
    · simpa [setSignals, update_of_ne hk] using hb
  | openSignals n =>
    simp only [Runtime.step, Option.ite_none_left_eq_some, Option.some.injEq] at hst
    obtain ⟨-, rfl⟩ := hst
    by_cases hk : k = w.nextSup
    · subst hk
      simpa using Chan.bounded_new n
    · simpa [update_of_ne hk] using hb
  | cloneRef j =>
    simp only [Runtime.step, Option.ite_none_right_eq_some, Option.some.injEq] at hst
    rw [← hst.2]
    exact hb
  | newId | dropRef j =>
    cases hst
    exact hb

end Runtime

namespace System

variable {M A : Type} {s s' : System M A} {e : SysEvent M A} {es : List (SysEvent M A)}
  {i : ActorId}

/-- The supervisor is on its way out and waits for room in the mailbox of the child `i`. -/
structure StopWaits (s : System M A) (i : ActorId) : Prop where
  stopping : ∃ rest, s.sup.phase = .stopping (i :: rest)
  full : (s.rt.mailbox i).isFull = true

/-- `i` is in `notify_supervisor` and waits for room in the supervisor's signal queue. -/
structure SignalWaits (s : System M A) (i : ActorId) : Prop where
  notifying : s.rt.Notifying i s.sup.channel
  full : (s.rt.signals s.sup.channel).isFull = true

/-- The supervisor waits for a child that waits for the supervisor. -/
def Standoff (s : System M A) : Prop := ∃ i, s.StopWaits i ∧ s.SignalWaits i

/-- The supervisor comes to wait for the child `i`: it turns to `i`, whose mailbox is full, or
somebody else takes the last room in the mailbox of `i`. -/
inductive StopComes (s : System M A) (i : ActorId) : SysEvent M A → Prop
  | shutdown (hp : s.sup.phase = .select) (hi : s.sup.currentRefs.getLast? = some i)
      (hfull : (s.rt.mailbox i).isFull = true) : StopComes s i (.sup .shutdown)
  | sendStop {j rest} (hp : s.sup.phase = .stopping (j :: i :: rest))
      (hfull : (s.rt.mailbox i).isFull = true) : StopComes s i (.sup .sendStop)
  | post {env rest} (hp : s.sup.phase = .stopping (i :: rest))
      (hlast : (s.rt.mailbox i).hasLastRoom = true) : StopComes s i (.env (.post i env))

/-- `i` comes to wait for its supervisor: it finds the supervisor with a full queue, or somebody
else takes the last room in the queue. -/
inductive SignalComes (s : System M A) (i : ActorId) : SysEvent M A → Prop
  | lookup {e t r} (ht : s.rt.tasks i = some t) (hp : t.phase = .notify r)
      (hobs : s.rt.Observes i e (.supervisor (some s.sup.channel)))
      (hfull : (s.rt.signals s.sup.channel).isFull = true) : SignalComes s i (.env e)
  | sent {e j} (hne : j ≠ i) (hi : s.rt.Notifying i s.sup.channel)
      (hj : s.rt.Notifying j s.sup.channel) (hobs : s.rt.Observes j e .sent)
      (hlast : (s.rt.signals s.sup.channel).hasLastRoom = true) : SignalComes s i (.env e)

/-- One of the two, the supervisor and a child, comes to wait for the other, which waits for
it. -/
def ClosesWait (s : System M A) (e : SysEvent M A) : Prop :=
  ∃ i, s.SignalWaits i ∧ s.StopComes i e ∨ s.StopWaits i ∧ s.SignalComes i e

/-! ### One step -/

/-- The references of the supervisor are of different children. -/
theorem Instances.nodup_currentRefs (hi : s.Instances) : s.sup.currentRefs.Nodup := by
  rw [List.nodup_iff_getElem?_ne_getElem?]
  intro idx j hlt hj heq
  have hget : s.sup.currentRefs[j]? = some s.sup.currentRefs[j] := List.getElem?_eq_getElem hj
  have hsame := hi.slot_unique (hi.refs idx _ (heq.trans hget)) (hi.refs j _ hget)
  omega

/-- The children that are left to stop are different ones. -/
def StopsOnce (s : System M A) : Prop := ∀ rest, s.sup.phase = .stopping rest → rest.Nodup

theorem takeSignal_stopping {p : Supervisor} {sig : RestartSignal} {now : Instant}
    {rest : List ActorId} (h : (p.takeSignal sig now).phase = .stopping rest) :
    rest = p.currentRefs.reverse := by
  revert h
  unfold Supervisor.takeSignal
  split
  · intro h
    cases h
  · dsimp only
    split_ifs
    · split <;> intro h <;> cases h
      rfl
    · intro h
      cases h

theorem StopsOnce.step (h : s.StopsOnce) (hi : s.Instances) (hst : s.step e = some s') :
    s'.StopsOnce := by
  intro rest hp'
  cases e with
  | env e =>
    obtain ⟨-, rt, -, rfl⟩ := step_env hst
    exact h rest hp'
  | sup c =>
    cases supStep_inv hst with
    | signal hp hsig hnp =>
      rw [takeSignal_stopping hp']
      exact List.nodup_reverse.mpr hi.nodup_currentRefs
    | shutdown hp =>
      cases hp'
      exact List.nodup_reverse.mpr hi.nodup_currentRefs
    | sendStop rt hp hrt =>
      cases hp'
      exact (List.nodup_cons.mp (h _ hp)).2
    | @installed cause => cases cause <;> cases hp'
    | _ => cases hp'

/-- **Whoever the supervisor waits for** it waited for before, or comes to wait for, unless it has
just taken a signal. -/
theorem StopWaits.of_step (h : s'.StopWaits i) (hn : s.StopsOnce) (hst : s.step e = some s') :
    s.StopWaits i ∨ s.StopComes i e ∨ ∃ now, e = .sup (.recvSignal now) := by
  obtain ⟨⟨rest, hp'⟩, hfull⟩ := h
  cases e with
  | env e =>
    obtain ⟨-, rt, hrt, rfl⟩ := step_env hst
    rcases Runtime.isFull_mailbox_step hrt hfull with hfull | ⟨env, rfl, hlast⟩
    · exact Or.inl ⟨⟨rest, hp'⟩, hfull⟩
    · exact Or.inr (Or.inl (.post hp' hlast))
  | sup c =>
    cases supStep_inv hst with
    | signal hp hsig hnp => exact Or.inr (Or.inr ⟨_, rfl⟩)
    | shutdown hp =>
      have hhead : s.sup.currentRefs.reverse = i :: rest := SupPhase.stopping.inj hp'
      refine Or.inr (Or.inl (.shutdown hp ?_ hfull))
      rw [← List.head?_reverse, hhead]
      rfl
    | @sendStop j rest' rt hp hrt =>
      obtain rfl : rest' = i :: rest := SupPhase.stopping.inj hp'
      have hne : i ≠ j := by
        rintro rfl
        exact (List.nodup_cons.mp (hn _ hp)).1 List.mem_cons_self
      refine Or.inr (Or.inl (.sendStop hp ?_))
      rcases hrt with hrt | rfl
      · have hpost : s.rt.step (.post j .stop) = some rt := hrt
        rcases Runtime.isFull_mailbox_step hpost hfull with hfull | ⟨env, heq, -⟩
        · exact hfull
        · exact absurd (RtEvent.post.inj heq).1.symm hne
      · exact hfull
    | @installed cause => cases cause <;> cases hp'
    | _ => cases hp'

/-- A supervisor that ends drops its receiver. -/
theorem not_signalWaits_finish (s : System M A) (p : SupPhase) : ¬ (s.finish p).SignalWaits i := by
  rintro ⟨-, hfull⟩
  simp [finish, Runtime.setSignals, Chan.isFull] at hfull

/-- **Whoever waits to notify** waited before, or comes to wait. -/
theorem SignalWaits.of_step (h : s'.SignalWaits i) (hi : s.Instances) (hst : s.step e = some s') :
    s.SignalWaits i ∨ s.SignalComes i e := by
  cases e with
  | env e =>
    obtain ⟨-, rt, hrt, rfl⟩ := step_env hst
    obtain ⟨hnotifying, hfull⟩ := h
    rcases Runtime.isFull_signals_step hi.channel hrt hfull with hfull' | ⟨j, hj, hobs, hlast⟩
    · rcases hnotifying.of_step hrt with hbefore | ⟨t, r, ht, hp, hobs⟩
      · exact Or.inl ⟨hbefore, hfull'⟩
      · exact Or.inr (.lookup ht hp hobs hfull')
    · rcases hnotifying.of_step hrt with hbefore | ⟨t, r, ht, hp, hobs'⟩
      · refine Or.inr (.sent ?_ hbefore hj hobs hlast)
        rintro rfl
        cases hnotifying.observed hrt hobs
      · cases (hobs.unique hobs').2
  | sup c =>
    refine Or.inl ?_
    cases supStep_inv hst with
    | @spawn cause idx todo actor id rt hp hrt =>
      obtain ⟨⟨t, r, ht, hph⟩, hfull⟩ := h
      have hne : i ≠ id := by
        rintro rfl
        rw [tasks_spawnedChild hrt] at ht
        cases ht
        cases hph
      obtain ⟨-, rfl⟩ := Runtime.spawnOnRuntime_eq hrt
      have hrest : s.rt.tasks i = some t ∧ (s.rt.signals s.sup.channel).isFull = true := by
        cases cause
        · exact ⟨by simpa [spawnedChild, Runtime.addRef, update_of_ne hne] using ht, hfull⟩
        · exact ⟨by simpa [spawnedChild, update_of_ne hne] using ht, hfull⟩
      exact ⟨⟨t, r, hrest.1, hph⟩, hrest.2⟩
    | startFailed hp | panic hp hsig hpanic | exit hp =>
      exact absurd h (not_signalWaits_finish _ _)
    | childFailed hp | restarted hp | shutdown hp => exact ⟨h.notifying, h.full⟩
    | @installed cause idx id todo hp =>
      cases cause with
      | start => exact ⟨h.notifying, h.full⟩
      | signal sig =>
        obtain ⟨⟨t, r, ht, hph⟩, hfull⟩ := h
        obtain ⟨htasks, -, hsignals⟩ :=
          Runtime.releaseRefs_frame s.rt s.sup.currentRefs[idx]?.toList
        refine ⟨⟨t, r, ?_, hph⟩, ?_⟩
        · rw [← htasks]
          exact ht
        · rw [← hsignals]
          exact hfull
    | @signal sig ch now hp hsig hnp =>
      obtain ⟨hnotifying, hfull⟩ := h
      have hchannel := (map_order_takeSignal s.sup sig now).2.2.1
      simp only [hchannel, Runtime.setSignals, update_self] at hfull hnotifying
      exact ⟨hnotifying, Chan.isFull_of_recv hsig hfull⟩
    | @sendStop j rest rt hp hrt =>
      rcases hrt with hrt | rfl
      · have hpost : s.rt.step (.post j .stop) = some rt := hrt
        obtain ⟨-, rfl⟩ := Runtime.step_post hpost
        exact ⟨h.notifying, h.full⟩
      · exact ⟨h.notifying, h.full⟩

/-- After taking a signal there is room in the queue. -/
theorem not_signalWaits_of_recvSignal {now : Instant} (hi : s.Instances)
    (hst : s.step (.sup (.recvSignal now)) = some s') : ¬ s'.SignalWaits i := by
  cases supStep_inv hst with
  | @signal sig ch _ hp hsig hnp =>
    rintro ⟨-, hfull⟩
    have hroom := (hi.rt.signals_bounded s.sup.channel).not_isFull hsig
    have hchannel := (map_order_takeSignal s.sup sig now).2.2.1
    simp only [hchannel, Runtime.setSignals, update_self] at hfull
    rw [hfull] at hroom
    cases hroom
  | panic hp hsig hpanic => exact not_signalWaits_finish _ _

/-- A task step moves no supervisor, and fills no mailbox. -/
theorem StopComes.not_signalComes (h : s.StopComes i e) : ¬ s.SignalComes i e := by
  intro hcomes
  cases h with
  | shutdown | sendStop => cases hcomes
  | post hp hlast =>
    cases hcomes with
    | lookup _ _ hobs | sent _ _ _ hobs =>
      obtain ⟨c, _, _, heq, -⟩ := hobs
      cases heq

/-- **A standoff arises** where one of the two comes to wait for the other. -/
theorem standoff_of_step (hi : s.Instances) (hn : s.StopsOnce) (hst : s.step e = some s')
    (h : s'.Standoff) : s.Standoff ∨ s.ClosesWait e := by
  obtain ⟨i, hstop, hsignal⟩ := h
  rcases hstop.of_step hn hst with hstop | hstop | ⟨now, rfl⟩
  · exact (hsignal.of_step hi hst).imp (fun hsignal => ⟨i, hstop, hsignal⟩)
      fun hcomes => ⟨i, Or.inr ⟨hstop, hcomes⟩⟩
  · rcases hsignal.of_step hi hst with hsignal | hcomes
    · exact Or.inr ⟨i, Or.inl ⟨hsignal, hstop⟩⟩
    · exact absurd hcomes hstop.not_signalComes
  · exact absurd hsignal (not_signalWaits_of_recvSignal hi hst)

/-- The supervisor and `i` stay where they are when `i` comes to wait. -/
theorem StopWaits.step (h : s.StopWaits i) (hcomes : s.SignalComes i e)
    (hst : s.step e = some s') : s'.StopWaits i := by
  obtain ⟨e, x, j, rfl, hobs, hx⟩ : ∃ e' x j, e = .env e' ∧ s.rt.Observes j e' x ∧
      (x = .sent ∨ x = .supervisor (some s.sup.channel)) := by
    cases hcomes with
    | lookup ht hp hobs => exact ⟨_, _, _, rfl, hobs, Or.inr rfl⟩
    | sent hne hi hj hobs => exact ⟨_, _, _, rfl, hobs, Or.inl rfl⟩
  obtain ⟨-, rt, hrt, rfl⟩ := step_env hst
  obtain ⟨t, w₁, t', -, hacc, -, rfl⟩ := hobs.step hrt
  have hmailbox : w₁.mailbox = s.rt.mailbox := by
    generalize t.phase = ph at hacc
    cases hacc <;> first | rfl | (rcases hx with hx | hx <;> cases hx)
  have hfull : (w₁.mailbox i).isFull = true := by
    rw [hmailbox]
    exact h.full
  exact ⟨h.stopping, hfull⟩

/-- A task that waits to notify stays where it is when the supervisor comes to wait. -/
theorem SignalWaits.step (h : s.SignalWaits i) (hcomes : s.StopComes i e)
    (hst : s.step e = some s') : s'.SignalWaits i := by
  cases hcomes with
  | shutdown hp hi hfull =>
    cases supStep_inv hst
    exact ⟨h.notifying, h.full⟩
  | sendStop hp hfull =>
    cases supStep_inv hst with
    | @sendStop j rest rt hp' hrt =>
      rcases hrt with hrt | rfl
      · have hpost : s.rt.step (.post j .stop) = some rt := hrt
        obtain ⟨-, rfl⟩ := Runtime.step_post hpost
        exact ⟨h.notifying, h.full⟩
      · exact ⟨h.notifying, h.full⟩
  | post hp hlast =>
    obtain ⟨-, rt, hrt, rfl⟩ := step_env hst
    obtain ⟨-, rfl⟩ := Runtime.step_post hrt
    exact ⟨h.notifying, h.full⟩

/-- The supervisor waits where it comes to wait. -/
theorem StopComes.stopWaits (h : s.StopComes i e) (hn : s.StopsOnce) (hst : s.step e = some s') :
    s'.StopWaits i := by
  cases h with
  | shutdown hp hi hfull =>
    cases supStep_inv hst
    refine ⟨?_, hfull⟩
    rw [← List.head?_reverse] at hi
    obtain ⟨rest, hrest⟩ := List.head?_eq_some_iff.mp hi
    exact ⟨rest, by rw [hrest]⟩
  | @sendStop j rest hp hfull =>
    cases supStep_inv hst with
    | @sendStop j' rest' rt hp' hrt =>
      obtain ⟨rfl, rfl⟩ : j' = j ∧ rest' = i :: rest := by
        simpa using SupPhase.stopping.inj (hp'.symm.trans hp)
      have hne : i ≠ j' := by
        rintro rfl
        exact (List.nodup_cons.mp (hn _ hp)).1 List.mem_cons_self
      refine ⟨⟨rest, rfl⟩, ?_⟩
      rcases hrt with hrt | rfl
      · have hpost : s.rt.step (.post j' .stop) = some rt := hrt
        obtain ⟨-, rfl⟩ := Runtime.step_post hpost
        simpa [Runtime.setMailbox, update_of_ne hne] using hfull
      · exact hfull
  | @post env rest hp hlast =>
    obtain ⟨-, rt, hrt, rfl⟩ := step_env hst
    obtain ⟨hroom, rfl⟩ := Runtime.step_post hrt
    refine ⟨⟨rest, hp⟩, ?_⟩
    have hsend : (s.rt.mailbox i).send env = some ((s.rt.mailbox i).push env) := if_pos hroom
    simpa [Runtime.setMailbox] using (Chan.isFull_of_send hsend).mpr hlast

/-- `i` waits where it comes to wait. -/
theorem SignalComes.signalWaits (h : s.SignalComes i e) (hst : s.step e = some s') :
    s'.SignalWaits i := by
  cases h with
  | @lookup e t r ht hp hobs hfull =>
    obtain ⟨-, rt, hrt, rfl⟩ := step_env hst
    obtain ⟨t₁, w₁, t', ht₁, hacc, hstep, rfl⟩ := hobs.step hrt
    obtain rfl : t = t₁ := Option.some.inj (ht.symm.trans ht₁)
    have hsame : w₁ = s.rt := hacc.of_supervisor rfl
    subst hsame
    rw [Task.step_supervisor hp, Option.some.injEq] at hstep
    exact ⟨⟨t', r, by simp [Runtime.setTask], by rw [← hstep]⟩, hfull⟩
  | @sent e j hne hi hj hobs hlast =>
    obtain ⟨-, rt, hrt, rfl⟩ := step_env hst
    obtain ⟨t₁, w₁, t', ht₁, hacc, hstep, rfl⟩ := hobs.step hrt
    obtain ⟨tj, rj, htj, hpj⟩ := hj
    obtain rfl : tj = t₁ := Option.some.inj (htj.symm.trans ht₁)
    obtain ⟨t, r, ht, hp⟩ := hi
    rw [hpj] at hacc
    cases hacc with
    | internal hx => cases hx
    | sendSignal hsend =>
      refine ⟨⟨t, r, ?_, hp⟩, ?_⟩
      · simpa [Runtime.setTask, Runtime.setSignals, update_of_ne (Ne.symm hne)] using ht
      · simpa [Runtime.setTask, Runtime.setSignals] using (Chan.isFull_of_send hsend).mpr hlast

theorem standoff_of_closesWait (hn : s.StopsOnce) (hst : s.step e = some s')
    (h : s.ClosesWait e) : s'.Standoff := by
  obtain ⟨i, ⟨hsignal, hcomes⟩ | ⟨hstop, hcomes⟩⟩ := h
  · exact ⟨i, hcomes.stopWaits hn hst, hsignal.step hcomes hst⟩
  · exact ⟨i, hstop.step hcomes hst, hcomes.signalWaits hst⟩

/-! ### Runs -/

/-- **No standoff.** A run of a supervisor visits no state in which the supervisor waits for room
in the mailbox of a child that waits for room in the signal queue iff in no step of it one of the
two comes to wait for the other while that one waits for it. -/
theorem no_standoff_iff {rt : Runtime M A} {config : SupervisorConfig}
    {actorConfig : ActorConfig} {children : List Slot} (hrt : rt.Reachable)
    (hstart : start rt config actorConfig children = some s) (es : List (SysEvent M A)) :
    Always System.step (fun s => ¬ s.Standoff) s es ↔
      Along System.step (fun s e _ => ¬ s.ClosesWait e) s es := by
  have hi : s.Instances := instances_start hrt hstart
  have hp : ∃ todo, s.sup.phase = .restart .start todo := by
    simp only [start, Option.map_eq_some_iff] at hstart
    obtain ⟨_, -, rfl⟩ := hstart
    exact ⟨_, rfl⟩
  obtain ⟨todo, hp⟩ := hp
  have hn : s.StopsOnce := by
    intro rest hrest
    cases hp.symm.trans hrest
  constructor
  · intro h
    refine along_of_invariant (P := fun s : System M A => s.Instances ∧ s.StopsOnce) ?_ ⟨hi, hn⟩
      h.along
    rintro s e s' ⟨hi, hn⟩ hfree hst
    exact ⟨⟨hi.step hst, hn.step hi hst⟩, fun hcloses =>
      hfree (standoff_of_closesWait hn hst hcloses)⟩
  · intro h
    have hinv : Always System.step
        (fun s : System M A => s.Instances ∧ s.StopsOnce ∧ ¬ s.Standoff) s es := by
      refine always_of_invariant ?_ ⟨hi, hn, ?_⟩ h
      · rintro s e s' ⟨hi, hn, hfree⟩ hno hst
        refine ⟨hi.step hst, hn.step hi hst, fun hstandoff => ?_⟩
        rcases standoff_of_step hi hn hst hstandoff with hbefore | hcloses
        · exact hfree hbefore
        · exact hno hcloses
      · rintro ⟨i, ⟨⟨rest, hrest⟩, -⟩, -⟩
        cases hp.symm.trans hrest
    exact hinv.mono fun h => h.2.2

/-! ### Two children -/

/-- Where the signal queue has room for more than one signal, nobody waits to notify the
supervisor and nobody comes to. -/
theorem not_closesWait_of_room (hfull : (s.rt.signals s.sup.channel).isFull = false)
    (hlast : (s.rt.signals s.sup.channel).hasLastRoom = false) : ¬ s.ClosesWait e := by
  rintro ⟨i, ⟨hsignal, -⟩ | ⟨-, hcomes⟩⟩
  · cases hfull.symm.trans hsignal.full
  · cases hcomes with
    | lookup _ _ _ hfull' => cases hfull.symm.trans hfull'
    | sent _ _ _ _ hlast' => cases hlast.symm.trans hlast'

/-- Two children whose mailboxes have capacity 1, under a supervisor with a wide signal queue. -/
def wide : Option (System Unit Unit) :=
  start twoSpecs .default ⟨1, none, none⟩ [⟨⟨1⟩, 0⟩, ⟨⟨2⟩, 1⟩]

/-- Child 4 is sent a second message while it is in `handle`, and then the supervisor is
stopped. -/
def stoppedInHandle : List (SysEvent Unit Unit) :=
  bothSpawn ++ [.env (.task ⟨3⟩ .poll), .env (.task ⟨3⟩ (.preStart (.ok ()))),
    .env (.post ⟨4⟩ (.msg ())), .env (.task ⟨4⟩ .poll), .env (.task ⟨4⟩ (.preStart (.ok ()))),
    .env (.task ⟨4⟩ (.recvControl false)), .env (.task ⟨4⟩ .recvMailbox),
    .env (.task ⟨4⟩ (.handleBegin (.ok ()))), .env (.post ⟨4⟩ (.msg ())), .sup .shutdown]

/-- Child 4 fails and signals its supervisor, which sends both children a `Stop` and ends; child 3
takes it. -/
def failsDuringShutdown : List (SysEvent Unit Unit) :=
  let fails : List Choice := [.handle (.err "boom") 0, .lookup, .send, .postStop (.ok ()),
    .linksDone, .unregister, .finish]
  fails.map (fun c => .env (.task ⟨4⟩ c)) ++ [.sup .sendStop, .sup .sendStop, .sup .exit,
    .env (.task ⟨3⟩ (.recvControl false)), .env (.task ⟨3⟩ .recvMailbox)]

/-- The result where the supervisor waits for room in the mailbox of child 4, which fails before
it is told to stop. -/
theorem no_standoff_failsDuring : ∃ s₀ s s' : System Unit Unit, wide = some s₀ ∧
    s₀.run stoppedInHandle = some s ∧ s.StopWaits ⟨4⟩ ∧ s.run failsDuringShutdown = some s' ∧
    Always System.step (fun s => ¬ s.Standoff) s₀ (stoppedInHandle ++ failsDuringShutdown) := by
  obtain ⟨s₀, s, s', hstart, hrun, hwaits, hrun', hroom⟩ : ∃ s₀ s s' : System Unit Unit,
      wide = some s₀ ∧ s₀.run stoppedInHandle = some s ∧ s.StopWaits ⟨4⟩ ∧
      s.run failsDuringShutdown = some s' ∧
      Along System.step (fun s _ _ => (s.rt.signals s.sup.channel).isFull = false ∧
        (s.rt.signals s.sup.channel).hasLastRoom = false) s₀
        (stoppedInHandle ++ failsDuringShutdown) :=
    ⟨_, _, _, rfl, rfl, ⟨⟨_, rfl⟩, rfl⟩, rfl, by decide +kernel⟩
  exact ⟨s₀, s, s', hstart, hrun, hwaits, hrun', (no_standoff_iff reachable_twoSpecs hstart _).mpr
    (hroom.mono fun h => not_closesWait_of_room h.1 h.2)⟩

/-- Two children whose mailboxes have capacity 1, under a supervisor whose signal queue has. -/
def narrow : Option (System Unit Unit) :=
  start twoSpecs { SupervisorConfig.default with mailboxCapacity := 1 } ⟨1, none, none⟩
    [⟨⟨1⟩, 0⟩, ⟨⟨2⟩, 1⟩]

/-- Child 3 fails and its signal fills the queue. Child 4 is sent a second message while it is in
`handle`, and fails. Then the supervisor is stopped. -/
def failsWhileStopping : List (SysEvent Unit Unit) :=
  bothSpawn ++ failsIn ⟨3⟩ ++
    [.env (.post ⟨4⟩ (.msg ())), .env (.task ⟨4⟩ .poll), .env (.task ⟨4⟩ (.preStart (.ok ()))),
      .env (.task ⟨4⟩ (.recvControl false)), .env (.task ⟨4⟩ .recvMailbox),
      .env (.task ⟨4⟩ (.handleBegin (.ok ()))), .env (.post ⟨4⟩ (.msg ())),
      .env (.task ⟨4⟩ (.handle (.err "boom") 0)), .env (.task ⟨4⟩ .lookup), .sup .shutdown]

/-- The supervisor waits for room in the mailbox of child 4, which waits for room in the signal
queue. -/
theorem shutdown_standoff : ∃ s₀ s : System Unit Unit, narrow = some s₀ ∧
    s₀.run failsWhileStopping = some s ∧ s.Standoff :=
  ⟨_, _, rfl, rfl, ⟨4⟩, ⟨⟨_, rfl⟩, rfl⟩, ⟨_, _, rfl, rfl⟩, rfl⟩

end System

end LaneSwitchboards
