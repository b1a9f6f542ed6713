import LaneSwitchboards.Actor.Runtime

/-!
# What one event changes

`Access` lists the ways in which a task step touches the shared state, each with what it
observes and what it changes; `observe_access` is the inversion of `Runtime.observe`. From it
come the frame lemmas, field by field. A task step changes the local state of its own task
only (`tasks_step`); a message enters a control channel only where a task completes the send
it was awaiting (`control_step`); a signal only where a task completes its notification
(`signals_step`); an envelope only by a user's request (`mailbox_step`). Ids are handed out
once: what lies above the counter is untouched (`Fresh`).

Every invariant of the runtime is proved from these lemmas and the local lemmas about
`Task.step`, never from the definition of `Runtime.step`.
-/

namespace LaneSwitchboards

open Function

/-- An input that the shared state has no part in. -/
def Input.internal {M A : Type} : Input M A → Bool
  | poll | preStart _ | handleBegin _ | handle _ _ | timeout _ | handleStuck _ => true
  | onUpgrade _ | postStop _ | next _ | linksDone => true
  | _ => false

/-- An event that is neither a task step nor a spawn. -/
def RtEvent.isEnv {M A : Type} : RtEvent M A → Bool
  | task _ _ | spawn _ _ _ => false
  | _ => true

namespace Runtime

variable {M A : Type}

/-- The event is a step of the task of `i` in which it observes `x`. -/
def Observes (w : Runtime M A) (i : ActorId) (e : RtEvent M A) (x : Input M A) : Prop :=
  ∃ c t w₁, e = .task i c ∧ w.tasks i = some t ∧ w.observe i t.phase c = some (x, w₁)

/-- The ways in which the task of `i`, in a given phase, touches the shared state. -/
inductive Access (w : Runtime M A) (i : ActorId) : Phase M → Input M A → Runtime M A → Prop
  | internal {p x} (hx : x.internal = true) : Access w i p x w
  | recvControl {m trap ch} (h : (w.control i).recv = some (m, ch)) :
      Access w i .select (.control (some m) trap) (w.setControl i ch)
  | controlEmpty (h : (w.control i).queue = []) : Access w i .select .controlEmpty w
  | controlClosed {trap} (h : w.registry i = none) : Access w i .select (.control none trap) w
  | recvMailbox {e ch} (h : (w.mailbox i).recv = some (e, ch)) :
      Access w i .pollMailbox (.envelope (some e)) (w.setMailbox i ch)
  | mailboxEmpty (h : (w.mailbox i).queue = []) : Access w i .pollMailbox .mailboxEmpty w
  | mailboxClosed (h : w.refs i = 0) : Access w i .pollMailbox (.envelope none) w
  | lookupLink {peer} :
      Access w i (.reverseLink peer) (.found (w.hasControlSender peer)) w
  | lookupPeer {r peer rest} :
      Access w i (.lookupPeer r peer rest) (.found (w.hasControlSender peer)) w
  | lookupSupervisor {r} : Access w i (.notify r) (.supervisor (w.supervisorSender i)) w
  | sendLink {peer ch} (h : (w.control peer).send (.link i) = some ch) :
      Access w i (.sendLink peer) .sent (w.setControl peer ch)
  | sendLinkedExit {r peer rest ch} (h : (w.control peer).send (.linkedExit i r) = some ch) :
      Access w i (.sendLinkedExit r peer rest) .sent (w.setControl peer ch)
  | sendSignal {k r ch} (h : (w.signals k).send ⟨i, r⟩ = some ch) :
      Access w i (.sendSignal k r) .sent (w.setSignals k ch)
  | unregister {p} : Access w i p .unregistered { w with registry := update w.registry i none }
  | finish {p} : Access w i p .finished (w.dropReceivers i)
  | panic {p} : Access w i p .panicked (w.dropReceivers i)

variable {w w' w₁ : Runtime M A} {i j : ActorId} {c : Choice} {p : Phase M} {x : Input M A}
  {e : RtEvent M A} {t t' : Task M A}

/-- **Inversion of an access.** -/
theorem observe_access (h : w.observe i p c = some (x, w₁)) : Access w i p x w₁ := by
  cases c with
  | recvControl trap =>
    simp only [observe, Option.ite_none_right_eq_some, Option.some.injEq] at h
    obtain ⟨hp, h⟩ := h
    obtain rfl : p = .select := by split at hp <;> simp_all
    unfold observeControl at h
    split at h
    · next m ch hrecv => cases h; exact .recvControl hrecv
    · next hrecv =>
      split at h <;> cases h
      · exact .controlEmpty (Chan.recv_eq_none.mp hrecv)
      · next hreg => exact .controlClosed (by simpa [hasControlSender] using hreg)
  | recvMailbox =>
    simp only [observe, Option.ite_none_right_eq_some, Option.some.injEq] at h
    obtain ⟨hp, h⟩ := h
    obtain rfl : p = .pollMailbox := by split at hp <;> simp_all
    unfold observeMailbox at h
    split at h
    · next m ch hrecv => cases h; exact .recvMailbox hrecv
    · next hrecv =>
      split at h <;> cases h
      · next href => exact .mailboxClosed href
      · exact .mailboxEmpty (Chan.recv_eq_none.mp hrecv)
  | lookup =>
    simp only [observe, Option.map_eq_some_iff, Prod.mk.injEq] at h
    obtain ⟨x', hx', rfl, rfl⟩ := h
    unfold observeLookup at hx'
    split at hx' <;> cases hx'
    · exact .lookupLink
    · exact .lookupPeer
    · exact .lookupSupervisor
  | send =>
    simp only [observe, Option.map_eq_some_iff, Prod.mk.injEq] at h
    obtain ⟨w₂, hw, rfl, rfl⟩ := h
    unfold completeSend at hw
    split at hw
    · obtain ⟨ch, hch, rfl⟩ := Option.map_eq_some_iff.mp hw; exact .sendLink hch
    · obtain ⟨ch, hch, rfl⟩ := Option.map_eq_some_iff.mp hw; exact .sendLinkedExit hch
    · obtain ⟨ch, hch, rfl⟩ := Option.map_eq_some_iff.mp hw; exact .sendSignal hch
    · cases hw
  | unregister => cases h; exact .unregister
  | finish => cases h; exact .finish
  | panic => cases h; exact .panic
  | _ => cases h; exact .internal rfl

namespace Access

/-- An access leaves every task, the reference counts and the counters alone. -/
theorem frame (h : Access w i p x w₁) : w₁.tasks = w.tasks ∧ w₁.refs = w.refs ∧
    w₁.nextId = w.nextId ∧ w₁.nextSup = w.nextSup := by
  cases h <;> exact ⟨rfl, rfl, rfl, rfl⟩

/-- Only the task that leaves the registry changes it, and only at its own id. -/
theorem registry (h : Access w i p x w₁) : w₁.registry = w.registry ∨
    x = .unregistered ∧ w₁.registry = update w.registry i none := by
  cases h with
  | unregister => exact Or.inr ⟨rfl, rfl⟩
  | _ => exact Or.inl rfl

/-- A control message queued after an access was queued before it, or it is the message whose
send the access completes. -/
theorem control {m : ControlMsg} (h : Access w i p x w₁) (hm : m ∈ (w₁.control j).queue) :
    m ∈ (w.control j).queue ∨ x = .sent ∧ (p = .sendLink j ∧ m = .link i ∨
      ∃ r rest, p = .sendLinkedExit r j rest ∧ m = .linkedExit i r) := by
  cases h with
  | recvControl h =>
    by_cases hj : j = i
    · subst hj
      simp only [setControl, update_self] at hm
      exact Or.inl (Chan.mem_of_mem_recv h hm)
    · simp only [setControl, update_of_ne hj] at hm
      exact Or.inl hm
  | @sendLink peer ch h =>
    by_cases hj : j = peer
    · subst hj
      simp only [setControl, update_self] at hm
      exact (Chan.mem_of_mem_send h hm).imp_right fun hm => ⟨rfl, Or.inl ⟨rfl, hm⟩⟩
    · simp only [setControl, update_of_ne hj] at hm
      exact Or.inl hm
  | @sendLinkedExit r peer rest ch h =>
    by_cases hj : j = peer
    · subst hj
      simp only [setControl, update_self] at hm
      exact (Chan.mem_of_mem_send h hm).imp_right fun hm => ⟨rfl, Or.inr ⟨r, rest, rfl, hm⟩⟩
    · simp only [setControl, update_of_ne hj] at hm
      exact Or.inl hm
  | finish | panic =>
    by_cases hj : j = i
    · subst hj; simp [dropReceivers] at hm
    · simp only [dropReceivers, update_of_ne hj] at hm
      exact Or.inl hm
  | _ => exact Or.inl hm

/-- An access adds no envelope to a mailbox, keeps its history and does not open it. -/
theorem mailbox (h : Access w i p x w₁) (j : ActorId) :
    (w₁.mailbox j).accepted = (w.mailbox j).accepted ∧
      (w₁.mailbox j).queue <:+ (w.mailbox j).queue ∧
      ((w₁.mailbox j).isOpen = true → (w.mailbox j).isOpen = true) := by
  cases h with
  | @recvMailbox e ch h =>
    by_cases hj : j = i
    · subst hj
      simp only [setMailbox, update_self]
      refine ⟨Chan.accepted_recv h, ?_, (Chan.isOpen_recv h).symm.trans⟩
      rw [(Chan.recv_eq_some.mp h).1]
      exact List.suffix_cons _ _
    · simp only [setMailbox, update_of_ne hj]
      exact ⟨trivial, List.suffix_rfl, id⟩
  | finish | panic =>
    by_cases hj : j = i
    · subst hj
      simp [dropReceivers, List.nil_suffix]
    · simp only [dropReceivers, update_of_ne hj]
      exact ⟨trivial, List.suffix_rfl, id⟩
  | _ => exact ⟨rfl, List.suffix_rfl, id⟩

/-- An access changes a signal channel only by completing the task's own notification. -/
theorem signals (h : Access w i p x w₁) (k : SupId) : w₁.signals k = w.signals k ∨
    x = .sent ∧ ∃ r, p = .sendSignal k r ∧ (w.signals k).send ⟨i, r⟩ = some (w₁.signals k) := by
  cases h with
  | @sendSignal k' r ch h =>
    by_cases hk : k = k'
    · subst hk
      exact Or.inr ⟨rfl, r, rfl, by simpa [setSignals] using h⟩
    · exact Or.inl (by simp [setSignals, update_of_ne hk])
  | _ => exact Or.inl rfl

end Access

/-! ### One event -/

/-- **Inversion of a task event**, with the access it makes. -/
theorem step_task (h : w.step (.task i c) = some w') : ∃ t x w₁ t',
    w.tasks i = some t ∧ Access w i t.phase x w₁ ∧ t.step x = some t' ∧
      w' = { w₁.setTask i t' with stats := w.stats.record i (t.recordStats x) } := by
  obtain ⟨t, x, w₁, t', ht, hx, hstep, rfl⟩ := taskStep_inv h
  exact ⟨t, x, w₁, t', ht, observe_access hx, hstep, rfl⟩

/-- **Inversion of a spawn.** -/
theorem step_spawn {config : ActorConfig} {actor : A} {supervisor : Option SupId}
    (h : w.step (.spawn config actor supervisor) = some w') :
    (∀ k, supervisor = some k → k < w.nextSup) ∧
      w.spawnOnRuntime config actor supervisor = some (⟨w.nextId⟩, w') := by
  simp only [step, Option.ite_none_right_eq_some, Option.map_eq_some_iff, Prod.exists] at h
  obtain ⟨hsup, i, w₁, hspawn, rfl⟩ := h
  refine ⟨fun k hk => by simpa [hk] using hsup, ?_⟩
  by_cases hcap : Chan.Fits config.mailboxCapacity
  swap
  · simp [spawnOnRuntime, hcap] at hspawn
  · simp only [spawnOnRuntime, hcap, not_true, if_false, Option.some.injEq,
      Prod.mk.injEq] at hspawn ⊢
    exact ⟨trivial, hspawn.2⟩

/-- The state after a spawn. -/
theorem spawnOnRuntime_eq {config : ActorConfig} {actor : A} {supervisor : Option SupId}
    (h : w.spawnOnRuntime config actor supervisor = some (i, w')) : i = ⟨w.nextId⟩ ∧
    w' = { w with
      nextId := w.nextId + 1
      tasks := update w.tasks i (some ⟨.spawned, actor, ∅, [], config⟩)
      registry := update w.registry i (some ⟨supervisor⟩)
      mailbox := update w.mailbox i (.new config.mailboxCapacity)
      control := update w.control i (.new config.mailboxCapacity)
      refs := update w.refs i 1
      stats := w.stats.register i } := by
  by_cases hcap : Chan.Fits config.mailboxCapacity
  swap
  · simp [spawnOnRuntime, hcap] at h
  · simp only [spawnOnRuntime, hcap, not_true, if_false, Option.some.injEq, Prod.mk.injEq] at h
    obtain ⟨rfl, rfl⟩ := h
    exact ⟨rfl, rfl⟩

theorem step_spawn_eq {config : ActorConfig} {actor : A} {supervisor : Option SupId}
    (h : w.step (.spawn config actor supervisor) = some w') :
    w' = { w with
      nextId := w.nextId + 1
      tasks := update w.tasks ⟨w.nextId⟩ (some ⟨.spawned, actor, ∅, [], config⟩)
      registry := update w.registry ⟨w.nextId⟩ (some ⟨supervisor⟩)
      mailbox := update w.mailbox ⟨w.nextId⟩ (.new config.mailboxCapacity)
      control := update w.control ⟨w.nextId⟩ (.new config.mailboxCapacity)
      refs := update w.refs ⟨w.nextId⟩ 1
      stats := w.stats.register ⟨w.nextId⟩ } :=
  (spawnOnRuntime_eq (step_spawn h).2).2

/-- The channels of a fresh actor are not full. -/
theorem not_isFull_spawned {config : ActorConfig} {actor : A} {supervisor : Option SupId}
    (h : w.spawnOnRuntime config actor supervisor = some (i, w')) :
    (w'.mailbox i).isFull = false ∧ (w'.control i).isFull = false := by
  have hcap : Chan.Fits config.mailboxCapacity := by
    by_contra hnot
    simp [spawnOnRuntime, hnot] at h
  obtain ⟨-, rfl⟩ := spawnOnRuntime_eq h
  simp [Chan.isFull, Chan.new, hcap.1.ne']

/-- `spawn_on_runtime` is the event of a spawn. -/
theorem step_of_spawn {config : ActorConfig} {actor : A} {supervisor : Option SupId}
    (hsup : ∀ k, supervisor = some k → k < w.nextSup)
    (h : w.spawnOnRuntime config actor supervisor = some (i, w')) :
    w.step (.spawn config actor supervisor) = some w' := by
  have hall : supervisor.all (· < w.nextSup) = true := by
    cases supervisor with
    | none => rfl
    | some k => simpa using hsup k rfl
  simp [step, hall, h]

/-- **Inversion of a request.** -/
theorem step_post {env : Envelope M A} (h : w.step (.post i env) = some w') :
    (w.mailbox i).hasRoom = true ∧ w' = w.setMailbox i ((w.mailbox i).push env) := by
  simp only [step, post, Option.ite_none_right_eq_some, Option.some.injEq] at h
  exact ⟨h.1.2, h.2.symm⟩

/-- The environment's other events leave tasks, control channels and the registry alone. -/
theorem env_frame (h : w.step e = some w') (he : e.isEnv = true) :
    w'.tasks = w.tasks ∧ w'.control = w.control ∧ w'.registry = w.registry := by
  cases e with
  | task | spawn => cases he
  | post i env =>
    rw [(step_post h).2]
    exact ⟨rfl, rfl, rfl⟩
  | recvSignal k =>
    obtain ⟨a, -, rfl⟩ := Option.map_eq_some_iff.mp h
    exact ⟨rfl, rfl, rfl⟩
  | cloneRef i | openSignals n =>
    simp only [step, Option.ite_none_right_eq_some, Option.ite_none_left_eq_some,
      Option.some.injEq] at h
    rw [← h.2]
    exact ⟨rfl, rfl, rfl⟩
  | newId | dropRef i | closeSignals k =>
    cases h
    exact ⟨rfl, rfl, rfl⟩

/-- What a task observes is determined by the state. -/
theorem observes_task (ht : w.tasks i = some t) (hx : w.observe i t.phase c = some (x, w₁))
    {y : Input M A} : w.Observes i (.task i c) y ↔ y = x := by
  constructor
  · rintro ⟨c', t', w₂, hc, ht', hy⟩
    cases hc
    obtain rfl : t = t' := Option.some.inj (ht.symm.trans ht')
    exact (Prod.mk.inj (Option.some.inj (hy.symm.trans hx))).1
  · rintro rfl
    exact ⟨c, t, w₁, rfl, ht, hx⟩

/-- An event is observed by one task, in one way. -/
theorem Observes.unique {y : Input M A} (h : w.Observes i e x) (h' : w.Observes j e y) :
    i = j ∧ x = y := by
  obtain ⟨c, t, w₁, rfl, ht, hx⟩ := h
  obtain ⟨c', t', w₂, heq, ht', hy⟩ := id h'
  obtain rfl : i = j := (RtEvent.task.inj heq).1
  exact ⟨rfl, ((observes_task ht hx).mp h').symm⟩

/-- **Inversion of a task event**, with what the task observes. -/
theorem Observes.step (hobs : w.Observes i e x) (h : w.step e = some w') : ∃ t w₁ t',
    w.tasks i = some t ∧ Access w i t.phase x w₁ ∧ t.step x = some t' ∧
      w' = { w₁.setTask i t' with stats := w.stats.record i (t.recordStats x) } := by
  obtain ⟨c, t, w₁, rfl, ht, hx⟩ := hobs
  obtain ⟨s, y, w₂, t', hs, hy, hstep, hw'⟩ := taskStep_inv h
  obtain rfl : t = s := Option.some.inj (ht.symm.trans hs)
  obtain ⟨rfl, rfl⟩ : x = y ∧ w₁ = w₂ := by simpa using hx.symm.trans hy
  exact ⟨t, w₁, t', ht, observe_access hx, hstep, hw'⟩

/-- **Tasks.** An event changes the local state of at most one task: by a step of that task,
or by spawning it at the fresh id. -/
theorem tasks_step (h : w.step e = some w') (j : ActorId) : w'.tasks j = w.tasks j ∨
    (∃ c t x w₁ t', e = .task j c ∧ w.tasks j = some t ∧ Access w j t.phase x w₁ ∧
      w.Observes j e x ∧ t.step x = some t' ∧ w'.tasks j = some t') ∨
    ∃ config actor supervisor, e = .spawn config actor supervisor ∧ j = ⟨w.nextId⟩ ∧
      w'.tasks j = some ⟨.spawned, actor, ∅, [], config⟩ := by
  cases e with
  | task i c =>
    obtain ⟨t, x, w₁, t', ht, hx, hstep, rfl⟩ := taskStep_inv h
    have hacc := observe_access hx
    by_cases hj : j = i
    · subst hj
      exact Or.inr (Or.inl ⟨c, t, x, w₁, t', rfl, ht, hacc, ⟨c, t, w₁, rfl, ht, hx⟩, hstep,
        by simp [setTask]⟩)
    · exact Or.inl (by simp [setTask, update_of_ne hj, hacc.frame.1])
  | spawn config actor supervisor =>
    obtain rfl := step_spawn_eq h
    by_cases hj : j = ⟨w.nextId⟩
    · subst hj
      exact Or.inr (Or.inr ⟨config, actor, supervisor, rfl, rfl, by simp⟩)
    · exact Or.inl (by simp [update_of_ne hj])
  | _ => exact Or.inl (congrFun (env_frame h rfl).1 j)

/-- **Control channels.** A queued control message was queued before, or a task has just
completed the send it was awaiting. -/
theorem control_step {m : ControlMsg} (h : w.step e = some w')
    (hm : m ∈ (w'.control j).queue) : m ∈ (w.control j).queue ∨
      ∃ i t, w.tasks i = some t ∧ (t.phase = .sendLink j ∧ m = .link i ∨
        ∃ r rest, t.phase = .sendLinkedExit r j rest ∧ m = .linkedExit i r) := by
  cases e with
  | task i c =>
    obtain ⟨t, x, w₁, t', ht, hacc, hstep, rfl⟩ := step_task h
    exact (hacc.control hm).imp_right fun hsend => ⟨i, t, ht, hsend.2⟩
  | spawn config actor supervisor =>
    obtain rfl := step_spawn_eq h
    by_cases hj : j = ⟨w.nextId⟩
    · subst hj
      simp [Chan.new] at hm
    · simp only [update_of_ne hj] at hm
      exact Or.inl hm
  | _ =>
    rw [(env_frame h rfl).2.1] at hm
    exact Or.inl hm

/-- **Registry.** An entry is made by a spawn at the fresh id, and removed by its own task. -/
theorem registry_step (h : w.step e = some w') (j : ActorId) : w'.registry j = w.registry j ∨
    (∃ c t t', e = .task j c ∧ w.tasks j = some t ∧ t.step .unregistered = some t' ∧
      w'.tasks j = some t' ∧ w'.registry j = none) ∨
    ∃ config actor supervisor, e = .spawn config actor supervisor ∧ j = ⟨w.nextId⟩ ∧
      w'.registry j = some ⟨supervisor⟩ := by
  cases e with
  | task i c =>
    obtain ⟨t, x, w₁, t', ht, hacc, hstep, rfl⟩ := step_task h
    rcases hacc.registry with hreg | ⟨rfl, hreg⟩
    · exact Or.inl (by simp [setTask, hreg])
    · by_cases hj : j = i
      · subst hj
        exact Or.inr (Or.inl
          ⟨c, t, t', rfl, ht, hstep, by simp [setTask], by simp [setTask, hreg]⟩)
      · exact Or.inl (by simp [setTask, hreg, update_of_ne hj])
  | spawn config actor supervisor =>
    obtain rfl := step_spawn_eq h
    by_cases hj : j = ⟨w.nextId⟩
    · subst hj
      exact Or.inr (Or.inr ⟨config, actor, supervisor, rfl, rfl, by simp⟩)
    · exact Or.inl (by simp [update_of_ne hj])
  | _ => exact Or.inl (congrFun (env_frame h rfl).2.2 j)

/-- **Mailboxes.** The history of a mailbox grows by users' requests only, and starts empty
with the spawn; nothing enters its queue but what enters its history. -/
theorem mailbox_step (h : w.step e = some w') (j : ActorId) :
    ((w'.mailbox j).accepted = (w.mailbox j).accepted ∧
      (w'.mailbox j).queue <:+ (w.mailbox j).queue ∧
      ((w'.mailbox j).isOpen = true → (w.mailbox j).isOpen = true)) ∨
    (∃ env, e = .post j env ∧ (w.mailbox j).hasRoom = true ∧
      w'.mailbox j = (w.mailbox j).push env) ∨
    ∃ config actor supervisor, e = .spawn config actor supervisor ∧ j = ⟨w.nextId⟩ ∧
      w'.mailbox j = .new config.mailboxCapacity := by
  cases e with
  | task i c =>
    obtain ⟨t, x, w₁, t', ht, hacc, hstep, rfl⟩ := step_task h
    exact Or.inl (hacc.mailbox j)
  | spawn config actor supervisor =>
    obtain rfl := step_spawn_eq h
    by_cases hj : j = ⟨w.nextId⟩
    · subst hj
      exact Or.inr (Or.inr ⟨config, actor, supervisor, rfl, rfl, by simp⟩)
    · refine Or.inl ?_
      simp only [update_of_ne hj]
      exact ⟨trivial, List.suffix_rfl, id⟩
  | post i env =>
    obtain ⟨hroom, rfl⟩ := step_post h
    by_cases hj : j = i
    · subst hj
      exact Or.inr (Or.inl ⟨env, rfl, hroom, by simp [setMailbox]⟩)
    · refine Or.inl ?_
      simp only [setMailbox, update_of_ne hj]
      exact ⟨trivial, List.suffix_rfl, id⟩
  | recvSignal k =>
    obtain ⟨a, -, rfl⟩ := Option.map_eq_some_iff.mp h
    exact Or.inl ⟨rfl, List.suffix_rfl, id⟩
  | cloneRef i | openSignals n =>
    simp only [step, Option.ite_none_right_eq_some, Option.ite_none_left_eq_some,
      Option.some.injEq] at h
    rw [← h.2]
    exact Or.inl ⟨rfl, List.suffix_rfl, id⟩
  | newId | dropRef i | closeSignals k =>
    cases h
    exact Or.inl ⟨rfl, List.suffix_rfl, id⟩

/-- **Signal channels.** A signal is accepted only where a task completes its notification,
and it carries that task's id and reason. -/
theorem signals_step (h : w.step e = some w') (k : SupId) :
    ((w'.signals k).accepted = (w.signals k).accepted ∧
      (w'.signals k).queue <:+ (w.signals k).queue ∧
      ((w'.signals k).isOpen = true → (w.signals k).isOpen = true)) ∨
    (∃ i c t t' r, e = .task i c ∧ w.tasks i = some t ∧ t.phase = .sendSignal k r ∧
      t.step .sent = some t' ∧ w'.tasks i = some t' ∧ (w.signals k).isOpen = true ∧
      w'.signals k = (w.signals k).push ⟨i, r⟩) ∨
    k = w.nextSup ∧ w'.nextSup = w.nextSup + 1 ∧ ∃ n, w'.signals k = .new n := by
  cases e with
  | task i c =>
    obtain ⟨t, x, w₁, t', ht, hacc, hstep, rfl⟩ := step_task h
    rcases hacc.signals k with hk | ⟨rfl, r, hp, hsend⟩
    · exact Or.inl (by simp [setTask, hk, List.suffix_rfl])
    · rcases Chan.send_eq_some.mp hsend with ⟨hroom, hpush⟩ | ⟨-, hsame⟩
      · have hopen := Chan.isOpen_of_hasRoom hroom
        exact Or.inr (Or.inl
          ⟨i, c, t, t', r, rfl, ht, hp, hstep, by simp [setTask], hopen, hpush⟩)
      · exact Or.inl (by simp [setTask, hsame, List.suffix_rfl])
  | spawn config actor supervisor =>
    obtain rfl := step_spawn_eq h
    exact Or.inl ⟨rfl, List.suffix_rfl, id⟩
  | post i env =>
    rw [(step_post h).2]
    exact Or.inl ⟨rfl, List.suffix_rfl, id⟩
  | recvSignal k' =>
    simp only [step, Option.map_eq_some_iff, Prod.exists] at h
    obtain ⟨sig, ch, hrecv, rfl⟩ := h
    by_cases hk : k = k'
    · subst hk
      simp only [setSignals, update_self]
      refine Or.inl ⟨Chan.accepted_recv hrecv, ?_, (Chan.isOpen_recv hrecv).symm.trans⟩
      rw [(Chan.recv_eq_some.mp hrecv).1]
      exact List.suffix_cons _ _
    · exact Or.inl (by simp [setSignals, update_of_ne hk, List.suffix_rfl])
  | closeSignals k' =>
    cases h
    by_cases hk : k = k'
    · subst hk
      exact Or.inl (by simp [setSignals, List.nil_suffix])
    · exact Or.inl (by simp [setSignals, update_of_ne hk, List.suffix_rfl])
  | openSignals n =>
    simp only [step, Option.ite_none_left_eq_some, Option.some.injEq] at h
    obtain ⟨-, rfl⟩ := h
    by_cases hk : k = w.nextSup
    · subst hk
      exact Or.inr (Or.inr ⟨rfl, rfl, n, by simp⟩)
    · exact Or.inl (by simp [update_of_ne hk, List.suffix_rfl])
  | cloneRef i =>
    simp only [step, Option.ite_none_right_eq_some, Option.some.injEq] at h
    rw [← h.2]
    exact Or.inl ⟨rfl, List.suffix_rfl, id⟩
  | newId | dropRef i =>
    cases h
    exact Or.inl ⟨rfl, List.suffix_rfl, id⟩

/-- The counters only grow. -/
theorem counters_step (h : w.step e = some w') :
    w.nextId ≤ w'.nextId ∧ w.nextSup ≤ w'.nextSup := by
  cases e with
  | task i c =>
    obtain ⟨t, x, w₁, t', ht, hacc, hstep, rfl⟩ := step_task h
    obtain ⟨-, -, hid, hsup⟩ := hacc.frame
    exact ⟨hid.ge, hsup.ge⟩
  | spawn config actor supervisor =>
    obtain rfl := step_spawn_eq h
    exact ⟨Nat.le_succ _, le_rfl⟩
  | post i env =>
    rw [(step_post h).2]
    exact ⟨le_rfl, le_rfl⟩
  | recvSignal k =>
    obtain ⟨a, -, rfl⟩ := Option.map_eq_some_iff.mp h
    exact ⟨le_rfl, le_rfl⟩
  | cloneRef i | openSignals n =>
    simp only [step, Option.ite_none_right_eq_some, Option.ite_none_left_eq_some,
      Option.some.injEq] at h
    rw [← h.2]
    exact ⟨le_rfl, by first | exact le_rfl | exact Nat.le_succ _⟩
  | newId =>
    cases h
    exact ⟨Nat.le_succ _, le_rfl⟩
  | dropRef i | closeSignals k =>
    cases h
    exact ⟨le_rfl, le_rfl⟩

/-- A task that was spawned is never forgotten. -/
theorem tasks_mono (h : w.step e = some w') (ht : w.tasks i = some t) :
    ∃ t', w'.tasks i = some t' := by
  rcases tasks_step h i with hsame | ⟨c, t, x, w₁, t', -, -, -, -, -, ht'⟩ | ⟨_, _, _, -, -, ht'⟩
  · exact ⟨t, hsame.trans ht⟩
  · exact ⟨t', ht'⟩
  · exact ⟨_, ht'⟩

/-! ### Ids are handed out once -/

/-- What lies above the counters is untouched. -/
structure Fresh (w : Runtime M A) : Prop where
  tasks : ∀ i : ActorId, w.nextId ≤ i.n → w.tasks i = none
  mailbox : ∀ i : ActorId, w.nextId ≤ i.n →
    (w.mailbox i).accepted = [] ∧ (w.mailbox i).isOpen = false
  signals : ∀ k, w.nextSup ≤ k → (w.signals k).accepted = [] ∧ (w.signals k).isOpen = false

theorem fresh_init : (init : Runtime M A).Fresh :=
  ⟨fun _ _ => rfl, fun _ _ => ⟨rfl, rfl⟩, fun _ _ => ⟨rfl, rfl⟩⟩

/-- A spawn takes the id at the counter and moves the counter past it. -/
theorem nextId_spawn {config : ActorConfig} {actor : A} {supervisor : Option SupId}
    (h : w.step (.spawn config actor supervisor) = some w') : w'.nextId = w.nextId + 1 := by
  obtain rfl := step_spawn_eq h
  rfl

theorem Fresh.step (hf : w.Fresh) (h : w.step e = some w') : w'.Fresh := by
  obtain ⟨hid, hsup⟩ := counters_step h
  refine ⟨fun i hi => ?_, fun i hi => ?_, fun k hk => ?_⟩
  · rcases tasks_step h i with hsame | ⟨c, t, x, w₁, t', rfl, ht, -⟩ |
      ⟨config, actor, supervisor, rfl, rfl, -⟩
    · rw [hsame]
      exact hf.tasks i (hid.trans hi)
    · rw [hf.tasks i (hid.trans hi)] at ht
      cases ht
    · have := nextId_spawn h
      simp only at hi
      omega
  · rcases mailbox_step h i with ⟨hacc, -, hopen⟩ | ⟨env, rfl, hroom, -⟩ |
      ⟨config, actor, supervisor, rfl, rfl, -⟩
    · obtain ⟨h₁, h₂⟩ := hf.mailbox i (hid.trans hi)
      refine ⟨hacc.trans h₁, ?_⟩
      by_contra hne
      rw [hopen (by simpa using hne)] at h₂
      cases h₂
    · have := Chan.isOpen_of_hasRoom hroom
      rw [(hf.mailbox i (hid.trans hi)).2] at this
      cases this
    · have := nextId_spawn h
      simp only at hi
      omega
  · rcases signals_step h k with ⟨hacc, -, hopen⟩ | ⟨i, c, t, t', r, -, -, -, -, -, hopen, -⟩ |
      ⟨rfl, hnext, -⟩
    · obtain ⟨h₁, h₂⟩ := hf.signals k (hsup.trans hk)
      refine ⟨hacc.trans h₁, ?_⟩
      by_contra hne
      rw [hopen (by simpa using hne)] at h₂
      cases h₂
    · rw [(hf.signals k (hsup.trans hk)).2] at hopen
      cases hopen
    · rw [hnext] at hk
      exact absurd hk (Nat.not_succ_le_self _)

/-- The id of a task is below the counter. -/
theorem Fresh.lt_nextId (hf : w.Fresh) (ht : w.tasks i = some t) : i.n < w.nextId := by
  by_contra hlt
  rw [hf.tasks i (Nat.le_of_not_lt hlt)] at ht
  cases ht

/-- A spawn takes an id that no task has. -/
theorem Fresh.ne_nextId (hf : w.Fresh) (ht : w.tasks i = some t) : i ≠ ⟨w.nextId⟩ := by
  rintro rfl
  exact absurd (hf.lt_nextId ht) (Nat.lt_irrefl _)

/-- **Tasks, frame**: the task of `i` is untouched by every event but its own steps. -/
theorem Fresh.tasks_of_ne (hf : w.Fresh) (h : w.step e = some w') (ht : w.tasks i = some t)
    (he : ∀ c, e ≠ .task i c) : w'.tasks i = some t := by
  rcases tasks_step h i with hsame | ⟨c, _, _, _, _, rfl, -⟩ | ⟨_, _, _, -, hi, -⟩
  · exact hsame.trans ht
  · exact absurd rfl (he c)
  · exact absurd hi (hf.ne_nextId ht)

theorem Fresh.run {es : List (RtEvent M A)} (hf : w.Fresh) (h : w.run es = some w') : w'.Fresh :=
  Transition.invariant_run (fun hf h => hf.step h) hf h

/-- Ids start at 1, and the sentinel id is never a task's. -/
theorem Reachable.ids (h : w.Reachable) : 1 ≤ w.nextId ∧ w.tasks .DEAD = none := by
  obtain ⟨es, hes⟩ := h
  refine Transition.invariant_run
    (P := fun w : Runtime M A => 1 ≤ w.nextId ∧ w.tasks .DEAD = none) ?_ ⟨le_rfl, rfl⟩ hes
  rintro w e w' ⟨hid, hdead⟩ hst
  refine ⟨hid.trans (counters_step hst).1, ?_⟩
  rcases tasks_step hst .DEAD with hsame | ⟨_, _, _, _, _, -, ht, -⟩ | ⟨_, _, _, -, hi, -⟩
  · rw [hsame]
    exact hdead
  · rw [hdead] at ht
    cases ht
  · have hn : (0 : ℕ) = w.nextId := congrArg ActorId.n hi
    omega

theorem Reachable.dead (h : w.Reachable) : w.tasks .DEAD = none := h.ids.2

theorem Reachable.step (hw : w.Reachable) (h : w.step e = some w') : w'.Reachable := by
  obtain ⟨es, hes⟩ := hw
  exact ⟨es ++ [e], Transition.run_concat.mpr ⟨w, hes, h⟩⟩

theorem Reachable.run {es : List (RtEvent M A)} (hw : w.Reachable) (h : w.run es = some w') :
    w'.Reachable := by
  obtain ⟨ds, hds⟩ := hw
  exact ⟨ds ++ es, Transition.run_trans hds h⟩

theorem tasks_mono_run {es : List (RtEvent M A)} (h : w.run es = some w')
    (ht : w.tasks i = some t) : ∃ t', w'.tasks i = some t' :=
  Transition.invariant_run (P := fun w : Runtime M A => ∃ t, w.tasks i = some t)
    (fun ⟨_, ht⟩ hst => tasks_mono hst ht) ⟨t, ht⟩ h

theorem counters_run {es : List (RtEvent M A)} (h : w.run es = some w') :
    w.nextId ≤ w'.nextId ∧ w.nextSup ≤ w'.nextSup :=
  Transition.invariant_run
    (P := fun v : Runtime M A => w.nextId ≤ v.nextId ∧ w.nextSup ≤ v.nextSup)
    (fun hv hst => ⟨hv.1.trans (counters_step hst).1, hv.2.trans (counters_step hst).2⟩)
    ⟨le_rfl, le_rfl⟩ h

theorem Reachable.fresh (h : w.Reachable) : w.Fresh := by
  obtain ⟨es, hes⟩ := h
  exact fresh_init.run hes

/-- There are fewer tasks than ids handed out, of which 1 was the first. -/
theorem Reachable.length_lt_nextId (h : w.Reachable) {is : List ActorId} (hnodup : is.Nodup)
    (htasks : ∀ i ∈ is, ∃ t, w.tasks i = some t) : is.length < w.nextId := by
  have hids : (is.map ActorId.n).Nodup := hnodup.map fun i j hij => by
    cases i
    cases j
    exact congrArg ActorId.mk hij
  have hsub : is.map ActorId.n ⊆ List.range' 1 (w.nextId - 1) := by
    intro n hn
    obtain ⟨i, hi, rfl⟩ := List.mem_map.mp hn
    obtain ⟨t, ht⟩ := htasks i hi
    have hlt := h.fresh.lt_nextId ht
    have hpos : i.n ≠ 0 := by
      intro hzero
      have hdead : i = .DEAD := congrArg ActorId.mk hzero
      rw [hdead, h.dead] at ht
      cases ht
    rw [List.mem_range'_1]
    omega
  have hle := (hids.subperm hsub).length_le
  have hpos := h.ids.1
  rw [List.length_map, List.length_range'] at hle
  omega

/-! ### The history of a mailbox -/

/-- The history of a mailbox grows at its end. -/
theorem Fresh.accepted_grows (hf : w.Fresh) (h : w.step e = some w') (i : ActorId) :
    (w.mailbox i).accepted <+: (w'.mailbox i).accepted := by
  rcases mailbox_step h i with ⟨hsame, -⟩ | ⟨env, -, -, hpush⟩ | ⟨_, _, _, -, rfl, -⟩
  · rw [hsame]
  · rw [hpush]
    exact List.prefix_append _ _
  · rw [(hf.mailbox ⟨w.nextId⟩ le_rfl).1]
    exact List.nil_prefix

theorem Fresh.accepted_grows_run {es : List (RtEvent M A)} (hf : w.Fresh)
    (h : w.run es = some w') (i : ActorId) :
    (w.mailbox i).accepted <+: (w'.mailbox i).accepted := by
  have hboth := Transition.invariant_run
    (P := fun v : Runtime M A => v.Fresh ∧ (w.mailbox i).accepted <+: (v.mailbox i).accepted)
    (fun hv hst => ⟨hv.1.step hst, hv.2.trans (hv.1.accepted_grows hst i)⟩)
    ⟨hf, List.prefix_rfl⟩ h
  exact hboth.2

/-- Mailboxes are first-in first-out: what is queued is the end of the history. -/
theorem Reachable.fifo (h : w.Reachable) (i : ActorId) : (w.mailbox i).Fifo := by
  obtain ⟨es, hes⟩ := h
  refine Transition.invariant_run (P := fun w : Runtime M A => (w.mailbox i).Fifo) ?_
    Chan.fifo_absent hes
  intro w e w' hfifo hst
  rcases mailbox_step hst i with ⟨hacc, hq, -⟩ | ⟨env, -, -, hpush⟩ | ⟨_, _, _, -, -, hnew⟩
  · unfold Chan.Fifo at hfifo ⊢
    rw [hacc]
    exact hq.trans hfifo
  · rw [hpush]
    exact hfifo.push
  · rw [hnew]
    exact Chan.fifo_new _

/-- Where the history has gained nothing of a kind, no request of that kind was made. -/
theorem Fresh.not_posted {f : Envelope M A → Bool} {es : List (RtEvent M A)} (hf : w.Fresh)
    (h : w.run es = some w')
    (hcount : (w'.mailbox i).accepted.countP f ≤ (w.mailbox i).accepted.countP f) :
    Transition.Along Runtime.step (fun _ e _ => ∀ env, e = .post i env → f env = false) w es := by
  induction es generalizing w with
  | nil => trivial
  | cons e es ih =>
    intro u hu
    have hrest : u.run es = some w' := by simpa [run, hu] using h
    have hgrow : (w.mailbox i).accepted.countP f ≤ (u.mailbox i).accepted.countP f :=
      (hf.accepted_grows hu i).sublist.countP_le
    have hmore : (u.mailbox i).accepted.countP f ≤ (w'.mailbox i).accepted.countP f :=
      ((hf.step hu).accepted_grows_run hrest i).sublist.countP_le
    refine ⟨?_, ih (hf.step hu) hrest (hcount.trans hgrow)⟩
    rintro env rfl
    by_contra hfe
    rw [Bool.not_eq_false] at hfe
    rw [(step_post hu).2] at hmore
    simp only [setMailbox, update_self, Chan.accepted_push, List.countP_append,
      List.countP_singleton, hfe, if_true] at hmore
    omega

/-! ### References -/

/-- An event other than the spawn of the actor changes its count of references by a clone or a
drop. -/
theorem refs_step (h : w.step e = some w') (i : ActorId) : w'.refs i = w.refs i ∨
    (e = .cloneRef i ∧ 0 < w.refs i ∧ w'.refs i = w.refs i + 1) ∨
    (e = .dropRef i ∧ w'.refs i = w.refs i - 1) ∨
    ∃ config actor supervisor, e = .spawn config actor supervisor ∧ i = ⟨w.nextId⟩ ∧
      w'.refs i = 1 := by
  cases e with
  | task j c =>
    obtain ⟨t, x, w₁, t', ht, hx, hstep, rfl⟩ := taskStep_inv h
    exact Or.inl (congrFun (observe_access hx).frame.2.1 i)
  | spawn config actor supervisor =>
    obtain rfl := step_spawn_eq h
    by_cases hi : i = ⟨w.nextId⟩
    · subst hi
      exact Or.inr (Or.inr (Or.inr ⟨config, actor, supervisor, rfl, rfl, by simp⟩))
    · exact Or.inl (by simp [update_of_ne hi])
  | post j env =>
    rw [(step_post h).2]
    exact Or.inl rfl
  | cloneRef j =>
    simp only [step, Option.ite_none_right_eq_some, Option.some.injEq] at h
    obtain ⟨hpos, rfl⟩ := h
    by_cases hi : i = j
    · subst hi
      exact Or.inr (Or.inl ⟨rfl, hpos, by simp⟩)
    · exact Or.inl (by simp [update_of_ne hi])
  | dropRef j =>
    cases h
    by_cases hi : i = j
    · subst hi
      exact Or.inr (Or.inr (Or.inl ⟨rfl, by simp⟩))
    · exact Or.inl (by simp [update_of_ne hi])
  | recvSignal k =>
    obtain ⟨a, -, rfl⟩ := Option.map_eq_some_iff.mp h
    exact Or.inl rfl
  | openSignals n =>
    simp only [step, Option.ite_none_left_eq_some, Option.some.injEq] at h
    rw [← h.2]
    exact Or.inl rfl
  | newId | closeSignals k =>
    cases h
    exact Or.inl rfl

/-- A mailbox that is closed stays so. -/
theorem refs_eq_zero_step (hf : w.Fresh) (ht : w.tasks i = some t) (hrefs : w.refs i = 0)
    (h : w.step e = some w') : w'.refs i = 0 := by
  rcases refs_step h i with hsame | ⟨-, hpos, -⟩ | ⟨-, hdrop⟩ | ⟨_, _, _, -, hi, -⟩
  · omega
  · omega
  · omega
  · exact absurd hi (hf.ne_nextId ht)

end Runtime

end LaneSwitchboards
