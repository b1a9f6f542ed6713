import LaneSwitchboards.Actor.Notify
import LaneSwitchboards.Supervisor.System

/-!
# The instances of a slot

`Instances` is the invariant of a supervisor with the actors it has spawned: every instance
was spawned once, for one slot; the id of a slot is dead or an instance of that slot, and so
is each entry of `current_refs`. It is kept by every step (`Instances.step`), so it holds in
every reachable state (`Reachable.instances`).
-/

namespace LaneSwitchboards

open Slot (setId abandon getElem?_setId getElem?_abandon)

/-- The slots that have yet to be started for the first time. -/
def SupPhase.pending : SupPhase → List ℕ
  | .restart .start todo => todo
  | .installing .start idx _ todo => idx :: todo
  | _ => []

/-- The signal that is being handled. -/
def SupPhase.cause : SupPhase → Option RestartSignal
  | .restart (.signal s) _ | .installing (.signal s) _ _ _ => some s
  | _ => none

/-- No slot is being started. -/
def SupPhase.quiet : SupPhase → Bool
  | .restart _ _ | .installing _ _ _ _ => false
  | _ => true

/-- The supervisor's task has ended, or its start has failed. -/
def SupPhase.ended : SupPhase → Bool
  | .exited | .startFailed | .panicked => true
  | _ => false

namespace SupPhase

variable {p : SupPhase}

theorem quiet_of_ended (h : p.ended = true) : p.quiet = true := by
  cases p <;> first | rfl | cases h

theorem cause_of_quiet (h : p.quiet = true) : p.cause = none := by
  cases p <;> first | rfl | cases h

theorem pending_of_quiet (h : p.quiet = true) : p.pending = [] := by
  cases p <;> first | rfl | cases h

end SupPhase

namespace System

variable {M A : Type} {s s' : System M A} {e : SysEvent M A} {es : List (SysEvent M A)}

/-! ### What a step leaves alone -/

theorem map_order_takeSignal (p : Supervisor) (sig : RestartSignal) (now : Instant) :
    (p.takeSignal sig now).slots.map Slot.order = p.slots.map Slot.order ∧
    (p.takeSignal sig now).currentRefs = p.currentRefs ∧
    (p.takeSignal sig now).channel = p.channel ∧ (p.takeSignal sig now).config = p.config ∧
    (p.takeSignal sig now).actorConfig = p.actorConfig := by
  unfold Supervisor.takeSignal
  split
  · exact ⟨rfl, rfl, rfl, rfl, rfl⟩
  · dsimp only
    split_ifs
    · split
      · exact ⟨rfl, rfl, rfl, rfl, rfl⟩
      · exact ⟨Slot.map_order_abandon, rfl, rfl, rfl, rfl⟩
    · exact ⟨rfl, rfl, rfl, rfl, rfl⟩

/-- The configuration, the channel and the orders of the slots are fixed at the start. -/
theorem sup_of_step (h : s.step e = some s') :
    s'.sup.slots.map Slot.order = s.sup.slots.map Slot.order ∧
    s'.sup.channel = s.sup.channel ∧ s'.sup.config = s.sup.config ∧
    s'.sup.actorConfig = s.sup.actorConfig := by
  cases e with
  | env e =>
    obtain ⟨-, rt, -, rfl⟩ := step_env h
    exact ⟨rfl, rfl, rfl, rfl⟩
  | sup c =>
    cases supStep_inv h with
    | childFailed hp => exact ⟨Slot.map_order_setId, rfl, rfl, rfl⟩
    | @installed cause idx id todo hp => cases cause <;> exact ⟨Slot.map_order_setId, rfl, rfl, rfl⟩
    | @signal sig ch now hp hsig hnp | @panic sig ch now hp hsig hpanic =>
      obtain ⟨h₁, -, h₂, h₃, h₄⟩ := map_order_takeSignal s.sup sig now
      exact ⟨h₁, h₂, h₃, h₄⟩
    | _ => exact ⟨rfl, rfl, rfl, rfl⟩

/-! ### The invariant -/

/-- The invariant of the spawned instances. -/
structure Instances (s : System M A) : Prop where
  rt : s.rt.Reachable
  channel : s.sup.channel < s.rt.nextSup
  nodup : (s.spawned.map Prod.snd).Nodup
  spawned : ∀ p ∈ s.spawned, ∃ t, s.rt.tasks p.2 = some t
  slots : s.sup.phase.ended = false → ∀ idx slot, s.sup.slots[idx]? = some slot →
    idx ∉ s.sup.phase.pending → slot.id = .DEAD ∨ (idx, slot.id) ∈ s.spawned
  refs : ∀ idx i, s.sup.currentRefs[idx]? = some i → (idx, i) ∈ s.spawned
  installing : ∀ cause idx id todo, s.sup.phase = .installing cause idx id todo →
    (idx, id) ∈ s.spawned
  aligned : s.sup.phase.ended = false → s.sup.currentRefs.length ≤ s.sup.slots.length ∧
    s.sup.phase.pending = List.range' s.sup.currentRefs.length
      (s.sup.slots.length - s.sup.currentRefs.length)
  capacity : s.spawned ≠ [] → Chan.Fits s.sup.actorConfig.mailboxCapacity
  signalled : ∀ sig, s.sup.phase.cause = some sig → s.rt.HasLeft sig.childId

/-- An instance belongs to one slot. -/
theorem Instances.slot_unique (hi : s.Instances) {idx j : ℕ} {i : ActorId}
    (h : (idx, i) ∈ s.spawned) (h' : (j, i) ∈ s.spawned) : idx = j :=
  congrArg Prod.fst (List.inj_on_of_nodup_map hi.nodup h h' rfl)

/-- No instance has the id of a dead slot. -/
theorem Instances.ne_dead (hi : s.Instances) {idx : ℕ} {i : ActorId}
    (h : (idx, i) ∈ s.spawned) : i ≠ .DEAD := by
  rintro rfl
  obtain ⟨t, ht⟩ := hi.spawned _ h
  rw [hi.rt.dead] at ht
  cases ht

/-- At the top of the loop a slot with the id of an instance is the slot of that instance. -/
theorem Instances.idx_eq_of_select (hi : s.Instances) (hp : s.sup.phase = .select) {idx j : ℕ}
    {i : ActorId} {slot : Slot} (hslot : s.sup.slots[j]? = some slot) (hid : slot.id = i)
    (hidx : (idx, i) ∈ s.spawned) : j = idx := by
  rcases hi.slots (by rw [hp]; rfl) j slot hslot (by rw [hp]; exact List.not_mem_nil) with
    hdead | hspawned
  · exact absurd (hid.symm.trans hdead) (hi.ne_dead hidx)
  · exact hi.slot_unique (hid ▸ hspawned) hidx

/-- The start of a supervisor. -/
theorem instances_start {rt : Runtime M A} {config : SupervisorConfig}
    {actorConfig : ActorConfig} {children : List Slot} (hrt : rt.Reachable)
    (h : start rt config actorConfig children = some s) : s.Instances := by
  simp only [start, Option.map_eq_some_iff] at h
  obtain ⟨rt', hopen, rfl⟩ := h
  have hnext : rt'.nextSup = rt.nextSup + 1 := by
    simp only [Runtime.step, Option.ite_none_left_eq_some, Option.some.injEq] at hopen
    rw [← hopen.2]
  refine
    { rt := hrt.step hopen
      channel := by rw [hnext]; exact Nat.lt_succ_self _
      nodup := List.nodup_nil
      spawned := fun p hp => by cases hp
      slots := fun _ idx slot hslot hidx => ?_
      refs := fun idx i hi => by simp at hi
      installing := fun cause idx id todo hp => by cases hp
      aligned := fun _ => ⟨Nat.zero_le _, ?_⟩
      capacity := fun h => absurd rfl h
      signalled := fun sig hsig => by cases hsig }
  · refine absurd (List.mem_range.mpr ?_) hidx
    simpa [Slot.sortByOrder] using (List.getElem?_eq_some_iff.mp hslot).1
  · simp [SupPhase.pending, Slot.sortByOrder, List.range_eq_range']

/-- A signal leaves the slots alone, or marks one as dead. -/
theorem takeSignal_slots (p : Supervisor) (sig : RestartSignal) (now : Instant) :
    (p.takeSignal sig now).slots = p.slots ∨
      (p.takeSignal sig now).slots = abandon p.slots sig.childId := by
  unfold Supervisor.takeSignal
  split
  · exact Or.inl rfl
  · dsimp only
    split_ifs
    · split
      · exact Or.inl rfl
      · exact Or.inr rfl
    · exact Or.inl rfl

/-- A slot after a signal: it was the child's and is dead now, or is as it was. -/
theorem getElem?_takeSignal {p : Supervisor} {sig : RestartSignal} {now : Instant} {j : ℕ}
    {slot : Slot} (h : (p.takeSignal sig now).slots[j]? = some slot) :
    (∃ slot', p.slots[j]? = some slot' ∧ slot'.id = sig.childId ∧ slot.id = .DEAD) ∨
      p.slots[j]? = some slot := by
  rcases takeSignal_slots p sig now with heq | heq
  · rw [heq] at h
    exact Or.inr h
  · rw [heq] at h
    exact getElem?_abandon h

/-- **A signal restarts** the slots its strategy asks for, unless restarts are refused. -/
theorem takeSignal_phase (p : Supervisor) (sig : RestartSignal) (now : Instant) :
    (¬ p.refuses now ∧ (p.takeSignal sig now).phase =
      .restart (.signal sig) (p.config.strategy.toRestart p.slots sig.childId)) ∨
    (p.refuses now ∧ (p.takeSignal sig now).phase.quiet = true) := by
  unfold Supervisor.takeSignal
  split
  · next hnone =>
    refine Or.inr ⟨fun cutoff h => ?_, rfl⟩
    rw [hnone] at h
    cases h
  · next cutoff hsome =>
    dsimp only
    split_ifs with hexceeded
    · refine Or.inr ⟨fun cutoff' h => ?_, ?_⟩
      · obtain rfl : cutoff = cutoff' := Option.some.inj (hsome.symm.trans h)
        exact hexceeded
      · split <;> rfl
    · exact Or.inl ⟨fun h => hexceeded (h cutoff hsome), rfl⟩

/-- A signal that restarts slots leaves all of them alone. -/
theorem takeSignal_slots_of_restart {p : Supervisor} {sig : RestartSignal} {now : Instant}
    {cause : Cause} {todo : List ℕ} (h : (p.takeSignal sig now).phase = .restart cause todo) :
    (p.takeSignal sig now).slots = p.slots := by
  revert h
  unfold Supervisor.takeSignal
  split
  · exact fun _ => rfl
  · dsimp only
    split_ifs
    · split <;> exact SupPhase.noConfusion
    · exact fun _ => rfl

/-- A step that spawns nothing keeps the invariant if it keeps the slots, the references and
the phase in order. -/
theorem Instances.of_spawned_eq (hi : s.Instances) (h : s.step e = some s')
    (hsp : s'.spawned = s.spawned)
    (hslots : s'.sup.phase.ended = false → ∀ idx slot, s'.sup.slots[idx]? = some slot →
      idx ∉ s'.sup.phase.pending → slot.id = .DEAD ∨ (idx, slot.id) ∈ s.spawned)
    (hrefs : ∀ idx i, s'.sup.currentRefs[idx]? = some i → (idx, i) ∈ s.spawned)
    (hinst : ∀ cause idx id todo, s'.sup.phase = .installing cause idx id todo →
      (idx, id) ∈ s.spawned)
    (haligned : s'.sup.phase.ended = false →
      s'.sup.currentRefs.length ≤ s'.sup.slots.length ∧
      s'.sup.phase.pending = List.range' s'.sup.currentRefs.length
        (s'.sup.slots.length - s'.sup.currentRefs.length))
    (hcause : ∀ sig, s'.sup.phase.cause = some sig → s.rt.HasLeft sig.childId) :
    s'.Instances := by
  obtain ⟨ds, hds⟩ := rt_of_step hi.channel h
  obtain ⟨-, hchannel, -, hconfig⟩ := sup_of_step h
  exact
    { rt := hi.rt.run hds
      channel := by rw [hchannel]; exact hi.channel.trans_le (Runtime.counters_run hds).2
      nodup := by rw [hsp]; exact hi.nodup
      spawned := fun p hp => by
        obtain ⟨t, ht⟩ := hi.spawned p (hsp ▸ hp)
        exact Runtime.tasks_mono_run hds ht
      slots := by rwa [hsp]
      refs := by rwa [hsp]
      installing := by rwa [hsp]
      aligned := haligned
      capacity := by rw [hsp, hconfig]; exact hi.capacity
      signalled := fun sig hsig => (hcause sig hsig).run hi.rt.fresh hds }

/-- A step that only moves on keeps the invariant. -/
theorem Instances.of_phase (hi : s.Instances) (h : s.step e = some s')
    (hsp : s'.spawned = s.spawned) (hslots : s'.sup.slots = s.sup.slots)
    (hrefs : s'.sup.currentRefs = s.sup.currentRefs) (hrunning : s.sup.phase.ended = false)
    (hpending : s'.sup.phase.pending = s.sup.phase.pending)
    (hcause : s'.sup.phase.cause = none)
    (hinst : ∀ cause idx id todo, s'.sup.phase ≠ .installing cause idx id todo) :
    s'.Instances := by
  refine hi.of_spawned_eq h hsp (fun _ j slot hslot hj => ?_) (by rw [hrefs]; exact hi.refs)
    (fun _ _ _ _ hp => absurd hp (hinst _ _ _ _)) (fun _ => ?_)
    fun sig hsig => by rw [hcause] at hsig; cases hsig
  · rw [hslots] at hslot
    rw [hpending] at hj
    exact hi.slots hrunning j slot hslot hj
  · rw [hslots, hrefs, hpending]
    exact hi.aligned hrunning

/-- The end of the supervisor's task keeps the invariant. -/
theorem Instances.of_ended (hi : s.Instances) (h : s.step e = some s')
    (hsp : s'.spawned = s.spawned) (hend : s'.sup.phase.ended = true)
    (hrefs : s'.sup.currentRefs = []) : s'.Instances := by
  refine hi.of_spawned_eq h hsp (fun hne => ?_) (fun idx i hidx => ?_)
    (fun cause idx id todo hp => ?_) (fun hne => ?_) fun sig hsig => ?_
  · rw [hend] at hne
    cases hne
  · rw [hrefs] at hidx
    simp at hidx
  · rw [hp] at hend
    cases hend
  · rw [hend] at hne
    cases hne
  · rw [SupPhase.cause_of_quiet (SupPhase.quiet_of_ended hend)] at hsig
    cases hsig

theorem mem_spawned_spawnedChild {rt : Runtime M A} {cause : Cause} {idx k : ℕ} {id i : ActorId}
    {todo : List ℕ} : (k, i) ∈ (s.spawnedChild rt cause idx id todo).spawned ↔
      (k, i) ∈ s.spawned ∨ k = idx ∧ i = id := by
  simp [spawnedChild]

/-- The new instance has a task. -/
theorem tasks_spawnedChild {cause : Cause} {idx : ℕ} {todo : List ℕ} {config : ActorConfig}
    {actor : A} {supervisor : Option SupId} {id : ActorId} {rt : Runtime M A}
    (hrt : s.rt.spawnOnRuntime config actor supervisor = some (id, rt)) :
    (s.spawnedChild rt cause idx id todo).rt.tasks id =
      some ⟨.spawned, actor, ∅, [], config⟩ := by
  obtain ⟨-, rfl⟩ := Runtime.spawnOnRuntime_eq hrt
  cases cause <;> simp [spawnedChild, Runtime.addRef]

/-- A spawn keeps the invariant. -/
theorem Instances.spawn (hi : s.Instances) {cause : Cause} {idx : ℕ} {todo : List ℕ}
    {actor : A} {id : ActorId} {rt : Runtime M A}
    (hp : s.sup.phase = .restart cause (idx :: todo))
    (hrt : s.rt.spawnOnRuntime s.sup.actorConfig actor (some s.sup.channel) = some (id, rt))
    (h : s.step e = some (s.spawnedChild rt cause idx id todo)) :
    (s.spawnedChild rt cause idx id todo).Instances := by
  obtain ⟨ds, hds⟩ := rt_of_step hi.channel h
  have hrunning : s.sup.phase.ended = false := by rw [hp]; rfl
  have hpending : (SupPhase.installing cause idx id todo).pending = s.sup.phase.pending := by
    rw [hp]
    cases cause <;> rfl
  have hfresh : id ∉ s.spawned.map Prod.snd := by
    intro hmem
    obtain ⟨p, hpmem, rfl⟩ := List.mem_map.mp hmem
    obtain ⟨t, ht⟩ := hi.spawned p hpmem
    exact hi.rt.fresh.ne_nextId ht (Runtime.spawnOnRuntime_eq hrt).1
  have hcapacity : Chan.Fits s.sup.actorConfig.mailboxCapacity := by
    by_contra hnot
    simp [Runtime.spawnOnRuntime, hnot] at hrt
  exact
    { rt := hi.rt.run hds
      channel := hi.channel.trans_le (Runtime.counters_run hds).2
      nodup := by
        simp only [spawnedChild, List.map_append, List.map_cons, List.map_nil]
        exact hi.nodup.append (List.nodup_singleton _) (by simpa using hfresh)
      spawned := fun p hp => by
        rcases List.mem_append.mp hp with hp | hp
        · obtain ⟨t, ht⟩ := hi.spawned p hp
          exact Runtime.tasks_mono_run hds ht
        · obtain rfl := List.mem_singleton.mp hp
          exact ⟨_, tasks_spawnedChild hrt⟩
      slots := fun _ j slot hslot hj => by
        simp only [spawnedChild, hpending] at hslot hj
        exact (hi.slots hrunning j slot hslot hj).imp_right (List.mem_append_left _)
      refs := fun j i hj => List.mem_append_left _ (hi.refs j i hj)
      installing := fun _ _ _ _ heq => by
        cases heq
        exact List.mem_append_right _ List.mem_cons_self
      aligned := fun _ => by
        simp only [spawnedChild, hpending]
        exact hi.aligned hrunning
      capacity := fun _ => hcapacity
      signalled := fun sig hsig => by
        have hcause : s.sup.phase.cause = some sig := by
          rw [hp]
          cases cause <;> exact hsig
        exact (hi.signalled sig hcause).run hi.rt.fresh hds }

/-- The return of a factory keeps the invariant. -/
theorem Instances.install (hi : s.Instances) {cause : Cause} {idx : ℕ} {id : ActorId}
    {todo : List ℕ} (hp : s.sup.phase = .installing cause idx id todo)
    (h : s.step e = some (s.install cause idx id todo)) :
    (s.install cause idx id todo).Instances := by
  have hrunning : s.sup.phase.ended = false := by rw [hp]; rfl
  have hnew : (idx, id) ∈ s.spawned := hi.installing _ _ _ _ hp
  obtain ⟨hle, hpending⟩ := hi.aligned hrunning
  cases cause with
  | start =>
    -- the slots are started in order, so the new reference lands at the place of its slot
    rw [hp, SupPhase.pending] at hpending
    have hlt : s.sup.currentRefs.length < s.sup.slots.length := by
      by_contra hge
      rw [Nat.sub_eq_zero_of_le (Nat.le_of_not_lt hge)] at hpending
      cases hpending
    obtain ⟨n, hn⟩ := Nat.exists_eq_add_of_lt hlt
    rw [show s.sup.slots.length - s.sup.currentRefs.length = n + 1 by omega,
      List.range'_succ, List.cons.injEq] at hpending
    obtain ⟨rfl, htodo⟩ := hpending
    refine hi.of_spawned_eq h rfl (fun _ j slot hslot hj => ?_) (fun j i hj => ?_)
      (fun _ _ _ _ heq => by cases heq) (fun _ => ?_) fun sig hsig => by cases hsig
    · rcases getElem?_setId hslot with ⟨rfl, hid⟩ | ⟨hne, hold⟩
      · exact Or.inr (hid ▸ hnew)
      · refine hi.slots hrunning j slot hold ?_
        rw [hp]
        exact List.not_mem_cons_of_ne_of_not_mem hne hj
    · simp only [System.install, List.getElem?_append, List.getElem?_singleton] at hj
      split_ifs at hj with hlt' heq
      · exact hi.refs j i hj
      · obtain rfl : id = i := Option.some.inj hj
        rwa [show j = s.sup.currentRefs.length by omega]
    · refine ⟨?_, ?_⟩
      · simp only [System.install, List.length_append, List.length_singleton, setId,
          List.length_modify]
        exact hlt
      · simp only [System.install, SupPhase.pending, List.length_append, List.length_singleton,
          setId, List.length_modify]
        rw [htodo, show s.sup.slots.length - (s.sup.currentRefs.length + 1) = n by omega]
  | signal sig =>
    have hempty : s.sup.phase.pending = [] := by rw [hp]; rfl
    refine hi.of_spawned_eq h rfl (fun _ j slot hslot _ => ?_) (fun j i hj => ?_)
      (fun _ _ _ _ heq => by cases heq) (fun _ => ?_) fun sig' hsig =>
        hi.signalled sig' (by rw [hp]; exact hsig)
    · rcases getElem?_setId hslot with ⟨rfl, hid⟩ | ⟨-, hold⟩
      · exact Or.inr (hid ▸ hnew)
      · exact hi.slots hrunning j slot hold (by rw [hempty]; exact List.not_mem_nil)
    · simp only [System.install, List.getElem?_set] at hj
      split_ifs at hj with heq hlt
      · obtain rfl : id = i := Option.some.inj hj
        exact heq ▸ hnew
      · exact hi.refs j i hj
    · rw [hempty] at hpending
      simp only [System.install, List.length_set, setId, List.length_modify]
      exact ⟨hle, hpending⟩

/-- **Every step keeps the invariant.** -/
theorem Instances.step (hi : s.Instances) (h : s.step e = some s') : s'.Instances := by
  cases e with
  | env e =>
    have h' := h
    obtain ⟨-, rt, -, rfl⟩ := step_env h'
    exact hi.of_spawned_eq h rfl hi.slots hi.refs hi.installing hi.aligned hi.signalled
  | sup c =>
    cases supStep_inv h with
    | spawn actor id rt hp hrt => exact hi.spawn hp hrt h
    | startFailed hp => exact hi.of_ended h rfl rfl rfl
    | @childFailed sig idx todo hp =>
      have hrunning : s.sup.phase.ended = false := by rw [hp]; rfl
      have hpending : s.sup.phase.pending = [] := by rw [hp]; rfl
      refine hi.of_spawned_eq h rfl (fun _ j slot hslot _ => ?_) hi.refs
        (fun _ _ _ _ hp => by cases hp) (fun _ => ?_) fun sig' hsig =>
          hi.signalled sig' (by rw [hp]; exact hsig)
      · rcases getElem?_setId hslot with ⟨-, hid⟩ | ⟨-, hold⟩
        · exact Or.inl hid
        · exact hi.slots hrunning j slot hold (by rw [hpending]; exact List.not_mem_nil)
      · have haligned := hi.aligned hrunning
        rw [hpending] at haligned
        simpa [setId, SupPhase.pending] using haligned
    | installed hp => exact hi.install hp h
    | @restarted cause hp =>
      refine hi.of_phase h rfl rfl rfl (by rw [hp]; rfl) ?_ rfl fun _ _ _ _ hp => by cases hp
      rw [hp]
      cases cause <;> rfl
    | @signal sig ch now hp hsig hnp =>
      have hrunning : s.sup.phase.ended = false := by rw [hp]; rfl
      have hnil : s.sup.phase.pending = [] := by rw [hp]; rfl
      obtain ⟨horder, hrefs, -⟩ := map_order_takeSignal s.sup sig now
      have hlen : (s.sup.takeSignal sig now).slots.length = s.sup.slots.length := by
        simpa using congrArg List.length horder
      have hleft : s.rt.HasLeft sig.childId :=
        hi.rt.sender_left (by rw [(Chan.recv_eq_some.mp hsig).1]; exact List.mem_cons_self)
      obtain ⟨hpending, hinst, hcause⟩ : (s.sup.takeSignal sig now).phase.pending = [] ∧
          (∀ cause idx id todo, (s.sup.takeSignal sig now).phase ≠ .installing cause idx id todo) ∧
          ∀ sig', (s.sup.takeSignal sig now).phase.cause = some sig' → sig' = sig := by
        rcases takeSignal_phase s.sup sig now with ⟨-, hphase⟩ | ⟨-, hquiet⟩
        · rw [hphase]
          exact ⟨rfl, fun _ _ _ _ => SupPhase.noConfusion, fun _ h => (Option.some.inj h).symm⟩
        · refine ⟨SupPhase.pending_of_quiet hquiet, fun _ _ _ _ h => ?_, fun _ h => ?_⟩
          · rw [h] at hquiet
            cases hquiet
          · rw [SupPhase.cause_of_quiet hquiet] at h
            cases h
      refine hi.of_spawned_eq h rfl (fun _ j slot hslot _ => ?_) (by rw [hrefs]; exact hi.refs)
        (fun _ _ _ _ hp => absurd hp (hinst _ _ _ _)) (fun _ => ?_)
        fun sig' hsig' => hcause sig' hsig' ▸ hleft
      · have hnotin : j ∉ s.sup.phase.pending := by rw [hnil]; exact List.not_mem_nil
        rcases getElem?_takeSignal hslot with ⟨-, -, -, hdead⟩ | hold
        · exact Or.inl hdead
        · exact hi.slots hrunning j slot hold hnotin
      · have haligned := hi.aligned hrunning
        rw [hnil] at haligned
        rwa [hpending, hlen, hrefs]
    | panic hp hsig hpanic => exact hi.of_ended h rfl rfl rfl
    | shutdown hp =>
      exact hi.of_phase h rfl rfl rfl (by rw [hp]; rfl) (by rw [hp]; rfl) rfl
        fun _ _ _ _ hp => by cases hp
    | sendStop rt hp hrt =>
      exact hi.of_phase h rfl rfl rfl (by rw [hp]; rfl) (by rw [hp]; rfl) rfl
        fun _ _ _ _ hp => by cases hp
    | exit hp => exact hi.of_ended h rfl rfl rfl

/-- **The invariant holds in every reachable state.** -/
theorem Reachable.instances (h : s.Reachable) : s.Instances := by
  obtain ⟨rt, config, actorConfig, children, s₀, es, hrt, hstart, hrun⟩ := h
  exact Transition.invariant_run (P := Instances) (fun hi hst => hi.step hst)
    (instances_start hrt hstart) hrun

theorem Reachable.step (h : s.Reachable) (hst : s.step e = some s') : s'.Reachable := by
  obtain ⟨rt, config, actorConfig, children, s₀, es, hrt, hstart, hrun⟩ := h
  exact ⟨rt, config, actorConfig, children, s₀, es ++ [e], hrt, hstart,
    Transition.run_concat.mpr ⟨s, hrun, hst⟩⟩

end System

end LaneSwitchboards
