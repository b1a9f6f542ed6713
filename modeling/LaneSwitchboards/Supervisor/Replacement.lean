import LaneSwitchboards.Supervisor.Stale

/-!
# Replacing an instance

A restart spawns the new instance of a slot and only then forgets the old one. It never stops
the old one, and does not wait for its end: an actor signals its failure before its
`post_stop`.

* **Siblings** (`single_instance_iff`): over a run, every slot has at most one instance that
  takes messages, and no current actor is replaced while it takes messages, exactly when every
  signal that is acted on finds the instances in the scope of its strategy, other than the child
  that failed, out of their loops or told to stop. Under OneForOne it always does
  (`oneForOne_single`).
* **`post_stop`** (`replacement_waits_iff`): the replacement of a failed instance never begins
  its `pre_start` before that instance has completed its `post_stop`, whatever happens after
  the spawn, exactly when `post_stop` was completed at the spawn.
-/

namespace LaneSwitchboards

namespace Runtime

variable {M A : Type} {w w' : Runtime M A} {i : ActorId} {e : RtEvent M A}
  {es : List (RtEvent M A)} {t : Task M A}

/-- The actor may still take messages: it has not left its loop and was not sent `Stop`. -/
def TakesMessages (w : Runtime M A) (i : ActorId) : Prop :=
  ∃ t, w.tasks i = some t ∧ t.phase.running = true ∧ .stop ∉ (w.mailbox i).accepted

theorem HasLeft.not_takesMessages (h : w.HasLeft i) : ¬ w.TakesMessages i := by
  rintro ⟨t, ht, hrun, -⟩
  obtain ⟨t', ht', hleft⟩ := h
  obtain rfl : t = t' := Option.some.inj (ht.symm.trans ht')
  rw [hrun] at hleft
  cases hleft

/-- An actor that takes no messages does not start to. -/
theorem TakesMessages.of_step (h : w'.TakesMessages i) (hf : w.Fresh) (ht : w.tasks i = some t)
    (hst : w.step e = some w') : w.TakesMessages i := by
  obtain ⟨t', ht', hrun, hstop⟩ := h
  have hstop' : .stop ∉ (w.mailbox i).accepted :=
    fun hmem => hstop ((hf.accepted_grows hst i).subset hmem)
  rcases tasks_step hst i with hsame | ⟨c, s, x, w₁, s', -, hs, -, -, hstep, hs'⟩ |
    ⟨_, _, _, -, hi, -⟩
  · exact ⟨t', hsame.symm.trans ht', hrun, hstop'⟩
  · obtain rfl : t' = s' := Option.some.inj (ht'.symm.trans hs')
    exact ⟨s, hs, Task.running_of_step hstep hrun, hstop'⟩
  · exact absurd hi (hf.ne_nextId ht)

theorem TakesMessages.of_run (h : w'.TakesMessages i) (hf : w.Fresh) (ht : w.tasks i = some t)
    (hrun : w.run es = some w') : w.TakesMessages i := by
  have hthree := Transition.invariant_run
    (P := fun v : Runtime M A => v.Fresh ∧ (∃ t, v.tasks i = some t) ∧
      (v.TakesMessages i → w.TakesMessages i)) ?_ ⟨hf, ⟨t, ht⟩, id⟩ hrun
  · exact hthree.2.2 h
  · rintro v e v' ⟨hf, ⟨t, ht⟩, hback⟩ hst
    exact ⟨hf.step hst, tasks_mono hst ht, fun h => hback (h.of_step hf ht hst)⟩

/-- The actor fails: its exit reason is fixed and abnormal. -/
def Failed (w : Runtime M A) (i : ActorId) : Prop :=
  ∃ t r, w.tasks i = some t ∧ t.phase.reason = some r ∧ shouldPropagateLinkedExit r = true

/-- The actor has begun its `pre_start`. -/
def Begun (w : Runtime M A) (i : ActorId) : Prop :=
  ∃ t, w.tasks i = some t ∧ t.phase.started = true

/-- The actor has completed its `post_stop`. -/
def Completed (w : Runtime M A) (i : ActorId) : Prop :=
  ∃ t, w.tasks i = some t ∧ t.phase.postStopDone = true

theorem Completed.step (h : w.Completed i) (hf : w.Fresh) (hst : w.step e = some w') :
    w'.Completed i := by
  obtain ⟨t, ht, hdone⟩ := h
  rcases tasks_step hst i with hsame | ⟨c, s, x, w₁, s', -, hs, -, -, hstep, hs'⟩ |
    ⟨_, _, _, -, hi, -⟩
  · exact ⟨t, hsame.trans ht, hdone⟩
  · obtain rfl : t = s := Option.some.inj (ht.symm.trans hs)
    exact ⟨s', hs', Task.postStopDone_of_step hstep hdone⟩
  · exact absurd hi (hf.ne_nextId ht)

theorem Completed.run (h : w.Completed i) (hf : w.Fresh) (hrun : w.run es = some w') :
    w'.Completed i := by
  have hboth := Transition.invariant_run (P := fun v : Runtime M A => v.Fresh ∧ v.Completed i)
    (fun hv hst => ⟨hv.1.step hst, hv.2.step hv.1 hst⟩) ⟨hf, h⟩ hrun
  exact hboth.2

/-- A spawned task can be polled, which begins its `pre_start` and touches no other task. -/
theorem exists_poll (ht : w.tasks i = some t) (hp : t.phase = .spawned) :
    ∃ w', w.step (.task i .poll) = some w' ∧ w'.Begun i ∧ ∀ j ≠ i, w'.tasks j = w.tasks j := by
  have hpoll : t.step .poll = some { t with phase := .preStart } := by
    cases t
    subst hp
    rfl
  refine ⟨{ w.setTask i { t with phase := .preStart } with
    stats := w.stats.record i (t.recordStats .poll) }, ?_, ?_, fun j hj => ?_⟩
  · simp only [step, taskStep, ht, Option.bind_some, observe, hpoll, Option.map_some]
  · exact ⟨{ t with phase := .preStart }, by simp [setTask], rfl⟩
  · simp [setTask, Function.update_of_ne hj]

end Runtime

namespace System

open Transition
open Slot (setId)

variable {M A : Type} {s s' s₀ : System M A} {e : SysEvent M A} {es : List (SysEvent M A)}

/-! ### One instance a slot -/

/-- Each slot has at most one instance that takes messages. -/
def SingleInstance (s : System M A) : Prop :=
  ∀ idx i j, (idx, i) ∈ s.spawned → (idx, j) ∈ s.spawned → s.rt.TakesMessages i →
    s.rt.TakesMessages j → i = j

/-- The event replaces the current actor of a slot while that actor takes messages. -/
def ReplacesUnstopped (s : System M A) (e : SysEvent M A) : Prop :=
  ∃ actor sig idx todo i, e = .sup (.spawnChild actor) ∧
    s.sup.phase = .restart (.signal sig) (idx :: todo) ∧ s.sup.currentRefs[idx]? = some i ∧
    s.rt.TakesMessages i

/-- Whatever happens until the supervisor takes its next signal, each slot keeps to one instance
that takes messages, and no current actor is replaced while it takes messages. -/
def KeepsSingle (s : System M A) : Prop :=
  ∀ es s', s.run es = some s' → (∀ e ∈ es, ¬ TakesSignal e) →
    s'.SingleInstance ∧ Along System.step (fun s e _ => ¬ s.ReplacesUnstopped e) s es

/-- The event is the supervisor acting on a signal while an instance of a slot in the scope of its
strategy, other than the child that failed, has neither left its loop nor been sent `Stop`. -/
def ActsWhileRunning (s : System M A) (e : SysEvent M A) : Prop :=
  ∃ now sig idx i, e = .sup (.recvSignal now) ∧ s.nextSignal = some sig ∧ ¬ s.sup.refuses now ∧
    idx ∈ s.sup.config.strategy.toRestart s.sup.slots sig.childId ∧ (idx, i) ∈ s.spawned ∧
    i ≠ sig.childId ∧ s.rt.TakesMessages i

/-- The slots that are being started, the one whose factory has yet to return first. -/
def starting : SupPhase → List ℕ
  | .restart _ todo => todo
  | .installing _ idx _ todo => idx :: todo
  | _ => []

theorem starting_of_quiet {p : SupPhase} (h : p.quiet = true) : starting p = [] := by
  cases p <;> first | rfl | cases h

/-- An instance that takes messages after a step took them before it. -/
theorem Instances.takesMessages_of_step (hi : s.Instances) (h : s.step e = some s') {idx : ℕ}
    {i : ActorId} (hmem : (idx, i) ∈ s.spawned) (ht : s'.rt.TakesMessages i) :
    s.rt.TakesMessages i := by
  obtain ⟨ds, hds⟩ := rt_of_step hi.channel h
  obtain ⟨t, hti⟩ := hi.spawned _ hmem
  exact ht.of_run hi.rt.fresh hti hds

/-- An instance that takes messages after a step that spawns nothing took them before it. -/
theorem Instances.takesMessages_of_spawned_eq (hi : s.Instances) (h : s.step e = some s')
    (hsp : s'.spawned = s.spawned) {idx : ℕ} {i : ActorId} (hm : (idx, i) ∈ s'.spawned)
    (ht : s'.rt.TakesMessages i) : (idx, i) ∈ s.spawned ∧ s.rt.TakesMessages i := by
  rw [hsp] at hm
  exact ⟨hm, hi.takesMessages_of_step h hm ht⟩

/-- The invariant of a run in which every signal is acted on after the actors in its scope: no
instance of a slot that is due takes messages. -/
structure Single (s : System M A) : Prop where
  instances : s.Instances
  single : s.SingleInstance
  nodup : (starting s.sup.phase).Nodup
  free : ∀ idx ∈ due s.sup.phase, ∀ i, (idx, i) ∈ s.spawned → ¬ s.rt.TakesMessages i

/-- A step that spawns nothing keeps the invariant if the slots that are due stay free. -/
theorem Single.of_spawned_eq (hs : s.Single) (h : s.step e = some s')
    (hsp : s'.spawned = s.spawned) (hnodup : (starting s'.sup.phase).Nodup)
    (hfree : ∀ idx ∈ due s'.sup.phase, ∀ i, (idx, i) ∈ s.spawned → ¬ s.rt.TakesMessages i) :
    s'.Single := by
  have hback {idx : ℕ} {i : ActorId} (hm : (idx, i) ∈ s'.spawned) (ht : s'.rt.TakesMessages i) :=
    hs.instances.takesMessages_of_spawned_eq h hsp hm ht
  refine ⟨hs.instances.step h, fun idx i j hm hm' ht ht' => ?_, hnodup,
    fun idx hidx i hm ht => ?_⟩
  · obtain ⟨hm, ht⟩ := hback hm ht
    obtain ⟨hm', ht'⟩ := hback hm' ht'
    exact hs.single idx i j hm hm' ht ht'
  · obtain ⟨hm, ht⟩ := hback hm ht
    exact hfree idx hidx i hm ht

theorem Single.of_quiet (hs : s.Single) (h : s.step e = some s') (hsp : s'.spawned = s.spawned)
    (hquiet : s'.sup.phase.quiet = true) : s'.Single := by
  refine hs.of_spawned_eq h hsp (by rw [starting_of_quiet hquiet]; exact List.nodup_nil)
    fun idx hidx => ?_
  rw [due_of_quiet hquiet] at hidx
  cases hidx

/-- A slot that is done with leaves the invariant. -/
theorem Single.settled (hs : s.Single) (h : s.step e = some s') {cause : Cause} {idx : ℕ}
    {todo : List ℕ} (hstarting : starting s.sup.phase = idx :: todo)
    (hdue : todo ⊆ due s.sup.phase) (hsp : s'.spawned = s.spawned)
    (hp : s'.sup.phase = .restart cause todo) : s'.Single := by
  have hnodup : (idx :: todo).Nodup := hstarting ▸ hs.nodup
  refine hs.of_spawned_eq h hsp (by rw [hp]; exact (List.nodup_cons.mp hnodup).2)
    fun k hk => hs.free k (hdue ?_)
  rwa [hp] at hk

/-- A spawn keeps the invariant: no earlier instance of the slot takes messages. -/
theorem Single.spawn (hs : s.Single) {cause : Cause} {idx : ℕ} {todo : List ℕ} {id : ActorId}
    {rt : Runtime M A} (hp : s.sup.phase = .restart cause (idx :: todo))
    (h : s.step e = some (s.spawnedChild rt cause idx id todo)) :
    (s.spawnedChild rt cause idx id todo).Single := by
  obtain ⟨hi, hsingle, hnodup, hfree⟩ := hs
  rw [hp] at hnodup hfree
  have hold {k : ℕ} {i : ActorId} (hm : (k, i) ∈ (s.spawnedChild rt cause idx id todo).spawned)
      (ht : (s.spawnedChild rt cause idx id todo).rt.TakesMessages i) :
      ((k, i) ∈ s.spawned ∧ s.rt.TakesMessages i) ∨ k = idx ∧ i = id := by
    rcases mem_spawned_spawnedChild.mp hm with hm | hnew
    · exact Or.inl ⟨hm, hi.takesMessages_of_step h hm ht⟩
    · exact Or.inr hnew
  refine ⟨hi.step h, fun k i j hm hm' ht ht' => ?_, hnodup, fun k hk i hm ht => ?_⟩
  · rcases hold hm ht with ⟨hm₁, ht₁⟩ | ⟨rfl, rfl⟩ <;>
      rcases hold hm' ht' with ⟨hm₂, ht₂⟩ | ⟨hk, rfl⟩
    · exact hsingle k i j hm₁ hm₂ ht₁ ht₂
    · exact absurd ht₁ (hfree k (hk ▸ List.mem_cons_self) i hm₁)
    · exact absurd ht₂ (hfree k List.mem_cons_self j hm₂)
    · rfl
  · rcases hold hm ht with ⟨hm₁, ht₁⟩ | ⟨rfl, -⟩
    · exact hfree k (List.mem_cons_of_mem _ hk) i hm₁ ht₁
    · exact (List.nodup_cons.mp hnodup).1 hk

/-- **Every step keeps instances single**, unless it acts on a signal too early. -/
theorem Single.step (hs : s.Single) (h : s.step e = some s') (he : ¬ s.ActsWhileRunning e) :
    s'.Single := by
  have hi := hs.instances
  cases e with
  | env e =>
    have h' := h
    obtain ⟨-, rt, -, rfl⟩ := step_env h'
    exact hs.of_spawned_eq h rfl hs.nodup hs.free
  | sup c =>
    cases supStep_inv h with
    | spawn actor id rt hp hrt => exact hs.spawn hp h
    | @childFailed sig idx todo hp =>
      refine hs.settled h (by rw [hp]; rfl) ?_ rfl rfl
      rw [hp]
      exact List.subset_cons_self idx todo
    | @installed cause idx id todo hp =>
      have hdue : todo ⊆ due s.sup.phase := by
        rw [hp]
        exact List.Subset.refl _
      cases cause <;> exact hs.settled h (by rw [hp]; rfl) hdue rfl rfl
    | @restarted cause hp => exact hs.of_quiet h rfl rfl
    | @signal sig ch now hp hsig hnp =>
      rcases takeSignal_phase s.sup sig now with ⟨haccepts, hphase⟩ | ⟨-, hquiet⟩
      · refine hs.of_spawned_eq h rfl ?_ fun idx hidx i hm ht => ?_
        · simp only [hphase]
          exact nodup_toRestart
        · simp only [hphase] at hidx
          by_cases hchild : i = sig.childId
          · -- the child has left its loop before its signal can be taken
            have hleft : s.rt.HasLeft sig.childId :=
              hi.rt.sender_left (by rw [(Chan.recv_eq_some.mp hsig).1]; exact List.mem_cons_self)
            rw [hchild] at ht
            exact hleft.not_takesMessages ht
          · exact he ⟨now, sig, idx, i, rfl, nextSignal_of_recv hsig, haccepts, hidx, hm, hchild,
              ht⟩
      · exact hs.of_quiet h rfl hquiet
    | _ => exact hs.of_quiet h rfl rfl

/-- Nothing goes wrong before the next signal. -/
theorem Single.keepsSingle (hs : s.Single) : s.KeepsSingle := by
  intro es s' hrun hes
  have hno : Along System.step (fun s e _ => ¬ s.ActsWhileRunning e) s es := by
    refine along_of_forall fun s e he _ => ?_
    rintro ⟨now, -, -, -, rfl, -⟩
    exact hes _ he ⟨now, rfl⟩
  have halways : Always System.step Single s es :=
    always_of_invariant (fun hs he hst => hs.step hst he) hs hno
  refine ⟨(halways.last hrun).single, ?_⟩
  refine along_of_invariant (P := Single) (fun hs he hst => ⟨hs.step hst he, ?_⟩) hs hno
  rintro ⟨actor, sig, idx, todo, i, rfl, hp, hcurrent, htakes⟩
  exact hs.free idx (by rw [hp]; exact List.mem_cons_self) i
    (hs.instances.refs idx i hcurrent) htakes

/-- A spawn stops nobody. -/
theorem Instances.takesMessages_spawnedChild (hi : s.Instances) {cause : Cause} {idx : ℕ}
    {todo : List ℕ} {actor : A} {id i : ActorId} {rt : Runtime M A}
    (hrt : s.rt.spawnOnRuntime s.sup.actorConfig actor (some s.sup.channel) = some (id, rt))
    (ht : s.rt.TakesMessages i) :
    i ≠ id ∧ (s.spawnedChild rt cause idx id todo).rt.TakesMessages i := by
  obtain ⟨t, hti, hrun, hstop⟩ := ht
  have hne : i ≠ id := by
    rintro rfl
    exact absurd (Runtime.spawnOnRuntime_eq hrt).1 (hi.rt.fresh.ne_nextId hti)
  obtain ⟨-, rfl⟩ := Runtime.spawnOnRuntime_eq hrt
  refine ⟨hne, t, ?_, hrun, ?_⟩
  · cases cause <;> simpa [spawnedChild, Runtime.addRef, Function.update_of_ne hne] using hti
  · cases cause <;> simpa [spawnedChild, Runtime.addRef, Function.update_of_ne hne] using hstop

/-- The factories of a restart can return one after the other, down to any slot of it. -/
theorem Instances.exists_restarts (hi : s.Instances) {sig : RestartSignal} {todo : List ℕ}
    (hp : s.sup.phase = .restart (.signal sig) todo) {idx k : ℕ} {i : ActorId}
    (hidx : idx ∈ todo) (hm : (k, i) ∈ s.spawned) (ht : s.rt.TakesMessages i) :
    ∃ es s' rest, s.run es = some s' ∧ (∀ e ∈ es, ¬ TakesSignal e) ∧
      s'.sup.phase = .restart (.signal sig) (idx :: rest) ∧ (k, i) ∈ s'.spawned ∧
      s'.rt.TakesMessages i := by
  induction todo generalizing s with
  | nil => cases hidx
  | cons j todo ih =>
    by_cases hj : idx = j
    · subst hj
      exact ⟨[], s, todo, rfl, List.forall_mem_nil _, hp, hm, ht⟩
    · -- slot `j` is restarted first
      obtain ⟨actor, id, rt, hrt, hspawn⟩ := hi.exists_spawn hp (List.ne_nil_of_mem hm)
      have hi₁ := hi.step hspawn
      have hinstall : (s.spawnedChild rt (.signal sig) j id todo).step (.sup .installed) =
          some ((s.spawnedChild rt (.signal sig) j id todo).install (.signal sig) j id todo) := rfl
      have ht₁ : ((s.spawnedChild rt (.signal sig) j id todo).install (.signal sig) j id
          todo).rt.TakesMessages i := by
        obtain ⟨-, t, hti, hrunning, hstop⟩ := hi.takesMessages_spawnedChild hrt ht
        obtain ⟨htasks, hmailbox, -⟩ := Runtime.releaseRefs_frame
          (s.spawnedChild rt (.signal sig) j id todo).rt s.sup.currentRefs[j]?.toList
        exact ⟨t, (congrFun htasks i).trans hti, hrunning, (congrFun hmailbox i).symm ▸ hstop⟩
      obtain ⟨es, s', rest, hrun, hes, hp', hm', ht'⟩ := ih (hi₁.step hinstall) rfl
        ((List.mem_cons.mp hidx).resolve_left hj) (List.mem_append_left _ hm) ht₁
      refine ⟨.sup (.spawnChild actor) :: .sup .installed :: es, s', rest, ?_, ?_, hp', hm', ht'⟩
      · exact (run_cons_of_step hspawn).trans ((run_cons_of_step hinstall).trans hrun)
      · intro e he
        rcases List.mem_cons.mp he with rfl | he
        · rintro ⟨_, h⟩
          cases h
        · rcases List.mem_cons.mp he with rfl | he
          · rintro ⟨_, h⟩
            cases h
          · exact hes e he

/-- Acting on a signal too early can leave two instances that take messages. -/
theorem Instances.not_keepsSingle (hi : s.Instances) (h : s.step e = some s')
    (he : s.ActsWhileRunning e) : ¬ s'.KeepsSingle := by
  obtain ⟨now, sig, idx, i, rfl, hsig, haccepts, hidx, hm, -, ht⟩ := he
  have hi' := hi.step h
  intro hkeeps
  cases supStep_inv h with
  | @signal sig' ch _ hp hrecv hnp =>
    obtain rfl : sig = sig' := Option.some.inj (hsig.symm.trans (nextSignal_of_recv hrecv))
    rcases takeSignal_phase s.sup sig now with ⟨-, hphase⟩ | ⟨hrefuses, -⟩
    · obtain ⟨es, s₁, rest, hrun, hes, hp₁, hm₁, ht₁⟩ := hi'.exists_restarts hphase hidx hm ht
      have hi₁ : s₁.Instances :=
        invariant_run (P := Instances) (fun hi hst => hi.step hst) hi' hrun
      obtain ⟨actor, id, rt, hrt, hspawn⟩ := hi₁.exists_spawn hp₁ (List.ne_nil_of_mem hm₁)
      -- the slot is restarted with the instance still running
      obtain ⟨hsingle, -⟩ := hkeeps (es ++ [.sup (.spawnChild actor)]) _
        (run_concat.mpr ⟨s₁, hrun, hspawn⟩) (by
          intro e he
          rcases List.mem_append.mp he with he | he
          · exact hes e he
          · rintro ⟨_, rfl⟩
            simp at he)
      obtain ⟨hne, ht₂⟩ : i ≠ id ∧
          (s₁.spawnedChild rt (.signal sig) idx id rest).rt.TakesMessages i :=
        hi₁.takesMessages_spawnedChild hrt ht₁
      refine hne (hsingle idx i id (List.mem_append_left _ hm₁)
        (List.mem_append_right _ List.mem_cons_self) ht₂ ?_)
      refine ⟨_, tasks_spawnedChild hrt, rfl, ?_⟩
      obtain ⟨-, rfl⟩ := Runtime.spawnOnRuntime_eq hrt
      simp [spawnedChild, Chan.new]
    · exact absurd hrefuses haccepts
  | @panic sig' ch _ hp hrecv hpanic =>
    rcases takeSignal_phase s.sup sig' now with ⟨-, hphase⟩ | ⟨hrefuses, -⟩
    · rw [hphase] at hpanic
      cases hpanic
    · exact haccepts hrefuses

/-- **One instance a slot.** In a run of a supervisor and its actors it holds in every state that,
whatever happens until the next signal is taken, each slot has at most one instance that takes
messages and no current actor is replaced while it takes messages, exactly when each signal that
is acted on finds the instances in its scope, other than the child that failed, out of their
loops or told to stop. -/
theorem single_instance_iff {rt : Runtime M A} {config : SupervisorConfig}
    {actorConfig : ActorConfig} {children : List Slot} (hrt : rt.Reachable)
    (hstart : start rt config actorConfig children = some s₀) (es : List (SysEvent M A)) :
    Always System.step KeepsSingle s₀ es ↔
      Along System.step (fun s e _ => ¬ s.ActsWhileRunning e) s₀ es := by
  have hi₀ : s₀.Instances := instances_start hrt hstart
  have hs₀ : s₀.Single := by
    simp only [start, Option.map_eq_some_iff] at hstart
    obtain ⟨rt', -, rfl⟩ := hstart
    refine ⟨hi₀, fun _ _ _ hm => ?_, List.nodup_range, fun _ _ _ hm => ?_⟩ <;> cases hm
  constructor
  · intro halways
    exact along_of_invariant (P := Instances) (fun hi hkeeps hst =>
      ⟨hi.step hst, fun he => hi.not_keepsSingle hst he hkeeps⟩) hi₀ halways.along
  · intro hes
    exact (always_of_invariant (P := Single) (fun hs he hst => hs.step hst he) hs₀ hes).mono
      Single.keepsSingle

/-! ### OneForOne -/

/-- The invariant of a OneForOne supervisor: of each slot only the current instance takes
messages, and none does while the slot waits for its restart. -/
structure Current (s : System M A) : Prop where
  instances : s.Instances
  strategy : s.sup.config.strategy = .oneForOne
  nodup : (starting s.sup.phase).Nodup
  due : ∀ idx ∈ due s.sup.phase, ∀ i, (idx, i) ∈ s.spawned → ¬ s.rt.TakesMessages i
  installing : ∀ cause idx id todo i, s.sup.phase = .installing cause idx id todo →
    (idx, i) ∈ s.spawned → s.rt.TakesMessages i → i = id
  current : s.sup.phase.ended = false → ∀ idx slot i, s.sup.slots[idx]? = some slot →
    idx ∉ starting s.sup.phase → (idx, i) ∈ s.spawned → s.rt.TakesMessages i → slot.id = i

/-- A step that spawns nothing keeps the invariant if it keeps the slots and the phase in
order. -/
theorem Current.of_spawned_eq (hs : s.Current) (h : s.step e = some s')
    (hsp : s'.spawned = s.spawned) (hnodup : (starting s'.sup.phase).Nodup)
    (hdue : ∀ idx ∈ System.due s'.sup.phase, ∀ i, (idx, i) ∈ s.spawned →
      ¬ s.rt.TakesMessages i)
    (hinst : ∀ cause idx id todo i, s'.sup.phase = .installing cause idx id todo →
      (idx, i) ∈ s.spawned → s.rt.TakesMessages i → i = id)
    (hcurrent : s'.sup.phase.ended = false → ∀ idx slot i, s'.sup.slots[idx]? = some slot →
      idx ∉ starting s'.sup.phase → (idx, i) ∈ s.spawned → s.rt.TakesMessages i →
      slot.id = i) : s'.Current := by
  have hback {idx : ℕ} {i : ActorId} (hm : (idx, i) ∈ s'.spawned) (ht : s'.rt.TakesMessages i) :=
    hs.instances.takesMessages_of_spawned_eq h hsp hm ht
  refine ⟨hs.instances.step h, by rw [(sup_of_step h).2.2.1]; exact hs.strategy, hnodup,
    fun idx hidx i hm ht => ?_, fun cause idx id todo i hp hm ht => ?_,
    fun hne idx slot i hslot hidx hm ht => ?_⟩
  · obtain ⟨hm', ht'⟩ := hback hm ht
    exact hdue idx hidx i hm' ht'
  · obtain ⟨hm', ht'⟩ := hback hm ht
    exact hinst cause idx id todo i hp hm' ht'
  · obtain ⟨hm', ht'⟩ := hback hm ht
    exact hcurrent hne idx slot i hslot hidx hm' ht'

/-- A step after which no slot is being started, of a supervisor that was starting none or has
ended. -/
theorem Current.of_quiet (hs : s.Current) (h : s.step e = some s')
    (hsp : s'.spawned = s.spawned) (hquiet : s'.sup.phase.quiet = true)
    (hslots : s'.sup.phase.ended = false → s.sup.phase.ended = false ∧
      starting s.sup.phase = [] ∧ ∀ idx slot i, s'.sup.slots[idx]? = some slot →
        (idx, i) ∈ s.spawned → s.rt.TakesMessages i → s.sup.slots[idx]? = some slot) :
    s'.Current := by
  refine hs.of_spawned_eq h hsp (by rw [starting_of_quiet hquiet]; exact List.nodup_nil)
    (fun idx hidx => ?_) (fun cause idx id todo i hp => ?_)
    fun hne idx slot i hslot _ hm ht => ?_
  · rw [due_of_quiet hquiet] at hidx
    cases hidx
  · rw [hp] at hquiet
    cases hquiet
  · obtain ⟨hne', hnil, hsame⟩ := hslots hne
    refine hs.current hne' idx slot i (hsame idx slot i hslot hm ht) ?_ hm ht
    rw [hnil]
    exact List.not_mem_nil

/-- A spawn keeps the invariant. -/
theorem Current.spawn (hs : s.Current) {cause : Cause} {idx : ℕ} {todo : List ℕ} {id : ActorId}
    {rt : Runtime M A} (hp : s.sup.phase = .restart cause (idx :: todo))
    (h : s.step e = some (s.spawnedChild rt cause idx id todo)) :
    (s.spawnedChild rt cause idx id todo).Current := by
  have hdue : ∀ k ∈ idx :: todo, ∀ i, (k, i) ∈ s.spawned → ¬ s.rt.TakesMessages i := by
    have := hs.due
    rwa [hp] at this
  have hnodup : (idx :: todo).Nodup := by
    have := hs.nodup
    rwa [hp] at this
  have hmem {k : ℕ} {i : ActorId} (hm : (k, i) ∈ (s.spawnedChild rt cause idx id todo).spawned) :
      (k, i) ∈ s.spawned ∨ k = idx ∧ i = id := mem_spawned_spawnedChild.mp hm
  refine ⟨hs.instances.step h, hs.strategy, hnodup, fun k hk i hm ht => ?_,
    fun cause' k id' todo' i hp' hm ht => ?_, fun _ k slot i hslot hk hm ht => ?_⟩
  · rcases hmem hm with hm | ⟨rfl, -⟩
    · exact hdue k (List.mem_cons_of_mem _ hk) i hm (hs.instances.takesMessages_of_step h hm ht)
    · exact (List.nodup_cons.mp hnodup).1 hk
  · cases hp'
    rcases hmem hm with hm | ⟨-, rfl⟩
    · exact absurd (hs.instances.takesMessages_of_step h hm ht)
        (hdue idx List.mem_cons_self i hm)
    · rfl
  · rcases hmem hm with hm | ⟨rfl, -⟩
    · refine hs.current (by rw [hp]; rfl) k slot i hslot ?_ hm
        (hs.instances.takesMessages_of_step h hm ht)
      rw [hp]
      exact hk
    · exact absurd List.mem_cons_self hk

/-- The end of a slot's restart, with a new id or as dead, keeps the invariant. -/
theorem Current.settled (hs : s.Current) (h : s.step e = some s') {cause : Cause} {idx : ℕ}
    {id : ActorId} {todo : List ℕ} (hne : s.sup.phase.ended = false)
    (hstarting : starting s.sup.phase = idx :: todo)
    (hdue : ∀ k ∈ todo, ∀ i, (k, i) ∈ s.spawned → ¬ s.rt.TakesMessages i)
    (hlast : ∀ i, (idx, i) ∈ s.spawned → s.rt.TakesMessages i → i = id)
    (hsp : s'.spawned = s.spawned) (hp : s'.sup.phase = .restart cause todo)
    (hslots : s'.sup.slots = setId s.sup.slots idx id) : s'.Current := by
  have hnodup : (idx :: todo).Nodup := by
    have := hs.nodup
    rwa [hstarting] at this
  refine hs.of_spawned_eq h hsp (by rw [hp]; exact (List.nodup_cons.mp hnodup).2) (by rwa [hp])
    (fun _ _ _ _ _ hp' => ?_) fun _ k slot i hslot hk hm ht => ?_
  · rw [hp] at hp'
    cases hp'
  · rw [hp] at hk
    rw [hslots] at hslot
    rcases Slot.getElem?_setId hslot with ⟨rfl, hid⟩ | ⟨hkne, hold⟩
    · exact hid.trans (hlast i hm ht).symm
    · refine hs.current hne k slot i hold ?_ hm ht
      rw [hstarting]
      exact List.not_mem_cons_of_ne_of_not_mem hkne hk

/-- **Every step of a OneForOne supervisor keeps the current instances single.** -/
theorem Current.step (hs : s.Current) (h : s.step e = some s') : s'.Current := by
  have hi := hs.instances
  cases e with
  | env e =>
    have h' := h
    obtain ⟨-, rt, -, rfl⟩ := step_env h'
    exact hs.of_spawned_eq h rfl hs.nodup hs.due hs.installing hs.current
  | sup c =>
    cases supStep_inv h with
    | spawn actor id rt hp hrt => exact hs.spawn hp h
    | startFailed hp => exact hs.of_quiet h rfl rfl fun hne => by cases hne
    | @childFailed sig idx todo hp =>
      have hdue := hs.due
      rw [hp] at hdue
      exact hs.settled h (by rw [hp]; rfl) (by rw [hp]; rfl)
        (fun k hk => hdue k (List.mem_cons_of_mem _ hk))
        (fun i hm ht => absurd ht (hdue idx List.mem_cons_self i hm)) rfl rfl rfl
    | @installed cause idx id todo hp =>
      have hdue := hs.due
      rw [hp] at hdue
      have hlast := fun i => hs.installing cause idx id todo i hp
      cases cause <;>
        exact hs.settled h (by rw [hp]; rfl) (by rw [hp]; rfl) hdue hlast rfl rfl rfl
    | restarted hp =>
      exact hs.of_quiet h rfl rfl fun _ =>
        ⟨by rw [hp]; rfl, by rw [hp]; rfl, fun _ _ _ hslot _ _ => hslot⟩
    | @signal sig ch now hp hsig hnp =>
      have hleft : s.rt.HasLeft sig.childId :=
        hi.rt.sender_left (by rw [(Chan.recv_eq_some.mp hsig).1]; exact List.mem_cons_self)
      have hne : s.sup.phase.ended = false := by rw [hp]; rfl
      have hnil : starting s.sup.phase = [] := by rw [hp]; rfl
      -- no instance takes messages in the slot of the child that failed
      have hfree : ∀ idx slot i, s.sup.slots[idx]? = some slot → slot.id = sig.childId →
          (idx, i) ∈ s.spawned → ¬ s.rt.TakesMessages i := by
        intro idx slot i hslot hid hm ht
        have := hs.current hne idx slot i hslot (by rw [hnil]; exact List.not_mem_nil) hm ht
        exact hleft.not_takesMessages (hid ▸ this ▸ ht)
      rcases takeSignal_phase s.sup sig now with ⟨-, hphase⟩ | ⟨-, hquiet⟩
      · have hslots : (s.sup.takeSignal sig now).slots = s.sup.slots :=
          takeSignal_slots_of_restart hphase
        refine hs.of_spawned_eq h rfl ?_ (fun idx hidx i hm => ?_) (fun _ _ _ _ _ hp' => ?_)
          fun _ idx slot i hslot _ hm ht => ?_
        · simp only [hphase]
          exact nodup_toRestart
        · simp only [hphase, hs.strategy] at hidx
          have hidx : idx ∈ (Slot.position s.sup.slots sig.childId).toList := hidx
          rw [Option.mem_toList] at hidx
          obtain ⟨slot, hslot, hid⟩ := Slot.getElem?_position hidx
          exact hfree idx slot i hslot hid hm
        · simp only [hphase] at hp'
          cases hp'
        · rw [hslots] at hslot
          exact hs.current hne idx slot i hslot (by rw [hnil]; exact List.not_mem_nil) hm ht
      · refine hs.of_quiet h rfl hquiet fun _ =>
          ⟨hne, hnil, fun idx slot i hslot hm ht => ?_⟩
        rcases getElem?_takeSignal hslot with ⟨slot', hold, hid, -⟩ | hold
        · exact absurd ht (hfree idx slot' i hold hid hm)
        · exact hold
    | panic hp hsig hpanic => exact hs.of_quiet h rfl rfl fun hne => by cases hne
    | shutdown hp | sendStop rt hp hrt =>
      exact hs.of_quiet h rfl rfl fun _ =>
        ⟨by rw [hp]; rfl, by rw [hp]; rfl, fun _ _ _ hslot _ _ => hslot⟩
    | exit hp => exact hs.of_quiet h rfl rfl fun hne => by cases hne

/-- The scope of a OneForOne supervisor is the slot of the child that failed. -/
theorem Current.not_actsWhileRunning (hs : s.Current) (h : s.step e = some s') :
    ¬ s.ActsWhileRunning e := by
  rintro ⟨now, sig, idx, i, rfl, -, -, hidx, hm, hne, ht⟩
  have hp : s.sup.phase = .select := by
    cases supStep_inv h with
    | signal hp | panic hp => exact hp
  rw [hs.strategy] at hidx
  have hidx : idx ∈ (Slot.position s.sup.slots sig.childId).toList := hidx
  rw [Option.mem_toList] at hidx
  obtain ⟨slot, hslot, hid⟩ := Slot.getElem?_position hidx
  have hcurrent : slot.id = i := by
    refine hs.current (by rw [hp]; rfl) idx slot i hslot ?_ hm ht
    rw [hp]
    exact List.not_mem_nil
  exact hne (hcurrent.symm.trans hid)

/-- A OneForOne supervisor acts on no signal too early. -/
theorem oneForOne_single {rt : Runtime M A} {config : SupervisorConfig}
    {actorConfig : ActorConfig} {children : List Slot} (hrt : rt.Reachable)
    (hstart : start rt config actorConfig children = some s₀)
    (hstrategy : config.strategy = .oneForOne) (es : List (SysEvent M A)) :
    Along System.step (fun s e _ => ¬ s.ActsWhileRunning e) s₀ es := by
  have hs₀ : s₀.Current := by
    have hi := instances_start hrt hstart
    simp only [start, Option.map_eq_some_iff] at hstart
    obtain ⟨rt', -, rfl⟩ := hstart
    refine ⟨hi, hstrategy, List.nodup_range, fun _ _ _ hm => ?_, fun _ _ _ _ _ _ hm => ?_,
      fun _ _ _ _ _ _ hm => ?_⟩ <;> cases hm
  exact along_of_invariant (P := Current) (Q := fun _ _ _ => True)
    (fun hs _ hst => ⟨hs.step hst, hs.not_actsWhileRunning hst⟩) hs₀
    (along_of_forall fun _ _ _ _ => trivial)

/-- Child 4 starts, child 3 fails, and OneForAll restarts both slots. -/
def siblingRestarted : List (SysEvent Unit Unit) :=
  bothSpawn ++ [.env (.task ⟨4⟩ .poll), .env (.task ⟨4⟩ (.preStart (.ok ())))] ++ failsIn ⟨3⟩ ++
    [.recvSignal 0, .spawnChild (), .installed, .spawnChild (), .installed].map .sup

/-- Child 4 was never told to stop: it and its replacement 6 both take messages. -/
theorem sibling_keeps_running : ∃ s₀ s : System Unit Unit,
    twoChildren { SupervisorConfig.default with strategy := .oneForAll } = some s₀ ∧
    s₀.run siblingRestarted = some s ∧ (1, ⟨4⟩) ∈ s.spawned ∧ (1, ⟨6⟩) ∈ s.spawned ∧
    s.rt.TakesMessages ⟨4⟩ ∧ s.rt.TakesMessages ⟨6⟩ ∧ ¬ s.SingleInstance := by
  obtain ⟨s₀, s, hstart, hrun, h₄, h₆, ht₄, ht₆⟩ : ∃ s₀ s : System Unit Unit,
      twoChildren { SupervisorConfig.default with strategy := .oneForAll } = some s₀ ∧
      s₀.run siblingRestarted = some s ∧ (1, ⟨4⟩) ∈ s.spawned ∧ (1, ⟨6⟩) ∈ s.spawned ∧
      s.rt.TakesMessages ⟨4⟩ ∧ s.rt.TakesMessages ⟨6⟩ := by
    refine ⟨_, _, rfl, rfl, ?_, ?_, ⟨_, rfl, rfl, ?_⟩, ⟨_, rfl, rfl, ?_⟩⟩ <;> decide
  refine ⟨s₀, s, hstart, hrun, h₄, h₆, ht₄, ht₆, fun hsingle => ?_⟩
  have := hsingle 1 ⟨4⟩ ⟨6⟩ h₄ h₆ ht₄ ht₆
  cases this

/-- A OneForOne supervisor of two children, at its start. -/
def oneForOneTwo : System Unit Unit := (twoChildren .default).get rfl

/-- Child 3 fails and is restarted. -/
def childRestarted : List (SysEvent Unit Unit) :=
  bothSpawn ++ failsIn ⟨3⟩ ++ [.recvSignal 0, .spawnChild (), .installed, .restarted].map .sup

/-- The result for a OneForOne supervisor of two children. -/
theorem single_instance_oneForOne : ∃ s₀ : System Unit Unit,
    twoChildren .default = some s₀ ∧ (s₀.run childRestarted).isSome ∧
    Always System.step KeepsSingle s₀ childRestarted := by
  have hstart : twoChildren .default = some oneForOneTwo := rfl
  refine ⟨_, hstart, rfl, ?_⟩
  exact (single_instance_iff reachable_twoSpecs hstart childRestarted).mpr
    (oneForOne_single reachable_twoSpecs hstart rfl childRestarted)

/-! ### The end of a failed instance -/

/-- A run of the system is a run of the runtime. -/
theorem Instances.rt_of_run (hi : s.Instances) (h : s.run es = some s') :
    ∃ ds, s.rt.run ds = some s'.rt := by
  have hproj {u u' : System M A} {e : SysEvent M A} (hu : u.Instances) (hst : u.step e = some u') :
      ∃ ds, u.rt.run ds = some u'.rt := rt_of_step hu.channel hst
  exact project_run (fun hu hst => hu.step hst) hproj hi h

/-- When the event restarts a slot, the new instance never begins its `pre_start`, whatever
happens afterwards, before the failed instances of the slot have completed their `post_stop`. -/
def ReplacementWaits (s : System M A) (e : SysEvent M A) (s₁ : System M A) : Prop :=
  ∀ actor sig idx todo id, e = .sup (.spawnChild actor) →
    s.sup.phase = .restart (.signal sig) (idx :: todo) → s₁.spawned = s.spawned ++ [(idx, id)] →
    ∀ f, (idx, f) ∈ s.spawned → s.rt.Failed f →
    ∀ es s₂, s₁.run es = some s₂ → s₂.rt.Begun id → s₂.rt.Completed f

/-- The event restarts a slot while a failed instance of it has yet to complete its
`post_stop`. -/
def RestartsUnfinished (s : System M A) (e : SysEvent M A) : Prop :=
  ∃ actor sig idx todo f, e = .sup (.spawnChild actor) ∧
    s.sup.phase = .restart (.signal sig) (idx :: todo) ∧ (idx, f) ∈ s.spawned ∧
    s.rt.Failed f ∧ ¬ s.rt.Completed f

/-- What a `post_stop` has completed stays completed, so a replacement waits for it if it is
completed at the spawn. -/
theorem Instances.replacementWaits (hi : s.Instances) (h : s.step e = some s')
    (he : ¬ s.RestartsUnfinished e) : s.ReplacementWaits e s' := by
  intro actor sig idx todo id heq hp _ f hmem hfailed es s₂ hrun _
  obtain ⟨ds, hds⟩ := hi.rt_of_run ((run_cons_of_step h).trans hrun)
  have hdone : s.rt.Completed f := by
    by_contra hnot
    exact he ⟨actor, sig, idx, todo, f, heq, hp, hmem, hfailed, hnot⟩
  exact hdone.run hi.rt.fresh hds

/-- A replacement that is spawned too early can begin its `pre_start` at once. -/
theorem Instances.not_replacementWaits (hi : s.Instances) (h : s.step e = some s')
    (he : s.RestartsUnfinished e) : ¬ s.ReplacementWaits e s' := by
  obtain ⟨actor, sig, idx, todo, f, rfl, hp, hmem, hfailed, hnot⟩ := he
  intro hwaits
  cases supStep_inv h with
  | @spawn cause idx' todo' _ id rt hp' hrt =>
    obtain ⟨rfl, rfl, rfl⟩ : cause = .signal sig ∧ idx' = idx ∧ todo' = todo := by
      simpa using hp'.symm.trans hp
    obtain ⟨t, htf⟩ := hi.spawned _ hmem
    have hne : f ≠ id := by
      rintro rfl
      exact absurd (Runtime.spawnOnRuntime_eq hrt).1 (hi.rt.fresh.ne_nextId htf)
    -- the new instance is polled at once
    have htask : (s.spawnedChild rt (.signal sig) idx' id todo').rt.tasks id =
        some ⟨.spawned, actor, ∅, [], s.sup.actorConfig⟩ := tasks_spawnedChild hrt
    obtain ⟨rt', hpoll, hbegun, hframe⟩ := Runtime.exists_poll htask rfl
    have hrun : (s.spawnedChild rt (.signal sig) idx' id todo').run [.env (.task id .poll)] =
        some { s.spawnedChild rt (.signal sig) idx' id todo' with rt := rt' } :=
      run_cons_of_step (by simp [System.step, allowed, hpoll])
    obtain ⟨t', ht', hdone⟩ :=
      hwaits actor sig idx' todo' id rfl hp rfl f hmem hfailed _ _ hrun hbegun
    refine hnot ⟨t', ?_, hdone⟩
    obtain ⟨-, rfl⟩ := Runtime.spawnOnRuntime_eq hrt
    simpa [hframe f hne, spawnedChild, Function.update_of_ne hne] using ht'

/-- **The replacement of a failed instance.** Over a run of a supervisor and its actors, each
restart of a slot is such that, whatever happens afterwards, the new instance never begins its
`pre_start` before the failed instances of the slot have completed their `post_stop`, exactly
when they have completed it at each restart. -/
theorem replacement_waits_iff {rt : Runtime M A} {config : SupervisorConfig}
    {actorConfig : ActorConfig} {children : List Slot} (hrt : rt.Reachable)
    (hstart : start rt config actorConfig children = some s₀) (es : List (SysEvent M A)) :
    Along System.step ReplacementWaits s₀ es ↔
      Along System.step (fun s e _ => ¬ s.RestartsUnfinished e) s₀ es := by
  have hi₀ : s₀.Instances := instances_start hrt hstart
  constructor
  · intro hwaits
    exact along_of_invariant (P := Instances) (fun hi hw hst =>
      ⟨hi.step hst, fun he => hi.not_replacementWaits hst he hw⟩) hi₀ hwaits
  · intro hes
    exact along_of_invariant (P := Instances) (fun hi he hst =>
      ⟨hi.step hst, hi.replacementWaits hst he⟩) hi₀ hes

/-- Child 3 has failed; its replacement 5 is spawned and polled. -/
def replacementPolled : List (SysEvent Unit Unit) :=
  [.sup (.spawnChild ()), .env (.task ⟨5⟩ .poll)]

/-- The replacement is in its `pre_start` while the failed child is in its `post_stop`. -/
theorem replacement_overtakes : ∃ s₀ s s' : System Unit Unit,
    twoChildren .default = some s₀ ∧
    s₀.run (bothSpawn ++ failsIn ⟨3⟩ ++ [.sup (.recvSignal 0)]) = some s ∧
    s.run replacementPolled = some s' ∧ s'.spawned = s.spawned ++ [(0, ⟨5⟩)] ∧
    (0, ⟨3⟩) ∈ s.spawned ∧ s.rt.Failed ⟨3⟩ ∧ s'.rt.phase ⟨3⟩ = some (.postStop (.error "boom")) ∧
    s'.rt.phase ⟨5⟩ = some .preStart := by
  refine ⟨_, _, _, rfl, rfl, rfl, rfl, ?_, ⟨_, _, rfl, rfl, rfl⟩, rfl, rfl⟩
  decide

/-- No signal is handled before one is taken. -/
theorem cause_step (hcause : s.sup.phase.cause = none) (h : s.step e = some s')
    (he : ¬ TakesSignal e) : s'.sup.phase.cause = none := by
  cases e with
  | env e =>
    obtain ⟨-, rt, -, rfl⟩ := step_env h
    exact hcause
  | sup c =>
    cases supStep_inv h with
    | @spawn cause idx todo actor id rt hp hrt | @installed cause idx id todo hp =>
      cases cause with
      | start => rfl
      | signal sig => rw [hp] at hcause; cases hcause
    | childFailed hp => rw [hp] at hcause; cases hcause
    | signal | panic => exact absurd ⟨_, rfl⟩ he
    | _ => rfl

/-- Nothing is restarted before a signal is taken. -/
theorem along_of_not_takesSignal (hcause : s.sup.phase.cause = none)
    (hes : ∀ e ∈ es, ¬ TakesSignal e) :
    Along System.step (fun s e _ => ¬ s.RestartsUnfinished e) s es := by
  refine along_of_invariant (P := fun s : System M A => s.sup.phase.cause = none)
    (fun hc he hst => ⟨cause_step hc hst he, ?_⟩) hcause (along_of_forall fun _ e he _ => hes e he)
  rintro ⟨_, sig, _, _, _, -, hp, -⟩
  rw [hp] at hc
  cases hc

/-- Child 3 fails, and completes its `post_stop` before its signal is taken. -/
def stoppedFirst : List (SysEvent Unit Unit) :=
  bothSpawn ++ failsIn ⟨3⟩ ++ [.env (.task ⟨3⟩ (.postStop (.ok ())))]

/-- The result where `post_stop` comes first. -/
theorem replacement_waits_stoppedFirst : ∃ s₀ : System Unit Unit,
    twoChildren .default = some s₀ ∧
    (s₀.run (stoppedFirst ++ .sup (.recvSignal 0) :: replacementPolled)).isSome ∧
    Along System.step ReplacementWaits s₀
      (stoppedFirst ++ .sup (.recvSignal 0) :: replacementPolled) := by
  have hstart : twoChildren .default = some oneForOneTwo := rfl
  refine ⟨_, hstart, rfl, (replacement_waits_iff reachable_twoSpecs hstart _).mpr ?_⟩
  refine along_append.mpr ⟨along_of_not_takesSignal rfl ?_, fun s hs s₁ hs₁ => ⟨?_, fun s₂ _ =>
    ⟨?_, fun s₃ _ => ⟨?_, trivial⟩⟩⟩⟩
  · simp [stoppedFirst, bothSpawn, failsIn, TakesSignal]
  · rintro ⟨_, _, _, _, _, h, -⟩
    cases h
  · -- the restart: child 3 is the only instance of its slot, and it has stopped
    have hrun : oneForOneTwo.run (stoppedFirst ++ [.sup (.recvSignal 0)]) = some s₁ :=
      run_concat.mpr ⟨s, hs, hs₁⟩
    have hat : (oneForOneTwo.run (stoppedFirst ++ [.sup (.recvSignal 0)])).map
        (fun s => (s.sup.phase, s.spawned, (s.rt.tasks ⟨3⟩).map fun t => t.phase.postStopDone)) =
        some (.restart (.signal ⟨⟨3⟩, .error "boom"⟩) [0], [(0, ⟨3⟩), (1, ⟨4⟩)], some true) := rfl
    rw [hrun, Option.map_some, Option.some.injEq, Prod.mk.injEq, Prod.mk.injEq,
      Option.map_eq_some_iff] at hat
    obtain ⟨hphase, hspawned, t, ht, hdone⟩ := hat
    rintro ⟨_, sig, idx, todo, f, -, hp, hf, -, hnot⟩
    rw [hphase] at hp
    cases hp
    obtain rfl : f = ⟨3⟩ := by simpa [hspawned] using hf
    exact hnot ⟨t, ht, hdone⟩
  · rintro ⟨_, _, _, _, _, h, -⟩
    cases h

end System

end LaneSwitchboards
