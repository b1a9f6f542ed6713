import LaneSwitchboards.Supervisor.Shutdown

/-!
# A start that fails

When a child factory fails, `start_settled` returns at once and drops what it holds, the
references of the children it has spawned included. Nothing tells these children to stop: they
end when their mailboxes close, and a clone that a factory has published keeps a mailbox open.

* `Backed.step`: the references that the supervisor holds are counted.
* `failed_start_iff`: no child of a failed start is left running iff none of those in their loops
  has a reference held elsewhere.
-/

namespace LaneSwitchboards

open Function

namespace Runtime

open Transition

variable {M A : Type} {w w' : Runtime M A} {i : ActorId} {e : RtEvent M A}
  {es : List (RtEvent M A)} {t : Task M A}

/-- The actor is in its loop or has yet to enter it, was not told to stop, and its mailbox is
open, so that it waits for messages. -/
def LeftRunning (w : Runtime M A) (i : ActorId) : Prop := w.TakesMessages i ∧ 0 < w.refs i

/-- Dropping references. -/
theorem refs_releaseRefs (w : Runtime M A) (ids : List ActorId) (i : ActorId) :
    (w.releaseRefs ids).refs i = w.refs i - ids.count i := by
  induction ids generalizing w with
  | nil => rfl
  | cons j ids ih =>
    have hrest := ih (w.releaseRef j)
    by_cases hi : i = j
    · subst hi
      rw [releaseRefs, List.foldl_cons, ← releaseRefs, hrest]
      simp only [releaseRef, update_self, List.count_cons_self]
      omega
    · rw [releaseRefs, List.foldl_cons, ← releaseRefs, hrest, List.count_cons_of_ne (Ne.symm hi)]
      simp [releaseRef, update_of_ne hi]

/-- Without a reference a request does not complete, and the loop does not wait. -/
theorem not_waits (hrefs : w.refs i = 0) (h : w.step e = some w') :
    ¬ w.Observes i e .mailboxEmpty ∧ ∀ env, e ≠ .post i env := by
  refine ⟨?_, ?_⟩
  · rintro ⟨c, t, w₁, rfl, ht, hx⟩
    cases c with
    | recvMailbox =>
      simp only [observe, Option.ite_none_right_eq_some, Option.some.injEq] at hx
      have hx := hx.2
      unfold observeMailbox at hx
      split at hx
      · cases hx
      · rw [if_pos hrefs] at hx
        cases hx
    | recvControl trap =>
      simp only [observe, Option.ite_none_right_eq_some, Option.some.injEq] at hx
      have hx := hx.2
      unfold observeControl at hx
      split at hx
      · cases hx
      · split_ifs at hx <;> cases hx
    | lookup =>
      simp only [observe, Option.map_eq_some_iff, Prod.mk.injEq] at hx
      obtain ⟨x, hx, rfl, -⟩ := hx
      unfold observeLookup at hx
      split at hx <;> cases hx
    | send =>
      simp only [observe, Option.map_eq_some_iff, Prod.mk.injEq] at hx
      obtain ⟨w₂, -, hx, -⟩ := hx
      cases hx
    | _ => cases hx
  · rintro env rfl
    simp only [step, post, Option.ite_none_right_eq_some, hrefs] at h
    exact absurd h.1.1 (lt_irrefl 0)

/-- **An actor whose mailbox is closed** is sent nothing more and does not wait for messages. -/
theorem along_not_waits (hf : w.Fresh) (ht : w.tasks i = some t) (hrefs : w.refs i = 0)
    (es : List (RtEvent M A)) :
    Along step (fun w e _ => ¬ w.Observes i e .mailboxEmpty ∧ ∀ env, e ≠ .post i env) w es := by
  refine along_of_invariant (Q := fun _ _ _ => True)
    (P := fun v : Runtime M A => v.Fresh ∧ (∃ t, v.tasks i = some t) ∧ v.refs i = 0)
    (fun hv _ hst => ?_) ⟨hf, ⟨t, ht⟩, hrefs⟩ (along_of_forall fun _ _ _ _ => trivial)
  obtain ⟨hf, ⟨t, ht⟩, hrefs⟩ := hv
  exact ⟨⟨hf.step hst, tasks_mono hst ht, refs_eq_zero_step hf ht hrefs hst⟩,
    not_waits hrefs hst⟩

end Runtime

namespace System

open Transition

variable {M A : Type} {s s' : System M A} {e : SysEvent M A} {es : List (SysEvent M A)}
  {i : ActorId}

/-! ### The supervisor's references -/

/-- What the supervisor holds is counted. -/
structure Backed (s : System M A) : Prop where
  instances : s.Instances
  held : ∀ i, s.sup.held i ≤ s.rt.refs i

/-- An actor without a task has no reference with the supervisor. -/
theorem Instances.held_eq_zero (hi : s.Instances) (ht : s.rt.tasks i = none) :
    s.sup.held i = 0 := by
  have hrefs : i ∉ s.sup.currentRefs := by
    intro hmem
    obtain ⟨idx, hidx⟩ := List.mem_iff_getElem?.mp hmem
    obtain ⟨t, hti⟩ := hi.spawned _ (hi.refs idx i hidx)
    rw [ht] at hti
    cases hti
  have hnew {cause : Cause} {idx : ℕ} {id : ActorId} {todo : List ℕ}
      (hp : s.sup.phase = .installing cause idx id todo) : i ∉ id :: s.sup.currentRefs := by
    refine List.not_mem_cons_of_ne_of_not_mem ?_ hrefs
    rintro rfl
    obtain ⟨t, hti⟩ := hi.spawned _ (hi.installing _ _ _ _ hp)
    rw [ht] at hti
    cases hti
  unfold Supervisor.held
  split
  · rw [List.count_eq_zero_of_not_mem hrefs]
  · next hp => rw [List.count_eq_zero_of_not_mem (hnew hp)]
  · next hp => rw [List.count_eq_zero_of_not_mem (hnew hp)]
  · rw [List.count_eq_zero_of_not_mem hrefs]

/-- What the supervisor holds of each child at least, whatever its phase. -/
theorem count_le_held (p : Supervisor) (i : ActorId) : p.currentRefs.count i ≤ p.held i := by
  have hcons (id : ActorId) : p.currentRefs.count i ≤ (id :: p.currentRefs).count i :=
    (List.sublist_cons_self ..).count_le i
  unfold Supervisor.held
  split
  · omega
  · next idx id todo hp =>
    have := hcons id
    omega
  · next sig idx id todo hp => exact hcons id
  · exact le_rfl

/-- A supervisor that is not starting a slot holds its current references. -/
theorem held_of_quiet {p : Supervisor} (h : p.phase.quiet = true) :
    p.held i = p.currentRefs.count i := by
  unfold Supervisor.held
  split
  · next hp => rw [hp] at h; cases h
  · next hp => rw [hp] at h; cases h
  · next hp => rw [hp] at h; cases h
  · rfl

/-- The end of the supervisor leaves it with no reference. -/
theorem held_finish (s : System M A) {p : SupPhase} (hp : p.ended = true) :
    (s.finish p).sup.held i = 0 := by
  have hquiet : (s.finish p).sup.phase.quiet = true := SupPhase.quiet_of_ended hp
  rw [held_of_quiet hquiet]
  rfl

/-- A spawn adds the references of the new child. -/
theorem Backed.spawn (hb : s.Backed) {cause : Cause} {idx : ℕ} {todo : List ℕ} {actor : A}
    {id : ActorId} {rt : Runtime M A} (hp : s.sup.phase = .restart cause (idx :: todo))
    (hrt : s.rt.spawnOnRuntime s.sup.actorConfig actor (some s.sup.channel) = some (id, rt))
    (i : ActorId) : (s.spawnedChild rt cause idx id todo).sup.held i ≤
      (s.spawnedChild rt cause idx id todo).rt.refs i := by
  obtain ⟨rfl, rfl⟩ := Runtime.spawnOnRuntime_eq hrt
  have hheld := hb.held i
  by_cases hi : i = ⟨s.rt.nextId⟩
  · subst hi
    have htask : s.rt.tasks ⟨s.rt.nextId⟩ = none := by
      by_contra hne
      obtain ⟨t, ht⟩ := Option.ne_none_iff_exists'.mp hne
      exact hb.instances.rt.fresh.ne_nextId ht rfl
    have hcount := count_le_held s.sup ⟨s.rt.nextId⟩
    rw [hb.instances.held_eq_zero htask] at hcount
    cases cause <;>
      simp [spawnedChild, Supervisor.held, Runtime.addRef, Nat.le_zero.mp hcount]
  · have hne : (⟨s.rt.nextId⟩ : ActorId) ≠ i := Ne.symm hi
    cases cause <;>
      simpa [spawnedChild, Supervisor.held, hp, Runtime.addRef, update_of_ne hi,
        List.count_cons_of_ne hne] using hheld

/-- The return of a factory keeps the references, but for the one that is replaced. -/
theorem Backed.install (hb : s.Backed) {cause : Cause} {idx : ℕ} {id : ActorId} {todo : List ℕ}
    (hp : s.sup.phase = .installing cause idx id todo) (i : ActorId) :
    (s.install cause idx id todo).sup.held i ≤ (s.install cause idx id todo).rt.refs i := by
  have hheld := hb.held i
  cases cause with
  | start =>
    simp only [Supervisor.held, hp, List.count_cons] at hheld
    simp only [System.install, Supervisor.held, List.count_append, List.count_singleton]
    omega
  | signal sig =>
    simp only [Supervisor.held, hp, List.count_cons] at hheld
    simp only [System.install, Supervisor.held, Runtime.refs_releaseRefs]
    by_cases hlt : idx < s.sup.currentRefs.length
    · have hold : s.sup.currentRefs[idx]?.toList = [s.sup.currentRefs[idx]] := by
        simp [List.getElem?_eq_getElem hlt]
      have hmem : s.sup.currentRefs[idx] ∈ s.sup.currentRefs := List.getElem_mem hlt
      rw [hold, List.count_set hlt, List.count_singleton]
      by_cases hi : s.sup.currentRefs[idx] = i
      · have hpos : 0 < s.sup.currentRefs.count i := List.count_pos_iff.mpr (hi ▸ hmem)
        simp only [hi, beq_self_eq_true, if_true]
        omega
      · simp only [beq_iff_eq, hi, if_false]
        simp only [beq_iff_eq] at hheld
        omega
    · have hnone : s.sup.currentRefs[idx]? = none := List.getElem?_eq_none (not_lt.mp hlt)
      rw [List.set_eq_of_length_le (not_lt.mp hlt), hnone]
      simp only [Option.toList_none, List.count_nil]
      omega

/-- **Every step keeps the supervisor's references counted.** -/
theorem Backed.step (hb : s.Backed) (h : s.step e = some s') : s'.Backed := by
  refine ⟨hb.instances.step h, fun i => ?_⟩
  have hheld := hb.held i
  have hcount := count_le_held s.sup i
  cases e with
  | env e =>
    obtain ⟨hallowed, rt, hrt, rfl⟩ := step_env h
    change s.sup.held i ≤ rt.refs i
    rcases Runtime.refs_step hrt i with hsame | ⟨-, -, hclone⟩ | ⟨rfl, hdrop⟩ |
      ⟨config, actor, supervisor, -, hi, hone⟩
    · exact hheld.trans hsame.ge
    · omega
    · have hlt : s.sup.held i < s.rt.refs i := by simpa [allowed] using hallowed
      omega
    · have htask : s.rt.tasks i = none := by
        by_contra hne
        obtain ⟨t, ht⟩ := Option.ne_none_iff_exists'.mp hne
        exact hb.instances.rt.fresh.ne_nextId ht hi
      exact (hb.instances.held_eq_zero htask).le.trans (Nat.zero_le _)
  | sup c =>
    cases supStep_inv h with
    | spawn actor id rt hp hrt => exact hb.spawn hp hrt i
    | startFailed hp => exact (held_finish s rfl).le.trans (Nat.zero_le _)
    | childFailed hp =>
      rw [Supervisor.held, hp] at hheld
      exact hheld
    | installed hp => exact hb.install hp i
    | restarted hp => exact (held_of_quiet rfl).le.trans (hcount.trans hheld)
    | @signal sig ch now hp hrecv hnp =>
      have hrefs := (map_order_takeSignal s.sup sig now).2.1
      have hsame : (s.sup.takeSignal sig now).held i = s.sup.currentRefs.count i := by
        rcases takeSignal_phase s.sup sig now with ⟨-, hphase⟩ | ⟨-, hquiet⟩
        · rw [Supervisor.held, hphase, hrefs]
        · rw [held_of_quiet hquiet, hrefs]
      exact hsame.le.trans (hcount.trans hheld)
    | panic hp hrecv hpanic => exact (held_finish _ rfl).le.trans (Nat.zero_le _)
    | shutdown hp => exact (held_of_quiet rfl).le.trans (hcount.trans hheld)
    | @sendStop j rest rt hp hrt =>
      have hrefs : rt.refs = s.rt.refs := by
        rcases hrt with hrt | rfl
        · rw [(Runtime.step_post hrt).2]
          rfl
        · rfl
      refine (held_of_quiet rfl).le.trans ((hcount.trans hheld).trans ?_)
      rw [hrefs]
    | exit hp => exact (held_finish s rfl).le.trans (Nat.zero_le _)

/-- The references are counted in every reachable state. -/
theorem Reachable.backed (h : s.Reachable) : s.Backed := by
  obtain ⟨rt, config, actorConfig, children, s₀, es, hrt, hstart, hrun⟩ := h
  refine invariant_run (P := Backed) (fun hb hst => hb.step hst)
    ⟨instances_start hrt hstart, fun i => ?_⟩ hrun
  simp only [start, Option.map_eq_some_iff] at hstart
  obtain ⟨rt', -, rfl⟩ := hstart
  simp [Supervisor.held]

/-! ### A start that fails -/

/-- What a failed start leaves behind: the children go on, with the references held elsewhere. -/
theorem startFailed_spec (h : s.step (.sup .factoryErr) = some s')
    (hfailed : s'.sup.phase = .startFailed) (i : ActorId) :
    s'.spawned = s.spawned ∧ (s'.rt.TakesMessages i ↔ s.rt.TakesMessages i) ∧
      s'.rt.refs i = s.rt.refs i - s.sup.held i := by
  cases supStep_inv h with
  | @startFailed idx todo hp =>
    obtain ⟨htasks, hmailbox, -⟩ := s.rt.releaseRefs_frame s.sup.refsAtEnd
    refine ⟨rfl, ?_, ?_⟩
    · simp only [Runtime.TakesMessages, finish, Runtime.setSignals, htasks, hmailbox]
    · have hrefs : (s.finish .startFailed).rt.refs i = (s.rt.releaseRefs s.sup.refsAtEnd).refs i :=
        rfl
      rw [hrefs, Runtime.refs_releaseRefs]
      simp only [Supervisor.refsAtEnd, Supervisor.held, hp, List.count_append]
      omega
  | childFailed hp => cases hfailed

/-- **A start that fails.** When the factory of a child fails during the start, whatever the
specs and the position:

* no child that was spawned is left running exactly when none of them that takes messages has a
  reference held outside of the call;
* a child without a reference is sent nothing more and never waits for a message again. -/
theorem failed_start_iff (hs : s.Reachable) (h : s.step (.sup .factoryErr) = some s')
    (hfailed : s'.sup.phase = .startFailed) :
    ((∀ p ∈ s'.spawned, ¬ s'.rt.LeftRunning p.2) ↔
      ∀ p ∈ s.spawned, s.rt.TakesMessages p.2 → s.rt.refs p.2 = s.sup.held p.2) ∧
    ∀ p ∈ s'.spawned, s'.rt.refs p.2 = 0 → ∀ es, Along Runtime.step
      (fun w e _ => ¬ w.Observes p.2 e .mailboxEmpty ∧ ∀ env, e ≠ .post p.2 env) s'.rt es := by
  refine ⟨?_, fun p hmem hrefs es => ?_⟩
  · have hspawned := (startFailed_spec h hfailed .DEAD).1
    rw [hspawned]
    refine forall₂_congr fun p hmem => ?_
    obtain ⟨-, htakes, hrefs⟩ := startFailed_spec h hfailed p.2
    have hheld := hs.backed.held p.2
    rw [Runtime.LeftRunning, htakes, not_and, hrefs]
    refine imp_congr_right fun _ => ?_
    omega
  · obtain ⟨t, ht⟩ := (hs.step h).instances.spawned p hmem
    exact Runtime.along_not_waits (hs.step h).instances.rt.fresh ht hrefs es

/-- The first of two children is spawned; `published` is what its factory does with its
reference before it returns. -/
def firstSpawns (published : List (SysEvent Unit Unit)) : List (SysEvent Unit Unit) :=
  .sup (.spawnChild ()) :: published ++ [.sup .installed]

/-- The factory of the second child fails, and nobody else has a reference of the first. -/
theorem failed_start_unpublished : ∃ s s' : System Unit Unit,
    oneForOneTwo.run (firstSpawns []) = some s ∧ s.step (.sup .factoryErr) = some s' ∧
    s'.sup.phase = .startFailed ∧ s'.spawned = [(0, ⟨3⟩)] ∧
    ∀ p ∈ s'.spawned, ¬ s'.rt.LeftRunning p.2 := by
  have hstart : twoChildren .default = some oneForOneTwo := rfl
  let s : System Unit Unit := (oneForOneTwo.run (firstSpawns [])).get rfl
  have hrun : oneForOneTwo.run (firstSpawns []) = some s := rfl
  have hs : s.Reachable := ⟨_, _, _, _, _, _, reachable_twoSpecs, hstart, hrun⟩
  refine ⟨s, _, hrun, rfl, rfl, rfl, (failed_start_iff hs rfl rfl).1.mpr ?_⟩
  intro p hmem _
  obtain rfl : p = (0, ⟨3⟩) := List.mem_singleton.mp hmem
  rfl

/-- A request is sent to the first child, which starts and takes it. -/
def firstServes : List (SysEvent Unit Unit) :=
  .env (.post ⟨3⟩ (.msg ())) :: [Choice.poll, .preStart (.ok ()), .recvControl false,
    .recvMailbox].map fun c => .env (.task ⟨3⟩ c)

/-- The first child is in a registry when the second factory fails: it is left running, and
serves whoever finds it there. -/
theorem failed_start_leaves_child : ∃ s s' s'' : System Unit Unit,
    oneForOneTwo.run (firstSpawns [.env (.cloneRef ⟨3⟩)]) = some s ∧
    s.step (.sup .factoryErr) = some s' ∧ s'.sup.phase = .startFailed ∧
    (0, ⟨3⟩) ∈ s'.spawned ∧ s'.rt.LeftRunning ⟨3⟩ ∧
    s'.run firstServes = some s'' ∧ s''.rt.phase ⟨3⟩ = some (.handleBegin ()) := by
  refine ⟨_, _, _, rfl, rfl, rfl, ?_, ⟨⟨_, rfl, rfl, ?_⟩, ?_⟩, rfl, rfl⟩ <;> decide

end System

end LaneSwitchboards
