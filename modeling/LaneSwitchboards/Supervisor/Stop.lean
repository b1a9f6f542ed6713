import LaneSwitchboards.Actor.Cascade
import LaneSwitchboards.Supervisor.Shutdown

/-!
# The order in which children are stopped

The shutdown sends each child a `Stop`, the one that was started last first, and returns when the
last one is sent. A `Stop` is queued behind what the mailbox holds, and nothing waits for the child
to take it: how the children end is up to their mailboxes and the scheduler.

`stop_in_order`: where the supervisor happens to go on only when the child that was told last has
ended, and no child that has yet to be told leaves its loop of its own accord too early, the
children leave in reverse order of start and all of them have ended when the shutdown returns.
-/

namespace LaneSwitchboards

open Transition

variable {M A : Type}

namespace Input

/-- With this input a task leaves its loop, or never enters it. -/
def leaves : Input M A → Bool
  | .preStart (.error _) | .control none _ | .control (some (.linkedExit _ _)) false => true
  | .envelope none | .envelope (some .stop) | .envelope (some .kill) => true
  | .handleBegin (.error _) | .handle (.err _) _ | .handle .panicked _ | .handleStuck _ => true
  | .onUpgrade (.error _) | .panicked => true
  | _ => false

end Input

namespace Task

variable {t t' : Task M A} {x : Input M A}

theorem leaves_of_step (h : t.step x = some t') (hrun : t.phase.running = true)
    (hleft : t'.phase.running = false) : x.leaves = true := by
  unfold step at h
  split at h
  all_goals try cases h
  all_goals try rfl
  all_goals try cases hleft
  all_goals try (next heq => rw [heq] at hrun; cases hrun)
  · next m trap _ =>
    rcases m with _ | peer | ⟨peer, r⟩
    · rfl
    · rw [recvControl, running_insertLink] at hleft
      cases hleft
    · cases trap with
      | true => cases hleft
      | false => rfl
  · next e _ =>
    rcases e with _ | e
    · rfl
    · cases e with
      | link peer =>
        rw [recvEnvelope, running_insertLink] at hleft
        cases hleft
      | _ => first | rfl | cases hleft
  · next o _ _ => cases o <;> first | rfl | cases hleft
  · split at h <;> cases h
    cases hleft

end Task

namespace Runtime

variable {w w' : Runtime M A} {i : ActorId} {e : RtEvent M A}

/-- **Who has left** had left before, or observes an input to leave with. -/
theorem HasLeft.of_step (h : w'.HasLeft i) (hst : w.step e = some w') :
    w.HasLeft i ∨ ∃ x, w.Observes i e x ∧ x.leaves = true := by
  obtain ⟨t', ht', hleft⟩ := h
  rcases tasks_step hst i with hsame | ⟨c, t, x, w₁, s, -, ht, -, hobs, hstep, hs⟩ |
    ⟨_, _, _, -, -, hs⟩
  · exact Or.inl ⟨t', hsame.symm.trans ht', hleft⟩
  · obtain rfl : s = t' := Option.some.inj (hs.symm.trans ht')
    cases hrun : t.phase.running with
    | false => exact Or.inl ⟨t, ht, hrun⟩
    | true => exact Or.inr ⟨x, hobs, Task.leaves_of_step hstep hrun hleft⟩
  · obtain rfl := Option.some.inj (hs.symm.trans ht')
    cases hleft

theorem Ended.hasLeft (h : w.Ended i) : w.HasLeft i := by
  obtain ⟨t, ht, hdone⟩ := h
  refine ⟨t, ht, Bool.eq_false_iff.mpr fun hrun => ?_⟩
  rw [Phase.isDone_of_running hrun] at hdone
  cases hdone

/-- A task that has ended observes nothing. -/
theorem Ended.not_observes {x : Input M A} (h : w.Ended i) (hst : w.step e = some w') :
    ¬ w.Observes i e x := by
  intro hobs
  obtain ⟨t, ht, hdone⟩ := h
  obtain ⟨s, w₁, t', hs, -, hstep, -⟩ := hobs.step hst
  obtain rfl : t = s := Option.some.inj (ht.symm.trans hs)
  rw [(Task.step_move hstep).not_isDone] at hdone
  cases hdone

theorem Ended.of_tasks (h : w.Ended i) (ht : w'.tasks = w.tasks) : w'.Ended i := by
  unfold Ended
  rw [ht]
  exact h

theorem Ended.step (h : w.Ended i) (hf : w.Fresh) (hst : w.step e = some w') : w'.Ended i := by
  have hnot : ∀ x, ¬ w.Observes i e x := fun _ => h.not_observes hst
  obtain ⟨t, ht, hdone⟩ := h
  rcases tasks_step hst i with hsame | ⟨_, _, x, _, _, -, -, -, hobs, -, -⟩ | ⟨_, _, _, -, hi, -⟩
  · exact ⟨t, hsame.trans ht, hdone⟩
  · exact absurd hobs (hnot x)
  · exact absurd hi (hf.ne_nextId ht)

end Runtime

/-- The child that was told to stop last. -/
def Supervisor.toldLast (p : Supervisor) : Option ActorId :=
  match p.phase with
  | .stopping rest => (p.currentRefs.drop rest.length).head?
  | _ => none

section Pairs

variable {α : Type*} {a b : α} {l l' : List α}

/-- Two elements in order, the first of which is not in the first part. -/
theorem sublist_of_notMem (ha : a ∉ l) (h : [a, b].Sublist (l ++ l')) : [a, b].Sublist l' := by
  obtain ⟨l₁, l₂, hsplit, h₁, h₂⟩ := List.sublist_append_iff.mp h
  cases l₁ with
  | nil =>
    rw [hsplit]
    exact h₂
  | cons c l₁ =>
    obtain rfl := (List.cons.inj hsplit).1
    exact absurd (h₁.subset List.mem_cons_self) ha

/-- Two elements in order, the first of which is the head at most. -/
theorem mem_tail_of_sublist (h : [a, b].Sublist l) (ha : a ∉ l.tail) : b ∈ l.tail := by
  cases l with
  | nil => cases h
  | cons c l =>
    cases h with
    | cons _ h => exact absurd (h.subset List.mem_cons_self) ha
    | cons_cons _ h => exact h.subset List.mem_cons_self

end Pairs

namespace System

variable {s s' s₁ : System M A} {e : SysEvent M A} {es : List (SysEvent M A)} {refs : List ActorId}

/-- The supervisor sends the next `Stop`, or returns, before the child that was told last has
ended. -/
def GoesOnEarly (s : System M A) (e : SysEvent M A) : Prop :=
  ∃ c i, e = .sup c ∧ s.sup.toldLast = some i ∧ ¬ s.rt.Ended i

/-- A child that has yet to be told to stop leaves its loop while a later one is in its own. -/
def LeavesEarly (s : System M A) (e : SysEvent M A) : Prop :=
  ∃ d x rest i j, e = .env d ∧ s.rt.Observes i d x ∧ x.leaves = true ∧
    s.sup.phase = .stopping rest ∧ i ∈ rest ∧ [i, j].Sublist s.sup.currentRefs ∧
    ¬ s.rt.HasLeft j

/-- No child has left its loop while a later one may still take messages. -/
def LeftInReverse (s : System M A) (refs : List ActorId) : Prop :=
  refs.Pairwise fun i j => s.rt.HasLeft i → s.rt.HasLeft j

theorem tasks_finish (s : System M A) (p : SupPhase) : (s.finish p).rt.tasks = s.rt.tasks :=
  (Runtime.releaseRefs_frame s.rt s.sup.refsAtEnd).1

theorem LeftInReverse.of_tasks (h : s.LeftInReverse refs) (ht : s'.rt.tasks = s.rt.tasks) :
    s'.LeftInReverse refs := by
  unfold LeftInReverse Runtime.HasLeft
  rw [ht]
  exact h

/-- The invariant of the shutdown: of the children that were told to stop all have ended, but for
the last one. -/
structure Stopping (refs : List ActorId) (s : System M A) : Prop where
  instances : s.Instances
  order : s.LeftInReverse refs
  told : (∃ rest told, s.sup.phase = .stopping rest ∧ s.sup.currentRefs = refs ∧
      refs = rest.reverse ++ told ∧ ∀ i ∈ told.tail, s.rt.Ended i) ∨
    s.sup.phase = .exited ∧ ∀ i ∈ refs, s.rt.Ended i

/-- An event of the runtime keeps the order. -/
theorem Stopping.leftInReverse_env (hs : s.Stopping refs) {d : RtEvent M A} {rt : Runtime M A}
    (hst : s.rt.step d = some rt) (hearly : ¬ s.LeavesEarly (.env d)) :
    refs.Pairwise fun i j => rt.HasLeft i → rt.HasLeft j := by
  have hfresh := hs.instances.rt.fresh
  rw [List.pairwise_iff_forall_sublist]
  intro i j hij hi
  have horder := List.pairwise_iff_forall_sublist.mp hs.order hij
  have hstays : s.rt.HasLeft j → rt.HasLeft j := fun hj => hj.step hfresh hst
  rcases hi.of_step hst with hbefore | ⟨x, hobs, hx⟩
  · exact hstays (horder hbefore)
  · have hnot : ¬ s.rt.Ended i := fun hend => hend.not_observes hst hobs
    rcases hs.told with ⟨rest, told, hp, hrefs, rfl, htold⟩ | ⟨-, hall⟩
    · by_cases hrest : i ∈ rest
      · by_contra hj
        exact hearly ⟨d, x, rest, i, j, rfl, hobs, hx, hp, hrest, by rwa [hrefs], mt hstays hj⟩
      · -- the child that was told last leaves, and all after it have ended
        have htail : j ∈ told.tail := by
          refine mem_tail_of_sublist (sublist_of_notMem (by simpa using hrest) hij) fun hmem => ?_
          exact hnot (htold i hmem)
        exact (htold j htail).hasLeft.step hfresh hst
    · exact absurd (hall i (hij.subset List.mem_cons_self)) hnot

/-- **Every step** of a shutdown that waits. -/
theorem Stopping.step (hs : s.Stopping refs) (hearly : ¬ s.GoesOnEarly e ∧ ¬ s.LeavesEarly e)
    (hst : s.step e = some s') : s'.Stopping refs := by
  have hinstances := hs.instances.step hst
  have hfresh := hs.instances.rt.fresh
  cases e with
  | env d =>
    obtain ⟨-, rt, hrt, rfl⟩ := step_env hst
    refine ⟨hinstances, hs.leftInReverse_env hrt hearly.2, ?_⟩
    rcases hs.told with ⟨rest, told, hp, hrefs, heq, htold⟩ | ⟨hp, hall⟩
    · exact Or.inl ⟨rest, told, hp, hrefs, heq, fun i hi => (htold i hi).step hfresh hrt⟩
    · exact Or.inr ⟨hp, fun i hi => (hall i hi).step hfresh hrt⟩
  | sup c =>
    rcases hs.told with ⟨rest, told, hp, hrefs, heq, htold⟩ | ⟨hp, -⟩
    · have hlast : s.sup.toldLast = told.head? := by
        rw [Supervisor.toldLast, hp, hrefs, heq]
        simp
      have hall : ∀ i ∈ told, s.rt.Ended i := by
        intro i hi
        by_contra hnot
        cases told with
        | nil => cases hi
        | cons a told =>
          rcases List.mem_cons.mp hi with rfl | hi
          · exact hearly.1 ⟨c, i, rfl, hlast, hnot⟩
          · exact hnot (htold i hi)
      cases supStep_inv hst with
      | @sendStop i rest' rt hp' hrt =>
        obtain rfl : rest = i :: rest' := SupPhase.stopping.inj (hp.symm.trans hp')
        have htasks : rt.tasks = s.rt.tasks := by
          rcases hrt with hrt | rfl
          · have hpost : s.rt.step (.post i .stop) = some rt := hrt
            rw [(Runtime.step_post hpost).2]
            rfl
          · rfl
        refine ⟨hinstances, ?_, Or.inl ⟨rest', i :: told, rfl, hrefs, ?_, fun j hj => ?_⟩⟩
        · exact hs.order.of_tasks htasks
        · rw [heq, List.reverse_cons, List.append_assoc]
          rfl
        · exact (hall j hj).of_tasks htasks
      | exit hp' =>
        obtain rfl : rest = [] := SupPhase.stopping.inj (hp.symm.trans hp')
        have htasks := tasks_finish s .exited
        refine ⟨hinstances, hs.order.of_tasks htasks, Or.inr ⟨rfl, fun i hi => ?_⟩⟩
        rw [heq] at hi
        exact (hall i hi).of_tasks htasks
      | spawn _ _ _ hp' | startFailed hp' | childFailed hp' | installed hp' | restarted hp'
        | signal hp' | panic hp' | shutdown hp' =>
        rw [hp] at hp'
        cases hp'
    · cases supStep_inv hst with
      | spawn _ _ _ hp' | startFailed hp' | childFailed hp' | installed hp' | restarted hp'
        | signal hp' | panic hp' | shutdown hp' | sendStop _ hp' | exit hp' =>
        rw [hp] at hp'
        cases hp'

/-- **The order of a shutdown.** Take any reachable state in which the supervisor is at the top of
its loop and its children are running, and any run from there in which the supervisor begins to
stop them, goes on only when the child that it has told last has ended, and no child that has yet
to be told leaves its loop while a later one is in its own. Then at no time has a child left its
loop before a later one, and when the shutdown returns, every child has ended. -/
theorem stop_in_order (hs : s.Reachable) (hhealthy : ∀ i ∈ s.sup.currentRefs, s.rt.Running i)
    (hstop : s.step (.sup .shutdown) = some s₁)
    (hes : Along System.step (fun s e _ => ¬ s.GoesOnEarly e ∧ ¬ s.LeavesEarly e) s₁ es) :
    Always System.step (fun v => v.LeftInReverse s.sup.currentRefs) s₁ es ∧
    ∀ s', s₁.run es = some s' → s'.sup.phase = .exited →
      ∀ i ∈ s.sup.currentRefs, s'.rt.Ended i := by
  have hinstances := hs.instances.step hstop
  have hstart : s₁.Stopping s.sup.currentRefs := by
    cases supStep_inv hstop with
    | shutdown hp =>
      refine ⟨hinstances, ?_, Or.inl ⟨_, [], rfl, rfl, by simp, fun i hi => (by cases hi)⟩⟩
      refine List.pairwise_iff_forall_sublist.mpr fun {i j} hij hleft => ?_
      obtain ⟨t, ht, hrun⟩ := hhealthy i (hij.subset List.mem_cons_self)
      obtain ⟨t', ht', hnot⟩ := hleft
      obtain rfl : t = t' := Option.some.inj (ht.symm.trans ht')
      rw [hrun] at hnot
      cases hnot
  have halways : Always System.step (Stopping s.sup.currentRefs) s₁ es :=
    always_of_invariant (fun hv hearly hst => hv.step hearly hst) hstart hes
  refine ⟨halways.mono fun hv => hv.order, fun s' hrun hexited i hi => ?_⟩
  rcases (halways.last hrun).told with ⟨_, _, hp, -⟩ | ⟨-, hall⟩
  · rw [hexited] at hp
    cases hp
  · exact hall i hi

/-! ### Two children -/

theorem not_leavesEarly_sup (c : SupChoice A) : ¬ s.LeavesEarly (.sup c) := by
  rintro ⟨_, _, _, _, _, h, -⟩
  cases h

theorem not_goesOnEarly_of_ended (h : ∀ i, s.sup.toldLast = some i → s.rt.Ended i) :
    ¬ s.GoesOnEarly e := by
  rintro ⟨_, i, -, hi, hnot⟩
  exact hnot (h i hi)

/-- What the task of a child does that has been told is up to it. -/
theorem along_of_told {rest : List ActorId} {i : ActorId} (hp : s.sup.phase = .stopping rest)
    (hi : i ∉ rest) (cs : List Choice) :
    Along System.step (fun s e _ => ¬ s.GoesOnEarly e ∧ ¬ s.LeavesEarly e) s
      (cs.map fun c => .env (.task i c)) := by
  refine along_of_invariant (P := fun s : System M A => s.sup.phase = .stopping rest)
    (Q := fun _ e _ => ∃ c, e = .env (.task i c)) ?_ hp ?_
  · rintro s _ s' hp ⟨c, rfl⟩ hst
    obtain ⟨-, rt, -, rfl⟩ := step_env hst
    refine ⟨hp, ?_, ?_⟩
    · rintro ⟨c', j, he, -⟩
      cases he
    · rintro ⟨d, x, rest', j, k, he, hobs, -, hp', hj, -⟩
      cases he
      obtain ⟨c', _, _, heq, -⟩ := hobs
      obtain rfl := (RtEvent.task.inj heq).1
      obtain rfl : rest = rest' := SupPhase.stopping.inj (hp.symm.trans hp')
      exact hi hj
  · refine along_of_forall fun _ e he _ => ?_
    obtain ⟨c, -, rfl⟩ := List.mem_map.mp he
    exact ⟨c, rfl⟩

/-- Both children, with ids 3 and 4, enter their loops. -/
def bothStart : List (SysEvent Unit Unit) :=
  bothSpawn ++ [.task ⟨3⟩ .poll, .task ⟨3⟩ (.preStart (.ok ())), .task ⟨4⟩ .poll,
    .task ⟨4⟩ (.preStart (.ok ()))].map .env

/-- The supervisor of the two when they have. -/
def bothRunning : System Unit Unit := (oneForOneTwo.run bothStart).get rfl

theorem reachable_bothRunning : bothRunning.Reachable :=
  have hstart : twoChildren .default = some oneForOneTwo := rfl
  ⟨_, _, _, _, _, bothStart, reachable_twoSpecs, hstart, rfl⟩

theorem running_bothRunning : ∀ i ∈ bothRunning.sup.currentRefs, bothRunning.rt.Running i := by
  have hrefs : bothRunning.sup.currentRefs = [⟨3⟩, ⟨4⟩] := rfl
  intro i hi
  rw [hrefs] at hi
  rcases List.mem_pair.mp hi with rfl | rfl
  · exact ⟨_, rfl, rfl⟩
  · exact ⟨_, rfl, rfl⟩

/-- The supervisor when its shutdown has begun. -/
def bothStopping : System Unit Unit := (bothRunning.step (.sup .shutdown)).get rfl

/-- A child takes its `Stop` and ends. -/
def takesStop (i : ActorId) : List (SysEvent Unit Unit) :=
  let steps : List Choice :=
    [.recvControl false, .recvMailbox, .postStop (.ok ()), .unregister, .finish]
  steps.map fun c => .env (.task i c)

/-- The second child, and then the first one, ends before the supervisor goes on. -/
def stopsInTurn : List (SysEvent Unit Unit) :=
  .sup .sendStop :: (takesStop ⟨4⟩ ++ .sup .sendStop :: (takesStop ⟨3⟩ ++ [.sup .exit]))

/-- The result where the children end one after the other. -/
theorem stop_in_order_inTurn : ∃ s', bothStopping.run stopsInTurn = some s' ∧
    s'.sup.phase = .exited ∧
    Always System.step (fun v => v.LeftInReverse bothRunning.sup.currentRefs) bothStopping
      stopsInTurn ∧
    ∀ i ∈ bothRunning.sup.currentRefs, s'.rt.Ended i := by
  have hstop : bothRunning.step (.sup .shutdown) = some bothStopping := rfl
  have hes : Along System.step (fun s e _ => ¬ s.GoesOnEarly e ∧ ¬ s.LeavesEarly e) bothStopping
      stopsInTurn := by
    refine fun v hv => ⟨⟨not_goesOnEarly_of_ended fun i hi => (by cases hi), not_leavesEarly_sup _⟩,
      along_append.mpr ⟨?_, fun u hu u' hu' => ⟨⟨?_, not_leavesEarly_sup _⟩,
        along_append.mpr ⟨?_, fun z hz z' _ => ⟨⟨?_, not_leavesEarly_sup _⟩, trivial⟩⟩⟩⟩⟩
    · cases hv
      exact along_of_told rfl (by decide) _
    · cases hv
      cases hu
      refine not_goesOnEarly_of_ended fun i hi => ?_
      cases hi
      exact ⟨_, rfl, rfl⟩
    · cases hv
      cases hu
      cases hu'
      exact along_of_told rfl (by decide) _
    · cases hv
      cases hu
      cases hu'
      cases hz
      refine not_goesOnEarly_of_ended fun i hi => ?_
      cases hi
      exact ⟨_, rfl, rfl⟩
  obtain ⟨halways, hended⟩ := stop_in_order reachable_bothRunning running_bothRunning hstop hes
  exact ⟨_, rfl, rfl, halways, hended _ rfl rfl⟩

/-- The first child ends while the `Stop` of the second one is queued, and the shutdown returns. -/
def stopsAtOnce : List (SysEvent Unit Unit) :=
  [.sup .sendStop, .sup .sendStop] ++ takesStop ⟨3⟩ ++ [.sup .exit]

/-- Both children are running when the shutdown begins. When it returns, the first one has ended
and the second one is still running. -/
theorem stop_out_of_order : bothRunning.Reachable ∧
    (∀ i ∈ bothRunning.sup.currentRefs, bothRunning.rt.Running i) ∧
    ∃ s', bothRunning.run (.sup .shutdown :: stopsAtOnce) = some s' ∧ s'.sup.phase = .exited ∧
      s'.rt.Ended ⟨3⟩ ∧ s'.rt.Running ⟨4⟩ ∧
      ¬ s'.LeftInReverse bothRunning.sup.currentRefs := by
  refine ⟨reachable_bothRunning, running_bothRunning, _, rfl, rfl, ⟨_, rfl, rfl⟩, ⟨_, rfl, rfl⟩,
    fun h => ?_⟩
  obtain ⟨t, ht, hleft⟩ := List.pairwise_pair.mp h ⟨_, rfl, rfl⟩
  cases ht
  cases hleft

end System

end LaneSwitchboards
