import LaneSwitchboards.Actor.Monitors
import LaneSwitchboards.Actor.Notify

/-!
# What an actor leaves behind

`finish_actor` notifies the monitors and the links and then takes the actor out of the registry;
after that its statistics are marked inactive. A panic that escapes from a callback skips all of
it, and only `handle` is guarded: the entry of the actor stays in the registry for good.

* `Recorded`, `Told`: what holds of the registry, the statistics and the links along a run.
* `cleanedUp_iff`: a task that has ended has cleaned up exactly when no panic has escaped.
-/

namespace LaneSwitchboards

open Function Transition

variable {M A : Type}

namespace Phase

/-- The task is out of the registry. -/
def unregistered : Phase M → Bool
  | finish _ => true
  | done e => e ≠ .panicked
  | _ => false

variable {p : Phase M}

theorem unregistered_of_running (h : p.running = true) : p.unregistered = false := by
  cases p <;> first | rfl | cases h

theorem unregistered_of_leaving (h : p.leaving = true) : p.unregistered = false := by
  cases p <;> first | rfl | cases h

theorem postStopDone_of_leaving (h : p.leaving = true) : p.postStopDone = false := by
  cases p with
  | unregister e => cases e <;> first | rfl | cases h
  | _ => first | rfl | cases h

theorem unregistered_of_unguarded (h : p.unguarded = true) : p.unregistered = false := by
  cases p <;> first | rfl | cases h

end Phase

namespace Task

/-- The `LinkedExit` whose send a step completes. -/
def linkedExit (t : Task M A) (x : Input M A) : List (ActorId × ExitReason) :=
  match t.phase, x with
  | .sendLinkedExit r peer _, .sent => [(peer, r)]
  | _, _ => []

/-- The `LinkedExit`s that a task sends along a run, with their receivers. -/
def linkedExits (t : Task M A) (xs : List (Input M A)) : List (ActorId × ExitReason) :=
  trace step (fun t x _ => t.linkedExit x) t xs

variable {t t' : Task M A} {x : Input M A}

theorem phase_of_unregistered (h : t.step .unregistered = some t') :
    ∃ e, t.phase = .unregister e ∧ t'.phase = .finish e := by
  unfold step at h
  split at h
  all_goals try cases h
  all_goals try contradiction
  next e hp _ => exact ⟨e, hp, rfl⟩

theorem phase_of_finished (h : t.step .finished = some t') :
    ∃ e, t.phase = .finish e ∧ t'.phase = .done e := by
  unfold step at h
  split at h
  all_goals try cases h
  all_goals try contradiction
  next e hp _ => exact ⟨e, hp, rfl⟩

theorem unguarded_of_panicked (h : t.step .panicked = some t') : t.phase.unguarded = true := by
  unfold step at h
  split at h
  all_goals try cases h
  all_goals try contradiction
  split at h <;> cases h
  next hp => exact hp

theorem recordStats_finished {e : Termination} (hp : t.phase = .finish e) (cell : StatsCell) :
    (t.recordStats .finished cell).inFlight = 0 := by
  unfold recordStats
  rw [hp]
  rfl

end Task

/-- A step that neither leaves the registry nor ends the task. -/
theorem Move.not_unregistered {t t' : Task M A} {x : Input M A} (h : Move t x t')
    (hx : x ≠ .unregistered) (hfinished : x ≠ .finished) (hpanic : x ≠ .panicked) :
    t.phase.unregistered = false ∧ t'.phase.unregistered = false := by
  cases h with
  | loop hp _ _ _ hp' =>
    exact ⟨Phase.unregistered_of_running hp, Phase.unregistered_of_running hp'⟩
  | insert _ hp _ _ _ _ hp' | known _ hp _ _ _ _ hp' =>
    rw [hp']
    exact ⟨Phase.unregistered_of_running hp, rfl⟩
  | leave hp _ _ _ hp' =>
    exact ⟨Phase.unregistered_of_running hp, Phase.unregistered_of_leaving hp'⟩
  | foundLink _ b hp _ _ hp' | foundPeer _ _ _ b hp _ _ hp' =>
    rw [hp, hp']
    cases b <;> exact ⟨rfl, rfl⟩
  | notify _ k hp _ _ hp' =>
    rw [hp, hp']
    cases k <;> exact ⟨rfl, rfl⟩
  | stopped r _ hp _ _ hp' =>
    rw [hp, hp']
    cases shouldPropagateLinkedExit r <;> exact ⟨rfl, rfl⟩
  | erase _ hp _ _ hp' | sentLink _ hp _ _ hp' | heard _ _ hp _ _ hp' | notified _ _ hp _ _ hp'
    | next _ _ _ hp _ _ _ hp' | linksDone _ hp _ _ hp' | sentExit _ _ _ hp _ _ hp' =>
    rw [hp, hp']
    exact ⟨rfl, rfl⟩
  | unregistered _ _ hx' => exact absurd hx' hx
  | finished _ _ hx' => exact absurd hx' hfinished
  | panicked _ hx' => exact absurd hx' hpanic

/-! ### The registry and the statistics -/

/-- What the registry and the statistics say of a task. -/
structure Recorded (w : Runtime M A) (i : ActorId) (t : Task M A) : Prop where
  panicked : t.phase.termination = some .panicked → t.phase = .done .panicked
  registry : (w.registry i).isSome = !t.phase.unregistered
  stats : ∃ cell, w.stats i = some cell ∧
    (t.phase.isDone = true → t.phase.unregistered = true → cell.inFlight = 0)

namespace Runtime

variable {w w' w₀ w₁ : Runtime M A} {i peer : ActorId} {e : RtEvent M A} {es : List (RtEvent M A)}
  {t t' : Task M A} {x : Input M A}

theorem Access.registry_of_unregistered {p : Phase M} (h : Access w i p .unregistered w₁) :
    w₁.registry i = none := by
  cases h with
  | internal hx => cases hx
  | unregister => simp

/-- A step of the task keeps the record. -/
theorem recorded_own (hr : Recorded w i t) (hacc : Access w i t.phase x w₁)
    (h : t.step x = some t') : Recorded
      { w₁.setTask i t' with stats := w.stats.record i (t.recordStats x) } i t' := by
  obtain ⟨hpanicked, hregistry, cell, hcell, -⟩ := hr
  have hmove := Task.step_move h
  have hstats : (w.stats.record i (t.recordStats x)) i = some (t.recordStats x cell) := by
    simp [ActorMonitor.record, hcell]
  have hsound : t'.phase.termination = some .panicked → t'.phase = .done .panicked := by
    intro hend
    by_cases hp : t.phase.termination = some .panicked
    · have hlive := hmove.not_isDone
      rw [hpanicked hp] at hlive
      cases hlive
    · obtain rfl := Task.eq_panicked_of_termination h hp hend
      exact Task.termination_of_panicked h
  have hentry : x ≠ .unregistered → (w₁.registry i).isSome = (w.registry i).isSome := by
    intro hx
    rcases hacc.registry with hsame | ⟨hx', -⟩
    · rw [hsame]
    · exact absurd hx' hx
  refine ⟨hsound, ?_, t.recordStats x cell, hstats, fun hdone hun => ?_⟩
  · show (w₁.registry i).isSome = !t'.phase.unregistered
    by_cases hx : x = .unregistered
    · subst hx
      obtain ⟨e, -, hp'⟩ := Task.phase_of_unregistered h
      rw [hp', hacc.registry_of_unregistered]
      rfl
    · rw [hentry hx, hregistry]
      by_cases hfinished : x = .finished
      · subst hfinished
        obtain ⟨e, hp, hp'⟩ := Task.phase_of_finished h
        have hne : e ≠ .panicked := by
          rintro rfl
          have hdone := hpanicked (by rw [hp]; rfl)
          rw [hp] at hdone
          cases hdone
        rw [hp, hp']
        simp [Phase.unregistered, hne]
      · by_cases hpanic : x = .panicked
        · subst hpanic
          rw [Task.termination_of_panicked h,
            Phase.unregistered_of_unguarded (Task.unguarded_of_panicked h)]
          rfl
        · obtain ⟨hun, hun'⟩ := hmove.not_unregistered hx hfinished hpanic
          rw [hun, hun']
  · rcases hmove.isDone_iff.mp hdone with rfl | rfl
    · obtain ⟨e, hp, -⟩ := Task.phase_of_finished h
      exact Task.recordStats_finished hp cell
    · rw [Task.termination_of_panicked h] at hun
      cases hun

/-- **A run keeps the record.** -/
theorem recorded_run (hf : w.Fresh) (ht : w.tasks i = some t) (hr : Recorded w i t)
    (h : w.run es = some w') : ∃ t', w'.tasks i = some t' ∧ Recorded w' i t' := by
  have hboth := invariant_run
    (P := fun v : Runtime M A => v.Fresh ∧ ∃ t', v.tasks i = some t' ∧ Recorded v i t') ?_
    ⟨hf, t, ht, hr⟩ h
  · exact hboth.2
  · rintro v e v' ⟨hv, s, hs, hrec⟩ hst
    refine ⟨hv.step hst, ?_⟩
    cases hx : v.input i e with
    | none =>
      obtain ⟨hs', hregistry, hstats, -⟩ := frame_step hv hs hst hx
      refine ⟨s, hs', hrec.panicked, ?_, ?_⟩
      · rw [hregistry]
        exact hrec.registry
      · rw [hstats]
        exact hrec.stats
    | some x =>
      obtain ⟨s₁, w₁, s', hs₁, hacc, hstep, rfl⟩ := (input_eq_some.mp hx).step hst
      obtain rfl : s = s₁ := Option.some.inj (hs.symm.trans hs₁)
      exact ⟨s', by simp [setTask], recorded_own hrec hacc hstep⟩

end Runtime

/-! ### The links -/

/-- After `post_stop`, a link is still to be told of an abnormal exit or was told. -/
def Told (peer : ActorId) (ls : List (ActorId × ExitReason)) (t : Task M A) : Prop :=
  ∀ r, t.phase.postStopDone = true → t.phase.reason = some r →
    shouldPropagateLinkedExit r = true → peer ∈ t.links →
      peer ∈ t.phase.targets ∨ (peer, r) ∈ ls

section Told

variable {peer : ActorId} {ls : List (ActorId × ExitReason)} {t t' : Task M A} {x : Input M A}
  {xs : List (Input M A)}

/-- Before `post_stop` has returned nobody needs to be told. -/
theorem told_of_postStopDone (h : t.phase.postStopDone = false) : Told peer ls t := by
  intro r hdone
  rw [h] at hdone
  cases hdone

/-- The propagation goes on. -/
theorem Told.mono {ks : List (ActorId × ExitReason)} (ht : Told peer ls t)
    (hdone : t.phase.postStopDone = true) (hr : t'.phase.reason = t.phase.reason)
    (hl : t'.links = t.links) (htargets : ∀ r, t.phase.reason = some r → peer ∈ t.phase.targets →
      peer ∈ t'.phase.targets ∨ (peer, r) ∈ ks) : Told peer (ls ++ ks) t' := by
  intro r _ hr' hprop hlink
  rw [hr] at hr'
  rw [hl] at hlink
  rcases ht r hdone hr' hprop hlink with htarget | hmem
  · exact (htargets r hr' htarget).imp_right (List.mem_append_right _)
  · exact Or.inr (List.mem_append_left _ hmem)

/-- **A step** of the propagation tells the next link, or finds that it has left the registry. -/
theorem Told.step (ht : Told peer ls t) (h : t.step x = some t')
    (hfound : ∀ r rest, t.phase = .lookupPeer r peer rest → x ≠ .found false) :
    Told peer (ls ++ t.linkedExit x) t' := by
  cases Task.step_move h with
  | stopped r o hp hx hl hp' =>
    intro r' _ hr hprop hmem
    rw [hp'] at hr ⊢
    have hrr : r = r' := by
      cases hr₀ : shouldPropagateLinkedExit r <;> simpa [hr₀, Phase.reason] using hr
    subst hrr
    rw [if_pos hprop]
    exact Or.inl (hl ▸ hmem)
  | next r rest p hp hx hmem hl hp' =>
    refine ht.mono (by rw [hp]; rfl) (by rw [hp, hp']; rfl) hl fun _ _ htarget => Or.inl ?_
    rw [hp] at htarget
    rw [hp']
    show peer ∈ insert p (rest.erase p)
    rwa [Finset.insert_erase hmem]
  | linksDone r hp hx hl hp' =>
    refine ht.mono (by rw [hp]; rfl) (by rw [hp, hp']; rfl) hl fun _ _ htarget => Or.inl ?_
    rw [hp] at htarget
    rw [hp']
    exact htarget
  | foundPeer r p rest b hp hx hl hp' =>
    have hr : t'.phase.reason = t.phase.reason := by
      rw [hp, hp']
      cases b <;> rfl
    refine ht.mono (by rw [hp]; rfl) hr hl fun _ _ htarget => Or.inl ?_
    rw [hp] at htarget
    rw [hp']
    cases b with
    | true => exact htarget
    | false =>
      rcases Finset.mem_insert.mp htarget with rfl | hrest
      · exact absurd hx (hfound r rest hp)
      · exact hrest
  | sentExit r p rest hp hx hl hp' =>
    have hsent : t.linkedExit x = [(p, r)] := by
      unfold Task.linkedExit
      rw [hp, hx]
    refine ht.mono (by rw [hp]; rfl) (by rw [hp, hp']; rfl) hl fun r' hr' htarget => ?_
    rw [hp] at hr' htarget
    obtain rfl : r = r' := Option.some.inj hr'
    rcases Finset.mem_insert.mp htarget with rfl | hrest
    · rw [hsent]
      exact Or.inr List.mem_cons_self
    · rw [hp']
      exact Or.inl hrest
  | unregistered e hp hx hl hp' | finished e hp hx hl hp' =>
    cases e with
    | exited r =>
      refine ht.mono (by rw [hp]; rfl) (by rw [hp, hp']; rfl) hl fun _ _ htarget => Or.inl ?_
      rw [hp] at htarget
      cases htarget
    | _ =>
      refine told_of_postStopDone ?_
      rw [hp']
      rfl
  | loop _ _ _ _ hp' => exact told_of_postStopDone (Phase.postStopDone_of_running hp')
  | leave _ _ _ _ hp' => exact told_of_postStopDone (Phase.postStopDone_of_leaving hp')
  | foundLink _ b _ _ _ hp' =>
    refine told_of_postStopDone ?_
    rw [hp']
    cases b <;> rfl
  | notify _ k _ _ _ hp' =>
    refine told_of_postStopDone ?_
    rw [hp']
    cases k <;> rfl
  | insert _ _ _ _ _ _ hp' | known _ _ _ _ _ _ hp' | erase _ _ _ _ hp' | sentLink _ _ _ _ hp'
    | heard _ _ _ _ _ hp' | notified _ _ _ _ _ hp' | panicked _ _ _ hp' =>
    refine told_of_postStopDone ?_
    rw [hp']
    rfl

/-- A task whose `pre_start` has not succeeded has no links. -/
theorem Task.links_of_early (h : t.step x = some t') (hlinks : t.phase.early = true → t.links = ∅)
    (hearly : t'.phase.early = true) : t'.links = ∅ := by
  have hbefore : t.phase.early = true := by
    cases Task.step_monitors h with
    | take _ _ _ _ _ _ hnot | notify _ _ _ _ _ _ hnot =>
      rw [hnot] at hearly
      cases hearly
    | keep _ _ _ _ _ hkeep => exact hkeep hearly
  have hempty := hlinks hbefore
  cases Task.step_move h with
  | insert _ _ _ _ _ _ hp' | erase _ _ _ _ hp' =>
    rw [hp'] at hearly
    cases hearly
  | loop _ _ _ hl | known _ _ _ _ _ hl | leave _ _ _ hl | foundLink _ _ _ _ hl
    | sentLink _ _ _ hl | heard _ _ _ _ hl | notify _ _ _ _ hl | notified _ _ _ _ hl
    | stopped _ _ _ _ hl | next _ _ _ _ _ _ hl | linksDone _ _ _ hl | foundPeer _ _ _ _ _ _ hl
    | sentExit _ _ _ _ _ hl | unregistered _ _ _ hl | finished _ _ _ hl | panicked _ _ hl =>
    exact hl.trans hempty

end Told

namespace Runtime

variable {w w' w₀ w₁ : Runtime M A} {i peer : ActorId} {es : List (RtEvent M A)} {e : Termination}
  {t : Task M A} {x : Input M A}

/-- The peer is registered from the moment on in which the actor leaves its loop. -/
def StillRegistered (w : Runtime M A) (i peer : ActorId) (es : List (RtEvent M A)) : Prop :=
  Always Runtime.step (fun v => v.HasLeft i → (v.registry peer).isSome = true) w es

/-- What holds of an actor that has cleaned up: it is out of the registry, nothing is in flight,
everyone it monitors for was notified of the exit reason, and each of its links that is still
registered was sent a `LinkedExit` if the exit is abnormal. -/
structure CleanedUp (w₀ : Runtime M A) (i : ActorId) (t₀ : Task M A) (es : List (RtEvent M A))
    (w' : Runtime M A) (e : Termination) : Prop where
  registry : w'.registry i = none
  stats : (w'.stats i).map StatsCell.inFlight = some 0
  monitors : ∀ q ∈ asked (w₀.envelopes i es), ∃ r, e = .exited r ∧
    (q.2, r) ∈ t₀.notifications (w₀.inputs i es)
  links : e.abnormal = true → ∀ t, w'.tasks i = some t → ∀ peer ∈ t.links,
    w₀.StillRegistered i peer es → ∃ r, e = .exited r ∧
      (peer, r) ∈ t₀.linkedExits (w₀.inputs i es)

/-- The lookup of a link finds what is registered. -/
theorem Access.found_lookupPeer {r : ExitReason} {rest : Finset ActorId} {b : Bool}
    (h : Access w i (.lookupPeer r peer rest) (.found b) w₁) : b = (w.registry peer).isSome := by
  cases h with
  | internal hx => cases hx
  | lookupPeer => rfl

/-- **A run tells the links** that stay registered. -/
theorem told_run (hf : w.Fresh) (ht : w.tasks i = some t) (htold : Told peer [] t)
    (hlinks : t.phase.early = true → t.links = ∅) (hrun : w.run es = some w')
    (hstill : w.StillRegistered i peer es) : ∃ t', w'.tasks i = some t' ∧
      Told peer (t.linkedExits (w.inputs i es)) t' ∧
      (t'.phase.early = true → t'.links = ∅) := by
  have hall := run_induction
    (motive := fun es v => v.Fresh ∧ (w.StillRegistered i peer es → ∃ t',
      t.run (w.inputs i es) = some t' ∧ v.tasks i = some t' ∧
      Told peer (t.linkedExits (w.inputs i es)) t' ∧ (t'.phase.early = true → t'.links = ∅)))
    ⟨hf, fun _ => ⟨t, rfl, ht, htold, hlinks⟩⟩ ?_ hrun
  · obtain ⟨t', -, ht', htold', hlinks'⟩ := hall.2 hstill
    exact ⟨t', ht', htold', hlinks'⟩
  · rintro es v e v' hprev ⟨hv, ih⟩ hst
    refine ⟨hv.step hst, fun hstill => ?_⟩
    have hbefore := (always_append.mp hstill).1
    obtain ⟨s, hinputs, hs, hstold, hslinks⟩ := ih hbefore
    cases hx : v.input i e with
    | none =>
      obtain ⟨hs', -⟩ := frame_step hv hs hst hx
      rw [inputs_concat_of_none hprev hst hx]
      exact ⟨s, hinputs, hs', hstold, hslinks⟩
    | some x =>
      obtain ⟨s₁, w₁, s', hs₁, hacc, hstep, rfl⟩ := (input_eq_some.mp hx).step hst
      obtain rfl : s = s₁ := Option.some.inj (hs.symm.trans hs₁)
      have hfound : ∀ r rest, s.phase = .lookupPeer r peer rest → x ≠ .found false := by
        rintro r rest hp rfl
        have hreg := hbefore.last hprev ⟨s, hs, by rw [hp]; rfl⟩
        rw [hp] at hacc
        rw [← hacc.found_lookupPeer] at hreg
        cases hreg
      rw [inputs_concat_of_some hprev hst hx]
      refine ⟨s', run_concat.mpr ⟨s, hinputs, hstep⟩, by simp [setTask], ?_,
        Task.links_of_early hstep hslinks⟩
      rw [Task.linkedExits, trace_concat hinputs hstep]
      exact hstold.step hstep hfound

/-- A task as it is spawned is on record. -/
theorem recorded_spawned {config : ActorConfig} {actor : A} {supervisor : Option SupId}
    (h : w.step (.spawn config actor supervisor) = some w₀) :
    Recorded w₀ ⟨w.nextId⟩ (.initial config actor) := by
  obtain ⟨-, -, hregistry, hstats⟩ := spawned_spec h
  obtain ⟨cell, hcell⟩ := Option.isSome_iff_exists.mp hstats
  exact ⟨fun hp => (by cases hp), hregistry, cell, hcell, fun hdone => (by cases hdone)⟩

/-- **Who cleans up.** An actor whose task has ended is out of the registry, with nothing in
flight, and has told its monitors and, if its exit is abnormal, its links, exactly when no panic
has escaped from a callback: `handle` is the one whose panics are caught. -/
theorem cleanedUp_iff {config : ActorConfig} {actor : A} {supervisor : Option SupId}
    (hw : w.Reachable) (hspawn : w.step (.spawn config actor supervisor) = some w₀)
    (hrun : w₀.run es = some w') (hdone : w'.phase ⟨w.nextId⟩ = some (.done e)) :
    w₀.CleanedUp ⟨w.nextId⟩ (Task.initial config actor) es w' e ↔
      .panicked ∉ w₀.inputs ⟨w.nextId⟩ es := by
  have hf := (hw.step hspawn).fresh
  obtain ⟨ht₀, -⟩ := spawned_spec hspawn
  obtain ⟨t, hinputs, ht⟩ := run_inputs hf ht₀ hrun
  have hphase : t.phase = .done e := by simpa [phase, ht] using hdone
  obtain ⟨t₁, ht₁, hrecorded⟩ := recorded_run hf ht₀ (recorded_spawned hspawn) hrun
  obtain rfl : t = t₁ := Option.some.inj (ht.symm.trans ht₁)
  have hregistry := hrecorded.registry
  rw [hphase] at hregistry
  rw [panicked_mem_inputs hf ht₀ hrun hdone]
  constructor
  · rintro hclean rfl
    rw [hclean.registry] at hregistry
    cases hregistry
  · intro hne
    have hmon := monitored_run hinputs
    refine ⟨?_, ?_, fun q hq => ?_, fun habnormal s hs peer hpeer hstill => ?_⟩
    · rw [show Phase.unregistered (.done e : Phase M) = true from decide_eq_true hne] at hregistry
      exact Option.not_isSome_iff_eq_none.mp (Bool.eq_false_iff.mp hregistry)
    · obtain ⟨cell, hcell, hzero⟩ := hrecorded.stats
      rw [hphase] at hzero
      rw [hcell, Option.map_some, hzero rfl (decide_eq_true hne)]
    · cases e with
      | exited r =>
        have hns := hmon.told r (by rw [hphase]; rfl) (by rw [hphase]; rfl)
        rw [hns]
        exact ⟨r, rfl, List.mem_map.mpr ⟨q, hq, rfl⟩⟩
      | startFailed =>
        rw [envelopes, hmon.early (by rw [hphase]; rfl)] at hq
        cases hq
      | panicked => exact absurd rfl hne
    · obtain rfl : t = s := Option.some.inj (ht.symm.trans hs)
      obtain ⟨t₂, ht₂, htold, hearly⟩ :=
        told_run hf ht₀ (told_of_postStopDone rfl) (fun _ => rfl) hrun hstill
      obtain rfl : t = t₂ := Option.some.inj (ht.symm.trans ht₂)
      cases e with
      | exited r =>
        rcases htold r (by rw [hphase]; rfl) (by rw [hphase]; rfl) habnormal hpeer with
          htarget | hmem
        · rw [hphase] at htarget
          cases htarget
        · exact ⟨r, rfl, hmem⟩
      | startFailed =>
        rw [hearly (by rw [hphase]; rfl)] at hpeer
        cases hpeer
      | panicked => exact absurd rfl hne

/-- An actor that is spawned beside `oneActor`. -/
def beside : Runtime Unit Unit := (oneActor.step (.spawn .default () none)).get rfl

/-- The second actor takes a `Monitor` and a `Link` to the first one, and then a message. -/
def hears : List (RtEvent Unit Unit) :=
  let envs : List (Envelope Unit Unit) := [.monitor ⟨5⟩ 0, .link ⟨1⟩, .msg ()]
  let start : List Choice := [.poll, .preStart (.ok ())]
  let take : List Choice := [.recvControl false, .recvMailbox]
  let link : List Choice := [.lookup, .send]
  envs.map (.post ⟨2⟩) ++ (start ++ take ++ take ++ link ++ take).map (.task ⟨2⟩)

/-- `on_handle_begin` fails, and the actor ends. -/
def fails : List (RtEvent Unit Unit) :=
  let choices : List Choice := [.handleBegin (.error "rejected"), .lookup, .postStop (.ok ()),
    .next ⟨1⟩, .lookup, .send, .linksDone, .unregister, .finish]
  choices.map (.task ⟨2⟩)

/-- An actor that fails in `on_handle_begin` cleans up. -/
theorem cleanedUp_fails : ∃ w', beside.run (hears ++ fails) = some w' ∧
    w'.phase ⟨2⟩ = some (.done (.exited (.error "rejected"))) ∧
    beside.CleanedUp ⟨2⟩ (Task.initial .default ()) (hears ++ fails) w'
      (.exited (.error "rejected")) := by
  have hspawn : oneActor.step (.spawn .default () none) = some beside := rfl
  have hsome : (beside.run (hears ++ fails)).isSome := rfl
  have hrun := (Option.some_get hsome).symm
  have hdone : ((beside.run (hears ++ fails)).get hsome).phase ⟨2⟩ =
      some (.done (.exited (.error "rejected"))) := rfl
  refine ⟨_, hrun, hdone,
    (cleanedUp_iff ⟨[.spawn .default () none], rfl⟩ hspawn hrun hdone).mpr ?_⟩
  have hinputs : beside.inputs ⟨2⟩ (hears ++ fails) =
      [.poll, .preStart (.ok ()), .controlEmpty, .envelope (some (.monitor ⟨5⟩ 0)), .controlEmpty,
        .envelope (some (.link ⟨1⟩)), .found true, .sent, .controlEmpty, .envelope (some (.msg ())),
        .handleBegin (.error "rejected"), .supervisor none, .postStop (.ok ()), .next ⟨1⟩,
        .found true, .sent, .linksDone, .unregistered, .finished] := rfl
  show .panicked ∉ beside.inputs ⟨2⟩ (hears ++ fails)
  rw [hinputs]
  simp

/-- An actor that panics in `on_handle_begin` stays in the registry, with its message in flight,
and tells nobody. -/
theorem not_cleanedUp_panic : ∃ w',
    beside.run (hears ++ [.task ⟨2⟩ .panic]) = some w' ∧
    w'.phase ⟨2⟩ = some (.done .panicked) ∧ (w'.registry ⟨2⟩).isSome = true ∧
    (w'.stats ⟨2⟩).map StatsCell.inFlight = some 1 ∧
    asked (beside.envelopes ⟨2⟩ (hears ++ [.task ⟨2⟩ .panic])) = [(⟨5⟩, 0)] ∧
    (Task.initial .default ()).notifications
      (beside.inputs ⟨2⟩ (hears ++ [.task ⟨2⟩ .panic])) = [] ∧
    (Task.initial .default ()).linkedExits
      (beside.inputs ⟨2⟩ (hears ++ [.task ⟨2⟩ .panic])) = [] ∧
    ¬ beside.CleanedUp ⟨2⟩ (Task.initial .default ()) (hears ++ [.task ⟨2⟩ .panic]) w'
      .panicked := by
  refine ⟨_, rfl, rfl, rfl, rfl, rfl, rfl, rfl, fun h => ?_⟩
  cases h.registry

end Runtime

end LaneSwitchboards
