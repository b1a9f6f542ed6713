import LaneSwitchboards.Actor.History

/-!
# Whom an actor notifies of its exit

A `Monitor` envelope is registered when it is taken from the mailbox, and `finish_actor` notifies
what is registered then. What is still queued is dropped with the mailbox, and so is everything
when a panic escapes: the caller of `monitor` sees a dropped sender.

* `Monitored`: the monitors of a task are those asked for by the envelopes it has taken, and after
  `post_stop` all of them were notified.
* `monitors_notified_iff`: when a task has ended, everyone who asked was notified exactly when
  nothing asked for was left in the mailbox.
-/

namespace LaneSwitchboards

open Transition

variable {M A : Type}

namespace Envelope

/-- The monitors after an envelope. -/
def ask (monitors : List (ActorId × ℕ)) : Envelope M A → List (ActorId × ℕ)
  | .monitor observer notify => monitors ++ [(observer, notify)]
  | .demonitor observer => monitors.filter (·.1 ≠ observer)
  | _ => monitors

/-- The reply channel of a `Monitor`. -/
def reply : Envelope M A → Option ℕ
  | .monitor _ notify => some notify
  | _ => none

end Envelope

/-- The monitors that some envelopes ask for: a `Demonitor` takes those of its observer back. -/
def asked (envs : List (Envelope M A)) : List (ActorId × ℕ) := envs.foldl Envelope.ask []

/-- The reply channels of some envelopes. -/
def replies (envs : List (Envelope M A)) : List ℕ := envs.filterMap Envelope.reply

section Asked

variable {envs fs : List (Envelope M A)} {e : Envelope M A} {p : ActorId × ℕ}

theorem asked_concat : asked (envs ++ [e]) = e.ask (asked envs) := by
  rw [asked, List.foldl_append]
  rfl

/-- Later envelopes ask for more, and may take some back. -/
theorem asked_append (envs fs : List (Envelope M A)) :
    ∃ kept, kept.Sublist (asked envs) ∧ asked (envs ++ fs) = kept ++ asked fs := by
  induction fs using List.reverseRecOn with
  | nil => exact ⟨asked envs, List.Sublist.refl _, by simp [asked]⟩
  | append_singleton fs e ih =>
    obtain ⟨kept, hkept, hasked⟩ := ih
    rw [← List.append_assoc, asked_concat, asked_concat, hasked]
    cases e with
    | monitor observer notify => exact ⟨kept, hkept, List.append_assoc _ _ _⟩
    | demonitor observer =>
      exact ⟨kept.filter (·.1 ≠ observer), List.filter_sublist.trans hkept, List.filter_append _ _⟩
    | _ => exact ⟨kept, hkept, rfl⟩

/-- What is asked for is asked for by a `Monitor`. -/
theorem mem_replies (h : p ∈ asked envs) : p.2 ∈ replies envs := by
  induction envs using List.reverseRecOn with
  | nil => cases h
  | append_singleton envs e ih =>
    rw [asked_concat] at h
    rw [replies, List.filterMap_append]
    cases e with
    | monitor observer notify =>
      rcases List.mem_append.mp h with h | h
      · exact List.mem_append_left _ (ih h)
      · rw [List.mem_singleton.mp h]
        exact List.mem_append_right _ List.mem_cons_self
    | demonitor observer => exact List.mem_append_left _ (ih (List.mem_filter.mp h).1)
    | _ => exact List.mem_append_left _ (ih h)

/-- Where every `Monitor` has a reply channel of its own, what is asked for was asked for by the
first envelopes exactly when the others ask for nothing. -/
theorem asked_append_iff (hreplies : (replies (envs ++ fs)).Nodup) :
    (∀ q ∈ asked (envs ++ fs), ∃ p ∈ asked envs, p.2 = q.2) ↔ asked fs = [] := by
  obtain ⟨kept, hkept, hasked⟩ := asked_append envs fs
  rw [hasked]
  constructor
  · intro hall
    rw [List.eq_nil_iff_forall_not_mem]
    intro q hq
    obtain ⟨p, hp, heq⟩ := hall q (List.mem_append_right _ hq)
    rw [replies, List.filterMap_append] at hreplies
    refine List.disjoint_of_nodup_append hreplies (mem_replies hp) ?_
    rw [heq]
    exact mem_replies hq
  · intro hnil q hq
    rw [hnil, List.append_nil] at hq
    exact ⟨q, hkept.subset hq, rfl⟩

/-- Nothing is asked for where nobody is to be told. -/
theorem asked_eq_nil_of_forall {P : ActorId × ℕ → Prop} (hall : ∀ q ∈ asked envs, P q)
    (hnone : ∀ q, ¬ P q) : asked envs = [] := by
  rw [List.eq_nil_iff_forall_not_mem]
  exact fun q hq => hnone q (hall q hq)

end Asked

/-! ### The monitors of a task -/

namespace Phase

/-- No message was taken yet, or `pre_start` has failed. -/
def early : Phase M → Bool
  | spawned | preStart => true
  | unregister .startFailed | finish .startFailed | done .startFailed => true
  | _ => false

end Phase

namespace Task

/-- The notifications that a step sends. -/
def notified (t : Task M A) (x : Input M A) : List (ℕ × ExitReason) :=
  match t.phase, x with
  | .postStop r, .postStop _ => t.monitors.map fun p => (p.2, r)
  | _, _ => []

/-- The notifications of a run. -/
def notifications (t : Task M A) (xs : List (Input M A)) : List (ℕ × ExitReason) :=
  trace step (fun t x _ => t.notified x) t xs

end Task

/-- What a step means for the monitors. -/
inductive MonitorMove (t : Task M A) (x : Input M A) (t' : Task M A) : Prop
  /-- An envelope is taken. -/
  | take (e : Envelope M A) (hp : t.phase = .pollMailbox) (hx : x.taken = some e)
      (hnot : t.notified x = []) (hm : t'.monitors = e.ask t.monitors)
      (hp' : t'.phase.postStopDone = false) (hearly : t'.phase.early = false)
  /-- `post_stop` returns, and everyone is notified. -/
  | notify (r : ExitReason) (hp : t.phase = .postStop r) (hx : x.taken = none)
      (hnot : t.notified x = t.monitors.map fun p => (p.2, r))
      (hp' : t'.phase.postStopDone = true) (hr : t'.phase.reason = some r)
      (hearly : t'.phase.early = false)
  | keep (hx : x.taken = none) (hnot : t.notified x = []) (hm : t'.monitors = t.monitors)
      (hp' : t'.phase.postStopDone = t.phase.postStopDone)
      (hr : t.phase.postStopDone = true → t'.phase.reason = t.phase.reason)
      (hearly : t'.phase.early = true → t.phase.early = true)

/-- A step that takes no envelope, before `post_stop` returns. -/
theorem MonitorMove.of_loop {t t' : Task M A} {x : Input M A} (hx : x.taken = none)
    (hnot : t.notified x = []) (hp : t.phase.postStopDone = false)
    (hm : t'.monitors = t.monitors) (hp' : t'.phase.postStopDone = false)
    (hearly : t'.phase.early = false) : MonitorMove t x t' := by
  refine .keep hx hnot hm (hp'.trans hp.symm) (fun h => ?_) fun h => ?_
  · rw [hp] at h
    cases h
  · rw [hearly] at h
    cases h

namespace Task

variable {t t' : Task M A} {x : Input M A}

theorem monitors_insertLink (peer : ActorId) : (t.insertLink peer).monitors = t.monitors ∧
    (t.insertLink peer).phase.postStopDone = false ∧ (t.insertLink peer).phase.early = false := by
  unfold insertLink
  split <;> exact ⟨rfl, rfl, rfl⟩

/-- **Inversion of a step**, for the monitors. -/
theorem step_monitors (h : t.step x = some t') : MonitorMove t x t' := by
  unfold step at h
  split at h
  all_goals try cases h
  all_goals try
    (next hp =>
      exact .keep rfl (by unfold notified; rw [hp]) rfl (by rw [hp]; rfl)
        (by rw [hp]; exact fun h => by first | rfl | cases h)
        (by rw [hp]; exact fun h => by first | rfl | cases h))
  · next m trap hp =>
    have hnot : t.notified (.control m trap) = [] := by unfold notified; rw [hp]
    have hdone : t.phase.postStopDone = false := by rw [hp]; rfl
    rcases m with _ | peer | ⟨peer, r⟩
    · exact .of_loop rfl hnot hdone rfl rfl rfl
    · obtain ⟨hm, hp', hearly⟩ := monitors_insertLink (t := t) peer
      exact .of_loop rfl hnot hdone hm hp' hearly
    · cases trap <;> exact .of_loop rfl hnot hdone rfl rfl rfl
  · next e hp =>
    have hnot : t.notified (.envelope e) = [] := by unfold notified; rw [hp]
    rcases e with _ | e
    · exact .of_loop rfl hnot (by rw [hp]; rfl) rfl rfl rfl
    · cases e with
      | link peer =>
        obtain ⟨hm, hp', hearly⟩ := monitors_insertLink (t := t) peer
        exact .take _ hp rfl hnot hm hp' hearly
      | _ => exact .take _ hp rfl hnot rfl rfl rfl
  · next o _ hp =>
    have hnot : ∀ elapsed, t.notified (.handle o elapsed) = [] := by
      intro elapsed
      unfold notified
      rw [hp]
    cases o <;> exact .of_loop rfl (hnot _) (by rw [hp]; rfl) rfl rfl rfl
  · next hp =>
    split at h <;> cases h
    exact .of_loop rfl (by unfold notified; rw [hp]) (by rw [hp]; rfl) rfl rfl rfl
  · next r _ hp =>
    have hnot (o : CallbackResult) :
        t.notified (.postStop o) = t.monitors.map fun p => (p.2, r) := by
      unfold notified
      rw [hp]
    unfold stopped
    cases shouldPropagateLinkedExit r <;> exact .notify r hp rfl (hnot _) rfl rfl rfl
  · next hp =>
    split at h <;> cases h
    exact .keep rfl (by unfold notified; rw [hp]) rfl (by rw [hp]; rfl) (fun _ => by rw [hp]; rfl)
      fun h => by cases h
  · next hp =>
    split at h <;> cases h
    exact .keep rfl (by unfold notified; rw [hp]) rfl (by rw [hp]; rfl) (fun _ => by rw [hp]; rfl)
      fun h => by cases h
  · next e hp =>
    refine .keep rfl (by unfold notified; rw [hp]) rfl ?_ ?_ ?_ <;> rw [hp] <;> cases e <;>
      first | rfl | exact fun h => h | exact fun _ => rfl
  · next e hp =>
    refine .keep rfl (by unfold notified; rw [hp]) rfl ?_ ?_ ?_ <;> rw [hp] <;> cases e <;>
      first | rfl | exact fun h => h | exact fun _ => rfl
  · split at h <;> cases h
    next hunguarded =>
      have hdone : t.phase.postStopDone = false := by
        by_contra hne
        rw [Phase.guarded_of_postStopDone (Bool.of_not_eq_false hne)] at hunguarded
        cases hunguarded
      exact .of_loop rfl (by unfold notified; split <;> trivial) hdone rfl rfl rfl

end Task

/-- The invariant of a run: until `post_stop` returns nobody is notified, and then everybody who
was asked for by an envelope that was taken. -/
structure Monitored (xs : List (Input M A)) (ns : List (ℕ × ExitReason)) (t : Task M A) :
    Prop where
  held : t.phase.postStopDone = false → ns = [] ∧ t.monitors = asked (xs.filterMap Input.taken)
  told : ∀ r, t.phase.postStopDone = true → t.phase.reason = some r →
    ns = (asked (xs.filterMap Input.taken)).map fun p => (p.2, r)
  early : t.phase.early = true → xs.filterMap Input.taken = []

section Monitored

variable {xs : List (Input M A)} {ns : List (ℕ × ExitReason)} {t t' : Task M A} {x : Input M A}

theorem Monitored.step (hm : Monitored xs ns t) (h : t.step x = some t') :
    Monitored (xs ++ [x]) (ns ++ t.notified x) t' := by
  cases Task.step_monitors h with
  | take e hp hx hnot hmon hp' hearly =>
    obtain ⟨hns, hmonitors⟩ := hm.held (by rw [hp]; rfl)
    refine ⟨fun _ => ⟨by rw [hnot, hns]; rfl, ?_⟩, fun r hdone => ?_, fun h => ?_⟩
    · rw [hmon, hmonitors, List.filterMap_append, List.filterMap_cons_some hx, List.filterMap_nil,
        asked_concat]
    · rw [hp'] at hdone
      cases hdone
    · rw [hearly] at h
      cases h
  | notify r hp hx hnot hp' hr hearly =>
    obtain ⟨hns, hmonitors⟩ := hm.held (by rw [hp]; rfl)
    refine ⟨fun hdone => ?_, fun r' _ hr' => ?_, fun h => ?_⟩
    · rw [hp'] at hdone
      cases hdone
    · obtain rfl : r = r' := Option.some.inj (hr.symm.trans hr')
      rw [hns, hnot, hmonitors, List.filterMap_append, List.filterMap_cons_none hx,
        List.filterMap_nil, List.append_nil, List.nil_append]
    · rw [hearly] at h
      cases h
  | keep hx hnot hmon hp' hr hearly =>
    have hsame : (xs ++ [x]).filterMap Input.taken = xs.filterMap Input.taken := by
      rw [List.filterMap_append, List.filterMap_cons_none hx, List.filterMap_nil, List.append_nil]
    rw [hnot, List.append_nil]
    refine ⟨fun hdone => ?_, fun r hdone hr' => ?_, fun h => ?_⟩
    · rw [hsame, hmon]
      exact hm.held (hp' ▸ hdone)
    · rw [hsame]
      exact hm.told r (hp' ▸ hdone) (hr (hp' ▸ hdone) ▸ hr')
    · rw [hsame]
      exact hm.early (hearly h)

/-- **Every run keeps the monitors.** -/
theorem monitored_run {config : ActorConfig} {a : A} (h : (Task.initial config a).run xs = some t) :
    Monitored xs ((Task.initial config a).notifications xs) t := by
  refine run_induction
    (motive := fun xs t => Monitored xs ((Task.initial config a).notifications xs) t) ?_ ?_ h
  · exact ⟨fun _ => ⟨rfl, rfl⟩, fun _ hdone => (by cases hdone), fun _ => rfl⟩
  · intro xs t x t' hrun ih hst
    rw [Task.notifications, trace_concat hrun hst]
    exact ih.step hst

end Monitored

namespace Runtime

variable {w w' w'' w₀ : Runtime M A} {es : List (RtEvent M A)} {c : Choice}

/-- **Who is notified of an exit.** When the task of an actor ends, everyone who has asked for it
in its mailbox and has not taken that back was notified of the exit reason exactly when none of
them is left in the mailbox, and, if a panic escapes, there is none at all. Each call of `monitor`
has a reply channel of its own. -/
theorem monitors_notified_iff {config : ActorConfig} {actor : A} {supervisor : Option SupId}
    {e : Termination} (hw : w.Reachable)
    (hspawn : w.step (.spawn config actor supervisor) = some w₀) (hrun : w₀.run es = some w')
    (hlast : w'.step (.task ⟨w.nextId⟩ c) = some w'')
    (hdone : w''.phase ⟨w.nextId⟩ = some (.done e))
    (hreplies : (replies (w''.mailbox ⟨w.nextId⟩).accepted).Nodup) :
    (∀ q ∈ asked (w''.mailbox ⟨w.nextId⟩).accepted, ∃ r, e = .exited r ∧
      (q.2, r) ∈ (Task.initial config actor).notifications
        (w₀.inputs ⟨w.nextId⟩ (es ++ [.task ⟨w.nextId⟩ c]))) ↔
    asked (w'.mailbox ⟨w.nextId⟩).queue = [] ∧
      (w'.Observes ⟨w.nextId⟩ (.task ⟨w.nextId⟩ c) .panicked →
        asked (w'.mailbox ⟨w.nextId⟩).accepted = []) := by
  have hf := (hw.step hspawn).fresh
  obtain ⟨ht₀, hempty, -⟩ := spawned_spec hspawn
  -- the last step
  obtain ⟨t, x, w₁, t', ht, hobs, hstep, hw''⟩ := taskStep_inv hlast
  have hmove := Task.step_move hstep
  have htask : w''.tasks ⟨w.nextId⟩ = some t' := by simp [hw'', setTask]
  have hphase : t'.phase = .done e := by simpa [phase, htask] using hdone
  have hinput : w'.input ⟨w.nextId⟩ (.task ⟨w.nextId⟩ c) = some x :=
    input_eq_some.mpr ⟨c, t, w₁, rfl, ht, hobs⟩
  have htaken : x.taken = none := by
    rcases hmove.isDone_iff.mp (by rw [hphase]; rfl) with rfl | rfl <;> rfl
  have haccepted : (w''.mailbox ⟨w.nextId⟩).accepted = (w'.mailbox ⟨w.nextId⟩).accepted := by
    rw [hw'']
    exact (observe_access hobs).mailbox_own.1
  have hqueue := (envelopes_spec hf ht₀ hempty hrun).2 t ht hmove.not_isDone
  -- what the task has notified
  obtain ⟨s, hs, hs'⟩ := run_inputs hf ht₀ (run_concat.mpr ⟨w', hrun, hlast⟩)
  obtain rfl : t' = s := Option.some.inj (htask.symm.trans hs')
  have hmon := monitored_run hs
  have henvs : (w₀.inputs ⟨w.nextId⟩ (es ++ [.task ⟨w.nextId⟩ c])).filterMap Input.taken =
      w₀.envelopes ⟨w.nextId⟩ es := by
    rw [inputs_concat_of_some hrun hlast hinput, List.filterMap_append,
      List.filterMap_cons_none htaken, List.filterMap_nil, List.append_nil, envelopes]
  have hpanicked : w'.Observes ⟨w.nextId⟩ (.task ⟨w.nextId⟩ c) .panicked ↔ e = .panicked := by
    have hlive : .panicked ∉ w₀.inputs ⟨w.nextId⟩ es :=
      not_panicked_of_live hf ht₀ hrun ht hmove.not_isDone
    have hiff := panicked_mem_inputs hf ht₀ (run_concat.mpr ⟨w', hrun, hlast⟩) hdone
    rw [inputs_concat_of_some hrun hlast hinput, List.mem_append, or_iff_right hlive,
      List.mem_singleton] at hiff
    rw [observes_task ht hobs, ← hiff]
  rw [haccepted, hpanicked]
  cases e with
  | exited r =>
    have hns := hmon.told r (by rw [hphase]; rfl) (by rw [hphase]; rfl)
    rw [haccepted, hqueue] at hreplies
    rw [hns, henvs, hqueue, ← asked_append_iff hreplies, and_iff_left (by rintro ⟨⟩)]
    refine forall₂_congr fun q _ => ⟨?_, ?_⟩
    · rintro ⟨r', -, hmem⟩
      obtain ⟨p, hp, heq⟩ := List.mem_map.mp hmem
      exact ⟨p, hp, (Prod.mk.inj heq).1⟩
    · rintro ⟨p, hp, heq⟩
      exact ⟨r, rfl, List.mem_map.mpr ⟨p, hp, by rw [heq]⟩⟩
  | startFailed =>
    have hnil := hmon.early (by rw [hphase]; rfl)
    rw [henvs] at hnil
    rw [hqueue, hnil, List.nil_append, and_iff_left (by rintro ⟨⟩)]
    refine ⟨fun hall => asked_eq_nil_of_forall hall ?_, fun hnone q hq => ?_⟩
    · rintro q ⟨r, ⟨⟩, -⟩
    · rw [hnone] at hq
      cases hq
  | panicked =>
    refine ⟨fun hall => ?_, fun hnone q hq => ?_⟩
    · have hnone : asked (w'.mailbox ⟨w.nextId⟩).accepted = [] :=
        asked_eq_nil_of_forall hall (by rintro q ⟨r, ⟨⟩, -⟩)
      obtain ⟨kept, -, hasked⟩ := asked_append (w₀.envelopes ⟨w.nextId⟩ es)
        (w'.mailbox ⟨w.nextId⟩).queue
      rw [← hqueue, hnone] at hasked
      exact ⟨(List.append_eq_nil_iff.mp hasked.symm).2, fun _ => hnone⟩
    · rw [hnone.2 rfl] at hq
      cases hq

/-- An actor of the default configuration at its spawn. -/
def oneActor : Runtime Unit Unit := (init.step (.spawn .default () none)).get rfl

/-- The actor takes one envelope and ends, but for its last step. -/
def stops (envs : List (Envelope Unit Unit)) (taken : ℕ) : List (RtEvent Unit Unit) :=
  let start : List Choice := [.poll, .preStart (.ok ())]
  let take : List Choice := [.recvControl false, .recvMailbox]
  let finish : List Choice := [.postStop (.ok ()), .unregister]
  envs.map (.post ⟨1⟩) ++
    (start ++ (List.replicate taken take).flatten ++ finish).map (.task ⟨1⟩)

/-- The result where the `Monitor` comes before the `Stop`. -/
theorem monitors_notified_first : ∃ w' w'' : Runtime Unit Unit,
    oneActor.run (stops [.monitor ⟨5⟩ 0, .stop] 2) = some w' ∧
    w'.step (.task ⟨1⟩ .finish) = some w'' ∧ asked (w''.mailbox ⟨1⟩).accepted = [(⟨5⟩, 0)] ∧
    ∀ q ∈ asked (w''.mailbox ⟨1⟩).accepted, ∃ r, Termination.exited .shutdown = .exited r ∧
      (q.2, r) ∈ (Task.initial .default ()).notifications
        (oneActor.inputs ⟨1⟩ (stops [.monitor ⟨5⟩ 0, .stop] 2 ++ [.task ⟨1⟩ .finish])) := by
  have hspawn : init.step (.spawn .default () none) = some oneActor := rfl
  refine ⟨_, _, rfl, rfl, rfl, ?_⟩
  refine (monitors_notified_iff ⟨[], rfl⟩ hspawn rfl rfl rfl (by decide)).mpr ⟨rfl, fun h => ?_⟩
  have hinput := input_eq_some.mpr h
  cases hinput

/-- A `Monitor` that is accepted after the `Stop` is in the mailbox when the actor ends, and its
caller is not notified. -/
theorem monitor_after_stop_dropped : ∃ w' : Runtime Unit Unit,
    oneActor.run (stops [.stop, .monitor ⟨5⟩ 0] 1 ++ [.task ⟨1⟩ .finish]) = some w' ∧
    w'.phase ⟨1⟩ = some (.done (.exited .shutdown)) ∧
    asked (w'.mailbox ⟨1⟩).accepted = [(⟨5⟩, 0)] ∧
    (Task.initial .default ()).notifications
      (oneActor.inputs ⟨1⟩ (stops [.stop, .monitor ⟨5⟩ 0] 1 ++ [.task ⟨1⟩ .finish])) = [] :=
  ⟨_, rfl, rfl, rfl, rfl⟩

end Runtime

end LaneSwitchboards
