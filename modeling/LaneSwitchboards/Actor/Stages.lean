import LaneSwitchboards.Actor.Runtime

/-!
# What a task step does

Every later proof about `Task.step` goes through four inversions of it, one for each thing a
step can do:

* `Task.step_progress`: towards the end of the task. The loop is left in five ways, and once
  the end is fixed it stays so, a panic aside (`Progress`).
* `Task.step_links`: to the links set. It grows only where a `Link` message is processed, and
  then the peer is owed a reverse link.
* `Task.step_reason`: to the exit reason. `Linked(peer, _)` only comes from a `LinkedExit`
  of that peer.
* `Task.step_targets`: to the peers a `LinkedExit` goes to. They are all links.
-/

namespace LaneSwitchboards

variable {M A : Type}

/-- What a step means for the end of a task. -/
inductive Progress (p : Phase M) (x : Input M A) (p' : Phase M) : Prop
  /-- The task stays before or in its loop. -/
  | stay (hp : p.running = true) (hx : x.silent p = false) (hp' : p'.running = true)
  /-- `handle_message` fails. -/
  | fail (r : ExitReason) (hp : p.running = true) (hx : x.silent p = false)
      (hr : shouldPropagateLinkedExit r = true) (hp' : p' = .notify r)
  /-- `notify_supervisor` finds the supervisor. -/
  | lookup (r : ExitReason) (k : SupId) (hp : p = .notify r) (hx : x = .supervisor (some k))
      (hp' : p' = .sendSignal k r)
  /-- `notify_supervisor` finds no supervisor. -/
  | orphan (r : ExitReason) (hp : p = .notify r) (hx : x = .supervisor none)
      (hp' : p' = .postStop r)
  /-- The notification is sent. -/
  | notified (r : ExitReason) (k : SupId) (hp : p = .sendSignal k r) (hx : x = .sent)
      (hp' : p' = .postStop r)
  /-- The loop is left without `handle_message`: silently exactly when abnormally. -/
  | leave (r : ExitReason) (hp : p.running = true)
      (hx : x.silent p = shouldPropagateLinkedExit r) (hp' : p' = .postStop r)
  /-- `pre_start` fails. -/
  | startFailed (hp : p = .preStart) (hx : x.silent p = true)
      (hp' : p' = .unregister .startFailed)
  /-- The task goes on ending. -/
  | ending (e : Termination) (hp : p.termination = some e) (hx : x.silent p = false)
      (hp' : p'.termination = some e)
  /-- A panic escapes. -/
  | panic (hp : p.unguarded = true) (hx : x = .panicked) (hp' : p' = .done .panicked)

namespace Phase

variable {p : Phase M}

/-- A task in its loop has no end yet. -/
theorem termination_of_running (h : p.running = true) : p.termination = none := by
  cases p <;> first | rfl | cases h

theorem reason_of_running (h : p.running = true) : p.reason = none := by
  cases p <;> first | rfl | cases h

/-- Only a task that has left its loop propagates an exit. -/
theorem targets_of_termination (h : p.termination = none) : p.targets = ∅ := by
  cases p <;> first | rfl | cases h

/-- No callback is left after `post_stop`. -/
theorem guarded_of_postStopDone (h : p.postStopDone = true) : p.unguarded = false := by
  cases p <;> first | rfl | cases h

theorem postStopDone_of_running (h : p.running = true) : p.postStopDone = false := by
  cases p <;> first | rfl | cases h

theorem targets_of_running (h : p.running = true) : p.targets = ∅ :=
  targets_of_termination (termination_of_running h)

end Phase

/-- What a step means for the links set and the reverse link that is owed. -/
inductive LinksChange (t : Task M A) (x : Input M A) (t' : Task M A) : Prop
  | keep (hl : t'.links = t.links) (ho : t'.phase.owed = none ∨ t'.phase.owed = t.phase.owed)
  /-- A `Link` message of a new peer. -/
  | insert (peer : ActorId)
      (hx : x = .envelope (some (.link peer)) ∨ ∃ trap, x = .control (some (.link peer)) trap)
      (hnew : peer ∉ t.links) (hl : t'.links = insert peer t.links)
      (ho : t'.phase.owed = some peer)
  | erase (peer : ActorId) (hx : x = .envelope (some (.unlink peer)))
      (hl : t'.links = t.links.erase peer) (ho : t'.phase.owed = none)

namespace Task

variable {t t' : Task M A} {x : Input M A}

/-! ### Towards the end of the task -/

theorem running_insertLink (peer : ActorId) : (t.insertLink peer).phase.running = true := by
  unfold insertLink
  split <;> rfl

theorem progress_recvControl {m : Option ControlMsg} {trap : Bool} (hp : t.phase = .select) :
    Progress t.phase (.control m trap : Input M A) (t.recvControl trap m).phase := by
  have hrun : t.phase.running = true := by rw [hp]; rfl
  rcases m with _ | peer | ⟨peer, r⟩
  · exact .leave .normal hrun (by rw [hp]; rfl) rfl
  · exact .stay hrun (by rw [hp]; rfl) (running_insertLink peer)
  · cases trap with
    | true => exact .stay hrun (by rw [hp]; rfl) rfl
    | false => exact .leave (.linked peer r) hrun (by rw [hp]; rfl) rfl

theorem progress_recvEnvelope {e : Option (Envelope M A)} (hp : t.phase = .pollMailbox) :
    Progress t.phase (.envelope e) (t.recvEnvelope e).phase := by
  have hrun : t.phase.running = true := by rw [hp]; rfl
  rcases e with _ | e
  · exact .leave .normal hrun (by rw [hp]; rfl) rfl
  · cases e with
    | link peer => exact .stay hrun (by rw [hp]; rfl) (running_insertLink peer)
    | kill => exact .leave .killed hrun (by rw [hp]; rfl) rfl
    | stop => exact .leave .shutdown hrun (by rw [hp]; rfl) rfl
    | _ => exact .stay hrun (by rw [hp]; rfl) rfl

theorem termination_stopped (r : ExitReason) :
    (t.stopped r).phase.termination = some (.exited r) := by
  unfold stopped
  split <;> rfl

/-- **Inversion of a step, towards the end of the task.** -/
theorem step_progress (h : t.step x = some t') : Progress t.phase x t'.phase := by
  unfold step at h
  split at h
  -- first the steps that only move on, inside the loop or after it
  all_goals try cases h
  all_goals try (next hp => rw [hp]; exact .stay rfl rfl rfl)
  all_goals try (next hp => rw [hp]; exact .ending _ rfl rfl rfl)
  · next hp => rw [hp]; exact .startFailed rfl rfl rfl
  · next hp => exact progress_recvControl hp
  · next hp => exact progress_recvEnvelope hp
  · next hp => rw [hp]; exact .fail _ rfl rfl rfl rfl
  · next o _ hp =>
    rw [hp]
    cases o with
    | ok => exact .stay rfl rfl rfl
    | err e => exact .fail _ rfl rfl rfl rfl
    | panicked => exact .fail _ rfl rfl rfl rfl
  · next hp =>
    rw [hp]
    split at h <;> cases h
    exact .stay rfl rfl rfl
  · next hp => rw [hp]; exact .fail _ rfl rfl rfl rfl
  · next hp => rw [hp]; exact .lookup _ _ rfl rfl rfl
  · next hp => rw [hp]; exact .orphan _ rfl rfl rfl
  · next hp => rw [hp]; exact .notified _ _ rfl rfl rfl
  · next hp => rw [hp]; exact .leave _ rfl rfl rfl
  · next hp => rw [hp]; exact .ending _ rfl rfl (termination_stopped _)
  · next hp =>
    rw [hp]
    split at h <;> cases h
    exact .ending _ rfl rfl rfl
  · next hp =>
    rw [hp]
    split at h <;> cases h
    exact .ending _ rfl rfl rfl
  · split at h <;> cases h
    next hp => exact .panic hp rfl rfl

/-- A task that has left its loop does not return to it. -/
theorem running_of_step (h : t.step x = some t') (hrun : t'.phase.running = true) :
    t.phase.running = true := by
  rcases step_progress h with ⟨hp, -, -⟩ | ⟨_, hp, -⟩ | ⟨r, k, -, -, hp'⟩ | ⟨r, -, -, hp'⟩ |
    ⟨r, k, -, -, hp'⟩ | ⟨r, hp, -⟩ | ⟨hp, -, -⟩ | ⟨e, -, -, hp'⟩ | ⟨-, -, hp'⟩
  · exact hp
  · exact hp
  · rw [hp'] at hrun; cases hrun
  · rw [hp'] at hrun; cases hrun
  · rw [hp'] at hrun; cases hrun
  · exact hp
  · rw [hp]; rfl
  · rw [Phase.termination_of_running hrun] at hp'; cases hp'
  · rw [hp'] at hrun; cases hrun

/-- The end of a task, once fixed, does not go away. -/
theorem termination_of_step (h : t.step x = some t') (hnone : t'.phase.termination = none) :
    t.phase.termination = none := by
  rcases step_progress h with ⟨hp, -, -⟩ | ⟨_, hp, -⟩ | ⟨r, k, hp, -⟩ | ⟨r, hp, -⟩ | ⟨r, k, hp, -⟩ |
    ⟨r, hp, -⟩ | ⟨hp, -, -⟩ | ⟨e, -, -, hp'⟩ | ⟨-, -, hp'⟩
  · exact Phase.termination_of_running hp
  · exact Phase.termination_of_running hp
  · rw [hp]; rfl
  · rw [hp]; rfl
  · rw [hp]; rfl
  · exact Phase.termination_of_running hp
  · rw [hp]; rfl
  · rw [hp'] at hnone; cases hnone
  · rw [hp'] at hnone; cases hnone

/-- `post_stop` has returned for good. -/
theorem postStopDone_of_step (h : t.step x = some t') (hdone : t.phase.postStopDone = true) :
    t'.phase.postStopDone = true := by
  unfold step at h
  split at h
  -- the phases before the return, then those after it
  all_goals try (next hp => rw [hp] at hdone; cases hdone)
  · split at h <;> cases h
    rfl
  · split at h <;> cases h
    rfl
  · cases h; rfl
  · cases h; rfl
  · cases h; rfl
  · next e hp =>
    cases h
    rw [hp] at hdone
    cases e <;> first | rfl | cases hdone
  · next e hp =>
    cases h
    rw [hp] at hdone
    cases e <;> first | rfl | cases hdone
  · split at h <;> cases h
    next hunguarded =>
      rw [Phase.guarded_of_postStopDone hdone] at hunguarded
      cases hunguarded
  · cases h

/-- Only a task whose end is fixed leaves the registry. -/
theorem termination_unregistered (h : t.step .unregistered = some t') :
    t'.phase.termination ≠ none := by
  unfold step at h
  split at h <;> first | (cases h; exact Option.some_ne_none _) | contradiction

/-! ### The links set -/

theorem linksChange_insertLink {peer : ActorId}
    (hx : x = .envelope (some (.link peer)) ∨ ∃ trap, x = .control (some (.link peer)) trap) :
    LinksChange t x (t.insertLink peer) := by
  unfold insertLink
  split
  · exact .keep rfl (Or.inl rfl)
  · next hnew => exact .insert peer hx hnew rfl rfl

/-- **Inversion of a step, for the links set.** -/
theorem step_links (h : t.step x = some t') : LinksChange t x t' := by
  unfold step at h
  split at h
  -- all but the two receives leave the set alone
  all_goals try cases h
  all_goals try exact .keep rfl (Or.inl rfl)
  · next m trap _ =>
    rcases m with _ | peer | ⟨peer, r⟩
    · exact .keep rfl (Or.inl rfl)
    · exact linksChange_insertLink (Or.inr ⟨trap, rfl⟩)
    · cases trap <;> exact .keep rfl (Or.inl rfl)
  · next e _ =>
    rcases e with _ | e
    · exact .keep rfl (Or.inl rfl)
    · cases e with
      | link peer => exact linksChange_insertLink (Or.inl rfl)
      | unlink peer => exact .erase peer rfl rfl rfl
      | _ => exact .keep rfl (Or.inl rfl)
  · next hp => exact .keep rfl (Or.inr (by rw [hp]; rfl))
  · next o _ _ => cases o <;> exact .keep rfl (Or.inl rfl)
  · split at h <;> cases h
    exact .keep rfl (Or.inl rfl)
  · refine .keep rfl (Or.inl ?_)
    unfold stopped
    split <;> rfl
  · split at h <;> cases h
    exact .keep rfl (Or.inl rfl)
  · split at h <;> cases h
    exact .keep rfl (Or.inl rfl)
  · split at h <;> cases h
    exact .keep rfl (Or.inl rfl)

/-- `Unlink` removes the peer and stays in the loop. -/
theorem step_unlink {peer : ActorId} (h : t.step (.envelope (some (.unlink peer))) = some t') :
    t'.links = t.links.erase peer ∧ t'.phase = .select := by
  unfold step at h
  split at h <;> try contradiction
  next heq =>
    cases heq
    cases h
    exact ⟨rfl, rfl⟩

/-! ### The exit reason -/

theorem reason_insertLink (p : ActorId) : (t.insertLink p).phase.reason = none :=
  Phase.reason_of_running (running_insertLink p)

theorem reason_stopped (r : ExitReason) : (t.stopped r).phase.reason = some r := by
  unfold stopped
  split <;> rfl

/-- **Inversion of a step, for the exit reason**: `Linked(peer, r)` is the answer to a
`LinkedExit` of that peer that was not trapped. -/
theorem step_reason {peer : ActorId} {r : ExitReason} (h : t.step x = some t')
    (hr : t'.phase.reason = some (.linked peer r)) : t.phase.reason = some (.linked peer r) ∨
      t.phase = .select ∧ x = .control (some (.linkedExit peer r)) false := by
  unfold step at h
  split at h
  -- most steps fix no reason, or keep the one that is fixed
  all_goals try cases h
  all_goals try cases hr
  all_goals try (next hp => exact Or.inl (by rw [hp]; first | exact hr | rfl))
  · next m trap hp =>
    rcases m with _ | p | ⟨p, r'⟩
    · cases hr
    · rw [recvControl, reason_insertLink] at hr
      cases hr
    · cases trap <;> cases hr
      exact Or.inr ⟨hp, rfl⟩
  · next e _ =>
    rcases e with _ | e
    · cases hr
    · cases e with
      | link p =>
        rw [recvEnvelope, reason_insertLink] at hr
        cases hr
      | _ => cases hr
  · next o _ _ => cases o <;> cases hr
  · split at h <;> cases h
    cases hr
  · next hp =>
    rw [reason_stopped] at hr
    exact Or.inl (by rw [hp]; exact hr)
  · next hp =>
    split at h <;> cases h
    exact Or.inl (by rw [hp]; exact hr)
  · next hp =>
    split at h <;> cases h
    exact Or.inl (by rw [hp]; exact hr)
  · next e hp => exact Or.inl (by rw [hp]; cases e <;> exact hr)
  · next e hp => exact Or.inl (by rw [hp]; cases e <;> exact hr)
  · split at h <;> cases h
    cases hr

/-! ### The propagation of an exit -/

/-- **Inversion of a step, for the peers of a propagation.** -/
theorem step_targets (h : t.step x = some t') :
    t'.phase.targets ⊆ t.phase.targets ∪ t.links := by
  unfold step at h
  split at h
  -- outside of the propagation there are none
  all_goals try cases h
  all_goals try exact Finset.empty_subset _
  · next m trap _ =>
    rcases m with _ | p | ⟨p, r⟩
    · exact Finset.empty_subset _
    · rw [recvControl, Phase.targets_of_running (running_insertLink p)]
      exact Finset.empty_subset _
    · cases trap <;> exact Finset.empty_subset _
  · next e _ =>
    rcases e with _ | e
    · exact Finset.empty_subset _
    · cases e with
      | link p =>
        rw [recvEnvelope, Phase.targets_of_running (running_insertLink p)]
        exact Finset.empty_subset _
      | _ => exact Finset.empty_subset _
  · next o _ _ => cases o <;> exact Finset.empty_subset _
  · split at h <;> cases h
    exact Finset.empty_subset _
  · unfold stopped
    split
    · exact Finset.subset_union_right
    · exact Finset.empty_subset _
  · next r rest peer hp =>
    rw [hp]
    split at h <;> cases h
    next hmem =>
      simp only [Phase.targets, Finset.insert_erase hmem]
      exact Finset.subset_union_left
  · split at h <;> cases h
    exact Finset.empty_subset _
  · next hp =>
    rw [hp]
    exact Finset.subset_union_left
  · next hp =>
    rw [hp]
    exact (Finset.subset_insert _ _).trans Finset.subset_union_left
  · next hp =>
    rw [hp]
    exact (Finset.subset_insert _ _).trans Finset.subset_union_left
  · split at h <;> cases h
    exact Finset.empty_subset _

end Task

end LaneSwitchboards
