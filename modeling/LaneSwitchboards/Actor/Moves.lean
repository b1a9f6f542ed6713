import LaneSwitchboards.Actor.Runtime

/-!
# The moves of a task in the link protocol

`Move` lists what a step of `run_actor` can be, seen from the links: the steps of the loop that
have nothing to do with them are one case. `Task.step_move` is the inversion of `Task.step` into
these cases.
-/

namespace LaneSwitchboards

variable {M A : Type}

/-- The input is a `Link` message of a peer. -/
def Input.links (peer : ActorId) : Input M A → Bool
  | .envelope (some (.link p)) | .control (some (.link p)) _ => p == peer
  | _ => false

/-- The inputs that belong to the links or to the end of a task. -/
def Input.protocol : Input M A → Bool
  | .envelope (some (.link _)) | .envelope (some (.unlink _)) => true
  | .control (some (.link _)) _ | .control (some (.linkedExit _ _)) false => true
  | .found _ | .sent | .supervisor _ | .next _ | .linksDone | .postStop _ => true
  | .unregistered | .finished | .panicked => true
  | _ => false

namespace Phase

/-- The task has just left its loop, or will never enter it. -/
def leaving : Phase M → Bool
  | notify _ | postStop _ | unregister .startFailed => true
  | _ => false

/-- The task has ended. -/
def isDone : Phase M → Bool
  | done _ => true
  | _ => false

theorem isDone_of_running {p : Phase M} (h : p.running = true) : p.isDone = false := by
  cases p <;> first | rfl | cases h

theorem isDone_of_leaving {p : Phase M} (h : p.leaving = true) : p.isDone = false := by
  cases p <;> first | rfl | cases h

theorem isDone_of_unguarded {p : Phase M} (h : p.unguarded = true) : p.isDone = false := by
  cases p <;> first | rfl | cases h

end Phase

/-- What a step can be. -/
inductive Move (t : Task M A) (x : Input M A) (t' : Task M A) : Prop
  /-- In the loop, with nothing about links. -/
  | loop (hp : t.phase.running = true) (ho : t.phase.owed = none) (hx : x.protocol = false)
      (hl : t'.links = t.links) (hp' : t'.phase.running = true) (ho' : t'.phase.owed = none)
  /-- A `Link` message of a new peer. -/
  | insert (peer : ActorId) (hp : t.phase.running = true) (ho : t.phase.owed = none)
      (hx : x.links peer = true) (hnew : peer ∉ t.links) (hl : t'.links = insert peer t.links)
      (hp' : t'.phase = .reverseLink peer)
  /-- A `Link` message of a known peer. -/
  | known (peer : ActorId) (hp : t.phase.running = true) (ho : t.phase.owed = none)
      (hx : x.links peer = true) (hmem : peer ∈ t.links) (hl : t'.links = t.links)
      (hp' : t'.phase = .select)
  | erase (peer : ActorId) (hp : t.phase = .pollMailbox)
      (hx : x = .envelope (some (.unlink peer))) (hl : t'.links = t.links.erase peer)
      (hp' : t'.phase = .select)
  | foundLink (peer : ActorId) (b : Bool) (hp : t.phase = .reverseLink peer) (hx : x = .found b)
      (hl : t'.links = t.links) (hp' : t'.phase = if b then .sendLink peer else .select)
  | sentLink (peer : ActorId) (hp : t.phase = .sendLink peer) (hx : x = .sent)
      (hl : t'.links = t.links) (hp' : t'.phase = .select)
  /-- A `LinkedExit` that is not trapped. -/
  | heard (p : ActorId) (r : ExitReason) (hp : t.phase = .select)
      (hx : x = .control (some (.linkedExit p r)) false) (hl : t'.links = t.links)
      (hp' : t'.phase = .postStop (.linked p r))
  /-- Any other way out of the loop. -/
  | leave (hp : t.phase.running = true) (ho : t.phase.owed = none) (hx : x.protocol = false)
      (hl : t'.links = t.links) (hp' : t'.phase.leaving = true)
  | notify (r : ExitReason) (k : Option SupId) (hp : t.phase = .notify r)
      (hx : x = .supervisor k) (hl : t'.links = t.links)
      (hp' : t'.phase = k.elim (.postStop r) fun k => .sendSignal k r)
  | notified (r : ExitReason) (k : SupId) (hp : t.phase = .sendSignal k r) (hx : x = .sent)
      (hl : t'.links = t.links) (hp' : t'.phase = .postStop r)
  | stopped (r : ExitReason) (o : CallbackResult) (hp : t.phase = .postStop r)
      (hx : x = .postStop o) (hl : t'.links = t.links)
      (hp' : t'.phase =
        if shouldPropagateLinkedExit r then .propagate r t.links else .unregister (.exited r))
  | next (r : ExitReason) (rest : Finset ActorId) (peer : ActorId)
      (hp : t.phase = .propagate r rest) (hx : x = .next peer) (hmem : peer ∈ rest)
      (hl : t'.links = t.links) (hp' : t'.phase = .lookupPeer r peer (rest.erase peer))
  | linksDone (r : ExitReason) (hp : t.phase = .propagate r ∅) (hx : x = .linksDone)
      (hl : t'.links = t.links) (hp' : t'.phase = .unregister (.exited r))
  | foundPeer (r : ExitReason) (peer : ActorId) (rest : Finset ActorId) (b : Bool)
      (hp : t.phase = .lookupPeer r peer rest) (hx : x = .found b) (hl : t'.links = t.links)
      (hp' : t'.phase = if b then .sendLinkedExit r peer rest else .propagate r rest)
  | sentExit (r : ExitReason) (peer : ActorId) (rest : Finset ActorId)
      (hp : t.phase = .sendLinkedExit r peer rest) (hx : x = .sent) (hl : t'.links = t.links)
      (hp' : t'.phase = .propagate r rest)
  | unregistered (e : Termination) (hp : t.phase = .unregister e) (hx : x = .unregistered)
      (hl : t'.links = t.links) (hp' : t'.phase = .finish e)
  | finished (e : Termination) (hp : t.phase = .finish e) (hx : x = .finished)
      (hl : t'.links = t.links) (hp' : t'.phase = .done e)
  | panicked (hp : t.phase.unguarded = true) (hx : x = .panicked) (hl : t'.links = t.links)
      (hp' : t'.phase = .done .panicked)

namespace Task

variable {t t' : Task M A} {x : Input M A}

theorem move_insertLink {peer : ActorId} (hp : t.phase.running = true)
    (ho : t.phase.owed = none) (hx : x.links peer = true) : Move t x (t.insertLink peer) := by
  unfold insertLink
  split
  · next hmem => exact .known peer hp ho hx hmem rfl rfl
  · next hnew => exact .insert peer hp ho hx hnew rfl rfl

theorem move_recvControl {m : Option ControlMsg} {trap : Bool} (hp : t.phase = .select) :
    Move t (.control m trap : Input M A) (t.recvControl trap m) := by
  have hrun : t.phase.running = true := by rw [hp]; rfl
  have howed : t.phase.owed = none := by rw [hp]; rfl
  rcases m with _ | peer | ⟨p, r⟩
  · exact .leave hrun howed rfl rfl rfl
  · exact move_insertLink hrun howed (by simp [Input.links])
  · cases trap with
    | true => exact .loop hrun howed rfl rfl rfl rfl
    | false => exact .heard p r hp rfl rfl rfl

theorem move_recvEnvelope {e : Option (Envelope M A)} (hp : t.phase = .pollMailbox) :
    Move t (.envelope e) (t.recvEnvelope e) := by
  have hrun : t.phase.running = true := by rw [hp]; rfl
  have howed : t.phase.owed = none := by rw [hp]; rfl
  rcases e with _ | e
  · exact .leave hrun howed rfl rfl rfl
  · cases e with
    | link peer => exact move_insertLink hrun howed (by simp [Input.links])
    | unlink peer => exact .erase peer hp rfl rfl rfl
    | kill | stop => exact .leave hrun howed rfl rfl rfl
    | _ => exact .loop hrun howed rfl rfl rfl rfl

/-- **Inversion of a step**, into the moves of the link protocol. -/
theorem step_move (h : t.step x = some t') : Move t x t' := by
  unfold step at h
  split at h
  -- the steps of the loop and the ways out of it that say nothing about links
  all_goals try cases h
  all_goals try
    (next hp => exact .loop (by rw [hp]; rfl) (by rw [hp]; rfl) rfl rfl rfl rfl)
  all_goals try
    (next hp => exact .leave (by rw [hp]; rfl) (by rw [hp]; rfl) rfl rfl rfl)
  · next hp => exact move_recvControl hp
  · next hp => exact move_recvEnvelope hp
  · next hp => exact .foundLink _ true hp rfl rfl rfl
  · next hp => exact .foundLink _ false hp rfl rfl rfl
  · next hp => exact .sentLink _ hp rfl rfl rfl
  · next o _ hp =>
    have hrun : t.phase.running = true := by rw [hp]; rfl
    have howed : t.phase.owed = none := by rw [hp]; rfl
    cases o with
    | ok => exact .loop hrun howed rfl rfl rfl rfl
    | err e => exact .leave hrun howed rfl rfl rfl
    | panicked => exact .leave hrun howed rfl rfl rfl
  · next hp =>
    split at h <;> cases h
    exact .loop (by rw [hp]; rfl) (by rw [hp]; rfl) rfl rfl rfl rfl
  · next hp => exact .notify _ _ hp rfl rfl rfl
  · next hp => exact .notify _ _ hp rfl rfl rfl
  · next hp => exact .notified _ _ hp rfl rfl rfl
  · next hp => exact .stopped _ _ hp rfl rfl rfl
  · next hp =>
    split at h <;> cases h
    next hmem => exact .next _ _ _ hp rfl hmem rfl rfl
  · next hp =>
    split at h <;> cases h
    next hrest => exact .linksDone _ (hrest ▸ hp) rfl rfl rfl
  · next hp => exact .foundPeer _ _ _ true hp rfl rfl rfl
  · next hp => exact .foundPeer _ _ _ false hp rfl rfl rfl
  · next hp => exact .sentExit _ _ _ hp rfl rfl rfl
  · next hp => exact .unregistered _ hp rfl rfl rfl
  · next hp => exact .finished _ hp rfl rfl rfl
  · split at h <;> cases h
    next hp => exact .panicked hp rfl rfl rfl

end Task

namespace Move

variable {t t' : Task M A} {x : Input M A}

/-- A task that has ended makes no step. -/
theorem not_isDone (h : Move t x t') : t.phase.isDone = false := by
  cases h with
  | loop hp | insert _ hp | known _ hp | leave hp => exact Phase.isDone_of_running hp
  | panicked hp => exact Phase.isDone_of_unguarded hp
  | erase _ hp | foundLink _ _ hp | sentLink _ hp | heard _ _ hp | notify _ _ hp
    | notified _ _ hp | stopped _ _ hp | next _ _ _ hp | linksDone _ hp | foundPeer _ _ _ _ hp
    | sentExit _ _ _ hp | unregistered _ hp | finished _ hp => rw [hp]; rfl

/-- A task ends where it drops its receivers. -/
theorem isDone_iff (h : Move t x t') : t'.phase.isDone = true ↔ x = .finished ∨ x = .panicked := by
  cases h with
  | finished e hp hx hl hp' => rw [hp']; exact iff_of_true rfl (Or.inl hx)
  | panicked hp hx hl hp' => rw [hp']; exact iff_of_true rfl (Or.inr hx)
  | loop hp ho hx hl hp' ho' =>
    rw [Phase.isDone_of_running hp']
    refine iff_of_false Bool.false_ne_true ?_
    rintro (rfl | rfl) <;> cases hx
  | leave hp ho hx hl hp' =>
    rw [Phase.isDone_of_leaving hp']
    refine iff_of_false Bool.false_ne_true ?_
    rintro (rfl | rfl) <;> cases hx
  | insert peer hp ho hx hnew hl hp' =>
    rw [hp']
    refine iff_of_false Bool.false_ne_true ?_
    rintro (rfl | rfl) <;> cases hx
  | known peer hp ho hx hmem hl hp' =>
    rw [hp']
    refine iff_of_false Bool.false_ne_true ?_
    rintro (rfl | rfl) <;> cases hx
  | foundLink peer b hp hx hl hp' =>
    rw [hx, hp']
    cases b <;> simp [Phase.isDone]
  | foundPeer r peer rest b hp hx hl hp' =>
    rw [hx, hp']
    cases b <;> simp [Phase.isDone]
  | notify r k hp hx hl hp' =>
    rw [hx, hp']
    cases k <;> simp [Phase.isDone]
  | stopped r o hp hx hl hp' =>
    rw [hx, hp']
    cases shouldPropagateLinkedExit r <;> simp [Phase.isDone]
  | erase _ _ hx _ hp' | sentLink _ _ hx _ hp' | heard _ _ _ hx _ hp' | notified _ _ _ hx _ hp'
    | next _ _ _ _ hx _ _ hp' | linksDone _ _ hx _ hp' | sentExit _ _ _ _ hx _ hp'
    | unregistered _ _ hx _ hp' =>
    rw [hx, hp']
    simp [Phase.isDone]

/-- A task that takes a `Link` message holds the peer. -/
theorem mem_links {peer : ActorId} (h : Move t x t') (hx : x.links peer = true) :
    peer ∈ t'.links := by
  have hpeer : ∀ {q}, x.links q = true → q = peer := by
    intro q hq
    unfold Input.links at hx hq
    split at hx <;> simp_all
  have hprotocol : x.protocol = true := by
    unfold Input.links at hx
    split at hx <;> first | rfl | cases hx
  cases h with
  | insert q hp ho hq hnew hl hp' =>
    rw [hl, hpeer hq]
    exact Finset.mem_insert_self _ _
  | known q hp ho hq hmem hl hp' =>
    rw [hl, ← hpeer hq]
    exact hmem
  | loop _ _ hx' | leave _ _ hx' =>
    rw [hprotocol] at hx'
    cases hx'
  | erase _ _ hx' | foundLink _ _ _ hx' | sentLink _ _ hx' | heard _ _ _ hx' | notify _ _ _ hx'
    | notified _ _ _ hx' | stopped _ _ _ hx' | next _ _ _ _ hx' | linksDone _ _ hx'
    | foundPeer _ _ _ _ _ hx' | sentExit _ _ _ _ hx' | unregistered _ _ hx' | finished _ _ hx'
    | panicked _ hx' =>
    rw [hx'] at hx
    cases hx

end Move

end LaneSwitchboards
