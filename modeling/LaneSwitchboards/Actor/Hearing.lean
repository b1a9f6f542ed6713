import LaneSwitchboards.Actor.Link
import LaneSwitchboards.Actor.Wiring
import LaneSwitchboards.Lib.Tally

/-!
# Who hears of an exit

An actor that ends abnormally through `finish_actor` owes a `LinkedExit` to each actor that it
holds as a link. What it owes to `a` is still to be sent, or in the control channel of `a`, or
was taken by `a`, or is lost because `a` has gone (`Conserved`). So `a` hears of the exit of `b`
iff `b` held it as a link at the end (`hears_iff`), and not just because `a` holds `b`.
-/

namespace LaneSwitchboards

variable {M A : Type}

/-- The message is a `LinkedExit` of `b`. -/
def ControlMsg.exitOf (b : ActorId) : ControlMsg → Bool
  | .linkedExit p _ => p == b
  | .link _ => false

namespace Phase

/-- The exit is being propagated, or was. -/
def propagates : Phase M → Bool
  | propagate _ _ | lookupPeer _ _ _ | sendLinkedExit _ _ _ => true
  | unregister (.exited r) | finish (.exited r) | done (.exited r) => shouldPropagateLinkedExit r
  | _ => false

/-- Only abnormal exits are propagated, to each peer once. -/
def Tidy : Phase M → Prop
  | propagate r _ => shouldPropagateLinkedExit r = true
  | lookupPeer r peer rest | sendLinkedExit r peer rest =>
    shouldPropagateLinkedExit r = true ∧ peer ∉ rest
  | _ => True

/-- The step of the propagation by which `a` is no longer among the targets. -/
def releases (a : ActorId) : Phase M → Input M A → Bool
  | lookupPeer _ peer _, .found false => peer == a
  | sendLinkedExit _ peer _, .sent => peer == a
  | _, _ => false

variable {p : Phase M}

theorem propagates_of_running (h : p.running = true) : p.propagates = false := by
  cases p <;> first | rfl | cases h

theorem propagates_of_leaving (h : p.leaving = true) : p.propagates = false := by
  cases p with
  | unregister e => cases e <;> first | rfl | cases h
  | notify | postStop => rfl
  | _ => cases h

theorem targets_of_leaving (h : p.leaving = true) : p.targets = ∅ := by
  cases p <;> first | rfl | cases h

theorem tidy_of_running (h : p.running = true) : p.Tidy := by
  cases p <;> trivial

theorem tidy_of_leaving (h : p.leaving = true) : p.Tidy := by
  cases p <;> trivial

theorem propagates_of_unguarded (h : p.unguarded = true) : p.propagates = false := by
  cases p <;> first | rfl | cases h

theorem targets_of_unguarded (h : p.unguarded = true) : p.targets = ∅ := by
  cases p <;> first | rfl | cases h

theorem releases_of_protocol {x : Input M A} {a : ActorId} (h : x.protocol = false) :
    p.releases a x = false := by
  unfold releases
  split <;> first | rfl | cases h

theorem releases_of_links {x : Input M A} {a peer : ActorId} (h : x.links peer = true) :
    p.releases a x = false := by
  unfold releases
  split <;> first | rfl | cases h

end Phase

namespace Task

/-- Whether the task owes, or owed, `a` a `LinkedExit`. -/
def dueTo (t : Task M A) (a : ActorId) : ℕ := if t.phase.propagates ∧ a ∈ t.links then 1 else 0

/-- Whether it has yet to send it. -/
def pendingTo (t : Task M A) (a : ActorId) : ℕ := if a ∈ t.phase.targets then 1 else 0

theorem dueTo_eq_zero {t : Task M A} {a : ActorId} (h : t.phase.propagates = false) :
    t.dueTo a = 0 := by
  rw [dueTo, h]
  exact if_neg fun hand => Bool.false_ne_true hand.1

theorem pendingTo_eq_zero {t : Task M A} {a : ActorId} (h : t.phase.targets = ∅) :
    t.pendingTo a = 0 := by
  rw [pendingTo, h]
  exact if_neg (Finset.notMem_empty a)

end Task

namespace Move

variable {t t' : Task M A} {x : Input M A}

theorem tidy (h : Move t x t') (ht : t.phase.Tidy) : t'.phase.Tidy := by
  cases h with
  | loop hp ho hx hl hp' => exact Phase.tidy_of_running hp'
  | leave hp ho hx hl hp' => exact Phase.tidy_of_leaving hp'
  | foundLink peer b hp hx hl hp' => rw [hp']; cases b <;> trivial
  | notify r k hp hx hl hp' => rw [hp']; cases k <;> trivial
  | stopped r o hp hx hl hp' =>
    rw [hp']
    split_ifs with hr
    · exact hr
    · trivial
  | next r rest peer hp hx hmem hl hp' =>
    rw [hp] at ht
    rw [hp']
    exact ⟨ht, Finset.notMem_erase _ _⟩
  | foundPeer r peer rest b hp hx hl hp' =>
    rw [hp] at ht
    rw [hp']
    cases b with
    | true => exact ht
    | false => exact ht.1
  | sentExit r peer rest hp hx hl hp' =>
    rw [hp] at ht
    rw [hp']
    exact ht.1
  | insert _ _ _ _ _ _ hp' | known _ _ _ _ _ _ hp' | erase _ _ _ _ hp' | sentLink _ _ _ _ hp'
    | heard _ _ _ _ _ hp' | notified _ _ _ _ _ hp' | linksDone _ _ _ _ hp'
    | unregistered _ _ _ _ hp' | finished _ _ _ _ hp' | panicked _ _ _ hp' => rw [hp']; trivial

/-- A step outside of the propagation owes nothing before it and after it. -/
theorem balance_of_idle {a : ActorId} (hp : t.phase.propagates = false)
    (ht : t.phase.targets = ∅) (hp' : t'.phase.propagates = false) (ht' : t'.phase.targets = ∅)
    (hr : t.phase.releases a x = false) :
    t'.dueTo a + t.pendingTo a =
      t.dueTo a + t'.pendingTo a + if t.phase.releases a x then 1 else 0 := by
  rw [Task.dueTo_eq_zero hp, Task.dueTo_eq_zero hp', Task.pendingTo_eq_zero ht,
    Task.pendingTo_eq_zero ht', hr]
  rfl

/-- A step of the propagation that keeps the targets. -/
theorem balance_of_same {a : ActorId} (hl : t'.links = t.links)
    (hp : t'.phase.propagates = t.phase.propagates) (ht : t'.phase.targets = t.phase.targets)
    (hr : t.phase.releases a x = false) :
    t'.dueTo a + t.pendingTo a =
      t.dueTo a + t'.pendingTo a + if t.phase.releases a x then 1 else 0 := by
  rw [Task.dueTo, Task.dueTo, Task.pendingTo, Task.pendingTo, hl, hp, ht, hr]
  rfl

/-- A step that takes `peer` off the targets. -/
theorem balance_of_release {a peer : ActorId} {rest : Finset ActorId} (hl : t'.links = t.links)
    (hp : t.phase.propagates = true) (hp' : t'.phase.propagates = true) (hpeer : peer ∉ rest)
    (ht : t.phase.targets = Insert.insert peer rest) (ht' : t'.phase.targets = rest)
    (hr : t.phase.releases a x = (peer == a)) :
    t'.dueTo a + t.pendingTo a =
      t.dueTo a + t'.pendingTo a + if t.phase.releases a x then 1 else 0 := by
  have hdue : t'.dueTo a = t.dueTo a := by rw [Task.dueTo, Task.dueTo, hl, hp, hp']
  have hpending : t.pendingTo a = t'.pendingTo a + if peer = a then 1 else 0 := by
    rw [Task.pendingTo, Task.pendingTo, ht, ht']
    by_cases ha : peer = a
    · subst ha
      simp [hpeer]
    · simp [ha, Ne.symm ha]
  rw [hr, hdue, hpending]
  simp only [beq_iff_eq]
  omega

/-- **A local step keeps what is owed to `a`** in balance with what is still to be sent. -/
theorem balance (h : Move t x t') (ht : t.phase.Tidy) (a : ActorId) :
    t'.dueTo a + t.pendingTo a =
      t.dueTo a + t'.pendingTo a + if t.phase.releases a x then 1 else 0 := by
  cases h with
  | loop hp ho hx hl hp' =>
    exact balance_of_idle (Phase.propagates_of_running hp) (Phase.targets_of_running hp)
      (Phase.propagates_of_running hp') (Phase.targets_of_running hp')
      (Phase.releases_of_protocol hx)
  | leave hp ho hx hl hp' =>
    exact balance_of_idle (Phase.propagates_of_running hp) (Phase.targets_of_running hp)
      (Phase.propagates_of_leaving hp') (Phase.targets_of_leaving hp')
      (Phase.releases_of_protocol hx)
  | insert peer hp ho hx hnew hl hp' | known peer hp ho hx hmem hl hp' =>
    exact balance_of_idle (Phase.propagates_of_running hp) (Phase.targets_of_running hp)
      (by rw [hp']; rfl) (by rw [hp']; rfl) (Phase.releases_of_links hx)
  | erase peer hp hx hl hp' | sentLink peer hp hx hl hp' | notified r k hp hx hl hp' =>
    exact balance_of_idle (by rw [hp]; rfl) (by rw [hp]; rfl) (by rw [hp']; rfl)
      (by rw [hp']; rfl) (by rw [hp, hx]; rfl)
  | heard p r hp hx hl hp' =>
    exact balance_of_idle (by rw [hp]; rfl) (by rw [hp]; rfl) (by rw [hp']; rfl)
      (by rw [hp']; rfl) (by rw [hp, hx]; rfl)
  | foundLink peer b hp hx hl hp' =>
    cases b <;> exact balance_of_idle (by rw [hp]; rfl) (by rw [hp]; rfl) (by rw [hp']; rfl)
      (by rw [hp']; rfl) (by rw [hp, hx]; rfl)
  | notify r k hp hx hl hp' =>
    cases k <;> exact balance_of_idle (by rw [hp]; rfl) (by rw [hp]; rfl) (by rw [hp']; rfl)
      (by rw [hp']; rfl) (by rw [hp, hx]; rfl)
  | stopped r o hp hx hl hp' =>
    have hr : t.phase.releases a x = false := by rw [hp, hx]; rfl
    have hdue : t.dueTo a = 0 := Task.dueTo_eq_zero (by rw [hp]; rfl)
    have hpending : t.pendingTo a = 0 := Task.pendingTo_eq_zero (by rw [hp]; rfl)
    have hsame : t'.dueTo a = t'.pendingTo a := by
      rw [Task.dueTo, Task.pendingTo, hp', hl]
      split_ifs <;> simp_all [Phase.propagates, Phase.targets]
    rw [hdue, hpending, hr, hsame, Nat.zero_add]
    rfl
  | next r rest peer hp hx hmem hl hp' =>
    refine balance_of_same hl (by rw [hp, hp']; rfl) ?_ (by rw [hp, hx]; rfl)
    rw [hp, hp', Phase.targets, Phase.targets, Finset.insert_erase hmem]
  | linksDone r hp hx hl hp' =>
    rw [hp] at ht
    refine balance_of_same hl ?_ (by rw [hp, hp']; rfl) (by rw [hp, hx]; rfl)
    rw [hp, hp', Phase.propagates, Phase.propagates, ht]
  | foundPeer r peer rest b hp hx hl hp' =>
    cases b with
    | true =>
      exact balance_of_same hl (by rw [hp, hp']; rfl) (by rw [hp, hp']; rfl) (by rw [hp, hx]; rfl)
    | false =>
      rw [hp] at ht
      exact balance_of_release hl (by rw [hp]; rfl) (by rw [hp']; rfl) ht.2 (by rw [hp]; rfl)
        (by rw [hp']; rfl) (by rw [hp, hx]; rfl)
  | sentExit r peer rest hp hx hl hp' =>
    rw [hp] at ht
    exact balance_of_release hl (by rw [hp]; rfl) (by rw [hp']; rfl) ht.2 (by rw [hp]; rfl)
      (by rw [hp']; rfl) (by rw [hp, hx]; rfl)
  | unregistered e hp hx hl hp' | finished e hp hx hl hp' =>
    refine balance_of_same hl ?_ (by rw [hp, hp']; rfl) (by rw [hp, hx]; rfl)
    rw [hp, hp']
    cases e <;> rfl
  | panicked hp hx hl hp' =>
    refine balance_of_idle (Phase.propagates_of_unguarded hp) (Phase.targets_of_unguarded hp)
      (by rw [hp']; rfl) (by rw [hp']; rfl) ?_
    rw [hx]
    cases t.phase <;> rfl

end Move

namespace Runtime

open Function Transition

variable {w w' w₁ : Runtime M A} {a b i : ActorId} {p : Phase M} {x : Input M A}
  {e : RtEvent M A} {es : List (RtEvent M A)} {c : Choice}

/-! ### The way of a linked exit -/

/-- The event is a step in which `a` takes a `LinkedExit` of `b`. -/
def TakesExit (w : Runtime M A) (a b : ActorId) (e : RtEvent M A) : Prop :=
  ∃ r trap, w.Observes a e (.control (some (.linkedExit b r)) trap)

/-- The event is a step in which `b` is done with telling `a`, but `a` has left the registry or
has dropped its receiver. -/
def MissesExit (w : Runtime M A) (a b : ActorId) (e : RtEvent M A) : Prop :=
  ∃ t x, w.tasks b = some t ∧ w.Observes b e x ∧ t.phase.releases a x = true ∧
    (x = .sent → (w.control a).isOpen = false)

/-- The event is a step in which `a` drops its receivers. -/
def DropsReceivers (w : Runtime M A) (a : ActorId) (e : RtEvent M A) : Prop :=
  w.Observes a e .finished ∨ w.Observes a e .panicked

/-- What `b` owes to `a`. -/
def due (w : Runtime M A) (b a : ActorId) : ℕ := (w.tasks b).elim 0 (·.dueTo a)

/-- What `b` has yet to send to `a`. -/
def pending (w : Runtime M A) (b a : ActorId) : ℕ := (w.tasks b).elim 0 (·.pendingTo a)

/-- The `LinkedExit`s of `b` in the control channel of `a`. -/
def queued (w : Runtime M A) (b a : ActorId) : ℕ := (w.control a).queue.countP (·.exitOf b)

/-- The event is a step by which a `LinkedExit` of `b` for `a` is lost with `a`. -/
def LosesExit (w : Runtime M A) (a b : ActorId) (e : RtEvent M A) : Prop :=
  w.MissesExit a b e ∨ w.DropsReceivers a e ∧ 0 < w.queued b a

open Classical in
/-- The `LinkedExit`s of `b` that `a` takes in a step. -/
noncomputable def taken (a b : ActorId) (w : Runtime M A) (e : RtEvent M A) (_ : Runtime M A) : ℕ :=
  if w.TakesExit a b e then 1 else 0

open Classical in
/-- Those that are lost in a step. -/
noncomputable def lost (a b : ActorId) (w : Runtime M A) (e : RtEvent M A) (_ : Runtime M A) : ℕ :=
  (if w.MissesExit a b e then 1 else 0) + if w.DropsReceivers a e then w.queued b a else 0

theorem queued_of_control (h : w₁.control a = w.control a) : w₁.queued b a = w.queued b a := by
  rw [queued, queued, h]

/-- A message that arrives. -/
theorem queued_of_send {m : ControlMsg} (h : (w.control a).send m = some (w₁.control a)) :
    w₁.queued b a = w.queued b a +
      if (w.control a).isOpen = true ∧ m.exitOf b = true then 1 else 0 := by
  rcases Chan.send_eq_some.mp h with ⟨hroom, hpush⟩ | ⟨hclosed, hsame⟩
  · rw [queued, hpush, Chan.queue_push, List.countP_append, List.countP_singleton, queued]
    simp [Chan.isOpen_of_hasRoom hroom]
  · simp [queued_of_control hsame, hclosed]

theorem exitOf_linkedExit {r : ExitReason} :
    (ControlMsg.linkedExit i r).exitOf b = true ↔ i = b := by
  simp [ControlMsg.exitOf]

open Classical in
/-- **The shared state keeps count**: what `b` releases for `a` arrives or is lost, what leaves
the channel of `a` is taken or lost. -/
theorem Access.balance (h : Access w i p x w₁) (a b : ActorId) :
    (w₁.queued b a + (if i = a ∧ ∃ r trap, x = .control (some (.linkedExit b r)) trap then 1 else 0)
      + (if i = b ∧ p.releases a x = true ∧ (x = .sent → (w.control a).isOpen = false)
          then 1 else 0)
      + if i = a ∧ (x = .finished ∨ x = .panicked) then w.queued b a else 0) =
    w.queued b a + if i = b ∧ p.releases a x = true then 1 else 0 := by
  cases h with
  | internal hx =>
    have hr : p.releases a x = false := by
      unfold Phase.releases
      split <;> first | rfl | cases hx
    have hcontrol : ∀ m trap, x ≠ .control m trap := by rintro m trap rfl; cases hx
    have hend : ¬ (x = .finished ∨ x = .panicked) := by rintro (rfl | rfl) <;> cases hx
    simp [hr, hcontrol, hend]
  | @recvControl m trap ch h =>
    by_cases hi : a = i
    · subst hi
      obtain ⟨hq, -⟩ := Chan.recv_eq_some.mp h
      have hqueued : w.queued b a = ch.queue.countP (·.exitOf b) +
          if m.exitOf b = true then 1 else 0 := by
        rw [queued, hq, List.countP_cons]
      have hafter : (w.setControl a ch).queued b a = ch.queue.countP (·.exitOf b) := by
        simp [queued, setControl]
      rw [hqueued, hafter]
      rcases m with peer | ⟨p, r⟩ <;> simp [ControlMsg.exitOf, Phase.releases]
    · have hsame : (w.setControl i ch).queued b a = w.queued b a :=
        queued_of_control (by simp [setControl, update_of_ne hi])
      simp [hsame, Ne.symm hi, Phase.releases]
  | @sendLink peer ch h =>
    have hsame : (w.setControl peer ch).queued b a = w.queued b a := by
      by_cases ha : a = peer
      · subst ha
        rw [queued_of_send (m := .link i) (by simpa [setControl] using h)]
        simp [ControlMsg.exitOf]
      · exact queued_of_control (by simp [setControl, update_of_ne ha])
    simp [hsame, Phase.releases]
  | @sendLinkedExit r peer rest ch h =>
    by_cases ha : peer = a
    · subst ha
      rw [queued_of_send (m := .linkedExit i r) (b := b) (by simpa [setControl] using h)]
      by_cases hi : i = b
      · cases hopen : (w.control peer).isOpen <;>
          simp [Phase.releases, exitOf_linkedExit, hi]
      · simp [Phase.releases, exitOf_linkedExit, hi]
    · have hsame : (w.setControl peer ch).queued b a = w.queued b a :=
        queued_of_control (by simp [setControl, update_of_ne (Ne.symm ha)])
      simp [hsame, Phase.releases, ha]
  | @lookupPeer r peer rest =>
    cases hfound : w.hasControlSender peer <;> simp [Phase.releases]
  | finish | panic =>
    have hafter : (w.dropReceivers i).queued b a = if i = a then 0 else w.queued b a := by
      split_ifs with hi
      · subst hi
        simp [queued, dropReceivers]
      · exact queued_of_control (by simp [dropReceivers, update_of_ne (Ne.symm hi)])
    rw [hafter]
    by_cases hi : i = a <;> simp [hi, Phase.releases]
  | recvMailbox | sendSignal | unregister =>
    simp only [Phase.releases, Bool.false_eq_true, reduceCtorEq, and_false, false_and, or_false,
      exists_false, if_false, Nat.add_zero]
    exact queued_of_control rfl
  | _ => simp [Phase.releases]

/-! ### Conservation -/

theorem due_eq {t : Task M A} (h : w.tasks b = some t) : w.due b a = t.dueTo a := by
  rw [due, h]
  rfl

theorem pending_eq {t : Task M A} (h : w.tasks b = some t) : w.pending b a = t.pendingTo a := by
  rw [pending, h]
  rfl

theorem Reachable.tidy (h : w.Reachable) {t : Task M A} (ht : w.tasks i = some t) :
    t.phase.Tidy := by
  obtain ⟨es, hes⟩ := h
  have hinv : ∀ t, w.tasks i = some t → t.phase.Tidy := by
    refine invariant_run (P := fun w : Runtime M A => ∀ t, w.tasks i = some t → t.phase.Tidy)
      ?_ (fun _ ht => by cases ht) hes
    intro w e w' hw hst t ht
    rcases tasks_step hst i with hsame | ⟨c, s, x, w₁, t', -, hs, -, -, hstep, ht'⟩ |
      ⟨_, _, _, -, -, ht'⟩
    · exact hw t (hsame.symm.trans ht)
    · obtain rfl : t = t' := Option.some.inj (ht.symm.trans ht')
      exact (Task.step_move hstep).tidy (hw s hs)
    · obtain rfl := Option.some.inj (ht.symm.trans ht')
      trivial
  exact hinv t ht

/-- An event that is no task step is observed by nobody. -/
theorem not_observes (he : ∀ i c, e ≠ .task i c) : ¬ w.Observes a e x := by
  rintro ⟨c, _, _, rfl, -⟩
  exact he a c rfl

theorem taken_eq_zero (he : ∀ i c, e ≠ .task i c) : taken a b w e w' = 0 :=
  if_neg fun ⟨_, _, hobs⟩ => not_observes he hobs

theorem lost_eq_zero (he : ∀ i c, e ≠ .task i c) : lost a b w e w' = 0 := by
  have hmiss : ¬ w.MissesExit a b e := fun ⟨_, _, _, hobs, _⟩ => not_observes he hobs
  have hdrop : ¬ w.DropsReceivers a e := fun h => h.elim (not_observes he) (not_observes he)
  rw [lost, if_neg hmiss, if_neg hdrop]

/-- An event that is no task step changes nothing of it. -/
theorem balance_frame (hw : w.Reachable) (h : w.step e = some w') (he : ∀ i c, e ≠ .task i c)
    (a b : ActorId) : w'.due b a = w.due b a ∧ w'.pending b a = w.pending b a ∧
      w'.queued b a = w.queued b a := by
  cases e with
  | task i c => exact absurd rfl (he i c)
  | spawn config actor supervisor =>
    obtain ⟨-, hspawn⟩ := step_spawn h
    obtain ⟨-, hw'⟩ := spawnOnRuntime_eq hspawn
    have hfresh : w.tasks ⟨w.nextId⟩ = none := hw.fresh.tasks _ le_rfl
    have htask : w'.due b a = w.due b a ∧ w'.pending b a = w.pending b a := by
      by_cases hb : b = ⟨w.nextId⟩
      · subst hb
        have hnew : w'.tasks ⟨w.nextId⟩ = some ⟨.spawned, actor, ∅, [], config⟩ := by
          rw [hw']
          exact update_self ..
        rw [due_eq hnew, pending_eq hnew, due, pending, hfresh]
        exact ⟨rfl, rfl⟩
      · have hsame : w'.tasks b = w.tasks b := by
          rw [hw']
          exact update_of_ne hb ..
        rw [due, due, pending, pending, hsame]
        exact ⟨rfl, rfl⟩
    refine ⟨htask.1, htask.2, ?_⟩
    by_cases ha : a = ⟨w.nextId⟩
    · subst ha
      have hnew : w'.control ⟨w.nextId⟩ = .new config.mailboxCapacity := by
        rw [hw']
        exact update_self ..
      have hempty : (w.control ⟨w.nextId⟩).queue = [] :=
        (hw.wired _).queue_eq_nil fun s hs => by rw [hfresh] at hs; cases hs
      rw [queued, queued, hnew, hempty]
      rfl
    · refine queued_of_control ?_
      rw [hw']
      exact update_of_ne ha ..
  | _ =>
    obtain ⟨htasks, hcontrol, -⟩ := env_frame h rfl
    rw [due, due, pending, pending, queued, queued, htasks, hcontrol]
    exact ⟨rfl, rfl, rfl⟩

/-- **Every event keeps the balance** of what `b` owes to `a`. -/
theorem balance_step (hw : w.Reachable) (h : w.step e = some w') (a b : ActorId) :
    w'.due b a + w.pending b a + w.queued b a = w.due b a + w'.pending b a + w'.queued b a +
      taken a b w e w' + lost a b w e w' := by
  classical
  by_cases he : ∀ i c, e ≠ .task i c
  · obtain ⟨hdue, hpending, hqueued⟩ := balance_frame hw h he a b
    rw [hdue, hpending, hqueued, taken_eq_zero he, lost_eq_zero he]
    rfl
  obtain ⟨i, c, rfl⟩ : ∃ i c, e = .task i c := by simpa using he
  obtain ⟨t, x, w₁, t', ht, hobs, hacc, -, hmove, htasks, hcontrol, -⟩ := task_move h
  have hshared := hacc.balance a b
  have hqueued : w'.queued b a = w₁.queued b a := queued_of_control (congrFun hcontrol a)
  rw [← hqueued] at hshared
  have htakes : w.TakesExit a b (.task i c) ↔
      i = a ∧ ∃ r trap, x = .control (some (.linkedExit b r)) trap := by
    constructor
    · rintro ⟨r, trap, hx⟩
      obtain ⟨rfl, hy⟩ := (hobs _ _).mp hx
      exact ⟨rfl, r, trap, hy.symm⟩
    · rintro ⟨rfl, r, trap, rfl⟩
      exact ⟨r, trap, (hobs _ _).mpr ⟨rfl, rfl⟩⟩
  have hmisses : w.MissesExit a b (.task i c) ↔
      i = b ∧ t.phase.releases a x = true ∧ (x = .sent → (w.control a).isOpen = false) := by
    constructor
    · rintro ⟨s, y, hs, hy, hrelease, hsent⟩
      obtain ⟨rfl, rfl⟩ := (hobs _ _).mp hy
      obtain rfl : t = s := Option.some.inj (ht.symm.trans hs)
      exact ⟨rfl, hrelease, hsent⟩
    · rintro ⟨rfl, hrelease, hsent⟩
      exact ⟨t, x, ht, (hobs _ _).mpr ⟨rfl, rfl⟩, hrelease, hsent⟩
  have hdrops : w.DropsReceivers a (.task i c) ↔ i = a ∧ (x = .finished ∨ x = .panicked) := by
    rw [DropsReceivers, hobs, hobs, ← and_or_left, eq_comm, eq_comm (a := x), eq_comm (a := x)]
  have hlocal : w'.due b a + w.pending b a = w.due b a + w'.pending b a +
      if i = b ∧ t.phase.releases a x = true then 1 else 0 := by
    by_cases hi : i = b
    · subst hi
      have ht' : w'.tasks i = some t' := by rw [htasks, update_self]
      rw [due_eq ht', due_eq ht, pending_eq ht, pending_eq ht', hmove.balance (hw.tidy ht) a]
      simp
    · have hsame : w'.tasks b = w.tasks b := by rw [htasks, update_of_ne (Ne.symm hi)]
      rw [due, due, pending, pending, hsame]
      simp [hi]
  rw [taken, lost, if_congr htakes rfl rfl, if_congr hmisses rfl rfl, if_congr hdrops rfl rfl]
  omega

/-- **Conservation**: what `b` owes to `a` is still to be sent, queued, taken or lost. -/
theorem conservation (hrun : init.run es = some w) (a b : ActorId) :
    w.due b a = w.pending b a + w.queued b a + tally Runtime.step (taken a b) init es +
      tally Runtime.step (lost a b) init es := by
  refine run_induction (motive := fun es (w : Runtime M A) => w.due b a = w.pending b a +
    w.queued b a + tally Runtime.step (taken a b) init es +
      tally Runtime.step (lost a b) init es) rfl ?_ hrun
  intro es w e w' hrun ih hst
  have hstep := balance_step ⟨es, hrun⟩ hst a b
  rw [tally_concat hrun hst, tally_concat hrun hst]
  omega

theorem occurs_takesExit_iff : Occurs Runtime.step (fun w e _ => w.TakesExit a b e) w es ↔
    0 < tally Runtime.step (taken a b) w es := by
  have htaken : (fun (w : Runtime M A) e w' => 0 < taken a b w e w') =
      fun w e _ => w.TakesExit a b e := by
    funext w e w'
    by_cases hw : w.TakesExit a b e <;> simp [taken, hw]
  rw [tally_pos, htaken]

theorem along_losesExit_iff : Along Runtime.step (fun w e _ => ¬ w.LosesExit a b e) w es ↔
    tally Runtime.step (lost a b) w es = 0 := by
  have hlost : (fun (w : Runtime M A) e w' => lost a b w e w' = 0) =
      fun w e _ => ¬ w.LosesExit a b e := by
    funext w e w'
    by_cases hmiss : w.MissesExit a b e <;> by_cases hdrop : w.DropsReceivers a e <;>
      simp [lost, LosesExit, hmiss, hdrop]
  rw [tally_eq_zero, hlost]

/-! ### The links that are not heard of -/

/-- No control message is queued, and nobody has one to send. -/
structure ControlSettled (w : Runtime M A) : Prop where
  queue : ∀ i, (w.control i).queue = []
  owed : ∀ i t, w.tasks i = some t → t.phase.owed = none
  targets : ∀ i t, w.tasks i = some t → t.phase.targets = ∅

/-- `a` holds `b` as a link, `b` has ended abnormally, and no control message is in flight. -/
structure Bereft (w : Runtime M A) (a b : ActorId) : Prop where
  link : ∃ t, w.tasks a = some t ∧ b ∈ t.links
  ended : ∃ t e, w.tasks b = some t ∧ t.phase = .done e ∧ e.abnormal = true
  settled : w.ControlSettled

/-- `b` has gone through `finish_actor` with `a` among its links. -/
def ExitsHolding (w : Runtime M A) (b a : ActorId) : Prop :=
  ∃ t r, w.tasks b = some t ∧ t.phase = .done (.exited r) ∧ a ∈ t.links

/-- An actor that takes `Link(b)` holds `b`. -/
theorem mem_links_of_takesLink (h : w.step e = some w') (htakes : w.TakesLink a b e) :
    ∃ t, w'.tasks a = some t ∧ b ∈ t.links := by
  obtain ⟨x, hobs, hx⟩ : ∃ x, w.Observes a e x ∧ x.links b = true := by
    rcases htakes with hobs | ⟨trap, hobs⟩
    · exact ⟨_, hobs, by simp [Input.links]⟩
    · exact ⟨_, hobs, by simp [Input.links]⟩
  obtain ⟨t, w₁, t', -, -, hstep, rfl⟩ := hobs.step h
  exact ⟨t', by simp [setTask], (Task.step_move hstep).mem_links hx⟩

/-- A link is kept by each step in which its holder does not take `Unlink(b)`. -/
theorem mem_links_of_step {t : Task M A} (hw : w.Reachable) (hst : w.step e = some w')
    (ht : w.tasks a = some t) (hmem : b ∈ t.links)
    (hno : ¬ w.Observes a e (.envelope (some (.unlink b)))) :
    ∃ t', w'.tasks a = some t' ∧ b ∈ t'.links := by
  rcases tasks_step hst a with hsame | ⟨c, s, x, w₁, t', -, hs, -, hobs, hstep, ht'⟩ |
    ⟨_, _, _, -, hi, -⟩
  · exact ⟨t, hsame.trans ht, hmem⟩
  · obtain rfl : t = s := Option.some.inj (ht.symm.trans hs)
    refine ⟨t', ht', ?_⟩
    cases Task.step_links hstep with
    | keep hl => rwa [hl]
    | insert peer _ _ hl => rw [hl]; exact Finset.mem_insert_of_mem hmem
    | erase peer hx hl =>
      rw [hl]
      refine Finset.mem_erase.mpr ⟨?_, hmem⟩
      rintro rfl
      exact hno (hx ▸ hobs)
  · exact absurd hi (hw.fresh.ne_nextId ht)

/-- **A link is recorded**: an actor that has taken `Link(b)` and never `Unlink(b)` holds `b`. -/
theorem holds_of_takesLink (hrun : init.run es = some w)
    (hlink : Occurs Runtime.step (fun w e _ => w.TakesLink a b e) init es)
    (hunlink : Along Runtime.step
      (fun w e _ => ¬ w.Observes a e (.envelope (some (.unlink b)))) init es) :
    ∃ t, w.tasks a = some t ∧ b ∈ t.links := by
  refine run_induction (motive := fun es (w : Runtime M A) =>
    Occurs Runtime.step (fun w e _ => w.TakesLink a b e) init es →
    Along Runtime.step (fun w e _ => ¬ w.Observes a e (.envelope (some (.unlink b)))) init es →
    ∃ t, w.tasks a = some t ∧ b ∈ t.links) (fun h => h.elim) ?_ hrun hlink hunlink
  intro es w e w' hrun ih hst hlink hunlink
  rcases (occurs_concat hrun hst).mp hlink with hlink | htakes
  · obtain ⟨hbefore, hlast⟩ := along_concat.mp hunlink
    obtain ⟨t, ht, hmem⟩ := ih hlink hbefore
    exact mem_links_of_step ⟨es, hrun⟩ hst ht hmem (hlast w w' hrun hst)
  · exact mem_links_of_takesLink hst htakes

/-- What `b` owes to `a` once it has ended. -/
theorem Bereft.due_eq_one (h : w.Bereft a b) : w.due b a = 1 ↔ w.ExitsHolding b a := by
  obtain ⟨t, e, ht, hp, habnormal⟩ := h.ended
  rw [due_eq ht, Task.dueTo, hp]
  constructor
  · intro hdue
    obtain ⟨hpropagates, hmem⟩ : (Phase.done e : Phase M).propagates = true ∧ a ∈ t.links := by
      by_contra hnot
      rw [if_neg hnot] at hdue
      cases hdue
    cases e with
    | exited r => exact ⟨t, r, ht, hp, hmem⟩
    | _ => cases hpropagates
  · rintro ⟨s, r, hs, hp', hmem⟩
    obtain rfl : t = s := Option.some.inj (ht.symm.trans hs)
    cases hp.symm.trans hp'
    exact if_pos ⟨habnormal, hmem⟩

/-- What is not owed is not heard. -/
theorem not_heard (hrun : init.run es = some w) (h : w.due b a = 0) :
    ¬ Occurs Runtime.step (fun w e _ => w.TakesExit a b e) init es := by
  have hconserved := conservation hrun a b
  rw [occurs_takesExit_iff]
  omega

/-- **Hearing of an exit.** Where `a` holds a link to `b`, `b` has ended abnormally and no
control message is in flight, `a` has taken a `LinkedExit` of `b` iff `b` went through
`finish_actor` with `a` among its own links and the message was not lost with `a`. -/
theorem hears_iff (hrun : init.run es = some w) (h : w.Bereft a b) :
    Occurs Runtime.step (fun w e _ => w.TakesExit a b e) init es ↔
      w.ExitsHolding b a ∧ Along Runtime.step (fun w e _ => ¬ w.LosesExit a b e) init es := by
  have hconserved := conservation hrun a b
  have hqueued : w.queued b a = 0 := by rw [queued, h.settled.queue, List.countP_nil]
  obtain ⟨t, e, ht, hp, -⟩ := h.ended
  have hpending : w.pending b a = 0 := by
    rw [pending_eq ht]
    exact Task.pendingTo_eq_zero (by rw [hp]; rfl)
  have hle : w.due b a ≤ 1 := by
    rw [due_eq ht, Task.dueTo]
    split_ifs <;> omega
  rw [occurs_takesExit_iff, along_losesExit_iff, ← h.due_eq_one]
  omega

/-- At rest, tested at the ids handed out so far. -/
theorem controlSettled_of_lt (hw : w.Reachable)
    (h : ∀ n < w.nextId, (w.control ⟨n⟩).queue = [] ∧
      ∀ t ∈ w.tasks ⟨n⟩, t.phase.owed = none ∧ t.phase.targets = ∅) : w.ControlSettled where
  queue i := by
    cases hi : w.tasks i with
    | none => exact (hw.wired i).queue_eq_nil fun s hs => by rw [hi] at hs; cases hs
    | some s => exact (h i.n (hw.fresh.lt_nextId hi)).1
  owed i t ht := ((h i.n (hw.fresh.lt_nextId ht)).2 t ht).1
  targets i t ht := ((h i.n (hw.fresh.lt_nextId ht)).2 t ht).2

/-! ### Two actors -/

/-- Actor 2 tells its link and runs to its end; actor 1, which traps exits, takes the message. -/
def toldAndTrapped : List (RtEvent Unit Unit) :=
  .post ⟨2⟩ .kill :: takes ⟨2⟩ ++
    [.task ⟨2⟩ (.postStop (.ok ())), .task ⟨2⟩ (.next ⟨1⟩), .task ⟨2⟩ .lookup, .task ⟨2⟩ .send,
      .task ⟨2⟩ .linksDone, .task ⟨2⟩ .unregister, .task ⟨2⟩ .finish,
      .task ⟨1⟩ (.recvControl true)]

/-- The handshake is complete, then actor 2 is killed and actor 1 hears of it. -/
def heardExit : List (RtEvent Unit Unit) :=
  linking ++ answering ++ [.task ⟨2⟩ .send, .task ⟨1⟩ (.recvControl false)] ++ toldAndTrapped

/-- The result where the handshake was complete before the exit. -/
theorem hears_iff_complete :
    Occurs Runtime.step (fun w e _ => w.TakesExit ⟨1⟩ ⟨2⟩ e) (init : Runtime Unit Unit) heardExit ↔
      (after heardExit).ExitsHolding ⟨2⟩ ⟨1⟩ ∧
        Along Runtime.step (fun w e _ => ¬ w.LosesExit ⟨1⟩ ⟨2⟩ e) init heardExit := by
  have hrun : init.run heardExit = some (after heardExit) := rfl
  have hsettled : (after heardExit).ControlSettled :=
    controlSettled_of_lt ⟨_, hrun⟩ (by decide +kernel)
  exact hears_iff hrun ⟨⟨_, rfl, Finset.mem_insert_self _ _⟩, ⟨_, _, rfl, rfl, rfl⟩, hsettled⟩

/-- Actor 2 is killed before anyone links to it. -/
def killed : List (RtEvent Unit Unit) :=
  [.spawn .default () none, .spawn .default () none] ++ starts ⟨1⟩ ++ starts ⟨2⟩ ++
    .post ⟨2⟩ .kill :: takes ⟨2⟩

/-- Actor 2 has nobody to tell and runs to its end. -/
def dying : List (RtEvent Unit Unit) :=
  [.task ⟨2⟩ (.postStop (.ok ())), .task ⟨2⟩ .linksDone, .task ⟨2⟩ .unregister, .task ⟨2⟩ .finish]

/-- Actor 1 takes a request to link to actor 2, and looks it up. -/
def lateLink : List (RtEvent Unit Unit) :=
  .post ⟨1⟩ (.link ⟨2⟩) :: takes ⟨1⟩ ++ [.task ⟨1⟩ .lookup]

/-- Actor 1 takes `Link(2)` once actor 2 has gone, or while actor 2 is in `finish_actor`. Either
way it holds the link and never hears of the exit. -/
theorem late_link_unheard :
    (∃ w, init.run (killed ++ dying ++ lateLink) = some w ∧ w.Bereft ⟨1⟩ ⟨2⟩ ∧
      ¬ Occurs Runtime.step (fun w e _ => w.TakesExit ⟨1⟩ ⟨2⟩ e) init
        (killed ++ dying ++ lateLink)) ∧
    ∃ w, init.run (killed ++ lateLink ++ [.task ⟨1⟩ .send] ++ dying) = some w ∧
      w.Bereft ⟨1⟩ ⟨2⟩ ∧
      ¬ Occurs Runtime.step (fun w e _ => w.TakesExit ⟨1⟩ ⟨2⟩ e) init
        (killed ++ lateLink ++ [.task ⟨1⟩ .send] ++ dying) := by
  have hgone : init.run (killed ++ dying ++ lateLink) =
      some (after (killed ++ dying ++ lateLink)) := rfl
  have hgoing : init.run (killed ++ lateLink ++ [.task ⟨1⟩ .send] ++ dying) =
      some (after (killed ++ lateLink ++ [.task ⟨1⟩ .send] ++ dying)) := rfl
  refine ⟨⟨_, hgone, ⟨⟨_, rfl, Finset.mem_insert_self _ _⟩, ⟨_, _, rfl, rfl, rfl⟩, ?_⟩,
    not_heard hgone rfl⟩, _, hgoing, ⟨⟨_, rfl, Finset.mem_insert_self _ _⟩,
      ⟨_, _, rfl, rfl, rfl⟩, ?_⟩, not_heard hgoing rfl⟩
  · exact controlSettled_of_lt ⟨_, hgone⟩ (by decide +kernel)
  · exact controlSettled_of_lt ⟨_, hgoing⟩ (by decide +kernel)

end Runtime

end LaneSwitchboards
