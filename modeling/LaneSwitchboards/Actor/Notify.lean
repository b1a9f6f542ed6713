import LaneSwitchboards.Actor.Effects
import LaneSwitchboards.Actor.Stages

/-!
# What the supervisor hears of an exit

Only `handle_message` calls `notify_supervisor`. An actor whose supervisor keeps its channel
open therefore sends one `RestartSignal` when `handle_message` ends it, and none when it ends
in another way, be it abnormally: a failed `pre_start` or `on_upgrade`, a `Kill` envelope and
a `LinkedExit` are silent (`SilentExit`).

* **Account** (`Account`): for each phase of the task, how many signals were accepted and
  whether the run was free of silent exits so far. A local step keeps it (`Account.step`), so
  does every event of the runtime (`Ledger.step`) and every run from the spawn
  (`Ledger.run`).
* **Result** (`signals_iff_no_silentExit`): of a task that has ended, the supervisor got
  exactly the signals it is due iff the run had no silent exit of that task.
-/

namespace LaneSwitchboards

/-- The completion of the send in `notify_supervisor`. -/
def Input.notifies {M A : Type} : Phase M → Input M A → Bool
  | .sendSignal _ _, .sent => true
  | _, _ => false

/-- The signals due to the supervisor of a task that has ended. -/
def Termination.signalsDue (e : Termination) : ℕ := if e.abnormal then 1 else 0

/-- The account of a task with its supervisor channel `k`: `n` of its signals were accepted,
and `quiet` says that it has made no silent exit. -/
structure Account {M : Type} (k : SupId) (p : Phase M) (n : ℕ) (quiet : Prop) : Prop where
  running : p.running = true → n = 0 ∧ quiet
  notify : ∀ r, p = .notify r → n = 0 ∧ quiet ∧ shouldPropagateLinkedExit r = true
  sendSignal : ∀ k' r, p = .sendSignal k' r →
    k' = k ∧ n = 0 ∧ quiet ∧ shouldPropagateLinkedExit r = true
  ended : ∀ e, p.termination = some e → e ≠ .panicked → (n = e.signalsDue ↔ quiet)

namespace Account

variable {M A : Type} {k : SupId} {p p' : Phase M} {x : Input M A} {n : ℕ} {quiet : Prop}

/-- A task in its loop owes nothing. -/
theorem of_running (hp : p.running = true) (hn : n = 0) (hq : quiet) : Account k p n quiet where
  running _ := ⟨hn, hq⟩
  notify r h := by rw [h] at hp; cases hp
  sendSignal k' r h := by rw [h] at hp; cases hp
  ended e h := by rw [Phase.termination_of_running hp] at h; cases h

/-- The account of a task that is ending, from the balance. -/
theorem of_ended {e : Termination} (hp : p.termination = some e)
    (h : e ≠ .panicked → (n = e.signalsDue ↔ quiet)) : Account k p n quiet where
  running hrun := by rw [Phase.termination_of_running hrun] at hp; cases hp
  notify r hr := by rw [hr] at hp; cases hp
  sendSignal k' r hr := by rw [hr] at hp; cases hp
  ended e' he' hne := by
    obtain rfl : e = e' := Option.some.inj (hp.symm.trans he')
    exact h hne

theorem of_notify {r : ExitReason} (hn : n = 0) (hq : quiet)
    (hr : shouldPropagateLinkedExit r = true) : Account k (.notify r : Phase M) n quiet where
  running h := by cases h
  notify r' h := by cases h; exact ⟨hn, hq, hr⟩
  sendSignal k' r' h := by cases h
  ended e h := by cases h

theorem of_sendSignal {r : ExitReason} (hn : n = 0) (hq : quiet)
    (hr : shouldPropagateLinkedExit r = true) : Account k (.sendSignal k r : Phase M) n quiet where
  running h := by cases h
  notify r' h := by cases h
  sendSignal k' r' h := by cases h; exact ⟨rfl, hn, hq, hr⟩
  ended e h := by cases h

theorem not_notifies_of_running (hp : p.running = true) : x.notifies p = false := by
  cases p <;> first | rfl | cases hp

/-- **A local step keeps the account**, provided the lookup of the supervisor finds `k`. -/
theorem step (h : Account k p n quiet) (hx : Progress p x p')
    (hk : ∀ r s, p = .notify r → x = .supervisor s → s = some k) :
    Account k p' (if x.notifies p then n + 1 else n) (quiet ∧ x.silent p = false) := by
  cases hx with
  | stay hp hs hp' =>
    obtain ⟨rfl, hq⟩ := h.running hp
    exact of_running hp' (by rw [not_notifies_of_running hp]; rfl) ⟨hq, hs⟩
  | fail r hp hs hr hp' =>
    obtain ⟨rfl, hq⟩ := h.running hp
    rw [not_notifies_of_running hp, hp']
    exact of_notify rfl ⟨hq, hs⟩ hr
  | lookup r k' hp hx hp' =>
    obtain ⟨rfl, hq, hr⟩ := h.notify r hp
    obtain rfl : k' = k := Option.some.inj (hk r _ hp hx)
    subst hp hx hp'
    exact of_sendSignal rfl ⟨hq, rfl⟩ hr
  | orphan r hp hx hp' => cases hk r _ hp hx
  | notified r k' hp hx hp' =>
    obtain ⟨rfl, rfl, hq, hr⟩ := h.sendSignal k' r hp
    subst hp hx hp'
    refine of_ended rfl fun _ => ?_
    simp [Termination.signalsDue, Termination.abnormal, hr, hq, Input.silent, Input.notifies]
  | leave r hp hs hp' =>
    obtain ⟨rfl, hq⟩ := h.running hp
    rw [not_notifies_of_running hp, hs, hp']
    refine of_ended rfl fun _ => ?_
    cases hr : shouldPropagateLinkedExit r <;>
      simp [Termination.signalsDue, Termination.abnormal, hr, hq]
  | startFailed hp hs hp' =>
    obtain ⟨rfl, hq⟩ := h.running (by rw [hp]; rfl)
    rw [hs, hp, hp']
    exact of_ended rfl fun _ => by simp [Termination.signalsDue, Termination.abnormal,
      Input.notifies]
  | ending e hp hs hp' =>
    have hn : x.notifies p = false := by cases p <;> first | rfl | cases hp
    rw [hn, hs]
    exact of_ended hp' fun hne => by simpa using h.ended e hp hne
  | panic hp hx hp' =>
    rw [hp']
    exact of_ended rfl fun hne => absurd rfl hne

end Account

namespace Runtime

open Function Transition

variable {M A : Type}

/-- How many signals of `i` the supervisor channel `k` has accepted. -/
def signalsFrom (w : Runtime M A) (k : SupId) (i : ActorId) : ℕ :=
  (w.signals k).accepted.countP (·.childId = i)

/-- The event ends the task of `i` abnormally without `notify_supervisor`: `pre_start` or
`on_upgrade` fails, or the task takes a `Kill` envelope or a `LinkedExit` it does not trap. -/
def SilentExit (w : Runtime M A) (i : ActorId) (e : RtEvent M A) : Prop :=
  ∃ t x, w.tasks i = some t ∧ w.Observes i e x ∧ x.silent t.phase = true

variable {w w' w₀ w₁ : Runtime M A} {i : ActorId} {k : SupId} {e : RtEvent M A}
  {es : List (RtEvent M A)} {quiet : Prop} {t : Task M A} {c : Choice} {x : Input M A}

/-- What the shared state answers decides whether a step is a silent exit. -/
theorem silentExit_task (ht : w.tasks i = some t) (hx : w.observe i t.phase c = some (x, w₁)) :
    w.SilentExit i (.task i c) ↔ x.silent t.phase = true := by
  constructor
  · rintro ⟨t', x', ht', hobs, hs⟩
    obtain rfl : t = t' := Option.some.inj (ht.symm.trans ht')
    rwa [(observes_task ht hx).mp hobs] at hs
  · exact fun hs => ⟨t, x, ht, (observes_task ht hx).mpr rfl, hs⟩

/-- A channel that is open after an event on an id below the counter was open before. -/
theorem isOpen_signals_of_step (hk : k < w.nextSup) (h : w.step e = some w')
    (hopen : (w'.signals k).isOpen = true) : (w.signals k).isOpen = true := by
  rcases signals_step h k with ⟨-, -, hback⟩ | ⟨_, _, _, _, _, -, -, -, -, -, hopen', -⟩ | ⟨rfl, -⟩
  · exact hback hopen
  · exact hopen'
  · exact absurd hk (lt_irrefl _)

/-- **Signals name their sender**: an accepted signal carries the id of a spawned task. -/
theorem Reachable.sender_spawned (h : w.Reachable) {s : RestartSignal}
    (hs : s ∈ (w.signals k).accepted) : ∃ t, w.tasks s.childId = some t := by
  obtain ⟨es, hes⟩ := h
  refine invariant_run
    (P := fun w => ∀ s ∈ (w.signals k).accepted, ∃ t, w.tasks s.childId = some t) ?_ ?_ hes s hs
  · intro w e w' ih h s hs
    rcases signals_step h k with ⟨hacc, -⟩ | ⟨i, c, t, t', r, -, ht, -, -, -, -, hpush⟩ |
      ⟨-, -, n, hn⟩
    · rw [hacc] at hs
      obtain ⟨t, ht⟩ := ih s hs
      exact tasks_mono h ht
    · rw [hpush, Chan.accepted_push, List.mem_append, List.mem_singleton] at hs
      rcases hs with hs | rfl
      · obtain ⟨t, ht⟩ := ih s hs
        exact tasks_mono h ht
      · exact tasks_mono h ht
    · rw [hn] at hs
      cases hs
  · intro s hs
    cases hs

/-- The task of `i` takes no message any more: `handle_message` has failed, or the loop was
left, or it will not be entered. -/
def HasLeft (w : Runtime M A) (i : ActorId) : Prop :=
  ∃ t, w.tasks i = some t ∧ t.phase.running = false

/-- A task that takes no message does not come back. -/
theorem HasLeft.step (hl : w.HasLeft i) (hf : w.Fresh) (h : w.step e = some w') :
    w'.HasLeft i := by
  obtain ⟨t, ht, hleft⟩ := hl
  rcases tasks_step h i with hsame | ⟨c, s, x, w₁, t', -, hs, -, -, hstep, ht'⟩ |
    ⟨_, _, _, -, hi, -⟩
  · exact ⟨t, hsame.trans ht, hleft⟩
  · obtain rfl : t = s := Option.some.inj (ht.symm.trans hs)
    refine ⟨t', ht', ?_⟩
    by_contra hrun
    rw [Task.running_of_step hstep (by simpa using hrun)] at hleft
    cases hleft
  · exact absurd hi (hf.ne_nextId ht)

theorem HasLeft.run (hl : w.HasLeft i) (hf : w.Fresh) (h : w.run es = some w') :
    w'.HasLeft i := by
  have hboth := invariant_run (P := fun w : Runtime M A => w.Fresh ∧ w.HasLeft i)
    (fun hv hst => ⟨hv.1.step hst, hv.2.step hv.1 hst⟩) ⟨hf, hl⟩ h
  exact hboth.2

/-- **A queued signal comes from a task that takes no message any more.** -/
theorem Reachable.sender_left (h : w.Reachable) {s : RestartSignal}
    (hs : s ∈ (w.signals k).queue) : w.HasLeft s.childId := by
  obtain ⟨es, hes⟩ := h
  have hboth := invariant_run
    (P := fun w : Runtime M A => w.Fresh ∧ ∀ s ∈ (w.signals k).queue, w.HasLeft s.childId) ?_
    ⟨fresh_init, fun s hs => by cases hs⟩ hes
  · exact hboth.2 s hs
  · rintro w e w' ⟨hf, ih⟩ h
    refine ⟨hf.step h, fun s hs => ?_⟩
    rcases signals_step h k with ⟨-, hq, -⟩ | ⟨i, c, t, t', r, -, ht, hp, -, -, -, hpush⟩ |
      ⟨-, -, n, hn⟩
    · exact (ih s (hq.subset hs)).step hf h
    · rw [hpush, Chan.queue_push, List.mem_append, List.mem_singleton] at hs
      rcases hs with hs | rfl
      · exact (ih s hs).step hf h
      · have hleft : w.HasLeft i := ⟨t, ht, by rw [hp]; rfl⟩
        exact hleft.step hf h
    · rw [hn] at hs
      cases hs

/-! ### The account along a run -/

/-- The account of `i` with its supervisor, in a state of the runtime. -/
structure Ledger (w : Runtime M A) (i : ActorId) (k : SupId) (quiet : Prop) : Prop where
  fresh : w.Fresh
  supervisor : k < w.nextSup
  account : ∃ t, w.tasks i = some t ∧ Account k t.phase (w.signalsFrom k i) quiet ∧
    (t.phase.termination = none → w.registry i = some ⟨some k⟩)

/-- Events other than the steps of `i` leave its account alone. -/
theorem Ledger.step_other (hl : w.Ledger i k quiet) (h : w.step e = some w')
    (he : ∀ c, e ≠ .task i c) : w'.Ledger i k quiet := by
  obtain ⟨hf, hk, t, ht, hacc, hreg⟩ := hl
  have ht' : w'.tasks i = some t := hf.tasks_of_ne h ht he
  have hcount : w'.signalsFrom k i = w.signalsFrom k i := by
    unfold signalsFrom
    rcases signals_step h k with ⟨hsame, -⟩ | ⟨j, c, _, _, r, rfl, -, -, -, -, -, hpush⟩ | ⟨rfl, -⟩
    · rw [hsame]
    · have hj : j ≠ i := fun hj => he c (by rw [hj])
      simp [hpush, hj]
    · exact absurd hk (lt_irrefl _)
  have hreg' : w'.registry i = w.registry i := by
    rcases registry_step h i with hsame | ⟨c, _, _, rfl, -⟩ | ⟨_, _, _, -, hi, -⟩
    · exact hsame
    · exact absurd rfl (he c)
    · exact absurd hi (hf.ne_nextId ht)
  refine ⟨hf.step h, hk.trans_le (counters_step h).2, t, ht', ?_, ?_⟩
  · rwa [hcount]
  · rwa [hreg']

/-- **The count of signals**: a step of `i` adds one exactly where it completes its
notification. -/
theorem signalsFrom_access {p : Phase M} (hacc : Access w i p x w₁)
    (hopen : (w.signals k).isOpen = true) (hk : ∀ k' r, p = .sendSignal k' r → k' = k) :
    w₁.signalsFrom k i = if x.notifies p then w.signalsFrom k i + 1 else w.signalsFrom k i := by
  cases hacc with
  | @sendSignal k' r ch h =>
    obtain rfl := hk k' r rfl
    rcases Chan.send_eq_some.mp h with ⟨-, rfl⟩ | ⟨hclosed, -⟩
    · simp [signalsFrom, setSignals, Input.notifies]
    · rw [hopen] at hclosed
      cases hclosed
  | internal hx =>
    have hn : x.notifies p = false := by cases p <;> cases x <;> first | rfl | cases hx
    rw [hn]
    rfl
  | unregister | finish | panic =>
    have hn (y : Input M A) (hy : y ≠ .sent) : y.notifies p = false := by
      cases p <;> cases y <;> first | rfl | exact absurd rfl hy
    rw [hn _ (by simp)]
    rfl
  | _ => rfl

theorem supervisor_access {p : Phase M} {s : Option SupId}
    (h : Access w i p (.supervisor s) w₁) : s = w.supervisorSender i := by
  cases h with
  | lookupSupervisor => rfl
  | internal hx => cases hx

/-- A step of `i` that finds the supervisor channel open. -/
theorem Ledger.step_own (hl : w.Ledger i k quiet) (h : w.step (.task i c) = some w')
    (hopen : (w'.signals k).isOpen = true) :
    w'.Ledger i k (quiet ∧ ¬ w.SilentExit i (.task i c)) := by
  obtain ⟨hf, hk, t, ht, hacc, hreg⟩ := hl
  have hopen₀ := isOpen_signals_of_step hk h hopen
  have hf' := hf.step h
  have hk' := hk.trans_le (counters_step h).2
  obtain ⟨s, x, w₁, t', hs, hx, hstep, rfl⟩ := taskStep_inv h
  obtain rfl : t = s := Option.some.inj (ht.symm.trans hs)
  have haccess := observe_access hx
  have hprog := Task.step_progress hstep
  -- while the task has no end it is registered with its supervisor
  have hlookup : ∀ r s, t.phase = .notify r → x = .supervisor s → s = some k := by
    intro r s hp hxs
    subst hxs
    rw [supervisor_access haccess, supervisorSender, hreg (by rw [hp]; rfl)]
    rfl
  have hcount := signalsFrom_access haccess hopen₀ fun k' r hp => (hacc.sendSignal k' r hp).1
  refine ⟨hf', hk', t', by simp [setTask], ?_, ?_⟩
  · have := hacc.step hprog hlookup
    rw [← hcount] at this
    rwa [silentExit_task ht hx, Bool.not_eq_true]
  · intro hnone
    have hsame : w₁.registry i = w.registry i := by
      rcases haccess.registry with hsame | ⟨rfl, -⟩
      · rw [hsame]
      · exact absurd hnone (Task.termination_unregistered hstep)
    simpa [setTask, hsame] using hreg (Task.termination_of_step hstep hnone)

/-- **One event keeps the account**, as long as the supervisor's channel stays open. -/
theorem Ledger.step (hl : w.Ledger i k quiet) (h : w.step e = some w')
    (hopen : (w'.signals k).isOpen = true) : w'.Ledger i k (quiet ∧ ¬ w.SilentExit i e) := by
  by_cases he : ∃ c, e = .task i c
  · obtain ⟨c, rfl⟩ := he
    exact hl.step_own h hopen
  · have hne : ∀ c, e ≠ .task i c := fun c hc => he ⟨c, hc⟩
    have hquiet : ¬ w.SilentExit i e := fun ⟨_, _, _, ⟨c, _, _, hc, _⟩, _⟩ => he ⟨c, hc⟩
    have hiff : (quiet ∧ ¬ w.SilentExit i e) = quiet := propext (and_iff_left hquiet)
    rw [hiff]
    exact hl.step_other h hne

/-- The run so far has no silent exit of `i`. -/
def Quiet (w : Runtime M A) (i : ActorId) (es : List (RtEvent M A)) : Prop :=
  Along Runtime.step (fun w e _ => ¬ w.SilentExit i e) w es

/-- **A run keeps the account.** -/
theorem Ledger.run (hl : w₀.Ledger i k True) (h : w₀.run es = some w')
    (hopen : (w'.signals k).isOpen = true) : w'.Ledger i k (w₀.Quiet i es) := by
  revert hopen
  refine run_induction
    (motive := fun es w => k < w.nextSup ∧
      ((w.signals k).isOpen = true → w.Ledger i k (w₀.Quiet i es)))
    ⟨hl.supervisor, fun _ => ?_⟩ ?_ h |>.2
  · simpa [Quiet] using hl
  · rintro es w e w' hrun ⟨hk, ih⟩ hst
    refine ⟨hk.trans_le (counters_step hst).2, fun hopen => ?_⟩
    have hstep := (ih (isOpen_signals_of_step hk hst hopen)).step hst hopen
    have hiff : (w₀.Quiet i (es ++ [e])) = (w₀.Quiet i es ∧ ¬ w.SilentExit i e) := by
      refine propext (along_concat.trans (and_congr_right fun _ => ?_))
      exact ⟨fun hall => hall w w' hrun hst, fun hs w₁ _ h₁ _ => by
        obtain rfl : w = w₁ := Option.some.inj (hrun.symm.trans h₁)
        exact hs⟩
    rwa [hiff]

/-- The account opens with the spawn. -/
theorem ledger_spawn {config : ActorConfig} {actor : A} (hw : w.Reachable) (hk : k < w.nextSup)
    (hspawn : w.spawnOnRuntime config actor (some k) = some (i, w₀)) : w₀.Ledger i k True := by
  have hstep : w.step (.spawn config actor (some k)) = some w₀ :=
    step_of_spawn (fun _ h => Option.some.inj h ▸ hk) hspawn
  have hf := hw.fresh
  have hf₀ := hf.step hstep
  obtain ⟨rfl, rfl⟩ := spawnOnRuntime_eq hspawn
  have hcount : w.signalsFrom k ⟨w.nextId⟩ = 0 := by
    refine List.countP_eq_zero.mpr fun s hs => ?_
    obtain ⟨t, ht⟩ := hw.sender_spawned hs
    simpa using hf.ne_nextId ht
  exact ⟨hf₀, hk, _, update_self .., .of_running rfl hcount trivial, fun _ => update_self ..⟩

/-- **What the supervisor hears of an exit.** An actor that was spawned with a supervisor
channel and has ended without an escaping panic, while the channel stayed open, has sent the
signals it is due, one if it ended abnormally and none otherwise, exactly when no step of
the run was a silent exit of it. -/
theorem signals_iff_no_silentExit (config : ActorConfig) (actor : A) {ended : Termination}
    (hw : w.Reachable) (hk : k < w.nextSup)
    (hspawn : w.spawnOnRuntime config actor (some k) = some (i, w₀))
    (hrun : w₀.run es = some w') (hopen : (w'.signals k).isOpen = true)
    (hdone : w'.phase i = some (.done ended)) (hpanic : ended ≠ .panicked) :
    ((ended.abnormal = true → w'.signalsFrom k i = 1) ∧
      (ended.abnormal = false → w'.signalsFrom k i = 0)) ↔ w₀.Quiet i es := by
  obtain ⟨-, -, t, ht, hacc, -⟩ := (ledger_spawn hw hk hspawn).run hrun hopen
  have hphase : t.phase = .done ended := by simpa [phase, ht] using hdone
  have hdue := hacc.ended ended (by rw [hphase]; rfl) hpanic
  rw [← hdue, Termination.signalsDue]
  cases ended.abnormal <;> simp

/-- The actor with id 1 starts, takes one envelope, does what `rest` says, then ends. -/
def oneEnvelope (env : Envelope Unit Unit) (rest : List Choice) : List (RtEvent Unit Unit) :=
  let start : List Choice := [.poll, .preStart (.ok ()), .recvControl false, .recvMailbox]
  let finish : List Choice := [.postStop (.ok ()), .linksDone, .unregister, .finish]
  .post ⟨1⟩ env :: (start ++ rest ++ finish).map (.task ⟨1⟩)

/-- A `handle` that fails, with the notification it sends. -/
def failingHandle : List (RtEvent Unit Unit) :=
  oneEnvelope (.msg ()) [.handleBegin (.ok ()), .handle (.err "boom") 0, .lookup, .send]

/-- The result at an actor whose `handle` fails: one signal, in a quiet run. -/
theorem signals_iff_no_silentExit_failingHandle : ∃ w w₀ w' : Runtime Unit Unit,
    init.run [.openSignals 4] = some w ∧
    w.spawnOnRuntime .default () (some 0) = some (⟨1⟩, w₀) ∧
    w₀.run failingHandle = some w' ∧
    w'.phase ⟨1⟩ = some (.done (.exited (.error "boom"))) ∧ w'.signalsFrom 0 ⟨1⟩ = 1 ∧
    w₀.Quiet ⟨1⟩ failingHandle := by
  refine ⟨_, _, _, rfl, rfl, rfl, rfl, rfl, ?_⟩
  exact (signals_iff_no_silentExit .default () ⟨[.openSignals 4], rfl⟩ Nat.zero_lt_one rfl rfl rfl
    rfl (by decide)).mp ⟨fun _ => rfl, fun h => by cases h⟩

/-- An actor that takes a `Kill` envelope exits with `Killed`, and its supervisor, whose
channel is open throughout, hears nothing. -/
theorem kill_sends_no_signal : ∃ w w₀ w' : Runtime Unit Unit,
    init.run [.openSignals 4] = some w ∧
    w.spawnOnRuntime .default () (some 0) = some (⟨1⟩, w₀) ∧
    w₀.run (oneEnvelope .kill []) = some w' ∧ (w'.signals 0).isOpen = true ∧
    w'.phase ⟨1⟩ = some (.done (.exited .killed)) ∧
    (Termination.exited .killed).abnormal = true ∧ w'.signalsFrom 0 ⟨1⟩ = 0 :=
  ⟨_, _, _, rfl, rfl, rfl, rfl, rfl, rfl, rfl⟩

end Runtime

end LaneSwitchboards
