import LaneSwitchboards.Lib.Tally
import LaneSwitchboards.Lib.Window
import LaneSwitchboards.Supervisor.Stale

/-!
# The restart intensity

The restart log of a supervisor is a sliding window over the instants at which it has taken
signals, those that it refused included.

* `logs_step`: each step of the supervisor keeps the log of the history (`Logged`).
* `restart_intensity`: on every signal the log is the window of the whole history, the signal is
  refused iff that is larger than `max_restarts`, and no window of `within_secs`, wherever it
  lies, has more signals than that acted upon.
-/

namespace LaneSwitchboards

open SlidingWindow

namespace Instant

/-- The beginning of the window of some seconds. -/
def cutoff (secs : ℕ) (now : Instant) : Instant := now - secs * 1000000000

variable {secs : ℕ} {now later c : Instant}

theorem cutoff_mono (h : now ≤ later) : cutoff secs now ≤ cutoff secs later := sub_le_sub_right h _

theorem cutoff_le : cutoff secs now ≤ now := by
  have hpos : (0 : ℤ) ≤ secs * 1000000000 := by omega
  exact sub_le_self now hpos

theorem cutoff_of_sub (h : now.sub secs = some c) : c = cutoff secs now := by
  rw [sub, Option.ite_none_right_eq_some] at h
  exact (Option.some.inj h.2).symm

end Instant

namespace Supervisor

/-- The intensity action for a signal: the supervisor stops its children and ends, or gives the
child up. -/
def Refused (p : Supervisor) (sig : RestartSignal) (p' : Supervisor) : Prop :=
  match p.config.intensityAction with
  | .shutdownSupervisor => p'.phase = .stopping p.currentRefs.reverse ∧ p'.slots = p.slots
  | .abandonChild => p'.phase = .select ∧ p'.slots = Slot.abandon p.slots sig.childId

/-- A signal is acted upon: the slots that the strategy asks for are restarted. -/
def ActedUpon (p : Supervisor) (sig : RestartSignal) (p' : Supervisor) : Prop :=
  p'.phase = .restart (.signal sig) (p.config.strategy.toRestart p.slots sig.childId)

variable {p p' : Supervisor} {sig : RestartSignal} {now c : Instant}

theorem Refused.phase_eq (h : p.Refused sig p') :
    p'.phase = .stopping p.currentRefs.reverse ∨ p'.phase = .select := by
  unfold Refused at h
  split at h
  · exact .inl h.1
  · exact .inr h.1

/-- A signal is not both. -/
theorem Refused.not_actedUpon (h : p.Refused sig p') : ¬ p.ActedUpon sig p' := by
  intro hacted
  unfold ActedUpon at hacted
  rcases h.phase_eq with hphase | hphase
  · rw [hphase] at hacted
    cases hacted
  · rw [hphase] at hacted
    cases hacted

variable (sig) in
/-- What is made of a signal, by the size of the log. -/
theorem takeSignal_spec (h : now.sub p.config.withinSecs = some c) :
    (p.takeSignal sig now).restartLog = pruneLog p.restartLog c now ∧
    (p.Refused sig (p.takeSignal sig now) ↔
      p.config.maxRestarts < (pruneLog p.restartLog c now).length) ∧
    (p.ActedUpon sig (p.takeSignal sig now) ↔
      (pruneLog p.restartLog c now).length ≤ p.config.maxRestarts) := by
  by_cases hexceeded : p.config.exceeded (pruneLog p.restartLog c now)
  · have hrefused : p.Refused sig (p.takeSignal sig now) := by
      simp only [Refused, takeSignal, h, if_pos hexceeded]
      cases p.config.intensityAction <;> exact ⟨rfl, rfl⟩
    refine ⟨?_, iff_of_true hrefused hexceeded,
      iff_of_false hrefused.not_actedUpon (not_le.mpr hexceeded)⟩
    simp only [takeSignal, h, if_pos hexceeded]
    cases p.config.intensityAction <;> rfl
  · have hacted : p.ActedUpon sig (p.takeSignal sig now) := by
      simp only [ActedUpon, takeSignal, h, if_neg hexceeded]
    refine ⟨?_, iff_of_false (fun hr => hr.not_actedUpon hacted) hexceeded,
      iff_of_true hacted (not_lt.mp hexceeded)⟩
    simp only [takeSignal, h, if_neg hexceeded]

end Supervisor

namespace System

open Transition

variable {M A : Type} {s s' s₀ : System M A} {e : SysEvent M A} {es : List (SysEvent M A)}

/-- The instant at which the event has the supervisor take a signal. -/
def instant : SysEvent M A → Option Instant
  | .sup (.recvSignal now) => some now
  | _ => none

/-- The instants at which the supervisor takes signals. -/
def instants (es : List (SysEvent M A)) : List Instant := es.filterMap instant

/-- A step acts upon a signal, at an instant from `a` to `b`. -/
def actsBetween (a b : Instant) (_ : System M A) (e : SysEvent M A) (s' : System M A) : ℕ :=
  if (instant e).any (fun t => a ≤ t ∧ t ≤ b) ∧ s'.sup.phase.cause.isSome then 1 else 0

/-! ### One step -/

/-- The log changes with signals only, and nothing else is acted upon. -/
theorem restartLog_of_step (h : s.step e = some s') (he : instant e = none) :
    s'.sup.restartLog = s.sup.restartLog := by
  cases e with
  | env e =>
    obtain ⟨-, rt, -, rfl⟩ := step_env h
    rfl
  | sup c =>
    cases supStep_inv h with
    | signal => cases he
    | panic => cases he
    | @installed cause => cases cause <;> rfl
    | _ => rfl

/-- A signal is taken while the cutoff is representable. -/
theorem sup_of_recvSignal {now c : Instant} (h : s.step (.sup (.recvSignal now)) = some s')
    (hsub : now.sub s.sup.config.withinSecs = some c) :
    ∃ sig, s.nextSignal = some sig ∧ s'.sup = s.sup.takeSignal sig now := by
  cases supStep_inv h with
  | @signal sig ch _ hp hrecv hnp => exact ⟨sig, nextSignal_of_recv hrecv, rfl⟩
  | @panic sig ch _ hp hrecv hpanic =>
    have hspec := Supervisor.takeSignal_spec sig hsub
    by_cases hexceeded : s.sup.config.maxRestarts < (pruneLog s.sup.restartLog c now).length
    · have hrefused := hspec.2.1.mpr hexceeded
      rcases hrefused.phase_eq with hphase | hphase
      · rw [hphase] at hpanic
        cases hpanic
      · rw [hphase] at hpanic
        cases hpanic
    · have hacted := hspec.2.2.mpr (not_lt.mp hexceeded)
      have hphase := hacted.symm.trans hpanic
      cases hphase

/-- The log of a supervisor and what it has acted upon, after a history of instants. -/
structure Logged (s₀ : System M A) (config : SupervisorConfig) (es : List (SysEvent M A))
    (s : System M A) : Prop where
  configured : s.sup.config = config
  logs : Logs (Instant.cutoff config.withinSecs) (instants es) s.sup.restartLog
  /-- What was acted upon has been taken. -/
  taken : ∀ a b, tally System.step (actsBetween a b) s₀ es ≤
    (instants es).countP fun t => a ≤ t ∧ t ≤ b
  bounded : ∀ a b, Instant.cutoff config.withinSecs b ≤ a →
    tally System.step (actsBetween a b) s₀ es ≤ config.maxRestarts

/-- What the supervisor makes of the next signal. -/
structure Handles (config : SupervisorConfig) (hist : List Instant) (now : Instant)
    (s s' : System M A) : Prop where
  log : s'.sup.restartLog = window (Instant.cutoff config.withinSecs) hist now
  verdict : ∃ sig, s.nextSignal = some sig ∧
    (s.sup.Refused sig s'.sup ↔
      config.maxRestarts < (window (Instant.cutoff config.withinSecs) hist now).length) ∧
    (s.sup.ActedUpon sig s'.sup ↔
      (window (Instant.cutoff config.withinSecs) hist now).length ≤ config.maxRestarts)

/-- **The next signal** finds in the log the window of the history. -/
theorem Logged.handles {config : SupervisorConfig} {now : Instant} (hl : Logged s₀ config es s)
    (h : s.step (.sup (.recvSignal now)) = some s') (hlast : ∀ t ∈ instants es, t ≤ now)
    (hsub : (now.sub config.withinSecs).isSome) :
    Handles config (instants es) now s s' ∧
      Logs (Instant.cutoff config.withinSecs) (instants es ++ [now]) s'.sup.restartLog := by
  obtain ⟨c, hc⟩ := Option.isSome_iff_exists.mp hsub
  rw [← hl.configured] at hc
  obtain ⟨sig, hsig, hsup⟩ := sup_of_recvSignal h hc
  obtain ⟨hlog, hrefused, hacted⟩ := Supervisor.takeSignal_spec sig hc
  -- the pruned log is the window
  have hcut := Instant.cutoff_of_sub hc
  rw [hl.configured] at hcut
  obtain ⟨hwindow, hlogs⟩ := hl.logs.record (fun _ _ => Instant.cutoff_mono) Instant.cutoff_le hlast
  have hprune : pruneLog s.sup.restartLog c now =
      window (Instant.cutoff config.withinSecs) (instants es) now := by
    rw [← hwindow, pruneLog, hcut]
  rw [hprune, hl.configured] at hrefused hacted
  rw [← hsup] at hlog hrefused hacted
  refine ⟨⟨hlog.trans hprune, sig, hsig, hrefused, hacted⟩, ?_⟩
  rwa [hlog, hprune, ← hwindow]

/-- **Every step keeps the log of the history.** -/
theorem logs_step {config : SupervisorConfig} (hl : Logged s₀ config es s)
    (hrun : s₀.run es = some s) (h : s.step e = some s')
    (hlast : ∀ now ∈ instant e, ∀ t ∈ instants es, t ≤ now)
    (hsub : ∀ now ∈ instant e, (now.sub config.withinSecs).isSome) :
    Logged s₀ config (es ++ [e]) s' := by
  have hconfig : s'.sup.config = config := (sup_of_step h).2.2.1.trans hl.configured
  cases he : instant e with
  | none =>
    have hinstants : instants (es ++ [e]) = instants es := by simp [instants, he]
    have htally (a b : Instant) : tally System.step (actsBetween a b) s₀ (es ++ [e]) =
        tally System.step (actsBetween a b) s₀ es := by
      rw [tally_concat hrun h]
      simp [actsBetween, he]
    refine ⟨hconfig, ?_, fun a b => ?_, fun a b hab => ?_⟩
    · rw [hinstants, restartLog_of_step h he]
      exact hl.logs
    · rw [hinstants, htally]
      exact hl.taken a b
    · rw [htally]
      exact hl.bounded a b hab
  | some now =>
    have heq : e = .sup (.recvSignal now) := by
      unfold instant at he
      split at he
      · rw [Option.some.inj he]
      · cases he
    subst heq
    have hinstants : instants (es ++ [.sup (.recvSignal now)]) = instants es ++ [now] := by
      simp [instants, instant]
    obtain ⟨⟨hlog, sig, hsig, hrefused, hacted⟩, hlogs⟩ :=
      hl.handles h (hlast now he) (hsub now he)
    refine ⟨hconfig, by rwa [hinstants], fun a b => ?_, fun a b hab => ?_⟩
    · have htaken := hl.taken a b
      rw [hinstants, tally_concat hrun h, List.countP_append]
      have hlast' : actsBetween a b s (.sup (.recvSignal now)) s' ≤
          [now].countP fun t => a ≤ t ∧ t ≤ b := by
        by_cases hmem : a ≤ now ∧ now ≤ b
        · simp [actsBetween, instant, hmem]
          split_ifs <;> omega
        · simp [actsBetween, instant, hmem]
      omega
    · rw [tally_concat hrun h]
      have hbound := hl.bounded a b hab
      by_cases hacts : (a ≤ now ∧ now ≤ b) ∧ s'.sup.phase.cause.isSome
      · -- the signal is acted upon, so its window is not too large
        have hcause : ¬ s.sup.Refused sig s'.sup := by
          intro hr
          have hnone : s'.sup.phase.cause = none := by
            rcases hr.phase_eq with hphase | hphase
            · rw [hphase]
              rfl
            · rw [hphase]
              rfl
          rw [hnone] at hacts
          cases hacts.2
        have hsize := not_lt.mp (mt hrefused.mpr hcause)
        have hcut : Instant.cutoff config.withinSecs now ≤ a :=
          (Instant.cutoff_mono hacts.1.2).trans hab
        have hlt := countP_between_lt (instants es) (b := b) hcut Instant.cutoff_le
        have htaken := hl.taken a b
        have hone : actsBetween a b s (.sup (.recvSignal now)) s' ≤ 1 := by
          unfold actsBetween
          split_ifs <;> omega
        omega
      · have hzero : actsBetween a b s (.sup (.recvSignal now)) s' = 0 := by
          unfold actsBetween
          refine if_neg fun hcond => hacts ⟨?_, hcond.2⟩
          simpa [instant] using hcond.1
        omega

/-! ### Every run -/

/-- **Restart intensity.** In every run of a supervisor that takes its signals at non-decreasing
instants, with representable cutoffs:

* when a signal is taken, the restart log holds the instants not before the cutoff of all signals
  taken so far, and the signal is refused exactly when there are more than `max_restarts`;
* every closed window of length `within_secs` has at most `max_restarts` signals acted upon. -/
theorem restart_intensity {rt : Runtime M A} {config : SupervisorConfig}
    {actorConfig : ActorConfig} {children : List Slot}
    (hstart : start rt config actorConfig children = some s₀) (hrun : s₀.run es = some s)
    (hsorted : (instants es).Pairwise (· ≤ ·))
    (hsub : ∀ now ∈ instants es, (now.sub config.withinSecs).isSome) :
    (∀ es₁ now es₂ s₁ s₂, es = es₁ ++ .sup (.recvSignal now) :: es₂ →
      s₀.run es₁ = some s₁ → s₁.step (.sup (.recvSignal now)) = some s₂ →
      Handles config (instants es₁) now s₁ s₂) ∧
    ∀ a, tally System.step (actsBetween a (a + config.withinSecs * 1000000000)) s₀ es ≤
      config.maxRestarts := by
  have hlogged : ∀ {es s}, s₀.run es = some s → (instants es).Pairwise (· ≤ ·) →
      (∀ now ∈ instants es, (now.sub config.withinSecs).isSome) → Logged s₀ config es s := by
    intro es s hrun
    refine run_induction (motive := fun es s => (instants es).Pairwise (· ≤ ·) →
      (∀ now ∈ instants es, (now.sub config.withinSecs).isSome) → Logged s₀ config es s)
      (fun _ _ => ?_) (fun {es s e s'} hrun ih h hsorted hsub => ?_) hrun
    · simp only [start, Option.map_eq_some_iff] at hstart
      obtain ⟨rt', -, rfl⟩ := hstart
      exact ⟨rfl, logs_nil, fun _ _ => Nat.zero_le _, fun _ _ _ => Nat.zero_le _⟩
    · have hinstants : instants (es ++ [e]) = instants es ++ (instant e).toList := by
        cases he : instant e <;> simp [instants, he]
      rw [hinstants] at hsorted hsub
      obtain ⟨hbefore, -, hlast⟩ := List.pairwise_append.mp hsorted
      refine logs_step (ih hbefore fun now hnow => hsub now (List.mem_append_left _ hnow)) hrun h
        (fun now hnow t ht => hlast t ht now (by simpa using hnow)) fun now hnow => ?_
      exact hsub now (List.mem_append_right _ (by simpa using hnow))
  refine ⟨fun es₁ now es₂ s₁ s₂ hes hrun₁ h => ?_, fun a => ?_⟩
  · have hinstants : instants es = instants es₁ ++ now :: instants es₂ := by
      simp [hes, instants, instant]
    rw [hinstants] at hsorted hsub
    obtain ⟨hbefore, -, hlast⟩ := List.pairwise_append.mp hsorted
    have hl := hlogged hrun₁ hbefore fun t ht => hsub t (List.mem_append_left _ ht)
    exact (hl.handles h (fun t ht => hlast t ht now List.mem_cons_self)
      (hsub now (List.mem_append_right _ List.mem_cons_self))).1
  · refine (hlogged hrun hsorted hsub).bounded a _ ?_
    simp [Instant.cutoff]

/-- One restart in ten seconds; after that a child is given up. -/
def oneRestartEach (strategy : RestartStrategy) : SupervisorConfig :=
  { SupervisorConfig.default with
    strategy := strategy, maxRestarts := 1, intensityAction := .abandonChild }

/-- Both children, with ids 3 and 4, fail, and the first is restarted. -/
def bothFail : List (SysEvent Unit Unit) :=
  bothSpawn ++ failsIn ⟨3⟩ ++ failsIn ⟨4⟩ ++
    [.recvSignal 0, .spawnChild (), .installed, .restarted].map .sup

/-- A supervisor of two children that allows one restart, at its start. -/
def oneRestartEachTwo : System Unit Unit := (twoChildren (oneRestartEach .oneForOne)).get rfl

/-- The result where the second signal comes at the end of the window of the first. -/
theorem restart_intensity_bothFail : ∃ s s' : System Unit Unit,
    oneRestartEachTwo.run bothFail = some s ∧
    s.step (.sup (.recvSignal 10000000000)) = some s' ∧
    Handles (oneRestartEach .oneForOne) [0] 10000000000 s s' ∧
    ∀ a, tally System.step (actsBetween a (a + 10 * 1000000000)) oneRestartEachTwo
      (bothFail ++ [.sup (.recvSignal 10000000000)]) ≤ 1 := by
  have hstart : twoChildren (oneRestartEach .oneForOne) = some oneRestartEachTwo := rfl
  let s : System Unit Unit := (oneRestartEachTwo.run bothFail).get rfl
  let s' : System Unit Unit := (s.step (.sup (.recvSignal 10000000000))).get rfl
  have hrun : oneRestartEachTwo.run bothFail = some s := rfl
  have hstep : s.step (.sup (.recvSignal 10000000000)) = some s' := (Option.some_get _).symm
  have hinstants : instants (bothFail ++ [.sup (.recvSignal 10000000000)]) = [0, 10000000000] :=
    rfl
  have hall := restart_intensity hstart (run_concat.mpr ⟨s, hrun, hstep⟩)
    (by rw [hinstants]; decide) (by rw [hinstants]; decide)
  exact ⟨s, s', hrun, hstep, hall.1 bothFail 10000000000 [] s s' rfl hrun hstep, hall.2⟩

end System

end LaneSwitchboards
