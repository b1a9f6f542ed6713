import LaneSwitchboards.Actor.Effects
import LaneSwitchboards.Supervisor.Policy

/-!
# A supervisor together with the actors of its process

The task of `Supervisor::start_settled` next to the `Runtime`: the first spawns, the loop with
its two branches, the restarts of one signal slot by slot, and the way out. A restart is cut
where its child factory awaits: the spawn, then the return of the factory (`installing`). The
runtime moves freely in between: every event of it that does not belong to the supervisor is an
event of the environment. Among these are the spawns of a factory that has no child to return:
it may spawn actors with the supervisor's sender and then return an error.

The history `spawned` lists, for each slot, the instances spawned for it. `supStep_inv` is
the inversion of a supervisor step, `rt_of_step` projects the system to the runtime, so that
what holds of all runs of the runtime holds here (`Reachable.rt`).
-/

namespace LaneSwitchboards

open Function
open Slot (sortByOrder setId position abandon)

/-- Why slots are being started. -/
inductive Cause
  | start
  | signal (s : RestartSignal)
deriving DecidableEq

/-- Where the supervisor is. -/
inductive SupPhase
  /-- About to call the factory of the first slot of `todo`. -/
  | restart (cause : Cause) (todo : List ℕ)
  /-- The factory of slot `idx` has spawned `id` and has yet to return. -/
  | installing (cause : Cause) (idx : ℕ) (id : ActorId) (todo : List ℕ)
  /-- At the top of the loop. -/
  | select
  /-- Sending `Stop` to the children that are left, in reverse order of start. -/
  | stopping (rest : List ActorId)
  /-- The loop was left. -/
  | exited
  /-- A factory failed during the start. -/
  | startFailed
  /-- The cutoff of the restart window is not representable. -/
  | panicked
deriving DecidableEq

/-- The state of the supervisor task. During the start `currentRefs` is `initial_refs`. -/
structure Supervisor where
  config : SupervisorConfig
  actorConfig : ActorConfig
  channel : SupId
  slots : List Slot
  currentRefs : List ActorId
  restartLog : List Instant
  phase : SupPhase

/-- What the supervisor, its children's factories and its handle decide. -/
inductive SupChoice (A : Type)
  /-- The factory of the next slot spawns its child. -/
  | spawnChild (actor : A)
  /-- The factory returns an error, whatever it has spawned. -/
  | factoryErr
  /-- The factory returns the reference of its child. -/
  | installed
  /-- No slot is left to start. -/
  | restarted
  | recvSignal (now : Instant)
  /-- The handle is stopped or dropped. -/
  | shutdown
  | sendStop
  | exit

/-- One event of the system. -/
inductive SysEvent (M A : Type)
  | sup (c : SupChoice A)
  | env (e : RtEvent M A)

/-- A supervisor, the runtime, and the instances spawned for each slot, oldest first. -/
structure System (M A : Type) where
  rt : Runtime M A
  sup : Supervisor
  spawned : List (ℕ × ActorId)

namespace Runtime

variable {M A : Type}

/-- Clone an `ActorRef`. -/
def addRef (w : Runtime M A) (i : ActorId) : Runtime M A :=
  { w with refs := update w.refs i (w.refs i + 1) }

/-- Drop an `ActorRef`. -/
def releaseRef (w : Runtime M A) (i : ActorId) : Runtime M A :=
  { w with refs := update w.refs i (w.refs i - 1) }

/-- Drop several. -/
def releaseRefs (w : Runtime M A) (ids : List ActorId) : Runtime M A := ids.foldl releaseRef w

/-- Dropping references changes nothing else. -/
theorem releaseRefs_frame (w : Runtime M A) (ids : List ActorId) :
    (w.releaseRefs ids).tasks = w.tasks ∧ (w.releaseRefs ids).mailbox = w.mailbox ∧
      (w.releaseRefs ids).signals = w.signals := by
  induction ids generalizing w with
  | nil => exact ⟨rfl, rfl, rfl⟩
  | cons i ids ih => exact ih (w.releaseRef i)

end Runtime

namespace Supervisor

/-- How many of an actor's references the supervisor holds: `current_refs`, its original
`initial_refs` during the start, and what a factory is about to return. -/
def held (p : Supervisor) (i : ActorId) : ℕ :=
  match p.phase with
  | .restart .start _ => 2 * p.currentRefs.count i
  | .installing .start _ id _ => 2 * (id :: p.currentRefs).count i
  | .installing (.signal _) _ id _ => (id :: p.currentRefs).count i
  | _ => p.currentRefs.count i

/-- The references dropped with the supervisor's task, or with a start that fails. -/
def refsAtEnd (p : Supervisor) : List ActorId :=
  match p.phase with
  | .restart .start _ => p.currentRefs ++ p.currentRefs
  | _ => p.currentRefs

/-- What the supervisor makes of a signal. -/
def takeSignal (p : Supervisor) (signal : RestartSignal) (now : Instant) : Supervisor :=
  match now.sub p.config.withinSecs with
  | none => { p with phase := .panicked }
  | some cutoff =>
    let log := pruneLog p.restartLog cutoff now
    if p.config.exceeded log then
      match p.config.intensityAction with
      | .shutdownSupervisor =>
        { p with restartLog := log, phase := .stopping p.currentRefs.reverse }
      | .abandonChild =>
        { p with restartLog := log, slots := abandon p.slots signal.childId, phase := .select }
    else
      { p with
        restartLog := log
        phase := .restart (.signal signal) (p.config.strategy.toRestart p.slots signal.childId) }

/-- The supervisor restarts nothing at this time, whatever the signal: the restart intensity
is exceeded, or the window reaches below the first instant. -/
def refuses (p : Supervisor) (now : Instant) : Prop :=
  ∀ cutoff, now.sub p.config.withinSecs = some cutoff →
    p.config.exceeded (pruneLog p.restartLog cutoff now)

theorem refuses_of_sub {p : Supervisor} {now : Instant} (cutoff : Instant)
    (hsub : now.sub p.config.withinSecs = some cutoff)
    (h : p.config.exceeded (pruneLog p.restartLog cutoff now)) : p.refuses now := by
  intro cutoff' hcutoff
  rwa [← Option.some.inj (hsub.symm.trans hcutoff)]

end Supervisor

namespace System

variable {M A : Type}

/-- The beginning of `start_settled`: the slots are sorted and the signal channel is opened. -/
def start (rt : Runtime M A) (config : SupervisorConfig) (actorConfig : ActorConfig)
    (children : List Slot) : Option (System M A) :=
  (rt.step (.openSignals config.mailboxCapacity)).map fun rt' =>
    { rt := rt'
      sup :=
        { config, actorConfig
          channel := rt.nextSup
          slots := sortByOrder children
          currentRefs := []
          restartLog := []
          phase := .restart .start (List.range children.length) }
      spawned := [] }

/-- The supervisor's task ends: it drops its receiver and its references. -/
def finish (s : System M A) (p : SupPhase) : System M A :=
  let rt := s.rt.releaseRefs s.sup.refsAtEnd
  { s with
    rt := rt.setSignals s.sup.channel (rt.signals s.sup.channel).close
    sup := { s.sup with currentRefs := [], phase := p } }

/-- The factory of slot `idx` has spawned `id`. At the start the new reference is cloned, once
for `initial_refs` and once for `current_refs`. -/
def spawnedChild (s : System M A) (rt : Runtime M A) (cause : Cause) (idx : ℕ) (id : ActorId)
    (todo : List ℕ) : System M A :=
  { rt := if cause = .start then rt.addRef id else rt
    sup := { s.sup with phase := .installing cause idx id todo }
    spawned := s.spawned ++ [(idx, id)] }

/-- The factory of slot `idx` spawns. -/
def spawnChild (s : System M A) (actor : A) (cause : Cause) (idx : ℕ) (todo : List ℕ) :
    Option (System M A) :=
  (s.rt.spawnOnRuntime s.sup.actorConfig actor (some s.sup.channel)).map fun (id, rt) =>
    s.spawnedChild rt cause idx id todo

/-- The factory of slot `idx` returns: the slot takes the new id, and `current_refs` the new
reference, dropping the one it had. -/
def install (s : System M A) (cause : Cause) (idx : ℕ) (id : ActorId) (todo : List ℕ) :
    System M A :=
  match cause with
  | .start =>
    { s with sup := { s.sup with
        slots := setId s.sup.slots idx id
        currentRefs := s.sup.currentRefs ++ [id]
        phase := .restart .start todo } }
  | .signal sig =>
    { s with
      rt := s.rt.releaseRefs s.sup.currentRefs[idx]?.toList
      sup := { s.sup with
        slots := setId s.sup.slots idx id
        currentRefs := s.sup.currentRefs.set idx id
        phase := .restart (.signal sig) todo } }

/-- The factory of slot `idx` returns an error. -/
def factoryErr (s : System M A) (cause : Cause) (idx : ℕ) (todo : List ℕ) : System M A :=
  match cause with
  | .start => s.finish .startFailed
  | .signal sig =>
    { s with sup := { s.sup with
        slots := setId s.sup.slots idx .DEAD
        phase := .restart (.signal sig) todo } }

/-- The signal branch of the loop. -/
def recvSignal (s : System M A) (now : Instant) : Option (System M A) :=
  (s.rt.signals s.sup.channel).recv.map fun (signal, ch) =>
    let s' : System M A :=
      { s with
        rt := s.rt.setSignals s.sup.channel ch
        sup := s.sup.takeSignal signal now }
    if s'.sup.phase = .panicked then s'.finish .panicked else s'

/-- `stop()` of one child, with the answer ignored. -/
def sendStop (s : System M A) (i : ActorId) (rest : List ActorId) : Option (System M A) :=
  (if (s.rt.mailbox i).isOpen then s.rt.post i .stop else some s.rt).map fun rt =>
    { s with rt := rt, sup := { s.sup with phase := .stopping rest } }

/-- One step of the supervisor. -/
def supStep (s : System M A) (c : SupChoice A) : Option (System M A) :=
  match c, s.sup.phase with
  | .spawnChild actor, .restart cause (idx :: todo) => s.spawnChild actor cause idx todo
  | .factoryErr, .restart cause (idx :: todo) => some (s.factoryErr cause idx todo)
  | .installed, .installing cause idx id todo => some (s.install cause idx id todo)
  | .restarted, .restart _ [] => some { s with sup := { s.sup with phase := .select } }
  | .recvSignal now, .select => s.recvSignal now
  | .shutdown, .select =>
    some { s with sup := { s.sup with phase := .stopping s.sup.currentRefs.reverse } }
  | .sendStop, .stopping (i :: rest) => s.sendStop i rest
  | .exit, .stopping [] => some (s.finish .exited)
  | _, _ => none

/-- What the environment may do: the signal channel's receiver is the supervisor's, and a request
or a drop needs a reference that the supervisor does not hold. The channel's sender is cloned for
every factory, so actors that fill no slot may have it too. -/
def allowed (s : System M A) : RtEvent M A → Bool
  | .recvSignal k | .closeSignals k => k ≠ s.sup.channel
  | .post i _ | .dropRef i => s.sup.held i < s.rt.refs i
  | _ => true

/-- One event of the system. -/
def step (s : System M A) : SysEvent M A → Option (System M A)
  | .sup c => s.supStep c
  | .env e => if s.allowed e then (s.rt.step e).map fun rt => { s with rt := rt } else none

/-- Execute a list of events. -/
abbrev run : System M A → List (SysEvent M A) → Option (System M A) := Transition.run step

/-- Reached by some interleaving from the start of a supervisor in a reachable runtime. -/
def Reachable (s : System M A) : Prop := ∃ rt config actorConfig children s₀ es,
  Runtime.Reachable rt ∧ start rt config actorConfig children = some s₀ ∧ s₀.run es = some s

/-! ### Splitting a step -/

/-- The ways in which the supervisor steps. -/
inductive SupStep (s : System M A) : SupChoice A → System M A → Prop
  | spawn {cause idx todo} (actor : A) (id : ActorId) (rt : Runtime M A)
      (hp : s.sup.phase = .restart cause (idx :: todo))
      (hrt : s.rt.spawnOnRuntime s.sup.actorConfig actor (some s.sup.channel) = some (id, rt)) :
      SupStep s (.spawnChild actor) (s.spawnedChild rt cause idx id todo)
  | startFailed {idx todo} (hp : s.sup.phase = .restart .start (idx :: todo)) :
      SupStep s .factoryErr (s.finish .startFailed)
  | childFailed {sig idx todo} (hp : s.sup.phase = .restart (.signal sig) (idx :: todo)) :
      SupStep s .factoryErr { s with sup := { s.sup with
        slots := setId s.sup.slots idx .DEAD
        phase := .restart (.signal sig) todo } }
  | installed {cause idx id todo} (hp : s.sup.phase = .installing cause idx id todo) :
      SupStep s .installed (s.install cause idx id todo)
  | restarted {cause} (hp : s.sup.phase = .restart cause []) :
      SupStep s .restarted { s with sup := { s.sup with phase := .select } }
  | signal {sig ch now} (hp : s.sup.phase = .select)
      (hsig : (s.rt.signals s.sup.channel).recv = some (sig, ch))
      (hnp : (s.sup.takeSignal sig now).phase ≠ .panicked) :
      SupStep s (.recvSignal now) { s with
        rt := s.rt.setSignals s.sup.channel ch
        sup := s.sup.takeSignal sig now }
  | panic {sig ch now} (hp : s.sup.phase = .select)
      (hsig : (s.rt.signals s.sup.channel).recv = some (sig, ch))
      (hpanic : (s.sup.takeSignal sig now).phase = .panicked) :
      SupStep s (.recvSignal now) (finish { s with
        rt := s.rt.setSignals s.sup.channel ch
        sup := s.sup.takeSignal sig now } .panicked)
  | shutdown (hp : s.sup.phase = .select) :
      SupStep s .shutdown
        { s with sup := { s.sup with phase := .stopping s.sup.currentRefs.reverse } }
  | sendStop {i rest} (rt : Runtime M A) (hp : s.sup.phase = .stopping (i :: rest))
      (hrt : s.rt.post i .stop = some rt ∨ rt = s.rt) :
      SupStep s .sendStop { s with rt := rt, sup := { s.sup with phase := .stopping rest } }
  | exit (hp : s.sup.phase = .stopping []) : SupStep s .exit (s.finish .exited)

variable {s s' : System M A} {c : SupChoice A} {e : SysEvent M A}

/-- **Inversion of a supervisor step.** -/
theorem supStep_inv (h : s.supStep c = some s') : SupStep s c s' := by
  unfold supStep at h
  split at h
  · next actor cause idx todo hp =>
    obtain ⟨⟨id, rt⟩, hrt, rfl⟩ := Option.map_eq_some_iff.mp h
    exact .spawn actor id rt hp hrt
  · next cause idx todo hp =>
    cases h
    cases cause with
    | start => exact .startFailed hp
    | signal sig => exact .childFailed hp
  · next hp => cases h; exact .installed hp
  · next hp => cases h; exact .restarted hp
  · next now hp =>
    obtain ⟨⟨sig, ch⟩, hsig, rfl⟩ := Option.map_eq_some_iff.mp h
    dsimp only
    split_ifs with hpanic
    · exact .panic hp hsig hpanic
    · exact .signal hp hsig hpanic
  · next hp => cases h; exact .shutdown hp
  · next i rest hp =>
    obtain ⟨rt, hrt, rfl⟩ := Option.map_eq_some_iff.mp h
    refine .sendStop rt hp ?_
    split_ifs at hrt with hopen
    · exact Or.inl hrt
    · exact Or.inr (Option.some.inj hrt).symm
  · next hp => cases h; exact .exit hp
  · cases h

/-- **Inversion of a step of the environment.** -/
theorem step_env {d : RtEvent M A} (h : s.step (.env d) = some s') :
    s.allowed d = true ∧ ∃ rt, s.rt.step d = some rt ∧ s' = { s with rt := rt } := by
  simp only [step, Option.ite_none_right_eq_some, Option.map_eq_some_iff] at h
  obtain ⟨hallowed, rt, hrt, rfl⟩ := h
  exact ⟨hallowed, rt, hrt, rfl⟩

/-! ### The runtime underneath -/

theorem run_releaseRefs (w : Runtime M A) (ids : List ActorId) :
    w.run (ids.map .dropRef) = some (w.releaseRefs ids) := by
  induction ids generalizing w with
  | nil => rfl
  | cons i ids ih => exact ih (w.releaseRef i)

theorem run_finish (s : System M A) (p : SupPhase) : ∃ ds, s.rt.run ds = some (s.finish p).rt :=
  ⟨s.sup.refsAtEnd.map .dropRef ++ [.closeSignals s.sup.channel],
    Transition.run_trans (run_releaseRefs _ _) rfl⟩

/-- **Projection**: a step of the system is a run of the runtime. -/
theorem rt_of_step (hk : s.sup.channel < s.rt.nextSup) (h : s.step e = some s') :
    ∃ ds, s.rt.run ds = some s'.rt := by
  cases e with
  | env e =>
    obtain ⟨-, rt, hrt, rfl⟩ := step_env h
    exact ⟨[e], by simp [hrt]⟩
  | sup c =>
    cases supStep_inv h with
    | @spawn cause idx todo actor id rt hp hrt =>
      have hspawn : s.rt.step (.spawn s.sup.actorConfig actor (some s.sup.channel)) = some rt :=
        Runtime.step_of_spawn (fun _ h => Option.some.inj h ▸ hk) hrt
      cases cause with
      | start =>
        refine ⟨[.spawn s.sup.actorConfig actor (some s.sup.channel), .cloneRef id], ?_⟩
        have hrefs : 0 < rt.refs id := by
          obtain ⟨-, rfl⟩ := Runtime.spawnOnRuntime_eq hrt
          simp
        refine (Transition.run_cons_of_step hspawn).trans ?_
        simp [Runtime.step, hrefs, spawnedChild, Runtime.addRef]
      | signal sig =>
        refine ⟨[.spawn s.sup.actorConfig actor (some s.sup.channel)], ?_⟩
        refine (Transition.run_cons_of_step hspawn).trans ?_
        simp [spawnedChild]
    | startFailed hp => exact run_finish _ _
    | childFailed hp => exact ⟨[], rfl⟩
    | @installed cause idx id todo hp =>
      cases cause with
      | start => exact ⟨[], rfl⟩
      | signal sig => exact ⟨_, run_releaseRefs _ _⟩
    | restarted hp => exact ⟨[], rfl⟩
    | signal hp hsig hnp => exact ⟨[.recvSignal s.sup.channel], by simp [Runtime.step, hsig]⟩
    | panic hp hsig hpanic =>
      have hrecv := congrArg (Option.map fun x => s.rt.setSignals s.sup.channel x.2) hsig
      obtain ⟨ds, hds⟩ := run_finish _ .panicked
      exact ⟨.recvSignal s.sup.channel :: ds, (Transition.run_cons_of_step hrecv).trans hds⟩
    | shutdown hp => exact ⟨[], rfl⟩
    | @sendStop i rest rt hp hrt =>
      rcases hrt with hrt | rfl
      · exact ⟨[.post i .stop], by simp [Runtime.step, hrt]⟩
      · exact ⟨[], rfl⟩
    | exit hp => exact run_finish _ _

end System

end LaneSwitchboards
