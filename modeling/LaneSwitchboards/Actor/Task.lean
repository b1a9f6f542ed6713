import LaneSwitchboards.Monitor
import Mathlib.Data.Finset.Basic

/-!
# The actor task: `run_actor` step by step

One actor runs as one task. `Task.step` is the control flow of `run_actor`, `handle_message`
and `finish_actor`, cut at every await and at every access to shared state: a *phase* says
where the task is, an *input* says what it observes next (a received message, the outcome of
a user callback, the result of a registry lookup, the completion of a send). What the channels
and the registry answer is the business of `Runtime`; here any input may come.

The ways out of the loop do not all pass through `notify_supervisor`: `Input.silent` names
those that do not.
-/

namespace LaneSwitchboards

/-- Why an actor exited. -/
inductive ExitReason
  | normal
  | shutdown
  | error (e : String)
  /-- `handle()` exceeded the configured timeout. -/
  | handleTimeout (elapsedMs limitMs : UInt64)
  | linked (peer : ActorId) (reason : ExitReason)
  | killed
deriving DecidableEq, Repr

/-- Cross-type control signals routed through the global registry. -/
inductive ControlMsg
  | link (peer : ActorId)
  | linkedExit (peer : ActorId) (reason : ExitReason)
deriving DecidableEq, Repr

/-- Messages delivered to the actor mailbox. `M` is the message type, `A` the type of the
implementations; a monitor's reply channel is named by a number. -/
inductive Envelope (M A : Type)
  | msg (m : M)
  | link (peer : ActorId)
  | unlink (peer : ActorId)
  | monitor (observer : ActorId) (notify : ℕ)
  | demonitor (observer : ActorId)
  | kill
  | stop
  | upgrade (newImpl : A)
deriving DecidableEq

/-- Notification sent to the supervisor when a child fails. The source carries the `Debug`
text of the reason, the model the reason itself; nothing reads it. -/
structure RestartSignal where
  childId : ActorId
  reason : ExitReason
deriving DecidableEq

/-- Actor mailbox sizing and handle limits. -/
structure ActorConfig where
  mailboxCapacity : ℕ
  handleTimeout : Option Duration
  slowHandleThreshold : Option Duration
deriving DecidableEq

namespace ActorConfig

/-- The default configuration. -/
def default : ActorConfig := ⟨64, none, none⟩

/-- Threshold used when recording slow successful handles. -/
def effectiveSlowThreshold (c : ActorConfig) : Option Duration :=
  c.slowHandleThreshold <|> c.handleTimeout

end ActorConfig

/-- A supervisor's signal channel. -/
abbrev SupId := ℕ

/-- How an actor task ended: `pre_start` failed, the loop was left with a reason, or a panic
escaped from a callback that `run_actor` does not guard. -/
inductive Termination
  | startFailed
  | exited (reason : ExitReason)
  | panicked
deriving DecidableEq

/-- Where `run_actor` is. -/
inductive Phase (M : Type)
  /-- Spawned, not polled yet. -/
  | spawned
  /-- Awaiting `pre_start`. -/
  | preStart
  /-- At the top of the loop; the control branch is polled first. -/
  | select
  /-- The control branch was pending; the mailbox branch is polled next. -/
  | pollMailbox
  /-- `send_reverse_link`, before the lookup of the peer's control sender. -/
  | reverseLink (peer : ActorId)
  /-- `send_reverse_link`, awaiting room in the peer's control channel. -/
  | sendLink (peer : ActorId)
  /-- Awaiting `on_handle_begin`. -/
  | handleBegin (m : M)
  /-- Awaiting `handle`. -/
  | handle (m : M)
  /-- Awaiting `on_handle_stuck`. -/
  | handleStuck (elapsed limit : Duration)
  /-- `notify_supervisor`, before the lookup of the supervisor's sender. -/
  | notify (reason : ExitReason)
  /-- `notify_supervisor`, awaiting room in the supervisor's queue. -/
  | sendSignal (supervisor : SupId) (reason : ExitReason)
  /-- Awaiting `on_upgrade`. -/
  | onUpgrade
  /-- The loop was left; awaiting `post_stop`. -/
  | postStop (reason : ExitReason)
  /-- `propagate_linked_exit`, at the head of its loop over the links. -/
  | propagate (reason : ExitReason) (rest : Finset ActorId)
  /-- `propagate_linked_exit`, before the lookup of `peer`'s control sender. -/
  | lookupPeer (reason : ExitReason) (peer : ActorId) (rest : Finset ActorId)
  /-- `propagate_linked_exit`, awaiting room in `peer`'s control channel. -/
  | sendLinkedExit (reason : ExitReason) (peer : ActorId) (rest : Finset ActorId)
  /-- About to leave the registry. -/
  | unregister (t : Termination)
  /-- Out of the registry; about to mark the statistics inactive and drop the receivers. -/
  | finish (t : Termination)
  /-- The task has ended. -/
  | done (t : Termination)
deriving DecidableEq

/-- Outcome of `handle()` under `catch_unwind`. -/
inductive HandleOutcome
  | ok
  | err (e : String)
  | panicked

/-- What a fallible callback returns. -/
abbrev CallbackResult := Except String Unit

/-- What the task observes at its next step. -/
inductive Input (M A : Type)
  | poll
  | preStart (r : CallbackResult)
  | controlEmpty
  /-- `control_rx.recv()` with what `trap_exit()` answers if it is asked. -/
  | control (m : Option ControlMsg) (trap : Bool)
  | mailboxEmpty
  | envelope (e : Option (Envelope M A))
  /-- A lookup of a control sender. -/
  | found (b : Bool)
  /-- The lookup of the own supervisor's sender. -/
  | supervisor (k : Option SupId)
  /-- An awaited channel send has completed. -/
  | sent
  | handleBegin (r : CallbackResult)
  | handle (o : HandleOutcome) (elapsed : Duration)
  | timeout (elapsed : Duration)
  | handleStuck (r : CallbackResult)
  | onUpgrade (r : CallbackResult)
  | postStop (r : CallbackResult)
  /-- The iterator over the links set yields a peer. -/
  | next (peer : ActorId)
  | linksDone
  | unregistered
  | finished
  /-- A panic escapes from the awaited callback. -/
  | panicked

/-- The local state of one actor task. -/
structure Task (M A : Type) where
  phase : Phase M
  /-- The current implementation. -/
  actor : A
  links : Finset ActorId
  monitors : List (ActorId × ℕ)
  config : ActorConfig

/-- Abnormal exits, which are also the ones propagated to the links. -/
def shouldPropagateLinkedExit : ExitReason → Bool
  | .normal => false
  | .shutdown => false
  | _ => true

/-- A failed start, a panic or an exit reason other than `Normal` and `Shutdown`. -/
def Termination.abnormal : Termination → Bool
  | .exited r => shouldPropagateLinkedExit r
  | .startFailed | .panicked => true

/-- The reason with which a `LinkedExit` ends the actor, unless it traps exits. -/
def linkedExitReason (peer : ActorId) (reason : ExitReason) (trap : Bool) : Option ExitReason :=
  if trap then none else some (.linked peer reason)

namespace Phase

variable {M : Type}

/-- The task is awaiting a user callback that is not guarded by `catch_unwind`. -/
def unguarded : Phase M → Bool
  | preStart | handleBegin _ | handleStuck _ _ | onUpgrade | postStop _ => true
  | _ => false

/-- How the task ends, once that is fixed: the loop was left (`break 'actor_loop`), `pre_start`
failed or a panic escaped. -/
def termination : Phase M → Option Termination
  | postStop r | propagate r _ | lookupPeer r _ _ | sendLinkedExit r _ _ => some (.exited r)
  | unregister t | finish t | done t => some t
  | _ => none

/-- The exit reason, from the moment `handle_message` has fixed it or the loop was left. -/
def reason : Phase M → Option ExitReason
  | notify r | sendSignal _ r | postStop r => some r
  | propagate r _ | lookupPeer r _ _ | sendLinkedExit r _ _ => some r
  | unregister (.exited r) | finish (.exited r) | done (.exited r) => some r
  | _ => none

/-- The peer to which `send_reverse_link` has yet to send. -/
def owed : Phase M → Option ActorId
  | reverseLink peer | sendLink peer => some peer
  | _ => none

/-- The peers to which `propagate_linked_exit` has yet to send. -/
def targets : Phase M → Finset ActorId
  | propagate _ rest => rest
  | lookupPeer _ peer rest | sendLinkedExit _ peer rest => insert peer rest
  | _ => ∅

/-- The task is in its loop or has yet to enter it: it may still take messages. -/
def running : Phase M → Bool
  | spawned | preStart | select | pollMailbox | reverseLink _ | sendLink _ => true
  | handleBegin _ | handle _ | handleStuck _ _ | onUpgrade => true
  | _ => false

/-- `post_stop` has returned. -/
def postStopDone : Phase M → Bool
  | propagate _ _ | lookupPeer _ _ _ | sendLinkedExit _ _ _ => true
  | unregister (.exited _) | finish (.exited _) | done (.exited _) => true
  | _ => false

/-- `pre_start` has been called. -/
def started : Phase M → Bool
  | spawned => false
  | _ => true

end Phase

/-- What makes a task end abnormally without `handle_message`, the only caller of
`notify_supervisor`. -/
def Input.silent {M A : Type} : Phase M → Input M A → Bool
  | .preStart, .preStart (.error _) => true
  | .onUpgrade, .onUpgrade (.error _) => true
  | .pollMailbox, .envelope (some .kill) => true
  | .select, .control (some (.linkedExit _ _)) false => true
  | _, _ => false

namespace Task

variable {M A : Type}

/-- `break 'actor_loop` with a reason. -/
def exit (t : Task M A) (r : ExitReason) : Task M A := { t with phase := .postStop r }

/-- `if links.insert(peer) { send_reverse_link(..) }`, shared by the two `Link` messages. -/
def insertLink (t : Task M A) (peer : ActorId) : Task M A :=
  if peer ∈ t.links then { t with phase := .select }
  else { t with links := insert peer t.links, phase := .reverseLink peer }

/-- The control branch of the loop. -/
def recvControl (t : Task M A) (trap : Bool) : Option ControlMsg → Task M A
  | none => t.exit .normal
  | some (.link peer) => t.insertLink peer
  | some (.linkedExit peer reason) =>
    match linkedExitReason peer reason trap with
    | some r => t.exit r
    | none => { t with phase := .select }

/-- The mailbox branch of the loop. -/
def recvEnvelope (t : Task M A) : Option (Envelope M A) → Task M A
  | none => t.exit .normal
  | some (.msg m) => { t with phase := .handleBegin m }
  | some (.link peer) => t.insertLink peer
  | some (.unlink peer) => { t with links := t.links.erase peer, phase := .select }
  | some (.monitor observer notify) =>
    { t with monitors := t.monitors ++ [(observer, notify)], phase := .select }
  | some (.demonitor observer) =>
    { t with monitors := t.monitors.filter (·.1 ≠ observer), phase := .select }
  | some (.upgrade newImpl) => { t with actor := newImpl, phase := .onUpgrade }
  | some .stop => t.exit .shutdown
  | some .kill => t.exit .killed

/-- `handle_message` after `handle` has completed. -/
def handled (t : Task M A) : HandleOutcome → Task M A
  | .ok => { t with phase := .select }
  | .err e => { t with phase := .notify (.error e) }
  | .panicked => { t with phase := .notify (.error "panic in handle") }

/-- `finish_actor` after `post_stop` has returned: the monitors are notified at once. -/
def stopped (t : Task M A) (r : ExitReason) : Task M A :=
  { t with
    monitors := []
    phase := if shouldPropagateLinkedExit r then .propagate r t.links
      else .unregister (.exited r) }

/-- One step of `run_actor`; `none` where the task does not observe such an input. -/
def step (t : Task M A) (x : Input M A) : Option (Task M A) :=
  match t.phase, x with
  -- the call of `pre_start`; on failure `finish_actor` is skipped
  | .spawned, .poll => some { t with phase := .preStart }
  | .preStart, .preStart (.ok _) => some { t with phase := .select }
  | .preStart, .preStart (.error _) => some { t with phase := .unregister .startFailed }
  -- `tokio::select!`, biased to the control channel
  | .select, .control m trap => some (t.recvControl trap m)
  | .select, .controlEmpty => some { t with phase := .pollMailbox }
  | .pollMailbox, .mailboxEmpty => some { t with phase := .select }
  | .pollMailbox, .envelope e => some (t.recvEnvelope e)
  -- `send_reverse_link`
  | .reverseLink peer, .found true => some { t with phase := .sendLink peer }
  | .reverseLink _, .found false => some { t with phase := .select }
  | .sendLink _, .sent => some { t with phase := .select }
  -- `handle_message`
  | .handleBegin m, .handleBegin (.ok _) => some { t with phase := .handle m }
  | .handleBegin _, .handleBegin (.error e) => some { t with phase := .notify (.error e) }
  | .handle _, .handle o _ => some (t.handled o)
  | .handle _, .timeout elapsed =>
    match t.config.handleTimeout with
    | some limit => some { t with phase := .handleStuck elapsed limit }
    | none => none
  | .handleStuck elapsed limit, .handleStuck _ =>
    some { t with phase := .notify (.handleTimeout elapsed.asMillis limit.asMillis) }
  -- `notify_supervisor`, always on the way out
  | .notify r, .supervisor (some k) => some { t with phase := .sendSignal k r }
  | .notify r, .supervisor none => some (t.exit r)
  | .sendSignal _ r, .sent => some (t.exit r)
  -- hot upgrade
  | .onUpgrade, .onUpgrade (.ok _) => some { t with phase := .select }
  | .onUpgrade, .onUpgrade (.error e) => some (t.exit (.error e))
  -- `finish_actor` and `propagate_linked_exit`
  | .postStop r, .postStop _ => some (t.stopped r)
  | .propagate r rest, .next peer =>
    if peer ∈ rest then some { t with phase := .lookupPeer r peer (rest.erase peer) } else none
  | .propagate r rest, .linksDone =>
    if rest = ∅ then some { t with phase := .unregister (.exited r) } else none
  | .lookupPeer r peer rest, .found true =>
    some { t with phase := .sendLinkedExit r peer rest }
  | .lookupPeer r _ rest, .found false => some { t with phase := .propagate r rest }
  | .sendLinkedExit r _ rest, .sent => some { t with phase := .propagate r rest }
  | .unregister e, .unregistered => some { t with phase := .finish e }
  | .finish e, .finished => some { t with phase := .done e }
  -- a panic escapes: the task ends where it is, still registered
  | p, .panicked => if p.unguarded then some { t with phase := .done .panicked } else none
  | _, _ => none

section Steps

variable {t : Task M A}

theorem step_control (h : t.phase = .select) (m : Option ControlMsg) (trap : Bool) :
    t.step (.control m trap) = some (t.recvControl trap m) := by
  cases t
  cases h
  rfl

theorem step_supervisor {r : ExitReason} (h : t.phase = .notify r) (k : SupId) :
    t.step (.supervisor (some k)) = some { t with phase := .sendSignal k r } := by
  cases t
  cases h
  rfl

theorem step_found_reverseLink {peer : ActorId} (h : t.phase = .reverseLink peer) :
    t.step (.found true) = some { t with phase := .sendLink peer } := by
  cases t
  cases h
  rfl

theorem step_found_lookupPeer {r : ExitReason} {peer : ActorId} {rest : Finset ActorId}
    (h : t.phase = .lookupPeer r peer rest) :
    t.step (.found true) = some { t with phase := .sendLinkedExit r peer rest } := by
  cases t
  cases h
  rfl

end Steps

/-- What a step records in the actor's statistics cell. -/
def recordStats (t : Task M A) (x : Input M A) : StatsCell → StatsCell :=
  match t.phase, x with
  | .pollMailbox, .envelope (some (.msg _)) => .beginHandle
  | .handleBegin _, .handleBegin (.error _) => .recordError
  | .handle _, .handle .ok elapsed => .finishHandle elapsed t.config.effectiveSlowThreshold
  | .handle _, .handle (.err _) _ => .recordError
  | .handle _, .handle .panicked _ => .recordPanic
  | .handle _, .timeout elapsed => .recordTimeout elapsed
  | .finish _, .finished => .markInactive
  | _, _ => id

end Task

end LaneSwitchboards
