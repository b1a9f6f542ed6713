import Mathlib.Data.UInt
import Mathlib.Logic.Function.Basic

/-!
# Actor identifiers and the per-actor statistics

`ActorId` and the counters of `ActorMonitor`. The counters are 64-bit and wrap, as the
atomics of the source do; durations are counted in nanoseconds. The monitor is a map from
ids to cells: an operation on an id without a cell does nothing.
-/

namespace LaneSwitchboards

/-- Unique actor identifier. -/
structure ActorId where
  n : ℕ
deriving DecidableEq, Repr

namespace ActorId

/-- Sentinel id for a child slot whose last restart attempt failed. -/
def DEAD : ActorId := ⟨0⟩

end ActorId

/-- A length of time, in nanoseconds. -/
abbrev Duration := ℕ

/-- Milliseconds of a duration, saturated to 64 bits. -/
def Duration.asMillis (d : Duration) : UInt64 := UInt64.ofNat (min (d / 1000000) (2 ^ 64 - 1))

/-- The runtime counters of one actor. -/
structure StatsCell where
  messagesHandled : UInt64
  handleErrors : UInt64
  panics : UInt64
  handleTimeouts : UInt64
  inFlight : UInt64
  lastHandleMs : UInt64
  maxHandleMs : UInt64
  slowHandles : UInt64
deriving DecidableEq

namespace StatsCell

def new : StatsCell := ⟨0, 0, 0, 0, 0, 0, 0, 0⟩

def beginHandle (c : StatsCell) : StatsCell := { c with inFlight := c.inFlight + 1 }

def finishHandle (elapsed : Duration) (slowThreshold : Option Duration) (c : StatsCell) :
    StatsCell :=
  { c with
    inFlight := c.inFlight - 1
    messagesHandled := c.messagesHandled + 1
    lastHandleMs := elapsed.asMillis
    maxHandleMs := max c.maxHandleMs elapsed.asMillis
    slowHandles := if slowThreshold.any (· < elapsed) then c.slowHandles + 1 else c.slowHandles }

def recordError (c : StatsCell) : StatsCell :=
  { c with handleErrors := c.handleErrors + 1, inFlight := c.inFlight - 1 }

def recordPanic (c : StatsCell) : StatsCell :=
  { c with panics := c.panics + 1, inFlight := c.inFlight - 1 }

/-- The maximum is not updated here: only `finishHandle` does that. -/
def recordTimeout (elapsed : Duration) (c : StatsCell) : StatsCell :=
  { c with
    handleTimeouts := c.handleTimeouts + 1
    inFlight := c.inFlight - 1
    lastHandleMs := elapsed.asMillis }

/-- Keep the statistics after the actor exits but clear the in-flight counter. -/
def markInactive (c : StatsCell) : StatsCell := { c with inFlight := 0 }

end StatsCell

/-- The process-global monitor: the cells of every registered actor. -/
abbrev ActorMonitor := ActorId → Option StatsCell

namespace ActorMonitor

/-- A fresh cell, unless the id has one. -/
def register (m : ActorMonitor) (i : ActorId) : ActorMonitor :=
  Function.update m i (some ((m i).getD .new))

/-- Forget the cell of an id. -/
def unregister (m : ActorMonitor) (i : ActorId) : ActorMonitor := Function.update m i none

/-- Update the cell of an id, if there is one. -/
def record (m : ActorMonitor) (i : ActorId) (f : StatsCell → StatsCell) : ActorMonitor :=
  Function.update m i ((m i).map f)

end ActorMonitor

end LaneSwitchboards
