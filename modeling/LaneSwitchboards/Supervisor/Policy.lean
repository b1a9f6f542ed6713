import LaneSwitchboards.Actor.Task
import Mathlib.Data.List.Sort

/-!
# The restart policy of a supervisor

What the supervisor decides when it takes a `RestartSignal`, as pure functions of its slots,
its restart log and the time: whether the restart intensity is exceeded
(`SupervisorConfig.exceeded`), and else which slots are restarted (`toRestart`). The slots are
sorted by order once, before the first spawn.

* `mem_toRestart`: which slots a strategy restarts.
* `toRestart_of_stale`: a signal whose child has no slot restarts nothing under OneForOne and
  **every** slot under the two other strategies.
* `order_le_of_mem_toRestart`: with the id of a slot, RestForOne restarts no slot of lower
  order.
-/

namespace LaneSwitchboards

/-- Restart strategy. -/
inductive RestartStrategy
  | oneForOne
  | oneForAll
  | restForOne
deriving DecidableEq

/-- What to do when the restart intensity is exceeded. -/
inductive IntensityAction
  | shutdownSupervisor
  | abandonChild
deriving DecidableEq

/-- Supervisor configuration. -/
structure SupervisorConfig where
  strategy : RestartStrategy
  maxRestarts : ℕ
  withinSecs : ℕ
  intensityAction : IntensityAction
  /-- Restart-signal queue capacity. -/
  mailboxCapacity : ℕ
deriving DecidableEq

/-- The default configuration. -/
def SupervisorConfig.default : SupervisorConfig := ⟨.oneForOne, 5, 10, .shutdownSupervisor, 32⟩

/-- A point of the monotonic clock, in nanoseconds. -/
abbrev Instant := ℤ

/-- `now - Duration::from_secs(secs)`, which panics where the seconds leave 64 bits. -/
def Instant.sub (now : Instant) (secs : ℕ) : Option Instant :=
  let t := now - secs * 1000000000
  if -(2 ^ 63) * 1000000000 ≤ t then some t else none

/-- A child slot: the id of its current instance and its place in the start order. -/
structure Slot where
  id : ActorId
  order : ℕ
deriving DecidableEq

namespace Slot

/-- The stable sort of the slots before the first spawn. -/
def sortByOrder (slots : List Slot) : List Slot := slots.insertionSort (·.order ≤ ·.order)

/-- The slot of a child. -/
def position (slots : List Slot) (child : ActorId) : Option ℕ := slots.findIdx? (·.id = child)

/-- `set_id` of one slot. -/
def setId (slots : List Slot) (idx : ℕ) (id : ActorId) : List Slot :=
  slots.modify idx fun s => { s with id := id }

/-- Mark the slot of a child as dead, after an intensity breach. -/
def abandon (slots : List Slot) (child : ActorId) : List Slot :=
  match position slots child with
  | some idx => setId slots idx .DEAD
  | none => slots

/-- The order that RestForOne starts from. A child without a slot counts as order 0. -/
def failedOrder (slots : List Slot) (child : ActorId) : ℕ :=
  ((slots.find? (·.id = child)).map Slot.order).getD 0

end Slot

open Slot

/-- The slots to restart, in this order, when `child` has failed. -/
def RestartStrategy.toRestart (strategy : RestartStrategy) (slots : List Slot)
    (child : ActorId) : List ℕ :=
  match strategy with
  | .oneForOne => (position slots child).toList
  | .oneForAll => List.range slots.length
  | .restForOne => (List.range slots.length).filter fun idx =>
      slots[idx]?.any (failedOrder slots child ≤ ·.order)

/-- The restart log when a signal is taken: what is older than the window is dropped and the
new restart is counted. -/
def pruneLog (log : List Instant) (cutoff now : Instant) : List Instant :=
  log.dropWhile (· < cutoff) ++ [now]

/-- The restart intensity is exceeded. -/
def SupervisorConfig.exceeded (config : SupervisorConfig) (log : List Instant) : Prop :=
  config.maxRestarts < log.length

instance (config : SupervisorConfig) (log : List Instant) : Decidable (config.exceeded log) :=
  inferInstanceAs (Decidable (_ < _))

/-! ### Slots keep their order -/

namespace Slot

variable {slots : List Slot} {idx j : ℕ} {id child : ActorId} {s : Slot}

@[simp] theorem map_order_setId : (setId slots idx id).map order = slots.map order := by
  refine List.ext_getElem? fun j => ?_
  simp only [setId, List.getElem?_map, List.getElem?_modify]
  cases slots[j]? with
  | none => rfl
  | some s => by_cases hj : idx = j <;> simp [hj]

@[simp] theorem map_order_abandon : (abandon slots child).map order = slots.map order := by
  unfold abandon
  split
  · exact map_order_setId
  · rfl

/-- A slot after `set_id`: it has the new id, or is another slot as it was. -/
theorem getElem?_setId (h : (setId slots idx id)[j]? = some s) :
    j = idx ∧ s.id = id ∨ j ≠ idx ∧ slots[j]? = some s := by
  rw [setId, List.getElem?_modify] at h
  obtain ⟨s', hs', rfl⟩ := Option.map_eq_some_iff.mp h
  by_cases hj : idx = j
  · exact Or.inl ⟨hj.symm, by simp [hj]⟩
  · exact Or.inr ⟨fun h => hj h.symm, by simp [hj, hs']⟩

/-- The slot found for a child has its id. -/
theorem getElem?_position (h : position slots child = some idx) :
    ∃ s, slots[idx]? = some s ∧ s.id = child := by
  obtain ⟨hlt, hid, -⟩ := List.findIdx?_eq_some_iff_getElem.mp h
  exact ⟨slots[idx], List.getElem?_eq_getElem hlt, by simpa using hid⟩

/-- A slot after `abandon`: it was the child's and is dead now, or is as it was. -/
theorem getElem?_abandon (h : (abandon slots child)[j]? = some s) :
    (∃ s', slots[j]? = some s' ∧ s'.id = child ∧ s.id = .DEAD) ∨ slots[j]? = some s := by
  unfold abandon at h
  split at h
  · next idx hidx =>
    rcases getElem?_setId h with ⟨rfl, hid⟩ | ⟨-, hold⟩
    · obtain ⟨s', hs', hchild⟩ := getElem?_position hidx
      exact Or.inl ⟨s', hs', hchild, hid⟩
    · exact Or.inr hold
  · exact Or.inr h

end Slot

/-! ### Which slots are restarted -/

variable {strategy : RestartStrategy} {slots : List Slot} {child : ActorId} {idx : ℕ} {s : Slot}

/-- The child is not the current instance of any slot. -/
def Stale (slots : List Slot) (child : ActorId) : Prop := ∀ s ∈ slots, s.id ≠ child

instance : Decidable (Stale slots child) := inferInstanceAs (Decidable (∀ s ∈ slots, s.id ≠ child))

theorem position_eq_none : position slots child = none ↔ Stale slots child := by
  simp [position, Stale, List.findIdx?_eq_none_iff]

theorem failedOrder_of_stale (h : Stale slots child) : failedOrder slots child = 0 := by
  have hnone : slots.find? (·.id = child) = none := by simpa [Stale] using h
  rw [failedOrder, hnone]
  rfl

/-- The slots RestForOne restarts. -/
theorem mem_toRestart_restForOne : idx ∈ RestartStrategy.restForOne.toRestart slots child ↔
    ∃ s, slots[idx]? = some s ∧ failedOrder slots child ≤ s.order := by
  simp only [RestartStrategy.toRestart, List.mem_filter, List.mem_range]
  constructor
  · rintro ⟨hlt, hany⟩
    rw [List.getElem?_eq_getElem hlt] at hany ⊢
    exact ⟨_, rfl, by simpa using hany⟩
  · rintro ⟨s, hs, hle⟩
    refine ⟨(List.getElem?_eq_some_iff.mp hs).1, ?_⟩
    rw [hs]
    simpa using hle

/-- Only slots that exist are restarted. -/
theorem lt_of_mem_toRestart (h : idx ∈ strategy.toRestart slots child) : idx < slots.length := by
  cases strategy with
  | oneForOne =>
    simp only [RestartStrategy.toRestart, Option.mem_toList, position] at h
    exact (List.findIdx?_eq_some_iff_findIdx_eq.mp h).1
  | oneForAll => exact List.mem_range.mp h
  | restForOne => exact List.mem_range.mp (List.mem_filter.mp h).1

/-- A slot is restarted once. -/
theorem nodup_toRestart : (strategy.toRestart slots child).Nodup := by
  cases strategy with
  | oneForOne => cases h : position slots child <;> simp [RestartStrategy.toRestart, h]
  | oneForAll => exact List.nodup_range
  | restForOne => exact List.nodup_range.filter _

/-- **A stale signal** restarts nothing under OneForOne, and every slot under the two other
strategies: RestForOne takes the order of the missing child to be 0. -/
theorem toRestart_of_stale (h : Stale slots child) : strategy.toRestart slots child =
    if strategy = .oneForOne then [] else List.range slots.length := by
  cases strategy with
  | oneForOne => simp [RestartStrategy.toRestart, position_eq_none.mpr h]
  | oneForAll => rfl
  | restForOne =>
    simp only [RestartStrategy.toRestart, reduceCtorEq, if_false, failedOrder_of_stale h]
    refine List.filter_eq_self.mpr fun idx hidx => ?_
    rw [List.getElem?_eq_getElem (List.mem_range.mp hidx)]
    simp

/-- The order of a slot whose id is the child's, where no other slot has that id. -/
theorem failedOrder_eq (hs : slots[idx]? = some s) (hid : s.id = child)
    (huniq : ∀ j s', slots[j]? = some s' → s'.id = child → j = idx) :
    failedOrder slots child = s.order := by
  obtain ⟨s', hfind⟩ : ∃ s', slots.find? (·.id = child) = some s' := by
    refine Option.isSome_iff_exists.mp (List.find?_isSome.mpr ⟨s, ?_, by simpa using hid⟩)
    exact List.mem_of_getElem? hs
  obtain ⟨j, hj⟩ := List.mem_iff_getElem?.mp (List.mem_of_find?_eq_some hfind)
  have hid' : s'.id = child := by simpa using List.find?_some hfind
  obtain rfl := huniq j s' hj hid'
  obtain rfl : s = s' := Option.some.inj (hs.symm.trans hj)
  rw [failedOrder, hfind]
  rfl

/-- RestForOne restarts no slot of lower order than the child's slot. -/
theorem order_le_of_mem_toRestart {j : ℕ} {s' : Slot} (hs : slots[idx]? = some s)
    (hid : s.id = child) (huniq : ∀ j s', slots[j]? = some s' → s'.id = child → j = idx)
    (hj : j ∈ RestartStrategy.restForOne.toRestart slots child) (hs' : slots[j]? = some s') :
    s.order ≤ s'.order := by
  obtain ⟨s'', hs'', hle⟩ := mem_toRestart_restForOne.mp hj
  obtain rfl : s' = s'' := Option.some.inj (hs'.symm.trans hs'')
  rwa [failedOrder_eq hs hid huniq] at hle

end LaneSwitchboards
