import Mathlib.Tactic.Common
import Mathlib.Data.List.Infix

/-!
# Bounded first-in first-out channels

A many-producer one-consumer channel with a capacity. A send completes only while there is
room and the receiver is alive; dropping the receiver discards what is queued and makes
every later send fail. `accepted` is the history of the values whose send completed.

* **Conservation**: what is queued is the end of what was accepted (`Chan.Fifo`), in the
  same order, and every operation keeps it so (`Fifo.send`, `Fifo.recv`, `Fifo.close`).
* **Monotonicity**: the history only grows at its end (`accepted_recv`, `accepted_send`), and
  a closed channel stays closed.
-/

/-- A bounded channel: the receiver's side is `isOpen` until the receiver is dropped. -/
structure Chan (α : Type*) where
  capacity : ℕ
  isOpen : Bool
  queue : List α
  /-- History: every value whose send completed, oldest first. -/
  accepted : List α
deriving DecidableEq

namespace Chan

variable {α : Type*} {c c' : Chan α} {a b : α}

/-- The most permits that a semaphore can have, `usize::MAX >> 3`. -/
def maxPermits : ℕ := 2305843009213693951

/-- The capacities that a channel can be made with: not 0, and within the permits of the semaphore
that counts its room. The constructor panics on any other. -/
def Fits (capacity : ℕ) : Prop := 0 < capacity ∧ capacity ≤ maxPermits

instance : DecidablePred Fits := fun _ => inferInstanceAs (Decidable (_ ∧ _))

/-- A fresh channel with room for `capacity` values. -/
def new (capacity : ℕ) : Chan α := ⟨capacity, true, [], []⟩

/-- A channel whose receiver does not exist. -/
def absent : Chan α := ⟨0, false, [], []⟩

/-- Room for one more value. -/
def hasRoom (c : Chan α) : Bool := c.isOpen && decide (c.queue.length < c.capacity)

/-- No room now, but a receiver that may make some: a send has to wait. -/
def isFull (c : Chan α) : Bool := c.isOpen && decide (c.capacity ≤ c.queue.length)

/-- Room for exactly one more value. -/
def hasLastRoom (c : Chan α) : Bool := c.isOpen && decide (c.queue.length + 1 = c.capacity)

/-- Append a value, as a send that completes does. -/
def push (c : Chan α) (a : α) : Chan α :=
  { c with queue := c.queue ++ [a], accepted := c.accepted ++ [a] }

/-- One attempt of an awaiting sender: it completes with the value queued when there is room,
completes without effect when the receiver is gone, and keeps waiting otherwise. -/
def send (c : Chan α) (a : α) : Option (Chan α) :=
  if c.hasRoom then some (c.push a) else if c.isOpen then none else some c

/-- Take the oldest queued value. -/
def recv (c : Chan α) : Option (α × Chan α) :=
  match c.queue with
  | [] => none
  | a :: q => some (a, { c with queue := q })

/-- Drop the receiver. -/
def close (c : Chan α) : Chan α := { c with isOpen := false, queue := [] }

/-! ### What each operation does -/

@[simp] theorem accepted_close : c.close.accepted = c.accepted := rfl

@[simp] theorem queue_close : c.close.queue = [] := rfl

@[simp] theorem isOpen_close : c.close.isOpen = false := rfl

@[simp] theorem isOpen_push : (c.push a).isOpen = c.isOpen := rfl

@[simp] theorem queue_push : (c.push a).queue = c.queue ++ [a] := rfl

@[simp] theorem accepted_push : (c.push a).accepted = c.accepted ++ [a] := rfl

/-- Only an open channel has room. -/
theorem isOpen_of_hasRoom (h : c.hasRoom = true) : c.isOpen = true := by
  simp only [hasRoom, Bool.and_eq_true] at h
  exact h.1

/-- **Send inversion**: the value was queued, or the receiver was gone and nothing changed. -/
theorem send_eq_some : c.send a = some c' ↔
    (c.hasRoom = true ∧ c' = c.push a) ∨ (c.isOpen = false ∧ c' = c) := by
  unfold send
  split_ifs with hroom hopen
  · simp [hroom, isOpen_of_hasRoom hroom, eq_comm]
  · simp [hroom, hopen]
  · simp [hroom, hopen, eq_comm]

/-- **Receive inversion**: the value was the head of the queue. -/
theorem recv_eq_some : c.recv = some (a, c') ↔
    c.queue = a :: c'.queue ∧ c' = { c with queue := c'.queue } := by
  unfold recv
  cases hq : c.queue with
  | nil => simp
  | cons b q =>
    simp only [Option.some.injEq, Prod.mk.injEq, List.cons.injEq]
    constructor
    · rintro ⟨rfl, rfl⟩
      simp
    · rintro ⟨⟨rfl, rfl⟩, h⟩
      exact ⟨rfl, h.symm⟩

theorem recv_eq_none : c.recv = none ↔ c.queue = [] := by
  unfold recv
  cases c.queue <;> simp

theorem accepted_recv (h : c.recv = some (a, c')) : c'.accepted = c.accepted := by
  rw [(recv_eq_some.mp h).2]

theorem isOpen_recv (h : c.recv = some (a, c')) : c'.isOpen = c.isOpen := by
  rw [(recv_eq_some.mp h).2]

theorem isOpen_send (h : c.send a = some c') : c'.isOpen = c.isOpen := by
  rcases send_eq_some.mp h with ⟨-, rfl⟩ | ⟨-, rfl⟩ <;> rfl

/-- **A send has to wait** exactly at a full channel. -/
theorem send_eq_none : c.send a = none ↔ c.isFull = true := by
  unfold send hasRoom isFull
  cases c.isOpen <;> simp

/-- A receive fills no channel. -/
theorem isFull_of_recv (h : c.recv = some (a, c')) (hfull : c'.isFull = true) :
    c.isFull = true := by
  obtain ⟨hq, hc'⟩ := recv_eq_some.mp h
  rw [hc'] at hfull
  simp only [isFull, Bool.and_eq_true, decide_eq_true_eq] at hfull ⊢
  rw [hq, List.length_cons]
  exact ⟨hfull.1, Nat.le_succ_of_le hfull.2⟩

/-- A send fills the channel where it takes the last room. -/
theorem isFull_of_send (h : c.send a = some c') : c'.isFull = true ↔ c.hasLastRoom = true := by
  rcases send_eq_some.mp h with ⟨hroom, rfl⟩ | ⟨hclosed, rfl⟩
  · simp only [hasRoom, Bool.and_eq_true, decide_eq_true_eq] at hroom
    simp only [isFull, hasLastRoom, push, hroom.1, Bool.true_and, decide_eq_true_eq,
      List.length_append, List.length_singleton]
    omega
  · simp [isFull, hasLastRoom, hclosed]

theorem not_isFull_of_hasLastRoom (h : c.hasLastRoom = true) : c.isFull = false := by
  simp only [hasLastRoom, Bool.and_eq_true, decide_eq_true_eq] at h
  simp only [isFull, h.1, Bool.true_and, decide_eq_false_iff_not]
  omega

/-- A value still queued after a receive was queued before it. -/
theorem mem_of_mem_recv (h : c.recv = some (a, c')) (hb : b ∈ c'.queue) : b ∈ c.queue := by
  rw [(recv_eq_some.mp h).1]
  exact List.mem_cons_of_mem _ hb

/-- A value queued after a send was queued before it or is the value sent. -/
theorem mem_of_mem_send (h : c.send a = some c') (hb : b ∈ c'.queue) : b ∈ c.queue ∨ b = a := by
  rcases send_eq_some.mp h with ⟨-, rfl⟩ | ⟨-, rfl⟩
  · simpa using hb
  · exact Or.inl hb

/-! ### Conservation -/

/-- What is queued is the end of what was accepted. -/
def Fifo (c : Chan α) : Prop := c.queue <:+ c.accepted

theorem fifo_new (n : ℕ) : (new n : Chan α).Fifo := List.suffix_rfl

theorem fifo_absent : (absent : Chan α).Fifo := List.suffix_rfl

theorem Fifo.push (h : c.Fifo) : (c.push a).Fifo := by
  obtain ⟨taken, ht⟩ := h
  exact ⟨taken, by rw [queue_push, accepted_push, ← ht, List.append_assoc]⟩

theorem Fifo.send (h : c.Fifo) (hs : c.send a = some c') : c'.Fifo := by
  rcases send_eq_some.mp hs with ⟨-, rfl⟩ | ⟨-, rfl⟩
  · exact h.push
  · exact h

theorem Fifo.recv (h : c.Fifo) (hr : c.recv = some (a, c')) : c'.Fifo := by
  have hq : c'.queue <:+ c.queue := by
    rw [(recv_eq_some.mp hr).1]
    exact List.suffix_cons _ _
  unfold Fifo
  rw [accepted_recv hr]
  exact hq.trans h

/-! ### Capacity -/

/-- No more is queued than the channel has room for. -/
def Bounded (c : Chan α) : Prop := c.queue.length ≤ c.capacity

theorem bounded_new (n : ℕ) : (new n : Chan α).Bounded := Nat.zero_le n

theorem Bounded.send (h : c.Bounded) (hs : c.send a = some c') : c'.Bounded := by
  rcases send_eq_some.mp hs with ⟨hroom, rfl⟩ | ⟨-, rfl⟩
  · simp only [hasRoom, Bool.and_eq_true, decide_eq_true_eq] at hroom
    simp only [Bounded, push, List.length_append, List.length_singleton]
    omega
  · exact h

/-- After a receive there is room. -/
theorem Bounded.not_isFull (h : c.Bounded) (hr : c.recv = some (a, c')) : c'.isFull = false := by
  obtain ⟨hq, hc'⟩ := recv_eq_some.mp hr
  unfold Bounded at h
  rw [hq, List.length_cons] at h
  rw [hc']
  have hlt : ¬ c.capacity ≤ c'.queue.length := by omega
  simp [isFull, hlt]

theorem Bounded.recv (h : c.Bounded) (hr : c.recv = some (a, c')) : c'.Bounded := by
  obtain ⟨hq, hc'⟩ := recv_eq_some.mp hr
  unfold Bounded at h
  rw [hq, List.length_cons] at h
  rw [hc']
  exact Nat.le_of_succ_le h

theorem bounded_close : c.close.Bounded := Nat.zero_le _

end Chan
