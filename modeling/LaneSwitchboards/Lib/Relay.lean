import LaneSwitchboards.Lib.Chan

/-!
# A relay between two channels

A task that takes values from one channel and sends each to another one,
`while let Some(a) = rx.recv() { tx.send(f(a)) }`, holds at most one value in between. As long as
nothing else sends to the second channel, the two channels and the relay are one longer first-in
first-out queue: what the second channel has accepted, what the relay holds and what the first one
has queued, in this order, is what the first one has accepted (`Relay.Carries`).
-/

variable {α β : Type*} {f : α → β} {src src' : Chan α} {dst dst' : Chan β} {hand sent : List α}
  {a : α}

namespace Chan

variable {c c' : Chan α}

theorem capacity_send (h : c.send a = some c') : c'.capacity = c.capacity := by
  rcases send_eq_some.mp h with ⟨-, rfl⟩ | ⟨-, rfl⟩ <;> rfl

theorem capacity_recv (h : c.recv = some (a, c')) : c'.capacity = c.capacity := by
  rw [(recv_eq_some.mp h).2]

theorem Bounded.push (h : c.hasRoom = true) : (c.push a).Bounded := by
  simp only [hasRoom, Bool.and_eq_true, decide_eq_true_eq] at h
  simp only [Bounded, Chan.push, List.length_append, List.length_singleton]
  omega

end Chan

namespace Relay

/-- The values `sent` have reached `dst`, and those of `hand` are on their way; the rest of what
`src` has accepted is queued there. -/
structure Carries (f : α → β) (src : Chan α) (hand : List α) (dst : Chan β) (sent : List α) :
    Prop where
  passed : dst.accepted = sent.map f
  split : src.accepted = sent ++ hand ++ src.queue

/-- Two fresh channels. -/
theorem carries_new (f : α → β) (m n : ℕ) : Carries f (.new m) [] (.new n) [] := ⟨rfl, rfl⟩

/-- The first channel takes a value. -/
theorem Carries.accept (h : Carries f src hand dst sent) (hsend : src.send a = some src') :
    Carries f src' hand dst sent := by
  rcases Chan.send_eq_some.mp hsend with ⟨-, rfl⟩ | ⟨-, rfl⟩
  · refine ⟨h.passed, ?_⟩
    rw [Chan.accepted_push, Chan.queue_push, h.split, List.append_assoc]
  · exact h

/-- The relay takes a value. -/
theorem Carries.recv (h : Carries f src [] dst sent) (hrecv : src.recv = some (a, src')) :
    Carries f src' [a] dst sent := by
  refine ⟨h.passed, ?_⟩
  rw [Chan.accepted_recv hrecv, h.split, (Chan.recv_eq_some.mp hrecv).1]
  simp

/-- The relay passes on the value that it holds. -/
theorem Carries.send (h : Carries f src [a] dst sent) :
    Carries f src [] (dst.push (f a)) (sent ++ [a]) := by
  refine ⟨?_, ?_⟩
  · rw [Chan.accepted_push, h.passed, List.map_append, List.map_singleton]
  · rw [h.split, List.append_nil]

/-- The second channel is read from, or closed. -/
theorem Carries.of_accepted (h : Carries f src hand dst sent)
    (hdst : dst'.accepted = dst.accepted) : Carries f src hand dst' sent :=
  ⟨hdst.trans h.passed, h.split⟩

end Relay
