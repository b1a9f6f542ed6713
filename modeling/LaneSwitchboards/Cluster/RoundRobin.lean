import LaneSwitchboards.Cluster.Roster
import LaneSwitchboards.Lib.Trace
import LaneSwitchboards.Lib.Turns

/-!
# Round-robin sends

`Cluster::next` with concurrent callers, which share the cluster: a call reads and advances the
counter with one `fetch_add`, and returns the reference at its value modulo the length later, when
others have come in between. The roster does not change meanwhile, since `join` and `leave` need
the cluster for themselves.

* `selected_eq`: the calls of a window select the places in turn, from wherever the counter was.
* `roundRobin_fair`: so no member is selected twice more than another.
-/

namespace LaneSwitchboards

open Function Transition

/-- A caller of `next`. -/
abbrev CallerId := ℕ

/-- A cluster and the calls in progress: the position that each has selected. -/
structure RoundRobin where
  cluster : Cluster
  calls : CallerId → Option ℕ

/-- What a caller does. -/
inductive TurnEvent
  /-- `fetch_add`, or the error on an empty roster. -/
  | fetch (k : CallerId)
  /-- The call returns the reference. -/
  | ret (k : CallerId)
deriving DecidableEq

namespace RoundRobin

/-- A cluster that nobody is calling. -/
def idle (cluster : Cluster) : RoundRobin := ⟨cluster, fun _ => none⟩

/-- One step of a caller. A call whose position is out of bounds does not return. -/
def step (s : RoundRobin) : TurnEvent → Option RoundRobin
  | .fetch k =>
    if (s.calls k).isSome then none
    else if s.cluster.refs = [] then some s
    else some
      { cluster := { s.cluster with next := s.cluster.next + 1 }
        calls := update s.calls k (some (s.cluster.next % s.cluster.refs.length)) }
  | .ret k => (s.calls k).bind fun idx => (s.cluster.refs[idx]?).map fun _ =>
    { s with calls := update s.calls k none }

/-- Execute a list of steps. -/
abbrev run : RoundRobin → List TurnEvent → Option RoundRobin := Transition.run step

/-- The position that a step selects. -/
def selects (s : RoundRobin) : TurnEvent → List ℕ
  | .fetch _ => if s.cluster.refs = [] then [] else [s.cluster.next % s.cluster.refs.length]
  | .ret _ => []

/-- The positions that the calls of a run select, in the order of their `fetch_add`. -/
def selected (s : RoundRobin) (es : List TurnEvent) : List ℕ :=
  trace step (fun s e _ => s.selects e) s es

variable {s s' : RoundRobin} {e : TurnEvent} {es : List TurnEvent} {k : CallerId} {i j : ℕ}

/-- A `fetch_add` is a call of `next`: it sends where `next` does and leaves the same cluster. -/
theorem step_fetch (hash : List UInt8 → U64) (h : s.step (.fetch k) = some s') :
    s.cluster.step hash .next = some s'.cluster ∧
      s.selects (.fetch k) = s.cluster.targets hash .next := by
  refine ⟨?_, rfl⟩
  simp only [step] at h
  split_ifs at h with hbusy hempty
  · cases h
    simp only [Cluster.step, if_pos hempty]
  · cases h
    simp only [Cluster.step, if_neg hempty]

/-! ### What a call returns -/

/-- The calls in progress have selected positions of the roster. -/
def Bounded (s : RoundRobin) : Prop := ∀ k idx, s.calls k = some idx → idx < s.cluster.refs.length

theorem bounded_idle (cluster : Cluster) : (idle cluster).Bounded := fun _ _ h => by cases h

theorem Bounded.step (hb : s.Bounded) (h : s.step e = some s') : s'.Bounded := by
  cases e with
  | fetch k =>
    simp only [RoundRobin.step] at h
    split_ifs at h with hbusy hempty
    · exact Option.some.inj h ▸ hb
    · cases h
      intro k' idx hidx
      simp only [update_apply] at hidx
      split_ifs at hidx
      · rw [← Option.some.inj hidx]
        exact Nat.mod_lt _ (List.length_pos_iff.mpr hempty)
      · exact hb k' idx hidx
  | ret k =>
    simp only [RoundRobin.step, Option.bind_eq_some_iff, Option.map_eq_some_iff] at h
    obtain ⟨_, -, _, -, rfl⟩ := h
    intro k' idx hidx
    simp only [update_apply] at hidx
    split_ifs at hidx
    exact hb k' idx hidx

/-- **A call returns** the reference that it has selected. -/
theorem returns_of_run {cluster : Cluster} (hrun : (idle cluster).run es = some s)
    (hk : s.calls k = some i) : ∃ r, s.cluster.refs[i]? = some r ∧
      s.step (.ret k) = some { s with calls := update s.calls k none } := by
  have hb : s.Bounded := invariant_run Bounded.step (bounded_idle cluster) hrun
  have hlt := hb k i hk
  refine ⟨s.cluster.refs[i], List.getElem?_eq_getElem hlt, ?_⟩
  simp [RoundRobin.step, hk, hlt]

/-! ### Whose turn it is -/

/-- **What a window of calls leaves behind**: the counter has advanced by one for each of them. -/
theorem window_spec (hrun : s.run es = some s') :
    s'.cluster.refs = s.cluster.refs ∧
    s'.cluster.next.val = (s.cluster.next.val + (s.selected es).length) % 2 ^ 64 ∧
    s.selected es = (List.range (s.selected es).length).map fun n =>
      (s.cluster.next.val + n) % 2 ^ 64 % s.cluster.refs.length := by
  refine run_induction (motive := fun es t => t.cluster.refs = s.cluster.refs ∧
    t.cluster.next.val = (s.cluster.next.val + (s.selected es).length) % 2 ^ 64 ∧
    s.selected es = (List.range (s.selected es).length).map fun n =>
      (s.cluster.next.val + n) % 2 ^ 64 % s.cluster.refs.length) ?_ ?_ hrun
  · exact ⟨rfl, (Nat.mod_eq_of_lt s.cluster.next.isLt).symm, rfl⟩
  · rintro es t e t' hrun ⟨hrefs, hnext, hsel⟩ hst
    have hconcat : s.selected (es ++ [e]) = s.selected es ++ t.selects e := trace_concat hrun hst
    cases e with
    | fetch k =>
      simp only [step] at hst
      split_ifs at hst with hbusy hempty
      · cases hst
        simp only [hconcat, selects, if_pos hempty, List.append_nil]
        exact ⟨hrefs, hnext, hsel⟩
      · cases hst
        simp only [hconcat, selects, if_neg hempty, List.length_append, List.length_singleton]
        refine ⟨hrefs, ?_, ?_⟩
        · rw [Fin.val_add, hnext]
          simp [← Nat.add_assoc, Nat.add_mod]
        · rw [List.range_succ, List.map_append, ← hsel, hnext, hrefs]
          rfl
    | ret k =>
      simp only [step, Option.bind_eq_some_iff, Option.map_eq_some_iff] at hst
      obtain ⟨_, -, _, -, rfl⟩ := hst
      simp only [hconcat, selects, List.append_nil]
      exact ⟨hrefs, hnext, hsel⟩

/-- **The members in turn**: while the counter does not wrap, the calls of a window select the
places of consecutive numbers. -/
theorem selected_eq (hrun : s.run es = some s')
    (hwrap : s.cluster.next.val + (s.selected es).length ≤ 2 ^ 64) :
    s.selected es =
      Turns.places s.cluster.refs.length s.cluster.next.val (s.selected es).length := by
  have hsel := (window_spec hrun).2.2
  refine hsel.trans (List.map_congr_left fun n hn => ?_)
  have hlt : s.cluster.next.val + n < 2 ^ 64 :=
    (Nat.add_lt_add_left (List.mem_range.mp hn) _).trans_le hwrap
  rw [Nat.mod_eq_of_lt hlt]

/-- **Round robin is fair.** For every roster, every interleaving of the callers and every window
of calls in which the counter does not wrap, from wherever it was left, the numbers of times that
two members are selected differ by at most one. -/
theorem roundRobin_fair (hrun : s.run es = some s')
    (hwrap : s.cluster.next.val + (s.selected es).length ≤ 2 ^ 64)
    (hi : i < s.cluster.refs.length) (hj : j < s.cluster.refs.length) :
    (s.selected es).count i ≤ (s.selected es).count j + 1 := by
  rw [selected_eq hrun hwrap]
  exact Turns.count_places_le hi hj

/-- Two members, and a counter that an earlier roster has left at 5. -/
def twoMembers : RoundRobin := idle
  { Cluster.withVirtualNodes 1 with
    members := [⟨"a", "127.0.0.1:9001", "t"⟩, ⟨"b", "127.0.0.1:9002", "t"⟩]
    refs := [⟨"127.0.0.1:9001", "t", 0⟩, ⟨"127.0.0.1:9002", "t", 1⟩]
    next := 5 }

/-- Two callers at the same time, and one that calls again. -/
def threeCalls : List TurnEvent := [.fetch 0, .fetch 1, .ret 1, .fetch 1, .ret 0]

/-- The selections of these calls. -/
theorem roundRobin_threeCalls : twoMembers.selected threeCalls = [1, 0, 1] ∧
    (twoMembers.selected threeCalls).count 1 ≤ (twoMembers.selected threeCalls).count 0 + 1 := by
  have hsome : (twoMembers.run threeCalls).isSome := rfl
  have hrun := (Option.some_get hsome).symm
  exact ⟨by decide, roundRobin_fair hrun (by decide) (by decide) (by decide)⟩

end RoundRobin

end LaneSwitchboards
