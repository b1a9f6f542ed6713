import Mathlib.Data.List.TakeWhile
import Mathlib.Order.Lattice
import Mathlib.Tactic.Common

/-!
# Sliding windows

Arrivals come at non-decreasing times, and a log keeps those of the last while: on an arrival at
`t` it drops from its front what is before the cutoff `cut t`, and takes in `t`.

* `Logs.record`: the log is the part of the whole history that is not before the cutoff, although
  it is pruned only on arrivals and only from the front.
* `countP_between_lt`: what has arrived in a window that reaches back to the cutoff of `t`
  at most is in the log of `t`.
-/

namespace SlidingWindow

variable {α : Type*} [LinearOrder α] {cut : α → α} {hist log l : List α} {a b c t : α}

/-- The arrivals up to `t`, itself included, that are not before its cutoff. -/
def window (cut : α → α) (hist : List α) (t : α) : List α := (hist ++ [t]).filter (cut t ≤ ·)

/-- Pruning a sorted list from its front is a filter. -/
theorem dropWhile_lt_eq_filter (h : l.Pairwise (· ≤ ·)) (c : α) :
    l.dropWhile (· < c) = l.filter (c ≤ ·) := by
  induction l with
  | nil => rfl
  | cons x l ih =>
    obtain ⟨hx, hl⟩ := List.pairwise_cons.mp h
    by_cases hc : x < c
    · have hkeep : ¬ c ≤ x := not_le.mpr hc
      rw [List.dropWhile_cons_of_pos (by simpa using hc),
        List.filter_cons_of_neg (by simpa using hkeep), ih hl]
    · rw [List.dropWhile_cons_of_neg (by simpa using hc)]
      refine (List.filter_eq_self.mpr fun y hy => ?_).symm
      have hcx : c ≤ x := not_lt.mp hc
      rcases List.mem_cons.mp hy with rfl | hy
      · simpa using hcx
      · simpa using hcx.trans (hx y hy)

/-- A filter by an earlier cutoff does not matter to a later one. -/
theorem filter_filter_le (h : c ≤ b) :
    (l.filter (c ≤ ·)).filter (b ≤ ·) = l.filter (b ≤ ·) := by
  rw [List.filter_filter]
  refine List.filter_congr fun x _ => ?_
  by_cases hb : b ≤ x
  · simp [hb, h.trans hb]
  · simp [hb]

/-- The log of a history: what an arrival at any time to come will keep of the history, it will
keep of the log. -/
structure Logs (cut : α → α) (hist log : List α) : Prop where
  sorted : hist.Pairwise (· ≤ ·)
  sublist : log.Sublist hist
  agree : ∀ t, (∀ x ∈ hist, x ≤ t) → log.filter (cut t ≤ ·) = hist.filter (cut t ≤ ·)

theorem logs_nil : Logs cut [] [] := ⟨.nil, .slnil, fun _ _ => rfl⟩

/-- **An arrival** leaves the window of the whole history in the log. -/
theorem Logs.record (h : Logs cut hist log) (hcut : Monotone cut) (hself : cut t ≤ t)
    (ht : ∀ x ∈ hist, x ≤ t) :
    log.dropWhile (· < cut t) ++ [t] = window cut hist t ∧
      Logs cut (hist ++ [t]) (log.dropWhile (· < cut t) ++ [t]) := by
  have hwindow : log.dropWhile (· < cut t) ++ [t] = window cut hist t := by
    have hsorted : log.Pairwise (· ≤ ·) := h.sorted.sublist h.sublist
    have hlast : [t].filter (cut t ≤ ·) = [t] := by simp [hself]
    rw [dropWhile_lt_eq_filter hsorted, h.agree t ht, window, List.filter_append, hlast]
  refine ⟨hwindow, ?_⟩
  rw [hwindow]
  refine ⟨?_, List.filter_sublist, fun u hu => ?_⟩
  · refine List.pairwise_append.mpr ⟨h.sorted, List.pairwise_singleton _ _, fun x hx y hy => ?_⟩
    obtain rfl := List.mem_singleton.mp hy
    exact ht x hx
  · have htu : t ≤ u := hu t (List.mem_append_right _ List.mem_cons_self)
    exact filter_filter_le (hcut htu)

variable (hist) in
/-- What has arrived between `a` and `b`, and `t` besides, is in the window of `t`, if that
reaches back to `a`. -/
theorem countP_between_lt (ha : cut t ≤ a) (hself : cut t ≤ t) :
    hist.countP (fun x => a ≤ x ∧ x ≤ b) < (window cut hist t).length := by
  have hle : hist.countP (fun x => a ≤ x ∧ x ≤ b) ≤ hist.countP (cut t ≤ ·) := by
    refine List.countP_mono_left fun x _ hx => ?_
    have hax : a ≤ x := (by simpa using hx : a ≤ x ∧ x ≤ b).1
    simpa using ha.trans hax
  have hlen : (window cut hist t).length = hist.countP (cut t ≤ ·) + 1 := by
    simp [window, List.filter_append, hself, List.countP_eq_length_filter]
  omega

end SlidingWindow
