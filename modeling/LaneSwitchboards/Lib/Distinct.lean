import Mathlib.Data.Finset.Card
import Mathlib.Data.List.Infix
import Mathlib.Data.List.Nodup

/-!
# First occurrences

`eraseDups` keeps the first occurrence of each element.

* `eraseDups_filter`: it commutes with a filter.
* `filter_take_isPrefix`: what is left of the first elements is the beginning of what is left.
* `nodup_eraseDups`, `length_eraseDups`: it lists each element once.
-/

namespace LaneSwitchboards

variable {α : Type} {l : List α} {p : α → Bool} {k : ℕ}

/-- **First occurrences** of the elements that satisfy a condition. -/
theorem eraseDups_filter [DecidableEq α] (p : α → Bool) (l : List α) :
    (l.filter p).eraseDups = l.eraseDups.filter p := by
  match l with
  | [] => rfl
  | a :: l =>
    have hlt : (l.filter fun b => !b == a).length < (a :: l).length :=
      Nat.lt_succ_of_le (List.length_filter_le _ _)
    have hswap : (l.filter p).filter (fun b => !b == a) =
        (l.filter fun b => !b == a).filter p := by
      rw [List.filter_filter, List.filter_filter]
      exact List.filter_congr fun b _ => Bool.and_comm _ _
    rw [List.eraseDups_cons]
    by_cases ha : p a = true
    · rw [List.filter_cons_of_pos ha, List.filter_cons_of_pos ha, List.eraseDups_cons, hswap,
        eraseDups_filter p]
    · rw [List.filter_cons_of_neg ha, List.filter_cons_of_neg ha, ← eraseDups_filter p]
      have hsame : (l.filter p).filter (fun b => !b == a) = l.filter p := by
        refine List.filter_eq_self.mpr fun b hb => ?_
        have hba : b ≠ a := by
          rintro rfl
          exact ha (List.mem_filter.mp hb).2
        simpa using hba
      rw [← hswap, hsame]
termination_by l.length
decreasing_by
  · exact hlt
  · exact hlt

/-- The first elements that satisfy a condition are a beginning of all that do. -/
theorem filter_take_isPrefix (p : α → Bool) (l : List α) (k : ℕ) :
    (l.take k).filter p <+: (l.filter p).take k := by
  induction l generalizing k with
  | nil => simp
  | cons a l ih =>
    cases k with
    | zero => simp
    | succ k =>
      by_cases ha : p a = true
      · simpa [List.filter_cons_of_pos ha] using ih k
      · rw [List.take_succ_cons, List.filter_cons_of_neg ha, List.filter_cons_of_neg ha]
        exact (ih k).trans (List.take_prefix_take_left (Nat.le_succ k))

/-- Where the first elements all satisfy a condition, they are the first that do. -/
theorem take_filter_of_forall (h : ∀ a ∈ l.take k, p a = true) :
    (l.filter p).take k = l.take k := by
  induction l generalizing k with
  | nil => simp
  | cons a l ih =>
    cases k with
    | zero => simp
    | succ k =>
      have ha : p a = true := h a (by simp)
      rw [List.filter_cons_of_pos ha, List.take_succ_cons, List.take_succ_cons,
        ih fun b hb => h b (by simp [hb])]

theorem nodup_eraseDups [DecidableEq α] (l : List α) : l.eraseDups.Nodup := by
  induction l with
  | nil => exact List.nodup_nil
  | cons a l ih =>
    rw [List.eraseDups_cons, eraseDups_filter, List.nodup_cons]
    exact ⟨by simp, ih.filter _⟩

/-- There are as many first occurrences as different elements. -/
theorem length_eraseDups [DecidableEq α] (l : List α) : l.eraseDups.length = l.toFinset.card := by
  rw [← List.toFinset_card_of_nodup (nodup_eraseDups l)]
  congr 1
  ext a
  simp

end LaneSwitchboards
