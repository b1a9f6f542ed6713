import Mathlib.Data.Int.CardIntervalMod

/-!
# Taking turns

A counter that is read modulo `n` goes through `n` places in turn. `places n start k` lists the
places of `k` consecutive values of the counter, from any start. It grows at its end
(`places_succ`), and no two places are ever more than one turn apart (`count_places_le`).
-/

namespace Turns

/-- The places of `k` consecutive values of a counter. -/
def places (n start k : ℕ) : List ℕ := (List.range k).map fun j => (start + j) % n

variable {n start k i j : ℕ}

@[simp] theorem places_zero : places n start 0 = [] := rfl

/-- The last of the places. -/
theorem places_succ : places n start (k + 1) = places n start k ++ [(start + k) % n] := by
  simp [places, List.range_succ]

/-- How often a place has its turn: as often as the counter passes a number with its residue. -/
theorem count_places (hi : i < n) :
    (places n start k).count i = Nat.count (fun j => start + j ≡ i [MOD n]) k := by
  induction k with
  | zero => simp
  | succ k ih =>
    have hmod : start + k ≡ i [MOD n] ↔ (start + k) % n = i := by
      rw [Nat.ModEq, Nat.mod_eq_of_lt hi]
    rw [places_succ, List.count_append, ih, Nat.count_succ, List.count_singleton]
    simp only [hmod, beq_iff_eq]

/-- The turns of a place, from the first and the last value of the counter. -/
theorem count_places_add (hi : i < n) (start k : ℕ) :
    (start / n + if i < start % n then 1 else 0) + (places n start k).count i =
      (start + k) / n + if i < (start + k) % n then 1 else 0 := by
  have hn : 0 < n := Nat.zero_lt_of_lt hi
  have hsplit := Nat.count_add (· ≡ i [MOD n]) start k
  rw [Nat.count_modEq_card _ hn, Nat.count_modEq_card _ hn, Nat.mod_eq_of_lt hi] at hsplit
  rw [count_places hi, hsplit]

/-- **Nobody is more than one turn ahead**, from any start and over any number of turns. -/
theorem count_places_le (hi : i < n) (hj : j < n) :
    (places n start k).count i ≤ (places n start k).count j + 1 := by
  have hiturns := count_places_add hi start k
  have hjturns := count_places_add hj start k
  -- a place that is ahead by two had a turn more at the end and one less at the start
  split_ifs at hiturns hjturns <;> omega

end Turns
