import LaneSwitchboards.Lib.Transition

/-!
# Counting along a run

`Occurs` says that some step of a run satisfies a condition, `tally` adds up what each step of it
counts for. A quantity that every step changes by what it counts for is the tally of the run
(`tally_concat`).
-/

namespace Transition

variable {σ ε : Type*}

/-- Some step taken while executing the events satisfies `Q`. -/
def Occurs (step : σ → ε → Option σ) (Q : σ → ε → σ → Prop) : σ → List ε → Prop
  | _, [] => False
  | s, e :: es => ∃ s', step s e = some s' ∧ (Q s e s' ∨ Occurs step Q s' es)

/-- What the steps taken while executing the events count for. -/
def tally (step : σ → ε → Option σ) (f : σ → ε → σ → ℕ) : σ → List ε → ℕ
  | _, [] => 0
  | s, e :: es => (step s e).elim 0 fun s' => f s e s' + tally step f s' es

section Counting

variable {step : σ → ε → Option σ} {Q : σ → ε → σ → Prop} {f g : σ → ε → σ → ℕ}
  {s s' s'' : σ} {e : ε} {es : List ε}

/-- A condition that no step satisfies fails along the run. -/
theorem not_occurs_iff : ¬ Occurs step Q s es ↔ Along step (fun s e s' => ¬ Q s e s') s es := by
  induction es generalizing s with
  | nil => simp [Occurs]
  | cons e es ih =>
    simp only [Occurs, along_cons, not_exists, not_and, not_or]
    exact forall_congr' fun s' => imp_congr_right fun _ => and_congr_right fun _ => ih

/-- What has occurred up to the last step, or in it. -/
theorem occurs_concat (hrun : run step s es = some s') (h : step s' e = some s'') :
    Occurs step Q s (es ++ [e]) ↔ Occurs step Q s es ∨ Q s' e s'' := by
  rw [← not_iff_not, not_or, not_occurs_iff, not_occurs_iff, along_concat]
  refine and_congr_right fun _ => ⟨fun hlast => hlast s' s'' hrun h, fun hq t t' ht ht' => ?_⟩
  obtain rfl : s' = t := Option.some.inj (hrun.symm.trans ht)
  obtain rfl : s'' = t' := Option.some.inj (h.symm.trans ht')
  exact hq

theorem tally_cons_of_step (h : step s e = some s') :
    tally step f s (e :: es) = f s e s' + tally step f s' es := by
  rw [tally, h]
  rfl

/-- **The last step of a run** adds what it counts for. -/
theorem tally_concat (hrun : run step s es = some s') (h : step s' e = some s'') :
    tally step f s (es ++ [e]) = tally step f s es + f s' e s'' := by
  induction es generalizing s with
  | nil =>
    obtain rfl : s = s' := Option.some.inj hrun
    rw [List.nil_append, tally_cons_of_step h]
    simp [tally]
  | cons d es ih =>
    obtain ⟨u, hu, hrest⟩ := Option.bind_eq_some_iff.mp hrun
    rw [List.cons_append, tally_cons_of_step hu, tally_cons_of_step hu, ih hrest, Nat.add_assoc]

/-- Nothing is counted iff no step counts. -/
theorem tally_eq_zero :
    tally step f s es = 0 ↔ Along step (fun s e s' => f s e s' = 0) s es := by
  induction es generalizing s with
  | nil => simp [tally]
  | cons e es ih =>
    cases hst : step s e with
    | none => simp [tally, hst]
    | some s' =>
      rw [tally_cons_of_step hst, Nat.add_eq_zero_iff, along_cons]
      constructor
      · rintro ⟨hf, hrest⟩ u hu
        obtain rfl : s' = u := Option.some.inj (hst.symm.trans hu)
        exact ⟨hf, ih.mp hrest⟩
      · intro h
        exact ⟨(h s' hst).1, ih.mpr (h s' hst).2⟩

/-- Something is counted iff some step counts. -/
theorem tally_pos : 0 < tally step f s es ↔ Occurs step (fun s e s' => 0 < f s e s') s es := by
  rw [Nat.pos_iff_ne_zero, Ne, tally_eq_zero, ← not_iff_not, not_not, not_occurs_iff]
  simp only [Nat.not_lt, Nat.le_zero]

end Counting

end Transition
