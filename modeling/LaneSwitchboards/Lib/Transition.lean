import Mathlib.Data.List.Induction
import Mathlib.Tactic.Common

/-!
# Runs of a partial step function

A concurrent system is presented as a partial step function `step : σ → ε → Option σ`: the
event `ε` names what the scheduler and the environment decide, and `none` says that the
event is not enabled. `run step s es` executes a list of events; every interleaving of the
parties is one such list.

* **Runs** split at an append (`run_append`) and at their last event (`run_concat`).
* **Invariants** of the step are invariants of every run (`invariant_run`), also when the
  step preserves them only under a condition that every step of the run meets
  (`Along`, `invariant_along`).
* **Logs**: `Along` splits at the last event (`along_concat`), so a property of a state
  *and* of the run that led to it is proved by induction on the run (`run_induction`).
* **Projection**: when each step of one system is matched by a run of another through a
  map of states, so is every run (`project_run`).
-/

namespace Transition

variable {σ ε : Type*}

/-- Execute the events from left to right; `none` as soon as one is not enabled. -/
def run (step : σ → ε → Option σ) : σ → List ε → Option σ
  | s, [] => some s
  | s, e :: es => (step s e).bind fun s' => run step s' es

@[simp]
theorem run_nil (step : σ → ε → Option σ) (s : σ) : run step s [] = some s := rfl

@[simp]
theorem run_cons (step : σ → ε → Option σ) (s : σ) (e : ε) (es : List ε) :
    run step s (e :: es) = (step s e).bind fun s' => run step s' es := rfl

/-- Every step taken while executing the events satisfies `Q`. -/
def Along (step : σ → ε → Option σ) (Q : σ → ε → σ → Prop) : σ → List ε → Prop
  | _, [] => True
  | s, e :: es => ∀ s', step s e = some s' → Q s e s' ∧ Along step Q s' es

/-- Every state visited while executing the events, the first included, satisfies `P`. -/
def Always (step : σ → ε → Option σ) (P : σ → Prop) : σ → List ε → Prop
  | s, [] => P s
  | s, e :: es => P s ∧ ∀ s', step s e = some s' → Always step P s' es

section Runs

variable {step : σ → ε → Option σ} {P : σ → Prop} {Q Q' : σ → ε → σ → Prop}
  {s s' s'' : σ} {e : ε} {es fs : List ε}

/-- Split a run at an append. -/
theorem run_append : run step s (es ++ fs) = (run step s es).bind fun s' => run step s' fs := by
  induction es generalizing s with
  | nil => rfl
  | cons e es ih =>
    cases hs : step s e with
    | none => simp [hs]
    | some s' => simpa [hs] using ih

/-- A run that starts with a step. -/
theorem run_cons_of_step (h : step s e = some s') : run step s (e :: es) = run step s' es := by
  rw [run_cons, h]
  rfl

/-- A run of one step. -/
theorem run_one : run step s [e] = some s' ↔ step s e = some s' := by
  rw [run_cons]
  cases step s e <;> simp

/-- Two runs compose. -/
theorem run_trans (h : run step s es = some s') (h' : run step s' fs = some s'') :
    run step s (es ++ fs) = some s'' := by
  rw [run_append, h]
  exact h'

/-- Expose the last event of a run. -/
theorem run_concat :
    run step s (es ++ [e]) = some s'' ↔ ∃ s', run step s es = some s' ∧ step s' e = some s'' := by
  rw [run_append, Option.bind_eq_some_iff]
  simp

/-- **Induction on a run**, from its first state: a relation between the events executed so
far and the state they lead to. -/
theorem run_induction {motive : List ε → σ → Prop} (start : motive [] s)
    (next : ∀ {es s' e s''}, run step s es = some s' → motive es s' → step s' e = some s'' →
      motive (es ++ [e]) s'')
    (h : run step s es = some s') : motive es s' := by
  induction es using List.reverseRecOn generalizing s' with
  | nil =>
    obtain rfl : s = s' := Option.some.inj h
    exact start
  | append_singleton es e ih =>
    obtain ⟨t, ht, hstep⟩ := run_concat.mp h
    exact next ht (ih ht) hstep

/-- **Invariant rule**: what every step preserves, every run preserves. -/
theorem invariant_run (hstep : ∀ {s e s'}, P s → step s e = some s' → P s') (hs : P s)
    (h : run step s es = some s') : P s' :=
  run_induction (motive := fun _ t => P t) hs (fun _ ih hst => hstep ih hst) h

@[simp]
theorem along_nil : Along step Q s [] := trivial

@[simp]
theorem along_cons :
    Along step Q s (e :: es) ↔ ∀ s', step s e = some s' → Q s e s' ∧ Along step Q s' es :=
  Iff.rfl

/-- Split `Along` at an append. -/
theorem along_append : Along step Q s (es ++ fs) ↔
    Along step Q s es ∧ ∀ s', run step s es = some s' → Along step Q s' fs := by
  induction es generalizing s with
  | nil => simp
  | cons e es ih =>
    simp only [List.cons_append, along_cons, run_cons, Option.bind_eq_some_iff]
    constructor
    · intro h
      refine ⟨fun s' hs => ⟨(h s' hs).1, (ih.mp (h s' hs).2).1⟩, ?_⟩
      rintro s'' ⟨s', hs, hrun⟩
      exact (ih.mp (h s' hs).2).2 s'' hrun
    · rintro ⟨h, hrest⟩ s' hs
      exact ⟨(h s' hs).1, ih.mpr ⟨(h s' hs).2, fun s'' hrun => hrest s'' ⟨s', hs, hrun⟩⟩⟩

/-- Split `Along` at the last event. -/
theorem along_concat : Along step Q s (es ++ [e]) ↔
    Along step Q s es ∧ ∀ s' s'', run step s es = some s' → step s' e = some s'' →
      Q s' e s'' := by
  rw [along_append]
  refine and_congr_right fun _ => ?_
  constructor
  · intro h s' s'' hs hst
    exact ((h s' hs) s'' hst).1
  · intro h s' hs s'' hst
    exact ⟨h s' s'' hs hst, trivial⟩

/-- `Along` is monotone in the condition on steps. -/
theorem Along.mono (h : Along step Q s es) (hQ : ∀ {s e s'}, Q s e s' → Q' s e s') :
    Along step Q' s es := by
  induction es generalizing s with
  | nil => trivial
  | cons e es ih => exact fun s' hs => ⟨hQ (h s' hs).1, ih (h s' hs).2⟩

instance decidableAlong [∀ s e s', Decidable (Q s e s')] :
    ∀ s es, Decidable (Along step Q s es)
  | _, [] => .isTrue trivial
  | s, e :: es =>
    match h : step s e with
    | none => .isTrue fun s' hs => by rw [h] at hs; cases hs
    | some s' =>
      have := decidableAlong s' es
      decidable_of_iff (Q s e s' ∧ Along step Q s' es)
        ⟨fun hQ t ht => by rwa [← Option.some.inj (h.symm.trans ht)], fun hQ => hQ s' h⟩

/-- A condition that the events alone decide. -/
theorem along_of_forall (h : ∀ s, ∀ e ∈ es, ∀ s', Q s e s') : Along step Q s es := by
  induction es generalizing s with
  | nil => trivial
  | cons e es ih =>
    exact fun s' _ => ⟨h s e List.mem_cons_self s',
      ih fun s e he => h s e (List.mem_cons_of_mem _ he)⟩

/-- Two conditions on the steps of one run. -/
theorem Along.and (h : Along step Q s es) (h' : Along step Q' s es) :
    Along step (fun s e s' => Q s e s' ∧ Q' s e s') s es := by
  induction es generalizing s with
  | nil => trivial
  | cons e es ih =>
    exact fun s' hs => ⟨⟨(h s' hs).1, (h' s' hs).1⟩, ih (h s' hs).2 (h' s' hs).2⟩

/-- **Invariant rule under a condition on steps.** -/
theorem invariant_along (hstep : ∀ {s e s'}, P s → Q s e s' → step s e = some s' → P s')
    (hs : P s) (hQ : Along step Q s es) (h : run step s es = some s') : P s' := by
  induction es generalizing s with
  | nil => exact Option.some.inj h ▸ hs
  | cons e es ih =>
    obtain ⟨t, ht, hrun⟩ := Option.bind_eq_some_iff.mp h
    exact ih (hstep hs (hQ t ht).1 ht) (hQ t ht).2 hrun

/-- **Steps of a run with an invariant**: what the invariant allows at each step. -/
theorem along_of_invariant
    (hstep : ∀ {s e s'}, P s → Q s e s' → step s e = some s' → P s' ∧ Q' s e s') (hs : P s)
    (hQ : Along step Q s es) : Along step Q' s es := by
  induction es generalizing s with
  | nil => trivial
  | cons e es ih =>
    intro s' hst
    obtain ⟨hq, hrest⟩ := hQ s' hst
    obtain ⟨hs', hq'⟩ := hstep hs hq hst
    exact ⟨hq', ih hs' hrest⟩

/-- A run with an invariant only visits states that satisfy it. -/
theorem always_of_invariant (hstep : ∀ {s e s'}, P s → Q s e s' → step s e = some s' → P s')
    (hs : P s) (hQ : Along step Q s es) : Always step P s es := by
  induction es generalizing s with
  | nil => exact hs
  | cons e es ih =>
    exact ⟨hs, fun s' hst => ih (hstep hs (hQ s' hst).1 hst) (hQ s' hst).2⟩

/-- `Always` at the start of a run. -/
theorem Always.head (h : Always step P s es) : P s := by
  cases es with
  | nil => exact h
  | cons e es => exact h.1

/-- `Always` is monotone in the condition on states. -/
theorem Always.mono {P' : σ → Prop} (h : Always step P s es) (hP : ∀ {s}, P s → P' s) :
    Always step P' s es := by
  induction es generalizing s with
  | nil => exact hP h
  | cons e es ih => exact ⟨hP h.1, fun s' hst => ih (h.2 s' hst)⟩

/-- Each step of a run leads to a visited state. -/
theorem Always.along (h : Always step P s es) : Along step (fun _ _ s' => P s') s es := by
  induction es generalizing s with
  | nil => trivial
  | cons e es ih => exact fun s' hst => ⟨(h.2 s' hst).head, ih (h.2 s' hst)⟩

/-- Split `Always` at an append. -/
theorem always_append : Always step P s (es ++ fs) ↔
    Always step P s es ∧ ∀ s', run step s es = some s' → Always step P s' fs := by
  induction es generalizing s with
  | nil => exact ⟨fun h => ⟨h.head, fun s' hs => Option.some.inj hs ▸ h⟩, fun h => h.2 s rfl⟩
  | cons e es ih =>
    simp only [List.cons_append, Always, run_cons, Option.bind_eq_some_iff]
    constructor
    · rintro ⟨hp, h⟩
      refine ⟨⟨hp, fun s' hs => (ih.mp (h s' hs)).1⟩, ?_⟩
      rintro s'' ⟨s', hs, hrun⟩
      exact (ih.mp (h s' hs)).2 s'' hrun
    · rintro ⟨⟨hp, h⟩, hrest⟩
      exact ⟨hp, fun s' hs => ih.mpr ⟨h s' hs, fun s'' hrun => hrest s'' ⟨s', hs, hrun⟩⟩⟩

/-- The last state of a run is a visited one. -/
theorem Always.last (h : Always step P s es) (hrun : run step s es = some s') : P s' := by
  have h' : Always step P s (es ++ []) := by simpa using h
  exact (always_append.mp h').2 s' hrun

end Runs

section Projection

variable {τ δ : Type*} {stepA : σ → ε → Option σ} {stepB : τ → δ → Option τ} {π : σ → τ}

/-- **Projection of runs**: a step-by-step match, under an invariant, extends to whole runs. -/
theorem project_run {P : σ → Prop} (hstep : ∀ {s e s'}, P s → stepA s e = some s' → P s')
    (hproj : ∀ {s e s'}, P s → stepA s e = some s' → ∃ ds, run stepB (π s) ds = some (π s'))
    {s s' : σ} {es : List ε} (hs : P s) (h : run stepA s es = some s') :
    ∃ ds, run stepB (π s) ds = some (π s') := by
  refine run_induction (motive := fun _ t => ∃ ds, run stepB (π s) ds = some (π t))
    ⟨[], rfl⟩ ?_ h
  rintro es t e t' hrun ⟨ds, hds⟩ hst
  obtain ⟨ds', hds'⟩ := hproj (invariant_run hstep hs hrun) hst
  exact ⟨ds ++ ds', run_trans hds hds'⟩

end Projection

end Transition
