import LaneSwitchboards.Lib.Transition

/-!
# What a run leaves behind

`trace` lists what the steps of a run emit, in order. Where each step of one system emits the
events of another one that keeps up with it, the trace is a run of that system (`run_trace`).

`blocks` cuts a trace before each of its heads, so that what follows from one head stands next
to it.
-/

namespace Transition

variable {σ τ ε δ β : Type*}

/-- What the steps of a run emit. -/
def trace (step : σ → ε → Option σ) (f : σ → ε → σ → List β) : σ → List ε → List β
  | _, [] => []
  | s, e :: es =>
    match step s e with
    | some s' => f s e s' ++ trace step f s' es
    | none => []

section Trace

variable {step : σ → ε → Option σ} {f : σ → ε → σ → List β} {s s' s'' : σ} {e : ε} {es fs : List ε}

@[simp]
theorem trace_nil : trace step f s [] = [] := rfl

theorem trace_cons_of_step (h : step s e = some s') :
    trace step f s (e :: es) = f s e s' ++ trace step f s' es := by
  rw [trace, h]

/-- Split a trace at an append. -/
theorem trace_append (h : run step s es = some s') :
    trace step f s (es ++ fs) = trace step f s es ++ trace step f s' fs := by
  induction es generalizing s with
  | nil => rw [Option.some.inj h, trace_nil, List.nil_append, List.nil_append]
  | cons e es ih =>
    obtain ⟨t, ht, hrun⟩ := Option.bind_eq_some_iff.mp h
    rw [List.cons_append, trace_cons_of_step ht, trace_cons_of_step ht, ih hrun, List.append_assoc]

/-- Expose what the last step emits. -/
theorem trace_concat (h : run step s es = some s') (h' : step s' e = some s'') :
    trace step f s (es ++ [e]) = trace step f s es ++ f s' e s'' := by
  rw [trace_append h, trace_cons_of_step h', trace_nil, List.append_nil]

/-- **The trace as a run** of a system that keeps up with the steps that emit it. -/
theorem run_trace {stepB : τ → δ → Option τ} {g : σ → ε → σ → List δ} {R : σ → τ → Prop}
    (hsim : ∀ {s t e s'}, R s t → step s e = some s' →
      ∃ t', run stepB t (g s e s') = some t' ∧ R s' t')
    {t : τ} (hR : R s t) (h : run step s es = some s') :
    ∃ t', run stepB t (trace step g s es) = some t' ∧ R s' t' := by
  induction es generalizing s t with
  | nil => exact ⟨t, rfl, Option.some.inj h ▸ hR⟩
  | cons e es ih =>
    obtain ⟨u, hu, hrun⟩ := Option.bind_eq_some_iff.mp h
    obtain ⟨t', ht', hR'⟩ := hsim hR hu
    obtain ⟨t'', ht'', hR''⟩ := ih hR' hrun
    rw [trace_cons_of_step hu]
    exact ⟨t'', run_trans ht' ht'', hR''⟩

/-- The step that emits an item of a trace. -/
theorem exists_of_mem_trace {b : β} (h : b ∈ trace step f s es) :
    ∃ es₁ e es₂ t t', es = es₁ ++ e :: es₂ ∧ run step s es₁ = some t ∧ step t e = some t' ∧
      b ∈ f t e t' := by
  induction es generalizing s with
  | nil => exact absurd h List.not_mem_nil
  | cons e es ih =>
    cases hst : step s e with
    | none =>
      rw [trace, hst] at h
      exact absurd h List.not_mem_nil
    | some s' =>
      rw [trace_cons_of_step hst] at h
      rcases List.mem_append.mp h with hb | hb
      · exact ⟨[], e, es, s, s', rfl, rfl, hst, hb⟩
      · obtain ⟨es₁, e', es₂, t, t', rfl, hrun, hst', hb⟩ := ih hb
        exact ⟨e :: es₁, e', es₂, t, t', rfl, (run_cons_of_step hst).trans hrun, hst', hb⟩

/-- **The trace of a trace**: what the run of the other system emits. -/
theorem trace_trace {stepB : τ → δ → Option τ} {g : σ → ε → σ → List δ} {R : σ → τ → Prop}
    {k : τ → δ → τ → List β}
    (hsim : ∀ {s t e s'}, R s t → step s e = some s' →
      ∃ t', run stepB t (g s e s') = some t' ∧ R s' t' ∧ trace stepB k t (g s e s') = f s e s')
    {t : τ} (hR : R s t) (h : run step s es = some s') :
    trace stepB k t (trace step g s es) = trace step f s es := by
  induction es generalizing s t with
  | nil => rfl
  | cons e es ih =>
    obtain ⟨u, hu, hrun⟩ := Option.bind_eq_some_iff.mp h
    obtain ⟨t', ht', hR', hf⟩ := hsim hR hu
    rw [trace_cons_of_step hu, trace_cons_of_step hu, trace_append ht', hf, ih hR' hrun]

/-- A condition on the steps of the other system. -/
theorem along_trace {stepB : τ → δ → Option τ} {g : σ → ε → σ → List δ} {R : σ → τ → Prop}
    {Q : σ → ε → σ → Prop} {Q' : τ → δ → τ → Prop}
    (hsim : ∀ {s t e s'}, R s t → Q s e s' → step s e = some s' →
      ∃ t', run stepB t (g s e s') = some t' ∧ R s' t' ∧ Along stepB Q' t (g s e s'))
    {t : τ} (hR : R s t) (hQ : Along step Q s es) : Along stepB Q' t (trace step g s es) := by
  induction es generalizing s t with
  | nil => trivial
  | cons e es ih =>
    cases hst : step s e with
    | none =>
      rw [trace, hst]
      trivial
    | some s' =>
      obtain ⟨hq, hrest⟩ := hQ s' hst
      obtain ⟨t', ht', hR', hq'⟩ := hsim hR hq hst
      rw [trace_cons_of_step hst]
      refine along_append.mpr ⟨hq', fun u hu => ?_⟩
      obtain rfl : t' = u := Option.some.inj (ht'.symm.trans hu)
      exact ih hR' hrest

end Trace

/-! ### Blocks -/

/-- A list cut before each of its heads: what stands before the first one, and the blocks. -/
def blocks {α : Type*} (head : α → Option β) : List α → List α × List (β × List α)
  | [] => ([], [])
  | a :: l =>
    match head a with
    | some b => ([], (b, (blocks head l).1) :: (blocks head l).2)
    | none => (a :: (blocks head l).1, (blocks head l).2)

section Blocks

variable {α : Type*} {head : α → Option β} {l : List α} {a : α} {b : β}

theorem blocks_cons_of_some (h : head a = some b) :
    blocks head (a :: l) = ([], (b, (blocks head l).1) :: (blocks head l).2) := by
  rw [blocks, h]

theorem blocks_cons_of_none (h : head a = none) :
    blocks head (a :: l) = (a :: (blocks head l).1, (blocks head l).2) := by
  rw [blocks, h]

/-- The heads of the blocks are those of the list. -/
theorem map_fst_blocks : (blocks head l).2.map Prod.fst = l.filterMap head := by
  induction l with
  | nil => rfl
  | cons a l ih =>
    cases ha : head a with
    | some b => rw [blocks_cons_of_some ha, List.filterMap_cons_some ha, List.map_cons, ih]
    | none => rw [blocks_cons_of_none ha, List.filterMap_cons_none ha, ih]

/-- A head opens a block. -/
theorem blocks_concat_of_some (h : head a = some b) :
    blocks head (l ++ [a]) = ((blocks head l).1, (blocks head l).2 ++ [(b, [])]) := by
  induction l with
  | nil => exact blocks_cons_of_some h
  | cons a' l ih =>
    cases ha : head a' with
    | some b' => rw [List.cons_append, blocks_cons_of_some ha, blocks_cons_of_some ha, ih]; rfl
    | none => rw [List.cons_append, blocks_cons_of_none ha, blocks_cons_of_none ha, ih]

/-- What is no head belongs to no block before the first one. -/
theorem blocks_concat_of_nil (h : head a = none) (hl : (blocks head l).2 = []) :
    blocks head (l ++ [a]) = ((blocks head l).1 ++ [a], []) := by
  induction l with
  | nil => exact blocks_cons_of_none h
  | cons a' l ih =>
    cases ha : head a' with
    | some b' =>
      rw [blocks_cons_of_some ha] at hl
      cases hl
    | none =>
      rw [blocks_cons_of_none ha] at hl
      rw [List.cons_append, blocks_cons_of_none ha, blocks_cons_of_none ha, ih hl]
      rfl

/-- What is no head belongs to the last block. -/
theorem blocks_concat_of_none {bs : List (β × List α)} {m : List α} (h : head a = none)
    (hl : (blocks head l).2 = bs ++ [(b, m)]) :
    blocks head (l ++ [a]) = ((blocks head l).1, bs ++ [(b, m ++ [a])]) := by
  induction l generalizing bs with
  | nil => simp [blocks] at hl
  | cons a' l ih =>
    cases ha : head a' with
    | none =>
      rw [blocks_cons_of_none ha] at hl
      rw [List.cons_append, blocks_cons_of_none ha, blocks_cons_of_none ha, ih hl]
    | some b' =>
      rw [blocks_cons_of_some ha] at hl
      rw [List.cons_append, blocks_cons_of_some ha, blocks_cons_of_some ha]
      cases bs with
      | nil =>
        obtain ⟨hb, hnil⟩ := List.cons.inj hl
        rw [blocks_concat_of_nil h hnil, ← (Prod.mk.inj hb).1, ← (Prod.mk.inj hb).2]
        rfl
      | cons p bs =>
        obtain ⟨rfl, hrest⟩ := List.cons.inj hl
        rw [ih hrest]
        rfl

end Blocks

end Transition
