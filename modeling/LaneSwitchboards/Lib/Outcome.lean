/-!
# Calls that may unwind

A call on a mutable value either returns, or unwinds with a panic. Either way it leaves a value
behind, which the caller may go on using, so both cases carry the state.

* `forEach_ok`: a loop returns, with an invariant, if each of its calls does.
* `forEach_establishes`: a loop brings about what each of its calls does, if the others keep it.
* `forEach_panicked`: a loop with a call that always unwinds does not return.
-/

namespace LaneSwitchboards

/-- The result of a call on a state `σ`. -/
inductive Outcome (σ α : Type)
  | ok (a : α) (s : σ)
  | panicked (s : σ)
deriving DecidableEq

namespace Outcome

variable {σ τ α β γ : Type}

/-- What the call leaves behind. -/
def state : Outcome σ α → σ
  | ok _ s | panicked s => s

/-- The call returns. -/
def returns : Outcome σ α → Bool
  | ok _ _ => true
  | panicked _ => false

/-- The call on a part of a larger state. -/
def mapState (f : σ → τ) : Outcome σ α → Outcome τ α
  | ok a s => ok a (f s)
  | panicked s => panicked (f s)

/-- Go on with the value and the state of a call that returns. -/
def bind : Outcome σ α → (α → σ → Outcome σ β) → Outcome σ β
  | ok a s, f => f a s
  | panicked s, _ => panicked s

/-- One call for each element of a list. -/
def forEach (f : σ → β → Outcome σ α) : List β → σ → Outcome σ Unit
  | [], s => ok () s
  | b :: bs, s => (f s b).bind fun _ s' => forEach f bs s'

variable {f : σ → β → Outcome σ α} {l : List β} {s : σ} {P : σ → Prop}

@[simp] theorem state_ok (a : α) (s : σ) : (ok a s).state = s := rfl

@[simp] theorem state_panicked (s : σ) : (panicked s : Outcome σ α).state = s := rfl

@[simp] theorem state_mapState (g : σ → τ) (o : Outcome σ α) :
    (o.mapState g).state = g o.state := by
  cases o <;> rfl

@[simp] theorem returns_mapState (g : σ → τ) (o : Outcome σ α) :
    (o.mapState g).returns = o.returns := by
  cases o <;> rfl

@[simp] theorem bind_ok (a : α) (s : σ) (g : α → σ → Outcome σ β) : (ok a s).bind g = g a s := rfl

@[simp] theorem bind_panicked (s : σ) (g : α → σ → Outcome σ β) :
    (panicked s : Outcome σ α).bind g = panicked s := rfl

/-- A call that goes on without touching the state. -/
theorem bind_ok_state {o : Outcome σ α} {g : α → β} :
    (o.bind fun a s => ok (g a) s).state = o.state := by
  cases o <;> rfl

theorem bind_ok_returns {o : Outcome σ α} {g : α → β} :
    (o.bind fun a s => ok (g a) s).returns = o.returns := by
  cases o <;> rfl

theorem returns_iff {o : Outcome σ α} : o.returns = true ↔ ∃ a s, o = ok a s := by
  cases o <;> simp [returns]

/-- **A loop returns** if each of its calls does, and keeps what each of them keeps. -/
theorem forEach_ok (hf : ∀ b ∈ l, ∀ s, P s → (f s b).returns = true ∧ P (f s b).state)
    (hs : P s) : (forEach f l s).returns = true ∧ P (forEach f l s).state := by
  induction l generalizing s with
  | nil => exact ⟨rfl, hs⟩
  | cons b bs ih =>
    obtain ⟨hret, hP⟩ := hf b List.mem_cons_self s hs
    obtain ⟨a, s', h⟩ := returns_iff.mp hret
    rw [h] at hP
    simp only [forEach, h, bind]
    exact ih (fun b hb => hf b (List.mem_cons_of_mem _ hb)) hP

/-- A loop keeps what each of its calls keeps, whether they return or not. -/
theorem forEach_state (hf : ∀ b ∈ l, ∀ s, P s → P (f s b).state) (hs : P s) :
    P (forEach f l s).state := by
  induction l generalizing s with
  | nil => exact hs
  | cons b bs ih =>
    have hP := hf b List.mem_cons_self s hs
    rw [forEach]
    cases h : f s b with
    | ok a s' =>
      rw [h] at hP
      exact ih (fun b hb => hf b (List.mem_cons_of_mem _ hb)) hP
    | panicked s' =>
      rw [h] at hP
      exact hP

/-- **What a loop establishes**: a fact about each element that its call brings about and that
the calls for the other elements keep. -/
theorem forEach_establishes {Q : β → σ → Prop}
    (hf : ∀ b ∈ l, ∀ s, P s → (f s b).returns = true ∧ P (f s b).state ∧ Q b (f s b).state)
    (hkeep : ∀ b ∈ l, ∀ c ∈ l, c ≠ b → ∀ s, P s → Q c s → Q c (f s b).state) (hs : P s) :
    ∀ b ∈ l, Q b (forEach f l s).state := by
  induction l generalizing s with
  | nil => exact fun b hb => by cases hb
  | cons c cs ih =>
    obtain ⟨hret, hP, hQ⟩ := hf c List.mem_cons_self s hs
    obtain ⟨a, s', h⟩ := returns_iff.mp hret
    rw [h] at hP hQ
    simp only [forEach, h, bind]
    have hf' : ∀ b ∈ cs, ∀ s, P s →
        (f s b).returns = true ∧ P (f s b).state ∧ Q b (f s b).state :=
      fun b hb => hf b (List.mem_cons_of_mem _ hb)
    have hkeep' : ∀ b ∈ cs, ∀ c ∈ cs, c ≠ b → ∀ s, P s → Q c s → Q c (f s b).state :=
      fun b hb c hc => hkeep b (List.mem_cons_of_mem _ hb) c (List.mem_cons_of_mem _ hc)
    intro b hb
    rcases List.mem_cons.mp hb with rfl | hb
    · -- the first element: the rest of the loop keeps its fact
      have hboth := forEach_state (P := fun s => P s ∧ Q b s) (l := cs) (f := f)
        (fun c hc s hs => ?_) ⟨hP, hQ⟩
      · exact hboth.2
      · obtain ⟨-, hP', hQ'⟩ := hf' c hc s hs.1
        by_cases heq : b = c
        · exact ⟨hP', heq ▸ hQ'⟩
        · exact ⟨hP', hkeep c (List.mem_cons_of_mem _ hc) b List.mem_cons_self heq s hs.1 hs.2⟩
    · exact ih hf' hkeep' hP b hb

/-- **A loop unwinds** if one of its calls does so from every state. -/
theorem forEach_panicked {b : β} (hb : b ∈ l) (hf : ∀ s, (f s b).returns = false) :
    (forEach f l s).returns = false := by
  induction l generalizing s with
  | nil => cases hb
  | cons c cs ih =>
    rw [forEach]
    cases h : f s c with
    | ok a s' =>
      rcases List.mem_cons.mp hb with rfl | hb
      · have := hf s
        rw [h] at this
        cases this
      · exact ih hb
    | panicked s' => rfl

end Outcome

end LaneSwitchboards
