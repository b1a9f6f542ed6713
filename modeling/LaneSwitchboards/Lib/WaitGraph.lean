import Mathlib.Data.Fintype.Card
import Mathlib.Data.Set.Finite.Basic
import Mathlib.Logic.Relation
import Mathlib.Order.WellFounded

/-!
# Wait-for graphs

`W i j` says that `i` waits for `j`. A set is blocked when everyone in it waits for someone in it;
among finitely many that is a cycle (`Blocked.exists_cycle`, `blocked_of_cycle`). A step that only
adds edges into one vertex closes a cycle iff that vertex already waits, through a chain, for the
origin of a new edge (`acyclic_of_new`).
-/

namespace WaitGraph

open Relation

variable {α : Type*} {W W' : α → α → Prop} {S : Set α} {i j p : α}

/-- Everyone in the set waits for someone in the set. -/
def Blocked (W : α → α → Prop) (S : Set α) : Prop :=
  S.Nonempty ∧ ∀ i ∈ S, ∃ j ∈ S, W i j

/-- Nobody waits for itself through a chain. -/
def Acyclic (W : α → α → Prop) : Prop := ∀ i, ¬ TransGen W i i

/-- **A finite blocked set has a cycle.** -/
theorem Blocked.exists_cycle (h : Blocked W S) (hfin : S.Finite) : ¬ Acyclic W := by
  intro hacyclic
  obtain ⟨⟨i, hi⟩, hwaits⟩ := h
  have : Finite S := hfin
  -- without a cycle, somebody in the set is at the end of every chain
  let r : S → S → Prop := fun a b => TransGen W b a
  have : IsTrans S r := ⟨fun _ _ _ hab hbc => hbc.trans hab⟩
  have : Std.Irrefl r := ⟨fun a => hacyclic a⟩
  have hwf : WellFounded r := Finite.wellFounded_of_trans_of_irrefl r
  obtain ⟨⟨m, hm⟩, -, hlast⟩ := hwf.has_min Set.univ ⟨⟨i, hi⟩, trivial⟩
  obtain ⟨j, hj, hmj⟩ := hwaits m hm
  exact hlast ⟨j, hj⟩ trivial (TransGen.single hmj)

/-- The vertices of a cycle are blocked. -/
theorem blocked_of_cycle (h : TransGen W i i) :
    Blocked W {j | TransGen W i j ∧ TransGen W j i} := by
  refine ⟨⟨i, h, h⟩, ?_⟩
  rintro j ⟨hij, hji⟩
  obtain ⟨k, hjk, hki⟩ := TransGen.head'_iff.mp hji
  refine ⟨k, ⟨hij.tail hjk, ?_⟩, hjk⟩
  rcases reflTransGen_iff_eq_or_transGen.mp hki with rfl | hki
  · exact h
  · exact hki

/-- A chain uses no new edge, or it has a first one. -/
theorem transGen_or_new (hnew : ∀ i j, W' i j → W i j ∨ j = p ∧ ¬ ReflTransGen W p i)
    (h : TransGen W' i j) : TransGen W i j ∨
      ∃ n, ReflTransGen W i n ∧ ¬ ReflTransGen W p n ∧ TransGen W' i p ∧ ReflTransGen W' p j := by
  induction h using TransGen.head_induction_on with
  | single hij =>
    rcases hnew _ _ hij with hij | ⟨rfl, hn⟩
    · exact Or.inl (TransGen.single hij)
    · exact Or.inr ⟨_, .refl, hn, TransGen.single hij, .refl⟩
  | head hik hkj ih =>
    rcases hnew _ _ hik with hold | ⟨rfl, hn⟩
    · rcases ih with hkj | ⟨n, hkn, hn, hkp, hpj⟩
      · exact Or.inl (hkj.head hold)
      · exact Or.inr ⟨n, hkn.head hold, hn, hkp.head hik, hpj⟩
    · exact Or.inr ⟨_, .refl, hn, TransGen.single hik, hkj.to_reflTransGen⟩

/-- **New edges into `p`** from vertices for which `p` does not wait close no cycle. -/
theorem acyclic_of_new (h : Acyclic W)
    (hnew : ∀ i j, W' i j → W i j ∨ j = p ∧ ¬ ReflTransGen W p i) : Acyclic W' := by
  have hp : ¬ TransGen W' p p := by
    intro hcycle
    rcases transGen_or_new hnew hcycle with hold | ⟨n, hpn, hn, -, -⟩
    · exact h p hold
    · exact hn hpn
  intro i hcycle
  rcases transGen_or_new hnew hcycle with hold | ⟨n, -, -, hip, hpi⟩
  · exact h i hold
  · exact hp (TransGen.trans_right hpi hip)

end WaitGraph
