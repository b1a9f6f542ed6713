import Mathlib.Data.List.Sort

/-!
# Stable sorts

* `pairwise_insertionSort_stable`: an insertion sort leaves elements that compare equal in the
  order in which they were.
* `stableBy_insertionSort`: so a list that is sorted by a key is the list itself, read at its
  places in the order of key and place.
* `filter_suffix`: a condition that holds of all later elements as soon as it holds of one keeps
  the end of a list.
-/

namespace LaneSwitchboards

variable {α : Type}

section Stable

variable (r : α → α → Prop) [DecidableRel r] [Std.Total r] [IsTrans α r] {t : α → α → Prop}
  {l : List α} {a : α}

/-- An insertion before the elements that compare equal. -/
theorem pairwise_orderedInsert_stable (hl : l.Pairwise fun a b => r a b ∧ (r b a → t a b))
    (ha : ∀ b ∈ l, t a b) : (l.orderedInsert r a).Pairwise fun a b => r a b ∧ (r b a → t a b) := by
  induction l with
  | nil => exact List.pairwise_singleton _ _
  | cons b l ih =>
    obtain ⟨hb, hl'⟩ := List.pairwise_cons.mp hl
    rw [List.orderedInsert_cons]
    split_ifs with hab
    · refine List.pairwise_cons.mpr ⟨fun c hc => ⟨?_, fun _ => ha c hc⟩, hl⟩
      rcases List.mem_cons.mp hc with rfl | hc
      · exact hab
      · exact IsTrans.trans _ _ _ hab (hb c hc).1
    · refine List.pairwise_cons.mpr ⟨fun c hc => ?_, ih hl' fun c hc => ha c ?_⟩
      · rcases (List.mem_orderedInsert r).mp hc with rfl | hc
        · exact ⟨(Std.Total.total c b).resolve_left hab, fun h => absurd h hab⟩
        · exact hb c hc
      · exact List.mem_cons_of_mem _ hc

/-- **An insertion sort is stable.** -/
theorem pairwise_insertionSort_stable (h : l.Pairwise t) :
    (l.insertionSort r).Pairwise fun a b => r a b ∧ (r b a → t a b) := by
  induction l with
  | nil => exact List.Pairwise.nil
  | cons a l ih =>
    obtain ⟨ha, hl⟩ := List.pairwise_cons.mp h
    rw [List.insertionSort_cons]
    exact pairwise_orderedInsert_stable r (ih hl) fun b hb =>
      ha b ((List.mem_insertionSort r).mp hb)

end Stable

/-- The places of a list are those of another, in the order of a key and then of the place. -/
def StableBy (key : α → ℕ) (l sorted : List α) : Prop :=
  ∃ places : List ℕ, places.Perm (List.range l.length) ∧
    List.Forall₂ (fun i a => l[i]? = some a) places sorted ∧
    places.Pairwise fun i j => ∀ a b, l[i]? = some a → l[j]? = some b →
      key a < key b ∨ key a = key b ∧ i < j

/-- **A list sorted by a key** is in the order of key and place. -/
theorem stableBy_insertionSort (key : α → ℕ) (l : List α) :
    StableBy key l (l.insertionSort (key · ≤ key ·)) := by
  -- each element next to its place
  let r : α × ℕ → α × ℕ → Prop := fun p q => key p.1 ≤ key q.1
  have : Std.Total r := ⟨fun p q => Nat.le_total _ _⟩
  have : IsTrans (α × ℕ) r := ⟨fun _ _ _ => Nat.le_trans⟩
  have hfst : (l.zipIdx.insertionSort r).map Prod.fst = l.insertionSort (key · ≤ key ·) := by
    rw [List.map_insertionSort r (key · ≤ key ·) Prod.fst l.zipIdx fun p _ q _ => Iff.rfl,
      List.zipIdx_map_fst]
  have hmem : ∀ p ∈ l.zipIdx.insertionSort r, l[p.2]? = some p.1 := fun p hp =>
    List.mem_zipIdx_iff_getElem?.mp ((List.mem_insertionSort r).mp hp)
  have hplaces : l.zipIdx.Pairwise fun p q => p.2 < q.2 := by
    have hrange : (l.zipIdx.map Prod.snd).Pairwise (· < ·) := by
      rw [List.zipIdx_map_snd]
      exact List.pairwise_lt_range'
    exact List.pairwise_map.mp hrange
  refine ⟨(l.zipIdx.insertionSort r).map Prod.snd, ?_, ?_, ?_⟩
  · have hperm := (List.perm_insertionSort r l.zipIdx).map Prod.snd
    rwa [List.zipIdx_map_snd, ← List.range_eq_range'] at hperm
  · rw [← hfst, List.forall₂_map_left_iff, List.forall₂_map_right_iff]
    exact List.forall₂_same.mpr hmem
  · refine List.pairwise_map.mpr ?_
    refine (pairwise_insertionSort_stable r hplaces).imp_of_mem fun {p q} hp hq h a b ha hb => ?_
    obtain rfl : p.1 = a := Option.some.inj ((hmem p hp).symm.trans ha)
    obtain rfl : q.1 = b := Option.some.inj ((hmem q hq).symm.trans hb)
    rcases Nat.lt_or_eq_of_le h.1 with hlt | heq
    · exact Or.inl hlt
    · exact Or.inr ⟨heq, h.2 heq.ge⟩

/-- **A condition that is kept from one element to the next** keeps the end of a list. -/
theorem filter_suffix {p : α → Bool} {l : List α} (h : l.Pairwise fun a b => p a → p b) :
    l.filter p <:+ l := by
  induction l with
  | nil => exact List.suffix_rfl
  | cons a l ih =>
    obtain ⟨ha, hl⟩ := List.pairwise_cons.mp h
    by_cases hp : p a = true
    · have hall : (a :: l).filter p = a :: l := by
        refine List.filter_eq_self.mpr fun b hb => ?_
        rcases List.mem_cons.mp hb with rfl | hb
        · exact hp
        · exact ha b hb hp
      exact ⟨[], by rw [List.nil_append, hall]⟩
    · rw [List.filter_cons_of_neg hp]
      exact (ih hl).trans (List.suffix_cons a l)

end LaneSwitchboards
