import Mathlib.Data.List.Sort
import Mathlib.Order.Basic

/-!
# Sorted maps

A finite map as a list of entries with strictly increasing keys, as an ordered tree iterates
over it. The order of the entries is a field, so that a map out of order cannot be built.

* `mem_insert`, `mem_erase`: the entries after an update.
* `ext_mem`: a map is given by its entries, whatever the order of the updates.
* `walk`: the entries from a key on, and then those below it. It begins with the first entry
  from the key on (`firstFrom_of_walk`).
-/

namespace LaneSwitchboards

/-- A map with its entries in the order of their keys. -/
structure SortedMap (κ ν : Type) [LinearOrder κ] where
  entries : List (κ × ν)
  sorted : entries.Pairwise (·.1 < ·.1)

namespace SortedMap

variable {κ ν : Type} [LinearOrder κ]

/-- The map without entries. -/
def empty : SortedMap κ ν := ⟨[], .nil⟩

/-- Set the value of a key. -/
def insert (m : SortedMap κ ν) (k : κ) (v : ν) : SortedMap κ ν where
  entries := m.entries.filter (·.1 < k) ++ (k, v) :: m.entries.filter (k < ·.1)
  sorted := by
    refine List.pairwise_append.mpr ⟨m.sorted.filter _, List.pairwise_cons.mpr
      ⟨fun p hp => by simpa using (List.mem_filter.mp hp).2, m.sorted.filter _⟩,
      fun p hp q hq => ?_⟩
    have hpk : p.1 < k := by simpa using (List.mem_filter.mp hp).2
    rcases List.mem_cons.mp hq with rfl | hq
    · exact hpk
    · exact hpk.trans (by simpa using (List.mem_filter.mp hq).2)

/-- Remove a key. -/
def erase (m : SortedMap κ ν) (k : κ) : SortedMap κ ν where
  entries := m.entries.filter (·.1 ≠ k)
  sorted := m.sorted.filter _

/-- The entries from a key on. -/
def startingAt (m : SortedMap κ ν) (k : κ) : List (κ × ν) := m.entries.filter (k ≤ ·.1)

/-- The entries below a key. -/
def below (m : SortedMap κ ν) (k : κ) : List (κ × ν) := m.entries.filter (·.1 < k)

/-- The entries from a key on, then those below it: once around the map. -/
def walk (m : SortedMap κ ν) (k : κ) : List (κ × ν) := m.startingAt k ++ m.below k

variable {m m' : SortedMap κ ν} {k k' : κ} {v v' : ν} {p : κ × ν}

theorem mem_insert : p ∈ (m.insert k v).entries ↔ p = (k, v) ∨ p ∈ m.entries ∧ p.1 ≠ k := by
  simp only [insert, List.mem_append, List.mem_filter, List.mem_cons, decide_eq_true_eq]
  constructor
  · rintro (⟨hmem, hlt⟩ | rfl | ⟨hmem, hlt⟩)
    · exact Or.inr ⟨hmem, hlt.ne⟩
    · exact Or.inl rfl
    · exact Or.inr ⟨hmem, hlt.ne'⟩
  · rintro (rfl | ⟨hmem, hne⟩)
    · exact Or.inr (Or.inl rfl)
    · rcases lt_or_gt_of_ne hne with hlt | hlt
      · exact Or.inl ⟨hmem, hlt⟩
      · exact Or.inr (Or.inr ⟨hmem, hlt⟩)

theorem mem_erase : p ∈ (m.erase k).entries ↔ p ∈ m.entries ∧ p.1 ≠ k := by
  simp [erase]

theorem notMem_empty : p ∉ (empty : SortedMap κ ν).entries := List.not_mem_nil

theorem nodup_entries (m : SortedMap κ ν) : m.entries.Nodup :=
  m.sorted.imp fun hlt heq => hlt.ne (congrArg Prod.fst heq)

/-- Lists in strict order with the same elements are the same. -/
theorem eq_of_mem_iff {l l' : List (κ × ν)} (h : l.Pairwise (·.1 < ·.1))
    (h' : l'.Pairwise (·.1 < ·.1)) (hmem : ∀ p, p ∈ l ↔ p ∈ l') : l = l' := by
  have hnodup {l : List (κ × ν)} (h : l.Pairwise (·.1 < ·.1)) : l.Nodup :=
    h.imp fun hlt heq => hlt.ne (congrArg Prod.fst heq)
  have hperm : l.Perm l' := (List.perm_ext_iff_of_nodup (hnodup h) (hnodup h')).mpr hmem
  exact hperm.eq_of_pairwise (fun p q _ _ hpq hqp => absurd hpq hqp.asymm) h h'

/-- **A map is given by its entries.** -/
theorem ext_mem (h : ∀ p, p ∈ m.entries ↔ p ∈ m'.entries) : m = m' := by
  have heq := eq_of_mem_iff m.sorted m'.sorted h
  cases m
  cases m'
  cases heq
  rfl

theorem mem_walk : p ∈ m.walk k ↔ p ∈ m.entries := by
  simp only [walk, startingAt, below, List.mem_append, List.mem_filter, decide_eq_true_eq,
    ← and_or_left]
  exact and_iff_left (le_or_gt k p.1)

/-- Where a walk begins. -/
theorem head?_walk : (m.walk k).head? = (m.startingAt k).head?.or m.entries.head? := by
  rw [walk, List.head?_append]
  cases hfrom : m.startingAt k with
  | cons p l => rfl
  | nil =>
    have hbelow : m.below k = m.entries := by
      refine List.filter_eq_self.mpr fun p hp => ?_
      simpa using List.filter_eq_nil_iff.mp hfrom p hp
    rw [hbelow]

/-- The entry with the least key from `k` on, or with the least key of all where there is none. -/
def FirstFrom (m : SortedMap κ ν) (k : κ) (p : κ × ν) : Prop :=
  p ∈ m.entries ∧
    (k ≤ p.1 ∧ (∀ q ∈ m.entries, k ≤ q.1 → p.1 ≤ q.1) ∨
      (∀ q ∈ m.entries, q.1 < k) ∧ ∀ q ∈ m.entries, p.1 ≤ q.1)

theorem le_of_head? {l : List (κ × ν)} (h : l.Pairwise (·.1 < ·.1)) (hp : l.head? = some p) :
    ∀ q ∈ l, p.1 ≤ q.1 := by
  obtain ⟨rest, rfl⟩ := List.head?_eq_some_iff.mp hp
  intro q hq
  rcases List.mem_cons.mp hq with rfl | hq
  · exact le_rfl
  · exact ((List.pairwise_cons.mp h).1 q hq).le

theorem firstFrom_of_walk (h : (m.walk k).head? = some p) : m.FirstFrom k p := by
  rw [head?_walk, Option.or_eq_some_iff] at h
  rcases h with h | ⟨hnone, h⟩
  · obtain ⟨hmem, hle⟩ := List.mem_filter.mp (List.mem_of_mem_head? h)
    refine ⟨hmem, Or.inl ⟨by simpa using hle, fun q hq hkq => ?_⟩⟩
    exact le_of_head? (m.sorted.filter _) h q (List.mem_filter.mpr ⟨hq, by simpa using hkq⟩)
  · have hbelow : ∀ q ∈ m.entries, q.1 < k := by
      intro q hq
      have hno := List.filter_eq_nil_iff.mp (List.head?_eq_none_iff.mp hnone) q hq
      simpa using hno
    exact ⟨List.mem_of_mem_head? h, Or.inr ⟨hbelow, le_of_head? m.sorted h⟩⟩

/-! ### Many keys -/

/-- Set the value of each of the keys. -/
theorem mem_foldl_insert {ι : Type} (key : ι → κ) (l : List ι) :
    p ∈ (l.foldl (fun m i => m.insert (key i) v) m).entries ↔
      p.2 = v ∧ (∃ i ∈ l, key i = p.1) ∨ p ∈ m.entries ∧ ∀ i ∈ l, key i ≠ p.1 := by
  induction l generalizing m with
  | nil => simp
  | cons i l ih =>
    rw [List.foldl_cons, ih, mem_insert]
    obtain ⟨k', v'⟩ := p
    by_cases hk : key i = k'
    · by_cases hv : v' = v
      · simp only [hk, hv, true_and, ne_eq, not_true_eq_false, and_false, or_false]
        have hem := em (∃ i ∈ l, key i = k')
        simpa [hk] using hem
      · simp [hk, hv]
    · simp [hk, Ne.symm hk]

/-- Remove each of the keys. -/
theorem mem_foldl_erase {ι : Type} (key : ι → κ) (l : List ι) :
    p ∈ (l.foldl (fun m i => m.erase (key i)) m).entries ↔
      p ∈ m.entries ∧ ∀ i ∈ l, key i ≠ p.1 := by
  induction l generalizing m with
  | nil => simp
  | cons i l ih =>
    rw [List.foldl_cons, ih, mem_erase, List.forall_mem_cons, and_assoc, ne_comm]

end SortedMap

end LaneSwitchboards
