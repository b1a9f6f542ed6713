import Mathlib.Data.Finmap
import Mathlib.Logic.Function.Basic

/-!
# Hash maps

Finite maps whose iteration order is not fixed. An iteration over the keys or the values visits
them in some order, which is a list of them (`ListsKeys`, `ListsValues`).

* `lookup_insert_eq_update`, `lookup_erase_eq_update`: lookups after an update.
* `lookup_foldl_insert`, `lookup_collect`: a list that is inserted leaves the last value of each
  key.
-/

namespace LaneSwitchboards

open Function

/-- A finite map. -/
abbrev HashMap (κ ν : Type) := Finmap fun _ : κ => ν

section HashMap

variable {κ ν : Type} [DecidableEq κ]

theorem lookup_insert_eq_update (m : HashMap κ ν) (k : κ) (v : ν) :
    (fun k' => (m.insert k v).lookup k') = update (fun k' => m.lookup k') k (some v) := by
  funext k'
  by_cases h : k' = k
  · subst h
    simp
  · rw [Finmap.lookup_insert_of_ne _ h, update_of_ne h]

theorem lookup_erase_eq_update (m : HashMap κ ν) (k : κ) :
    (fun k' => (m.erase k).lookup k') = update (fun k' => m.lookup k') k none := by
  funext k'
  by_cases h : k' = k
  · subst h
    simp
  · rw [Finmap.lookup_erase_ne h, update_of_ne h]

theorem lookup_insert_eq_ite (m : HashMap κ ν) (k k' : κ) (v : ν) :
    (m.insert k v).lookup k' = if k' = k then some v else m.lookup k' := by
  simpa [update_apply] using congrFun (lookup_insert_eq_update m k v) k'

/-- Keep the entries that satisfy a condition. -/
def retain (p : κ → ν → Bool) (m : HashMap κ ν) : HashMap κ ν where
  entries := m.entries.filter fun e => p e.1 e.2
  nodupKeys := Multiset.nodup_keys.mp <| Multiset.nodup_of_le
    (Multiset.map_le_map (Multiset.filter_le _ _)) (Multiset.nodup_keys.mpr m.nodupKeys)

theorem lookup_retain {p : κ → ν → Bool} {m : HashMap κ ν} {k : κ} {v : ν} :
    (retain p m).lookup k = some v ↔ m.lookup k = some v ∧ p k v = true := by
  rw [Finmap.lookup_eq_some_iff, Finmap.lookup_eq_some_iff, retain, Multiset.mem_filter]

theorem lookup_retain_eq (p : κ → ν → Bool) (m : HashMap κ ν) (k : κ) :
    (retain p m).lookup k = (m.lookup k).filter (p k) := by
  refine Option.ext fun v => ?_
  rw [lookup_retain, Option.filter_eq_some_iff]

/-! ### Iteration -/

/-- The list is the keys of the map, in some order. -/
def ListsKeys (l : List κ) (m : HashMap κ ν) : Prop := (l : Multiset κ) = m.entries.map Sigma.fst

/-- The list is the values of the map, in some order. -/
def ListsValues [DecidableEq ν] (l : List ν) (m : HashMap κ ν) : Prop :=
  (l : Multiset ν) = m.entries.map Sigma.snd

instance (l : List κ) (m : HashMap κ ν) : Decidable (ListsKeys l m) :=
  inferInstanceAs (Decidable (_ = _))

instance [DecidableEq ν] (l : List ν) (m : HashMap κ ν) : Decidable (ListsValues l m) :=
  inferInstanceAs (Decidable (_ = _))

theorem ListsKeys.mem_iff {l : List κ} {m : HashMap κ ν} {k : κ} (h : ListsKeys l m) :
    k ∈ l ↔ (m.lookup k).isSome = true := by
  have hkeys : k ∈ l ↔ k ∈ m.entries.keys := by
    rw [← Multiset.mem_coe, h]
    rfl
  rw [hkeys, ← Finmap.mem_def, ← Finmap.lookup_isSome]

theorem ListsValues.mem_iff [DecidableEq ν] {l : List ν} {m : HashMap κ ν} {v : ν}
    (h : ListsValues l m) : v ∈ l ↔ ∃ k, m.lookup k = some v := by
  rw [← Multiset.mem_coe, h, Multiset.mem_map]
  constructor
  · rintro ⟨⟨k, v⟩, hmem, rfl⟩
    exact ⟨k, Finmap.lookup_eq_some_iff.mpr hmem⟩
  · rintro ⟨k, hk⟩
    exact ⟨⟨k, v⟩, Finmap.lookup_eq_some_iff.mp hk, rfl⟩

/-- Values that know their keys are listed under distinct keys. -/
theorem ListsValues.nodup_map [DecidableEq ν] {l : List ν} {m : HashMap κ ν} {key : ν → κ}
    (h : ListsValues l m) (hkey : ∀ k v, m.lookup k = some v → key v = k) :
    (l.map key).Nodup := by
  have hkeys : ((l.map key : List κ) : Multiset κ) = m.entries.map Sigma.fst := by
    rw [← Multiset.map_coe, h, Multiset.map_map]
    refine Multiset.map_congr rfl fun ⟨k, v⟩ hmem => ?_
    exact hkey k v (Finmap.lookup_eq_some_iff.mpr hmem)
  rw [← Multiset.coe_nodup, hkeys]
  exact m.nodupKeys.nodup_keys

theorem ListsValues.insert [DecidableEq ν] {l : List ν} {m : HashMap κ ν} {k : κ} {v : ν}
    (h : ListsValues l m) (hk : m.lookup k = none) : ListsValues (v :: l) (m.insert k v) := by
  have hentries : (m.insert k v).entries = ⟨k, v⟩ ::ₘ m.entries :=
    Finmap.entries_insert_of_notMem (Finmap.lookup_eq_none.mp hk)
  rw [ListsValues, hentries, Multiset.map_cons, ← h, Multiset.cons_coe]

omit [DecidableEq κ] in
/-- The values of the entries that are kept are those of the map that satisfy the condition. -/
theorem listsValues_retain [DecidableEq ν] {l : List ν} {m : HashMap κ ν} {p : ν → Bool} :
    ListsValues l (retain (fun _ v => p v) m) ↔ ∃ l', ListsValues l' m ∧ l = l'.filter p := by
  have hentries : (retain (fun _ v => p v) m).entries.map Sigma.snd =
      (m.entries.map Sigma.snd).filter (p ·) := by
    rw [Multiset.filter_map]
    rfl
  constructor
  · intro h
    rw [ListsValues, hentries] at h
    -- the values that are kept, then the others
    refine ⟨l ++ ((m.entries.map Sigma.snd).filter (¬ p ·)).toList, ?_, ?_⟩
    · rw [ListsValues, ← Multiset.coe_add, h, Multiset.coe_toList, Multiset.filter_add_not]
    · have hkept : l.filter p = l := by
        refine List.filter_eq_self.mpr fun v hv => ?_
        rw [← Multiset.mem_coe, h] at hv
        exact (Multiset.mem_filter.mp hv).2
      have hothers : ((m.entries.map Sigma.snd).filter (¬ p ·)).toList.filter p = [] := by
        refine List.filter_eq_nil_iff.mpr fun v hv => ?_
        rw [Multiset.mem_toList] at hv
        exact (Multiset.mem_filter.mp hv).2
      rw [List.filter_append, hkept, hothers, List.append_nil]
  · rintro ⟨l', h, rfl⟩
    rw [ListsValues, hentries, ← h, Multiset.filter_coe]
    simp

/-! ### Collecting a list -/

/-- Insert the values of a list, each under its key. -/
def collect (key : ν → κ) (l : List ν) : HashMap κ ν :=
  l.foldl (fun m v => m.insert (key v) v) ∅

/-- **Inserting a list** into a map leaves the last value of each key. -/
theorem lookup_foldl_insert {α : Type} (key : α → κ) (value : α → ν) (l : List α)
    (m : HashMap κ ν) (k : κ) :
    (l.foldl (fun m a => m.insert (key a) (value a)) m).lookup k =
      ((l.reverse.find? (key · = k)).map value).or (m.lookup k) := by
  induction l using List.reverseRecOn with
  | nil => rfl
  | append_singleton l a ih =>
    rw [List.foldl_append, List.foldl_cons, List.foldl_nil, lookup_insert_eq_ite,
      List.reverse_append, List.reverse_singleton, List.singleton_append, List.find?_cons, ih]
    by_cases h : k = key a <;> simp [h, eq_comm]

/-- **The last value of a key** is kept. -/
theorem lookup_collect (key : ν → κ) (l : List ν) (k : κ) :
    (collect key l).lookup k = l.reverse.find? (key · = k) := by
  rw [collect, lookup_foldl_insert]
  simp

theorem of_lookup_collect {key : ν → κ} {l : List ν} {k : κ} {v : ν}
    (h : (collect key l).lookup k = some v) : v ∈ l ∧ key v = k := by
  rw [lookup_collect] at h
  exact ⟨List.mem_reverse.mp (List.mem_of_find?_eq_some h), by simpa using List.find?_some h⟩

/-- Where the keys are distinct every value is kept. -/
theorem lookup_collect_of_nodup {key : ν → κ} {l : List ν} {v : ν} (h : (l.map key).Nodup)
    (hv : v ∈ l) : (collect key l).lookup (key v) = some v := by
  obtain ⟨v', hv'⟩ : ∃ v', (collect key l).lookup (key v) = some v' := by
    rw [lookup_collect]
    exact Option.isSome_iff_exists.mp (List.find?_isSome.mpr ⟨v, by simpa using hv, by simp⟩)
  obtain ⟨hmem, hkey⟩ := of_lookup_collect hv'
  rw [hv', List.inj_on_of_nodup_map h hmem hv hkey]

end HashMap

end LaneSwitchboards
