import Mathlib.Data.List.Nodup
import Mathlib.Logic.Function.Basic

/-!
# Lists with an index

A list of names next to a map from names to positions, under an append and a `swap_remove`
that patches the position of the element it moves.

* `Locates`: every entry of the index is right. It survives every append, also of a name that is
  in the list already (`Locates.concat`), and every `swap_remove` (`Locates.swap`).
* `Indexes`: the index is right and has an entry for each name; the names are then distinct. It
  survives the append of a new name (`Indexes.concat`) and every `swap_remove`
  (`Indexes.swap`).
-/

namespace LaneSwitchboards

open Function

/-! ### `swap_remove` -/

/-- Remove an element by moving the last one to its place; `none` out of bounds. -/
def swapRemove {α : Type} (l : List α) (i : ℕ) : Option (α × List α) :=
  l[i]?.map fun x => (x, (l.set i (l.getLast?.getD x)).dropLast)

section SwapRemove

variable {α β : Type} {l l' : List α} {i j : ℕ} {x : α}

theorem getElem?_of_swapRemove (h : swapRemove l i = some (x, l')) : l[i]? = some x := by
  obtain ⟨y, hy, heq⟩ := Option.map_eq_some_iff.mp h
  cases heq
  exact hy

theorem length_swapRemove (h : swapRemove l i = some (x, l')) : l'.length + 1 = l.length := by
  have hlt := (List.getElem?_eq_some_iff.mp (getElem?_of_swapRemove h)).1
  obtain ⟨y, -, heq⟩ := Option.map_eq_some_iff.mp h
  cases heq
  simp only [List.length_dropLast, List.length_set]
  omega

/-- What stands where after a `swap_remove`. -/
theorem getElem?_swapRemove (h : swapRemove l i = some (x, l')) :
    l'[j]? = if j < l'.length then if j = i then l.getLast? else l[j]? else none := by
  have hlen := length_swapRemove h
  have hlt := (List.getElem?_eq_some_iff.mp (getElem?_of_swapRemove h)).1
  obtain ⟨y, -, heq⟩ := Option.map_eq_some_iff.mp h
  cases heq
  simp only [List.length_dropLast, List.length_set, List.getElem?_dropLast, List.getElem?_set]
    at hlen ⊢
  split_ifs with hj hi hi' hi'
  · rw [List.getLast?_eq_some_getLast (List.ne_nil_of_length_pos (by omega))]
    rfl
  · exact absurd hi.symm hi'
  · exact absurd hi'.symm hi
  · rfl
  · rfl

/-- `swap_remove` on two lists in step. -/
theorem map_swapRemove (f : α → β) :
    swapRemove (l.map f) i = (swapRemove l i).map (Prod.map f (List.map f)) := by
  simp only [swapRemove, List.getElem?_map, Option.map_map]
  cases h : l[i]? with
  | none => rfl
  | some y =>
    have hlast : l.getLast? = some (l.getLast (List.ne_nil_of_mem (List.mem_of_getElem? h))) :=
      List.getLast?_eq_some_getLast _
    simp [hlast, List.map_dropLast, List.map_set]

/-- A `swap_remove` removes one element. -/
theorem perm_swapRemove (h : swapRemove l i = some (x, l')) : l.Perm (x :: l') := by
  have hx := getElem?_of_swapRemove h
  have hlt := (List.getElem?_eq_some_iff.mp hx).1
  obtain ⟨init, y, rfl⟩ : ∃ init y, l = init ++ [y] := by
    simpa using (List.eq_nil_or_concat l).resolve_left (by rintro rfl; simp at hlt)
  obtain ⟨z, -, heq⟩ := Option.map_eq_some_iff.mp h
  cases heq
  rw [List.getLast?_concat, Option.getD_some]
  rcases Nat.lt_or_ge i init.length with hi | hi
  · rw [List.set_append_left _ _ hi, List.dropLast_concat]
    rw [List.getElem?_append_left hi] at hx
    obtain ⟨hi', rfl⟩ := List.getElem?_eq_some_iff.mp hx
    rw [List.set_eq_take_append_cons_drop, if_pos hi]
    have hinit : init.Perm (init[i] :: (init.take i ++ init.drop (i + 1))) := by
      calc init.Perm (init.take i ++ init[i] :: init.drop (i + 1)) := by simp
        List.Perm _ _ := List.perm_middle
    calc (init ++ [y]).Perm (y :: init) := List.perm_append_singleton y init
      List.Perm _ (y :: init[i] :: (init.take i ++ init.drop (i + 1))) := hinit.cons y
      List.Perm _ (init[i] :: y :: (init.take i ++ init.drop (i + 1))) := .swap _ _ _
      List.Perm _ (init[i] :: (init.take i ++ y :: init.drop (i + 1))) :=
        List.perm_middle.symm.cons _
  · obtain rfl : i = init.length := by simp at hlt; omega
    obtain rfl : y = x := by simpa using hx
    simp

end SwapRemove

/-! ### The index -/

section Index

variable {κ : Type} {names names' : List κ} {index : κ → Option ℕ} {i : ℕ} {k : κ}

/-- Every entry of the index is right. -/
def Locates (index : κ → Option ℕ) (names : List κ) : Prop :=
  ∀ k i, index k = some i → names[i]? = some k

/-- The index finds exactly the names, at their positions. -/
def Indexes (index : κ → Option ℕ) (names : List κ) : Prop :=
  ∀ k i, index k = some i ↔ names[i]? = some k

theorem Indexes.locates (h : Indexes index names) : Locates index names := fun k i => (h k i).mp

/-- Indexed names are distinct. -/
theorem Indexes.nodup (h : Indexes index names) : names.Nodup := by
  refine List.nodup_iff_injective_getElem.mpr fun i j hij => Fin.ext ?_
  have hj : names[(j : ℕ)]? = some names[i] := by
    rw [show names[i] = names[j] from hij]
    exact List.getElem?_eq_getElem j.2
  have hi := (h _ _).mpr (List.getElem?_eq_getElem i.2)
  exact Option.some.inj (hi.symm.trans ((h _ _).mpr hj))

/-- The index has an entry for each name. -/
theorem Indexes.isSome_iff (h : Indexes index names) : (index k).isSome = true ↔ k ∈ names := by
  rw [Option.isSome_iff_exists, List.mem_iff_getElem?]
  exact exists_congr fun i => h k i

/-- The empty index. -/
theorem indexes_nil : Indexes (fun _ : κ => none) [] := by simp [Indexes]

/-- An index that is right and has an entry for each of the distinct names. -/
theorem Locates.indexes (h : Locates index names) (hnodup : names.Nodup)
    (hall : ∀ k ∈ names, (index k).isSome = true) : Indexes index names := by
  refine fun k i => ⟨h k i, fun hi => ?_⟩
  obtain ⟨j, hj⟩ := Option.isSome_iff_exists.mp (hall k (List.mem_of_getElem? hi))
  have hlt := (List.getElem?_eq_some_iff.mp hi).1
  rwa [← (List.getElem?_inj hlt hnodup).mp (hi.trans (h k j hj).symm)] at hj

end Index

section Update

variable {κ : Type} [DecidableEq κ] {names names' : List κ} {index : κ → Option ℕ} {i : ℕ}
  {k : κ}

/-- The index after a `swap_remove`: the name that was moved to the free place gets that
position, and the removed name is forgotten. -/
def patch (index : κ → Option ℕ) (names' : List κ) (i : ℕ) (k : κ) : κ → Option ℕ := fun k' =>
  if names'[i]? = some k' then some i else if k' = k then none else index k'

/-- An append keeps the index right. -/
theorem Locates.concat (h : Locates index names) :
    Locates (update index k (some names.length)) (names ++ [k]) := by
  intro k' i hi
  by_cases hk : k' = k
  · subst hk
    obtain rfl : names.length = i := by simpa using hi
    simp
  · rw [update_of_ne hk] at hi
    have hat := h k' i hi
    rwa [List.getElem?_append_left (List.getElem?_eq_some_iff.mp hat).1]

/-- A `swap_remove` at the position the index has for a name keeps the index right. -/
theorem Locates.swap (h : Locates index names) (hi : index k = some i)
    (hswap : swapRemove names i = some (k, names')) : Locates (patch index names' i k) names' := by
  intro k' j hj
  have hlen := length_swapRemove hswap
  rw [patch] at hj
  split_ifs at hj with hmoved hk
  · exact Option.some.inj hj ▸ hmoved
  · have hat := h k' j hj
    have hjlt := (List.getElem?_eq_some_iff.mp hat).1
    have hji : j ≠ i := by
      rintro rfl
      exact hk (Option.some.inj (hat.symm.trans (h k j hi)))
    -- the last element is the one that was moved
    have hjlast : j < names'.length := by
      by_contra hge
      refine hmoved ?_
      have hilt := (List.getElem?_eq_some_iff.mp (h k i hi)).1
      rw [getElem?_swapRemove hswap, if_pos (by omega), if_pos rfl, List.getLast?_eq_getElem?,
        ← hat]
      congr 1
      omega
    rw [getElem?_swapRemove hswap, if_pos hjlast, if_neg hji, hat]

/-- The append of a new name keeps the index exact. -/
theorem Indexes.concat (h : Indexes index names) (hk : k ∉ names) :
    Indexes (update index k (some names.length)) (names ++ [k]) := by
  refine h.locates.concat.indexes (h.nodup.append (List.nodup_singleton k) (by simpa using hk))
    fun k' hk' => ?_
  by_cases hkk : k' = k
  · simp [hkk]
  · rw [update_of_ne hkk]
    refine h.isSome_iff.mpr ?_
    simpa [hkk] using hk'

/-- A `swap_remove` keeps the index exact. -/
theorem Indexes.swap (h : Indexes index names) (hswap : swapRemove names i = some (k, names')) :
    Indexes (patch index names' i k) names' := by
  have hi : index k = some i := (h k i).mpr (getElem?_of_swapRemove hswap)
  have hperm := perm_swapRemove hswap
  have hnodup := hperm.nodup_iff.mp h.nodup
  refine (h.locates.swap hi hswap).indexes (List.nodup_cons.mp hnodup).2 fun k' hk' => ?_
  rw [patch]
  split_ifs with hmoved hk
  · rfl
  · rw [hk] at hk'
    exact absurd hk' (List.nodup_cons.mp hnodup).1
  · exact h.isSome_iff.mpr (hperm.mem_iff.mpr (List.mem_cons_of_mem _ hk'))

end Update

end LaneSwitchboards
