import LaneSwitchboards.Cluster.InStep

/-!
# The references of a cluster

Every `join` gives the member a reference with a write loop of its own. A cluster is `Numbered`
when its structures are in step and all its write loops have numbers below some bound; then each
member has one reference (`Numbered.refOf_lt`), which a `leave` of another name keeps although it
may be moved (`Numbered.refOf_leave`), and which a `join` of another name keeps too.
-/

namespace LaneSwitchboards

open Function

namespace Cluster

variable {hash : List UInt8 → U64} {c : Cluster} {id id' : String} {m : ClusterMember}
  {r : RemoteActorRef} {w w' : WriterId}

/-- The reference of a name. -/
def refOf (c : Cluster) (id : String) : Option RemoteActorRef :=
  (c.refsById.lookup id).bind (c.refs[·]?)

/-- The structures are in step, and no write loop has a number from `w` on. -/
structure Numbered (w : WriterId) (c : Cluster) : Prop where
  sound : c.Sound
  inStep : c.InStep
  writer_lt : ∀ r ∈ c.refs, r.writer < w

theorem numbered_withVirtualNodes (w : WriterId) (virtualNodes : ℕ) :
    (withVirtualNodes virtualNodes).Numbered w where
  sound := sound_withVirtualNodes virtualNodes
  inStep := inStep_withVirtualNodes virtualNodes
  writer_lt := fun _ h => by cases h

theorem Numbered.mono (h : c.Numbered w) (hle : w ≤ w') : c.Numbered w' where
  sound := h.sound
  inStep := h.inStep
  writer_lt := fun r hr => (h.writer_lt r hr).trans_le hle

theorem refOf_mem (hr : c.refOf id = some r) : r ∈ c.refs := by
  obtain ⟨i, -, hi⟩ := Option.bind_eq_some_iff.mp hr
  exact List.mem_of_getElem? hi

/-- A member has a reference. -/
theorem Numbered.refOf_lt (h : c.Numbered w) (hm : m ∈ c.members) :
    ∃ r, c.refOf m.name = some r ∧ r.writer < w := by
  have hname : m.name ∈ c.names := List.mem_map.mpr ⟨m, hm, rfl⟩
  obtain ⟨i, hi⟩ := Option.isSome_iff_exists.mp (h.inStep.indexes.isSome_iff.mpr hname)
  have hlt : i < c.refs.length := by
    rw [h.sound.length_refs]
    exact (List.getElem?_eq_some_iff.mp (h.sound.locates _ _ hi)).1
  have href : c.refOf m.name = some c.refs[i] := by
    rw [refOf, hi, Option.bind_some, List.getElem?_eq_getElem hlt]
  exact ⟨_, href, h.writer_lt _ (refOf_mem href)⟩

theorem Numbered.leave (h : c.Numbered w) (hash : List UInt8 → U64) (id : String) :
    (c.leave hash id).state.Numbered w where
  sound := h.sound.leave hash id
  inStep := by
    have hop : ¬ c.Rejoins (.leave id) := fun hop => hop
    exact h.inStep.step h.sound hop rfl
  writer_lt := by
    rcases h.sound.leave_spec hash id with ⟨-, hleave⟩ |
      ⟨i, m, r, c', hleave, -, -, -, -, hrefs, -⟩
    · rw [hleave]
      exact h.writer_lt
    · rw [hleave]
      exact fun r' hr' => h.writer_lt r'
        ((perm_swapRemove hrefs).mem_iff.mpr (List.mem_cons_of_mem _ hr'))

/-- **A leave keeps the references of the other names**, also of the one that is moved. -/
theorem Numbered.refOf_leave (h : c.Numbered w) (hash : List UInt8 → U64) (hne : id' ≠ id) :
    (c.leave hash id).state.refOf id' = c.refOf id' := by
  have hnumbered := h.leave hash id
  rcases h.sound.leave_spec hash id with ⟨-, hleave⟩ |
    ⟨i, m, r, c', hleave, hname, -, hi, hmembers, hrefs, hlookup, -⟩
  · rw [hleave]
    rfl
  · rw [hleave, Outcome.state_ok] at hnumbered ⊢
    have hnames := swapRemove_names hmembers
    have hlen : c'.refs.length = c'.names.length := hnumbered.sound.length_refs
    have hlookup' : c'.refsById.lookup id' =
        if c'.names[i]? = some id' then some i else c.refsById.lookup id' := by
      rw [congrFun hlookup id', patch, if_neg hne]
    rw [refOf, hlookup']
    split_ifs with hmoved
    · -- the last member has been moved to the free place, and so has its reference
      have hilt := (List.getElem?_eq_some_iff.mp hmoved).1
      have hlast : c.names[c.names.length - 1]? = some id' := by
        rw [← List.getLast?_eq_getElem?, ← hmoved, getElem?_swapRemove hnames, if_pos hilt,
          if_pos rfl]
      have hindex : c.refsById.lookup id' = some (c.names.length - 1) :=
        (h.inStep.indexes id' _).mpr hlast
      rw [refOf, hindex, Option.bind_some, Option.bind_some, getElem?_swapRemove hrefs,
        if_pos (by omega), if_pos rfl, List.getLast?_eq_getElem?, h.sound.length_refs]
    · cases hj : c.refsById.lookup id' with
      | none => rw [refOf, hj]; rfl
      | some j =>
        have hj' : c'.names[j]? = some id' := by
          have hindex : c'.refsById.lookup id' = some j := by rw [hlookup', if_neg hmoved, hj]
          exact (hnumbered.inStep.indexes id' j).mp hindex
        have hjlt := (List.getElem?_eq_some_iff.mp hj').1
        have hji : j ≠ i := fun heq => hmoved (heq ▸ hj')
        rw [refOf, hj, Option.bind_some, Option.bind_some, getElem?_swapRemove hrefs,
          if_pos (by omega), if_neg hji]

/-- A join under a new name. -/
theorem Numbered.join (h : c.Numbered w) (hash : List UInt8 → U64) (hnew : m.name ∉ c.names) :
    (c.join hash m w).state.Numbered (w + 1) where
  sound := h.sound.join hash m w
  inStep := by
    have hop : ¬ c.Rejoins (.join m w) := hnew
    exact h.inStep.step h.sound hop rfl
  writer_lt := by
    by_cases haddr : Parses m.nodeAddr
    · obtain ⟨node, hnode⟩ := Option.isSome_iff_exists.mp (ringNode_isSome.mpr haddr)
      rw [join_eq hnode]
      intro r hr
      rcases List.mem_append.mp hr with hr | hr
      · exact (h.writer_lt r hr).trans (Nat.lt_succ_self w)
      · rw [List.mem_singleton.mp hr]
        exact Nat.lt_succ_self w
    · rw [join_panicked haddr]
      exact (h.mono (Nat.le_succ w)).writer_lt

/-- **A join** gives its member a new reference and keeps those of the other names. -/
theorem Numbered.refOf_join (h : c.Numbered w) (hash : List UInt8 → U64) (m : ClusterMember) :
    (Parses m.nodeAddr → (c.join hash m w).state.refOf m.name = some (m.remoteRefWith w)) ∧
    ∀ id, id ≠ m.name → (c.join hash m w).state.refOf id = c.refOf id := by
  by_cases haddr : Parses m.nodeAddr
  · obtain ⟨node, hnode⟩ := Option.isSome_iff_exists.mp (ringNode_isSome.mpr haddr)
    rw [join_eq hnode]
    refine ⟨fun _ => ?_, fun id hne => ?_⟩
    · simp [refOf]
    · simp only [Outcome.state_ok, refOf, lookup_insert_eq_ite, if_neg hne]
      cases hi : c.refsById.lookup id with
      | none => rfl
      | some i =>
        have hlt : i < c.refs.length := by
          rw [h.sound.length_refs]
          exact (List.getElem?_eq_some_iff.mp (h.sound.locates _ _ hi)).1
        exact List.getElem?_append_left hlt
  · rw [join_panicked haddr]
    exact ⟨fun hp => absurd hp haddr, fun _ _ => rfl⟩

end Cluster

end LaneSwitchboards
