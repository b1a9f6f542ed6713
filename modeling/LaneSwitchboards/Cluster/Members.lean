import LaneSwitchboards.Cluster.InStep
import LaneSwitchboards.Cluster.Placement

/-!
# A cluster as a map

While no name is repeated a cluster is a finite map from names to members: `leave` removes the
member of a name and returns it (`Tidy.leave_spec`), `join` adds one of a new name
(`Tidy.join_spec`), and the ring has just the nodes of the members. Where no two virtual nodes
share a position, the members also decide the choice of a key: `Tidy.chosen_eq`.
-/

namespace LaneSwitchboards

namespace Cluster

variable {hash : List UInt8 → U64} {v : ℕ} {S : Set String} {c c' : Cluster} {id : String}
  {m m' : ClusterMember} {writer : WriterId}

/-- A cluster without repeated names, whose ring has the nodes of its members. -/
structure Tidy (hash : List UInt8 → U64) (v : ℕ) (S : Set String) (c : Cluster) : Prop where
  sound : c.Sound
  inStep : c.InStep
  nodes : ∀ m ∈ c.members, c.ring.nodes.lookup m.name = m.ringNode
  placed : Set.InjOn hash (HashRing.virtualKeys v S) → c.ring.Placed hash v S

theorem tidy_withVirtualNodes (hash : List UInt8 → U64) (v : ℕ) (S : Set String) :
    (withVirtualNodes v).Tidy hash v S where
  sound := sound_withVirtualNodes v
  inStep := inStep_withVirtualNodes v
  nodes := fun _ hm => by cases hm
  placed := fun _ => HashRing.placed_new hash v S

/-- A name has one member. -/
theorem InStep.member_unique (h : c.InStep) (hm : m ∈ c.members) (hm' : m' ∈ c.members)
    (hname : m.name = m'.name) : m = m' :=
  List.inj_on_of_nodup_map h.nodup hm hm' hname

theorem InStep.find?_eq (h : c.InStep) (hm : m ∈ c.members) (hid : m.name = id) :
    c.members.find? (·.name = id) = some m := by
  obtain ⟨m', hfind⟩ : ∃ m', c.members.find? (·.name = id) = some m' :=
    Option.isSome_iff_exists.mp (List.find?_isSome.mpr ⟨m, hm, by simpa using hid⟩)
  have hid' : m'.name = id := by simpa using List.find?_some hfind
  rw [hfind, h.member_unique (List.mem_of_find?_eq_some hfind) hm (hid'.trans hid.symm)]

/-- The member of a name that is not in the roster. -/
theorem find?_eq_none (hid : id ∉ c.names) : c.members.find? (·.name = id) = none := by
  refine List.find?_eq_none.mpr fun m hm hname => hid ?_
  exact List.mem_map.mpr ⟨m, hm, by simpa using hname⟩

/-- The members are found on the ring. -/
theorem Tidy.lookup_ring (h : c.Tidy hash v S) (n : String) {node : RingNode} :
    c.ring.nodes.lookup n = some node ↔ ∃ m ∈ c.members, m.name = n ∧ m.ringNode = some node := by
  constructor
  · intro hnode
    obtain ⟨m, hm, rfl⟩ : ∃ m ∈ c.members, m.name = n :=
      List.mem_map.mp ((h.inStep.ring n).mp (by rw [HashRing.contains, hnode]; rfl))
    exact ⟨m, hm, rfl, (h.nodes m hm).symm.trans hnode⟩
  · rintro ⟨m, hm, rfl, hnode⟩
    exact (h.nodes m hm).trans hnode

/-- **A join** under a new name. -/
theorem Tidy.join_spec (h : c.Tidy hash v S) (hnew : m.name ∉ c.names) (hS : m.name ∈ S)
    (haddr : Parses m.nodeAddr) (writer : WriterId) :
    ∃ c', c.join hash m writer = .ok () c' ∧ c'.Tidy hash v S ∧ c'.members = c.members ++ [m] := by
  obtain ⟨node, hnode⟩ := Option.isSome_iff_exists.mp (ringNode_isSome.mpr haddr)
  have hid : node.id = m.name := RingNode.id_of_fromSocketAddr hnode
  have hst : c.step hash (.join m writer) = some (c.join hash m writer).state := rfl
  have hop : ¬ c.Rejoins (.join m writer) := hnew
  have hsound := h.sound.step hst
  have hinStep := h.inStep.step h.sound hop hst
  rw [join_eq hnode] at hsound hinStep
  refine ⟨_, join_eq hnode, ⟨hsound, hinStep, fun m' hm' => ?_, fun hinj => ?_⟩, rfl⟩
  · rw [HashRing.lookup_addNode]
    rcases List.mem_append.mp hm' with hm' | hm'
    · have hne : m'.name ≠ node.id := fun heq =>
        hnew (heq.trans hid ▸ List.mem_map.mpr ⟨m', hm', rfl⟩)
      rw [if_neg hne]
      exact h.nodes m' hm'
    · obtain rfl := List.mem_singleton.mp hm'
      rw [if_pos hid.symm]
      exact hnode.symm
  · have hstep : c.ring.step hash (.addNode node) = some (c.ring.addNode hash node) := rfl
    refine (h.placed hinj).step hinj (fun node' heq => ?_) hstep
    cases heq
    exact hid ▸ hS

/-- **A leave** removes the member of the name and returns it. -/
theorem Tidy.leave_spec (h : c.Tidy hash v S) (id : String) :
    ∃ c', c.leave hash id = .ok (c.members.find? (·.name = id)) c' ∧ c'.Tidy hash v S ∧
      ∀ m, m ∈ c'.members ↔ m ∈ c.members ∧ m.name ≠ id := by
  rcases h.sound.leave_spec hash id with ⟨hcontains, hleave⟩ |
    ⟨i, m, r, c', hleave, hname, -, -, hmembers, -, -, hring, -⟩
  · have hid : id ∉ c.names := fun hmem => by
      rw [(h.inStep.ring id).mpr hmem] at hcontains
      cases hcontains
    refine ⟨c, by rw [hleave, find?_eq_none hid], h, fun m => ?_⟩
    exact ⟨fun hm => ⟨hm, fun heq => hid (heq ▸ List.mem_map.mpr ⟨m, hm, rfl⟩)⟩, fun hm => hm.1⟩
  · have hperm := perm_swapRemove hmembers
    have hst : c.step hash (.leave id) = some c' := by rw [step, hleave, Outcome.state_ok]
    have hop : ¬ c.Rejoins (.leave id) := fun h => h
    have hnodup : (m.name :: c'.names).Nodup := (hperm.map _).nodup_iff.mp h.inStep.nodup
    have hmem (m' : ClusterMember) : m' ∈ c'.members ↔ m' ∈ c.members ∧ m'.name ≠ id := by
      rw [hperm.mem_iff, List.mem_cons]
      constructor
      · intro hm'
        refine ⟨Or.inr hm', fun heq => (List.nodup_cons.mp hnodup).1 ?_⟩
        exact hname.trans heq.symm ▸ List.mem_map.mpr ⟨m', hm', rfl⟩
      · rintro ⟨rfl | hm', hne⟩
        · exact absurd hname hne
        · exact hm'
    refine ⟨c', ?_, ⟨h.sound.step hst, h.inStep.step h.sound hop hst, fun m' hm' => ?_,
      fun hinj => ?_⟩, hmem⟩
    · rw [hleave, h.inStep.find?_eq (hperm.mem_iff.mpr List.mem_cons_self) hname]
    · obtain ⟨hm', hne⟩ := (hmem m').mp hm'
      rw [hring, HashRing.lookup_removeNode, if_neg hne]
      exact h.nodes m' hm'
    · have hstep : c.ring.step hash (.removeNode id) = some c'.ring := by
        rw [HashRing.step, hring]
      exact (h.placed hinj).step hinj (fun node heq => by cases heq) hstep

/-- Several leave. -/
theorem Tidy.leaves_spec (h : c.Tidy hash v S) (ids : List String) :
    ∃ c', Outcome.forEach (Cluster.leave hash) ids c = .ok () c' ∧ c'.Tidy hash v S ∧
      ∀ m, m ∈ c'.members ↔ m ∈ c.members ∧ m.name ∉ ids := by
  induction ids generalizing c with
  | nil => exact ⟨c, rfl, h, fun m => by simp⟩
  | cons id ids ih =>
    obtain ⟨c₁, hleave, htidy, hmem⟩ := h.leave_spec id
    obtain ⟨c₂, hleaves, htidy', hmem'⟩ := ih htidy
    refine ⟨c₂, by rw [Outcome.forEach, hleave, Outcome.bind_ok, hleaves], htidy', fun m => ?_⟩
    rw [hmem', hmem, List.mem_cons, not_or, and_assoc]

/-! ### The choice of a key -/

/-- The name at the position of the reference for a key. -/
def instanceForKey (hash : List UInt8 → U64) (c : Cluster) (key : List UInt8) : Option String :=
  (c.idxForKey hash key).bind (c.names[·]?)

theorem Sound.instanceForKey_eq (h : c.Sound) (key : List UInt8) :
    c.instanceForKey hash key = (c.ring.getNode hash key).map RingNode.id := by
  unfold instanceForKey idxForKey
  cases hnode : c.ring.getNode hash key with
  | none => rfl
  | some node =>
    have hcontains : c.ring.contains node.id = true := by
      simp [HashRing.contains, HashRing.getNode_mem h.named hnode]
    obtain ⟨i, hi⟩ := Option.isSome_iff_exists.mp (h.registered _ hcontains)
    have hname : c.names[i]? = some node.id := h.locates _ i hi
    simp [hi, hname]

/-- **The members decide the choice** where no two virtual nodes share a position. -/
theorem Tidy.choice_eq (h : c.Tidy hash v S) (h' : c'.Tidy hash v S)
    (hinj : Set.InjOn hash (HashRing.virtualKeys v S))
    (hmembers : ∀ m, m ∈ c'.members ↔ m ∈ c.members) (key : List UInt8) :
    c'.instanceForKey hash key = c.instanceForKey hash key ∧
      (c'.refForKey hash key).map RemoteActorRef.endpoint =
        (c.refForKey hash key).map RemoteActorRef.endpoint := by
  have hring : c'.ring = c.ring := by
    refine (h.placed hinj).eq_of_nodes (h'.placed hinj) fun n => Option.ext fun node => ?_
    simp only [h'.lookup_ring, h.lookup_ring, hmembers]
  have hfind (id : String) : c'.members.find? (·.name = id) = c.members.find? (·.name = id) := by
    cases hfind : c.members.find? (·.name = id) with
    | none =>
      refine List.find?_eq_none.mpr fun m hm => ?_
      exact List.find?_eq_none.mp hfind m ((hmembers m).mp hm)
    | some m =>
      have hm := (hmembers m).mpr (List.mem_of_find?_eq_some hfind)
      exact h'.inStep.find?_eq hm (by simpa using List.find?_some hfind)
  refine ⟨?_, ?_⟩
  · rw [h'.sound.instanceForKey_eq, h.sound.instanceForKey_eq, hring]
  · have hsame : c.SameEndpoint hash key := h.inStep.sameEndpoint h.sound key
    have hsame' : c'.SameEndpoint hash key := h'.inStep.sameEndpoint h'.sound key
    unfold SameEndpoint at hsame hsame'
    rw [hsame', hsame, memberForKey, memberForKey, hring]
    simp only [hfind]

end Cluster

end LaneSwitchboards
