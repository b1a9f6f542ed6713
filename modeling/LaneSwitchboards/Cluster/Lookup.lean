import LaneSwitchboards.Cluster.Preference

/-!
# Lookups on a ring with collisions

With an arbitrary hash a position may change its owner, but it never has an owner that is not
registered. So a lookup fails on an empty ring only, and `getNodes` returns the first owners on
the walk around the ring, although its loop may stop early: `getNode_spec`, `getNodes_spec`.
-/

namespace LaneSwitchboards

namespace HashRing

open Transition

variable {hash : List UInt8 → U64} {r r' : HashRing} {id : String} {v : ℕ} {op : RingOp}
  {ops : List RingOp} {key : List UInt8} {count : ℕ}

/-- What holds of every ring with `v` virtual nodes a node. -/
structure Kept (hash : List UInt8 → U64) (v : ℕ) (r : HashRing) : Prop where
  virtualNodes : r.virtualNodes = v
  named : r.Named
  owned : r.Owned hash

theorem kept_new (hash : List UInt8 → U64) (v : ℕ) : (new v).Kept hash v where
  virtualNodes := rfl
  named := named_new v
  owned := fun _ _ hmem => absurd hmem SortedMap.notMem_empty

theorem Kept.step (h : r.Kept hash v) (hst : r.step hash op = some r') : r'.Kept hash v where
  virtualNodes := by
    rw [← h.virtualNodes]
    cases op <;> obtain rfl := Option.some.inj hst <;> simp
  named := by
    cases op with
    | addNode node => exact Option.some.inj hst ▸ h.named.addNode
    | removeNode id => exact Option.some.inj hst ▸ h.named.removeNode
  owned := h.owned.step hst

theorem kept_run (hrun : (new v).run hash ops = some r) : r.Kept hash v :=
  invariant_run (P := Kept hash v) (fun h hst => h.step hst) (kept_new hash v) hrun

/-! ### One node -/

/-- The owner of the first position from the key's hash on is registered. -/
theorem Kept.getNode_eq_some {node : RingNode} (h : r.Kept hash v) :
    r.getNode hash key = some node ↔
      r.nodes.lookup node.id = some node ∧ (r.owners hash key).head? = some node.id := by
  rw [getNode_eq, Option.bind_eq_some_iff]
  constructor
  · rintro ⟨id, hid, hnode⟩
    obtain rfl := h.named id node hnode
    exact ⟨hnode, hid⟩
  · rintro ⟨hnode, hid⟩
    exact ⟨node.id, hid, hnode⟩

/-- **Lookups.** After any calls, with any hash, each position belongs to a registered node and is
one of its virtual nodes. So a lookup finds a node unless there are no positions, and then it is the
owner of the first position from the key's hash on. -/
theorem getNode_spec (hash : List UInt8 → U64) (v : ℕ) (ops : List RingOp)
    (hrun : (new v).run hash ops = some r) :
    (∀ p id, (p, id) ∈ r.ring.entries →
      r.contains id = true ∧ ∃ i < v, virtualHash hash id i = p) ∧
    ∀ key, (r.getNode hash key = none ↔ r.ring.entries = []) ∧
      ∀ node, r.getNode hash key = some node →
        ∃ p, r.ring.FirstFrom (hash key) (p, node.id) ∧ r.nodes.lookup node.id = some node := by
  have h := kept_run hrun
  refine ⟨h.virtualNodes ▸ h.owned, fun key => ⟨⟨fun hnone => ?_, fun hempty => ?_⟩, ?_⟩⟩
  · by_contra hne
    obtain ⟨x, hx⟩ := List.exists_mem_of_ne_nil _ hne
    have hne' : r.ring.walk (hash key) ≠ [] := List.ne_nil_of_mem (SortedMap.mem_walk.mpr hx)
    obtain ⟨⟨p, id⟩, hwalk⟩ := Option.isSome_iff_exists.mp (List.isSome_head?.mpr hne')
    have hmem := SortedMap.mem_walk.mp (List.mem_of_mem_head? hwalk)
    obtain ⟨node, hnode⟩ := Option.isSome_iff_exists.mp (h.owned p id hmem).1
    rw [getNode_eq, owners, List.head?_map, hwalk] at hnone
    rw [Option.map_some, Option.bind_some, hnode] at hnone
    cases hnone
  · rw [getNode, if_pos hempty]
  · intro node hnode
    obtain ⟨hlookup, hid⟩ := h.getNode_eq_some.mp hnode
    rw [owners, List.head?_map, Option.map_eq_some_iff] at hid
    obtain ⟨⟨p, id⟩, hwalk, rfl⟩ := hid
    exact ⟨p, SortedMap.firstFrom_of_walk hwalk, hlookup⟩

/-- Three nodes join, and the one in the middle of the ring leaves. -/
def departing : List RingOp :=
  [.addNode ⟨"a", "10.0.0.1", 9001⟩, .addNode ⟨"b", "10.0.0.2", 9001⟩,
    .addNode ⟨"c", "10.0.0.3", 9001⟩, .removeNode "b"]

/-- The virtual nodes of "a" come first on the ring, then those of "b", then those of "c". -/
def inTurn : List UInt8 → U64 := indexHash (keyList 4 ["a", "b", "c"])

/-- The result for these calls and two keys: one in the gap that "b" left, and one after all
positions, whose lookup wraps around. -/
theorem getNode_spec_departing : ∃ r, (new 4).run inTurn departing = some r ∧
    (∃ p, r.ring.FirstFrom (inTurn (stringBytes (virtualKey "b" 1))) (p, "c") ∧
      r.nodes.lookup "c" = some ⟨"c", "10.0.0.3", 9001⟩) ∧
    (∀ q ∈ r.ring.entries, q.1 < inTurn (stringBytes "order-7")) ∧
    ∃ p, r.ring.FirstFrom (inTurn (stringBytes "order-7")) (p, "a") ∧
      r.nodes.lookup "a" = some ⟨"a", "10.0.0.1", 9001⟩ := by
  refine ⟨_, rfl, ?_, by decide, ?_⟩
  · exact ((getNode_spec inTurn 4 departing rfl).2 _).2 ⟨"c", "10.0.0.3", 9001⟩ rfl
  · exact ((getNode_spec inTurn 4 departing rfl).2 _).2 ⟨"a", "10.0.0.1", 9001⟩ rfl

/-! ### Several nodes -/

/-- The registered nodes of a list of ids. -/
theorem Named.map_id_filterMap (h : r.Named) {ids : List String}
    (hids : ∀ id ∈ ids, r.contains id = true) :
    (ids.filterMap r.nodes.lookup).map RingNode.id = ids := by
  induction ids with
  | nil => rfl
  | cons id ids ih =>
    obtain ⟨node, hnode⟩ := Option.isSome_iff_exists.mp (hids id List.mem_cons_self)
    have hrest := ih fun id' hid' => hids id' (List.mem_cons_of_mem _ hid')
    rw [List.filterMap_cons_some (f := fun id => r.nodes.lookup id) hnode, List.map_cons, hrest,
      h id node hnode]

theorem Kept.contains_of_owners (h : r.Kept hash v) (hid : id ∈ r.owners hash key) :
    r.contains id = true := by
  obtain ⟨⟨p, id⟩, hmem, rfl⟩ := List.mem_map.mp hid
  exact (h.owned p id (SortedMap.mem_walk.mp hmem)).1

/-- **The ids of the nodes returned** are the first distinct owners on the walk. -/
theorem Kept.ids_getNodes (h : r.Kept hash v) (key : List UInt8) (count : ℕ) :
    (r.getNodes hash key count).map RingNode.id = (r.owners hash key).eraseDups.take count := by
  rw [getNodes_eq h.owned]
  refine h.named.map_id_filterMap fun id hid => ?_
  exact h.contains_of_owners (List.mem_eraseDups.mp (List.mem_of_mem_take hid))

/-- The owners on a walk are those of all positions. -/
theorem toFinset_owners (r : HashRing) (key : List UInt8) :
    (r.owners hash key).toFinset = (r.ring.entries.map Prod.snd).toFinset := by
  ext id
  simp [owners, SortedMap.mem_walk]

/-- **Several nodes.** After any calls, with any hash, `get_nodes` returns the registered nodes of
the first `count` distinct owners on the walk around the ring from the key's hash: no id twice, as
many as there are up to the count, a smaller count a beginning of a larger one, and first the
node that `get_node` returns. The early end of the loop leaves no owner out. -/
theorem getNodes_spec (hash : List UInt8 → U64) (v : ℕ) (ops : List RingOp)
    (hrun : (new v).run hash ops = some r) (key : List UInt8) (count : ℕ) :
    (r.getNodes hash key count).map RingNode.id = (r.owners hash key).eraseDups.take count ∧
    (∀ node ∈ r.getNodes hash key count, r.nodes.lookup node.id = some node) ∧
    ((r.getNodes hash key count).map RingNode.id).Nodup ∧
    (r.getNodes hash key count).length =
      min count (r.ring.entries.map Prod.snd).toFinset.card ∧
    (∀ n ≤ count, r.getNodes hash key n <+: r.getNodes hash key count) ∧
    (1 ≤ count → (r.getNodes hash key count).head? = r.getNode hash key) ∧
    ((r.getNodes hash key count).length < count → ∀ p id, (p, id) ∈ r.ring.entries →
      id ∈ (r.getNodes hash key count).map RingNode.id) := by
  have h := kept_run hrun
  have hids := h.ids_getNodes key count
  have hnodup : ((r.owners hash key).eraseDups.take count).Nodup :=
    (nodup_eraseDups _).sublist (List.take_sublist _ _)
  have hlength : (r.getNodes hash key count).length =
      min count (r.owners hash key).eraseDups.length := by
    rw [← List.length_map (f := RingNode.id), hids, List.length_take]
  refine ⟨hids, ?_, hids ▸ hnodup, ?_, ?_, ?_, ?_⟩
  · intro node hnode
    rw [getNodes_eq h.owned] at hnode
    obtain ⟨id, -, hlookup⟩ := List.mem_filterMap.mp hnode
    exact (h.named id node hlookup).symm ▸ hlookup
  · rw [hlength, length_eraseDups, toFinset_owners]
  · intro n hn
    rw [getNodes_eq h.owned, getNodes_eq h.owned]
    exact (List.take_prefix_take_left hn).filterMap _
  · intro hcount
    rw [getNodes_eq h.owned, getNode_eq]
    cases howners : r.owners hash key with
    | nil => simp
    | cons id rest =>
      have hid : r.contains id = true :=
        h.contains_of_owners (howners ▸ List.mem_cons_self : id ∈ r.owners hash key)
      obtain ⟨node, hnode⟩ := Option.isSome_iff_exists.mp hid
      obtain ⟨n, rfl⟩ := Nat.exists_eq_add_of_le' hcount
      rw [List.eraseDups_cons, List.take_succ_cons,
        List.filterMap_cons_some (f := fun id => r.nodes.lookup id) hnode, List.head?_cons,
        List.head?_cons, Option.bind_some, hnode]
  · intro hshort p id hmem
    have hle : (r.owners hash key).eraseDups.length ≤ count := by omega
    rw [hids, List.take_of_length_le hle, List.mem_eraseDups]
    exact List.mem_map.mpr ⟨(p, id), SortedMap.mem_walk.mpr hmem, rfl⟩

/-- The result for these calls: the walk wraps around and meets each owner four times, and ends
early with both nodes where five are asked for. -/
theorem getNodes_spec_departing : ∃ r, (new 4).run inTurn departing = some r ∧
    r.owners inTurn (stringBytes (virtualKey "c" 1)) =
      ["c", "c", "c", "a", "a", "a", "a", "c"] ∧
    (r.getNodes inTurn (stringBytes (virtualKey "c" 1)) 5).map RingNode.id =
      (["c", "c", "c", "a", "a", "a", "a", "c"].eraseDups).take 5 ∧
    (r.getNodes inTurn (stringBytes (virtualKey "c" 1)) 1 <+:
      r.getNodes inTurn (stringBytes (virtualKey "c" 1)) 5) ∧
    (r.getNodes inTurn (stringBytes (virtualKey "c" 1)) 5).head? =
      r.getNode inTurn (stringBytes (virtualKey "c" 1)) ∧
    ∀ p id, (p, id) ∈ r.ring.entries →
      id ∈ (r.getNodes inTurn (stringBytes (virtualKey "c" 1)) 5).map RingNode.id := by
  obtain ⟨hids, -, -, -, hprefix, hhead, hall⟩ :=
    getNodes_spec inTurn 4 departing rfl (stringBytes (virtualKey "c" 1)) 5
  exact ⟨_, rfl, rfl, hids, hprefix 1 (by decide), hhead (by decide), hall (by decide)⟩

end HashRing

end LaneSwitchboards
