import LaneSwitchboards.Cluster.Placement

/-!
# The preference list of a key

`getNodes` takes the first `count` of the distinct owners on a walk around the ring from the
key's hash (`getNodes_eq`), and `getNode` is the first of them. A join under a new id only adds
positions to the walk, so it inserts the new node into the preference list and moves no other:
`join_preference`.
-/

namespace LaneSwitchboards

namespace HashRing

open Transition

variable {hash : List UInt8 → U64} {r r' : HashRing} {node : RingNode} {id : String}
  {key : List UInt8} {count v : ℕ} {S : Set String} {ops : List RingOp}

/-- The owners on the walk around the ring from a key's hash. -/
def owners (hash : List UInt8 → U64) (r : HashRing) (key : List UInt8) : List String :=
  (r.ring.walk (hash key)).map Prod.snd

/-! ### The traversal -/

/-- Ids that are all there are leave none out. -/
theorem mem_of_card_le {seen : List String} (hnodup : seen.Nodup)
    (hseen : ∀ id ∈ seen, r.contains id = true) (hcard : r.nodes.keys.card ≤ seen.length)
    (hid : r.contains id = true) : id ∈ seen := by
  have hsub : seen.toFinset ⊆ r.nodes.keys := fun id hid =>
    mem_keys_iff_contains.mpr (hseen id (List.mem_toFinset.mp hid))
  have heq : seen.toFinset = r.nodes.keys := by
    refine Finset.eq_of_subset_of_card_le hsub ?_
    rwa [List.toFinset_card_of_nodup hnodup]
  exact List.mem_toFinset.mp (heq ▸ mem_keys_iff_contains.mpr hid)

/-- **The loop of `get_nodes`** appends the distinct owners that it has not seen, up to the
count. It may stop once it has seen every registered node. -/
theorem collect_eq (l : List (U64 × String)) (seen : List String) (result : List RingNode)
    (hl : ∀ x ∈ l, r.contains x.2 = true) (hnodup : seen.Nodup)
    (hseen : ∀ id ∈ seen, r.contains id = true) (hlen : result.length = seen.length)
    (hcount : result.length < count) :
    r.collect count l seen result = result ++
      ((((l.map Prod.snd).filter (· ∉ seen)).eraseDups.take
        (count - result.length)).filterMap r.nodes.lookup) := by
  induction l generalizing seen result with
  | nil => simp [collect]
  | cons x rest ih =>
    obtain ⟨p, id⟩ := x
    have hrest : ∀ x ∈ rest, r.contains x.2 = true := fun x hx => hl x (List.mem_cons_of_mem _ hx)
    by_cases hid : id ∈ seen
    · rw [collect, if_pos hid, ih seen result hrest hnodup hseen hlen hcount]
      simp [hid]
    · have hcontains : r.contains id = true := hl (p, id) List.mem_cons_self
      obtain ⟨node, hnode⟩ := Option.isSome_iff_exists.mp hcontains
      have hnodup' : (id :: seen).Nodup := List.nodup_cons.mpr ⟨hid, hnodup⟩
      have hseen' : ∀ id' ∈ id :: seen, r.contains id' = true := by
        intro id' hid'
        rcases List.mem_cons.mp hid' with rfl | hid'
        · exact hcontains
        · exact hseen id' hid'
      -- the owners after the first, without it
      have hfilter : ((rest.map Prod.snd).filter (· ∉ seen)).filter (fun id' => !id' == id) =
          (rest.map Prod.snd).filter (· ∉ id :: seen) := by
        rw [List.filter_filter]
        refine List.filter_congr fun id' _ => ?_
        by_cases heq : id' = id <;> simp [heq]
      obtain ⟨n, hn⟩ : ∃ n, count - result.length = n + 1 :=
        Nat.exists_eq_succ_of_ne_zero (by omega)
      have hfirst : (((((p, id) :: rest).map Prod.snd).filter (· ∉ seen)).eraseDups.take
          (count - result.length)).filterMap r.nodes.lookup =
          node :: ((((rest.map Prod.snd).filter (· ∉ id :: seen)).eraseDups.take n).filterMap
            r.nodes.lookup) := by
        rw [List.map_cons, List.filter_cons_of_pos (by simpa using hid), List.eraseDups_cons,
          hfilter, hn, List.take_succ_cons,
          List.filterMap_cons_some (f := fun id => r.nodes.lookup id) hnode]
      rw [collect, if_neg hid, hnode, hfirst]
      dsimp only
      split_ifs with hstop
      · rcases hstop with hstop | hstop
        · obtain rfl : n = 0 := by omega
          simp
        · have hnone : (rest.map Prod.snd).filter (· ∉ id :: seen) = [] := by
            refine List.filter_eq_nil_iff.mpr fun id' hid' => ?_
            obtain ⟨x, hx, rfl⟩ := List.mem_map.mp hid'
            have hmem := mem_of_card_le hnodup' hseen' (by simpa using hstop) (hrest x hx)
            simp [hmem]
          simp only [hnone, List.eraseDups_nil, List.take_nil, List.filterMap_nil]
      · have hlen' : (result ++ [node]).length = (id :: seen).length := by simp [hlen]
        have hcount' : (result ++ [node]).length < count := by
          simp only [List.length_append, List.length_singleton]
          omega
        have hn' : count - (result ++ [node]).length = n := by
          simp only [List.length_append, List.length_singleton]
          omega
        rw [ih (id :: seen) (result ++ [node]) hrest hnodup' hseen' hlen' hcount', hn']
        simp

/-- **The preference list**: the first of the distinct owners. -/
theorem getNodes_eq (h : r.Owned hash) (key : List UInt8) (count : ℕ) :
    r.getNodes hash key count =
      ((r.owners hash key).eraseDups.take count).filterMap r.nodes.lookup := by
  unfold getNodes
  split_ifs with hstop
  · rcases hstop with hempty | rfl
    · simp [owners, SortedMap.walk, SortedMap.startingAt, SortedMap.below, hempty]
    · simp
  · obtain ⟨-, hcount⟩ := not_or.mp hstop
    have hwalk : ∀ x ∈ r.ring.walk (hash key), r.contains x.2 = true := fun x hx =>
      (h x.1 x.2 (SortedMap.mem_walk.mp hx)).1
    rw [← SortedMap.walk, collect_eq _ [] [] hwalk List.nodup_nil (fun id hid => by cases hid) rfl
      (Nat.pos_of_ne_zero hcount)]
    simp [owners]

/-- The owner of a key is the first on the walk. -/
theorem getNode_eq (r : HashRing) (key : List UInt8) :
    r.getNode hash key = (r.owners hash key).head?.bind r.nodes.lookup := by
  unfold getNode owners
  rw [List.head?_map, SortedMap.head?_walk]
  split_ifs with hempty
  · simp [SortedMap.startingAt, hempty]
  · cases (r.ring.startingAt (hash key)).head?.or r.ring.entries.head? <;> rfl

/-- The walk without the positions of one node. -/
theorem owners_of_entries (h : r.ring.entries.filter (·.2 ≠ id) = r'.ring.entries)
    (key : List UInt8) : (r.owners hash key).filter (· ≠ id) = r'.owners hash key := by
  have hcomm (q : U64 × String → Bool) :
      (r.ring.entries.filter q).filter (·.2 ≠ id) = r'.ring.entries.filter q := by
    rw [← h, List.filter_filter, List.filter_filter]
    exact List.filter_congr fun x _ => Bool.and_comm _ _
  have hwalk : (r.ring.walk (hash key)).filter (·.2 ≠ id) = r'.ring.walk (hash key) := by
    rw [SortedMap.walk, List.filter_append]
    exact congrArg₂ (· ++ ·) (hcomm _) (hcomm _)
  rw [owners, List.filter_map, owners, ← hwalk]
  rfl

/-! ### A join -/

/-- **A join** only adds positions to the walk. -/
theorem Placed.owners_addNode (h : r.Placed hash v S)
    (hinj : Set.InjOn hash (virtualKeys v (insert node.id S))) (hnew : r.contains node.id = false)
    (key : List UInt8) :
    ((r.addNode hash node).owners hash key).filter (· ≠ node.id) = r.owners hash key := by
  have hne {p : U64} {id : String} (hmem : (p, id) ∈ r.ring.entries) : id ≠ node.id := by
    rintro rfl
    rw [((h.exact p _).mp hmem).1] at hnew
    cases hnew
  have hentries : (r.addNode hash node).ring.entries.filter (·.2 ≠ node.id) = r.ring.entries := by
    refine SortedMap.eq_of_mem_iff ((r.addNode hash node).ring.sorted.filter _) r.ring.sorted ?_
    rintro ⟨p, id⟩
    rw [List.mem_filter, mem_ring_addNode]
    constructor
    · rintro ⟨⟨heq, -⟩ | ⟨hmem, -⟩, hid⟩
      · exact absurd heq (by simpa using hid)
      · exact hmem
    · intro hmem
      refine ⟨Or.inr ⟨hmem, fun i hi hpos => hne hmem ?_⟩, by simpa using hne hmem⟩
      obtain ⟨hcontains, j, hj, hpos'⟩ := (h.exact p id).mp hmem
      rw [h.virtualNodes] at hi hj
      exact (virtualHash_inj hinj (Set.mem_insert_of_mem _ (h.within id hcontains))
        (Set.mem_insert _ _) hj hi (hpos'.trans hpos.symm)).1
  exact owners_of_entries hentries key

/-- The registered nodes among the ids, without the new one. -/
theorem filterMap_addNode (h : r.Named) (l : List String) :
    (l.filterMap (r.addNode hash node).nodes.lookup).filter (· ≠ node) =
      (l.filter (· ≠ node.id)).filterMap r.nodes.lookup := by
  induction l with
  | nil => rfl
  | cons id l ih =>
    by_cases hid : id = node.id
    · simpa [hid] using ih
    · cases hlookup : r.nodes.lookup id with
      | none => simpa [hid, hlookup] using ih
      | some m =>
        have hm : m ≠ node := by
          rintro rfl
          exact hid (h id m hlookup).symm
        simpa [hid, hlookup, hm] using ih

/-- **Minimal remapping.** Where the hash is injective on the virtual-node keys of the ids
involved, the join of a new node inserts it into the preference list of each key and moves no
other: without it, what is returned is a beginning of what was. -/
theorem join_preference (hash : List UInt8 → U64) (v : ℕ) (ops : List RingOp) (node : RingNode)
    (hinj : Set.InjOn hash (virtualKeys v (insert node.id (idsOf ops))))
    (hrun : (new v).run hash ops = some r) (hnew : r.contains node.id = false)
    (key : List UInt8) (count : ℕ) :
    ((r.addNode hash node).getNodes hash key count).filter (· ≠ node) <+:
      r.getNodes hash key count ∧
    (node ∉ (r.addNode hash node).getNodes hash key count →
      (r.addNode hash node).getNodes hash key count = r.getNodes hash key count) ∧
    ((r.addNode hash node).getNode hash key = r.getNode hash key ∨
      (r.addNode hash node).getNode hash key = some node) := by
  have hplaced := placed_run
    (hinj.mono (virtualKeys_mono (Set.subset_insert _ _))) hrun
  have hst : r.step hash (.addNode node) = some (r.addNode hash node) := rfl
  have howned' : (r.addNode hash node).Owned hash := hplaced.exact.owned.step hst
  have howners := hplaced.owners_addNode hinj hnew key
  have hbegin : ((r.addNode hash node).getNodes hash key count).filter (· ≠ node) <+:
      r.getNodes hash key count := by
    rw [getNodes_eq howned', getNodes_eq hplaced.exact.owned,
      filterMap_addNode hplaced.named, ← howners, eraseDups_filter]
    exact (filter_take_isPrefix _ _ _).filterMap _
  refine ⟨hbegin, fun habsent => ?_, ?_⟩
  · -- the new node is not among the first owners, so these are the first of the others
    have hfirst : ∀ id ∈ ((r.addNode hash node).owners hash key).eraseDups.take count,
        decide (id ≠ node.id) = true := by
      intro id hid
      refine decide_eq_true fun heq => habsent ?_
      rw [getNodes_eq howned', List.mem_filterMap]
      exact ⟨id, hid, by rw [lookup_addNode, if_pos heq]⟩
    have htake := take_filter_of_forall hfirst
    have hself : ((r.addNode hash node).getNodes hash key count).filter (· ≠ node) =
        (r.addNode hash node).getNodes hash key count := by
      refine List.filter_eq_self.mpr fun m hm => decide_eq_true fun heq => habsent ?_
      exact heq ▸ hm
    rw [← hself, getNodes_eq howned', getNodes_eq hplaced.exact.owned,
      filterMap_addNode hplaced.named, ← howners, eraseDups_filter, htake,
      List.filter_eq_self.mpr hfirst]
  · rw [getNode_eq, getNode_eq, ← howners]
    cases hlist : (r.addNode hash node).owners hash key with
    | nil => exact Or.inl rfl
    | cons id l =>
      by_cases hid : id = node.id
      · refine Or.inr ?_
        rw [List.head?_cons, Option.bind_some, lookup_addNode, if_pos hid]
      · refine Or.inl ?_
        rw [List.filter_cons_of_pos (by simpa using hid), List.head?_cons, List.head?_cons,
          Option.bind_some, Option.bind_some, lookup_addNode, if_neg hid]

/-- Node `c` joins node `b`. -/
theorem join_preference_churn : ∃ r,
    (new 4).run (indexHash (keyList 4 ["a", "b", "c"])) churn = some r ∧
    ((r.addNode (indexHash (keyList 4 ["a", "b", "c"])) ⟨"c", "10.0.0.3", 9001⟩).getNodes
      (indexHash (keyList 4 ["a", "b", "c"])) (stringBytes "order-7") 2).filter
        (· ≠ ⟨"c", "10.0.0.3", 9001⟩) <+:
      r.getNodes (indexHash (keyList 4 ["a", "b", "c"])) (stringBytes "order-7") 2 := by
  refine ⟨_, rfl, (join_preference _ 4 churn _ ?_ rfl (by decide) _ _).1⟩
  refine injOn_indexHash (by decide) ?_
  rintro id (rfl | ⟨op, hop, rfl⟩)
  · decide
  · revert op
    decide

end HashRing

end LaneSwitchboards
