import LaneSwitchboards.Cluster.HashRing
import LaneSwitchboards.Lib.Distinct
import Mathlib.Data.Finset.Prod
import Mathlib.Data.Set.Function

/-!
# Placement on the ring

Where the hash is injective on the virtual-node keys of the ids involved, the ring is exactly the
positions of the registered nodes (`Exact`), so it does not depend on the order of joins and
leaves: `placement_run`. A join then only inserts the new node into the preference list of a key:
`join_preference`.
-/

namespace LaneSwitchboards

namespace HashRing

open Transition

variable {hash : List UInt8 → U64} {r r' : HashRing} {node : RingNode} {id id' : String}
  {key : List UInt8} {count v i j : ℕ} {p : U64} {S : Set String} {op : RingOp}
  {ops : List RingOp}

/-! ### The key format -/

/-- A number has no colon. -/
theorem colon_notMem_toString (i : ℕ) : ':' ∉ (toString i).toList := by
  intro hmem
  rw [Nat.toString_eq_ofList_toDigits, String.toList_ofList] at hmem
  exact absurd (Nat.isDigit_of_mem_toDigits (by decide) (by decide) hmem) (by decide)

theorem toString_inj (h : toString i = toString j) : i = j := by
  have hdigits : Nat.toDigits 10 i = Nat.toDigits 10 j := by
    simpa only [Nat.toString_eq_repr, Nat.toList_repr] using congrArg String.toList h
  have hvalue := congrArg (fun digits => Nat.ofDigitChars 10 digits 0) hdigits
  rwa [Nat.ofDigitChars_toDigits (by decide) (by decide),
    Nat.ofDigitChars_toDigits (by decide) (by decide)] at hvalue

/-- Lists that are split at their last separator. -/
private theorem split_last {α : Type} {x x' y y' : List α} {a : α} (hy : a ∉ y) (hy' : a ∉ y')
    (h : x ++ a :: y = x' ++ a :: y') : x = x' ∧ y = y' := by
  rcases List.append_eq_append_iff.mp h with ⟨c, rfl, hc⟩ | ⟨c, rfl, hc⟩
  · cases c with
    | nil => exact ⟨by simp, by simpa using hc⟩
    | cons b c =>
      obtain ⟨rfl, rfl⟩ := List.cons.inj hc
      exact absurd (by simp) hy
  · cases c with
    | nil => exact ⟨by simp, by simpa using hc.symm⟩
    | cons b c =>
      obtain ⟨rfl, rfl⟩ := List.cons.inj hc
      exact absurd (by simp) hy'

/-- **The key format is injective**, for arbitrary ids: the index is what follows the last
colon. -/
theorem virtualKey_inj (h : virtualKey id i = virtualKey id' j) : id = id' ∧ i = j := by
  have hlist : (id.toList ++ ":vnode".toList) ++ ':' :: (toString i).toList =
      (id'.toList ++ ":vnode".toList) ++ ':' :: (toString j).toList := by
    simpa [virtualKey] using congrArg String.toList h
  obtain ⟨hid, hindex⟩ :=
    split_last (colon_notMem_toString i) (colon_notMem_toString j) hlist
  exact ⟨String.toList_inj.mp (List.append_cancel_right hid),
    toString_inj (String.toList_inj.mp hindex)⟩

theorem stringBytes_inj {s t : String} (h : stringBytes s = stringBytes t) : s = t := by
  have hlist : s.toUTF8.data.toList = t.toUTF8.data.toList := List.append_cancel_right h
  have hbytes : s.toUTF8 = t.toUTF8 := ByteArray.ext (Array.toList_inj.mp hlist)
  exact String.toByteArray_inj.mp hbytes

/-- The virtual-node keys of the ids. -/
def virtualKeys (v : ℕ) (S : Set String) : Set (List UInt8) :=
  {bytes | ∃ id ∈ S, ∃ i < v, stringBytes (virtualKey id i) = bytes}

theorem virtualKeys_mono {S' : Set String} (h : S ⊆ S') :
    virtualKeys v S ⊆ virtualKeys v S' := by
  rintro bytes ⟨id, hid, i, hi, rfl⟩
  exact ⟨id, h hid, i, hi, rfl⟩

/-- **No two virtual nodes share a position** where the hash is injective on their keys. -/
theorem virtualHash_inj (hinj : Set.InjOn hash (virtualKeys v S)) (hid : id ∈ S)
    (hid' : id' ∈ S) (hi : i < v) (hj : j < v)
    (h : virtualHash hash id i = virtualHash hash id' j) : id = id' ∧ i = j :=
  virtualKey_inj (stringBytes_inj (hinj ⟨id, hid, i, hi, rfl⟩ ⟨id', hid', j, hj, rfl⟩ h))

/-! ### The positions after an update -/

@[simp] theorem virtualNodes_addNode : (r.addNode hash node).virtualNodes = r.virtualNodes := rfl

@[simp] theorem virtualNodes_removeNode :
    (r.removeNode hash id).2.virtualNodes = r.virtualNodes := by
  unfold removeNode
  split <;> rfl

theorem mem_ring_addNode : (p, id) ∈ (r.addNode hash node).ring.entries ↔
    id = node.id ∧ (∃ i < r.virtualNodes, virtualHash hash node.id i = p) ∨
    (p, id) ∈ r.ring.entries ∧ ∀ i < r.virtualNodes, virtualHash hash node.id i ≠ p := by
  rw [addNode, SortedMap.mem_foldl_insert]
  simp only [List.mem_range]

theorem mem_ring_removeNode : (p, id) ∈ (r.removeNode hash id').2.ring.entries ↔
    (p, id) ∈ r.ring.entries ∧
      (r.contains id' = true → ∀ i < r.virtualNodes, virtualHash hash id' i ≠ p) := by
  unfold removeNode contains
  split
  · next node hnode => simp [SortedMap.mem_foldl_erase, hnode]
  · next hnone => simp [hnone]

/-- Each position belongs to a registered node, and is one of its virtual nodes. -/
def Owned (hash : List UInt8 → U64) (r : HashRing) : Prop :=
  ∀ p id, (p, id) ∈ r.ring.entries →
    r.contains id = true ∧ ∃ i < r.virtualNodes, virtualHash hash id i = p

theorem Owned.step (h : r.Owned hash) (hst : r.step hash op = some r') : r'.Owned hash := by
  cases op with
  | addNode node =>
    obtain rfl := Option.some.inj hst
    intro p id hmem
    rcases mem_ring_addNode.mp hmem with ⟨rfl, hpos⟩ | ⟨hmem, -⟩
    · exact ⟨contains_addNode.mpr (Or.inl rfl), hpos⟩
    · exact ⟨contains_addNode.mpr (Or.inr (h p id hmem).1), (h p id hmem).2⟩
  | removeNode id' =>
    obtain rfl := Option.some.inj hst
    intro p id hmem
    obtain ⟨hmem, hkept⟩ := mem_ring_removeNode.mp hmem
    obtain ⟨hcontains, i, hi, hpos⟩ := h p id hmem
    refine ⟨contains_removeNode.mpr ⟨?_, hcontains⟩, i, by simpa using hi, hpos⟩
    rintro rfl
    exact hkept hcontains i hi hpos

/-- The ring is exactly the virtual nodes of the registered nodes. -/
def Exact (hash : List UInt8 → U64) (r : HashRing) : Prop :=
  ∀ p id, (p, id) ∈ r.ring.entries ↔
    r.contains id = true ∧ ∃ i < r.virtualNodes, virtualHash hash id i = p

theorem Exact.owned (h : r.Exact hash) : r.Owned hash := fun p id => (h p id).mp

/-- The registered ids are among the given ones. -/
def Within (S : Set String) (r : HashRing) : Prop := ∀ id, r.contains id = true → id ∈ S

theorem Within.step (h : r.Within S) (hid : ∀ node, op = .addNode node → node.id ∈ S)
    (hst : r.step hash op = some r') : r'.Within S := by
  cases op with
  | addNode node =>
    obtain rfl := Option.some.inj hst
    intro id hcontains
    rcases contains_addNode.mp hcontains with rfl | hcontains
    · exact hid node rfl
    · exact h id hcontains
  | removeNode id' =>
    obtain rfl := Option.some.inj hst
    exact fun id hcontains => h id (contains_removeNode.mp hcontains).2

/-- **Every call keeps the ring exact** while no two virtual nodes share a position. -/
theorem Exact.step (h : r.Exact hash) (hwithin : r.Within S)
    (hid : ∀ node, op = .addNode node → node.id ∈ S)
    (hinj : Set.InjOn hash (virtualKeys r.virtualNodes S)) (hst : r.step hash op = some r') :
    r'.Exact hash := by
  cases op with
  | addNode node =>
    obtain rfl := Option.some.inj hst
    intro p id
    rw [mem_ring_addNode, contains_addNode, h p id, virtualNodes_addNode]
    constructor
    · rintro (⟨rfl, hpos⟩ | ⟨⟨hcontains, hpos⟩, -⟩)
      · exact ⟨Or.inl rfl, hpos⟩
      · exact ⟨Or.inr hcontains, hpos⟩
    · rintro ⟨hcontains, i, hi, hpos⟩
      by_cases heq : id = node.id
      · subst heq
        exact Or.inl ⟨rfl, i, hi, hpos⟩
      · have hcontains := hcontains.resolve_left heq
        refine Or.inr ⟨⟨hcontains, i, hi, hpos⟩, fun j hj hpos' => heq ?_⟩
        exact (virtualHash_inj hinj (hwithin id hcontains) (hid node rfl) hi hj
          (hpos.trans hpos'.symm)).1
  | removeNode id' =>
    obtain rfl := Option.some.inj hst
    intro p id
    rw [mem_ring_removeNode, contains_removeNode, h p id, virtualNodes_removeNode]
    constructor
    · rintro ⟨⟨hcontains, i, hi, hpos⟩, hkept⟩
      refine ⟨⟨?_, hcontains⟩, i, hi, hpos⟩
      rintro rfl
      exact hkept hcontains i hi hpos
    · rintro ⟨⟨hne, hcontains⟩, i, hi, hpos⟩
      refine ⟨⟨hcontains, i, hi, hpos⟩, fun hcontains' j hj hpos' => hne ?_⟩
      exact (virtualHash_inj hinj (hwithin id hcontains) (hwithin id' hcontains') hi hj
        (hpos.trans hpos'.symm)).1

/-- The ids that a list of calls is about. -/
def idsOf (ops : List RingOp) : Set String := {id | ∃ op ∈ ops, op.id = id}

/-- What holds of a ring after the calls `ops`. -/
structure Placed (hash : List UInt8 → U64) (v : ℕ) (S : Set String) (r : HashRing) : Prop where
  virtualNodes : r.virtualNodes = v
  within : r.Within S
  named : r.Named
  exact : r.Exact hash

theorem placed_new (hash : List UInt8 → U64) (v : ℕ) (S : Set String) :
    (new v).Placed hash v S where
  virtualNodes := rfl
  within := fun _ h => by cases h
  named := named_new v
  exact := fun p id =>
    ⟨fun hmem => absurd hmem SortedMap.notMem_empty, fun h => by cases h.1⟩

theorem Placed.step (h : r.Placed hash v S) (hinj : Set.InjOn hash (virtualKeys v S))
    (hid : ∀ node, op = .addNode node → node.id ∈ S) (hst : r.step hash op = some r') :
    r'.Placed hash v S where
  virtualNodes := by
    rw [← h.virtualNodes]
    cases op <;> obtain rfl := Option.some.inj hst <;> simp
  within := h.within.step hid hst
  named := by
    cases op with
    | addNode node => exact Option.some.inj hst ▸ h.named.addNode
    | removeNode id => exact Option.some.inj hst ▸ h.named.removeNode
  exact := h.exact.step h.within hid (h.virtualNodes ▸ hinj) hst

theorem placed_run (hinj : Set.InjOn hash (virtualKeys v (idsOf ops)))
    (hrun : (new v).run hash ops = some r) : r.Placed hash v (idsOf ops) :=
  invariant_along (P := Placed hash v (idsOf ops)) (Q := fun _ op _ => op.id ∈ idsOf ops)
    (fun h hid hst => h.step hinj (fun node heq => by rw [heq] at hid; exact hid) hst)
    (placed_new hash v _) (along_of_forall fun _ op hop _ => ⟨op, hop, rfl⟩) hrun

/-- **A ring is given by its nodes.** -/
theorem Placed.eq_of_nodes {S' : Set String} (h : r.Placed hash v S)
    (h' : r'.Placed hash v S') (hnodes : ∀ id, r'.nodes.lookup id = r.nodes.lookup id) :
    r' = r := by
  have hmap : r'.nodes = r.nodes := Finmap.ext_lookup hnodes
  have hring : r'.ring = r.ring := by
    refine SortedMap.ext_mem fun ⟨p, id⟩ => ?_
    rw [h'.exact p id, h.exact p id, h'.virtualNodes, h.virtualNodes, contains, contains, hmap]
  have hv : r'.virtualNodes = r.virtualNodes := h'.virtualNodes.trans h.virtualNodes.symm
  cases r
  cases r'
  cases hmap
  cases hring
  cases hv
  rfl

/-- Each node has `v` positions. -/
theorem Placed.virtualNodeCount_eq (h : r.Placed hash v S)
    (hinj : Set.InjOn hash (virtualKeys v S)) : r.virtualNodeCount = v * r.nodeCount := by
  have himage : r.ring.entries.toFinset =
      (r.nodes.keys ×ˢ Finset.range v).image fun x => (virtualHash hash x.1 x.2, x.1) := by
    ext ⟨p, id⟩
    simp only [List.mem_toFinset, h.exact p id, h.virtualNodes, Finset.mem_image,
      Finset.mem_product, Finset.mem_range, Prod.exists, Prod.mk.injEq,
      mem_keys_iff_contains]
    constructor
    · rintro ⟨hcontains, i, hi, hpos⟩
      exact ⟨id, i, ⟨hcontains, hi⟩, hpos, rfl⟩
    · rintro ⟨id', i, ⟨hcontains, hi⟩, hpos, rfl⟩
      exact ⟨hcontains, i, hi, hpos⟩
  have hcard : ((r.nodes.keys ×ˢ Finset.range v).image fun x =>
      (virtualHash hash x.1 x.2, x.1)).card = (r.nodes.keys ×ˢ Finset.range v).card := by
    refine Finset.card_image_of_injOn ?_
    rintro ⟨id, i⟩ hx ⟨id', i'⟩ hx' heq
    simp only [Finset.coe_product, Set.mem_prod, Finset.mem_coe, Finset.mem_range,
      mem_keys_iff_contains] at hx hx'
    obtain ⟨hpos, -⟩ := Prod.mk.inj heq
    obtain ⟨rfl, rfl⟩ := virtualHash_inj hinj (h.within _ hx.1) (h.within _ hx'.1) hx.2 hx'.2 hpos
    rfl
  calc r.virtualNodeCount = r.ring.entries.toFinset.card :=
        (List.toFinset_card_of_nodup r.ring.nodup_entries).symm
    _ = (r.nodes.keys ×ˢ Finset.range v).card := by rw [himage, hcard]
    _ = r.nodes.keys.card * v := by rw [Finset.card_product, Finset.card_range]
    _ = v * r.nodeCount := Nat.mul_comm _ _

/-- A node that joins and leaves again. -/
theorem Placed.removeNode_addNode (h : r.Placed hash v S)
    (hinj : Set.InjOn hash (virtualKeys v (insert node.id S)))
    (hnew : r.contains node.id = false) :
    (r.addNode hash node).removeNode hash node.id = (some node, r) := by
  have hplaced : r.Placed hash v (insert node.id S) :=
    ⟨h.virtualNodes, fun id hid => Set.mem_insert_of_mem _ (h.within id hid), h.named, h.exact⟩
  have hadded : (r.addNode hash node).Placed hash v (insert node.id S) := by
    have hst : r.step hash (.addNode node) = some (r.addNode hash node) := rfl
    refine hplaced.step hinj (fun node' heq => ?_) hst
    cases heq
    exact Set.mem_insert _ _
  have hremoved : ((r.addNode hash node).removeNode hash node.id).2.Placed hash v
      (insert node.id S) := by
    have hst : (r.addNode hash node).step hash (.removeNode node.id) =
      some ((r.addNode hash node).removeNode hash node.id).2 := rfl
    exact hadded.step hinj (fun _ heq => by cases heq) hst
  refine Prod.ext (by simp) (h.eq_of_nodes hremoved fun id => ?_)
  rw [lookup_removeNode, lookup_addNode]
  split_ifs with heq
  · rw [heq]
    have hnone : r.nodes.lookup node.id = none := by simpa [contains] using hnew
    exact hnone.symm
  · rfl

/-- **Placement.** Where the hash is injective on the virtual-node keys of the ids involved, after
any calls the ring is exactly the virtual nodes of the registered nodes; so their number is a
multiple, a join is undone by a leave, and lookups depend on the registered nodes only. -/
theorem placement_run (hash : List UInt8 → U64) (v : ℕ) (ops : List RingOp)
    (hinj : Set.InjOn hash (virtualKeys v (idsOf ops))) (hrun : (new v).run hash ops = some r) :
    (∀ p id, (p, id) ∈ r.ring.entries ↔
      r.contains id = true ∧ ∃ i < v, virtualHash hash id i = p) ∧
    r.virtualNodeCount = v * r.nodeCount ∧
    (∀ node, r.contains node.id = false →
      Set.InjOn hash (virtualKeys v (insert node.id (idsOf ops))) →
      (r.addNode hash node).removeNode hash node.id = (some node, r)) ∧
    ∀ ops' r', Set.InjOn hash (virtualKeys v (idsOf ops')) →
      (new v).run hash ops' = some r' → (∀ id, r'.nodes.lookup id = r.nodes.lookup id) →
      ∀ key count, r'.getNode hash key = r.getNode hash key ∧
        r'.getNodes hash key count = r.getNodes hash key count := by
  have hplaced := placed_run hinj hrun
  refine ⟨hplaced.virtualNodes ▸ hplaced.exact, hplaced.virtualNodeCount_eq hinj,
    fun node hnew hinj' => hplaced.removeNode_addNode hinj' hnew, ?_⟩
  intro ops' r' hinj' hrun' hnodes key count
  obtain rfl := hplaced.eq_of_nodes (placed_run hinj' hrun') hnodes
  exact ⟨rfl, rfl⟩

/-! ### A hash without collisions -/

/-- The virtual-node keys of a list of ids. -/
def keyList (v : ℕ) (names : List String) : List (List UInt8) :=
  names.flatMap fun id => (List.range v).map fun i => stringBytes (virtualKey id i)

/-- The position of a key in a list of keys. -/
def indexHash (keys : List (List UInt8)) (bytes : List UInt8) : U64 :=
  Fin.ofNat (2 ^ 64) (keys.idxOf bytes)

/-- A short list of keys is hashed without collisions. -/
theorem injOn_indexHash {names : List String} (hlen : (keyList v names).length < 2 ^ 64)
    (hS : ∀ id ∈ S, id ∈ names) : Set.InjOn (indexHash (keyList v names)) (virtualKeys v S) := by
  have hmem {bytes : List UInt8} (h : bytes ∈ virtualKeys v S) : bytes ∈ keyList v names := by
    obtain ⟨id, hid, i, hi, rfl⟩ := h
    exact List.mem_flatMap.mpr ⟨id, hS id hid, List.mem_map.mpr ⟨i, List.mem_range.mpr hi, rfl⟩⟩
  intro bytes h bytes' h' heq
  have hlt := List.idxOf_lt_length_iff.mpr (hmem h)
  have hlt' := List.idxOf_lt_length_iff.mpr (hmem h')
  have hidx := congrArg Fin.val heq
  simp only [indexHash, Fin.val_ofNat, Nat.mod_eq_of_lt (hlt.trans hlen),
    Nat.mod_eq_of_lt (hlt'.trans hlen)] at hidx
  exact (List.idxOf_inj (hmem h)).mp hidx

/-- Two nodes join; one leaves, and the other joins again under another port. -/
def churn : List RingOp :=
  [.addNode ⟨"a", "10.0.0.1", 9001⟩, .addNode ⟨"b", "10.0.0.2", 9001⟩, .removeNode "a",
    .addNode ⟨"b", "10.0.0.2", 9002⟩]

/-- The result for these calls. -/
theorem placement_churn : ∃ r, (new 4).run (indexHash (keyList 4 ["a", "b"])) churn = some r ∧
    r.virtualNodeCount = 4 * r.nodeCount := by
  refine ⟨_, rfl, (placement_run (indexHash (keyList 4 ["a", "b"])) 4 churn ?_ rfl).2.1⟩
  refine injOn_indexHash (by decide) ?_
  rintro id ⟨op, hop, rfl⟩
  revert op
  decide

end HashRing

end LaneSwitchboards
