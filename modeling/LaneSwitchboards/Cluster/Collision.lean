import LaneSwitchboards.Cluster.Preference

/-!
# Collisions on the ring

With an arbitrary hash two virtual nodes may share a position. It is held by the node that was
added last, and `removeNode` vacates every position of its node, whoever holds it. So a removal
leaves the other nodes their positions exactly when, of the calls that touched a position of the
node, the last one is never the join of another node: `removal_iff`.

What is hashed is never the same for two virtual nodes, whatever their ids: only the hash itself
makes them collide (`virtualNode_collision`).
-/

namespace LaneSwitchboards

/-- Buffers what is written to it. -/
structure Murmur3Hasher where
  buf : List UInt8

namespace Murmur3Hasher

def new : Murmur3Hasher := ⟨[]⟩

def write (h : Murmur3Hasher) (bytes : List UInt8) : Murmur3Hasher := ⟨h.buf ++ bytes⟩

/-- `Hash` of a string: its bytes, and one that no string has. -/
def writeStr (h : Murmur3Hasher) (s : String) : Murmur3Hasher :=
  (h.write s.toUTF8.data.toList).write [0xff]

/-- The hash of the buffer. -/
def finish (hash : List UInt8 → U64) (h : Murmur3Hasher) : U64 := hash h.buf

end Murmur3Hasher

namespace HashRing

open Transition

variable {hash : List UInt8 → U64} {r r' : HashRing} {id : String} {v : ℕ} {p : U64}
  {op : RingOp} {past ops : List RingOp}

/-! ### What is hashed -/

/-- `hash_key` of a string. -/
def hashKey (hash : List UInt8 → U64) (key : String) : U64 :=
  (Murmur3Hasher.new.writeStr key).finish hash

/-- The hasher is given the bytes of the string. -/
theorem buf_writeStr (key : String) : (Murmur3Hasher.new.writeStr key).buf = stringBytes key := rfl

/-- The positions of the virtual nodes are those that `hash_key` computes. -/
theorem virtualHash_eq_hashKey (id : String) (i : ℕ) :
    virtualHash hash id i = hashKey hash (virtualKey id i) := rfl

/-- **Virtual nodes collide only through the hash.** For arbitrary ids and indices, the hasher is
given the same bytes for two virtual nodes only if these have the same id and the same index. So
the same position for two different ones is a collision of the hash, on two different inputs. -/
theorem virtualNode_collision (hash : List UInt8 → U64) (id id' : String) (i j : ℕ) :
    ((Murmur3Hasher.new.writeStr (virtualKey id i)).buf =
      (Murmur3Hasher.new.writeStr (virtualKey id' j)).buf ↔ id = id' ∧ i = j) ∧
    (virtualHash hash id i = virtualHash hash id' j → (id, i) ≠ (id', j) →
      (Murmur3Hasher.new.writeStr (virtualKey id i)).buf ≠
        (Murmur3Hasher.new.writeStr (virtualKey id' j)).buf ∧
      hash (Murmur3Hasher.new.writeStr (virtualKey id i)).buf =
        hash (Murmur3Hasher.new.writeStr (virtualKey id' j)).buf) := by
  have hbytes : stringBytes (virtualKey id i) = stringBytes (virtualKey id' j) ↔
      id = id' ∧ i = j := by
    constructor
    · exact fun h => virtualKey_inj (stringBytes_inj h)
    · rintro ⟨rfl, rfl⟩
      rfl
  refine ⟨by rw [buf_writeStr, buf_writeStr, hbytes], fun hhash hne => ?_⟩
  rw [virtualHash_eq_hashKey, virtualHash_eq_hashKey] at hhash
  refine ⟨fun h => hne ?_, hhash⟩
  rw [buf_writeStr, buf_writeStr] at h
  obtain ⟨rfl, rfl⟩ := hbytes.mp h
  rfl

/-- An id that looks like the key of another virtual node. -/
example : virtualKey "a:vnode:1" 2 = "a:vnode:1:vnode:2" ∧
    stringBytes (virtualKey "a:vnode:1" 2) ≠ stringBytes (virtualKey "a" 1) := by
  decide

/-! ### Who holds a position -/

/-- One of the virtual nodes of the id has this position. -/
def Covers (hash : List UInt8 → U64) (v : ℕ) (id : String) (p : U64) : Prop :=
  ∃ i < v, virtualHash hash id i = p

instance : Decidable (Covers hash v id p) := inferInstanceAs (Decidable (∃ i < v, _))

/-- The last call about the id was a join. The calls stand in a list from the last to the first. -/
def joined (past : List RingOp) (id : String) : Bool :=
  (past.find? (·.id = id)).any fun
    | .addNode _ => true
    | .removeNode _ => false

theorem joined_addNode {node : RingNode} :
    joined (.addNode node :: past) id = true ↔ id = node.id ∨ joined past id = true := by
  by_cases hid : node.id = id
  · simp [joined, RingOp.id, hid]
  · simp [joined, RingOp.id, hid, Ne.symm hid]

theorem joined_removeNode {id' : String} :
    joined (.removeNode id' :: past) id = true ↔ id ≠ id' ∧ joined past id = true := by
  by_cases hid : id' = id
  · simp [joined, RingOp.id, hid]
  · simp [joined, RingOp.id, hid, Ne.symm hid]

/-- After the calls `past`, the call changes who holds the position. -/
def Touches (hash : List UInt8 → U64) (v : ℕ) (past : List RingOp) (p : U64) : RingOp → Prop
  | .addNode node => Covers hash v node.id p
  | .removeNode id => joined past id = true ∧ Covers hash v id p

instance : Decidable (Touches hash v past p op) := by
  cases op <;> unfold Touches <;> infer_instance

/-- The last of the calls that touched a position. -/
def lastTouch (hash : List UInt8 → U64) (v : ℕ) : List RingOp → U64 → Option RingOp
  | [], _ => none
  | op :: past, p => if Touches hash v past p op then some op else lastTouch hash v past p

/-- What the calls `past` have made of a ring. -/
structure Made (hash : List UInt8 → U64) (v : ℕ) (past : List RingOp) (r : HashRing) : Prop where
  virtualNodes : r.virtualNodes = v
  named : r.Named
  owned : r.Owned hash
  contains : ∀ id, r.contains id = joined past id
  /-- A position is held by the node of the last call that touched it, if this was a join. -/
  holder : ∀ p id, (p, id) ∈ r.ring.entries ↔
    ∃ node, node.id = id ∧ lastTouch hash v past p = some (.addNode node)

theorem made_new (hash : List UInt8 → U64) (v : ℕ) : (new v).Made hash v [] where
  virtualNodes := rfl
  named := named_new v
  owned := fun _ _ hmem => absurd hmem SortedMap.notMem_empty
  contains := fun _ => rfl
  holder := fun _ _ =>
    ⟨fun hmem => absurd hmem SortedMap.notMem_empty, fun ⟨_, _, h⟩ => by cases h⟩

theorem Made.step (h : r.Made hash v past) (hst : r.step hash op = some r') :
    r'.Made hash v (op :: past) := by
  have howned := h.owned.step hst
  cases op with
  | addNode node =>
    obtain rfl := Option.some.inj hst
    refine ⟨h.virtualNodes, h.named.addNode, howned, fun id => ?_, fun p id => ?_⟩
    · rw [Bool.eq_iff_iff, contains_addNode, h.contains id, joined_addNode]
    · rw [mem_ring_addNode, h.holder p id, h.virtualNodes, lastTouch]
      by_cases hcovers : Covers hash v node.id p
      · have hnone : ¬ ∀ i < v, virtualHash hash node.id i ≠ p := fun hall =>
          let ⟨i, hi, hpos⟩ := hcovers
          hall i hi hpos
        have htouch : Touches hash v past p (.addNode node) := hcovers
        simp only [if_pos htouch, Option.some.injEq, RingOp.addNode.injEq, hnone, and_false,
          or_false]
        constructor
        · rintro ⟨rfl, -⟩
          exact ⟨node, rfl, rfl⟩
        · rintro ⟨_, rfl, rfl⟩
          exact ⟨rfl, hcovers⟩
      · have htouch : ¬ Touches hash v past p (.addNode node) := hcovers
        have hall : ∀ i < v, virtualHash hash node.id i ≠ p := fun i hi hpos =>
          hcovers ⟨i, hi, hpos⟩
        have hnone : ¬ ∃ i < v, virtualHash hash node.id i = p := hcovers
        simp only [if_neg htouch, hnone, and_false, false_or]
        exact and_iff_left hall
  | removeNode id' =>
    obtain rfl := Option.some.inj hst
    refine ⟨by rw [virtualNodes_removeNode, h.virtualNodes], h.named.removeNode, howned,
      fun id => ?_, fun p id => ?_⟩
    · rw [Bool.eq_iff_iff, contains_removeNode, h.contains id, joined_removeNode]
    · rw [mem_ring_removeNode, h.holder p id, h.virtualNodes, h.contains, lastTouch]
      by_cases htouch : Touches hash v past p (.removeNode id')
      · obtain ⟨hjoined, i, hi, hpos⟩ := htouch
        rw [if_pos ⟨hjoined, i, hi, hpos⟩]
        constructor
        · rintro ⟨-, hkept⟩
          exact absurd hpos (hkept hjoined i hi)
        · rintro ⟨node, -, heq⟩
          cases heq
      · rw [if_neg htouch]
        exact and_iff_left fun hjoined i hi hpos => htouch ⟨hjoined, i, hi, hpos⟩

/-- **What a history makes of a ring**, with whatever collisions. -/
theorem made_run (hrun : (new v).run hash ops = some r) : r.Made hash v ops.reverse := by
  refine run_induction (motive := fun ops r => r.Made hash v ops.reverse) (made_new hash v) ?_ hrun
  intro ops r op r' _ hmade hst
  rw [List.reverse_append]
  exact hmade.step hst

/-- Each other node keeps the keys and the positions that it has. -/
def Spares (hash : List UInt8 → U64) (r : HashRing) (id : String) : Prop :=
  (∀ key node, r.getNode hash key = some node → node.id ≠ id →
    (r.removeNode hash id).2.getNode hash key = some node) ∧
  ∀ p id', id' ≠ id → (p, id') ∈ r.ring.entries →
    (p, id') ∈ (r.removeNode hash id).2.ring.entries

/-- **The removal of a node.** For every hash and every history, the removal of a registered node
leaves the keys and positions of the other nodes alone exactly when, of the calls that touched a
position of its virtual nodes, the last one is never the join of another node. -/
theorem removal_iff (hash : List UInt8 → U64) (v : ℕ) (ops : List RingOp) (id : String)
    (hrun : (new v).run hash ops = some r) (hreg : r.contains id = true) :
    r.Spares hash id ↔ ∀ i < v, ∀ node,
      lastTouch hash v ops.reverse (virtualHash hash id i) = some (.addNode node) →
      node.id = id := by
  have hmade := made_run hrun
  constructor
  · rintro ⟨-, hpositions⟩ i hi node htouch
    by_contra hne
    have hmem := (hmade.holder _ _).mpr ⟨node, rfl, htouch⟩
    have hkept := (mem_ring_removeNode.mp (hpositions _ _ hne hmem)).2
    exact hkept hreg i (hmade.virtualNodes.symm ▸ hi) rfl
  · intro hcond
    -- the positions that are vacated are those that the node holds
    have hentries : r.ring.entries.filter (·.2 ≠ id) =
        (r.removeNode hash id).2.ring.entries := by
      refine SortedMap.eq_of_mem_iff (r.ring.sorted.filter _)
        (r.removeNode hash id).2.ring.sorted fun ⟨p, id'⟩ => ?_
      rw [List.mem_filter, mem_ring_removeNode, hmade.virtualNodes]
      refine and_congr_right fun hmem => ?_
      simp only [hreg, forall_const, decide_eq_true_eq]
      constructor
      · intro hne i hi hpos
        obtain ⟨node, rfl, htouch⟩ := (hmade.holder p id').mp hmem
        exact hne (hcond i hi node (hpos ▸ htouch))
      · rintro hall rfl
        obtain ⟨-, i, hi, hpos⟩ := hmade.owned p id' hmem
        exact hall i (hmade.virtualNodes ▸ hi) hpos
    refine ⟨fun key node hnode hne => ?_, fun p id' hne hmem => ?_⟩
    · rw [getNode_eq] at hnode ⊢
      rw [← owners_of_entries hentries]
      obtain ⟨id', hhead, hlookup⟩ := Option.bind_eq_some_iff.mp hnode
      have hid' : id' ≠ id := hmade.named id' node hlookup ▸ hne
      obtain ⟨l, hl⟩ := List.head?_eq_some_iff.mp hhead
      rw [hl, List.filter_cons_of_pos (by simpa using hid'), List.head?_cons, Option.bind_some,
        lookup_removeNode, if_neg hid', hlookup]
    · rw [← hentries]
      exact List.mem_filter.mpr ⟨hmem, by simpa using hne⟩

/-- Two nodes join, and one leaves. -/
def twoNodes : List RingOp := [.addNode ⟨"a", "10.0.0.1", 9001⟩, .addNode ⟨"b", "10.0.0.2", 9001⟩]

/-- Two virtual nodes share a position: the removal of `a` takes the only position of `b`, and the
key that `b` owned has no owner. -/
theorem collision_vacates : ∃ r, (new 1).run (fun _ => 0) twoNodes = some r ∧
    r.contains "a" = true ∧
    r.getNode (fun _ => 0) (stringBytes "k") = some ⟨"b", "10.0.0.2", 9001⟩ ∧
    (r.removeNode (fun _ => 0) "a").2.getNode (fun _ => 0) (stringBytes "k") = none ∧
    ¬ r.Spares (fun _ => 0) "a" := by
  refine ⟨_, rfl, by decide, by decide, by decide, fun h => ?_⟩
  exact absurd (h.1 (stringBytes "k") ⟨"b", "10.0.0.2", 9001⟩ (by decide) (by decide)) (by decide)

/-- The removal of `b`, which was added last. -/
theorem removal_last : ∃ r, (new 1).run (fun _ => 0) twoNodes = some r ∧
    r.Spares (fun _ => 0) "b" := by
  refine ⟨_, rfl, (removal_iff (fun _ => 0) 1 twoNodes "b" rfl (by decide)).mpr ?_⟩
  intro i _ node htouch
  cases htouch
  rfl

end HashRing

end LaneSwitchboards
