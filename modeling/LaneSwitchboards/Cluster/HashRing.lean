import LaneSwitchboards.Lib.HashMap
import LaneSwitchboards.Lib.SortedMap
import LaneSwitchboards.Lib.Transition
import Mathlib.Algebra.GroupWithZero.Nat
import Mathlib.Order.Fin.Basic

/-!
# The consistent-hash ring

`HashRing` with its virtual nodes, for an arbitrary hash function on byte strings (the code uses
a 64-bit half of MurmurHash3), and the parser of socket addresses. A key is the byte string that
it writes to the hasher.

* `lookup_addNode`, `lookup_removeNode`: the registered nodes after an update.
* `getNode_mem`: the node that owns a key is registered.
-/

namespace LaneSwitchboards

open Function

/-- Unsigned 64-bit numbers. -/
abbrev U64 := Fin (2 ^ 64)

/-- Unsigned 16-bit numbers. -/
abbrev U16 := Fin (2 ^ 16)

instance U64.neZero : NeZero (2 ^ 64 : ℕ) := ⟨by decide⟩

instance U16.neZero : NeZero (2 ^ 16 : ℕ) := ⟨by decide⟩

/-! ### Socket addresses -/

/-- Why an address does not parse. -/
inductive AddrError
  /-- "missing port in address: {addr:?}" -/
  | missingPort (addr : String)
  /-- "invalid port {port_str:?} in address: {addr:?}" -/
  | invalidPort (portStr addr : String)
deriving DecidableEq

/-- `rsplit_once(':')`: what is before and after the last colon. -/
def rsplitOnceColon (s : List Char) : Option (List Char × List Char) :=
  match s.reverse.span (· ≠ ':') with
  | (_, []) => none
  | (after, _ :: before) => some (before.reverse, after.reverse)

/-- `parse::<u16>()`: an optional plus sign, then at least one digit. -/
def parseU16 (s : List Char) : Option U16 :=
  let digits := match s with
    | '+' :: rest => rest
    | s => s
  if digits ≠ [] ∧ digits.all Char.isDigit then
    let n := digits.foldl (fun n c => 10 * n + (c.toNat - '0'.toNat)) 0
    if h : n < 2 ^ 16 then some ⟨n, h⟩ else none
  else none

/-- `parse_host_port`. -/
def parseHostPort (addr : String) : Except AddrError (String × U16) :=
  match rsplitOnceColon addr.toList with
  | none => .error (.missingPort addr)
  | some (host, portStr) =>
    match parseU16 portStr with
    | none => .error (.invalidPort (String.ofList portStr) addr)
    | some port => .ok (String.ofList host, port)

/-- The address is of the form `host:port`. -/
def Parses (addr : String) : Prop := (parseHostPort addr).isOk = true

instance (addr : String) : Decidable (Parses addr) := inferInstanceAs (Decidable (_ = _))

/-- Physical cluster node (id + host + port). -/
structure RingNode where
  id : String
  host : String
  port : U16
deriving DecidableEq

namespace RingNode

/-- Parse `"host:port"`. -/
def tryFromSocketAddr (id addr : String) : Except AddrError RingNode :=
  (parseHostPort addr).map fun (host, port) => ⟨id, host, port⟩

/-- Parse `"host:port"`; `none` where the code panics, on a malformed address. -/
def fromSocketAddr (id addr : String) : Option RingNode := (tryFromSocketAddr id addr).toOption

theorem fromSocketAddr_isSome {id addr : String} :
    (fromSocketAddr id addr).isSome = true ↔ Parses addr := by
  unfold fromSocketAddr tryFromSocketAddr Parses
  cases parseHostPort addr <;> simp [Except.map, Except.toOption, Except.isOk, Except.toBool]

theorem id_of_fromSocketAddr {id addr : String} {node : RingNode}
    (h : fromSocketAddr id addr = some node) : node.id = id := by
  unfold fromSocketAddr tryFromSocketAddr at h
  cases hp : parseHostPort addr with
  | error e => simp [hp, Except.map, Except.toOption] at h
  | ok hostPort =>
    rw [hp] at h
    cases h
    rfl

end RingNode

/-! ### The ring -/

/-- Consistent-hash ring with virtual nodes. -/
structure HashRing where
  nodes : HashMap String RingNode
  ring : SortedMap U64 String
  virtualNodes : ℕ

/-- A call that changes a ring. -/
inductive RingOp
  | addNode (node : RingNode)
  | removeNode (id : String)
deriving DecidableEq

/-- The id of the node that a call is about. -/
def RingOp.id : RingOp → String
  | addNode node => node.id
  | removeNode id => id

namespace HashRing

/-- `HashRing::new`. -/
def new (virtualNodes : ℕ) : HashRing := ⟨∅, .empty, virtualNodes⟩

/-- What a string writes to the hasher. -/
def stringBytes (s : String) : List UInt8 := s.toUTF8.data.toList ++ [0xff]

/-- The virtual-node keys of a node. -/
def virtualKey (id : String) (i : ℕ) : String := id ++ ":vnode:" ++ toString i

variable (hash : List UInt8 → U64)

/-- The positions of a node's virtual nodes. -/
def virtualHash (id : String) (i : ℕ) : U64 := hash (stringBytes (virtualKey id i))

/-- Register a node. A position that is taken already changes its owner. -/
def addNode (r : HashRing) (node : RingNode) : HashRing :=
  { r with
    ring := (List.range r.virtualNodes).foldl
      (fun ring i => ring.insert (virtualHash hash node.id i) node.id) r.ring
    nodes := r.nodes.insert node.id node }

/-- Remove a node and all positions of its virtual nodes. -/
def removeNode (r : HashRing) (id : String) : Option RingNode × HashRing :=
  match r.nodes.lookup id with
  | some node =>
    (some node,
      { r with
        nodes := r.nodes.erase id
        ring := (List.range r.virtualNodes).foldl
          (fun ring i => ring.erase (virtualHash hash id i)) r.ring })
  | none => (none, r)

/-- The node that owns a key: the owner of the first position from the key's hash on, or of the
first position of all. -/
def getNode (r : HashRing) (key : List UInt8) : Option RingNode :=
  if r.ring.entries = [] then none else
  ((r.ring.startingAt (hash key)).head?.or r.ring.entries.head?).bind fun (_, id) =>
    r.nodes.lookup id

/-- The loop of `get_nodes` over the positions that are left, with the owners seen so far and
the result so far. -/
def collect (r : HashRing) (count : ℕ) : List (U64 × String) → List String → List RingNode →
    List RingNode
  | [], _, result => result
  | (_, id) :: rest, seen, result =>
    if id ∈ seen then r.collect count rest seen result
    else
      match r.nodes.lookup id with
      | some node =>
        if count ≤ result.length + 1 ∨ r.nodes.keys.card ≤ seen.length + 1 then result ++ [node]
        else r.collect count rest (id :: seen) (result ++ [node])
      | none =>
        if r.nodes.keys.card ≤ seen.length + 1 then result
        else r.collect count rest (id :: seen) result

/-- The first `count` distinct owners, walking the ring from the key's hash. -/
def getNodes (r : HashRing) (key : List UInt8) (count : ℕ) : List RingNode :=
  if r.ring.entries = [] ∨ count = 0 then [] else
  r.collect count (r.ring.startingAt (hash key) ++ r.ring.below (hash key)) [] []

/-- A node is registered. -/
def contains (r : HashRing) (id : String) : Bool := (r.nodes.lookup id).isSome

/-- The number of registered nodes. -/
def nodeCount (r : HashRing) : ℕ := r.nodes.keys.card

/-- The number of positions. -/
def virtualNodeCount (r : HashRing) : ℕ := r.ring.entries.length

/-- What a call leaves behind. -/
def step (r : HashRing) : RingOp → Option HashRing
  | .addNode node => some (r.addNode hash node)
  | .removeNode id => some (r.removeNode hash id).2

/-- Execute a list of calls. -/
abbrev run : HashRing → List RingOp → Option HashRing := Transition.run (step hash)

/-- Each registered node stands under its own id. -/
def Named (r : HashRing) : Prop := ∀ id node, r.nodes.lookup id = some node → node.id = id

variable {hash} {r : HashRing} {node : RingNode} {id id' : String} {key : List UInt8} {count : ℕ}

theorem named_new (virtualNodes : ℕ) : (new virtualNodes).Named := fun _ _ h => by cases h

@[simp] theorem lookup_addNode : (r.addNode hash node).nodes.lookup id =
    if id = node.id then some node else r.nodes.lookup id :=
  lookup_insert_eq_ite r.nodes node.id id node

theorem mem_keys_iff_contains : id ∈ r.nodes.keys ↔ r.contains id = true := by
  rw [Finmap.mem_keys, ← Finmap.lookup_isSome, contains]

theorem contains_addNode :
    (r.addNode hash node).contains id = true ↔ id = node.id ∨ r.contains id = true := by
  unfold contains
  rw [lookup_addNode]
  split_ifs with h <;> simp [h]

theorem Named.addNode (h : r.Named) : (r.addNode hash node).Named := by
  intro id node' hnode
  rw [lookup_addNode] at hnode
  split_ifs at hnode with hid
  · rw [hid, ← Option.some.inj hnode]
  · exact h id node' hnode

@[simp] theorem removeNode_fst : (r.removeNode hash id).1 = r.nodes.lookup id := by
  unfold removeNode
  split <;> simp [*]

@[simp] theorem lookup_removeNode : (r.removeNode hash id).2.nodes.lookup id' =
    if id' = id then none else r.nodes.lookup id' := by
  unfold removeNode
  split
  · next node hnode =>
    have := congrFun (lookup_erase_eq_update r.nodes id) id'
    simpa [update_apply] using this
  · next hnone =>
    split_ifs with h
    · rw [h, hnone]
    · rfl

theorem contains_removeNode : (r.removeNode hash id).2.contains id' = true ↔
    id' ≠ id ∧ r.contains id' = true := by
  unfold contains
  rw [lookup_removeNode]
  split_ifs with h <;> simp [h]

theorem Named.removeNode (h : r.Named) : (r.removeNode hash id).2.Named := by
  intro id' node hnode
  rw [lookup_removeNode] at hnode
  split_ifs at hnode
  exact h id' node hnode

/-- **A lookup answers with a registered node.** -/
theorem getNode_mem (h : r.Named) (hnode : r.getNode hash key = some node) :
    r.nodes.lookup node.id = some node := by
  unfold getNode at hnode
  split_ifs at hnode
  obtain ⟨⟨_, id⟩, -, hid⟩ := Option.bind_eq_some_iff.mp hnode
  rwa [h id node hid]

end HashRing

end LaneSwitchboards
