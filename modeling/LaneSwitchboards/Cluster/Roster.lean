import LaneSwitchboards.Cluster.HashRing
import LaneSwitchboards.Lib.Indexed
import LaneSwitchboards.Lib.Outcome
import LaneSwitchboards.Lib.Transition

/-!
# The roster of a cluster

`Cluster` with its four parallel structures: the members, their references, the positions by
name and the ring. A reference is known by its address and target and by the write loop it
feeds; a send operation is described by the positions of the references it sends through
(`targets`). `join` does not look whether the name is taken.

`Sound` is what holds of every cluster, also of one with repeated names: members and references
are in step, and every entry of `refs_by_id` is right. So no call goes out of bounds
(`Sound.leave_returns`, `Sound.targets_lt`), in any history: `inBounds_run`.
-/

namespace LaneSwitchboards

open Function

/-- The write loop of a reference. -/
abbrev WriterId := ℕ

/-- Reference to an actor on a remote node. -/
structure RemoteActorRef where
  nodeAddr : String
  target : String
  writer : WriterId
deriving DecidableEq

/-- A node in a cluster roster. -/
structure ClusterMember where
  name : String
  nodeAddr : String
  target : String
deriving DecidableEq

/-- Where a reference leads. -/
def RemoteActorRef.endpoint (r : RemoteActorRef) : String × String := (r.nodeAddr, r.target)

namespace ClusterMember

/-- Where a member is reached. -/
def endpoint (m : ClusterMember) : String × String := (m.nodeAddr, m.target)

/-- `remote_ref_with`: a reference with a write loop of its own. -/
def remoteRefWith (m : ClusterMember) (writer : WriterId) : RemoteActorRef :=
  ⟨m.nodeAddr, m.target, writer⟩

/-- `ring_node`, which panics on an address that does not parse. -/
def ringNode (m : ClusterMember) : Option RingNode := RingNode.fromSocketAddr m.name m.nodeAddr

end ClusterMember

/-- Roster of remote actors. -/
structure Cluster where
  members : List ClusterMember
  refs : List RemoteActorRef
  refsById : HashMap String ℕ
  ring : HashRing
  /-- The round-robin counter. -/
  next : U64

/-- The send operations. -/
inductive SendOp
  | sendAll
  /-- `next`, and `send_round_robin`. -/
  | next
  | sendTo (names : List String)
  | sendReplicas (key : List UInt8) (count : ℕ)
  | sendByKey (key : List UInt8)

/-- A call that changes the roster or the counter. -/
inductive ClusterOp
  | join (member : ClusterMember) (writer : WriterId)
  | leave (id : String)
  | next

namespace Cluster

/-- `Cluster::with_virtual_nodes`. -/
def withVirtualNodes (virtualNodes : ℕ) : Cluster := ⟨[], [], ∅, .new virtualNodes, 0⟩

/-- `Cluster::new`. -/
def new : Cluster := withVirtualNodes 150

/-- The number of references. -/
def len (c : Cluster) : ℕ := c.refs.length

/-- The names of the members. -/
def names (c : Cluster) : List String := c.members.map ClusterMember.name

variable (hash : List UInt8 → U64)

/-- Add a remote node to the roster and hash ring. -/
def join (c : Cluster) (member : ClusterMember) (writer : WriterId) : Outcome Cluster Unit :=
  match member.ringNode with
  | none => .panicked c
  | some node => .ok ()
    { c with
      ring := c.ring.addNode hash node
      refsById := c.refsById.insert member.name c.refs.length
      refs := c.refs ++ [member.remoteRefWith writer]
      members := c.members ++ [member] }

/-- Remove a node from the roster and hash ring. -/
def leave (c : Cluster) (id : String) : Outcome Cluster (Option ClusterMember) :=
  match c.ring.removeNode hash id with
  | (none, _) => .ok none c
  | (some _, ring) =>
    let c := { c with ring }
    match c.refsById.lookup id with
    | none => .ok none c
    | some idx =>
      let c := { c with refsById := c.refsById.erase id }
      match swapRemove c.refs idx with
      | none => .panicked c
      | some (_, refs) =>
        let c := { c with refs }
        match swapRemove c.members idx with
        | none => .panicked c
        | some (member, members) =>
          let c := { c with members }
          .ok (some member) (match members[idx]? with
            | some moved => { c with refsById := c.refsById.insert moved.name idx }
            | none => c)

/-- Lookup cluster member for a key via the hash ring. -/
def memberForKey (c : Cluster) (key : List UInt8) : Option ClusterMember :=
  (c.ring.getNode hash key).bind fun node => c.members.find? (·.name = node.id)

/-- The position of the reference for a key. -/
def idxForKey (c : Cluster) (key : List UInt8) : Option ℕ :=
  (c.ring.getNode hash key).bind fun node => c.refsById.lookup node.id

/-- Lookup remote ref for a key via the hash ring. The position is never out of bounds, where
the code panics (`Sound.targets_lt`). -/
def refForKey (c : Cluster) (key : List UInt8) : Option RemoteActorRef :=
  (c.idxForKey hash key).bind (c.refs[·]?)

/-- The positions of the references that an operation sends through, in this order. -/
def targets (c : Cluster) : SendOp → List ℕ
  | .sendAll => List.range (min c.members.length c.refs.length)
  | .next => if c.refs = [] then [] else [c.next % c.refs.length]
  | .sendTo names => names.filterMap c.refsById.lookup
  | .sendReplicas key count =>
    (c.ring.getNodes hash key count).filterMap fun node => c.refsById.lookup node.id
  | .sendByKey key => (c.idxForKey hash key).toList

/-- The operation sends to a member of this name. -/
def Reaches (c : Cluster) (op : SendOp) (name : String) : Prop :=
  ∃ i ∈ c.targets hash op, c.names[i]? = some name

/-- What a call leaves behind. -/
def step (c : Cluster) : ClusterOp → Option Cluster
  | .join member writer => some (c.join hash member writer).state
  | .leave id => some (c.leave hash id).state
  | .next => some (if c.refs = [] then c else { c with next := c.next + 1 })

/-- The call returns. -/
def Returns (c : Cluster) : ClusterOp → Prop
  | .join member writer => (c.join hash member writer).returns = true
  | .leave id => (c.leave hash id).returns = true
  | .next => True

/-- Execute a list of calls. -/
abbrev run : Cluster → List ClusterOp → Option Cluster := Transition.run (step hash)

/-! ### What holds of every cluster -/

/-- The invariant of all clusters, with repeated names or not. -/
structure Sound (c : Cluster) : Prop where
  endpoints : c.refs.map RemoteActorRef.endpoint = c.members.map ClusterMember.endpoint
  locates : Locates (fun n => c.refsById.lookup n) c.names
  registered : ∀ n, c.ring.contains n = true → (c.refsById.lookup n).isSome = true
  named : c.ring.Named

variable {hash} {c c' : Cluster} {op : ClusterOp} {ops : List ClusterOp} {id : String}
  {member : ClusterMember} {writer : WriterId}

theorem sound_withVirtualNodes (virtualNodes : ℕ) : (withVirtualNodes virtualNodes).Sound where
  endpoints := rfl
  locates := fun _ _ h => by cases h
  registered := fun _ h => by cases h
  named := HashRing.named_new virtualNodes

theorem Sound.length_refs (h : c.Sound) : c.refs.length = c.names.length := by
  simpa [names] using congrArg List.length h.endpoints

/-- A join that returns. -/
theorem join_eq {node : RingNode} (h : member.ringNode = some node) :
    c.join hash member writer = .ok ()
      { c with
        ring := c.ring.addNode hash node
        refsById := c.refsById.insert member.name c.refs.length
        refs := c.refs ++ [member.remoteRefWith writer]
        members := c.members ++ [member] } := by
  simp only [join, h]

theorem ringNode_isSome : member.ringNode.isSome = true ↔ Parses member.nodeAddr :=
  RingNode.fromSocketAddr_isSome

/-- A join that unwinds changes nothing. -/
theorem join_panicked (h : ¬ Parses member.nodeAddr) :
    c.join hash member writer = .panicked c := by
  have hnone : member.ringNode = none := by
    rwa [← ringNode_isSome, Option.not_isSome_iff_eq_none] at h
  simp only [join, hnone]

theorem join_returns : (c.join hash member writer).returns = true ↔ Parses member.nodeAddr := by
  by_cases h : Parses member.nodeAddr
  · obtain ⟨node, hnode⟩ := Option.isSome_iff_exists.mp (ringNode_isSome.mpr h)
    simp [join_eq hnode, h, Outcome.returns]
  · simp [join_panicked h, h, Outcome.returns]

/-- The positions by name after a join. -/
theorem lookup_join (h : c.Sound) :
    (fun n => (c.refsById.insert member.name c.refs.length).lookup n) =
      update (fun n => c.refsById.lookup n) member.name (some c.names.length) := by
  rw [lookup_insert_eq_update, h.length_refs]

theorem Sound.join (hash : List UInt8 → U64) (h : c.Sound) (member : ClusterMember)
    (writer : WriterId) : (c.join hash member writer).state.Sound := by
  by_cases haddr : Parses member.nodeAddr
  · obtain ⟨node, hnode⟩ := Option.isSome_iff_exists.mp (ringNode_isSome.mpr haddr)
    have hid : node.id = member.name := RingNode.id_of_fromSocketAddr hnode
    rw [join_eq hnode, Outcome.state_ok]
    refine ⟨?_, ?_, fun n hn => ?_, h.named.addNode⟩
    · simpa using ⟨h.endpoints, rfl⟩
    · have hconcat := h.locates.concat (k := member.name)
      rw [← lookup_join h] at hconcat
      simpa [names] using hconcat
    · rw [congrFun (lookup_join h) n, update_apply]
      split_ifs with heq
      · rfl
      · rcases HashRing.contains_addNode.mp hn with heq' | hn
        · exact absurd (heq'.trans hid) heq
        · exact h.registered n hn
  · rwa [join_panicked haddr]

/-- **What `leave` does.** Either the name is not registered and nothing changes, or the member
at its position is removed from all four structures. -/
theorem Sound.leave_spec (hash : List UInt8 → U64) (h : c.Sound) (id : String) :
    (c.ring.contains id = false ∧ c.leave hash id = .ok none c) ∨
    ∃ i m r c', c.leave hash id = .ok (some m) c' ∧ m.name = id ∧
      c.ring.contains id = true ∧ c.refsById.lookup id = some i ∧
      swapRemove c.members i = some (m, c'.members) ∧
      swapRemove c.refs i = some (r, c'.refs) ∧
      (fun n => c'.refsById.lookup n) = patch (fun n => c.refsById.lookup n) c'.names i id ∧
      c'.ring = (c.ring.removeNode hash id).2 ∧ c'.next = c.next := by
  cases hnode : c.ring.nodes.lookup id with
  | none =>
    refine Or.inl ⟨by simp [HashRing.contains, hnode], ?_⟩
    simp only [Cluster.leave, HashRing.removeNode, hnode]
  | some node =>
    have hcontains : c.ring.contains id = true := by simp [HashRing.contains, hnode]
    obtain ⟨i, hi⟩ := Option.isSome_iff_exists.mp (h.registered id hcontains)
    have hname : c.names[i]? = some id := h.locates id i hi
    obtain ⟨m, hm, hid⟩ : ∃ m, c.members[i]? = some m ∧ m.name = id := by
      simpa [names] using hname
    have hlt : i < c.refs.length := by
      rw [h.length_refs]
      exact (List.getElem?_eq_some_iff.mp hname).1
    obtain ⟨⟨m', members⟩, hmembers⟩ : ∃ p, swapRemove c.members i = some p := by
      simp [swapRemove, hm]
    obtain ⟨⟨r, refs⟩, hrefs⟩ : ∃ p, swapRemove c.refs i = some p := by
      simp [swapRemove, hlt]
    obtain rfl : m = m' := Option.some.inj (hm.symm.trans (getElem?_of_swapRemove hmembers))
    refine Or.inr ⟨i, m, r, ⟨members, refs, match members[i]? with
      | some moved => (c.refsById.erase id).insert moved.name i
      | none => c.refsById.erase id, (c.ring.removeNode hash id).2, c.next⟩, ?_, hid, hcontains,
      hi, hmembers, hrefs, ?_, rfl, rfl⟩
    · simp only [Cluster.leave, HashRing.removeNode, hnode, hi, hrefs, hmembers]
      cases members[i]? <;> rfl
    · funext n
      simp only [patch, names, List.getElem?_map]
      cases members[i]? with
      | none => exact (congrFun (lookup_erase_eq_update _ _) n).trans (by simp [update_apply])
      | some moved =>
        refine (congrFun (lookup_insert_eq_update _ _ _) n).trans ?_
        rw [lookup_erase_eq_update]
        simp [update_apply, eq_comm]

/-- The names after a `leave` that finds the member. -/
theorem swapRemove_names {i : ℕ} {m : ClusterMember}
    (h : swapRemove c.members i = some (m, c'.members)) :
    swapRemove c.names i = some (m.name, c'.names) := by
  rw [names, map_swapRemove, h]
  rfl

/-- A `leave` never goes out of bounds. -/
theorem Sound.leave_returns (hash : List UInt8 → U64) (h : c.Sound) (id : String) :
    (c.leave hash id).returns = true := by
  rcases h.leave_spec hash id with ⟨-, hleave⟩ | ⟨i, m, r, c', hleave, -⟩ <;>
    simp [hleave, Outcome.returns]

theorem Sound.leave (hash : List UInt8 → U64) (h : c.Sound) (id : String) :
    (c.leave hash id).state.Sound := by
  rcases h.leave_spec hash id with ⟨-, hleave⟩ |
    ⟨i, m, r, c', hleave, rfl, -, hi, hmembers, hrefs, hlookup, hring, -⟩
  · rwa [hleave]
  · rw [hleave, Outcome.state_ok]
    have hnames := swapRemove_names hmembers
    refine ⟨?_, ?_, fun n hn => ?_, ?_⟩
    · have hmap := congrArg (fun l => swapRemove l i) h.endpoints
      simp only [map_swapRemove, hmembers, hrefs] at hmap
      exact congrArg Prod.snd (Option.some.inj hmap)
    · rw [hlookup]
      exact h.locates.swap hi hnames
    · rw [hring] at hn
      obtain ⟨hne, hn⟩ := HashRing.contains_removeNode.mp hn
      rw [congrFun hlookup n, patch, if_neg hne]
      split_ifs
      · rfl
      · exact h.registered n hn
    · rw [hring]
      exact h.named.removeNode

/-- **Every call leaves a sound cluster behind.** -/
theorem Sound.step (h : c.Sound) (hst : c.step hash op = some c') : c'.Sound := by
  cases op with
  | join member writer => exact Option.some.inj hst ▸ h.join hash member writer
  | leave id => exact Option.some.inj hst ▸ h.leave hash id
  | next =>
    obtain rfl := Option.some.inj hst
    split_ifs
    · exact h
    · exact ⟨h.endpoints, h.locates, h.registered, h.named⟩

theorem Sound.run (h : c.Sound) (hrun : c.run hash ops = some c') : c'.Sound :=
  Transition.invariant_run (P := Sound) (fun hc hst => hc.step hst) h hrun

/-- A call unwinds only on an address that does not parse. -/
theorem Sound.returns (h : c.Sound) (haddr : ∀ m w, op = .join m w → Parses m.nodeAddr) :
    c.Returns hash op := by
  cases op with
  | join m w => exact join_returns.mpr (haddr m w rfl)
  | leave id => exact h.leave_returns hash id
  | next => trivial

/-- **A send operation never goes out of bounds.** -/
theorem Sound.targets_lt (h : c.Sound) {sop : SendOp} {i : ℕ} (hi : i ∈ c.targets hash sop) :
    i < c.refs.length := by
  have hlookup {n : String} (hn : c.refsById.lookup n = some i) : i < c.refs.length := by
    rw [h.length_refs]
    exact (List.getElem?_eq_some_iff.mp (h.locates n i hn)).1
  cases sop with
  | sendAll => exact (List.mem_range.mp hi).trans_le (min_le_right _ _)
  | next =>
    rw [targets] at hi
    split_ifs at hi with hnil
    · cases hi
    · rw [List.mem_singleton.mp hi]
      exact Nat.mod_lt _ (List.length_pos_iff.mpr hnil)
  | sendTo names =>
    obtain ⟨n, -, hn⟩ := List.mem_filterMap.mp hi
    exact hlookup hn
  | sendReplicas key count =>
    obtain ⟨node, -, hn⟩ := List.mem_filterMap.mp hi
    exact hlookup hn
  | sendByKey key =>
    rw [targets, Option.mem_toList, idxForKey] at hi
    obtain ⟨node, -, hn⟩ := Option.bind_eq_some_iff.mp hi
    exact hlookup hn

/-- The positions by name are right, and no call goes out of bounds. -/
structure InBounds (hash : List UInt8 → U64) (c : Cluster) : Prop where
  length : c.members.length = c.refs.length
  entry : ∀ name i, c.refsById.lookup name = some i →
    i < c.members.length ∧ (c.members[i]?).map ClusterMember.name = some name
  registered : ∀ id, c.ring.contains id = true → (c.refsById.lookup id).isSome = true
  refByName : ∀ name i, c.refsById.lookup name = some i → i < c.refs.length
  targets : ∀ sop, ∀ i ∈ c.targets hash sop, i < c.refs.length
  leave : ∀ id, (c.leave hash id).returns = true
  /-- A `leave` that finds nobody changes nothing. -/
  leaveNone : ∀ id c', c.leave hash id = .ok none c' → c' = c

/-- A sound cluster stays in bounds. -/
theorem Sound.inBounds (h : c.Sound) (hash : List UInt8 → U64) : c.InBounds hash := by
  have hlength : c.members.length = c.refs.length := by simpa [names] using h.length_refs.symm
  have hentry : ∀ name i, c.refsById.lookup name = some i →
      i < c.members.length ∧ (c.members[i]?).map ClusterMember.name = some name := by
    intro name i hi
    have hname : c.names[i]? = some name := h.locates name i hi
    refine ⟨?_, by rw [← hname, names, List.getElem?_map]⟩
    simpa [names] using (List.getElem?_eq_some_iff.mp hname).1
  refine ⟨hlength, hentry, h.registered, fun name i hi => ?_, fun sop i hi => h.targets_lt hi,
    h.leave_returns hash, fun id c' hleave => ?_⟩
  · rw [← hlength]
    exact (hentry name i hi).1
  · rcases h.leave_spec hash id with ⟨-, hnone⟩ | ⟨i, m, r, c₁, hsome, -⟩
    · rw [hleave] at hnone
      cases hnone
      rfl
    · rw [hleave] at hsome
      cases hsome

/-- **The bounds of a roster.** In every history of a cluster, joins under a name that is in the
roster already included, the members and the references are in step, every position by name is
that of a member of the name, and every registered node has one. So no call goes out of bounds,
and a `leave` that returns nobody leaves the roster and the ring as they were. -/
theorem inBounds_run (hash : List UInt8 → U64) (virtualNodes : ℕ) (ops : List ClusterOp) :
    Transition.Always (step hash) (InBounds hash) (withVirtualNodes virtualNodes) ops := by
  refine Transition.Always.mono (P := Sound) ?_ fun h => h.inBounds hash
  exact Transition.always_of_invariant (Q := fun _ _ _ => True) (fun h _ hst => h.step hst)
    (sound_withVirtualNodes virtualNodes) (Transition.along_of_forall fun _ _ _ _ => trivial)

end Cluster

end LaneSwitchboards
