import LaneSwitchboards.Cluster.Roster

/-!
# Clusters without repeated names

The four structures of a cluster are in step (`InStep`) when its names are distinct and both the
positions by name and the ring know exactly these names. A `join` whose name is in the roster
already breaks this at once, and nothing else does: `inStep_iff`.
-/

namespace LaneSwitchboards

namespace Cluster

open Transition

variable {hash : List UInt8 → U64} {c c' : Cluster} {op : ClusterOp} {ops : List ClusterOp}
  {id : String} {m : ClusterMember}

/-- The names are distinct, and are those that the index and the ring know. -/
structure InStep (c : Cluster) : Prop where
  nodup : c.names.Nodup
  indexes : Indexes (fun n => c.refsById.lookup n) c.names
  ring : ∀ n, c.ring.contains n = true ↔ n ∈ c.names

/-- The two lookups by key denote the same endpoint. -/
def SameEndpoint (hash : List UInt8 → U64) (c : Cluster) (key : List UInt8) : Prop :=
  (c.refForKey hash key).map RemoteActorRef.endpoint =
    (c.memberForKey hash key).map ClusterMember.endpoint

/-- No send operation reaches a member of this name until the name joins again. -/
def Forgets (hash : List UInt8 → U64) (c : Cluster) (id : String) : Prop :=
  ∀ ops c', c.run hash ops = some c' → (∀ m w, .join m w ∈ ops → m.name ≠ id) →
    ∀ sop, ¬ c'.Reaches hash sop id

/-- The call joins a member under a name that is in the roster. -/
def Rejoins (c : Cluster) : ClusterOp → Prop
  | .join m _ => m.name ∈ c.names
  | _ => False

instance : Decidable (c.Rejoins op) := by
  cases op <;> unfold Rejoins <;> infer_instance

/-! ### What follows -/

/-- **The lookups agree**: the node found on the ring has one position, which is the first of its
name. -/
theorem InStep.sameEndpoint (h : c.InStep) (hs : c.Sound) (key : List UInt8) :
    c.SameEndpoint hash key := by
  unfold SameEndpoint refForKey idxForKey memberForKey
  cases hnode : c.ring.getNode hash key with
  | none => rfl
  | some node =>
    have hcontains : c.ring.contains node.id = true := by
      simp [HashRing.contains, HashRing.getNode_mem hs.named hnode]
    obtain ⟨i, hi⟩ := Option.isSome_iff_exists.mp (hs.registered _ hcontains)
    obtain ⟨m, hm, hid⟩ : ∃ m, c.members[i]? = some m ∧ m.name = node.id := by
      simpa [names] using hs.locates _ i hi
    have hfind : c.members.find? (·.name = node.id) = some m := by
      obtain ⟨m', hfind⟩ : ∃ m', c.members.find? (·.name = node.id) = some m' :=
        Option.isSome_iff_exists.mp
          (List.find?_isSome.mpr ⟨m, List.mem_of_getElem? hm, by simpa using hid⟩)
      have hid' : m'.name = node.id := by simpa using List.find?_some hfind
      rw [hfind, List.inj_on_of_nodup_map h.nodup (List.mem_of_find?_eq_some hfind)
        (List.mem_of_getElem? hm) (hid'.trans hid.symm)]
    have hendpoint := congrArg (·[i]?) hs.endpoints
    simp only [List.getElem?_map, hm] at hendpoint
    simpa [hi, hfind] using hendpoint

/-- A name that has gone does not come back but by a join. -/
theorem Sound.not_mem_names_of_step (hs : c.Sound) (hid : id ∉ c.names)
    (hop : ∀ m w, op = .join m w → m.name ≠ id) (hst : c.step hash op = some c') :
    id ∉ c'.names := by
  cases op with
  | join m w =>
    obtain rfl := Option.some.inj hst
    by_cases haddr : Parses m.nodeAddr
    · obtain ⟨node, hnode⟩ := Option.isSome_iff_exists.mp (ringNode_isSome.mpr haddr)
      rw [join_eq hnode]
      simpa [names] using ⟨by simpa [names] using hid, fun h => hop m w rfl h.symm⟩
    · rwa [join_panicked haddr]
  | leave id' =>
    obtain rfl := Option.some.inj hst
    rcases hs.leave_spec hash id' with ⟨-, hleave⟩ | ⟨i, m, r, c', hleave, -, -, -, hmembers, -⟩
    · rwa [hleave]
    · rw [hleave, Outcome.state_ok]
      have hperm := perm_swapRemove (swapRemove_names hmembers)
      exact fun hmem => hid (hperm.mem_iff.mpr (List.mem_cons_of_mem _ hmem))
  | next =>
    obtain rfl := Option.some.inj hst
    split_ifs <;> exact hid

/-- A sound cluster without a name forgets it. -/
theorem Sound.forgets (hs : c.Sound) (hid : id ∉ c.names) : c.Forgets hash id := by
  intro ops c' hrun hops sop hreaches
  obtain ⟨-, hid'⟩ : c'.Sound ∧ id ∉ c'.names := by
    refine invariant_along (P := fun c : Cluster => c.Sound ∧ id ∉ c.names)
      (fun hc hop hst => ⟨hc.1.step hst, hc.1.not_mem_names_of_step hc.2 hop hst⟩) ⟨hs, hid⟩
      (along_of_forall fun _ op hop _ => ?_) hrun
    rintro m w rfl
    exact hops m w hop
  obtain ⟨i, -, hi⟩ := hreaches
  exact hid' (List.mem_of_getElem? hi)

/-! ### What keeps the structures in step -/

theorem inStep_withVirtualNodes (virtualNodes : ℕ) : (withVirtualNodes virtualNodes).InStep where
  nodup := List.nodup_nil
  indexes := indexes_nil
  ring := fun n => by simp [withVirtualNodes, HashRing.contains, HashRing.new, names]

/-- **Every call keeps the structures in step**, but a join under a taken name. -/
theorem InStep.step (h : c.InStep) (hs : c.Sound) (hop : ¬ c.Rejoins op)
    (hst : c.step hash op = some c') : c'.InStep := by
  cases op with
  | join m w =>
    obtain rfl := Option.some.inj hst
    by_cases haddr : Parses m.nodeAddr
    · obtain ⟨node, hnode⟩ := Option.isSome_iff_exists.mp (ringNode_isSome.mpr haddr)
      have hid : node.id = m.name := RingNode.id_of_fromSocketAddr hnode
      rw [join_eq hnode, Outcome.state_ok]
      have hindexes := h.indexes.concat hop
      rw [← lookup_join hs] at hindexes
      refine ⟨?_, by simpa [names] using hindexes, fun n => ?_⟩
      · simpa [names] using hindexes.nodup
      · rw [HashRing.contains_addNode, h.ring, hid]
        simp [names, or_comm]
    · rwa [join_panicked haddr]
  | leave id =>
    obtain rfl := Option.some.inj hst
    rcases hs.leave_spec hash id with ⟨-, hleave⟩ |
      ⟨i, m, r, c', hleave, rfl, -, -, hmembers, -, hlookup, hring, -⟩
    · rwa [hleave]
    · rw [hleave, Outcome.state_ok]
      have hnames := swapRemove_names hmembers
      have hindexes := h.indexes.swap hnames
      have hperm := perm_swapRemove hnames
      refine ⟨hindexes.nodup, by rwa [hlookup], fun n => ?_⟩
      have hnotin := (List.nodup_cons.mp (hperm.nodup_iff.mp h.nodup)).1
      rw [hring, HashRing.contains_removeNode, h.ring, hperm.mem_iff, List.mem_cons]
      constructor
      · rintro ⟨hne, heq | hmem⟩
        · exact absurd heq hne
        · exact hmem
      · exact fun hmem => ⟨fun heq => hnotin (heq ▸ hmem), Or.inr hmem⟩
  | next =>
    obtain rfl := Option.some.inj hst
    split_ifs
    · exact h
    · exact ⟨h.nodup, h.indexes, h.ring⟩

/-- After a `leave` that finds the member its name is gone. -/
theorem InStep.not_mem_names_of_leave (h : c.InStep) (hs : c.Sound)
    (hleave : c.leave hash id = .ok (some m) c') : id ∉ c'.names := by
  rcases hs.leave_spec hash id with ⟨-, hnone⟩ | ⟨i, m', r, c₁, hsome, rfl, -, -, hmembers, -⟩
  · rw [hleave] at hnone
    cases hnone
  · rw [hleave] at hsome
    cases hsome
    have hperm := perm_swapRemove (swapRemove_names hmembers)
    exact (List.nodup_cons.mp (hperm.nodup_iff.mp h.nodup)).1

/-- A join under a taken name repeats it. -/
theorem not_inStep_of_rejoins (haddr : ∀ m w, op = .join m w → Parses m.nodeAddr)
    (hop : c.Rejoins op) (hst : c.step hash op = some c') : ¬ c'.InStep := by
  cases op with
  | join m w =>
    obtain rfl := Option.some.inj hst
    obtain ⟨node, hnode⟩ := Option.isSome_iff_exists.mp (ringNode_isSome.mpr (haddr m w rfl))
    rw [join_eq hnode]
    intro h
    have hnodup : (c.names ++ [m.name]).Nodup := by simpa [names] using h.nodup
    exact (List.disjoint_of_nodup_append hnodup) hop (List.mem_singleton_self _)
  | leave id | next => cases hop

/-- **The roster of a cluster.** For every sequence of calls on an empty cluster whose joins have
addresses that parse: the structures are in step and the lookups agree in every state, every
call returns, and no send operation reaches a member that has left before its name joins again,
exactly when no call joins a member under a name that is in the roster. -/
theorem inStep_iff (hash : List UInt8 → U64) (virtualNodes : ℕ) (ops : List ClusterOp)
    (haddr : ∀ m w, .join m w ∈ ops → Parses m.nodeAddr) :
    (Always (step hash) (fun c => c.InStep ∧ ∀ key, c.SameEndpoint hash key)
        (withVirtualNodes virtualNodes) ops ∧
      Along (step hash) (fun c op c' => c.Returns hash op ∧ ∀ id m, op = .leave id →
        c.leave hash id = .ok (some m) c' → c'.Forgets hash id)
        (withVirtualNodes virtualNodes) ops) ↔
    Along (step hash) (fun c op _ => ¬ c.Rejoins op) (withVirtualNodes virtualNodes) ops := by
  have hops : Along (step hash) (fun _ op _ => ∀ m w, op = .join m w → Parses m.nodeAddr)
      (withVirtualNodes virtualNodes) ops :=
    along_of_forall fun _ op hop _ m w heq => haddr m w (heq ▸ hop)
  constructor
  · rintro ⟨halways, -⟩
    refine along_of_invariant (P := fun _ => True) (fun _ hboth hst => ⟨trivial, fun hop => ?_⟩)
      trivial (halways.along.and hops)
    exact not_inStep_of_rejoins hboth.2 hop hst hboth.1.1
  · intro hnone
    have hstart : (withVirtualNodes virtualNodes).Sound ∧ (withVirtualNodes virtualNodes).InStep :=
      ⟨sound_withVirtualNodes _, inStep_withVirtualNodes _⟩
    refine ⟨(always_of_invariant (P := fun c : Cluster => c.Sound ∧ c.InStep)
      (fun hc hop hst => ⟨hc.1.step hst, hc.2.step hc.1 hop hst⟩) hstart hnone).mono
      fun hc => ⟨hc.2, hc.2.sameEndpoint hc.1⟩, ?_⟩
    refine along_of_invariant (P := fun c : Cluster => c.Sound ∧ c.InStep)
      (fun hc hboth hst => ⟨⟨hc.1.step hst, hc.2.step hc.1 hboth.1 hst⟩, hc.1.returns hboth.2,
        fun id m _ hleave => ?_⟩) hstart (hnone.and hops)
    exact (hc.1.step hst).forgets (hc.2.not_mem_names_of_leave hc.1 hleave)

/-! ### A node that comes back -/

/-- MurmurHash3 of the keys below. -/
def murmur (key : List UInt8) : U64 :=
  if key = HashRing.stringBytes "a:vnode:0" then 8806888212700080480
  else if key = HashRing.stringBytes "b:vnode:0" then 13677777274074190151
  else if key = HashRing.stringBytes "k" then 1132217744707466375
  else 0

/-- Node `a`, and node `a` again after a restart on another port. -/
def rejoining : List ClusterOp :=
  [.join ⟨"a", "127.0.0.1:9001", "t"⟩ 0, .join ⟨"a", "127.0.0.1:9002", "t"⟩ 1]

/-- The two lookups by key disagree, and after `leave("a")` has returned a member `send_all`
still reaches a member of this name. -/
theorem rejoin_out_of_step : ∃ c c' m,
    (withVirtualNodes 1).run murmur rejoining = some c ∧ ¬ c.InStep ∧
    ¬ c.SameEndpoint murmur (HashRing.stringBytes "k") ∧
    c.leave murmur "a" = .ok (some m) c' ∧ c'.Reaches murmur .sendAll "a" := by
  refine ⟨_, _, _, rfl, fun h => ?_, ?_, rfl, ⟨0, ?_, rfl⟩⟩
  · exact absurd h.nodup (by decide)
  · unfold SameEndpoint
    decide
  · decide

/-- Node `a` leaves before it joins again. -/
def leavingFirst : List ClusterOp :=
  [.join ⟨"a", "127.0.0.1:9001", "t"⟩ 0, .join ⟨"b", "127.0.0.1:9003", "t"⟩ 1, .leave "a",
    .join ⟨"a", "127.0.0.1:9002", "t"⟩ 2]

/-- The result where the node leaves first. -/
theorem inStep_leavingFirst :
    Always (step murmur) (fun c => c.InStep ∧ ∀ key, c.SameEndpoint murmur key)
      (withVirtualNodes 1) leavingFirst ∧
    Along (step murmur) (fun c op c' => c.Returns murmur op ∧ ∀ id m, op = .leave id →
      c.leave murmur id = .ok (some m) c' → c'.Forgets murmur id)
      (withVirtualNodes 1) leavingFirst := by
  refine (inStep_iff murmur 1 leavingFirst fun m w hmem => ?_).mpr (by decide)
  simp only [leavingFirst, List.mem_cons, ClusterOp.join.injEq, reduceCtorEq, List.not_mem_nil,
    or_false, false_or] at hmem
  rcases hmem with ⟨rfl, -⟩ | ⟨rfl, -⟩ | ⟨rfl, -⟩ <;> decide

end Cluster

end LaneSwitchboards
