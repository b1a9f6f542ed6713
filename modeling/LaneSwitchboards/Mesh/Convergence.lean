import LaneSwitchboards.Mesh.Directory

/-!
# Meshes that apply the same snapshot

A snapshot replaces the whole directory of a mesh, and the directory decides the choice of every
key where no two virtual nodes share a position. So two meshes that apply the same snapshot
route alike, whatever their histories and the orders of their iterations: `snapshot_converges`.
-/

namespace LaneSwitchboards

namespace ServiceMesh

open Transition

variable {hash : List UInt8 → U64} {S : Set String} {mesh mesh' : ServiceMesh} {d d' : Directory}
  {service : String}

/-- The instance that is chosen for a key, and where its reference leads. -/
def choice (hash : List UInt8 → U64) (mesh : ServiceMesh) (service : String) (key : List UInt8) :
    Option String × Option (String × String) :=
  ((mesh.routes.lookup service).bind (·.instanceForKey hash key),
    (mesh.refForKey hash service key).map RemoteActorRef.endpoint)

/-- **The directory decides the choice.** -/
theorem Represents.choice_eq (h : mesh.Represents hash S d) (h' : mesh'.Represents hash S d)
    (hinj : Set.InjOn hash (HashRing.virtualKeys 150 S)) (service : String) (key : List UInt8) :
    mesh'.choice hash service key = mesh.choice hash service key := by
  have hholds (m : ClusterMember) : mesh'.Holds service m ↔ mesh.Holds service m := by
    rw [h'.entries, h.entries]
  -- a service has a route in both or in none
  have hroute {mesh mesh' : ServiceMesh} {route : Cluster} (h : mesh.Represents hash S d)
      (h' : mesh'.Represents hash S d) (hlookup : mesh.routes.lookup service = some route) :
      ∃ route', mesh'.routes.lookup service = some route' := by
    obtain ⟨m, hm⟩ := List.exists_mem_of_ne_nil _ (h.routed.nonempty service route hlookup)
    have hentry := (h.entries service m).mp ⟨route, hlookup, hm⟩
    obtain ⟨route', hlookup', -⟩ := (h'.entries service m).mpr hentry
    exact ⟨route', hlookup'⟩
  unfold choice refForKey
  cases hlookup : mesh.routes.lookup service with
  | none =>
    cases hlookup' : mesh'.routes.lookup service with
    | none => rfl
    | some route' =>
      obtain ⟨route, hsome⟩ := hroute h' h hlookup'
      rw [hlookup] at hsome
      cases hsome
  | some route =>
    obtain ⟨route', hlookup'⟩ := hroute h h' hlookup
    have hmembers (m : ClusterMember) : m ∈ route'.members ↔ m ∈ route.members := by
      rw [← holds_of_lookup hlookup', ← holds_of_lookup hlookup, hholds]
    obtain ⟨hinstance, href⟩ := (h.routed.tidy service route hlookup).choice_eq
      (h'.routed.tidy service route' hlookup') hinj hmembers key
    simp only [hlookup', Option.bind_some, hinstance, href]

/-- The directory of a snapshot does not depend on its order. -/
theorem step_apply_perm {records records' order order' : List ServiceRecord}
    {services services' : List String} (hperm : records.Perm records')
    (hkeys : (records.map ServiceRecord.key).Nodup) :
    d.step (.apply records services order) = d'.step (.apply records' services' order') := by
  have hfind (k : String × String) : (collect ServiceRecord.key records).lookup k =
      (collect ServiceRecord.key records').lookup k := by
    have hkeys' : (records'.map ServiceRecord.key).Nodup := (hperm.map _).nodup_iff.mp hkeys
    refine Option.ext fun r => ?_
    constructor
    · intro hr
      obtain ⟨hmem, rfl⟩ := of_lookup_collect hr
      exact lookup_collect_of_nodup hkeys' (hperm.mem_iff.mp hmem)
    · intro hr
      obtain ⟨hmem, rfl⟩ := of_lookup_collect hr
      exact lookup_collect_of_nodup hkeys (hperm.mem_iff.mpr hmem)
  refine Finmap.ext_lookup fun k => ?_
  rw [Directory.step, Directory.step, lookup_foldl_insert, lookup_foldl_insert, ← lookup_collect,
    ← lookup_collect, hfind]

/-- The instance ids of two histories and a snapshot. -/
def idsInvolved (ops ops' : List MeshOp) (records : List ServiceRecord) : Set String :=
  {id | (∃ op ∈ ops ++ ops', id ∈ op.instanceIds) ∨ ∃ r ∈ records, r.instanceId = id}

/-- **Convergence.** Two meshes with any histories apply the same snapshot, in whatever order the
records are listed and the maps are iterated: both calls return, and from then on the two meshes
choose the same instance, with the same address and target, for every key of every service. -/
theorem snapshot_converges (hash : List UInt8 → U64) (ops ops' : List MeshOp)
    (records records' order order' : List ServiceRecord) (services services' : List String)
    (hinj : Set.InjOn hash (HashRing.virtualKeys 150 (idsInvolved ops ops' records)))
    (hops : ∀ op ∈ ops ++ ops', op.Addressed) (haddr : ∀ r ∈ records, Parses r.address)
    (hperm : records.Perm records') (hkeys : (records.map ServiceRecord.key).Nodup)
    (hrun : run (step hash) new ops = some mesh) (hrun' : run (step hash) new ops' = some mesh')
    (horders : mesh.Orders records services order)
    (horders' : mesh'.Orders records' services' order') :
    ∃ after after', mesh.applySnapshotDiff hash records services order = .ok () after ∧
      mesh'.applySnapshotDiff hash records' services' order' = .ok () after' ∧
      ∀ service key, after'.choice hash service key = after.choice hash service key := by
  have hrepresents := represents_run hash (idsInvolved ops ops' records) (fun op hop =>
    ⟨hops op (List.mem_append_left _ hop),
      fun _ hid => Or.inl ⟨op, List.mem_append_left _ hop, hid⟩⟩) hrun
  have hrepresents' := represents_run hash (idsInvolved ops ops' records) (fun op hop =>
    ⟨hops op (List.mem_append_right _ hop),
      fun _ hid => Or.inl ⟨op, List.mem_append_right _ hop, hid⟩⟩) hrun'
  obtain ⟨after, happly, hafter⟩ := hrepresents.applySnapshotDiff horders haddr
    fun r hr => Or.inr ⟨r, hr, rfl⟩
  obtain ⟨after', happly', hafter'⟩ := hrepresents'.applySnapshotDiff horders'
    (fun r hr => haddr r (hperm.mem_iff.mpr hr))
    fun r hr => Or.inr ⟨r, hperm.mem_iff.mpr hr, rfl⟩
  refine ⟨after, after', happly, happly', fun service key => hafter.choice_eq ?_ hinj service key⟩
  rwa [step_apply_perm hperm hkeys]

/-- Two instances of a service. -/
def orders : List ServiceRecord :=
  [⟨"orders", "orders-1", "127.0.0.1:9001", "orders-1", 0⟩,
    ⟨"orders", "orders-2", "127.0.0.1:9002", "orders-2", 0⟩]

/-- A mesh that knew an old address of the second instance, and a new mesh. -/
theorem snapshot_converges_orders : ∃ hash mesh after after',
    run (step hash) new [.register ⟨"orders", "orders-2", "127.0.0.1:9003", "orders-2", 0⟩] =
      some mesh ∧
    mesh.applySnapshotDiff hash orders ["orders"] orders = .ok () after ∧
    new.applySnapshotDiff hash orders.reverse [] orders.reverse = .ok () after' ∧
    ∀ service key, after'.choice hash service key = after.choice hash service key := by
  have hlen : (HashRing.keyList 150 ["orders-1", "orders-2"]).length < 2 ^ 64 := by
    simp [HashRing.keyList]
  have hinj := HashRing.injOn_indexHash (S := idsInvolved
    [.register ⟨"orders", "orders-2", "127.0.0.1:9003", "orders-2", 0⟩] [] orders) hlen (by
      rintro id (⟨op, hop, hid⟩ | ⟨r, hr, rfl⟩)
      · obtain rfl := List.mem_singleton.mp hop
        obtain rfl : id = "orders-2" := hid
        decide
      · revert r
        decide)
  have hops (op : MeshOp) (hop : op ∈
      [.register ⟨"orders", "orders-2", "127.0.0.1:9003", "orders-2", 0⟩] ++ ([] : List MeshOp)) :
      op.Addressed := by
    obtain rfl := List.mem_singleton.mp hop
    have hparses : Parses "127.0.0.1:9003" := by decide
    exact hparses
  obtain ⟨after, after', happly, happly', hchoice⟩ := snapshot_converges _
    [.register ⟨"orders", "orders-2", "127.0.0.1:9003", "orders-2", 0⟩] [] orders orders.reverse
    orders orders.reverse ["orders"] [] hinj hops (by decide) (List.reverse_perm orders).symm
    (by decide) rfl rfl (by decide) (by decide)
  exact ⟨_, _, after, after', rfl, happly, happly', hchoice⟩

end ServiceMesh

end LaneSwitchboards
