import LaneSwitchboards.Cluster.InStep
import LaneSwitchboards.Monitor
import Mathlib.Data.Finset.Sort
import Mathlib.Data.String.Basic

/-!
# The service mesh and its registry

`ServiceMesh` routes each service through a cluster of its own. `register` leaves before it joins,
so that no name is ever repeated; `apply_snapshot_diff` visits the services and the snapshot in
the order of two hash maps, which the model takes as arguments. `MeshRegistry` stores every record
it is sent under its service and instance, with the time of the registration.

* `Sound`: every cluster of a reachable mesh is sound.
* `register_spec`: a registration returns iff the address of the record parses, and then changes
  one member of one cluster.
-/

namespace LaneSwitchboards

open Function

/-- A running microservice instance. -/
structure ServiceRecord where
  service : String
  instanceId : String
  address : String
  target : String
  /-- Unix seconds of the last registration. -/
  registeredAt : ℕ
deriving DecidableEq

namespace ServiceRecord

/-- The key of a record in the registry and in a snapshot. -/
def key (r : ServiceRecord) : String × String := (r.service, r.instanceId)

/-- The record as a member of the cluster of its service. -/
def member (r : ServiceRecord) : ClusterMember := ⟨r.instanceId, r.address, r.target⟩

/-- The record of a member. -/
def ofMember (service : String) (m : ClusterMember) : ServiceRecord :=
  ⟨service, m.name, m.nodeAddr, m.target, 0⟩

end ServiceRecord

/-! ### The mesh -/

namespace Cluster

variable (hash : List UInt8 → U64)

/-- What a registration does to the cluster of its service: a member of the same name leaves
before the new one joins. -/
def upsert (route : Cluster) (member : ClusterMember) (writer : WriterId) :
    Outcome Cluster (Option ClusterMember) :=
  let left : Outcome Cluster (Option ClusterMember) :=
    if route.members.any (·.name = member.name) then route.leave hash member.name
    else .ok none route
  left.bind fun displaced route =>
    (route.join hash member writer).bind fun _ route => .ok displaced route

variable {hash} {route : Cluster} {member m : ClusterMember} {writer : WriterId} {id : String}

/-- A `leave` keeps the members of other names. -/
theorem Sound.mem_leave (h : route.Sound) (hm : m ∈ route.members) (hne : m.name ≠ id) :
    m ∈ (route.leave hash id).state.members := by
  rcases h.leave_spec hash id with ⟨-, hleave⟩ | ⟨i, m', r, c', hleave, hid, -, -, hmembers, -⟩
  · rwa [hleave]
  · rw [hleave]
    rcases List.mem_cons.mp ((perm_swapRemove hmembers).mem_iff.mp hm) with rfl | hm
    · exact absurd hid hne
    · exact hm

/-- **An upsert** returns iff the address parses. Then the member is in the cluster, and those of
other names stay. -/
theorem Sound.upsert_spec (hash : List UInt8 → U64) (h : route.Sound) (member : ClusterMember)
    (writer : WriterId) :
    (route.upsert hash member writer).state.Sound ∧
    ((route.upsert hash member writer).returns = true ↔ Parses member.nodeAddr) ∧
    (Parses member.nodeAddr →
      member ∈ (route.upsert hash member writer).state.members ∧
      ∀ m ∈ route.members, m.name ≠ member.name →
        m ∈ (route.upsert hash member writer).state.members) := by
  -- the cluster that the member joins
  obtain ⟨displaced, left, hleft, hsound, hkeeps⟩ : ∃ displaced left,
      (if route.members.any (·.name = member.name) then route.leave hash member.name
        else .ok none route) = .ok displaced left ∧ left.Sound ∧
      ∀ m ∈ route.members, m.name ≠ member.name → m ∈ left.members := by
    split_ifs
    · obtain ⟨displaced, left, hleave⟩ := Outcome.returns_iff.mp (h.leave_returns hash member.name)
      have hstate : (route.leave hash member.name).state = left := by rw [hleave]; rfl
      exact ⟨displaced, left, hleave, hstate ▸ h.leave hash member.name,
        fun m hm hne => hstate ▸ h.mem_leave hm hne⟩
    · exact ⟨none, route, rfl, h, fun m hm _ => hm⟩
  have heq : route.upsert hash member writer =
      (left.join hash member writer).bind fun _ route => .ok displaced route := by
    simp only [upsert, hleft, Outcome.bind_ok]
  by_cases haddr : Parses member.nodeAddr
  · obtain ⟨node, hnode⟩ := Option.isSome_iff_exists.mp (ringNode_isSome.mpr haddr)
    have hjoin := hsound.join hash member writer
    rw [join_eq hnode] at heq hjoin
    rw [heq]
    refine ⟨hjoin, ⟨fun _ => haddr, fun _ => rfl⟩, fun _ => ⟨?_, fun m hm hne => ?_⟩⟩
    · exact List.mem_append_right _ List.mem_cons_self
    · exact List.mem_append_left _ (hkeeps m hm hne)
  · rw [heq, join_panicked haddr]
    exact ⟨hsound, ⟨fun h => (by cases h), fun h => absurd h haddr⟩, fun h => absurd h haddr⟩

/-- An upsert of a member whose address does not parse unwinds. -/
theorem upsert_panicked (h : ¬ Parses member.nodeAddr) :
    (route.upsert hash member writer).returns = false := by
  unfold upsert
  dsimp only
  split_ifs
  · cases route.leave hash member.name with
    | ok displaced left => simp [join_panicked h, Outcome.returns]
    | panicked left => rfl
  · simp [join_panicked h, Outcome.returns]

end Cluster

/-- Mesh router: one cluster a service. -/
structure ServiceMesh where
  routes : HashMap String Cluster
  /-- No write loop from this number on was started. -/
  writers : WriterId

/-- A call on a mesh. -/
inductive MeshOp
  | register (record : ServiceRecord)
  | deregister (service instanceId : String)
  /-- `apply_snapshot_diff`, with the order of its two iterations. -/
  | apply (records : List ServiceRecord) (services : List String) (order : List ServiceRecord)

namespace ServiceMesh

/-- `ServiceMesh::new`. -/
def new : ServiceMesh := ⟨∅, 0⟩

/-- Replace the cluster of a service. -/
def setRoute (mesh : ServiceMesh) (service : String) (route : Cluster) : ServiceMesh :=
  { mesh with routes := mesh.routes.insert service route }

instance : IsTrans String (· ≤ ·) := inferInstance

instance : Std.Antisymm fun a b : String => a ≤ b := inferInstance

instance : Std.Total fun a b : String => a ≤ b := inferInstance

/-- The services with a route, in order. -/
def services (mesh : ServiceMesh) : List String := mesh.routes.keys.sort (· ≤ ·)

/-- The number of instances of a service. -/
def instanceCount (mesh : ServiceMesh) (service : String) : ℕ :=
  ((mesh.routes.lookup service).map Cluster.len).getD 0

/-- The instances of a service. -/
def records (mesh : ServiceMesh) (service : String) : List ServiceRecord :=
  ((mesh.routes.lookup service).map fun route =>
    route.members.map (ServiceRecord.ofMember service)).getD []

/-- Drop the route of a service if its cluster is empty. -/
def removeIfEmpty (mesh : ServiceMesh) (service : String) : ServiceMesh :=
  if (mesh.routes.lookup service).any (·.refs = []) then
    { mesh with routes := mesh.routes.erase service }
  else mesh

variable (hash : List UInt8 → U64)

/-- Register or upsert an instance under `record.service`. -/
def register (mesh : ServiceMesh) (record : ServiceRecord) :
    Outcome ServiceMesh (Option ServiceRecord) :=
  let route := (mesh.routes.lookup record.service).getD .new
  ((route.upsert hash record.member mesh.writers).mapState fun route =>
    { mesh.setRoute record.service route with writers := mesh.writers + 1 }).bind
      fun displaced mesh => .ok (displaced.map (.ofMember record.service)) mesh

/-- Remove an instance, and the route of its service with the last one. -/
def deregister (mesh : ServiceMesh) (service instanceId : String) :
    Outcome ServiceMesh (Option ServiceRecord) :=
  match mesh.routes.lookup service with
  | none => .ok none mesh
  | some route =>
    ((route.leave hash instanceId).mapState (mesh.setRoute service)).bind fun member mesh =>
      match member with
      | none => .ok none mesh
      | some m => .ok (some (.ofMember service m)) (mesh.removeIfEmpty service)

/-- The instances of a service that are not in the snapshot leave. -/
def purge (incoming : HashMap (String × String) ServiceRecord) (mesh : ServiceMesh)
    (service : String) : Outcome ServiceMesh Unit :=
  match mesh.routes.lookup service with
  | none => .ok () mesh
  | some route =>
    let staleIds := (route.members.filter fun m =>
      (incoming.lookup (service, m.name)).isNone).map ClusterMember.name
    ((Outcome.forEach (Cluster.leave hash) staleIds route).mapState (mesh.setRoute service)).bind
      fun _ mesh => .ok () (mesh.removeIfEmpty service)

/-- Replace mesh state from a registry snapshot, with the services visited in the order of
`services` and the snapshot in the order of `order`. -/
def applySnapshotDiff (mesh : ServiceMesh) (records : List ServiceRecord)
    (services : List String) (order : List ServiceRecord) : Outcome ServiceMesh Unit :=
  (Outcome.forEach (purge hash (collect ServiceRecord.key records)) services mesh).bind
    fun _ mesh => Outcome.forEach (register hash) order mesh

/-- The reference for a key of a service. -/
def refForKey (mesh : ServiceMesh) (service : String) (key : List UInt8) : Option RemoteActorRef :=
  (mesh.routes.lookup service).bind (·.refForKey hash key)

/-- The orders are those of some iteration. -/
def Orders (mesh : ServiceMesh) (records : List ServiceRecord) (services : List String)
    (order : List ServiceRecord) : Prop :=
  ListsKeys services mesh.routes ∧ ListsValues order (collect ServiceRecord.key records)

instance (mesh : ServiceMesh) (records : List ServiceRecord) (services : List String)
    (order : List ServiceRecord) : Decidable (mesh.Orders records services order) :=
  inferInstanceAs (Decidable (_ ∧ _))

/-- What a call leaves behind. -/
def step (mesh : ServiceMesh) : MeshOp → Option ServiceMesh
  | .register record => some (mesh.register hash record).state
  | .deregister service instanceId => some (mesh.deregister hash service instanceId).state
  | .apply records services order =>
    if mesh.Orders records services order then
      some (mesh.applySnapshotDiff hash records services order).state
    else none

/-- Reached from the empty mesh by calls that return or unwind. -/
def Reachable (mesh : ServiceMesh) : Prop := ∃ ops, Transition.run (step hash) new ops = some mesh

/-- The record is in the mesh. -/
def Has (mesh : ServiceMesh) (record : ServiceRecord) : Prop :=
  ∃ route, mesh.routes.lookup record.service = some route ∧ record.member ∈ route.members

/-! ### Every cluster of a mesh is sound -/

/-- The invariant of a mesh. -/
def Sound (mesh : ServiceMesh) : Prop :=
  ∀ service route, mesh.routes.lookup service = some route → route.Sound

variable {hash} {mesh mesh' : ServiceMesh} {record : ServiceRecord} {op : MeshOp}
  {service id : String} {route : Cluster}

theorem lookup_setRoute : (mesh.setRoute service route).routes.lookup id =
    if id = service then some route else mesh.routes.lookup id :=
  lookup_insert_eq_ite _ _ _ _

/-- What holds of every route, after one is replaced. -/
theorem forall_setRoute {P : Cluster → Prop}
    (h : ∀ service route, mesh.routes.lookup service = some route → P route) (hroute : P route) :
    ∀ s c, (mesh.setRoute service route).routes.lookup s = some c → P c := by
  intro s c hc
  rw [lookup_setRoute] at hc
  split_ifs at hc
  · exact Option.some.inj hc ▸ hroute
  · exact h s c hc

/-- What holds of every route, after an empty one is dropped. -/
theorem forall_removeIfEmpty {P : Cluster → Prop}
    (h : ∀ service route, mesh.routes.lookup service = some route → P route) :
    ∀ s c, (mesh.removeIfEmpty service).routes.lookup s = some c → P c := by
  unfold ServiceMesh.removeIfEmpty
  split_ifs
  · intro s c hc
    rw [congrFun (lookup_erase_eq_update _ _) s, update_apply] at hc
    split_ifs at hc
    exact h s c hc
  · exact h

theorem Sound.setRoute (h : mesh.Sound) (hroute : route.Sound) :
    (mesh.setRoute service route).Sound := forall_setRoute h hroute

theorem Sound.removeIfEmpty (h : mesh.Sound) : (mesh.removeIfEmpty service).Sound :=
  forall_removeIfEmpty h

/-- The cluster of a service, which is empty where there is no route. -/
theorem Sound.getD (h : mesh.Sound) (service : String) :
    ((mesh.routes.lookup service).getD .new).Sound := by
  cases hlookup : mesh.routes.lookup service with
  | none => exact Cluster.sound_withVirtualNodes _
  | some route => exact h service route hlookup

/-- **A registration** returns iff the address of its record parses. Then the record is in the
mesh, and so are those of other instances that were. -/
theorem Sound.register_spec (hash : List UInt8 → U64) (h : mesh.Sound) (record : ServiceRecord) :
    (mesh.register hash record).state.Sound ∧
    ((mesh.register hash record).returns = true ↔ Parses record.address) ∧
    (Parses record.address → (mesh.register hash record).state.Has record ∧
      ∀ r, r.key ≠ record.key → mesh.Has r → (mesh.register hash record).state.Has r) := by
  obtain ⟨hsound, hreturns, hmembers⟩ := (h.getD record.service).upsert_spec hash
    record.member mesh.writers
  have hstate : (mesh.register hash record).state =
      { mesh.setRoute record.service (((mesh.routes.lookup record.service).getD .new).upsert hash
          record.member mesh.writers).state with writers := mesh.writers + 1 } := by
    rw [register, Outcome.bind_ok_state, Outcome.state_mapState]
  refine ⟨?_, ?_, fun haddr => ?_⟩
  · rw [hstate]
    exact h.setRoute hsound
  · rw [register, Outcome.bind_ok_returns, Outcome.returns_mapState]
    exact hreturns
  · obtain ⟨hmem, hkeeps⟩ := hmembers haddr
    rw [hstate]
    refine ⟨⟨_, by rw [lookup_setRoute, if_pos rfl], hmem⟩, ?_⟩
    rintro r hne ⟨route, hroute, hr⟩
    by_cases hservice : r.service = record.service
    · refine ⟨_, by rw [lookup_setRoute, if_pos hservice], hkeeps _ ?_ ?_⟩
      · rwa [← hservice, hroute]
      · exact fun hid => hne (Prod.ext hservice hid)
    · exact ⟨route, by rwa [lookup_setRoute, if_neg hservice], hr⟩

/-- A registration of an address that does not parse unwinds. -/
theorem register_panicked (h : ¬ Parses record.address) :
    (mesh.register hash record).returns = false := by
  rw [register, Outcome.bind_ok_returns, Outcome.returns_mapState]
  exact Cluster.upsert_panicked h

theorem Sound.deregister (h : mesh.Sound) : (mesh.deregister hash service id).state.Sound := by
  unfold ServiceMesh.deregister
  split
  · exact h
  · next route hroute =>
    have hroute := h service route hroute
    have hsound : (mesh.setRoute service (route.leave hash id).state).Sound :=
      h.setRoute (hroute.leave hash id)
    obtain ⟨member, route', hleave⟩ := Outcome.returns_iff.mp (hroute.leave_returns hash id)
    rw [hleave] at hsound ⊢
    cases member with
    | none => exact hsound
    | some m => exact hsound.removeIfEmpty

/-- Purging a service returns. -/
theorem Sound.purge (hash : List UInt8 → U64) (h : mesh.Sound)
    (incoming : HashMap (String × String) ServiceRecord) (service : String) :
    (mesh.purge hash incoming service).returns = true ∧
      (mesh.purge hash incoming service).state.Sound := by
  unfold ServiceMesh.purge
  split
  · exact ⟨rfl, h⟩
  · next route hroute =>
    dsimp only
    obtain ⟨hreturns, hsound⟩ := Outcome.forEach_ok (P := Cluster.Sound)
      (f := Cluster.leave hash) (l := (route.members.filter fun m =>
        (incoming.lookup (service, m.name)).isNone).map ClusterMember.name)
      (fun id _ c hc => ⟨hc.leave_returns hash id, hc.leave hash id⟩) (h service route hroute)
    obtain ⟨_, route', hloop⟩ := Outcome.returns_iff.mp hreturns
    rw [hloop] at hsound ⊢
    exact ⟨rfl, (h.setRoute hsound).removeIfEmpty⟩

/-- **Every call leaves a sound mesh behind.** -/
theorem Sound.step (h : mesh.Sound) (hst : mesh.step hash op = some mesh') : mesh'.Sound := by
  cases op with
  | register record => exact Option.some.inj hst ▸ (h.register_spec hash record).1
  | deregister service id => exact Option.some.inj hst ▸ h.deregister
  | apply records services order =>
    rw [ServiceMesh.step, Option.ite_none_right_eq_some] at hst
    obtain ⟨-, hst⟩ := hst
    obtain rfl := Option.some.inj hst
    obtain ⟨hreturns, hsound⟩ := Outcome.forEach_ok (P := Sound)
      (f := ServiceMesh.purge hash (collect ServiceRecord.key records)) (l := services)
      (fun service _ mesh hmesh => hmesh.purge hash _ service) h
    obtain ⟨_, purged, hpurged⟩ := Outcome.returns_iff.mp hreturns
    rw [hpurged] at hsound
    rw [applySnapshotDiff, hpurged, Outcome.bind_ok]
    exact Outcome.forEach_state
      (fun record _ mesh hmesh => (hmesh.register_spec hash record).1) hsound

theorem Reachable.sound (h : mesh.Reachable hash) : mesh.Sound := by
  obtain ⟨ops, hrun⟩ := h
  exact Transition.invariant_run (P := Sound) (fun hm hst => hm.step hst)
    (fun _ _ hroute => by cases hroute) hrun

end ServiceMesh

/-! ### The registry -/

/-- `Duration::as_secs`. -/
def Duration.asSecs (d : Duration) : ℕ := d / 1000000000

/-- Registry of the TCP control plane. -/
structure MeshRegistry where
  records : HashMap (String × String) ServiceRecord
  ttl : Duration

/-- The lease of a record has run out. -/
def recordExpired (record : ServiceRecord) (now : ℕ) (ttl : Duration) : Bool :=
  ttl.asSecs < now - record.registeredAt

/-- A call on a registry, at some time. -/
inductive RegistryOp
  | register (record : ServiceRecord) (now : ℕ)
  | deregister (service instanceId : String)
  | evictExpired (now : ℕ)

namespace MeshRegistry

/-- `MeshRegistry::with_ttl`. -/
def withTtl (ttl : Duration) : MeshRegistry := ⟨∅, ttl⟩

/-- Store a record, whatever its strings, with the time of its registration. -/
def register (reg : MeshRegistry) (record : ServiceRecord) (now : ℕ) : MeshRegistry :=
  { reg with records := reg.records.insert record.key { record with registeredAt := now } }

/-- Remove a record. -/
def deregister (reg : MeshRegistry) (service instanceId : String) : MeshRegistry :=
  { reg with records := reg.records.erase (service, instanceId) }

/-- Remove the records whose lease has run out. -/
def evictExpired (reg : MeshRegistry) (now : ℕ) : MeshRegistry :=
  { reg with records := retain (fun _ r => !recordExpired r now reg.ttl) reg.records }

/-- A possible reply to a `List` request: the records whose lease has not run out, in the order
of some iteration. -/
def Lists (reg : MeshRegistry) (now : ℕ) (records : List ServiceRecord) : Prop :=
  ∃ l, ListsValues l reg.records ∧ records = l.filter fun r => !recordExpired r now reg.ttl

/-- What a call leaves behind. -/
def step (reg : MeshRegistry) : RegistryOp → Option MeshRegistry
  | .register record now => some (reg.register record now)
  | .deregister service instanceId => some (reg.deregister service instanceId)
  | .evictExpired now => some (reg.evictExpired now)

/-- Reached from an empty registry. -/
def Reachable (reg : MeshRegistry) : Prop :=
  ∃ ttl ops, Transition.run step (withTtl ttl) ops = some reg

/-- Every record is stored under its own key. -/
def Keyed (reg : MeshRegistry) : Prop := ∀ k r, reg.records.lookup k = some r → r.key = k

variable {reg reg' : MeshRegistry} {op : RegistryOp} {now : ℕ} {records : List ServiceRecord}

theorem Keyed.step (h : reg.Keyed) (hst : reg.step op = some reg') : reg'.Keyed := by
  cases op with
  | register record now =>
    obtain rfl := Option.some.inj hst
    intro k r hr
    rw [register, lookup_insert_eq_ite] at hr
    split_ifs at hr with hk
    · rw [hk, ← Option.some.inj hr]
      rfl
    · exact h k r hr
  | deregister service instanceId =>
    obtain rfl := Option.some.inj hst
    intro k r hr
    rw [deregister, congrFun (lookup_erase_eq_update _ _) k, update_apply] at hr
    split_ifs at hr
    exact h k r hr
  | evictExpired now =>
    obtain rfl := Option.some.inj hst
    exact fun k r hr => h k r (lookup_retain.mp hr).1

theorem Reachable.keyed (h : reg.Reachable) : reg.Keyed := by
  obtain ⟨ttl, ops, hrun⟩ := h
  exact Transition.invariant_run (P := Keyed) (fun hk hst => hk.step hst)
    (fun _ _ hr => by cases hr) hrun

/-- **A snapshot has at most one record for each instance.** -/
theorem Lists.nodup (h : reg.Lists now records) (hreg : reg.Keyed) :
    (records.map ServiceRecord.key).Nodup := by
  obtain ⟨l, hl, rfl⟩ := h
  exact (hl.nodup_map hreg).sublist (List.filter_sublist.map _)

end MeshRegistry

end LaneSwitchboards
