import LaneSwitchboards.Cluster.Members
import LaneSwitchboards.Mesh.Service

/-!
# The mesh as a directory

A mesh is a finite map from services and instances to addresses and targets (`Directory`): a
registration inserts and returns what it displaces, a deregistration removes and returns what it
removed, a snapshot replaces the whole. `Represents` is the relation between the two, with the
invariant of the clusters; every call keeps it and gives the answer of the map
(`Represents.step`), so every mesh that is reached refines its directory: `refines_directory`.
-/

namespace LaneSwitchboards

open Function Transition

/-! ### The directory -/

/-- Where the instances of the services are reached. -/
abbrev Directory := HashMap (String × String) (String × String)

/-- Where the instance of a record is reached. -/
def ServiceRecord.endpoint (r : ServiceRecord) : String × String := (r.address, r.target)

namespace Directory

/-- The effect of a call. -/
def step (d : Directory) : MeshOp → Directory
  | .register r => d.insert r.key r.endpoint
  | .deregister service instanceId => d.erase (service, instanceId)
  | .apply records _ _ => records.foldl (fun d r => d.insert r.key r.endpoint) ∅

/-- The entry of an instance as a record. -/
def record (d : Directory) (service instanceId : String) : Option ServiceRecord :=
  (d.lookup (service, instanceId)).map fun e => ⟨service, instanceId, e.1, e.2, 0⟩

/-- What a call returns: the entry that it displaces or removes. -/
def answer (d : Directory) : MeshOp → Option ServiceRecord
  | .register r => d.record r.service r.instanceId
  | .deregister service instanceId => d.record service instanceId
  | .apply .. => none

/-- The directory after some calls. -/
def after (ops : List MeshOp) : Directory := ops.foldl step ∅

/-- The services with an entry. -/
def services (d : Directory) : List String := (d.keys.image Prod.fst).sort (· ≤ ·)

/-- The number of entries of a service. -/
def instanceCount (d : Directory) (service : String) : ℕ := (d.keys.filter (·.1 = service)).card

end Directory

namespace MeshOp

/-- All addresses of the call are of the form `host:port`. -/
def Addressed : MeshOp → Prop
  | register r => Parses r.address
  | deregister .. => True
  | apply records .. => ∀ r ∈ records, Parses r.address

/-- The instance ids of a call. -/
def instanceIds : MeshOp → Set String
  | register r => {r.instanceId}
  | deregister _ instanceId => {instanceId}
  | apply records .. => {id | ∃ r ∈ records, r.instanceId = id}

end MeshOp

namespace Cluster

variable {hash : List UInt8 → U64} {v : ℕ} {S : Set String} {c : Cluster} {m : ClusterMember}

/-- **An upsert** inserts the member and returns the one that it displaces. -/
theorem Tidy.upsert_spec (h : c.Tidy hash v S) (hS : m.name ∈ S) (haddr : Parses m.nodeAddr)
    (writer : WriterId) :
    ∃ c', c.upsert hash m writer = .ok (c.members.find? (·.name = m.name)) c' ∧
      c'.Tidy hash v S ∧ ∀ m', m' ∈ c'.members ↔ m' = m ∨ m' ∈ c.members ∧ m'.name ≠ m.name := by
  obtain ⟨left, hleft, htidy, hmem⟩ : ∃ left,
      (if c.members.any (·.name = m.name) then c.leave hash m.name else .ok none c) =
        .ok (c.members.find? (·.name = m.name)) left ∧ left.Tidy hash v S ∧
      ∀ m', m' ∈ left.members ↔ m' ∈ c.members ∧ m'.name ≠ m.name := by
    split_ifs with hany
    · exact h.leave_spec m.name
    · have hnone : ∀ m' ∈ c.members, m'.name ≠ m.name := by simpa using hany
      have hid : m.name ∉ c.names := by
        rintro hmem
        obtain ⟨m', hm', heq⟩ := List.mem_map.mp hmem
        exact hnone m' hm' heq
      refine ⟨c, by rw [find?_eq_none hid], h, fun m' => ?_⟩
      exact ⟨fun hm' => ⟨hm', hnone m' hm'⟩, fun hm' => hm'.1⟩
  have hnew : m.name ∉ left.names := by
    intro hname
    obtain ⟨m', hm', heq⟩ := List.mem_map.mp hname
    exact ((hmem m').mp hm').2 heq
  obtain ⟨c', hjoin, htidy', hmembers⟩ := htidy.join_spec hnew hS haddr writer
  refine ⟨c', ?_, htidy', fun m' => ?_⟩
  · simp only [upsert, hleft, Outcome.bind_ok, hjoin]
  · rw [hmembers, List.mem_append, List.mem_singleton, hmem, or_comm]

/-- An empty cluster has no references. -/
theorem Sound.refs_eq_nil (h : c.Sound) : c.refs = [] ↔ c.members = [] := by
  have hlen : c.refs.length = c.members.length := by simpa using congrArg List.length h.endpoints
  rw [← List.length_eq_zero_iff, hlen, List.length_eq_zero_iff]

end Cluster

namespace ServiceMesh

variable (hash : List UInt8 → U64)

/-- A call with what it returns. -/
def call (mesh : ServiceMesh) : MeshOp → Outcome ServiceMesh (Option ServiceRecord)
  | .register r => mesh.register hash r
  | .deregister service instanceId => mesh.deregister hash service instanceId
  | .apply records services order =>
    (mesh.applySnapshotDiff hash records services order).bind fun _ mesh => .ok none mesh

/-- The orders of a call are those of some iteration. -/
def Iterates (mesh : ServiceMesh) : MeshOp → Prop
  | .apply records services order => mesh.Orders records services order
  | _ => True

variable {hash} {S : Set String} {mesh mesh' : ServiceMesh} {d : Directory} {op : MeshOp}
  {ops : List MeshOp} {service id : String} {route : Cluster} {m : ClusterMember}
  {record : ServiceRecord}

theorem step_eq_some : mesh.step hash op = some mesh' ↔
    mesh.Iterates op ∧ (mesh.call hash op).state = mesh' := by
  cases op with
  | register | deregister => simp [step, Iterates, call]
  | apply records services order =>
    simp only [step, Iterates, call, Option.ite_none_right_eq_some, Option.some.injEq,
      Outcome.bind_ok_state (g := fun _ => none)]

/-- The member is an instance of the service. -/
def Holds (mesh : ServiceMesh) (service : String) (m : ClusterMember) : Prop :=
  ∃ route, mesh.routes.lookup service = some route ∧ m ∈ route.members

/-- The clusters of a mesh are tidy, and none is empty. -/
structure Routed (hash : List UInt8 → U64) (S : Set String) (mesh : ServiceMesh) : Prop where
  tidy : ∀ service route, mesh.routes.lookup service = some route → route.Tidy hash 150 S
  nonempty : ∀ service route, mesh.routes.lookup service = some route → route.members ≠ []

/-- The mesh is the directory. -/
structure Represents (hash : List UInt8 → U64) (S : Set String) (mesh : ServiceMesh)
    (d : Directory) : Prop where
  routed : mesh.Routed hash S
  entries : ∀ service m, mesh.Holds service m ↔ d.lookup (service, m.name) = some m.endpoint

/-! ### Updates of one route -/

/-- The cluster of a service, which is empty where there is no route. -/
theorem Routed.getD (h : mesh.Routed hash S) (service : String) :
    ((mesh.routes.lookup service).getD .new).Tidy hash 150 S ∧
    ∀ m, m ∈ ((mesh.routes.lookup service).getD .new).members ↔ mesh.Holds service m := by
  unfold Holds
  cases hlookup : mesh.routes.lookup service with
  | none =>
    refine ⟨Cluster.tidy_withVirtualNodes hash 150 S, fun m => ?_⟩
    simp [Cluster.new, Cluster.withVirtualNodes]
  | some route => exact ⟨h.tidy service route hlookup, fun m => by simp⟩

theorem holds_of_lookup (hroute : mesh.routes.lookup service = some route) :
    mesh.Holds service m ↔ m ∈ route.members := by
  simp [Holds, hroute]

theorem holds_setRoute {service' : String} : (mesh.setRoute service route).Holds service' m ↔
    if service' = service then m ∈ route.members else mesh.Holds service' m := by
  unfold Holds
  rw [lookup_setRoute]
  split_ifs <;> simp

theorem Routed.setRoute (h : mesh.Routed hash S) (service : String)
    (htidy : route.Tidy hash 150 S) (hne : route.members ≠ []) :
    (mesh.setRoute service route).Routed hash S := by
  refine ⟨fun s c hc => ?_, fun s c hc => ?_⟩ <;> rw [lookup_setRoute] at hc <;>
    split_ifs at hc
  · exact Option.some.inj hc ▸ htidy
  · exact h.tidy s c hc
  · exact Option.some.inj hc ▸ hne
  · exact h.nonempty s c hc

/-- A route is replaced, and dropped if its cluster is empty. -/
theorem Routed.settle (h : mesh.Routed hash S) (service : String)
    (htidy : route.Tidy hash 150 S) :
    ((mesh.setRoute service route).removeIfEmpty service).Routed hash S ∧
    ∀ service' m, ((mesh.setRoute service route).removeIfEmpty service).Holds service' m ↔
      if service' = service then m ∈ route.members else mesh.Holds service' m := by
  have hrefs := htidy.sound.refs_eq_nil
  unfold removeIfEmpty
  rw [lookup_setRoute, if_pos rfl]
  by_cases hempty : route.members = []
  · rw [if_pos (by simpa using hrefs.mpr hempty)]
    have hlookup (s : String) : ((mesh.setRoute service route).routes.erase service).lookup s =
        if s = service then none else mesh.routes.lookup s := by
      rw [congrFun (lookup_erase_eq_update _ _) s, update_apply, lookup_setRoute]
      split_ifs <;> rfl
    refine ⟨⟨fun s c hc => ?_, fun s c hc => ?_⟩, fun s m => ?_⟩
    · rw [hlookup] at hc
      split_ifs at hc
      exact h.tidy s c hc
    · rw [hlookup] at hc
      split_ifs at hc
      exact h.nonempty s c hc
    · unfold Holds
      rw [hlookup]
      split_ifs <;> simp [hempty]
  · rw [if_neg (by simpa using fun hnil => hempty (hrefs.mp hnil))]
    exact ⟨h.setRoute service htidy hempty, fun s m => holds_setRoute⟩

/-! ### The calls -/

/-- The member of an instance in the cluster of its service. -/
theorem Represents.find?_eq (h : mesh.Represents hash S d) (htidy : route.Tidy hash 150 S)
    (hmem : ∀ m, m ∈ route.members ↔ mesh.Holds service m) (id : String) :
    (route.members.find? (·.name = id)).map (.ofMember service) = d.record service id := by
  unfold Directory.record
  cases hlookup : d.lookup (service, id) with
  | none =>
    have hnone : id ∉ route.names := by
      intro hid
      obtain ⟨m, hm, rfl⟩ := List.mem_map.mp hid
      rw [(h.entries service m).mp ((hmem m).mp hm)] at hlookup
      cases hlookup
    rw [Cluster.find?_eq_none hnone]
    rfl
  | some e =>
    have hm : (⟨id, e.1, e.2⟩ : ClusterMember) ∈ route.members :=
      (hmem _).mpr ((h.entries service ⟨id, e.1, e.2⟩).mpr hlookup)
    rw [htidy.inStep.find?_eq hm rfl]
    rfl

/-- A member is the one of a record if it has its name and endpoint. -/
theorem member_eq_iff : m = record.member ↔
    m.name = record.instanceId ∧ record.endpoint = m.endpoint := by
  cases m
  simp [ServiceRecord.member, ServiceRecord.endpoint, ClusterMember.endpoint, eq_comm]

/-- **A registration** inserts the entry of its record. -/
theorem Represents.register (h : mesh.Represents hash S d) (haddr : Parses record.address)
    (hS : record.instanceId ∈ S) : ∃ mesh', mesh.register hash record =
      .ok (d.record record.service record.instanceId) mesh' ∧
      mesh'.Represents hash S (d.insert record.key record.endpoint) := by
  obtain ⟨htidy, hmem⟩ := h.routed.getD record.service
  obtain ⟨route, hupsert, htidy', hmem'⟩ := htidy.upsert_spec (m := record.member) hS haddr
    mesh.writers
  refine ⟨{ mesh.setRoute record.service route with writers := mesh.writers + 1 }, ?_, ?_, ?_⟩
  · rw [ServiceMesh.register, hupsert, ← h.find?_eq htidy hmem]
    rfl
  · have hne : route.members ≠ [] :=
      List.ne_nil_of_mem ((hmem' record.member).mpr (Or.inl rfl))
    have hrouted := h.routed.setRoute record.service htidy' hne
    exact ⟨hrouted.tidy, hrouted.nonempty⟩
  · intro service m
    have hholds : ServiceMesh.Holds { mesh.setRoute record.service route with
        writers := mesh.writers + 1 } service m ↔
        (mesh.setRoute record.service route).Holds service m := Iff.rfl
    rw [hholds, holds_setRoute, lookup_insert_eq_ite, hmem', hmem, h.entries, h.entries]
    by_cases hservice : service = record.service
    · subst hservice
      rw [if_pos rfl, member_eq_iff]
      by_cases hname : m.name = record.instanceId
      · simp [hname, ServiceRecord.key, ServiceRecord.member]
      · simp [hname, ServiceRecord.key, ServiceRecord.member]
    · simp [hservice, ServiceRecord.key]

/-- **A deregistration** removes the entry and returns it. -/
theorem Represents.deregister (h : mesh.Represents hash S d) (service id : String) :
    ∃ mesh', mesh.deregister hash service id = .ok (d.record service id) mesh' ∧
      mesh'.Represents hash S (d.erase (service, id)) := by
  -- the entry is removed from the members of the service
  have herase {mesh' : ServiceMesh} (hrouted : mesh'.Routed hash S)
      (hholds : ∀ s m, mesh'.Holds s m ↔ mesh.Holds s m ∧ (s = service → m.name ≠ id)) :
      mesh'.Represents hash S (d.erase (service, id)) := by
    refine ⟨hrouted, fun s m => ?_⟩
    rw [hholds, h.entries, congrFun (lookup_erase_eq_update _ _) (s, m.name), update_apply]
    by_cases hkey : s = service ∧ m.name = id
    · simp [hkey]
    · have hkey' : (s, m.name) ≠ (service, id) := fun heq => hkey (Prod.mk.inj heq)
      rw [if_neg hkey']
      exact and_iff_left fun hs hname => hkey ⟨hs, hname⟩
  unfold ServiceMesh.deregister
  cases hlookup : mesh.routes.lookup service with
  | none =>
    have hnone (m : ClusterMember) : ¬ mesh.Holds service m := by
      rintro ⟨route, hroute, -⟩
      rw [hlookup] at hroute
      cases hroute
    refine ⟨mesh, ?_, herase h.routed fun s m => ?_⟩
    · have hrecord : d.record service id = none := by
        refine Option.map_eq_none_iff.mpr (Option.eq_none_iff_forall_ne_some.mpr fun e he => ?_)
        exact hnone ⟨id, e.1, e.2⟩ ((h.entries _ _).mpr he)
      rw [hrecord]
    · refine (and_iff_left_of_imp ?_).symm
      rintro hm rfl
      exact absurd hm (hnone m)
  | some route =>
    have htidy := h.routed.tidy service route hlookup
    have hmem (m : ClusterMember) : m ∈ route.members ↔ mesh.Holds service m :=
      (holds_of_lookup hlookup).symm
    obtain ⟨route', hleave, htidy', hmem'⟩ := htidy.leave_spec id
    have hrecord := h.find?_eq htidy hmem id
    dsimp only
    rw [hleave, ← hrecord]
    cases hfind : route.members.find? (·.name = id) with
    | none =>
      -- nothing has left
      have hsame (m : ClusterMember) : m ∈ route'.members ↔ m ∈ route.members := by
        rw [hmem']
        refine and_iff_left_of_imp fun hm heq => ?_
        exact List.find?_eq_none.mp hfind m hm (by simpa using heq)
      have hne : route'.members ≠ [] := by
        obtain ⟨m, hm⟩ := List.exists_mem_of_ne_nil _ (h.routed.nonempty service route hlookup)
        exact List.ne_nil_of_mem ((hsame m).mpr hm)
      refine ⟨mesh.setRoute service route', rfl,
        herase (h.routed.setRoute service htidy' hne) fun s m => ?_⟩
      rw [holds_setRoute]
      by_cases hs : s = service
      · subst hs
        rw [if_pos rfl, hmem', hmem]
        simp
      · simp [hs]
    | some m =>
      obtain ⟨hrouted, hholds⟩ := h.routed.settle service htidy'
      refine ⟨(mesh.setRoute service route').removeIfEmpty service, rfl,
        herase hrouted fun s m => ?_⟩
      rw [hholds]
      by_cases hs : s = service
      · subst hs
        rw [if_pos rfl, hmem', hmem]
        simp
      · simp [hs]

/-! ### A snapshot -/

variable {incoming : HashMap (String × String) ServiceRecord}

/-- **Purging a service** leaves the instances of the snapshot. -/
theorem Routed.purge (h : mesh.Routed hash S) (incoming : HashMap (String × String) ServiceRecord)
    (service : String) : ∃ mesh', mesh.purge hash incoming service = .ok () mesh' ∧
      mesh'.Routed hash S ∧ ∀ s m, mesh'.Holds s m ↔ mesh.Holds s m ∧
        (s = service → (incoming.lookup (s, m.name)).isSome = true) := by
  unfold ServiceMesh.purge
  cases hlookup : mesh.routes.lookup service with
  | none =>
    refine ⟨mesh, rfl, h, fun s m => (and_iff_left_of_imp ?_).symm⟩
    rintro ⟨route, hroute, -⟩ rfl
    rw [hlookup] at hroute
    cases hroute
  | some route =>
    have htidy := h.tidy service route hlookup
    obtain ⟨route', hleaves, htidy', hmem'⟩ := htidy.leaves_spec
      ((route.members.filter fun m => (incoming.lookup (service, m.name)).isNone).map
        ClusterMember.name)
    obtain ⟨hrouted, hholds⟩ := h.settle service htidy'
    refine ⟨(mesh.setRoute service route').removeIfEmpty service, ?_, hrouted, fun s m => ?_⟩
    · dsimp only
      rw [hleaves]
      rfl
    · rw [hholds]
      by_cases hs : s = service
      · subst hs
        rw [if_pos rfl, hmem', holds_of_lookup hlookup]
        refine and_congr_right fun hm => ?_
        simp only [List.mem_map, List.mem_filter, Option.isNone_iff_eq_none, forall_const]
        rw [Option.isSome_iff_ne_none]
        refine not_congr ⟨?_, fun hnone => ⟨m, ⟨hm, hnone⟩, rfl⟩⟩
        rintro ⟨m', ⟨-, hnone⟩, hname⟩
        rwa [← hname]
      · simp [hs]

/-- Purging the services one after the other. -/
theorem Routed.purges (h : mesh.Routed hash S)
    (incoming : HashMap (String × String) ServiceRecord) (services : List String) :
    ∃ mesh', Outcome.forEach (ServiceMesh.purge hash incoming) services mesh = .ok () mesh' ∧
      mesh'.Routed hash S ∧ ∀ s m, mesh'.Holds s m ↔ mesh.Holds s m ∧
        (s ∈ services → (incoming.lookup (s, m.name)).isSome = true) := by
  induction services generalizing mesh with
  | nil => exact ⟨mesh, rfl, h, fun s m => by simp⟩
  | cons service services ih =>
    obtain ⟨mesh₁, hpurge, hrouted, hholds⟩ := h.purge incoming service
    obtain ⟨mesh₂, hpurges, hrouted', hholds'⟩ := ih hrouted
    refine ⟨mesh₂, by rw [Outcome.forEach, hpurge, Outcome.bind_ok, hpurges], hrouted',
      fun s m => ?_⟩
    rw [hholds', hholds, List.mem_cons, and_assoc, or_imp]

/-- Registering the records one after the other. -/
theorem Represents.registers (h : mesh.Represents hash S d) (order : List ServiceRecord)
    (haddr : ∀ r ∈ order, Parses r.address) (hS : ∀ r ∈ order, r.instanceId ∈ S) :
    ∃ mesh', Outcome.forEach (ServiceMesh.register hash) order mesh = .ok () mesh' ∧
      mesh'.Represents hash S
        (order.foldl (fun d r => d.insert r.key r.endpoint) d) := by
  induction order generalizing mesh d with
  | nil => exact ⟨mesh, rfl, h⟩
  | cons r order ih =>
    obtain ⟨mesh₁, hregister, hrepresents⟩ :=
      h.register (haddr r List.mem_cons_self) (hS r List.mem_cons_self)
    obtain ⟨mesh₂, hregisters, hrepresents'⟩ := ih hrepresents
      (fun r hr => haddr r (List.mem_cons_of_mem _ hr))
      fun r hr => hS r (List.mem_cons_of_mem _ hr)
    exact ⟨mesh₂, by rw [Outcome.forEach, hregister, Outcome.bind_ok, hregisters], hrepresents'⟩

/-- The values of a map in some order, found by their keys. -/
theorem find?_of_listsValues {records order : List ServiceRecord}
    (horder : ListsValues order (collect ServiceRecord.key records)) (k : String × String) :
    order.reverse.find? (·.key = k) = (collect ServiceRecord.key records).lookup k := by
  cases hfind : order.reverse.find? (·.key = k) with
  | none =>
    refine (Option.eq_none_iff_forall_ne_some.mpr fun r hr => ?_).symm
    have hmem : r ∈ order.reverse := List.mem_reverse.mpr (horder.mem_iff.mpr ⟨k, hr⟩)
    exact List.find?_eq_none.mp hfind r hmem (by simpa using (of_lookup_collect hr).2)
  | some r =>
    have hkey : r.key = k := by simpa using List.find?_some hfind
    obtain ⟨k', hk'⟩ := horder.mem_iff.mp (List.mem_reverse.mp (List.mem_of_find?_eq_some hfind))
    rw [← hkey, (of_lookup_collect hk').2, hk']

/-- **A snapshot** replaces the whole directory. -/
theorem Represents.applySnapshotDiff (h : mesh.Represents hash S d)
    {records order : List ServiceRecord} {services : List String}
    (horders : mesh.Orders records services order) (haddr : ∀ r ∈ records, Parses r.address)
    (hS : ∀ r ∈ records, r.instanceId ∈ S) :
    ∃ mesh', mesh.applySnapshotDiff hash records services order = .ok () mesh' ∧
      mesh'.Represents hash S (d.step (.apply records services order)) := by
  have hmem : ∀ r ∈ order, r ∈ records := fun r hr =>
    let ⟨_, hk⟩ := horders.2.mem_iff.mp hr
    (of_lookup_collect hk).1
  obtain ⟨purged, hpurges, hrouted, hholds⟩ := h.routed.purges
    (collect ServiceRecord.key records) services
  -- what the purge leaves of the directory
  have hpurged : purged.Represents hash S
      (retain (fun k _ => ((collect ServiceRecord.key records).lookup k).isSome) d) := by
    refine ⟨hrouted, fun s m => ?_⟩
    rw [hholds, h.entries, lookup_retain]
    refine and_congr_right fun hentry => ?_
    refine forall_prop_of_true ?_
    obtain ⟨route, hroute, -⟩ := (h.entries s m).mpr hentry
    rw [horders.1.mem_iff, hroute]
    rfl
  obtain ⟨mesh', hregisters, hrepresents⟩ := hpurged.registers order
    (fun r hr => haddr r (hmem r hr)) fun r hr => hS r (hmem r hr)
  refine ⟨mesh', ?_, ?_⟩
  · rw [ServiceMesh.applySnapshotDiff, hpurges, Outcome.bind_ok, hregisters]
  · have hd : order.foldl (fun d r => d.insert r.key r.endpoint)
        (retain (fun k _ => ((collect ServiceRecord.key records).lookup k).isSome) d) =
        d.step (.apply records services order) := by
      refine Finmap.ext_lookup fun k => ?_
      rw [Directory.step, lookup_foldl_insert, lookup_foldl_insert, find?_of_listsValues horders.2,
        ← lookup_collect]
      cases hlookup : (collect ServiceRecord.key records).lookup k with
      | some r => rfl
      | none =>
        have hnone : (retain (fun k _ =>
            ((collect ServiceRecord.key records).lookup k).isSome) d).lookup k = none := by
          refine Option.eq_none_iff_forall_ne_some.mpr fun e he => ?_
          have hsome := (lookup_retain.mp he).2
          rw [hlookup] at hsome
          cases hsome
        rw [hnone]
        rfl
    rw [← hd]
    exact hrepresents

/-! ### Runs -/

/-- **Every call refines the directory**: it returns, with the answer of the map. -/
theorem Represents.step (h : mesh.Represents hash S d) (haddr : op.Addressed)
    (hS : op.instanceIds ⊆ S) (hiter : mesh.Iterates op) :
    ∃ mesh', mesh.call hash op = .ok (d.answer op) mesh' ∧ mesh'.Represents hash S (d.step op) := by
  cases op with
  | register record => exact h.register haddr (hS rfl)
  | deregister service id => exact h.deregister service id
  | apply records services order =>
    obtain ⟨mesh', happly, hrepresents⟩ := h.applySnapshotDiff hiter haddr
      fun r hr => hS ⟨r, hr, rfl⟩
    exact ⟨mesh', by rw [call, happly]; rfl, hrepresents⟩

theorem represents_new (hash : List UInt8 → U64) (S : Set String) :
    new.Represents hash S ∅ where
  routed := ⟨fun _ _ h => (by cases h), fun _ _ h => (by cases h)⟩
  entries := fun service m => ⟨fun ⟨_, h, _⟩ => (by cases h), fun h => (by cases h)⟩

/-- The directory of a mesh that is reached. -/
theorem represents_run (hash : List UInt8 → U64) (S : Set String)
    (hops : ∀ op ∈ ops, op.Addressed ∧ op.instanceIds ⊆ S)
    (hrun : run (step hash) new ops = some mesh) :
    mesh.Represents hash S (Directory.after ops) := by
  refine run_induction (motive := fun ops mesh => (∀ op ∈ ops, op.Addressed ∧ op.instanceIds ⊆ S) →
    mesh.Represents hash S (Directory.after ops)) (fun _ => represents_new hash S) ?_ hrun hops
  intro ops mesh op mesh' _ ih hst hops
  obtain ⟨haddr, hS⟩ := hops op (by simp)
  have hrepresents := ih fun op hop => hops op (by simp [hop])
  obtain ⟨hiter, hstate⟩ := step_eq_some.mp hst
  obtain ⟨mesh'', hcall, hrepresents'⟩ := hrepresents.step haddr hS hiter
  rw [hcall] at hstate
  rw [Directory.after, List.foldl_append, ← hstate]
  exact hrepresents'

/-- The structures of each cluster are in step, and no cluster is empty. -/
def Coherent (mesh : ServiceMesh) : Prop :=
  ∀ service route, mesh.routes.lookup service = some route →
    route.members ≠ [] ∧ route.InStep ∧
      ∀ m ∈ route.members, route.ring.nodes.lookup m.name = m.ringNode

/-- What can be asked of the mesh is what the directory says. -/
structure Projects (mesh : ServiceMesh) (d : Directory) : Prop where
  services : mesh.services = d.services
  instanceCount : ∀ service, mesh.instanceCount service = d.instanceCount service
  nodup : ∀ service, (mesh.records service).Nodup
  records : ∀ service r, r ∈ mesh.records service ↔
    r.service = service ∧ d.record service r.instanceId = some r

theorem Represents.coherent (h : mesh.Represents hash S d) : mesh.Coherent :=
  fun service route hroute =>
    have htidy := h.routed.tidy service route hroute
    ⟨h.routed.nonempty service route hroute, htidy.inStep, htidy.nodes⟩

/-- The keys of the directory under one service are the names in its cluster. -/
theorem Represents.keys_eq (h : mesh.Represents hash S d)
    (hroute : mesh.routes.lookup service = some route) :
    d.keys.filter (·.1 = service) = route.names.toFinset.image fun n => (service, n) := by
  ext ⟨s, id⟩
  simp only [Finset.mem_filter, Finmap.mem_keys, ← Finmap.lookup_isSome, Finset.mem_image,
    List.mem_toFinset, Prod.mk.injEq]
  constructor
  · rintro ⟨hsome, rfl⟩
    obtain ⟨e, he⟩ := Option.isSome_iff_exists.mp hsome
    have hm := (holds_of_lookup hroute).mp ((h.entries s ⟨id, e.1, e.2⟩).mpr he)
    exact ⟨id, List.mem_map.mpr ⟨_, hm, rfl⟩, rfl, rfl⟩
  · rintro ⟨n, hn, rfl, rfl⟩
    obtain ⟨m, hm, rfl⟩ := List.mem_map.mp hn
    rw [(h.entries service m).mp ((holds_of_lookup hroute).mpr hm)]
    exact ⟨rfl, rfl⟩

theorem Represents.projects (h : mesh.Represents hash S d) : mesh.Projects d where
  services := by
    have hkeys : mesh.routes.keys = d.keys.image Prod.fst := by
      ext service
      simp only [Finmap.mem_keys, ← Finmap.lookup_isSome, Finset.mem_image,
        Option.isSome_iff_exists]
      constructor
      · rintro ⟨route, hroute⟩
        obtain ⟨m, hm⟩ := List.exists_mem_of_ne_nil _ (h.routed.nonempty service route hroute)
        exact ⟨(service, m.name), ⟨_, (h.entries service m).mp ⟨route, hroute, hm⟩⟩, rfl⟩
      · rintro ⟨⟨s, id⟩, ⟨e, he⟩, rfl⟩
        obtain ⟨route, hroute, -⟩ := (h.entries s ⟨id, e.1, e.2⟩).mpr he
        exact ⟨route, hroute⟩
    rw [ServiceMesh.services, Directory.services, hkeys]
  instanceCount service := by
    unfold ServiceMesh.instanceCount Directory.instanceCount
    cases hroute : mesh.routes.lookup service with
    | none =>
      refine (Finset.card_eq_zero.mpr (Finset.filter_eq_empty_iff.mpr ?_)).symm
      rintro ⟨s, id⟩ hmem rfl
      rw [Finmap.mem_keys, ← Finmap.lookup_isSome, Option.isSome_iff_exists] at hmem
      obtain ⟨e, he⟩ := hmem
      obtain ⟨route, hroute', -⟩ := (h.entries s ⟨id, e.1, e.2⟩).mpr he
      rw [hroute] at hroute'
      cases hroute'
    | some route =>
      have htidy := h.routed.tidy service route hroute
      rw [h.keys_eq hroute, Finset.card_image_of_injective _ fun _ _ heq => (Prod.mk.inj heq).2,
        List.toFinset_card_of_nodup htidy.inStep.nodup, ← htidy.sound.length_refs]
      rfl
  nodup service := by
    unfold ServiceMesh.records
    cases hroute : mesh.routes.lookup service with
    | none => exact List.nodup_nil
    | some route =>
      have hnodup := (h.routed.tidy service route hroute).inStep.nodup
      have hids : ((route.members.map (ServiceRecord.ofMember service)).map
          ServiceRecord.instanceId).Nodup := by
        rw [List.map_map]
        exact hnodup
      exact hids.of_map _
  records service r := by
    have hrecord : d.record service r.instanceId = some r ↔
        r.service = service ∧ r.registeredAt = 0 ∧
          d.lookup (service, r.instanceId) = some r.endpoint := by
      rw [Directory.record, Option.map_eq_some_iff]
      constructor
      · rintro ⟨e, he, hr⟩
        rw [← hr] at he ⊢
        exact ⟨rfl, rfl, he⟩
      · rintro ⟨rfl, hzero, he⟩
        refine ⟨_, he, ?_⟩
        cases r
        cases hzero
        rfl
    rw [hrecord, ServiceMesh.records]
    constructor
    · intro hr
      obtain ⟨route, hroute, hr⟩ : ∃ route, mesh.routes.lookup service = some route ∧
          r ∈ route.members.map (ServiceRecord.ofMember service) := by
        cases hroute : mesh.routes.lookup service with
        | none => simp [hroute] at hr
        | some route => exact ⟨route, rfl, by simpa [hroute] using hr⟩
      obtain ⟨m, hm, rfl⟩ := List.mem_map.mp hr
      exact ⟨rfl, rfl, rfl, (h.entries service m).mp ⟨route, hroute, hm⟩⟩
    · rintro ⟨rfl, -, hzero, he⟩
      obtain ⟨route, hroute, hm⟩ := (h.entries r.service r.member).mpr he
      rw [hroute]
      refine List.mem_map.mpr ⟨r.member, hm, ?_⟩
      cases r
      cases hzero
      rfl

/-- **The mesh refines a directory.** For every list of calls whose addresses are of the form
`host:port`, and every order of the iterations: the mesh is that of the directory, its clusters
are coherent, what it lists is what the directory has, and every further call returns the answer
of the directory and leaves the mesh of the directory behind. -/
theorem refines_directory (hash : List UInt8 → U64) (ops : List MeshOp)
    (hops : ∀ op ∈ ops, op.Addressed) (hrun : run (step hash) new ops = some mesh) :
    (∀ service m, mesh.Holds service m ↔
      (Directory.after ops).lookup (service, m.name) = some m.endpoint) ∧
    mesh.Coherent ∧ mesh.Projects (Directory.after ops) ∧
    ∀ op, op.Addressed → mesh.Iterates op →
      ∃ mesh', mesh.call hash op = .ok ((Directory.after ops).answer op) mesh' ∧
        ∀ service m, mesh'.Holds service m ↔
          ((Directory.after ops).step op).lookup (service, m.name) = some m.endpoint := by
  have h := represents_run hash Set.univ (fun op hop => ⟨hops op hop, Set.subset_univ _⟩) hrun
  refine ⟨h.entries, h.coherent, h.projects, fun op haddr hiter => ?_⟩
  obtain ⟨mesh', hcall, h'⟩ := h.step haddr (Set.subset_univ _) hiter
  exact ⟨mesh', hcall, h'.entries⟩

/-- An instance registers, and again from another port. -/
def renewal : List MeshOp :=
  [.register ⟨"orders", "orders-1", "127.0.0.1:9001", "orders-1", 0⟩,
    .register ⟨"orders", "orders-1", "127.0.0.1:9002", "orders-1", 0⟩]

/-- The instance is then removed with its last address. -/
theorem refines_directory_renewal : ∃ mesh mesh',
    run (step fun _ => 0) new renewal = some mesh ∧
    mesh.call (fun _ => 0) (.deregister "orders" "orders-1") =
      .ok (some ⟨"orders", "orders-1", "127.0.0.1:9002", "orders-1", 0⟩) mesh' := by
  have hops : ∀ op ∈ renewal, op.Addressed := by
    simp only [renewal, List.forall_mem_cons, MeshOp.Addressed]
    refine ⟨by decide, by decide, fun op hop => by cases hop⟩
  obtain ⟨-, -, -, hcalls⟩ := refines_directory (fun _ => 0) renewal hops rfl
  obtain ⟨mesh', hcall, -⟩ := hcalls (.deregister "orders" "orders-1") trivial trivial
  exact ⟨_, mesh', rfl, hcall⟩

end ServiceMesh

end LaneSwitchboards
