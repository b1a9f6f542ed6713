import LaneSwitchboards.Cluster.References
import LaneSwitchboards.Mesh.Service

/-!
# A snapshot and the references of a mesh

`apply_snapshot_diff` registers every record of the snapshot again, also where the instance is in
the mesh already with the same address and target. A registration gives its instance a reference
with a new write loop (`Numbered.register_spec`), so no instance of the snapshot keeps the
reference that it had: `applySnapshotDiff_untouched_iff`.
-/

namespace LaneSwitchboards

open Function

namespace Cluster

variable {hash : List UInt8 → U64} {c : Cluster} {m : ClusterMember} {w : WriterId}

/-- **An upsert** gives its member a new reference and keeps those of the other names. -/
theorem Numbered.upsert_spec (h : c.Numbered w) (hash : List UInt8 → U64) (m : ClusterMember) :
    (c.upsert hash m w).state.Numbered (w + 1) ∧
    (Parses m.nodeAddr → (c.upsert hash m w).state.refOf m.name = some (m.remoteRefWith w)) ∧
    ∀ id, id ≠ m.name → (c.upsert hash m w).state.refOf id = c.refOf id := by
  -- the cluster that the member joins
  obtain ⟨displaced, left, hleft, hnumbered, hnew, hkeeps⟩ : ∃ displaced left,
      (if c.members.any (·.name = m.name) then c.leave hash m.name else .ok none c) =
        .ok displaced left ∧ left.Numbered w ∧ m.name ∉ left.names ∧
      ∀ id, id ≠ m.name → left.refOf id = c.refOf id := by
    split_ifs with hany
    · have hname : m.name ∈ c.names := by
        obtain ⟨m', hm', heq⟩ := List.any_eq_true.mp hany
        exact List.mem_map.mpr ⟨m', hm', by simpa using heq⟩
      have hkeeps : ∀ id, id ≠ m.name → (c.leave hash m.name).state.refOf id = c.refOf id :=
        fun _ hne => h.refOf_leave hash hne
      have hnumbered := h.leave hash m.name
      rcases h.sound.leave_spec hash m.name with ⟨hcontains, -⟩ | ⟨i, m', r, left, hleave, -⟩
      · rw [(h.inStep.ring m.name).mpr hname] at hcontains
        cases hcontains
      · rw [hleave] at hkeeps hnumbered
        exact ⟨some m', left, hleave, hnumbered,
          h.inStep.not_mem_names_of_leave h.sound hleave, hkeeps⟩
    · have hname : m.name ∉ c.names := by
        rintro hmem
        obtain ⟨m', hm', heq⟩ := List.mem_map.mp hmem
        exact hany (List.any_eq_true.mpr ⟨m', hm', by simpa using heq⟩)
      exact ⟨none, c, rfl, h, hname, fun _ _ => rfl⟩
  have hstate : (c.upsert hash m w).state = (left.join hash m w).state := by
    simp only [upsert, hleft, Outcome.bind_ok]
    exact Outcome.bind_ok_state (g := fun _ => displaced)
  obtain ⟨hjoined, hothers⟩ := hnumbered.refOf_join hash m
  rw [hstate]
  exact ⟨hnumbered.join hash hnew, hjoined, fun id hne => (hothers id hne).trans (hkeeps id hne)⟩

/-- Several leave. -/
theorem Numbered.leaves (h : c.Numbered w) (hash : List UInt8 → U64) (ids : List String) :
    (Outcome.forEach (Cluster.leave hash) ids c).state.Numbered w :=
  Outcome.forEach_state (P := Numbered w) (fun id _ _ hc => hc.leave hash id) h

end Cluster

namespace ServiceMesh

open Transition

/-- The instances of a service, in the order of its cluster. -/
def members (mesh : ServiceMesh) (service : String) : List ClusterMember :=
  ((mesh.routes.lookup service).map Cluster.members).getD []

/-- The references of a service, in the order of its cluster. -/
def refs (mesh : ServiceMesh) (service : String) : List RemoteActorRef :=
  ((mesh.routes.lookup service).map Cluster.refs).getD []

/-- The reference of an instance. -/
def refOf (mesh : ServiceMesh) (service instanceId : String) : Option RemoteActorRef :=
  (mesh.routes.lookup service).bind (·.refOf instanceId)

/-- The records of all services. -/
def allRecords (mesh : ServiceMesh) : List ServiceRecord := mesh.services.flatMap mesh.records

/-- Every instance of the mesh that is in the snapshot keeps its reference. -/
def Untouched (records : List ServiceRecord) (mesh mesh' : ServiceMesh) : Prop :=
  ∀ r ∈ records, mesh.Has r →
    mesh'.refOf r.service r.instanceId = mesh.refOf r.service r.instanceId

/-- The services have the same instances with the same references, in the same order. -/
def SameInstances (mesh mesh' : ServiceMesh) : Prop :=
  ∀ service, mesh'.members service = mesh.members service ∧
    mesh'.refs service = mesh.refs service

/-- The clusters are in step, and no write loop has the number of the next one. -/
def Numbered (mesh : ServiceMesh) : Prop :=
  ∀ service route, mesh.routes.lookup service = some route → route.Numbered mesh.writers

variable {hash : List UInt8 → U64} {mesh mesh' : ServiceMesh} {record r : ServiceRecord}
  {op : MeshOp} {service id : String} {route : Cluster} {records order : List ServiceRecord}
  {services : List String}

/-! ### The numbers of the write loops -/

theorem Numbered.sound (h : mesh.Numbered) : mesh.Sound :=
  fun service route hroute => (h service route hroute).sound

/-- The cluster of a service, which is empty where there is no route. -/
theorem Numbered.getD (h : mesh.Numbered) (service : String) :
    ((mesh.routes.lookup service).getD .new).Numbered mesh.writers := by
  cases hlookup : mesh.routes.lookup service with
  | none => exact Cluster.numbered_withVirtualNodes _ _
  | some route => exact h service route hlookup

theorem Numbered.setRoute (h : mesh.Numbered) (hroute : route.Numbered mesh.writers) :
    (mesh.setRoute service route).Numbered := forall_setRoute h hroute

theorem Numbered.removeIfEmpty (h : mesh.Numbered) : (mesh.removeIfEmpty service).Numbered := by
  have hwriters : (mesh.removeIfEmpty service).writers = mesh.writers := by
    unfold ServiceMesh.removeIfEmpty
    split_ifs <;> rfl
  intro s c hc
  rw [hwriters]
  exact forall_removeIfEmpty h s c hc

/-- The reference of an instance after a route is replaced. -/
theorem refOf_setRoute {service' : String} : (mesh.setRoute service route).refOf service' id =
    if service' = service then route.refOf id else mesh.refOf service' id := by
  unfold refOf
  rw [lookup_setRoute]
  split_ifs <;> rfl

/-- The reference of an instance in the cluster of its service, or in an empty one. -/
theorem refOf_getD : ((mesh.routes.lookup service).getD .new).refOf id = mesh.refOf service id := by
  unfold refOf
  cases mesh.routes.lookup service <;> rfl

/-- **A registration** gives its instance a new reference and keeps those of the others. -/
theorem Numbered.register_spec (h : mesh.Numbered) (hash : List UInt8 → U64)
    (record : ServiceRecord) :
    (mesh.register hash record).state.Numbered ∧
    (mesh.register hash record).state.writers = mesh.writers + 1 ∧
    (Parses record.address → (mesh.register hash record).state.refOf record.service
      record.instanceId = some (record.member.remoteRefWith mesh.writers)) ∧
    ∀ service id, (service, id) ≠ record.key →
      (mesh.register hash record).state.refOf service id = mesh.refOf service id := by
  obtain ⟨hnumbered, hfresh, hkeeps⟩ := (h.getD record.service).upsert_spec hash record.member
  have hstate : (mesh.register hash record).state =
      { mesh.setRoute record.service (((mesh.routes.lookup record.service).getD .new).upsert hash
          record.member mesh.writers).state with writers := mesh.writers + 1 } := by
    rw [register, Outcome.bind_ok_state, Outcome.state_mapState]
  rw [hstate]
  refine ⟨?_, rfl, fun haddr => ?_, fun service id hne => ?_⟩
  · have hmono : Numbered { mesh with writers := mesh.writers + 1 } :=
      fun service route hroute => (h service route hroute).mono (Nat.le_succ _)
    exact hmono.setRoute hnumbered
  · refine Eq.trans ?_ (hfresh haddr)
    exact refOf_setRoute.trans (if_pos rfl)
  · refine refOf_setRoute.trans ?_
    split_ifs with hservice
    · have hid : id ≠ record.member.name := fun heq => hne (Prod.ext hservice heq)
      rw [hkeeps id hid, refOf_getD, hservice]
    · rfl

theorem Numbered.deregister (h : mesh.Numbered) (hash : List UInt8 → U64) (service id : String) :
    (mesh.deregister hash service id).state.Numbered := by
  unfold ServiceMesh.deregister
  split
  · exact h
  · next route hroute =>
    have hroute := h service route hroute
    have hnumbered : (mesh.setRoute service (route.leave hash id).state).Numbered :=
      h.setRoute (hroute.leave hash id)
    obtain ⟨member, route', hleave⟩ := Outcome.returns_iff.mp (hroute.sound.leave_returns hash id)
    rw [hleave] at hnumbered ⊢
    cases member with
    | none => exact hnumbered
    | some m => exact hnumbered.removeIfEmpty

/-- Purging starts no write loop. -/
theorem Numbered.purge (h : mesh.Numbered) (hash : List UInt8 → U64)
    (incoming : HashMap (String × String) ServiceRecord) (service : String) :
    (mesh.purge hash incoming service).state.Numbered ∧
      (mesh.purge hash incoming service).state.writers = mesh.writers := by
  unfold ServiceMesh.purge
  split
  · exact ⟨h, rfl⟩
  · next route hroute =>
    dsimp only
    have hnumbered := (h service route hroute).leaves hash
      ((route.members.filter fun m => (incoming.lookup (service, m.name)).isNone).map
        ClusterMember.name)
    cases hloop : Outcome.forEach (Cluster.leave hash) ((route.members.filter fun m =>
        (incoming.lookup (service, m.name)).isNone).map ClusterMember.name) route with
    | ok _ route' =>
      rw [hloop] at hnumbered
      refine ⟨(h.setRoute hnumbered).removeIfEmpty, ?_⟩
      change ((mesh.setRoute service route').removeIfEmpty service).writers = mesh.writers
      unfold ServiceMesh.removeIfEmpty
      split_ifs <;> rfl
    | panicked route' =>
      rw [hloop] at hnumbered
      exact ⟨h.setRoute hnumbered, rfl⟩

theorem Numbered.purges (h : mesh.Numbered) (hash : List UInt8 → U64)
    (incoming : HashMap (String × String) ServiceRecord) (services : List String) :
    (Outcome.forEach (ServiceMesh.purge hash incoming) services mesh).state.Numbered ∧
      (Outcome.forEach (ServiceMesh.purge hash incoming) services mesh).state.writers =
        mesh.writers :=
  Outcome.forEach_state (P := fun m : ServiceMesh => m.Numbered ∧ m.writers = mesh.writers)
    (fun service _ _ hm => (hm.1.purge hash incoming service).imp_right (·.trans hm.2)) ⟨h, rfl⟩

/-- The purge of a snapshot returns, and the registrations follow. -/
theorem Numbered.exists_purged (h : mesh.Numbered) (hash : List UInt8 → U64)
    (records : List ServiceRecord) (services : List String) : ∃ purged,
    (∀ order, mesh.applySnapshotDiff hash records services order =
      Outcome.forEach (register hash) order purged) ∧
    Outcome.forEach (ServiceMesh.purge hash (collect ServiceRecord.key records)) services mesh =
      .ok () purged ∧ purged.Numbered ∧ purged.writers = mesh.writers := by
  obtain ⟨hreturns, -⟩ := Outcome.forEach_ok (P := Sound)
    (f := ServiceMesh.purge hash (collect ServiceRecord.key records)) (l := services)
    (fun service _ mesh hmesh => hmesh.purge hash _ service) h.sound
  obtain ⟨_, purged, hpurged⟩ := Outcome.returns_iff.mp hreturns
  have hnumbered := h.purges hash (collect ServiceRecord.key records) services
  rw [hpurged] at hnumbered
  refine ⟨purged, fun order => ?_, hpurged, hnumbered⟩
  rw [applySnapshotDiff, hpurged, Outcome.bind_ok]

theorem Numbered.step (h : mesh.Numbered) (hst : mesh.step hash op = some mesh') :
    mesh'.Numbered := by
  cases op with
  | register record => exact Option.some.inj hst ▸ (h.register_spec hash record).1
  | deregister service id => exact Option.some.inj hst ▸ h.deregister hash service id
  | apply records services order =>
    rw [ServiceMesh.step, Option.ite_none_right_eq_some] at hst
    obtain ⟨-, hst⟩ := hst
    obtain rfl := Option.some.inj hst
    obtain ⟨purged, happly, -, hpurged, -⟩ := h.exists_purged hash records services
    rw [happly]
    exact Outcome.forEach_state (fun record _ mesh hmesh => (hmesh.register_spec hash record).1)
      hpurged

theorem Reachable.numbered (h : mesh.Reachable hash) : mesh.Numbered := by
  obtain ⟨ops, hrun⟩ := h
  exact invariant_run (P := Numbered) (fun hm hst => hm.step hst)
    (fun _ _ hroute => by cases hroute) hrun

/-! ### What a snapshot does -/

/-- An instance of the mesh has a reference. -/
theorem Numbered.refOf_lt (h : mesh.Numbered) (hr : mesh.Has r) :
    ∃ ref, mesh.refOf r.service r.instanceId = some ref ∧ ref.writer < mesh.writers := by
  obtain ⟨route, hroute, hm⟩ := hr
  obtain ⟨ref, href, hlt⟩ := (h r.service route hroute).refOf_lt hm
  refine ⟨ref, ?_, hlt⟩
  rw [refOf, hroute]
  exact href

/-- **Every record of a snapshot** gets a new reference. -/
theorem Numbered.applySnapshotDiff_spec (h : mesh.Numbered) (hash : List UInt8 → U64)
    (haddr : ∀ r ∈ records, Parses r.address) (horders : mesh.Orders records services order) :
    (mesh.applySnapshotDiff hash records services order).returns = true ∧
    ∀ r ∈ records, ∃ ref,
      (mesh.applySnapshotDiff hash records services order).state.refOf r.service r.instanceId =
        some ref ∧ mesh.writers ≤ ref.writer := by
  have hmem : ∀ r ∈ order, r ∈ records ∧
      (collect ServiceRecord.key records).lookup r.key = some r := fun r hr => by
    obtain ⟨k, hk⟩ := horders.2.mem_iff.mp hr
    obtain ⟨hrecord, rfl⟩ := of_lookup_collect hk
    exact ⟨hrecord, hk⟩
  obtain ⟨purged, happly, -, hpurged, hwriters⟩ := h.exists_purged hash records services
  -- a registration leaves its own instance with a new reference
  have hregister : ∀ r ∈ order, ∀ m : ServiceMesh, m.Numbered ∧ mesh.writers ≤ m.writers →
      (m.register hash r).returns = true ∧
      ((m.register hash r).state.Numbered ∧
        mesh.writers ≤ (m.register hash r).state.writers) ∧
      ∃ ref, (m.register hash r).state.refOf r.service r.instanceId = some ref ∧
        mesh.writers ≤ ref.writer := by
    rintro r hr m ⟨hm, hle⟩
    have hparses := haddr r (hmem r hr).1
    obtain ⟨hnumbered, hnext, hfresh, -⟩ := hm.register_spec hash r
    refine ⟨(hm.sound.register_spec hash r).2.1.mpr hparses, ⟨hnumbered, ?_⟩,
      _, hfresh hparses, hle⟩
    rw [hnext]
    exact Nat.le_succ_of_le hle
  have hstart : purged.Numbered ∧ mesh.writers ≤ purged.writers := ⟨hpurged, hwriters.ge⟩
  have hall := Outcome.forEach_establishes (l := order) (f := register hash)
    (P := fun m : ServiceMesh => m.Numbered ∧ mesh.writers ≤ m.writers)
    (Q := fun r (m : ServiceMesh) => ∃ ref, m.refOf r.service r.instanceId = some ref ∧
      mesh.writers ≤ ref.writer) hregister
    (fun b hb c hc hne m hm => by
      rintro ⟨ref, href, hle⟩
      have hkey : c.key ≠ b.key := fun heq => hne <| Option.some.inj <|
        (hmem c hc).2.symm.trans (heq ▸ (hmem b hb).2)
      exact ⟨ref, by rw [(hm.1.register_spec hash b).2.2.2 _ _ hkey, href], hle⟩) hstart
  rw [happly]
  refine ⟨(Outcome.forEach_ok
    (fun r hr m hm => ⟨(hregister r hr m hm).1, (hregister r hr m hm).2.1⟩) hstart).1,
    fun r hr => ?_⟩
  -- the record of the same instance that was kept
  obtain ⟨kept, hkept⟩ : ∃ kept, (collect ServiceRecord.key records).lookup r.key = some kept := by
    rw [lookup_collect]
    exact Option.isSome_iff_exists.mp (List.find?_isSome.mpr ⟨r, by simpa using hr, by simp⟩)
  obtain ⟨ref, href, hle⟩ := hall kept (horders.2.mem_iff.mpr ⟨r.key, hkept⟩)
  obtain ⟨hservice, hid⟩ := Prod.mk.inj (of_lookup_collect hkept).2
  exact ⟨ref, by rw [← hservice, ← hid, href], hle⟩

theorem mem_records : r ∈ mesh.records service ↔ ∃ route, mesh.routes.lookup service = some route ∧
    ∃ m ∈ route.members, .ofMember service m = r := by
  unfold records
  cases mesh.routes.lookup service <;> simp

/-- A record of the mesh is that of an instance. -/
theorem has_of_mem_allRecords (hr : r ∈ mesh.allRecords) : mesh.Has r := by
  obtain ⟨service, -, hr⟩ := List.mem_flatMap.mp hr
  obtain ⟨route, hroute, m, hm, rfl⟩ := mem_records.mp hr
  exact ⟨route, hroute, hm⟩

/-- No service has an instance. -/
def Vacant (mesh : ServiceMesh) : Prop :=
  ∀ service route, mesh.routes.lookup service = some route → route.members = []

theorem vacant_of_allRecords (hnil : mesh.allRecords = []) : mesh.Vacant := by
  intro service route hroute
  refine List.eq_nil_iff_forall_not_mem.mpr fun m hm => ?_
  have hservice : service ∈ mesh.services := by
    rw [services, Finset.mem_sort, Finmap.mem_keys, ← Finmap.lookup_isSome, hroute]
    rfl
  have hr : (.ofMember service m : ServiceRecord) ∈ mesh.allRecords :=
    List.mem_flatMap.mpr ⟨service, hservice, mem_records.mpr ⟨route, hroute, m, hm, rfl⟩⟩
  rw [hnil] at hr
  cases hr

/-- A vacant mesh shows no members and no references. -/
theorem Vacant.members_refs (h : mesh.Vacant) (hmesh : mesh.Numbered) (service : String) :
    mesh.members service = [] ∧ mesh.refs service = [] := by
  unfold members refs
  cases hroute : mesh.routes.lookup service with
  | none => exact ⟨rfl, rfl⟩
  | some route =>
    have hnil := h service route hroute
    have hlen := (hmesh service route hroute).sound.length_refs
    rw [Cluster.names, hnil] at hlen
    exact ⟨hnil, List.length_eq_zero_iff.mp hlen⟩

/-- Purging a vacant mesh removes its routes at most. -/
theorem Vacant.purge (h : mesh.Vacant) (hash : List UInt8 → U64)
    (incoming : HashMap (String × String) ServiceRecord) (service : String) :
    (mesh.purge hash incoming service).state.Vacant := by
  unfold ServiceMesh.purge
  cases hroute : mesh.routes.lookup service with
  | none => exact h
  | some route =>
    have hset : (mesh.setRoute service route).Vacant := by
      intro s c hc
      rw [lookup_setRoute] at hc
      split_ifs at hc
      · exact Option.some.inj hc ▸ h service route hroute
      · exact h s c hc
    dsimp only
    rw [h service route hroute]
    change ((mesh.setRoute service route).removeIfEmpty service).Vacant
    unfold removeIfEmpty
    split_ifs
    · intro s c hc
      rw [congrFun (lookup_erase_eq_update _ _) s, update_apply] at hc
      split_ifs at hc
      exact hset s c hc
    · exact hset

/-- **A snapshot replaces the references of the instances that it confirms.** For every mesh that
is reached, every snapshot whose addresses are of the form `host:port` and every order of the
iterations: the call returns, and each instance of the mesh that is in the snapshot with the same
address and target has another reference afterwards. So the instances are left untouched exactly
when there are none, and the records of the mesh itself leave it as it is exactly when there are
none. -/
theorem applySnapshotDiff_untouched_iff (hash : List UInt8 → U64) (hmesh : mesh.Reachable hash)
    (haddr : ∀ r ∈ records, Parses r.address) (horders : mesh.Orders records services order) :
    ∃ mesh', mesh.applySnapshotDiff hash records services order = .ok () mesh' ∧
      (∀ r ∈ records, mesh.Has r →
        mesh'.refOf r.service r.instanceId ≠ mesh.refOf r.service r.instanceId) ∧
      (Untouched records mesh mesh' ↔ ∀ r ∈ records, ¬ mesh.Has r) ∧
      (records = mesh.allRecords → (SameInstances mesh mesh' ↔ records = [])) := by
  have hnumbered := hmesh.numbered
  obtain ⟨hreturns, hfresh⟩ := hnumbered.applySnapshotDiff_spec hash haddr horders
  obtain ⟨_, mesh', happly⟩ := Outcome.returns_iff.mp hreturns
  simp only [happly, Outcome.state_ok] at hfresh
  have hne : ∀ r ∈ records, mesh.Has r →
      mesh'.refOf r.service r.instanceId ≠ mesh.refOf r.service r.instanceId := by
    intro r hr hhas heq
    obtain ⟨ref, href, hle⟩ := hfresh r hr
    obtain ⟨ref', href', hlt⟩ := hnumbered.refOf_lt hhas
    have hsame : ref = ref' := Option.some.inj (href.symm.trans (heq.trans href'))
    rw [hsame] at hle
    exact absurd hle hlt.not_ge
  refine ⟨mesh', happly, hne, ⟨fun h r hr hhas => hne r hr hhas (h r hr hhas),
    fun h r hr hhas => absurd hhas (h r hr)⟩, fun hown => ⟨fun hsame => ?_, fun hnil => ?_⟩⟩
  · -- the new reference of a record is not among those of the mesh
    refine List.eq_nil_iff_forall_not_mem.mpr fun r hr => ?_
    obtain ⟨ref, href, hle⟩ := hfresh r hr
    obtain ⟨route', hroute', href'⟩ := Option.bind_eq_some_iff.mp href
    have hmem : ref ∈ mesh.refs r.service := by
      rw [← (hsame r.service).2, refs, hroute']
      exact Cluster.refOf_mem href'
    obtain ⟨route, hroute, -⟩ := has_of_mem_allRecords (hown ▸ hr)
    rw [refs, hroute] at hmem
    exact absurd hle ((hnumbered r.service route hroute).writer_lt ref hmem).not_ge
  · -- nothing is registered
    rw [hnil] at happly horders
    have horder : order = [] := List.eq_nil_iff_forall_not_mem.mpr fun r hr => by
      obtain ⟨k, hk⟩ := horders.2.mem_iff.mp hr
      cases hk
    obtain ⟨purged, heq, hpurge, hpurged, -⟩ := hnumbered.exists_purged hash [] services
    rw [horder, heq] at happly
    obtain rfl : purged = mesh' := congrArg Outcome.state happly
    have hvacant : mesh.Vacant := vacant_of_allRecords (hown ▸ hnil)
    have hvacant' : purged.Vacant := by
      have hall := Outcome.forEach_state (l := services) (P := Vacant)
        (f := ServiceMesh.purge hash (collect ServiceRecord.key []))
        (fun service _ m hm => Vacant.purge hm hash _ service) hvacant
      rwa [hpurge] at hall
    intro service
    obtain ⟨hmembers, hrefs⟩ := hvacant.members_refs hnumbered service
    obtain ⟨hmembers', hrefs'⟩ := hvacant'.members_refs hpurged service
    exact ⟨hmembers'.trans hmembers.symm, hrefs'.trans hrefs.symm⟩

/-- An instance of a service. -/
def ordersOne : ServiceRecord := ⟨"orders", "orders-1", "127.0.0.1:9001", "orders-1", 0⟩

/-- A mesh with one instance applies its own records: the instance has another reference. -/
theorem own_records_not_untouched : ∃ mesh mesh',
    run (step fun _ => 0) new [.register ordersOne] = some mesh ∧
    mesh.records "orders" = [ordersOne] ∧ mesh.Orders [ordersOne] ["orders"] [ordersOne] ∧
    mesh.applySnapshotDiff (fun _ => 0) [ordersOne] ["orders"] [ordersOne] = .ok () mesh' ∧
    mesh.refOf "orders" "orders-1" = some ⟨"127.0.0.1:9001", "orders-1", 0⟩ ∧
    mesh'.refOf "orders" "orders-1" = some ⟨"127.0.0.1:9001", "orders-1", 1⟩ ∧
    ¬ Untouched [ordersOne] mesh mesh' := by
  refine ⟨_, _, rfl, rfl, by decide, rfl, rfl, rfl, fun h => ?_⟩
  have heq := h ordersOne List.mem_cons_self ⟨_, rfl, List.mem_cons_self⟩
  revert heq
  decide

/-- The result for a snapshot that confirms one instance and brings another. -/
theorem applySnapshotDiff_confirms : ∃ mesh mesh',
    run (step fun _ => 0) new [.register ordersOne] = some mesh ∧
    mesh.applySnapshotDiff (fun _ => 0)
      [ordersOne, ⟨"orders", "orders-2", "127.0.0.1:9002", "orders-2", 0⟩] ["orders"]
      [ordersOne, ⟨"orders", "orders-2", "127.0.0.1:9002", "orders-2", 0⟩] = .ok () mesh' ∧
    mesh'.refOf "orders" "orders-1" ≠ mesh.refOf "orders" "orders-1" := by
  have hmesh : (new.register (fun _ => 0) ordersOne).state.Reachable fun _ => 0 :=
    ⟨[.register ordersOne], rfl⟩
  have haddr : ∀ r ∈ [ordersOne, ⟨"orders", "orders-2", "127.0.0.1:9002", "orders-2", 0⟩],
      Parses r.address := by decide
  have horders : (new.register (fun _ => 0) ordersOne).state.Orders
      [ordersOne, ⟨"orders", "orders-2", "127.0.0.1:9002", "orders-2", 0⟩] ["orders"]
      [ordersOne, ⟨"orders", "orders-2", "127.0.0.1:9002", "orders-2", 0⟩] := by decide
  obtain ⟨mesh', happly, hne, -⟩ :=
    applySnapshotDiff_untouched_iff (fun _ => 0) hmesh haddr horders
  exact ⟨_, mesh', rfl, happly,
    hne ordersOne List.mem_cons_self ⟨_, rfl, List.mem_cons_self⟩⟩

end ServiceMesh

end LaneSwitchboards
