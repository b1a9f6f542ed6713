import LaneSwitchboards.Mesh.Refresh

/-!
# What a failed registration leaves behind

`register` creates the route of the service and removes the instance that it displaces before it
parses the address, and `join_mesh` calls the registry after it has changed the mesh. A
registration that unwinds leaves the routes as they were only where the service has a route and
the instance is new; a `join_mesh` that returns an error never does: `failed_registration_iff`.
-/

namespace LaneSwitchboards

open Transition

namespace Cluster

variable {hash : List UInt8 → U64} {c : Cluster} {m : ClusterMember} {w : WriterId}

/-- An upsert that unwinds has removed the member of the same name. -/
theorem Numbered.upsert_panicked (h : c.Numbered w) (haddr : ¬ Parses m.nodeAddr) :
    (c.upsert hash m w).state = c ↔ m.name ∉ c.names := by
  by_cases hany : c.members.any (·.name = m.name) = true
  · obtain ⟨m', hm', heq⟩ := List.any_eq_true.mp hany
    have hname : m.name ∈ c.names := List.mem_map.mpr ⟨m', hm', by simpa using heq⟩
    rcases h.sound.leave_spec hash m.name with ⟨hcontains, -⟩ | ⟨i, m', r, left, hleave, -⟩
    · rw [(h.inStep.ring m.name).mpr hname] at hcontains
      cases hcontains
    · have hgone := h.inStep.not_mem_names_of_leave h.sound hleave
      simp only [upsert, if_pos hany, hleave, Outcome.bind_ok, join_panicked haddr,
        Outcome.bind_panicked, Outcome.state_panicked]
      exact ⟨fun heq => absurd hname (heq ▸ hgone), fun hnew => absurd hname hnew⟩
  · have hname : m.name ∉ c.names := by
      intro hmem
      obtain ⟨m', hm', heq⟩ := List.mem_map.mp hmem
      exact hany (List.any_eq_true.mpr ⟨m', hm', by simpa using heq⟩)
    simp only [upsert, if_neg hany, Outcome.bind_ok, join_panicked haddr, Outcome.bind_panicked,
      Outcome.state_panicked, hname, not_false_eq_true]

end Cluster

namespace ServiceMesh

variable (hash : List UInt8 → U64)

/-- `join_mesh`: register an instance locally, then with the registry at an address. What the
registry client returns for an address and a record is a parameter. -/
def joinMesh {ε : Type} (mesh : ServiceMesh) (registryAddr : Option String)
    (record : ServiceRecord) (client : String → ServiceRecord → Except ε Unit) :
    Outcome ServiceMesh (Except ε Unit) :=
  (mesh.register hash record).bind fun _ mesh =>
    match registryAddr with
    | none => .ok (.ok ()) mesh
    | some addr => .ok (client addr record) mesh

/-- The call unwinds or returns an error. -/
def Fails {ε : Type} : Outcome ServiceMesh (Except ε Unit) → Prop
  | .ok (.ok ()) _ => False
  | .ok (.error _) _ => True
  | .panicked _ => True

/-- The service has a route without the instance of the record. -/
def Admits (mesh : ServiceMesh) (record : ServiceRecord) : Prop :=
  ∃ route, mesh.routes.lookup record.service = some route ∧ record.instanceId ∉ route.names

variable {hash} {ε : Type} {mesh : ServiceMesh} {record : ServiceRecord}
  {registryAddr : Option String} {client : String → ServiceRecord → Except ε Unit}

/-- A registration that unwinds. -/
theorem Numbered.register_panicked (h : mesh.Numbered) (haddr : ¬ Parses record.address) :
    (mesh.register hash record).state.routes = mesh.routes ↔ mesh.Admits record := by
  have hstate : (mesh.register hash record).state.routes =
      mesh.routes.insert record.service (((mesh.routes.lookup record.service).getD .new).upsert
        hash record.member mesh.writers).state := by
    rw [register, Outcome.bind_ok_state, Outcome.state_mapState]
    rfl
  have hlookup (s : String) := lookup_insert_eq_ite mesh.routes record.service s
    (((mesh.routes.lookup record.service).getD .new).upsert hash record.member mesh.writers).state
  rw [hstate]
  constructor
  · intro heq
    have hnew := hlookup record.service
    rw [heq, if_pos rfl] at hnew
    cases hroute : mesh.routes.lookup record.service with
    | none =>
      rw [hroute] at hnew
      cases hnew
    | some route =>
      rw [hroute, Option.getD_some, Option.some.injEq] at hnew
      have haddr' : ¬ Parses record.member.nodeAddr := haddr
      exact ⟨route, hroute, ((h _ route hroute).upsert_panicked haddr').mp hnew.symm⟩
  · rintro ⟨route, hroute, hnew⟩
    refine Finmap.ext_lookup fun s => ?_
    rw [hlookup]
    split_ifs with hs
    · rw [hs, hroute, Option.getD_some]
      exact congrArg some (((h _ route hroute).upsert_panicked (m := record.member) haddr).mpr hnew)
    · rfl

/-- A registration that returns changes the routes. -/
theorem Numbered.register_routes_ne (h : mesh.Numbered) (haddr : Parses record.address) :
    (mesh.register hash record).state.routes ≠ mesh.routes := by
  obtain ⟨-, -, hfresh, -⟩ := h.register_spec hash record
  intro heq
  have href : mesh.refOf record.service record.instanceId =
      some (record.member.remoteRefWith mesh.writers) := by
    rw [← hfresh haddr, refOf, refOf, heq]
  obtain ⟨route, hroute, href⟩ := Option.bind_eq_some_iff.mp href
  exact absurd ((h _ route hroute).writer_lt _ (Cluster.refOf_mem href)) (Nat.lt_irrefl _)

/-- What `join_mesh` leaves behind is what the registration does. -/
theorem state_joinMesh :
    (mesh.joinMesh hash registryAddr record client).state = (mesh.register hash record).state := by
  unfold joinMesh
  cases mesh.register hash record with
  | ok displaced mesh' => cases registryAddr <;> rfl
  | panicked mesh' => rfl

/-- `join_mesh` fails on an address that does not parse, and where the registry client fails. -/
theorem Sound.joinMesh_fails (h : mesh.Sound) :
    Fails (mesh.joinMesh hash registryAddr record client) ↔
      ¬ Parses record.address ∨ ∃ addr e, registryAddr = some addr ∧
        client addr record = .error e := by
  have hreturns := (h.register_spec hash record).2.1
  unfold joinMesh
  cases hregister : mesh.register hash record with
  | panicked mesh' =>
    have haddr : ¬ Parses record.address := fun hp => by
      have hret := hreturns.mpr hp
      rw [hregister] at hret
      cases hret
    exact iff_of_true trivial (Or.inl haddr)
  | ok displaced mesh' =>
    have haddr : Parses record.address := hreturns.mp (by rw [hregister]; rfl)
    cases registryAddr with
    | none => simp [Fails, haddr]
    | some addr => cases hclient : client addr record <;> simp [Fails, haddr, hclient]

/-- **A registration that fails.** For every mesh that is reached, every record and every outcome
of the registry client: a `register` that unwinds leaves the routes as they were exactly where
the service has a route without the instance, and a `join_mesh` that fails exactly where it
unwinds in this case. -/
theorem failed_registration_iff (hash : List UInt8 → U64) (hmesh : mesh.Reachable hash)
    (record : ServiceRecord) (registryAddr : Option String)
    (client : String → ServiceRecord → Except ε Unit) :
    (((mesh.register hash record).returns = false →
        (mesh.register hash record).state.routes = mesh.routes) ↔
      Parses record.address ∨ mesh.Admits record) ∧
    ((Fails (mesh.joinMesh hash registryAddr record client) →
        (mesh.joinMesh hash registryAddr record client).state.routes = mesh.routes) ↔
      if Parses record.address then ∀ addr, registryAddr = some addr → client addr record = .ok ()
      else mesh.Admits record) := by
  have h := hmesh.numbered
  rw [h.sound.joinMesh_fails, state_joinMesh]
  by_cases haddr : Parses record.address
  · have hreturns := (h.sound.register_spec hash record).2.1.mpr haddr
    rw [if_pos haddr, hreturns]
    refine ⟨⟨fun _ => Or.inl haddr, fun _ hfalse => by cases hfalse⟩, fun hsame addr hsome => ?_,
      fun hclient hfails => ?_⟩
    · cases hclient : client addr record with
      | ok _ => rfl
      | error e =>
        have hroutes := hsame (Or.inr ⟨addr, e, hsome, hclient⟩)
        exact absurd hroutes (h.register_routes_ne haddr)
    · obtain hfalse | ⟨addr, e, hsome, herror⟩ := hfails
      · exact absurd haddr hfalse
      · rw [hclient addr hsome] at herror
        cases herror
  · rw [if_neg haddr, register_panicked haddr, ← h.register_panicked haddr]
    exact ⟨⟨fun hsame => Or.inr (hsame rfl), fun hor _ => hor.resolve_left haddr⟩,
      fun hsame => hsame (Or.inl haddr), fun hroutes _ => hroutes⟩

/-- The result for a mesh with one instance and a registry that cannot be reached. -/
theorem failed_registration_orders : ∃ mesh,
    run (step fun _ => 0) new [.register ordersOne] = some mesh ∧
    ¬ (Fails (mesh.joinMesh (fun _ => 0) (some "127.0.0.1:9000")
        ⟨"orders", "orders-2", "127.0.0.1:9002", "orders-2", 0⟩
        fun _ _ => .error "connection refused") →
      (mesh.joinMesh (fun _ => 0) (some "127.0.0.1:9000")
        ⟨"orders", "orders-2", "127.0.0.1:9002", "orders-2", 0⟩
        fun _ _ => .error "connection refused").state.routes = mesh.routes) := by
  have hmesh : (new.register (fun _ => 0) ordersOne).state.Reachable fun _ => 0 :=
    ⟨[.register ordersOne], rfl⟩
  obtain ⟨-, hjoin⟩ := failed_registration_iff (fun _ => 0) hmesh
    ⟨"orders", "orders-2", "127.0.0.1:9002", "orders-2", 0⟩ (some "127.0.0.1:9000")
    fun _ _ => .error "connection refused"
  refine ⟨_, rfl, fun hsame => ?_⟩
  have haddr : Parses "127.0.0.1:9002" := by decide
  have hclient := hjoin.mp hsame
  rw [if_pos haddr] at hclient
  cases hclient _ rfl

/-- A new service whose address does not parse is left with an empty route, an instance that
registers with such an address is gone, and an instance that the registry refuses stays. -/
theorem failed_registration_changes : ∃ mesh empty gone kept,
    run (step fun _ => 0) new [.register ordersOne] = some mesh ∧
    mesh.register (fun _ => 0) ⟨"stock", "stock-1", "stock", "stock-1", 0⟩ = .panicked empty ∧
    (empty.routes.lookup "stock").map Cluster.members = some [] ∧
    mesh.routes.lookup "stock" = none ∧
    mesh.register (fun _ => 0) { ordersOne with address := "orders" } = .panicked gone ∧
    gone.members "orders" = [] ∧ mesh.members "orders" = [ordersOne.member] ∧
    mesh.joinMesh (fun _ => 0) (some "127.0.0.1:9000")
      ⟨"orders", "orders-2", "127.0.0.1:9002", "orders-2", 0⟩
      (fun _ _ => .error "connection refused") = .ok (.error "connection refused") kept ∧
    kept.members "orders" =
      [ordersOne.member, ⟨"orders-2", "127.0.0.1:9002", "orders-2"⟩] :=
  ⟨_, _, _, _, rfl, rfl, rfl, rfl, rfl, rfl, rfl, rfl, rfl⟩

end ServiceMesh

end LaneSwitchboards
