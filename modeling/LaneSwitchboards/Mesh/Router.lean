import LaneSwitchboards.Mesh.Directory
import LaneSwitchboards.Mesh.Effects
import LaneSwitchboards.Mesh.Lease
import LaneSwitchboards.Mesh.Listing

/-!
# Routers that sync from a registry

A `MeshRouter` keeps its view of the mesh and a client of the registry. `sync` asks for the list
and applies it; between the two, the client and the loop of its connection take their steps, and
the registry may change at any time. A `sync` that returns `Ok` leaves exactly the records in the
mesh that the registry showed at one moment between its beginning and its return (`sync_fresh`);
one that fails leaves the mesh as it is.
-/

namespace LaneSwitchboards

open Function Transition

/-! ### The model -/

/-- Sidecar router: its view of the mesh, and its client of the registry if it has one. -/
structure MeshRouter where
  mesh : ServiceMesh
  client : Option ClientSession
  /-- The request under way is that of a `sync`. -/
  syncing : Bool

/-- One event of a router. -/
inductive RouterEvent
  /-- A call on the public mesh of the router. -/
  | mesh (op : MeshOp)
  | sync
  /-- An event of the client. Where it ends a `sync`, the snapshot is applied in these orders. -/
  | client (e : StreamEvent) (services : List String) (order : List ServiceRecord)

/-- The records that a call has just returned. -/
def ClientSession.listed (s s' : ClientSession) : Option (List ServiceRecord) :=
  match s'.replies.drop s.replies.length with
  | [(_, ⟨_, _, _, .listReply records⟩)] => some records
  | _ => none

namespace MeshRouter

/-- `MeshRouter::local`. -/
def localOnly : MeshRouter := ⟨.new, none, false⟩

/-- `MeshRouter::with_registry`. -/
def withRegistry (reg : MeshRegistry) : MeshRouter := ⟨.new, some (.new reg), false⟩

/-- No request of the router is under way. -/
def Idle (r : MeshRouter) : Prop := ∀ s, r.client = some s → s.phase = .idle

instance (r : MeshRouter) : Decidable r.Idle :=
  match h : r.client with
  | none => .isTrue fun s hs => by rw [h] at hs; cases hs
  | some s => decidable_of_iff (s.phase = .idle)
      ⟨fun hidle t ht => by rw [h] at ht; cases ht; exact hidle, fun hidle => hidle s h⟩

/-- The snapshot that an event of the client hands to the mesh. -/
def snapshot (r : MeshRouter) (s s' : ClientSession) : Option (List ServiceRecord) :=
  if r.syncing ∧ s'.phase = .idle then s.listed s' else none

variable (hash : List UInt8 → U64) (codec : ControlCodec)

def step (r : MeshRouter) : RouterEvent → Option MeshRouter
  -- a request borrows the router, and with it the mesh
  | .mesh op => if r.Idle then (r.mesh.step hash op).map fun mesh => { r with mesh } else none
  | .sync =>
    match r.client with
    | none => some r
    | some s => (s.step codec (.call .list)).map fun s' =>
      { r with client := some s', syncing := s'.phase ≠ .idle }
  | .client e services order => r.client.bind fun s => (s.step codec e).bind fun s' =>
    let r' := { r with client := some s', syncing := r.syncing && s'.phase ≠ .idle }
    match r.snapshot s s' with
    | none => some r'
    | some records => (r.mesh.step hash (.apply records services order)).map fun mesh =>
      { r' with mesh }

/-- The events of the client. -/
def events (_ : MeshRouter) : RouterEvent → MeshRouter → List StreamEvent
  | .mesh _, _ => []
  | .sync, _ => [.call .list]
  | .client e _ _, _ => [e]

/-- The calls on the mesh. -/
def applied (r : MeshRouter) : RouterEvent → MeshRouter → List MeshOp
  | .mesh op, _ => [op]
  | .sync, _ => []
  | .client _ services order, r' =>
    match r.client, r'.client with
    | some s, some s' => (r.snapshot s s').toList.map fun records => .apply records services order
    | _, _ => []

/-- The frames that the loops of the client's connections take. -/
def handled (r : MeshRouter) : RouterEvent → MeshRouter → List (ConnId × Exchange)
  | .client e _ _, r' =>
    match r.client, r'.client with
    | some s, some s' => s.handled codec e s'
    | _, _ => []
  | .mesh _, _ | .sync, _ => []

variable {hash codec} {r r' : MeshRouter} {s s' : ClientSession} {e : RouterEvent}

/-- **A step as a step of the client.** -/
theorem client_of_step (hs : r.client = some s) (hst : r.step hash codec e = some r') :
    ∃ s', s.run codec (r.events e r') = some s' ∧ r'.client = some s' ∧
      trace (ClientSession.step codec) (ClientSession.handled codec) s (r.events e r') =
        r.handled codec e r' := by
  cases e with
  | mesh op =>
    simp only [step] at hst
    split_ifs at hst
    obtain ⟨mesh, -, rfl⟩ := Option.map_eq_some_iff.mp hst
    exact ⟨s, rfl, hs, rfl⟩
  | sync =>
    simp only [step, hs] at hst
    obtain ⟨s', hcall, rfl⟩ := Option.map_eq_some_iff.mp hst
    refine ⟨s', run_one.mpr hcall, rfl, ?_⟩
    rw [events, trace_cons_of_step hcall]
    rfl
  | client e services order =>
    simp only [step, hs, Option.bind_some] at hst
    obtain ⟨s', hse, hst⟩ := Option.bind_eq_some_iff.mp hst
    have hclient : r'.client = some s' := by
      split at hst
      · obtain rfl := Option.some.inj hst
        rfl
      · obtain ⟨mesh, -, rfl⟩ := Option.map_eq_some_iff.mp hst
        rfl
    refine ⟨s', run_one.mpr hse, hclient, ?_⟩
    rw [events, trace_cons_of_step hse, trace_nil, List.append_nil, handled]
    simp only [hs, hclient]

/-- **A step as calls on the mesh.** -/
theorem mesh_of_step (hst : r.step hash codec e = some r') :
    run (ServiceMesh.step hash) r.mesh (r.applied e r') = some r'.mesh := by
  cases e with
  | mesh op =>
    simp only [step] at hst
    split_ifs at hst
    obtain ⟨mesh, hop, rfl⟩ := Option.map_eq_some_iff.mp hst
    exact run_one.mpr hop
  | sync =>
    simp only [step] at hst
    split at hst
    · obtain rfl := Option.some.inj hst
      rfl
    · obtain ⟨s', -, rfl⟩ := Option.map_eq_some_iff.mp hst
      rfl
  | client e services order =>
    simp only [step] at hst
    obtain ⟨s, hs, hst⟩ := Option.bind_eq_some_iff.mp hst
    obtain ⟨s', -, hst⟩ := Option.bind_eq_some_iff.mp hst
    split at hst
    · next hsnapshot =>
      obtain rfl := Option.some.inj hst
      simp only [applied, hs, hsnapshot, Option.toList_none, List.map_nil, run_nil]
    · next records hsnapshot =>
      obtain ⟨mesh, happly, rfl⟩ := Option.map_eq_some_iff.mp hst
      simp only [applied, hs, hsnapshot, Option.toList_some, List.map_singleton]
      exact run_one.mpr happly

end MeshRouter

/-! ### The environment -/

namespace MeshRegistry

instance (reg : MeshRegistry) : Decidable reg.Keyed :=
  decidable_of_iff (∀ p ∈ reg.records.entries, p.2.key = p.1)
    ⟨fun h k r hr => h ⟨k, r⟩ (Finmap.mem_lookup_iff.mp hr),
      fun h p hp => h p.1 p.2 (Finmap.mem_lookup_iff.mpr hp)⟩

instance (reg : MeshRegistry) (now : ℕ) (records : List ServiceRecord) :
    Decidable (reg.Lists now records) := decidable_of_iff _ lists_iff.symm

variable {reg : MeshRegistry} {now : ℕ} {list : List ServiceRecord}

theorem Keyed.handle (h : reg.Keyed) (msg : MeshControlMsg) :
    (reg.handle now list msg).1.Keyed := by
  have hop (op : RegistryOp) {reg' : MeshRegistry} : reg.step op = some reg' → reg'.Keyed := h.step
  cases msg with
  | register record => exact hop (.register record now) rfl
  | deregister service instanceId => exact hop (.deregister service instanceId) rfl
  | list | listReply | ping | pong => exact h

end MeshRegistry

/-- **A listing as a directory** is what the registry shows. -/
theorem MeshRegistry.Lists.lookup_apply {reg : MeshRegistry} {now : ℕ}
    {records order : List ServiceRecord} {services : List String} (h : reg.Lists now records)
    (hreg : reg.Keyed) (d : Directory) (k : String × String) :
    (d.step (.apply records services order)).lookup k =
      ((reg.visible now).lookup k).map ServiceRecord.endpoint := by
  have hnodup := h.nodup hreg
  have hcollect : (collect ServiceRecord.key records).lookup k = (reg.visible now).lookup k := by
    refine Option.ext fun r => ?_
    rw [lookup_visible, Option.filter_eq_some_iff, Bool.not_eq_true']
    constructor
    · intro hr
      obtain ⟨hmem, rfl⟩ := of_lookup_collect hr
      exact ((h.spec hreg).2 r).mp hmem
    · rintro ⟨hr, hlive⟩
      obtain rfl := hreg k r hr
      exact lookup_collect_of_nodup hnodup (((h.spec hreg).2 r).mpr ⟨hr, hlive⟩)
  rw [Directory.step, lookup_foldl_insert, ← lookup_collect, hcollect]
  simp

/-- A turn of a loop leaves the registry as it is, or handles a message. -/
theorem ControlConn.registry_of_serve {codec : ControlCodec} {conn conn' : ControlConn}
    {reg reg' : MeshRegistry} {now : ℕ} {list : List ServiceRecord}
    (h : conn.serve codec reg now list = some (conn', reg')) :
    reg' = reg ∨ ∃ msg, reg' = (reg.handle now list msg).1 := by
  unfold serve at h
  split_ifs at h
  split at h
  · next msg rest _ =>
    dsimp only at h
    split at h
    · next hhandle =>
      cases h
      exact .inr ⟨msg, by rw [hhandle]⟩
    · next hhandle =>
      split at h
      · cases h
        exact .inr ⟨msg, by rw [hhandle]⟩
      · cases h
        exact .inr ⟨msg, by rw [hhandle]⟩
  · cases h
    exact .inl rfl
  · cases h
    exact .inl rfl

namespace ClientSession

variable {codec : ControlCodec} {s s' : ClientSession} {e : StreamEvent} {c : ConnId}
  {x : Exchange} {records : List ServiceRecord}

/-- A loop lists the registry as it is, and others keep its records under their keys. -/
def Honest (s : ClientSession) : StreamEvent → Prop
  | .serve _ now list => s.registry.Lists now list
  | .registry reg => reg.Keyed
  | _ => True

instance (s : ClientSession) : ∀ e, Decidable (s.Honest e)
  | .serve _ now list => inferInstanceAs (Decidable (s.registry.Lists now list))
  | .registry reg => inferInstanceAs (Decidable reg.Keyed)
  | .call _ | .connected | .send | .receive | .eof | .timeout | .ioError | .drop | .reply _
  | .close _ => .isTrue trivial

/-- The registry keeps its records under their keys. -/
theorem keyed_of_step (h : s.registry.Keyed) (hhonest : s.Honest e)
    (hst : s.step codec e = some s') : s'.registry.Keyed := by
  cases move_of_step hst with
  | rest called wrote handled registry conns replies phase =>
    rcases registry with hsame | he
    · rwa [hsame]
    · rw [he] at hhonest
      exact hhonest
  | call call idle registry conns replies phase => rwa [registry]
  | connected call connecting registry conns replies phase => rwa [registry]
  | send call requestAt sent b rest c conn writing stream hc => exact h
  | receive call requestAt replyAt got b c conn reading stream hc => rwa [registry_got]
  | serve c now list conn conn' reg hc hserve =>
    rcases ControlConn.registry_of_serve hserve with rfl | ⟨msg, rfl⟩
    · exact h
    · exact h.handle msg
  | loop c conn conn' called wrote handled hc toServer taken exchanges loop => exact h

/-- An answer with a list is a listing of the registry. -/
theorem lists_of_handled (hhonest : s.Honest e) (h : (c, x) ∈ s.handled codec e s')
    (hreply : x.reply = .listReply records) :
    ∃ now, e = .serve c now records ∧ s.registry.Lists now records := by
  cases e with
  | serve c' now list =>
    simp only [handled] at h
    split at h
    · exact absurd h List.not_mem_nil
    · split at h
      · next msg rest _ =>
        obtain ⟨reply, hmem, hx⟩ := List.mem_map.mp h
        obtain ⟨rfl, rfl⟩ := Prod.mk.inj hx
        have hanswer : (s.registry.handle now list msg).2 = some reply :=
          Option.mem_toList.mp hmem
        obtain rfl : reply = .listReply records := hreply
        cases msg with
        | list =>
          obtain rfl : list = records := by simpa [MeshRegistry.handle] using hanswer
          exact ⟨now, rfl, hhonest⟩
        | register | deregister | listReply | ping | pong =>
          simp [MeshRegistry.handle] at hanswer
      · exact absurd h List.not_mem_nil
      · exact absurd h List.not_mem_nil
  | _ => exact absurd h List.not_mem_nil

/-- The call has returned the last of the replies. -/
theorem mem_replies_of_listed (h : s.listed s' = some records) :
    ∃ c x, (c, x) ∈ s'.replies.drop s.replies.length ∧ x.reply = .listReply records := by
  unfold listed at h
  split at h
  · next c requestAt request replyAt list hdrop =>
    obtain rfl := Option.some.inj h
    rw [hdrop]
    exact ⟨c, _, List.mem_cons_self, rfl⟩
  · cases h

end ClientSession

/-! ### Main result -/

namespace MeshRouter

variable {hash : List UInt8 → U64} {codec : ControlCodec} {r r' r'' : MeshRouter}
  {e : RouterEvent} {es fs : List RouterEvent} {f : StreamEvent} {reg : MeshRegistry}
  {s : ClientSession}
  {services : List String} {records order : List ServiceRecord}

/-- The client drops no request of which a byte is sent, and its environment is honest. -/
def Sane (r : MeshRouter) : RouterEvent → Prop
  | .client e _ _ => ∀ s, r.client = some s → ¬ s.Abandons e ∧ s.Honest e
  | .mesh _ | .sync => True

instance (r : MeshRouter) : ∀ e, Decidable (r.Sane e)
  | .client e _ _ =>
    match h : r.client with
    | none => .isTrue fun s hs => by rw [h] at hs; cases hs
    | some s => decidable_of_iff (¬ s.Abandons e ∧ s.Honest e)
        ⟨fun hsane t ht => by rw [h] at ht; cases ht; exact hsane, fun hsane => hsane s h⟩
  | .mesh _ | .sync => .isTrue trivial

/-- The events of the client are sane. -/
theorem along_events (hs : r.client = some s) (hsane : r.Sane e)
    (hst : r.step hash codec e = some r') :
    Along (ClientSession.step codec) (fun s e _ => ¬ s.Abandons e ∧ s.Honest e) s
      (r.events e r') := by
  cases e with
  | mesh op => trivial
  | sync => exact fun _ _ => ⟨⟨id, trivial⟩, trivial⟩
  | client e services order => exact fun _ _ => ⟨hsane s hs, trivial⟩

/-- **A run as a run of the client**, with the frames that are taken in it. -/
theorem client_of_run (hs : r.client = some s)
    (hsane : Along (step hash codec) (fun r e _ => r.Sane e) r es)
    (hrun : run (step hash codec) r es = some r') :
    ∃ s', s.run codec (trace (step hash codec) events r es) = some s' ∧ r'.client = some s' ∧
      Along (ClientSession.step codec) (fun s e _ => ¬ s.Abandons e ∧ s.Honest e) s
        (trace (step hash codec) events r es) ∧
      trace (ClientSession.step codec) (ClientSession.handled codec) s
        (trace (step hash codec) events r es) = trace (step hash codec) (handled codec) r es := by
  have hsim {r r' : MeshRouter} {s : ClientSession} {e : RouterEvent} (hs : r.client = some s)
      (hst : r.step hash codec e = some r') :
      ∃ s', s.run codec (r.events e r') = some s' ∧ r'.client = some s' :=
    (client_of_step hs hst).imp fun _ h => ⟨h.1, h.2.1⟩
  obtain ⟨s', hs', hclient⟩ := run_trace (g := events)
    (R := fun (r : MeshRouter) (s : ClientSession) => r.client = some s) hsim hs hrun
  refine ⟨s', hs', hclient, ?_, ?_⟩
  · exact along_trace (g := events)
      (R := fun (r : MeshRouter) (s : ClientSession) => r.client = some s)
      (fun hs hsane hst => (client_of_step hs hst).imp fun _ h =>
        ⟨h.1, h.2.1, along_events hs hsane hst⟩) hs hsane
  · exact trace_trace (g := events)
      (R := fun (r : MeshRouter) (s : ClientSession) => r.client = some s)
      (fun hs hst => client_of_step hs hst) hs hrun

/-- The mesh of a run is that of the calls on it. -/
theorem mesh_of_run (hrun : run (step hash codec) r es = some r') :
    run (ServiceMesh.step hash) r.mesh (trace (step hash codec) applied r es) = some r'.mesh := by
  obtain ⟨mesh, hmesh, heq⟩ := run_trace (g := applied)
    (R := fun (r : MeshRouter) (mesh : ServiceMesh) => r.mesh = mesh)
    (fun {r mesh e r'} hr hst => ⟨r'.mesh, hr ▸ mesh_of_step hst, rfl⟩) rfl hrun
  rw [hmesh, heq]

/-- The registry of the client keeps its records under their keys. -/
theorem keyed_of_run (hs : r.client = some s) (hkeyed : s.registry.Keyed)
    (hsane : Along (step hash codec) (fun r e _ => r.Sane e) r es)
    (hrun : run (step hash codec) r es = some r') :
    ∃ s', r'.client = some s' ∧ s'.registry.Keyed := by
  obtain ⟨s', hrun', hclient, halong, -⟩ := client_of_run hs hsane hrun
  refine ⟨s', hclient, invariant_along (P := fun s : ClientSession => s.registry.Keyed) ?_ hkeyed
    halong hrun'⟩
  exact fun hkeyed hstep hst => ClientSession.keyed_of_step hkeyed hstep.2 hst

/-- A snapshot that is applied is one that the client has just got. -/
theorem listed_of_applied
    (h : r.applied (.client f services order) r' = [.apply records services order]) :
    ∃ s s', r.client = some s ∧ r'.client = some s' ∧ s.listed s' = some records := by
  simp only [applied] at h
  split at h
  · next s s' hs hs' =>
    refine ⟨s, s', hs, hs', ?_⟩
    cases hsnapshot : r.snapshot s s' with
    | none =>
      rw [hsnapshot] at h
      cases h
    | some records' =>
      rw [hsnapshot] at h
      obtain rfl : records' = records := by simpa using h
      unfold snapshot at hsnapshot
      split_ifs at hsnapshot
      exact hsnapshot
  · cases h

/-- The answer that a call of a run has returned, as a listing of the registry in this run. -/
theorem listing_of_run (hcodec : codec.Lawful) (hreg : reg.Keyed)
    (hsane : Along (step hash codec) (fun r e _ => r.Sane e) (withRegistry reg) (es ++ fs))
    (hrun : run (step hash codec) (withRegistry reg) es = some r) (hidle : r.Idle)
    (hrest : run (step hash codec) r fs = some r') (hs : r.client = some s) {s' : ClientSession}
    (hs' : r'.client = some s') {c : ConnId} {x : Exchange}
    (hx : (c, x) ∈ s'.replies.drop s.replies.length) (hreply : x.reply = .listReply records) :
    ∃ fs₁ c now services' order' fs₂ t u,
      fs = fs₁ ++ .client (.serve c now records) services' order' :: fs₂ ∧
      run (step hash codec) r fs₁ = some t ∧ t.client = some u ∧ u.registry.Keyed ∧
        u.registry.Lists now records := by
  obtain ⟨hsane₁, hsane₂⟩ := along_append.mp hsane
  obtain ⟨s₁, hrun₁, hs₁, halong₁, -⟩ := client_of_run (s := .new reg) rfl hsane₁ hrun
  obtain rfl : s = s₁ := Option.some.inj (hs.symm.trans hs₁)
  obtain ⟨s₂, hrun₂, hs₂, halong₂, htaken⟩ := client_of_run hs (hsane₂ r hrun) hrest
  obtain rfl : s' = s₂ := Option.some.inj (hs'.symm.trans hs₂)
  have hkept : Along (ClientSession.step codec) (fun s e _ => ¬ s.Abandons e) (.new reg)
      (trace (step hash codec) events (withRegistry reg) es ++
        trace (step hash codec) events r fs) := by
    refine along_append.mpr ⟨halong₁.mono fun h => h.1, fun u hu => ?_⟩
    obtain rfl : s = u := Option.some.inj (hrun₁.symm.trans hu)
    exact halong₂.mono fun h => h.1
  have hanswers := ClientSession.answers_of_run hcodec hkept hrun₁ (hidle s hs) hrun₂
  have hmem := hanswers.replies.subset hx
  rw [htaken] at hmem
  -- the step at which the loop took the frame
  obtain ⟨fs₁, e, fs₂, t, t', rfl, ht, hst, hhandled⟩ := exists_of_mem_trace hmem
  obtain ⟨hsane₂, hsane₃⟩ := along_append.mp (hsane₂ r hrun)
  obtain ⟨hsane₃, -⟩ := hsane₃ t ht t' hst
  obtain ⟨u₁, hu₁, hkeyed⟩ := keyed_of_run (s := .new reg) rfl hreg hsane₁ hrun
  obtain rfl : s = u₁ := Option.some.inj (hs.symm.trans hu₁)
  obtain ⟨u, hu, hkeyed⟩ := keyed_of_run hs hkeyed hsane₂ ht
  cases e with
  | mesh op => exact absurd hhandled List.not_mem_nil
  | sync => exact absurd hhandled List.not_mem_nil
  | client e services' order' =>
    obtain ⟨u', -, hu', -⟩ := client_of_step hu hst
    simp only [handled, hu, hu'] at hhandled
    obtain ⟨now, rfl, hlists⟩ := ClientSession.lists_of_handled (hsane₃ u hu).2 hhandled hreply
    exact ⟨fs₁, _, now, services', order', fs₂, t, u, rfl, ht, hu, hkeyed, hlists⟩

/-- **A `sync` that returns `Ok` is fresh.** From any moment on at which no request of the router
is under way, and until the end of a `sync`, the client, the loops and the registry take any steps,
as long as no request is dropped after a byte of it is sent and all addresses parse. Then the
snapshot is applied without a panic, and there was a step since that moment at which the registry
showed exactly what is now in the mesh. -/
theorem sync_fresh (hcodec : codec.Lawful) (hreg : reg.Keyed)
    (hsane : Along (step hash codec) (fun r e _ => r.Sane e) (withRegistry reg)
      (es ++ (fs ++ [.client f services order])))
    (haddr : ∀ op ∈ trace (step hash codec) applied (withRegistry reg)
      (es ++ (fs ++ [.client f services order])), op.Addressed)
    (hrun : run (step hash codec) (withRegistry reg) es = some r) (hidle : r.Idle)
    (hrest : run (step hash codec) r fs = some r')
    (hlast : r'.step hash codec (.client f services order) = some r'')
    (hends : r'.applied (.client f services order) r'' = [.apply records services order]) :
    r'.mesh.applySnapshotDiff hash records services order = .ok () r''.mesh ∧
      ∃ fs₁ c now services' order' fs₂ t s,
        fs ++ [.client f services order] =
          fs₁ ++ .client (.serve c now records) services' order' :: fs₂ ∧
        run (step hash codec) r fs₁ = some t ∧ t.client = some s ∧
        ∀ service m, r''.mesh.Holds service m ↔
          ∃ record, (s.registry.visible now).lookup (service, m.name) = some record ∧
            record.endpoint = m.endpoint := by
  have hall := run_concat.mpr ⟨r', hrest, hlast⟩
  -- the reply of the last call is a listing since the moment of `r`
  obtain ⟨s', s'', hs', hs'', hlisted⟩ := listed_of_applied hends
  obtain ⟨s, hs⟩ : ∃ s, r.client = some s := by
    obtain ⟨s, -, hs, -⟩ := client_of_run (s := .new reg) rfl (along_append.mp hsane).1 hrun
    exact ⟨s, hs⟩
  obtain ⟨c, x, hx, hreply⟩ := ClientSession.mem_replies_of_listed hlisted
  have hle : s.replies.length ≤ s'.replies.length := by
    have hsane' := (along_append.mp ((along_append.mp hsane).2 r hrun)).1
    obtain ⟨u, hu, hclient, -⟩ := client_of_run hs hsane' hrest
    obtain rfl : s' = u := Option.some.inj (hs'.symm.trans hclient)
    exact invariant_run (P := fun u : ClientSession => s.replies.length ≤ u.replies.length)
      (fun hle hst => hle.trans (ClientSession.length_replies_of_step hst)) le_rfl hu
  obtain ⟨fs₁, c, now, services', order', fs₂, t, u, hsplit, ht, hu, hkeyed, hlists⟩ :=
    listing_of_run hcodec hreg hsane hrun hidle hall hs hs''
      (List.drop_subset_drop_left _ hle hx) hreply
  -- the mesh is a directory before the snapshot, and so after it
  have hops := mesh_of_run (run_trans hrun hrest)
  have hsplits : trace (step hash codec) applied (withRegistry reg)
      (es ++ (fs ++ [.client f services order])) =
      trace (step hash codec) applied (withRegistry reg) (es ++ fs) ++
        [.apply records services order] := by
    rw [← List.append_assoc, trace_concat (run_trans hrun hrest) hlast, hends]
  rw [hsplits] at haddr
  have hrepresents := ServiceMesh.represents_run hash Set.univ (fun op hop =>
    ⟨haddr op (List.mem_append_left _ hop), Set.subset_univ _⟩) hops
  have hstep := mesh_of_step hlast
  rw [hends, run_one, ServiceMesh.step, Option.ite_none_right_eq_some] at hstep
  obtain ⟨horders, hstate⟩ := hstep
  obtain ⟨mesh, happly, hmesh⟩ := hrepresents.applySnapshotDiff horders
    (haddr _ (List.mem_append_right _ List.mem_cons_self)) fun _ _ => Set.mem_univ _
  rw [happly, Option.some.injEq] at hstate
  obtain rfl : mesh = r''.mesh := hstate
  refine ⟨happly, fs₁, c, now, services', order', fs₂, t, u, hsplit, ht, hu, fun service m => ?_⟩
  rw [hmesh.entries, hlists.lookup_apply hkeyed, Option.map_eq_some_iff]

/-- An instance `i` of a service `s`, registered at second 5. -/
def listedRecord : ServiceRecord := ⟨"s", "i", "h:1", "t", 5⟩

/-- The codec of the messages below. -/
def snapshotCodec : ControlCodec := tableCodec [.list, .listReply [listedRecord], .pong]

theorem lawful_snapshotCodec : snapshotCodec.Lawful :=
  lawful_tableCodec (by decide +kernel) (by decide +kernel) (by decide +kernel)

/-- A registry with one record. -/
def oneListed : MeshRegistry := .register .new listedRecord 5

/-- A `sync`, up to the last byte of the reply. -/
def syncOne : List RouterEvent :=
  [.sync, .client .connected [] []] ++ List.replicate 10 (.client .send [] []) ++
    [.client (.serve 0 5 [listedRecord]) [] []] ++ List.replicate 100 (.client (.reply 0) [] []) ++
    List.replicate 99 (.client .receive [] [])

deriving instance DecidableEq for MeshOp

/-- The result for one `sync`: the mesh then holds what the registry showed when it answered. -/
theorem sync_fresh_one : ∃ r' r'',
    run (step (fun _ => 0) snapshotCodec) (withRegistry oneListed) syncOne = some r' ∧
    r'.step (fun _ => 0) snapshotCodec (.client .receive [] [listedRecord]) = some r'' ∧
    r'.mesh.applySnapshotDiff (fun _ => 0) [listedRecord] [] [listedRecord] = .ok () r''.mesh ∧
    ∃ fs₁ c now services' order' fs₂ t s,
      syncOne ++ [.client .receive [] [listedRecord]] =
        fs₁ ++ .client (.serve c now [listedRecord]) services' order' :: fs₂ ∧
      run (step (fun _ => 0) snapshotCodec) (withRegistry oneListed) fs₁ = some t ∧
      t.client = some s ∧
      ∀ service m, r''.mesh.Holds service m ↔
        ∃ record, (s.registry.visible now).lookup (service, m.name) = some record ∧
          record.endpoint = m.endpoint := by
  have hends : (run (step (fun _ => 0) snapshotCodec) (withRegistry oneListed) syncOne).bind
      (fun r' => (r'.step (fun _ => 0) snapshotCodec
        (.client .receive [] [listedRecord])).map fun r'' =>
          r'.applied (.client .receive [] [listedRecord]) r'') =
      some [.apply [listedRecord] [] [listedRecord]] := by decide +kernel
  have hsane : Along (step (fun _ => 0) snapshotCodec) (fun r e _ => r.Sane e)
      (withRegistry oneListed) ([] ++ (syncOne ++ [.client .receive [] [listedRecord]])) := by
    decide +kernel
  have haddr : trace (step (fun _ => 0) snapshotCodec) applied (withRegistry oneListed)
      ([] ++ (syncOne ++ [.client .receive [] [listedRecord]])) =
        [.apply [listedRecord] [] [listedRecord]] := by
    decide +kernel
  obtain ⟨r', hrest, hends⟩ := Option.bind_eq_some_iff.mp hends
  obtain ⟨r'', hlast, hends⟩ := Option.map_eq_some_iff.mp hends
  have hkeyed : oneListed.Keyed := by decide +kernel
  refine ⟨r', r'', hrest, hlast, ?_⟩
  refine sync_fresh lawful_snapshotCodec hkeyed hsane ?_ rfl ?_ hrest hlast hends
  · rw [haddr]
    intro op hop
    obtain rfl := List.mem_singleton.mp hop
    intro record hrecord
    obtain rfl := List.mem_singleton.mp hrecord
    decide
  · exact fun s hs => by cases hs; rfl

end MeshRouter

end LaneSwitchboards
