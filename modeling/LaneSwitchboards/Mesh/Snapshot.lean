import LaneSwitchboards.Mesh.Service

/-!
# Applying a registry snapshot

The registry stores any address, and `apply_snapshot_diff` hands every listed record to a ring
constructor that panics on an address that does not parse. So it returns, with all listed records
in the mesh, exactly when all their addresses parse: `applySnapshotDiff_iff`.
-/

namespace LaneSwitchboards

namespace ServiceMesh

variable {hash : List UInt8 → U64} {mesh : ServiceMesh} {records order : List ServiceRecord}
  {services : List String}

/-- The first half of `apply_snapshot_diff` returns. -/
theorem Sound.purgeAll (hash : List UInt8 → U64) (h : mesh.Sound) (records : List ServiceRecord)
    (services : List String) : ∃ purged : ServiceMesh, purged.Sound ∧
      Outcome.forEach (ServiceMesh.purge hash (collect ServiceRecord.key records)) services mesh =
        .ok () purged := by
  obtain ⟨hreturns, hsound⟩ := Outcome.forEach_ok (P := Sound)
    (f := ServiceMesh.purge hash (collect ServiceRecord.key records)) (l := services)
    (fun service _ mesh hmesh => hmesh.purge hash _ service) h
  obtain ⟨_, purged, hpurged⟩ := Outcome.returns_iff.mp hreturns
  rw [hpurged] at hsound
  exact ⟨purged, hsound, hpurged⟩

/-- The loop over a snapshot whose addresses parse. -/
theorem Sound.registerAll (hash : List UInt8 → U64) (h : mesh.Sound)
    (haddr : ∀ r ∈ order, Parses r.address)
    (hkeys : ∀ r ∈ order, ∀ r' ∈ order, r' ≠ r → r'.key ≠ r.key) :
    (Outcome.forEach (register hash) order mesh).returns = true ∧
      ∀ r ∈ order, (Outcome.forEach (register hash) order mesh).state.Has r := by
  refine ⟨(Outcome.forEach_ok (P := Sound) (fun r hr mesh hmesh => ?_) h).1,
    Outcome.forEach_establishes (P := Sound) (Q := fun r mesh => mesh.Has r)
      (fun r hr mesh hmesh => ?_) (fun r hr r' hr' hne mesh hmesh hhas => ?_) h⟩
  · obtain ⟨hsound, hreturns, -⟩ := hmesh.register_spec hash r
    exact ⟨hreturns.mpr (haddr r hr), hsound⟩
  · obtain ⟨hsound, hreturns, hspec⟩ := hmesh.register_spec hash r
    exact ⟨hreturns.mpr (haddr r hr), hsound, (hspec (haddr r hr)).1⟩
  · obtain ⟨-, -, hspec⟩ := hmesh.register_spec hash r
    exact (hspec (haddr r hr)).2 r' (hkeys r hr r' hr' hne) hhas

/-- **Applying a registry snapshot.** For every snapshot a reachable registry can list, every
reachable mesh and every iteration order, `apply_snapshot_diff` returns with all listed records
of parsable addresses in the mesh, exactly when all listed addresses parse. -/
theorem applySnapshotDiff_iff {reg : MeshRegistry} {now : ℕ} (hreg : reg.Reachable)
    (hlist : reg.Lists now records) (hmesh : mesh.Reachable hash)
    (horders : mesh.Orders records services order) :
    ((mesh.applySnapshotDiff hash records services order).returns = true ∧
      ∀ r ∈ records, Parses r.address →
        (mesh.applySnapshotDiff hash records services order).state.Has r) ↔
    ∀ r ∈ records, Parses r.address := by
  have hnodup := hlist.nodup hreg.keyed
  have hmem : ∀ r, r ∈ order ↔ r ∈ records := by
    intro r
    rw [horders.2.mem_iff]
    constructor
    · rintro ⟨k, hk⟩
      exact (of_lookup_collect hk).1
    · exact fun hr => ⟨_, lookup_collect_of_nodup hnodup hr⟩
  obtain ⟨purged, hsound, hpurged⟩ := hmesh.sound.purgeAll hash records services
  have happly : mesh.applySnapshotDiff hash records services order =
      Outcome.forEach (register hash) order purged := by
    rw [applySnapshotDiff, hpurged, Outcome.bind_ok]
  rw [happly]
  constructor
  · rintro ⟨hreturns, -⟩ r hr
    by_contra haddr
    have hpanics := Outcome.forEach_panicked (f := register hash) (s := purged)
      ((hmem r).mpr hr) fun mesh => register_panicked haddr
    rw [hreturns] at hpanics
    cases hpanics
  · intro haddr
    obtain ⟨hreturns, hhas⟩ := hsound.registerAll hash
      (fun r hr => haddr r ((hmem r).mp hr)) fun r hr r' hr' hne hkey =>
        hne (List.inj_on_of_nodup_map hnodup ((hmem r').mp hr') ((hmem r).mp hr) hkey)
    exact ⟨hreturns, fun r hr _ => hhas r ((hmem r).mpr hr)⟩

/-- A registrant may send any address. -/
def nowhere : ServiceRecord := ⟨"orders", "orders-1", "nowhere", "orders-1", 0⟩

/-- The registry lists the record, and applying the list to a new mesh unwinds. -/
theorem snapshot_unwinds : ∃ reg : MeshRegistry, reg.Reachable ∧ reg.Lists 0 [nowhere] ∧
    new.Orders [nowhere] [] [nowhere] ∧
    ∀ hash, (new.applySnapshotDiff hash [nowhere] [] [nowhere]).returns = false := by
  refine ⟨_, ⟨30000000000, [.register nowhere 0], rfl⟩, ⟨[nowhere], ?_, rfl⟩, ?_, fun _ => rfl⟩ <;>
    decide

/-- A record whose address parses. -/
def reachableRecord : ServiceRecord :=
  ⟨"orders", "orders-1", "127.0.0.1:9001", "orders-1", 0⟩

/-- The result for this record. -/
theorem applySnapshotDiff_reachableRecord : ∃ reg : MeshRegistry,
    reg.Reachable ∧ reg.Lists 0 [reachableRecord] ∧ ∀ hash,
    (new.applySnapshotDiff hash [reachableRecord] [] [reachableRecord]).returns = true ∧
    ∀ r ∈ [reachableRecord], Parses r.address →
      (new.applySnapshotDiff hash [reachableRecord] [] [reachableRecord]).state.Has r := by
  have hreg : MeshRegistry.Reachable
      ((MeshRegistry.withTtl 30000000000).register reachableRecord 0) :=
    ⟨30000000000, [.register reachableRecord 0], rfl⟩
  have hlist : MeshRegistry.Lists
      ((MeshRegistry.withTtl 30000000000).register reachableRecord 0) 0 [reachableRecord] :=
    ⟨[reachableRecord], by decide, rfl⟩
  refine ⟨_, hreg, hlist, fun hash => ?_⟩
  refine (applySnapshotDiff_iff hreg hlist ⟨[], rfl⟩ (by decide)).mpr fun r hr => ?_
  rw [List.mem_singleton.mp hr]
  decide

end ServiceMesh

end LaneSwitchboards
