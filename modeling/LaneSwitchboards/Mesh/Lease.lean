import LaneSwitchboards.Mesh.Service

/-!
# Leases

What a registry shows at a time is the records whose lease has not run out (`visible`); the
others are hidden from `list` whether they were evicted or not.

* `eviction_invisible`: eviction steps, wherever they stand in a sequence of calls, do not change
  what its `list` calls may return.
* `lease_iff`: both readings of the clock and the lease time are cut to whole seconds, and when
  this loses a part of the lease.
-/

namespace LaneSwitchboards

/-- A lease that has run out stays so. -/
theorem recordExpired_mono {record : ServiceRecord} {now now' : ℕ} {ttl : Duration}
    (h : recordExpired record now ttl = true) (hle : now ≤ now') :
    recordExpired record now' ttl = true := by
  simp only [recordExpired, decide_eq_true_eq] at h ⊢
  omega

namespace MeshRegistry

variable {reg reg' a b : MeshRegistry} {op : RegistryOp} {now now' t t' : ℕ}
  {record r : ServiceRecord} {records : List ServiceRecord} {key : String × String}
  {service instanceId : String}

/-- The records that a registry shows. -/
def visible (reg : MeshRegistry) (now : ℕ) : HashMap (String × String) ServiceRecord :=
  retain (fun _ r => !recordExpired r now reg.ttl) reg.records

theorem lookup_visible : (reg.visible now).lookup key =
    (reg.records.lookup key).filter fun r => !recordExpired r now reg.ttl :=
  lookup_retain_eq _ _ _

/-- **`list` returns what the registry shows**, in some order. -/
theorem lists_iff : reg.Lists now records ↔ ListsValues records (reg.visible now) :=
  listsValues_retain.symm

/-! ### Eviction -/

/-- A call on a registry, at some time. -/
inductive Call
  | update (op : RegistryOp)
  | list (now : ℕ)

namespace Call

/-- The second that the call reads from the clock. -/
def reading : Call → Option ℕ
  | update (.register _ now) | update (.evictExpired now) | list now => some now
  | update (.deregister _ _) => none

/-- The call is not a tick of the eviction task. -/
def kept : Call → Bool
  | update (.evictExpired _) => false
  | _ => true

/-- The seconds that the calls read, in order. -/
def readings (calls : List Call) : List ℕ := calls.filterMap reading

end Call

open Call (reading kept readings)

/-- The `list` calls among the calls may return these results, in order. -/
def Returns : MeshRegistry → List Call → List (List ServiceRecord) → Prop
  | _, [], results => results = []
  | reg, .list now :: calls, results => ∃ records rest, results = records :: rest ∧
      reg.Lists now records ∧ reg.Returns calls rest
  | reg, .update op :: calls, results => ∃ reg', reg.step op = some reg' ∧
      reg'.Returns calls results

/-- The registries show the same from `t` on. -/
structure Alike (t : ℕ) (a b : MeshRegistry) : Prop where
  ttl : a.ttl = b.ttl
  visible : ∀ now, t ≤ now → a.visible now = b.visible now

theorem Alike.mono (h : Alike t a b) (hle : t ≤ t') : Alike t' a b :=
  ⟨h.ttl, fun now hnow => h.visible now (hle.trans hnow)⟩

/-- A registration shows its record, and nothing else is changed. -/
theorem visible_register : ((reg.register record now).visible t).lookup key =
    if key = record.key then
      (some { record with registeredAt := now }).filter fun r => !recordExpired r t reg.ttl
    else (reg.visible t).lookup key := by
  rw [lookup_visible, register, lookup_insert_eq_ite]
  split_ifs
  · rfl
  · rw [lookup_visible]

theorem visible_deregister : ((reg.deregister service instanceId).visible t).lookup key =
    if key = (service, instanceId) then none else (reg.visible t).lookup key := by
  have herase := congrFun (lookup_erase_eq_update reg.records (service, instanceId)) key
  rw [lookup_visible, deregister, herase, Function.update_apply]
  split_ifs
  · rfl
  · rw [lookup_visible]

/-- An eviction hides nothing that would be shown later. -/
theorem visible_evictExpired (hle : now ≤ t) :
    (reg.evictExpired now).visible t = reg.visible t := by
  refine Finmap.ext_lookup fun key => Option.ext fun r => ?_
  simp only [lookup_visible, evictExpired, lookup_retain_eq, Option.filter_eq_some_iff,
    Bool.not_eq_true']
  constructor
  · rintro ⟨⟨hr, -⟩, hlive⟩
    exact ⟨hr, hlive⟩
  · rintro ⟨hr, hlive⟩
    refine ⟨⟨hr, ?_⟩, hlive⟩
    by_contra hexpired
    rw [recordExpired_mono (by simpa using hexpired) hle] at hlive
    cases hlive

theorem Alike.register (h : Alike t a b) (record : ServiceRecord) (now : ℕ) :
    Alike t (a.register record now) (b.register record now) := by
  refine ⟨h.ttl, fun now' hnow => Finmap.ext_lookup fun key => ?_⟩
  rw [visible_register, visible_register, h.ttl, h.visible now' hnow]

theorem Alike.deregister (h : Alike t a b) (service instanceId : String) :
    Alike t (a.deregister service instanceId) (b.deregister service instanceId) := by
  refine ⟨h.ttl, fun now' hnow => Finmap.ext_lookup fun key => ?_⟩
  rw [visible_deregister, visible_deregister, h.visible now' hnow]

/-- **The simulation**: one registry evicts and the other does not. -/
theorem Alike.evictExpired (h : Alike t a b) (hle : now ≤ t) :
    Alike t (a.evictExpired now) b := by
  refine ⟨h.ttl, fun now' hnow => ?_⟩
  rw [visible_evictExpired (hle.trans hnow), h.visible now' hnow]

theorem Alike.lists_iff (h : Alike t a b) (hle : t ≤ now) :
    a.Lists now records ↔ b.Lists now records := by
  rw [MeshRegistry.lists_iff, MeshRegistry.lists_iff, h.visible now hle]

/-- **Runs without the evictions**: a registry returns what one that shows the same returns in
the calls that are not evictions. -/
theorem Alike.returns_iff {calls : List Call} {results : List (List ServiceRecord)}
    (h : Alike t a b) (hsorted : (readings calls).Pairwise (· ≤ ·))
    (hlater : ∀ now ∈ readings calls, t ≤ now) :
    a.Returns calls results ↔ b.Returns (calls.filter kept) results := by
  induction calls generalizing a b t results with
  | nil => rfl
  | cons call calls ih =>
    -- the registries after a call that reads `now`, from where the rest goes on
    have hrest {now : ℕ} {a' b' : MeshRegistry} {results : List (List ServiceRecord)}
        (hcall : call.reading = some now) (h' : Alike now a' b') :
        a'.Returns calls results ↔ b'.Returns (calls.filter kept) results := by
      have hcons : readings (call :: calls) = now :: readings calls := by
        simp [readings, hcall]
      rw [hcons, List.pairwise_cons] at hsorted
      exact ih h' hsorted.2 hsorted.1
    have hnow {now : ℕ} (hcall : call.reading = some now) : t ≤ now :=
      hlater now (by simp [readings, hcall])
    cases call with
    | list now =>
      have hthis : Alike now a b := h.mono (hnow rfl)
      rw [List.filter_cons_of_pos rfl]
      refine exists₂_congr fun records rest => and_congr_right fun _ => ?_
      exact and_congr (hthis.lists_iff le_rfl) (hrest rfl hthis)
    | update op =>
      cases op with
      | register record now =>
        have hthis : Alike now a b := h.mono (hnow rfl)
        rw [List.filter_cons_of_pos rfl]
        simp only [Returns, step, Option.some.injEq, exists_eq_left']
        exact hrest rfl (hthis.register record now)
      | deregister service instanceId =>
        have hcons : readings (.update (.deregister service instanceId) :: calls) =
            readings calls := rfl
        rw [hcons] at hsorted hlater
        rw [List.filter_cons_of_pos rfl]
        simp only [Returns, step, Option.some.injEq, exists_eq_left']
        exact ih (h.deregister service instanceId) hsorted hlater
      | evictExpired now =>
        have hthis : Alike now a b := h.mono (hnow rfl)
        rw [List.filter_cons_of_neg (by simp [kept])]
        simp only [Returns, step, Option.some.injEq, exists_eq_left']
        exact hrest rfl (hthis.evictExpired le_rfl)

/-- **Eviction is invisible.** Two sequences of calls, each at non-decreasing readings of the
clock, that differ in the evictions only have `list` calls with the same possible results, from
any registry. -/
theorem eviction_invisible (reg : MeshRegistry) {calls calls' : List Call}
    (hsorted : (readings calls).Pairwise (· ≤ ·)) (hsorted' : (readings calls').Pairwise (· ≤ ·))
    (hsame : calls.filter kept = calls'.filter kept) (results : List (List ServiceRecord)) :
    reg.Returns calls results ↔ reg.Returns calls' results := by
  have hself : Alike 0 reg reg := ⟨rfl, fun _ _ => rfl⟩
  rw [hself.returns_iff hsorted fun _ _ => Nat.zero_le _,
    hself.returns_iff hsorted' fun _ _ => Nat.zero_le _, hsame]

/-- An instance of a service, registered at a second. -/
def instanceAt (instanceId : String) (registeredAt : ℕ) : ServiceRecord :=
  ⟨"calc", instanceId, "10.0.0.1:9000", instanceId, registeredAt⟩

/-- Of two instances one is not renewed; the eviction task ticks between two calls of `list`. -/
def withTick : List Call :=
  [.update (.register (instanceAt "a" 0) 0), .update (.register (instanceAt "b" 0) 20), .list 31,
    .update (.evictExpired 32), .list 33]

/-- The same without the tick. -/
def withoutTick : List Call :=
  [.update (.register (instanceAt "a" 0) 0), .update (.register (instanceAt "b" 0) 20), .list 31,
    .list 33]

/-- The instance whose lease has run out was not listed before the tick either. -/
theorem eviction_invisible_tick : (withTtl 30000000000).Returns withTick
    [[instanceAt "b" 20], [instanceAt "b" 20]] := by
  have hsorted : (readings withTick).Pairwise (· ≤ ·) := by decide
  have hsorted' : (readings withoutTick).Pairwise (· ≤ ·) := by decide
  have hboth := eviction_invisible (withTtl 30000000000) hsorted hsorted' rfl
    [[instanceAt "b" 20], [instanceAt "b" 20]]
  have hlists {now : ℕ} (hexpired : recordExpired (instanceAt "a" 0) now 30000000000 = true)
      (hlive : recordExpired (instanceAt "b" 20) now 30000000000 = false) :
      (((withTtl 30000000000).register (instanceAt "a" 0) 0).register (instanceAt "b" 0) 20).Lists
        now [instanceAt "b" 20] := by
    refine ⟨[instanceAt "b" 20, instanceAt "a" 0], ?_, ?_⟩
    · exact ListsValues.insert (ListsValues.insert (l := []) rfl (by decide)) (by decide)
    · simp only [register, withTtl, List.filter_cons, hexpired, hlive]
      rfl
  exact hboth.mpr ⟨_, rfl, _, rfl, _, _, rfl, hlists (by decide) (by decide), _, _, rfl,
    hlists (by decide) (by decide), rfl⟩

/-! ### Whole seconds -/

/-- `unix_now` when the system clock shows `time`, in nanoseconds since the Unix epoch. A clock
before the epoch reads 0. -/
def unixNow (time : ℤ) : ℕ := Duration.asSecs time.toNat

/-- A record is returned by every `list` at a second. -/
def Listed (reg : MeshRegistry) (now : ℕ) (r : ServiceRecord) : Prop :=
  ∀ records, reg.Lists now records → r ∈ records

/-- A record is returned by no `list` at a second. -/
def Unlisted (reg : MeshRegistry) (now : ℕ) (r : ServiceRecord) : Prop :=
  ∀ records, reg.Lists now records → r ∉ records

/-- The lease of a record is honoured: it is listed, and kept by an eviction, up to the age of
`ttl`, and neither from the age of `ttl` and a second on. -/
structure Honoured (reg : MeshRegistry) (r : ServiceRecord) (registered observed : ℤ) : Prop where
  kept : observed - registered ≤ reg.ttl → reg.Listed (unixNow observed) r ∧
    (reg.evictExpired (unixNow observed)).records.lookup r.key = some r
  gone : reg.ttl + 1000000000 < observed - registered → reg.Unlisted (unixNow observed) r ∧
    (reg.evictExpired (unixNow observed)).records.lookup r.key = none

/-- No part of the lease is lost. From the epoch on: the record is older than `ttl`, or of a
different age in whole seconds, or its registration and its age fill no second between them.
Before the epoch, where a registration reads 0: it is not older than `ttl` and a second, or the
first second without a lease has come. -/
def Exact (ttl : Duration) (registered observed : ℤ) : Prop :=
  if 0 ≤ registered then
    ttl < observed - registered ∨
    (observed - registered) / 1000000000 ≠ ttl.asSecs ∨
    registered % 1000000000 + (observed - registered) % 1000000000 < 1000000000
  else
    observed - registered ≤ ttl + 1000000000 ∨ (ttl.asSecs + 1) * 1000000000 ≤ observed

/-- A call that leaves the record of a key alone: it registers or removes another, or evicts at
a second up to `limit`. -/
def Spares (key : String × String) (limit : ℕ) : RegistryOp → Prop
  | .register record _ => record.key ≠ key
  | .deregister service instanceId => (service, instanceId) ≠ key
  | .evictExpired now => now ≤ limit

/-- **Three roundings**: when the age in whole seconds decides rightly. -/
theorem exact_iff {registered observed : ℤ} {ttl : Duration}
    (hle : registered ≤ observed)
    (hr : r.registeredAt = unixNow registered) :
    Exact ttl registered observed ↔
      (observed - registered ≤ ttl → recordExpired r (unixNow observed) ttl = false) ∧
      (ttl + 1000000000 < observed - registered →
        recordExpired r (unixNow observed) ttl = true) := by
  simp only [recordExpired, hr, unixNow, Duration.asSecs, decide_eq_false_iff_not,
    decide_eq_true_eq, Exact]
  split_ifs with hepoch
  · omega
  · omega

/-! ### The lease of a record -/

/-- **A record that no call touches** is shown at a second iff its lease has not run out. -/
theorem lookup_visible_of_spares {ops : List RegistryOp} {limit : ℕ}
    (hrecord : ∀ t, limit ≤ t → (reg.visible t).lookup key =
      (some r).filter fun r => !recordExpired r t reg.ttl)
    (hops : ∀ op ∈ ops, Spares key limit op)
    (hrun : Transition.run step reg ops = some reg') :
    reg'.ttl = reg.ttl ∧ ∀ t, limit ≤ t → (reg'.visible t).lookup key =
      (some r).filter fun r => !recordExpired r t reg.ttl := by
  refine Transition.invariant_along (P := fun v : MeshRegistry => v.ttl = reg.ttl ∧
      ∀ t, limit ≤ t → (v.visible t).lookup key =
        (some r).filter fun r => !recordExpired r t reg.ttl)
    (Q := fun _ op _ => Spares key limit op) (fun {v op v'} hv hspares hst => ?_) ⟨rfl, hrecord⟩
    (Transition.along_of_forall fun _ op hop _ => hops op hop) hrun
  obtain ⟨httl, hv⟩ := hv
  cases op with
  | register record now =>
    obtain rfl := Option.some.inj hst
    refine ⟨httl, fun t ht => ?_⟩
    rw [visible_register, if_neg (Ne.symm hspares), hv t ht]
  | deregister service instanceId =>
    obtain rfl := Option.some.inj hst
    refine ⟨httl, fun t ht => ?_⟩
    rw [visible_deregister, if_neg (Ne.symm hspares), hv t ht]
  | evictExpired now =>
    obtain rfl := Option.some.inj hst
    refine ⟨httl, fun t ht => ?_⟩
    have hle : now ≤ limit := hspares
    rw [visible_evictExpired (hle.trans ht), hv t ht]

/-- What is listed and kept is what the registry shows. -/
theorem honoured_iff {registered observed : ℤ} (hkeyed : reg.Keyed)
    (hshown : (reg.visible (unixNow observed)).lookup r.key =
      (some r).filter fun r => !recordExpired r (unixNow observed) reg.ttl) :
    reg.Honoured r registered observed ↔
      (observed - registered ≤ reg.ttl → recordExpired r (unixNow observed) reg.ttl = false) ∧
      (reg.ttl + 1000000000 < observed - registered →
        recordExpired r (unixNow observed) reg.ttl = true) := by
  have hkept : (reg.evictExpired (unixNow observed)).records.lookup r.key =
      (some r).filter fun r => !recordExpired r (unixNow observed) reg.ttl := hshown
  cases hexpired : recordExpired r (unixNow observed) reg.ttl with
  | false =>
    have hsome : (reg.visible (unixNow observed)).lookup r.key = some r := by
      simp [hshown, Option.filter, hexpired]
    have hlisted : reg.Listed (unixNow observed) r := by
      intro records hrecords
      exact (lists_iff.mp hrecords).mem_iff.mpr ⟨r.key, hsome⟩
    constructor
    · rintro ⟨-, hgone⟩
      refine ⟨fun _ => rfl, fun hold => ?_⟩
      have hnone := (hgone hold).2
      simp [hkept, Option.filter, hexpired] at hnone
    · rintro ⟨-, hgone⟩
      refine ⟨fun _ => ⟨hlisted, hsome⟩, fun hold => ?_⟩
      cases hgone hold
  | true =>
    have hnone : (reg.visible (unixNow observed)).lookup r.key = none := by
      simp [hshown, Option.filter, hexpired]
    have hunlisted : reg.Unlisted (unixNow observed) r := by
      intro records hrecords hmem
      obtain ⟨k, hk⟩ := (lists_iff.mp hrecords).mem_iff.mp hmem
      have hstored : reg.records.lookup k = some r := (lookup_retain.mp hk).1
      rw [hkeyed k r hstored, hk] at hnone
      cases hnone
    constructor
    · rintro ⟨hkeeps, -⟩
      refine ⟨fun hyoung => ?_, fun _ => rfl⟩
      have hsome := (hkeeps hyoung).2
      simp [hkept, Option.filter, hexpired] at hsome
    · rintro ⟨hkeeps, -⟩
      refine ⟨fun hyoung => ?_, fun _ => ⟨hunlisted, hnone⟩⟩
      cases hkeeps hyoung

/-- **The lease of a record.** For every registry, every lease time and every time of the clock
at a registration and later: while no call has touched the record, its lease is honoured iff no
part of it is lost to whole seconds. -/
theorem lease_iff (hreg : reg.Reachable) (record : ServiceRecord) {registered observed : ℤ}
    (hle : registered ≤ observed) {ops : List RegistryOp}
    (hops : ∀ op ∈ ops, Spares record.key (unixNow observed) op)
    (hrun : Transition.run step (reg.register record (unixNow registered)) ops = some reg') :
    reg'.Honoured { record with registeredAt := unixNow registered } registered observed ↔
      Exact reg.ttl registered observed := by
  have hrecord (t : ℕ) (_ : unixNow observed ≤ t) :
      ((reg.register record (unixNow registered)).visible t).lookup record.key =
        (some { record with registeredAt := unixNow registered }).filter fun r =>
          !recordExpired r t (reg.register record (unixNow registered)).ttl := by
    rw [visible_register, if_pos rfl]
    rfl
  obtain ⟨httl, hshown⟩ := lookup_visible_of_spares hrecord hops hrun
  have hkeyed : reg'.Keyed := by
    refine Transition.invariant_run (P := Keyed) (fun hk hst => hk.step hst) ?_ hrun
    have hst : reg.step (.register record (unixNow registered)) =
        some (reg.register record (unixNow registered)) := rfl
    exact hreg.keyed.step hst
  rw [honoured_iff hkeyed (by rw [httl]; exact hshown _ le_rfl), httl]
  exact (exact_iff hle rfl).symm

/-- Nothing is lost of a lease of whole seconds, from the epoch on. -/
theorem exact_of_whole {ttl : Duration} {registered observed : ℤ}
    (hwhole : ttl.asSecs * 1000000000 = ttl) (hepoch : 0 ≤ registered) :
    Exact ttl registered observed := by
  simp only [Duration.asSecs] at hwhole
  simp only [Exact, if_pos hepoch, Duration.asSecs]
  omega

/-- A lease of 30 seconds taken at 0.9 seconds, while the registry evicts and another instance
is registered. -/
theorem lease_iff_whole : ∃ reg',
    Transition.run step ((withTtl 30000000000).register (instanceAt "a" 0) (unixNow 900000000))
      [.register (instanceAt "b" 0) 7, .evictExpired 25] = some reg' ∧
    reg'.Honoured (instanceAt "a" 0) 900000000 30900000000 := by
  have hreg : (withTtl 30000000000).Reachable := ⟨30000000000, [], rfl⟩
  have hle : (900000000 : ℤ) ≤ 30900000000 := by decide
  have hexact : Exact (withTtl 30000000000).ttl 900000000 30900000000 :=
    exact_of_whole rfl (by decide)
  obtain ⟨reg', hrun⟩ : ∃ reg', Transition.run step
      ((withTtl 30000000000).register (instanceAt "a" 0) (unixNow 900000000))
      [.register (instanceAt "b" 0) 7, .evictExpired 25] = some reg' := ⟨_, rfl⟩
  refine ⟨reg', hrun, (lease_iff hreg (instanceAt "a" 0) hle ?_ hrun).mpr hexact⟩
  intro op hop
  rcases List.mem_cons.mp hop with rfl | hop
  · exact fun hkey => absurd hkey (by decide)
  · obtain rfl := List.mem_singleton.mp hop
    exact (by decide : 25 ≤ unixNow 30900000000)

/-- A lease of 1.5 seconds taken at 0.9 seconds has run out when the clock shows 2 seconds, after
1.1 seconds. -/
theorem lease_cut_short :
    (2000000000 - 900000000 : ℤ) ≤ (withTtl 1500000000).ttl ∧
    ¬ ((withTtl 1500000000).register (instanceAt "a" 0) (unixNow 900000000)).Listed
      (unixNow 2000000000) (instanceAt "a" 0) ∧
    (((withTtl 1500000000).register (instanceAt "a" 0) (unixNow 900000000)).evictExpired
      (unixNow 2000000000)).records.lookup ("calc", "a") = none := by
  refine ⟨by decide, fun hlisted => ?_, by decide⟩
  have hempty : ((withTtl 1500000000).register (instanceAt "a" 0) (unixNow 900000000)).Lists
      (unixNow 2000000000) [] := ⟨[instanceAt "a" 0], by decide, by decide⟩
  cases hlisted [] hempty

end MeshRegistry

end LaneSwitchboards
