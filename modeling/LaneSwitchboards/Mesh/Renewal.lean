import LaneSwitchboards.Mesh.Lease

/-!
# Concurrent registrations

`MeshRegistry::register` reads the clock, awaits the write lock and inserts its record, so calls
on several connections can insert in another order than they have read the clock. An eviction
reads the clock before it has the lock too; here it comes with its reading.

* `Traced.step`: what is stored was put there by a call whose record nothing has removed since.
* `renewals_iff`: over every interleaving the registration times of each key never decrease iff
  the calls for a key insert in the order of their readings.
-/

namespace LaneSwitchboards

open Function

abbrev CallId := ℕ

/-- A registry with the calls of `register` that have read the clock and await the write lock.
Calls are numbered in the order in which they read it. -/
structure Registrations where
  reg : MeshRegistry
  pending : CallId → Option ServiceRecord
  nextCall : CallId

/-- One step of a call on the registry. -/
inductive RegistrationEvent
  /-- The next call of `register` reads the clock. -/
  | readClock (record : ServiceRecord) (now : ℕ)
  /-- A call of `register` has the write lock and inserts its record. -/
  | insert (c : CallId)
  | deregister (service instanceId : String)
  | evictExpired (now : ℕ)

namespace Registrations

open Transition

/-- An empty registry without calls. -/
def start (ttl : Duration) : Registrations := ⟨.withTtl ttl, fun _ => none, 0⟩

/-- The record with which a call goes on when it has read the clock. -/
def stamped : RegistrationEvent → Option ServiceRecord
  | .readClock record now => some { record with registeredAt := now }
  | _ => none

/-- The records of the calls, by their numbers. -/
def calls (es : List RegistrationEvent) : List ServiceRecord := es.filterMap stamped

/-- One step; `none` where the call is not waiting. -/
def step (s : Registrations) : RegistrationEvent → Option Registrations
  | .readClock record now => some { s with
      pending := update s.pending s.nextCall (some { record with registeredAt := now })
      nextCall := s.nextCall + 1 }
  | .insert c => (s.pending c).map fun record => { s with
      reg := { s.reg with records := s.reg.records.insert record.key record }
      pending := update s.pending c none }
  | .deregister service instanceId => some { s with reg := s.reg.deregister service instanceId }
  | .evictExpired now => some { s with reg := s.reg.evictExpired now }

/-- The step stores no earlier registration time than it finds, under any key. -/
def NeverDecreases (s : Registrations) (_ : RegistrationEvent) (s' : Registrations) : Prop :=
  ∀ key r r', s.reg.records.lookup key = some r → s'.reg.records.lookup key = some r' →
    r.registeredAt ≤ r'.registeredAt

/-- The event removes the record, if it is stored. -/
def Removes (ttl : Duration) (r : ServiceRecord) : RegistrationEvent → Prop
  | .deregister service instanceId => (service, instanceId) = r.key
  | .evictExpired now => recordExpired r now ttl = true
  | _ => False

/-- The calls for a key insert in the order of the seconds they have read: where `c` inserts
before `d` and nothing removes its record between, `d` has not read an earlier second. -/
def InOrder (ttl : Duration) (es : List RegistrationEvent) : Prop :=
  ∀ es₁ c es₂ d es₃ r r', es = es₁ ++ .insert c :: es₂ ++ .insert d :: es₃ →
    (calls es)[c]? = some r → (calls es)[d]? = some r' → r.key = r'.key →
    (∀ e ∈ es₂, ¬ Removes ttl r e) → r.registeredAt ≤ r'.registeredAt

variable {s s' : Registrations} {e : RegistrationEvent} {es fs : List RegistrationEvent}
  {ttl : Duration} {r r' : ServiceRecord} {key : String × String} {c : CallId}

theorem calls_append : calls (es ++ fs) = calls es ++ calls fs := List.filterMap_append

/-- A call keeps its number. -/
theorem getElem?_calls (h : (calls es)[c]? = some r) : (calls (es ++ fs))[c]? = some r := by
  rw [calls_append, List.getElem?_append_left (List.getElem?_eq_some_iff.mp h).1, h]

/-! ### Where a record comes from -/

/-- What is stored after a step was stored before it and not removed, or is the record of a call
that inserts. -/
theorem lookup_of_step (hkeyed : s.reg.Keyed) (hst : s.step e = some s')
    (hr : s'.reg.records.lookup key = some r) :
    (∃ c, e = .insert c ∧ s.pending c = some r ∧ r.key = key) ∨
      s.reg.records.lookup key = some r ∧ ¬ Removes s.reg.ttl r e := by
  cases e with
  | readClock record now =>
    obtain rfl := Option.some.inj hst
    exact Or.inr ⟨hr, id⟩
  | insert c =>
    obtain ⟨record, hc, rfl⟩ := Option.map_eq_some_iff.mp hst
    rw [lookup_insert_eq_ite] at hr
    split_ifs at hr with hkey
    · obtain rfl := Option.some.inj hr
      exact Or.inl ⟨c, rfl, hc, hkey.symm⟩
    · exact Or.inr ⟨hr, id⟩
  | deregister service instanceId =>
    obtain rfl := Option.some.inj hst
    have herase := congrFun (lookup_erase_eq_update s.reg.records (service, instanceId)) key
    rw [MeshRegistry.deregister, herase, update_apply] at hr
    split_ifs at hr with hkey
    refine Or.inr ⟨hr, fun hremoves => hkey ?_⟩
    rw [← hkeyed key r hr]
    exact hremoves.symm
  | evictExpired now =>
    obtain rfl := Option.some.inj hst
    obtain ⟨hr, hlive⟩ := lookup_retain.mp hr
    refine Or.inr ⟨hr, fun hexpired => ?_⟩
    simp only [Removes] at hexpired
    simp [hexpired] at hlive

/-- What is stored and not removed is stored after a step, or replaced by the record of a call
that inserts. -/
theorem lookup_step (hkeyed : s.reg.Keyed) (hst : s.step e = some s')
    (hr : s.reg.records.lookup key = some r) (hkept : ¬ Removes s.reg.ttl r e) :
    (∃ c r', e = .insert c ∧ s.pending c = some r' ∧ r'.key = key ∧
      s'.reg.records.lookup key = some r') ∨ s'.reg.records.lookup key = some r := by
  cases e with
  | readClock record now =>
    obtain rfl := Option.some.inj hst
    exact Or.inr hr
  | insert c =>
    obtain ⟨record, hc, rfl⟩ := Option.map_eq_some_iff.mp hst
    by_cases hkey : key = record.key
    · refine Or.inl ⟨c, record, rfl, hc, hkey.symm, ?_⟩
      rw [lookup_insert_eq_ite, if_pos hkey]
    · refine Or.inr ?_
      rw [lookup_insert_eq_ite, if_neg hkey]
      exact hr
  | deregister service instanceId =>
    obtain rfl := Option.some.inj hst
    refine Or.inr ?_
    have hkey : key ≠ (service, instanceId) := by
      rintro rfl
      exact hkept (hkeyed _ r hr).symm
    have herase := congrFun (lookup_erase_eq_update s.reg.records (service, instanceId)) key
    rw [MeshRegistry.deregister, herase, update_of_ne hkey]
    exact hr
  | evictExpired now =>
    obtain rfl := Option.some.inj hst
    refine Or.inr (lookup_retain.mpr ⟨hr, ?_⟩)
    simpa [Removes] using hkept

/-- The calls and the records of a registry, after the steps so far. -/
structure Traced (ttl : Duration) (es : List RegistrationEvent) (s : Registrations) : Prop where
  lease : s.reg.ttl = ttl
  keyed : s.reg.Keyed
  nextCall : s.nextCall = (calls es).length
  pending : ∀ c r, s.pending c = some r → (calls es)[c]? = some r
  /-- A record was inserted by a call, and not removed since. -/
  stored : ∀ key r, s.reg.records.lookup key = some r → ∃ es₁ c es₂,
    es = es₁ ++ .insert c :: es₂ ∧ (calls es)[c]? = some r ∧ ∀ e ∈ es₂, ¬ Removes ttl r e

/-- Steps change the lease time of a registry as little as the keys of its records. -/
theorem keyed_of_step (hst : s.step e = some s') (hkeyed : s.reg.Keyed) :
    s'.reg.ttl = s.reg.ttl ∧ s'.reg.Keyed := by
  refine ⟨?_, fun key r hr => ?_⟩
  · cases e with
    | insert c =>
      obtain ⟨record, -, rfl⟩ := Option.map_eq_some_iff.mp hst
      rfl
    | _ =>
      obtain rfl := Option.some.inj hst
      rfl
  · rcases lookup_of_step hkeyed hst hr with ⟨c, -, -, hkey⟩ | ⟨hr, -⟩
    · exact hkey
    · exact hkeyed key r hr

/-- **Every step traces** the calls and the records. -/
theorem Traced.step (h : Traced ttl es s) (hst : s.step e = some s') :
    Traced ttl (es ++ [e]) s' := by
  obtain ⟨httl, hkeyed⟩ := keyed_of_step hst h.keyed
  refine ⟨httl.trans h.lease, hkeyed, ?_, fun c r hc => ?_, fun key r hr => ?_⟩
  · rw [calls_append, List.length_append, ← h.nextCall]
    cases e with
    | insert c =>
      obtain ⟨record, -, rfl⟩ := Option.map_eq_some_iff.mp hst
      rfl
    | _ =>
      obtain rfl := Option.some.inj hst
      rfl
  · cases e with
    | readClock record now =>
      obtain rfl := Option.some.inj hst
      dsimp only at hc
      by_cases hlast : c = s.nextCall
      · subst hlast
        simp only [update_self, Option.some.injEq] at hc
        simp [calls, stamped, h.nextCall, hc]
      · rw [update_of_ne hlast] at hc
        exact getElem?_calls (h.pending c r hc)
    | insert d =>
      obtain ⟨record, -, rfl⟩ := Option.map_eq_some_iff.mp hst
      dsimp only at hc
      rw [update_apply] at hc
      split_ifs at hc
      exact getElem?_calls (h.pending c r hc)
    | _ =>
      obtain rfl := Option.some.inj hst
      exact getElem?_calls (h.pending c r hc)
  · rcases lookup_of_step h.keyed hst hr with ⟨c, rfl, hc, -⟩ | ⟨hr, hkept⟩
    · refine ⟨es, c, [], rfl, getElem?_calls (h.pending c r hc), ?_⟩
      exact fun e he => absurd he List.not_mem_nil
    · obtain ⟨es₁, c, es₂, rfl, hc, hrest⟩ := h.stored key r hr
      refine ⟨es₁, c, es₂ ++ [e], by simp, getElem?_calls hc, fun e' he' => ?_⟩
      rcases List.mem_append.mp he' with he' | he'
      · exact hrest e' he'
      · obtain rfl := List.mem_singleton.mp he'
        rwa [← h.lease]

theorem traced_run (hrun : Transition.run step (start ttl) es = some s) : Traced ttl es s := by
  refine run_induction (motive := Traced ttl) ⟨rfl, fun _ _ hr => ?_, rfl, fun _ _ hc => ?_,
    fun _ _ hr => ?_⟩ (fun _ ih hst => ih.step hst) hrun
  · cases hr
  · cases hc
  · cases hr

/-! ### The order of the insertions -/

/-- What a key stores is not older after steps that do not remove its record. -/
theorem exists_lookup_run (h : Traced ttl es s) (hr : s.reg.records.lookup key = some r)
    (hkept : ∀ e ∈ fs, ¬ Removes ttl r e) (hrun : Transition.run step s fs = some s')
    (hnever : Along step NeverDecreases s fs) :
    ∃ r', s'.reg.records.lookup key = some r' ∧ r.registeredAt ≤ r'.registeredAt := by
  induction fs generalizing es s r with
  | nil =>
    obtain rfl := Option.some.inj hrun
    exact ⟨r, hr, le_rfl⟩
  | cons e fs ih =>
    obtain ⟨u, hu, hrest⟩ := Option.bind_eq_some_iff.mp hrun
    obtain ⟨hle, hrestNever⟩ := hnever u hu
    have hthis : ¬ Removes s.reg.ttl r e := by
      rw [h.lease]
      exact hkept e List.mem_cons_self
    -- a later record of the key is removed by no event that spares this one
    obtain ⟨r₁, hr₁, hkept₁⟩ : ∃ r₁, u.reg.records.lookup key = some r₁ ∧
        ∀ e ∈ fs, ¬ Removes ttl r₁ e := by
      have hspared {r₁ : ServiceRecord} (hr₁ : u.reg.records.lookup key = some r₁) :
          ∀ e ∈ fs, ¬ Removes ttl r₁ e := by
        intro e he hremoves
        refine hkept e (List.mem_cons_of_mem _ he) ?_
        have hkey : r₁.key = r.key :=
          ((keyed_of_step hu h.keyed).2 key r₁ hr₁).trans (h.keyed key r hr).symm
        have hage := hle key r r₁ hr hr₁
        cases e with
        | deregister service instanceId => exact Eq.trans hremoves hkey
        | evictExpired now =>
          simp only [Removes, recordExpired, decide_eq_true_eq] at hremoves ⊢
          omega
        | _ => exact hremoves
      rcases lookup_step h.keyed hu hr hthis with ⟨c, r₁, -, -, -, hr₁⟩ | hr₁
      · exact ⟨r₁, hr₁, hspared hr₁⟩
      · exact ⟨r, hr₁, hspared hr₁⟩
    obtain ⟨r', hr', hle'⟩ := ih (h.step hu) hr₁ hkept₁ hrest hrestNever
    exact ⟨r', hr', (hle key r r₁ hr hr₁).trans hle'⟩

/-- A record is stored when its call inserts it. -/
theorem lookup_insert (fs : List RegistrationEvent) (h : Traced ttl es s)
    (hst : s.step (.insert c) = some s')
    (hc : (calls (es ++ fs))[c]? = some r) : s'.reg.records.lookup r.key = some r := by
  obtain ⟨record, hpending, rfl⟩ := Option.map_eq_some_iff.mp hst
  obtain rfl : record = r :=
    Option.some.inj ((getElem?_calls (h.pending c record hpending)).symm.trans hc)
  rw [lookup_insert_eq_ite, if_pos rfl]

theorem InOrder.of_append (h : InOrder ttl (es ++ fs)) : InOrder ttl es := by
  rintro es₁ c es₂ d es₃ r r' rfl hc hd hkey hkept
  refine h es₁ c es₂ d (es₃ ++ fs) r r' (by simp) ?_ ?_ hkey hkept
  · exact getElem?_calls hc
  · exact getElem?_calls hd

/-- **Concurrent renewals.** Over every interleaving of the calls on a registry, the registration
time of no key ever decreases exactly when the calls for each key insert in the order of the
seconds they have read. -/
theorem renewals_iff (ttl : Duration) (es : List RegistrationEvent) {s : Registrations}
    (hrun : Transition.run step (start ttl) es = some s) :
    Along step NeverDecreases (start ttl) es ↔ InOrder ttl es := by
  constructor
  · rintro hnever es₁ c es₂ d es₃ r r' rfl hc hd hkey hkept
    -- the states before and after the two insertions
    rw [List.append_assoc, List.cons_append, run_append, Option.bind_eq_some_iff] at hrun
    obtain ⟨s₁, hrun₁, hrun⟩ := hrun
    obtain ⟨s₂, hst₂, hrun⟩ := Option.bind_eq_some_iff.mp hrun
    rw [run_append, Option.bind_eq_some_iff] at hrun
    obtain ⟨s₃, hrun₃, hrun⟩ := hrun
    obtain ⟨s₄, hst₄, -⟩ := Option.bind_eq_some_iff.mp hrun
    have htraced₁ := traced_run hrun₁
    have htraced₂ := htraced₁.step hst₂
    have htraced₃ : Traced ttl (es₁ ++ [.insert c] ++ es₂) s₃ := by
      refine traced_run (run_trans ?_ hrun₃)
      exact run_concat.mpr ⟨s₁, hrun₁, hst₂⟩
    rw [List.append_assoc, List.cons_append, along_append] at hnever
    have hnever₂ := ((hnever.2 s₁ hrun₁) s₂ hst₂).2
    rw [along_append] at hnever₂
    -- the second finds a record that is no older than the first
    have hr : s₂.reg.records.lookup r.key = some r := by
      refine lookup_insert (.insert c :: es₂ ++ .insert d :: es₃) htraced₁ hst₂ ?_
      rwa [List.append_assoc] at hc
    obtain ⟨r₃, hr₃, hle⟩ := exists_lookup_run htraced₂ hr hkept hrun₃ hnever₂.1
    have hr' : s₄.reg.records.lookup r.key = some r' := by
      rw [hkey]
      refine lookup_insert (.insert d :: es₃) htraced₃ hst₄ ?_
      simpa using hd
    exact hle.trans (((hnever₂.2 s₃ hrun₃) s₄ hst₄).1 r.key r₃ r' hr₃ hr')
  · intro horder
    refine (run_induction (motive := fun es _ => InOrder ttl es →
      Along step NeverDecreases (start ttl) es) (fun _ => along_nil) ?_ hrun) horder
    intro es s e s' hrun ih hst horder
    refine along_concat.mpr ⟨ih horder.of_append, fun t t' ht ht' => ?_⟩
    obtain rfl : s = t := Option.some.inj (hrun.symm.trans ht)
    obtain rfl : s' = t' := Option.some.inj (hst.symm.trans ht')
    have htraced := traced_run hrun
    intro key r r' hr hr'
    rcases lookup_of_step htraced.keyed hst hr' with ⟨d, rfl, hd, hkey⟩ | ⟨hsame, -⟩
    · -- the record that is replaced was inserted before
      obtain ⟨es₁, c, es₂, hes, hc, hkept⟩ := htraced.stored key r hr
      refine horder es₁ c es₂ d [] r r' (by rw [hes]) (getElem?_calls hc) ?_ ?_ hkept
      · exact getElem?_calls (htraced.pending d r' hd)
      · exact (htraced.keyed key r hr).trans hkey.symm
    · obtain rfl := Option.some.inj (hr.symm.trans hsame)
      exact le_rfl

/-- The call that inserts. -/
def inserts : RegistrationEvent → Option CallId
  | .insert c => some c
  | _ => none

/-- Calls that read a clock that does not go back, and insert in the order of their readings. -/
theorem inOrder_of_sorted (hclock : (calls es).Pairwise (·.registeredAt ≤ ·.registeredAt))
    (hinserts : (es.filterMap inserts).Pairwise (· < ·)) : InOrder ttl es := by
  rintro es₁ c es₂ d es₃ r r' rfl hc hd - -
  have hlt : c < d := by
    simp only [List.filterMap_append, List.filterMap_cons, inserts] at hinserts
    have hcross := (List.pairwise_append.mp hinserts).2.2
    exact hcross c (by simp) d (by simp)
  obtain ⟨hclt, rfl⟩ := List.getElem?_eq_some_iff.mp hc
  obtain ⟨hdlt, rfl⟩ := List.getElem?_eq_some_iff.mp hd
  exact List.pairwise_iff_getElem.mp hclock c d hclt hdlt hlt

/-- An instance that is to be registered. -/
def calculator : ServiceRecord := ⟨"calc", "a", "10.0.0.1:9000", "a", 0⟩

/-- A renewal reads the clock while the registration before it awaits the lock. -/
def renewedInOrder : List RegistrationEvent :=
  [.readClock calculator 10, .readClock calculator 20, .insert 0, .evictExpired 20, .insert 1]

/-- The registration inserts first. -/
theorem renewals_iff_renewedInOrder :
    (Transition.run step (start 30000000000) renewedInOrder).isSome ∧
    Along step NeverDecreases (start 30000000000) renewedInOrder := by
  refine ⟨rfl, (renewals_iff 30000000000 renewedInOrder (Option.some_get rfl).symm).mpr ?_⟩
  exact inOrder_of_sorted (by decide) (by decide)

/-- A renewal at second 20 completes while a registration that has read second 10 awaits the
lock. -/
def overtaken : List RegistrationEvent :=
  [.readClock calculator 10, .readClock calculator 20, .insert 1]

/-- The registration puts the lease back to second 10, and at second 41 the registry evicts the
instance that was renewed 21 seconds ago. -/
theorem overtaken_renewal : ∃ s s' s'' : Registrations,
    Transition.run step (start 30000000000) overtaken = some s ∧
    s.reg.records.lookup ("calc", "a") = some { calculator with registeredAt := 20 } ∧
    s.step (.insert 0) = some s' ∧
    s'.reg.records.lookup ("calc", "a") = some { calculator with registeredAt := 10 } ∧
    s'.step (.evictExpired 41) = some s'' ∧ s''.reg.records.lookup ("calc", "a") = none ∧
    ¬ Along step NeverDecreases (start 30000000000) (overtaken ++ [.insert 0]) := by
  refine ⟨_, _, _, rfl, by decide, rfl, by decide, rfl, by decide, fun hnever => ?_⟩
  have hlast := along_concat.mp hnever
  have hle := hlast.2 _ _ rfl rfl ("calc", "a") { calculator with registeredAt := 20 }
    { calculator with registeredAt := 10 } (by decide) (by decide)
  exact absurd hle (by decide)

end Registrations

end LaneSwitchboards
