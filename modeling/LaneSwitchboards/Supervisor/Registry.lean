import LaneSwitchboards.Lib.HashMap
import LaneSwitchboards.Supervisor.Replacement

/-!
# The child registry

A supervisor whose children come from `spawn_child_spec`: the factory of each spawns its child and
registers it under its name, with a new generation, before it returns. The registry may be shared
with other supervisors, whose children have other names.

Three places know the instance of a slot: the slot, `current_refs` and the registry.

* `InPlace.step`: a slot that is not dead has the id in `current_refs`.
* `Current.step`: the registry has that id under the name of the slot, and as its generation the
  number of instances that were spawned for it and whose factory has returned.
* `registry_current`: so at the top of the loop the three agree.
-/

namespace LaneSwitchboards

open Function Transition
open Slot (setId sortByOrder getElem?_setId)

/-! ### The registry -/

/-- Named child references. A reference is known by its id, and the clones that the registry holds
are counted like those of anybody else. A generation is a natural number: each bump goes with a new
actor id, so a generation wraps only after the ids do (`System.Instances.spawns_lt_nextId`). -/
structure ChildRegistry (K : Type) where
  refs : HashMap K ActorId
  generations : HashMap K ℕ

namespace ChildRegistry

variable {K : Type} [DecidableEq K] {r : ChildRegistry K} {name name' : K} {id : ActorId}

def new : ChildRegistry K := ⟨∅, ∅⟩

/-- The current reference of a name. -/
def get (r : ChildRegistry K) (name : K) : Option ActorId := r.refs.lookup name

/-- How often a name was registered. -/
def generation (r : ChildRegistry K) (name : K) : ℕ := (r.generations.lookup name).getD 0

/-- Both at once. -/
def getWithGeneration (r : ChildRegistry K) (name : K) : Option (ActorId × ℕ) :=
  (r.refs.lookup name).map fun id => (id, (r.generations.lookup name).getD 0)

/-- Register a reference and bump the generation of its name. -/
def trackAndBump (r : ChildRegistry K) (name : K) (id : ActorId) : ChildRegistry K where
  refs := r.refs.insert name id
  generations := r.generations.insert name ((r.generations.lookup name).getD 0 + 1)

theorem get_trackAndBump : (r.trackAndBump name id).get name' =
    if name' = name then some id else r.get name' :=
  lookup_insert_eq_ite ..

theorem generation_trackAndBump : (r.trackAndBump name id).generation name' =
    r.generation name' + if name' = name then 1 else 0 := by
  rw [generation, trackAndBump, lookup_insert_eq_ite]
  split_ifs with h
  · rw [h]
    rfl
  · rfl

theorem getWithGeneration_eq :
    r.getWithGeneration name = (r.get name).map (·, r.generation name) := rfl

end ChildRegistry

/-- A child of `spawn_child_spec`. -/
structure NamedSpec (K : Type) where
  slot : Slot
  name : K

/-- The stable sort of the specs, by the order of their slots. -/
def sortSpecs {K : Type} (specs : List (NamedSpec K)) : List (NamedSpec K) :=
  specs.insertionSort (·.slot.order ≤ ·.slot.order)

theorem map_slot_sortSpecs {K : Type} (specs : List (NamedSpec K)) :
    (sortSpecs specs).map NamedSpec.slot = sortByOrder (specs.map NamedSpec.slot) :=
  List.map_insertionSort _ _ _ _ fun _ _ _ _ => Iff.rfl

namespace System

variable {M A : Type} {s s' : System M A} {e : SysEvent M A} {idx j : ℕ}

/-! ### The slots and the current references -/

/-- A slot that was started and is not dead has the id of the current reference. -/
structure InPlace (s : System M A) : Prop where
  instances : s.Instances
  inRange : ∀ idx ∈ starting s.sup.phase, idx < s.sup.slots.length
  slots : s.sup.phase.ended = false → ∀ idx slot, s.sup.slots[idx]? = some slot →
    idx ∉ s.sup.phase.pending → slot.id = .DEAD ∨ s.sup.currentRefs[idx]? = some slot.id

/-- The number of slots is fixed at the start. -/
theorem length_slots_of_step (h : s.step e = some s') :
    s'.sup.slots.length = s.sup.slots.length := by
  simpa using congrArg List.length (sup_of_step h).1

/-- After the start there is a current reference for each slot. -/
theorem Instances.length_currentRefs (hi : s.Instances) (hne : s.sup.phase.ended = false)
    (hpending : s.sup.phase.pending = []) : s.sup.currentRefs.length = s.sup.slots.length := by
  obtain ⟨hle, halign⟩ := hi.aligned hne
  rw [hpending, eq_comm, List.range'_eq_nil_iff] at halign
  omega

/-- **The return of a factory** puts the new reference in the place of its slot. -/
theorem InPlace.getElem?_install (hs : s.InPlace) {cause : Cause} {id : ActorId} {todo : List ℕ}
    (hp : s.sup.phase = .installing cause idx id todo) (j : ℕ) :
    (s.install cause idx id todo).sup.currentRefs[j]? =
      if j = idx then some id else s.sup.currentRefs[j]? := by
  have hne : s.sup.phase.ended = false := by rw [hp]; rfl
  cases cause with
  | start =>
    -- the slots are started in order
    have halign := (hs.instances.aligned hne).2
    rw [hp, SupPhase.pending, eq_comm, List.range'_eq_cons_iff] at halign
    obtain rfl := halign.1
    simp only [install, List.getElem?_append, List.getElem?_singleton]
    split_ifs with hlt heq heq heq
    · omega
    · rfl
    · rfl
    · omega
    · omega
    · exact (List.getElem?_eq_none (not_lt.mp hlt)).symm
  | signal sig =>
    have hlen := hs.instances.length_currentRefs hne (by rw [hp]; rfl)
    have hlt : idx < s.sup.currentRefs.length := by
      rw [hlen]
      exact hs.inRange idx (by rw [hp]; exact List.mem_cons_self)
    simp only [install, List.getElem?_set, if_pos hlt, eq_comm]

/-- A step that leaves the slots and the references alone. -/
theorem InPlace.of_eq (hs : s.InPlace) (h : s.step e = some s')
    (hstarting : starting s'.sup.phase ⊆ starting s.sup.phase)
    (hslots : s'.sup.slots = s.sup.slots) (hrefs : s'.sup.currentRefs = s.sup.currentRefs)
    (hne : s.sup.phase.ended = false) (hpending : s'.sup.phase.pending = s.sup.phase.pending) :
    s'.InPlace where
  instances := hs.instances.step h
  inRange := fun idx hidx => by
    rw [hslots]
    exact hs.inRange idx (hstarting hidx)
  slots := fun _ => by
    rw [hslots, hrefs, hpending]
    exact hs.slots hne

/-- A task that has ended does not come back. -/
theorem ended_of_step (h : s.step e = some s') (hne : s'.sup.phase.ended = false) :
    s.sup.phase.ended = false := by
  cases e with
  | env e =>
    obtain ⟨-, rt, -, rfl⟩ := step_env h
    exact hne
  | sup c =>
    cases supStep_inv h with
    | spawn actor id rt hp | startFailed hp | childFailed hp | installed hp | restarted hp
    | signal hp | panic hp | shutdown hp | sendStop rt hp | exit hp =>
      rw [hp]
      rfl

/-- The end of the supervisor's task. -/
theorem InPlace.of_ended (hs : s.InPlace) (h : s.step e = some s')
    (hend : s'.sup.phase.ended = true) : s'.InPlace where
  instances := hs.instances.step h
  inRange := fun idx hidx => by
    rw [starting_of_quiet (SupPhase.quiet_of_ended hend)] at hidx
    cases hidx
  slots := fun hne => by
    rw [hend] at hne
    cases hne

/-- The return of a factory keeps the references in place. -/
theorem InPlace.install (hs : s.InPlace) {cause : Cause} {id : ActorId} {todo : List ℕ}
    (hp : s.sup.phase = .installing cause idx id todo)
    (h : s.step e = some (s.install cause idx id todo)) :
    (s.install cause idx id todo).InPlace := by
  have hslots : (s.install cause idx id todo).sup.slots = setId s.sup.slots idx id := by
    cases cause <;> rfl
  have hphase : (s.install cause idx id todo).sup.phase = .restart cause todo := by
    cases cause <;> rfl
  refine ⟨hs.instances.step h, fun j hj => ?_, fun _ j slot hslot hj => ?_⟩
  · rw [hphase] at hj
    rw [length_slots_of_step h]
    exact hs.inRange j (by rw [hp]; exact List.mem_cons_of_mem _ hj)
  · rw [hs.getElem?_install hp]
    rw [hslots] at hslot
    rw [hphase] at hj
    rcases getElem?_setId hslot with ⟨rfl, hid⟩ | ⟨hne, hold⟩
    · rw [if_pos rfl, hid]
      exact Or.inr rfl
    · rw [if_neg hne]
      refine hs.slots (by rw [hp]; rfl) j slot hold ?_
      rw [hp]
      cases cause with
      | start => exact List.not_mem_cons_of_ne_of_not_mem hne hj
      | signal sig => exact hj

/-- A signal restarts slots of the supervisor. -/
theorem lt_of_mem_starting {p : Supervisor} {sig : RestartSignal} {now : Instant}
    (h : idx ∈ starting (p.takeSignal sig now).phase) : idx < p.slots.length := by
  rcases takeSignal_phase p sig now with ⟨-, hphase⟩ | ⟨-, hquiet⟩
  · rw [hphase] at h
    exact lt_of_mem_toRestart h
  · rw [starting_of_quiet hquiet] at h
    cases h

/-- **Every step keeps the references in place.** -/
theorem InPlace.step (hs : s.InPlace) (h : s.step e = some s') : s'.InPlace := by
  cases e with
  | env e =>
    obtain ⟨-, rt, -, rfl⟩ := step_env h
    exact ⟨hs.instances.step h, hs.inRange, hs.slots⟩
  | sup c =>
    cases supStep_inv h with
    | @spawn cause idx todo actor id rt hp hrt =>
      refine hs.of_eq h ?_ rfl rfl (by rw [hp]; rfl) ?_
      · rw [hp]
        exact List.Subset.refl _
      · rw [hp]
        cases cause <;> rfl
    | startFailed hp => exact hs.of_ended h rfl
    | @childFailed sig idx todo hp =>
      refine ⟨hs.instances.step h, fun j hj => ?_, fun _ j slot hslot _ => ?_⟩
      · rw [length_slots_of_step h]
        exact hs.inRange j (by rw [hp]; exact List.mem_cons_of_mem _ hj)
      · rcases getElem?_setId hslot with ⟨-, hid⟩ | ⟨-, hold⟩
        · exact Or.inl hid
        · exact hs.slots (by rw [hp]; rfl) j slot hold (by rw [hp]; exact List.not_mem_nil)
    | installed hp => exact hs.install hp h
    | @restarted cause hp =>
      refine hs.of_eq h (List.nil_subset _) rfl rfl (by rw [hp]; rfl) ?_
      rw [hp]
      cases cause <;> rfl
    | @signal sig ch now hp hsig hnp =>
      have hrefs := (map_order_takeSignal s.sup sig now).2.1
      refine ⟨hs.instances.step h, fun j hj => ?_, fun _ j slot hslot _ => ?_⟩
      · rw [length_slots_of_step h]
        exact lt_of_mem_starting hj
      · rw [hrefs]
        rcases getElem?_takeSignal hslot with ⟨-, -, -, hdead⟩ | hold
        · exact Or.inl hdead
        · exact hs.slots (by rw [hp]; rfl) j slot hold (by rw [hp]; exact List.not_mem_nil)
    | panic hp hsig hpanic => exact hs.of_ended h rfl
    | shutdown hp =>
      exact hs.of_eq h (List.nil_subset _) rfl rfl (by rw [hp]; rfl) (by rw [hp]; rfl)
    | sendStop rt hp hrt =>
      exact hs.of_eq h (List.nil_subset _) rfl rfl (by rw [hp]; rfl) (by rw [hp]; rfl)
    | exit hp => exact hs.of_ended h rfl

/-- The start of a supervisor. -/
theorem inPlace_start {rt : Runtime M A} {config : SupervisorConfig} {actorConfig : ActorConfig}
    {children : List Slot} (hrt : rt.Reachable)
    (h : start rt config actorConfig children = some s) : s.InPlace := by
  have hi := instances_start hrt h
  simp only [start, Option.map_eq_some_iff] at h
  obtain ⟨rt', -, rfl⟩ := h
  refine ⟨hi, fun idx hidx => ?_, fun _ idx slot hslot hidx => absurd ?_ hidx⟩
  · simpa [starting, sortByOrder] using hidx
  · have hlt := (List.getElem?_eq_some_iff.mp hslot).1
    simpa [SupPhase.pending, sortByOrder] using hlt

/-- How often a slot was spawned. -/
def spawns (s : System M A) (idx : ℕ) : ℕ := s.spawned.countP (·.1 = idx)

/-- Each spawn takes a new id. -/
theorem Instances.spawns_lt_nextId (hi : s.Instances) (idx : ℕ) : s.spawns idx < s.rt.nextId := by
  have hlt := hi.rt.length_lt_nextId hi.nodup fun i hi' => ?_
  · rw [List.length_map] at hlt
    exact List.countP_le_length.trans_lt hlt
  · obtain ⟨x, hx, rfl⟩ := List.mem_map.mp hi'
    exact hi.spawned x hx

/-- One if the factory of the slot has spawned and has yet to return. -/
def unreturned (idx : ℕ) : SupPhase → ℕ
  | .installing _ j _ _ => if j = idx then 1 else 0
  | _ => 0

/-- What a step means for the current references and for the instances that were spawned. -/
inductive RefMove (s : System M A) (e : SysEvent M A) (s' : System M A) : Prop
  | spawn (j : ℕ) (id : ActorId) (he : e ≠ .sup .installed)
      (hrefs : s'.sup.currentRefs = s.sup.currentRefs)
      (hspawned : s'.spawned = s.spawned ++ [(j, id)])
      (hbefore : ∀ idx, unreturned idx s.sup.phase = 0)
      (hafter : ∀ idx, unreturned idx s'.sup.phase = if j = idx then 1 else 0)
  | install (cause : Cause) (j : ℕ) (id : ActorId) (todo : List ℕ) (he : e = .sup .installed)
      (hp : s.sup.phase = .installing cause j id todo)
      (hrefs : ∀ idx, s'.sup.currentRefs[idx]? =
        if idx = j then some id else s.sup.currentRefs[idx]?)
      (hspawned : s'.spawned = s.spawned) (hafter : ∀ idx, unreturned idx s'.sup.phase = 0)
  | keep (he : e ≠ .sup .installed) (hrefs : s'.sup.currentRefs = s.sup.currentRefs)
      (hspawned : s'.spawned = s.spawned)
      (hsame : ∀ idx, unreturned idx s'.sup.phase = unreturned idx s.sup.phase)
  | ended (he : e ≠ .sup .installed) (hend : s'.sup.phase.ended = true)

theorem unreturned_of_quiet {p : SupPhase} (h : p.quiet = true) (idx : ℕ) :
    unreturned idx p = 0 := by
  cases p <;> first | rfl | cases h

/-- **Inversion of a step**, for the current references. -/
theorem InPlace.refMove (hs : s.InPlace) (h : s.step e = some s') : RefMove s e s' := by
  cases e with
  | env e =>
    obtain ⟨-, rt, -, rfl⟩ := step_env h
    exact .keep (by simp) rfl rfl fun _ => rfl
  | sup c =>
    cases supStep_inv h with
    | @spawn cause idx todo actor id rt hp hrt =>
      exact .spawn idx id (by simp) rfl rfl (fun _ => by rw [hp]; rfl) fun _ => rfl
    | @installed cause idx id todo hp =>
      refine .install cause idx id todo rfl hp (hs.getElem?_install hp) ?_ ?_
      · cases cause <;> rfl
      · cases cause <;> exact fun _ => rfl
    | @signal sig ch now hp hsig hnp =>
      refine .keep (by simp) (map_order_takeSignal s.sup sig now).2.1 rfl fun idx => ?_
      change unreturned idx (s.sup.takeSignal sig now).phase = _
      rw [hp]
      rcases takeSignal_phase s.sup sig now with ⟨-, hphase⟩ | ⟨-, hquiet⟩
      · rw [hphase]
        rfl
      · rw [unreturned_of_quiet hquiet]
        rfl
    | childFailed hp | restarted hp | shutdown hp | sendStop rt hp hrt =>
      exact .keep (by simp) rfl rfl fun _ => by rw [hp]; rfl
    | startFailed hp | panic hp hsig hpanic | exit hp => exact .ended (by simp) rfl

end System

/-! ### Named children -/

/-- A supervisor whose children are named, and their registry. -/
structure NamedSystem (M A K : Type) where
  sys : System M A
  /-- The names of the children, by slot. -/
  names : List K
  registry : ChildRegistry K

/-- One event. -/
inductive NamedEvent (M A K : Type)
  | sys (e : SysEvent M A)
  /-- Another supervisor registers a child of its own. -/
  | track (name : K) (id : ActorId)

namespace NamedSystem

variable {M A K : Type} [DecidableEq K] {s s' : NamedSystem M A K} {e : NamedEvent M A K}
  {es : List (NamedEvent M A K)}

/-- The start of the supervisor. -/
def start (rt : Runtime M A) (config : SupervisorConfig) (actorConfig : ActorConfig)
    (specs : List (NamedSpec K)) : Option (NamedSystem M A K) :=
  (System.start rt config actorConfig (specs.map NamedSpec.slot)).map fun sys =>
    ⟨sys, (sortSpecs specs).map NamedSpec.name, .new⟩

/-- The registry after a step: a factory registers its child before it returns. -/
def tracked (s : NamedSystem M A K) (e : SysEvent M A) : ChildRegistry K :=
  match e, s.sys.sup.phase with
  | .sup .installed, .installing _ idx id _ =>
    (s.names[idx]?).elim s.registry fun name => s.registry.trackAndBump name id
  | _, _ => s.registry

/-- One event of the system. -/
def step (s : NamedSystem M A K) : NamedEvent M A K → Option (NamedSystem M A K)
  | .sys e => (s.sys.step e).map fun sys => { s with sys := sys, registry := s.tracked e }
  | .track name id =>
    if name ∈ s.names then none
    else some { s with registry := s.registry.trackAndBump name id }

/-- Execute a list of events. -/
abbrev run : NamedSystem M A K → List (NamedEvent M A K) → Option (NamedSystem M A K) :=
  Transition.run step

theorem tracked_of_ne {e : SysEvent M A} (he : e ≠ .sup .installed) :
    s.tracked e = s.registry := by
  unfold tracked
  split
  · exact absurd rfl he
  · rfl

/-- The registry has the current reference and the generation of each child. -/
structure Current (s : NamedSystem M A K) : Prop where
  inPlace : s.sys.InPlace
  length : s.names.length = s.sys.sup.slots.length
  nodup : s.names.Nodup
  refs : s.sys.sup.phase.ended = false → ∀ (idx : ℕ) name, s.names[idx]? = some name →
    s.registry.get name = s.sys.sup.currentRefs[idx]?
  generation : s.sys.sup.phase.ended = false → ∀ (idx : ℕ) name, s.names[idx]? = some name →
    s.registry.generation name + System.unreturned idx s.sys.sup.phase = s.sys.spawns idx

/-- A step of the supervisor keeps the registry current. -/
theorem Current.sys (hs : s.Current) {e : SysEvent M A} {sys : System M A}
    (h : s.sys.step e = some sys) :
    Current { s with sys := sys, registry := s.tracked e } := by
  have hlength := hs.length.trans (System.length_slots_of_step h).symm
  have hrunning := System.ended_of_step h
  cases hs.inPlace.refMove h with
  | spawn j id he hrefs hspawned hbefore hafter =>
    refine ⟨hs.inPlace.step h, hlength, hs.nodup, fun hne idx name hname => ?_,
      fun hne idx name hname => ?_⟩
    · simp only [tracked_of_ne he, hrefs]
      exact hs.refs (hrunning hne) idx name hname
    · have hold := hs.generation (hrunning hne) idx name hname
      simp only [tracked_of_ne he, hafter, System.spawns, hspawned, List.countP_append]
      rw [hbefore] at hold
      simpa [System.spawns] using hold
  | install cause j id todo he hp hrefs hspawned hafter =>
    have hlt : j < s.names.length := by
      rw [hs.length]
      exact hs.inPlace.inRange j (by rw [hp]; exact List.mem_cons_self)
    obtain ⟨name', hname'⟩ : ∃ name', s.names[j]? = some name' :=
      ⟨_, List.getElem?_eq_getElem hlt⟩
    have htracked : s.tracked e = s.registry.trackAndBump name' id := by
      subst he
      simp only [tracked, hp, hname', Option.elim_some]
    -- the name of the slot, and of no other
    have hslot {idx : ℕ} {name : K} (hname : s.names[idx]? = some name) :
        name = name' ↔ idx = j := by
      constructor
      · rintro rfl
        exact (List.getElem?_inj (List.getElem?_eq_some_iff.mp hname).1 hs.nodup).mp
          (hname.trans hname'.symm)
      · rintro rfl
        exact Option.some.inj (hname.symm.trans hname')
    refine ⟨hs.inPlace.step h, hlength, hs.nodup, fun hne idx name hname => ?_,
      fun hne idx name hname => ?_⟩
    · simp only [htracked, ChildRegistry.get_trackAndBump, hslot hname, hrefs]
      split_ifs
      · rfl
      · exact hs.refs (hrunning hne) idx name hname
    · have hold := hs.generation (hrunning hne) idx name hname
      rw [hp] at hold
      simp only [htracked, ChildRegistry.generation_trackAndBump, hslot hname, hafter,
        System.spawns, hspawned]
      simp only [System.unreturned, System.spawns, eq_comm (a := j)] at hold
      rw [← hold]
      rfl
  | keep he hrefs hspawned hsame =>
    refine ⟨hs.inPlace.step h, hlength, hs.nodup, fun hne idx name hname => ?_,
      fun hne idx name hname => ?_⟩
    · simp only [tracked_of_ne he, hrefs]
      exact hs.refs (hrunning hne) idx name hname
    · simp only [tracked_of_ne he, hsame, System.spawns, hspawned]
      exact hs.generation (hrunning hne) idx name hname
  | ended he hend =>
    refine ⟨hs.inPlace.step h, hlength, hs.nodup, fun hne => ?_, fun hne => ?_⟩
    · rw [hend] at hne
      cases hne
    · rw [hend] at hne
      cases hne

/-- **Every step keeps the registry current.** -/
theorem Current.step (hs : s.Current) (h : s.step e = some s') : s'.Current := by
  cases e with
  | sys e =>
    obtain ⟨sys, hsys, rfl⟩ := Option.map_eq_some_iff.mp h
    exact hs.sys hsys
  | track name' id =>
    simp only [NamedSystem.step, Option.ite_none_left_eq_some, Option.some.injEq] at h
    obtain ⟨hother, rfl⟩ := h
    have hne {idx : ℕ} {name : K} (hname : s.names[idx]? = some name) : name ≠ name' := by
      rintro rfl
      exact hother (List.mem_of_getElem? hname)
    refine ⟨hs.inPlace, hs.length, hs.nodup, fun hne' idx name hname => ?_,
      fun hne' idx name hname => ?_⟩
    · rw [ChildRegistry.get_trackAndBump, if_neg (hne hname)]
      exact hs.refs hne' idx name hname
    · rw [ChildRegistry.generation_trackAndBump, if_neg (hne hname)]
      exact hs.generation hne' idx name hname

/-- The start of a supervisor whose children have distinct names. -/
theorem current_start {rt : Runtime M A} {config : SupervisorConfig} {actorConfig : ActorConfig}
    {specs : List (NamedSpec K)} (hrt : rt.Reachable) (hnames : (specs.map NamedSpec.name).Nodup)
    (h : start rt config actorConfig specs = some s) : s.Current := by
  obtain ⟨sys, hsys, rfl⟩ := Option.map_eq_some_iff.mp h
  have hinPlace := System.inPlace_start hrt hsys
  simp only [System.start, Option.map_eq_some_iff] at hsys
  obtain ⟨rt', -, rfl⟩ := hsys
  refine ⟨hinPlace, ?_, ?_, fun _ idx name _ => rfl, fun _ idx name _ => rfl⟩
  · simp [sortSpecs, sortByOrder]
  · exact ((List.perm_insertionSort _ specs).map _).nodup_iff.mpr hnames

/-- **The child registry.** For every supervisor whose children come from `spawn_child_spec` with
distinct names in one registry, whatever the configuration and the interleaving, at the top of the
loop: each slot has a current reference, and its id is dead or the id of this reference; the
registry has the reference under the name of the slot, and as its generation the number of times
that the slot was spawned, which is below the next actor id; and no two slots that are not dead
have the same id. -/
theorem registry_current {rt : Runtime M A} {config : SupervisorConfig}
    {actorConfig : ActorConfig} {specs : List (NamedSpec K)} {s₀ : NamedSystem M A K}
    (hrt : rt.Reachable) (hnames : (specs.map NamedSpec.name).Nodup)
    (hstart : start rt config actorConfig specs = some s₀) (hrun : s₀.run es = some s)
    (hp : s.sys.sup.phase = .select) :
    s.sys.sup.currentRefs.length = s.sys.sup.slots.length ∧
    (∀ (idx : ℕ) slot, s.sys.sup.slots[idx]? = some slot → ∃ name i,
      s.names[idx]? = some name ∧ s.sys.sup.currentRefs[idx]? = some i ∧
      (slot.id = .DEAD ∨ slot.id = i) ∧ s.registry.get name = some i ∧
      s.registry.generation name = s.sys.spawns idx ∧
      s.registry.getWithGeneration name = some (i, s.sys.spawns idx) ∧
      s.sys.spawns idx < s.sys.rt.nextId) ∧
    ∀ (j k : ℕ) slot slot', s.sys.sup.slots[j]? = some slot → s.sys.sup.slots[k]? = some slot' →
      slot.id ≠ .DEAD → slot.id = slot'.id → j = k := by
  have hs : s.Current :=
    invariant_run (P := Current) (fun hs hst => hs.step hst) (current_start hrt hnames hstart) hrun
  have hne : s.sys.sup.phase.ended = false := by rw [hp]; rfl
  have hpending : s.sys.sup.phase.pending = [] := by rw [hp]; rfl
  have hi := hs.inPlace.instances
  have hlen := hi.length_currentRefs hne hpending
  refine ⟨hlen, fun idx slot hslot => ?_, fun j k slot slot' hj hk hdead hid => ?_⟩
  · have hlt := (List.getElem?_eq_some_iff.mp hslot).1
    obtain ⟨name, hname⟩ : ∃ name, s.names[idx]? = some name :=
      ⟨_, List.getElem?_eq_getElem (hs.length ▸ hlt)⟩
    obtain ⟨i, href⟩ : ∃ i, s.sys.sup.currentRefs[idx]? = some i :=
      ⟨_, List.getElem?_eq_getElem (hlen ▸ hlt)⟩
    have hget : s.registry.get name = some i := (hs.refs hne idx name hname).trans href
    have hgeneration : s.registry.generation name = s.sys.spawns idx := by
      have hsum := hs.generation hne idx name hname
      rwa [hp] at hsum
    refine ⟨name, i, hname, href, ?_, hget, hgeneration, ?_, hi.spawns_lt_nextId idx⟩
    · refine (hs.inPlace.slots hne idx slot hslot ?_).imp_right fun h => ?_
      · rw [hpending]
        exact List.not_mem_nil
      · exact Option.some.inj (h.symm.trans href)
    · rw [ChildRegistry.getWithGeneration_eq, hget, hgeneration]
      rfl
  · -- an instance belongs to one slot
    have hspawned {idx : ℕ} {slot : Slot} (hslot : s.sys.sup.slots[idx]? = some slot)
        (hdead : slot.id ≠ .DEAD) : (idx, slot.id) ∈ s.sys.spawned := by
      refine (hi.slots hne idx slot hslot ?_).resolve_left hdead
      rw [hpending]
      exact List.not_mem_nil
    exact hi.slot_unique (hid ▸ hspawned hj hdead) (hspawned hk (hid ▸ hdead))

/-- Two named children under a OneForOne supervisor. -/
def namedTwo : NamedSystem Unit Unit String :=
  (start System.twoSpecs .default .default [⟨⟨⟨1⟩, 0⟩, "a"⟩, ⟨⟨⟨2⟩, 1⟩, "b"⟩]).get rfl

/-- The first child fails and is restarted; another supervisor uses the registry too. -/
def namedRestart : List (NamedEvent Unit Unit String) :=
  System.childRestarted.map .sys ++ [.track "c" ⟨9⟩]

/-- The result for these children. -/
theorem registry_namedRestart : ∃ s, namedTwo.run namedRestart = some s ∧
    s.sys.sup.currentRefs.length = s.sys.sup.slots.length ∧
    s.registry.getWithGeneration "a" = some (⟨5⟩, 2) ∧
    s.registry.getWithGeneration "b" = some (⟨4⟩, 1) := by
  have hstart : start System.twoSpecs .default .default
    [⟨⟨⟨1⟩, 0⟩, "a"⟩, ⟨⟨⟨2⟩, 1⟩, "b"⟩] = some namedTwo := rfl
  have hsome : (namedTwo.run namedRestart).isSome := rfl
  have hrun := (Option.some_get hsome).symm
  refine ⟨_, hrun, ?_, rfl, rfl⟩
  exact (registry_current System.reachable_twoSpecs (by decide) hstart hrun rfl).1

end NamedSystem

end LaneSwitchboards
