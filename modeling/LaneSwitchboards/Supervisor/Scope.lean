import LaneSwitchboards.Actor.Link
import LaneSwitchboards.Lib.Sorting
import LaneSwitchboards.Lib.Trace
import LaneSwitchboards.Supervisor.Replacement

/-!
# Which factories a signal calls

When a supervisor acts upon a signal, its strategy decides which slots are restarted: the scope of
the slot whose child has failed. The slots are in the order of their specs, those of equal order
as they were given, and a pass calls the factories of its scope one after the other, each once.

A child sends at most one signal (`Reachable.signals_once`), and until that is taken the child is
the current instance of its slot where the strategy is OneForOne (`Own`).

* `Passes`: the factory calls of a pass and the slots that it has yet to restart are the scope.
* `restart_scope`: every pass, and the signals of a OneForOne supervisor.
-/

namespace LaneSwitchboards

open Slot (sortByOrder position setId abandon getElem?_setId getElem?_abandon getElem?_position)

/-! ### The signals of a task -/

namespace Runtime

open Transition

variable {M A : Type} {w w' : Runtime M A} {e : RtEvent M A} {es : List (RtEvent M A)} {k : SupId}
  {i : ActorId}

/-- A signal channel has one signal of a task at most, which is on its way out then. -/
structure SignalsOnce (w : Runtime M A) (k : SupId) : Prop where
  nodup : ((w.signals k).accepted.map RestartSignal.childId).Nodup
  ended : ∀ sig ∈ (w.signals k).accepted, ∃ t, w.tasks sig.childId = some t ∧
    t.phase.termination ≠ none
  fifo : (w.signals k).Fifo

theorem SignalsOnce.step (hs : w.SignalsOnce k) (hf : w.Fresh) (h : w.step e = some w') :
    w'.SignalsOnce k := by
  have hended : ∀ sig ∈ (w.signals k).accepted, ∃ t, w'.tasks sig.childId = some t ∧
      t.phase.termination ≠ none := fun sig hsig =>
    HasExited.step (hs.ended sig hsig) hf h
  rcases signals_step h k with ⟨hacc, hqueue, -⟩ |
    ⟨i, c, t, t', r, -, ht, hp, hstep, ht', -, hpush⟩ | ⟨-, -, n, hnew⟩
  · refine ⟨by rw [hacc]; exact hs.nodup, by rwa [hacc], ?_⟩
    unfold Chan.Fifo
    rw [hacc]
    exact hqueue.trans hs.fifo
  · have hnone : t.phase.termination = none := by rw [hp]; rfl
    have hend : t'.phase.termination ≠ none := by
      obtain rfl : t.exit r = t' := by
        cases t
        cases hp
        exact Option.some.inj hstep
      exact Option.some_ne_none _
    have hfresh : i ∉ (w.signals k).accepted.map RestartSignal.childId := by
      intro hmem
      obtain ⟨sig, hsig, rfl⟩ := List.mem_map.mp hmem
      obtain ⟨s, hs', hend'⟩ := hs.ended sig hsig
      obtain rfl : t = s := Option.some.inj (ht.symm.trans hs')
      exact hend' hnone
    refine ⟨?_, fun sig hsig => ?_, ?_⟩
    · rw [hpush, Chan.accepted_push, List.map_append]
      exact hs.nodup.append (List.nodup_singleton i) (by simpa using hfresh)
    · rw [hpush, Chan.accepted_push] at hsig
      rcases List.mem_append.mp hsig with hsig | hsig
      · exact hended sig hsig
      · rw [List.mem_singleton.mp hsig]
        exact ⟨t', ht', hend⟩
    · rw [hpush]
      exact hs.fifo.push
  · refine ⟨?_, fun sig hsig => ?_, ?_⟩
    · rw [hnew]
      exact List.nodup_nil
    · rw [hnew] at hsig
      cases hsig
    · rw [hnew]
      exact Chan.fifo_new n

/-- **A task signals once.** -/
theorem Reachable.signals_once (h : w.Reachable) (k : SupId) : w.SignalsOnce k := by
  obtain ⟨es, hes⟩ := h
  have hboth := invariant_run (P := fun w : Runtime M A => w.Fresh ∧ w.SignalsOnce k)
    (fun hw hst => ⟨hw.1.step hst, hw.2.step hw.1 hst⟩)
    ⟨fresh_init, List.nodup_nil, fun _ hsig => (by cases hsig), List.suffix_rfl⟩ hes
  exact hboth.2

/-- The signal of the child, if it sends one, has yet to be taken. -/
def SignalDue (w : Runtime M A) (k : SupId) (i : ActorId) : Prop :=
  (∀ sig ∈ (w.signals k).accepted, sig.childId ≠ i) ∨ ∃ sig ∈ (w.signals k).queue, sig.childId = i

/-- A signal that has been taken does not come back. -/
theorem SignalDue.of_step (ho : w'.SignalDue k i) (hw : w.Reachable) (hk : k < w.nextSup)
    (h : w.step e = some w') : w.SignalDue k i := by
  have honce := (hw.step h).signals_once k
  rcases signals_step h k with ⟨hacc, hqueue, -⟩ | ⟨j, c, t, t', r, -, -, -, -, -, -, hpush⟩ |
    ⟨rfl, -⟩
  · rcases ho with hnone | ⟨sig, hsig, hid⟩
    · exact Or.inl (hacc ▸ hnone)
    · exact Or.inr ⟨sig, hqueue.subset hsig, hid⟩
  · unfold SignalDue at ho
    rw [hpush, Chan.accepted_push, Chan.queue_push] at ho
    rcases ho with hnone | ⟨sig, hsig, hid⟩
    · exact Or.inl fun sig hsig => hnone sig (List.mem_append_left _ hsig)
    · rcases List.mem_append.mp hsig with hsig | hsig
      · exact Or.inr ⟨sig, hsig, hid⟩
      · -- the signal is the first one of its task
        obtain rfl := List.mem_singleton.mp hsig
        have hnodup := honce.nodup
        rw [hpush, Chan.accepted_push, List.map_append] at hnodup
        refine Or.inl fun sig' hsig' heq => ?_
        exact (List.disjoint_of_nodup_append hnodup) (List.mem_map.mpr ⟨sig', hsig', heq⟩)
          (List.mem_singleton.mpr hid.symm)
  · exact absurd hk (Nat.lt_irrefl _)

theorem SignalDue.of_run (ho : w'.SignalDue k i) (hw : w.Reachable) (hk : k < w.nextSup)
    (h : w.run es = some w') : w.SignalDue k i := by
  have hall := invariant_run (P := fun v : Runtime M A => v.Reachable ∧ k < v.nextSup ∧
    (v.SignalDue k i → w.SignalDue k i)) ?_ ⟨hw, hk, id⟩ h
  · exact hall.2.2 ho
  · rintro v e v' ⟨hv, hlt, hback⟩ hst
    exact ⟨hv.step hst, hlt.trans_le (counters_step hst).2,
      fun hv' => hback (hv'.of_step hv hlt hst)⟩

/-- A signal that is taken is not owed any more. -/
theorem SignalsOnce.not_signalDue (hs : w.SignalsOnce k) {sig : RestartSignal}
    {ch : Chan RestartSignal} (hrecv : (w.signals k).recv = some (sig, ch)) :
    ¬ (w.setSignals k ch).SignalDue k sig.childId := by
  obtain ⟨hqueue, -⟩ := Chan.recv_eq_some.mp hrecv
  have hchan : (w.setSignals k ch).signals k = ch := by simp [setSignals]
  obtain ⟨taken, htaken⟩ := hs.fifo
  have hnodup := hs.nodup
  rw [← htaken, hqueue, List.map_append] at hnodup
  unfold SignalDue
  rw [hchan, Chan.accepted_recv hrecv]
  rintro (hnone | ⟨sig', hsig', hid⟩)
  · refine hnone sig ?_ rfl
    rw [← htaken, hqueue]
    exact List.mem_append_right _ List.mem_cons_self
  · have htail := (List.nodup_cons.mp (List.nodup_append.mp hnodup).2.1).1
    exact htail (List.mem_map.mpr ⟨sig', hsig', hid⟩)

end Runtime

/-! ### The scope of a failure -/

/-- The slots that a strategy restarts when the child of slot `idx` fails, by the orders of the
slots. -/
def RestartStrategy.scope (strategy : RestartStrategy) (orders : List ℕ) (idx : ℕ) : List ℕ :=
  match strategy with
  | .oneForOne => [idx]
  | .oneForAll => List.range orders.length
  | .restForOne => (List.range orders.length).filter fun j =>
      orders[idx]?.getD 0 ≤ orders[j]?.getD 0

/-- Where the orders do not decrease, a scope other than that of OneForOne is the end of the start
order. -/
theorem RestartStrategy.scope_suffix {strategy : RestartStrategy} {orders : List ℕ}
    (hsorted : orders.Pairwise (· ≤ ·)) (hstrategy : strategy ≠ .oneForOne) (idx : ℕ) :
    strategy.scope orders idx <:+ List.range orders.length := by
  cases strategy with
  | oneForOne => exact absurd rfl hstrategy
  | oneForAll => exact List.suffix_rfl
  | restForOne =>
    refine filter_suffix (List.pairwise_lt_range.imp_of_mem fun {i j} hi hj hlt hle => ?_)
    rw [List.mem_range] at hi hj
    rw [decide_eq_true_eq, List.getElem?_eq_getElem hi, Option.getD_some] at hle
    rw [decide_eq_true_eq, List.getElem?_eq_getElem hj, Option.getD_some]
    exact hle.trans (List.pairwise_iff_getElem.mp hsorted i j hi hj hlt)

/-- The slots that are restarted are the scope of the slot with the id of the child. -/
theorem toRestart_eq_scope {strategy : RestartStrategy} {slots : List Slot} {child : ActorId}
    {idx : ℕ} {slot : Slot} (hslot : slots[idx]? = some slot) (hid : slot.id = child)
    (huniq : ∀ j s', slots[j]? = some s' → s'.id = child → j = idx) :
    strategy.toRestart slots child = strategy.scope (slots.map Slot.order) idx := by
  cases strategy with
  | oneForOne =>
    obtain ⟨j, hj⟩ : ∃ j, position slots child = some j := by
      rw [← Option.isSome_iff_exists, Option.isSome_iff_ne_none, Ne, position_eq_none]
      exact fun hstale => hstale slot (List.mem_of_getElem? hslot) hid
    obtain ⟨s', hs', hid'⟩ := getElem?_position hj
    rw [RestartStrategy.toRestart, hj, huniq j s' hs' hid']
    rfl
  | oneForAll => simp [RestartStrategy.toRestart, RestartStrategy.scope]
  | restForOne =>
    have horder : (slots.map Slot.order)[idx]?.getD 0 = slot.order := by simp [hslot]
    rw [RestartStrategy.toRestart, RestartStrategy.scope, failedOrder_eq hslot hid huniq, horder,
      List.length_map]
    refine List.filter_congr fun j hj => ?_
    have hlt := List.mem_range.mp hj
    simp [List.getElem?_eq_getElem hlt]

namespace System

open Transition

variable {M A : Type} {s s' s₀ : System M A} {e : SysEvent M A} {es : List (SysEvent M A)}

/-- The slot whose factory the event calls: it spawns the child, or returns an error. -/
def factoryCall (s : System M A) : SysEvent M A → Option ℕ
  | .sup (.spawnChild _) | .sup .factoryErr => (starting s.sup.phase).head?
  | _ => none

/-- The factory calls of a run. -/
def factoryCalls (s : System M A) (es : List (SysEvent M A)) : List ℕ :=
  trace System.step (fun s e _ => (s.factoryCall e).toList) s es

/-! ### A pass -/

/-- A step that takes no signal calls the factory of the next slot, or none. -/
theorem due_of_step (h : s.step e = some s') (he : ¬ TakesSignal e)
    (hcause : s.sup.phase.pending = []) :
    s'.sup.phase.pending = [] ∧ due s.sup.phase = (s.factoryCall e).toList ++ due s'.sup.phase := by
  cases e with
  | env e =>
    obtain ⟨-, rt, -, rfl⟩ := step_env h
    exact ⟨hcause, rfl⟩
  | sup c =>
    cases supStep_inv h with
    | @spawn cause idx todo actor id rt hp hrt =>
      rw [hp] at hcause ⊢
      cases cause with
      | start => cases hcause
      | signal sig => exact ⟨rfl, by simp [due, factoryCall, hp, starting, spawnedChild]⟩
    | startFailed hp => rw [hp] at hcause; cases hcause
    | childFailed hp => exact ⟨rfl, by simp [due, factoryCall, hp, starting]⟩
    | @installed cause idx id todo hp =>
      rw [hp] at hcause ⊢
      cases cause with
      | start => cases hcause
      | signal sig => exact ⟨rfl, by simp [due, factoryCall, install]⟩
    | @restarted cause hp =>
      rw [hp] at hcause ⊢
      exact ⟨rfl, by simp [due, factoryCall]⟩
    | signal | panic => exact absurd ⟨_, rfl⟩ he
    | shutdown hp | sendStop rt hp | exit hp =>
      rw [hp]
      exact ⟨rfl, by simp [due, factoryCall, finish]⟩

/-- **A pass** calls the factories of the slots that are due, each once and in this order, and is
over when none is left. -/
theorem factoryCalls_append_due (hcause : s.sup.phase.pending = []) (hrun : s.run es = some s')
    (hes : ∀ e ∈ es, ¬ TakesSignal e) :
    s.factoryCalls es ++ due s'.sup.phase = due s.sup.phase := by
  induction es generalizing s with
  | nil => rw [Option.some.inj hrun, factoryCalls, trace_nil, List.nil_append]
  | cons e es ih =>
    obtain ⟨t, ht, hrest⟩ := Option.bind_eq_some_iff.mp hrun
    obtain ⟨hcause', hdue⟩ := due_of_step ht (hes e List.mem_cons_self) hcause
    have hcalls := ih hcause' hrest fun e' he' => hes e' (List.mem_cons_of_mem _ he')
    rw [factoryCalls, trace_cons_of_step ht, List.append_assoc, hdue, ← hcalls]
    rfl

/-! ### The signals of a OneForOne supervisor -/

/-- The slot has this id. -/
def HasId (s : System M A) (idx : ℕ) (i : ActorId) : Prop :=
  ∃ slot, s.sup.slots[idx]? = some slot ∧ slot.id = i

/-- The slots that the start has yet to spawn. -/
def unspawned : SupPhase → List ℕ
  | .restart .start todo | .installing .start _ _ todo => todo
  | _ => []

theorem unspawned_of_quiet {p : SupPhase} (h : p.quiet = true) : unspawned p = [] := by
  cases p <;> first | rfl | cases h

/-- The invariant of a OneForOne supervisor: a child whose signal has yet to be taken is the
current instance of its slot, or is about to be; the child whose signal is being handled still
has its slot. -/
structure Own (s : System M A) : Prop where
  instances : s.Instances
  strategy : s.sup.config.strategy = .oneForOne
  current : s.sup.phase.ended = false → ∀ idx i, (idx, i) ∈ s.spawned →
    s.rt.SignalDue s.sup.channel i →
      (∃ cause todo, s.sup.phase = .installing cause idx i todo) ∨ s.HasId idx i
  taken : ∀ sig, s.sup.phase.cause = some sig → ¬ s.rt.SignalDue s.sup.channel sig.childId ∧
    ∀ idx ∈ starting s.sup.phase, s.HasId idx sig.childId
  nodup : (starting s.sup.phase).Nodup
  unspawned : ∀ idx ∈ unspawned s.sup.phase, ∀ i, (idx, i) ∉ s.spawned
  first : ∀ idx id todo i, s.sup.phase = .installing .start idx id todo →
    (idx, i) ∈ s.spawned → i = id

/-- A slot after another one takes a new id. -/
theorem getElem?_setId_of_ne {slots : List Slot} {idx j : ℕ} {id : ActorId} (hne : j ≠ idx) :
    (setId slots idx id)[j]? = slots[j]? := by
  rw [setId, List.getElem?_modify]
  cases slots[j]? with
  | none => rfl
  | some slot => simp [hne.symm]

/-- The slot of another child after a child was given up. -/
theorem getElem?_abandon_of_ne {slots : List Slot} {child : ActorId} {j : ℕ} {slot : Slot}
    (hslot : slots[j]? = some slot) (hne : slot.id ≠ child) :
    (abandon slots child)[j]? = some slot := by
  unfold abandon
  split
  · next idx hidx =>
    rw [getElem?_setId_of_ne, hslot]
    rintro rfl
    obtain ⟨slot', hslot', hid⟩ := getElem?_position hidx
    obtain rfl : slot = slot' := Option.some.inj (hslot.symm.trans hslot')
    exact hne hid
  · exact hslot

/-- A signal that has been taken is so after a step. -/
theorem Instances.signalDue_of_step (hi : s.Instances) (h : s.step e = some s') {i : ActorId}
    (hdue : s'.rt.SignalDue s'.sup.channel i) : s.rt.SignalDue s.sup.channel i := by
  obtain ⟨ds, hds⟩ := rt_of_step hi.channel h
  rw [(sup_of_step h).2.1] at hdue
  exact hdue.of_run hi.rt hi.channel hds

/-- A step after which no slot is being started. -/
theorem Own.of_quiet (hs : s.Own) (h : s.step e = some s') (hsp : s'.spawned = s.spawned)
    (hquiet : s'.sup.phase.quiet = true)
    (hslots : s'.sup.phase.ended = false → ∀ idx i, (idx, i) ∈ s.spawned →
      s'.rt.SignalDue s'.sup.channel i → s'.HasId idx i) : s'.Own where
  instances := hs.instances.step h
  strategy := (sup_of_step h).2.2.1 ▸ hs.strategy
  current := fun hne idx i hmem hdue => Or.inr (hslots hne idx i (hsp ▸ hmem) hdue)
  taken := fun sig hsig => by
    rw [SupPhase.cause_of_quiet hquiet] at hsig
    cases hsig
  nodup := by
    rw [starting_of_quiet hquiet]
    exact List.nodup_nil
  unspawned := fun idx hidx => by
    rw [unspawned_of_quiet hquiet] at hidx
    cases hidx
  first := fun idx id todo i hp => by
    rw [hp] at hquiet
    cases hquiet

/-- A spawn keeps the invariant. -/
theorem Own.spawn (hs : s.Own) {cause : Cause} {idx : ℕ} {todo : List ℕ} {id : ActorId}
    {rt : Runtime M A} (hp : s.sup.phase = .restart cause (idx :: todo))
    (h : s.step e = some (s.spawnedChild rt cause idx id todo)) :
    (s.spawnedChild rt cause idx id todo).Own := by
  have hback {i : ActorId} := hs.instances.signalDue_of_step h (i := i)
  have hnodup : (idx :: todo).Nodup := by
    have := hs.nodup
    rwa [hp] at this
  have hmem {k : ℕ} {i : ActorId} (hm : (k, i) ∈ (s.spawnedChild rt cause idx id todo).spawned) :
      (k, i) ∈ s.spawned ∨ k = idx ∧ i = id := mem_spawned_spawnedChild.mp hm
  have hcause : (SupPhase.installing cause idx id todo).cause = s.sup.phase.cause := by
    rw [hp]
    cases cause <;> rfl
  have hunspawned : ∀ k ∈ System.unspawned (.restart cause (idx :: todo)), ∀ i,
      (k, i) ∉ s.spawned := by
    have := hs.unspawned
    rwa [hp] at this
  refine ⟨hs.instances.step h, hs.strategy, fun _ k i hm hdue => ?_, fun sig hsig => ?_, hnodup,
    fun k hk i hm => ?_, fun k id' todo' i hp' hm => ?_⟩
  · rcases hmem hm with hm | ⟨rfl, rfl⟩
    · rcases hs.current (by rw [hp]; rfl) k i hm (hback hdue) with ⟨_, _, hinst⟩ | hslot
      · rw [hp] at hinst
        cases hinst
      · exact Or.inr hslot
    · exact Or.inl ⟨cause, todo, rfl⟩
  · have hsig' : s.sup.phase.cause = some sig := hcause ▸ hsig
    obtain ⟨hnot, hslots⟩ := hs.taken sig hsig'
    rw [hp] at hslots
    exact ⟨fun hdue => hnot (hback hdue), hslots⟩
  · cases cause with
    | start =>
      have hk' : k ∈ todo := hk
      rcases hmem hm with hm | ⟨rfl, -⟩
      · exact hunspawned k (List.mem_cons_of_mem _ hk') i hm
      · exact (List.nodup_cons.mp hnodup).1 hk'
    | signal sig => cases hk
  · cases hp'
    rcases hmem hm with hm | ⟨-, rfl⟩
    · exact absurd hm (hunspawned idx List.mem_cons_self i)
    · rfl

/-- Only slots that exist are started. -/
theorem Own.lt_length (hs : s.Own) {idx : ℕ} (hidx : idx ∈ starting s.sup.phase) :
    idx < s.sup.slots.length := by
  have hpending : s.sup.phase.pending = starting s.sup.phase → idx < s.sup.slots.length := by
    intro heq
    have hne : s.sup.phase.ended = false := by
      by_contra hend
      have hquiet := SupPhase.quiet_of_ended (Bool.of_not_eq_false hend)
      rw [starting_of_quiet hquiet] at hidx
      cases hidx
    obtain ⟨hle, halign⟩ := hs.instances.aligned hne
    rw [← heq, halign, List.mem_range'_1] at hidx
    omega
  have hcause : ∀ sig, s.sup.phase.cause = some sig → idx < s.sup.slots.length := by
    intro sig hsig
    obtain ⟨slot, hslot, -⟩ := (hs.taken sig hsig).2 idx hidx
    exact (List.getElem?_eq_some_iff.mp hslot).1
  cases hp : s.sup.phase with
  | restart cause todo =>
    rw [hp] at hpending hcause
    cases cause with
    | start => exact hpending rfl
    | signal sig => exact hcause sig rfl
  | installing cause k id todo =>
    rw [hp] at hpending hcause
    cases cause with
    | start => exact hpending rfl
    | signal sig => exact hcause sig rfl
  | _ =>
    rw [hp] at hidx
    cases hidx

/-- The end of a slot's restart, with a new id or as dead, keeps the invariant. -/
theorem Own.settled (hs : s.Own) (h : s.step e = some s') {cause : Cause} {idx : ℕ}
    {id : ActorId} {todo : List ℕ} (hne : s.sup.phase.ended = false)
    (hstarting : starting s.sup.phase = idx :: todo) (hcause : s.sup.phase.cause =
      (SupPhase.restart cause todo).cause) (hsp : s'.spawned = s.spawned)
    (hp : s'.sup.phase = .restart cause todo)
    (hslots : s'.sup.slots = setId s.sup.slots idx id)
    (hinst : ∀ cause k i todo, s.sup.phase = .installing cause k i todo → k = idx ∧ i = id)
    (hold : ∀ i, (idx, i) ∈ s.spawned → s.HasId idx i → s.rt.SignalDue s.sup.channel i → i = id)
    (hunspawned : System.unspawned (.restart cause todo) ⊆ System.unspawned s.sup.phase) :
    s'.Own := by
  have hback {i : ActorId} := hs.instances.signalDue_of_step h (i := i)
  have hlt : idx < s.sup.slots.length := hs.lt_length (hstarting ▸ List.mem_cons_self)
  have hnodup : (idx :: todo).Nodup := hstarting ▸ hs.nodup
  have hnew : s'.HasId idx id := by
    refine ⟨{ s.sup.slots[idx] with id := id }, ?_, rfl⟩
    simp [hslots, setId, hlt]
  have hkeep {k : ℕ} {i : ActorId} (hk : k ≠ idx) (hslot : s.HasId k i) : s'.HasId k i := by
    unfold HasId
    rw [hslots, getElem?_setId_of_ne hk]
    exact hslot
  refine ⟨hs.instances.step h, (sup_of_step h).2.2.1 ▸ hs.strategy, fun _ k i hm hdue => ?_,
    fun sig hsig => ?_, ?_, fun k hk i hm => ?_, fun k id' todo' i hp' => ?_⟩
  · refine Or.inr ?_
    rw [hsp] at hm
    rcases hs.current hne k i hm (hback hdue) with ⟨_, _, hp'⟩ | hslot
    · obtain ⟨rfl, rfl⟩ := hinst _ _ _ _ hp'
      exact hnew
    · by_cases hk : k = idx
      · subst hk
        rw [hold i hm hslot (hback hdue)]
        exact hnew
      · exact hkeep hk hslot
  · rw [hp] at hsig
    obtain ⟨hnot, hslots'⟩ := hs.taken sig (hcause.trans hsig)
    refine ⟨fun hdue => hnot (hback hdue), fun k hk => ?_⟩
    rw [hp] at hk
    have hk' : k ∈ todo := hk
    refine hkeep ?_ (hslots' k (hstarting ▸ List.mem_cons_of_mem _ hk'))
    rintro rfl
    exact (List.nodup_cons.mp hnodup).1 hk'
  · rw [hp]
    exact (List.nodup_cons.mp hnodup).2
  · rw [hp] at hk
    rw [hsp] at hm
    exact hs.unspawned k (hunspawned hk) i hm
  · rw [hp] at hp'
    cases hp'

/-- The signal of the child that a slot to be restarted belongs to has been taken. -/
theorem Own.not_signalDue (hs : s.Own) {sig : RestartSignal} {idx : ℕ} {i : ActorId}
    (hsig : s.sup.phase.cause = some sig) (hidx : idx ∈ starting s.sup.phase)
    (hslot : s.HasId idx i) : ¬ s.rt.SignalDue s.sup.channel i := by
  obtain ⟨hnot, hslots⟩ := hs.taken sig hsig
  obtain ⟨slot, hk, rfl⟩ := hslot
  obtain ⟨slot', hk', hid⟩ := hslots idx hidx
  obtain rfl : slot = slot' := Option.some.inj (hk.symm.trans hk')
  rwa [hid]

/-- A signal that is taken keeps the invariant. -/
theorem Own.takeSignal (hs : s.Own) {sig : RestartSignal} {ch : Chan RestartSignal}
    {now : Instant} (hp : s.sup.phase = .select)
    (hrecv : (s.rt.signals s.sup.channel).recv = some (sig, ch))
    (h : s.step e = some { s with
      rt := s.rt.setSignals s.sup.channel ch
      sup := s.sup.takeSignal sig now }) :
    System.Own { s with
      rt := s.rt.setSignals s.sup.channel ch
      sup := s.sup.takeSignal sig now } := by
  have hi := hs.instances
  have hchannel := (sup_of_step h).2.1
  have hnot : ¬ (s.rt.setSignals s.sup.channel ch).SignalDue (s.sup.takeSignal sig now).channel
      sig.childId := by
    rw [hchannel]
    exact (hi.rt.signals_once s.sup.channel).not_signalDue hrecv
  have hslot : ∀ idx i, (idx, i) ∈ s.spawned →
      (s.rt.setSignals s.sup.channel ch).SignalDue (s.sup.takeSignal sig now).channel i →
      s.HasId idx i := by
    intro idx i hm hdue
    rcases hs.current (by rw [hp]; rfl) idx i hm (hi.signalDue_of_step h hdue) with
      ⟨_, _, hinst⟩ | hslot
    · rw [hp] at hinst
      cases hinst
    · exact hslot
  rcases takeSignal_phase s.sup sig now with ⟨-, hphase⟩ | ⟨-, hquiet⟩
  · have hslots := takeSignal_slots_of_restart hphase
    refine ⟨hi.step h, (sup_of_step h).2.2.1 ▸ hs.strategy, fun _ idx i hm hdue => Or.inr ?_,
      fun sig' hsig => ?_, ?_, fun idx hidx => ?_, fun idx id todo i hp' => ?_⟩
    · unfold HasId
      rw [hslots]
      exact hslot idx i hm hdue
    · obtain rfl : sig = sig' := by
        rw [hphase] at hsig
        exact Option.some.inj hsig
      refine ⟨hnot, fun idx hidx => ?_⟩
      rw [hphase, hs.strategy] at hidx
      unfold HasId
      rw [hslots]
      exact Slot.getElem?_position (Option.mem_toList.mp hidx)
    · rw [hphase]
      exact nodup_toRestart
    · rw [hphase] at hidx
      cases hidx
    · rw [hphase] at hp'
      cases hp'
  · refine hs.of_quiet h rfl hquiet fun _ idx i hm hdue => ?_
    obtain ⟨slot, hk, hid⟩ := hslot idx i hm hdue
    rcases takeSignal_slots s.sup sig now with heq | heq
    · exact ⟨slot, by rw [heq]; exact hk, hid⟩
    · refine ⟨slot, ?_, hid⟩
      rw [heq]
      refine getElem?_abandon_of_ne hk fun hchild => hnot ?_
      rwa [← hchild, hid]

/-- **Every step of a OneForOne supervisor** keeps the slots of the children that have yet to
signal. -/
theorem Own.step (hs : s.Own) (h : s.step e = some s') : s'.Own := by
  have hback {i : ActorId} := hs.instances.signalDue_of_step h (i := i)
  cases e with
  | env e =>
    have h' := h
    obtain ⟨-, rt, -, rfl⟩ := step_env h'
    exact ⟨hs.instances.step h, hs.strategy,
      fun hne idx i hm hdue => hs.current hne idx i hm (hback hdue),
      fun sig hsig => ⟨fun hdue => (hs.taken sig hsig).1 (hback hdue), (hs.taken sig hsig).2⟩,
      hs.nodup, hs.unspawned, hs.first⟩
  | sup c =>
    -- while no slot is being started, a child that has yet to signal has its slot
    have hslot (hne : s.sup.phase.ended = false)
        (hp : ∀ cause idx id todo, s.sup.phase ≠ .installing cause idx id todo) (idx : ℕ)
        (i : ActorId) (hm : (idx, i) ∈ s.spawned) (hdue : s'.rt.SignalDue s'.sup.channel i) :
        s.HasId idx i := by
      rcases hs.current hne idx i hm (hback hdue) with ⟨_, _, hinst⟩ | hslot
      · exact absurd hinst (hp _ _ _ _)
      · exact hslot
    cases supStep_inv h with
    | spawn actor id rt hp hrt => exact hs.spawn hp h
    | @childFailed sig idx todo hp =>
      refine hs.settled h (by rw [hp]; rfl) (by rw [hp]; rfl) (by rw [hp]; rfl) rfl rfl rfl ?_ ?_
        (List.nil_subset _)
      · intro _ _ _ _ hp'
        rw [hp] at hp'
        cases hp'
      · intro i _ hslot' hdue
        have hsig : s.sup.phase.cause = some sig := by rw [hp]; rfl
        exact absurd hdue (hs.not_signalDue hsig (by rw [hp]; exact List.mem_cons_self) hslot')
    | @installed cause idx id todo hp =>
      have hinst : ∀ cause k i todo, s.sup.phase = .installing cause k i todo →
          k = idx ∧ i = id := by
        intro _ _ _ _ hp'
        rw [hp] at hp'
        cases hp'
        exact ⟨rfl, rfl⟩
      cases cause with
      | start =>
        exact hs.settled h (by rw [hp]; rfl) (by rw [hp]; rfl) (by rw [hp]; rfl) rfl rfl rfl hinst
          (fun i hm _ _ => hs.first idx id todo i hp hm) (by rw [hp]; exact List.Subset.refl _)
      | signal sig =>
        refine hs.settled h (by rw [hp]; rfl) (by rw [hp]; rfl) (by rw [hp]; rfl) rfl rfl rfl hinst
          (fun i _ hslot' hdue => ?_) (List.nil_subset _)
        have hsig : s.sup.phase.cause = some sig := by rw [hp]; rfl
        exact absurd hdue (hs.not_signalDue hsig (by rw [hp]; exact List.mem_cons_self) hslot')
    | signal hp hrecv hnp => exact hs.takeSignal hp hrecv h
    | restarted hp | shutdown hp | sendStop rt hp =>
      exact hs.of_quiet h rfl rfl fun _ => hslot (by rw [hp]; rfl) fun _ _ _ _ hp' => by
        rw [hp] at hp'
        cases hp'
    | startFailed | panic | exit => exact hs.of_quiet h rfl rfl fun hne => by cases hne

/-- The start of a OneForOne supervisor. -/
theorem own_start {rt : Runtime M A} {config : SupervisorConfig} {actorConfig : ActorConfig}
    {children : List Slot} (hrt : rt.Reachable)
    (hstart : start rt config actorConfig children = some s₀)
    (hstrategy : config.strategy = .oneForOne) : s₀.Own := by
  have hi := instances_start hrt hstart
  simp only [start, Option.map_eq_some_iff] at hstart
  obtain ⟨rt', -, rfl⟩ := hstart
  exact ⟨hi, hstrategy, fun _ _ _ hm => (by cases hm), fun _ hsig => (by cases hsig),
    List.nodup_range, fun _ _ _ hm => (by cases hm), fun _ _ _ _ hp => (by cases hp)⟩

/-- **No signal is lost on a OneForOne supervisor**: the child of a signal that is about to be
taken is the current instance of its slot. -/
theorem Own.position (hs : s.Own) {idx : ℕ} {sig : RestartSignal} (hp : s.sup.phase = .select)
    (hsig : s.nextSignal = some sig) (hm : (idx, sig.childId) ∈ s.spawned) :
    Slot.position s.sup.slots sig.childId = some idx := by
  have hdue : s.rt.SignalDue s.sup.channel sig.childId :=
    Or.inr ⟨sig, List.mem_of_head? hsig, rfl⟩
  obtain ⟨slot, hk, hid⟩ : s.HasId idx sig.childId := by
    rcases hs.current (by rw [hp]; rfl) idx _ hm hdue with ⟨_, _, hinst⟩ | hslot
    · rw [hp] at hinst
      cases hinst
    · exact hslot
  obtain ⟨j, hj⟩ : ∃ j, Slot.position s.sup.slots sig.childId = some j := by
    rw [← Option.isSome_iff_exists, Option.isSome_iff_ne_none, Ne, position_eq_none]
    exact fun hstale => hstale slot (List.mem_of_getElem? hk) hid
  obtain ⟨slot', hk', hid'⟩ := Slot.getElem?_position hj
  rw [hj, hs.instances.idx_eq_of_select hp hk' hid' hm]

/-! ### Every signal -/

/-- **A pass of the supervisor** calls the factories of the scope of the slot that failed. -/
theorem Instances.factoryCalls_append_due (hi : s.Instances) {now : Instant}
    {sig : RestartSignal} {idx : ℕ} {s₁ : System M A}
    (h : s.step (.sup (.recvSignal now)) = some s₁) (hsig : s.nextSignal = some sig)
    (hid : s.HasId idx sig.childId) (haccepts : ¬ s.sup.refuses now) (hrun : s₁.run es = some s')
    (hes : ∀ e ∈ es, ¬ TakesSignal e) :
    s₁.factoryCalls es ++ due s'.sup.phase =
      s.sup.config.strategy.scope (s.sup.slots.map Slot.order) idx := by
  cases supStep_inv h with
  | @signal sig' ch _ hp hrecv hnp =>
    obtain rfl : sig = sig' := Option.some.inj (hsig.symm.trans (nextSignal_of_recv hrecv))
    rcases takeSignal_phase s.sup sig now with ⟨-, hphase⟩ | ⟨hrefuses, -⟩
    · obtain ⟨slot, hk, hslot⟩ := hid
      have hspawned : (idx, sig.childId) ∈ s.spawned := by
        rcases hi.slots (by rw [hp]; rfl) idx slot hk (by rw [hp]; exact List.not_mem_nil) with
          hdead | hspawned
        · -- the sender of a signal has a task
          obtain ⟨t, ht, -⟩ := hi.rt.sender_left (k := s.sup.channel) (s := sig)
            (by rw [(Chan.recv_eq_some.mp hrecv).1]; exact List.mem_cons_self)
          rw [← hslot, hdead, hi.rt.dead] at ht
          cases ht
        · exact hslot ▸ hspawned
      rw [System.factoryCalls_append_due (by rw [hphase]; rfl) hrun hes, hphase]
      exact toRestart_eq_scope hk hslot fun j slot' hj hid' =>
        hi.idx_eq_of_select hp hj hid' hspawned
    · exact absurd hrefuses haccepts
  | @panic sig' ch _ hp hrecv hpanic =>
    rcases takeSignal_phase s.sup sig' now with ⟨-, hphase⟩ | ⟨hrefuses, -⟩
    · rw [hphase] at hpanic
      cases hpanic
    · exact absurd hrefuses haccepts

/-- **The scope of a restart.** For every list of child specs, in every run of the supervisor:

* the slots are the specs in non-decreasing order, those of equal order as they were given, and
  stay so;
* a signal within the budget whose child is the current one of slot `idx` has the factory of
  each slot of the strategy's scope called once, in the order of the slots, and no other
  factory, before the next signal is taken; the scope is a suffix of the start order unless the
  strategy is OneForOne, and then it is the slot alone;
* under OneForOne every signal of a child finds the slot of that child. -/
theorem restart_scope {rt : Runtime M A} {config : SupervisorConfig} {actorConfig : ActorConfig}
    {children : List Slot} (hrt : rt.Reachable)
    (hstart : start rt config actorConfig children = some s₀) :
    StableBy Slot.order children s₀.sup.slots ∧
    ∀ es s, s₀.run es = some s →
      s.sup.slots.map Slot.order = s₀.sup.slots.map Slot.order ∧
      ∀ now s₁ sig, s.step (.sup (.recvSignal now)) = some s₁ → s.nextSignal = some sig →
        (∀ idx, s.HasId idx sig.childId → ¬ s.sup.refuses now →
          (config.strategy ≠ .oneForOne →
            config.strategy.scope (s.sup.slots.map Slot.order) idx <:+
              List.range s.sup.slots.length) ∧
          ∀ fs s', s₁.run fs = some s' → (∀ e ∈ fs, ¬ TakesSignal e) →
            s₁.factoryCalls fs ++ due s'.sup.phase =
              config.strategy.scope (s.sup.slots.map Slot.order) idx) ∧
        (config.strategy = .oneForOne → ∀ idx, (idx, sig.childId) ∈ s.spawned →
          Slot.position s.sup.slots sig.childId = some idx) := by
  have hi₀ : s₀.Instances := instances_start hrt hstart
  have hown : config.strategy = .oneForOne → s₀.Own := own_start hrt hstart
  obtain ⟨hslots, hconfig₀⟩ : s₀.sup.slots = sortByOrder children ∧ s₀.sup.config = config := by
    simp only [start, Option.map_eq_some_iff] at hstart
    obtain ⟨rt', -, rfl⟩ := hstart
    exact ⟨rfl, rfl⟩
  have hstable : StableBy Slot.order children s₀.sup.slots := by
    rw [hslots]
    exact stableBy_insertionSort Slot.order children
  have hsorted : (s₀.sup.slots.map Slot.order).Pairwise (· ≤ ·) := by
    rw [hslots]
    exact List.pairwise_map.mpr (List.pairwise_insertionSort _ _)
  refine ⟨hstable, fun es s hrun => ?_⟩
  obtain ⟨hi, hconfig, horders⟩ := invariant_run
    (P := fun s : System M A => s.Instances ∧ s.sup.config = config ∧
      s.sup.slots.map Slot.order = s₀.sup.slots.map Slot.order)
    (fun hs hst => ⟨hs.1.step hst, (sup_of_step hst).2.2.1.trans hs.2.1,
      (sup_of_step hst).1.trans hs.2.2⟩) ⟨hi₀, hconfig₀, rfl⟩ hrun
  refine ⟨horders, fun now s₁ sig h hsig => ⟨fun idx hid haccepts => ⟨fun hstrategy => ?_,
    fun fs s' hfs hes => ?_⟩, fun hstrategy idx hm => ?_⟩⟩
  · have hsuffix := RestartStrategy.scope_suffix (horders ▸ hsorted) hstrategy idx
    rwa [List.length_map] at hsuffix
  · rw [← hconfig]
    exact hi.factoryCalls_append_due h hsig hid haccepts hfs hes
  · have hs : s.Own := invariant_run (P := Own) (fun hs hst => hs.step hst) (hown hstrategy) hrun
    cases supStep_inv h with
    | signal hp | panic hp => exact hs.position hp hsig hm

/-- A RestForOne supervisor at its start, of two children. -/
def restForOne : System Unit Unit :=
  (twoChildren { SupervisorConfig.default with strategy := .restForOne }).get rfl

/-- The same after the child of order 1 has failed. -/
def lastFailed : System Unit Unit := (restForOne.run (bothSpawn ++ failsIn ⟨4⟩)).get rfl

/-- The result where that signal is taken and the restart of its slot is done. -/
theorem restart_scope_last : StableBy Slot.order [⟨⟨1⟩, 0⟩, ⟨⟨2⟩, 1⟩] restForOne.sup.slots ∧
    ∃ s₁ s', lastFailed.step (.sup (.recvSignal 0)) = some s₁ ∧
      s₁.run [.sup (.spawnChild ()), .sup .installed, .sup .restarted] = some s' ∧
      s₁.factoryCalls [.sup (.spawnChild ()), .sup .installed, .sup .restarted] ++
        due s'.sup.phase = [1] := by
  have hstart : twoChildren { SupervisorConfig.default with strategy := .restForOne } =
      some restForOne := rfl
  have hall := restart_scope reachable_twoSpecs hstart
  have hrun : restForOne.run (bothSpawn ++ failsIn ⟨4⟩) = some lastFailed := rfl
  refine ⟨hall.1, (lastFailed.step (.sup (.recvSignal 0))).get rfl, _, rfl, rfl, ?_⟩
  have haccepts : ¬ lastFailed.sup.refuses 0 := fun h => by
    have := h (-10000000000) (by decide)
    revert this
    decide
  have hscope := (((hall.2 _ _ hrun).2 0 _ ⟨⟨4⟩, .error "boom"⟩ rfl rfl).1 1 ⟨_, rfl, rfl⟩
    haccepts).2 [.sup (.spawnChild ()), .sup .installed, .sup .restarted] _ rfl (by
      rintro e he ⟨now, rfl⟩
      simp at he)
  exact hscope

end System

end LaneSwitchboards
