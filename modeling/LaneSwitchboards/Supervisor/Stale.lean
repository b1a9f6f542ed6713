import LaneSwitchboards.Supervisor.Instances

/-!
# Stale signals

A signal is stale when its child is no longer the current instance of a slot. OneForOne finds
no slot and restarts nothing. OneForAll does not look for the child at all, and RestForOne
takes the order of a missing child to be 0: both restart every slot.

* `stale_restarts`: handling a stale signal restarts no child iff the strategy is OneForOne,
  restarts are refused at that time, or there are no slots.
* `order_of_restarts`: in a run of a RestForOne supervisor that acts on no stale signal of a
  child with a slot of lower order below it, no failure restarts a child of lower order.
-/

namespace LaneSwitchboards

/-- No slot is left to be started before the loop goes on. -/
def SupPhase.idle : SupPhase → Bool
  | .restart _ (_ :: _) | .installing _ _ _ _ => false
  | _ => true

theorem SupPhase.idle_of_quiet {p : SupPhase} (h : p.quiet = true) : p.idle = true := by
  cases p <;> first | rfl | cases h

namespace System

open Transition

variable {M A : Type} {s s' s₀ : System M A} {e : SysEvent M A} {es : List (SysEvent M A)}

/-- The event is the supervisor taking a signal. -/
def TakesSignal (e : SysEvent M A) : Prop := ∃ now, e = .sup (.recvSignal now)

/-- No child is restarted before the supervisor takes its next signal. -/
def RestartsNone (s : System M A) : Prop :=
  ∀ es s', s.run es = some s' → (∀ e ∈ es, ¬ TakesSignal e) → s'.spawned = s.spawned

/-- The next signal of the supervisor. -/
def nextSignal (s : System M A) : Option RestartSignal :=
  (s.rt.signals s.sup.channel).queue.head?

theorem nextSignal_of_recv {sig : RestartSignal} {ch : Chan RestartSignal}
    (h : (s.rt.signals s.sup.channel).recv = some (sig, ch)) : s.nextSignal = some sig := by
  rw [nextSignal, (Chan.recv_eq_some.mp h).1]
  rfl

/-! ### When nothing is restarted -/

/-- An idle supervisor stays idle and spawns nothing until it takes a signal. -/
theorem idle_step (hidle : s.sup.phase.idle = true) (h : s.step e = some s')
    (he : ¬ TakesSignal e) : s'.sup.phase.idle = true ∧ s'.spawned = s.spawned := by
  cases e with
  | env e =>
    obtain ⟨-, rt, -, rfl⟩ := step_env h
    exact ⟨hidle, rfl⟩
  | sup c =>
    cases supStep_inv h with
    | spawn actor id rt hp => rw [hp] at hidle; cases hidle
    | childFailed hp => rw [hp] at hidle; cases hidle
    | installed hp => rw [hp] at hidle; cases hidle
    | signal | panic => exact absurd ⟨_, rfl⟩ he
    | _ => exact ⟨rfl, rfl⟩

theorem restartsNone_of_idle (hidle : s.sup.phase.idle = true) : s.RestartsNone := by
  intro es
  induction es generalizing s with
  | nil =>
    intro s' h _
    rw [Option.some.inj h]
  | cons e es ih =>
    intro s' h he
    obtain ⟨t, ht, hrun⟩ := Option.bind_eq_some_iff.mp h
    obtain ⟨hidle', hsame⟩ := idle_step hidle ht (he e List.mem_cons_self)
    exact (ih hidle' s' hrun fun e' he' => he e' (List.mem_cons_of_mem _ he')).trans hsame

/-! ### When something is -/

/-- A supervisor with slots has spawned for each of them by the time it takes signals. -/
theorem Instances.spawned_ne_nil (hi : s.Instances) (hp : s.sup.phase = .select)
    (hslots : s.sup.slots ≠ []) : s.spawned ≠ [] := by
  obtain ⟨hle, hpending⟩ := hi.aligned (by rw [hp]; rfl)
  have hlen : s.sup.currentRefs.length = s.sup.slots.length := by
    have := congrArg List.length hpending
    rw [hp] at this
    simp only [SupPhase.pending, List.length_nil, List.length_range'] at this
    omega
  have hpos : 0 < s.sup.currentRefs.length := by
    rw [hlen]
    exact List.length_pos_iff.mpr hslots
  exact List.ne_nil_of_mem (hi.refs 0 _ (List.getElem?_eq_getElem hpos))

/-- A restart that is due can happen. -/
theorem Instances.exists_spawn (hi : s.Instances) {cause : Cause} {idx : ℕ} {todo : List ℕ}
    (hp : s.sup.phase = .restart cause (idx :: todo)) (hne : s.spawned ≠ []) :
    ∃ actor id rt,
      s.rt.spawnOnRuntime s.sup.actorConfig actor (some s.sup.channel) = some (id, rt) ∧
      s.step (.sup (.spawnChild actor)) = some (s.spawnedChild rt cause idx id todo) := by
  obtain ⟨p, hpmem⟩ := List.exists_mem_of_ne_nil _ hne
  obtain ⟨t, -⟩ := hi.spawned p hpmem
  obtain ⟨⟨id, rt⟩, hrt⟩ : ∃ x, s.rt.spawnOnRuntime s.sup.actorConfig t.actor
      (some s.sup.channel) = some x := by
    simp [Runtime.spawnOnRuntime, hi.capacity hne]
  exact ⟨t.actor, id, rt, hrt, by simp [System.step, supStep, hp, spawnChild, hrt]⟩

/-- **A stale signal** restarts no child iff the strategy is OneForOne, restarts are refused at
that time, or there are no slots. -/
theorem restartsNone_iff_of_stale (hi : s.Instances) {now : Instant} {sig : RestartSignal}
    (h : s.step (.sup (.recvSignal now)) = some s') (hsig : s.nextSignal = some sig)
    (hstale : Stale s.sup.slots sig.childId) : s'.RestartsNone ↔
      s.sup.config.strategy = .oneForOne ∨ s.sup.refuses now ∨ s.sup.slots = [] := by
  have hi' := hi.step h
  cases supStep_inv h with
  | @signal sig' ch _ hp hrecv hnp =>
    obtain rfl : sig = sig' := Option.some.inj (hsig.symm.trans (nextSignal_of_recv hrecv))
    rcases takeSignal_phase s.sup sig now with ⟨haccepts, hphase⟩ | ⟨hrefuses, hquiet⟩
    · rw [toRestart_of_stale hstale] at hphase
      constructor
      · intro hnone
        by_contra hcond
        obtain ⟨hstrategy, -, hslots⟩ : s.sup.config.strategy ≠ .oneForOne ∧
            ¬ s.sup.refuses now ∧ s.sup.slots ≠ [] := by
          simpa only [not_or] using hcond
        -- the first of the slots is restarted
        obtain ⟨n, hn⟩ := Nat.exists_eq_succ_of_ne_zero (mt List.length_eq_zero_iff.mp hslots)
        rw [if_neg hstrategy, hn, List.range_succ_eq_map] at hphase
        obtain ⟨actor, id, rt, -, hspawn⟩ :=
          hi'.exists_spawn hphase (hi.spawned_ne_nil hp hslots)
        have hsame := hnone [.sup (.spawnChild actor)] _ (run_cons_of_step hspawn) (by
          rintro e he ⟨now', rfl⟩
          simp at he)
        simp [spawnedChild] at hsame
      · intro hcond
        refine restartsNone_of_idle ?_
        have hnil : (if s.sup.config.strategy = .oneForOne then []
            else List.range s.sup.slots.length) = [] := by
          rcases hcond with hstrategy | hrefuses | hslots
          · rw [if_pos hstrategy]
          · exact absurd hrefuses haccepts
          · simp [hslots]
        rw [hnil] at hphase
        rw [hphase]
        rfl
    · refine iff_of_true (restartsNone_of_idle ?_) (Or.inr (Or.inl hrefuses))
      exact SupPhase.idle_of_quiet hquiet
  | @panic sig' ch _ hp hrecv hpanic =>
    obtain rfl : sig = sig' := Option.some.inj (hsig.symm.trans (nextSignal_of_recv hrecv))
    refine iff_of_true (restartsNone_of_idle rfl) (Or.inr (Or.inl ?_))
    rcases takeSignal_phase s.sup sig now with ⟨-, hphase⟩ | ⟨hrefuses, -⟩
    · rw [hphase] at hpanic
      cases hpanic
    · exact hrefuses

/-! ### RestForOne and the order of the slots -/

/-- Slot `idx` has a lower order than slot `j`. -/
def Lower (s : System M A) (idx j : ℕ) : Prop :=
  ∃ slot slot', s.sup.slots[idx]? = some slot ∧ s.sup.slots[j]? = some slot' ∧
    slot.order < slot'.order

/-- The event restarts a child of lower order than the one whose failure is handled. -/
def RestartsLower (s : System M A) (e : SysEvent M A) : Prop :=
  ∃ actor sig idx todo j, e = .sup (.spawnChild actor) ∧
    s.sup.phase = .restart (.signal sig) (idx :: todo) ∧ (j, sig.childId) ∈ s.spawned ∧
    s.Lower idx j

/-- The event is the supervisor acting on a stale signal of a child that is not first in
order. -/
def ActsOnStale (s : System M A) (e : SysEvent M A) : Prop :=
  ∃ now sig idx j, e = .sup (.recvSignal now) ∧ s.nextSignal = some sig ∧
    Stale s.sup.slots sig.childId ∧ ¬ s.sup.refuses now ∧ (j, sig.childId) ∈ s.spawned ∧
    s.Lower idx j

/-- The slots that the signal being handled has yet to restart. -/
def due : SupPhase → List ℕ
  | .restart _ todo | .installing _ _ _ todo => todo
  | _ => []

theorem due_of_quiet {p : SupPhase} (h : p.quiet = true) : due p = [] := by
  cases p <;> first | rfl | cases h

/-- Orders are fixed at the start. -/
theorem Lower.of_step {idx j : ℕ} (hl : s'.Lower idx j) (h : s.step e = some s') :
    s.Lower idx j := by
  obtain ⟨slot, slot', hs, hs', hlt⟩ := hl
  have horder := (sup_of_step h).1
  have hidx := congrArg (·[idx]?) horder
  have hj := congrArg (·[j]?) horder
  simp only [List.getElem?_map, hs, hs', Option.map_some] at hidx hj
  obtain ⟨t, ht, hto⟩ := Option.map_eq_some_iff.mp hidx.symm
  obtain ⟨t', ht', hto'⟩ := Option.map_eq_some_iff.mp hj.symm
  exact ⟨t, t', ht, ht', by rwa [hto, hto']⟩

/-- No slot that is due has a lower order than the slot of the child that failed. -/
structure Ordered (s : System M A) : Prop where
  instances : s.Instances
  strategy : s.sup.config.strategy = .restForOne
  due : ∀ sig, s.sup.phase.cause = some sig → ∀ idx ∈ due s.sup.phase, ∀ j,
    (j, sig.childId) ∈ s.spawned → ¬ s.Lower idx j

/-- A signal that is not stale restarts no slot of lower order. -/
theorem Instances.not_lower_of_toRestart (hi : s.Instances) (hp : s.sup.phase = .select)
    {child : ActorId} {idx j : ℕ} (hstale : ¬ Stale s.sup.slots child)
    (hidx : idx ∈ RestartStrategy.restForOne.toRestart s.sup.slots child)
    (hj : (j, child) ∈ s.spawned) : ¬ s.Lower idx j := by
  have hslot {k : ℕ} {slot : Slot} (hk : s.sup.slots[k]? = some slot) (hid : slot.id = child) :
      k = j := hi.idx_eq_of_select hp hk hid hj
  obtain ⟨slot, hmem, hid⟩ : ∃ slot ∈ s.sup.slots, slot.id = child := by
    simpa [Stale] using hstale
  obtain ⟨k, hk⟩ := List.mem_iff_getElem?.mp hmem
  obtain rfl := hslot hk hid
  rintro ⟨slot₁, slot₂, h₁, h₂, hlt⟩
  obtain rfl : slot = slot₂ := Option.some.inj (hk.symm.trans h₂)
  have hle := order_le_of_mem_toRestart hk hid (fun _ _ hj' hid' => hslot hj' hid') hidx h₁
  omega

/-- **Every step keeps the order**, unless it acts on a stale signal. -/
theorem Ordered.step (ho : s.Ordered) (h : s.step e = some s') (he : ¬ s.ActsOnStale e) :
    s'.Ordered := by
  obtain ⟨hi, hstrategy, hdue⟩ := ho
  refine ⟨hi.step h, by rw [(sup_of_step h).2.2.1]; exact hstrategy, ?_⟩
  intro sig hsig idx hidx j hj hlower
  have hlower' := hlower.of_step h
  cases e with
  | env e =>
    obtain ⟨-, rt, -, rfl⟩ := step_env h
    exact hdue sig hsig idx hidx j hj hlower'
  | sup c =>
    cases supStep_inv h with
    | @spawn cause k todo actor id rt hp hrt =>
      have hsig' : s.sup.phase.cause = some sig := by
        rw [hp]
        cases cause <;> exact hsig
      refine hdue sig hsig' idx (by rw [hp]; exact List.mem_cons_of_mem _ hidx) j ?_ hlower'
      rcases List.mem_append.mp hj with hj | hj
      · exact hj
      · -- the child has a task already
        obtain ⟨rfl, rfl⟩ : j = k ∧ sig.childId = id := by simpa using hj
        obtain ⟨t, ht, -⟩ := hi.signalled sig hsig'
        exact absurd (Runtime.spawnOnRuntime_eq hrt).1 (hi.rt.fresh.ne_nextId ht)
    | childFailed hp =>
      exact hdue sig (by rw [hp]; exact hsig) idx (by rw [hp]; exact List.mem_cons_of_mem _ hidx)
        j hj hlower'
    | @installed cause k id todo hp =>
      cases cause with
      | start => cases hsig
      | signal sig' =>
        exact hdue sig (by rw [hp]; exact hsig) idx (by rw [hp]; exact hidx) j hj hlower'
    | @signal sig' ch now hp hrecv hnp =>
      rcases takeSignal_phase s.sup sig' now with ⟨haccepts, hphase⟩ | ⟨-, hquiet⟩
      · rw [hphase] at hsig hidx
        obtain rfl : sig' = sig := Option.some.inj hsig
        rw [hstrategy] at hidx
        by_cases hstale : Stale s.sup.slots sig'.childId
        · exact he ⟨now, sig', idx, j, rfl, nextSignal_of_recv hrecv, hstale, haccepts, hj, hlower'⟩
        · exact hi.not_lower_of_toRestart hp hstale hidx hj hlower'
      · rw [SupPhase.cause_of_quiet hquiet] at hsig
        cases hsig
    | _ => cases hsig

/-- **Stale signals.** For every supervisor:

* handling a stale signal restarts no child exactly when the strategy is OneForOne, restarts
  are refused at that time, or there are no slots;
* a RestForOne supervisor that acts on no stale signal of a child with a slot of lower order
  never restarts a child of lower order than the one that failed. -/
theorem stale_signals {rt : Runtime M A} {config : SupervisorConfig} {actorConfig : ActorConfig}
    {children : List Slot} (hrt : rt.Reachable)
    (hstart : start rt config actorConfig children = some s₀) :
    (∀ es s s' now sig, s₀.run es = some s → s.step (.sup (.recvSignal now)) = some s' →
      s.nextSignal = some sig → Stale s.sup.slots sig.childId →
      (s'.RestartsNone ↔
        config.strategy = .oneForOne ∨ s.sup.refuses now ∨ s.sup.slots = [])) ∧
    (config.strategy = .restForOne → ∀ es,
      Along System.step (fun s e _ => ¬ s.ActsOnStale e) s₀ es →
      Along System.step (fun s e _ => ¬ s.RestartsLower e) s₀ es) := by
  have hi₀ : s₀.Instances := instances_start hrt hstart
  have hconfig₀ : s₀.sup.config = config ∧ s₀.sup.phase.cause = none := by
    simp only [start, Option.map_eq_some_iff] at hstart
    obtain ⟨rt', -, rfl⟩ := hstart
    exact ⟨rfl, rfl⟩
  refine ⟨fun es s s' now sig hrun h hsig hstale => ?_, fun hstrategy es hes => ?_⟩
  · obtain ⟨hi, hconfig⟩ := invariant_run
      (P := fun s : System M A => s.Instances ∧ s.sup.config = config)
      (fun hs hst => ⟨hs.1.step hst, (sup_of_step hst).2.2.1.trans hs.2⟩) ⟨hi₀, hconfig₀.1⟩ hrun
    rw [restartsNone_iff_of_stale hi h hsig hstale, hconfig]
  · refine along_of_invariant (P := Ordered) (fun ho hstale hst => ⟨ho.step hst hstale, ?_⟩)
      ⟨hi₀, by rw [hconfig₀.1]; exact hstrategy, fun sig hsig => ?_⟩ hes
    · rintro ⟨actor, sig, idx, todo, j, -, hp, hj, hlower⟩
      exact ho.due sig (by rw [hp]; rfl) idx (by rw [hp]; exact List.mem_cons_self) j hj hlower
    · rw [hconfig₀.2] at hsig
      cases hsig

/-! ### Two children -/

/-- A process in which two child specs took the ids 1 and 2. -/
def twoSpecs : Runtime Unit Unit := { Runtime.init with nextId := 3 }

theorem reachable_twoSpecs : twoSpecs.Reachable := ⟨[.newId, .newId], rfl⟩

/-- Two children of orders 0 and 1. -/
def twoChildren (config : SupervisorConfig) : Option (System Unit Unit) :=
  start twoSpecs config .default [⟨⟨1⟩, 0⟩, ⟨⟨2⟩, 1⟩]

/-- The supervisor starts, or restarts, both children. -/
def bothSpawn : List (SysEvent Unit Unit) :=
  [.spawnChild (), .installed, .spawnChild (), .installed, .restarted].map .sup

/-- A child starts, is sent a message, fails in `handle` and signals its supervisor. -/
def failsIn (i : ActorId) : List (SysEvent Unit Unit) :=
  let steps : List Choice := [.poll, .preStart (.ok ()), .recvControl false, .recvMailbox,
    .handleBegin (.ok ()), .handle (.err "boom") 0, .lookup, .send]
  .env (.post i (.msg ())) :: steps.map fun c => .env (.task i c)

/-- Both children, with ids 3 and 4, fail before the first signal is taken; the first signal
restarts both. -/
def overlapping : List (SysEvent Unit Unit) :=
  bothSpawn ++ failsIn ⟨3⟩ ++ failsIn ⟨4⟩ ++ .sup (.recvSignal 0) :: bothSpawn

/-- The second signal is stale; it restarts the child of order 0 because of the failure of the
child of order 1. -/
theorem stale_signal_restarts_lower : ∃ s₀ s s' : System Unit Unit,
    twoChildren { SupervisorConfig.default with strategy := .restForOne } = some s₀ ∧
    s₀.run overlapping = some s ∧
    s.nextSignal = some ⟨⟨4⟩, .error "boom"⟩ ∧ Stale s.sup.slots ⟨4⟩ ∧
    (1, ⟨4⟩) ∈ s.spawned ∧ s.Lower 0 1 ∧
    s.run [.sup (.recvSignal 0), .sup (.spawnChild ())] = some s' ∧
    s'.spawned = s.spawned ++ [(0, ⟨7⟩)] := by
  refine ⟨_, _, _, rfl, rfl, rfl, ?_, ?_, ⟨_, _, rfl, rfl, ?_⟩, rfl, rfl⟩
  · decide
  · decide
  · decide

/-- A supervisor that allows one restart, at its start. -/
def oneRestart : System Unit Unit :=
  (twoChildren { SupervisorConfig.default with strategy := .oneForAll, maxRestarts := 1 }).get rfl

/-- The same when it has made that restart and has the second signal to take. -/
def oneRestartMade : System Unit Unit := (oneRestart.run overlapping).get rfl

/-- The result where the second signal comes after the only restart that is allowed. -/
theorem stale_signals_refused : Stale oneRestartMade.sup.slots ⟨4⟩ ∧
    ∃ s', oneRestartMade.step (.sup (.recvSignal 0)) = some s' ∧ s'.RestartsNone := by
  have hstart : twoChildren { SupervisorConfig.default with
      strategy := .oneForAll, maxRestarts := 1 } = some oneRestart := rfl
  have hboth := stale_signals reachable_twoSpecs hstart
  have hrun : oneRestart.run overlapping = some oneRestartMade := rfl
  have hstale : Stale oneRestartMade.sup.slots ⟨4⟩ := by decide
  refine ⟨hstale, (oneRestartMade.step (.sup (.recvSignal 0))).get rfl, rfl, ?_⟩
  refine (hboth.1 _ _ _ 0 ⟨⟨4⟩, .error "boom"⟩ hrun rfl rfl hstale).mpr ?_
  exact Or.inr (Or.inl (Supervisor.refuses_of_sub (-10000000000) (by decide) (by decide)))

end System

end LaneSwitchboards
