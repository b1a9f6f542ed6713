import LaneSwitchboards.Supervisor.Intensity
import LaneSwitchboards.Supervisor.Replacement

/-!
# Children that were given up

With `IntensityAction::AbandonChild` a breach marks the slot of the child that failed with the
dead id, and nothing else remembers it. OneForOne finds the slot by the id of its child, so the
slot is out of reach; the other strategies select slots by their place.

* `down_step`: a slot that was given up stays so, unless a signal restarts it by its place.
* `abandoned_stays_down`: the slot is not started again in a run that has no such signal; with
  one, it is started again by the time the supervisor takes its next signal.
-/

namespace LaneSwitchboards

open Slot (position abandon setId failedOrder getElem?_setId getElem?_abandon getElem?_position)

namespace System

open Transition

variable {M A : Type} {s s' s₁ s₂ : System M A} {e : SysEvent M A} {es : List (SysEvent M A)}
  {idx : ℕ}

/-- The event is the supervisor taking the signal of the child in slot `idx`, which breaches the
restart intensity, and giving the child up. -/
def Abandons (s : System M A) (e : SysEvent M A) (idx : ℕ) : Prop :=
  ∃ now cutoff sig, e = .sup (.recvSignal now) ∧ s.nextSignal = some sig ∧
    now.sub s.sup.config.withinSecs = some cutoff ∧
    s.sup.config.exceeded (pruneLog s.sup.restartLog cutoff now) ∧
    s.sup.config.intensityAction = .abandonChild ∧
    position s.sup.slots sig.childId = some idx

/-- The event starts a child in slot `idx`. -/
def Starts (s : System M A) (e : SysEvent M A) (idx : ℕ) : Prop :=
  ∃ actor cause todo, e = .sup (.spawnChild actor) ∧ s.sup.phase = .restart cause (idx :: todo)

/-- The event is the supervisor acting upon a signal of any child under OneForAll, or under
RestForOne upon a signal of a child of no higher order than slot `idx`. A child without a slot
counts as order 0. -/
def RestartsPlace (s : System M A) (e : SysEvent M A) (idx : ℕ) : Prop :=
  ∃ now sig, e = .sup (.recvSignal now) ∧ s.nextSignal = some sig ∧ ¬ s.sup.refuses now ∧
    (s.sup.config.strategy = .oneForAll ∨ s.sup.config.strategy = .restForOne ∧
      ∃ slot, s.sup.slots[idx]? = some slot ∧ failedOrder s.sup.slots sig.childId ≤ slot.order)

/-! ### The slot stays down -/

/-- The slot is marked as dead, and it is not about to be started. -/
structure Down (idx : ℕ) (s : System M A) : Prop where
  instances : s.Instances
  dead : ∃ slot, s.sup.slots[idx]? = some slot ∧ slot.id = .DEAD
  starting : idx ∉ starting s.sup.phase

/-- A breach leaves the slot down. -/
theorem down_of_abandons (hi : s.Instances) (ha : s.Abandons e idx) (h : s.step e = some s₁) :
    Down idx s₁ := by
  obtain ⟨now, cutoff, sig, rfl, hsig, hcut, hexceeded, haction, hposition⟩ := ha
  obtain ⟨sig', hsig', hsup⟩ := sup_of_recvSignal h hcut
  obtain rfl : sig = sig' := Option.some.inj (hsig.symm.trans hsig')
  have htake : s.sup.takeSignal sig now = { s.sup with
      restartLog := pruneLog s.sup.restartLog cutoff now
      slots := abandon s.sup.slots sig.childId
      phase := .select } := by
    simp only [Supervisor.takeSignal, hcut, if_pos hexceeded, haction]
  rw [htake] at hsup
  refine ⟨hi.step h, ?_, ?_⟩
  · obtain ⟨slot, hslot, -⟩ := getElem?_position hposition
    refine ⟨{ slot with id := .DEAD }, ?_, rfl⟩
    simp [hsup, abandon, hposition, setId, hslot]
  · rw [hsup]
    exact List.not_mem_nil

/-- OneForOne restarts nothing by its place. -/
theorem along_not_restartsPlace (h : s.sup.config.strategy = .oneForOne) :
    Along System.step (fun s e _ => ¬ s.RestartsPlace e idx) s es := by
  refine along_of_invariant (P := fun s : System M A => s.sup.config.strategy = .oneForOne)
    (Q := fun _ _ _ => True) (fun hs _ hst => ⟨?_, ?_⟩) h (along_of_forall fun _ _ _ _ => trivial)
  · rw [(sup_of_step hst).2.2.1]
    exact hs
  · rintro ⟨now, sig, -, -, -, hall | ⟨hrest, -⟩⟩
    · rw [hs] at hall
      cases hall
    · rw [hs] at hrest
      cases hrest

/-- A strategy does not select a slot that is down, unless it does so by place. -/
theorem Down.not_mem_toRestart (hd : Down idx s) {now : Instant} {sig : RestartSignal}
    {ch : Chan RestartSignal} (hrecv : (s.rt.signals s.sup.channel).recv = some (sig, ch))
    (haccepts : ¬ s.sup.refuses now) (he : ¬ s.RestartsPlace (.sup (.recvSignal now)) idx) :
    idx ∉ s.sup.config.strategy.toRestart s.sup.slots sig.childId := by
  intro hidx
  have hplace := fun hstrategy =>
    he ⟨now, sig, rfl, nextSignal_of_recv hrecv, haccepts, hstrategy⟩
  cases hstrategy : s.sup.config.strategy with
  | oneForOne =>
    rw [hstrategy] at hidx
    obtain ⟨slot, hslot, hid⟩ := getElem?_position (Option.mem_toList.mp hidx)
    obtain ⟨slot', hslot', hdead⟩ := hd.dead
    obtain rfl : slot = slot' := Option.some.inj (hslot.symm.trans hslot')
    -- the child of a signal has a task, which the dead id has not
    have hleft : s.rt.HasLeft sig.childId := hd.instances.rt.sender_left
      (by rw [(Chan.recv_eq_some.mp hrecv).1]; exact List.mem_cons_self)
    obtain ⟨t, ht, -⟩ := hleft
    rw [← hid, hdead, hd.instances.rt.dead] at ht
    cases ht
  | oneForAll => exact hplace (Or.inl hstrategy)
  | restForOne =>
    rw [hstrategy] at hidx
    exact hplace (Or.inr ⟨hstrategy, mem_toRestart_restForOne.mp hidx⟩)

/-- **A slot stays down** in a step that does not restart it by its place. -/
theorem down_step (hd : Down idx s) (h : s.step e = some s') (he : ¬ s.RestartsPlace e idx) :
    Down idx s' := by
  refine ⟨hd.instances.step h, ?_, ?_⟩
  · obtain ⟨slot, hslot, hdead⟩ := hd.dead
    cases e with
    | env e =>
      obtain ⟨-, rt, -, rfl⟩ := step_env h
      exact ⟨slot, hslot, hdead⟩
    | sup c =>
      have hset {k : ℕ} {id : ActorId} (hk : k ≠ idx ∨ id = .DEAD) :
          ∃ slot, (setId s.sup.slots k id)[idx]? = some slot ∧ slot.id = .DEAD := by
        by_cases hk' : k = idx
        · subst hk'
          refine ⟨{ slot with id := id }, by simp [setId, hslot], ?_⟩
          exact hk.resolve_left fun hne => hne rfl
        · exact ⟨slot, by simp [setId, hk', hslot], hdead⟩
      cases supStep_inv h with
      | childFailed hp => exact hset (Or.inr rfl)
      | @installed cause k id todo hp =>
        have hk : k ≠ idx := by
          rintro rfl
          exact hd.starting (by rw [hp]; exact List.mem_cons_self)
        cases cause <;> exact hset (Or.inl hk)
      | @signal sig ch now hp hrecv | @panic sig ch now hp hrecv =>
        rcases takeSignal_slots s.sup sig now with heq | heq
        · exact ⟨slot, (congrArg (·[idx]?) heq).trans hslot, hdead⟩
        · have habandon : ∃ slot, (abandon s.sup.slots sig.childId)[idx]? = some slot ∧
              slot.id = .DEAD := by
            unfold abandon
            split
            · exact hset (Or.inr rfl)
            · exact ⟨slot, hslot, hdead⟩
          obtain ⟨slot', hslot', hdead'⟩ := habandon
          exact ⟨slot', (congrArg (·[idx]?) heq).trans hslot', hdead'⟩
      | _ => exact ⟨slot, hslot, hdead⟩
  · have hstarting := hd.starting
    cases e with
    | env e =>
      obtain ⟨-, rt, -, rfl⟩ := step_env h
      exact hstarting
    | sup c =>
      cases supStep_inv h with
      | spawn actor id rt hp => rwa [hp] at hstarting
      | childFailed hp =>
        rw [hp] at hstarting
        exact fun hmem => hstarting (List.mem_cons_of_mem _ hmem)
      | @installed cause k id todo hp =>
        rw [hp] at hstarting
        cases cause <;> exact fun hmem => hstarting (List.mem_cons_of_mem _ hmem)
      | @signal sig ch now hp hrecv hnp =>
        rcases takeSignal_phase s.sup sig now with ⟨haccepts, hphase⟩ | ⟨-, hquiet⟩
        · rw [hphase]
          exact hd.not_mem_toRestart hrecv haccepts he
        · rw [starting_of_quiet hquiet]
          exact List.not_mem_nil
      | _ => exact List.not_mem_nil

/-! ### What is due is started -/

/-- A slot that is due stays so until it is started, if its factory does not fail. -/
theorem due_step (hdue : idx ∈ due s.sup.phase) (h : s.step e = some s')
    (hfactory : e ≠ .sup .factoryErr) (hstarts : ¬ s.Starts e idx) : idx ∈ due s'.sup.phase := by
  cases e with
  | env e =>
    obtain ⟨-, rt, -, rfl⟩ := step_env h
    exact hdue
  | sup c =>
    cases supStep_inv h with
    | @spawn cause k todo actor id rt hp hrt =>
      rw [hp] at hdue
      rcases List.mem_cons.mp hdue with rfl | hmem
      · exact absurd ⟨actor, cause, todo, rfl, hp⟩ hstarts
      · exact hmem
    | startFailed => exact absurd rfl hfactory
    | childFailed => exact absurd rfl hfactory
    | @installed cause k id todo hp =>
      rw [hp] at hdue
      cases cause <;> exact hdue
    | restarted hp => rw [hp] at hdue; cases hdue
    | signal hp => rw [hp] at hdue; cases hdue
    | panic hp => rw [hp] at hdue; cases hdue
    | shutdown hp => rw [hp] at hdue; cases hdue
    | sendStop rt hp => rw [hp] at hdue; cases hdue
    | exit hp => rw [hp] at hdue; cases hdue

/-- A signal that restarts a slot by its place makes it due. -/
theorem due_of_restartsPlace (hlt : idx < s.sup.slots.length) (he : s.RestartsPlace e idx)
    (h : s.step e = some s') : idx ∈ due s'.sup.phase := by
  obtain ⟨now, sig, rfl, hsig, haccepts, hstrategy⟩ := he
  have hidx : idx ∈ s.sup.config.strategy.toRestart s.sup.slots sig.childId := by
    rcases hstrategy with hstrategy | ⟨hstrategy, hplace⟩
    · rw [hstrategy]
      exact List.mem_range.mpr hlt
    · rw [hstrategy]
      exact mem_toRestart_restForOne.mpr hplace
  have hphase : (s.sup.takeSignal sig now).phase =
      .restart (.signal sig) (s.sup.config.strategy.toRestart s.sup.slots sig.childId) := by
    rcases takeSignal_phase s.sup sig now with ⟨-, hphase⟩ | ⟨hrefuses, -⟩
    · exact hphase
    · exact absurd hrefuses haccepts
  cases supStep_inv h with
  | @signal sig' ch _ hp hrecv hnp =>
    obtain rfl : sig = sig' := Option.some.inj (hsig.symm.trans (nextSignal_of_recv hrecv))
    rw [hphase]
    exact hidx
  | @panic sig' ch _ hp hrecv hpanic =>
    obtain rfl : sig = sig' := Option.some.inj (hsig.symm.trans (nextSignal_of_recv hrecv))
    rw [hphase] at hpanic
    cases hpanic

/-! ### Every run -/

/-- **Abandoned children.** Once a slot was given up, in every run from there on:

* the slot is not started again if no signal restarts it by its place, which under OneForOne
  none does;
* if one does, and the factories of the children do not fail, the slot is started again by the
  time the supervisor is back in its loop. -/
theorem abandoned_stays_down (hs : s.Reachable) (ha : s.Abandons e idx)
    (h : s.step e = some s₁) (hrun : s₁.run es = some s₂) :
    (Along System.step (fun s e _ => ¬ s.RestartsPlace e idx) s₁ es →
      Along System.step (fun s e _ => ¬ s.Starts e idx) s₁ es) ∧
    (s₂.sup.phase = .select → .sup .factoryErr ∉ es →
      Along System.step (fun s e _ => ¬ s.Starts e idx) s₁ es →
      Along System.step (fun s e _ => ¬ s.RestartsPlace e idx) s₁ es) := by
  have hdown := down_of_abandons hs.instances ha h
  refine ⟨fun hes => ?_, fun hselect hfactory hes => ?_⟩
  · refine along_of_invariant (P := Down idx) (fun hd hq hst => ⟨down_step hd hst hq, ?_⟩)
      hdown hes
    rintro ⟨actor, cause, todo, -, hp⟩
    exact hd.starting (by rw [hp]; exact List.mem_cons_self)
  · obtain ⟨slot, hslot, -⟩ := hdown.dead
    have hlt : idx < s₁.sup.slots.length := (List.getElem?_eq_some_iff.mp hslot).1
    clear hs ha h hdown hslot
    induction es generalizing s₁ with
    | nil => exact along_nil
    | cons e es ih =>
      obtain ⟨t, ht, hrest⟩ := Option.bind_eq_some_iff.mp hrun
      have hfactory' : .sup .factoryErr ∉ es := fun hmem =>
        hfactory (List.mem_cons_of_mem _ hmem)
      have hes' := (hes t ht).2
      have hlt' : idx < t.sup.slots.length := by
        have horder := congrArg List.length (sup_of_step ht).1
        simp only [List.length_map] at horder
        omega
      intro t' ht'
      obtain rfl : t = t' := Option.some.inj (ht.symm.trans ht')
      refine ⟨fun he => ?_, ih hrest hfactory' hes' hlt'⟩
      -- the slot is due until it is started, and it is not when the supervisor is back
      have hcond : Along System.step
          (fun s e _ => ¬ s.Starts e idx ∧ e ≠ .sup .factoryErr) t es := by
        refine hes'.and (along_of_forall fun _ e he _ heq => ?_)
        exact hfactory' (heq ▸ he)
      have hdue := invariant_along (P := fun s : System M A => idx ∈ due s.sup.phase)
        (fun hd hq hst => due_step hd hst hq.2 hq.1) (due_of_restartsPlace hlt he ht) hcond hrest
      rw [hselect] at hdue
      cases hdue

/-- The child that was restarted, whose factory published its reference, fails eleven seconds
later and is restarted again. -/
def failsLater : List (SysEvent Unit Unit) :=
  .env (.cloneRef ⟨5⟩) :: failsIn ⟨5⟩ ++
    [.recvSignal 11000000000, .spawnChild (), .installed, .restarted].map .sup

/-- OneForOne: the second child is given up and stays so. -/
theorem abandoned_stays_down_oneForOne : ∃ s s₁ s₂ : System Unit Unit,
    oneRestartEachTwo.run bothFail = some s ∧ s.Abandons (.sup (.recvSignal 0)) 1 ∧
    s.step (.sup (.recvSignal 0)) = some s₁ ∧ s₁.run failsLater = some s₂ ∧
    Along System.step (fun s e _ => ¬ s.Starts e 1) s₁ failsLater := by
  have hstart : twoChildren (oneRestartEach .oneForOne) = some oneRestartEachTwo := rfl
  let s : System Unit Unit := (oneRestartEachTwo.run bothFail).get rfl
  let s₁ : System Unit Unit := (s.step (.sup (.recvSignal 0))).get rfl
  let s₂ : System Unit Unit := (s₁.run failsLater).get (by decide +kernel)
  have hrun : oneRestartEachTwo.run bothFail = some s := rfl
  have hstep : s.step (.sup (.recvSignal 0)) = some s₁ := (Option.some_get _).symm
  have hlater : s₁.run failsLater = some s₂ := (Option.some_get _).symm
  have ha : s.Abandons (.sup (.recvSignal 0)) 1 :=
    ⟨0, -10000000000, ⟨⟨4⟩, .error "boom"⟩, rfl, rfl, by decide, by decide, rfl, rfl⟩
  have hs : s.Reachable := ⟨_, _, _, _, _, _, reachable_twoSpecs, hstart, hrun⟩
  refine ⟨s, s₁, s₂, hrun, ha, hstep, hlater, ?_⟩
  exact (abandoned_stays_down hs ha hstep hlater).1 (along_not_restartsPlace (by decide +kernel))

/-- The first child fails, is restarted and fails again. -/
def failsTwice : List (SysEvent Unit Unit) :=
  bothSpawn ++ failsIn ⟨3⟩ ++ .sup (.recvSignal 0) :: bothSpawn ++
    .env (.cloneRef ⟨5⟩) :: failsIn ⟨5⟩

/-- Eleven seconds later the second child fails. -/
def siblingFails : List (SysEvent Unit Unit) :=
  .env (.cloneRef ⟨6⟩) :: failsIn ⟨6⟩ ++ [.sup (.recvSignal 11000000000)]

/-- OneForAll: the first child is given up, and started again when its sibling has failed. -/
theorem abandoned_child_restarted : ∃ s₀ s s₁ s₂ : System Unit Unit,
    twoChildren (oneRestartEach .oneForAll) = some s₀ ∧
    s₀.run failsTwice = some s ∧ s.Abandons (.sup (.recvSignal 0)) 0 ∧
    s.step (.sup (.recvSignal 0)) = some s₁ ∧
    s₁.run siblingFails = some s₂ ∧ s₂.Starts (.sup (.spawnChild ())) 0 ∧
    (s₂.step (.sup (.spawnChild ()))).isSome := by
  let s₀ : System Unit Unit := (twoChildren (oneRestartEach .oneForAll)).get rfl
  let s : System Unit Unit := (s₀.run failsTwice).get (by decide +kernel)
  let s₁ : System Unit Unit := (s.step (.sup (.recvSignal 0))).get (by decide +kernel)
  let s₂ : System Unit Unit := (s₁.run siblingFails).get (by decide +kernel)
  refine ⟨s₀, s, s₁, s₂, (Option.some_get _).symm, (Option.some_get _).symm, ?_,
    (Option.some_get _).symm, (Option.some_get _).symm, ?_, by decide +kernel⟩
  · exact ⟨0, -10000000000, ⟨⟨5⟩, .error "boom"⟩, rfl, by decide +kernel,
      by decide +kernel, by decide +kernel, by decide +kernel, by decide +kernel⟩
  · exact ⟨(), .signal ⟨⟨6⟩, .error "boom"⟩, [1], rfl, by decide +kernel⟩

end System

end LaneSwitchboards
