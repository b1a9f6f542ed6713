import LaneSwitchboards.Actor.Handshake
import LaneSwitchboards.Actor.History
import Mathlib.Logic.Relation

/-!
# The cascade of a linked exit

One actor exits with an abnormal reason, and whoever hears of an exit and does not trap it exits
too. When the cascade has come to rest, those are gone to whom a path of links leads from the
first one on which nobody after the first traps exits and nobody before the last panicked out of
its `post_stop` (`ended_iff_path`). So the cascade goes as far as the links let it exactly when no
such panic cuts off an actor from all of its paths (`cascade_iff`).

* **Soundness**: a queued `LinkedExit` comes from a link of an actor that has gone through its
  `post_stop`, and who has left its loop was reached (`Spreading`).
* **Completeness**: what is owed to a running actor that does not trap exits is still to be sent
  or queued (`told_step`), by the balance of `Hearing`.
-/

namespace LaneSwitchboards

namespace Phase

variable {M : Type} {p : Phase M}

/-- Who propagates an exit has gone through `post_stop`. -/
theorem postStopDone_of_mem_targets {q : ActorId} (h : q ∈ p.targets) : p.postStopDone = true := by
  cases p <;> first | rfl | cases h

/-- After `post_stop` an abnormal exit is propagated. -/
theorem propagates_of_reason {r : ExitReason} (h : p.postStopDone = true)
    (hr : p.reason = some r) (habnormal : shouldPropagateLinkedExit r = true) :
    p.propagates = true := by
  cases p with
  | unregister e | finish e | done e =>
    cases e with
    | exited r' =>
      obtain rfl : r' = r := Option.some.inj hr
      exact habnormal
    | _ => cases h
  | propagate | lookupPeer | sendLinkedExit => rfl
  | _ => cases h

/-- A task that has ended with a reason has gone through `post_stop`. -/
theorem postStopDone_of_isDone {r : ExitReason} (h : p.isDone = true) (hr : p.reason = some r) :
    p.postStopDone = true := by
  cases p with
  | done e => cases e <;> first | rfl | cases hr
  | _ => cases h

end Phase

/-- An exit reason is kept to the end, unless a panic escapes. -/
theorem Move.reason {M A : Type} {t t' : Task M A} {x : Input M A} {r : ExitReason}
    (h : Move t x t') (hr : t.phase.reason = some r) :
    t'.phase.reason = some r ∨ t'.phase = .done .panicked := by
  cases h with
  | loop hp | insert _ hp | known _ hp | leave hp =>
    rw [Phase.reason_of_running hp] at hr
    cases hr
  | erase _ hp | foundLink _ _ hp | sentLink _ hp | heard _ _ hp =>
    rw [hp] at hr
    cases hr
  | notify r' k hp hx hl hp' =>
    rw [hp] at hr
    rw [hp']
    cases k <;> exact Or.inl hr
  | stopped r' o hp hx hl hp' =>
    rw [hp] at hr
    rw [hp']
    split_ifs <;> exact Or.inl hr
  | foundPeer r' peer rest b hp hx hl hp' =>
    rw [hp] at hr
    rw [hp']
    cases b <;> exact Or.inl hr
  | notified _ _ hp _ _ hp' | next _ _ _ hp _ _ _ hp' | linksDone _ hp _ _ hp'
    | sentExit _ _ _ hp _ _ hp' =>
    rw [hp] at hr
    rw [hp']
    exact Or.inl hr
  | unregistered e hp hx hl hp' | finished e hp hx hl hp' =>
    rw [hp] at hr
    rw [hp']
    cases e <;> exact Or.inl hr
  | panicked _ _ _ hp' => exact Or.inr hp'

namespace Runtime

open Function Transition

variable {M A : Type} {w w' w₀ w₁ w₂ : Runtime M A} {f i p q : ActorId} {e : RtEvent M A}
  {es es₁ es₂ : List (RtEvent M A)} {r : ExitReason} {trap : ActorId → Bool}
  {L : ActorId → ActorId → Prop} {S : ActorId → Prop}

/-- The task of `i` has ended. -/
def Ended (w : Runtime M A) (i : ActorId) : Prop :=
  ∃ t, w.tasks i = some t ∧ t.phase.isDone = true

/-- The actor is exiting, or has exited, with an abnormal reason. -/
def Fails (w : Runtime M A) (i : ActorId) : Prop :=
  ∃ t r, w.tasks i = some t ∧ t.phase.reason = some r ∧ shouldPropagateLinkedExit r = true

/-- The task of `i` was ended by a panic that escaped from a callback. -/
def Panicked (w : Runtime M A) (i : ActorId) : Prop :=
  ∃ t, w.tasks i = some t ∧ t.phase = .done .panicked

/-- `post_stop` of `i` has returned. -/
def PostStopped (w : Runtime M A) (i : ActorId) : Prop :=
  ∃ t, w.tasks i = some t ∧ t.phase.postStopDone = true

/-- A step of a cascade that starts with `f`: the only exits are the abnormal one of `f` and
those of actors that hear of an exit. Everyone answers `trap_exit()` by `trap`, and nobody is
asked to link or to unlink. -/
structure Cascade (f : ActorId) (trap : ActorId → Bool) (w : Runtime M A) (e : RtEvent M A)
    (w' : Runtime M A) : Prop where
  leaves : ∀ i, w.Running i → ¬ w'.Running i → i = f ∧ w'.Fails i ∨
    ∃ p r, w.Observes i e (.control (some (.linkedExit p r)) false)
  trap : ∀ i m b, w.Observes i e (.control m b) → b = trap i
  noRequest : ∀ p q, e ≠ .post p (.link q) ∧ e ≠ .post p (.unlink q)

/-! ### Endings -/

theorem PostStopped.step (h : w.PostStopped i) (hw : w.Reachable) (hst : w.step e = some w') :
    w'.PostStopped i := by
  obtain ⟨t, ht, hdone⟩ := h
  rcases tasks_step hst i with hsame | ⟨c, s, x, w₁, t', -, hs, -, -, hstep, ht'⟩ |
    ⟨_, _, _, -, hi, -⟩
  · exact ⟨t, hsame.trans ht, hdone⟩
  · obtain rfl : t = s := Option.some.inj (ht.symm.trans hs)
    exact ⟨t', ht', Task.postStopDone_of_step hstep hdone⟩
  · exact absurd hi (hw.fresh.ne_nextId ht)

theorem PostStopped.not_running (h : w.PostStopped i) : ¬ w.Running i := by
  obtain ⟨t, ht, hdone⟩ := h
  rintro ⟨s, hs, hrun⟩
  obtain rfl : t = s := Option.some.inj (ht.symm.trans hs)
  rw [Phase.postStopDone_of_running hrun] at hdone
  cases hdone

theorem PostStopped.not_panicked (h : w.PostStopped i) : ¬ w.Panicked i := by
  obtain ⟨t, ht, hdone⟩ := h
  rintro ⟨s, hs, hp⟩
  obtain rfl : t = s := Option.some.inj (ht.symm.trans hs)
  rw [hp] at hdone
  cases hdone

/-- A failure lasts, but `post_stop` may still panic. -/
theorem Fails.step (h : w.Fails i) (hw : w.Reachable) (hst : w.step e = some w') :
    w'.Fails i ∨ w'.Panicked i := by
  obtain ⟨t, r, ht, hr, habnormal⟩ := h
  rcases tasks_step hst i with hsame | ⟨c, s, x, w₁, t', -, hs, -, -, hstep, ht'⟩ |
    ⟨_, _, _, -, hi, -⟩
  · exact Or.inl ⟨t, r, hsame.trans ht, hr, habnormal⟩
  · obtain rfl : t = s := Option.some.inj (ht.symm.trans hs)
    rcases (Task.step_move hstep).reason hr with hr' | hp
    · exact Or.inl ⟨t', r, ht', hr', habnormal⟩
    · exact Or.inr ⟨t', ht', hp⟩
  · exact absurd hi (hw.fresh.ne_nextId ht)

theorem Panicked.step (h : w.Panicked i) (hw : w.Reachable) (hst : w.step e = some w') :
    w'.Panicked i := by
  obtain ⟨t, ht, hp⟩ := h
  rcases tasks_step hst i with hsame | ⟨c, s, x, w₁, t', -, hs, -, -, hstep, -⟩ |
    ⟨_, _, _, -, hi, -⟩
  · exact ⟨t, hsame.trans ht, hp⟩
  · obtain rfl : t = s := Option.some.inj (ht.symm.trans hs)
    have hnot := (Task.step_move hstep).not_isDone
    rw [hp] at hnot
    cases hnot
  · exact absurd hi (hw.fresh.ne_nextId ht)

/-- An actor that hears of an exit, and does not trap it, fails. -/
theorem fails_of_hears (hst : w.step e = some w')
    (hobs : w.Observes i e (.control (some (.linkedExit p r)) false)) : w'.Fails i := by
  obtain ⟨t, w₁, t', -, hacc, hstep, rfl⟩ := hobs.step hst
  refine ⟨t', .linked p r, by simp [setTask], ?_, rfl⟩
  generalize hp : t.phase = ph at hacc
  cases hacc with
  | internal hx => cases hx
  | recvControl h =>
    rw [Task.step_control hp] at hstep
    cases hstep
    rfl

/-! ### Links in a cascade -/

/-- No request about links is unprocessed, and no handshake is going on. -/
structure LinksFixed (w : Runtime M A) : Prop where
  mailbox : ∀ p q, .link q ∉ (w.mailbox p).queue ∧ .unlink q ∉ (w.mailbox p).queue
  owed : ∀ p q, ¬ w.Owes p q
  sent : ∀ p q, .link p ∉ (w.control q).queue

namespace LinksFixed

theorem not_takesLink (h : w.LinksFixed) (hst : w.step e = some w') : ¬ w.TakesLink p q e := by
  rintro (hobs | ⟨trap, hobs⟩)
  · obtain ⟨_, _, _, -, hacc, -⟩ := hobs.step hst
    exact (h.mailbox p q).1 (mem_mailbox_of_access hacc)
  · obtain ⟨_, _, _, -, hacc, -⟩ := hobs.step hst
    exact h.sent q p (mem_control_of_access hacc)

/-- Links stay as they are. -/
theorem holds_iff (h : w.LinksFixed) (hw : w.Reachable) (hst : w.step e = some w') :
    w'.Holds p q ↔ w.Holds p q := by
  constructor
  · intro hpq
    exact (hpq.of_step hst).resolve_right fun htakes => h.not_takesLink hst htakes.1
  · refine fun hpq => hpq.step hw hst fun p q hobs => ?_
    obtain ⟨_, _, _, -, hacc, -⟩ := hobs.step hst
    exact (h.mailbox p q).2 (mem_mailbox_of_access hacc)

theorem step (h : w.LinksFixed) (hst : w.step e = some w')
    (he : ∀ p q, e ≠ .post p (.link q) ∧ e ≠ .post p (.unlink q)) : w'.LinksFixed where
  mailbox p q := ⟨not_mem_mailbox_step (h.mailbox p q).1 hst (he p q).1,
    not_mem_mailbox_step (h.mailbox p q).2 hst (he p q).2⟩
  owed p q hpq := by
    rcases hpq.of_step hst with hpq | ⟨htakes, -⟩
    · exact h.owed p q hpq
    · exact h.not_takesLink hst htakes
  sent p q hm := by
    rcases control_step hst hm with hold | ⟨i, t, ht, ⟨hp, hmsg⟩ | ⟨r, rest, -, hmsg⟩⟩
    · exact h.sent p q hold
    · cases hmsg
      exact h.owed p q ⟨t, ht, by rw [hp]; rfl⟩
    · cases hmsg

end LinksFixed

/-! ### Soundness -/

/-- `p` has yet to send `q` its `LinkedExit`. -/
def Targets (w : Runtime M A) (p q : ActorId) : Prop :=
  ∃ t, w.tasks p = some t ∧ q ∈ t.phase.targets

/-- An exit of `p` ends `q`, once `p` has gone through its `post_stop`. -/
def Infects (w : Runtime M A) (L : ActorId → ActorId → Prop) (trap : ActorId → Bool)
    (p q : ActorId) : Prop := L p q ∧ trap q = false ∧ w.PostStopped p

/-- Where the cascade of `f` along the links `L` of the actors `S` stands. -/
structure Spreading (w : Runtime M A) (S : ActorId → Prop) (L : ActorId → ActorId → Prop)
    (trap : ActorId → Bool) (f : ActorId) : Prop where
  fixed : w.LinksFixed
  holds : ∀ p q, w.Holds p q ↔ L p q
  targets : ∀ p q, w.Targets p q → L p q
  queued : ∀ p q r, .linkedExit p r ∈ (w.control q).queue → L p q ∧ w.PostStopped p
  exits : ∀ i, S i → w.Running i ∨ w.Fails i ∨ w.Panicked i
  /-- Who has left its loop was reached. -/
  reached : ∀ i, S i → ¬ w.Running i → Relation.ReflTransGen (w.Infects L trap) f i
  /-- What is owed to a running actor that does not trap exits is on its way. -/
  told : ∀ p q, S q → trap q = false → w.Running q → w.due p q = w.pending p q + w.queued p q

/-- Who has yet to be told is a link, and has been one. -/
theorem Targets.of_step (h : w'.Targets p q) (hst : w.step e = some w') :
    w.Targets p q ∨ w.Holds p q := by
  obtain ⟨t, ht, hq⟩ := h
  rcases tasks_step hst p with hsame | ⟨c, s, x, w₁, t', -, hs, -, -, hstep, ht'⟩ |
    ⟨_, _, _, -, -, ht'⟩
  · exact Or.inl ⟨t, hsame.symm.trans ht, hq⟩
  · obtain rfl : t = t' := Option.some.inj (ht.symm.trans ht')
    rcases Finset.mem_union.mp (Task.step_targets hstep hq) with hq | hq
    · exact Or.inl ⟨s, hs, hq⟩
    · exact Or.inr ⟨s, hs, hq⟩
  · rw [ht'] at ht
    cases ht
    cases hq

theorem Targets.postStopped (h : w.Targets p q) : w.PostStopped p := by
  obtain ⟨t, ht, hq⟩ := h
  exact ⟨t, ht, Phase.postStopDone_of_mem_targets hq⟩

theorem Infects.step (h : w.Infects L trap p q) (hw : w.Reachable) (hst : w.step e = some w') :
    w'.Infects L trap p q :=
  ⟨h.1, h.2.1, h.2.2.step hw hst⟩

/-- A task that runs after a step ran before it, or is new. -/
theorem Running.of_step (h : w'.Running i) (hw : w.Reachable) (hst : w.step e = some w') :
    w.Running i ∨ w.tasks i = none := by
  obtain ⟨t, ht, hrun⟩ := h
  cases hi : w.tasks i with
  | none => exact Or.inr rfl
  | some s =>
    refine Or.inl ⟨s, hi, ?_⟩
    rcases tasks_step hst i with hsame | ⟨_, s', _, _, t', -, hs, -, -, hstep, ht'⟩ |
      ⟨_, _, _, -, rfl, ht'⟩
    · obtain rfl : s = t := Option.some.inj (hi.symm.trans (hsame.symm.trans ht))
      exact hrun
    · obtain rfl : t' = t := Option.some.inj (ht'.symm.trans ht)
      obtain rfl : s = s' := Option.some.inj (hi.symm.trans hs)
      exact Task.running_of_step hstep hrun
    · rw [hw.fresh.tasks _ le_rfl] at hi
      cases hi

/-- What a lookup in `propagate_linked_exit` finds. -/
theorem found_of_access {peer : ActorId} {rest : Finset ActorId} {b : Bool} {v : Runtime M A}
    (h : Access w i (.lookupPeer r peer rest) (.found b) v) : b = w.hasControlSender peer := by
  cases h with
  | internal hx => cases hx
  | lookupPeer => rfl

/-- A running actor misses nothing. -/
theorem Running.not_missesExit (hq : w.Running q) (hw : w.Reachable) (hst : w.step e = some w') :
    ¬ w.MissesExit q p e := by
  rintro ⟨t, x, ht, hobs, hrelease, hsent⟩
  obtain ⟨s, v, _, hs, hacc, -⟩ := hobs.step hst
  obtain rfl : t = s := Option.some.inj (ht.symm.trans hs)
  unfold Phase.releases at hrelease
  split at hrelease
  · next hp =>
    rw [hp] at hacc
    rw [beq_iff_eq] at hrelease
    have hfound := found_of_access hacc
    rw [hrelease, hq.hasControlSender hw] at hfound
    cases hfound
  · have hclosed := hsent rfl
    rw [hq.isOpen hw] at hclosed
    cases hclosed
  · cases hrelease

/-- What is owed to a running actor that does not trap exits keeps the balance. -/
theorem told_step (hw : w.Reachable) (hst : w.step e = some w') (hq : w.Running q)
    (hq' : w'.Running q) (htrap : ∀ m b, w.Observes q e (.control m b) → b = false)
    (htold : w.due p q = w.pending p q + w.queued p q) :
    w'.due p q = w'.pending p q + w'.queued p q := by
  have hbalance := balance_step hw hst q p
  have htaken : taken q p w e w' = 0 := by
    refine if_neg ?_
    rintro ⟨r, b, hobs⟩
    obtain rfl : b = false := htrap _ _ hobs
    obtain ⟨t, r', ht, hr, -⟩ := fails_of_hears hst hobs
    obtain ⟨s, hs, hrun⟩ := hq'
    obtain rfl : t = s := Option.some.inj (ht.symm.trans hs)
    rw [Phase.reason_of_running hrun] at hr
    cases hr
  have hlost : lost q p w e w' = 0 := by
    rw [lost, if_neg (hq.not_missesExit hw hst), if_neg (hq'.not_dropsReceivers hst)]
  omega

namespace Spreading

/-- Whoever leaves its loop in a step is reached. -/
theorem reached_step (h : w.Spreading S L trap f) (hS : ∀ p q, L p q → S p) (hw : w.Reachable)
    (hst : w.step e = some w') (hc : Cascade f trap w e w') (hi : S i) (hleft : ¬ w'.Running i) :
    Relation.ReflTransGen (w'.Infects L trap) f i := by
  have hmono : ∀ {i}, Relation.ReflTransGen (w.Infects L trap) f i →
      Relation.ReflTransGen (w'.Infects L trap) f i :=
    fun hpath => Relation.ReflTransGen.mono (fun p q hpq => Infects.step hpq hw hst) _ _ hpath
  by_cases hrun : w.Running i
  · rcases hc.leaves i hrun hleft with ⟨rfl, -⟩ | ⟨p, r, hobs⟩
    · exact .refl
    · obtain ⟨_, _, _, -, hacc, -⟩ := id (hobs.step hst)
      obtain ⟨hpi, hstopped⟩ := h.queued p i r (mem_control_of_access hacc)
      have hpath := h.reached p (hS p i hpi) hstopped.not_running
      exact (hmono hpath).tail ⟨hpi, (hc.trap i _ _ hobs).symm, hstopped.step hw hst⟩
  · exact hmono (h.reached i hi hrun)

/-- **Every event of the cascade keeps its account.** -/
theorem step (h : w.Spreading S L trap f) (hS : ∀ p q, L p q → S p) (hw : w.Reachable)
    (hst : w.step e = some w') (hc : Cascade f trap w e w') : w'.Spreading S L trap f where
  fixed := h.fixed.step hst hc.noRequest
  holds p q := (h.fixed.holds_iff hw hst).trans (h.holds p q)
  targets p q hpq := by
    rcases hpq.of_step hst with hpq | hpq
    · exact h.targets p q hpq
    · exact (h.holds p q).mp hpq
  queued p q r hm := by
    rcases control_step hst hm with hold | ⟨i, t, ht, ⟨-, hmsg⟩ | ⟨r', rest, hp, hmsg⟩⟩
    · exact ⟨(h.queued p q r hold).1, (h.queued p q r hold).2.step hw hst⟩
    · cases hmsg
    · cases hmsg
      have htargets : w.Targets p q := ⟨t, ht, by rw [hp]; exact Finset.mem_insert_self _ _⟩
      exact ⟨h.targets p q htargets, htargets.postStopped.step hw hst⟩
  exits i hi := by
    by_cases hrun : w'.Running i
    · exact Or.inl hrun
    · rcases h.exits i hi with hbefore | hfails | hpanicked
      · rcases hc.leaves i hbefore hrun with ⟨-, hfails⟩ | ⟨p, r, hobs⟩
        · exact Or.inr (Or.inl hfails)
        · exact Or.inr (Or.inl (fails_of_hears hst hobs))
      · exact Or.inr (hfails.step hw hst)
      · exact Or.inr (Or.inr (hpanicked.step hw hst))
  reached i hi hleft := h.reached_step hS hw hst hc hi hleft
  told p q hq htrap hrun := by
    rcases hrun.of_step hw hst with hbefore | hnone
    · refine told_step hw hst hbefore hrun (fun m b hobs => ?_) (h.told p q hq htrap hbefore)
      rw [hc.trap q m b hobs, htrap]
    · rcases h.exits q hq with ⟨t, ht, -⟩ | ⟨t, _, ht, -⟩ | ⟨t, ht, -⟩
      all_goals
        rw [hnone] at ht
        cases ht

/-- **The cascade keeps its account.** -/
theorem run (h : w₁.Spreading S L trap f) (hS : ∀ p q, L p q → S p) (hw : w₁.Reachable)
    (hc : Along Runtime.step (Cascade f trap) w₁ es) (hrun : w₁.run es = some w) :
    w.Spreading S L trap f := by
  refine (invariant_along (P := fun w => w.Reachable ∧ w.Spreading S L trap f) ?_ ⟨hw, h⟩ hc
    hrun).2
  intro w e w' ⟨hw, h⟩ hc hst
  exact ⟨hw.step hst, h.step hS hw hst hc⟩

end Spreading

/-- The cascade starts where the links are at rest. -/
theorem Handshake.spreading {R : ActorId → ActorId → Prop} (h : w.Handshake R)
    (hsettled : w.ControlSettled) (hprocessed : ∀ p q, .link q ∉ (w.mailbox p).queue) :
    w.Spreading w.Running (fun p q => R p q ∨ R q p) trap f where
  fixed := by
    refine ⟨fun p q => ⟨hprocessed p q, h.noUnlink p q⟩, ?_, fun p q hm => ?_⟩
    · rintro p q ⟨t, ht, howed⟩
      rw [hsettled.owed p t ht] at howed
      cases howed
    · rw [hsettled.queue] at hm
      cases hm
  holds p q := h.holds_iff hsettled hprocessed
  targets p q hpq := by
    obtain ⟨t, ht, hq⟩ := hpq
    rw [hsettled.targets p t ht] at hq
    cases hq
  queued p q r hm := by
    rw [hsettled.queue] at hm
    cases hm
  exits i hi := Or.inl hi
  reached i hi hleft := absurd hi hleft
  told p q hq htrap hrun := by
    have hqueued : w.queued p q = 0 := by rw [queued, hsettled.queue, List.countP_nil]
    cases hp : w.tasks p with
    | none => simp [due, pending, hqueued, hp]
    | some t =>
      have hpending : w.pending p q = 0 := by
        rw [pending_eq hp]
        exact Task.pendingTo_eq_zero (hsettled.targets p t hp)
      have hdue : w.due p q = 0 := by
        rw [due_eq hp, Task.dueTo]
        refine if_neg fun hboth => ?_
        have hrun : w.Running p := by
          rcases h.holds p q ⟨t, hp, hboth.2⟩ with hR | hR
          · exact (h.among p q hR).1
          · exact (h.among q p hR).2
        obtain ⟨s, hs, hrun⟩ := hrun
        obtain rfl : t = s := Option.some.inj (hp.symm.trans hs)
        rw [Phase.propagates_of_running hrun] at hboth
        cases hboth.1
      rw [hdue, hpending, hqueued]

/-- No control message is in flight, and every task runs or has ended. -/
structure Rests (w : Runtime M A) : Prop where
  settled : w.ControlSettled
  ended : ∀ i, (∃ t, w.tasks i = some t) → w.Running i ∨ w.Ended i

theorem Ended.not_running (h : w.Ended i) : ¬ w.Running i := by
  obtain ⟨t, ht, hdone⟩ := h
  rintro ⟨s, hs, hrun⟩
  obtain rfl : t = s := Option.some.inj (ht.symm.trans hs)
  rw [Phase.isDone_of_running hrun] at hdone
  cases hdone

namespace Spreading

theorem spawned (h : w.Spreading S L trap f) (hi : S i) : ∃ t, w.tasks i = some t := by
  rcases h.exits i hi with ⟨t, ht, -⟩ | ⟨t, _, ht, -⟩ | ⟨t, ht, -⟩ <;> exact ⟨t, ht⟩

/-- **A link of an actor that is gone is gone**, unless it traps exits or that actor panicked. -/
theorem ended_of_link (h : w.Spreading S L trap f) (hrest : w.Rests)
    (hS : ∀ p q, L p q → S p ∧ S q) (hpq : L p q) (hp : w.Ended p) (hpanicked : ¬ w.Panicked p)
    (htrap : trap q = false) : w.Ended q := by
  obtain ⟨hSp, hSq⟩ := hS p q hpq
  refine (hrest.ended q (h.spawned hSq)).resolve_left fun hrun => ?_
  have hfails : w.Fails p := by
    rcases h.exits p hSp with hrun | hfails | hpanic
    · exact absurd hrun hp.not_running
    · exact hfails
    · exact absurd hpanic hpanicked
  obtain ⟨t, r, ht, hr, habnormal⟩ := hfails
  obtain ⟨s, hs, hdone⟩ := hp
  obtain rfl : t = s := Option.some.inj (ht.symm.trans hs)
  obtain ⟨s, hs, hmem⟩ := (h.holds p q).mpr hpq
  obtain rfl : t = s := Option.some.inj (ht.symm.trans hs)
  have hstopped := Phase.postStopDone_of_isDone hdone hr
  have hpropagates := Phase.propagates_of_reason hstopped hr habnormal
  have hdue : w.due p q = 1 := by
    rw [due_eq ht, Task.dueTo]
    exact if_pos ⟨hpropagates, hmem⟩
  have hpending : w.pending p q = 0 := by
    rw [pending_eq ht]
    exact Task.pendingTo_eq_zero (hrest.settled.targets p t ht)
  have hqueued : w.queued p q = 0 := by
    rw [Runtime.queued, hrest.settled.queue, List.countP_nil]
  have htold := h.told p q hSq htrap hrun
  omega

/-- Who is gone at rest. -/
theorem ended_iff (h : w.Spreading S L trap f) (hrest : w.Rests) (hS : ∀ p q, L p q → S p ∧ S q)
    (hf : w.Ended f) (hi : S i) : w.Ended i ↔
      Relation.ReflTransGen (fun p q => L p q ∧ trap q = false ∧ ¬ w.Panicked p) f i := by
  constructor
  · intro hended
    refine Relation.ReflTransGen.mono (fun p q hpq => ?_) _ _
      (h.reached i hi hended.not_running)
    exact ⟨hpq.1, hpq.2.1, hpq.2.2.not_panicked⟩
  · intro hpath
    induction hpath with
    | refl => exact hf
    | @tail p q hpath hpq ih =>
      exact h.ended_of_link hrest hS hpq.1 (ih (hS p q hpq.1).1) hpq.2.2 hpq.2.1

end Spreading

/-! ### At most one end -/

open Classical in
/-- The ends of the task of `i` in a step. -/
noncomputable def ends (i : ActorId) (w : Runtime M A) (e : RtEvent M A) (_ : Runtime M A) : ℕ :=
  if w.DropsReceivers i e then 1 else 0

/-- A task ends where it drops its receivers, and only once. -/
theorem ended_step (hw : w.Reachable) (hst : w.step e = some w') :
    (w'.Ended i ↔ w.Ended i ∨ w.DropsReceivers i e) ∧ (w.DropsReceivers i e → ¬ w.Ended i) := by
  have hdrops : w.DropsReceivers i e → w'.Ended i ∧ ¬ w.Ended i := by
    intro hdrop
    obtain ⟨x, hx, hobs⟩ : ∃ x, (x = .finished ∨ x = .panicked) ∧ w.Observes i e x :=
      hdrop.elim (fun hobs => ⟨_, Or.inl rfl, hobs⟩) fun hobs => ⟨_, Or.inr rfl, hobs⟩
    obtain ⟨t, _, t', ht, -, hstep, rfl⟩ := hobs.step hst
    have hmove := Task.step_move hstep
    refine ⟨⟨t', by simp [setTask], hmove.isDone_iff.mpr hx⟩, ?_⟩
    rintro ⟨s, hs, hdone⟩
    obtain rfl : t = s := Option.some.inj (ht.symm.trans hs)
    rw [hmove.not_isDone] at hdone
    cases hdone
  refine ⟨⟨?_, ?_⟩, fun hdrop => (hdrops hdrop).2⟩
  · rintro ⟨t, ht, hdone⟩
    rcases tasks_step hst i with hsame | ⟨c, s, x, w₁, t', -, hs, -, hobs, hstep, ht'⟩ |
      ⟨_, _, _, -, -, ht'⟩
    · exact Or.inl ⟨t, hsame.symm.trans ht, hdone⟩
    · obtain rfl : t = t' := Option.some.inj (ht.symm.trans ht')
      rcases (Task.step_move hstep).isDone_iff.mp hdone with rfl | rfl
      · exact Or.inr (Or.inl hobs)
      · exact Or.inr (Or.inr hobs)
    · rw [ht'] at ht
      cases ht
      cases hdone
  · rintro (⟨t, ht, hdone⟩ | hdrop)
    · rcases tasks_step hst i with hsame | ⟨c, s, x, w₁, t', -, hs, -, -, hstep, -⟩ |
        ⟨_, _, _, -, hi, -⟩
      · exact ⟨t, hsame.trans ht, hdone⟩
      · obtain rfl : t = s := Option.some.inj (ht.symm.trans hs)
        have hnot := (Task.step_move hstep).not_isDone
        rw [hdone] at hnot
        cases hnot
      · exact absurd hi (hw.fresh.ne_nextId ht)
    · exact (hdrops hdrop).1

/-- **A task ends at most once.** -/
theorem ends_le_one (hw : w.Reachable) (hrun : w.run es = some w') :
    tally Runtime.step (ends i) w es ≤ 1 := by
  classical
  -- the number of ends tells whether the task has ended in this run
  have hcount : tally Runtime.step (ends i) w es + (if w.Ended i then 1 else 0) =
      if w'.Ended i then 1 else 0 := by
    refine run_induction (motive := fun es (w' : Runtime M A) =>
      tally Runtime.step (ends i) w es + (if w.Ended i then 1 else 0) =
        if w'.Ended i then 1 else 0) (by simp [tally]) ?_ hrun
    intro es v e v' hes ih hst
    obtain ⟨hiff, hnot⟩ := ended_step (i := i) (hw.run hes) hst
    rw [tally_concat hes hst, ends]
    by_cases hdrop : v.DropsReceivers i e
    · rw [if_neg (hnot hdrop)] at ih
      rw [if_pos hdrop, if_pos (hiff.mpr (Or.inr hdrop))]
      omega
    · rw [if_neg hdrop, if_congr (hiff.trans (or_iff_left hdrop)) rfl rfl]
      exact ih
  split_ifs at hcount <;> omega

/-- **The cascade, in full.** Links are requested among running actors until everything is at
rest; then `f` fails and the cascade runs until everything is at rest again. An actor is gone iff
the graph of the requests has a path to it from `f` on which nobody after the first traps exits
and nobody before the last panicked in its end. Each actor ends at most once. -/
theorem ended_iff_path (hw : w₀.Reachable) (h₀ : w₀.Unlinked)
    (hlinking : Along Runtime.step Linking w₀ es₁) (hrun₁ : w₀.run es₁ = some w₁)
    (hsettled : w₁.ControlSettled) (hprocessed : ∀ p q, .link q ∉ (w₁.mailbox p).queue)
    (hcascade : Along Runtime.step (Cascade f trap) w₁ es₂) (hrun₂ : w₁.run es₂ = some w₂)
    (hf : w₂.Ended f) (hrest : w₂.Rests) :
    ∀ i, w₁.Running i →
      (w₂.Ended i ↔ Relation.ReflTransGen (fun p q => (Requested es₁ p q ∨ Requested es₁ q p) ∧
        trap q = false ∧ ¬ w₂.Panicked p) f i) ∧
      tally Runtime.step (ends i) w₁ es₂ ≤ 1 := by
  intro i hi
  have hreach : w₁.Reachable := hw.run hrun₁
  have hshake := Handshake.run h₀ hw hlinking hrun₁
  have hS : ∀ p q, Requested es₁ p q ∨ Requested es₁ q p → w₁.Running p ∧ w₁.Running q := by
    rintro p q (hR | hR)
    · exact hshake.among p q hR
    · exact (hshake.among q p hR).symm
  have hspread := (hshake.spreading hsettled hprocessed).run (fun p q hpq => (hS p q hpq).1) hreach
    hcascade hrun₂
  exact ⟨hspread.ended_iff hrest hS hf hi, ends_le_one hreach hrun₂⟩

/-- A running actor is ended by a panic exactly when it observes one. -/
theorem Running.panicked_iff (hi : w.Running i) (hw : w.Reachable) (hrun : w.run es = some w') :
    w'.Panicked i ↔ .panicked ∈ w.inputs i es := by
  obtain ⟨t, ht, hrunning⟩ := hi
  obtain ⟨t', hinputs, ht'⟩ := run_inputs hw.fresh ht hrun
  have hlive : t.phase.termination ≠ some .panicked := by
    simp [Phase.termination_of_running hrunning]
  obtain ⟨hiff, hdone⟩ := Task.panicked_run hlive hinputs
  constructor
  · rintro ⟨s, hs, hp⟩
    obtain rfl : t' = s := Option.some.inj (ht'.symm.trans hs)
    exact hiff.mp (by rw [hp]; rfl)
  · intro hmem
    exact ⟨t', ht', hdone hmem⟩

/-- A link was requested between the two actors, and the second does not trap exits. -/
def Leads (es : List (RtEvent M A)) (trap : ActorId → Bool) (p q : ActorId) : Prop :=
  (Requested es p q ∨ Requested es q p) ∧ trap q = false

/-- **How far the cascade goes.** Exactly those are gone to whom a path of links leads from `f` on
which nobody after the first traps exits, and each ends at most once, exactly when each of them has
such a path on which no `post_stop` before the last actor panics. -/
theorem cascade_iff (hw : w₀.Reachable) (h₀ : w₀.Unlinked)
    (hlinking : Along Runtime.step Linking w₀ es₁) (hrun₁ : w₀.run es₁ = some w₁)
    (hsettled : w₁.ControlSettled) (hprocessed : ∀ p q, .link q ∉ (w₁.mailbox p).queue)
    (hcascade : Along Runtime.step (Cascade f trap) w₁ es₂) (hrun₂ : w₁.run es₂ = some w₂)
    (hf : w₂.Ended f) (hrest : w₂.Rests) :
    (∀ i, w₁.Running i → (w₂.Ended i ↔ Relation.ReflTransGen (Leads es₁ trap) f i) ∧
      tally Runtime.step (ends i) w₁ es₂ ≤ 1) ↔
    ∀ i, w₁.Running i → Relation.ReflTransGen (Leads es₁ trap) f i →
      Relation.ReflTransGen (fun p q => Leads es₁ trap p q ∧ .panicked ∉ w₁.inputs p es₂) f i := by
  have hreach : w₁.Reachable := hw.run hrun₁
  have hshake := Handshake.run h₀ hw hlinking hrun₁
  have hpanic {p q : ActorId} (hpq : Leads es₁ trap p q) :
      w₂.Panicked p ↔ .panicked ∈ w₁.inputs p es₂ := by
    refine Running.panicked_iff ?_ hreach hrun₂
    rcases hpq.1 with hR | hR
    · exact (hshake.among p q hR).1
    · exact (hshake.among q p hR).2
  -- the paths along which the cascade has gone
  have hgone : ∀ i, w₁.Running i → (w₂.Ended i ↔ Relation.ReflTransGen
      (fun p q => Leads es₁ trap p q ∧ .panicked ∉ w₁.inputs p es₂) f i) := by
    intro i hi
    rw [(ended_iff_path hw h₀ hlinking hrun₁ hsettled hprocessed hcascade hrun₂ hf hrest i hi).1]
    constructor <;> refine fun hpath => Relation.ReflTransGen.mono (fun p q hpq => ?_) _ _ hpath
    · obtain ⟨hR, htrap, hnot⟩ := hpq
      exact ⟨⟨hR, htrap⟩, mt (hpanic ⟨hR, htrap⟩).mpr hnot⟩
    · exact ⟨hpq.1.1, hpq.1.2, mt (hpanic hpq.1).mp hpq.2⟩
  constructor
  · intro hall i hi hpath
    exact (hgone i hi).mp ((hall i hi).1.mpr hpath)
  · intro hcond i hi
    refine ⟨⟨fun hended => ?_, fun hpath => (hgone i hi).mpr (hcond i hi hpath)⟩,
      ends_le_one hreach hrun₂⟩
    exact Relation.ReflTransGen.mono (fun _ _ hpq => hpq.1) _ _ ((hgone i hi).mp hended)

/-! ### Tests along a run -/

/-- `i` runs, as a test. -/
def runs (w : Runtime M A) (i : ActorId) : Bool := (w.tasks i).any (·.phase.running)

theorem runs_iff : w.runs i = true ↔ w.Running i := by
  simp [runs, Running, Option.any_eq_true]

/-- `Linking`, tested at the actors of the event. -/
def linkingAt (w : Runtime M A) : RtEvent M A → Runtime M A → Bool
  | .task i _, w' => w'.runs i
  | .post p (.link q), _ => w.runs p && w.runs q
  | .post _ (.unlink _), _ => false
  | _, _ => true

/-- `Cascade`, tested at the actor of the event. -/
def cascadeAt (f : ActorId) (trap : ActorId → Bool) (w : Runtime M A) :
    RtEvent M A → Runtime M A → Bool
  | .task i c, w' =>
    (!w.runs i || w'.runs i || (w'.tasks i).any (fun t => t.phase.reason.any fun
      | .linked _ _ => true
      | r => i == f && shouldPropagateLinkedExit r)) &&
    (match c with
      | .recvControl b => b == trap i
      | _ => true)
  | .post _ (.link _), _ | .post _ (.unlink _), _ => false
  | _, _ => true

/-- An actor other than the one that steps keeps running. -/
theorem Running.step_other (h : w.Running i) (hw : w.Reachable) (hst : w.step e = some w')
    (he : ∀ c, e ≠ .task i c) : w'.Running i := by
  obtain ⟨t, ht, hrun⟩ := h
  exact ⟨t, hw.fresh.tasks_of_ne hst ht he, hrun⟩

theorem linking_of_at (hw : w.Reachable) (hst : w.step e = some w')
    (h : w.linkingAt e w' = true) : Linking w e w' where
  running i hi := by
    by_cases he : ∃ c, e = .task i c
    · obtain ⟨c, rfl⟩ := he
      exact runs_iff.mp h
    · exact hi.step_other hw hst fun c hc => he ⟨c, hc⟩
  among p q he := by
    subst he
    simpa [linkingAt, runs_iff] using h
  noUnlink p q := by
    rintro rfl
    cases h

theorem cascade_of_at (hw : w.Reachable) (hst : w.step e = some w')
    (h : w.cascadeAt f trap e w' = true) : Cascade f trap w e w' where
  leaves i hi hleft := by
    obtain ⟨c, rfl⟩ : ∃ c, e = .task i c := by
      by_contra he
      exact hleft (hi.step_other hw hst fun c hc => he ⟨c, hc⟩)
    obtain ⟨t, x, w₁, t', ht, hobs, -, hstep, -, htasks, -, -⟩ := task_move hst
    have ht' : w'.tasks i = some t' := by rw [htasks, update_self]
    have hruns : w.runs i = true := runs_iff.mpr hi
    have hleft' : w'.runs i = false := by
      rw [← Bool.not_eq_true, runs_iff]
      exact hleft
    simp only [cascadeAt, hruns, hleft', ht', Bool.not_true, Bool.or_false, Bool.false_or,
      Option.any_some, Bool.and_eq_true, Option.any_eq_true] at h
    obtain ⟨⟨r, hr, hlinked⟩, -⟩ := h
    split at hlinked
    · next p r' =>
      rcases Task.step_reason hstep hr with hr | ⟨-, hx⟩
      · obtain ⟨s, hs, hrun⟩ := hi
        obtain rfl : t = s := Option.some.inj (ht.symm.trans hs)
        rw [Phase.reason_of_running hrun] at hr
        cases hr
      · exact Or.inr ⟨p, r', (hobs _ _).mpr ⟨rfl, hx.symm⟩⟩
    · rw [Bool.and_eq_true, beq_iff_eq] at hlinked
      exact Or.inl ⟨hlinked.1, t', r, ht', hr, hlinked.2⟩
  trap i m b hobs := by
    obtain rfl := event_of_control hobs
    simp only [cascadeAt, Bool.and_eq_true, beq_iff_eq] at h
    exact h.2
  noRequest p q := by
    constructor <;> rintro rfl <;> cases h

/-- A condition on the steps of a run, from a test of each step. -/
theorem along_of_test {Q : Runtime M A → RtEvent M A → Runtime M A → Prop}
    {test : Runtime M A → RtEvent M A → Runtime M A → Bool}
    (hQ : ∀ {w e w'}, w.Reachable → w.step e = some w' → test w e w' = true → Q w e w')
    (hw : w.Reachable) (h : Along Runtime.step (fun w e w' => test w e w' = true) w es) :
    Along Runtime.step Q w es :=
  along_of_invariant (P := Reachable) (fun hw ht hst => ⟨hw.step hst, hQ hw hst ht⟩) hw h

theorem mailbox_eq_nil_of_lt (hw : w.Reachable)
    (h : ∀ n < w.nextId, (w.mailbox ⟨n⟩).queue = []) (i : ActorId) : (w.mailbox i).queue = [] := by
  by_cases hi : i.n < w.nextId
  · exact h i.n hi
  · have hfifo := hw.fifo i
    unfold Chan.Fifo at hfifo
    rw [(hw.fresh.mailbox i (Nat.le_of_not_lt hi)).1] at hfifo
    exact List.suffix_nil.mp hfifo

theorem rests_of_lt (hw : w.Reachable)
    (h : ∀ n < w.nextId, (w.control ⟨n⟩).queue = [] ∧
      ∀ t ∈ w.tasks ⟨n⟩, t.phase.owed = none ∧ t.phase.targets = ∅)
    (hend : ∀ n < w.nextId, ∀ t ∈ w.tasks ⟨n⟩, t.phase.running = true ∨ t.phase.isDone = true) :
    w.Rests where
  settled := controlSettled_of_lt hw h
  ended i hi := by
    obtain ⟨t, ht⟩ := hi
    exact (hend i.n (hw.fresh.lt_nextId ht) t ht).imp (fun hrun => ⟨t, ht, hrun⟩)
      fun hdone => ⟨t, ht, hdone⟩

theorem unlinked_init : (init : Runtime M A).Unlinked where
  links i t ht := by cases ht
  mailbox p q := ⟨List.not_mem_nil, List.not_mem_nil⟩
  settled := ⟨fun _ => rfl, fun _ _ ht => (by cases ht), fun _ _ ht => (by cases ht)⟩

/-! ### Three actors -/

/-- Actors 1, 2 and 3 start; 1 is linked to 2 and 2 to 3. -/
def chained : List (RtEvent Unit Unit) :=
  [.spawn .default () none, .spawn .default () none, .spawn .default () none] ++
    starts ⟨1⟩ ++ starts ⟨2⟩ ++ starts ⟨3⟩ ++ shakesHands ⟨1⟩ ⟨2⟩ ++ shakesHands ⟨2⟩ ⟨3⟩

/-- `i` tells `j`, which is registered. -/
def tells (i j : ActorId) : List (RtEvent Unit Unit) :=
  [.task i (.next j), .task i .lookup, .task i .send]

/-- `i` has nobody left to tell. -/
def leaves (i : ActorId) : List (RtEvent Unit Unit) :=
  [.task i .linksDone, .task i .unregister, .task i .finish]

/-- Actor 1 is killed and takes 2 with it, which takes 3 with it. -/
def cascading : List (RtEvent Unit Unit) :=
  .post ⟨1⟩ .kill :: takes ⟨1⟩ ++ .task ⟨1⟩ (.postStop (.ok ())) :: tells ⟨1⟩ ⟨2⟩ ++ leaves ⟨1⟩ ++
    [.task ⟨2⟩ (.recvControl false), .task ⟨2⟩ (.postStop (.ok ()))] ++ tells ⟨2⟩ ⟨3⟩ ++
    [.task ⟨2⟩ (.next ⟨1⟩), .task ⟨2⟩ .lookup] ++ leaves ⟨2⟩ ++
    [.task ⟨3⟩ (.recvControl false), .task ⟨3⟩ (.postStop (.ok ())), .task ⟨3⟩ (.next ⟨2⟩),
      .task ⟨3⟩ .lookup] ++ leaves ⟨3⟩

/-- Actor 1 is killed and takes 2 with it, which panics in `post_stop`. -/
def panicking : List (RtEvent Unit Unit) :=
  .post ⟨1⟩ .kill :: takes ⟨1⟩ ++ .task ⟨1⟩ (.postStop (.ok ())) :: tells ⟨1⟩ ⟨2⟩ ++ leaves ⟨1⟩ ++
    [.task ⟨2⟩ (.recvControl false), .task ⟨2⟩ .panic]

theorem along_linking_chained : Along Runtime.step Linking (init : Runtime Unit Unit) chained :=
  along_of_test linking_of_at ⟨[], rfl⟩ (by decide +kernel)

theorem controlSettled_chained : (after chained).ControlSettled :=
  controlSettled_of_lt ⟨chained, rfl⟩ (by decide +kernel)

/-- Nobody traps exits. -/
def noTrap (_ : ActorId) : Bool := false

theorem processed_chained (p q : ActorId) : .link q ∉ ((after chained).mailbox p).queue := by
  have hreach : (after chained).Reachable := ⟨chained, rfl⟩
  rw [mailbox_eq_nil_of_lt hreach (by decide +kernel) p]
  exact List.not_mem_nil

/-- Only the three actors are linked. -/
theorem eq_of_leads_chained {p q : ActorId} (h : Leads chained noTrap p q) :
    p = ⟨1⟩ ∨ p = ⟨2⟩ ∨ p = ⟨3⟩ := by
  rcases h.1 with hR | hR <;> simp [Requested, chained, shakesHands, starts] at hR <;> tauto

/-- The result for the end of the chain, where the cascade runs through it. -/
theorem cascade_iff_cascading :
    ((after (chained ++ cascading)).Ended ⟨3⟩ ↔
      Relation.ReflTransGen (Leads chained noTrap) ⟨1⟩ ⟨3⟩) ∧
    tally Runtime.step (ends ⟨3⟩) (after chained) cascading ≤ 1 := by
  have hreach : (after chained).Reachable := ⟨chained, rfl⟩
  have hcascade : Along Runtime.step (Cascade ⟨1⟩ noTrap) (after chained) cascading :=
    along_of_test cascade_of_at hreach (by decide +kernel)
  have hrests : (after (chained ++ cascading)).Rests :=
    rests_of_lt ⟨chained ++ cascading, rfl⟩ (by decide +kernel) (by decide +kernel)
  have hnone {i : ActorId} (hi : i = ⟨1⟩ ∨ i = ⟨2⟩ ∨ i = ⟨3⟩) :
      .panicked ∉ (after chained).inputs i cascading := by
    have hrunning : (after chained).Running i := by
      rcases hi with rfl | rfl | rfl <;> exact ⟨_, rfl, rfl⟩
    refine mt (hrunning.panicked_iff hreach rfl).mpr ?_
    rintro ⟨t, ht, hp⟩
    rcases hi with rfl | rfl | rfl <;>
    · cases ht
      cases hp
  refine (cascade_iff ⟨[], rfl⟩ unlinked_init along_linking_chained rfl controlSettled_chained
    processed_chained hcascade rfl ⟨_, rfl, rfl⟩ hrests).mpr (fun i _ hpath => ?_) ⟨3⟩
      ⟨_, rfl, rfl⟩
  exact Relation.ReflTransGen.mono (fun p q hpq => ⟨hpq, hnone (eq_of_leads_chained hpq)⟩) _ _ hpath

/-- Actor 2 panics in its `post_stop`, and actor 3, to which a path of links leads, stays. -/
theorem panic_stops_cascade : ∃ w₁ w₂ : Runtime Unit Unit,
    (init : Runtime Unit Unit).Unlinked ∧
    Along Runtime.step Linking (init : Runtime Unit Unit) chained ∧ init.run chained = some w₁ ∧
    w₁.ControlSettled ∧ (∀ p q, .link q ∉ (w₁.mailbox p).queue) ∧
    Along Runtime.step (Cascade ⟨1⟩ noTrap) w₁ panicking ∧ w₁.run panicking = some w₂ ∧
    w₂.Ended ⟨1⟩ ∧ w₂.Fails ⟨1⟩ ∧ w₂.Rests ∧ w₁.Running ⟨3⟩ ∧ ¬ w₂.Ended ⟨3⟩ ∧
    Relation.ReflTransGen (Leads chained noTrap) ⟨1⟩ ⟨3⟩ := by
  have hreach : (after chained).Reachable := ⟨chained, rfl⟩
  have hcascade : Along Runtime.step (Cascade ⟨1⟩ noTrap) (after chained) panicking :=
    along_of_test cascade_of_at hreach (by decide +kernel)
  have hrests : (after (chained ++ panicking)).Rests :=
    rests_of_lt ⟨chained ++ panicking, rfl⟩ (by decide +kernel) (by decide +kernel)
  have hfirst : Requested chained ⟨1⟩ ⟨2⟩ := by simp [Requested, chained, shakesHands]
  have hsecond : Requested chained ⟨2⟩ ⟨3⟩ := by simp [Requested, chained, shakesHands]
  have hpath : Relation.ReflTransGen (Leads chained noTrap) ⟨1⟩ ⟨3⟩ :=
    (Relation.ReflTransGen.single ⟨Or.inl hfirst, rfl⟩).tail ⟨Or.inl hsecond, rfl⟩
  refine ⟨_, _, unlinked_init, along_linking_chained, rfl, controlSettled_chained,
    processed_chained, hcascade, rfl, ⟨_, rfl, rfl⟩, ⟨_, _, rfl, rfl, rfl⟩, hrests,
    ⟨_, rfl, rfl⟩, ?_, hpath⟩
  rintro ⟨t, ht, hdone⟩
  cases ht
  cases hdone

end Runtime

end LaneSwitchboards
