import LaneSwitchboards.Actor.Link
import LaneSwitchboards.Actor.Wiring
import LaneSwitchboards.Lib.WaitGraph

/-!
# Circular waits in the link protocol

A control message is sent with an awaited send into a bounded channel, by an actor that does not
drain its own channel meanwhile. `Waits` is the wait-for graph of these sends. A state is
deadlocked when some actors wait for each other (`Deadlocked`), and a run meets no such state iff
nobody comes to wait for an actor that already waits, through a chain, for it
(`deadlockFree_iff`).
-/

namespace LaneSwitchboards

namespace Phase

variable {M : Type}

/-- The actor to whose control channel the task awaits a send. -/
def sendsTo : Phase M → Option ActorId
  | sendLink peer | sendLinkedExit _ peer _ => some peer
  | _ => none

/-- The actor whose control sender the task is about to look up. -/
def looksUp : Phase M → Option ActorId
  | reverseLink peer | lookupPeer _ peer _ => some peer
  | _ => none

variable {p : Phase M} {a : ActorId}

theorem sendsTo_of_owed (h : p.running = true) (ho : p.owed = none) : p.sendsTo = none := by
  cases p with
  | sendLink => cases ho
  | sendLinkedExit => cases h
  | _ => rfl

theorem sendsTo_of_leaving (h : p.leaving = true) : p.sendsTo = none := by
  cases p <;> first | rfl | cases h

theorem looksUp_of_sendsTo (h : p.sendsTo = some a) : p.looksUp = none := by
  cases p <;> first | rfl | cases h

end Phase

/-- A task that finds the peer awaits the send to it. -/
theorem Task.sendsTo_of_looksUp {M A : Type} {t t' : Task M A} {a : ActorId}
    (h : t.step (.found true) = some t') (hl : t.phase.looksUp = some a) :
    t'.phase.sendsTo = some a := by
  cases hp : t.phase with
  | reverseLink peer =>
    rw [hp] at hl
    rw [Task.step_found_reverseLink hp, Option.some.injEq] at h
    rw [← h]
    exact hl
  | lookupPeer r peer rest =>
    rw [hp] at hl
    rw [Task.step_found_lookupPeer hp, Option.some.injEq] at h
    rw [← h]
    exact hl
  | _ =>
    rw [hp] at hl
    cases hl

/-- A task awaits a send where it has just found the peer. -/
theorem Move.of_sendsTo {M A : Type} {t t' : Task M A} {x : Input M A} {a : ActorId}
    (h : Move t x t') (hs : t'.phase.sendsTo = some a) :
    t.phase.looksUp = some a ∧ x = .found true := by
  cases h with
  | foundLink peer b hp hx hl hp' =>
    rw [hp'] at hs
    cases b with
    | true => rw [hp]; exact ⟨hs, hx⟩
    | false => cases hs
  | foundPeer r peer rest b hp hx hl hp' =>
    rw [hp'] at hs
    cases b with
    | true => rw [hp]; exact ⟨hs, hx⟩
    | false => cases hs
  | loop _ _ _ _ hp' ho' =>
    rw [Phase.sendsTo_of_owed hp' ho'] at hs
    cases hs
  | leave _ _ _ _ hp' =>
    rw [Phase.sendsTo_of_leaving hp'] at hs
    cases hs
  | notify r k _ _ _ hp' =>
    rw [hp'] at hs
    cases k <;> cases hs
  | stopped r o _ _ _ hp' =>
    rw [hp'] at hs
    split_ifs at hs <;> cases hs
  | insert _ _ _ _ _ _ hp' | known _ _ _ _ _ _ hp' | erase _ _ _ _ hp' | sentLink _ _ _ _ hp'
    | heard _ _ _ _ _ hp' | notified _ _ _ _ _ hp' | next _ _ _ _ _ _ _ hp'
    | linksDone _ _ _ _ hp' | sentExit _ _ _ _ _ _ hp' | unregistered _ _ _ _ hp'
    | finished _ _ _ _ hp' | panicked _ _ _ hp' =>
    rw [hp'] at hs
    cases hs

namespace Runtime

open Function Transition WaitGraph Relation

variable {M A : Type} {w w' w₁ : Runtime M A} {i j k p q : ActorId} {ph : Phase M}
  {x : Input M A} {e : RtEvent M A} {es : List (RtEvent M A)}

/-- `i` is in a send to the control channel of `p`. -/
def SendsTo (w : Runtime M A) (i p : ActorId) : Prop :=
  ∃ t, w.tasks i = some t ∧ t.phase.sendsTo = some p

/-- `i` waits for room in the control channel of another actor `p`. -/
structure Waits (w : Runtime M A) (i p : ActorId) : Prop where
  ne : i ≠ p
  sends : w.SendsTo i p
  full : (w.control p).isFull = true

/-- Some actors wait, each for room in the control channel of another one of them. -/
def Deadlocked (w : Runtime M A) : Prop := ∃ S : Set ActorId, Blocked w.Waits S

/-- `i` comes to wait for another actor `p`: it finds `p` and the channel of `p` is full, or it is
in a send to `p` and somebody else takes the last room. -/
structure ComesToWait (w : Runtime M A) (e : RtEvent M A) (i p : ActorId) : Prop where
  ne : i ≠ p
  waits : (∃ t, w.tasks i = some t ∧ t.phase.looksUp = some p ∧ w.Observes i e (.found true) ∧
      (w.control p).isFull = true) ∨
    ∃ k, k ≠ i ∧ w.SendsTo k p ∧ w.Observes k e .sent ∧ w.SendsTo i p ∧
      (w.control p).hasLastRoom = true

/-- Somebody comes to wait for an actor that waits, through a chain, for it. -/
def ClosesChain (w : Runtime M A) (e : RtEvent M A) : Prop :=
  ∃ i p, w.ComesToWait e i p ∧ TransGen w.Waits p i

/-! ### One step -/

/-- A channel is filled by the send that takes the last room. -/
theorem Access.isFull_control (h : Access w k ph x w₁) (hfull : (w₁.control p).isFull = true) :
    (w.control p).isFull = true ∨
      x = .sent ∧ ph.sendsTo = some p ∧ (w.control p).hasLastRoom = true := by
  cases h with
  | recvControl h =>
    by_cases hp : p = k
    · subst hp
      simp only [setControl, update_self] at hfull
      exact Or.inl (Chan.isFull_of_recv h hfull)
    · simp only [setControl, update_of_ne hp] at hfull
      exact Or.inl hfull
  | @sendLink peer ch h | @sendLinkedExit _ peer _ ch h =>
    by_cases hp : p = peer
    · subst hp
      simp only [setControl, update_self] at hfull
      exact Or.inr ⟨rfl, rfl, (Chan.isFull_of_send h).mp hfull⟩
    · simp only [setControl, update_of_ne hp] at hfull
      exact Or.inl hfull
  | finish | panic =>
    by_cases hp : p = k
    · subst hp
      simp [dropReceivers, Chan.isFull] at hfull
    · simp only [dropReceivers, update_of_ne hp] at hfull
      exact Or.inl hfull
  | _ => exact Or.inl hfull

/-- A lookup changes nothing. -/
theorem Access.of_found (h : Access w k ph x w₁) {b : Bool} (hx : x = .found b) : w₁ = w := by
  cases h <;> first | rfl | cases hx

/-- What a send to a control channel changes. -/
theorem Access.of_sent (h : Access w k ph x w₁) (hx : x = .sent) (hto : ph.sendsTo = some p) :
    ∃ m ch, (w.control p).send m = some ch ∧ w₁ = w.setControl p ch := by
  cases h with
  | sendLink h | sendLinkedExit h =>
    obtain rfl := Option.some.inj hto
    exact ⟨_, _, h, rfl⟩
  | sendSignal => cases hto
  | internal hinternal =>
    rw [hx] at hinternal
    cases hinternal
  | _ => cases hx

/-- **Whoever waits after a step** waited before it, or comes to wait in it. -/
theorem Waits.of_step (h : w'.Waits i p) (hst : w.step e = some w') :
    w.Waits i p ∨ w.ComesToWait e i p := by
  obtain ⟨hne, ⟨s, hs, hsends⟩, hfull⟩ := h
  cases e with
  | task k c =>
    obtain ⟨t, x, w₁, t', ht, hobs, hacc, -, hmove, htasks, hcontrol, -⟩ := task_move hst
    rw [hcontrol] at hfull
    have hfull' := hacc.isFull_control hfull
    by_cases hi : i = k
    · subst hi
      obtain rfl : t' = s := by
        rw [htasks, update_self] at hs
        exact Option.some.inj hs
      obtain ⟨hlooks, rfl⟩ := hmove.of_sendsTo hsends
      rcases hfull' with hbefore | ⟨hx, -⟩
      · exact Or.inr ⟨hne, Or.inl ⟨t, ht, hlooks, (hobs _ _).mpr ⟨rfl, rfl⟩, hbefore⟩⟩
      · cases hx
    · rw [htasks, update_of_ne hi] at hs
      rcases hfull' with hbefore | ⟨rfl, hto, hlast⟩
      · exact Or.inl ⟨hne, ⟨s, hs, hsends⟩, hbefore⟩
      · exact Or.inr ⟨hne, Or.inr ⟨k, Ne.symm hi, ⟨t, ht, hto⟩, (hobs _ _).mpr ⟨rfl, rfl⟩,
          ⟨s, hs, hsends⟩, hlast⟩⟩
  | spawn config actor supervisor =>
    obtain ⟨-, hspawn⟩ := step_spawn hst
    have hnew := (not_isFull_spawned hspawn).2
    obtain ⟨-, rfl⟩ := spawnOnRuntime_eq hspawn
    have hi : i ≠ ⟨w.nextId⟩ := by
      rintro rfl
      simp only [update_self, Option.some.injEq] at hs
      subst hs
      cases hsends
    have hp : p ≠ ⟨w.nextId⟩ := by
      rintro rfl
      rw [hfull] at hnew
      cases hnew
    simp only [update_of_ne hi] at hs
    simp only [update_of_ne hp] at hfull
    exact Or.inl ⟨hne, ⟨s, hs, hsends⟩, hfull⟩
  | _ =>
    obtain ⟨htasks, hcontrol, -⟩ := env_frame hst rfl
    rw [htasks] at hs
    rw [hcontrol] at hfull
    exact Or.inl ⟨hne, ⟨s, hs, hsends⟩, hfull⟩

/-- The event names the actor that somebody comes to wait for. -/
theorem ComesToWait.target (h : w.ComesToWait e i p) (h' : w.ComesToWait e j q) : q = p := by
  rcases h.waits with ⟨t, ht, hlooks, hobs, -⟩ | ⟨k, -, ⟨t, ht, hto⟩, hobs, -, -⟩ <;>
    rcases h'.waits with ⟨s, hs, hlooks', hobs', -⟩ | ⟨k', -, ⟨s, hs, hto'⟩, hobs', -, -⟩ <;>
    obtain ⟨rfl, hx⟩ := hobs.unique hobs'
  · obtain rfl : t = s := Option.some.inj (ht.symm.trans hs)
    exact Option.some.inj (hlooks'.symm.trans hlooks)
  · cases hx
  · cases hx
  · obtain rfl : t = s := Option.some.inj (ht.symm.trans hs)
    exact Option.some.inj (hto'.symm.trans hto)

/-- **A step that closes no chain** leaves no cycle. -/
theorem acyclic_step (h : Acyclic w.Waits) (hst : w.step e = some w') (he : ¬ w.ClosesChain e) :
    Acyclic w'.Waits := by
  have hchain : ∀ i p, w.ComesToWait e i p → ¬ ReflTransGen w.Waits p i := by
    intro i p hcomes hpath
    rcases reflTransGen_iff_eq_or_transGen.mp hpath with heq | hpath
    · exact hcomes.ne heq
    · exact he ⟨i, p, hcomes, hpath⟩
  by_cases hnew : ∃ i p, w.ComesToWait e i p
  · obtain ⟨i, p, hcomes⟩ := hnew
    refine acyclic_of_new (p := p) h fun j q hwaits => (hwaits.of_step hst).imp_right fun hjq => ?_
    obtain rfl := hcomes.target hjq
    exact ⟨rfl, hchain j q hjq⟩
  · intro i hcycle
    refine h i (TransGen.mono (fun j q hwaits => ?_) _ _ hcycle)
    exact (hwaits.of_step hst).resolve_right fun hjq => hnew ⟨j, q, hjq⟩

/-- Nobody stops waiting where somebody comes to wait. -/
theorem Waits.step (h : w.Waits j q) (hst : w.step e = some w') (hcomes : w.ComesToWait e i p) :
    w'.Waits j q := by
  obtain ⟨hne, ⟨s, hs, hsends⟩, hfull⟩ := h
  rcases hcomes.waits with ⟨t, ht, hlooks, hobs, -⟩ | ⟨k, -, ⟨t, ht, hto⟩, hobs, -, hlast⟩
  · have hj : j ≠ i := by
      rintro rfl
      obtain rfl : s = t := Option.some.inj (hs.symm.trans ht)
      rw [Phase.looksUp_of_sendsTo hsends] at hlooks
      cases hlooks
    obtain ⟨_, w₁, t', -, hacc, -, rfl⟩ := hobs.step hst
    obtain rfl := hacc.of_found rfl
    exact ⟨hne, ⟨s, by simp [setTask, update_of_ne hj, hs], hsends⟩, hfull⟩
  · have hroom := Chan.not_isFull_of_hasLastRoom hlast
    have hq : q ≠ p := by
      rintro rfl
      rw [hfull] at hroom
      cases hroom
    have hj : j ≠ k := by
      rintro rfl
      obtain rfl : s = t := Option.some.inj (hs.symm.trans ht)
      exact hq (Option.some.inj (hsends.symm.trans hto))
    obtain ⟨t₁, w₁, t', ht₁, hacc, -, rfl⟩ := hobs.step hst
    obtain rfl : t = t₁ := Option.some.inj (ht.symm.trans ht₁)
    obtain ⟨m, ch, -, rfl⟩ := hacc.of_sent rfl hto
    refine ⟨hne, ⟨s, by simp [setTask, setControl, update_of_ne hj, hs], hsends⟩, ?_⟩
    simpa [setTask, setControl, update_of_ne hq] using hfull

/-- Whoever comes to wait waits. -/
theorem ComesToWait.waits_step (h : w.ComesToWait e i p) (hst : w.step e = some w') :
    w'.Waits i p := by
  rcases h.waits with ⟨t, ht, hlooks, hobs, hfull⟩ | ⟨k, hk, ⟨t, ht, hto⟩, hobs, ⟨s, hs, hsends⟩,
    hlast⟩
  · obtain ⟨t₁, w₁, t', ht₁, hacc, hstep, rfl⟩ := hobs.step hst
    obtain rfl : t = t₁ := Option.some.inj (ht.symm.trans ht₁)
    obtain rfl := hacc.of_found rfl
    exact ⟨h.ne, ⟨t', by simp [setTask], Task.sendsTo_of_looksUp hstep hlooks⟩, hfull⟩
  · obtain ⟨t₁, w₁, t', ht₁, hacc, -, rfl⟩ := hobs.step hst
    obtain rfl : t = t₁ := Option.some.inj (ht.symm.trans ht₁)
    obtain ⟨m, ch, hsend, rfl⟩ := hacc.of_sent rfl hto
    refine ⟨h.ne, ⟨s, by simp [setTask, setControl, update_of_ne (Ne.symm hk), hs], hsends⟩, ?_⟩
    simpa [setTask, setControl] using (Chan.isFull_of_send hsend).mpr hlast

/-- **A step that closes a chain** ends in a deadlock. -/
theorem deadlocked_of_closesChain (hst : w.step e = some w') (h : w.ClosesChain e) :
    w'.Deadlocked := by
  obtain ⟨i, p, hcomes, hchain⟩ := h
  have hpath : TransGen w'.Waits p i :=
    TransGen.mono (fun j q hwaits => Waits.step hwaits hst hcomes) _ _ hchain
  exact ⟨_, blocked_of_cycle (hpath.tail (hcomes.waits_step hst))⟩

/-! ### Runs -/

/-- A cycle is the only way to be deadlocked. -/
theorem Reachable.not_deadlocked (hw : w.Reachable) (h : Acyclic w.Waits) : ¬ w.Deadlocked := by
  rintro ⟨S, hblocked⟩
  refine hblocked.exists_cycle ?_ h
  -- only spawned tasks wait
  have hids : S ⊆ Set.preimage ActorId.n {n | n < w.nextId} := by
    intro i hi
    obtain ⟨p, -, hwaits⟩ := hblocked.2 i hi
    obtain ⟨t, ht, -⟩ := hwaits.sends
    exact hw.fresh.lt_nextId ht
  refine (Set.Finite.preimage ?_ (Set.finite_lt_nat w.nextId)).subset hids
  rintro ⟨m⟩ - ⟨n⟩ - rfl
  rfl

/-- **Deadlock freedom.** A run visits no state in which some actors wait, each for room in the
control channel of another one of them, iff in no step of it somebody comes to wait for an actor
that already waits, directly or through a chain of full channels, for it. -/
theorem deadlockFree_iff (es : List (RtEvent M A)) :
    Always Runtime.step (fun w => ¬ w.Deadlocked) init es ↔
      Along Runtime.step (fun w e _ => ¬ w.ClosesChain e) init es := by
  constructor
  · intro h
    refine along_of_invariant (P := fun _ => True) ?_ trivial h.along
    intro w e w' _ hfree hst
    exact ⟨trivial, fun hcloses => hfree (deadlocked_of_closesChain hst hcloses)⟩
  · intro h
    have hacyclic : Always Runtime.step
        (fun w : Runtime M A => w.Reachable ∧ Acyclic w.Waits) init es := by
      refine always_of_invariant ?_ ⟨⟨[], rfl⟩, ?_⟩ h
      · rintro w e w' ⟨hw, hacyclic⟩ hno hst
        exact ⟨hw.step hst, acyclic_step hacyclic hst hno⟩
      · intro i hcycle
        obtain ⟨j, hij, -⟩ := TransGen.head'_iff.mp hcycle
        obtain ⟨t, ht, -⟩ := hij.sends
        cases ht
    exact hacyclic.mono fun h => h.1.not_deadlocked h.2

/-! ### Two actors that fail together -/

/-- `i` takes a message and is in its `handle`. -/
def handles (i : ActorId) : List (RtEvent Unit Unit) :=
  .post i (.msg ()) :: takes i ++ [.task i (.handleBegin (.ok ()))]

/-- `i` takes a request to link to `j`, and sends its half of the handshake. -/
def asksLink (i j : ActorId) : List (RtEvent Unit Unit) :=
  .post i (.link j) :: takes i ++ [.task i .lookup, .task i .send]

/-- The `handle` of `i` fails, and `i` finds its link `j`. -/
def failsFinding (i j : ActorId) : List (RtEvent Unit Unit) :=
  [.task i (.handle (.err "boom") 0), .task i .lookup, .task i (.postStop (.ok ())),
    .task i (.next j), .task i .lookup]

/-- Actors 1 and 2 are linked and in their `handle` when actor 3 links to both, which fills their
control channels of capacity 1. Then both fail. -/
def failTogether : List (RtEvent Unit Unit) :=
  List.replicate 3 (.spawn ⟨1, none, none⟩ () none) ++ starts ⟨1⟩ ++ starts ⟨2⟩ ++ starts ⟨3⟩ ++
    shakesHands ⟨1⟩ ⟨2⟩ ++ handles ⟨1⟩ ++ handles ⟨2⟩ ++ asksLink ⟨3⟩ ⟨1⟩ ++ asksLink ⟨3⟩ ⟨2⟩ ++
    failsFinding ⟨1⟩ ⟨2⟩ ++ failsFinding ⟨2⟩ ⟨1⟩

/-- Each of two linked actors waits for room in the control channel of the other. -/
theorem linked_failures_deadlock :
    ∃ w : Runtime Unit Unit, init.run failTogether = some w ∧ w.Deadlocked := by
  refine ⟨after failTogether, rfl, {⟨1⟩, ⟨2⟩}, ⟨⟨1⟩, Or.inl rfl⟩, ?_⟩
  rintro i (rfl | rfl)
  · exact ⟨⟨2⟩, Or.inr rfl, by simp, ⟨_, rfl, rfl⟩, rfl⟩
  · exact ⟨⟨1⟩, Or.inl rfl, by simp, ⟨_, rfl, rfl⟩, rfl⟩

end Runtime

end LaneSwitchboards
