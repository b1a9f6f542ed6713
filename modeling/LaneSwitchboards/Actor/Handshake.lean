import LaneSwitchboards.Actor.Hearing

/-!
# The link handshake at rest

While nobody exits and nobody unlinks, every link is answered: an actor that holds `q` has yet to
send its half of the handshake, or it is queued at `q`, or `q` holds the actor too (`Handshake`).
So once no control message is in flight the links are symmetric, and they are the requests that
were processed, in either direction (`Handshake.holds_iff`).
-/

namespace LaneSwitchboards

theorem Phase.owed_of_unguarded {M : Type} {p : Phase M} (h : p.unguarded = true) :
    p.owed = none := by
  cases p <;> first | rfl | cases h

namespace Runtime

open Function Transition

variable {M A : Type} {w w' w₀ : Runtime M A} {p q i : ActorId} {e : RtEvent M A}
  {es : List (RtEvent M A)} {t : Task M A} {R R' : ActorId → ActorId → Prop}

/-- The actor is in its loop or has yet to enter it. -/
def Running (w : Runtime M A) (i : ActorId) : Prop :=
  ∃ t, w.tasks i = some t ∧ t.phase.running = true

/-- `p` holds `q` as a link. -/
def Holds (w : Runtime M A) (p q : ActorId) : Prop := ∃ t, w.tasks p = some t ∧ q ∈ t.links

/-- `p` has yet to send `q` its half of the handshake. -/
def Owes (w : Runtime M A) (p q : ActorId) : Prop :=
  ∃ t, w.tasks p = some t ∧ t.phase.owed = some q

/-- The requests among these events that ask `p` to link to `q`. -/
def Requested (es : List (RtEvent M A)) (p q : ActorId) : Prop := .post p (.link q) ∈ es

/-- A step in which no running actor exits. Links are requested among running actors only, and
nobody is asked to unlink. -/
structure Linking (w : Runtime M A) (e : RtEvent M A) (w' : Runtime M A) : Prop where
  running : ∀ i, w.Running i → w'.Running i
  among : ∀ p q, e = .post p (.link q) → w.Running p ∧ w.Running q
  noUnlink : ∀ p q, e ≠ .post p (.unlink q)

/-- Nobody holds a link or is about to, and no request about links is unprocessed. -/
structure Unlinked (w : Runtime M A) : Prop where
  links : ∀ i t, w.tasks i = some t → t.links = ∅
  mailbox : ∀ p q, .link q ∉ (w.mailbox p).queue ∧ .unlink q ∉ (w.mailbox p).queue
  settled : w.ControlSettled

/-! ### One step -/

theorem Running.not_isDone (h : w.Running i) :
    ∃ t, w.tasks i = some t ∧ t.phase.isDone = false := by
  obtain ⟨t, ht, hrun⟩ := h
  exact ⟨t, ht, Phase.isDone_of_running hrun⟩

/-- A lookup of a running actor finds it. -/
theorem Running.hasControlSender (h : w.Running i) (hw : w.Reachable) :
    w.hasControlSender i = true := by
  obtain ⟨t, ht, hrun⟩ := h
  exact (hw.wired i).registered t ht (Phase.termination_of_running hrun)

/-- A running actor has not just dropped its receivers. -/
theorem Running.not_dropsReceivers (h : w'.Running i) (hst : w.step e = some w') :
    ¬ w.DropsReceivers i e := by
  obtain ⟨t, ht, hrun⟩ := h
  have hends : ∀ x, x = .finished ∨ x = .panicked → ¬ w.Observes i e x := by
    intro x hx hobs
    obtain ⟨_, _, t', -, -, hstep, rfl⟩ := hobs.step hst
    obtain rfl : t' = t := by simpa [setTask] using ht
    have hdone := (Task.step_move hstep).isDone_iff.mpr hx
    rw [Phase.isDone_of_running hrun] at hdone
    cases hdone
  rintro (hobs | hobs)
  · exact hends _ (Or.inl rfl) hobs
  · exact hends _ (Or.inr rfl) hobs

theorem Running.isOpen (h : w.Running i) (hw : w.Reachable) : (w.control i).isOpen = true :=
  (hw.wired i).isOpen.mpr h.not_isDone

/-- Links are kept where nobody unlinks. -/
theorem Holds.step (h : w.Holds p q) (hw : w.Reachable) (hst : w.step e = some w')
    (hno : ∀ p q, ¬ w.Observes p e (.envelope (some (.unlink q)))) : w'.Holds p q := by
  obtain ⟨t, ht, hmem⟩ := h
  exact mem_links_of_step hw hst ht hmem (hno p q)

/-- A new link comes with a `Link` message, and is owed to the peer. -/
theorem Holds.of_step (h : w'.Holds p q) (hst : w.step e = some w') :
    w.Holds p q ∨ w.TakesLink p q e ∧ w'.Owes p q := by
  obtain ⟨t, ht, hmem⟩ := h
  rcases tasks_step hst p with hsame | ⟨c, s, x, w₁, t', -, hs, -, hobs, hstep, ht'⟩ |
    ⟨_, _, _, -, -, ht'⟩
  · exact Or.inl ⟨t, hsame.symm.trans ht, hmem⟩
  · obtain rfl : t = t' := Option.some.inj (ht.symm.trans ht')
    cases Task.step_links hstep with
    | keep hl => exact Or.inl ⟨s, hs, hl ▸ hmem⟩
    | insert peer hx hnew hl howed =>
      rw [hl, Finset.mem_insert] at hmem
      rcases hmem with rfl | hmem
      · refine Or.inr ⟨?_, t, ht, howed⟩
        rcases hx with rfl | ⟨trap, rfl⟩
        · exact Or.inl hobs
        · exact Or.inr ⟨trap, hobs⟩
      · exact Or.inl ⟨s, hs, hmem⟩
    | erase peer hx hl => exact Or.inl ⟨s, hs, Finset.mem_of_mem_erase (hl ▸ hmem)⟩
  · rw [ht'] at ht
    cases ht
    cases hmem

/-- What is owed was owed before, or its link is new. -/
theorem Owes.of_step (h : w'.Owes p q) (hst : w.step e = some w') :
    w.Owes p q ∨ w.TakesLink p q e ∧ w'.Holds p q := by
  obtain ⟨t, ht, howed⟩ := h
  rcases tasks_step hst p with hsame | ⟨c, s, x, w₁, t', -, hs, -, hobs, hstep, ht'⟩ |
    ⟨_, _, _, -, -, ht'⟩
  · exact Or.inl ⟨t, hsame.symm.trans ht, howed⟩
  · obtain rfl : t = t' := Option.some.inj (ht.symm.trans ht')
    cases Task.step_links hstep with
    | keep hl hkeep =>
      rcases hkeep with hnone | hsame
      · rw [hnone] at howed
        cases howed
      · exact Or.inl ⟨s, hs, hsame.symm.trans howed⟩
    | insert peer hx _ hl hpeer =>
      obtain rfl : peer = q := Option.some.inj (hpeer.symm.trans howed)
      refine Or.inr ⟨?_, t, ht, by rw [hl]; exact Finset.mem_insert_self _ _⟩
      rcases hx with rfl | ⟨trap, rfl⟩
      · exact Or.inl hobs
      · exact Or.inr ⟨trap, hobs⟩
    | erase peer _ _ hnone =>
      rw [hnone] at howed
      cases howed
  · rw [ht'] at ht
    cases ht
    cases howed

/-- What is owed to a running actor is still owed after a step, or has been sent. -/
theorem Owes.step (h : w.Owes p q) (hw : w.Reachable) (hq : w.Running q)
    (hst : w.step e = some w') : w'.Owes p q ∨ .link p ∈ (w'.control q).queue := by
  obtain ⟨t, ht, howed⟩ := h
  rcases tasks_step hst p with hsame | ⟨c, _, _, _, _, rfl, -⟩ | ⟨_, _, _, -, hi, -⟩
  · exact Or.inl ⟨t, hsame.trans ht, howed⟩
  · obtain ⟨s, x, w₁, t', hs, -, hacc, -, hmove, htasks, hcontrol, -⟩ := task_move hst
    obtain rfl : t = s := Option.some.inj (ht.symm.trans hs)
    have ht' : w'.tasks p = some t' := by rw [htasks, update_self]
    cases hmove with
    | foundLink peer b hp hx hl hp' =>
      obtain rfl : peer = q := by
        rw [hp] at howed
        exact Option.some.inj howed
      rw [hp, hx] at hacc
      obtain rfl : b = true := by
        cases hacc with
        | internal hx => cases hx
        | lookupLink => exact hq.hasControlSender hw
      exact Or.inl ⟨t', ht', by rw [hp']; rfl⟩
    | sentLink peer hp hx hl hp' =>
      obtain rfl : peer = q := by
        rw [hp] at howed
        exact Option.some.inj howed
      rw [hp, hx] at hacc
      cases hacc with
      | internal hx => cases hx
      | sendLink hsend =>
        rcases Chan.send_eq_some.mp hsend with ⟨-, rfl⟩ | ⟨hclosed, -⟩
        · exact Or.inr (by simp [hcontrol, setControl])
        · rw [hq.isOpen hw] at hclosed
          cases hclosed
    | loop _ ho | insert _ _ ho | known _ _ ho | leave _ ho =>
      rw [ho] at howed
      cases howed
    | panicked hp =>
      rw [Phase.owed_of_unguarded hp] at howed
      cases howed
    | erase _ hp | heard _ _ hp | notify _ _ hp | notified _ _ hp | stopped _ _ hp | next _ _ _ hp
      | linksDone _ hp | foundPeer _ _ _ _ hp | sentExit _ _ _ hp | unregistered _ hp
      | finished _ hp =>
      rw [hp] at howed
      cases howed
  · exact absurd hi (hw.fresh.ne_nextId ht)

/-! ### The handshake -/

/-- Where the handshakes of the requests `R` stand. -/
structure Handshake (w : Runtime M A) (R : ActorId → ActorId → Prop) : Prop where
  among : ∀ p q, R p q → w.Running p ∧ w.Running q
  asked : ∀ p q, .link q ∈ (w.mailbox p).queue → R p q
  noUnlink : ∀ p q, .unlink q ∉ (w.mailbox p).queue
  /-- Every link was requested, from one side or the other. -/
  holds : ∀ p q, w.Holds p q → R p q ∨ R q p
  recorded : ∀ p q, R p q → w.Holds p q ∨ .link q ∈ (w.mailbox p).queue
  owes : ∀ p q, w.Owes p q → w.Holds p q
  sent : ∀ p q, .link p ∈ (w.control q).queue → w.Holds p q
  answered : ∀ p q, w.Holds p q → w.Holds q p ∨ w.Owes p q ∨ .link p ∈ (w.control q).queue

theorem Unlinked.handshake (h : w.Unlinked) :
    w.Handshake (Requested ([] : List (RtEvent M A))) where
  among p q hR := by cases hR
  asked p q hm := absurd hm (h.mailbox p q).1
  noUnlink p q := (h.mailbox p q).2
  holds p q hpq := by
    obtain ⟨t, ht, hmem⟩ := hpq
    rw [h.links p t ht] at hmem
    cases hmem
  recorded p q hR := by cases hR
  owes p q hpq := by
    obtain ⟨t, ht, howed⟩ := hpq
    rw [h.settled.owed p t ht] at howed
    cases howed
  sent p q hm := by
    rw [h.settled.queue] at hm
    cases hm
  answered p q hpq := by
    obtain ⟨t, ht, hmem⟩ := hpq
    rw [h.links p t ht] at hmem
    cases hmem

namespace Handshake

/-- Nobody takes a request to unlink. -/
theorem not_observes_unlink (h : w.Handshake R) (hst : w.step e = some w') (p q : ActorId) :
    ¬ w.Observes p e (.envelope (some (.unlink q))) := by
  intro hobs
  obtain ⟨_, _, _, -, hacc, -⟩ := hobs.step hst
  exact h.noUnlink p q (mem_mailbox_of_access hacc)

theorem holds_step (h : w.Handshake R) (hw : w.Reachable) (hst : w.step e = some w')
    (hpq : w.Holds p q) : w'.Holds p q :=
  hpq.step hw hst (h.not_observes_unlink hst)

/-- A link that is taken was requested. -/
theorem requested_of_takesLink (h : w.Handshake R) (hst : w.step e = some w')
    (htakes : w.TakesLink p q e) : R p q ∨ R q p := by
  rcases htakes with hobs | ⟨trap, hobs⟩
  · obtain ⟨_, _, _, -, hacc, -⟩ := hobs.step hst
    exact Or.inl (h.asked p q (mem_mailbox_of_access hacc))
  · obtain ⟨_, _, _, -, hacc, -⟩ := hobs.step hst
    exact (h.holds q p (h.sent q p (mem_control_of_access hacc))).symm

/-- A recorded request leads to a link once it is taken. -/
theorem recorded_step (h : w.Handshake R) (hw : w.Reachable) (hst : w.step e = some w')
    (hrun : ∀ i, w.Running i → w'.Running i) (hR : R p q) :
    w'.Holds p q ∨ .link q ∈ (w'.mailbox p).queue := by
  rcases h.recorded p q hR with hpq | hm
  · exact Or.inl (h.holds_step hw hst hpq)
  · rcases mailbox_kept hw hst hm with hm | hobs | hdrop
    · exact Or.inr hm
    · exact Or.inl (mem_links_of_takesLink hst (Or.inl hobs))
    · exact absurd hdrop ((hrun p (h.among p q hR).1).not_dropsReceivers hst)

/-- A link is answered, or its handshake goes on. -/
theorem answered_step (h : w.Handshake R) (hw : w.Reachable) (hst : w.step e = some w')
    (hrun : ∀ i, w.Running i → w'.Running i) (hpq : w'.Holds p q) :
    w'.Holds q p ∨ w'.Owes p q ∨ .link p ∈ (w'.control q).queue := by
  rcases hpq.of_step hst with hpq | ⟨-, howes⟩
  · have hq : w.Running q := by
      rcases h.holds p q hpq with hR | hR
      · exact (h.among p q hR).2
      · exact (h.among q p hR).1
    rcases h.answered p q hpq with hqp | howes | hm
    · exact Or.inl (h.holds_step hw hst hqp)
    · exact Or.inr (howes.step hw hq hst)
    · rcases control_kept hw hst hm with hm | ⟨trap, hobs⟩ | hdrop
      · exact Or.inr (Or.inr hm)
      · exact Or.inl (mem_links_of_takesLink hst (Or.inr ⟨trap, hobs⟩))
      · exact absurd hdrop ((hrun q hq).not_dropsReceivers hst)
  · exact Or.inr (Or.inl howes)

/-- **Every event of the linking keeps the handshakes.** -/
theorem step (h : w.Handshake R) (hw : w.Reachable) (hst : w.step e = some w')
    (hl : w.Linking e w') (hR : ∀ p q, R' p q ↔ R p q ∨ e = .post p (.link q)) :
    w'.Handshake R' where
  among p q hpq := by
    have hboth : w.Running p ∧ w.Running q := by
      rcases (hR p q).mp hpq with hpq | he
      · exact h.among p q hpq
      · exact hl.among p q he
    exact ⟨hl.running p hboth.1, hl.running q hboth.2⟩
  asked p q hm := by
    by_cases he : e = .post p (.link q)
    · exact (hR p q).mpr (Or.inr he)
    · refine (hR p q).mpr (Or.inl (h.asked p q ?_))
      by_contra hnot
      exact not_mem_mailbox_step hnot hst he hm
  noUnlink p q := not_mem_mailbox_step (h.noUnlink p q) hst (hl.noUnlink p q)
  holds p q hpq := by
    have hold : R p q ∨ R q p := by
      rcases hpq.of_step hst with hpq | ⟨htakes, -⟩
      · exact h.holds p q hpq
      · exact h.requested_of_takesLink hst htakes
    exact hold.imp (fun hpq => (hR p q).mpr (Or.inl hpq)) fun hqp => (hR q p).mpr (Or.inl hqp)
  recorded p q hpq := by
    rcases (hR p q).mp hpq with hpq | rfl
    · exact h.recorded_step hw hst hl.running hpq
    · rw [(step_post hst).2]
      exact Or.inr (by simp [setMailbox])
  owes p q hpq := by
    rcases hpq.of_step hst with hpq | ⟨-, hpq⟩
    · exact h.holds_step hw hst (h.owes p q hpq)
    · exact hpq
  sent p q hm := by
    refine h.holds_step hw hst ?_
    rcases control_step hst hm with hold | ⟨i, t, ht, ⟨hp, hmsg⟩ | ⟨r, rest, -, hmsg⟩⟩
    · exact h.sent p q hold
    · cases hmsg
      exact h.owes p q ⟨t, ht, by rw [hp]; rfl⟩
    · cases hmsg
  answered p q hpq := h.answered_step hw hst hl.running hpq

/-- **The linking keeps the handshakes.** -/
theorem run (h : w₀.Unlinked) (hw : w₀.Reachable) (hl : Along Runtime.step Linking w₀ es)
    (hrun : w₀.run es = some w) : w.Handshake (Requested es) := by
  refine run_induction (motive := fun es (w : Runtime M A) =>
    Along Runtime.step Linking w₀ es → w.Handshake (Requested es)) (fun _ => h.handshake) ?_
    hrun hl
  intro es w e w' hrun ih hst hl
  obtain ⟨hes, hlast⟩ := along_concat.mp hl
  refine (ih hes).step (hw.run hrun) hst (hlast w w' hrun hst) fun p q => ?_
  rw [Requested, Requested, List.mem_append, List.mem_singleton, eq_comm]

/-- **Links at rest are symmetric**, and they are the requests, in either direction. -/
theorem holds_iff (h : w.Handshake R) (hsettled : w.ControlSettled)
    (hprocessed : ∀ p q, .link q ∉ (w.mailbox p).queue) : w.Holds p q ↔ R p q ∨ R q p := by
  have hrecorded : ∀ p q, R p q → w.Holds p q := fun p q hR =>
    (h.recorded p q hR).resolve_right (hprocessed p q)
  have hsymm : ∀ p q, w.Holds p q → w.Holds q p := by
    intro p q hpq
    rcases h.answered p q hpq with hqp | ⟨t, ht, howed⟩ | hm
    · exact hqp
    · rw [hsettled.owed p t ht] at howed
      cases howed
    · rw [hsettled.queue] at hm
      cases hm
  exact ⟨h.holds p q, fun hR => hR.elim (hrecorded p q) fun hqp => hsymm q p (hrecorded q p hqp)⟩

end Handshake

end Runtime

end LaneSwitchboards
