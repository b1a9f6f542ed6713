import LaneSwitchboards.Actor.Effects
import LaneSwitchboards.Actor.Stages

/-!
# Links: the handshake, the unlink and the failure

A `Link` request inserts the peer and sends it a `ControlMsg::Link`, which the peer answers in
the same way when the insertion is new. `Unlink` removes the peer from one set and sends
nothing, and a `LinkedExit` is accepted without a look at the set. So an unlink by `a` cuts
`a` off from `b` only where nothing of the handshake is left:

* **Attribution** (`Reachable.attributed`): a `LinkedExit` in a queue, and an exit reason
  `Linked(p, _)`, only exist after `p` has left its loop.
* **Severed** (`Severed`): nothing of an exit of `p` reaches `q`. Every event keeps it but a
  step in which `p` takes a `Link` message of `q` (`Severed.step`, `Severed.run_of_noLink`).
* **Unlinking** (`unlink_severs`): after `a` has processed `Unlink(b)`, an exit of `a` does
  not reach `b` as long as `a` takes no echo of the handshake, and an exit of `b` does not
  reach `a` provided `b` does not hold `a` as a link then and does not take it as one later.
* **No echo** (`unlinked_of_noEcho`): the link stays removed where no echo was in flight
  and `b` takes no `ControlMsg::Link` of `a` that is new to it.
-/

namespace LaneSwitchboards

/-- A request for or against a link with `peer`. -/
def Envelope.concerns {M A : Type} (peer : ActorId) : Envelope M A → Bool
  | .link p | .unlink p => p == peer
  | _ => false

namespace Runtime

open Transition

variable {M A : Type} {w w' u : Runtime M A} {a b p q i : ActorId} {e : RtEvent M A}
  {es : List (RtEvent M A)} {t : Task M A} {r : ExitReason}

/-! ### What an observed message was -/

theorem mem_control_of_access {ph : Phase M} {m : ControlMsg} {trap : Bool} {w₁ : Runtime M A}
    (h : Access w i ph (.control (some m) trap) w₁) : m ∈ (w.control i).queue := by
  cases h with
  | recvControl h =>
    rw [(Chan.recv_eq_some.mp h).1]
    exact List.mem_cons_self
  | internal hx => cases hx

theorem mem_mailbox_of_access {ph : Phase M} {env : Envelope M A} {w₁ : Runtime M A}
    (h : Access w i ph (.envelope (some env)) w₁) : env ∈ (w.mailbox i).queue := by
  cases h with
  | recvMailbox h =>
    rw [(Chan.recv_eq_some.mp h).1]
    exact List.mem_cons_self
  | internal hx => cases hx

/-! ### Attribution of linked exits -/

/-- The task of `i` has left its loop, or will never enter it. -/
def HasExited (w : Runtime M A) (i : ActorId) : Prop :=
  ∃ t, w.tasks i = some t ∧ t.phase.termination ≠ none

/-- An exit is final. -/
theorem HasExited.step (hx : w.HasExited i) (hf : w.Fresh) (h : w.step e = some w') :
    w'.HasExited i := by
  obtain ⟨t, ht, hend⟩ := hx
  rcases tasks_step h i with hsame | ⟨c, s, x, w₁, t', -, hs, -, -, hstep, ht'⟩ |
    ⟨_, _, _, -, hi, -⟩
  · exact ⟨t, hsame.trans ht, hend⟩
  · obtain rfl : t = s := Option.some.inj (ht.symm.trans hs)
    exact ⟨t', ht', fun hnone => hend (Task.termination_of_step hstep hnone)⟩
  · exact absurd hi (hf.ne_nextId ht)

/-- A linked exit names an actor that has exited. -/
structure Attributed (w : Runtime M A) : Prop where
  queue : ∀ p q r, .linkedExit p r ∈ (w.control q).queue → w.HasExited p
  reason : ∀ p q t r, w.tasks q = some t → t.phase.reason = some (.linked p r) → w.HasExited p

theorem Attributed.step (ha : w.Attributed) (hf : w.Fresh) (h : w.step e = some w') :
    w'.Attributed where
  queue p q r hm := by
    rcases control_step h hm with hold | ⟨i, t, ht, ⟨-, hmsg⟩ | ⟨r', rest, hp, hmsg⟩⟩
    · exact (ha.queue p q r hold).step hf h
    · cases hmsg
    · cases hmsg
      have hx : w.HasExited p := ⟨t, ht, by rw [hp]; exact Option.some_ne_none _⟩
      exact hx.step hf h
  reason p q t r ht hr := by
    rcases tasks_step h q with hsame | ⟨c, s, x, w₁, t', -, hs, hacc, -, hstep, ht'⟩ |
      ⟨_, _, _, -, -, ht'⟩
    · exact (ha.reason p q t r (hsame.symm.trans ht) hr).step hf h
    · obtain rfl : t = t' := Option.some.inj (ht.symm.trans ht')
      rcases Task.step_reason hstep hr with hold | ⟨-, rfl⟩
      · exact (ha.reason p q s r hs hold).step hf h
      · exact (ha.queue p q r (mem_control_of_access hacc)).step hf h
    · rw [ht'] at ht
      cases ht
      cases hr

/-- **Attribution** holds in every reachable state. -/
theorem Reachable.attributed (h : w.Reachable) : w.Attributed := by
  obtain ⟨es, hes⟩ := h
  have hboth : w.Fresh ∧ w.Attributed := by
    refine invariant_run (P := fun w => w.Fresh ∧ w.Attributed)
      (fun hw hst => ⟨hw.1.step hst, hw.2.step hw.1 hst⟩) ⟨fresh_init, ?_, ?_⟩ hes
    · intro p q r hm
      cases hm
    · intro p q t r ht
      cases ht
  exact hboth.2

/-! ### Severed actors -/

/-- The event is a step in which `p` processes a `Link` message of `q`. -/
def TakesLink (w : Runtime M A) (p q : ActorId) (e : RtEvent M A) : Prop :=
  w.Observes p e (.envelope (some (.link q))) ∨
    ∃ trap, w.Observes p e (.control (some (.link q)) trap)

/-- Nothing of an exit of `p` is on its way to `q`, and `p` holds no link to `q`. -/
structure Severed (w : Runtime M A) (p q : ActorId) : Prop where
  links : ∀ t, w.tasks p = some t → q ∉ t.links ∧ q ∉ t.phase.targets
  queue : ∀ r, .linkedExit p r ∉ (w.control q).queue
  reason : ∀ t r, w.tasks q = some t → t.phase.reason ≠ some (.linked p r)

/-- **Every event keeps actors severed** but the link itself. -/
theorem Severed.step (hs : w.Severed p q) (h : w.step e = some w') (he : ¬ w.TakesLink p q e) :
    w'.Severed p q where
  links t ht := by
    rcases tasks_step h p with hsame | ⟨c, s, x, w₁, t', -, hps, -, hobs, hstep, ht'⟩ |
      ⟨_, _, _, -, -, ht'⟩
    · exact hs.links t (hsame.symm.trans ht)
    · obtain rfl : t = t' := Option.some.inj (ht.symm.trans ht')
      obtain ⟨hlinks, htargets⟩ := hs.links s hps
      refine ⟨?_, fun hq => ?_⟩
      · cases Task.step_links hstep with
        | keep hl => rwa [hl]
        | insert peer hx hnew hl =>
          rw [hl, Finset.mem_insert, not_or]
          refine ⟨?_, hlinks⟩
          rintro rfl
          refine he (hx.imp ?_ ?_)
          · rintro rfl
            exact hobs
          · rintro ⟨trap, rfl⟩
            exact ⟨trap, hobs⟩
        | erase peer hx hl =>
          rw [hl]
          exact fun hmem => hlinks (Finset.mem_of_mem_erase hmem)
      · rcases Finset.mem_union.mp (Task.step_targets hstep hq) with hq | hq
        · exact htargets hq
        · exact hlinks hq
    · rw [ht'] at ht
      cases ht
      exact ⟨Finset.notMem_empty _, Finset.notMem_empty _⟩
  queue r hm := by
    rcases control_step h hm with hold | ⟨i, t, ht, ⟨-, hmsg⟩ | ⟨r', rest, hp, hmsg⟩⟩
    · exact hs.queue r hold
    · cases hmsg
    · cases hmsg
      refine (hs.links t ht).2 ?_
      rw [hp]
      exact Finset.mem_insert_self _ _
  reason t r ht hr := by
    rcases tasks_step h q with hsame | ⟨c, s, x, w₁, t', -, hqs, hacc, -, hstep, ht'⟩ |
      ⟨_, _, _, -, -, ht'⟩
    · exact hs.reason t r (hsame.symm.trans ht) hr
    · obtain rfl : t = t' := Option.some.inj (ht.symm.trans ht')
      rcases Task.step_reason hstep hr with hold | ⟨-, rfl⟩
      · exact hs.reason s r hqs hold
      · exact hs.queue r (mem_control_of_access hacc)
    · rw [ht'] at ht
      cases ht
      cases hr

/-- An actor that has not exited is severed from all actors that are not its links. -/
theorem Attributed.severed (ha : w.Attributed) (hp : ¬ w.HasExited p)
    (hlinks : ∀ t, w.tasks p = some t → q ∉ t.links) : w.Severed p q where
  links t ht := by
    refine ⟨hlinks t ht, ?_⟩
    have hnone : t.phase.termination = none := by
      by_contra hne
      exact hp ⟨t, ht, hne⟩
    rw [Phase.targets_of_termination hnone]
    exact Finset.notMem_empty _
  queue r hm := hp (ha.queue p q r hm)
  reason t r ht hr := hp (ha.reason p q t r ht hr)

/-! ### No echo -/

/-- The event is a step in which `p` takes a `ControlMsg::Link` of a peer that it does not hold
as a link, and so answers it. -/
def TakesNewLink (w : Runtime M A) (p q : ActorId) (e : RtEvent M A) : Prop :=
  ∃ t trap, w.tasks p = some t ∧ q ∉ t.links ∧ w.Observes p e (.control (some (.link q)) trap)

/-- `a` does not hold `b` as a link, no `Link` message of `b` is on its way to `a`, and no
request for a link between them is unprocessed. -/
structure NoEcho (w : Runtime M A) (a b : ActorId) : Prop where
  unlinked : ∀ t, w.tasks a = some t → b ∉ t.links
  control : .link b ∉ (w.control a).queue
  owed : ∀ t, w.tasks b = some t → t.phase.owed ≠ some a
  mailbox : .link b ∉ (w.mailbox a).queue
  mailbox' : .link a ∉ (w.mailbox b).queue

/-- A request that is not posted is not queued. -/
theorem not_mem_mailbox_step {env : Envelope M A} (hm : env ∉ (w.mailbox i).queue)
    (h : w.step e = some w') (he : e ≠ .post i env) : env ∉ (w'.mailbox i).queue := by
  rcases mailbox_step h i with ⟨-, hq, -⟩ | ⟨env', rfl, -, hpush⟩ | ⟨_, _, _, -, -, hnew⟩
  · exact fun hmem => hm (hq.subset hmem)
  · rw [hpush, Chan.queue_push, List.mem_append, List.mem_singleton, not_or]
    refine ⟨hm, ?_⟩
    rintro rfl
    exact he rfl
  · rw [hnew]
    exact List.not_mem_nil

/-- **Every event keeps the echo away** but a new request or a `ControlMsg::Link` of `a` that
is new to `b`. -/
theorem NoEcho.step (hn : w.NoEcho a b) (h : w.step e = some w')
    (he : e ≠ .post a (.link b) ∧ e ≠ .post b (.link a)) (hnew : ¬ w.TakesNewLink b a e) :
    w'.NoEcho a b where
  unlinked t ht := by
    rcases tasks_step h a with hsame | ⟨c, s, x, w₁, t', -, hs, hacc, -, hstep, ht'⟩ |
      ⟨_, _, _, -, -, ht'⟩
    · exact hn.unlinked t (hsame.symm.trans ht)
    · obtain rfl : t = t' := Option.some.inj (ht.symm.trans ht')
      cases Task.step_links hstep with
      | keep hl => rw [hl]; exact hn.unlinked s hs
      | insert peer hx hnew hl =>
        rw [hl, Finset.mem_insert, not_or]
        refine ⟨?_, hn.unlinked s hs⟩
        rintro rfl
        rcases hx with rfl | ⟨trap, rfl⟩
        · exact hn.mailbox (mem_mailbox_of_access hacc)
        · exact hn.control (mem_control_of_access hacc)
      | erase peer hx hl =>
        rw [hl]
        exact fun hmem => hn.unlinked s hs (Finset.mem_of_mem_erase hmem)
    · rw [ht'] at ht
      cases ht
      exact Finset.notMem_empty _
  control hm := by
    rcases control_step h hm with hold | ⟨i, t, ht, ⟨hp, hmsg⟩ | ⟨r', rest, -, hmsg⟩⟩
    · exact hn.control hold
    · cases hmsg
      exact hn.owed t ht (by rw [hp]; rfl)
    · cases hmsg
  owed t ht ho := by
    rcases tasks_step h b with hsame | ⟨c, s, x, w₁, t', -, hs, hacc, hobs, hstep, ht'⟩ |
      ⟨_, _, _, -, -, ht'⟩
    · exact hn.owed t (hsame.symm.trans ht) ho
    · obtain rfl : t = t' := Option.some.inj (ht.symm.trans ht')
      cases Task.step_links hstep with
      | keep hl hkeep =>
        rcases hkeep with hnone | hsame
        · rw [hnone] at ho
          cases ho
        · exact hn.owed s hs (hsame.symm.trans ho)
      | insert peer hx hpeer hl hpo =>
        obtain rfl : peer = a := Option.some.inj (hpo.symm.trans ho)
        rcases hx with rfl | ⟨trap, rfl⟩
        · exact hn.mailbox' (mem_mailbox_of_access hacc)
        · exact hnew ⟨s, trap, hs, hpeer, hobs⟩
      | erase peer hx hl hnone =>
        rw [hnone] at ho
        cases ho
    · rw [ht'] at ht
      cases ht
      cases ho
  mailbox := not_mem_mailbox_step hn.mailbox h he.1
  mailbox' := not_mem_mailbox_step hn.mailbox' h he.2

/-- Processing `Unlink(b)` removes `b`. -/
theorem unlinked_of_observes (h : w.step e = some u)
    (hobs : w.Observes a e (.envelope (some (.unlink b)))) :
    ∀ t, u.tasks a = some t → b ∉ t.links := by
  obtain ⟨t, w₁, t', -, -, hstep, rfl⟩ := hobs.step h
  intro t'' ht''
  obtain rfl : t' = t'' := by simpa [setTask] using ht''
  rw [(Task.step_unlink hstep).1]
  exact Finset.notMem_erase _ _

/-- An actor that processes an unlink has not exited. -/
theorem not_hasExited_of_observes (h : w.step e = some u)
    (hobs : w.Observes a e (.envelope (some (.unlink b)))) : ¬ u.HasExited a := by
  obtain ⟨t, w₁, t', -, -, hstep, rfl⟩ := hobs.step h
  rintro ⟨t'', ht'', hend⟩
  obtain rfl : t' = t'' := by simpa [setTask] using ht''
  exact hend (by rw [(Task.step_unlink hstep).2]; rfl)

/-- **Unlinking without an echo.** Once `a` has processed `Unlink(b)`, with no link request
between them unprocessed and none made later, `a` never holds `b` as a link again, provided
that no `Link` message of `b` was on its way to `a` then and that `b` does not answer another
one of `a` afterwards. -/
theorem unlinked_of_noEcho (hstep : w.step e = some u)
    (hunlink : w.Observes a e (.envelope (some (.unlink b))))
    (hmailbox : .link b ∉ (u.mailbox a).queue ∧ .link a ∉ (u.mailbox b).queue)
    (hposts : Along Runtime.step
      (fun _ e _ => e ≠ .post a (.link b) ∧ e ≠ .post b (.link a)) u es)
    (hcontrol : .link b ∉ (u.control a).queue)
    (howed : ∀ t, u.tasks b = some t → t.phase.owed ≠ some a)
    (hnew : Along Runtime.step (fun w e _ => ¬ w.TakesNewLink b a e) u es)
    (hrun : u.run es = some w') : ∀ t, w'.tasks a = some t → b ∉ t.links := by
  have hstart : u.NoEcho a b :=
    ⟨unlinked_of_observes hstep hunlink, hcontrol, howed, hmailbox.1, hmailbox.2⟩
  have hend : w'.NoEcho a b :=
    invariant_along (P := fun w => w.NoEcho a b) (fun hn hq hst => hn.step hst hq.1 hq.2)
      hstart (hposts.and hnew) hrun
  exact hend.unlinked

/-! ### Unlinking -/

/-- The event is a step in which `p` takes a `ControlMsg::Link` of `q`. -/
def TakesEcho (w : Runtime M A) (p q : ActorId) (e : RtEvent M A) : Prop :=
  ∃ trap, w.Observes p e (.control (some (.link q)) trap)

/-- The envelope just taken heads what is left of its history. -/
theorem suffix_of_observes {env : Envelope M A} (hw : w.Reachable) (h : w.step e = some u)
    (hobs : w.Observes a e (.envelope (some env))) :
    (env :: (u.mailbox a).queue) <:+ (u.mailbox a).accepted := by
  obtain ⟨t, w₁, t', -, hacc, -, rfl⟩ := hobs.step h
  have hfifo := hw.fifo a
  cases hp : t.phase <;> rw [hp] at hacc <;> cases hacc <;> try contradiction
  next ch hrecv =>
    simp only [setTask, setMailbox, Function.update_self, Chan.accepted_recv hrecv]
    unfold Chan.Fifo at hfifo
    rwa [(Chan.recv_eq_some.mp hrecv).1] at hfifo

/-- What surrounds the second of two different values in a part of their list. -/
theorem around_of_prefix_pair {α : Type} {x y : α} {l l' : List α} (hne : x ≠ y)
    (h : l ++ y :: l' <+: [x, y]) : l = [x] ∧ l' = [] := by
  obtain ⟨s, hs⟩ := h
  rcases l with _ | ⟨x', _ | ⟨y', l⟩⟩
  · simp only [List.nil_append, List.cons_append, List.cons.injEq] at hs
    exact absurd hs.1.symm hne
  · simp only [List.cons_append, List.nil_append, List.cons.injEq, List.append_eq_nil_iff,
      true_and] at hs
    exact ⟨by rw [hs.1], hs.2.1⟩
  · simp at hs

/-- Once the only unlink of `b` was processed, the only link to `b` is processed too, and no
request about `b` is made any more. -/
theorem history_of_unlink (hw : w.Reachable) (hstep : w.step e = some u)
    (hunlink : w.Observes a e (.envelope (some (.unlink b)))) (hrun : u.run es = some w')
    (ha : (w'.mailbox a).accepted.filter (·.concerns b) = [.link b, .unlink b]) :
    .link b ∉ (u.mailbox a).queue ∧
      Along Runtime.step (fun _ e _ => ∀ env, e = .post a env → env.concerns b = false) u es := by
  have hu : u.Fresh := hw.fresh.step hstep
  obtain ⟨taken, htaken⟩ := suffix_of_observes hw hstep hunlink
  -- the history at the unlink is a part of the final one that ends with the unlink
  have hfilter : (u.mailbox a).accepted.filter (·.concerns b) = taken.filter (·.concerns b) ++
      .unlink b :: (u.mailbox a).queue.filter (·.concerns b) := by
    rw [← htaken, List.filter_append, List.filter_cons_of_pos (by simp [Envelope.concerns])]
  have hprefix : (u.mailbox a).accepted.filter (·.concerns b) <+: [.link b, .unlink b] := by
    rw [← ha]
    exact (hu.accepted_grows_run hrun a).filter _
  have hqueue := around_of_prefix_pair (by simp) (hfilter ▸ hprefix)
  refine ⟨fun hmem => ?_, hu.not_posted hrun ?_⟩
  · have hmem' : .link b ∈ (u.mailbox a).queue.filter (·.concerns b) :=
      List.mem_filter.mpr ⟨hmem, by simp [Envelope.concerns]⟩
    rw [hqueue.2] at hmem'
    cases hmem'
  · rw [List.countP_eq_length_filter, List.countP_eq_length_filter, ha, hfilter, hqueue.1,
      hqueue.2]
    exact le_rfl

/-- A request that never was made is not queued, and not made later. -/
theorem history_empty (hw : w.Reachable) (hrun : w.run es = some w')
    (hb : (w'.mailbox b).accepted.filter (·.concerns a) = []) :
    .link a ∉ (w.mailbox b).queue ∧
      Along Runtime.step (fun _ e _ => ∀ env, e = .post b env → env.concerns a = false) w es := by
  have hnone : ∀ env ∈ (w'.mailbox b).accepted, env.concerns a = false := by
    simpa [List.filter_eq_nil_iff] using hb
  refine ⟨fun hmem => ?_, hw.fresh.not_posted hrun ?_⟩
  · have hacc := (hw.fresh.accepted_grows_run hrun b).subset ((hw.fifo b).subset hmem)
    simpa [Envelope.concerns] using hnone _ hacc
  · rw [List.countP_eq_length_filter, hb]
    exact Nat.zero_le _

/-- Severed actors stay so where the link request is neither queued nor made, and no echo is
taken. -/
theorem Severed.run_of_noLink (hs : u.Severed p q) (hqueue : .link q ∉ (u.mailbox p).queue)
    (hposts : Along Runtime.step
      (fun _ e _ => ∀ env, e = .post p env → env.concerns q = false) u es)
    (hecho : Along Runtime.step (fun w e _ => ¬ w.TakesEcho p q e) u es)
    (hrun : u.run es = some w') : w'.Severed p q := by
  refine (invariant_along
    (P := fun w => w.Severed p q ∧ .link q ∉ (w.mailbox p).queue) ?_ ⟨hs, hqueue⟩
    (hposts.and hecho) hrun).1
  rintro w e v ⟨hs, hq⟩ ⟨hpost, hecho⟩ hst
  refine ⟨hs.step hst ?_, not_mem_mailbox_step hq hst ?_⟩
  · rintro (hobs | hobs)
    · obtain ⟨t, w₁, t', -, hacc, -⟩ := hobs.step hst
      exact hq (mem_mailbox_of_access hacc)
    · exact hecho hobs
  · rintro rfl
    simpa [Envelope.concerns] using hpost _ rfl

/-- **Unlinking severs** the two actors, where no handshake is left over. In a run in which
`a` is asked once to link to `b` and then to unlink from it, and nothing else is ever asked
about the two, let `a` process the unlink.

* `b` never exits with `Linked(a, _)`, provided `a` takes no `ControlMsg::Link` of `b` any
  more.
* `a` never exits with `Linked(b, _)`, provided `b` neither has exited by then, nor holds `a`
  as a link then, nor takes a `ControlMsg::Link` of `a` later. -/
theorem unlink_severs (hw : w.Reachable) (hstep : w.step e = some u)
    (hunlink : w.Observes a e (.envelope (some (.unlink b)))) (hrun : u.run es = some w')
    (ha : (w'.mailbox a).accepted.filter (·.concerns b) = [.link b, .unlink b])
    (hb : (w'.mailbox b).accepted.filter (·.concerns a) = []) :
    (Along Runtime.step (fun w e _ => ¬ w.TakesEcho a b e) u es →
      ∀ t r, w'.tasks b = some t → t.phase.reason ≠ some (.linked a r)) ∧
    (¬ u.HasExited b → (∀ t, u.tasks b = some t → a ∉ t.links) →
      Along Runtime.step (fun w e _ => ¬ w.TakesEcho b a e) u es →
      ∀ t r, w'.tasks a = some t → t.phase.reason ≠ some (.linked b r)) := by
  have hu : u.Reachable := hw.step hstep
  refine ⟨fun hecho => ?_, fun hexit hlinks hecho => ?_⟩
  · obtain ⟨hqueue, hposts⟩ := history_of_unlink hw hstep hunlink hrun ha
    have hsevered : u.Severed a b :=
      hu.attributed.severed (not_hasExited_of_observes hstep hunlink)
        (unlinked_of_observes hstep hunlink)
    exact (hsevered.run_of_noLink hqueue hposts hecho hrun).reason
  · obtain ⟨hqueue, hposts⟩ := history_empty hu hrun hb
    exact ((hu.attributed.severed hexit hlinks).run_of_noLink hqueue hposts hecho hrun).reason

/-- Only a poll of the control channel takes a control message. -/
theorem event_of_control {m : Option ControlMsg} {trap : Bool}
    (h : w.Observes p e (.control m trap)) : e = .task p (.recvControl trap) := by
  obtain ⟨c, t, w₁, rfl, -, hx⟩ := h
  cases c with
  | recvControl trap' =>
    simp only [observe, Option.ite_none_right_eq_some, Option.some.injEq] at hx
    obtain ⟨-, hx⟩ := hx
    unfold observeControl at hx
    split at hx
    · cases hx
      rfl
    · split at hx <;> cases hx
      rfl
  | recvMailbox =>
    simp only [observe, Option.ite_none_right_eq_some, Option.some.injEq] at hx
    obtain ⟨-, hx⟩ := hx
    unfold observeMailbox at hx
    split at hx
    · cases hx
    · split at hx <;> cases hx
  | lookup =>
    simp only [observe, Option.map_eq_some_iff, Prod.mk.injEq] at hx
    obtain ⟨x, hx, rfl, -⟩ := hx
    unfold observeLookup at hx
    split at hx <;> cases hx
  | send =>
    simp only [observe, Option.map_eq_some_iff, Prod.mk.injEq] at hx
    obtain ⟨_, -, hx, -⟩ := hx
    cases hx
  | _ => cases hx

/-! ### Two actors -/

/-- The steps in which an actor starts. -/
def starts (i : ActorId) : List (RtEvent Unit Unit) := [.task i .poll, .task i (.preStart (.ok ()))]

/-- The steps in which an actor finds its control channel empty and takes an envelope. -/
def takes (i : ActorId) : List (RtEvent Unit Unit) :=
  [.task i (.recvControl false), .task i .recvMailbox]

/-- `i` takes a request to link to `j`, and the two complete the handshake. -/
def shakesHands (i j : ActorId) : List (RtEvent Unit Unit) :=
  .post i (.link j) :: takes i ++ [.task i .lookup, .task i .send, .task j (.recvControl false),
    .task j .lookup, .task j .send, .task i (.recvControl false)]

/-- Actors 1 and 2 are spawned; 1 is asked to link to 2 and sends its half of the handshake. -/
def linking : List (RtEvent Unit Unit) :=
  [.spawn .default () none, .spawn .default () none] ++ starts ⟨1⟩ ++
    .post ⟨1⟩ (.link ⟨2⟩) :: takes ⟨1⟩ ++ [.task ⟨1⟩ .lookup, .task ⟨1⟩ .send]

/-- Actor 2 takes the first half of the handshake and is about to answer. -/
def answering : List (RtEvent Unit Unit) :=
  starts ⟨2⟩ ++ [.task ⟨2⟩ (.recvControl false), .task ⟨2⟩ .lookup]

/-- Actor 1 is asked to unlink from 2 and is about to take that request. -/
def unlinking : List (RtEvent Unit Unit) :=
  [.post ⟨1⟩ (.unlink ⟨2⟩), .task ⟨1⟩ (.recvControl false)]

/-- Actor 2 is killed and tells its links; actor 1 listens. -/
def killing : List (RtEvent Unit Unit) :=
  .post ⟨2⟩ .kill :: takes ⟨2⟩ ++
    [.task ⟨2⟩ (.postStop (.ok ())), .task ⟨2⟩ (.next ⟨1⟩), .task ⟨2⟩ .lookup, .task ⟨2⟩ .send,
      .task ⟨1⟩ (.recvControl false)]

/-- The state after a run from the empty process. -/
def after (es : List (RtEvent Unit Unit)) : Runtime Unit Unit := (init.run es).getD init

/-- Actor 2 is in its `handle` when actor 1 sends its half of the handshake, which stays in the
control channel. -/
def linkingBusy : List (RtEvent Unit Unit) :=
  [.spawn .default () none, .spawn .default () none] ++ starts ⟨1⟩ ++ starts ⟨2⟩ ++
    .post ⟨2⟩ (.msg ()) :: takes ⟨2⟩ ++ .task ⟨2⟩ (.handleBegin (.ok ())) ::
    .post ⟨1⟩ (.link ⟨2⟩) :: takes ⟨1⟩ ++ [.task ⟨1⟩ .lookup, .task ⟨1⟩ .send]

/-- Actor 1 has processed the unlink while actor 2 is still in its `handle`. -/
def unlinkedBusy : List (RtEvent Unit Unit) :=
  linkingBusy ++ unlinking ++ [.task ⟨1⟩ .recvMailbox]

/-- The `handle` of actor 2 fails, and actor 2 ends. -/
def failing : List (RtEvent Unit Unit) :=
  [.task ⟨2⟩ (.handle (.err "boom") 0), .task ⟨2⟩ .lookup, .task ⟨2⟩ (.postStop (.ok ())),
    .task ⟨2⟩ .linksDone, .task ⟨2⟩ .unregister, .task ⟨2⟩ .finish]

/-- The result where actor 2 fails after the unlink: it ends with its own error, and actor 1 is
in its loop. -/
theorem unlink_severs_failing :
    (after (unlinkedBusy ++ failing)).phase ⟨2⟩ = some (.done (.exited (.error "boom"))) ∧
    (after (unlinkedBusy ++ failing)).phase ⟨1⟩ = some .select ∧
    (∀ t r, (after (unlinkedBusy ++ failing)).tasks ⟨2⟩ = some t →
      t.phase.reason ≠ some (.linked ⟨1⟩ r)) ∧
    ∀ t r, (after (unlinkedBusy ++ failing)).tasks ⟨1⟩ = some t →
      t.phase.reason ≠ some (.linked ⟨2⟩ r) := by
  have hecho (p q : ActorId) (u : Runtime Unit Unit) :
      Along Runtime.step (fun w e _ => ¬ w.TakesEcho p q e) u failing := by
    refine along_of_forall fun w e he _ hecho => ?_
    obtain ⟨trap, hobs⟩ := hecho
    obtain rfl := event_of_control hobs
    simp [failing] at he
  have hstep : (after (linkingBusy ++ unlinking)).step (.task ⟨1⟩ .recvMailbox) =
      some (after unlinkedBusy) := rfl
  have hrun : (after unlinkedBusy).run failing = some (after (unlinkedBusy ++ failing)) := rfl
  have hboth := unlink_severs (a := ⟨1⟩) (b := ⟨2⟩) ⟨linkingBusy ++ unlinking, rfl⟩ hstep
    ⟨_, _, _, rfl, rfl, rfl⟩ hrun rfl rfl
  refine ⟨rfl, rfl, hboth.1 (hecho _ _ _), hboth.2 ?_ ?_ (hecho _ _ _)⟩
  · rintro ⟨t, ht, hend⟩
    cases ht
    exact hend rfl
  · intro t ht
    cases ht
    exact Finset.notMem_empty _

/-- Actor 1 has processed the unlink, and nothing else was asked about the two; yet actor 2,
killed afterwards, takes actor 1 down with it. -/
theorem unlinked_actor_dies : ∃ w u w' : Runtime Unit Unit,
    init.run (linking ++ answering ++ [.task ⟨2⟩ .send, .task ⟨1⟩ (.recvControl false)] ++
      unlinking) = some w ∧
    w.step (.task ⟨1⟩ .recvMailbox) = some u ∧
    w.Observes ⟨1⟩ (.task ⟨1⟩ .recvMailbox) (.envelope (some (.unlink ⟨2⟩))) ∧
    u.phase ⟨2⟩ = some .select ∧ u.run killing = some w' ∧
    (w'.mailbox ⟨1⟩).accepted.filter (·.concerns ⟨2⟩) = [.link ⟨2⟩, .unlink ⟨2⟩] ∧
    (w'.mailbox ⟨2⟩).accepted.filter (·.concerns ⟨1⟩) = [] ∧
    w'.phase ⟨1⟩ = some (.postStop (.linked ⟨2⟩ .killed)) :=
  ⟨_, _, _, rfl, rfl, ⟨_, _, _, rfl, rfl, rfl⟩, rfl, rfl, rfl, rfl, rfl⟩

/-- The handshake is complete, then actor 1 has processed the unlink. -/
def unlinkedLate : List (RtEvent Unit Unit) :=
  linking ++ answering ++ [.task ⟨2⟩ .send, .task ⟨1⟩ (.recvControl false)] ++ unlinking

/-- The result where the handshake was complete before the unlink. -/
theorem unlinked_of_noEcho_complete :
    ∃ t, (after (unlinkedLate ++ [.task ⟨1⟩ .recvMailbox, .task ⟨1⟩ (.recvControl false)])).tasks
      ⟨1⟩ = some t ∧ ⟨2⟩ ∉ t.links := by
  have hstep : (after unlinkedLate).step (.task ⟨1⟩ .recvMailbox) =
      some (after (unlinkedLate ++ [.task ⟨1⟩ .recvMailbox])) := rfl
  have hrun : (after (unlinkedLate ++ [.task ⟨1⟩ .recvMailbox])).run
      [.task ⟨1⟩ (.recvControl false)] = some (after (unlinkedLate ++
        [.task ⟨1⟩ .recvMailbox, .task ⟨1⟩ (.recvControl false)])) := rfl
  refine ⟨_, rfl, unlinked_of_noEcho hstep ⟨_, _, _, rfl, rfl, rfl⟩
    ⟨List.not_mem_nil, List.not_mem_nil⟩ ?_ List.not_mem_nil ?_ ?_ hrun _ rfl⟩
  · exact along_of_forall fun w e he _ => by simp_all
  · intro t ht
    cases ht
    exact fun howed => by cases howed
  · refine along_of_forall fun w e he _ hnew => ?_
    obtain ⟨_, _, _, _, c, _, _, rfl, -⟩ := hnew
    simp at he

/-- Actor 1 has processed the unlink with nothing left in either mailbox; the answer of actor
2, still to be sent then, links it again. -/
theorem echo_links_again : ∃ w u w' : Runtime Unit Unit, ∃ t,
    init.run (linking ++ answering ++ unlinking) = some w ∧
    w.step (.task ⟨1⟩ .recvMailbox) = some u ∧
    w.Observes ⟨1⟩ (.task ⟨1⟩ .recvMailbox) (.envelope (some (.unlink ⟨2⟩))) ∧
    (u.mailbox ⟨1⟩).queue = [] ∧ (u.mailbox ⟨2⟩).queue = [] ∧
    u.run [.task ⟨2⟩ .send, .task ⟨1⟩ (.recvControl false)] = some w' ∧
    w'.tasks ⟨1⟩ = some t ∧ ⟨2⟩ ∈ t.links :=
  ⟨_, _, _, _, rfl, rfl, ⟨_, _, _, rfl, rfl, rfl⟩, rfl, rfl, rfl, rfl,
    Finset.mem_insert_self _ _⟩

end Runtime

end LaneSwitchboards
