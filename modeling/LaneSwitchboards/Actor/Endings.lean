import LaneSwitchboards.Actor.Handshake
import LaneSwitchboards.Actor.Statistics

/-!
# What an exit reason says of the mailbox

An actor takes the envelopes of its mailbox one after the other, until something ends its loop.
The reason of its exit tells what that was, and so how far the actor came (`Ending`): each message
before the envelope that ended the loop returned `Ok` from `handle`, and what follows that
envelope is lost. Only where the mailbox was closed, and the reason is `Normal`, everything that
was ever accepted is handled (`exit_accounts`).
-/

namespace LaneSwitchboards

open Function Transition

variable {M A : Type}

/-- The envelope ends the loop by itself. -/
def Envelope.ends : Envelope M A → Bool
  | .stop | .kill => true
  | _ => false

/-- None of these envelopes ended the loop, and `n` of them are messages. -/
structure WentOn (taken : List (Envelope M A)) (n : ℕ) : Prop where
  ends : ∀ env ∈ taken, env.ends = false
  handled : n = taken.countP Envelope.isMsg

/-- What an exit reason says of the envelopes that were taken, `n` messages of which returned `Ok`
from `handle`. -/
inductive Ending : ExitReason → List (Envelope M A) → ℕ → Prop
  | closed {taken n} (h : WentOn taken n) : Ending .normal taken n
  | stopped {before n} (h : WentOn before n) : Ending .shutdown (before ++ [.stop]) n
  | killed {before n} (h : WentOn before n) : Ending .killed (before ++ [.kill]) n
  | failed {before n} (m : M) (e : String) (h : WentOn before n) :
      Ending (.error e) (before ++ [.msg m]) n
  | timedOut {before n} (m : M) (elapsedMs limitMs : UInt64) (h : WentOn before n) :
      Ending (.handleTimeout elapsedMs limitMs) (before ++ [.msg m]) n
  | upgradeFailed {before n} (newImpl : A) (e : String) (h : WentOn before n) :
      Ending (.error e) (before ++ [.upgrade newImpl]) n
  | linked {taken n} (p : ActorId) (r : ExitReason) (h : WentOn taken n) :
      Ending (.linked p r) taken n

variable {taken : List (Envelope M A)} {n : ℕ} {env : Envelope M A} {r : ExitReason}

theorem wentOn_nil : WentOn ([] : List (Envelope M A)) 0 := ⟨fun _ h => (by cases h), rfl⟩

/-- Anything but a message. -/
theorem WentOn.concat (h : WentOn taken n) (hends : env.ends = false) (hmsg : env.isMsg = false) :
    WentOn (taken ++ [env]) n where
  ends e he := by
    rcases List.mem_append.mp he with he | he
    · exact h.ends e he
    · rwa [List.mem_singleton.mp he]
  handled := by
    rw [List.countP_append, ← h.handled, List.countP_singleton, hmsg]
    rfl

/-- A message that is handled. -/
theorem WentOn.concat_msg (h : WentOn taken n) (m : M) : WentOn (taken ++ [.msg m]) (n + 1) where
  ends e he := by
    rcases List.mem_append.mp he with he | he
    · exact h.ends e he
    · rw [List.mem_singleton.mp he]
      rfl
  handled := by
    rw [List.countP_append, ← h.handled]
    rfl

theorem Phase.closing_of_reason {p : Phase M} (h : p.reason = some r) : p.closing = true := by
  cases p <;> first | rfl | cases h

theorem Input.taken_of_not_takes {x : Input M A} (h : x.takes = false) : x.taken = none := by
  cases x with
  | envelope e => cases e <;> first | rfl | cases h
  | _ => rfl

/-- How far a task in this phase has come. -/
def Phase.Accounts (p : Phase M) (taken : List (Envelope M A)) (n : ℕ) : Prop :=
  match p with
  | .handleBegin m | .handle m => ∃ before, taken = before ++ [.msg m] ∧ WentOn before n
  | .handleStuck _ _ => ∃ before m, taken = before ++ [.msg m] ∧ WentOn before n
  | .onUpgrade => ∃ before newImpl, taken = before ++ [.upgrade newImpl] ∧ WentOn before n
  | p => (∀ r, p.reason = some r → Ending r taken n) ∧ (p.running = true → WentOn taken n)

theorem Phase.Accounts.ending {p : Phase M} (h : p.Accounts taken n) (hr : p.reason = some r) :
    Ending r taken n := by
  cases p <;> first | exact h.1 r hr | cases hr

namespace Task

variable {t t' : Task M A} {x : Input M A} {xs : List (Input M A)}

theorem accounts_exit (t : Task M A) (h : Ending r taken n) : (t.exit r).phase.Accounts taken n :=
  ⟨fun r' hr' => by cases hr'; exact h, fun hrun => by cases hrun⟩

theorem accounts_select (t : Task M A) (h : WentOn taken n) :
    ({ t with phase := .select } : Task M A).phase.Accounts taken n :=
  ⟨fun r hr => (by cases hr), fun _ => h⟩

theorem accounts_insertLink (t : Task M A) (peer : ActorId) (h : WentOn taken n) :
    (t.insertLink peer).phase.Accounts taken n := by
  unfold insertLink
  split_ifs
  · exact accounts_select _ h
  · exact ⟨fun r' hr' => (by cases hr'), fun _ => h⟩

theorem accounts_recvControl {m : Option ControlMsg} {trap : Bool} (h : WentOn taken n) :
    (t.recvControl trap m).phase.Accounts taken n := by
  rcases m with _ | peer | ⟨peer, r⟩
  · exact accounts_exit _ (.closed h)
  · exact accounts_insertLink _ _ h
  · cases trap with
    | true => exact accounts_select _ h
    | false => exact accounts_exit _ (.linked peer r h)

theorem accounts_recvEnvelope {e : Option (Envelope M A)} (h : WentOn taken n) :
    (t.recvEnvelope e).phase.Accounts (taken ++ e.toList) n := by
  rcases e with _ | env
  · rw [Option.toList_none, List.append_nil]
    exact accounts_exit _ (.closed h)
  · rw [Option.toList_some]
    cases env with
    | msg m => exact ⟨taken, rfl, h⟩
    | link peer => exact accounts_insertLink _ _ (h.concat rfl rfl)
    | unlink | monitor | demonitor => exact accounts_select t (h.concat rfl rfl)
    | kill => exact accounts_exit _ (.killed h)
    | stop => exact accounts_exit _ (.stopped h)
    | upgrade newImpl => exact ⟨taken, newImpl, rfl, h⟩

theorem accounts_notify {m : M} {before : List (Envelope M A)} (h : WentOn before n) (e : String) :
    (Phase.notify (.error e)).Accounts (before ++ [.msg m]) n :=
  ⟨fun r hr => (by cases hr; exact .failed m e h), fun hrun => by cases hrun⟩

/-- **Every step keeps the account.** -/
theorem accounts_of_step (h : t.phase.Accounts taken n) (hst : t.step x = some t') :
    t'.phase.Accounts (taken ++ x.taken.toList) (n + x.handledIn.toList.length) := by
  unfold step at hst
  split at hst
  all_goals try cases hst
  all_goals try simp only [Input.taken, Input.handledIn, Option.toList_none, List.append_nil,
    List.length_nil, Nat.add_zero]
  -- the steps in the loop, then those after it, which keep the reason
  all_goals try
    (next hp =>
      rw [hp] at h
      exact ⟨fun r hr => (by cases hr), fun _ => h.2 rfl⟩)
  all_goals try
    (next hp =>
      rw [hp] at h
      exact ⟨h.1, fun hrun => by cases hrun⟩)
  · next hp =>
    rw [hp] at h
    exact accounts_recvControl (h.2 rfl)
  · next hp =>
    rw [hp] at h
    exact accounts_recvEnvelope (h.2 rfl)
  · next hp =>
    rw [hp] at h
    exact h
  · next hp =>
    rw [hp] at h
    obtain ⟨before, rfl, hbefore⟩ := h
    exact accounts_notify hbefore _
  · next m o elapsed hp =>
    rw [hp] at h
    obtain ⟨before, rfl, hbefore⟩ := h
    cases o with
    | ok => exact accounts_select t (hbefore.concat_msg m)
    | err e => exact accounts_notify hbefore e
    | panicked => exact accounts_notify hbefore _
  · next hp =>
    rw [hp] at h
    obtain ⟨before, rfl, hbefore⟩ := h
    split at hst <;> cases hst
    exact ⟨before, _, rfl, hbefore⟩
  · next hp =>
    rw [hp] at h
    obtain ⟨before, m, rfl, hbefore⟩ := h
    exact ⟨fun r hr => (by cases hr; exact .timedOut _ _ _ hbefore), fun hrun => by cases hrun⟩
  · next hp =>
    rw [hp] at h
    obtain ⟨before, newImpl, rfl, hbefore⟩ := h
    exact accounts_select t (hbefore.concat rfl rfl)
  · next hp =>
    rw [hp] at h
    obtain ⟨before, newImpl, rfl, hbefore⟩ := h
    exact accounts_exit t (.upgradeFailed newImpl _ hbefore)
  · next hp =>
    rw [hp] at h
    unfold stopped
    dsimp only
    split_ifs <;> exact ⟨h.1, fun hrun => by cases hrun⟩
  · next hp =>
    rw [hp] at h
    split_ifs at hst
    cases hst
    exact ⟨h.1, fun hrun => by cases hrun⟩
  · next hp =>
    rw [hp] at h
    split_ifs at hst
    cases hst
    exact ⟨h.1, fun hrun => by cases hrun⟩
  · next e hp =>
    rw [hp] at h
    exact ⟨by cases e <;> exact h.1, fun hrun => by cases hrun⟩
  · next e hp =>
    rw [hp] at h
    exact ⟨by cases e <;> exact h.1, fun hrun => by cases hrun⟩
  · split_ifs at hst
    cases hst
    exact ⟨fun r hr => (by cases hr), fun hrun => by cases hrun⟩

theorem accounts_run {config : ActorConfig} {a : A} (h : (initial config a).run xs = some t) :
    t.phase.Accounts (xs.filterMap Input.taken) (xs.filterMap Input.handledIn).length := by
  refine run_induction (motive := fun xs t =>
    t.phase.Accounts (xs.filterMap Input.taken) (xs.filterMap Input.handledIn).length)
    ⟨fun r hr => (by cases hr), fun _ => wentOn_nil⟩ (fun {xs s x s'} _ ih hst => ?_) h
  have hnext := accounts_of_step ih hst
  rw [List.filterMap_append, List.filterMap_append, List.length_append]
  cases htaken : x.taken <;> cases hhandled : x.handledIn <;> simpa [htaken, hhandled] using hnext

/-- **Inversion of a step**, for the reason `Normal`: one of the channels is closed. -/
theorem step_normal (h : t.step x = some t') (hr : t'.phase.reason = some .normal) :
    t.phase.reason = some .normal ∨ (t.phase = .select ∧ ∃ trap, x = .control none trap) ∨
      t.phase = .pollMailbox ∧ x = .envelope none := by
  unfold step at h
  split at h
  all_goals try cases h
  all_goals try cases hr
  all_goals try (next hp => exact .inl (by rw [hp]; first | exact hr | rfl))
  · next m trap hp =>
    rcases m with _ | peer | ⟨peer, r⟩
    · exact .inr (.inl ⟨hp, trap, rfl⟩)
    · rw [recvControl, reason_insertLink] at hr
      cases hr
    · cases trap <;> cases hr
  · next e hp =>
    rcases e with _ | e
    · exact .inr (.inr ⟨hp, rfl⟩)
    · cases e with
      | link peer =>
        rw [recvEnvelope, reason_insertLink] at hr
        cases hr
      | _ => cases hr
  · next o _ _ => cases o <;> cases hr
  · split at h <;> cases h
    cases hr
  · next hp =>
    rw [reason_stopped] at hr
    exact .inl (by rw [hp]; exact hr)
  · next hp =>
    split at h <;> cases h
    exact .inl (by rw [hp]; exact hr)
  · next hp =>
    split at h <;> cases h
    exact .inl (by rw [hp]; exact hr)
  · next e hp => exact .inl (by rw [hp]; cases e <;> exact hr)
  · next e hp => exact .inl (by rw [hp]; cases e <;> exact hr)
  · split at h <;> cases h
    cases hr

end Task

namespace Runtime

variable {w w' w₀ w₁ : Runtime M A} {i : ActorId} {e : RtEvent M A} {es : List (RtEvent M A)}
  {t : Task M A}

/-- The loop sees the end of its mailbox when no reference is left and nothing is queued. -/
theorem mailbox_of_closed (h : w.Observes i e (.envelope none)) :
    w.refs i = 0 ∧ (w.mailbox i).queue = [] := by
  obtain ⟨c, t, w₁, rfl, ht, hx⟩ := h
  cases c with
  | recvMailbox =>
    simp only [observe, Option.ite_none_right_eq_some, Option.some.injEq] at hx
    have hx := hx.2
    unfold observeMailbox at hx
    split at hx
    · cases hx
    · next hrecv =>
      split_ifs at hx with hrefs
      · exact ⟨hrefs, Chan.recv_eq_none.mp hrecv⟩
      · cases hx
  | recvControl trap =>
    simp only [observe, Option.ite_none_right_eq_some, Option.some.injEq] at hx
    have hx := hx.2
    unfold observeControl at hx
    split at hx
    · cases hx
    · split_ifs at hx <;> cases hx
  | lookup =>
    simp only [observe, Option.map_eq_some_iff, Prod.mk.injEq] at hx
    obtain ⟨x, hx, rfl, -⟩ := hx
    unfold observeLookup at hx
    split at hx <;> cases hx
  | send =>
    simp only [observe, Option.map_eq_some_iff, Prod.mk.injEq] at hx
    obtain ⟨w₂, -, hx, -⟩ := hx
    cases hx
  | _ => cases hx

/-- Without a reference a mailbox takes nothing more. -/
theorem accepted_of_closed (hf : w.Fresh) (ht : w.tasks i = some t) (hrefs : w.refs i = 0)
    (h : w.step e = some w') : (w'.mailbox i).accepted = (w.mailbox i).accepted := by
  rcases mailbox_step h i with ⟨hsame, -⟩ | ⟨env, rfl, -, -⟩ | ⟨_, _, _, -, hi, -⟩
  · exact hsame
  · simp only [step, post, hrefs, Option.ite_none_right_eq_some] at h
    exact absurd h.1.1 (lt_irrefl 0)
  · exact absurd hi (hf.ne_nextId ht)

/-- The control channel of an actor in its loop is open. -/
theorem not_observes_controlClosed (hw : w.Reachable) (ht : w.tasks i = some t)
    (hp : t.phase = .select) {trap : Bool} (h : Access w i t.phase (.control none trap) w₁) :
    False := by
  have hsender := Running.hasControlSender ⟨t, ht, by rw [hp]; rfl⟩ hw
  rw [hp] at h
  cases h with
  | controlClosed hnone => simp [hasControlSender, hnone] at hsender
  | internal hx => cases hx

/-- An actor that exits with `Normal` has taken everything, and nothing is added. -/
theorem drained_run {config : ActorConfig} {actor : A} {supervisor : Option SupId}
    (hw : w.Reachable) (hspawn : w.step (.spawn config actor supervisor) = some w₀)
    (hrun : w₀.run es = some w') (ht : w'.tasks ⟨w.nextId⟩ = some t)
    (hr : t.phase.reason = some .normal) :
    w'.refs ⟨w.nextId⟩ = 0 ∧
      (w'.mailbox ⟨w.nextId⟩).accepted = w₀.envelopes ⟨w.nextId⟩ es := by
  have hw₀ := hw.step hspawn
  obtain ⟨ht₀, hempty, -⟩ := spawned_spec hspawn
  have hall := run_induction
    (motive := fun es v => v.Reachable ∧ ∃ t, v.tasks ⟨w.nextId⟩ = some t ∧
      (t.phase.reason = some .normal → v.refs ⟨w.nextId⟩ = 0 ∧
        (v.mailbox ⟨w.nextId⟩).accepted = w₀.envelopes ⟨w.nextId⟩ es))
    ⟨hw₀, _, ht₀, fun hr => by cases hr⟩ ?_ hrun
  · obtain ⟨-, t', ht', hdrained⟩ := hall
    obtain rfl : t = t' := Option.some.inj (ht.symm.trans ht')
    exact hdrained hr
  · rintro es v e v' hrun ⟨hv, s, hs, hdrained⟩ hst
    refine ⟨hv.step hst, ?_⟩
    -- what is closed stays so
    have hclosed (hrefs : v.refs ⟨w.nextId⟩ = 0) := And.intro
      (refs_eq_zero_step hv.fresh hs hrefs hst) (accepted_of_closed hv.fresh hs hrefs hst)
    cases hx : v.input ⟨w.nextId⟩ e with
    | none =>
      refine ⟨s, (frame_step hv.fresh hs hst hx).1, fun hr => ?_⟩
      obtain ⟨hrefs, haccepted⟩ := hdrained hr
      obtain ⟨hrefs', haccepted'⟩ := hclosed hrefs
      rw [envelopes, inputs_concat_of_none hrun hst hx]
      exact ⟨hrefs', haccepted'.trans haccepted⟩
    | some x =>
      have hobs := input_eq_some.mp hx
      obtain ⟨s₁, w₁, s', hs₁, hacc, hstep, rfl⟩ := hobs.step hst
      obtain rfl : s = s₁ := Option.some.inj (hs.symm.trans hs₁)
      refine ⟨s', by simp [setTask], fun hr => ?_⟩
      rw [envelopes, inputs_concat_of_some hrun hst hx, List.filterMap_append]
      rcases Task.step_normal hstep hr with hold | ⟨hp, trap, rfl⟩ | ⟨hp, rfl⟩
      · obtain ⟨hrefs, haccepted⟩ := hdrained hold
        obtain ⟨hrefs', haccepted'⟩ := hclosed hrefs
        have htakes := (Task.closing_step hstep (Phase.closing_of_reason hold)).2.1
        rw [List.filterMap_cons_none (Input.taken_of_not_takes htakes), List.filterMap_nil,
          List.append_nil]
        exact ⟨hrefs', haccepted'.trans haccepted⟩
      · exact (not_observes_controlClosed hv hs hp hacc).elim
      · obtain ⟨hrefs, hqueue⟩ := mailbox_of_closed hobs
        obtain ⟨hrefs', haccepted'⟩ := hclosed hrefs
        have hlive : s.phase.isDone = false := by rw [hp]; rfl
        have htaken := (envelopes_spec hw₀.fresh ht₀ hempty hrun).2 s hs hlive
        rw [hqueue, List.append_nil] at htaken
        refine ⟨hrefs', haccepted'.trans (htaken.trans ?_)⟩
        exact (List.append_nil _).symm

/-- **What an exit reason says of the mailbox.** For every actor and every run after its spawn in
which nobody else takes it out of the registry: an exit reason fits the envelopes that were taken,
each message before the one that ended the loop returned `Ok` from `handle`, and what was taken is
the beginning of what was accepted. After a `Normal` exit it is all of it, and there are no
references that could add to it. -/
theorem exit_accounts {config : ActorConfig} {actor : A} {supervisor : Option SupId}
    (hw : w.Reachable) (hspawn : w.step (.spawn config actor supervisor) = some w₀)
    (hrun : w₀.run es = some w') (ht : w'.tasks ⟨w.nextId⟩ = some t)
    (hr : t.phase.reason = some r) :
    let taken := w₀.envelopes ⟨w.nextId⟩ es
    Ending r taken ((w₀.inputs ⟨w.nextId⟩ es).filterMap Input.handledIn).length ∧
      taken <+: (w'.mailbox ⟨w.nextId⟩).accepted ∧
      (r = .normal → w'.refs ⟨w.nextId⟩ = 0 ∧ (w'.mailbox ⟨w.nextId⟩).accepted = taken) := by
  have hf := (hw.step hspawn).fresh
  obtain ⟨ht₀, hempty, -⟩ := spawned_spec hspawn
  obtain ⟨s, hs, hs'⟩ := run_inputs hf ht₀ hrun
  obtain rfl : t = s := Option.some.inj (ht.symm.trans hs')
  refine ⟨?_, (envelopes_spec hf ht₀ hempty hrun).1, ?_⟩
  · exact (Task.accounts_run hs).ending hr
  · rintro rfl
    exact drained_run hw hspawn hrun ht hr

/-- The only reference is dropped with a message in the mailbox, which is handled still. -/
def drains : List (RtEvent Unit Unit) :=
  let steps : List Choice := [.poll, .preStart (.ok ()), .recvControl false, .recvMailbox,
    .handleBegin (.ok ()), .handle .ok 0, .recvControl false, .recvMailbox]
  [.post ⟨1⟩ (.msg ()), .dropRef ⟨1⟩] ++ steps.map (.task ⟨1⟩)

/-- The mailbox of that actor. -/
theorem exit_accounts_drains : ∃ w₀ w' : Runtime Unit Unit,
    init.step (.spawn .default () none) = some w₀ ∧ w₀.run drains = some w' ∧
      w'.phase ⟨1⟩ = some (.postStop .normal) ∧ w'.refs ⟨1⟩ = 0 ∧
      (w'.mailbox ⟨1⟩).accepted = w₀.envelopes ⟨1⟩ drains ∧
      w₀.envelopes ⟨1⟩ drains = [.msg ()] := by
  have hspawn : (init : Runtime Unit Unit).step (.spawn .default () none) =
      some ((init.step (.spawn .default () none)).get rfl) := rfl
  have hsome : (((init : Runtime Unit Unit).step (.spawn .default () none)).get rfl |>.run
      drains).isSome := rfl
  have hrun := (Option.some_get hsome).symm
  obtain ⟨hrefs, haccepted⟩ := (exit_accounts ⟨[], rfl⟩ hspawn hrun rfl rfl).2.2 rfl
  exact ⟨_, _, hspawn, hrun, rfl, hrefs, haccepted, rfl⟩

end Runtime

end LaneSwitchboards
