import LaneSwitchboards.Actor.History

/-!
# The callbacks of an actor, in order

The event loop polls two channels, awaits its callbacks in between and has many ways out. What a
user sees of it is the sequence of calls, each on the implementation that is current then. It is
that of a sequential program (`script`): one envelope after the other, `on_handle_begin` for a
message, then `handle` if that returned `Ok`, then `on_handle_stuck` if that timed out; at the end
`post_stop`.

* `Follows.step`: every step calls what the program calls next.
* `closing_step`: after the first event that ends the loop, nothing but `post_stop` is called.
* `callbacks_spec`: the calls of every run without an escaping panic.
-/

namespace LaneSwitchboards

open Transition

variable {M A : Type}

/-- A callback of the user. -/
inductive Callback (M : Type)
  | preStart
  | handleBegin (m : M)
  | handle (m : M)
  | handleStuck
  | onUpgrade
  | postStop
deriving DecidableEq

namespace Phase

/-- The callback that the task awaits. -/
def callback : Phase M → Option (Callback M)
  | preStart => some .preStart
  | handleBegin m => some (.handleBegin m)
  | handle m => some (.handle m)
  | handleStuck _ _ => some .handleStuck
  | onUpgrade => some .onUpgrade
  | postStop _ => some .postStop
  | _ => none

/-- The loop is being left, or was left. -/
def closing : Phase M → Bool
  | handleStuck _ _ => true
  | p => !p.running

end Phase

namespace Input

/-- `on_handle_begin` returns `Ok`. -/
def begun : Input M A → Bool
  | .handleBegin (.ok _) => true
  | _ => false

/-- `handle` is over its limit. -/
def timedOut : Input M A → Bool
  | .timeout _ => true
  | _ => false

/-- The input has no part in the calls for a message. -/
def plain (x : Input M A) : Prop := x.taken = none ∧ x.begun = false ∧ x.timedOut = false

/-- The input takes something from one of the two channels. -/
def takes : Input M A → Bool
  | .control (some _) _ | .envelope (some _) => true
  | _ => false

/-- The input ends the loop. -/
def terminates : Input M A → Bool
  | .control none _ | .control (some (.linkedExit _ _)) false => true
  | .envelope none | .envelope (some .stop) | .envelope (some .kill) => true
  | .handleBegin (.error _) | .handle (.err _) _ | .handle .panicked _ | .timeout _ => true
  | .onUpgrade (.error _) => true
  | _ => false

/-- The input belongs to an `Upgrade`. -/
def upgrades : Input M A → Bool
  | .envelope (some (.upgrade _)) | .onUpgrade _ => true
  | _ => false

end Input

namespace Task

/-- The call that the task has just made: the callback and the implementation. -/
def call (t : Task M A) : Option (A × Callback M) := t.phase.callback.map (t.actor, ·)

/-- The calls that a task makes, in order. -/
def calls (t : Task M A) (xs : List (Input M A)) : List (A × Callback M) :=
  trace step (fun _ _ t' => t'.call.toList) t xs

end Task

/-! ### The sequential program -/

/-- An envelope with what the task has observed since, up to the next one. -/
abbrev Job (M A : Type) := Envelope M A × List (Input M A)

/-- The envelopes that a task takes, each with what follows. -/
def jobs (xs : List (Input M A)) : List (Job M A) := (blocks Input.taken xs).2

/-- The calls for an envelope, on the implementation that is current when it is taken. -/
def Job.calls (a : A) : Job M A → List (A × Callback M)
  | (.msg m, xs) =>
    (a, .handleBegin m) ::
      if xs.any Input.begun then
        (a, .handle m) :: if xs.any Input.timedOut then [(a, .handleStuck)] else []
      else []
  | (.upgrade newImpl, _) => [(newImpl, .onUpgrade)]
  | _ => []

/-- The implementation after an envelope. -/
def Job.impl (a : A) : Job M A → A
  | (.upgrade newImpl, _) => newImpl
  | _ => a

/-- The implementation after some envelopes: that of the last `Upgrade` among them. -/
def current (a : A) (js : List (Job M A)) : A := js.foldl Job.impl a

/-- The calls for some envelopes, one after the other. -/
def script (a : A) : List (Job M A) → List (A × Callback M)
  | [] => []
  | j :: js => j.calls a ++ script (j.impl a) js

section Script

variable {a : A} {js : List (Job M A)} {j : Job M A} {e : Envelope M A} {xs ys : List (Input M A)}
  {x : Input M A}

theorem current_concat : current a (js ++ [j]) = j.impl (current a js) := by
  simp [current]

theorem script_concat : script a (js ++ [j]) = script a js ++ j.calls (current a js) := by
  induction js generalizing a with
  | nil => simp [script, current]
  | cons k js ih =>
    rw [List.cons_append, script, script, ih, List.append_assoc]
    rfl

/-- An envelope opens a job. -/
theorem jobs_concat_of_taken (hx : x.taken = some e) : jobs (xs ++ [x]) = jobs xs ++ [(e, [])] := by
  rw [jobs, blocks_concat_of_some hx]
  rfl

/-- Any other input belongs to the last job. -/
theorem jobs_concat (hx : x.taken = none) (hjobs : jobs xs = js ++ [(e, ys)]) :
    jobs (xs ++ [x]) = js ++ [(e, ys ++ [x])] := by
  rw [jobs, blocks_concat_of_none hx hjobs]

theorem jobs_concat_of_nil (hx : x.taken = none) (hjobs : jobs xs = []) :
    jobs (xs ++ [x]) = [] := by
  rw [jobs, blocks_concat_of_nil hx hjobs]

/-- A plain input changes no call. -/
theorem script_concat_of_plain (a : A) (xs : List (Input M A)) (hx : x.plain) :
    script a (jobs (xs ++ [x])) = script a (jobs xs) ∧
    current a (jobs (xs ++ [x])) = current a (jobs xs) := by
  obtain ⟨htaken, hbegun, htimedOut⟩ := hx
  obtain hnil | ⟨js, ⟨e, ys⟩, hjobs⟩ := List.eq_nil_or_concat (jobs xs)
  · rw [jobs_concat_of_nil htaken hnil, hnil]
    exact ⟨rfl, rfl⟩
  · rw [List.concat_eq_append] at hjobs
    rw [jobs_concat htaken hjobs, hjobs, script_concat, script_concat, current_concat,
      current_concat]
    cases e <;> simp [Job.calls, Job.impl, hbegun, htimedOut]

end Script

/-! ### The calls of a step -/

/-- What a step of a task means for its calls. -/
inductive CallMove (t : Task M A) (x : Input M A) (t' : Task M A) : Prop
  | start (hp : t.phase = .spawned) (hx : x.plain) (ht' : t' = { t with phase := .preStart })
  /-- An envelope is taken. -/
  | take (e : Envelope M A) (hp : t.phase = .pollMailbox) (hx : x.taken = some e)
      (ht' : t' = t.recvEnvelope (some e))
  | begun (m : M) (hp : t.phase = .handleBegin m) (hx : x.taken = none) (hbegun : x.begun = true)
      (htimedOut : x.timedOut = false) (ht' : t' = { t with phase := .handle m })
  | stuck (m : M) (elapsed limit : Duration) (hp : t.phase = .handle m) (hx : x.taken = none)
      (hbegun : x.begun = false) (htimedOut : x.timedOut = true)
      (ht' : t' = { t with phase := .handleStuck elapsed limit })
  /-- The loop is left. -/
  | leave (r : ExitReason) (hp : t.phase.started = true) (hend : t.phase.termination = none)
      (hx : x.plain) (ha : t'.actor = t.actor) (hp' : t'.phase = .postStop r)
  /-- Nothing is called. -/
  | quiet (hp : t.phase.started = true) (hx : x.plain) (ha : t'.actor = t.actor)
      (hp' : t'.phase.started = true) (hcall : t'.phase.callback = none)
      (hend : t'.phase.termination.isSome = t.phase.termination.isSome)
  /-- `pre_start` fails, or a panic escapes. -/
  | failed (hx : x = .panicked ∨ ∃ e, x = .preStart (.error e))

namespace Task

variable {t t' : Task M A} {x : Input M A}

theorem call_insertLink (peer : ActorId) : (t.insertLink peer).phase.callback = none ∧
    (t.insertLink peer).phase.started = true ∧ (t.insertLink peer).actor = t.actor := by
  unfold insertLink
  split <;> exact ⟨rfl, rfl, rfl⟩

theorem calls_insertLink {peer : ActorId} (hp : t.phase.started = true)
    (hend : t.phase.termination = none) (hx : x.plain) : CallMove t x (t.insertLink peer) := by
  unfold insertLink
  split <;> exact .quiet hp hx rfl rfl rfl (by rw [hend]; rfl)

theorem calls_recvControl {m : Option ControlMsg} {trap : Bool} (hp : t.phase = .select) :
    CallMove t (.control m trap : Input M A) (t.recvControl trap m) := by
  have hstarted : t.phase.started = true := by rw [hp]; rfl
  have hend : t.phase.termination = none := by rw [hp]; rfl
  rcases m with _ | peer | ⟨p, r⟩
  · exact .leave .normal hstarted hend ⟨rfl, rfl, rfl⟩ rfl rfl
  · exact calls_insertLink hstarted hend ⟨rfl, rfl, rfl⟩
  · cases trap with
    | true => exact .quiet hstarted ⟨rfl, rfl, rfl⟩ rfl rfl rfl (by rw [hend]; rfl)
    | false => exact .leave (.linked p r) hstarted hend ⟨rfl, rfl, rfl⟩ rfl rfl

theorem calls_recvEnvelope {e : Option (Envelope M A)} (hp : t.phase = .pollMailbox) :
    CallMove t (.envelope e) (t.recvEnvelope e) := by
  cases e with
  | none => exact .leave .normal (by rw [hp]; rfl) (by rw [hp]; rfl) ⟨rfl, rfl, rfl⟩ rfl rfl
  | some e => exact .take e hp rfl rfl

/-- **Inversion of a step**, for the calls. -/
theorem step_calls (h : t.step x = some t') : CallMove t x t' := by
  unfold step at h
  split at h
  all_goals try cases h
  all_goals try
    (next hp =>
      exact .quiet (by rw [hp]; rfl) ⟨rfl, rfl, rfl⟩ rfl rfl rfl (by rw [hp]; rfl))
  all_goals try
    (next hp => exact .leave _ (by rw [hp]; rfl) (by rw [hp]; rfl) ⟨rfl, rfl, rfl⟩ rfl rfl)
  · next hp => exact .start hp ⟨rfl, rfl, rfl⟩ rfl
  · exact .failed (Or.inr ⟨_, rfl⟩)
  · next hp => exact calls_recvControl hp
  · next hp => exact calls_recvEnvelope hp
  · next hp => exact .begun _ hp rfl rfl rfl rfl
  · next o _ hp =>
    cases o <;> exact .quiet (by rw [hp]; rfl) ⟨rfl, rfl, rfl⟩ rfl rfl rfl (by rw [hp]; rfl)
  · next hp =>
    split at h <;> cases h
    exact .stuck _ _ _ hp rfl rfl rfl rfl
  · next r _ hp =>
    unfold stopped
    cases shouldPropagateLinkedExit r <;>
      exact .quiet (by rw [hp]; rfl) ⟨rfl, rfl, rfl⟩ rfl rfl rfl (by rw [hp]; rfl)
  · next hp =>
    split at h <;> cases h
    exact .quiet (by rw [hp]; rfl) ⟨rfl, rfl, rfl⟩ rfl rfl rfl (by rw [hp]; rfl)
  · next hp =>
    split at h <;> cases h
    exact .quiet (by rw [hp]; rfl) ⟨rfl, rfl, rfl⟩ rfl rfl rfl (by rw [hp]; rfl)
  · split at h <;> cases h
    exact .failed (Or.inl rfl)

/-! ### Every run -/

/-- The invariant of a run: the calls so far are those of the program, and of the message that is
being handled it is known how far its calls are. -/
structure Follows (a : A) (xs : List (Input M A)) (cs : List (A × Callback M)) (t : Task M A) :
    Prop where
  calls : cs = (if t.phase.started then [(a, .preStart)] else []) ++ script a (jobs xs) ++
    if t.phase.termination.isSome then [(t.actor, .postStop)] else []
  actor : t.actor = current a (jobs xs)
  spawned : t.phase = .spawned → jobs xs = []
  handleBegin : ∀ m, t.phase = .handleBegin m → ∃ js ys, jobs xs = js ++ [(.msg m, ys)] ∧
    ys.any Input.begun = false ∧ ys.any Input.timedOut = false
  handle : ∀ m, t.phase = .handle m → ∃ js ys, jobs xs = js ++ [(.msg m, ys)] ∧
    ys.any Input.begun = true ∧ ys.any Input.timedOut = false

variable {a : A} {xs : List (Input M A)} {cs : List (A × Callback M)}

/-- A step into a phase in which no message is handled. -/
theorem Follows.of_phase (hcalls : cs = (if t'.phase.started then [(a, .preStart)] else []) ++
      script a (jobs xs) ++ if t'.phase.termination.isSome then [(t'.actor, .postStop)] else [])
    (hactor : t'.actor = current a (jobs xs)) (hstarted : t'.phase.started = true)
    (hbegin : ∀ m, t'.phase.callback ≠ some (.handleBegin m))
    (hhandle : ∀ m, t'.phase.callback ≠ some (.handle m)) : Follows a xs cs t' where
  calls := hcalls
  actor := hactor
  spawned hp := by
    rw [hp] at hstarted
    cases hstarted
  handleBegin m hp := absurd (by rw [hp]; rfl) (hbegin m)
  handle m hp := absurd (by rw [hp]; rfl) (hhandle m)

/-- A step that takes an envelope. -/
theorem Follows.take (hf : Follows a xs cs t) {e : Envelope M A} (hp : t.phase = .pollMailbox)
    (hx : x.taken = some e) :
    Follows a (xs ++ [x]) (cs ++ (t.recvEnvelope (some e)).call.toList)
      (t.recvEnvelope (some e)) := by
  have hjobs : jobs (xs ++ [x]) = jobs xs ++ [(e, [])] := jobs_concat_of_taken hx
  have hcalls : cs = (a, .preStart) :: script a (jobs xs) := by
    rw [hf.calls, hp]
    exact List.append_nil _
  have hscript : script a (jobs (xs ++ [x])) = script a (jobs xs) ++ Job.calls t.actor (e, []) := by
    rw [hjobs, script_concat, ← hf.actor]
  have hcurrent : current a (jobs (xs ++ [x])) = Job.impl t.actor (e, []) := by
    rw [hjobs, current_concat, ← hf.actor]
  cases e with
  | msg m =>
    refine ⟨?_, hcurrent.symm, fun hp' => (by cases hp'), fun m' hp' => ?_,
      fun _ hp' => (by cases hp')⟩
    · rw [hscript, hcalls, ← List.append_assoc]
      exact (List.append_nil _).symm
    · cases hp'
      exact ⟨jobs xs, [], hjobs, rfl, rfl⟩
  | link peer =>
    obtain ⟨hcall, hstarted, hactor⟩ := call_insertLink (t := t) peer
    have hrun := running_insertLink (t := t) peer
    refine .of_phase ?_ (hactor.trans hcurrent.symm) hstarted (fun _ => ?_) fun _ => ?_
    · rw [hscript, hcalls, recvEnvelope, hstarted, Phase.termination_of_running hrun, call, hcall]
      simp [Job.calls]
    · rw [recvEnvelope, hcall]
      exact fun h => by cases h
    · rw [recvEnvelope, hcall]
      exact fun h => by cases h
  | upgrade newImpl | stop | kill | _ =>
    refine .of_phase ?_ hcurrent.symm rfl (fun _ h => (by cases h)) fun _ h => (by cases h)
    rw [hscript, hcalls]
    simp [recvEnvelope, exit, call, Job.calls, Phase.started, Phase.termination, Phase.callback]

/-- **Every step** that does not fail calls what the program calls next. -/
theorem Follows.step (hf : Follows a xs cs t) (h : t.step x = some t') (hpanic : x ≠ .panicked)
    (hstart : ∀ e, x ≠ .preStart (.error e)) :
    Follows a (xs ++ [x]) (cs ++ t'.call.toList) t' := by
  cases step_calls h with
  | start hp hx ht' =>
    subst ht'
    have hnil := hf.spawned hp
    have hnil' := jobs_concat_of_nil hx.1 hnil
    have hcalls := hf.calls
    have hactor := hf.actor
    rw [hnil] at hactor hcalls
    rw [hp] at hcalls
    refine .of_phase ?_ (by rw [hnil']; exact hactor) rfl (fun _ => ?_) fun _ => ?_
    · rw [hnil', hcalls, hactor]
      rfl
    · exact fun h => by cases h
    · exact fun h => by cases h
  | take e hp hx ht' =>
    subst ht'
    exact hf.take hp hx
  | begun m hp hx hbegun htimedOut ht' =>
    subst ht'
    obtain ⟨js, ys, hjobs, hnot, hnotOut⟩ := hf.handleBegin m hp
    have hjobs' := jobs_concat hx hjobs
    have hactor : t.actor = current a js := by
      rw [hf.actor, hjobs, current_concat]
      rfl
    refine ⟨?_, ?_, fun hp' => (by cases hp'), fun _ hp' => (by cases hp'), fun m' hp' => ?_⟩
    · rw [hf.calls, hjobs, hjobs', script_concat, script_concat, hp]
      simp [Job.calls, hnot, hbegun, htimedOut, hnotOut, call, hactor, Phase.started,
        Phase.termination, Phase.callback]
    · rw [hjobs', current_concat]
      exact hactor
    · cases hp'
      exact ⟨js, ys ++ [x], hjobs', by simp [hbegun], by simp [hnotOut, htimedOut]⟩
  | stuck m elapsed limit hp hx hbegun htimedOut ht' =>
    subst ht'
    obtain ⟨js, ys, hjobs, hyes, hnotOut⟩ := hf.handle m hp
    have hjobs' := jobs_concat hx hjobs
    have hactor : t.actor = current a js := by
      rw [hf.actor, hjobs, current_concat]
      rfl
    refine .of_phase ?_ ?_ rfl (fun _ => ?_) fun _ => ?_
    · rw [hf.calls, hjobs, hjobs', script_concat, script_concat, hp]
      simp [Job.calls, hyes, htimedOut, hnotOut, call, hactor, Phase.started,
        Phase.termination, Phase.callback]
    · rw [hjobs', current_concat]
      exact hactor
    · exact fun h => by cases h
    · exact fun h => by cases h
  | leave r hp hend hx ha hp' =>
    obtain ⟨hscript, hcurrent⟩ := script_concat_of_plain a xs hx
    have hcalls := hf.calls
    rw [if_pos hp, hend] at hcalls
    refine .of_phase ?_ (by rw [ha, hcurrent, hf.actor]) (by rw [hp']; rfl) (fun _ => ?_)
      fun _ => ?_
    · rw [hscript, hcalls, hp']
      simp [call, hp', Phase.started, Phase.termination, Phase.callback]
    · rw [hp']
      exact fun h => by cases h
    · rw [hp']
      exact fun h => by cases h
  | quiet hp hx ha hp' hcall hend =>
    obtain ⟨hscript, hcurrent⟩ := script_concat_of_plain a xs hx
    refine .of_phase ?_ (by rw [ha, hcurrent, hf.actor]) hp' (fun _ => ?_) fun _ => ?_
    · rw [hscript, hf.calls, if_pos hp, if_pos hp', ha, hend]
      simp [call, hcall]
    · rw [hcall]
      exact fun h => by cases h
    · rw [hcall]
      exact fun h => by cases h
  | failed hx =>
    rcases hx with hx | ⟨e, hx⟩
    · exact absurd hx hpanic
    · exact absurd hx (hstart e)

/-- The calls of a run are those of the program. -/
theorem follows_run {config : ActorConfig} (h : (initial config a).run xs = some t)
    (hpanic : .panicked ∉ xs) (hstart : ∀ e, .preStart (.error e) ∉ xs) :
    Follows a xs ((initial config a).calls xs) t := by
  revert hpanic hstart
  refine run_induction (motive := fun xs t => .panicked ∉ xs → (∀ e, .preStart (.error e) ∉ xs) →
    Follows a xs ((initial config a).calls xs) t) (fun _ _ => ?_) ?_ h
  · exact ⟨rfl, rfl, fun _ => rfl, fun _ hp => (by cases hp), fun _ hp => (by cases hp)⟩
  · intro xs t x t' hrun ih hst hpanic hstart
    simp only [List.mem_append, List.mem_singleton, not_or] at hpanic hstart
    have hf := ih hpanic.1 fun e => (hstart e).1
    rw [calls, trace_concat hrun hst]
    exact hf.step hst (fun hx => hpanic.2 hx.symm) fun e hx => (hstart e).2 hx.symm

/-! ### The end of the loop -/

theorem closing_of_terminates (h : t.step x = some t') (hx : x.terminates = true) :
    t'.phase.closing = true := by
  unfold step at h
  split at h
  all_goals try cases h
  all_goals try cases hx
  all_goals try rfl
  · next m trap _ =>
    rcases m with _ | peer | ⟨peer, r⟩
    · rfl
    · cases hx
    · cases trap with
      | true => cases hx
      | false => rfl
  · next e _ =>
    rcases e with _ | e
    · rfl
    · cases e <;> first | rfl | cases hx
  · next o _ _ => cases o <;> first | rfl | cases hx
  · split at h <;> cases h
    rfl

/-- **After the loop was ended** nothing is taken, and nothing but `post_stop` is called. -/
theorem closing_step (h : t.step x = some t') (hp : t.phase.closing = true) :
    t'.phase.closing = true ∧ x.takes = false ∧ ∀ c, t'.call = some c → c.2 = .postStop := by
  unfold step at h
  split at h
  all_goals try cases h
  all_goals try (next heq => rw [heq] at hp; cases hp)
  all_goals try exact ⟨rfl, rfl, fun _ hc => (by cases hc <;> rfl)⟩
  · next r _ _ =>
    unfold stopped
    cases shouldPropagateLinkedExit r <;> exact ⟨rfl, rfl, fun _ hc => (by cases hc)⟩
  · split at h <;> cases h
    exact ⟨rfl, rfl, fun _ hc => (by cases hc)⟩
  · split at h <;> cases h
    exact ⟨rfl, rfl, fun _ hc => (by cases hc)⟩
  · split at h <;> cases h
    exact ⟨rfl, rfl, fun _ hc => (by cases hc)⟩

theorem closing_run (h : t.run xs = some t') (hp : t.phase.closing = true) :
    (∀ x ∈ xs, x.takes = false) ∧ ∀ c ∈ t.calls xs, c.2 = .postStop := by
  induction xs generalizing t with
  | nil => exact ⟨fun _ hx => (by cases hx), fun _ hc => (by cases hc)⟩
  | cons x xs ih =>
    obtain ⟨u, hu, hrest⟩ := Option.bind_eq_some_iff.mp h
    obtain ⟨hp', htakes, hcall⟩ := closing_step hu hp
    obtain ⟨hxs, hcs⟩ := ih hrest hp'
    refine ⟨fun y hy => ?_, fun c hc => ?_⟩
    · rcases List.mem_cons.mp hy with rfl | hy
      · exact htakes
      · exact hxs y hy
    · rw [calls, trace_cons_of_step hu] at hc
      rcases List.mem_append.mp hc with hc | hc
      · exact hcall c (Option.mem_toList.mp hc)
      · exact hcs c hc

/-- An `Upgrade` leaves the links and the monitors alone. -/
theorem step_upgrade (h : t.step x = some t') (hx : x.upgrades = true) :
    t'.links = t.links ∧ t'.monitors = t.monitors := by
  unfold step at h
  split at h
  all_goals try cases h
  all_goals try cases hx
  all_goals try exact ⟨rfl, rfl⟩
  · next e _ =>
    rcases e with _ | e
    · cases hx
    · cases e <;> first | exact ⟨rfl, rfl⟩ | cases hx

end Task

namespace Runtime

variable {w w' w₀ : Runtime M A} {es : List (RtEvent M A)}

/-- **The callbacks of an actor.** For every actor, every run of the runtime, in which its
`pre_start` does not fail and no panic escapes from a callback, and with what the actor has
observed until then:

* the envelopes it has taken are the first ones of its mailbox, in order;
* its calls are those of the sequential program for these envelopes, after `pre_start` and before
  `post_stop`, which is called when the loop is left, on the implementation that is current then;
* after an input that ends the loop it takes nothing more, and calls nothing but `post_stop`;
* an `Upgrade` leaves its links and monitors alone. -/
theorem callbacks_spec {config : ActorConfig} {actor : A} {supervisor : Option SupId}
    (hw : w.Reachable) (hspawn : w.step (.spawn config actor supervisor) = some w₀)
    (hrun : w₀.run es = some w') (hpanic : .panicked ∉ w₀.inputs ⟨w.nextId⟩ es)
    (hstart : ∀ e, .preStart (.error e) ∉ w₀.inputs ⟨w.nextId⟩ es) :
    ∃ t, w'.tasks ⟨w.nextId⟩ = some t ∧
      let t₀ : Task M A := .initial config actor
      let xs := w₀.inputs ⟨w.nextId⟩ es
      (jobs xs).map Prod.fst <+: (w'.mailbox ⟨w.nextId⟩).accepted ∧
      t₀.calls xs = (if t.phase.started then [(actor, .preStart)] else []) ++
        script actor (jobs xs) ++
        (if t.phase.termination.isSome then [(current actor (jobs xs), .postStop)] else []) ∧
      (∀ ys x zs t₁, xs = ys ++ x :: zs → x.terminates = true → t₀.run (ys ++ [x]) = some t₁ →
        (∀ z ∈ zs, z.takes = false) ∧ ∀ c ∈ t₁.calls zs, c.2 = .postStop) ∧
      Along Task.step (fun t x t' => x.upgrades = true →
        t'.links = t.links ∧ t'.monitors = t.monitors) t₀ xs := by
  have hf := (hw.step hspawn).fresh
  obtain ⟨ht₀, hempty, -⟩ := spawned_spec hspawn
  obtain ⟨t, ht, htask⟩ := run_inputs hf ht₀ hrun
  obtain ⟨hfirst, -⟩ := envelopes_spec hf ht₀ hempty hrun
  have hfollows := Task.follows_run ht hpanic hstart
  refine ⟨t, htask, ?_, ?_, fun ys x zs t₁ hxs hx ht₁ => ?_, ?_⟩
  · rw [jobs, map_fst_blocks]
    exact hfirst
  · rw [← hfollows.actor]
    exact hfollows.calls
  · obtain ⟨u, -, hu⟩ := run_concat.mp ht₁
    rw [hxs, List.append_cons] at ht
    obtain ⟨s, hs, hzs⟩ := Option.bind_eq_some_iff.mp (run_append.symm.trans ht)
    obtain rfl : t₁ = s := Option.some.inj (ht₁.symm.trans hs)
    exact Task.closing_run hzs (Task.closing_of_terminates hu hx)
  · exact along_of_invariant (P := fun _ => True) (Q := fun _ _ _ => True)
      (fun _ _ hst => ⟨trivial, Task.step_upgrade hst⟩) trivial
      (along_of_forall fun _ _ _ _ => trivial)

/-- An actor handles a message, is upgraded, and handles another one for too long. -/
def upgraded : List (RtEvent Unit ℕ) :=
  let steps : List Choice := [.poll, .preStart (.ok ()),
    .recvControl false, .recvMailbox, .handleBegin (.ok ()), .handle .ok 0,
    .recvControl false, .recvMailbox, .onUpgrade (.ok ()),
    .recvControl false, .recvMailbox, .handleBegin (.ok ()), .timeout 10, .handleStuck (.ok ()),
    .lookup, .postStop (.ok ()), .linksDone, .unregister, .finish]
  [.msg (), .upgrade 1, .msg ()].map (.post ⟨1⟩) ++ steps.map (.task ⟨1⟩)

/-- The same actor at its spawn. -/
def upgradable : Runtime Unit ℕ := (init.step (.spawn ⟨4, some 10, none⟩ 0 none)).get rfl

/-- The calls of that actor. -/
theorem callbacks_spec_upgraded : ∃ w₀ w' : Runtime Unit ℕ,
    init.step (.spawn ⟨4, some 10, none⟩ 0 none) = some w₀ ∧ w₀.run upgraded = some w' ∧
    (Task.initial ⟨4, some 10, none⟩ 0).calls (w₀.inputs ⟨1⟩ upgraded) =
      [(0, .preStart), (0, .handleBegin ()), (0, .handle ()), (1, .onUpgrade),
        (1, .handleBegin ()), (1, .handle ()), (1, .handleStuck), (1, .postStop)] := by
  have hspawn : init.step (.spawn ⟨4, some 10, none⟩ 0 none) = some upgradable := rfl
  have hrun : upgradable.run upgraded = some ((upgradable.run upgraded).get rfl) := rfl
  refine ⟨_, _, hspawn, hrun, ?_⟩
  have hinputs : upgradable.inputs ⟨1⟩ upgraded = [.poll, .preStart (.ok ()), .controlEmpty,
      .envelope (some (.msg ())), .handleBegin (.ok ()), .handle .ok 0, .controlEmpty,
      .envelope (some (.upgrade 1)), .onUpgrade (.ok ()), .controlEmpty,
      .envelope (some (.msg ())), .handleBegin (.ok ()), .timeout 10, .handleStuck (.ok ()),
      .supervisor none, .postStop (.ok ()), .linksDone, .unregistered, .finished] := rfl
  have hpanic : .panicked ∉ upgradable.inputs ⟨1⟩ upgraded := by simp [hinputs]
  have hstart : ∀ e, .preStart (.error e) ∉ upgradable.inputs ⟨1⟩ upgraded := by simp [hinputs]
  obtain ⟨t, ht, -, hcalls, -⟩ := callbacks_spec ⟨[], rfl⟩ hspawn hrun hpanic hstart
  obtain rfl := Option.some.inj ht
  exact hcalls

end Runtime

end LaneSwitchboards
