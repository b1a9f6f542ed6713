import LaneSwitchboards.Cluster.Roster
import LaneSwitchboards.Lib.Trace
import LaneSwitchboards.Remote.Writer

/-!
# Sends through the references that somebody holds

An owner, a roster or a mesh, holds references to remote actors, each with a write loop behind it.
Its calls send to one reference after the other and await room in the queue of each; its users hold
clones of references besides. The owner changes its references while nobody is calling, and the
write loops go on at any time, over a network that may fail as it likes.

A send returns an error only on a closed queue, and a write loop closes its queue only when the
last reference to it is gone. So no send of a call fails on a reference of the owner (`Flowing`),
whatever the network does: it puts its message into the queue, or waits.
-/

namespace LaneSwitchboards

open Function Transition

variable {M R : Type}

/-- Why a send operation returns an error. -/
inductive SendError
  /-- `"cluster has no members"`. -/
  | noMembers
  /-- `"remote peer write channel closed"`. -/
  | writeChannelClosed
  /-- `"unknown service: …"`. -/
  | unknownService (service : String)
deriving DecidableEq

/-- What a send operation returns. -/
inductive SendAnswer
  | each (results : List (String × Except SendError Unit))
  | one (result : Except SendError Unit)

/-- All sends of the call were successful. -/
def SendAnswer.Succeeds : SendAnswer → Prop
  | .each results => ∀ p ∈ results, p.2 = .ok ()
  | .one result => result = .ok ()

/-- A call of a send operation. -/
structure SendCall (M R : Type) where
  request : R
  msg : M
  /-- The references it sends to, each under the name that its result is listed under. -/
  destinations : List (String × WriterId)
  todo : List (String × WriterId)
  results : List (String × Except SendError Unit)

abbrev CallerNo := ℕ

/-- Write loops, the clones of references to them and the calls under way. -/
structure Traffic (M R : Type) where
  writers : WriterId → Option (Writer M)
  nextWriter : WriterId
  clones : WriterId → ℕ
  calls : CallerNo → Option (SendCall M R)
  nextCall : CallerNo

/-- One event of the calls and the write loops. -/
inductive TrafficEvent (M : Type)
  /-- The send that a call awaits returns. -/
  | sent (k : CallerNo)
  | ret (k : CallerNo)
  /-- The future of a call is dropped. -/
  | cancel (k : CallerNo)
  /-- A reference is cloned. -/
  | clone (w : WriterId)
  | dropClone (w : WriterId)
  /-- A send through a clone returns `Ok`. -/
  | post (w : WriterId) (msg : M)
  | loop (w : WriterId) (e : WriterEvent M)

/-- The steps of `remote_write_loop`. -/
def WriterEvent.ofLoop : WriterEvent M → Bool
  | .send _ | .cloneRef | .dropRef => false
  | _ => true

/-- A reference to a write loop is dropped. -/
def Writer.release (w : Writer M) : Writer M := { w with senders := w.senders - 1 }

/-- One of the references leads to the write loop. -/
def holds (refs : List RemoteActorRef) (w : WriterId) : Bool := refs.any (·.writer = w)

namespace Traffic

/-- Nothing was sent yet. -/
def start : Traffic M R := ⟨fun _ => none, 0, fun _ => 0, fun _ => none, 0⟩

/-- Nobody is calling. -/
def idle (s : Traffic M R) : Bool := (List.range s.nextCall).all fun k => (s.calls k).isNone

/-- Replace a write loop. -/
def setWriter (s : Traffic M R) (w : WriterId) (writer : Writer M) : Traffic M R :=
  { s with writers := update s.writers w (some writer) }

/-- A step of a write loop, or of a reference to it. -/
def onWriter (s : Traffic M R) (w : WriterId) (e : WriterEvent M) : Option (Traffic M R) :=
  (s.writers w).bind fun writer => (writer.step e).map (s.setWriter w)

/-- Replace a call. -/
def setCall (s : Traffic M R) (k : CallerNo) (call : Option (SendCall M R)) : Traffic M R :=
  { s with calls := update s.calls k call }

/-- The owner of the references `old` holds `new` from now on. It drops those that it holds no
longer; those with a number from `nextWriter` on are new, each with a write loop to its target. -/
def hold (s : Traffic M R) (old new : List RemoteActorRef) (config : DistributedConfig)
    (next : WriterId) : Traffic M R :=
  { s with
    writers := fun w =>
      if w < s.nextWriter then
        if holds old w && !holds new w then (s.writers w).map Writer.release else s.writers w
      else (new.find? (·.writer = w)).map fun r => .withConfig r.target config
    nextWriter := next }

/-- A call begins. -/
def begin (s : Traffic M R) (request : R) (msg : M) (destinations : List (String × WriterId)) :
    Traffic M R :=
  { s.setCall s.nextCall (some ⟨request, msg, destinations, destinations, []⟩) with
    nextCall := s.nextCall + 1 }

/-- The send that a call awaits returns: the queue has taken the message, or is closed. -/
def sent (s : Traffic M R) (k : CallerNo) : Option (Traffic M R) :=
  (s.calls k).bind fun call =>
    match call.todo with
    | [] => none
    | (name, w) :: todo => (s.writers w).bind fun writer =>
      (writer.queue.send call.msg).map fun queue =>
        let result := if writer.queue.isOpen then .ok () else .error .writeChannelClosed
        (s.setWriter w { writer with queue := queue }).setCall k
          (some { call with todo := todo, results := call.results ++ [(name, result)] })

/-- One event, where the owner holds `refs`; `none` where it is not enabled. -/
def step (refs : List RemoteActorRef) (s : Traffic M R) : TrafficEvent M → Option (Traffic M R)
  | .sent k => s.sent k
  | .ret k => (s.calls k).bind fun call =>
    if call.todo = [] then some (s.setCall k none) else none
  | .cancel k => some (s.setCall k none)
  | .clone w =>
    if holds refs w = true ∨ 0 < s.clones w then
      (s.onWriter w .cloneRef).map fun s' =>
        { s' with clones := update s.clones w (s.clones w + 1) }
    else none
  | .dropClone w =>
    if 0 < s.clones w then
      (s.onWriter w .dropRef).map fun s' => { s' with clones := update s.clones w (s.clones w - 1) }
    else none
  | .post w msg => if 0 < s.clones w then s.onWriter w (.send msg) else none
  | .loop w e => if e.ofLoop then s.onWriter w e else none

/-- The message that an event puts into a queue, with the call that it belongs to. -/
def puts (s : Traffic M R) : TrafficEvent M → List (Option CallerNo × WriterId × M)
  | .sent k => (s.calls k).toList.flatMap fun call => (call.todo.head?).toList.flatMap fun (_, w) =>
      if (s.writers w).any (·.queue.isOpen) then [(some k, w, call.msg)] else []
  | .post w msg => [(none, w, msg)]
  | _ => []

/-- The call that an event returns from. -/
def returning (s : Traffic M R) : TrafficEvent M → List (CallerNo × SendCall M R)
  | .ret k => (s.calls k).toList.map fun call => (k, call)
  | _ => []

end Traffic

/-! ### A write loop and its references -/

/-- The message that an event puts into the queue. -/
def WriterEvent.message : WriterEvent M → List M
  | .send msg => [msg]
  | _ => []

namespace Writer

variable {w w' : Writer M} {e : WriterEvent M}

/-- As long as there is a reference to it, a write loop runs and its queue is open. -/
def Live (w : Writer M) : Prop := 0 < w.senders → w.queue.isOpen = true ∧ w.phase ≠ .ended

theorem live_withConfig {target : String} {config : DistributedConfig} :
    (withConfig target config : Writer M).Live := fun _ => ⟨rfl, nofun⟩

/-- **A write loop ends** only when the last reference is gone. -/
theorem Live.step (hl : w.Live) (h : w.step e = some w') : w'.Live := by
  intro hpos
  cases step_inv h with
  | send hsenders => exact hl hsenders
  | cloneRef hsenders => exact hl hsenders
  | dropRef => exact hl (hpos.trans_le (Nat.sub_le ..))
  | connected => exact ⟨(hl hpos).1, nofun⟩
  | connectFailed => exact hl hpos
  | giveUp hphase hsenders => exact absurd hpos (by simp [finish, hsenders])
  | recv hphase hrecv => exact ⟨(Chan.isOpen_recv hrecv).trans (hl hpos).1, nofun⟩
  | recvNone hphase hqueue hsenders => exact absurd hpos (by simp [finish, hsenders])
  | written | writeFailed => exact ⟨(hl hpos).1, nofun⟩

theorem Live.release (hl : w.Live) : w.release.Live :=
  fun hpos => hl (hpos.trans_le (Nat.sub_le ..))

theorem accepted_of_step (h : w.step e = some w') :
    w'.queue.accepted = w.queue.accepted ++ e.message := by
  cases step_inv h with
  | send => exact Chan.accepted_push
  | recv hphase hrecv => rw [Chan.accepted_recv hrecv]; exact (List.append_nil _).symm
  | giveUp | recvNone => rw [finish, Chan.accepted_close]; exact (List.append_nil _).symm
  | _ => exact (List.append_nil _).symm

/-- The steps of the loop itself, and the sends, keep the references. -/
theorem senders_of_step (h : w.step e = some w') :
    (e = .cloneRef ∧ w'.senders = w.senders + 1) ∨ (e = .dropRef ∧ w'.senders = w.senders - 1) ∨
    (e ≠ .cloneRef ∧ e ≠ .dropRef ∧ w'.senders = w.senders) := by
  cases step_inv h with
  | cloneRef => exact Or.inl ⟨rfl, rfl⟩
  | dropRef => exact Or.inr (Or.inl ⟨rfl, rfl⟩)
  | _ => exact Or.inr (Or.inr ⟨nofun, nofun, rfl⟩)

end Writer

namespace Traffic

variable {s s' : Traffic M R} {e : TrafficEvent M} {k : CallerNo} {w : WriterId}
  {refs old new : List RemoteActorRef} {q q' : List (Option CallerNo × WriterId × M)}
  {l : List (CallerNo × SendCall M R)}

/-! ### What was put into the queues -/

/-- What was put into the queue of a write loop. -/
def putInto (w : WriterId) (q : List (Option CallerNo × WriterId × M)) : List M :=
  (q.filter fun p => p.2.1 = w).map fun p => p.2.2

/-- What a call has put into the queues. -/
def putBy (k : CallerNo) (q : List (Option CallerNo × WriterId × M)) : List (WriterId × M) :=
  (q.filter fun p => p.1 = some k).map Prod.snd

theorem putInto_append (w : WriterId) (q q' : List (Option CallerNo × WriterId × M)) :
    putInto w (q ++ q') = putInto w q ++ putInto w q' := by
  simp [putInto]

theorem putBy_append (k : CallerNo) (q q' : List (Option CallerNo × WriterId × M)) :
    putBy k (q ++ q') = putBy k q ++ putBy k q' := by
  simp [putBy]

/-- One message for one queue. -/
theorem putInto_singleton (w w' : WriterId) (o : Option CallerNo) (msg : M) :
    putInto w' [(o, w, msg)] = if w' = w then [msg] else [] := by
  by_cases hw : w' = w <;> simp [putInto, hw, eq_comm]

theorem putBy_singleton (k : CallerNo) (w : WriterId) (o : Option CallerNo) (msg : M) :
    putBy k [(o, w, msg)] = if o = some k then [(w, msg)] else [] := by
  by_cases ho : o = some k <;> simp [putBy, ho]

/-! ### The write loops of the references -/

/-- How many references to a write loop there are. -/
def owned (refs : List RemoteActorRef) (s : Traffic M R) (w : WriterId) : ℕ :=
  (if holds refs w then 1 else 0) + s.clones w

/-- The references to each write loop are the one of the owner and the clones, and its queue has
taken what was put into it. -/
structure Fed (refs : List RemoteActorRef) (q : List (Option CallerNo × WriterId × M))
    (s : Traffic M R) : Prop where
  started : ∀ w, 0 < s.owned refs w → s.writers w ≠ none
  fresh : ∀ w, s.nextWriter ≤ w → s.writers w = none
  unfed : ∀ w, s.writers w = none → putInto w q = []
  writer : ∀ w writer, s.writers w = some writer → writer.Live ∧
    writer.senders = s.owned refs w ∧ writer.queue.accepted = putInto w q

theorem fed_start : (start : Traffic M R).Fed [] [] :=
  ⟨fun w hw => (by cases hw), fun _ _ => rfl, fun _ _ => rfl, fun w writer hw => (by cases hw)⟩

theorem Fed.lt (hf : s.Fed refs q) (hw : 0 < s.owned refs w) : w < s.nextWriter := by
  by_contra hge
  exact hf.started w hw (hf.fresh w (not_lt.mp hge))

theorem owned_pos_of_holds (hw : holds refs w = true) : 0 < s.owned refs w := by
  rw [owned, if_pos hw]
  exact Nat.one_pos.trans_le (Nat.le_add_right ..)

/-- Nobody has a reference to a write loop that has not been started. -/
theorem Fed.owned_eq_zero (hf : s.Fed refs q) (hw : s.nextWriter ≤ w) : s.owned refs w = 0 := by
  by_contra hne
  exact absurd (hf.lt (Nat.pos_of_ne_zero hne)) (not_lt.mpr hw)

/-- A reference to a write loop keeps its queue open. -/
theorem Fed.isOpen (hf : s.Fed refs q) (hw : 0 < s.owned refs w) :
    ∃ writer, s.writers w = some writer ∧ 0 < writer.senders ∧ writer.queue.isOpen = true ∧
      writer.phase ≠ .ended := by
  obtain ⟨writer, hwriter⟩ := Option.ne_none_iff_exists'.mp (hf.started w hw)
  obtain ⟨hlive, hsenders, -⟩ := hf.writer w writer hwriter
  rw [← hsenders] at hw
  exact ⟨writer, hwriter, hw, hlive hw⟩

/-- A step of one write loop, or of a reference to it. -/
theorem Fed.step_writer (hf : s.Fed refs q) {writer writer' : Writer M} {we : WriterEvent M}
    (hwriter : s.writers w = some writer) (hstep : writer.step we = some writer')
    (hwriters : s'.writers = update s.writers w (some writer'))
    (hnext : s'.nextWriter = s.nextWriter) (howned : s'.owned refs w = writer'.senders)
    (hother : ∀ w', w' ≠ w → s'.owned refs w' = s.owned refs w')
    (hput : ∀ w', putInto w' q' = putInto w' q ++ if w' = w then we.message else []) :
    s'.Fed refs q' := by
  refine ⟨fun w' hw' => ?_, fun w' hw' => ?_, fun w' hw' => ?_, fun w' writer₁ hw' => ?_⟩
  · rw [hwriters]
    by_cases hww : w' = w
    · rw [hww, update_self]
      exact Option.some_ne_none _
    · rw [update_of_ne hww]
      exact hf.started w' (hother w' hww ▸ hw')
  · have hnone := hf.fresh w' (hnext ▸ hw')
    have hww : w' ≠ w := by
      rintro rfl
      rw [hwriter] at hnone
      cases hnone
    rw [hwriters, update_of_ne hww]
    exact hnone
  · rw [hwriters] at hw'
    by_cases hww : w' = w
    · rw [hww, update_self] at hw'
      cases hw'
    · rw [update_of_ne hww] at hw'
      rw [hput, if_neg hww, List.append_nil]
      exact hf.unfed w' hw'
  · rw [hwriters] at hw'
    by_cases hww : w' = w
    · subst hww
      rw [update_self] at hw'
      obtain rfl := Option.some.inj hw'
      obtain ⟨hlive, hsenders, haccepted⟩ := hf.writer w' writer hwriter
      refine ⟨hlive.step hstep, howned.symm, ?_⟩
      rw [Writer.accepted_of_step hstep, haccepted, hput, if_pos rfl]
    · rw [update_of_ne hww] at hw'
      obtain ⟨hlive, hsenders, haccepted⟩ := hf.writer w' writer₁ hw'
      refine ⟨hlive, ?_, ?_⟩
      · rw [hother w' hww, hsenders]
      · rw [hput, if_neg hww, List.append_nil, haccepted]

/-- The write loops do not depend on the calls. -/
theorem Fed.of_same (hf : s.Fed refs q) (hwriters : s'.writers = s.writers)
    (hnext : s'.nextWriter = s.nextWriter) (hclones : s'.clones = s.clones) : s'.Fed refs q := by
  have howned (w : WriterId) : s'.owned refs w = s.owned refs w := by rw [owned, owned, hclones]
  refine ⟨fun w hw => ?_, fun w hw => ?_, fun w hw => ?_, fun w writer hw => ?_⟩
  · rw [hwriters]
    exact hf.started w (howned w ▸ hw)
  · rw [hwriters]
    exact hf.fresh w (hnext ▸ hw)
  · exact hf.unfed w (hwriters ▸ hw)
  · rw [howned]
    exact hf.writer w writer (hwriters ▸ hw)

theorem holds_iff : holds refs w = true ↔ ∃ r ∈ refs, r.writer = w := by
  simp [holds]

/-- The write loops that were started before, after the owner has changed its references. -/
theorem writers_hold_of_lt {config : DistributedConfig} {next : WriterId} (hw : w < s.nextWriter) :
    (s.hold old new config next).writers w =
      if holds old w && !holds new w then (s.writers w).map Writer.release else s.writers w :=
  if_pos hw

theorem writers_hold_of_le {config : DistributedConfig} {next : WriterId} (hw : s.nextWriter ≤ w) :
    (s.hold old new config next).writers w =
      (new.find? (·.writer = w)).map fun r => .withConfig r.target config :=
  if_neg (not_lt.mpr hw)

/-- **The owner changes its references.** What it holds is what it held before, or new. -/
theorem Fed.hold (hf : s.Fed old q) {config : DistributedConfig} {next : WriterId}
    (hkept : ∀ w, holds new w = true → w < s.nextWriter → holds old w = true)
    (hnew : ∀ w, holds new w = true → w < next) (hnext : s.nextWriter ≤ next) :
    (s.hold old new config next).Fed new q := by
  have hzero (w : WriterId) (hw : s.nextWriter ≤ w) : s.clones w = 0 :=
    (Nat.add_eq_zero_iff.mp (hf.owned_eq_zero hw)).2
  refine ⟨fun w hw => ?_, fun w hw => ?_, fun w hw => ?_, fun w writer hw => ?_⟩
  · have howned : 0 < (if holds new w then 1 else 0) + s.clones w := hw
    rcases lt_or_ge w s.nextWriter with hlt | hge
    · have hstarted : s.writers w ≠ none := by
        refine hf.started w ?_
        by_cases hnewhas : holds new w = true
        · exact owned_pos_of_holds (hkept w hnewhas hlt)
        · rw [if_neg hnewhas, Nat.zero_add] at howned
          exact howned.trans_le (Nat.le_add_left ..)
      rw [writers_hold_of_lt hlt]
      split_ifs
      · simpa using hstarted
      · exact hstarted
    · rw [hzero w hge] at howned
      have hhas : holds new w = true := by
        by_contra hno
        rw [if_neg hno] at howned
        exact lt_irrefl 0 howned
      rw [writers_hold_of_le hge]
      simpa [holds] using hhas
  · have hno : ¬ holds new w = true := fun hhas => absurd (hnew w hhas) (not_lt.mpr hw)
    rw [writers_hold_of_le (hnext.trans hw)]
    simpa [holds] using hno
  · refine hf.unfed w ?_
    rcases lt_or_ge w s.nextWriter with hlt | hge
    · rw [writers_hold_of_lt hlt] at hw
      split_ifs at hw
      · simpa using hw
      · exact hw
    · exact hf.fresh w hge
  · rcases lt_or_ge w s.nextWriter with hlt | hge
    · rw [writers_hold_of_lt hlt] at hw
      split_ifs at hw with hleft
      · -- the reference is dropped
        rw [Bool.and_eq_true, Bool.not_eq_true'] at hleft
        obtain ⟨writer₀, hwriter₀, rfl⟩ := Option.map_eq_some_iff.mp hw
        obtain ⟨hlive, hsenders, haccepted⟩ := hf.writer w writer₀ hwriter₀
        refine ⟨hlive.release, ?_, haccepted⟩
        change writer₀.senders - 1 = (if holds new w then 1 else 0) + s.clones w
        rw [hsenders, owned, hleft.1, hleft.2]
        simp
      · obtain ⟨hlive, hsenders, haccepted⟩ := hf.writer w writer hw
        refine ⟨hlive, hsenders.trans ?_, haccepted⟩
        have hsame : holds old w = holds new w := by
          have hback := hkept w
          cases hold : holds old w <;> cases hnew : holds new w <;> simp_all
        change (if holds old w then 1 else 0) + s.clones w =
          (if holds new w then 1 else 0) + s.clones w
        rw [hsame]
    · -- a new write loop
      rw [writers_hold_of_le hge] at hw
      obtain ⟨r, hr, rfl⟩ := Option.map_eq_some_iff.mp hw
      have hhas : holds new w = true :=
        holds_iff.mpr ⟨r, List.mem_of_find?_eq_some hr, by simpa using List.find?_some hr⟩
      refine ⟨Writer.live_withConfig, ?_, (hf.unfed w (hf.fresh w hge)).symm⟩
      change 1 = (if holds new w then 1 else 0) + s.clones w
      rw [hhas, hzero w hge]
      rfl

/-! ### The calls -/

/-- What a call that is under way, or has returned, has put into the queues: its message once for
each reference that it is done with. -/
structure Done (q : List (Option CallerNo × WriterId × M)) (k : CallerNo) (call : SendCall M R)
    (done : List (String × WriterId)) : Prop where
  destinations : call.destinations = done ++ call.todo
  results : call.results = done.map fun d => (d.1, .ok ())
  put : putBy k q = done.map fun d => (d.2, call.msg)

/-- The calls under way send to references of the owner; `l` lists the calls that have
returned. -/
structure Served (refs : List RemoteActorRef) (q : List (Option CallerNo × WriterId × M))
    (l : List (CallerNo × SendCall M R)) (s : Traffic M R) : Prop where
  fresh : ∀ k, s.nextCall ≤ k → s.calls k = none ∧ putBy k q = []
  call : ∀ k call, s.calls k = some call → (∀ d ∈ call.todo, holds refs d.2 = true) ∧
    ∃ done, Done q k call done
  returned : ∀ p ∈ l, s.calls p.1 = none ∧ p.1 < s.nextCall ∧ Done q p.1 p.2 p.2.destinations

theorem Served.lt (hs : s.Served refs q l) {call : SendCall M R} (hk : s.calls k = some call) :
    k < s.nextCall := by
  by_contra hge
  rw [(hs.fresh k (not_lt.mp hge)).1] at hk
  cases hk

/-- Nothing is put into a queue by a call, and the calls and their references stay. -/
theorem Served.of_same (hs : s.Served old q l) (hcalls : s'.calls = s.calls)
    (hnext : s'.nextCall = s.nextCall) (hrefs : ∀ k, s.calls k ≠ none → new = old)
    (hput : ∀ k, putBy k q' = putBy k q) : s'.Served new q' l := by
  refine ⟨fun k hk => ?_, fun k call hk => ?_, fun p hp => ?_⟩
  · rw [hcalls, hput]
    exact hs.fresh k (hnext ▸ hk)
  · rw [hcalls] at hk
    obtain ⟨htodo, done, hdone⟩ := hs.call k call hk
    rw [hrefs k (by rw [hk]; nofun)]
    exact ⟨htodo, done, hdone.destinations, hdone.results, (hput k).trans hdone.put⟩
  · obtain ⟨hnone, hlt, hdone⟩ := hs.returned p hp
    rw [hcalls, hnext]
    exact ⟨hnone, hlt, hdone.destinations, hdone.results, (hput p.1).trans hdone.put⟩

/-- Nobody is calling. -/
theorem Served.of_idle (hs : s.Served refs q l) (hidle : s.idle = true) (k : CallerNo) :
    s.calls k = none := by
  by_cases hk : k < s.nextCall
  · exact Option.isNone_iff_eq_none.mp (List.all_eq_true.mp hidle k (List.mem_range.mpr hk))
  · exact (hs.fresh k (not_lt.mp hk)).1

/-- **The invariant** of the references that an owner holds: `q` lists what was put into the queues
behind them, and `l` the calls that have returned. -/
structure Flowing (refs : List RemoteActorRef) (q : List (Option CallerNo × WriterId × M))
    (l : List (CallerNo × SendCall M R)) (s : Traffic M R) : Prop where
  fed : s.Fed refs q
  served : s.Served refs q l

theorem flowing_start : (start : Traffic M R).Flowing [] [] [] :=
  ⟨fed_start, fun _ _ => ⟨rfl, rfl⟩, fun k call hk => (by cases hk), fun p hp => (by cases hp)⟩

/-- **The owner changes its references** while nobody is calling. -/
theorem Flowing.hold (hf : s.Flowing old q l) (hidle : s.idle = true) {config : DistributedConfig}
    {next : WriterId} (hkept : ∀ w, holds new w = true → w < s.nextWriter → holds old w = true)
    (hnew : ∀ w, holds new w = true → w < next) (hnext : s.nextWriter ≤ next) :
    (s.hold old new config next).Flowing new q l :=
  ⟨hf.fed.hold hkept hnew hnext,
    hf.served.of_same rfl rfl (fun k hk => absurd (hf.served.of_idle hidle k) hk) fun _ => rfl⟩

/-- **A call begins**, on references of the owner. -/
theorem Flowing.begin (hf : s.Flowing refs q l) (request : R) (msg : M)
    {destinations : List (String × WriterId)} (hheld : ∀ d ∈ destinations, holds refs d.2 = true) :
    (s.begin request msg destinations).Flowing refs q l := by
  refine ⟨hf.fed.of_same rfl rfl rfl, fun k hk => ?_, fun k call hk => ?_, fun p hp => ?_⟩
  · have hlt : s.nextCall < k := hk
    simpa [Traffic.begin, setCall, update_of_ne hlt.ne'] using hf.served.fresh k hlt.le
  · by_cases hkk : k = s.nextCall
    · subst hkk
      simp only [Traffic.begin, setCall, update_self, Option.some.injEq] at hk
      subst hk
      exact ⟨hheld, [], rfl, rfl, (hf.served.fresh _ le_rfl).2⟩
    · simp only [Traffic.begin, setCall, update_of_ne hkk] at hk
      exact hf.served.call k call hk
  · obtain ⟨hnone, hlt, hdone⟩ := hf.served.returned p hp
    refine ⟨?_, hlt.trans (Nat.lt_succ_self _), hdone⟩
    simpa [Traffic.begin, setCall, update_of_ne hlt.ne] using hnone

/-- A step of a write loop, or of a reference to it. -/
theorem onWriter_inv {we : WriterEvent M} (h : s.onWriter w we = some s') :
    ∃ writer writer', s.writers w = some writer ∧ writer.step we = some writer' ∧
      s' = s.setWriter w writer' := by
  obtain ⟨writer, hwriter, h⟩ := Option.bind_eq_some_iff.mp h
  obtain ⟨writer', hstep, rfl⟩ := Option.map_eq_some_iff.mp h
  exact ⟨writer, writer', hwriter, hstep, rfl⟩

/-- A step of a write loop, or a step that adds or drops a clone. -/
theorem Flowing.onWriter (hf : s.Flowing refs q l) {we : WriterEvent M} {s₁ : Traffic M R}
    (h : s.onWriter w we = some s₁) (clones : WriterId → ℕ)
    (hclones : ∀ w', w' ≠ w → clones w' = s.clones w')
    (hsenders : ∀ writer writer', s.writers w = some writer → writer.step we = some writer' →
      writer'.senders = (if holds refs w then 1 else 0) + clones w) :
    { s₁ with clones := clones }.Flowing refs
      (q ++ we.message.map fun msg => (none, w, msg)) l := by
  obtain ⟨writer, writer', hwriter, hstep, rfl⟩ := onWriter_inv h
  have hquiet (k : CallerNo) : putBy k (we.message.map fun msg => (none, w, msg)) = [] := by
    cases we <;> rfl
  refine ⟨hf.fed.step_writer hwriter hstep rfl rfl (hsenders writer writer' hwriter hstep).symm ?_
    ?_, hf.served.of_same rfl rfl (fun _ _ => rfl) fun k => ?_⟩
  · intro w' hw'
    exact congrArg (_ + ·) (hclones w' hw')
  · intro w'
    rw [putInto_append]
    cases we with
    | send msg => exact congrArg _ (putInto_singleton w w' none msg)
    | _ => simp [WriterEvent.message, putInto]
  · rw [putBy_append, hquiet, List.append_nil]

/-- **A send that a call awaits** puts the message of the call into the queue of a reference that
the owner holds. -/
theorem Flowing.sent (hf : s.Flowing refs q l) (h : s.step refs (.sent k) = some s') :
    s'.Flowing refs (q ++ s.puts (.sent k)) l := by
  obtain ⟨call, hcall, h⟩ := Option.bind_eq_some_iff.mp h
  obtain ⟨hheld, done, hdone⟩ := hf.served.call k call hcall
  cases htodo : call.todo with
  | nil => simp [htodo] at h
  | cons d todo =>
    obtain ⟨name, w⟩ := d
    have hw : holds refs w = true := hheld (name, w) (by simp [htodo])
    obtain ⟨writer, hwriter, hsenders, hopen, -⟩ := hf.fed.isOpen (owned_pos_of_holds hw)
    simp only [htodo, hwriter, Option.bind_some, hopen, if_true] at h
    obtain ⟨queue, hsend, rfl⟩ := Option.map_eq_some_iff.mp h
    -- the queue is open, so that it has taken the message
    obtain ⟨hroom, rfl⟩ : writer.queue.hasRoom = true ∧ queue = writer.queue.push call.msg := by
      refine (Chan.send_eq_some.mp hsend).resolve_right fun hclosed => ?_
      rw [hopen] at hclosed
      cases hclosed.1
    have hstep : writer.step (.send call.msg) =
        some { writer with queue := writer.queue.push call.msg } := by
      rw [Writer.step, if_pos ⟨hsenders, hroom⟩]
    have hputs : s.puts (.sent k) = [(some k, w, call.msg)] := by
      simp [puts, hcall, htodo, hwriter, hopen]
    rw [hputs]
    refine ⟨hf.fed.step_writer hwriter hstep rfl rfl ?_ (fun _ _ => rfl)
      fun w' => ?_, fun k' hk' => ?_, fun k' call' hk' => ?_, fun p hp => ?_⟩
    · exact (hf.fed.writer w writer hwriter).2.1.symm
    · rw [putInto_append, putInto_singleton]
      rfl
    · have hne : k' ≠ k := fun heq => absurd (hf.served.lt hcall) (not_lt.mpr (heq ▸ hk'))
      obtain ⟨hnone, hput⟩ := hf.served.fresh k' hk'
      refine ⟨by simpa [setCall, setWriter, update_of_ne hne] using hnone, ?_⟩
      rw [putBy_append, putBy_singleton, hput, if_neg (by simpa using Ne.symm hne)]
      rfl
    · by_cases hkk : k' = k
      · subst hkk
        simp only [setCall, update_self, Option.some.injEq] at hk'
        subst hk'
        refine ⟨fun d hd => hheld d (by simp [htodo, hd]), done ++ [(name, w)], ?_, ?_, ?_⟩
        · simp [hdone.destinations, htodo]
        · simp [hdone.results]
        · rw [putBy_append, putBy_singleton, if_pos rfl, hdone.put]
          simp
      · simp only [setCall, setWriter, update_of_ne hkk] at hk'
        obtain ⟨hheld', done', hdone'⟩ := hf.served.call k' call' hk'
        refine ⟨hheld', done', hdone'.destinations, hdone'.results, ?_⟩
        rw [putBy_append, putBy_singleton, if_neg (by simpa using Ne.symm hkk), List.append_nil]
        exact hdone'.put
    · obtain ⟨hnone, hlt, hdone'⟩ := hf.served.returned p hp
      have hne : p.1 ≠ k := by
        intro heq
        rw [heq, hcall] at hnone
        cases hnone
      refine ⟨by simpa [setCall, setWriter, update_of_ne hne] using hnone, hlt,
        hdone'.destinations, hdone'.results, ?_⟩
      rw [putBy_append, putBy_singleton, if_neg (by simpa using Ne.symm hne), List.append_nil]
      exact hdone'.put

/-- A call is over. -/
theorem Flowing.setCall_none (hf : s.Flowing refs q l) (k : CallerNo) :
    (s.setCall k none).Flowing refs q l := by
  refine ⟨hf.fed.of_same rfl rfl rfl, fun k' hk' => ?_, fun k' call hk' => ?_, fun p hp => ?_⟩
  · refine ⟨?_, (hf.served.fresh k' hk').2⟩
    by_cases hkk : k' = k
    · simp [setCall, hkk]
    · simpa [setCall, update_of_ne hkk] using (hf.served.fresh k' hk').1
  · by_cases hkk : k' = k
    · simp [setCall, hkk] at hk'
    · simp only [setCall, update_of_ne hkk] at hk'
      exact hf.served.call k' call hk'
  · obtain ⟨hnone, hlt, hdone⟩ := hf.served.returned p hp
    refine ⟨?_, hlt, hdone⟩
    by_cases hkk : p.1 = k
    · simp [setCall, hkk]
    · simpa [setCall, update_of_ne hkk] using hnone

/-- A call returns. -/
theorem Flowing.ret (hf : s.Flowing refs q l) (h : s.step refs (.ret k) = some s') :
    s'.Flowing refs q (l ++ s.returning (.ret k)) := by
  obtain ⟨call, hcall, h⟩ := Option.bind_eq_some_iff.mp h
  obtain ⟨htodo, h⟩ := Option.ite_none_right_eq_some.mp h
  cases h
  have hnone := hf.setCall_none k
  obtain ⟨-, done, hdone⟩ := hf.served.call k call hcall
  have hall : done = call.destinations := by rw [hdone.destinations, htodo, List.append_nil]
  have hreturning : s.returning (.ret k) = [(k, call)] := by simp [returning, hcall]
  refine ⟨hnone.fed, hnone.served.fresh, hnone.served.call, fun p hp => ?_⟩
  rw [hreturning] at hp
  rcases List.mem_append.mp hp with hp | hp
  · exact hnone.served.returned p hp
  · obtain rfl := List.mem_singleton.mp hp
    exact ⟨by simp [setCall], hf.served.lt hcall, hall ▸ hdone⟩

/-- **Every step keeps the invariant.** -/
theorem Flowing.step (hf : s.Flowing refs q l) (h : s.step refs e = some s') :
    s'.Flowing refs (q ++ s.puts e) (l ++ s.returning e) := by
  cases e with
  | sent k =>
    have hs' := hf.sent h
    rwa [show s.returning (.sent k) = [] from rfl, List.append_nil]
  | ret k =>
    have hs' := hf.ret h
    rwa [show s.puts (.ret k) = [] from rfl, List.append_nil]
  | cancel k =>
    cases h
    rw [show s.puts (.cancel k) = [] from rfl, show s.returning (.cancel k) = [] from rfl,
      List.append_nil, List.append_nil]
    exact hf.setCall_none k
  | clone w =>
    obtain ⟨-, h⟩ := Option.ite_none_right_eq_some.mp h
    obtain ⟨s₁, hon, rfl⟩ := Option.map_eq_some_iff.mp h
    rw [show s.returning (.clone w) = [] from rfl, List.append_nil]
    refine hf.onWriter hon (update s.clones w (s.clones w + 1))
      (fun w' hw' => update_of_ne hw' ..) fun writer writer' hwriter hstep => ?_
    obtain ⟨-, h⟩ := Option.ite_none_right_eq_some.mp hstep
    cases h
    rw [update_self, ← Nat.add_assoc]
    exact congrArg (· + 1) (hf.fed.writer w writer hwriter).2.1
  | dropClone w =>
    obtain ⟨hpos, h⟩ := Option.ite_none_right_eq_some.mp h
    obtain ⟨s₁, hon, rfl⟩ := Option.map_eq_some_iff.mp h
    rw [show s.returning (.dropClone w) = [] from rfl, List.append_nil]
    refine hf.onWriter hon (update s.clones w (s.clones w - 1))
      (fun w' hw' => update_of_ne hw' ..) fun writer writer' hwriter hstep => ?_
    cases hstep
    rw [update_self, ← Nat.add_sub_assoc hpos]
    exact congrArg (· - 1) (hf.fed.writer w writer hwriter).2.1
  | post w msg =>
    obtain ⟨-, h⟩ := Option.ite_none_right_eq_some.mp h
    have hs' := hf.onWriter h s.clones (fun _ _ => rfl) fun writer writer' hwriter hstep => ?_
    · rw [show s.returning (.post w msg) = [] from rfl, List.append_nil]
      obtain ⟨writer, writer', -, -, rfl⟩ := onWriter_inv h
      exact hs'
    · obtain ⟨-, hstep⟩ := Option.ite_none_right_eq_some.mp hstep
      cases hstep
      have howned := (hf.fed.writer w writer hwriter).2.1
      exact howned
  | loop w we =>
    obtain ⟨hloop, h⟩ := Option.ite_none_right_eq_some.mp h
    have hs' := hf.onWriter h s.clones (fun _ _ => rfl) fun writer writer' hwriter hstep => ?_
    · have hmessage : we.message = [] := by
        cases we <;> first | rfl | cases hloop
      rw [hmessage, List.map_nil, List.append_nil] at hs'
      rw [show s.puts (.loop w we) = [] from rfl, show s.returning (.loop w we) = [] from rfl,
        List.append_nil, List.append_nil]
      obtain ⟨writer, writer', -, -, rfl⟩ := onWriter_inv h
      exact hs'
    · rcases Writer.senders_of_step hstep with ⟨rfl, -⟩ | ⟨rfl, -⟩ | ⟨-, -, hsame⟩
      · cases hloop
      · cases hloop
      · exact hsame.trans (hf.fed.writer w writer hwriter).2.1

/-- It does not matter in which order the owner holds its references. -/
theorem Flowing.of_holds (hf : s.Flowing old q l) (hholds : ∀ w, holds new w = holds old w) :
    s.Flowing new q l := by
  have howned (w : WriterId) : s.owned new w = s.owned old w := by rw [owned, owned, hholds]
  refine ⟨⟨fun w hw => hf.fed.started w (howned w ▸ hw), hf.fed.fresh, hf.fed.unfed,
    fun w writer hw => ?_⟩, hf.served.fresh, fun k call hk => ?_, hf.served.returned⟩
  · rw [howned]
    exact hf.fed.writer w writer hw
  · obtain ⟨htodo, hdone⟩ := hf.served.call k call hk
    exact ⟨fun d hd => (hholds d.2).trans (htodo d hd), hdone⟩

/-! ### One call -/

/-- The call began as this one. -/
def BeganAs (call : SendCall M R) (request : R) (msg : M)
    (destinations : List (String × WriterId)) : Prop :=
  call.request = request ∧ call.msg = msg ∧ call.destinations = destinations

/-- The call with the number `k` began as this one, whether it is under way or has returned. -/
structure Tracks (k : CallerNo) (request : R) (msg : M) (destinations : List (String × WriterId))
    (l : List (CallerNo × SendCall M R)) (s : Traffic M R) : Prop where
  lt : k < s.nextCall
  call : ∀ call, s.calls k = some call → BeganAs call request msg destinations
  returned : ∀ p ∈ l, p.1 = k → BeganAs p.2 request msg destinations

variable {request : R} {msg : M} {destinations : List (String × WriterId)}

/-- Another call begins. -/
theorem Tracks.begin (ht : s.Tracks k request msg destinations l) (request' : R) (msg' : M)
    (destinations' : List (String × WriterId)) :
    (s.begin request' msg' destinations').Tracks k request msg destinations l := by
  refine ⟨ht.lt.trans (Nat.lt_succ_self _), fun call hcall => ?_, ht.returned⟩
  simp only [Traffic.begin, setCall, update_of_ne ht.lt.ne] at hcall
  exact ht.call call hcall

/-- A step starts no write loop and no call, and changes what a call has done at most. -/
theorem calls_of_step (h : s.step refs e = some s') :
    s'.nextWriter = s.nextWriter ∧ s'.nextCall = s.nextCall ∧
    (∀ k call', s'.calls k = some call' → ∃ call, s.calls k = some call ∧
      BeganAs call' call.request call.msg call.destinations) ∧
    ∀ p ∈ s.returning e, s.calls p.1 = some p.2 := by
  -- the events of the write loops and the clones keep the calls
  have hsame (hcalls : s'.calls = s.calls) (k : CallerNo) (call' : SendCall M R)
      (hk : s'.calls k = some call') : ∃ call, s.calls k = some call ∧
        BeganAs call' call.request call.msg call.destinations :=
    ⟨call', hcalls ▸ hk, rfl, rfl, rfl⟩
  -- a call that is over
  have hnone (k₀ k : CallerNo) (call' : SendCall M R)
      (hk : (s.setCall k₀ none).calls k = some call') : ∃ call, s.calls k = some call ∧
        BeganAs call' call.request call.msg call.destinations := by
    by_cases hkk : k = k₀
    · simp [setCall, hkk] at hk
    · simp only [setCall, update_of_ne hkk] at hk
      exact ⟨call', hk, rfl, rfl, rfl⟩
  cases e with
  | sent k₀ =>
    obtain ⟨call, hcall, h⟩ := Option.bind_eq_some_iff.mp h
    cases htodo : call.todo with
    | nil => simp [htodo] at h
    | cons d todo =>
      simp only [htodo] at h
      obtain ⟨writer, -, h⟩ := Option.bind_eq_some_iff.mp h
      obtain ⟨queue, -, rfl⟩ := Option.map_eq_some_iff.mp h
      refine ⟨rfl, rfl, fun k call' hk => ?_, nofun⟩
      by_cases hkk : k = k₀
      · simp only [hkk, setCall, update_self, Option.some.injEq] at hk
        subst hk
        exact ⟨call, hkk ▸ hcall, rfl, rfl, rfl⟩
      · simp only [setCall, setWriter, update_of_ne hkk] at hk
        exact ⟨call', hk, rfl, rfl, rfl⟩
  | ret k₀ =>
    obtain ⟨call, hcall, h⟩ := Option.bind_eq_some_iff.mp h
    obtain ⟨-, h⟩ := Option.ite_none_right_eq_some.mp h
    cases h
    refine ⟨rfl, rfl, hnone k₀, fun p hp => ?_⟩
    rw [returning, hcall] at hp
    obtain rfl := List.mem_singleton.mp hp
    exact hcall
  | cancel k₀ =>
    cases h
    exact ⟨rfl, rfl, hnone k₀, nofun⟩
  | clone w =>
    obtain ⟨-, h⟩ := Option.ite_none_right_eq_some.mp h
    obtain ⟨s₁, hon, rfl⟩ := Option.map_eq_some_iff.mp h
    obtain ⟨writer, writer', -, -, rfl⟩ := onWriter_inv hon
    exact ⟨rfl, rfl, hsame rfl, nofun⟩
  | dropClone w =>
    obtain ⟨-, h⟩ := Option.ite_none_right_eq_some.mp h
    obtain ⟨s₁, hon, rfl⟩ := Option.map_eq_some_iff.mp h
    obtain ⟨writer, writer', -, -, rfl⟩ := onWriter_inv hon
    exact ⟨rfl, rfl, hsame rfl, nofun⟩
  | post | loop =>
    obtain ⟨-, h⟩ := Option.ite_none_right_eq_some.mp h
    obtain ⟨writer, writer', -, -, rfl⟩ := onWriter_inv h
    exact ⟨rfl, rfl, hsame rfl, nofun⟩

theorem Tracks.step (ht : s.Tracks k request msg destinations l) (h : s.step refs e = some s') :
    s'.Tracks k request msg destinations (l ++ s.returning e) := by
  obtain ⟨-, hnext, hcalls, hreturning⟩ := calls_of_step h
  refine ⟨hnext ▸ ht.lt, fun call' hcall' => ?_, fun p hp heq => ?_⟩
  · obtain ⟨call, hcall, hrequest, hmsg, hdestinations⟩ := hcalls k call' hcall'
    obtain ⟨hrequest', hmsg', hdestinations'⟩ := ht.call call hcall
    exact ⟨hrequest.trans hrequest', hmsg.trans hmsg', hdestinations.trans hdestinations'⟩
  · rcases List.mem_append.mp hp with hp | hp
    · exact ht.returned p hp heq
    · exact ht.call p.2 (heq ▸ hreturning p hp)

/-- What the invariant says of a write loop that a reference of the owner leads to. -/
theorem Flowing.isOpen (hf : s.Flowing refs q l) {r : RemoteActorRef} (hr : r ∈ refs) :
    ∃ writer, s.writers r.writer = some writer ∧ writer.queue.isOpen = true ∧
      writer.phase ≠ .ended := by
  obtain ⟨writer, hwriter, -, hopen⟩ :=
    hf.fed.isOpen (owned_pos_of_holds (holds_iff.mpr ⟨r, hr, rfl⟩))
  exact ⟨writer, hwriter, hopen⟩

end Traffic

end LaneSwitchboards
