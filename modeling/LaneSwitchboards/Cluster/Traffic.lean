import LaneSwitchboards.Cluster.References
import LaneSwitchboards.Remote.Traffic

/-!
# Sending through a cluster

A `Cluster` with the write loops behind its references, and the calls of its send operations that
are under way. `join` and `leave` need the cluster for themselves, so they come between calls.

A call sends to the references that the roster had when it was made (`made_of_run`). It never fails
on a member, whatever the network does: it puts its message once into the queue of each of its
destinations, or waits (`calls_succeed`).
-/

namespace LaneSwitchboards

open Function Transition

variable {M : Type}

/-- A send operation of `Cluster`. -/
inductive ClusterRequest
  | sendAll
  | broadcast
  | sendTo (names : List String)
  | sendReplicas (key : List UInt8) (count : ℕ)
  | sendByKey (key : List UInt8)
  | sendRoundRobin
deriving DecidableEq

/-- A cluster, its write loops and the calls under way. -/
structure ClusterTraffic (M : Type) where
  cluster : Cluster
  /-- The configuration for the members that join. -/
  distributedConfig : DistributedConfig
  traffic : Traffic M ClusterRequest

/-- One event of a cluster and its write loops. -/
inductive ClusterEvent (M : Type)
  | join (member : ClusterMember)
  | leave (id : String)
  | setDistributedConfig (config : DistributedConfig)
  | call (request : ClusterRequest) (msg : M)
  | traffic (e : TrafficEvent M)

namespace Cluster

/-- The references that a request sends to, in this order. The sends of a single message have no
name to list. -/
def destinations (hash : List UInt8 → U64) (c : Cluster) :
    ClusterRequest → List (String × WriterId)
  | .sendAll | .broadcast => (c.members.zip c.refs).map fun (m, r) => (m.name, r.writer)
  | .sendTo names => names.filterMap fun name =>
    (c.refOf name).map fun r => (name, r.writer)
  | .sendReplicas key count => (c.ring.getNodes hash key count).filterMap fun node =>
    (c.refOf node.id).map fun r => (node.id, r.writer)
  | .sendByKey key => (c.refForKey hash key).toList.map fun r => ("", r.writer)
  | .sendRoundRobin => (c.refs[c.next % c.refs.length]?).toList.map fun r => ("", r.writer)

/-- `send_round_robin` advances the counter, unless the roster is empty. -/
def advance (c : Cluster) : ClusterRequest → Cluster
  | .sendRoundRobin => if c.refs = [] then c else { c with next := c.next + 1 }
  | _ => c

end Cluster

/-- The first error of a list of results. -/
def firstErr : List (String × Except SendError Unit) → Except SendError Unit
  | [] => .ok ()
  | (_, .error e) :: _ => .error e
  | (_, .ok ()) :: results => firstErr results

/-- What a request returns, where its sends have returned `results`. -/
def ClusterRequest.answer (results : List (String × Except SendError Unit)) :
    ClusterRequest → SendAnswer
  | .broadcast => .one (firstErr results)
  | .sendByKey _ | .sendRoundRobin =>
    match results with
    | [] => .one (.error .noMembers)
    | (_, result) :: _ => .one result
  | _ => .each results

theorem firstErr_ok (ds : List (String × WriterId)) :
    firstErr (ds.map fun d => (d.1, .ok ())) = .ok () := by
  induction ds with
  | nil => rfl
  | cons d ds ih => exact ih

/-- A request fails only for want of a destination, where its sends are successful. -/
theorem ClusterRequest.answer_ok (request : ClusterRequest) (ds : List (String × WriterId)) :
    (request.answer (ds.map fun d => (d.1, .ok ()))).Succeeds ∨
      ds = [] ∧ request.answer (ds.map fun d => (d.1, .ok ())) = .one (.error .noMembers) := by
  have heach : (SendAnswer.each (ds.map fun d => (d.1, .ok ()))).Succeeds := by
    intro p hp
    obtain ⟨d, -, rfl⟩ := List.mem_map.mp hp
    rfl
  cases request with
  | broadcast => exact Or.inl (firstErr_ok ds)
  | sendByKey | sendRoundRobin =>
    cases ds with
    | nil => exact Or.inr ⟨rfl, rfl⟩
    | cons d ds => exact Or.inl rfl
  | _ => exact Or.inl heach

namespace ClusterTraffic

/-- An empty cluster. -/
def start (virtualNodes : ℕ) (config : DistributedConfig) : ClusterTraffic M :=
  ⟨.withVirtualNodes virtualNodes, config, .start⟩

/-- The roster changes, and so do the references that the cluster holds. -/
def update (s : ClusterTraffic M) (cluster : Cluster) (next : WriterId) : ClusterTraffic M :=
  { s with
    cluster := cluster
    traffic := s.traffic.hold s.cluster.refs cluster.refs s.distributedConfig next }

/-- A member joins with a write loop of its own. -/
def join (hash : List UInt8 → U64) (s : ClusterTraffic M) (member : ClusterMember) :
    ClusterTraffic M :=
  s.update (s.cluster.join hash member s.traffic.nextWriter).state (s.traffic.nextWriter + 1)

/-- A member leaves, and the cluster drops its reference. -/
def leave (hash : List UInt8 → U64) (s : ClusterTraffic M) (id : String) : ClusterTraffic M :=
  s.update (s.cluster.leave hash id).state s.traffic.nextWriter

/-- One event; `none` where it is not enabled. -/
def step (hash : List UInt8 → U64) (s : ClusterTraffic M) :
    ClusterEvent M → Option (ClusterTraffic M)
  | .join member => if s.traffic.idle then some (s.join hash member) else none
  | .leave id => if s.traffic.idle then some (s.leave hash id) else none
  | .setDistributedConfig config =>
    if s.traffic.idle then some { s with distributedConfig := config } else none
  | .call request msg => some
      { s with
        cluster := s.cluster.advance request
        traffic := s.traffic.begin request msg (s.cluster.destinations hash request) }
  | .traffic e => (s.traffic.step s.cluster.refs e).map fun traffic => { s with traffic := traffic }

/-- Execute a list of events. -/
abbrev run (hash : List UInt8 → U64) :
    ClusterTraffic M → List (ClusterEvent M) → Option (ClusterTraffic M) :=
  Transition.run (step hash)

/-- What an event puts into the queues. -/
def puts (s : ClusterTraffic M) : ClusterEvent M → List (Option CallerNo × WriterId × M)
  | .traffic e => s.traffic.puts e
  | _ => []

/-- What a run puts into the queues, in this order. -/
def queued (hash : List UInt8 → U64) (s : ClusterTraffic M) (es : List (ClusterEvent M)) :
    List (Option CallerNo × WriterId × M) :=
  trace (step hash) (fun s e _ => s.puts e) s es

/-- The call that an event returns from. -/
def returning (s : ClusterTraffic M) :
    ClusterEvent M → List (CallerNo × SendCall M ClusterRequest)
  | .traffic e => s.traffic.returning e
  | _ => []

/-- The calls that a run returns from. -/
def returned (hash : List UInt8 → U64) (s : ClusterTraffic M) (es : List (ClusterEvent M)) :
    List (CallerNo × SendCall M ClusterRequest) :=
  trace (step hash) (fun s e _ => s.returning e) s es

end ClusterTraffic

namespace Cluster

variable {hash : List UInt8 → U64} {c : Cluster} {request : ClusterRequest}

/-- A request sends to references of the roster. -/
theorem holds_of_destinations {d : String × WriterId} (hd : d ∈ c.destinations hash request) :
    holds c.refs d.2 = true := by
  have hmem {r : RemoteActorRef} {name : String} (hr : r ∈ c.refs) (h : (name, r.writer) = d) :
      holds c.refs d.2 = true := by
    subst h
    exact Traffic.holds_iff.mpr ⟨r, hr, rfl⟩
  cases request with
  | sendAll | broadcast =>
    obtain ⟨⟨m, r⟩, hzip, h⟩ := List.mem_map.mp hd
    exact hmem (List.of_mem_zip hzip).2 h
  | sendTo names =>
    obtain ⟨name, -, h⟩ := List.mem_filterMap.mp hd
    obtain ⟨r, hr, h⟩ := Option.map_eq_some_iff.mp h
    exact hmem (refOf_mem hr) h
  | sendReplicas key count =>
    obtain ⟨node, -, h⟩ := List.mem_filterMap.mp hd
    obtain ⟨r, hr, h⟩ := Option.map_eq_some_iff.mp h
    exact hmem (refOf_mem hr) h
  | sendByKey key =>
    obtain ⟨r, hr, h⟩ := List.mem_map.mp hd
    obtain ⟨i, -, hi⟩ := Option.bind_eq_some_iff.mp (Option.mem_toList.mp hr)
    exact hmem (List.mem_of_getElem? hi) h
  | sendRoundRobin =>
    obtain ⟨r, hr, h⟩ := List.mem_map.mp hd
    exact hmem (List.mem_of_getElem? (Option.mem_toList.mp hr)) h

/-- A round-robin call changes nothing but the counter. -/
theorem advance_eq (c : Cluster) (request : ClusterRequest) :
    ∃ next, c.advance request = { c with next := next } := by
  cases request with
  | sendRoundRobin =>
    unfold advance
    split_ifs
    · exact ⟨c.next, rfl⟩
    · exact ⟨c.next + 1, rfl⟩
  | _ => exact ⟨c.next, rfl⟩

theorem Sound.advance (hc : c.Sound) (request : ClusterRequest) : (c.advance request).Sound := by
  obtain ⟨next, heq⟩ := c.advance_eq request
  rw [heq]
  exact ⟨hc.endpoints, hc.locates, hc.registered, hc.named⟩

theorem refs_advance : (c.advance request).refs = c.refs := by
  obtain ⟨next, heq⟩ := c.advance_eq request
  rw [heq]

/-- A `leave` keeps a part of the references. -/
theorem Sound.refs_leave (hc : c.Sound) (hash : List UInt8 → U64) (id : String) :
    (c.leave hash id).state.refs ⊆ c.refs := by
  rcases hc.leave_spec hash id with ⟨-, hleave⟩ | ⟨i, m, r, c', hleave, -, -, -, -, hrefs, -⟩
  · rw [hleave]
    exact List.Subset.refl _
  · rw [hleave]
    exact fun r' hr' => (perm_swapRemove hrefs).mem_iff.mpr (List.mem_cons_of_mem _ hr')

/-- A `join` adds a reference with the given number, or none. -/
theorem refs_join (hash : List UInt8 → U64) (member : ClusterMember) (writer : WriterId)
    {r : RemoteActorRef} (hr : r ∈ (c.join hash member writer).state.refs) :
    r ∈ c.refs ∨ r.writer = writer := by
  unfold join at hr
  split at hr
  · exact Or.inl hr
  · rcases List.mem_append.mp hr with hr | hr
    · exact Or.inl hr
    · rw [List.mem_singleton.mp hr]
      exact Or.inr rfl

end Cluster

namespace ClusterTraffic

open Traffic

variable {hash : List UInt8 → U64} {s s' : ClusterTraffic M} {e : ClusterEvent M}
  {es : List (ClusterEvent M)} {q : List (Option CallerNo × WriterId × M)}
  {l : List (CallerNo × SendCall M ClusterRequest)}

/-- **The invariant of a cluster with its write loops.** -/
structure Flows (q : List (Option CallerNo × WriterId × M))
    (l : List (CallerNo × SendCall M ClusterRequest)) (s : ClusterTraffic M) : Prop where
  sound : s.cluster.Sound
  flowing : s.traffic.Flowing s.cluster.refs q l

/-- **The roster changes** while nobody is calling. -/
theorem Flows.update (hf : s.Flows q l) (hidle : s.traffic.idle = true) {c : Cluster}
    (hc : c.Sound) (hrefs : ∀ r ∈ c.refs, r ∈ s.cluster.refs ∨ r.writer = s.traffic.nextWriter)
    {next : WriterId} (hnext : s.traffic.nextWriter ≤ next)
    (hnew : ∀ r ∈ c.refs, r.writer = s.traffic.nextWriter → s.traffic.nextWriter < next) :
    (s.update c next).Flows q l := by
  refine ⟨hc, hf.flowing.hold hidle (fun w hw hlt => ?_) (fun w hw => ?_) hnext⟩ <;>
    obtain ⟨r, hr, rfl⟩ := holds_iff.mp hw
  · rcases hrefs r hr with hold | heq
    · exact holds_iff.mpr ⟨r, hold, rfl⟩
    · exact absurd hlt (by rw [heq]; exact lt_irrefl _)
  · rcases hrefs r hr with hold | heq
    · exact (hf.flowing.fed.lt (owned_pos_of_holds (holds_iff.mpr ⟨r, hold, rfl⟩))).trans_le hnext
    · rw [heq]
      exact hnew r hr heq

/-- **Every step keeps the invariant.** -/
theorem Flows.step (hf : s.Flows q l) (h : s.step hash e = some s') :
    s'.Flows (q ++ s.puts e) (l ++ s.returning e) := by
  -- a step that neither puts a message into a queue nor returns from a call
  have hquiet (hs' : s'.Flows q l) (hputs : s.puts e = []) (hreturning : s.returning e = []) :
      s'.Flows (q ++ s.puts e) (l ++ s.returning e) := by
    rwa [hputs, hreturning, List.append_nil, List.append_nil]
  cases e with
  | join member =>
    obtain ⟨hidle, h⟩ := Option.ite_none_right_eq_some.mp h
    cases h
    refine hquiet (hf.update hidle (hf.sound.join hash member _) (fun r hr => ?_)
      (Nat.le_succ _) fun _ _ _ => Nat.lt_succ_self _) rfl rfl
    exact Cluster.refs_join hash member _ hr
  | leave id =>
    obtain ⟨hidle, h⟩ := Option.ite_none_right_eq_some.mp h
    cases h
    have hrefs := hf.sound.refs_leave hash id
    refine hquiet (hf.update hidle (hf.sound.leave hash id) (fun r hr => Or.inl (hrefs hr)) le_rfl
      fun r hr heq => ?_) rfl rfl
    have hheld := owned_pos_of_holds (s := s.traffic) (holds_iff.mpr ⟨r, hrefs hr, rfl⟩)
    exact absurd (hf.flowing.fed.lt hheld) (by rw [heq]; exact lt_irrefl _)
  | setDistributedConfig config =>
    obtain ⟨-, h⟩ := Option.ite_none_right_eq_some.mp h
    cases h
    exact hquiet ⟨hf.sound, hf.flowing⟩ rfl rfl
  | call request msg =>
    cases h
    refine hquiet ⟨hf.sound.advance request, ?_⟩ rfl rfl
    rw [Cluster.refs_advance]
    exact hf.flowing.begin request msg fun d hd => Cluster.holds_of_destinations hd
  | traffic e =>
    obtain ⟨traffic, hstep, rfl⟩ := Option.map_eq_some_iff.mp h
    exact ⟨hf.sound, hf.flowing.step hstep⟩

/-! ### Whole runs -/

theorem flows_of_run {virtualNodes : ℕ} {config : DistributedConfig}
    (hrun : (start virtualNodes config).run hash es = some s) :
    s.Flows (queued hash (start virtualNodes config) es)
      (returned hash (start virtualNodes config) es) := by
  refine run_induction (motive := fun es s =>
    s.Flows (queued hash (start virtualNodes config) es)
      (returned hash (start virtualNodes config) es))
    ⟨Cluster.sound_withVirtualNodes virtualNodes, flowing_start⟩ ?_ hrun
  intro es s e s' hrun hf hstep
  rw [queued, returned, trace_concat hrun hstep, trace_concat hrun hstep]
  exact hf.step hstep

/-! ### Where a call comes from -/

/-- The call was made in the run, with the references of the roster at that moment that its request
selects. -/
def Made (hash : List UInt8 → U64) (s : ClusterTraffic M) (es : List (ClusterEvent M))
    (k : CallerNo) (call : SendCall M ClusterRequest) : Prop :=
  ∃ es₁ es₂ s₁, es = es₁ ++ .call call.request call.msg :: es₂ ∧ s.run hash es₁ = some s₁ ∧
    s₁.traffic.nextCall = k ∧ call.destinations = s₁.cluster.destinations hash call.request

/-- What a call has done since it was made is nothing to the origin of the call. -/
theorem Made.of_beganAs {k : CallerNo} {call call' : SendCall M ClusterRequest}
    (hm : Made hash s es k call)
    (h : BeganAs call' call.request call.msg call.destinations) : Made hash s es k call' := by
  obtain ⟨hrequest, hmsg, hdestinations⟩ := h
  unfold Made
  rw [hrequest, hmsg, hdestinations]
  exact hm

theorem Made.append {k : CallerNo} {call : SendCall M ClusterRequest}
    (hm : Made hash s es k call) (e : ClusterEvent M) : Made hash s (es ++ [e]) k call := by
  obtain ⟨es₁, es₂, s₁, rfl, hrest⟩ := hm
  refine ⟨es₁, es₂ ++ [e], s₁, ?_, hrest⟩
  rw [List.append_assoc, List.cons_append]

/-- A call under way was under way before, or its request has just been made; and an event returns
from calls under way only. -/
theorem calls_cases (h : s.step hash e = some s') :
    (∀ k call', s'.traffic.calls k = some call' →
      (∃ call, s.traffic.calls k = some call ∧
        BeganAs call' call.request call.msg call.destinations) ∨
      e = .call call'.request call'.msg ∧ k = s.traffic.nextCall ∧
        call'.destinations = s.cluster.destinations hash call'.request) ∧
    ∀ p ∈ s.returning e, s.traffic.calls p.1 = some p.2 := by
  -- the events of the roster leave the calls as they are
  have hsame (hcalls : s'.traffic.calls = s.traffic.calls) (k : CallerNo)
      (call' : SendCall M ClusterRequest) (hk : s'.traffic.calls k = some call') :
      ∃ call, s.traffic.calls k = some call ∧
        BeganAs call' call.request call.msg call.destinations :=
    ⟨call', hcalls ▸ hk, rfl, rfl, rfl⟩
  cases e with
  | join | leave | setDistributedConfig =>
    obtain ⟨-, h⟩ := Option.ite_none_right_eq_some.mp h
    cases h
    exact ⟨fun k call' hk => Or.inl (hsame rfl k call' hk), fun _ hp => by cases hp⟩
  | call request msg =>
    cases h
    refine ⟨fun k call' hk => ?_, fun _ hp => by cases hp⟩
    by_cases hnew : k = s.traffic.nextCall
    · simp only [Traffic.begin, setCall, hnew, update_self, Option.some.injEq] at hk
      subst hk
      exact Or.inr ⟨rfl, hnew, rfl⟩
    · simp only [Traffic.begin, setCall, update_of_ne hnew] at hk
      exact Or.inl ⟨call', hk, rfl, rfl, rfl⟩
  | traffic e =>
    obtain ⟨traffic, hstep, rfl⟩ := Option.map_eq_some_iff.mp h
    obtain ⟨-, -, hcalls, hreturning⟩ := calls_of_step hstep
    exact ⟨fun k call' hk => Or.inl (hcalls k call' hk), hreturning⟩

/-- **Every call was made**, whether it is under way or has returned. -/
theorem made_of_run {s₀ : ClusterTraffic M} (hstart : ∀ k, s₀.traffic.calls k = none)
    (hrun : s₀.run hash es = some s) :
    (∀ k call, s.traffic.calls k = some call → Made hash s₀ es k call) ∧
      ∀ p ∈ returned hash s₀ es, Made hash s₀ es p.1 p.2 := by
  refine run_induction (motive := fun es (s : ClusterTraffic M) =>
    (∀ k call, s.traffic.calls k = some call → Made hash s₀ es k call) ∧
      ∀ p ∈ returned hash s₀ es, Made hash s₀ es p.1 p.2) ⟨fun k call hk => ?_, ?_⟩ ?_ hrun
  · cases (hstart k).symm.trans hk
  · rintro p ⟨⟩
  · rintro es s e s' hrun ⟨hcalls, hreturned⟩ hst
    obtain ⟨hbefore, hreturning⟩ := calls_cases hst
    refine ⟨fun k call' hk => ?_, fun p hp => ?_⟩
    · rcases hbefore k call' hk with ⟨call, hcall, hbegan⟩ | ⟨rfl, rfl, hdestinations⟩
      · exact ((hcalls k call hcall).of_beganAs hbegan).append e
      · exact ⟨es, [], s, rfl, hrun, rfl, hdestinations⟩
    · rw [returned, trace_concat hrun hst, List.mem_append] at hp
      rcases hp with hp | hp
      · exact (hreturned p hp).append e
      · exact (hcalls p.1 p.2 (hreturning p hp)).append e

/-- **A send through a cluster never fails on a member.** Over every run of a cluster, whatever its
write loops come across on the network: the queue of each member of the roster is open and its
write loop runs, and each call that has returned has put its message exactly once into the queue of
each of its destinations, those of the roster when it was made, in order, and has returned an error
only if it had no destination. -/
theorem calls_succeed {virtualNodes : ℕ} {config : DistributedConfig}
    (hrun : (start virtualNodes config).run hash es = some s) :
    (∀ r ∈ s.cluster.refs, ∃ writer, s.traffic.writers r.writer = some writer ∧
      writer.queue.isOpen = true ∧ writer.phase ≠ .ended) ∧
    (∀ w writer, s.traffic.writers w = some writer →
      writer.queue.accepted = putInto w (queued hash (start virtualNodes config) es)) ∧
    ∀ p ∈ returned hash (start virtualNodes config) es,
      Made hash (start virtualNodes config) es p.1 p.2 ∧
      putBy p.1 (queued hash (start virtualNodes config) es) =
        p.2.destinations.map (fun d => (d.2, p.2.msg)) ∧
      p.2.results = p.2.destinations.map (fun d => (d.1, .ok ())) ∧
      ((p.2.request.answer p.2.results).Succeeds ∨
        p.2.destinations = [] ∧ p.2.request.answer p.2.results = .one (.error .noMembers)) := by
  have hf := (flows_of_run hrun).flowing
  refine ⟨fun r hr => hf.isOpen hr, fun w writer hw => (hf.fed.writer w writer hw).2.2,
    fun p hp => ?_⟩
  obtain ⟨-, -, hdone⟩ := hf.served.returned p hp
  rw [hdone.results]
  exact ⟨(made_of_run (fun _ => rfl) hrun).2 p hp, hdone.put, rfl,
    p.2.request.answer_ok p.2.destinations⟩

/-- Two members join, a broadcast puts its message into both queues and returns, while no connect
succeeds. -/
def broadcasts : List (ClusterEvent ℕ) :=
  [.join ⟨"a", "h:1", "t"⟩, .join ⟨"b", "h:2", "t"⟩, .call .broadcast 7,
    .traffic (.loop 0 .connectFailed), .traffic (.sent 0), .traffic (.sent 0), .traffic (.ret 0)]

/-- The broadcast succeeds, with the two members of the roster when it was made. -/
theorem broadcasts_succeed : ∃ s : ClusterTraffic ℕ,
    (start 1 .default).run (fun _ => 0) broadcasts = some s ∧
    returned (fun _ => 0) (start 1 .default) broadcasts =
      [(0, ⟨.broadcast, 7, [("a", 0), ("b", 1)], [], [("a", .ok ()), ("b", .ok ())]⟩)] ∧
    (∀ w writer, s.traffic.writers w = some writer →
      writer.queue.accepted = putInto w (queued (fun _ => 0) (start 1 .default) broadcasts)) ∧
    ∀ p ∈ returned (fun _ => 0) (start 1 .default) broadcasts,
      Made (fun _ => 0) (start 1 .default) broadcasts p.1 p.2 ∧
      putBy p.1 (queued (fun _ => 0) (start 1 .default) broadcasts) =
        p.2.destinations.map (fun d => (d.2, p.2.msg)) := by
  have hrun : ((start 1 .default).run (fun _ => 0) broadcasts).isSome := rfl
  obtain ⟨-, hqueues, hcalls⟩ := calls_succeed (Option.some_get hrun).symm
  exact ⟨_, (Option.some_get hrun).symm, rfl, hqueues,
    fun p hp => ⟨(hcalls p hp).1, (hcalls p hp).2.1⟩⟩

end ClusterTraffic

end LaneSwitchboards
