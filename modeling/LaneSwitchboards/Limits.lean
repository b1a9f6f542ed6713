import LaneSwitchboards.Cluster.Roster
import LaneSwitchboards.Remote.Writer
import LaneSwitchboards.Supervisor.Registry

/-!
# Configurations that panic

The capacities, windows and counts of the configuration end in four partial operations:
`mpsc::channel` panics on a capacity of 0 and on one above the permits that its semaphore can have,
`Semaphore::new` on more permits than that, `Instant - Duration` where the seconds leave 64 bits,
and `Vec::with_capacity` beyond `isize::MAX` bytes. The send queue of a remote reference and the
permits of a node are kept at 1 or more; no value is kept below the upper limits.

* `System.always_panicFree`: a supervisor panics on the mailbox capacity of its children, if it has
  any, and on a window that reaches below the first instant, however late its signal comes.
* `panicFree_iff`: the values with which nothing panics.
-/

namespace LaneSwitchboards

open Function Transition

/-! ### The partial operations -/

/-- `mpsc::channel`, which panics on a capacity that it cannot be made with. -/
def mpscChannel {α : Type} (capacity : ℕ) : Option (Chan α) :=
  if ¬ Chan.Fits capacity then none else some (.new capacity)

/-- `isize::MAX`. -/
def isizeMax : ℕ := 9223372036854775807

/-- The size of a reference in bytes. -/
def refBytes : ℕ := 8

/-- `Vec::with_capacity` for references, which panics beyond `isize::MAX` bytes. -/
def vecWithCapacity {α : Type} (capacity : ℕ) : Option (List α) :=
  if isizeMax < capacity * refBytes then none else some []

/-- `now - Duration::from_secs(secs)` is representable: its seconds do not leave 64 bits. -/
def Instant.Reaches (now : Instant) (secs : ℕ) : Prop :=
  -9223372036854775808 ≤ now / 1000000000 - secs

theorem isSome_mpscChannel {α : Type} {capacity : ℕ} :
    (mpscChannel capacity : Option (Chan α)).isSome = true ↔ Chan.Fits capacity := by
  unfold mpscChannel
  split_ifs with h <;> simp [h]

theorem isSome_sub {now : Instant} {secs : ℕ} :
    (now.sub secs).isSome = true ↔ now.Reaches secs := by
  have hiff : -(2 ^ 63) * 1000000000 ≤ now - secs * 1000000000 ↔
      -9223372036854775808 ≤ now / 1000000000 - secs := by
    change (_ : ℤ) ≤ _ ↔ (_ : ℤ) ≤ _
    omega
  unfold Instant.Reaches
  rw [← hiff, Instant.sub]
  split_ifs with h
  · exact iff_of_true rfl h
  · exact iff_of_false Bool.false_ne_true h

/-- `spawn_on_runtime` panics with the channels of the actor. -/
theorem isSome_spawnOnRuntime {M A : Type} {w : Runtime M A} {config : ActorConfig} {actor : A}
    {supervisor : Option SupId} :
    (w.spawnOnRuntime config actor supervisor).isSome = true ↔
      Chan.Fits config.mailboxCapacity := by
  unfold Runtime.spawnOnRuntime
  split_ifs with h <;> simp [h]

/-! ### The supervisor -/

/-- The cutoff of a signal taken at this event is representable. -/
def SupervisorConfig.WindowReaches {M A : Type} (config : SupervisorConfig) :
    SysEvent M A → Prop
  | .sup (.recvSignal now) => now.Reaches config.withinSecs
  | _ => True

instance {M A : Type} (config : SupervisorConfig) :
    DecidablePred (config.WindowReaches : SysEvent M A → Prop)
  | .sup (.recvSignal now) =>
    inferInstanceAs (Decidable (_ ≤ (now / 1000000000 - config.withinSecs : ℤ)))
  | .sup (.spawnChild _) | .sup .factoryErr | .sup .installed | .sup .restarted | .sup .shutdown
  | .sup .sendStop | .sup .exit | .env _ => .isTrue trivial

namespace System

variable {M A : Type} {s s₀ s' : System M A} {e : SysEvent M A} {config : SupervisorConfig}
  {actorConfig : ActorConfig} {n : ℕ}

/-- The supervisor has not panicked, and the spawn that it is about to make does not panic. -/
def PanicFree (s : System M A) : Prop :=
  s.sup.phase ≠ .panicked ∧ ∀ cause idx todo, s.sup.phase = .restart cause (idx :: todo) →
    ∀ actor, (s.spawnChild actor cause idx todo).isSome = true

/-- A supervisor of `n` children with this configuration. -/
structure Runs (config : SupervisorConfig) (actorConfig : ActorConfig) (n : ℕ)
    (s : System M A) : Prop where
  inPlace : s.InPlace
  config : s.sup.config = config
  actorConfig : s.sup.actorConfig = actorConfig
  length : s.sup.slots.length = n

theorem Runs.step (hs : s.Runs config actorConfig n) (h : s.step e = some s') :
    s'.Runs config actorConfig n := by
  obtain ⟨-, -, hconfig, hactor⟩ := sup_of_step h
  exact ⟨hs.inPlace.step h, hconfig.trans hs.config, hactor.trans hs.actorConfig,
    (length_slots_of_step h).trans hs.length⟩

theorem runs_start {rt : Runtime M A} {children : List Slot} (hrt : rt.Reachable)
    (h : start rt config actorConfig children = some s) :
    s.Runs config actorConfig children.length ∧
    s.sup.phase = .restart .start (List.range children.length) := by
  have hs := inPlace_start hrt h
  simp only [start, Option.map_eq_some_iff] at h
  obtain ⟨rt', -, rfl⟩ := h
  exact ⟨⟨hs, rfl, rfl, List.length_insertionSort _ _⟩, rfl⟩

/-- The signal channel panics on its capacity. -/
theorem isSome_start {rt : Runtime M A} {children : List Slot} :
    (start rt config actorConfig children).isSome = true ↔ Chan.Fits config.mailboxCapacity := by
  rw [start, Option.isSome_map, Runtime.step]
  split_ifs with h <;> simp [h]

theorem isSome_spawnChild {actor : A} {cause : Cause} {idx : ℕ} {todo : List ℕ} :
    (s.spawnChild actor cause idx todo).isSome = true ↔
      Chan.Fits s.sup.actorConfig.mailboxCapacity := by
  rw [spawnChild, Option.isSome_map, isSome_spawnOnRuntime]

/-- **A signal panics** exactly when its cutoff is not representable. -/
theorem takeSignal_panicked {p : Supervisor} {sig : RestartSignal} {now : Instant} :
    (p.takeSignal sig now).phase = .panicked ↔ ¬ now.Reaches p.config.withinSecs := by
  rw [← isSome_sub, Supervisor.takeSignal]
  split
  · next hnone => simp [hnone]
  · next cutoff hsome =>
    refine iff_of_false ?_ (by simp [hsome])
    dsimp only
    split_ifs
    · split <;> exact SupPhase.noConfusion
    · exact not_false

/-- **What brings a panic**: the signal that is taken, and nothing else. -/
theorem panicked_step (hne : s.sup.phase ≠ .panicked) (h : s.step e = some s') :
    s'.sup.phase = .panicked ↔ ¬ s.sup.config.WindowReaches e := by
  cases e with
  | env e =>
    obtain ⟨-, rt, -, rfl⟩ := step_env h
    exact iff_of_false hne (not_not.mpr trivial)
  | sup c =>
    cases supStep_inv h with
    | signal hp hsig hnp => exact iff_of_false hnp (mt takeSignal_panicked.mpr hnp)
    | panic hp hsig hpanic => exact iff_of_true rfl (takeSignal_panicked.mp hpanic)
    | @installed cause idx id todo hp =>
      refine iff_of_false ?_ (not_not.mpr trivial)
      cases cause <;> exact SupPhase.noConfusion
    | _ => exact iff_of_false SupPhase.noConfusion (not_not.mpr trivial)

/-- A supervisor that has not panicked is about to spawn only if it has a child. -/
theorem Runs.panicFree (hs : s.Runs config actorConfig n) (hne : s.sup.phase ≠ .panicked)
    (h : n = 0 ∨ Chan.Fits actorConfig.mailboxCapacity) : s.PanicFree := by
  refine ⟨hne, fun cause idx todo hp actor => isSome_spawnChild.mpr ?_⟩
  rw [hs.actorConfig]
  rcases h with rfl | hcapacity
  · have hlt := hs.inPlace.inRange idx (by rw [hp]; exact List.mem_cons_self)
    rw [hs.length] at hlt
    cases hlt
  · exact hcapacity

/-- **A supervisor never panics**, over a run of it and its actors, exactly if it has no children
or the mailboxes of its children can be made, and the cutoff of each signal it takes is
representable. -/
theorem always_panicFree [Nonempty A] {rt : Runtime M A} {children : List Slot} (hrt : rt.Reachable)
    (hstart : start rt config actorConfig children = some s₀) (es : List (SysEvent M A)) :
    Always System.step PanicFree s₀ es ↔
      (children = [] ∨ Chan.Fits actorConfig.mailboxCapacity) ∧
      Along System.step (fun _ e _ => config.WindowReaches e) s₀ es := by
  obtain ⟨hs₀, hp₀⟩ := runs_start hrt hstart
  constructor
  · intro h
    constructor
    · by_contra hnot
      obtain ⟨hne, hunfit⟩ := not_or.mp hnot
      obtain ⟨n, hn⟩ := Nat.exists_eq_succ_of_ne_zero (mt List.length_eq_zero_iff.mp hne)
      rw [hn, List.range_succ_eq_map] at hp₀
      obtain ⟨actor⟩ : Nonempty A := inferInstance
      -- the spawn of the first child
      have hspawn := isSome_spawnChild.mp (h.head.2 .start 0 _ hp₀ actor)
      rw [hs₀.actorConfig] at hspawn
      exact hunfit hspawn
    · refine along_of_invariant (P := fun s => s.Runs config actorConfig children.length ∧
        s.sup.phase ≠ .panicked) ?_ ⟨hs₀, h.head.1⟩ h.along
      rintro s e s' ⟨hs, hne⟩ hfree hst
      refine ⟨⟨hs.step hst, hfree.1⟩, ?_⟩
      rw [← hs.config]
      exact not_not.mp (mt (panicked_step hne hst).mpr hfree.1)
  · rintro ⟨hcapacity, hes⟩
    refine Always.mono (P := fun s => s.Runs config actorConfig children.length ∧
      s.sup.phase ≠ .panicked) ?_ fun hs =>
        hs.1.panicFree hs.2 (hcapacity.imp_left List.length_eq_zero_iff.mpr)
    refine always_of_invariant ?_ ⟨hs₀, by rw [hp₀]; exact SupPhase.noConfusion⟩ hes
    rintro s e s' ⟨hs, hne⟩ hreach hst
    refine ⟨hs.step hst, mt (panicked_step hne hst).mp (not_not.mpr ?_)⟩
    rwa [hs.config]

end System

/-! ### Serving an actor -/

namespace Node

variable {M : Type}

/-- `bind_on_runtime`, then the bridge channel of `serve_actor_on_runtime`, which is registered
under the target. It panics with the semaphore or the channel. -/
def serve (config : DistributedConfig) (target : String) : Option (Node M) :=
  (bindOnRuntime config).bind fun node => (mpscChannel config.bridgeCapacity).map fun ch =>
    let node := node.setBridge 0 ch
    { node with nextBridge := 1, table := update node.table target (some 0) }

theorem isSome_bindOnRuntime {config : DistributedConfig} :
    (bindOnRuntime config : Option (Node M)).isSome = true ↔
      config.maxInFlight ≤ Chan.maxPermits := by
  have hiff : Chan.maxPermits < max 1 config.maxInFlight ↔
      ¬ config.maxInFlight ≤ Chan.maxPermits := by
    rw [not_le, lt_max_iff]
    exact or_iff_right (by decide)
  unfold bindOnRuntime
  split_ifs with h
  · simpa using hiff.mp h
  · simpa using not_not.mp (mt hiff.mpr h)

theorem isSome_serve {config : DistributedConfig} {target : String} :
    (serve config target : Option (Node M)).isSome = true ↔
      config.maxInFlight ≤ Chan.maxPermits ∧ Chan.Fits config.bridgeCapacity := by
  rw [← isSome_bindOnRuntime (M := M), ← isSome_mpscChannel (α := Delivery M), serve]
  cases (bindOnRuntime config : Option (Node M)) with
  | none => simp
  | some node => simp

/-- A node that serves an actor is one of the runs of a node. -/
theorem run_serve (codec : Codec M) {config : DistributedConfig} {target : String} {node : Node M}
    (h : serve config target = some node) :
    (bind config).run codec [.openBridge config.bridgeCapacity, .register target 0] =
      some node := by
  obtain ⟨node₀, hbind, h⟩ := Option.bind_eq_some_iff.mp h
  obtain ⟨-, hbind⟩ := Option.ite_none_left_eq_some.mp hbind
  obtain ⟨ch, hch, rfl⟩ := Option.map_eq_some_iff.mp h
  obtain ⟨hfits, hch⟩ := Option.ite_none_left_eq_some.mp hch
  cases hbind
  cases hch
  simp [run, step, not_not.mp hfits, bind, setBridge]

end Node

/-- A node that serves an actor. -/
structure NodeHandle (M : Type) where
  member : ClusterMember
  node : Node M

/-- `serve_actor_on_runtime`: the actor is spawned, the node is bound, and the bridge channel is
opened. `bound` is the address that the listener gets. An actor without its bridge loses its
reference. -/
def serveActorOnRuntime {M A E : Type} (w : Runtime M A) (nodeName target : String) (actor : A)
    (distributed : DistributedConfig) (actorConfig : ActorConfig) (bound : Except E String) :
    Outcome (Runtime M A) (Except E (NodeHandle M)) :=
  match w.spawnOnRuntime actorConfig actor none with
  | none => .panicked { w with nextId := w.nextId + 1 }
  | some (id, w) =>
    match bound with
    | .error e => .ok (.error e) (w.releaseRef id)
    | .ok address =>
      match Node.serve distributed target with
      | none => .panicked (w.releaseRef id)
      | some node => .ok (.ok ⟨⟨nodeName, address, target⟩, node⟩) w

section Serve

variable {M A E : Type} {w : Runtime M A} {nodeName target address : String} {actor : A}
  {distributed : DistributedConfig} {actorConfig : ActorConfig} {bound : Except E String}

/-- **Serving an actor panics** on the capacity of its mailbox, and on the permits of the node and
the capacity of the bridge if the listener is bound. -/
theorem returns_serveActorOnRuntime :
    (serveActorOnRuntime w nodeName target actor distributed actorConfig bound).returns = true ↔
      Chan.Fits actorConfig.mailboxCapacity ∧
      (bound.isOk = true → distributed.maxInFlight ≤ Chan.maxPermits ∧
        Chan.Fits distributed.bridgeCapacity) := by
  have hspawn : (w.spawnOnRuntime actorConfig actor none).isSome = true ↔
      Chan.Fits actorConfig.mailboxCapacity := isSome_spawnOnRuntime
  have hserve : (Node.serve distributed target : Option (Node M)).isSome = true ↔
      distributed.maxInFlight ≤ Chan.maxPermits ∧ Chan.Fits distributed.bridgeCapacity :=
    Node.isSome_serve
  rw [← hspawn, ← hserve]
  unfold serveActorOnRuntime
  cases w.spawnOnRuntime actorConfig actor none with
  | none => simp [Outcome.returns]
  | some p =>
    cases bound with
    | error e => simp [Outcome.returns, Except.isOk, Except.toBool]
    | ok address =>
      cases (Node.serve distributed target : Option (Node M)) with
      | none => simp [Outcome.returns, Except.isOk, Except.toBool]
      | some node => simp [Outcome.returns]

end Serve

/-! ### Preference lists -/

/-- `get_nodes` with the allocation of its result. -/
def HashRing.allocNodes (hash : List UInt8 → U64) (r : HashRing) (key : List UInt8) (count : ℕ) :
    Option (List RingNode) :=
  if r.ring.entries = [] ∨ count = 0 then some [] else
  (vecWithCapacity count).map fun result =>
    r.collect count (r.ring.startingAt (hash key) ++ r.ring.below (hash key)) [] result

/-- `send_replicas`, up to its sends: the positions of the references it sends through. -/
def Cluster.sendReplicas (hash : List UInt8 → U64) (c : Cluster) (key : List UInt8) (count : ℕ) :
    Option (List ℕ) :=
  (c.ring.allocNodes hash key count).map fun nodes =>
    nodes.filterMap fun node => c.refsById.lookup node.id

section Lists

variable {hash : List UInt8 → U64} {r : HashRing} {c : Cluster} {key : List UInt8} {count : ℕ}

/-- **A preference list is allocated** on an empty ring, or within `isize::MAX` bytes. -/
theorem HashRing.allocNodes_eq : r.allocNodes hash key count =
    if r.ring.entries = [] ∨ count * refBytes ≤ isizeMax then some (r.getNodes hash key count)
    else none := by
  unfold allocNodes getNodes vecWithCapacity
  by_cases hring : r.ring.entries = []
  · simp [hring]
  · by_cases hcount : count = 0
    · simp [hcount]
    · by_cases hfits : count * refBytes ≤ isizeMax
      · simp [hring, hcount, hfits]
      · simp [hring, hcount, hfits, not_le.mp hfits]

theorem Cluster.sendReplicas_eq : c.sendReplicas hash key count =
    if c.ring.ring.entries = [] ∨ count * refBytes ≤ isizeMax then
      some (c.targets hash (.sendReplicas key count))
    else none := by
  rw [sendReplicas, HashRing.allocNodes_eq]
  split_ifs <;> rfl

end Lists

/-! ### The values with which nothing panics -/

/-- The send queue of a remote reference: its capacity is kept at 1 or more, so it panics on one
above the limit only. -/
theorem Writer.mpscChannel_withConfig {M : Type} (target : String) (config : DistributedConfig) :
    mpscChannel (Writer.withConfig target config : Writer M).queue.capacity =
      if config.remoteSendCapacity ≤ Chan.maxPermits then
        some (Writer.withConfig target config : Writer M).queue
      else none := by
  have hiff : Chan.Fits (max 1 config.remoteSendCapacity) ↔
      config.remoteSendCapacity ≤ Chan.maxPermits := by
    rw [Chan.Fits, max_le_iff]
    exact ⟨fun h => h.2.2, fun h => ⟨lt_max_of_lt_left Nat.one_pos, by decide, h⟩⟩
  by_cases h : config.remoteSendCapacity ≤ Chan.maxPermits
  · rw [if_pos h]
    exact if_neg (not_not.mpr (hiff.mpr h))
  · rw [if_neg h]
    exact if_pos (mt hiff.mp h)

/-- **The values with which nothing panics.** A spawn needs a capacity that a channel can have for
the mailbox, a supervisor one for its signals and, with children, one for their mailboxes, and in
every run the cutoff of each signal has to be representable; a node is bound with permits that a
semaphore can have; an actor is served with a capacity for its mailbox and, if the listener is
bound, with such permits and a capacity for its bridge; the send queue of a reference has an upper
limit only; and a preference list has to fit into `isize::MAX` bytes, unless the ring is empty. -/
theorem panicFree_iff {M A E : Type} [Nonempty A] (hash : List UInt8 → U64) :
    (∀ (w : Runtime M A) (config : ActorConfig) (actor : A) (supervisor : Option SupId),
      (w.spawnOnRuntime config actor supervisor).isSome = true ↔
        Chan.Fits config.mailboxCapacity) ∧
    (∀ (rt : Runtime M A) (config : SupervisorConfig) (actorConfig : ActorConfig)
      (children : List Slot),
      (System.start rt config actorConfig children).isSome = true ↔
        Chan.Fits config.mailboxCapacity) ∧
    (∀ (rt : Runtime M A) (config : SupervisorConfig) (actorConfig : ActorConfig)
      (children : List Slot) (s₀ : System M A), rt.Reachable →
      System.start rt config actorConfig children = some s₀ → ∀ es : List (SysEvent M A),
      (Always System.step System.PanicFree s₀ es ↔
        (children = [] ∨ Chan.Fits actorConfig.mailboxCapacity) ∧
        Along System.step (fun _ e _ => config.WindowReaches e) s₀ es)) ∧
    (∀ config : DistributedConfig,
      (Node.bindOnRuntime config : Option (Node M)).isSome = true ↔
        config.maxInFlight ≤ Chan.maxPermits) ∧
    (∀ (w : Runtime M A) (nodeName target : String) (actor : A) (distributed : DistributedConfig)
      (actorConfig : ActorConfig) (bound : Except E String),
      (serveActorOnRuntime w nodeName target actor distributed actorConfig bound).returns = true ↔
        Chan.Fits actorConfig.mailboxCapacity ∧
        (bound.isOk = true → distributed.maxInFlight ≤ Chan.maxPermits ∧
          Chan.Fits distributed.bridgeCapacity)) ∧
    (∀ (target : String) (config : DistributedConfig),
      (mpscChannel (Writer.withConfig target config : Writer M).queue.capacity :
        Option (Chan M)).isSome = true ↔ config.remoteSendCapacity ≤ Chan.maxPermits) ∧
    (∀ (r : HashRing) (key : List UInt8) (count : ℕ),
      (r.allocNodes hash key count).isSome = true ↔
        r.ring.entries = [] ∨ count * refBytes ≤ isizeMax) ∧
    (∀ (c : Cluster) (key : List UInt8) (count : ℕ),
      (c.sendReplicas hash key count).isSome = true ↔
        c.ring.ring.entries = [] ∨ count * refBytes ≤ isizeMax) := by
  refine ⟨fun w config actor supervisor => isSome_spawnOnRuntime,
    fun rt config actorConfig children => System.isSome_start,
    fun rt config actorConfig children s₀ hrt hstart es => System.always_panicFree hrt hstart es,
    fun config => Node.isSome_bindOnRuntime,
    fun w nodeName target actor distributed actorConfig bound => returns_serveActorOnRuntime,
    fun target config => ?_, fun r key count => ?_, fun c key count => ?_⟩
  · rw [Writer.mpscChannel_withConfig]
    split_ifs with h <;> simp [h]
  · rw [HashRing.allocNodes_eq]
    split_ifs with h <;> simp [h]
  · rw [Cluster.sendReplicas_eq]
    split_ifs with h <;> simp [h]

/-- The result for two children of which one fails and is restarted. -/
theorem panicFree_childRestarted : ∃ s₀ : System Unit Unit,
    System.twoChildren .default = some s₀ ∧ (s₀.run System.childRestarted).isSome ∧
    Always System.step System.PanicFree s₀ System.childRestarted := by
  have hstart : System.twoChildren .default = some System.oneForOneTwo := rfl
  have hreaches : ∀ e ∈ System.childRestarted, SupervisorConfig.default.WindowReaches e := by
    decide
  have hall := (panicFree_iff (M := Unit) (A := Unit) (E := Unit) fun _ => 7).2.2.1
  refine ⟨_, hstart, rfl, (hall _ _ _ _ _ System.reachable_twoSpecs hstart _).mpr ⟨?_, ?_⟩⟩
  · exact Or.inr (by decide)
  · exact along_of_forall fun s e he s' => hreaches e he

/-- A signal at 1000 s with a window of `u64::MAX` seconds, and every other value that panics. -/
theorem values_panic :
    (∀ capacity ∈ [0, 2305843009213693952],
      (Runtime.init.spawnOnRuntime ⟨capacity, none, none⟩ () none :
        Option (ActorId × Runtime Unit Unit)) = none ∧
      (System.start .init { SupervisorConfig.default with mailboxCapacity := capacity } .default
        [] : Option (System Unit Unit)) = none ∧
      (serveActorOnRuntime (Runtime.init : Runtime Unit Unit) "node" "worker" ()
        { DistributedConfig.default with bridgeCapacity := capacity } .default
        (.ok "127.0.0.1:9001" : Except Unit String)).returns = false) ∧
    (∃ s₀ s : System Unit Unit,
      System.twoChildren { SupervisorConfig.default with withinSecs := 18446744073709551615 } =
        some s₀ ∧
      s₀.run (System.bothSpawn ++ System.failsIn ⟨3⟩ ++
        [.sup (.recvSignal 1000000000000)]) = some s ∧ s.sup.phase = .panicked) ∧
    (Node.bindOnRuntime { DistributedConfig.default with maxInFlight := 2305843009213693952 } :
      Option (Node Unit)) = none ∧
    (mpscChannel (Writer.withConfig "worker"
      { DistributedConfig.default with remoteSendCapacity := 2305843009213693952 } :
      Writer Unit).queue.capacity : Option (Chan Unit)) = none ∧
    ((HashRing.new 1).addNode (fun _ => 7) ⟨"node", "127.0.0.1", 9001⟩).allocNodes (fun _ => 7) []
      18446744073709551615 = none := by
  refine ⟨fun capacity hcapacity => ?_, ⟨_, _, rfl, rfl, rfl⟩, rfl, rfl, ?_⟩
  · simp only [List.mem_cons, List.not_mem_nil, or_false] at hcapacity
    rcases hcapacity with rfl | rfl <;> exact ⟨rfl, rfl, rfl⟩
  · rw [HashRing.allocNodes_eq]
    decide

end LaneSwitchboards
