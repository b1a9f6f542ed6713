import LaneSwitchboards.Remote.Order
import Mathlib.Algebra.BigOperators.Group.Finset.Basic
import Mathlib.Algebra.Order.Group.Multiset
import Mathlib.Data.List.Perm.Basic
import Mathlib.Tactic.Abel

/-!
# Messages in transit through a node

The messages that a peer has written on its connections `own`, all of them frames for one target
that stays registered: they are on a connection, in a dispatch task, or handed to the bridge
channel. A step of the node loses none of them, except for a timeout of a connection with
something unread on it: `held_of_step`.
-/

namespace LaneSwitchboards

open Function

variable {M : Type}

/-! ### One connection -/

/-- The messages on a connection. -/
def Conn.load (codec : Codec M) (conn : Conn M) : Multiset M :=
  (conn.wire.filterMap fun frame => (codec.decode frame).map Prod.snd : List M) +
    match conn.phase with
    | .body frame => (((codec.decode frame).map Prod.snd).toList : Multiset M)
    | .permit _ msg => {msg}
    | _ => 0

/-- A frame that the node reads as a message for the target. -/
def FrameFor (codec : Codec M) (config : DistributedConfig) (target : String)
    (frame : List UInt8) : Prop :=
  frame.length ≠ 0 ∧ frame.length ≤ config.maxFrameBytes ∧
    ∃ msg, codec.decode frame = some (target, msg)

/-- A connection with frames for the target only. -/
structure Conn.Pure (codec : Codec M) (config : DistributedConfig) (target : String)
    (conn : Conn M) : Prop where
  wire : ∀ frame ∈ conn.wire, FrameFor codec config target frame
  body : ∀ frame, conn.phase = .body frame → FrameFor codec config target frame
  permit : ∀ target' msg, conn.phase = .permit target' msg → target' = target

/-- Something on the connection has yet to be read. -/
def Conn.Unread (conn : Conn M) : Prop := conn.wire ≠ [] ∨ ∃ frame, conn.phase = .body frame

namespace Conn

variable {codec : Codec M} {config : DistributedConfig} {target : String} {conn conn' : Conn M}
  {r : ReadChoice}

theorem load_new : (new : Conn M).load codec = 0 := rfl

theorem load_close : conn.close.load codec = 0 := rfl

theorem pure_new : (new : Conn M).Pure codec config target :=
  ⟨fun _ hmem => (by cases hmem), nofun, nofun⟩

theorem pure_close : conn.close.Pure codec config target :=
  ⟨fun _ hmem => (by cases hmem), nofun, nofun⟩

/-- What a timeout loses. -/
theorem Pure.load_eq_zero_iff (hp : conn.Pure codec config target)
    (hphase : conn.phase = .header ∨ ∃ frame, conn.phase = .body frame) :
    conn.load codec = 0 ↔ ¬ conn.Unread := by
  have hwire : (conn.wire.filterMap fun frame => (codec.decode frame).map Prod.snd) = [] ↔
      conn.wire = [] := by
    cases hw : conn.wire with
    | nil => simp
    | cons frame rest =>
      obtain ⟨-, -, msg, hdec⟩ := hp.wire frame (by simp [hw])
      simp [hdec]
  rcases hphase with hphase | ⟨frame, hphase⟩
  · simp [load, Unread, hphase, hwire]
  · obtain ⟨-, -, msg, hdec⟩ := hp.body frame hphase
    have hne : conn.load codec ≠ 0 := by
      intro h
      simpa [load, hphase, hdec] using congrArg Multiset.card h
    simp [hne, Unread, hphase]

/-- **A read** keeps the messages of a connection, but a timeout loses what is unread. -/
theorem Pure.load_read (hp : conn.Pure codec config target)
    (h : conn.read config codec r = some conn') :
    conn'.Pure codec config target ∧
    ∃ lost, conn.load codec = conn'.load codec + lost ∧
      (lost = 0 ↔ ¬ (r = .timeout ∧ conn.Unread)) := by
  unfold Conn.read at h
  split at h
  · next hphase =>
    split at h
    · cases h
    · next frame rest hw =>
      obtain ⟨hzero, hmax, msg, hdec⟩ := hp.wire frame (by simp [hw])
      rw [if_neg (by omega)] at h
      cases h
      refine ⟨⟨fun f hf => hp.wire f (by simp [hw, hf]), fun f hf => ?_, nofun⟩, 0, ?_, by simp⟩
      · cases hf
        exact ⟨hzero, hmax, msg, hdec⟩
      · simp [load, hw, hdec, hphase, ← Multiset.cons_coe, ← Multiset.singleton_add, add_comm]
  · next hphase =>
    split_ifs at h with heof
    cases h
    exact ⟨pure_close, 0, by simp [load, close, hphase, heof.1], by simp⟩
  · next frame hphase =>
    obtain ⟨hzero, hmax, msg, hdec⟩ := hp.body frame hphase
    rw [hdec] at h
    cases h
    refine ⟨⟨hp.wire, nofun, fun target' msg' hper => ?_⟩, 0, ?_, by simp⟩
    · cases hper
      rfl
    · simp [load, hphase, hdec]
  · next hphase =>
    cases h
    refine ⟨pure_close, conn.load codec, by rw [load_close, zero_add], ?_⟩
    simpa using hp.load_eq_zero_iff (Or.inl hphase)
  · next frame hphase =>
    cases h
    refine ⟨pure_close, conn.load codec, by rw [load_close, zero_add], ?_⟩
    simpa using hp.load_eq_zero_iff (Or.inr ⟨frame, hphase⟩)
  · cases h

end Conn

/-! ### A node -/

namespace Node

variable {codec : Codec M} {own : Finset ConnId} {target : String} {b : BridgeId}
  {n n' : Node M} {e : NodeEvent} {c : ConnId} {old new : Conn M}

/-- The messages on the connections `own`. -/
def onConns (codec : Codec M) (own : Finset ConnId) (n : Node M) : Multiset M :=
  ∑ c ∈ own, (n.conns c).elim 0 (Conn.load codec)

/-- The messages of the connections `own` in dispatch tasks. -/
def dispatching (own : Finset ConnId) (tasks : List (Dispatch M)) : Multiset M :=
  ((tasks.filter fun t => t.conn ∈ own).map Dispatch.msg : List M)

/-- The messages of the connections `own` that a bridge channel has accepted. -/
def handed (own : Finset ConnId) (accepted : List (Delivery M)) : Multiset M :=
  ((accepted.filter fun d => d.conn ∈ own).map Delivery.msg : List M)

/-- All messages of the connections `own` that the node has not lost. -/
def held (codec : Codec M) (own : Finset ConnId) (b : BridgeId) (n : Node M) : Multiset M :=
  n.onConns codec own + dispatching own n.tasks + handed own (n.bridges b).accepted

theorem onConns_setConn (codec : Codec M) (new : Conn M) (hmem : c ∈ own)
    (hc : n.conns c = some old) :
    (n.setConn c new).onConns codec own + old.load codec =
      n.onConns codec own + new.load codec := by
  have hrest : ∑ c' ∈ own.erase c, ((n.setConn c new).conns c').elim 0 (Conn.load codec) =
      ∑ c' ∈ own.erase c, (n.conns c').elim 0 (Conn.load codec) := by
    refine Finset.sum_congr rfl fun c' hc' => ?_
    simp only [setConn, update_of_ne (Finset.ne_of_mem_erase hc')]
  have hnew := Finset.add_sum_erase own
    (fun c' => ((n.setConn c new).conns c').elim 0 (Conn.load codec)) hmem
  have hold := Finset.add_sum_erase own (fun c' => (n.conns c').elim 0 (Conn.load codec)) hmem
  rw [onConns, onConns, ← hnew, ← hold, hrest]
  simp only [setConn, update_self, hc, Option.elim_some]
  abel

theorem onConns_setConn_of_notMem (codec : Codec M) (n : Node M) (new : Conn M) (hmem : c ∉ own) :
    (n.setConn c new).onConns codec own = n.onConns codec own := by
  refine Finset.sum_congr rfl fun c' hc' => ?_
  have hne : c' ≠ c := fun h => hmem (h ▸ hc')
  simp only [setConn, update_of_ne hne]

/-- The messages on a connection stay. -/
theorem onConns_setConn_of_load (hc : n.conns c = some old)
    (hload : c ∈ own → new.load codec = old.load codec) :
    (n.setConn c new).onConns codec own = n.onConns codec own := by
  by_cases hmem : c ∈ own
  · have hsum := onConns_setConn codec new hmem hc
    rw [hload hmem] at hsum
    exact add_right_cancel hsum
  · exact onConns_setConn_of_notMem codec n new hmem

theorem dispatching_cons (t : Dispatch M) (tasks : List (Dispatch M)) :
    dispatching own (t :: tasks) =
      (if t.conn ∈ own then {t.msg} else 0) + dispatching own tasks := by
  by_cases hmem : t.conn ∈ own <;> simp [dispatching, hmem, ← Multiset.cons_coe]

theorem dispatching_perm {tasks tasks' : List (Dispatch M)} (h : tasks.Perm tasks') :
    dispatching own tasks = dispatching own tasks' :=
  Multiset.coe_eq_coe.mpr ((h.filter _).map _)

/-- The messages in dispatch tasks, apart from one. -/
theorem dispatching_eraseIdx {tasks : List (Dispatch M)} {k : ℕ} {t : Dispatch M}
    (ht : tasks[k]? = some t) : dispatching own tasks =
      (if t.conn ∈ own then {t.msg} else 0) + dispatching own (tasks.eraseIdx k) := by
  obtain ⟨hk, rfl⟩ := List.getElem?_eq_some_iff.mp ht
  rw [← dispatching_cons]
  exact dispatching_perm (List.getElem_cons_eraseIdx_perm hk).symm

/-- A task that goes on keeps its message. -/
theorem dispatching_set {tasks : List (Dispatch M)} {k : ℕ} {t t' : Dispatch M}
    (ht : tasks[k]? = some t) (hconn : t'.conn = t.conn) (hmsg : t'.msg = t.msg) :
    dispatching own (tasks.set k t') = dispatching own tasks := by
  have hk := (List.getElem?_eq_some_iff.mp ht).1
  rw [dispatching_perm (List.set_perm_cons_eraseIdx hk t'), dispatching_cons, hconn, hmsg,
    ← dispatching_eraseIdx ht]

theorem dispatching_concat (tasks : List (Dispatch M)) (t : Dispatch M) :
    dispatching own (tasks ++ [t]) =
      (if t.conn ∈ own then {t.msg} else 0) + dispatching own tasks := by
  rw [← dispatching_cons]
  exact dispatching_perm (List.perm_append_singleton t tasks)

theorem handed_concat (own : Finset ConnId) (accepted : List (Delivery M)) (d : Delivery M) :
    handed own (accepted ++ [d]) =
      handed own accepted + if d.conn ∈ own then {d.msg} else 0 := by
  by_cases hmem : d.conn ∈ own <;> simp [handed, hmem, ← Multiset.coe_add]

/-- What a node keeps while it serves the target of the frames on the connections `own`. -/
structure Framed (codec : Codec M) (own : Finset ConnId) (target : String) (b : BridgeId)
    (n : Node M) : Prop where
  numbered : n.Numbered
  serves : n.Serves target b
  conns : ∀ c ∈ own, ∃ conn, n.conns c = some conn ∧ conn.Pure codec n.config target
  tasks : ∀ t ∈ n.tasks, t.conn ∈ own →
    t.target = target ∧ ∀ b', t.phase = .send b' → b' = b

/-- An event that writes nothing but frames for the target on the connections `own`, and leaves
the registration and the bridge channel of the target alone. -/
structure Spares (codec : Codec M) (config : DistributedConfig) (own : Finset ConnId)
    (target : String) (b : BridgeId) (e : NodeEvent) : Prop where
  arrive : ∀ c body, e = .arrive c body → c ∈ own → FrameFor codec config target body
  register : ∀ b', e ≠ .register target b'
  unregister : e ≠ .unregister target
  closeBridge : e ≠ .closeBridge b

/-- The target stays registered and its bridge channel open. -/
theorem Serves.step (hs : n.Serves target b) (hregister : ∀ b', e ≠ .register target b')
    (hunregister : e ≠ .unregister target) (hclose : e ≠ .closeBridge b)
    (h : n.step codec e = some n') : n'.Serves target b := by
  have hset {b' : BridgeId} {ch : Chan (Delivery M)}
      (hch : b = b' → ch.isOpen = true) : ((n.setBridge b' ch).bridges b).isOpen = true := by
    by_cases hb : b = b'
    · subst hb
      simpa [setBridge] using hch rfl
    · simpa [setBridge, update_of_ne hb] using hs.isOpen
  cases step_inv h with
  | send ht hphase hsend =>
    refine ⟨hs.table, hset fun hb => ?_, hs.lt⟩
    rw [Chan.isOpen_send hsend, ← hb]
    exact hs.isOpen
  | openBridge hcapacity =>
    exact ⟨hs.table, hset fun hb => absurd hb hs.lt.ne, hs.lt.trans (Nat.lt_succ_self _)⟩
  | @register target' b' hb =>
    have hne : target ≠ target' := by
      rintro rfl
      exact hregister b' rfl
    exact ⟨by simpa [update_of_ne hne] using hs.table, hs.isOpen, hs.lt⟩
  | @unregister target' =>
    have hne : target ≠ target' := by
      rintro rfl
      exact hunregister rfl
    exact ⟨by simpa [update_of_ne hne] using hs.table, hs.isOpen, hs.lt⟩
  | @recvBridge b' d ch hrecv =>
    refine ⟨hs.table, hset fun hb => ?_, hs.lt⟩
    rw [Chan.isOpen_recv hrecv, ← hb]
    exact hs.isOpen
  | @closeBridge b' =>
    refine ⟨hs.table, hset fun hb => ?_, hs.lt⟩
    subst hb
    exact absurd rfl hclose
  | _ => exact ⟨hs.table, hs.isOpen, hs.lt⟩

theorem Framed.step (hf : n.Framed codec own target b)
    (hs : Spares codec n.config own target b e) (h : n.step codec e = some n') :
    n'.Framed codec own target b := by
  have hset {c' : ConnId} {old new : Conn M} (hc' : n.conns c' = some old)
      (hnew : c' ∈ own → old.Pure codec n.config target → new.Pure codec n.config target) :
      ∀ c ∈ own, ∃ conn, (n.setConn c' new).conns c = some conn ∧
        conn.Pure codec n.config target := by
    intro c hmem
    obtain ⟨conn, hc, hpure⟩ := hf.conns c hmem
    by_cases hcc : c = c'
    · subst hcc
      obtain rfl : conn = old := Option.some.inj (hc.symm.trans hc')
      exact ⟨new, by simp [setConn], hnew hmem hpure⟩
    · exact ⟨conn, by simp [setConn, update_of_ne hcc, hc], hpure⟩
  have hconns : ∀ c ∈ own, ∃ conn, n'.conns c = some conn ∧
      conn.Pure codec n'.config target := by
    cases step_inv h with
    | accept =>
      intro c hmem
      obtain ⟨conn, hc, hpure⟩ := hf.conns c hmem
      have hne : c ≠ n.nextConn := by
        rintro rfl
        rw [hf.numbered.fresh _ le_rfl] at hc
        cases hc
      exact ⟨conn, by simp [setConn, update_of_ne hne, hc], hpure⟩
    | arrive hc heof hopen =>
      refine hset hc fun hmem hpure => ⟨fun frame hframe => ?_, hpure.body, hpure.permit⟩
      rcases List.mem_append.mp hframe with hframe | hframe
      · exact hpure.wire frame hframe
      · obtain rfl := List.mem_singleton.mp hframe
        exact hs.arrive _ _ rfl hmem
    | hangUp hc => exact hset hc fun _ hpure => ⟨hpure.wire, hpure.body, hpure.permit⟩
    | read hc hread => exact hset hc fun _ hpure => (hpure.load_read hread).1
    | acquire hc hphase hpermit => exact hset hc fun _ hpure => ⟨hpure.wire, by simp, by simp⟩
    | _ => exact hf.conns
  have htasks : ∀ t ∈ n'.tasks, t.conn ∈ own →
      t.target = target ∧ ∀ b', t.phase = .send b' → b' = b := by
    intro t' ht' hmem
    cases step_inv h with
    | acquire hc hphase hpermit =>
      rcases List.mem_append.mp ht' with ht' | ht'
      · exact hf.tasks t' ht' hmem
      · obtain rfl := List.mem_singleton.mp ht'
        obtain ⟨conn, hc', hpure⟩ := hf.conns _ hmem
        obtain rfl := Option.some.inj (hc'.symm.trans hc)
        exact ⟨hpure.permit _ _ hphase, by simp⟩
    | found ht hphase htable =>
      rcases List.mem_or_eq_of_mem_set ht' with ht' | rfl
      · exact hf.tasks t' ht' hmem
      · have htarget := (hf.tasks _ (List.mem_of_getElem? ht) hmem).1
        rw [htarget, hf.serves.table] at htable
        refine ⟨htarget, fun b' hb' => ?_⟩
        cases hb'
        cases htable
        rfl
    | missing | send => exact hf.tasks t' (List.mem_of_mem_eraseIdx ht') hmem
    | _ => exact hf.tasks t' ht' hmem
  exact ⟨hf.numbered.step h, hf.serves.step hs.register hs.unregister hs.closeBridge h,
    hconns, htasks⟩

/-- A timeout of one of the connections `own`, with something unread on it. -/
def TimesOut (own : Finset ConnId) (n : Node M) (e : NodeEvent) : Prop :=
  ∃ c ∈ own, ∃ conn, e = .read c .timeout ∧ n.conns c = some conn ∧ conn.Unread

/-- A read keeps the messages, but a timeout loses what is unread. -/
theorem Framed.held_read (hf : n.Framed codec own target b) {conn conn' : Conn M} {r : ReadChoice}
    (hc : n.conns c = some conn) (hread : conn.read n.config codec r = some conn') :
    ∃ lost, n.held codec own b = (n.setConn c conn').held codec own b + lost ∧
      (lost = 0 ↔ ¬ TimesOut own n (.read c r)) := by
  by_cases hmem : c ∈ own
  · obtain ⟨conn₀, hc₀, hpure⟩ := hf.conns c hmem
    obtain rfl := Option.some.inj (hc₀.symm.trans hc)
    obtain ⟨-, lost, hload, hlost⟩ := hpure.load_read hread
    have hsum := onConns_setConn codec conn' hmem hc
    have honConns : n.onConns codec own = (n.setConn c conn').onConns codec own + lost := by
      rw [hload, ← add_assoc, add_right_comm] at hsum
      exact (add_right_cancel hsum).symm
    refine ⟨lost, ?_, hlost.trans (not_congr ⟨?_, ?_⟩)⟩
    · rw [held, honConns]
      simp only [held, setConn]
      abel
    · rintro ⟨rfl, hunread⟩
      exact ⟨c, hmem, conn₀, rfl, hc, hunread⟩
    · rintro ⟨c', -, conn', he, hc', hunread⟩
      cases he
      obtain rfl := Option.some.inj (hc'.symm.trans hc)
      exact ⟨rfl, hunread⟩
  · refine ⟨0, ?_, iff_of_true rfl ?_⟩
    · have hsum := onConns_setConn_of_notMem codec n conn' hmem
      rw [add_zero]
      exact congrArg (· + _ + _) hsum.symm
    · rintro ⟨c', hmem', conn', he, -⟩
      cases he
      exact hmem hmem'

/-- With its permit a message moves from the connection to a dispatch task. -/
theorem held_acquire {conn : Conn M} {target' : String} {msg : M} (hc : n.conns c = some conn)
    (hphase : conn.phase = .permit target' msg) :
    held codec own b
      { n.setConn c { conn with phase := .header, received := conn.received + 1 } with
        tasks := n.tasks ++ [⟨c, conn.received, target', msg, .lookup⟩] } =
      n.held codec own b := by
  by_cases hmem : c ∈ own
  · have hsum := onConns_setConn codec
      { conn with phase := .header, received := conn.received + 1 } hmem hc
    have hload : conn.load codec = Conn.load codec
        { conn with phase := .header, received := conn.received + 1 } + {msg} := by
      simp [Conn.load, hphase]
    rw [hload, ← add_assoc, add_right_comm] at hsum
    have honConns := add_right_cancel hsum
    simp only [held, dispatching_concat, if_pos hmem, ← honConns]
    simp only [onConns, setConn]
    abel
  · have hsum := onConns_setConn_of_notMem codec n
      { conn with phase := .header, received := conn.received + 1 } hmem
    simp only [held, dispatching_concat, if_neg hmem, zero_add, ← hsum]
    simp only [onConns, setConn]

/-- A dispatch task hands its message to the bridge channel. -/
theorem Framed.held_send (hf : n.Framed codec own target b) {k : ℕ} {t : Dispatch M}
    {b' : BridgeId} {ch : Chan (Delivery M)} (ht : n.tasks[k]? = some t)
    (hphase : t.phase = .send b')
    (hsend : (n.bridges b').send ⟨t.conn, t.seq, t.msg⟩ = some ch) :
    held codec own b { n.setBridge b' ch with tasks := n.tasks.eraseIdx k } =
      n.held codec own b := by
  by_cases hmem : t.conn ∈ own
  · obtain rfl := (hf.tasks t (List.mem_of_getElem? ht) hmem).2 b' hphase
    rcases Chan.send_eq_some.mp hsend with ⟨-, rfl⟩ | ⟨hclosed, -⟩
    · have hhanded := handed_concat own (n.bridges b').accepted ⟨t.conn, t.seq, t.msg⟩
      simp only [if_pos hmem] at hhanded
      simp only [held, dispatching_eraseIdx ht, if_pos hmem, setBridge, update_self,
        Chan.accepted_push, hhanded, onConns]
      abel
    · rw [hf.serves.isOpen] at hclosed
      cases hclosed
  · have hhanded : handed own ((n.setBridge b' ch).bridges b).accepted =
        handed own (n.bridges b).accepted := by
      rcases Chan.send_eq_some.mp hsend with ⟨-, rfl⟩ | ⟨-, rfl⟩
      · by_cases hb : b = b'
        · subst hb
          simp [setBridge, handed, hmem]
        · simp [setBridge, update_of_ne hb]
      · exact congrArg _ (accepted_setBridge rfl)
    simp only [held, hhanded, dispatching_eraseIdx ht, if_neg hmem, zero_add]
    rfl

/-- **Conservation.** The messages on the connections `own`, in dispatch tasks and handed to the
bridge channel stay, but for a timeout with something unread. -/
theorem Framed.held_of_step (hf : n.Framed codec own target b)
    (harrive : ∀ c body, e = .arrive c body → c ∉ own) (h : n.step codec e = some n') :
    ∃ lost, n.held codec own b = n'.held codec own b + lost ∧
      (lost = 0 ↔ ¬ TimesOut own n e) := by
  have hkept (hheld : n'.held codec own b = n.held codec own b)
      (hne : ∀ c, e ≠ .read c .timeout) : ∃ lost, n.held codec own b =
        n'.held codec own b + lost ∧ (lost = 0 ↔ ¬ TimesOut own n e) := by
    refine ⟨0, by rw [hheld, add_zero], iff_of_true rfl ?_⟩
    rintro ⟨c, -, conn, he, -⟩
    exact hne c he
  cases step_inv h with
  | accept =>
    refine hkept ?_ (by simp)
    have hmem : n.nextConn ∉ own := by
      intro hmem
      obtain ⟨conn, hc, -⟩ := hf.conns _ hmem
      rw [hf.numbered.fresh _ le_rfl] at hc
      cases hc
    have hsum : (n.setConn n.nextConn .new).onConns codec own = n.onConns codec own :=
      onConns_setConn_of_notMem codec n .new hmem
    exact congrArg (· + _ + _) hsum
  | arrive hc heof hopen =>
    refine hkept ?_ (by simp)
    exact congrArg (· + _ + _) (onConns_setConn_of_notMem codec n _ (harrive _ _ rfl))
  | hangUp hc =>
    refine hkept ?_ (by simp)
    exact congrArg (· + _ + _) (onConns_setConn_of_load hc fun _ => rfl)
  | read hc hread => exact hf.held_read hc hread
  | acquire hc hphase hpermit => exact hkept (held_acquire hc hphase) (by simp)
  | found ht hphase htable =>
    refine hkept ?_ (by simp)
    exact congrArg (_ + · + _) (dispatching_set ht rfl rfl)
  | missing ht hphase htable =>
    refine hkept ?_ (by simp)
    have hmem : _ ∉ own := fun hmem => by
      rw [(hf.tasks _ (List.mem_of_getElem? ht) hmem).1, hf.serves.table] at htable
      cases htable
    refine congrArg (_ + · + _) ?_
    rw [dispatching_eraseIdx ht, if_neg hmem, zero_add]
  | send ht hphase hsend => exact hkept (hf.held_send ht hphase hsend) (by simp)
  | openBridge hcapacity =>
    refine hkept ?_ (by simp)
    simp [held, setBridge, update_of_ne hf.serves.lt.ne, onConns]
  | recvBridge hrecv =>
    refine hkept ?_ (by simp)
    exact congrArg (_ + handed own ·) (accepted_setBridge (Chan.accepted_recv hrecv))
  | closeBridge =>
    refine hkept ?_ (by simp)
    exact congrArg (_ + handed own ·) (accepted_setBridge rfl)
  | _ => exact hkept rfl (by simp)

/-- A new connection has nothing in the node yet. -/
theorem Framed.accept (hf : n.Framed codec own target b) (h : n.step codec .accept = some n') :
    n'.Framed codec (insert n.nextConn own) target b ∧
      n'.held codec (insert n.nextConn own) b = n.held codec own b := by
  have hnone : n.conns n.nextConn = none := hf.numbered.fresh _ le_rfl
  have hmem : n.nextConn ∉ own := by
    intro hmem
    obtain ⟨conn, hc, -⟩ := hf.conns _ hmem
    rw [hnone] at hc
    cases hc
  have htask : ∀ t ∈ n.tasks, t.conn ≠ n.nextConn := by
    rintro t ht hconn
    obtain ⟨conn, hc, -⟩ := hf.numbered.tasks t ht
    rw [hconn, hnone] at hc
    cases hc
  have hdelivery : ∀ d ∈ (n.bridges b).accepted, d.conn ≠ n.nextConn := by
    rintro d hd hconn
    obtain ⟨conn, hc, -⟩ := hf.numbered.accepted b d hd
    rw [hconn, hnone] at hc
    cases hc
  have hs : Spares codec n.config own target b .accept := ⟨nofun, nofun, nofun, nofun⟩
  have hf' := hf.step hs h
  cases h
  refine ⟨⟨hf'.numbered, hf'.serves, fun c hc => ?_, fun t ht hown => ?_⟩, ?_⟩
  · rcases Finset.mem_insert.mp hc with rfl | hc
    · exact ⟨.new, by simp [setConn], Conn.pure_new⟩
    · exact hf'.conns c hc
  · rcases Finset.mem_insert.mp hown with hconn | hown
    · exact absurd hconn (htask t ht)
    · exact hf'.tasks t ht hown
  · have hconns : (n.setConn n.nextConn .new).onConns codec (insert n.nextConn own) =
        n.onConns codec own := by
      have hrest := onConns_setConn_of_notMem codec n .new hmem
      rw [← hrest, onConns, Finset.sum_insert hmem]
      simp [onConns, setConn, Conn.load_new]
    have htasks : dispatching (insert n.nextConn own) n.tasks = dispatching own n.tasks := by
      unfold dispatching
      rw [List.filter_congr fun t ht => ?_]
      simp [htask t ht]
    have haccepted : handed (insert n.nextConn own) (n.bridges b).accepted =
        handed own (n.bridges b).accepted := by
      unfold handed
      rw [List.filter_congr fun d hd => ?_]
      simp [hdelivery d hd]
    exact congrArg₂ (· + ·) (congrArg₂ (· + ·) hconns htasks) haccepted

/-- A frame on one of the connections `own` is on the wire, or is lost if the node has closed
the connection. -/
theorem held_of_arrive {body : List UInt8} {msg : M} (hmem : c ∈ own)
    (hdec : codec.decode body = some (target, msg)) (h : n.step codec (.arrive c body) = some n') :
    (∃ conn, n.conns c = some conn ∧ conn.phase = .closed) ∧ n' = n ∨
    (¬ ∃ conn, n.conns c = some conn ∧ conn.phase = .closed) ∧
      n'.held codec own b = n.held codec own b + {msg} := by
  cases step_inv h with
  | @arrive _ _ conn hc heof hopen =>
    refine Or.inr ⟨?_, ?_⟩
    · rintro ⟨conn', hc', hclosed⟩
      obtain rfl := Option.some.inj (hc'.symm.trans hc)
      exact hopen hclosed
    · have hsum := onConns_setConn codec
        { conn with wire := conn.wire ++ [body] } hmem hc
      have hload : Conn.load codec { conn with wire := conn.wire ++ [body] } =
          {msg} + conn.load codec := by
        have hwire : ((conn.wire ++ [body]).filterMap fun frame =>
            (codec.decode frame).map Prod.snd) =
            (conn.wire.filterMap fun frame => (codec.decode frame).map Prod.snd) ++ [msg] := by
          simp [hdec]
        rw [Conn.load, hwire, ← Multiset.coe_add, add_comm _ ([msg] : Multiset M), add_assoc]
        rfl
      rw [hload, ← add_assoc] at hsum
      have honConns := add_right_cancel hsum
      simp only [held, honConns]
      simp only [setConn]
      abel
  | arriveClosed hc heof hclosed => exact Or.inl ⟨⟨_, hc, hclosed⟩, rfl⟩

end Node

end LaneSwitchboards
