import LaneSwitchboards.Actor.Cascade
import Mathlib.Data.List.Chain

/-!
# The root cause of an exit

`ExitReason::Linked` wraps the reason of the peer, which may itself be `Linked`. So a reason is a
trail from the actor that has it to the one that failed first. The trail tells the truth
(`root_cause`): each actor on it exited with just the reason that the one before it wraps, went
through its `post_stop` and held that one as a link; no actor is on it twice.
-/

namespace LaneSwitchboards

namespace ExitReason

/-- The actors that a reason names, each with its own reason, after the actor that has it. -/
def trail (q : ActorId) : ExitReason → List (ActorId × ExitReason)
  | .linked p r => (q, .linked p r) :: trail p r
  | r => [(q, r)]

/-- The reason at the bottom. -/
def root : ExitReason → ExitReason
  | .linked _ r => r.root
  | r => r

/-- How often a reason is wrapped. -/
def depth : ExitReason → ℕ
  | .linked _ r => r.depth + 1
  | _ => 0

variable {p q : ActorId} {r : ExitReason}

theorem exists_trail_eq_cons (q : ActorId) (r : ExitReason) : ∃ l, r.trail q = (q, r) :: l := by
  cases r <;> exact ⟨_, rfl⟩

theorem length_trail (q : ActorId) (r : ExitReason) : (r.trail q).length = r.depth + 1 := by
  induction r generalizing q with
  | linked p r ih => rw [trail, List.length_cons, ih p, depth]
  | _ => rfl

theorem depth_root (r : ExitReason) : r.root.depth = 0 := by
  induction r with
  | linked p r ih => exact ih
  | _ => rfl

/-- What wraps a reason is deeper. -/
theorem depth_lt_of_isChain {R : ActorId × ExitReason → ActorId × ExitReason → Prop}
    (hR : ∀ x y, R x y → x.2 = .linked y.1 y.2) {l : List (ActorId × ExitReason)}
    (h : l.IsChain R) : l.Pairwise fun x y => y.2.depth < x.2.depth := by
  have hlt : l.IsChain fun x y => y.2.depth < x.2.depth := h.imp fun x y hxy => by
    rw [hR x y hxy]
    exact Nat.lt_succ_self _
  have : IsTrans (ActorId × ExitReason) fun x y => y.2.depth < x.2.depth :=
    ⟨fun _ _ _ hxy hyz => hyz.trans hxy⟩
  exact List.isChain_iff_pairwise.mp hlt

end ExitReason

namespace Runtime

open Transition

variable {M A : Type} {w w' : Runtime M A} {p q : ActorId} {e : RtEvent M A}
  {es : List (RtEvent M A)} {t : Task M A} {r : ExitReason}

/-- `p` has gone through its `post_stop` with the abnormal reason `r`, and holds `q` as a link. -/
def Tells (w : Runtime M A) (p : ActorId) (r : ExitReason) (q : ActorId) : Prop :=
  shouldPropagateLinkedExit r = true ∧ ∃ t, w.tasks p = some t ∧ t.phase.postStopDone = true ∧
    t.phase.reason = some r ∧ q ∈ t.links

/-- After the loop the links stay as they are. -/
theorem links_of_postStopDone {t t' : Task M A} {x : Input M A} (h : t.step x = some t')
    (hdone : t.phase.postStopDone = true) : t'.links = t.links := by
  cases Task.step_move h with
  | insert peer hp =>
    rw [Phase.postStopDone_of_running hp] at hdone
    cases hdone
  | erase peer hp =>
    rw [hp] at hdone
    cases hdone
  | _ => assumption

/-- Only links are told. -/
theorem targets_subset_of_step {t t' : Task M A} {x : Input M A} (h : t.step x = some t')
    (ht : t.phase.targets ⊆ t.links) : t'.phase.targets ⊆ t'.links := by
  have hlinks : t'.phase.targets ⊆ t.links :=
    (Task.step_targets h).trans (Finset.union_subset ht (Finset.Subset.refl _))
  cases Task.step_move h with
  | insert peer _ _ _ _ _ hp' | erase peer _ _ _ hp' =>
    rw [hp']
    exact Finset.empty_subset _
  | _ =>
    have hsame : t'.links = t.links := by assumption
    rwa [hsame]

theorem Tells.step (h : w.Tells p r q) (hf : w.Fresh) (hst : w.step e = some w') :
    w'.Tells p r q := by
  obtain ⟨habnormal, t, ht, hdone, hr, hq⟩ := h
  refine ⟨habnormal, ?_⟩
  rcases tasks_step hst p with hsame | ⟨c, s, x, w₁, t', -, hs, -, -, hstep, ht'⟩ |
    ⟨_, _, _, -, hi, -⟩
  · exact ⟨t, hsame.trans ht, hdone, hr, hq⟩
  · obtain rfl : t = s := Option.some.inj (ht.symm.trans hs)
    have hdone' := Task.postStopDone_of_step hstep hdone
    refine ⟨t', ht', hdone', ?_, ?_⟩
    · rcases (Task.step_move hstep).reason hr with hr' | hp
      · exact hr'
      · rw [hp] at hdone'
        cases hdone'
    · rw [links_of_postStopDone hstep hdone]
      exact hq
  · exact absurd hi (hf.ne_nextId ht)

/-- Who is to be told of an exit, or was told, is a link of an actor that has exited so. -/
structure Rooted (w : Runtime M A) : Prop where
  targets : ∀ p t, w.tasks p = some t → t.phase.targets ⊆ t.links
  queue : ∀ p q r, .linkedExit p r ∈ (w.control q).queue → w.Tells p r q
  reason : ∀ p q t r, w.tasks q = some t → t.phase.reason = some (.linked p r) → w.Tells p r q

theorem rooted_init : (init : Runtime M A).Rooted where
  targets _ _ ht := by cases ht
  queue _ _ _ hm := by cases hm
  reason _ _ _ _ ht := by cases ht

/-- **Every event keeps the trails true.** -/
theorem Rooted.step (h : w.Rooted) (hw : w.Reachable) (hst : w.step e = some w') : w'.Rooted where
  targets p t ht := by
    rcases tasks_step hst p with hsame | ⟨c, s, x, w₁, t', -, hs, -, -, hstep, ht'⟩ |
      ⟨_, _, _, -, -, ht'⟩
    · exact h.targets p t (hsame.symm.trans ht)
    · obtain rfl : t = t' := Option.some.inj (ht.symm.trans ht')
      exact targets_subset_of_step hstep (h.targets p s hs)
    · rw [ht'] at ht
      cases ht
      exact Finset.empty_subset _
  queue p q r hm := by
    rcases control_step hst hm with hold | ⟨i, t, ht, ⟨-, hmsg⟩ | ⟨r', rest, hp, hmsg⟩⟩
    · exact (h.queue p q r hold).step hw.fresh hst
    · cases hmsg
    · cases hmsg
      have hlinks := h.targets p t ht
      have htidy := hw.tidy ht
      rw [hp] at hlinks htidy
      have htells : w.Tells p r q := ⟨htidy.1, t, ht, by rw [hp]; rfl, by rw [hp]; rfl,
        hlinks (Finset.mem_insert_self _ _)⟩
      exact htells.step hw.fresh hst
  reason p q t r ht hr := by
    rcases tasks_step hst q with hsame | ⟨c, s, x, w₁, t', -, hs, hacc, -, hstep, ht'⟩ |
      ⟨_, _, _, -, -, ht'⟩
    · exact (h.reason p q t r (hsame.symm.trans ht) hr).step hw.fresh hst
    · obtain rfl : t = t' := Option.some.inj (ht.symm.trans ht')
      rcases Task.step_reason hstep hr with hold | ⟨-, rfl⟩
      · exact (h.reason p q s r hs hold).step hw.fresh hst
      · exact (h.queue p q r (mem_control_of_access hacc)).step hw.fresh hst
    · rw [ht'] at ht
      cases ht
      cases hr

theorem Reachable.rooted (hw : w.Reachable) : w.Rooted := by
  obtain ⟨es, hes⟩ := hw
  exact run_induction (motive := fun _ w => w.Rooted) rooted_init
    (fun hrun h hst => h.step ⟨_, hrun⟩ hst) hes

namespace Rooted

/-- The exit that `q` heard of is that of `p`. -/
theorem exists_task (h : w.Rooted) (ht : w.tasks q = some t)
    (hr : t.phase.reason = some (.linked p r)) :
    ∃ s, w.tasks p = some s ∧ s.phase.reason = some r := by
  obtain ⟨-, s, hs, -, hreason, -⟩ := h.reason p q t r ht hr
  exact ⟨s, hs, hreason⟩

theorem isChain_trail (h : w.Rooted) (ht : w.tasks q = some t) (hr : t.phase.reason = some r) :
    (r.trail q).IsChain fun x y => x.2 = .linked y.1 y.2 ∧ w.Tells y.1 y.2 x.1 := by
  induction r generalizing q t with
  | linked p r ih =>
    obtain ⟨s, hs, hreason⟩ := h.exists_task ht hr
    obtain ⟨l, hl⟩ := ExitReason.exists_trail_eq_cons p r
    have hrest := ih hs hreason
    rw [ExitReason.trail, hl]
    rw [hl] at hrest
    exact List.isChain_cons_cons.mpr ⟨⟨rfl, h.reason p q t r ht hr⟩, hrest⟩
  | _ => exact List.isChain_singleton _

/-- Each actor of the trail has the reason that the trail gives it. -/
theorem reason_of_mem_trail (h : w.Rooted) (ht : w.tasks q = some t)
    (hr : t.phase.reason = some r) {x : ActorId × ExitReason} (hx : x ∈ r.trail q) :
    ∃ s, w.tasks x.1 = some s ∧ s.phase.reason = some x.2 := by
  induction r generalizing q t with
  | linked p r ih =>
    obtain ⟨s, hs, hreason⟩ := h.exists_task ht hr
    rcases List.mem_cons.mp hx with rfl | hx
    · exact ⟨t, ht, hr⟩
    · exact ih hs hreason hx
  | _ =>
    obtain rfl := List.mem_singleton.mp hx
    exact ⟨t, ht, hr⟩

/-- Nobody is on a trail twice: a reason is deeper than those it wraps. -/
theorem nodup_trail (h : w.Rooted) (ht : w.tasks q = some t) (hr : t.phase.reason = some r) :
    ((r.trail q).map Prod.fst).Nodup := by
  have hdepth := ExitReason.depth_lt_of_isChain (fun _ _ hxy => hxy.1) (h.isChain_trail ht hr)
  refine List.pairwise_map.mpr (hdepth.imp_of_mem fun {x y} hx hy hlt heq => ?_)
  obtain ⟨s, hs, hsx⟩ := h.reason_of_mem_trail ht hr hx
  obtain ⟨s', hs', hsy⟩ := h.reason_of_mem_trail ht hr hy
  obtain rfl : s = s' := by
    rw [heq] at hs
    exact Option.some.inj (hs.symm.trans hs')
  have hreasons : x.2 = y.2 := Option.some.inj (hsx.symm.trans hsy)
  rw [hreasons] at hlt
  exact absurd hlt (lt_irrefl _)

/-- A reason is nested less deep than ids were handed out, of which 1 was the first. -/
theorem depth_lt (h : w.Rooted) (hw : w.Reachable) (ht : w.tasks q = some t)
    (hr : t.phase.reason = some r) : r.depth + 1 < w.nextId := by
  have hlt := hw.length_lt_nextId (h.nodup_trail ht hr) fun i hi => ?_
  · rwa [List.length_map, ExitReason.length_trail] at hlt
  · obtain ⟨x, hx, rfl⟩ := List.mem_map.mp hi
    obtain ⟨s, hs, -⟩ := h.reason_of_mem_trail ht hr hx
    exact ⟨s, hs⟩

theorem abnormal_root (h : w.Rooted) (ht : w.tasks q = some t) (hr : t.phase.reason = some r)
    (hdepth : 0 < r.depth) : shouldPropagateLinkedExit r.root = true := by
  induction r generalizing q t with
  | linked p r ih =>
    obtain ⟨s, hs, hreason⟩ := h.exists_task ht hr
    rcases Nat.eq_zero_or_pos r.depth with hzero | hpos
    · have habnormal := (h.reason p q t r ht hr).1
      cases r <;> first | exact habnormal | cases hzero
    · exact ih hs hreason hpos
  | _ => cases hdepth

end Rooted

/-- **The root cause.** In every reachable state an exit reason is a true account: whoever it
names has exited with the reason it gives for him, after `post_stop`, and holds the one before
as a link. Nobody is named twice, so a reason is nested less deep than ids were handed out, and
what is at the bottom of a wrapped reason is an abnormal exit of its own. -/
theorem root_cause (hw : w.Reachable) (ht : w.tasks q = some t) (hr : t.phase.reason = some r) :
    (r.trail q).IsChain (fun x y => x.2 = .linked y.1 y.2 ∧ w.Tells y.1 y.2 x.1) ∧
      ((r.trail q).map Prod.fst).Nodup ∧ r.depth + 1 < w.nextId ∧ r.root.depth = 0 ∧
      (0 < r.depth → shouldPropagateLinkedExit r.root = true) :=
  have h := hw.rooted
  ⟨h.isChain_trail ht hr, h.nodup_trail ht hr, h.depth_lt hw ht hr, r.depth_root,
    h.abnormal_root ht hr⟩

/-- Actors 1 and 2, and 2 and 3, are links. -/
def threeLinked : List (RtEvent Unit Unit) :=
  [.spawn .default () none, .spawn .default () none, .spawn .default () none] ++ starts ⟨1⟩ ++
    starts ⟨2⟩ ++ starts ⟨3⟩ ++ shakesHands ⟨2⟩ ⟨1⟩ ++ shakesHands ⟨3⟩ ⟨2⟩

/-- `i` runs its `post_stop` and tells `j`, who listens. -/
def passesOn (i j : ActorId) : List (RtEvent Unit Unit) :=
  .task i (.postStop (.ok ())) :: tells i j ++ [.task j (.recvControl false)]

/-- The trail where actor 3 is killed, and its exit reaches actor 1 by actor 2. -/
theorem root_cause_killed :
    ∃ w t, init.run (threeLinked ++ .post ⟨3⟩ .kill :: takes ⟨3⟩ ++ passesOn ⟨3⟩ ⟨2⟩ ++
        passesOn ⟨2⟩ ⟨1⟩) = some w ∧
      w.tasks ⟨1⟩ = some t ∧ t.phase.reason = some (.linked ⟨2⟩ (.linked ⟨3⟩ .killed)) ∧
      w.Tells ⟨2⟩ (.linked ⟨3⟩ .killed) ⟨1⟩ ∧ w.Tells ⟨3⟩ .killed ⟨2⟩ := by
  have hsome : ((init : Runtime Unit Unit).run (threeLinked ++ .post ⟨3⟩ .kill :: takes ⟨3⟩ ++
      passesOn ⟨3⟩ ⟨2⟩ ++ passesOn ⟨2⟩ ⟨1⟩)).isSome := rfl
  have hrun := (Option.some_get hsome).symm
  have hchain := (root_cause ⟨_, hrun⟩ (q := ⟨1⟩) rfl rfl).1
  simp only [ExitReason.trail, List.isChain_cons_cons] at hchain
  exact ⟨_, _, hrun, rfl, rfl, hchain.1.2, hchain.2.1.2⟩

end Runtime

end LaneSwitchboards
