import Mathlib.Algebra.Order.BigOperators.Group.Finset
import StereoCamera.Data.DataPipeline

/-! Conservation of frames: what the dealers pushed is handed over once and in order, as
long as no two dealers fill the same position of a queue. -/

namespace StereoCamera.DataPipeline
open Transition

variable {D : Type}

def sumGroups (f : DataGroup → ℕ) : ℕ :=
  f .visualGeometric2D + f .visualGeometric3D + f .sensorTracking

theorem le_sumGroups (f : DataGroup → ℕ) (g : DataGroup) : f g ≤ sumGroups f := by
  cases g <;> simp only [sumGroups] <;> omega

theorem sumGroups_congr {f f' : DataGroup → ℕ} (h : ∀ g, f g = f' g) :
    sumGroups f = sumGroups f' := by
  simp only [sumGroups, h]

theorem sumGroups_mono {f f' : DataGroup → ℕ} (h : ∀ g, f g ≤ f' g) :
    sumGroups f ≤ sumGroups f' :=
  Nat.add_le_add (Nat.add_le_add (h _) (h _)) (h _)

theorem sumGroups_of_eq_of_ne {f f' : DataGroup → ℕ} {g : DataGroup} {n : ℕ}
    (hg : f' g = f g + n) (hne : ∀ g', g' ≠ g → f' g' = f g') :
    sumGroups f' = sumGroups f + n := by
  cases g
  · simp only [sumGroups, hg, hne .visualGeometric3D (by decide), hne .sensorTracking (by decide)]
    omega
  · simp only [sumGroups, hg, hne .visualGeometric2D (by decide), hne .sensorTracking (by decide)]
    omega
  · simp only [sumGroups, hg, hne .visualGeometric2D (by decide),
      hne .visualGeometric3D (by decide)]
    omega

def holding : PubPc → DataGroup → List ChannelFrame
  | .handing g frame, g' => if g' = g then [frame] else []
  | _, _ => []

@[simp] theorem holding_waiting : holding .waiting = fun _ => [] := rfl

@[simp] theorem holding_popping (g : DataGroup) : holding (.popping g) = fun _ => [] := rfl

def totalAccepted (s : State D) : ℕ := sumGroups fun g => (s.lanes g).accepted.length

theorem totalAccepted_setLane (s : State D) {g : DataGroup} {n : ℕ}
    {l : SPSCQueue.State frameCapacity D ChannelFrame}
    (hl : l.accepted.length = (s.lanes g).accepted.length + n) :
    totalAccepted (setLane s g l) = totalAccepted s + n := by
  refine sumGroups_of_eq_of_ne (g := g) ?_ fun g' hne => ?_
  · simp only [setLane, Function.update_self, hl]
  · simp only [setLane, Function.update_of_ne hne]

theorem lanes_setLane {s : State D} (h : ∀ g, SPSCQueue.Inv (s.lanes g)) {g : DataGroup}
    {l : SPSCQueue.State frameCapacity D ChannelFrame} (hl : SPSCQueue.Inv l) (g' : DataGroup) :
    SPSCQueue.Inv ((setLane s g l).lanes g') := by
  by_cases hg : g' = g
  · subst hg
    simpa only [setLane, Function.update_self] using hl
  · simpa only [setLane, Function.update_of_ne hg] using h g'

variable [Fintype D]

/-- One while the dealer's push was accepted and its `fetch_add` has not run. -/
def DealerPc.pending : DealerPc → ℕ
  | .counting true => 1
  | _ => 0

def uncounted (s : State D) : ℕ := ∑ d, (s.dealers d).pending

structure InvWith (hold : DataGroup → List ChannelFrame) (s : State D) : Prop where
  lanes : ∀ g, SPSCQueue.Inv (s.lanes g)
  handed : ∀ g, (s.lanes g).popped = s.handed g ++ hold g
  counted : s.totalPushed.toNat + uncounted s = totalAccepted s

abbrev Inv (s : State D) : Prop := InvWith (holding s.pub) s

theorem inv_init (q : DataGroup → FrameQ)
    (hq : ∀ g, (q g).writePos = 0 ∧ (q g).readPos = 0 ∧ (q g).maxDepth ≤ frameCapacity.val) :
    Inv (State.init q : State D) where
  lanes := fun g => SPSCQueue.inv_init (q g) (hq g).1 (hq g).2.1 (hq g).2.2
  handed := fun _ => rfl
  counted := by
    simp [State.init, uncounted, totalAccepted, sumGroups, SPSCQueue.State.init, DealerPc.pending]

theorem InvWith.setLane {hold : DataGroup → List ChannelFrame} {s : State D} (h : InvWith hold s)
    {g : DataGroup} {l : SPSCQueue.State frameCapacity D ChannelFrame} (hl : SPSCQueue.Inv l)
    (ha : l.accepted = (s.lanes g).accepted) (hp : l.popped = (s.lanes g).popped) :
    InvWith hold (setLane s g l) where
  lanes := lanes_setLane h.lanes hl
  handed := fun g' => by
    by_cases hg : g' = g
    · subst hg
      simpa only [DataPipeline.setLane, Function.update_self, hp] using h.handed g'
    · simpa only [DataPipeline.setLane, Function.update_of_ne hg] using h.handed g'
  counted := by
    rw [totalAccepted_setLane s (n := 0) (by rw [ha, Nat.add_zero])]
    exact h.counted

variable [DecidableEq D] {movedFrom : ChannelFrame → ChannelFrame} {camera : D → String}

theorem uncounted_setDealer (s : State D) (d : D) (pc : DealerPc) :
    uncounted (setDealer s d pc) + (s.dealers d).pending = uncounted s + pc.pending := by
  have hrest : ∀ x ∈ Finset.univ.erase d,
      (Function.update s.dealers d pc x).pending = (s.dealers x).pending := by
    intro x hx
    rw [Function.update_of_ne (Finset.ne_of_mem_erase hx)]
  simp only [uncounted, setDealer]
  rw [← Finset.add_sum_erase Finset.univ _ (Finset.mem_univ d), Finset.sum_congr rfl hrest,
    ← Finset.add_sum_erase Finset.univ (fun x => (s.dealers x).pending) (Finset.mem_univ d),
    Function.update_self]
  omega

theorem InvWith.setDealer {hold : DataGroup → List ChannelFrame} {s : State D}
    (h : InvWith hold s) {d : D} {k : DealerPc} (hd : (s.dealers d).pending = k.pending) :
    InvWith hold (setDealer s d k) where
  lanes := h.lanes
  handed := h.handed
  counted := by
    have := uncounted_setDealer s d k
    have := h.counted
    change s.totalPushed.toNat + uncounted (DataPipeline.setDealer s d k) = totalAccepted s
    omega

theorem InvWith.call {hold : DataGroup → List ChannelFrame} {s : State D} (h : InvWith hold s)
    {g : DataGroup} {a : SPSCQueue.Action D ChannelFrame}
    (ha : a = .callPop ∨ ∃ d frame, a = .callTryPush d frame)
    {l : SPSCQueue.State frameCapacity D ChannelFrame}
    (hl : SPSCQueue.step movedFrom (s.lanes g) a = some l) (hlt : totalAccepted s < 2 ^ 64) :
    InvWith hold (DataPipeline.setLane s g l) := by
  have hacc : l.accepted = (s.lanes g).accepted ∧ l.popped = (s.lanes g).popped := by
    rcases ha with rfl | ⟨d, frame, rfl⟩ <;>
      simp only [SPSCQueue.step] at hl <;> split at hl <;> cases hl <;> exact ⟨rfl, rfl⟩
  have hx : SPSCQueue.Exclusive (s.lanes g) a := by
    rcases ha with rfl | ⟨d, frame, rfl⟩ <;> trivial
  have hlane : SPSCQueue.Inv l :=
    (h.lanes g).step hx hl
      (hacc.1 ▸ (le_sumGroups (fun g => (s.lanes g).accepted.length) g).trans_lt hlt)
  exact h.setLane hlane hacc.1 hacc.2

theorem InvWith.callPop {s t : State D} (h : InvWith (fun _ => []) s) {g : DataGroup}
    (ht : callPop movedFrom s g = some t) (hlt : totalAccepted s < 2 ^ 64) : Inv t := by
  obtain ⟨l, hl, rfl⟩ := Option.map_eq_some_iff.mp ht
  exact { h.call (.inl rfl) hl hlt with }

theorem Inv.receive {s t : State D} (h : Inv s) {d : D} {g : DataGroup} {ts : Timestamp}
    {bundles : List DataBundle} (ht : step camera movedFrom s (.receive d g ts bundles) = some t)
    (hlt : totalAccepted s < 2 ^ 64) : Inv t := by
  simp only [step] at ht
  split at ht
  · rename_i hd
    obtain ⟨l, hl, rfl⟩ := Option.map_eq_some_iff.mp ht
    have hset := h.call (.inr ⟨d, _, rfl⟩) hl hlt
    exact hset.setDealer (d := d) (k := .pushing g) (show (s.dealers d).pending = _ by rw [hd]; rfl)
  · cases ht

theorem Inv.countPushed {s : State D} (h : Inv s) {d : D} (hd : s.dealers d = .counting true)
    (hlt : totalAccepted s < 2 ^ 64) :
    Inv { DataPipeline.setDealer s d .receiving with totalPushed := s.totalPushed + 1 } := by
  refine { h with counted := ?_ }
  change (s.totalPushed + 1).toNat + uncounted (DataPipeline.setDealer s d .receiving) =
    totalAccepted s
  have hset := uncounted_setDealer s d .receiving
  have hcount := h.counted
  rw [hd] at hset
  simp only [DealerPc.pending] at hset
  -- This dealer's frame is still uncounted, so the counter is below the total.
  have hadd : (s.totalPushed + 1).toNat = s.totalPushed.toNat + 1 := by
    rw [UInt64.toNat_add]
    exact Nat.mod_eq_of_lt (by change s.totalPushed.toNat + 1 < 2 ^ 64; omega)
  omega

theorem Inv.pushReturned {s : State D} (h : Inv s) {d : D} {g : DataGroup} {pushed : Bool}
    {l : SPSCQueue.State frameCapacity D ChannelFrame} (hd : s.dealers d = .pushing g)
    (hl : SPSCQueue.Inv l) (hpop : l.popped = (s.lanes g).popped)
    (hacc : l.accepted.length =
      (s.lanes g).accepted.length + (DealerPc.counting pushed).pending) :
    Inv (DataPipeline.setDealer (DataPipeline.setLane s g l) d (.counting pushed)) := by
  -- `try_push` returns: an accepted frame is uncounted until the `fetch_add`.
  have htotal := totalAccepted_setLane s hacc
  have hset := uncounted_setDealer (DataPipeline.setLane s g l) d (.counting pushed)
  have hcount := h.counted
  refine { lanes := lanes_setLane h.lanes hl, handed := fun g' => ?_, counted := ?_ }
  · by_cases hg : g' = g
    · subst hg
      simpa only [DataPipeline.setDealer, DataPipeline.setLane, Function.update_self, hpop]
        using h.handed g'
    · simpa only [DataPipeline.setDealer, DataPipeline.setLane, Function.update_of_ne hg]
        using h.handed g'
  · change s.totalPushed.toNat +
      uncounted (DataPipeline.setDealer (DataPipeline.setLane s g l) d (.counting pushed)) =
        totalAccepted (DataPipeline.setLane s g l)
    change _ + (s.dealers d).pending = uncounted s + _ at hset
    rw [hd] at hset
    simp only [DealerPc.pending] at hset htotal ⊢
    omega

theorem Inv.dealerStep {s t : State D} (h : Inv s) {d : D} (hx : Exclusive s (.dealer d))
    (ht : dealerStep movedFrom s d = some t) (hlt : totalAccepted t < 2 ^ 64) : Inv t := by
  unfold DataPipeline.dealerStep at ht
  cases hd : s.dealers d with
  | receiving => rw [hd] at ht; cases ht
  | counting pushed =>
    rw [hd] at ht
    cases pushed with
    | false => cases ht; exact { h.setDealer (d := d) (k := .receiving) (by rw [hd]; rfl) with }
    | true => cases ht; exact h.countPushed hd hlt
  | pushing g =>
    rw [hd] at ht
    simp only at ht
    cases hp : (s.lanes g).producers d with
    | none => rw [hp] at ht; cases ht
    | some pc =>
      rw [hp] at ht
      obtain ⟨l, hl, rfl⟩ := Option.map_eq_some_iff.mp ht
      have hl' : l = SPSCQueue.producerStep (s.lanes g) d pc := by
        simpa only [SPSCQueue.step, hp, Option.map_some, Option.some.injEq, eq_comm] using hl
      have hpop : l.popped = (s.lanes g).popped := by rw [hl', SPSCQueue.popped_producerStep]
      have hacc := SPSCQueue.accepted_producerStep (s.lanes g) d pc
      rw [← hl'] at hacc
      cases hr : (SPSCQueue.tryPush (s.lanes g).queue pc).2 with
      | inl pc' =>
        simp only [hr] at hlt hacc ⊢
        rw [List.append_nil] at hacc
        rw [totalAccepted_setLane s (n := 0) (by rw [hacc, Nat.add_zero])] at hlt
        exact h.setLane ((h.lanes g).step (hx g hd) hl
          (hacc ▸ (le_sumGroups (fun g => (s.lanes g).accepted.length) g).trans_lt hlt)) hacc hpop
      | inr pushed =>
        simp only [hr] at hlt hacc ⊢
        have hn : l.accepted.length =
            (s.lanes g).accepted.length + (DealerPc.counting pushed).pending := by
          cases pushed <;> simp [hacc, DealerPc.pending]
        change totalAccepted (setLane s g l) < 2 ^ 64 at hlt
        have hlane : SPSCQueue.Inv l := by
          refine (h.lanes g).step (hx g hd) hl (lt_of_le_of_lt ?_ hlt)
          have hle := le_sumGroups (fun g' => ((setLane s g l).lanes g').accepted.length) g
          rwa [show (setLane s g l).lanes g = l from Function.update_self ..] at hle
        exact h.pushReturned hd hlane hpop hn

omit [DecidableEq D] in
theorem InvWith.popReturned {s : State D} (h : InvWith (fun _ => []) s) {g : DataGroup}
    {frame : ChannelFrame} {l : SPSCQueue.State frameCapacity D ChannelFrame}
    (hl : SPSCQueue.Inv l) (hacc : l.accepted = (s.lanes g).accepted)
    (hpop : l.popped = (s.lanes g).popped ++ [frame]) :
    Inv { DataPipeline.setLane s g l with pub := .handing g frame } := by
  have htotal : totalAccepted (DataPipeline.setLane s g l) = totalAccepted s :=
    totalAccepted_setLane s (n := 0) (by rw [hacc, Nat.add_zero])
  refine { lanes := lanes_setLane h.lanes hl, handed := fun g' => ?_,
           counted := h.counted.trans htotal.symm }
  have hg' := h.handed g'
  by_cases hg : g' = g
  · subst hg
    simpa only [DataPipeline.setLane, Function.update_self, hpop, holding, if_true,
      List.append_nil] using congrArg (· ++ [frame]) hg'
  · simpa only [DataPipeline.setLane, Function.update_of_ne hg, holding, if_neg hg] using hg'

omit [DecidableEq D] in
theorem InvWith.handOver {s : State D} {g : DataGroup} {frame : ChannelFrame} (h : Inv s)
    (hpub : s.pub = .handing g frame) :
    InvWith (fun _ => []) (DataPipeline.handOver s g frame) := by
  refine { h with handed := fun g' => ?_ }
  have hg' := h.handed g'
  rw [hpub] at hg'
  by_cases hg : g' = g
  · subst hg
    simpa only [holding, if_true, DataPipeline.handOver, Function.update_self, List.append_nil]
      using hg'
  · simpa only [holding, if_neg hg, DataPipeline.handOver, Function.update_of_ne hg] using hg'

theorem Inv.pubStep {s t : State D} (h : Inv s) (ht : pubStep movedFrom s = some t)
    (hlt : totalAccepted s < 2 ^ 64) : Inv t := by
  unfold DataPipeline.pubStep at ht
  cases hpub : s.pub with
  | waiting =>
    rw [hpub] at ht
    have h' : InvWith (fun _ => []) s := by
      simpa only [Inv, hpub, holding_waiting, holding_popping] using h
    exact h'.callPop ht hlt
  | handing g frame =>
    rw [hpub] at ht
    exact (InvWith.handOver h hpub).callPop ht hlt
  | popping g =>
    rw [hpub] at ht
    have h' : InvWith (fun _ => []) s := by
      simpa only [Inv, hpub, holding_waiting, holding_popping] using h
    simp only at ht
    cases hc : (s.lanes g).consumer with
    | none => rw [hc] at ht; cases ht
    | some pc =>
      rw [hc] at ht
      obtain ⟨l, hl, ht⟩ := Option.bind_eq_some_iff.mp ht
      have hl' : l = SPSCQueue.consumerStep movedFrom (s.lanes g) pc := by
        simpa only [SPSCQueue.step, hc, Option.map_some, Option.some.injEq, eq_comm] using hl
      have hacc : l.accepted = (s.lanes g).accepted := by rw [hl', SPSCQueue.accepted_consumerStep]
      have hpop := SPSCQueue.popped_consumerStep movedFrom (s.lanes g) pc
      rw [← hl'] at hpop
      have hlane : SPSCQueue.Inv l := (h.lanes g).step (a := .consumer) trivial hl
        (hacc ▸ (le_sumGroups (fun g => (s.lanes g).accepted.length) g).trans_lt hlt)
      have htotal : totalAccepted (setLane s g l) = totalAccepted s :=
        totalAccepted_setLane s (n := 0) (by rw [hacc, Nat.add_zero])
      cases hr : (SPSCQueue.pop movedFrom (s.lanes g).queue pc).2 with
      | inl pc' =>
        simp only [hr, List.append_nil] at ht hpop
        cases ht
        have := h'.setLane hlane hacc hpop
        simpa only [Inv, setLane, hpub, holding_popping] using this
      | inr out =>
        cases out with
        | none =>
          -- The queue was empty: on to the next one, or back to waiting after the last.
          simp only [hr, Option.toList, List.append_nil] at ht hpop
          have hset := h'.setLane hlane hacc hpop
          split at ht
          · exact hset.callPop ht (htotal ▸ hlt)
          · cases ht
            exact { hset with }
        | some frame =>
          simp only [hr, Option.toList] at ht hpop
          cases ht
          exact h'.popReturned hlane hacc hpop

def LaneRun (movedFrom : ChannelFrame → ChannelFrame) (s t : State D) : Prop :=
  ∀ g, Reachable (SPSCQueue.step movedFrom) (s.lanes g) (t.lanes g)

omit [Fintype D] in
theorem laneRun_setLane {s : State D} {g : DataGroup}
    {l : SPSCQueue.State frameCapacity D ChannelFrame} {a : SPSCQueue.Action D ChannelFrame}
    (hl : SPSCQueue.step movedFrom (s.lanes g) a = some l) :
    LaneRun movedFrom s (setLane s g l) := by
  intro g'
  by_cases hg : g' = g
  · subst hg
    simpa only [setLane, Function.update_self] using (Reachable.refl _).tail hl
  · simpa only [setLane, Function.update_of_ne hg] using Reachable.refl _

omit [Fintype D] in
theorem laneRun_callPop {s t : State D} {g : DataGroup} (ht : callPop movedFrom s g = some t) :
    LaneRun movedFrom s t := by
  obtain ⟨l, hl, rfl⟩ := Option.map_eq_some_iff.mp ht
  exact laneRun_setLane hl

omit [Fintype D] in
theorem laneRun_step {s t : State D} {a : Action D} (ht : step camera movedFrom s a = some t) :
    LaneRun movedFrom s t := by
  cases a with
  | receive d g ts bundles =>
    simp only [DataPipeline.step] at ht
    split at ht
    · obtain ⟨l, hl, rfl⟩ := Option.map_eq_some_iff.mp ht
      exact laneRun_setLane hl
    · cases ht
  | dealer d =>
    simp only [DataPipeline.step, DataPipeline.dealerStep] at ht
    split at ht
    · cases ht
    · split at ht
      · cases ht
      · obtain ⟨l, hl, rfl⟩ := Option.map_eq_some_iff.mp ht
        split <;> exact laneRun_setLane hl
    · cases ht
      exact fun _ => Reachable.refl _
    · cases ht
      exact fun _ => Reachable.refl _
  | pub =>
    simp only [DataPipeline.step, DataPipeline.pubStep] at ht
    split at ht
    · exact laneRun_callPop ht
    · exact laneRun_callPop (s := handOver s _ _) ht
    · split at ht
      · cases ht
      · obtain ⟨l, hl, ht⟩ := Option.bind_eq_some_iff.mp ht
        have hset := laneRun_setLane hl
        split at ht
        · cases ht
          exact hset
        · cases ht
          exact hset
        · split at ht
          · exact fun g => (hset g).trans (laneRun_callPop ht g)
          · cases ht
            exact hset

omit [Fintype D] in
theorem totalAccepted_le_step {s t : State D} {a : Action D}
    (ht : step camera movedFrom s a = some t) : totalAccepted s ≤ totalAccepted t :=
  sumGroups_mono fun g =>
    ((laneRun_step ht g).invariant (I := fun l => (s.lanes g).accepted <+: l.accepted)
      (fun _ _ _ h hl => h.trans (SPSCQueue.accepted_prefix_step hl)) List.prefix_rfl).length_le

theorem Inv.step {s t : State D} (h : Inv s) {a : Action D} (hx : Exclusive s a)
    (ht : step camera movedFrom s a = some t) (hlt : totalAccepted t < 2 ^ 64) : Inv t := by
  have hle := totalAccepted_le_step ht
  cases a with
  | receive d g ts bundles => exact h.receive ht (hle.trans_lt hlt)
  | dealer d => exact h.dealerStep hx ht hlt
  | pub => exact h.pubStep ht (hle.trans_lt hlt)

/-- Frames that a queue still has: in its cells, or moved out by the `pop` that runs. -/
def stillQueued (l : SPSCQueue.State frameCapacity D ChannelFrame) : List ChannelFrame :=
  SPSCQueue.inPop l.consumer ++ l.queued

structure Conserved (s : State D) : Prop where
  /-- An accepted frame is handed over, about to be, or queued: once, and in order. -/
  conserved : ∀ g, (s.lanes g).accepted = s.handed g ++ holding s.pub g ++ stillQueued (s.lanes g)
  /-- `total_pushed` lags by the dealers that stand before their `fetch_add`. -/
  counted : s.totalPushed.toNat + uncounted s =
    sumGroups fun g => (s.lanes g).popped.length + (s.lanes g).queue.size.toNat
  exact : (∀ d, s.dealers d ≠ .counting true) → s.totalPushed.toNat =
    sumGroups fun g => (s.lanes g).popped.length + (s.lanes g).queue.size.toNat
  ordered : ∀ g id, (s.handed g).filter (·.cameraId = id) <+:
    (s.lanes g).accepted.filter (·.cameraId = id)

omit [DecidableEq D] in
theorem Inv.conserved {s : State D} (h : Inv s) (hlt : totalAccepted s < 2 ^ 64) :
    Conserved s := by
  have hacc : ∀ g, (s.lanes g).accepted =
      s.handed g ++ holding s.pub g ++ stillQueued (s.lanes g) := by
    intro g
    rw [← h.handed g, stillQueued, ← List.append_assoc]
    exact (h.lanes g).accepted_eq
      ((le_sumGroups (fun g => (s.lanes g).accepted.length) g).trans_lt hlt)
  have hcount : s.totalPushed.toNat + uncounted s =
      sumGroups fun g => (s.lanes g).popped.length + (s.lanes g).queue.size.toNat :=
    h.counted.trans (sumGroups_congr fun g => (h.lanes g).accepted_length)
  refine ⟨hacc, hcount, fun hd => ?_, fun g id => ?_⟩
  · have hzero : uncounted s = 0 := by
      refine Finset.sum_eq_zero fun d _ => ?_
      have := hd d
      revert this
      cases s.dealers d with
      | counting b => cases b <;> simp [DealerPc.pending]
      | _ => simp [DealerPc.pending]
    rwa [hzero, Nat.add_zero] at hcount
  · rw [hacc g, List.append_assoc, List.filter_append]
    exact List.prefix_append ..

theorem conserved_of_run {s t : State D} {as : List (Action D)} (h : Inv s)
    (hx : Guarded (step camera movedFrom) Exclusive s as)
    (hrun : run (step camera movedFrom) s as = some t) (hlt : totalAccepted t < 2 ^ 64) :
    Conserved t := by
  have hinv : totalAccepted t < 2 ^ 64 → Inv t := by
    refine hx.invariant (I := fun s => totalAccepted s < 2 ^ 64 → Inv s) ?_ (fun _ => h) hrun
    intro s a t ih hG ht hlt
    exact (ih ((totalAccepted_le_step ht).trans_lt hlt)).step hG ht hlt
  exact (hinv hlt).conserved hlt

/-- Over every interleaving in which no two dealers fill the same position, no accepted
frame is lost, duplicated or reordered. -/
theorem pipeline_conserved (camera : D → String) (movedFrom : ChannelFrame → ChannelFrame)
    (cells : DataGroup → Fin frameCapacity.val.toNat → ChannelFrame) (depth : UInt64)
    (as : List (Action D)) (s : State D)
    (hx : Guarded (step camera movedFrom) Exclusive
      (State.init fun g => (SPSCQueue.Queue.init (cells g)).setMaxDepth depth) as)
    (hrun : run (step camera movedFrom)
      (State.init fun g => (SPSCQueue.Queue.init (cells g)).setMaxDepth depth) as = some s)
    (hlt : totalAccepted s < 2 ^ 64) : Conserved s :=
  conserved_of_run (inv_init _ fun _ => ⟨rfl, rfl, SPSCQueue.setMaxDepth_le _ _⟩) hx hrun hlt

section OneCamera

variable {camera : Unit → String}

theorem solo_step {s t : State Unit} {a : Action Unit} (h : ∀ g, SPSCQueue.SoloInv (s.lanes g))
    (ht : step camera movedFrom s a = some t) (hlt : totalAccepted t < 2 ^ 64) (g : DataGroup) :
    SPSCQueue.SoloInv (t.lanes g) :=
  (laneRun_step ht g).invariant (I := fun l => l.accepted.length < 2 ^ 64 → SPSCQueue.SoloInv l)
    (fun _ _ _ ih hl hlt => (ih ((SPSCQueue.accepted_prefix_step hl).length_le.trans_lt hlt)).step
      hl hlt)
    (fun _ => h g) ((le_sumGroups (fun g => (t.lanes g).accepted.length) g).trans_lt hlt)

/-- A single dealer never meets another one inside `try_push`, whatever the pipeline is a part
of. -/
theorem guarded_of_one_dealer {σ α : Type*} {move : σ → α → Option σ} {G : σ → α → Prop}
    (pipeline : σ → State Unit)
    (hmove : ∀ s a t, move s a = some t → pipeline t = pipeline s ∨
      ∃ b, step camera movedFrom (pipeline s) b = some (pipeline t))
    (hG : ∀ s a, (∀ b, Exclusive (pipeline s) b) → G s a) {s u : σ} {as : List α}
    (h : ∀ g, SPSCQueue.SoloInv ((pipeline s).lanes g)) (hrun : run move s as = some u)
    (hlt : totalAccepted (pipeline u) < 2 ^ 64) : Guarded move G s as := by
  refine Guarded.of_invariant (I := fun s => ∀ g, SPSCQueue.SoloInv ((pipeline s).lanes g))
    (m := fun s => totalAccepted (pipeline s)) (fun s a t hstep => ?_)
    (fun s a t hs hstep hlt => ?_) (fun s a hs => ?_) h hrun hlt
  · rcases hmove s a t hstep with heq | ⟨b, hb⟩
    · exact (congrArg totalAccepted heq).ge
    · exact totalAccepted_le_step hb
  · rcases hmove s a t hstep with heq | ⟨b, hb⟩
    · rwa [heq]
    · exact solo_step hs hb hlt
  · refine hG s a fun b => ?_
    cases b with
    | dealer d => exact fun g _ => (hs g).exclusive _
    | _ => trivial

/-- With the one camera that `main` configures, every interleaving conserves the frames. -/
theorem pipeline_conserved_one_camera
    (cells : DataGroup → Fin frameCapacity.val.toNat → ChannelFrame) (depth : UInt64)
    (as : List (Action Unit)) (s : State Unit)
    (hrun : run (step camera movedFrom)
      (State.init fun g => (SPSCQueue.Queue.init (cells g)).setMaxDepth depth) as = some s)
    (hlt : totalAccepted s < 2 ^ 64) : Conserved s := by
  have hsolo := fun g => SPSCQueue.soloInv_init ((SPSCQueue.Queue.init (cells g)).setMaxDepth depth)
    rfl rfl (SPSCQueue.setMaxDepth_le _ _)
  exact conserved_of_run (inv_init _ fun _ => ⟨rfl, rfl, SPSCQueue.setMaxDepth_le _ _⟩)
    (guarded_of_one_dealer id (fun _ _ _ hstep => .inr ⟨_, hstep⟩) (fun _ a h => h a) hsolo hrun
      hlt) hrun hlt

end OneCamera

def emptyFrame : ChannelFrame := ⟨"", ⟨0, 0⟩, []⟩

def imageBundle : DataBundle := ⟨⟨1, 0⟩, .stereoImage, [1]⟩

def pipelineInit (D : Type) : State D :=
  State.init fun _ => (SPSCQueue.Queue.init fun _ => emptyFrame).setMaxDepth 16

def camera2 : Bool → String
  | false => "cam1"
  | true => "cam2"

def exclusiveTest (s : State Bool) : Action Bool → Bool
  | .dealer d =>
    match s.dealers d with
    | .pushing g =>
      match (s.lanes g).producers d with
      | some (.storeCell _ wp) => wp = (s.lanes g).queue.writePos ∧
        [false, true].all fun d' =>
          match (s.lanes g).producers d' with
          | some (.storeWritePos ..) => false
          | _ => true
      | _ => true
    | _ => true
  | _ => true

theorem exclusive_of_exclusiveTest (s : State Bool) (a : Action Bool)
    (h : exclusiveTest s a = true) : Exclusive s a := by
  cases a with
  | dealer d =>
    intro g hg item wp hp
    simp only [exclusiveTest, hg, hp, decide_eq_true_eq] at h
    refine ⟨h.1, fun d' hfilled => ?_⟩
    have hd := List.all_eq_true.mp h.2 d' (by cases d' <;> decide)
    unfold SPSCQueue.PushPc.filled at hfilled
    split at hfilled
    · rename_i heq
      rw [heq] at hd
      cases hd
    · exact hfilled
  | _ => trivial

/-- Both dealers push to one queue, the second while the first counts; then `pub_loop` pops. -/
def inTurnSchedule : List (Action Bool) :=
  .receive false .visualGeometric2D ⟨1, 0⟩ [imageBundle] :: List.replicate 5 (.dealer false) ++
    .receive true .visualGeometric2D ⟨2, 0⟩ [imageBundle] :: .dealer true :: .dealer false ::
      List.replicate 5 (.dealer true) ++ List.replicate 11 .pub

theorem pipeline_conserved_two_dealers : ∃ s,
    run (step camera2 id) (pipelineInit Bool) inTurnSchedule = some s ∧
    s.totalPushed = 2 ∧ (s.handed .visualGeometric2D).map (·.cameraId) = ["cam1", "cam2"] ∧
    Conserved s := by
  have hfields : (run (step camera2 id) (pipelineInit Bool) inTurnSchedule).map
      (fun s => (s.totalPushed, (s.handed .visualGeometric2D).map (·.cameraId),
        totalAccepted s)) = some (2, ["cam1", "cam2"], 2) := by
    decide +kernel
  obtain ⟨s, hrun, hs⟩ := Option.map_eq_some_iff.mp hfields
  simp only [Prod.mk.injEq] at hs
  obtain ⟨hpushed, hhanded, htotal⟩ := hs
  have hexclusive : Guarded (step camera2 id) Exclusive (pipelineInit Bool) inTurnSchedule :=
    .of_allSteps exclusiveTest exclusive_of_exclusiveTest (by decide +kernel)
  refine ⟨s, hrun, hpushed, hhanded, pipeline_conserved camera2 id (fun _ _ => emptyFrame) 16
    inTurnSchedule s hexclusive hrun ?_⟩
  rw [htotal]
  decide

/-- Both dealers load `write_pos_` before either of them stores it. -/
def twoDealerSchedule : List (Action Bool) :=
  [.receive false .visualGeometric2D ⟨1, 0⟩ [imageBundle],
    .receive true .visualGeometric2D ⟨2, 0⟩ [imageBundle],
    .dealer false, .dealer false, .dealer false, .dealer true, .dealer true, .dealer true,
    .dealer false, .dealer true, .dealer false, .dealer true, .dealer false, .dealer true,
    .pub, .pub, .pub, .pub, .pub, .pub]

/-- Two cameras: both frames are counted, the first is lost, and the queues are empty. -/
theorem pipeline_loses_frame : ∃ s,
    run (step camera2 id) (pipelineInit Bool) twoDealerSchedule = some s ∧
    s.totalPushed = 2 ∧ (∀ d, s.dealers d = .receiving) ∧
    (s.lanes .visualGeometric2D).accepted =
      [⟨"cam1", ⟨1, 0⟩, [imageBundle]⟩, ⟨"cam2", ⟨2, 0⟩, [imageBundle]⟩] ∧
    s.handed .visualGeometric2D = [⟨"cam2", ⟨2, 0⟩, [imageBundle]⟩] ∧
    holding s.pub .visualGeometric2D = [] ∧ stillQueued (s.lanes .visualGeometric2D) = [] ∧
    (sumGroups fun g => (s.lanes g).popped.length + (s.lanes g).queue.size.toNat) = 1 :=
  ⟨_, rfl, rfl, fun d => by cases d <;> rfl, rfl, rfl, rfl, rfl, rfl⟩

end StereoCamera.DataPipeline
