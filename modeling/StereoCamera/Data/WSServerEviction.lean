import StereoCamera.Data.WSServerOrder

/-! What the queue of a client loses without sending it. A new item replaces those of its type,
and an item does not remember its camera. -/

namespace StereoCamera.WSServer.Delivery
open Transition

def OnePerSlot (s : State) : Prop := (s.client.sendQueue.map (·.bundle.slot)).Nodup

/-- An item leaves the queue unsent only while a newer one of its camera and type comes in. -/
def EvictsOlder (s t : State) : Prop :=
  ∀ item ∈ s.client.sendQueue, item ∉ t.client.stream →
    ∃ new ∈ t.client.sendQueue, new ∉ s.client.stream ∧ new.bundle.slot = item.bundle.slot ∧
      item.bundle.order < new.bundle.order

def SameCamera (s : State) : Action → Prop
  | .visit =>
    match s.client.loop with
    | .fetched slot b _ => s.client.lastSent (WSSClient.dedupKey slot) ≠ b.address →
      ∀ item ∈ s.client.sendQueue, item.type = slot.type → item.bundle.cameraId = slot.cameraId
    | _ => True
  | _ => True

structure QueueInv (queue : List SendItem) : Prop where
  types : ∀ item ∈ queue, item.type = item.bundle.slot.type
  nodup : (queue.map (·.type)).Nodup

inductive QueueStep (s t : State) : Action → Prop
  | keep {a : Action} (hqueue : t.client.sendQueue <:+ s.client.sendQueue)
      (hstream : t.client.stream = s.client.stream) (hguard : SameCamera s a) : QueueStep s t a
  | push (slot : BufferSlotKey) (b : SharedBundle) (slots : List BufferSlotKey)
      (hloop : s.client.loop = .fetched slot b slots)
      (hnew : s.client.lastSent (WSSClient.dedupKey slot) ≠ b.address)
      (hqueue : t.client.sendQueue =
        s.client.sendQueue.filter (·.type ≠ slot.type) ++ [⟨slot.type, b⟩])
      (hsent : t.client.sent ++ t.client.sender.toList =
        s.client.sent ++ s.client.sender.toList) : QueueStep s t .visit

section
variable {parse : Bytes → Except JsonException Json} {movedFrom : SharedFrame → SharedFrame}
  {s t : State} {a : Action} {c : WSSClient}

theorem sameCamera_of_not_fetched (hloop : ∀ slot b slots, s.client.loop ≠ .fetched slot b slots) :
    SameCamera s a := by
  unfold SameCamera
  split
  · split
    · rename_i slot b slots hfetched
      exact absurd hfetched (hloop slot b slots)
    · trivial
  · trivial

theorem queueStep (h : step parse movedFrom s a = some t) : QueueStep s t a := by
  rcases hclient : a.isClients with _ | _
  · have hsame := client_of_step h hclient
    refine .keep (hsame ▸ List.suffix_rfl) (congrArg WSSClient.stream hsame) ?_
    cases a with
    | visit => cases hclient
    | _ => trivial
  · obtain ⟨c, rfl, hstep⟩ := clientStep h hclient
    cases hstep with
    | move subs loop hloop _ => exact .keep List.suffix_rfl rfl (sameCamera_of_not_fetched hloop)
    | find slot b slots hloop _ _ =>
      have hvisiting := LoopPc.ne_fetched (congrArg LoopPc.bundles hloop)
      exact .keep List.suffix_rfl rfl (sameCamera_of_not_fetched hvisiting)
    | enqueue slot b slots hloop =>
      unfold WSSClient.enqueue
      split_ifs with hdup
      · have hguard : SameCamera s .visit := by
          simp only [SameCamera, hloop]
          exact fun hne => absurd hdup hne
        exact .keep List.suffix_rfl rfl hguard
      · exact .push slot b slots hloop hdup rfl rfl
    | take item queue hsender hqueue =>
      refine .keep ?_ ?_ trivial
      · rw [hqueue]
        exact List.suffix_cons item queue
      · simp [State.setClient, WSSClient.stream, hsender, hqueue]
    | send item hsender =>
      refine .keep List.suffix_rfl ?_ trivial
      simp [State.setClient, WSSClient.stream, hsender]

theorem QueueInv.push {queue : List SendItem} (h : QueueInv queue) {slot : BufferSlotKey}
    {b : SharedBundle} (hslot : b.slot = slot) :
    QueueInv (queue.filter (·.type ≠ slot.type) ++ [⟨slot.type, b⟩]) where
  types := by
    intro item hitem
    rcases List.mem_append.mp hitem with hold | hnew
    · exact h.types item (List.mem_of_mem_filter hold)
    · rw [List.mem_singleton.mp hnew, ← hslot]
  nodup := by
    rw [List.map_append, List.map_singleton, List.nodup_append]
    refine ⟨h.nodup.sublist (List.filter_sublist.map _), List.nodup_singleton _, ?_⟩
    intro type hold type' hnew
    obtain ⟨item, hitem, rfl⟩ := List.mem_map.mp hold
    rw [List.mem_singleton.mp hnew]
    exact of_decide_eq_true (List.mem_filter.mp hitem).2

theorem QueueInv.onePerSlot (h : QueueInv s.client.sendQueue) : OnePerSlot s := by
  -- Different types are different slots.
  unfold OnePerSlot
  have htypes : s.client.sendQueue.map (·.type) =
      (s.client.sendQueue.map (·.bundle.slot)).map (·.type) := by
    rw [List.map_map]
    exact List.map_congr_left h.types
  have hnodup := h.nodup
  rw [htypes] at hnodup
  exact hnodup.of_map _

theorem queueInv_step (hs : Inv s) (hq : QueueInv s.client.sendQueue)
    (h : step parse movedFrom s a = some t) : QueueInv t.client.sendQueue := by
  cases queueStep h with
  | keep hqueue =>
    constructor
    · exact fun item hitem => hq.types item (hqueue.subset hitem)
    · exact hq.nodup.sublist (hqueue.sublist.map _)
  | push slot b slots hloop hnew hqueue =>
    obtain ⟨last, hc⟩ := hs.client
    rw [hqueue]
    exact hq.push (hc.fetched slot b slots hloop).1

theorem mem_stream {item : SendItem} :
    item ∈ c.stream ↔ item ∈ c.sent ++ c.sender.toList ∨ item ∈ c.sendQueue := by
  unfold WSSClient.stream
  rw [← List.append_assoc, List.mem_append]

theorem ClientInv.not_taken {last : BufferSlotKey → Option SharedBundle} {f : Feed}
    (hc : ClientInv last f c) {item : SendItem} (hitem : item ∈ c.sendQueue) :
    item ∉ c.sent ++ c.sender.toList := by
  intro htaken
  have hpair := hc.increasing item.bundle.slot
  unfold WSSClient.stream at hpair
  rw [← List.append_assoc, ordersOf_append, List.pairwise_append] at hpair
  obtain ⟨-, -, hlt⟩ := hpair
  exact lt_irrefl _ (hlt _ (mem_ordersOf htaken) _ (mem_ordersOf hitem))

theorem evictsOlder_iff (hs : Inv s) (hq : QueueInv s.client.sendQueue)
    (h : step parse movedFrom s a = some t) : EvictsOlder s t ↔ SameCamera s a := by
  cases queueStep h with
  | keep _ hstream hguard =>
    refine iff_of_true (fun item hitem hout => ?_) hguard
    rw [hstream] at hout
    exact absurd (mem_stream.mpr (.inr hitem)) hout
  | push slot b slots hloop hnew hqueue htaken =>
    obtain ⟨last, hc⟩ := hs.client
    have hslot := (hc.fetched slot b slots hloop).1
    have hmem : ∀ item, item ∈ t.client.sendQueue ↔
        (item ∈ s.client.sendQueue ∧ item.type ≠ slot.type) ∨ item = ⟨slot.type, b⟩ := by
      intro item
      rw [hqueue, List.mem_append, List.mem_filter, decide_eq_true_eq, List.mem_singleton]
    have hguard : SameCamera s .visit ↔ ∀ item ∈ s.client.sendQueue, item.type = slot.type →
        item.bundle.cameraId = slot.cameraId := by
      simp only [SameCamera, hloop]
      exact forall_prop_of_true hnew
    rw [hguard]
    constructor
    · intro hevicts item hitem htype
      by_cases hout : item ∈ t.client.stream
      · -- It is in the queue still, so it is the new item.
        rw [mem_stream, htaken, or_iff_right (hc.not_taken hitem), hmem] at hout
        rcases hout with ⟨-, hne⟩ | rfl
        · exact absurd htype hne
        · exact congrArg BufferSlotKey.cameraId hslot
      · obtain ⟨new, hin, -, hsame, -⟩ := hevicts item hitem hout
        rcases (hmem new).mp hin with ⟨hold, hne⟩ | rfl
        · rw [hq.types new hold, hsame, ← hq.types item hitem] at hne
          exact absurd htype hne
        · exact congrArg BufferSlotKey.cameraId (hsame.symm.trans hslot)
    · intro hcameras item hitem hout
      have htype : item.type = slot.type := by
        by_contra hne
        exact hout (mem_stream.mpr (.inr ((hmem item).mpr (.inl ⟨hitem, hne⟩))))
      have hbundle : item.bundle.bundle.type = slot.type :=
        (hq.types item hitem).symm.trans htype
      have hsame : b.slot = item.bundle.slot := by
        rw [hslot, SharedBundle.slot, hcameras item hitem htype, hbundle]
      have holder : ∀ old ∈ s.client.stream, old.bundle.slot = slot →
          old.bundle.order < b.order := by
        rintro old hold rfl
        obtain ⟨b', hb', hle⟩ := hc.newest _ _ (mem_ordersOf hold)
        exact hle.trans_lt (hc.newer hloop hnew b' hb')
      refine ⟨⟨slot.type, b⟩, (hmem _).mpr (.inr rfl), fun hold => ?_, hsame, ?_⟩
      · exact lt_irrefl _ (holder _ hold hslot)
      · exact holder item (mem_stream.mpr (.inr hitem)) (hsame.symm.trans hslot)

theorem sameCamera_of_step_eq_none (h : step parse movedFrom s a = none) : SameCamera s a := by
  cases a with
  | visit =>
    unfold SameCamera
    dsimp only
    split
    · rename_i slot b slots hloop
      -- A client that has found a bundle can always go on.
      have hvisit : s.client.visit s.feed =
          some { s.client.enqueue slot b with loop := .visiting slots } := by
        rw [WSSClient.visit, hloop]
      rw [step, hvisit] at h
      cases h
    · trivial
  | _ => trivial

end

/-- In every run a client's queue holds at most one item of each camera and type; and the items
that a run loses all give way to newer ones of their camera and type exactly if no item is
queued while one of its type waits for another camera. -/
theorem evictions_iff_sameCamera (parse : Bytes → Except JsonException Json)
    (movedFrom : SharedFrame → SharedFrame) (depth queueDepth : UInt64)
    (cells : Fin DataPipeline.frameCapacity.val.toNat → SharedFrame) (as : List Action) :
    ((∀ pre t, pre <+: as →
        run (step parse movedFrom) ⟨.init depth queueDepth cells, .init⟩ pre = some t →
          OnePerSlot t) ∧
      ∀ pre a s t, pre ++ [a] <+: as →
        run (step parse movedFrom) ⟨.init depth queueDepth cells, .init⟩ pre = some s →
          step parse movedFrom s a = some t → EvictsOlder s t) ↔
      Guarded (step parse movedFrom) SameCamera ⟨.init depth queueDepth cells, .init⟩ as := by
  have hI : ∀ s a t, Inv s ∧ QueueInv s.client.sendQueue → step parse movedFrom s a = some t →
      Inv t ∧ QueueInv t.client.sendQueue := by
    intro s a t hs h
    exact ⟨inv_step s a t hs.1 h, queueInv_step hs.1 hs.2 h⟩
  have h₀ : Inv ⟨.init depth queueDepth cells, .init⟩ ∧ QueueInv WSSClient.init.sendQueue :=
    ⟨inv_init depth queueDepth cells, fun _ h => absurd h List.not_mem_nil, List.nodup_nil⟩
  have hone : ∀ pre t, pre <+: as →
      run (step parse movedFrom) ⟨.init depth queueDepth cells, .init⟩ pre = some t →
        OnePerSlot t := by
    intro pre t _ hrun
    exact (run_invariant hI h₀ hrun).2.onePerSlot
  rw [and_iff_right hone]
  exact guarded_iff_forall_step hI (fun s a => sameCamera_of_step_eq_none)
    (fun s a t hs h => evictsOlder_iff hs.1 hs.2 h) h₀ as

def publishReading (cameraId : String) (address : UInt64) : List Action :=
  .publish cameraId ⟨1, 5⟩ [(address, ⟨⟨1, 5⟩, .imu, [1]⟩)] :: List.replicate 7 .publisher

def firstQueued : List Action :=
  publishReading "cam1" 4096 ++ publishReading "cam2" 8192 ++
    [.readFrame (some ⟨0x1, [0x7B]⟩), .look [⟨"cam1", .imu⟩, ⟨"cam2", .imu⟩],
      .visit, .visit, .visit]

/-- Before the sender gets to the first camera's reading, the second camera's replaces it. -/
theorem second_camera_evicts_first :
    ∃ s t, run (step parseNothing id) ⟨.init 3 4 fun _ => ⟨"", ⟨0, 0⟩, []⟩, .init⟩ firstQueued =
        some s ∧
      step parseNothing id s .visit = some t ∧ ¬EvictsOlder s t := by
  have hviews : (run (step parseNothing id)
      ⟨.init 3 4 fun _ => ⟨"", ⟨0, 0⟩, []⟩, .init⟩ firstQueued).map
        (fun s => (s.client.sendQueue.map (·.bundle.slot),
          (step parseNothing id s .visit).map fun t => t.client.stream.map (·.bundle.slot))) =
      some ([⟨"cam1", .imu⟩], some [⟨"cam2", .imu⟩]) := by
    with_unfolding_all rfl
  obtain ⟨s, hrun, hview⟩ := Option.map_eq_some_iff.mp hviews
  obtain ⟨hqueue, hnext⟩ := Prod.mk.inj hview
  obtain ⟨t, hstep, hstream⟩ := Option.map_eq_some_iff.mp hnext
  refine ⟨s, t, hrun, hstep, fun hevicts => ?_⟩
  have hslots : ∀ item ∈ t.client.stream, item.bundle.slot = ⟨"cam2", .imu⟩ := by
    intro item hitem
    have hmem : item.bundle.slot ∈ t.client.stream.map (·.bundle.slot) :=
      List.mem_map_of_mem hitem
    rwa [hstream, List.mem_singleton] at hmem
  have hwaits : (⟨"cam1", .imu⟩ : BufferSlotKey) ∈ s.client.sendQueue.map (·.bundle.slot) := by
    rw [hqueue]
    exact List.mem_singleton_self _
  obtain ⟨item, hitem, hslot⟩ := List.mem_map.mp hwaits
  have hout : item ∉ t.client.stream := by
    intro hin
    exact absurd (hslot.symm.trans (hslots item hin)) (by decide)
  obtain ⟨new, hnew, -, hsame, -⟩ := hevicts item hitem hout
  have hcam2 := hslots new (mem_stream.mpr (.inr hnew))
  exact absurd (hslot.symm.trans (hsame.symm.trans hcam2)) (by decide)

end StereoCamera.WSServer.Delivery
