import StereoCamera.Data.SPSCQueueOrder
import StereoCamera.Data.WSServerDelivery

/-! What a client finds for a slot never goes back: between two looks it is the same bundle,
or it is gone, or a newer one has come. -/

namespace StereoCamera.WSServer.Delivery
open SPSCQueue (OrderInv PopPc PushPc.item tryPush pop producerStep consumerStep)

def SharedBundle.slot (b : SharedBundle) : BufferSlotKey := ⟨b.cameraId, b.bundle.type⟩

def pushedItem (q : EncodeQueue) : List SharedBundle :=
  match q.producers () with
  | none => []
  | some pc => pc.item.bundles

/-- The bundles on their way through an encode queue, oldest first. -/
def underway (q : EncodeQueue) : List SharedBundle :=
  (q.accepted.drop q.popped.length).flatMap (·.bundles) ++ pushedItem q

def PublisherPc.bundles : PublisherPc → List SharedBundle
  | .pushing frame _ => frame.bundles
  | _ => []

def EncoderPc.bundles : EncoderPc → List SharedBundle
  | .encoding _ rest => rest
  | _ => []

namespace Feed

/-- What `encode_loop` may still encode of the bundles that are in buffer #2, oldest first. -/
def raw (f : Feed) : List SharedBundle :=
  f.encoder.bundles ++ (underway (f.encodeQueues .visualGeometric2D) ++ f.publisher.bundles)

def Past (f : Feed) (slot : BufferSlotKey) (n : ℕ) : Prop :=
  n < f.pushed ∧ (slot.type = .stereoImage → ∀ b ∈ f.raw, n < b.order)

structure Inv (f : Feed) : Prop where
  queues : ∀ group, OrderInv (f.encodeQueues group)
  increasing : f.raw.Pairwise (·.order < ·.order)
  pushed : ∀ b ∈ f.raw, b.order < f.pushed
  fetched : ∀ slot b, f.fetch slot = some b → b.slot = slot ∧ f.Past slot b.order

structure Advances (f g : Feed) : Prop where
  queues : ∀ group, OrderInv (g.encodeQueues group)
  pushed : f.pushed ≤ g.pushed
  raw : ∃ new, g.raw.Sublist (f.raw ++ new) ∧ new.Pairwise (·.order < ·.order) ∧
    ∀ b ∈ new, f.pushed ≤ b.order ∧ b.order < g.pushed
  fetched : ∀ slot b, g.fetch slot = some b → f.fetch slot = some b ∨
    b.slot = slot ∧ g.Past slot b.order ∧ ∀ n, f.Past slot n → n < b.order

variable {f g : Feed}

theorem Advances.past (h : f.Advances g) {slot : BufferSlotKey} {n : ℕ} (hn : f.Past slot n) :
    g.Past slot n := by
  obtain ⟨new, hsub, -, hnew⟩ := h.raw
  refine ⟨hn.1.trans_le h.pushed, fun hstereo b hb => ?_⟩
  rcases List.mem_append.mp (hsub.subset hb) with hold | hb
  · exact hn.2 hstereo b hold
  · exact hn.1.trans_le (hnew b hb).1

theorem Inv.advance (hf : f.Inv) (h : f.Advances g) : g.Inv where
  queues := h.queues
  increasing := by
    obtain ⟨new, hsub, hpair, hnew⟩ := h.raw
    apply List.Pairwise.sublist hsub
    apply List.pairwise_append.mpr
    refine ⟨hf.increasing, hpair, fun b hb b' hb' => ?_⟩
    exact (hf.pushed b hb).trans_le (hnew b' hb').1
  pushed := by
    obtain ⟨new, hsub, -, hnew⟩ := h.raw
    intro b hb
    rcases List.mem_append.mp (hsub.subset hb) with hold | hb
    · exact (hf.pushed b hold).trans_le h.pushed
    · exact (hnew b hb).2
  fetched := by
    intro slot b hb
    rcases h.fetched slot b hb with hold | ⟨hslot, hpast, -⟩
    · exact ⟨(hf.fetched slot b hold).1, h.past (hf.fetched slot b hold).2⟩
    · exact ⟨hslot, hpast⟩

theorem Advances.trans {h : Feed} (hfg : f.Advances g) (hgh : g.Advances h) : f.Advances h where
  queues := hgh.queues
  pushed := hfg.pushed.trans hgh.pushed
  raw := by
    obtain ⟨new, hsub, hpair, hnew⟩ := hfg.raw
    obtain ⟨new', hsub', hpair', hnew'⟩ := hgh.raw
    refine ⟨new ++ new', ?_, ?_, fun b hb => ?_⟩
    · rw [← List.append_assoc]
      exact hsub'.trans (hsub.append (List.Sublist.refl _))
    · apply List.pairwise_append.mpr
      refine ⟨hpair, hpair', fun b hb b' hb' => ?_⟩
      exact (hnew b hb).2.trans_le (hnew' b' hb').1
    · rcases List.mem_append.mp hb with hb | hb
      · exact ⟨(hnew b hb).1, (hnew b hb).2.trans_le hgh.pushed⟩
      · exact ⟨hfg.pushed.trans (hnew' b hb).1, (hnew' b hb).2⟩
  fetched := by
    intro slot b hb
    rcases hgh.fetched slot b hb with hb | ⟨hslot, hpast, hfresh⟩
    · rcases hfg.fetched slot b hb with hb | ⟨hslot, hpast, hfresh⟩
      · exact .inl hb
      · exact .inr ⟨hslot, hgh.past hpast, hfresh⟩
    · exact .inr ⟨hslot, hpast, fun n hn => hfresh n (hfg.past hn)⟩

theorem advances_of_fetch (hqueues : ∀ group, OrderInv (g.encodeQueues group))
    (hpushed : g.pushed = f.pushed) (hraw : g.raw.Sublist f.raw)
    (hfetch : ∀ slot b, g.fetch slot = some b → f.fetch slot = some b) : f.Advances g where
  queues := hqueues
  pushed := hpushed.ge
  raw := by
    refine ⟨[], ?_, List.Pairwise.nil, fun b hb => absurd hb List.not_mem_nil⟩
    rwa [List.append_nil]
  fetched := fun slot b hb => .inl (hfetch slot b hb)

theorem fetch_congr (hbuffer : g.buffer2 = f.buffer2) (hstereo : g.encodedStereo = f.encodedStereo)
    (slot : BufferSlotKey) : g.fetch slot = f.fetch slot := by
  unfold fetch
  rw [hbuffer, hstereo]

theorem setQueue_self (f : Feed) (group : DataGroup) (q : EncodeQueue) :
    (f.setQueue group q).encodeQueues group = q := Function.update_self ..

theorem setQueue_of_ne (f : Feed) {group group' : DataGroup} (h : group' ≠ group)
    (q : EncodeQueue) : (f.setQueue group q).encodeQueues group' = f.encodeQueues group' :=
  Function.update_of_ne h ..

theorem Inv.advances_queue (hf : f.Inv) {group : DataGroup} {q : EncodeQueue}
    (hq : OrderInv q) (hqueues : g.encodeQueues = (f.setQueue group q).encodeQueues)
    (hpushed : g.pushed = f.pushed) (hbuffer : g.buffer2 = f.buffer2)
    (hstereo : g.encodedStereo = f.encodedStereo)
    (hraw : g.raw.Sublist f.raw) : f.Advances g := by
  refine advances_of_fetch ?_ hpushed hraw fun slot b hb => ?_
  · intro group'
    rw [hqueues]
    by_cases hgroup : group' = group
    · rw [hgroup, setQueue_self]
      exact hq
    · rw [setQueue_of_ne f hgroup]
      exact hf.queues group'
  · rwa [fetch_congr hbuffer hstereo] at hb

end Feed

section
variable {movedFrom : SharedFrame → SharedFrame} {q q' : EncodeQueue}

theorem underway_callPop (h : SPSCQueue.step movedFrom q .callPop = some q') :
    underway q' = underway q := by
  simp only [SPSCQueue.step] at h
  split at h
  · cases h
    rfl
  · cases h

theorem underway_callTryPush {frame : SharedFrame}
    (h : SPSCQueue.step movedFrom q (.callTryPush () frame) = some q') :
    underway q' = underway q ++ frame.bundles := by
  simp only [SPSCQueue.step] at h
  split at h
  · rename_i hnone
    cases h
    simp [underway, pushedItem, hnone, PushPc.item]
  · cases h

theorem underway_producer (hq : OrderInv q)
    (h : SPSCQueue.step movedFrom q (.producer ()) = some q') :
    (underway q').Sublist (underway q) := by
  obtain ⟨pc, hpc, rfl⟩ := Option.map_eq_some_iff.mp h
  have hitem : pushedItem q = pc.item.bundles := by
    unfold pushedItem
    rw [hpc]
  have hle := hq.popped.length_le
  unfold underway
  rw [hitem]
  cases pc with
  | loadMaxDepth item wp rp =>
    by_cases hfull : wp - rp ≥ q.queue.maxDepth
    · simp [producerStep, tryPush, hfull, pushedItem, PushPc.item]
    · simp [producerStep, tryPush, hfull, pushedItem, PushPc.item]
  | storeWritePos item wp =>
    simp [producerStep, tryPush, pushedItem, PushPc.item, List.drop_append_of_le_length hle]
  | _ => simp [producerStep, tryPush, pushedItem, PushPc.item]

theorem underway_consumer (hq : OrderInv q) {pc : PopPc SharedFrame} (hpc : q.consumer = some pc)
    (h : SPSCQueue.step movedFrom q .consumer = some q') :
    underway q = (match (pop movedFrom q.queue pc).2 with
      | .inr (some frame) => frame.bundles
      | _ => []) ++ underway q' := by
  simp only [SPSCQueue.step, hpc, Option.map_some] at h
  cases h
  have hok := hq.consumer
  rw [hpc] at hok
  unfold underway
  cases pc with
  | loadReadPos => rfl
  | loadWritePos rp =>
    by_cases hempty : rp ≥ q.queue.writePos
    · simp [consumerStep, pop, hempty, pushedItem]
    · simp [consumerStep, pop, hempty, pushedItem]
  | takeCell rp => rfl
  | storeReadPos out rp =>
    have hhead : q.accepted.drop q.popped.length =
        out :: q.accepted.drop (q.popped.length + 1) := by
      obtain ⟨hlen, hget⟩ := List.getElem?_eq_some_iff.mp hok.2
      rw [List.drop_eq_getElem_cons hlen, hget]
    simp [consumerStep, pop, pushedItem, hhead]

end

namespace Feed
variable {movedFrom : SharedFrame → SharedFrame} {f g : Feed}

theorem underway_setQueue (group : DataGroup) {q : EncodeQueue} (more : List SharedBundle)
    (h : (underway q).Sublist (underway (f.encodeQueues group) ++ more)) :
    (underway ((f.setQueue group q).encodeQueues .visualGeometric2D)).Sublist
      (underway (f.encodeQueues .visualGeometric2D) ++ more) := by
  by_cases hgroup : DataGroup.visualGeometric2D = group
  · rw [hgroup, setQueue_self]
    exact h
  · rw [setQueue_of_ne f hgroup]
    exact List.sublist_append_left _ _

theorem publish_cases {cameraId : String} {timestamp : Timestamp}
    {bundles : List (UInt64 × DataBundle)} (h : f.publish cameraId timestamp bundles = some g) :
    f.publisher = .idle ∧
      g = { f with publisher := .pushing ⟨cameraId, timestamp, []⟩ bundles } := by
  unfold Feed.publish at h
  split at h
  · rename_i hidle
    cases h
    exact ⟨hidle, rfl⟩
  · cases h

theorem Inv.publish (hf : f.Inv) {cameraId : String} {timestamp : Timestamp}
    {bundles : List (UInt64 × DataBundle)} (h : f.publish cameraId timestamp bundles = some g) :
    f.Advances g := by
  obtain ⟨hidle, rfl⟩ := publish_cases h
  refine advances_of_fetch hf.queues rfl ?_ fun _ _ hb => hb
  unfold raw
  rw [hidle]
  exact List.Sublist.refl _

theorem Inv.pushBundle (hf : f.Inv) {frame : SharedFrame} {address : UInt64} {bundle : DataBundle}
    {rest rest' : List (UInt64 × DataBundle)} (hpc : f.publisher = .pushing frame rest') :
    f.Advances (f.pushBundle frame address bundle rest) where
  queues := hf.queues
  pushed := Nat.le_succ _
  raw := by
  -- A bundle is newer than all that were pushed before.
    refine ⟨[⟨address, bundle, frame.cameraId, f.pushed⟩], ?_, List.pairwise_singleton _ _, ?_⟩
    · unfold raw
      rw [hpc]
      simp [Feed.pushBundle, PublisherPc.bundles]
    · intro b hb
      rw [List.mem_singleton.mp hb]
      exact ⟨Nat.le_refl _, Nat.lt_succ_self _⟩
  fetched := by
    intro slot b hb
    by_cases hstereo : slot.type = .stereoImage
    · left
      unfold fetch at hb ⊢
      rwa [if_pos hstereo] at hb ⊢
    · by_cases hslot : slot = ⟨frame.cameraId, bundle.type⟩
      · right
        subst hslot
        unfold fetch at hb
        rw [if_neg hstereo] at hb
        have hnew := DataBuffer.getLatest_push hb
        subst hnew
        exact ⟨rfl, ⟨Nat.lt_succ_self _, fun h => absurd h hstereo⟩, fun n hn => hn.1⟩
      · left
        unfold fetch at hb ⊢
        rw [if_neg hstereo] at hb ⊢
        change (f.buffer2.push frame.cameraId bundle.type _).getLatest slot.cameraId slot.type =
          some b at hb
        rwa [DataBuffer.getLatest_push_of_ne hslot] at hb

theorem Inv.publisherStep (hf : f.Inv) (h : f.publisherStep movedFrom = some g) :
    f.Advances g := by
  unfold Feed.publisherStep at h
  split at h
  · cases h
  · rename_i hpc
    cases h
    exact hf.pushBundle hpc
  · rename_i frame hpc
    split at h
    · rename_i hnil
      cases h
      refine advances_of_fetch hf.queues rfl ?_ fun _ _ hb => hb
      unfold raw
      rw [hpc]
      simp [PublisherPc.bundles, hnil]
    · obtain ⟨q, hq, rfl⟩ := Option.map_eq_some_iff.mp h
      refine hf.advances_queue ((hf.queues _).step hq) rfl rfl rfl rfl ?_
      have hsub := underway_setQueue _ frame.bundles (by
        rw [underway_callTryPush hq])
      unfold raw
      rw [hpc]
      dsimp only [PublisherPc.bundles]
      rw [List.append_nil]
      exact (List.Sublist.refl _).append hsub
  · rename_i group hpc
    obtain ⟨q, hq, rfl⟩ := Option.map_eq_some_iff.mp h
    refine hf.advances_queue ((hf.queues group).step hq) rfl rfl rfl rfl ?_
    have hsub := underway_setQueue group []
      ((underway_producer (hf.queues group) hq).trans (List.sublist_append_left _ _))
    have hbundles : (if (q.producers ()).isSome then PublisherPc.queueing group
        else .idle).bundles = [] := by
      split_ifs <;> rfl
    unfold raw
    rw [hpc]
    change (f.encoder.bundles ++ (_ ++ PublisherPc.bundles _)).Sublist (_ ++ (_ ++ []))
    rw [hbundles, List.append_nil]
    exact (List.Sublist.refl _).append hsub

theorem Inv.clear (hf : f.Inv) : f.Advances { f with buffer2 := f.buffer2.clear } := by
  refine advances_of_fetch hf.queues rfl (List.Sublist.refl _) fun slot b hb => ?_
  unfold fetch at hb ⊢
  split_ifs at hb ⊢ with hstereo
  · exact hb
  · rw [DataBuffer.getLatest_clear] at hb
    cases hb

theorem Inv.callPop (hf : f.Inv) {group : DataGroup} (h : f.callPop movedFrom group = some g) :
    f.Advances g := by
  obtain ⟨q, hq, rfl⟩ := Option.map_eq_some_iff.mp h
  refine hf.advances_queue ((hf.queues group).step hq) rfl rfl rfl rfl ?_
  have hsub := underway_setQueue (f := f) (q := q) group [] (by
    rw [underway_callPop hq, List.append_nil])
  rw [List.append_nil] at hsub
  unfold raw
  exact (List.nil_sublist _).append (hsub.append (List.Sublist.refl _))

theorem Inv.encode (hf : f.Inv) (address : UInt64) (compress : Bytes → ℕ → ℕ → Option Bytes)
    {cameraId : String} {b : SharedBundle} {rest : List SharedBundle}
    (hpc : f.encoder = .encoding cameraId (b :: rest)) :
    f.Advances
      { f.encode address compress cameraId b with encoder := .encoding cameraId rest } := by
  -- An image in the cache is older than all raw images that may still follow it.
  have hraw : f.raw = b :: (rest ++
      (underway (f.encodeQueues .visualGeometric2D) ++ f.publisher.bundles)) := by
    unfold raw
    rw [hpc]
    rfl
  have hmem : b ∈ f.raw := by
    rw [hraw]
    exact List.mem_cons_self
  have hnewer := hf.increasing
  rw [hraw, List.pairwise_cons] at hnewer
  have hsub : (rest ++ (underway (f.encodeQueues .visualGeometric2D) ++
      f.publisher.bundles)).Sublist f.raw := by
    rw [hraw]
    exact List.sublist_cons_self _ _
  unfold Feed.encode
  split_ifs with hskip
  · exact advances_of_fetch hf.queues rfl hsub fun _ _ hb => hb
  · have htype : b.bundle.type = .stereoImage := by
      by_contra hne
      exact hskip (.inl hne)
    dsimp only
    split
    · exact advances_of_fetch hf.queues rfl hsub fun _ _ hb => hb
    · rename_i encoded _
      refine ⟨hf.queues, Nat.le_refl _, ?_, fun slot out hout => ?_⟩
      · exact ⟨[], hsub.trans (List.sublist_append_left _ _), List.Pairwise.nil,
          fun _ h => absurd h List.not_mem_nil⟩
      · unfold fetch at hout ⊢
        split_ifs at hout ⊢ with hstereo
        · dsimp only at hout
          by_cases hcamera : slot.cameraId = cameraId
          · right
            rw [hcamera, Function.update_self] at hout
            cases hout
            refine ⟨?_, ⟨hf.pushed b hmem, fun _ => hnewer.1⟩, fun n hn => hn.2 hstereo b hmem⟩
            unfold SharedBundle.slot
            rw [← hcamera, htype, ← hstereo]
          · left
            rwa [Function.update_of_ne hcamera] at hout
        · exact .inl hout

theorem Inv.encoderStep (hf : f.Inv) {address : UInt64}
    {compress : Bytes → ℕ → ℕ → Option Bytes}
    (h : f.encoderStep movedFrom address compress = some g) : f.Advances g := by
  unfold Feed.encoderStep at h
  split at h
  · exact hf.callPop h
  · rename_i group hencoder
    split at h
    · cases h
    · rename_i pc hpc
      obtain ⟨q, hq, h⟩ := Option.bind_eq_some_iff.mp h
      have horder := (hf.queues group).step hq
      have hunderway := underway_consumer (hf.queues group) hpc hq
      have hsub : (f.setQueue group q).raw.Sublist f.raw := by
        have hqueue := underway_setQueue (f := f) (q := q) group [] (by
          rw [hunderway]
          exact (List.sublist_append_right _ _).trans (List.sublist_append_left _ _))
        rw [List.append_nil] at hqueue
        unfold raw
        exact (List.Sublist.refl _).append (hqueue.append (List.Sublist.refl _))
      have hset : f.Advances (f.setQueue group q) :=
        hf.advances_queue horder rfl rfl rfl rfl hsub
      split at h
      · cases h
        exact hset
      · rename_i frame hpop
        split_ifs at h with hgroup
        · cases h
          refine hf.advances_queue horder rfl rfl rfl rfl ?_
          rw [hpop, hgroup] at hunderway
          unfold raw
          rw [hencoder, hgroup, hunderway]
          dsimp only [EncoderPc.bundles]
          rw [setQueue_self, List.append_assoc]
          exact List.Sublist.refl _
        · exact hset.trans ((hf.advance hset).callPop h)
      · split at h
        · exact hset.trans ((hf.advance hset).callPop h)
        · cases h
          refine hf.advances_queue horder rfl rfl rfl rfl ?_
          unfold raw at hsub ⊢
          exact (List.nil_sublist _).append ((List.append_sublist_append_left _).mp hsub)
  · exact hf.callPop h
  · rename_i hencoder
    cases h
    exact hf.encode address compress hencoder

end Feed

end StereoCamera.WSServer.Delivery
