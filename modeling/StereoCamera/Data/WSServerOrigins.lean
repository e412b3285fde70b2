import StereoCamera.Data.SPSCQueueCalls
import StereoCamera.Data.WSServerOrder

/-! Where the bundles that a client is sent come from: `pub_callback` was called with each of
them, or with the raw image that it is the encoding of (`main.cpp`, `data/WSServer.cpp`). -/

namespace StereoCamera.WSServer.Delivery
open SPSCQueue (OrderInv PopPc pop)
open Transition

/-- What is sent for a bundle: itself, or the encoding of an image. -/
def SentFor (compress : Bytes → ℕ → ℕ → Option Bytes) (raw b : DataBundle) : Prop :=
  if raw.type = .stereoImage then
    ∃ encoded, encodeStereoImage compress raw.payload = some encoded ∧
      b = { raw with payload := encoded }
  else b = raw

/-- `items` are the published bundles, each with its camera. -/
def SharedBundle.Raw (items : List (String × DataBundle)) (b : SharedBundle) : Prop :=
  items[b.order]? = some (b.cameraId, b.bundle)

def SharedBundle.Sourced (compress : Bytes → ℕ → ℕ → Option Bytes)
    (items : List (String × DataBundle)) (b : SharedBundle) : Prop :=
  ∃ raw, items[b.order]? = some (b.cameraId, raw) ∧ SentFor compress raw b.bundle

def SharedFrame.Raw (items : List (String × DataBundle)) (frame : SharedFrame) : Prop :=
  ∀ b ∈ frame.bundles, b.cameraId = frame.cameraId ∧ b.Raw items

section
variable {compress : Bytes → ℕ → ℕ → Option Bytes} {items new : List (String × DataBundle)}
  {b : SharedBundle}

theorem SentFor.type_eq {raw b : DataBundle} (h : SentFor compress raw b) : b.type = raw.type := by
  unfold SentFor at h
  split_ifs at h
  · obtain ⟨-, -, rfl⟩ := h
    rfl
  · rw [h]

theorem SharedBundle.Raw.append (h : b.Raw items) (new : List (String × DataBundle)) :
    b.Raw (items ++ new) := by
  obtain ⟨hlt, -⟩ := List.getElem?_eq_some_iff.mp h
  unfold SharedBundle.Raw
  rw [List.getElem?_append_left hlt]
  exact h

theorem SharedBundle.Sourced.append (h : b.Sourced compress items)
    (new : List (String × DataBundle)) : b.Sourced compress (items ++ new) := by
  obtain ⟨raw, hraw, hsent⟩ := h
  obtain ⟨hlt, -⟩ := List.getElem?_eq_some_iff.mp hraw
  refine ⟨raw, ?_, hsent⟩
  rw [List.getElem?_append_left hlt]
  exact hraw

theorem SharedFrame.Raw.append {frame : SharedFrame} (h : frame.Raw items)
    (new : List (String × DataBundle)) : frame.Raw (items ++ new) := fun b hb =>
  ⟨(h b hb).1, (h b hb).2.append new⟩

theorem SharedBundle.Raw.sourced (h : b.Raw items) (hne : b.bundle.type ≠ .stereoImage) :
    b.Sourced compress items := by
  refine ⟨b.bundle, h, ?_⟩
  unfold SentFor
  rw [if_neg hne]

end

/-! ## The queues -/

def carried (q : EncodeQueue) : List SharedFrame := q.accepted ++ q.inFlight ()

section
variable {movedFrom : SharedFrame → SharedFrame} {q q' : EncodeQueue} {frame : SharedFrame}

theorem mem_carried_producer (h : SPSCQueue.step movedFrom q (.producer ()) = some q')
    (hframe : frame ∈ carried q') : frame ∈ carried q := by
  unfold carried at hframe ⊢
  rcases (SPSCQueue.producer_carries h).1 with ⟨haccepted, hsame | hnone⟩ | ⟨haccepted, hnone⟩
  · rwa [haccepted, hsame] at hframe
  · rw [haccepted, hnone, List.append_nil] at hframe
    exact List.mem_append_left _ hframe
  · rwa [haccepted, hnone, List.append_nil] at hframe

theorem mem_carried_callTryPush {item : SharedFrame}
    (h : SPSCQueue.step movedFrom q (.callTryPush () item) = some q')
    (hframe : frame ∈ carried q') : frame ∈ carried q ∨ frame = item := by
  obtain ⟨haccepted, -, hitem, -⟩ := SPSCQueue.callTryPush_carries h
  unfold carried at hframe ⊢
  rw [haccepted, hitem, List.mem_append, List.mem_singleton] at hframe
  exact hframe.imp_left fun hold => List.mem_append_left _ hold

theorem carried_congr (h : q'.accepted = q.accepted ∧ q'.producers = q.producers) :
    carried q' = carried q := by
  unfold carried SPSCQueue.State.inFlight
  rw [h.1, h.2]

theorem mem_carried_of_pop (hq : OrderInv q) {pc : PopPc SharedFrame} (hpc : q.consumer = some pc)
    (hpop : (pop movedFrom q.queue pc).2 = .inr (some frame)) : frame ∈ carried q := by
  have hok := hq.consumer
  rw [hpc] at hok
  apply List.mem_append_left
  cases pc with
  | loadReadPos => cases hpop
  | loadWritePos rp =>
    simp only [pop] at hpop
    split_ifs at hpop
    · cases hpop
  | takeCell rp => cases hpop
  | storeReadPos out rp =>
    obtain rfl : out = frame := Option.some.inj (Sum.inr.inj hpop)
    exact List.mem_of_getElem? hok.2

end

/-! ## The feed -/

def PublisherPc.rest : PublisherPc → List (String × DataBundle)
  | .pushing frame rest => rest.map fun r => (frame.cameraId, r.2)
  | _ => []

namespace Feed

structure Sourced (compress : Bytes → ℕ → ℕ → Option Bytes) (items : List (String × DataBundle))
    (f : Feed) : Prop where
  pushed : f.pushed ≤ items.length ∧ items.drop f.pushed = f.publisher.rest
  publisher : ∀ frame rest, f.publisher = .pushing frame rest → frame.Raw items
  queues : ∀ group, ∀ frame ∈ carried (f.encodeQueues group), frame.Raw items
  encoder : ∀ cameraId rest, f.encoder = .encoding cameraId rest →
    ∀ b ∈ rest, b.cameraId = cameraId ∧ b.Raw items
  buffer2 : ∀ cameraId type b, f.buffer2.getLatest cameraId type = some b → b.Raw items
  stereo : ∀ cameraId b, f.encodedStereo cameraId = some b → b.Sourced compress items

variable {compress : Bytes → ℕ → ℕ → Option Bytes} {items : List (String × DataBundle)}
  {f g : Feed}
  {movedFrom : SharedFrame → SharedFrame}

theorem sourced_init (compress : Bytes → ℕ → ℕ → Option Bytes) (depth queueDepth : UInt64)
    (cells : Fin DataPipeline.frameCapacity.val.toNat → SharedFrame) :
    Sourced compress [] (.init depth queueDepth cells) where
  pushed := ⟨Nat.le_refl _, rfl⟩
  publisher := fun _ _ h => PublisherPc.noConfusion h
  queues := fun _ _ h => absurd h List.not_mem_nil
  encoder := fun _ _ h => EncoderPc.noConfusion h
  buffer2 := fun _ _ _ h => absurd h (Option.some_ne_none _).symm
  stereo := fun _ _ h => absurd h (Option.some_ne_none _).symm

theorem Sourced.publish (hf : f.Sourced compress items) {cameraId : String} {timestamp : Timestamp}
    {bundles : List (UInt64 × DataBundle)} (h : f.publish cameraId timestamp bundles = some g) :
    g.Sourced compress (items ++ bundles.map fun b => (cameraId, b.2)) := by
  obtain ⟨hidle, rfl⟩ := publish_cases h
  obtain ⟨hle, hdrop⟩ := hf.pushed
  rw [hidle] at hdrop
  refine ⟨⟨?_, ?_⟩, ?_, ?_, ?_, ?_, ?_⟩
  · rw [List.length_append]
    exact hle.trans (Nat.le_add_right _ _)
  · show (items ++ _).drop f.pushed = bundles.map fun b => (cameraId, b.2)
    rw [List.drop_append_of_le_length hle, hdrop]
    rfl
  · intro frame rest hpc
    cases hpc
    exact fun b hb => absurd hb List.not_mem_nil
  · exact fun group frame hframe => (hf.queues group frame hframe).append _
  · intro camera rest hpc b hb
    obtain ⟨hcamera, hraw⟩ := hf.encoder camera rest hpc b hb
    exact ⟨hcamera, hraw.append _⟩
  · exact fun camera type b hb => (hf.buffer2 camera type b hb).append _
  · exact fun camera b hb => (hf.stereo camera b hb).append _

theorem Sourced.pushBundle (hf : f.Sourced compress items) {frame : SharedFrame} {address : UInt64}
    {bundle : DataBundle} {rest : List (UInt64 × DataBundle)}
    (hpc : f.publisher = .pushing frame ((address, bundle) :: rest)) :
    (f.pushBundle frame address bundle rest).Sourced compress items := by
  obtain ⟨hle, hdrop⟩ := hf.pushed
  rw [hpc] at hdrop
  change items.drop f.pushed =
    (frame.cameraId, bundle) :: rest.map (fun r => (frame.cameraId, r.2)) at hdrop
  have hlt : f.pushed < items.length := by
    rw [← not_le]
    intro hge
    rw [List.drop_eq_nil_of_le hge] at hdrop
    cases hdrop
  obtain ⟨hhead, htail⟩ := List.cons.inj ((List.drop_eq_getElem_cons hlt).symm.trans hdrop)
  have hnew : SharedBundle.Raw items ⟨address, bundle, frame.cameraId, f.pushed⟩ := by
    unfold SharedBundle.Raw
    rw [List.getElem?_eq_getElem hlt, hhead]
  refine ⟨⟨hlt, htail⟩, ?_, hf.queues, hf.encoder, ?_, hf.stereo⟩
  · intro frame' rest' hpc' b hb
    cases hpc'
    rcases List.mem_append.mp hb with hold | hb
    · exact hf.publisher frame _ hpc b hold
    · rw [List.mem_singleton.mp hb]
      exact ⟨rfl, hnew⟩
  · intro cameraId type b hb
    by_cases hslot : (⟨cameraId, type⟩ : BufferSlotKey) = ⟨frame.cameraId, bundle.type⟩
    · cases hslot
      rw [DataBuffer.getLatest_push hb]
      exact hnew
    · apply hf.buffer2 cameraId type b
      change (f.buffer2.push frame.cameraId bundle.type _).getLatest cameraId type = some b at hb
      rwa [DataBuffer.getLatest_push_of_ne hslot] at hb

theorem Sourced.setQueue (hf : f.Sourced compress items) {group : DataGroup} {q : EncodeQueue}
    (hq : ∀ frame ∈ carried q, frame.Raw items) :
    ∀ group', ∀ frame ∈ carried ((f.setQueue group q).encodeQueues group'), frame.Raw items := by
  intro group' frame hframe
  by_cases hgroup : group' = group
  · rw [hgroup, setQueue_self] at hframe
    exact hq frame hframe
  · rw [setQueue_of_ne f hgroup] at hframe
    exact hf.queues group' frame hframe

theorem Sourced.publisherStep (hf : f.Sourced compress items)
    (h : f.publisherStep movedFrom = some g) : g.Sourced compress items := by
  unfold Feed.publisherStep at h
  split at h
  · cases h
  · rename_i hpc
    cases h
    exact hf.pushBundle hpc
  · rename_i frame hpc
    have hdrop := hf.pushed
    rw [hpc] at hdrop
    split at h
    · cases h
      exact ⟨hdrop, fun _ _ hpc' => PublisherPc.noConfusion hpc', hf.queues, hf.encoder,
        hf.buffer2, hf.stereo⟩
    · obtain ⟨q, hq, rfl⟩ := Option.map_eq_some_iff.mp h
      refine ⟨hdrop, fun _ _ hpc' => PublisherPc.noConfusion hpc', ?_, hf.encoder,
        hf.buffer2, hf.stereo⟩
      refine hf.setQueue fun frame' hframe => ?_
      rcases mem_carried_callTryPush hq hframe with hold | rfl
      · exact hf.queues _ frame' hold
      · exact hf.publisher _ _ hpc
  · rename_i group hpc
    have hdrop := hf.pushed
    rw [hpc] at hdrop
    obtain ⟨q, hq, rfl⟩ := Option.map_eq_some_iff.mp h
    have hqueue : ∀ frame ∈ carried q, frame.Raw items := fun frame hframe =>
      hf.queues group frame (mem_carried_producer hq hframe)
    cases hbusy : (q.producers ()).isSome with
    | true =>
      exact ⟨hdrop, fun _ _ hpc' => PublisherPc.noConfusion hpc', hf.setQueue hqueue,
        hf.encoder, hf.buffer2, hf.stereo⟩
    | false =>
      exact ⟨hdrop, fun _ _ hpc' => PublisherPc.noConfusion hpc', hf.setQueue hqueue,
        hf.encoder, hf.buffer2, hf.stereo⟩

theorem Sourced.clear (hf : f.Sourced compress items) :
    Sourced compress items { f with buffer2 := f.buffer2.clear } where
  pushed := hf.pushed
  publisher := hf.publisher
  queues := hf.queues
  encoder := hf.encoder
  buffer2 := by
    intro cameraId type b hb
    rw [DataBuffer.getLatest_clear] at hb
    cases hb
  stereo := hf.stereo

theorem Sourced.callPop (hf : f.Sourced compress items) {group : DataGroup}
    (h : f.callPop movedFrom group = some g) : g.Sourced compress items := by
  obtain ⟨q, hq, rfl⟩ := Option.map_eq_some_iff.mp h
  refine ⟨hf.pushed, hf.publisher, ?_, fun _ _ hpc => EncoderPc.noConfusion hpc, hf.buffer2,
    hf.stereo⟩
  apply hf.setQueue
  rw [carried_congr (SPSCQueue.callPop_carries hq)]
  exact hf.queues group

theorem Sourced.encode (hf : f.Sourced compress items) (address : UInt64) {cameraId : String}
    {b : SharedBundle} {rest : List SharedBundle}
    (hpc : f.encoder = .encoding cameraId (b :: rest)) : Sourced compress items
      { f.encode address compress cameraId b with encoder := .encoding cameraId rest } := by
  obtain ⟨hcamera, hraw⟩ := hf.encoder cameraId _ hpc b List.mem_cons_self
  have hrest : ∀ camera rest', EncoderPc.encoding cameraId rest = .encoding camera rest' →
      ∀ b ∈ rest', b.cameraId = camera ∧ b.Raw items := by
    intro camera rest' heq b' hb'
    cases heq
    exact hf.encoder cameraId _ hpc b' (List.mem_cons_of_mem _ hb')
  unfold Feed.encode
  split_ifs with hskip
  · exact ⟨hf.pushed, hf.publisher, hf.queues, hrest, hf.buffer2, hf.stereo⟩
  · have htype : b.bundle.type = .stereoImage := by
      by_contra hne
      exact hskip (.inl hne)
    dsimp only
    split
    · exact ⟨hf.pushed, hf.publisher, hf.queues, hrest, hf.buffer2, hf.stereo⟩
    · rename_i encoded hencoded
      refine ⟨hf.pushed, hf.publisher, hf.queues, hrest, hf.buffer2, fun camera out hout => ?_⟩
      dsimp only at hout
      by_cases heq : camera = cameraId
      · rw [heq, Function.update_self] at hout
        cases hout
        refine ⟨b.bundle, hcamera ▸ hraw, ?_⟩
        unfold SentFor
        rw [if_pos htype]
        exact ⟨encoded, hencoded, rfl⟩
      · rw [Function.update_of_ne heq] at hout
        exact hf.stereo camera out hout

theorem Sourced.encoderStep (hf : f.Sourced compress items) (hinv : f.Inv) {address : UInt64}
    (h : f.encoderStep movedFrom address compress = some g) : g.Sourced compress items := by
  unfold Feed.encoderStep at h
  split at h
  · exact hf.callPop h
  · rename_i group hencoder
    split at h
    · cases h
    · rename_i pc hpc
      obtain ⟨q, hq, h⟩ := Option.bind_eq_some_iff.mp h
      have hqueue : ∀ frame ∈ carried q, frame.Raw items := by
        rw [carried_congr (SPSCQueue.consumer_carries hq)]
        exact hf.queues group
      have hset : (f.setQueue group q).Sourced compress items :=
        ⟨hf.pushed, hf.publisher, hf.setQueue hqueue, hf.encoder, hf.buffer2, hf.stereo⟩
      split at h
      · cases h
        exact hset
      · rename_i frame hpop
        split_ifs at h with hgroup
        · cases h
          have hframe := hf.queues group frame (mem_carried_of_pop (hinv.queues group) hpc hpop)
          refine ⟨hf.pushed, hf.publisher, hf.setQueue hqueue, ?_, hf.buffer2, hf.stereo⟩
          intro camera rest heq
          cases heq
          exact hframe
        · exact hset.callPop h
      · split at h
        · exact hset.callPop h
        · cases h
          exact ⟨hf.pushed, hf.publisher, hf.setQueue hqueue,
            fun _ _ heq => EncoderPc.noConfusion heq, hf.buffer2, hf.stereo⟩
  · exact hf.callPop h
  · rename_i hencoder
    cases h
    exact hf.encode address hencoder

theorem Sourced.fetch (hf : f.Sourced compress items) {slot : BufferSlotKey} {b : SharedBundle}
    (hinv : f.Inv) (h : f.fetch slot = some b) : b.Sourced compress items := by
  have hslot := (hinv.fetched slot b h).1
  unfold Feed.fetch at h
  split_ifs at h with hstereo
  · exact hf.stereo slot.cameraId b h
  · apply (hf.buffer2 slot.cameraId slot.type b h).sourced
    intro htype
    apply hstereo
    rw [← hslot]
    exact htype

end Feed

/-! ## The client -/

structure Sourced (compress : Bytes → ℕ → ℕ → Option Bytes) (items : List (String × DataBundle))
    (s : State) : Prop where
  feed : s.feed.Sourced compress items
  found : ∀ b ∈ s.client.loop.bundles, b.Sourced compress items
  stream : ∀ item ∈ s.client.stream, item.bundle.Sourced compress items

def publishes : Action → List (String × DataBundle)
  | .publish cameraId _ bundles => bundles.map fun b => (cameraId, b.2)
  | _ => []

section
variable {compress : Bytes → ℕ → ℕ → Option Bytes} {items : List (String × DataBundle)}
  {f : Feed} {c c' : WSSClient} {s t : State} {a : Action}
  {parse : Bytes → Except JsonException Json} {movedFrom : SharedFrame → SharedFrame}

theorem stream_enqueue_subset (c : WSSClient) (slot : BufferSlotKey) (b : SharedBundle) :
    ∀ item ∈ (c.enqueue slot b).stream, item ∈ c.stream ∨ item.bundle = b := by
  intro item hitem
  unfold WSSClient.enqueue at hitem
  split_ifs at hitem
  · exact .inl hitem
  · unfold WSSClient.stream at hitem ⊢
    simp only [List.mem_append, List.mem_filter, List.mem_singleton] at hitem ⊢
    rcases hitem with hsent | hsender | ⟨hqueue, -⟩ | rfl
    · exact .inl (.inl hsent)
    · exact .inl (.inr (.inl hsender))
    · exact .inl (.inr (.inr hqueue))
    · exact .inr rfl

theorem Sourced.moveClient (h : Sourced compress items s) (hinv : s.feed.Inv) {c' : WSSClient}
    (hc : ClientStep s.feed s.client c' a) : Sourced compress items (s.setClient c') := by
  refine ⟨h.feed, ?_, ?_⟩
  · intro b hb
    cases hc with
    | move subs loop _ hmoved =>
      cases loop with
      | fetched slot b' slots => exact absurd rfl (hmoved slot b' slots)
      | _ => exact absurd hb List.not_mem_nil
    | find slot b' slots _ _ hfetch =>
      rw [List.mem_singleton.mp hb]
      exact h.feed.fetch hinv hfetch
    | enqueue slot b' slots _ => exact absurd hb List.not_mem_nil
    | take item queue _ _ => exact h.found b hb
    | send item _ => exact h.found b hb
  · intro item hitem
    cases hc with
    | move subs loop _ _ => exact h.stream item hitem
    | find slot b' slots _ _ _ => exact h.stream item hitem
    | enqueue slot b' slots hloop =>
      rcases stream_enqueue_subset s.client slot b' item hitem with hold | rfl
      · exact h.stream item hold
      · apply h.found
        rw [hloop]
        exact List.mem_singleton_self _
    | take item' queue hsender hqueue =>
      apply h.stream item
      unfold WSSClient.stream at hitem ⊢
      simpa [hsender, hqueue, State.setClient] using hitem
    | send item' hsender =>
      apply h.stream item
      unfold WSSClient.stream at hitem ⊢
      simpa [hsender, State.setClient] using hitem

theorem Sourced.setFeed (h : Sourced compress items s) (new : List (String × DataBundle))
    (hf : f.Sourced compress (items ++ new)) : Sourced compress (items ++ new) (s.setFeed f) where
  feed := hf
  found := fun b hb => (h.found b hb).append new
  stream := fun item hitem => (h.stream item hitem).append new

theorem Sourced.step (h : Sourced compress items s) (hinv : Inv s)
    (hcompress : ∀ address other, a = .encoder address other → other = compress)
    (hstep : step parse movedFrom s a = some t) : Sourced compress (items ++ publishes a) t := by
  have hkeep : ∀ {f}, f.Sourced compress items → Sourced compress (items ++ []) (s.setFeed f) := by
    intro f hf
    rw [← List.append_nil items] at hf
    exact h.setFeed [] hf
  cases a with
  | publish cameraId timestamp bundles =>
    obtain ⟨f, hf, rfl⟩ := Option.map_eq_some_iff.mp hstep
    exact h.setFeed _ (h.feed.publish hf)
  | publisher =>
    obtain ⟨f, hf, rfl⟩ := Option.map_eq_some_iff.mp hstep
    exact hkeep (h.feed.publisherStep hf)
  | clear =>
    cases hstep
    exact hkeep h.feed.clear
  | encoder address other =>
    obtain rfl := hcompress address other rfl
    obtain ⟨f, hf, rfl⟩ := Option.map_eq_some_iff.mp hstep
    exact hkeep (h.feed.encoderStep hinv.feed hf)
  | _ =>
    obtain ⟨c, rfl, hclient⟩ := clientStep hstep rfl
    show Sourced compress (items ++ []) _
    rw [List.append_nil]
    exact h.moveClient hinv.feed hclient

end

theorem sourced_init (compress : Bytes → ℕ → ℕ → Option Bytes) (depth queueDepth : UInt64)
    (cells : Fin DataPipeline.frameCapacity.val.toNat → SharedFrame) :
    Sourced compress [] ⟨.init depth queueDepth cells, .init⟩ where
  feed := Feed.sourced_init compress depth queueDepth cells
  found := fun _ h => absurd h List.not_mem_nil
  stream := fun _ h => absurd h List.not_mem_nil

/-! ## What is sent -/

theorem sublist_of_increasing {α : Type*} {xs : List α} {k : ℕ} {places : List ℕ} {ys : List α}
    (hplaces : places.Pairwise (· < ·)) (hlo : ∀ i ∈ places, k ≤ i)
    (hget : List.Forall₂ (fun i y => xs[i]? = some y) places ys) : ys.Sublist (xs.drop k) := by
  induction hget generalizing k with
  | nil => exact List.nil_sublist _
  | @cons i y places ys hy hrest ih =>
    obtain ⟨hhead, htail⟩ := List.pairwise_cons.mp hplaces
    have hsub : ys.Sublist (xs.drop (i + 1)) := ih htail hhead
    have hdrop : (xs.drop i).Sublist (xs.drop k) := List.drop_sublist_drop_left _
      (hlo i List.mem_cons_self)
    refine List.Sublist.trans ?_ hdrop
    obtain ⟨hlt, rfl⟩ := List.getElem?_eq_some_iff.mp hy
    rw [List.drop_eq_getElem_cons hlt]
    exact hsub.cons_cons _

def sentBundles (slot : BufferSlotKey) (items : List SendItem) : List DataBundle :=
  (items.filter fun item => item.bundle.slot = slot).map (·.bundle.bundle)

def bundlesOf (slot : BufferSlotKey) (items : List (String × DataBundle)) : List DataBundle :=
  (items.filter fun p => (⟨p.1, p.2.type⟩ : BufferSlotKey) = slot).map Prod.snd

/-- What a client is sent of a slot are published bundles of that slot, in the order in which
they were published. -/
theorem Sourced.sent {compress : Bytes → ℕ → ℕ → Option Bytes}
    {items : List (String × DataBundle)} {s : State} (h : Sourced compress items s)
    (hinv : Inv s) (slot : BufferSlotKey) :
    ∃ raws, raws.Sublist (bundlesOf slot items) ∧
      List.Forall₂ (SentFor compress) raws (sentBundles slot s.client.sent) := by
  obtain ⟨last, hc⟩ := hinv.client
  have hincreasing := (hc.increasing slot).sublist
    (ordersOf_sublist slot (List.sublist_append_left s.client.sent _))
  have hsourced : ∀ item ∈ s.client.sent.filter fun item => item.bundle.slot = slot,
      ∃ raw, items[item.bundle.order]? = some (slot.cameraId, raw) ∧
        raw.type = slot.type ∧ SentFor compress raw item.bundle.bundle := by
    intro item hitem
    obtain ⟨hmem, hslot⟩ := List.mem_filter.mp hitem
    obtain rfl := of_decide_eq_true hslot
    obtain ⟨raw, hraw, hsent⟩ := h.stream item (List.mem_append_left _ hmem)
    exact ⟨raw, hraw, hsent.type_eq.symm, hsent⟩
  unfold ordersOf at hincreasing
  unfold sentBundles
  generalize s.client.sent.filter (fun item => item.bundle.slot = slot) = sent at *
  -- The raw bundles, each at the place that its bundle names.
  have hraws : ∃ raws : List DataBundle,
      List.Forall₂ (fun i p => items[i]? = some p) (sent.map (·.bundle.order))
        (raws.map fun raw => (slot.cameraId, raw)) ∧
      (∀ raw ∈ raws, raw.type = slot.type) ∧
      List.Forall₂ (SentFor compress) raws (sent.map (·.bundle.bundle)) := by
    clear hincreasing
    induction sent with
    | nil => exact ⟨[], .nil, fun _ hraw => absurd hraw List.not_mem_nil, .nil⟩
    | cons item sent ih =>
      obtain ⟨raw, hraw, htype, hsent⟩ := hsourced item List.mem_cons_self
      obtain ⟨raws, hplaces, htypes, hsents⟩ := ih fun item' hitem' =>
        hsourced item' (List.mem_cons_of_mem _ hitem')
      refine ⟨raw :: raws, .cons hraw hplaces, ?_, .cons hsent hsents⟩
      exact List.forall_mem_cons.mpr ⟨htype, htypes⟩
  obtain ⟨raws, hplaces, htypes, hsents⟩ := hraws
  refine ⟨raws, ?_, hsents⟩
  have hsub := sublist_of_increasing hincreasing (fun i _ => Nat.zero_le i) hplaces
  have hfilter := (hsub.filter fun p => (⟨p.1, p.2.type⟩ : BufferSlotKey) = slot).map Prod.snd
  have hall : ((raws.map fun raw => (slot.cameraId, raw)).filter
      fun p => (⟨p.1, p.2.type⟩ : BufferSlotKey) = slot) =
        raws.map fun raw => (slot.cameraId, raw) := by
    apply List.filter_eq_self.mpr
    intro p hp
    obtain ⟨raw, hraw, rfl⟩ := List.mem_map.mp hp
    rw [decide_eq_true_eq, htypes raw hraw]
  rw [hall, List.map_map, List.drop_zero] at hfilter
  unfold bundlesOf
  simpa using hfilter

end StereoCamera.WSServer.Delivery
