import StereoCamera.Data.WSServerEncode
import StereoCamera.Data.WSServerEviction

/-! What a client is sent that connects after buffer #2 was cleared because all clients were
gone. The cache of encoded images and the encode queues are not cleared with it. -/

namespace StereoCamera.WSServer.Delivery
open Transition

/-- An encoded image is taken up only if its raw image has number `n` or a higher one. -/
def FreshImage (n : ℕ) (s : State) : Action → Prop
  | .visit =>
    match s.client.loop with
    | .visiting (slot :: _) => slot.type = .stereoImage → s.client.isSubscribed slot →
      ∀ b, s.feed.encodedStereo slot.cameraId = some b → n ≤ b.order
    | _ => True
  | _ => True

structure Feed.Since (n : ℕ) (f : Feed) : Prop where
  inv : f.Inv
  pushed : n ≤ f.pushed
  buffer : ∀ slot b, slot.type ≠ .stereoImage → f.fetch slot = some b → n ≤ b.order

structure SinceInv (n : ℕ) (s : State) : Prop where
  feed : s.feed.Since n
  fetched : ∀ slot b slots, s.client.loop = .fetched slot b slots → n ≤ b.order
  stream : ∀ item ∈ s.client.stream, n ≤ item.bundle.order

namespace Feed
variable {f g : Feed} {n : ℕ}

theorem Advances.refl (hf : f.Inv) : f.Advances f :=
  advances_of_fetch hf.queues rfl (List.Sublist.refl _) fun _ _ hb => hb

theorem Since.advance (hf : f.Since n) (h : f.Advances g) : g.Since n where
  inv := hf.inv.advance h
  pushed := hf.pushed.trans h.pushed
  buffer := by
  -- What comes into buffer #2 is newer than all that was pushed before.
    intro slot b htype hb
    rcases h.fetched slot b hb with hold | ⟨-, -, hfresh⟩
    · exact hf.buffer slot b htype hold
    · rcases n with _ | m
      · exact Nat.zero_le _
      · exact hfresh m ⟨hf.pushed, fun hstereo => absurd hstereo htype⟩

theorem since_clear (hf : f.Inv) : Since f.pushed { f with buffer2 := f.buffer2.clear } where
  inv := hf.advance hf.clear
  pushed := Nat.le_refl _
  buffer := by
    intro slot b htype hb
    unfold fetch at hb
    rw [if_neg htype, DataBuffer.getLatest_clear] at hb
    cases hb

end Feed

section
variable {parse : Bytes → Except JsonException Json} {movedFrom : SharedFrame → SharedFrame}
  {s t : State} {a : Action} {n : ℕ}

theorem step_advances (hf : s.feed.Inv) (h : step parse movedFrom s a = some t) :
    s.feed.Advances t.feed := by
  cases a with
  | publish cameraId timestamp bundles =>
    obtain ⟨f, hstep, rfl⟩ := Option.map_eq_some_iff.mp h
    exact hf.publish hstep
  | publisher =>
    obtain ⟨f, hstep, rfl⟩ := Option.map_eq_some_iff.mp h
    exact hf.publisherStep hstep
  | clear =>
    cases h
    exact hf.clear
  | encoder address compress =>
    obtain ⟨f, hstep, rfl⟩ := Option.map_eq_some_iff.mp h
    exact hf.encoderStep hstep
  | _ =>
    rw [feed_of_step h rfl]
    exact .refl hf

theorem fetched_of_step (h : step parse movedFrom s a = some t) {slot : BufferSlotKey}
    {b : SharedBundle} {slots : List BufferSlotKey}
    (hloop : t.client.loop = .fetched slot b slots) :
    s.client.loop = .fetched slot b slots ∨
      a = .visit ∧ s.client.loop = .visiting (slot :: slots) ∧ s.client.isSubscribed slot ∧
        s.feed.fetch slot = some b := by
  rcases hclient : a.isClients with _ | _
  · rw [client_of_step h hclient] at hloop
    exact .inl hloop
  · obtain ⟨c, rfl, hstep⟩ := clientStep h hclient
    cases hstep with
    | move subs loop _ hmoved => exact absurd hloop (hmoved slot b slots)
    | find slot' b' slots' hvisiting hsubscribed hfetch =>
      cases hloop
      exact .inr ⟨rfl, hvisiting, hsubscribed, hfetch⟩
    | enqueue => cases hloop
    | take => exact .inl hloop
    | send => exact .inl hloop

theorem SinceInv.step (hs : SinceInv n s) (hguard : FreshImage n s a)
    (h : step parse movedFrom s a = some t) : SinceInv n t where
  feed := hs.feed.advance (step_advances hs.feed.inv h)
  fetched := by
    intro slot b slots hloop
    rcases fetched_of_step h hloop with hold | ⟨rfl, hvisiting, hsubscribed, hfetch⟩
    · exact hs.fetched slot b slots hold
    · by_cases htype : slot.type = .stereoImage
      · simp only [FreshImage, hvisiting] at hguard
        unfold Feed.fetch at hfetch
        rw [if_pos htype] at hfetch
        exact hguard htype hsubscribed b hfetch
      · exact hs.feed.buffer slot b htype hfetch
  stream := by
    intro item hitem
    cases queueStep h with
    | keep _ hstream =>
      rw [hstream] at hitem
      exact hs.stream item hitem
    | push slot b slots hloop _ hqueue htaken =>
      rw [mem_stream, htaken, hqueue, List.mem_append (s := s.client.sendQueue.filter _)] at hitem
      rcases hitem with htaken | hwaits | hnew
      · exact hs.stream item (mem_stream.mpr (.inl htaken))
      · exact hs.stream item (mem_stream.mpr (.inr (List.mem_of_mem_filter hwaits)))
      · rw [List.mem_singleton.mp hnew]
        exact hs.fetched slot b slots hloop

theorem sinceInv_init {f : Feed} (hf : f.Since n) : SinceInv n ⟨f, .init⟩ where
  feed := hf
  fetched := fun _ _ _ hloop => LoopPc.noConfusion hloop
  stream := fun _ hitem => absurd hitem List.not_mem_nil

/-- If buffer #2 is cleared after `as` and a client connects after `cs`, and an encoded image is
taken up for it only when its raw image was pushed after the clearing, then it is sent nothing
that was pushed before. -/
theorem sent_since_clear (parse : Bytes → Except JsonException Json)
    (movedFrom : SharedFrame → SharedFrame) (depth queueDepth : UInt64)
    (cells : Fin DataPipeline.frameCapacity.val.toNat → SharedFrame) (as cs bs : List Action)
    {s t u v : State}
    (hs : run (step parse movedFrom) ⟨.init depth queueDepth cells, .init⟩ as = some s)
    (ht : step parse movedFrom s .clear = some t) (hu : run (step parse movedFrom) t cs = some u)
    (hguard : Guarded (step parse movedFrom) (FreshImage s.feed.pushed) ⟨u.feed, .init⟩ bs)
    (hv : run (step parse movedFrom) ⟨u.feed, .init⟩ bs = some v) :
    ∀ item ∈ v.client.sent, s.feed.pushed ≤ item.bundle.order := by
  have hinv : Inv s := run_invariant inv_step (inv_init depth queueDepth cells) hs
  have hcleared : t.feed.Since s.feed.pushed := by
    cases ht
    exact Feed.since_clear hinv.feed
  have hsince : u.feed.Since s.feed.pushed := by
    refine run_invariant (I := fun r => r.feed.Since s.feed.pushed) ?_ hcleared hu
    exact fun r a r' hr h => hr.advance (step_advances hr.inv h)
  have hclient : SinceInv s.feed.pushed v :=
    hguard.invariant (fun r a r' hr hG h => hr.step hG h) (sinceInv_init hsince) hv
  exact fun item hitem => hclient.stream item (mem_stream.mpr (.inl (List.mem_append_left _ hitem)))

end

def publishImage (address : UInt64) (raw : Bytes) : List Action :=
  .publish "cam1" ⟨1, 5⟩ [(address, ⟨⟨1, 5⟩, .stereoImage, raw⟩)] :: List.replicate 7 .publisher

/-- The image of a camera is in the cache, and `encode_loop` has come to the end of its frame. -/
def cacheBlack (b : SharedBundle) (f : Feed) : Feed :=
  { f with
    lastEncodedPtr := b.address
    encodedStereo := Function.update f.encodedStereo "cam1"
      (some ⟨8192, { b.bundle with payload := encodedBlack }, "cam1", b.order⟩)
    encoder := .encoding "cam1" [] }

theorem step_cacheBlack {s : State} {b : SharedBundle}
    (hencoder : s.feed.encoder = .encoding "cam1" [b]) (hpayload : b.bundle.payload = blackImage)
    (htype : b.bundle.type = .stereoImage) (hnew : b.address ≠ s.feed.lastEncodedPtr) :
    step parseNothing id s (.encoder 8192 markedJpeg) = some (s.setFeed (cacheBlack b s.feed)) := by
  have himage : b.isImage = true := decide_eq_true ⟨htype, hpayload ▸ blackImage_ne⟩
  have hencoded : encodeStereoImage markedJpeg b.bundle.payload = some encodedBlack := by
    rw [hpayload]
    exact encodeStereoImage_blackImage
  show (s.feed.encoderStep id 8192 markedJpeg).map s.setFeed = _
  unfold Feed.encoderStep
  rw [hencoder]
  dsimp only
  rw [encode_of_some himage hnew hencoded]
  rfl

def leftState : State :=
  (run (step parseNothing id) ⟨emptyFeed, .init⟩ (publishImu 4096 1 ++ [.leave])).getD
    ⟨emptyFeed, .init⟩

def clearedState : State :=
  leftState.setFeed { leftState.feed with buffer2 := leftState.feed.buffer2.clear }

/-- An image is published, and popped by `encode_loop`. -/
def publishBlack : List Action :=
  publishImage 12288 blackImage ++ List.replicate 5 (.encoder 8192 markedJpeg)

def poppedBlack : State :=
  (run (step parseNothing id) clearedState publishBlack).getD ⟨emptyFeed, .init⟩

def cachedBlack : State :=
  poppedBlack.setFeed
    (cacheBlack ⟨12288, ⟨⟨1, 5⟩, .stereoImage, blackImage⟩, "cam1", 1⟩ poppedBlack.feed)

def publishedBoth : State :=
  (run (step parseNothing id) cachedBlack (publishImu 16384 2)).getD ⟨emptyFeed, .init⟩

def serveBoth : List Action :=
  [.readFrame (some ⟨0x1, [0x7B]⟩), .look [⟨"cam1", .stereoImage⟩, ⟨"cam1", .imu⟩]] ++
    List.replicate 5 .visit ++ List.replicate 4 .send

def freshTest (r : State) (_ : Action) : Bool :=
  match r.client.loop with
  | .visiting (slot :: _) =>
    match r.feed.encodedStereo slot.cameraId with
    | some b => 1 ≤ b.order
    | none => true
  | _ => true

theorem freshImage_of_freshTest (r : State) (a : Action) (htest : freshTest r a = true) :
    FreshImage 1 r a := by
  cases a with
  | visit =>
    unfold FreshImage
    dsimp only
    split
    · rename_i slot slots hloop
      intro _ _ b hb
      simp only [freshTest, hloop, hb, decide_eq_true_eq] at htest
      exact htest
    · trivial
  | _ => trivial

theorem guarded_serveBoth : Guarded (step parseNothing id) (FreshImage 1)
    ⟨publishedBoth.feed, .init⟩ serveBoth :=
  .of_allSteps freshTest freshImage_of_freshTest (by with_unfolding_all rfl)

theorem sent_since_clear_image : ∃ s t u v,
    run (step parseNothing id) ⟨emptyFeed, .init⟩ (publishImu 4096 1 ++ [.leave]) = some s ∧
    step parseNothing id s .clear = some t ∧
    run (step parseNothing id) t (publishBlack ++ .encoder 8192 markedJpeg ::
      publishImu 16384 2) = some u ∧
    run (step parseNothing id) ⟨u.feed, .init⟩ serveBoth = some v ∧
    v.client.sent.map (fun item => (item.type, item.bundle.order)) =
      [(.stereoImage, 1), (.imu, 2)] ∧ s.feed.pushed = 1 ∧
    ∀ item ∈ v.client.sent, s.feed.pushed ≤ item.bundle.order := by
  have hs : run (step parseNothing id) ⟨emptyFeed, .init⟩ (publishImu 4096 1 ++ [.leave]) =
      some leftState := eq_some_getD rfl _
  have hpopped : run (step parseNothing id) clearedState publishBlack = some poppedBlack :=
    eq_some_getD rfl _
  have hcached : step parseNothing id poppedBlack (.encoder 8192 markedJpeg) = some cachedBlack :=
    step_cacheBlack rfl rfl rfl (by decide)
  have hreading : run (step parseNothing id) cachedBlack (publishImu 16384 2) =
      some publishedBoth := eq_some_getD rfl _
  have hu : run (step parseNothing id) clearedState (publishBlack ++
      .encoder 8192 markedJpeg :: publishImu 16384 2) = some publishedBoth := by
    rw [run_append_of_eq _ hpopped]
    exact (run_cons_eq_some _).mpr ⟨_, hcached, hreading⟩
  have hsent : (run (step parseNothing id) ⟨publishedBoth.feed, .init⟩ serveBoth).map (fun v =>
      v.client.sent.map fun item => (item.type, item.bundle.order)) =
        some [(.stereoImage, 1), (.imu, 2)] := by
    with_unfolding_all rfl
  obtain ⟨v, hv, horders⟩ := Option.map_eq_some_iff.mp hsent
  exact ⟨leftState, clearedState, publishedBoth, v, hs, rfl, hu, hv, horders, rfl,
    sent_since_clear parseNothing id 3 4 _ _ _ serveBoth hs rfl hu guarded_serveBoth hv⟩

def poppedImage : State :=
  (run (step parseNothing id) ⟨emptyFeed, .init⟩
    (publishImage 4096 blackImage ++ List.replicate 5 (.encoder 8192 markedJpeg))).getD
      ⟨emptyFeed, .init⟩

def serveImage : List Action :=
  [.readFrame (some ⟨0x1, [0x7B]⟩), .look [⟨"cam1", .stereoImage⟩], .visit, .visit, .visit,
    .send, .send]

/-- The next image makes the slot visible again, and the next client is sent the one before. -/
theorem image_before_clear_sent : ∃ s t v,
    run (step parseNothing id) ⟨emptyFeed, .init⟩
      (publishImage 4096 blackImage ++ List.replicate 5 (.encoder 8192 markedJpeg) ++
        [.encoder 8192 markedJpeg, .leave]) = some s ∧
    step parseNothing id s .clear = some t ∧
    run (step parseNothing id) ⟨t.feed, .init⟩ (publishImage 12288 [1] ++ serveImage) = some v ∧
    s.feed.pushed = 1 ∧ v.client.sent.map (·.bundle.order) = [0] := by
  have hpopped := eq_some_getD (o := run (step parseNothing id) ⟨emptyFeed, .init⟩
    (publishImage 4096 blackImage ++ List.replicate 5 (.encoder 8192 markedJpeg))) rfl
      ⟨emptyFeed, .init⟩
  have hcache : step parseNothing id poppedImage (.encoder 8192 markedJpeg) =
      some (poppedImage.setFeed (cacheFirst poppedImage.feed)) := by
    have hencode := encoderStep_cacheFirst (f := poppedImage.feed) rfl rfl
    exact congrArg (Option.map poppedImage.setFeed) hencode
  refine ⟨⟨cacheFirst poppedImage.feed, { WSSClient.init with loop := .finished }⟩, _, _, ?_, rfl,
    eq_some_getD (by with_unfolding_all rfl) ⟨emptyFeed, .init⟩, rfl, by with_unfolding_all rfl⟩
  rw [run_append_of_eq _ hpopped]
  exact (run_cons_eq_some _).mpr ⟨_, hcache, rfl⟩

end StereoCamera.WSServer.Delivery
