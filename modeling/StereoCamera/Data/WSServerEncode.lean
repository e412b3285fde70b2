import StereoCamera.Data.WSServerFeed

/-! What `encode_loop` makes of the frames that its queue accepts. The pointer to the bundle that
was looked at last is one for all cameras. -/

namespace StereoCamera.WSServer.Delivery
open SPSCQueue (OrderInv PopPc pop)
open Transition

def items (frames : List SharedFrame) : List (String × SharedBundle) :=
  frames.flatMap fun frame => frame.bundles.map fun b => (frame.cameraId, b)

def SharedBundle.isImage (b : SharedBundle) : Bool :=
  b.bundle.type = .stereoImage ∧ b.bundle.payload ≠ []

def images (items : List (String × SharedBundle)) : List (String × SharedBundle) :=
  items.filter (·.2.isImage)

/-- The image as a client is to get it, if it can be encoded. -/
def encoding (compress : Bytes → ℕ → ℕ → Option Bytes) (b : SharedBundle) : Option DataBundle :=
  if b.isImage then
    (encodeStereoImage compress b.bundle.payload).map fun encoded =>
      { b.bundle with payload := encoded }
  else none

def lastEncoded (compress : Bytes → ℕ → ℕ → Option Bytes) (cameraId : String)
    (items : List (String × SharedBundle)) : Option DataBundle :=
  (items.filterMap fun item =>
    if item.1 = cameraId then encoding compress item.2 else none).getLast?

/-- Different bundles have different addresses, and an image that follows itself does so in
frames of one camera. -/
structure Admissible (items : List (String × SharedBundle)) : Prop where
  nonzero : ∀ item ∈ items, item.2.address ≠ 0
  distinct : ∀ item ∈ items, ∀ item' ∈ items, item.2.address = item'.2.address →
    item.2.bundle = item'.2.bundle
  camera : ∀ item item', [item, item'] <:+: images items → item.2.address = item'.2.address →
    item.1 = item'.1

theorem Admissible.left {done more : List (String × SharedBundle)}
    (h : Admissible (done ++ more)) : Admissible done where
  nonzero := fun item hitem => h.nonzero item (List.mem_append_left _ hitem)
  distinct := fun item hitem item' hitem' =>
    h.distinct item (List.mem_append_left _ hitem) item' (List.mem_append_left _ hitem')
  camera := by
    intro item item' hadjacent
    refine h.camera item item' (hadjacent.trans ?_)
    unfold images
    rw [List.filter_append]
    exact (List.prefix_append _ _).isInfix

/-- A caller of `push_encode`, `try_push` inside of it, and `encode_loop`. -/
inductive EncodeAction
  | pushEncode (group : DataGroup) (frame : SharedFrame)
  | tryPush (group : DataGroup)
  | encoder (address : UInt64)

def encodeStep (movedFrom : SharedFrame → SharedFrame) (compress : Bytes → ℕ → ℕ → Option Bytes)
    (f : Feed) : EncodeAction → Option Feed
  | .pushEncode group frame =>
    (SPSCQueue.step movedFrom (f.encodeQueues group) (.callTryPush () frame)).map
      (f.setQueue group)
  | .tryPush group =>
    (SPSCQueue.step movedFrom (f.encodeQueues group) (.producer ())).map (f.setQueue group)
  | .encoder address => f.encoderStep movedFrom address compress

def Feed.queue2d (f : Feed) : EncodeQueue := f.encodeQueues .visualGeometric2D

def EncoderPc.items : EncoderPc → List (String × SharedBundle)
  | .encoding cameraId rest => rest.map fun b => (cameraId, b)
  | _ => []

/-- All that was accepted was popped, and nothing is left of it in the loop. -/
def Drained (f : Feed) : Prop :=
  f.queue2d.popped.length = f.queue2d.accepted.length ∧ f.encoder.items = []

def lastPtr (done : List (String × SharedBundle)) : UInt64 :=
  ((images done).getLast?.map (·.2.address)).getD 0

structure EncodeInv (compress : Bytes → ℕ → ℕ → Option Bytes)
    (done : List (String × SharedBundle)) (f : Feed) : Prop where
  queues : ∀ group, OrderInv (f.encodeQueues group)
  popped : items f.queue2d.popped = done ++ f.encoder.items
  ptr : f.lastEncodedPtr = lastPtr done
  cache : Admissible done → ∀ cameraId,
    (f.encodedStereo cameraId).map (·.bundle) = lastEncoded compress cameraId done

section
variable {compress : Bytes → ℕ → ℕ → Option Bytes} {done : List (String × SharedBundle)}
  {f g : Feed} {cameraId : String} {b : SharedBundle}

theorem lastEncoded_append (c : String) : lastEncoded compress c (done ++ [(cameraId, b)]) =
    (if cameraId = c then encoding compress b else none).or (lastEncoded compress c done) := by
  unfold lastEncoded
  rw [List.filterMap_append, List.getLast?_append]
  split_ifs with hcamera
  · cases hencoding : encoding compress b with
    | none => simp [hcamera, hencoding]
    | some e => simp [hcamera, hencoding]
  · simp [hcamera]

theorem lastEncoded_of_getLast {item : String × SharedBundle} {e : DataBundle}
    (hlast : (images done).getLast? = some item) (he : encoding compress item.2 = some e) :
    lastEncoded compress item.1 done = some e := by
  have himages : (images done).filterMap (fun i =>
      if i.1 = item.1 then encoding compress i.2 else none) =
        done.filterMap fun i => if i.1 = item.1 then encoding compress i.2 else none := by
    unfold images
    rw [List.filterMap_filter]
    refine List.filterMap_congr fun i _ => ?_
    unfold encoding
    split_ifs <;> rfl
  obtain ⟨init, hinit⟩ := List.getLast?_eq_some_iff.mp hlast
  unfold lastEncoded
  rw [← himages, hinit, List.filterMap_append, List.getLast?_append]
  simp [he]

theorem images_append (hb : b.isImage = true) :
    images (done ++ [(cameraId, b)]) = images done ++ [(cameraId, b)] := by
  unfold images
  rw [List.filter_append, List.filter_singleton]
  simp [hb]

theorem images_append_of_not (hb : b.isImage = false) :
    images (done ++ [(cameraId, b)]) = images done := by
  unfold images
  rw [List.filter_append, List.filter_singleton]
  simp [hb]

theorem lastPtr_append (hb : b.isImage = true) :
    lastPtr (done ++ [(cameraId, b)]) = b.address := by
  unfold lastPtr
  rw [images_append hb, List.getLast?_concat]
  rfl

theorem lastPtr_append_of_not (hb : b.isImage = false) :
    lastPtr (done ++ [(cameraId, b)]) = lastPtr done := by
  unfold lastPtr
  rw [images_append_of_not hb]

theorem encode_cases (f : Feed) (address : UInt64) (cameraId : String) (b : SharedBundle) :
    (b.isImage = false ∧ f.encode address compress cameraId b = f) ∨
    (b.isImage = true ∧ b.address = f.lastEncodedPtr ∧
      f.encode address compress cameraId b = f) ∨
    (b.isImage = true ∧ b.address ≠ f.lastEncodedPtr ∧
      f.encode address compress cameraId b =
        match encodeStereoImage compress b.bundle.payload with
        | none => { f with lastEncodedPtr := b.address }
        | some encoded =>
          { f with
            lastEncodedPtr := b.address
            encodedStereo := Function.update f.encodedStereo cameraId
              (some ⟨address, { b.bundle with payload := encoded }, cameraId, b.order⟩) }) := by
  have himage : b.isImage = true ↔ b.bundle.type = .stereoImage ∧ b.bundle.payload ≠ [] :=
    decide_eq_true_iff
  unfold Feed.encode
  split_ifs with hskip
  · rcases hb : b.isImage with _ | _
    · exact .inl ⟨rfl, rfl⟩
    · refine .inr (.inl ⟨rfl, ?_, rfl⟩)
      obtain ⟨htype, hpayload⟩ := himage.mp hb
      rcases hskip with h | h | h
      · exact absurd htype h
      · exact absurd h hpayload
      · exact h
  · simp only [not_or, not_not] at hskip
    exact .inr (.inr ⟨himage.mpr ⟨hskip.1, hskip.2.1⟩, hskip.2.2, rfl⟩)

theorem lastEncoded_of_skipped (hadmissible : Admissible (done ++ [(cameraId, b)]))
    (hb : b.isImage = true) (hskip : b.address = lastPtr done) (c : String) :
    lastEncoded compress c (done ++ [(cameraId, b)]) = lastEncoded compress c done := by
  -- A skipped image is the one before it, of the same camera.
  have hmem : (cameraId, b) ∈ done ++ [(cameraId, b)] :=
    List.mem_append_right _ (List.mem_singleton_self _)
  unfold lastPtr at hskip
  rcases hlast : (images done).getLast? with _ | item
  · rw [hlast] at hskip
    exact absurd hskip (hadmissible.nonzero _ hmem)
  rw [hlast] at hskip
  have hskip : b.address = item.2.address := hskip
  obtain ⟨init, hinit⟩ := List.getLast?_eq_some_iff.mp hlast
  have hitem : item ∈ done := by
    have hmem : item ∈ images done := List.mem_of_getLast? hlast
    exact List.mem_of_mem_filter hmem
  have hbundle : b.bundle = item.2.bundle :=
    hadmissible.distinct _ hmem _ (List.mem_append_left _ hitem) hskip
  have hcamera : item.1 = cameraId := by
    refine hadmissible.camera item (cameraId, b) ⟨init, [], ?_⟩ hskip.symm
    rw [images_append hb, hinit, List.append_nil, List.append_assoc]
    rfl
  have hencoding : encoding compress b = encoding compress item.2 := by
    unfold encoding SharedBundle.isImage
    rw [hbundle]
  rw [lastEncoded_append, hencoding]
  split_ifs with hc
  · rcases he : encoding compress item.2 with _ | e
    · rfl
    · rw [← hc, ← hcamera, lastEncoded_of_getLast hlast he]
      rfl
  · rfl

theorem EncodeInv.encode {rest : List SharedBundle} (h : EncodeInv compress done f)
    (hpc : f.encoder = .encoding cameraId (b :: rest)) (address : UInt64) :
    EncodeInv compress (done ++ [(cameraId, b)])
      { f.encode address compress cameraId b with encoder := .encoding cameraId rest } := by
  have hpopped : items f.queue2d.popped =
      (done ++ [(cameraId, b)]) ++ (EncoderPc.encoding cameraId rest).items := by
    rw [h.popped, hpc, List.append_assoc]
    rfl
  rcases @encode_cases compress f address cameraId b with
    ⟨hb, heq⟩ | ⟨hb, hskip, heq⟩ | ⟨hb, hnew, heq⟩
  · rw [heq]
    refine ⟨h.queues, hpopped, ?_, ?_⟩
    · rw [lastPtr_append_of_not hb]
      exact h.ptr
    · intro hadmissible c
      have hnone : encoding compress b = none := if_neg (Bool.eq_false_iff.mp hb)
      rw [lastEncoded_append, hnone, ite_self, Option.none_or]
      exact h.cache hadmissible.left c
  · rw [heq]
    refine ⟨h.queues, hpopped, ?_, ?_⟩
    · rw [lastPtr_append hb]
      exact hskip.symm
    · intro hadmissible c
      rw [lastEncoded_of_skipped hadmissible hb (hskip.trans h.ptr)]
      exact h.cache hadmissible.left c
  · rw [heq]
    rcases hencoded : encodeStereoImage compress b.bundle.payload with _ | encoded
    · refine ⟨h.queues, hpopped, (lastPtr_append hb).symm, ?_⟩
      intro hadmissible c
      have hnone : encoding compress b = none := by
        unfold encoding
        rw [if_pos hb, hencoded]
        rfl
      rw [lastEncoded_append, hnone, ite_self, Option.none_or]
      exact h.cache hadmissible.left c
    · refine ⟨h.queues, hpopped, (lastPtr_append hb).symm, ?_⟩
      intro hadmissible c
      have hsome : encoding compress b = some { b.bundle with payload := encoded } := by
        unfold encoding
        rw [if_pos hb, hencoded]
        rfl
      rw [lastEncoded_append, hsome]
      dsimp only
      split_ifs with hc
      · rw [← hc, Function.update_self]
        rfl
      · rw [Function.update_of_ne (Ne.symm hc), Option.none_or]
        exact h.cache hadmissible.left c

theorem EncodeInv.move (h : EncodeInv compress done f) {group : DataGroup} {q : EncodeQueue}
    (hq : OrderInv q) (hqueues : g.encodeQueues = (f.setQueue group q).encodeQueues)
    (hpopped : items g.queue2d.popped = done ++ g.encoder.items)
    (hptr : g.lastEncodedPtr = f.lastEncodedPtr) (hcache : g.encodedStereo = f.encodedStereo) :
    EncodeInv compress done g where
  queues := by
    intro group'
    rw [hqueues]
    by_cases hgroup : group' = group
    · rw [hgroup, Feed.setQueue_self]
      exact hq
    · rw [Feed.setQueue_of_ne f hgroup]
      exact h.queues group'
  popped := hpopped
  ptr := hptr.trans h.ptr
  cache := by
    rw [hcache]
    exact h.cache

theorem popped_setQueue {group : DataGroup} {q : EncodeQueue}
    (hq : group = .visualGeometric2D → q.popped = f.queue2d.popped) :
    (f.setQueue group q).queue2d.popped = f.queue2d.popped := by
  unfold Feed.queue2d
  by_cases hgroup : DataGroup.visualGeometric2D = group
  · rw [hgroup, Feed.setQueue_self, hq hgroup.symm, ← hgroup]
    rfl
  · rw [Feed.setQueue_of_ne f hgroup]

end

section
variable {movedFrom : SharedFrame → SharedFrame} {compress : Bytes → ℕ → ℕ → Option Bytes}
  {done : List (String × SharedBundle)} {f g : Feed} {q q' : EncodeQueue} {group : DataGroup}

theorem popped_callTryPush {frame : SharedFrame}
    (h : SPSCQueue.step movedFrom q (.callTryPush () frame) = some q') : q'.popped = q.popped := by
  simp only [SPSCQueue.step] at h
  split at h
  · cases h
    rfl
  · cases h

theorem popped_producer (h : SPSCQueue.step movedFrom q (.producer ()) = some q') :
    q'.popped = q.popped := by
  obtain ⟨pc, -, rfl⟩ := Option.map_eq_some_iff.mp h
  unfold SPSCQueue.producerStep
  split <;> rfl

theorem popped_callPop (h : SPSCQueue.step movedFrom q .callPop = some q') :
    q'.popped = q.popped := by
  simp only [SPSCQueue.step] at h
  split at h
  · cases h
    rfl
  · cases h

theorem popped_consumer {pc : PopPc SharedFrame} (hpc : q.consumer = some pc)
    (h : SPSCQueue.step movedFrom q .consumer = some q') :
    q'.popped = q.popped ++ (match (pop movedFrom q.queue pc).2 with
      | .inr (some frame) => [frame]
      | _ => []) := by
  simp only [SPSCQueue.step, hpc, Option.map_some] at h
  cases h
  unfold SPSCQueue.consumerStep
  rcases pop movedFrom q.queue pc with ⟨queue, pc' | _ | frame⟩
  · exact (List.append_nil _).symm
  · exact (List.append_nil _).symm
  · rfl

theorem EncodeInv.callPop (h : EncodeInv compress done f) (hidle : f.encoder.items = [])
    (hstep : f.callPop movedFrom group = some g) : EncodeInv compress done g := by
  obtain ⟨q, hq, rfl⟩ := Option.map_eq_some_iff.mp hstep
  refine h.move ((h.queues group).step hq) rfl ?_ rfl rfl
  have hpopped := h.popped
  rw [hidle] at hpopped
  have hsame : (f.setQueue group q).queue2d.popped = f.queue2d.popped := popped_setQueue (by
    rintro rfl
    exact popped_callPop hq)
  exact (congrArg items hsame).trans hpopped

theorem EncodeInv.encoderStep (h : EncodeInv compress done f) {address : UInt64}
    (hstep : f.encoderStep movedFrom address compress = some g) :
    ∃ done', EncodeInv compress done' g := by
  unfold Feed.encoderStep at hstep
  split at hstep
  · rename_i hencoder
    exact ⟨done, h.callPop (by rw [hencoder]; rfl) hstep⟩
  · rename_i group hencoder
    have hidle : f.encoder.items = [] := by
      rw [hencoder]
      rfl
    have hdone : items f.queue2d.popped = done := by
      rw [h.popped, hidle, List.append_nil]
    split at hstep
    · cases hstep
    · rename_i pc hpc
      obtain ⟨q, hq, hstep⟩ := Option.bind_eq_some_iff.mp hstep
      have horder := (h.queues group).step hq
      have hpopped := popped_consumer hpc hq
      -- Unless a frame of the first group is popped, there is nothing new to encode.
      have hkeep : (group = .visualGeometric2D → q.popped = f.queue2d.popped) →
          EncodeInv compress done (f.setQueue group q) := by
        intro hq
        refine h.move horder rfl ?_ rfl rfl
        rw [popped_setQueue hq, hdone]
        exact (hidle ▸ List.append_nil done).symm
      split at hstep
      · rename_i pc' hpop
        cases hstep
        refine ⟨done, hkeep ?_⟩
        rintro rfl
        rw [hpopped, hpop, List.append_nil]
        rfl
      · rename_i frame hpop
        split_ifs at hstep with hgroup
        · cases hstep
          subst hgroup
          refine ⟨done, h.move horder rfl ?_ rfl rfl⟩
          have hframe : (f.setQueue .visualGeometric2D q).queue2d.popped =
              f.queue2d.popped ++ [frame] := by
            unfold Feed.queue2d
            rw [Feed.setQueue_self, hpopped, hpop]
          refine (congrArg items hframe).trans ?_
          unfold items at hdone ⊢
          rw [List.flatMap_append, hdone, List.flatMap_singleton]
          rfl
        · exact ⟨done, (hkeep fun hgroup' => absurd hgroup' hgroup).callPop hidle hstep⟩
      · rename_i hpop
        have hkept := hkeep (by
          rintro rfl
          rw [hpopped, hpop, List.append_nil]
          rfl)
        split at hstep
        · exact ⟨done, hkept.callPop hidle hstep⟩
        · cases hstep
          refine ⟨done, hkept.queues, ?_, hkept.ptr, hkept.cache⟩
          have hall := hkept.popped
          rw [show (f.setQueue group q).encoder.items = [] from hidle] at hall
          exact hall
  · rename_i hencoder
    exact ⟨done, h.callPop (by rw [hencoder]; rfl) hstep⟩
  · rename_i cameraId b rest hencoder
    cases hstep
    exact ⟨_, h.encode hencoder address⟩

theorem EncodeInv.step (h : EncodeInv compress done f) {a : EncodeAction}
    (hstep : encodeStep movedFrom compress f a = some g) : ∃ done', EncodeInv compress done' g := by
  cases a with
  | pushEncode group frame =>
    obtain ⟨q, hq, rfl⟩ := Option.map_eq_some_iff.mp hstep
    refine ⟨done, h.move ((h.queues group).step hq) rfl ?_ rfl rfl⟩
    have hsame : (f.setQueue group q).queue2d.popped = f.queue2d.popped := popped_setQueue (by
      rintro rfl
      exact popped_callTryPush hq)
    exact (congrArg items hsame).trans h.popped
  | tryPush group =>
    obtain ⟨q, hq, rfl⟩ := Option.map_eq_some_iff.mp hstep
    refine ⟨done, h.move ((h.queues group).step hq) rfl ?_ rfl rfl⟩
    have hsame : (f.setQueue group q).queue2d.popped = f.queue2d.popped := popped_setQueue (by
      rintro rfl
      exact popped_producer hq)
    exact (congrArg items hsame).trans h.popped
  | encoder address => exact h.encoderStep hstep

theorem encodeInv_init (depth queueDepth : UInt64)
    (cells : Fin DataPipeline.frameCapacity.val.toNat → SharedFrame) :
    EncodeInv compress [] (.init depth queueDepth cells) where
  queues := fun _ => SPSCQueue.orderInv_init _ rfl rfl (SPSCQueue.setMaxDepth_le _ _)
  popped := rfl
  ptr := rfl
  cache := fun _ _ => rfl

end

/-- Once the queue is drained, the cache has for every camera the last image that could be
encoded, if no image follows itself in a frame of another camera. -/
theorem encodedStereo_eq_lastEncoded (movedFrom : SharedFrame → SharedFrame)
    (compress : Bytes → ℕ → ℕ → Option Bytes) (depth queueDepth : UInt64)
    (cells : Fin DataPipeline.frameCapacity.val.toNat → SharedFrame) (as : List EncodeAction)
    {f : Feed}
    (hrun : run (encodeStep movedFrom compress) (.init depth queueDepth cells) as = some f)
    (hdrained : Drained f) (hadmissible : Admissible (items f.queue2d.accepted))
    (cameraId : String) :
    (f.encodedStereo cameraId).map (·.bundle) =
      lastEncoded compress cameraId (items f.queue2d.accepted) := by
  have hinv : ∃ done, EncodeInv compress done f := by
    refine run_invariant (I := fun f => ∃ done, EncodeInv compress done f) ?_
      ⟨[], encodeInv_init depth queueDepth cells⟩ hrun
    rintro f a g ⟨done, h⟩ hstep
    exact h.step hstep
  obtain ⟨done, hinv⟩ := hinv
  have hall : f.queue2d.popped = f.queue2d.accepted :=
    (hinv.queues .visualGeometric2D).popped.eq_of_length hdrained.1
  have hdone : items f.queue2d.accepted = done := by
    rw [← hall, hinv.popped, hdrained.2, List.append_nil]
  rw [hdone] at hadmissible ⊢
  exact hinv.cache hadmissible cameraId

def markedJpeg (_ : Bytes) (_ _ : ℕ) : Option Bytes := some [0xFF, 0xD8, 0xFF, 0xD9]

def encodedBlack : Bytes := [4, 0, 0, 0, 0xFF, 0xD8, 0xFF, 0xD9, 0xFF, 0xD8, 0xFF, 0xD9]

/-- Both halves are black, in the smallest of the sizes. -/
def blackImage : Bytes := List.replicate (2 * (4 * (672 * 376))) 0

theorem blackImage_ne : blackImage ≠ [] := by
  unfold blackImage
  rw [ne_eq, List.replicate_eq_nil_iff]
  decide

theorem encodeStereoImage_blackImage :
    encodeStereoImage markedJpeg blackImage = some encodedBlack := by
  have hlength : blackImage.length = 2021376 := List.length_replicate
  have hsize : imageSizes.find? (fun r => 2021376 / 2 / 4 % 2 ^ 32 = r.1) =
      some (672 * 376, 672, 376) := by decide
  have hmin : ¬2021376 < 8 := by omega
  have hhalf : ¬(2021376 / 2 / 4 = 0 ∨ 2021376 / 2 % 4 ≠ 0) := by omega
  unfold encodeStereoImage
  simp only [hlength, if_neg hmin, if_neg hhalf, hsize]
  rfl

def stereoBundle (raw : Bytes) : SharedBundle :=
  ⟨4096, ⟨⟨1, 5⟩, .stereoImage, raw⟩, "cam1", 0⟩

/-- One image in a frame of one camera, and in a frame of this or another one. -/
def imageFrames (cameraId : String) (raw : Bytes) : List SharedFrame :=
  [⟨"cam1", ⟨1, 5⟩, [stereoBundle raw]⟩, ⟨cameraId, ⟨1, 5⟩, [stereoBundle raw]⟩]

def pushAll (frames : List SharedFrame) : List EncodeAction :=
  frames.flatMap fun frame =>
    .pushEncode .visualGeometric2D frame :: List.replicate 5 (.tryPush .visualGeometric2D)

def emptyFeed : Feed := .init 3 4 fun _ => ⟨"", ⟨0, 0⟩, []⟩

theorem encode_of_some {compress : Bytes → ℕ → ℕ → Option Bytes} {f : Feed} {b : SharedBundle}
    {encoded : Bytes} (hb : b.isImage = true) (hnew : b.address ≠ f.lastEncodedPtr)
    (hencoded : encodeStereoImage compress b.bundle.payload = some encoded) (address : UInt64)
    (cameraId : String) :
    f.encode address compress cameraId b =
      { f with
        lastEncodedPtr := b.address
        encodedStereo := Function.update f.encodedStereo cameraId
          (some ⟨address, { b.bundle with payload := encoded }, cameraId, b.order⟩) } := by
  obtain ⟨hnot, -⟩ | ⟨-, hskip, -⟩ | ⟨-, -, heq⟩ :=
    @encode_cases compress f address cameraId b
  · exact absurd hb (Bool.eq_false_iff.mp hnot)
  · exact absurd hskip hnew
  · rw [heq, hencoded]

theorem isImage_blackImage : (stereoBundle blackImage).isImage = true :=
  decide_eq_true ⟨rfl, blackImage_ne⟩

/-- The feed when the image has been encoded for its first frame. -/
def cacheFirst (f : Feed) : Feed :=
  { f with
    lastEncodedPtr := 4096
    encodedStereo := Function.update f.encodedStereo "cam1"
      (some ⟨8192, ⟨⟨1, 5⟩, .stereoImage, encodedBlack⟩, "cam1", 0⟩)
    encoder := .encoding "cam1" [] }

theorem encoderStep_cacheFirst {f : Feed}
    (hencoder : f.encoder = .encoding "cam1" [stereoBundle blackImage])
    (hptr : f.lastEncodedPtr = 0) :
    f.encoderStep id 8192 markedJpeg = some (cacheFirst f) := by
  have hnew : (stereoBundle blackImage).address ≠ f.lastEncodedPtr := by
    rw [hptr]
    exact (by decide : (4096 : UInt64) ≠ 0)
  unfold Feed.encoderStep
  rw [hencoder]
  dsimp only
  rw [encode_of_some isImage_blackImage hnew encodeStereoImage_blackImage]
  rfl

def imageActions (cameraId : String) : List EncodeAction :=
  (pushAll (imageFrames cameraId blackImage) ++ List.replicate 5 (.encoder 8192)) ++
    (.encoder 8192 :: (List.replicate 5 (.encoder 8192) ++ [.encoder 8192]))

/-- The feed when the first frame has been popped, and when the second has. -/
def poppedFirst (cameraId : String) : Feed :=
  (run (encodeStep id markedJpeg) emptyFeed (pushAll (imageFrames cameraId blackImage) ++
    List.replicate 5 (.encoder 8192))).getD emptyFeed

def poppedSecond (cameraId : String) : Feed :=
  (run (encodeStep id markedJpeg) (cacheFirst (poppedFirst cameraId))
    (List.replicate 5 (.encoder 8192))).getD emptyFeed

def skippedSecond (cameraId : String) : Feed :=
  { poppedSecond cameraId with encoder := .encoding cameraId [] }

theorem eq_some_getD {α : Type} {o : Option α} (h : o.isSome = true) (a : α) :
    o = some (o.getD a) := by
  obtain ⟨b, rfl⟩ := Option.isSome_iff_exists.mp h
  rfl

theorem run_imageActions {cameraId : String}
    (hfirst : (run (encodeStep id markedJpeg) emptyFeed
      (pushAll (imageFrames cameraId blackImage) ++
        List.replicate 5 (.encoder 8192))).isSome = true)
    (hencoder : (poppedFirst cameraId).encoder = .encoding "cam1" [stereoBundle blackImage])
    (hptr : (poppedFirst cameraId).lastEncodedPtr = 0)
    (hsecond : (run (encodeStep id markedJpeg) (cacheFirst (poppedFirst cameraId))
      (List.replicate 5 (.encoder 8192))).isSome = true)
    (hencoder' : (poppedSecond cameraId).encoder = .encoding cameraId [stereoBundle blackImage])
    (hptr' : (poppedSecond cameraId).lastEncodedPtr = 4096) :
    run (encodeStep id markedJpeg) emptyFeed (imageActions cameraId) =
      some (skippedSecond cameraId) := by
  have hcache : encodeStep id markedJpeg (poppedFirst cameraId) (.encoder 8192) =
      some (cacheFirst (poppedFirst cameraId)) := encoderStep_cacheFirst hencoder hptr
  have hskip : encodeStep id markedJpeg (poppedSecond cameraId) (.encoder 8192) =
      some (skippedSecond cameraId) := by
    have hsame : (poppedSecond cameraId).encode 8192 markedJpeg cameraId
        (stereoBundle blackImage) = poppedSecond cameraId := if_pos (.inr (.inr hptr'.symm))
    unfold encodeStep Feed.encoderStep
    rw [hencoder']
    dsimp only
    rw [hsame]
    rfl
  unfold imageActions
  rw [run_append_of_eq _ (eq_some_getD hfirst emptyFeed)]
  refine (run_cons_eq_some _).mpr ⟨_, hcache, ?_⟩
  rw [run_append_of_eq _ (eq_some_getD hsecond emptyFeed)]
  exact (run_cons_eq_some _).mpr ⟨_, hskip, rfl⟩

theorem items_imageFrames (cameraId : String) (raw : Bytes) : items (imageFrames cameraId raw) =
    [("cam1", stereoBundle raw)] ++ [(cameraId, stereoBundle raw)] := rfl

theorem admissible_imageFrames : Admissible (items (imageFrames "cam1" blackImage)) := by
  have hitems : ∀ item ∈ items (imageFrames "cam1" blackImage),
      item = ("cam1", stereoBundle blackImage) := by
    intro item hitem
    rw [items_imageFrames, List.mem_append, List.mem_singleton, or_self] at hitem
    exact hitem
  have himages : ∀ item ∈ images (items (imageFrames "cam1" blackImage)),
      item = ("cam1", stereoBundle blackImage) :=
    fun item hitem => hitems item (List.mem_of_mem_filter hitem)
  refine ⟨?_, ?_, ?_⟩
  · intro item hitem
    rw [hitems item hitem]
    exact (by decide : (4096 : UInt64) ≠ 0)
  · intro item hitem item' hitem' _
    rw [hitems item hitem, hitems item' hitem']
  · intro item item' hadjacent _
    rw [himages item (hadjacent.subset List.mem_cons_self),
      himages item' (hadjacent.subset (List.mem_cons_of_mem _ (List.mem_singleton_self _)))]

theorem encodedStereo_imageFrames : ∃ f, run (encodeStep id markedJpeg) emptyFeed
      (imageActions "cam1") = some f ∧
    (f.encodedStereo "cam1").map (·.bundle) =
      lastEncoded markedJpeg "cam1" (items f.queue2d.accepted) := by
  have hrun : run (encodeStep id markedJpeg) emptyFeed (imageActions "cam1") =
      some (skippedSecond "cam1") :=
    run_imageActions rfl rfl rfl rfl (by with_unfolding_all rfl) rfl
  refine ⟨_, hrun, ?_⟩
  exact encodedStereo_eq_lastEncoded id markedJpeg 3 4 _ (imageActions "cam1") hrun ⟨rfl, rfl⟩
    admissible_imageFrames "cam1"

/-- The image of another camera hides that of the second. -/
theorem second_camera_has_none : ∃ f, run (encodeStep id markedJpeg) emptyFeed
      (imageActions "cam2") = some f ∧ Drained f ∧
    f.queue2d.accepted = imageFrames "cam2" blackImage ∧ f.encodedStereo "cam2" = none ∧
    lastEncoded markedJpeg "cam2" (items f.queue2d.accepted) =
      some ⟨⟨1, 5⟩, .stereoImage, encodedBlack⟩ := by
  have hrun : run (encodeStep id markedJpeg) emptyFeed (imageActions "cam2") =
      some (skippedSecond "cam2") :=
    run_imageActions rfl rfl rfl rfl (by with_unfolding_all rfl) rfl
  have haccepted : (skippedSecond "cam2").queue2d.accepted = imageFrames "cam2" blackImage := rfl
  refine ⟨_, hrun, ⟨rfl, rfl⟩, haccepted, rfl, ?_⟩
  have hencoding : encoding markedJpeg (stereoBundle blackImage) =
      some ⟨⟨1, 5⟩, .stereoImage, encodedBlack⟩ := by
    unfold encoding
    rw [if_pos isImage_blackImage]
    exact congrArg (Option.map _) encodeStereoImage_blackImage
  rw [haccepted, items_imageFrames, lastEncoded_append, if_pos rfl, hencoding, Option.some_or]

end StereoCamera.WSServer.Delivery
