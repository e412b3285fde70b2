import StereoCamera.Data.PubSocketsInvariant

/-! What a subscriber of the published channels receives. -/

namespace StereoCamera.PubSockets
open Multipart

variable {D : Type} [DecidableEq D] [Fintype D] {print : Json → Bytes}
  {parse : Bytes → Except JsonException Json} {camera : D → String}
  {movedFrom : ChannelFrame → ChannelFrame}
  {encodeMovedFrom : WSServer.Delivery.SharedFrame → WSServer.Delivery.SharedFrame}
  {compress : Bytes → ℕ → ℕ → Option Bytes} {log : List (D × DataGroup × ChannelFrame)}
  {s : State D} {channel : String}
  {items : List (Option (DataGroup × ChannelFrame))}

theorem fromQueue_ofKey (g : DataGroup) {xs : List (String × Option (DataGroup × ChannelFrame))}
    (hxs : ∀ channel p, (channel, some p) ∈ xs → pubChannel p.1 = channel) :
    DataPath.fromQueue g (xs.map Prod.snd).reduceOption =
      DataPath.fromQueue g (ofKey (pubChannel g) xs).reduceOption := by
  induction xs with
  | nil => rfl
  | cons x xs ih =>
    have hrest := ih fun channel p hp => hxs channel p (List.mem_cons_of_mem x hp)
    obtain ⟨channel, _ | ⟨g', frame⟩⟩ := x
    · by_cases hchannel : channel = pubChannel g
      · subst hchannel
        rw [ofKey_cons_self]
        simpa using hrest
      · rw [ofKey_cons_of_ne hchannel]
        simpa using hrest
    · have hon : pubChannel g' = channel := hxs channel (g', frame) (List.mem_cons_self ..)
      by_cases hg : g' = g
      · subst hg hon
        rw [ofKey_cons_self, List.map_cons, List.reduceOption_cons_of_some,
          List.reduceOption_cons_of_some]
        simpa [DataPath.fromQueue] using hrest
      · by_cases hchannel : channel = pubChannel g
        · subst hchannel
          rw [ofKey_cons_self, List.map_cons, List.reduceOption_cons_of_some,
            List.reduceOption_cons_of_some]
          simpa [DataPath.fromQueue, hg] using hrest
        · rw [ofKey_cons_of_ne hchannel, List.map_cons, List.reduceOption_cons_of_some]
          simpa [DataPath.fromQueue, hg] using hrest

theorem filter_itemMessage (print : Json → Bytes)
    (items : List (Option (DataGroup × ChannelFrame))) :
    (items.map (itemMessage print)).filter (· ≠ [shutdownNotice]) =
      items.reduceOption.map (frameMessage print) := by
  induction items with
  | nil => rfl
  | cons item items ih =>
    cases item with
    | none => simpa [itemMessage] using ih
    | some p => simpa [itemMessage, frameMessage] using ih

theorem receive_itemMessage (sub : LoopbackSubscriber)
    (item : Option (DataGroup × ChannelFrame))
    (hitem : ∀ p, item = some p → p.2.bundles ≠ [] ∧
      (∀ b ∈ p.2.bundles, b.timestamp = p.2.timestamp) ∧
      parse (print (DataPublisher.groupHeader (pubChannel p.1) p.2)) =
        .ok (DataPublisher.groupHeader (pubChannel p.1) p.2)) :
    sub.receive parse (itemMessage print item) =
      item.elim sub fun p => ⟨sub.server.pubCallback p.2, sub.totalFrames + 1⟩ := by
  -- The subscriber ignores a notice, and does with a frame what `pub_callback` does.
  cases item with
  | none => rfl
  | some p =>
    obtain ⟨hne, hts, hlossless⟩ := hitem p rfl
    have hrun := LoopbackSubscriber.run_receiveFrame hlossless hts sub.server.buffer2
    unfold itemMessage frameMessage LoopbackSubscriber.receive EncodeSide.pubCallback
    dsimp only
    rcases hb : p.2.bundles with _ | ⟨b, bundles⟩
    · exact absurd hb hne
    · rw [hb] at hrun
      simp only [hrun, hb, LoopbackSubscriber.foldl_push, Option.elim_some]

theorem foldl_receive (sub : LoopbackSubscriber)
    (items : List (Option (DataGroup × ChannelFrame)))
    (hitems : ∀ p, some p ∈ items → p.2.bundles ≠ [] ∧
      (∀ b ∈ p.2.bundles, b.timestamp = p.2.timestamp) ∧
      parse (print (DataPublisher.groupHeader (pubChannel p.1) p.2)) =
        .ok (DataPublisher.groupHeader (pubChannel p.1) p.2)) :
    (items.map (itemMessage print)).foldl (LoopbackSubscriber.receive parse) sub =
      ⟨items.reduceOption.foldl (fun server p => server.pubCallback p.2) sub.server,
        sub.totalFrames + UInt64.ofNat items.reduceOption.length⟩ := by
  induction items generalizing sub with
  | nil => simp
  | cons item items ih =>
    have hrest := fun sub => ih sub fun p hp => hitems p (List.mem_cons_of_mem item hp)
    rw [List.map_cons, List.foldl_cons, receive_itemMessage sub item fun p hp =>
      hitems p (hp ▸ List.mem_cons_self ..)]
    cases item with
    | none =>
      rw [List.reduceOption_cons_of_none]
      exact hrest sub
    | some p =>
      rw [List.reduceOption_cons_of_some, Option.elim_some, hrest, List.foldl_cons,
        List.length_cons, UInt64.ofNat_add, UInt64.add_assoc, UInt64.add_comm 1]
      rfl

theorem Inv.frames_sublist (hs : Inv print camera compress log s)
    (hlt : DataPipeline.totalAccepted s.path.pipeline < 2 ^ 64)
    (h : Wire print s channel items) (g : DataGroup) :
    (DataPath.fromQueue g items.reduceOption).Sublist (s.path.pipeline.lanes g).accepted := by
  have hconserved := (hs.path.pipeline.conserved hlt).conserved g
  refine (h.frames g).trans ?_
  rw [hconserved, List.append_assoc]
  apply List.Sublist.append (List.Sublist.refl _)
  refine List.Sublist.trans ?_ (List.sublist_append_left _ _)
  unfold current
  split
  · rename_i g' frame hpub _
    rw [DataPath.fromQueue_singleton, hpub]
    exact List.Sublist.refl _
  · exact List.nil_sublist _

/-- Whatever `pub_loop`, `publish_shutdown`, `stop` and the rest of the node do in whatever order,
a subscriber that takes whole messages from the sockets gets, beside the shutdown notices, exactly
the messages of frames that the dealers have made, those of each camera and queue in the order in
which its dealer made them; and the loopback subscriber then does what `pub_callback` does with
these frames. -/
theorem received_of_run (hcamera : Function.Injective camera) (depth queueDepth : UInt64)
    (cells : DataGroup → Fin DataPipeline.frameCapacity.val.toNat → ChannelFrame)
    (encodeCells : Fin DataPipeline.frameCapacity.val.toNat → WSServer.Delivery.SharedFrame)
    (sockets : List String) (as : List (Action D)) (s : State D)
    (hx : Transition.Guarded (step print parse camera movedFrom encodeMovedFrom compress) Exclusive
      (init (DataPath.init depth queueDepth cells encodeCells) sockets) as)
    (hrun : Transition.run (step print parse camera movedFrom encodeMovedFrom compress)
      (init (DataPath.init depth queueDepth cells encodeCells) sockets) as = some s)
    (hlt : DataPipeline.totalAccepted s.path.pipeline < 2 ^ 64)
    (hlossless : ∀ p ∈ Transition.log (step print parse camera movedFrom encodeMovedFrom compress)
      (made parse camera) (init (DataPath.init depth queueDepth cells encodeCells) sockets) as,
      parse (print (DataPublisher.groupHeader (pubChannel p.2.1) p.2.2)) =
        .ok (DataPublisher.groupHeader (pubChannel p.2.1) p.2.2))
    (received : List (String × List Bytes)) (hreceived : Receives s received)
    (sub : LoopbackSubscriber) :
    ∃ frames : List (DataGroup × ChannelFrame),
      ((received.map Prod.snd).filter (· ≠ [shutdownNotice])).map Except.ok =
        frames.map (fun p => DataPublisher.publishGroup print (pubChannel p.1) p.2) ∧
      (∀ p ∈ frames, ∃ d, p.2.cameraId = camera d) ∧
      (∀ d g, ((DataPath.fromQueue g frames).filter (·.cameraId = camera d)).Sublist
        (DataPath.madeBy d g (Transition.log
          (step print parse camera movedFrom encodeMovedFrom compress) (made parse camera)
          (init (DataPath.init depth queueDepth cells encodeCells) sockets) as))) ∧
      (received.map Prod.snd).foldl (LoopbackSubscriber.receive parse) sub =
        ⟨frames.foldl (fun server p => server.pubCallback p.2) sub.server,
          sub.totalFrames + UInt64.ofNat frames.length⟩ := by
  have hpreserved : ∀ log s a t,
      (DataPipeline.totalAccepted s.path.pipeline < 2 ^ 64 → Inv print camera compress log s) →
      Exclusive s a → step print parse camera movedFrom encodeMovedFrom compress s a = some t →
      DataPipeline.totalAccepted t.path.pipeline < 2 ^ 64 →
      Inv print camera compress (log ++ made parse camera s a) t :=
    fun log s a t hs hG hstep hlt =>
      (hs ((totalAccepted_le hstep).trans_lt hlt)).step hcamera hG hstep hlt
  have hinv := hx.invariant_log
    (I := fun log s => DataPipeline.totalAccepted s.path.pipeline < 2 ^ 64 →
      Inv print camera compress log s)
    hpreserved (fun _ => inv_init print camera
      (DataPath.inv_init depth queueDepth cells encodeCells) rfl (fun _ => rfl) sockets) hrun hlt
  rw [List.nil_append] at hinv
  choose items hitems using hinv.wire
  obtain ⟨xs, rfl, hxs⟩ := hreceived.exists_items hitems
  have hitem : ∀ channel p, (channel, some p) ∈ xs → some p ∈ items channel :=
    fun channel p hp => (hxs channel).subset (mem_ofKey.mpr hp)
  have haccepted : ∀ g, (DataPath.fromQueue g (xs.map Prod.snd).reduceOption).Sublist
      (s.path.pipeline.lanes g).accepted := by
    intro g
    rw [fromQueue_ofKey g fun channel p hp => ((hitems channel).onChannel p (hitem _ p hp)).1]
    refine List.Sublist.trans ?_ (hinv.frames_sublist hlt (hitems (pubChannel g)) g)
    exact (((hxs (pubChannel g)).filterMap id).filter _).map _
  have hcameras : ∀ p ∈ (xs.map Prod.snd).reduceOption, ∃ d, p.2.cameraId = camera d :=
    fun p hp => hinv.known p.1 p.2 ((haccepted p.1).subset (DataPath.mem_fromQueue.mpr hp))
  have hmade : ∀ d g, ((DataPath.fromQueue g (xs.map Prod.snd).reduceOption).filter
      (·.cameraId = camera d)).Sublist (DataPath.madeBy d g _) :=
    fun d g => (((haccepted g).filter _).trans (List.sublist_append_left _ _)).trans
      (hinv.path.taken d g)
  have hmessages : (xs.map fun x => (x.1, itemMessage print x.2)).map Prod.snd =
      (xs.map Prod.snd).map (itemMessage print) := by
    rw [List.map_map, List.map_map]
    rfl
  have hframes : ∀ p, some p ∈ xs.map Prod.snd → p.2.bundles ≠ [] := by
    intro p hp
    obtain ⟨⟨channel, item⟩, hx, rfl⟩ := List.mem_map.mp hp
    exact ((hitems channel).onChannel p (hitem channel p hx)).2
  refine ⟨(xs.map Prod.snd).reduceOption, ?_, hcameras, hmade, ?_⟩
  · rw [hmessages, filter_itemMessage, List.map_map]
    apply List.map_congr_left
    intro p hp
    rw [DataPublisher.publishGroup_eq print _ (hframes p (List.reduceOption_mem_iff.mp hp))]
    rfl
  · rw [hmessages]
    apply foldl_receive
    intro p hp
    have hmem : p ∈ (xs.map Prod.snd).reduceOption := List.reduceOption_mem_iff.mpr hp
    obtain ⟨d, hd⟩ := hcameras p hmem
    have hlog := DataPath.mem_madeBy.mp ((hmade d p.1).subset (List.mem_filter.mpr
      ⟨DataPath.mem_fromQueue.mpr hmem, by simp [hd]⟩))
    exact ⟨hframes p hp, hinv.stamped _ hlog, hlossless _ hlog⟩

omit [DecidableEq D] [Fintype D] in
theorem exclusive_of_pipeline (s : State D) (a : Action D)
    (h : ∀ b, DataPipeline.Exclusive s.path.pipeline b) : Exclusive s a := by
  cases a with
  | path b => exact DataPath.exclusive_of_pipeline s.path b h
  | _ => trivial

def imuHeaderText : Bytes :=
  bytes ("\x7b\"camera_id\":\"cam1\",\"channel\":\"sensor_tracking\",\"parts\":[\x7b" ++
    "\"id\":\"imu\",\"size\":2\x7d],\"ts_nsec\":5,\"ts_sec\":1700000000\x7d")

def imuFrame : ChannelFrame :=
  ⟨"cam1", ⟨1700000000, 5⟩, [⟨⟨1700000000, 5⟩, .imu, [1, 2]⟩]⟩

def parseHeaders (text : Bytes) : Except JsonException Json :=
  if text = imuHeaderText then .ok (DataPublisher.groupHeader "sensor_tracking" imuFrame)
  else parseImu 1700000000 text

/-- The shutdown is announced, then a reading is received, pushed, popped and published. -/
def oneReading : List (Action Unit) :=
  [.publishShutdown, .caller, .caller, .caller,
    .path (.receive () "sensor_data" [imuText 1700000000, [1, 2]])] ++
    List.replicate 6 (.path (.dealer ())) ++ List.replicate 14 (.pub [])

def oneReadingInit : State Unit :=
  init (DataPath.init 3 4 (fun _ _ => ⟨"", ⟨0, 0⟩, []⟩) fun _ => ⟨"", ⟨0, 0⟩, []⟩)
    ["sensor_tracking"]

/-- What a subscriber takes that misses nothing. -/
def oneReadingReceived : List (String × List Bytes) :=
  [("sensor_tracking", [shutdownNotice]),
    ("sensor_tracking", frameMessage (fun _ => imuHeaderText) (.sensorTracking, imuFrame))]

theorem received_of_run_oneReading : ∃ s,
    Transition.run (step (fun _ => imuHeaderText) parseHeaders (fun _ : Unit => "cam1") id id
      DataPath.noCompress) oneReadingInit oneReading = some s ∧
    ∃ frames : List (DataGroup × ChannelFrame),
      ((oneReadingReceived.map Prod.snd).filter (· ≠ [shutdownNotice])).map Except.ok =
        frames.map (fun p => DataPublisher.publishGroup (fun _ => imuHeaderText)
          (pubChannel p.1) p.2) ∧
      (∀ p ∈ frames, ∃ _ : Unit, p.2.cameraId = "cam1") ∧
      (∀ (d : Unit) g, ((DataPath.fromQueue g frames).filter (·.cameraId = "cam1")).Sublist
        (DataPath.madeBy d g (Transition.log
          (step (fun _ => imuHeaderText) parseHeaders (fun _ : Unit => "cam1") id id
            DataPath.noCompress)
          (made parseHeaders fun _ => "cam1") oneReadingInit oneReading))) ∧
      (oneReadingReceived.map Prod.snd).foldl (LoopbackSubscriber.receive parseHeaders)
          LoopbackSubscriber.freshSubscriber =
        ⟨frames.foldl (fun server p => server.pubCallback p.2)
          LoopbackSubscriber.freshSubscriber.server,
          LoopbackSubscriber.freshSubscriber.totalFrames + UInt64.ofNat frames.length⟩ := by
  have hsent : (Transition.run (step (fun _ => imuHeaderText) parseHeaders
      (fun _ : Unit => "cam1") id id DataPath.noCompress) oneReadingInit oneReading).map
        (fun s => (messages (s.wire "sensor_tracking"),
          DataPipeline.totalAccepted s.path.pipeline)) =
      some (oneReadingReceived.map Prod.snd, 1) := by
    decide +kernel
  have hlog : Transition.log (step (fun _ => imuHeaderText) parseHeaders
      (fun _ : Unit => "cam1") id id DataPath.noCompress) (made parseHeaders fun _ => "cam1")
        oneReadingInit oneReading = [((), .sensorTracking, imuFrame)] := by
    decide +kernel
  obtain ⟨s, hrun, hfields⟩ := Option.map_eq_some_iff.mp hsent
  obtain ⟨hmessages, htotal⟩ := Prod.mk.inj hfields
  have hlt : DataPipeline.totalAccepted s.path.pipeline < 2 ^ 64 := by
    rw [htotal]
    exact Nat.one_lt_two_pow (by decide)
  refine ⟨s, hrun, received_of_run ?_ 3 4 _ _ _ oneReading s ?_ hrun hlt ?_ oneReadingReceived ?_
    LoopbackSubscriber.freshSubscriber⟩
  · exact fun _ _ _ => rfl
  · exact DataPipeline.guarded_of_one_dealer (fun s => s.path.pipeline)
      (fun _ _ _ hstep => step_pipeline hstep) exclusive_of_pipeline
      (fun g => SPSCQueue.soloInv_init _ rfl rfl (SPSCQueue.setMaxDepth_le _ _)) hrun hlt
  · intro p hp
    have hmem : p ∈ [((), DataGroup.sensorTracking, imuFrame)] := hlog ▸ hp
    rw [List.mem_singleton.mp hmem]
    exact if_pos rfl
  · intro channel
    by_cases hchannel : channel = "sensor_tracking"
    · subst hchannel
      rw [hmessages]
      exact List.Sublist.refl _
    · have hnone : ofKey channel oneReadingReceived = [] := by
        simp [ofKey, oneReadingReceived, Ne.symm hchannel]
      rw [hnone]
      exact List.nil_sublist _

end StereoCamera.PubSockets
