import StereoCamera.Data.DataPath
import StereoCamera.Data.Relay

/-! What a client is sent of a camera and a type is a part of what the camera sent, in the order
of each of its sockets, with nothing put in, repeated or changed but for the encoding of the
images. -/

namespace StereoCamera

theorem frame_dealerReceive {parse : Bytes → Except JsonException Json}
    {cameraId grp : String} {zparts : List Bytes} {buffer : DataBuffer DataBundle}
    {group : DataGroup} {frame : ChannelFrame}
    (h : ((dealerReceive parse cameraId grp zparts).run.run buffer).1 = .ok (some (group, frame))) :
    frame.cameraId = cameraId ∧ ∀ b ∈ frame.bundles, b.timestamp = frame.timestamp := by
  rcases zparts with _ | ⟨hdrStr, payloads⟩
  · cases h
  unfold dealerReceive at h
  dsimp only at h
  rcases hparse : parse hdrStr with e | hdr
  · rw [hparse] at h
    cases h
  rw [hparse, run_liftM_ok_bind] at h
  rcases hactive : hdr.valueWith Json.getBool "active" true with e | _ | _
  · rw [hactive] at h
    cases h
  · rw [hactive] at h
    cases h
  rw [hactive, run_liftM_ok_bind, if_neg (by decide)] at h
  rcases hparts : hdr.indexKey "parts" with e | parts
  · rw [hparts] at h
    cases h
  rw [hparts, run_liftM_ok_bind] at h
  rcases hgrp : socketGroup grp with _ | group'
  · rw [hgrp] at h
    cases h
  rw [hgrp] at h
  dsimp only at h
  rcases hsec : hdr.valueWith Json.getInt "ts_sec" 0 with e | sec
  · rw [hsec] at h
    cases h
  rw [hsec, run_liftM_ok_bind] at h
  rcases hnsec : hdr.valueWith Json.getInt "ts_nsec" 0 with e | nsec
  · rw [hnsec] at h
    cases h
  rw [hnsec, run_liftM_ok_bind] at h
  have hloop := run_receiveParts_eq cameraId ⟨sec.toInt64, nsec.toInt64⟩ parts 0 payloads buffer
  rcases hthrown : (readParts parts 0 payloads).2 with _ | e
  · rw [hthrown] at hloop
    rw [run_bind_of_ok hloop] at h
    split_ifs at h
    · cases h
    · cases h
      refine ⟨rfl, fun b hb => ?_⟩
      obtain ⟨part, -, rfl⟩ := List.mem_map.mp hb
      rfl
  · rw [hthrown] at hloop
    rw [run_bind_of_error hloop] at h
    cases h

namespace DataPipeline
variable {D : Type} {camera : D → String} {movedFrom : ChannelFrame → ChannelFrame}
  {s t : State D}

structure Pops (s t : State D) : Prop where
  carries : ∀ g, (t.lanes g).accepted = (s.lanes g).accepted ∧
    (t.lanes g).producers = (s.lanes g).producers

theorem Pops.setLane {g : DataGroup} {l : SPSCQueue.State frameCapacity D ChannelFrame}
    (hl : l.accepted = (s.lanes g).accepted ∧ l.producers = (s.lanes g).producers) :
    Pops s (setLane s g l) where
  carries := by
    intro g'
    by_cases hg : g' = g
    · subst hg
      simpa only [DataPipeline.setLane, Function.update_self] using hl
    · simp only [DataPipeline.setLane, Function.update_of_ne hg, and_self]

theorem Pops.trans {u : State D} (hst : Pops s t) (htu : Pops t u) : Pops s u where
  carries g := ⟨(htu.carries g).1.trans (hst.carries g).1,
    (htu.carries g).2.trans (hst.carries g).2⟩

def taken (camera : D → String) (s : State D) (d : D) (g : DataGroup) : List ChannelFrame :=
  (s.lanes g).accepted.filter (·.cameraId = camera d) ++ (s.lanes g).inFlight d

def OwnFrames (camera : D → String) (s : State D) : Prop :=
  ∀ d g, ∀ frame ∈ (s.lanes g).inFlight d, frame.cameraId = camera d

theorem Pops.taken (h : Pops s t) (d : D) (g : DataGroup) :
    taken camera t d g = taken camera s d g := by
  unfold DataPipeline.taken SPSCQueue.State.inFlight
  rw [(h.carries g).1, (h.carries g).2]

theorem Pops.ownFrames (h : Pops s t) (hs : OwnFrames camera s) : OwnFrames camera t := by
  intro d g frame hframe
  unfold SPSCQueue.State.inFlight at hframe
  rw [(h.carries g).2] at hframe
  exact hs d g frame hframe

theorem taken_setLane_ne {g g' : DataGroup} (hg : g' ≠ g)
    (l : SPSCQueue.State frameCapacity D ChannelFrame) (d : D) :
    taken camera (setLane s g l) d g' = taken camera s d g' := by
  unfold taken setLane
  dsimp only
  rw [Function.update_of_ne hg]

variable [DecidableEq D]

theorem callPop_pops {g : DataGroup} (h : callPop movedFrom s g = some t) :
    Pops s t ∧ t.handed = s.handed := by
  obtain ⟨l, hl, rfl⟩ := Option.map_eq_some_iff.mp h
  have hset := Pops.setLane (SPSCQueue.callPop_carries hl)
  exact ⟨⟨hset.carries⟩, rfl⟩

theorem pubStep_pops (h : pubStep movedFrom s = some t) :
    Pops s t ∧ ∀ g, t.handed g = s.handed g ++ holding s.pub g := by
  unfold pubStep at h
  split at h
  · rename_i hpub
    obtain ⟨hpops, hhanded⟩ := callPop_pops h
    simp [hpops, hhanded, hpub]
  · rename_i g frame hpub
    obtain ⟨hpops, hhanded⟩ := callPop_pops h
    refine ⟨⟨hpops.carries⟩, fun g' => ?_⟩
    rw [hhanded, hpub]
    unfold handOver holding
    dsimp only
    by_cases hg : g' = g
    · subst hg
      rw [Function.update_self, if_pos rfl]
    · rw [Function.update_of_ne hg, if_neg hg, List.append_nil]
  · rename_i g hpub
    have hnone : ∀ g', s.handed g' = s.handed g' ++ holding s.pub g' := by
      intro g'
      rw [hpub, holding_popping, List.append_nil]
    split at h
    · cases h
    · obtain ⟨l, hl, h⟩ := Option.bind_eq_some_iff.mp h
      have hset := Pops.setLane (SPSCQueue.consumer_carries hl)
      split at h
      · cases h
        exact ⟨hset, hnone⟩
      · cases h
        exact ⟨⟨hset.carries⟩, hnone⟩
      · split at h
        · obtain ⟨hpops, hhanded⟩ := callPop_pops h
          refine ⟨hset.trans hpops, fun g' => ?_⟩
          rw [hhanded]
          exact hnone g'
        · cases h
          exact ⟨⟨hset.carries⟩, hnone⟩

theorem receive_taken {d : D} {g : DataGroup} {timestamp : Timestamp} {bundles : List DataBundle}
    (h : step camera movedFrom s (.receive d g timestamp bundles) = some t)
    (hs : OwnFrames camera s) :
    (∀ d' g', taken camera t d' g' = taken camera s d' g' ++
        if d' = d ∧ g' = g then [⟨camera d, timestamp, bundles⟩] else []) ∧
      OwnFrames camera t ∧ t.handed = s.handed ∧ t.pub = s.pub := by
  simp only [step] at h
  split at h
  · obtain ⟨l, hl, rfl⟩ := Option.map_eq_some_iff.mp h
    obtain ⟨haccepted, hnone, hitem, hothers⟩ := SPSCQueue.callTryPush_carries hl
    refine ⟨fun d' g' => ?_, fun d' g' frame hframe => ?_, rfl, rfl⟩
    · unfold taken
      by_cases hg : g' = g
      · subst hg
        simp only [setDealer, setLane, Function.update_self, haccepted, and_true]
        by_cases hd : d' = d
        · subst hd
          rw [if_pos rfl, hitem, hnone, List.append_nil]
        · rw [if_neg hd, hothers d' hd, List.append_nil]
      · simp only [setDealer, setLane, Function.update_of_ne hg]
        rw [if_neg fun heq => hg heq.2, List.append_nil]
    · by_cases hg : g' = g
      · subst hg
        simp only [setDealer, setLane, Function.update_self] at hframe
        by_cases hd : d' = d
        · subst hd
          rw [hitem] at hframe
          rw [List.mem_singleton.mp hframe]
        · rw [hothers d' hd] at hframe
          exact hs d' _ frame hframe
      · simp only [setDealer, setLane, Function.update_of_ne hg] at hframe
        exact hs d' g' frame hframe
  · cases h

theorem producer_taken (hcamera : Function.Injective camera) (hs : OwnFrames camera s) {d : D}
    {g : DataGroup} {l : SPSCQueue.State frameCapacity D ChannelFrame}
    (hl : SPSCQueue.step movedFrom (s.lanes g) (.producer d) = some l) :
    (∀ d' g', (taken camera (setLane s g l) d' g').Sublist (taken camera s d' g')) ∧
      OwnFrames camera (setLane s g l) := by
  -- A frame that is being pushed is accepted after those of its camera, or lost.
  obtain ⟨hself, hothers⟩ := SPSCQueue.producer_carries hl
  constructor
  · intro d' g'
    by_cases hg : g' = g
    · subst hg
      unfold taken setLane
      simp only [Function.update_self]
      by_cases hd : d' = d
      · subst hd
        rcases hself with ⟨haccepted, hsame | hnone⟩ | ⟨haccepted, hnone⟩
        · rw [haccepted, hsame]
        · rw [haccepted, hnone]
          exact (List.Sublist.refl _).append (List.nil_sublist _)
        · rw [haccepted, hnone, List.filter_append, List.append_nil]
          exact (List.Sublist.refl _).append List.filter_sublist
      · -- The frame is of another camera.
        have hother : ((s.lanes g').inFlight d).filter (·.cameraId = camera d') = [] := by
          apply List.filter_eq_nil_iff.mpr
          intro frame hframe heq
          rw [decide_eq_true_eq, hs d g' frame hframe] at heq
          exact hd (hcamera heq).symm
        rw [hothers d' hd]
        rcases hself with ⟨haccepted, -⟩ | ⟨haccepted, -⟩
        · rw [haccepted]
        · rw [haccepted, List.filter_append, hother, List.append_nil]
    · rw [taken_setLane_ne hg]
  · intro d' g' frame hframe
    unfold setLane at hframe
    dsimp only at hframe
    by_cases hg : g' = g
    · subst hg
      rw [Function.update_self] at hframe
      by_cases hd : d' = d
      · subst hd
        rcases hself with ⟨-, hsame | hnone⟩ | ⟨-, hnone⟩
        · rw [hsame] at hframe
          exact hs d' g' frame hframe
        · rw [hnone] at hframe
          cases hframe
        · rw [hnone] at hframe
          cases hframe
      · rw [hothers d' hd] at hframe
        exact hs d' g' frame hframe
    · rw [Function.update_of_ne hg] at hframe
      exact hs d' g' frame hframe

theorem dealer_taken (hcamera : Function.Injective camera) (hs : OwnFrames camera s) {d : D}
    (h : step camera movedFrom s (.dealer d) = some t) :
    (∀ d' g', (taken camera t d' g').Sublist (taken camera s d' g')) ∧ OwnFrames camera t ∧
      t.handed = s.handed ∧ t.pub = s.pub := by
  simp only [step, dealerStep] at h
  split at h
  · cases h
  · split at h
    · cases h
    · obtain ⟨l, hl, rfl⟩ := Option.map_eq_some_iff.mp h
      obtain ⟨htaken, hown⟩ := producer_taken hcamera hs hl
      split <;> exact ⟨htaken, hown, rfl, rfl⟩
  · cases h
    exact ⟨fun _ _ => List.Sublist.refl _, hs, rfl, rfl⟩
  · cases h
    exact ⟨fun _ _ => List.Sublist.refl _, hs, rfl, rfl⟩

end DataPipeline

namespace DataPath
open Transition

theorem fromQueue_append (g : DataGroup) (xs ys : List (DataGroup × ChannelFrame)) :
    fromQueue g (xs ++ ys) = fromQueue g xs ++ fromQueue g ys := by
  unfold fromQueue
  rw [List.filter_append, List.map_append]

theorem fromQueue_singleton (g g' : DataGroup) (frame : ChannelFrame) :
    fromQueue g' [(g, frame)] = if g' = g then [frame] else [] := by
  unfold fromQueue
  by_cases hg : g' = g
  · simp [hg]
  · simp [hg, Ne.symm hg]

theorem items_append (xs ys : List (DataGroup × ChannelFrame)) :
    items (xs ++ ys) = items xs ++ items ys := List.flatMap_append

theorem items_singleton (g : DataGroup) (frame : ChannelFrame) :
    items [(g, frame)] = frame.bundles.map fun b => (frame.cameraId, b) := by
  simp [items]

variable {D : Type} [DecidableEq D]

theorem madeBy_append (d : D) (g : DataGroup) (xs ys : List (D × DataGroup × ChannelFrame)) :
    madeBy d g (xs ++ ys) = madeBy d g xs ++ madeBy d g ys := by
  unfold madeBy
  rw [List.filter_append, List.map_append, fromQueue_append]

theorem madeBy_singleton (d d' : D) (g g' : DataGroup) (frame : ChannelFrame) :
    madeBy d' g' [(d, g, frame)] = if d' = d ∧ g' = g then [frame] else [] := by
  unfold madeBy
  by_cases hd : d' = d
  · subst hd
    simp [fromQueue_singleton]
  · simp [hd, Ne.symm hd, fromQueue]

variable [Fintype D] {parse : Bytes → Except JsonException Json} {camera : D → String}
  {movedFrom : ChannelFrame → ChannelFrame}
  {encodeMovedFrom : WSServer.Delivery.SharedFrame → WSServer.Delivery.SharedFrame}
  {compress : Bytes → ℕ → ℕ → Option Bytes} {log : List (D × DataGroup × ChannelFrame)}
  {s t : State D} {a : Action D}

/-- The accepted frames of a camera were made by its dealer, in that order; those that are
published were accepted; and the server has nothing but their bundles. -/
structure Inv (camera : D → String) (compress : Bytes → ℕ → ℕ → Option Bytes)
    (log : List (D × DataGroup × ChannelFrame)) (s : State D) : Prop where
  pipeline : DataPipeline.Inv s.pipeline
  own : DataPipeline.OwnFrames camera s.pipeline
  taken : ∀ d g, (DataPipeline.taken camera s.pipeline d g).Sublist (madeBy d g log)
  published : ∀ g, fromQueue g s.published =
    s.pipeline.handed g ++ if s.inCallback then DataPipeline.holding s.pipeline.pub g else []
  server : WSServer.Delivery.Inv s.server
  sourced : WSServer.Delivery.Sourced compress (items s.published) s.server

omit [Fintype D] in
theorem step_pipeline (h : step parse camera movedFrom encodeMovedFrom compress s a = some t) :
    t.pipeline = s.pipeline ∨ ∃ b, DataPipeline.step camera movedFrom s.pipeline b =
      some t.pipeline ∧ (Exclusive s a → DataPipeline.Exclusive s.pipeline b) := by
  have hpop : ∀ s', popStep movedFrom s' = some t → s'.pipeline = s.pipeline →
      ∃ b, DataPipeline.step camera movedFrom s.pipeline b = some t.pipeline ∧
        (Exclusive s a → DataPipeline.Exclusive s.pipeline b) := by
    intro s' h hs'
    obtain ⟨p, hp, rfl⟩ := Option.map_eq_some_iff.mp h
    exact ⟨.pub, hs' ▸ hp, fun _ => trivial⟩
  cases a with
  | receive d grp zparts =>
    simp only [step, receive] at h
    split at h
    · split at h
      · obtain ⟨p, hp, rfl⟩ := Option.map_eq_some_iff.mp h
        exact .inr ⟨_, hp, fun _ => trivial⟩
      · cases h
        exact .inl rfl
    · cases h
  | commands buffer1 =>
    cases h
    exact .inl rfl
  | dealer d =>
    obtain ⟨p, hp, rfl⟩ := Option.map_eq_some_iff.mp h
    exact .inr ⟨_, hp, id⟩
  | pub addresses =>
    simp only [step, pubStep] at h
    split at h
    · split_ifs at h
      · split at h
        · exact .inr (hpop _ h rfl)
        · obtain ⟨f, -, rfl⟩ := Option.map_eq_some_iff.mp h
          exact .inl rfl
      · exact .inr (hpop _ h rfl)
      · obtain ⟨f, -, rfl⟩ := Option.map_eq_some_iff.mp h
        exact .inl rfl
    · exact .inr (hpop _ h rfl)
  | encoder address =>
    obtain ⟨server, -, rfl⟩ := Option.map_eq_some_iff.mp h
    exact .inl rfl
  | server b =>
    simp only [step, serverStep] at h
    split at h
    · cases h
    · cases h
    · cases h
    · obtain ⟨server, -, rfl⟩ := Option.map_eq_some_iff.mp h
      exact .inl rfl

omit [Fintype D] in
theorem totalAccepted_le (h : step parse camera movedFrom encodeMovedFrom compress s a = some t) :
    DataPipeline.totalAccepted s.pipeline ≤ DataPipeline.totalAccepted t.pipeline := by
  rcases step_pipeline h with heq | ⟨b, hb, -⟩
  · rw [heq]
  · exact DataPipeline.totalAccepted_le_step hb

theorem Inv.popStep (hs : Inv camera compress log s) (ht : DataPipeline.Inv t.pipeline)
    {published : List (DataGroup × ChannelFrame)} (hitems : items published = items s.published)
    (hpublished : ∀ g, fromQueue g published =
      s.pipeline.handed g ++ DataPipeline.holding s.pipeline.pub g)
    (h : popStep movedFrom { s with published := published } = some t) :
    Inv camera compress log t := by
  obtain ⟨p, hp, rfl⟩ := Option.map_eq_some_iff.mp h
  obtain ⟨hpops, hhanded⟩ := DataPipeline.pubStep_pops hp
  refine ⟨ht, hpops.ownFrames hs.own, fun d g => ?_, fun g => ?_, hs.server, ?_⟩
  · rw [hpops.taken]
    exact hs.taken d g
  · show fromQueue g published = p.handed g ++ []
    rw [List.append_nil, hhanded, hpublished]
  · show WSServer.Delivery.Sourced compress (items published) s.server
    rw [hitems]
    exact hs.sourced

theorem Inv.receive (hs : Inv camera compress log s) (ht : DataPipeline.Inv t.pipeline) {d : D}
    {grp : String} {zparts : List Bytes}
    (h : receive parse camera movedFrom s d grp zparts = some t) :
    Inv camera compress (log ++ made parse camera s (.receive d grp zparts)) t := by
  have hkeep : ∀ buffer1, Inv camera compress (log ++ []) { s with buffer1 := buffer1 } := by
    intro buffer1
    rw [List.append_nil]
    exact ⟨hs.pipeline, hs.own, hs.taken, hs.published, hs.server, hs.sourced⟩
  unfold DataPath.receive at h
  split at h
  · rcases hres : (dealerReceive parse (camera d) grp zparts).run.run s.buffer1 with
      ⟨e | _ | ⟨g, frame⟩, buffer1⟩
    · rw [hres] at h
      cases h
      simp only [made, hres]
      exact hkeep buffer1
    · rw [hres] at h
      cases h
      simp only [made, hres]
      exact hkeep buffer1
    · rw [hres] at h
      obtain ⟨p, hp, rfl⟩ := Option.map_eq_some_iff.mp h
      have hcamera : frame.cameraId = camera d :=
        (frame_dealerReceive (congrArg Prod.fst hres)).1
      obtain ⟨htaken, hown, hhanded, hpub⟩ := DataPipeline.receive_taken hp hs.own
      simp only [made, hres]
      refine ⟨ht, hown, fun d' g' => ?_, fun g' => ?_, hs.server, hs.sourced⟩
      · rw [htaken, madeBy_append, madeBy_singleton, ← hcamera]
        exact (hs.taken d' g').append (List.Sublist.refl _)
      · show fromQueue g' s.published = p.handed g' ++ if s.inCallback then
          DataPipeline.holding p.pub g' else []
        rw [hhanded, hpub]
        exact hs.published g'
  · cases h

theorem Inv.serve (hs : Inv camera compress log s) {b : WSServer.Delivery.Action}
    {server : WSServer.Delivery.State} (hnone : WSServer.Delivery.publishes b = [])
    (hcompress : ∀ address other, b = .encoder address other → other = compress)
    (hb : WSServer.Delivery.step parse encodeMovedFrom s.server b = some server) :
    Inv camera compress log { s with server := server } := by
  have hnew := hs.sourced.step hs.server hcompress hb
  rw [hnone, List.append_nil] at hnew
  exact ⟨hs.pipeline, hs.own, hs.taken, hs.published,
    WSServer.Delivery.inv_step _ _ _ hs.server hb, hnew⟩

theorem Inv.pubStep (parse : Bytes → Except JsonException Json) (hs : Inv camera compress log s)
    (ht : DataPipeline.Inv t.pipeline) {addresses : List UInt64}
    (h : pubStep movedFrom encodeMovedFrom s addresses = some t) : Inv camera compress log t := by
  have hpublished := hs.published
  unfold DataPath.pubStep at h
  split at h
  · rename_i g frame hpub
    have hnext : ¬s.inCallback = true → ∀ g', fromQueue g' (s.published ++ [(g, frame)]) =
        s.pipeline.handed g' ++ DataPipeline.holding s.pipeline.pub g' := by
      intro hcall g'
      rw [fromQueue_append, hpublished, if_neg hcall, List.append_nil, fromQueue_singleton, hpub]
      simp only [DataPipeline.holding, eq_comm]
    split_ifs at h with hcall hnil hlen
    · split at h
      · refine hs.popStep ht rfl (fun g' => ?_) h
        rw [hpublished, if_pos hcall]
      · obtain ⟨f, hf, rfl⟩ := Option.map_eq_some_iff.mp h
        have hstep : WSServer.Delivery.step parse encodeMovedFrom s.server .publisher =
            some (s.server.setFeed f) := by
          simp only [WSServer.Delivery.step, hf, Option.map_some]
        exact hs.serve rfl (fun _ _ heq => WSServer.Delivery.Action.noConfusion heq) hstep
    · refine hs.popStep ht ?_ (hnext hcall) h
      rw [items_append, items_singleton, hnil, List.map_nil, List.append_nil]
    · obtain ⟨f, hf, rfl⟩ := Option.map_eq_some_iff.mp h
      have hstep : WSServer.Delivery.step parse encodeMovedFrom s.server
          (.publish frame.cameraId frame.timestamp (addresses.zip frame.bundles)) =
            some (s.server.setFeed f) := by
        simp only [WSServer.Delivery.step, hf, Option.map_some]
      refine ⟨hs.pipeline, hs.own, hs.taken, fun g' => ?_,
        WSServer.Delivery.inv_step _ _ _ hs.server hstep, ?_⟩
      · show fromQueue g' (s.published ++ [(g, frame)]) = s.pipeline.handed g' ++
          DataPipeline.holding s.pipeline.pub g'
        exact hnext hcall g'
      · have hnew := hs.sourced.step hs.server
          (fun _ _ heq => WSServer.Delivery.Action.noConfusion heq) hstep
        have hbundles : (addresses.zip frame.bundles).map (fun b => (frame.cameraId, b.2)) =
            frame.bundles.map fun b => (frame.cameraId, b) := by
          have hzip := congrArg (List.map fun b : DataBundle => (frame.cameraId, b))
            (List.map_snd_zip hlen.ge)
          rwa [List.map_map] at hzip
        simp only [WSServer.Delivery.publishes, hbundles] at hnew
        show WSServer.Delivery.Sourced compress (items (s.published ++ [(g, frame)])) _
        rw [items_append, items_singleton]
        exact hnew
  · rename_i hpub
    refine hs.popStep ht rfl (fun g' => ?_) h
    have hnone : DataPipeline.holding s.pipeline.pub g' = [] := by
      cases hcase : s.pipeline.pub with
      | handing g frame => exact absurd hcase (hpub g frame)
      | _ => rfl
    rw [hpublished, hnone, ite_self]

theorem Inv.step (hcamera : Function.Injective camera) (hs : Inv camera compress log s)
    (hx : Exclusive s a) (h : step parse camera movedFrom encodeMovedFrom compress s a = some t)
    (hlt : DataPipeline.totalAccepted t.pipeline < 2 ^ 64) :
    Inv camera compress (log ++ made parse camera s a) t := by
  have ht : DataPipeline.Inv t.pipeline := by
    rcases step_pipeline h with heq | ⟨b, hb, hexclusive⟩
    · rw [heq]
      exact hs.pipeline
    · exact hs.pipeline.step (hexclusive hx) hb hlt
  cases a with
  | receive d grp zparts => exact hs.receive ht h
  | commands buffer1 =>
    cases h
    show Inv camera compress (log ++ []) _
    rw [List.append_nil]
    exact ⟨hs.pipeline, hs.own, hs.taken, hs.published, hs.server, hs.sourced⟩
  | dealer d =>
    obtain ⟨p, hp, rfl⟩ := Option.map_eq_some_iff.mp h
    obtain ⟨htaken, hown, hhanded, hpub⟩ := DataPipeline.dealer_taken hcamera hs.own hp
    show Inv camera compress (log ++ []) _
    rw [List.append_nil]
    refine ⟨ht, hown, fun d' g' => (htaken d' g').trans (hs.taken d' g'), fun g => ?_, hs.server,
      hs.sourced⟩
    show fromQueue g s.published = p.handed g ++ if s.inCallback then
      DataPipeline.holding p.pub g else []
    rw [hhanded, hpub]
    exact hs.published g
  | pub addresses =>
    show Inv camera compress (log ++ []) _
    rw [List.append_nil]
    exact hs.pubStep parse ht h
  | encoder address =>
    show Inv camera compress (log ++ []) _
    rw [List.append_nil]
    obtain ⟨server, hserver, rfl⟩ := Option.map_eq_some_iff.mp h
    refine hs.serve rfl (fun _ other heq => ?_) hserver
    cases heq
    rfl
  | server b =>
    show Inv camera compress (log ++ []) _
    rw [List.append_nil]
    simp only [DataPath.step, serverStep] at h
    split at h
    · cases h
    · cases h
    · cases h
    · rename_i hpublish _ hencoder
      obtain ⟨server, hserver, rfl⟩ := Option.map_eq_some_iff.mp h
      refine hs.serve ?_ (fun address other heq => absurd heq (hencoder address other)) hserver
      cases b with
      | publish cameraId timestamp bundles => exact absurd rfl (hpublish _ _ _)
      | _ => rfl

theorem inv_init (depth queueDepth : UInt64)
    (cells : DataGroup → Fin DataPipeline.frameCapacity.val.toNat → ChannelFrame)
    (encodeCells : Fin DataPipeline.frameCapacity.val.toNat → WSServer.Delivery.SharedFrame) :
    Inv camera compress [] (init depth queueDepth cells encodeCells) where
  pipeline := DataPipeline.inv_init _ fun _ => ⟨rfl, rfl, SPSCQueue.setMaxDepth_le _ _⟩
  own := fun _ _ _ h => absurd h List.not_mem_nil
  taken := fun _ _ => List.Sublist.refl _
  published := fun _ => rfl
  server := WSServer.Delivery.inv_init depth queueDepth encodeCells
  sourced := WSServer.Delivery.sourced_init compress depth queueDepth encodeCells

omit [DecidableEq D] [Fintype D] in
theorem exclusive_of_pipeline (s : State D) (a : Action D)
    (h : ∀ b, DataPipeline.Exclusive s.pipeline b) : Exclusive s a := by
  cases a with
  | dealer d => exact h (.dealer d)
  | _ => trivial

/-- A reading is received, pushed, popped, published and sent to a client that has subscribed to
everything. -/
def oneReading : List (Action Unit) :=
  .receive () "sensor_data" [imuText 1700000000, [1, 2]] :: List.replicate 6 (.dealer ()) ++
    List.replicate 9 (.pub []) ++ .pub [4096] :: List.replicate 8 (.pub []) ++
    (WSServer.Delivery.serveImu (some ⟨0x1, [0x7B]⟩)).map .server

def noCompress (_ : Bytes) (_ _ : ℕ) : Option Bytes := none

def oneReadingInit : State Unit :=
  init 3 4 (fun _ _ => ⟨"", ⟨0, 0⟩, []⟩) fun _ => ⟨"", ⟨0, 0⟩, []⟩

end DataPath

end StereoCamera
