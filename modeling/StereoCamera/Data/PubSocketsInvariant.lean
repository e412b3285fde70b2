import Mathlib.Data.List.ReduceOption
import StereoCamera.Data.DataPathDelivery
import StereoCamera.Data.PubSockets

/-! On each socket there are whole messages, of frames that the queues have accepted, and of at
most one frame a part. -/

namespace StereoCamera

namespace DataPipeline
variable {D : Type} [DecidableEq D] {camera : D → String}
  {movedFrom : ChannelFrame → ChannelFrame} {s t : State D}

def Known (camera : D → String) (s : State D) : Prop :=
  ∀ g, ∀ frame ∈ (s.lanes g).accepted, ∃ d, frame.cameraId = camera d

omit [DecidableEq D] in
theorem Known.setLane (hs : Known camera s) {g : DataGroup}
    {l : SPSCQueue.State frameCapacity D ChannelFrame}
    (hl : ∀ frame ∈ l.accepted, ∃ d, frame.cameraId = camera d) :
    Known camera (setLane s g l) := by
  intro g' frame hframe
  unfold DataPipeline.setLane at hframe
  dsimp only at hframe
  by_cases hg : g' = g
  · subst hg
    rw [Function.update_self] at hframe
    exact hl frame hframe
  · rw [Function.update_of_ne hg] at hframe
    exact hs g' frame hframe

theorem Known.step (hs : Known camera s) (hown : OwnFrames camera s) {a : Action D}
    (h : step camera movedFrom s a = some t) : Known camera t := by
  cases a with
  | receive d g timestamp bundles =>
    simp only [DataPipeline.step] at h
    split at h
    · obtain ⟨l, hl, rfl⟩ := Option.map_eq_some_iff.mp h
      apply hs.setLane
      rw [(SPSCQueue.callTryPush_carries hl).1]
      exact hs g
    · cases h
  | dealer d =>
    simp only [DataPipeline.step, dealerStep] at h
    split at h
    · cases h
    · rename_i g _
      split at h
      · cases h
      · obtain ⟨l, hl, rfl⟩ := Option.map_eq_some_iff.mp h
        have hlane : Known camera (DataPipeline.setLane s g l) := by
          apply hs.setLane
          intro frame hframe
          rcases (SPSCQueue.producer_carries hl).1 with ⟨haccepted, -⟩ | ⟨haccepted, -⟩
          · rw [haccepted] at hframe
            exact hs g frame hframe
          · rw [haccepted] at hframe
            rcases List.mem_append.mp hframe with hframe | hframe
            · exact hs g frame hframe
            · exact ⟨d, hown d g frame hframe⟩
        split <;> exact hlane
    · cases h
      exact hs
    · cases h
      exact hs
  | pub =>
    intro g frame hframe
    rw [((pubStep_pops h).1.carries g).1] at hframe
    exact hs g frame hframe

end DataPipeline

namespace DataPath
open Transition
variable {D : Type} [DecidableEq D] {parse : Bytes → Except JsonException Json}
  {camera : D → String} {movedFrom : ChannelFrame → ChannelFrame}
  {encodeMovedFrom : WSServer.Delivery.SharedFrame → WSServer.Delivery.SharedFrame}
  {compress : Bytes → ℕ → ℕ → Option Bytes} {s t : State D} {a : Action D}

theorem step_handed [Fintype D] (hown : DataPipeline.OwnFrames camera s.pipeline)
    (hcamera : Function.Injective camera) (hpub : ∀ addresses, a ≠ .pub addresses)
    (h : step parse camera movedFrom encodeMovedFrom compress s a = some t) :
    t.pipeline.handed = s.pipeline.handed ∧ t.pipeline.pub = s.pipeline.pub := by
  cases a with
  | receive d grp zparts =>
    simp only [step, receive] at h
    split at h
    · split at h
      · obtain ⟨p, hp, rfl⟩ := Option.map_eq_some_iff.mp h
        exact (DataPipeline.receive_taken hp hown).2.2
      · cases h
        exact ⟨rfl, rfl⟩
    · cases h
  | commands buffer1 =>
    cases h
    exact ⟨rfl, rfl⟩
  | dealer d =>
    obtain ⟨p, hp, rfl⟩ := Option.map_eq_some_iff.mp h
    exact (DataPipeline.dealer_taken hcamera hown hp).2.2
  | pub addresses => exact absurd rfl (hpub addresses)
  | encoder address =>
    obtain ⟨server, -, rfl⟩ := Option.map_eq_some_iff.mp h
    exact ⟨rfl, rfl⟩
  | server b =>
    simp only [step, serverStep] at h
    split at h
    · cases h
    · cases h
    · cases h
    · obtain ⟨server, -, rfl⟩ := Option.map_eq_some_iff.mp h
      exact ⟨rfl, rfl⟩

theorem pubStep_cases {addresses : List UInt64}
    (h : pubStep movedFrom encodeMovedFrom s addresses = some t) :
    t.pipeline = s.pipeline ∧ t.inCallback = true ∧
        (∃ g frame, s.pipeline.pub = .handing g frame) ∨
      DataPipeline.pubStep movedFrom s.pipeline = some t.pipeline ∧ t.inCallback = false := by
  have hpop : ∀ s', popStep movedFrom s' = some t → s'.pipeline = s.pipeline →
      DataPipeline.pubStep movedFrom s.pipeline = some t.pipeline ∧ t.inCallback = false := by
    intro s' h hs'
    obtain ⟨p, hp, rfl⟩ := Option.map_eq_some_iff.mp h
    exact ⟨hs' ▸ hp, rfl⟩
  unfold pubStep at h
  split at h
  · rename_i g frame hpub
    split_ifs at h with hcall
    · split at h
      · exact .inr (hpop _ h rfl)
      · obtain ⟨f, -, rfl⟩ := Option.map_eq_some_iff.mp h
        exact .inl ⟨rfl, hcall, g, frame, hpub⟩
    · exact .inr (hpop _ h rfl)
    · obtain ⟨f, -, rfl⟩ := Option.map_eq_some_iff.mp h
      exact .inl ⟨rfl, rfl, g, frame, hpub⟩
  · exact .inr (hpop _ h rfl)

theorem mem_fromQueue {g : DataGroup} {frame : ChannelFrame}
    {frames : List (DataGroup × ChannelFrame)} :
    frame ∈ fromQueue g frames ↔ (g, frame) ∈ frames := by
  simp [fromQueue]

theorem mem_madeBy {d : D} {g : DataGroup} {frame : ChannelFrame}
    {log : List (D × DataGroup × ChannelFrame)} :
    frame ∈ madeBy d g log ↔ (d, g, frame) ∈ log := by
  simp [madeBy, fromQueue]

omit [DecidableEq D] in
theorem stamped_of_mem_made {p : D × DataGroup × ChannelFrame} (hp : p ∈ made parse camera s a) :
    ∀ b ∈ p.2.2.bundles, b.timestamp = p.2.2.timestamp := by
  unfold made at hp
  split at hp
  · split at hp
    · rename_i hres
      rw [List.mem_singleton.mp hp]
      exact (frame_dealerReceive hres).2
    · cases hp
  · cases hp

end DataPath

namespace PubSockets
open Multipart

def frameMessage (print : Json → Bytes) (p : DataGroup × ChannelFrame) : List Bytes :=
  bytes (p.2.cameraId ++ "/" ++ pubChannel p.1) ::
    print (DataPublisher.groupHeader (pubChannel p.1) p.2) :: p.2.bundles.map (·.payload)

/-- What goes out on a socket: the notice of `publish_shutdown`, or a frame. -/
def itemMessage (print : Json → Bytes) : Option (DataGroup × ChannelFrame) → List Bytes
  | none => [shutdownNotice]
  | some p => frameMessage print p

theorem itemMessage_ne_nil (print : Json → Bytes) (item : Option (DataGroup × ChannelFrame)) :
    itemMessage print item ≠ [] := by
  cases item <;> exact List.cons_ne_nil _ _

variable {D : Type}

def current (s : State D) : List (DataGroup × ChannelFrame) :=
  match s.path.pipeline.pub, s.sending with
  | .handing g frame, some [] => [(g, frame)]
  | _, _ => []

structure Unfinished (s : State D) (channel : String) (p : DataGroup × ChannelFrame)
    (rest : List (MessagePart Bytes)) : Prop where
  handing : s.path.pipeline.pub = .handing p.1 p.2
  sending : s.sending = some rest
  rest : rest ≠ []
  onChannel : pubChannel p.1 = channel

/-- The items went out on the socket of the channel, and the part of the frame that is being
published. -/
structure Wire (print : Json → Bytes) (s : State D) (channel : String)
    (items : List (Option (DataGroup × ChannelFrame))) : Prop where
  onChannel : ∀ p, some p ∈ items → pubChannel p.1 = channel ∧ p.2.bundles ≠ []
  frames : ∀ g, (DataPath.fromQueue g items.reduceOption).Sublist
    (s.path.pipeline.handed g ++ DataPath.fromQueue g (current s))
  finished : (∀ p rest, ¬Unfinished s channel p rest) →
    s.wire channel = (items.map (itemMessage print)).flatMap parts
  unfinished : ∀ p rest, Unfinished s channel p rest → p.2.bundles ≠ [] ∧
    Sent (s.wire channel) (items.map (itemMessage print)) (frameMessage print p) rest

theorem Wire.messages {print : Json → Bytes} {s : State D} {channel : String}
    {items : List (Option (DataGroup × ChannelFrame))} (h : Wire print s channel items) :
    messages (s.wire channel) = items.map (itemMessage print) := by
  have hne : ∀ m ∈ items.map (itemMessage print), m ≠ [] := by
    intro m hm
    obtain ⟨item, -, rfl⟩ := List.mem_map.mp hm
    exact itemMessage_ne_nil print item
  by_cases hunfinished : ∃ p rest, Unfinished s channel p rest
  · obtain ⟨p, rest, hp⟩ := hunfinished
    exact (h.unfinished p rest hp).2.messages hne hp.rest
  · rw [h.finished fun p rest hp => hunfinished ⟨p, rest, hp⟩]
    have hall : Multipart.messages ((items.map (itemMessage print)).flatMap parts ++ []) = _ :=
      messages_flatMap_parts hne (by simp)
    rwa [List.append_nil] at hall

variable {print : Json → Bytes} {s t : State D} {channel : String}
  {items : List (Option (DataGroup × ChannelFrame))}

theorem current_congr (hpub : t.path.pipeline.pub = s.path.pipeline.pub)
    (hsending : t.sending = s.sending) : current t = current s := by
  unfold current
  rw [hpub, hsending]

theorem current_of_not_handing (h : ∀ g frame, s.path.pipeline.pub ≠ .handing g frame) :
    current s = [] := by
  unfold current
  split
  · rename_i g frame hpub _
    exact absurd hpub (h g frame)
  · rfl

theorem current_of_sending {rest : List (MessagePart Bytes)} (hsending : s.sending = some rest)
    (hrest : rest ≠ []) : current s = [] := by
  unfold current
  split
  · rename_i hnil
    rw [hsending] at hnil
    exact absurd (Option.some.inj hnil) hrest
  · rfl

theorem current_of_none (hsending : s.sending = none) : current s = [] := by
  unfold current
  split
  · rename_i hsome
    rw [hsending] at hsome
    cases hsome
  · rfl

theorem not_unfinished_of_sending (h : s.sending = none ∨ s.sending = some [])
    (p : DataGroup × ChannelFrame) (rest : List (MessagePart Bytes)) :
    ¬Unfinished s channel p rest := by
  intro hp
  rcases h with h | h
  · exact absurd (h.symm.trans hp.sending) (by simp)
  · exact hp.rest (Option.some.inj (hp.sending.symm.trans h))

theorem Unfinished.eq {p : DataGroup × ChannelFrame} {rest : List (MessagePart Bytes)}
    (hp : Unfinished s channel p rest) {g : DataGroup} {frame : ChannelFrame}
    (hpub : s.path.pipeline.pub = .handing g frame) : p = (g, frame) := by
  obtain ⟨hg, hframe⟩ := DataPipeline.PubPc.handing.inj (hpub.symm.trans hp.handing)
  rw [hg, hframe]

theorem Wire.congr (h : Wire print s channel items)
    (hpub : t.path.pipeline.pub = s.path.pipeline.pub)
    (hhanded : t.path.pipeline.handed = s.path.pipeline.handed)
    (hsending : t.sending = s.sending) (hwire : t.wire channel = s.wire channel) :
    Wire print t channel items := by
  have hunfinished : ∀ p rest, Unfinished t channel p rest → Unfinished s channel p rest :=
    fun p rest hp => ⟨hpub ▸ hp.handing, hsending ▸ hp.sending, hp.rest, hp.onChannel⟩
  have hback : ∀ p rest, Unfinished s channel p rest → Unfinished t channel p rest :=
    fun p rest hp => ⟨hpub.symm ▸ hp.handing, hsending.symm ▸ hp.sending, hp.rest, hp.onChannel⟩
  refine ⟨h.onChannel, fun g => ?_, fun hnone => ?_, fun p rest hp => ?_⟩
  · rw [hhanded, current_congr hpub hsending]
    exact h.frames g
  · rw [hwire]
    exact h.finished fun p rest hp => hnone p rest (hback p rest hp)
  · rw [hwire]
    exact h.unfinished p rest (hunfinished p rest hp)

theorem Wire.handedOver (h : Wire print s channel items)
    (hnone : ∀ p rest, ¬Unfinished s channel p rest)
    (hhanded : ∀ g, t.path.pipeline.handed g =
      s.path.pipeline.handed g ++ DataPipeline.holding s.path.pipeline.pub g)
    (hsending : t.sending = none) (hwire : t.wire channel = s.wire channel) :
    Wire print t channel items := by
  refine ⟨h.onChannel, fun g => ?_, fun _ => ?_, fun p rest hp => ?_⟩
  · rw [current_of_none hsending, hhanded]
    refine (h.frames g).trans ?_
    show List.Sublist _ (_ ++ [])
    rw [List.append_nil]
    apply List.Sublist.append (List.Sublist.refl _)
    unfold current
    split
    · rename_i g' frame hpub _
      rw [DataPath.fromQueue_singleton, hpub]
      exact List.Sublist.refl _
    · exact List.nil_sublist _
  · rw [hwire]
    exact h.finished hnone
  · exact absurd hp (not_unfinished_of_sending (.inl hsending) p rest)

theorem not_unfinished_of_not_handing (h : ∀ g frame, s.path.pipeline.pub ≠ .handing g frame)
    (p : DataGroup × ChannelFrame) (rest : List (MessagePart Bytes)) :
    ¬Unfinished s channel p rest :=
  fun hp => h p.1 p.2 hp.handing

theorem Wire.nothing (h : Wire print s channel items) (hnone : s.sending = none)
    (ht : t = { s with sending := some [] }) : Wire print t channel items := by
  subst ht
  refine ⟨h.onChannel, fun g => ?_, fun _ => ?_, fun p rest hp => ?_⟩
  · refine (h.frames g).trans ?_
    rw [current_of_none hnone]
    exact (List.Sublist.refl _).append (List.nil_sublist _)
  · exact h.finished (not_unfinished_of_sending (.inl hnone))
  · exact absurd hp (not_unfinished_of_sending (.inr rfl) p rest)

theorem Wire.start (h : Wire print s channel items) (hnone : s.sending = none) {g : DataGroup}
    {frame : ChannelFrame} (hpub : s.path.pipeline.pub = .handing g frame)
    (hne : frame.bundles ≠ [])
    (ht : t = { s with sending := some (parts (frameMessage print (g, frame))) }) :
    Wire print t channel items := by
  subst ht
  have hfinished := h.finished (not_unfinished_of_sending (.inl hnone))
  refine ⟨h.onChannel, fun g' => ?_, fun _ => hfinished, fun p rest hp => ?_⟩
  · refine (h.frames g').trans ?_
    rw [current_of_none hnone]
    exact (List.Sublist.refl _).append (List.nil_sublist _)
  · have hp' : p = (g, frame) := hp.eq hpub
    have hrest := Option.some.inj hp.sending
    subst hp' hrest
    exact ⟨hne, Sent.start hfinished _⟩

theorem Wire.send (h : Wire print s channel items) {g : DataGroup} {frame : ChannelFrame}
    {part : MessagePart Bytes} {rest : List (MessagePart Bytes)}
    (hpub : s.path.pipeline.pub = .handing g frame) (hsending : s.sending = some (part :: rest))
    (ht : t = { send s (pubChannel g) part with sending := some rest }) :
    ∃ items, Wire print t channel items := by
  have hpub' : t.path.pipeline.pub = .handing g frame := by
    rw [ht]
    exact hpub
  have hsending' : t.sending = some rest := by rw [ht]
  have hhanded : t.path.pipeline.handed = s.path.pipeline.handed := by
    rw [ht]
    rfl
  have hcurrent : current s = [] := current_of_sending hsending (List.cons_ne_nil _ _)
  have hframes : ∀ g', (DataPath.fromQueue g' items.reduceOption).Sublist
      (t.path.pipeline.handed g') := by
    intro g'
    have hbefore := h.frames g'
    rw [hcurrent] at hbefore
    rw [hhanded]
    simpa [DataPath.fromQueue] using hbefore
  by_cases hchannel : pubChannel g = channel
  · have hself : Unfinished s channel (g, frame) (part :: rest) :=
      ⟨hpub, hsending, List.cons_ne_nil _ _, hchannel⟩
    obtain ⟨hne, hsent⟩ := h.unfinished _ _ hself
    have hwire : t.wire channel = s.wire channel ++ [part] := by
      rw [ht]
      show Function.update s.wire (pubChannel g) _ channel = _
      rw [hchannel, Function.update_self]
    have hsent' := hsent.send
    rw [← hwire] at hsent'
    by_cases hrest : rest = []
    · subst hrest
      refine ⟨items ++ [some (g, frame)], ?_, fun g' => ?_, fun _ => ?_, fun p rest hp => ?_⟩
      · intro p hp
        rcases List.mem_append.mp hp with hp | hp
        · exact h.onChannel p hp
        · obtain rfl := Option.some.inj (List.mem_singleton.mp hp)
          exact ⟨hchannel, hne⟩
      · rw [List.reduceOption_append, DataPath.fromQueue_append]
        refine (hframes g').append ?_
        unfold current
        rw [hpub', hsending']
        exact List.Sublist.refl _
      · rw [hsent'.finish, List.map_append]
        rfl
      · exact absurd hp (not_unfinished_of_sending (.inr hsending') p rest)
    · refine ⟨items, h.onChannel, fun g' => ?_, fun hnone => ?_, fun p rest' hp => ?_⟩
      · exact (hframes g').trans (List.sublist_append_left _ _)
      · exact absurd ⟨hpub', hsending', hrest, hchannel⟩ (hnone (g, frame) rest)
      · have hp' : p = (g, frame) := hp.eq hpub'
        have hrest' := Option.some.inj (hsending'.symm.trans hp.sending)
        subst hp' hrest'
        exact ⟨hne, hsent'⟩
  · have hwire : t.wire channel = s.wire channel := by
      rw [ht]
      exact Function.update_of_ne (Ne.symm hchannel) _ _
    -- The frame is published on another channel.
    have hother : ∀ u : State D, u.path.pipeline.pub = .handing g frame →
        ∀ p rest, ¬Unfinished u channel p rest := by
      intro u hu p rest' hp
      have hon := hp.onChannel
      rw [hp.eq hu] at hon
      exact hchannel hon
    refine ⟨items, h.onChannel, fun g' => ?_, fun _ => ?_, fun p rest' hp => ?_⟩
    · exact (hframes g').trans (List.sublist_append_left _ _)
    · rw [hwire]
      exact h.finished (hother s hpub)
    · exact absurd hp (hother t hpub' p rest')

theorem Wire.notice (h : Wire print s channel items)
    (hwaiting : s.path.pipeline.pub = .waiting) {channel' : String}
    (hpipeline : t.path.pipeline = s.path.pipeline)
    (hwire : t.wire = (PubSockets.send s channel' ⟨shutdownNotice, false⟩).wire) :
    ∃ items, Wire print t channel items := by
  have hnone : ∀ u : State D, u.path.pipeline.pub = .waiting →
      ∀ g frame, u.path.pipeline.pub ≠ .handing g frame := by
    intro u hu g frame hpub
    rw [hu] at hpub
    cases hpub
  have hwaiting' : t.path.pipeline.pub = .waiting := by rw [hpipeline, hwaiting]
  have hframes : ∀ g, (DataPath.fromQueue g items.reduceOption).Sublist
      (t.path.pipeline.handed g ++ DataPath.fromQueue g (current t)) := by
    intro g
    have hbefore := h.frames g
    rw [current_of_not_handing (hnone s hwaiting)] at hbefore
    rw [current_of_not_handing (hnone t hwaiting'), hpipeline]
    exact hbefore
  have hbefore := h.finished (not_unfinished_of_not_handing (hnone s hwaiting))
  have hafter : ∀ p rest, ¬Unfinished t channel p rest :=
    not_unfinished_of_not_handing (hnone t hwaiting')
  by_cases hchannel : channel' = channel
  · refine ⟨items ++ [none], ?_, fun g => ?_, fun _ => ?_, fun p rest hp => ?_⟩
    · intro p hp
      rcases List.mem_append.mp hp with hp | hp
      · exact h.onChannel p hp
      · cases List.mem_singleton.mp hp
    · rw [List.reduceOption_append]
      simpa using hframes g
    · rw [hwire]
      show Function.update s.wire channel' _ channel = _
      rw [hchannel, Function.update_self, hbefore, List.map_append, List.flatMap_append]
      rfl
    · exact absurd hp (hafter p rest)
  · refine ⟨items, h.onChannel, hframes, fun _ => ?_, fun p rest hp => ?_⟩
    · rw [hwire]
      show Function.update s.wire channel' _ channel = _
      rw [Function.update_of_ne (Ne.symm hchannel), hbefore]
    · exact absurd hp (hafter p rest)

theorem Receives.exists_items {items : String → List (Option (DataGroup × ChannelFrame))}
    (hitems : ∀ channel, Wire print s channel (items channel))
    {received : List (String × List Bytes)} (h : Receives s received) :
    ∃ xs : List (String × Option (DataGroup × ChannelFrame)),
      received = xs.map (fun x => (x.1, itemMessage print x.2)) ∧
      ∀ channel, (ofKey channel xs).Sublist (items channel) := by
  have htaken : ∀ channel, ∃ taken : List (Option (DataGroup × ChannelFrame)),
      taken.Sublist (items channel) ∧ ofKey channel received = taken.map (itemMessage print) := by
    intro channel
    have hsub := h channel
    rw [(hitems channel).messages] at hsub
    exact List.sublist_map_iff.mp hsub
  choose taken hsublist hover using htaken
  obtain ⟨xs, hreceived, hxs⟩ := exists_of_ofKey (itemMessage print) hover
  refine ⟨xs, hreceived, fun channel => ?_⟩
  rw [hxs]
  exact hsublist channel

/-! ## The run -/

def CallerPc.Holds : CallerPc → Prop
  | .announcing _ | .closing => True
  | _ => False

structure Inv [DecidableEq D] [Fintype D] (print : Json → Bytes) (camera : D → String)
    (compress : Bytes → ℕ → ℕ → Option Bytes) (log : List (D × DataGroup × ChannelFrame))
    (s : State D) : Prop where
  path : DataPath.Inv camera compress log s.path
  known : DataPipeline.Known camera s.path.pipeline
  stamped : ∀ p ∈ log, ∀ b ∈ p.2.2.bundles, b.timestamp = p.2.2.timestamp
  waiting : s.loop ≠ .holding → s.path.pipeline.pub = .waiting
  loop : s.loop = .holding → s.mutex = some .pub
  caller : s.caller.Holds → s.mutex = some .caller
  wire : ∀ channel, ∃ items, Wire print s channel items

variable [DecidableEq D] [Fintype D] {parse : Bytes → Except JsonException Json}
  {camera : D → String} {movedFrom : ChannelFrame → ChannelFrame}
  {encodeMovedFrom : WSServer.Delivery.SharedFrame → WSServer.Delivery.SharedFrame}
  {compress : Bytes → ℕ → ℕ → Option Bytes} {log : List (D × DataGroup × ChannelFrame)}
  {a : Action D}

theorem Inv.known_step {path : DataPath.State D} (hs : Inv print camera compress log s)
    {b : DataPath.Action D}
    (h : DataPath.step parse camera movedFrom encodeMovedFrom compress s.path b = some path) :
    DataPipeline.Known camera path.pipeline := by
  rcases DataPath.step_pipeline h with heq | ⟨c, hc, -⟩
  · rw [heq]
    exact hs.known
  · exact hs.known.step hs.path.own hc

theorem Inv.path_step (hcamera : Function.Injective camera) (hs : Inv print camera compress log s)
    {b : DataPath.Action D} (hpub : ∀ addresses, b ≠ .pub addresses)
    (hx : DataPath.Exclusive s.path b) {path : DataPath.State D}
    (h : DataPath.step parse camera movedFrom encodeMovedFrom compress s.path b = some path)
    (hlt : DataPipeline.totalAccepted path.pipeline < 2 ^ 64) :
    Inv print camera compress (log ++ DataPath.made parse camera s.path b)
      { s with path := path } := by
  obtain ⟨hhanded, hpc⟩ := DataPath.step_handed hs.path.own hcamera hpub h
  refine ⟨hs.path.step hcamera hx h hlt, hs.known_step h, fun p hp => ?_, fun hne => ?_, hs.loop,
    hs.caller, fun channel => ?_⟩
  · rcases List.mem_append.mp hp with hp | hp
    · exact hs.stamped p hp
    · exact DataPath.stamped_of_mem_made hp
  · exact hpc.trans (hs.waiting hne)
  · obtain ⟨items, hitems⟩ := hs.wire channel
    exact ⟨items, hitems.congr hpc hhanded rfl rfl⟩

omit [Fintype D] in
theorem popStep_cases {addresses : List UInt64}
    (h : popStep movedFrom encodeMovedFrom s addresses = some t) :
    DataPath.pubStep movedFrom encodeMovedFrom s.path addresses = some t.path ∧
      t.sending = (if t.path.inCallback then s.sending else none) ∧ t.wire = s.wire ∧
      t.caller = s.caller ∧
      (t.path.pipeline.pub = .waiting ∧ t.mutex = none ∧ t.loop = .waiting ∨
        t.mutex = some .pub ∧ t.loop = .holding) := by
  obtain ⟨path, hpath, rfl⟩ := Option.map_eq_some_iff.mp h
  dsimp only
  split
  · rename_i hwaiting
    exact ⟨hpath, rfl, rfl, rfl, .inl ⟨hwaiting, rfl, rfl⟩⟩
  · exact ⟨hpath, rfl, rfl, rfl, .inr ⟨rfl, rfl⟩⟩

theorem Inv.popStep (parse : Bytes → Except JsonException Json)
    (hcamera : Function.Injective camera) (hs : Inv print camera compress log s)
    (hnone : ∀ channel p rest, ¬Unfinished s channel p rest)
    (hcaller : ¬s.caller.Holds) {addresses : List UInt64}
    (h : popStep movedFrom encodeMovedFrom s addresses = some t)
    (hlt : DataPipeline.totalAccepted t.path.pipeline < 2 ^ 64) :
    Inv print camera compress log t := by
  obtain ⟨hpath, hsending, hwire, hcallerPc, hmutex⟩ := popStep_cases h
  have hstep : DataPath.step parse camera movedFrom encodeMovedFrom compress s.path
      (.pub addresses) = some t.path := hpath
  have hexclusive : DataPath.Exclusive s.path (.pub addresses) := trivial
  have hnew : DataPath.Inv camera compress (log ++ []) t.path :=
    hs.path.step hcamera hexclusive hstep hlt
  rw [List.append_nil] at hnew
  refine ⟨hnew, hs.known_step hstep, hs.stamped, fun hne => ?_, fun hloop => ?_, fun hholds => ?_,
    fun channel => ?_⟩
  · rcases hmutex with ⟨hwaiting, -, -⟩ | ⟨-, hloop⟩
    · exact hwaiting
    · exact absurd hloop hne
  · rcases hmutex with ⟨-, -, hwaiting⟩ | ⟨hpub, -⟩
    · rw [hwaiting] at hloop
      cases hloop
    · exact hpub
  · rw [hcallerPc] at hholds
    exact absurd hholds hcaller
  · obtain ⟨items, hitems⟩ := hs.wire channel
    rcases DataPath.pubStep_cases hpath with ⟨hsame, hcall, -⟩ | ⟨hpop, hcall⟩
    · rw [hcall, if_pos rfl] at hsending
      exact ⟨items, hitems.congr (by rw [hsame]) (by rw [hsame]) hsending (by rw [hwire])⟩
    · have hoff : ¬t.path.inCallback = true := by simp [hcall]
      rw [if_neg hoff] at hsending
      exact ⟨items, hitems.handedOver (hnone channel) (DataPipeline.pubStep_pops hpop).2 hsending
        (by rw [hwire])⟩

theorem Inv.of_path (hs : Inv print camera compress log s) (hpath : t.path = s.path)
    (hsending : t.sending = s.sending) (hwire : t.wire = s.wire)
    (hwaiting : t.loop ≠ .holding → s.path.pipeline.pub = .waiting)
    (hloop : t.loop = .holding → t.mutex = some .pub)
    (hcaller : t.caller.Holds → t.mutex = some .caller) : Inv print camera compress log t := by
  refine ⟨hpath ▸ hs.path, hpath ▸ hs.known, hs.stamped, fun hne => ?_, hloop, hcaller,
    fun channel => ?_⟩
  · rw [hpath]
    exact hwaiting hne
  · obtain ⟨items, hitems⟩ := hs.wire channel
    exact ⟨items, hitems.congr (by rw [hpath]) (by rw [hpath]) hsending (by rw [hwire])⟩

theorem Inv.pubStep (parse : Bytes → Except JsonException Json)
    (hcamera : Function.Injective camera) (hs : Inv print camera compress log s)
    {addresses : List UInt64}
    (h : pubStep print movedFrom encodeMovedFrom s addresses = some t)
    (hlt : DataPipeline.totalAccepted t.path.pipeline < 2 ^ 64) :
    Inv print camera compress log t := by
  unfold PubSockets.pubStep at h
  split at h
  · rename_i hpc
    cases h
    refine hs.of_path rfl rfl rfl (fun _ => hs.waiting ?_) (fun hloop => ?_) hs.caller
    · rw [hpc]
      decide
    · dsimp only at hloop
      split_ifs at hloop
  · rename_i hpc
    have hne : s.loop ≠ .holding := by
      rw [hpc]
      decide
    split_ifs at h with hfree
    refine hs.popStep parse hcamera (fun channel p rest hp => ?_) (fun hholds => ?_) h hlt
    · exact absurd ((hs.waiting hne).symm.trans hp.handing) (by simp)
    · exact absurd (hfree.symm.trans (hs.caller hholds)) (by simp)
  · rename_i hpc
    have hcaller : ¬s.caller.Holds := by
      intro hholds
      exact absurd ((hs.loop hpc).symm.trans (hs.caller hholds)) (by simp)
    have hkeep : ∀ u : State D, u.path = s.path → u.loop = s.loop → u.mutex = s.mutex →
        u.caller = s.caller → (∀ channel, ∃ items, Wire print u channel items) →
        Inv print camera compress log u := by
      intro u hpath hloop hmutex hcallerPc hwire
      refine ⟨hpath ▸ hs.path, hpath ▸ hs.known, hs.stamped, fun hne => ?_, fun _ => ?_,
        fun hholds => ?_, hwire⟩
      · exact absurd (hloop.trans hpc) hne
      · rw [hmutex]
        exact hs.loop hpc
      · rw [hcallerPc] at hholds
        exact absurd hholds hcaller
    split at h
    · rename_i g frame hpub hsending
      unfold publishGroup at h
      split_ifs at h with hsocket
      · by_cases hnil : frame.bundles = []
        · have hout : DataPublisher.publishGroup print (pubChannel g) frame = .ok [] := by
            unfold DataPublisher.publishGroup
            rw [if_pos hnil]
            rfl
          rw [hout] at h
          cases h
          refine hkeep _ rfl rfl rfl rfl fun channel => ?_
          obtain ⟨items, hitems⟩ := hs.wire channel
          exact ⟨items, hitems.nothing hsending rfl⟩
        · rw [DataPublisher.publishGroup_eq print (pubChannel g) hnil] at h
          cases h
          refine hkeep _ rfl rfl rfl rfl fun channel => ?_
          obtain ⟨items, hitems⟩ := hs.wire channel
          exact ⟨items, hitems.start hsending hpub hnil rfl⟩
      · cases h
        refine hkeep _ rfl rfl rfl rfl fun channel => ?_
        obtain ⟨items, hitems⟩ := hs.wire channel
        exact ⟨items, hitems.nothing hsending rfl⟩
    · rename_i g frame part rest hpub hsending
      cases h
      refine hkeep _ rfl rfl rfl rfl fun channel => ?_
      obtain ⟨items, hitems⟩ := hs.wire channel
      exact hitems.send hpub hsending rfl
    · rename_i hnone hsome
      refine hs.popStep parse hcamera (fun channel p rest hp => ?_) hcaller h hlt
      obtain ⟨part, rest, rfl⟩ := List.exists_cons_of_ne_nil hp.rest
      exact hsome _ _ _ _ hp.handing hp.sending
  · cases h

theorem Inv.callerStep (hs : Inv print camera compress log s) (h : callerStep s = some t) :
    Inv print camera compress log t := by
  have hfree : s.mutex = none → s.loop ≠ .holding := by
    intro hnone hloop
    exact absurd (hnone.symm.trans (hs.loop hloop)) (by simp)
  have hout : s.caller.Holds → s.loop ≠ .holding := by
    intro hholds hloop
    exact absurd ((hs.caller hholds).symm.trans (hs.loop hloop)) (by simp)
  unfold PubSockets.callerStep at h
  split at h
  · cases h
  · split_ifs at h with hnone
    cases h
    exact hs.of_path rfl rfl rfl hs.waiting (fun hloop => absurd hloop (hfree hnone))
      fun _ => rfl
  · rename_i channel' sockets hpc
    cases h
    have hholds : s.caller.Holds := hpc ▸ trivial
    have hwaiting := hs.waiting (hout hholds)
    refine ⟨hs.path, hs.known, hs.stamped, fun _ => hwaiting, hs.loop,
      fun _ => hs.caller hholds, fun channel => ?_⟩
    obtain ⟨items, hitems⟩ := hs.wire channel
    exact hitems.notice hwaiting rfl rfl
  · rename_i hpc
    cases h
    have hholds : s.caller.Holds := hpc ▸ trivial
    exact hs.of_path rfl rfl rfl hs.waiting (fun hloop => absurd hloop (hout hholds)) False.elim
  · split_ifs at h
    cases h
    exact hs.of_path rfl rfl rfl hs.waiting hs.loop False.elim
  · split_ifs at h with hnone
    cases h
    exact hs.of_path rfl rfl rfl hs.waiting (fun hloop => absurd hloop (hfree hnone))
      fun _ => rfl
  · rename_i hpc
    cases h
    have hholds : s.caller.Holds := hpc ▸ trivial
    exact hs.of_path rfl rfl rfl hs.waiting (fun hloop => absurd hloop (hout hholds)) False.elim

omit [Fintype D] in
theorem path_cases {b : DataPath.Action D}
    (h : step print parse camera movedFrom encodeMovedFrom compress s (.path b) = some t) :
    (∀ addresses, b ≠ .pub addresses) ∧
      ∃ path, DataPath.step parse camera movedFrom encodeMovedFrom compress s.path b = some path ∧
        t = { s with path := path } := by
  unfold step at h
  split at h
  · cases h
  · rename_i c hpub heq
    obtain rfl := Action.path.inj heq
    obtain ⟨path, hpath, rfl⟩ := Option.map_eq_some_iff.mp h
    refine ⟨fun addresses hb => hpub addresses ?_, path, hpath, rfl⟩
    rw [hb]
  all_goals rename_i heq; cases heq

theorem Inv.step (hcamera : Function.Injective camera) (hs : Inv print camera compress log s)
    (hx : Exclusive s a)
    (h : step print parse camera movedFrom encodeMovedFrom compress s a = some t)
    (hlt : DataPipeline.totalAccepted t.path.pipeline < 2 ^ 64) :
    Inv print camera compress (log ++ made parse camera s a) t := by
  have hsame : Inv print camera compress log t → Inv print camera compress (log ++ []) t := by
    rw [List.append_nil]
    exact id
  cases a with
  | path b =>
    obtain ⟨hpub, path, hpath, rfl⟩ := path_cases h
    exact hs.path_step hcamera hpub hx hpath hlt
  | pub addresses => exact hsame (hs.pubStep parse hcamera h hlt)
  | publishShutdown =>
    simp only [PubSockets.step] at h
    split at h
    · cases h
      exact hsame (hs.of_path rfl rfl rfl hs.waiting hs.loop False.elim)
    · cases h
  | stop =>
    simp only [PubSockets.step] at h
    split at h
    · cases h
      exact hsame (hs.of_path rfl rfl rfl hs.waiting hs.loop False.elim)
    · cases h
  | caller => exact hsame (hs.callerStep h)

omit [Fintype D] in
theorem step_path (h : step print parse camera movedFrom encodeMovedFrom compress s a = some t) :
    t.path = s.path ∨
      ∃ b, DataPath.step parse camera movedFrom encodeMovedFrom compress s.path b =
        some t.path := by
  have hpop : ∀ addresses, popStep movedFrom encodeMovedFrom s addresses = some t →
      ∃ b, DataPath.step parse camera movedFrom encodeMovedFrom compress s.path b =
        some t.path :=
    fun addresses hu => ⟨.pub addresses, (popStep_cases hu).1⟩
  cases a with
  | path b =>
    obtain ⟨-, path, hpath, rfl⟩ := path_cases h
    exact .inr ⟨b, hpath⟩
  | pub addresses =>
    simp only [step, pubStep] at h
    split at h
    · cases h
      exact .inl rfl
    · split_ifs at h
      exact .inr (hpop addresses h)
    · split at h
      · unfold publishGroup at h
        split_ifs at h
        · split at h <;> cases h
          exact .inl rfl
        · cases h
          exact .inl rfl
      · cases h
        exact .inl rfl
      · exact .inr (hpop addresses h)
    · cases h
  | publishShutdown =>
    simp only [step] at h
    split at h <;> cases h
    exact .inl rfl
  | stop =>
    simp only [step] at h
    split at h <;> cases h
    exact .inl rfl
  | caller =>
    simp only [step, callerStep] at h
    split at h <;> (try split_ifs at h) <;> cases h <;> exact .inl rfl

omit [Fintype D] in
theorem step_pipeline
    (h : step print parse camera movedFrom encodeMovedFrom compress s a = some t) :
    t.path.pipeline = s.path.pipeline ∨
      ∃ b, DataPipeline.step camera movedFrom s.path.pipeline b = some t.path.pipeline := by
  rcases step_path h with heq | ⟨b, hb⟩
  · exact .inl (congrArg _ heq)
  · exact (DataPath.step_pipeline hb).imp_right fun ⟨c, hc, _⟩ => ⟨c, hc⟩

omit [Fintype D] in
theorem totalAccepted_le
    (h : step print parse camera movedFrom encodeMovedFrom compress s a = some t) :
    DataPipeline.totalAccepted s.path.pipeline ≤ DataPipeline.totalAccepted t.path.pipeline := by
  rcases step_pipeline h with heq | ⟨b, hb⟩
  · rw [heq]
  · exact DataPipeline.totalAccepted_le_step hb

theorem inv_init (print : Json → Bytes) (camera : D → String) {path : DataPath.State D}
    (hpath : DataPath.Inv camera compress [] path) (hwaiting : path.pipeline.pub = .waiting)
    (haccepted : ∀ g, (path.pipeline.lanes g).accepted = []) (sockets : List String) :
    Inv print camera compress [] (init path sockets) := by
  have hnone : ∀ g frame, (init path sockets).path.pipeline.pub ≠ .handing g frame := by
    intro g frame hpub
    exact absurd (hwaiting.symm.trans hpub) (by simp)
  refine ⟨hpath, fun g frame hframe => ?_, fun p hp => absurd hp List.not_mem_nil,
    fun _ => hwaiting, fun hloop => LoopPc.noConfusion hloop, False.elim,
    fun channel => ⟨[], ?_⟩⟩
  · have hmem : frame ∈ ([] : List ChannelFrame) := haccepted g ▸ hframe
    cases hmem
  · exact ⟨fun p hp => absurd hp List.not_mem_nil, fun g => List.nil_sublist _, fun _ => rfl,
      fun p rest hp => absurd hp (not_unfinished_of_not_handing hnone p rest)⟩

end PubSockets

end StereoCamera
