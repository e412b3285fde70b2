import StereoCamera.Data.WSServerFeed

/-! A client is sent the bundles of a slot in the order in which they were pushed, and none of
them twice: the filter lets through only what is newer than all that is on its way. -/

namespace StereoCamera.WSServer.Delivery
open Transition

def SharedBundle.UpTo (b b' : SharedBundle) : Prop := b = b' ∨ b.order < b'.order

/-- What is found in the slot from now on is `b` or newer. -/
def Feed.Ahead (f : Feed) (slot : BufferSlotKey) (b : SharedBundle) : Prop :=
  f.Past slot b.order ∧ ∀ b', f.fetch slot = some b' → b.UpTo b'

theorem Feed.Inv.ahead {f : Feed} (hf : f.Inv) {slot : BufferSlotKey} {b : SharedBundle}
    (hb : f.fetch slot = some b) : f.Ahead slot b := by
  refine ⟨(hf.fetched slot b hb).2, fun b' hb' => .inl ?_⟩
  exact Option.some.inj (hb.symm.trans hb')

theorem Feed.Ahead.advance {f g : Feed} (h : f.Advances g) {slot : BufferSlotKey}
    {b : SharedBundle} (hb : f.Ahead slot b) : g.Ahead slot b := by
  refine ⟨h.past hb.1, fun b' hb' => ?_⟩
  rcases h.fetched slot b' hb' with hold | ⟨-, -, hfresh⟩
  · exact hb.2 b' hold
  · exact .inr (hfresh b.order hb.1)

namespace WSSClient

/-- The one digit of the type ends the key, so different slots have different keys. -/
theorem dedupKey_injective : Function.Injective dedupKey := by
  rintro ⟨cameraId, type⟩ ⟨cameraId', type'⟩ h
  have hlen : ∀ t : DataType, (toString t.toNat).toList.length = 1 := by
    intro t
    cases t <;> rfl
  have hlist := congrArg String.toList h
  unfold dedupKey at hlist
  dsimp only at hlist
  rw [String.toList_append, String.toList_append, String.toList_append, String.toList_append,
    List.append_assoc, List.append_assoc] at hlist
  obtain ⟨hcamera, hdigit⟩ := List.append_inj' hlist (by
    rw [List.length_append, List.length_append, hlen, hlen])
  have hdigit := String.toList_injective (List.append_cancel_left hdigit)
  have htype : type = type' := by
    cases type <;> cases type' <;> first | rfl | exact absurd hdigit (by decide)
  rw [String.toList_injective hcamera, htype]

end WSSClient

def ordersOf (slot : BufferSlotKey) (items : List SendItem) : List ℕ :=
  (items.filter fun item => item.bundle.slot = slot).map (·.bundle.order)

theorem mem_ordersOf {item : SendItem} {items : List SendItem} (h : item ∈ items) :
    item.bundle.order ∈ ordersOf item.bundle.slot items := by
  apply List.mem_map_of_mem
  exact List.mem_filter.mpr ⟨h, decide_eq_true rfl⟩

theorem ordersOf_append (slot : BufferSlotKey) (items items' : List SendItem) :
    ordersOf slot (items ++ items') = ordersOf slot items ++ ordersOf slot items' := by
  unfold ordersOf
  rw [List.filter_append, List.map_append]

theorem ordersOf_sublist (slot : BufferSlotKey) {items items' : List SendItem}
    (h : items.Sublist items') : (ordersOf slot items).Sublist (ordersOf slot items') :=
  (h.filter _).map _

def WSSClient.stream (c : WSSClient) : List SendItem := c.sent ++ (c.sender.toList ++ c.sendQueue)

def LoopPc.bundles : LoopPc → List SharedBundle
  | .fetched _ b _ => [b]
  | _ => []

theorem LoopPc.ne_fetched {loop : LoopPc} (h : loop.bundles = []) (slot : BufferSlotKey)
    (b : SharedBundle) (slots : List BufferSlotKey) : loop ≠ .fetched slot b slots := by
  rintro rfl
  exact absurd h (List.cons_ne_nil _ _)

def Action.isClients : Action → Bool
  | .readFrame _ | .leave | .look _ | .visit | .send => true
  | _ => false

inductive ClientStep (f : Feed) (c : WSSClient) : WSSClient → Action → Prop
  | move {a : Action} (subs : Finset Bytes) (loop : LoopPc)
      (hloop : ∀ slot b slots, c.loop ≠ .fetched slot b slots)
      (hmoved : ∀ slot b slots, loop ≠ .fetched slot b slots) :
      ClientStep f c { c with subscriptions := subs, loop := loop } a
  | find (slot : BufferSlotKey) (b : SharedBundle) (slots : List BufferSlotKey)
      (hloop : c.loop = .visiting (slot :: slots)) (hsubscribed : c.isSubscribed slot)
      (hfetch : f.fetch slot = some b) :
      ClientStep f c { c with loop := .fetched slot b slots } .visit
  | enqueue (slot : BufferSlotKey) (b : SharedBundle) (slots : List BufferSlotKey)
      (hloop : c.loop = .fetched slot b slots) :
      ClientStep f c { c.enqueue slot b with loop := .visiting slots } .visit
  | take (item : SendItem) (queue : List SendItem) (hsender : c.sender = none)
      (hqueue : c.sendQueue = item :: queue) :
      ClientStep f c { c with sendQueue := queue, sender := some item } .send
  | send (item : SendItem) (hsender : c.sender = some item) :
      ClientStep f c { c with sender := none, sent := c.sent ++ [item] } .send

section
variable {parse : Bytes → Except JsonException Json} {movedFrom : SharedFrame → SharedFrame}
  {s t : State} {a : Action} {f : Feed} {c c' : WSSClient}

theorem clientStep_readFrame (hloop : c.loop = .reading) (frame : Option Frame) :
    ClientStep f c (c.readFrame parse frame) a := by
  have hreading := LoopPc.ne_fetched (congrArg LoopPc.bundles hloop)
  unfold WSSClient.readFrame
  split
  · exact .move _ _ hreading (LoopPc.ne_fetched rfl)
  · split_ifs
    · exact .move _ _ hreading (LoopPc.ne_fetched rfl)
    · exact .move _ _ hreading (LoopPc.ne_fetched rfl)
    · exact .move _ _ hreading (LoopPc.ne_fetched rfl)

theorem clientStep_visit (hc : c.visit f = some c') : ClientStep f c c' .visit := by
  unfold WSSClient.visit at hc
  split at hc
  · rename_i hloop
    cases hc
    exact .move _ _ (LoopPc.ne_fetched (congrArg LoopPc.bundles hloop)) (LoopPc.ne_fetched rfl)
  · rename_i slot slots hloop
    have hvisiting := LoopPc.ne_fetched (congrArg LoopPc.bundles hloop)
    split_ifs at hc with hsubscribed
    · split at hc
      · rename_i b hfetch
        split_ifs at hc
        · cases hc
          exact .move _ _ hvisiting (LoopPc.ne_fetched rfl)
        · cases hc
          exact .find slot b slots hloop hsubscribed hfetch
      · cases hc
        exact .move _ _ hvisiting (LoopPc.ne_fetched rfl)
    · cases hc
      exact .move _ _ hvisiting (LoopPc.ne_fetched rfl)
  · rename_i slot b slots hloop
    cases hc
    exact .enqueue slot b slots hloop
  · cases hc

theorem clientStep_sendLoop (hc : c.sendLoop = some c') : ClientStep f c c' .send := by
  unfold WSSClient.sendLoop at hc
  split at hc
  · rename_i item hsender
    cases hc
    exact .send item hsender
  · rename_i hsender
    split at hc
    · cases hc
    · rename_i item queue hqueue
      cases hc
      exact .take item queue hsender hqueue

theorem clientStep (h : step parse movedFrom s a = some t) (ha : a.isClients = true) :
    ∃ c, t = s.setClient c ∧ ClientStep s.feed s.client c a := by
  cases a with
  | readFrame frame =>
    simp only [step] at h
    split at h
    · rename_i hloop
      cases h
      exact ⟨_, rfl, clientStep_readFrame hloop frame⟩
    · cases h
  | leave =>
    simp only [step] at h
    split at h
    · rename_i hloop
      have hreading := LoopPc.ne_fetched (congrArg LoopPc.bundles hloop)
      cases h
      exact ⟨_, rfl, .move _ _ hreading (LoopPc.ne_fetched rfl)⟩
    · cases h
  | look slots =>
    simp only [step] at h
    split at h
    · rename_i hloop
      have hlooking := LoopPc.ne_fetched (congrArg LoopPc.bundles hloop)
      split_ifs at h
      · cases h
        exact ⟨_, rfl, .move _ _ hlooking (LoopPc.ne_fetched rfl)⟩
      · cases h
        exact ⟨_, rfl, .move _ _ hlooking (LoopPc.ne_fetched rfl)⟩
    · cases h
  | visit =>
    obtain ⟨c, hc, rfl⟩ := Option.map_eq_some_iff.mp h
    exact ⟨c, rfl, clientStep_visit hc⟩
  | send =>
    obtain ⟨c, hc, rfl⟩ := Option.map_eq_some_iff.mp h
    exact ⟨c, rfl, clientStep_sendLoop hc⟩
  | _ => exact absurd ha Bool.false_ne_true

theorem client_of_step (h : step parse movedFrom s a = some t) (ha : a.isClients = false) :
    t.client = s.client := by
  cases a with
  | publish cameraId timestamp bundles =>
    obtain ⟨f, -, rfl⟩ := Option.map_eq_some_iff.mp h
    rfl
  | publisher =>
    obtain ⟨f, -, rfl⟩ := Option.map_eq_some_iff.mp h
    rfl
  | clear =>
    cases h
    rfl
  | encoder address compress =>
    obtain ⟨f, -, rfl⟩ := Option.map_eq_some_iff.mp h
    rfl
  | _ => exact absurd ha.symm Bool.false_ne_true

theorem feed_of_step (h : step parse movedFrom s a = some t) (ha : a.isClients = true) :
    t.feed = s.feed := by
  obtain ⟨c, rfl, -⟩ := clientStep h ha
  rfl

end

structure ClientInv (last : BufferSlotKey → Option SharedBundle) (f : Feed) (c : WSSClient) :
    Prop where
  lastSent : ∀ slot b, last slot = some b → c.lastSent (WSSClient.dedupKey slot) = b.address
  ahead : ∀ slot b, last slot = some b → f.Ahead slot b
  fetched : ∀ slot b slots, c.loop = .fetched slot b slots →
    b.slot = slot ∧ f.Ahead slot b ∧ ∀ b', last slot = some b' → b'.UpTo b
  increasing : ∀ slot, (ordersOf slot c.stream).Pairwise (· < ·)
  newest : ∀ slot, ∀ n ∈ ordersOf slot c.stream, ∃ b, last slot = some b ∧ n ≤ b.order

namespace ClientInv
variable {last : BufferSlotKey → Option SharedBundle} {f g : Feed} {c c' : WSSClient}

theorem init (f : Feed) : ClientInv (fun _ => none) f .init where
  lastSent := fun _ _ h => absurd h (Option.some_ne_none _).symm
  ahead := fun _ _ h => absurd h (Option.some_ne_none _).symm
  fetched := fun _ _ _ h => LoopPc.noConfusion h
  increasing := fun _ => List.Pairwise.nil
  newest := fun _ _ h => absurd h List.not_mem_nil

theorem advance (h : ClientInv last f c) (hfg : f.Advances g) : ClientInv last g c where
  lastSent := h.lastSent
  ahead := fun slot b hb => (h.ahead slot b hb).advance hfg
  fetched := by
    intro slot b slots hloop
    obtain ⟨hslot, hahead, hlast⟩ := h.fetched slot b slots hloop
    exact ⟨hslot, hahead.advance hfg, hlast⟩
  increasing := h.increasing
  newest := h.newest

theorem setLoop (h : ClientInv last f c) (hlast : c'.lastSent = c.lastSent)
    (hstream : c'.stream = c.stream)
    (hloop : ∀ slot b slots, c'.loop = .fetched slot b slots →
      c.loop = .fetched slot b slots ∨ b.slot = slot ∧ f.fetch slot = some b) (hf : f.Inv) :
    ClientInv last f c' where
  lastSent := by
    rw [hlast]
    exact h.lastSent
  ahead := h.ahead
  fetched := by
    intro slot b slots hb
    rcases hloop slot b slots hb with hold | ⟨hslot, hfetch⟩
    · exact h.fetched slot b slots hold
    · exact ⟨hslot, hf.ahead hfetch, fun b' hb' => (h.ahead slot b' hb').2 b hfetch⟩
  increasing := by
    rw [hstream]
    exact h.increasing
  newest := by
    rw [hstream]
    exact h.newest

theorem newer (h : ClientInv last f c) {slot : BufferSlotKey} {b : SharedBundle}
    {slots : List BufferSlotKey} (hloop : c.loop = .fetched slot b slots)
    (hnew : c.lastSent (WSSClient.dedupKey slot) ≠ b.address) :
    ∀ b', last slot = some b' → b'.order < b.order := by
  -- What passes the filter is newer than all that went before it.
  intro b' hb'
  obtain ⟨-, -, hlast⟩ := h.fetched slot b slots hloop
  rcases hlast b' hb' with heq | hlt
  · exact absurd (heq ▸ h.lastSent slot b' hb') hnew
  · exact hlt

theorem enqueue (h : ClientInv last f c) {slot : BufferSlotKey} {b : SharedBundle}
    {slots : List BufferSlotKey} (hloop : c.loop = .fetched slot b slots) :
    ∃ last', ClientInv last' f { c.enqueue slot b with loop := .visiting slots } := by
  obtain ⟨hslot, hahead, -⟩ := h.fetched slot b slots hloop
  unfold WSSClient.enqueue
  split_ifs with hdup
  · refine ⟨last, h.lastSent, h.ahead, ?_, h.increasing, h.newest⟩
    exact fun _ _ _ he => LoopPc.noConfusion he
  · have hnewer := h.newer hloop hdup
    -- The queue loses items and gets one more at its end.
    have hsub : ∀ slot', (ordersOf slot' ({ c with
        lastSent := Function.update c.lastSent (WSSClient.dedupKey slot) b.address
        sendQueue := c.sendQueue.filter (·.type ≠ slot.type) ++ [⟨slot.type, b⟩]
        loop := .visiting slots } : WSSClient).stream).Sublist
          (ordersOf slot' c.stream ++ ordersOf slot' [⟨slot.type, b⟩]) := by
      intro slot'
      rw [← ordersOf_append]
      apply ordersOf_sublist
      unfold WSSClient.stream
      rw [List.append_assoc, List.append_assoc]
      apply (List.Sublist.refl _).append
      apply (List.Sublist.refl _).append
      exact List.filter_sublist.append (List.Sublist.refl _)
    have hone : ∀ slot', ordersOf slot' [⟨slot.type, b⟩] =
        if slot' = slot then [b.order] else [] := by
      intro slot'
      unfold ordersOf
      by_cases heq : slot' = slot
      · simp [heq, hslot]
      · simp [heq, hslot, Ne.symm heq]
    refine ⟨Function.update last slot (some b), ?_, ?_, ?_, ?_, ?_⟩
    · intro slot' b' hb'
      by_cases heq : slot' = slot
      · subst heq
        rw [Function.update_self] at hb'
        cases hb'
        exact Function.update_self ..
      · rw [Function.update_of_ne heq] at hb'
        dsimp only
        rw [Function.update_of_ne fun he => heq (WSSClient.dedupKey_injective he)]
        exact h.lastSent slot' b' hb'
    · intro slot' b' hb'
      by_cases heq : slot' = slot
      · subst heq
        rw [Function.update_self] at hb'
        cases hb'
        exact hahead
      · rw [Function.update_of_ne heq] at hb'
        exact h.ahead slot' b' hb'
    · exact fun _ _ _ he => LoopPc.noConfusion he
    · intro slot'
      apply List.Pairwise.sublist (hsub slot')
      rw [hone]
      by_cases heq : slot' = slot
      · subst heq
        rw [if_pos rfl, List.pairwise_append]
        refine ⟨h.increasing _, List.pairwise_singleton _ _, fun n hn m hm => ?_⟩
        obtain ⟨b', hb', hle⟩ := h.newest _ n hn
        rw [List.mem_singleton.mp hm]
        exact hle.trans_lt (hnewer b' hb')
      · rw [if_neg heq, List.append_nil]
        exact h.increasing slot'
    · intro slot' n hn
      have hmem := (hsub slot').subset hn
      rw [hone] at hmem
      by_cases heq : slot' = slot
      · subst heq
        refine ⟨b, Function.update_self .., ?_⟩
        rw [if_pos rfl] at hmem
        rcases List.mem_append.mp hmem with hold | hnew
        · obtain ⟨b', hb', hle⟩ := h.newest _ n hold
          exact hle.trans (hnewer b' hb').le
        · exact (List.mem_singleton.mp hnew).le
      · rw [if_neg heq, List.append_nil] at hmem
        rw [Function.update_of_ne heq]
        exact h.newest slot' n hmem

theorem step (h : ClientInv last f c) (hf : f.Inv) {a : Action} (hc : ClientStep f c c' a) :
    ∃ last', ClientInv last' f c' := by
  cases hc with
  | move subs loop _ hmoved =>
    exact ⟨last, h.setLoop rfl rfl (fun slot b slots he => absurd he (hmoved slot b slots)) hf⟩
  | find slot b slots _ _ hfetch =>
    refine ⟨last, h.setLoop rfl rfl (fun slot' b' slots' he => ?_) hf⟩
    cases he
    exact .inr ⟨(hf.fetched slot b hfetch).1, hfetch⟩
  | enqueue slot b slots hloop => exact h.enqueue hloop
  | take item queue hsender hqueue =>
    refine ⟨last, h.setLoop rfl ?_ (fun _ _ _ he => .inl he) hf⟩
    unfold WSSClient.stream
    simp [hsender, hqueue]
  | send item hsender =>
    refine ⟨last, h.setLoop rfl ?_ (fun _ _ _ he => .inl he) hf⟩
    unfold WSSClient.stream
    simp [hsender]

end ClientInv

structure Inv (s : State) : Prop where
  feed : s.feed.Inv
  client : ∃ last, ClientInv last s.feed s.client

theorem inv_init (depth queueDepth : UInt64)
    (cells : Fin DataPipeline.frameCapacity.val.toNat → SharedFrame) :
    Inv ⟨.init depth queueDepth cells, .init⟩ where
  feed := {
    queues := fun _ => SPSCQueue.orderInv_init _ rfl rfl (SPSCQueue.setMaxDepth_le _ _)
    increasing := List.Pairwise.nil
    pushed := fun _ h => absurd h List.not_mem_nil
    fetched := by
      intro slot b h
      unfold Feed.fetch at h
      split_ifs at h <;> exact absurd h (Option.some_ne_none _).symm }
  client := ⟨_, ClientInv.init _⟩

section
variable {parse : Bytes → Except JsonException Json} {movedFrom : SharedFrame → SharedFrame}

theorem Inv.setFeed {s : State} (h : Inv s) {f : Feed} (hf : s.feed.Advances f) :
    Inv (s.setFeed f) where
  feed := h.feed.advance hf
  client := by
    obtain ⟨last, hc⟩ := h.client
    exact ⟨last, hc.advance hf⟩

theorem inv_step (s : State) (a : Action) (t : State) (h : Inv s)
    (hstep : step parse movedFrom s a = some t) : Inv t := by
  obtain ⟨last, hc⟩ := h.client
  cases a with
  | publish cameraId timestamp bundles =>
    obtain ⟨f, hf, rfl⟩ := Option.map_eq_some_iff.mp hstep
    exact h.setFeed (h.feed.publish hf)
  | publisher =>
    obtain ⟨f, hf, rfl⟩ := Option.map_eq_some_iff.mp hstep
    exact h.setFeed (h.feed.publisherStep hf)
  | clear =>
    cases hstep
    exact h.setFeed h.feed.clear
  | encoder address compress =>
    obtain ⟨f, hf, rfl⟩ := Option.map_eq_some_iff.mp hstep
    exact h.setFeed (h.feed.encoderStep hf)
  | _ =>
    obtain ⟨c, rfl, hclient⟩ := clientStep hstep rfl
    exact ⟨h.feed, hc.step h.feed hclient⟩

/-- Whatever the threads do in whatever order, the bundles of one slot that `send_to_one` gets
are strictly increasing in the order of their pushes. -/
theorem sent_increasing (depth queueDepth : UInt64)
    (cells : Fin DataPipeline.frameCapacity.val.toNat → SharedFrame) (as : List Action) (s : State)
    (hrun : run (step parse movedFrom) ⟨.init depth queueDepth cells, .init⟩ as = some s)
    (slot : BufferSlotKey) : (ordersOf slot s.client.sent).Pairwise (· < ·) := by
  have hinv : Inv s := run_invariant inv_step (inv_init depth queueDepth cells) hrun
  obtain ⟨last, hc⟩ := hinv.client
  exact (hc.increasing slot).sublist (ordersOf_sublist slot (List.sublist_append_left _ _))

end

def publishImu (address : UInt64) (reading : UInt8) : List Action :=
  .publish "cam1" ⟨1, 5⟩ [(address, ⟨⟨1, 5⟩, .imu, [reading]⟩)] :: List.replicate 7 .publisher

def serveImu (frame : Option Frame) : List Action :=
  [.readFrame frame, .look [⟨"cam1", .imu⟩], .visit, .visit, .visit, .send, .send]

def twoReadings : List Action :=
  publishImu 4096 1 ++ serveImu (some ⟨0x1, [0x7B]⟩) ++ publishImu 8192 2 ++ serveImu none

theorem sent_increasing_twoReadings : ∃ s, run (step parseNothing id)
    ⟨.init 3 4 fun _ => ⟨"", ⟨0, 0⟩, []⟩, .init⟩ twoReadings = some s ∧
      ordersOf ⟨"cam1", .imu⟩ s.client.sent = [0, 1] ∧
        (ordersOf ⟨"cam1", .imu⟩ s.client.sent).Pairwise (· < ·) := by
  have hsent : (run (step parseNothing id)
      ⟨.init 3 4 fun _ => ⟨"", ⟨0, 0⟩, []⟩, .init⟩ twoReadings).map
        (fun s => ordersOf ⟨"cam1", .imu⟩ s.client.sent) = some [0, 1] := by
    with_unfolding_all rfl
  obtain ⟨s, hrun, horders⟩ := Option.map_eq_some_iff.mp hsent
  exact ⟨s, hrun, horders, sent_increasing 3 4 _ twoReadings s hrun ⟨"cam1", .imu⟩⟩

end StereoCamera.WSServer.Delivery
