import StereoCamera.Data.WSServerReconnect

/-! The filter for duplicates remembers where a bundle was, and not the bundle. A bundle that is
gone may leave its address to another one. -/

namespace StereoCamera
open WSServer.Delivery

/-- All that the rings hold, whether it can still be read or not. -/
def DataBuffer.bundles {B : Type} (d : DataBuffer B) : List B :=
  d.slots.entries.flatMap fun e => e.2.ring.filterMap id

theorem DataBuffer.mem_bundles {B : Type} {d : DataBuffer B} {cameraId : String} {type : DataType}
    {b : B} (h : d.getLatest cameraId type = some b) : b ∈ d.bundles := by
  unfold getLatest at h
  split at h
  · cases h
  · rename_i r hr
    unfold RingBuffer.getLatest at h
    split_ifs at h
    have hcell : some b ∈ r.ring := List.mem_of_getElem? (Option.join_eq_some_iff.mp h)
    apply List.mem_flatMap.mpr
    exact ⟨_, AList.mem_lookup_iff.mp hr, List.mem_filterMap.mpr ⟨some b, hcell, rfl⟩⟩

namespace WSServer.Delivery
open Transition

/-- What the cells of the queue hold, and what the calls of `try_push` and `pop` do. -/
def queueBundles (q : EncodeQueue) : List SharedBundle :=
  (List.finRange _).flatMap (fun i => (q.queue.buffer i).bundles) ++
    (pushedItem q ++ (match q.consumer with
      | some (.storeReadPos frame _) => frame.bundles
      | _ => []))

def State.heldAddresses (s : State) : List UInt64 :=
  (s.feed.buffer2.bundles ++
    ([.visualGeometric2D, .visualGeometric3D, .sensorTracking].flatMap fun group =>
      queueBundles (s.feed.encodeQueues group)) ++
    s.feed.publisher.bundles ++ s.feed.encoder.bundles ++ s.client.loop.bundles ++
    (s.client.sender.toList ++ s.client.sendQueue).map (·.bundle)).map (·.address) ++
  (match s.feed.publisher with
    | .pushing _ rest => rest.map (·.1)
    | _ => [])

def State.Holds (s : State) (address : UInt64) : Prop :=
  address ∈ s.heldAddresses ∨
    ∃ cameraId b, s.feed.encodedStereo cameraId = some b ∧ b.address = address

/-- The addresses of the bundles that a step makes, and where a client will find them. It finds
no raw image. -/
def made (s : State) : Action → List (UInt64 × Option BufferSlotKey)
  | .publish cameraId _ bundles => bundles.map fun (address, bundle) =>
    (address, if bundle.type = .stereoImage then none else some ⟨cameraId, bundle.type⟩)
  | .encoder address compress =>
    match s.feed.encoder with
    | .encoding cameraId (b :: _) =>
      if b.isImage ∧ b.address ≠ s.feed.lastEncodedPtr ∧
          (encodeStereoImage compress b.bundle.payload).isSome then
        [(address, some ⟨cameraId, .stereoImage⟩)]
      else []
    | _ => []
  | _ => []

/-- A new bundle does not get the address of one that has an owner. -/
def Allocates (s : State) (a : Action) : Prop :=
  ((made s a).map (·.1)).Nodup ∧ ∀ m ∈ made s a, m.1 ≠ 0 ∧ ¬s.Holds m.1

/-- Nor does it get the address that the client was sent last from the slot where it will be
found. -/
def NotRemembered (s : State) (a : Action) : Prop :=
  ∀ m ∈ made s a, ∀ slot, m.2 = some slot → s.client.lastSent (WSSClient.dedupKey slot) ≠ m.1

/-- `client_loop` is about to pass over the bundle as one that it has queued. -/
def Skips (s : State) (slot : BufferSlotKey) (b : SharedBundle) : Prop :=
  (∃ slots, s.client.loop = .fetched slot b slots) ∧
    s.client.lastSent (WSSClient.dedupKey slot) = b.address

def State.Finds (s : State) (slot : BufferSlotKey) (b : SharedBundle) : Prop :=
  s.feed.fetch slot = some b ∨ ∃ slots, s.client.loop = .fetched slot b slots

/-- The client finds the bundle after the step and not before: `pub_callback` has pushed it, or it
is an image that was encoded. -/
structure Appears (s : State) (a : Action) (t : State) (slot : BufferSlotKey) (b : SharedBundle) :
    Prop where
  client : t.client = s.client
  fetch : t.feed.fetch slot = some b
  origin :
    (slot.type ≠ .stereoImage ∧ ∃ frame frame' bundle rest,
      s.feed.publisher = .pushing frame ((b.address, bundle) :: rest) ∧
      t.feed.publisher = .pushing frame' rest ∧ slot = ⟨frame.cameraId, bundle.type⟩) ∨
    (slot.type = .stereoImage ∧ (b.address, some slot) ∈ made s a)

/-- What the client remembers of a slot is the address of a bundle that was queued, as long as
the client finds one there with this address. -/
structure DedupInv (seen : List SendItem) (s : State) : Prop where
  found : ∀ slot b, s.Finds slot b →
    s.client.lastSent (WSSClient.dedupKey slot) = b.address → ⟨slot.type, b⟩ ∈ seen
  same : ∀ slot b b', s.Finds slot b → s.Finds slot b' → b.address = b'.address → b = b'
  nodup : ∀ frame rest, s.feed.publisher = .pushing frame rest → (rest.map (·.1)).Nodup
  pending : ∀ frame rest, s.feed.publisher = .pushing frame rest →
    ∀ p ∈ rest, p.2.type ≠ .stereoImage →
      s.client.lastSent (WSSClient.dedupKey ⟨frame.cameraId, p.2.type⟩) ≠ p.1 ∧
        ∀ b, s.Finds ⟨frame.cameraId, p.2.type⟩ b → b.address ≠ p.1

section
variable {parse : Bytes → Except JsonException Json} {movedFrom : SharedFrame → SharedFrame}
  {s t : State} {a : Action} {seen : List SendItem}

theorem State.Finds.holds {slot : BufferSlotKey} {b : SharedBundle} (h : s.Finds slot b) :
    s.Holds b.address := by
  rcases h with hfetch | ⟨slots, hloop⟩
  · unfold Feed.fetch at hfetch
    split_ifs at hfetch
    · exact .inr ⟨slot.cameraId, b, hfetch, rfl⟩
    · left
      unfold State.heldAddresses
      have hmem := DataBuffer.mem_bundles hfetch
      simp only [List.mem_append, List.mem_map]
      exact .inl ⟨b, .inl (.inl (.inl (.inl (.inl hmem)))), rfl⟩
  · left
    unfold State.heldAddresses
    have hmem : b ∈ s.client.loop.bundles := by
      rw [hloop]
      exact List.mem_singleton_self _
    simp only [List.mem_append, List.mem_map]
    exact .inl ⟨b, .inl (.inr hmem), rfl⟩

theorem callPop_keeps {f g : Feed} {group group' : DataGroup} {q : EncodeQueue}
    (h : (f.setQueue group q).callPop movedFrom group' = some g) :
    g.buffer2 = f.buffer2 ∧ g.encodedStereo = f.encodedStereo ∧ g.publisher = f.publisher := by
  obtain ⟨q', -, rfl⟩ := Option.map_eq_some_iff.mp h
  exact ⟨rfl, rfl, rfl⟩

theorem encoderStep_cases {f g : Feed} {address : UInt64}
    {compress : Bytes → ℕ → ℕ → Option Bytes}
    (h : f.encoderStep movedFrom address compress = some g) :
    (g.buffer2 = f.buffer2 ∧ g.encodedStereo = f.encodedStereo ∧ g.publisher = f.publisher) ∨
    ∃ cameraId b rest, f.encoder = .encoding cameraId (b :: rest) ∧
      g = { f.encode address compress cameraId b with encoder := .encoding cameraId rest } := by
  unfold Feed.encoderStep at h
  split at h
  · obtain ⟨q, -, rfl⟩ := Option.map_eq_some_iff.mp h
    exact .inl ⟨rfl, rfl, rfl⟩
  · split at h
    · cases h
    · obtain ⟨q, -, h⟩ := Option.bind_eq_some_iff.mp h
      split at h
      · cases h
        exact .inl ⟨rfl, rfl, rfl⟩
      · split_ifs at h
        · cases h
          exact .inl ⟨rfl, rfl, rfl⟩
        · exact .inl (callPop_keeps h)
      · split at h
        · exact .inl (callPop_keeps h)
        · cases h
          exact .inl ⟨rfl, rfl, rfl⟩
  · obtain ⟨q, -, rfl⟩ := Option.map_eq_some_iff.mp h
    exact .inl ⟨rfl, rfl, rfl⟩
  · rename_i cameraId b rest hencoder
    cases h
    exact .inr ⟨cameraId, b, rest, hencoder, rfl⟩

theorem fetch_encode {f : Feed} {address : UInt64} {compress : Bytes → ℕ → ℕ → Option Bytes}
    {cameraId : String} {b out : SharedBundle} {slot : BufferSlotKey}
    (h : (f.encode address compress cameraId b).fetch slot = some out) :
    f.fetch slot = some out ∨
      slot = ⟨cameraId, .stereoImage⟩ ∧ out.address = address ∧ b.isImage ∧
        b.address ≠ f.lastEncodedPtr ∧
          (encodeStereoImage compress b.bundle.payload).isSome := by
  rcases @encode_cases compress f address cameraId b with
    ⟨-, heq⟩ | ⟨-, -, heq⟩ | ⟨himage, hnew, heq⟩
  · rw [heq] at h
    exact .inl h
  · rw [heq] at h
    exact .inl h
  · rw [heq] at h
    rcases hencoded : encodeStereoImage compress b.bundle.payload with _ | encoded
    · rw [hencoded] at h
      exact .inl h
    · rw [hencoded] at h
      unfold Feed.fetch at h ⊢
      split_ifs at h ⊢ with hstereo
      · dsimp only at h
        by_cases hcamera : slot.cameraId = cameraId
        · rw [hcamera, Function.update_self] at h
          cases h
          refine .inr ⟨?_, rfl, himage, hnew, rfl⟩
          rw [← hcamera, ← hstereo]
        · rw [Function.update_of_ne hcamera] at h
          exact .inl h
      · exact .inl h

theorem encode_publisher (f : Feed) (address : UInt64) (compress : Bytes → ℕ → ℕ → Option Bytes)
    (cameraId : String) (b : SharedBundle) :
    (f.encode address compress cameraId b).publisher = f.publisher := by
  rcases @encode_cases compress f address cameraId b with
    ⟨-, heq⟩ | ⟨-, -, heq⟩ | ⟨-, -, heq⟩
  · rw [heq]
  · rw [heq]
  · rw [heq]
    split <;> rfl

theorem fetch_pushBundle {f : Feed} {frame : SharedFrame} {address : UInt64} {bundle : DataBundle}
    {rest : List (UInt64 × DataBundle)} {slot : BufferSlotKey} {b : SharedBundle}
    (h : (f.pushBundle frame address bundle rest).fetch slot = some b) :
    f.fetch slot = some b ∨
      slot.type ≠ .stereoImage ∧ slot = ⟨frame.cameraId, bundle.type⟩ ∧ b.address = address := by
  unfold Feed.fetch at h ⊢
  split_ifs at h ⊢ with hstereo
  · exact .inl h
  · change (f.buffer2.push frame.cameraId bundle.type _).getLatest slot.cameraId slot.type =
      some b at h
    by_cases hslot : slot = ⟨frame.cameraId, bundle.type⟩
    · subst hslot
      have hnew := DataBuffer.getLatest_push h
      subst hnew
      exact .inr ⟨hstereo, rfl, rfl⟩
    · rw [DataBuffer.getLatest_push_of_ne hslot] at h
      exact .inl h

theorem publisherStep_cases {f g : Feed} (h : f.publisherStep movedFrom = some g) :
    (∃ frame address bundle rest, f.publisher = .pushing frame ((address, bundle) :: rest) ∧
      g = f.pushBundle frame address bundle rest) ∨
    g.buffer2 = f.buffer2 ∧ g.encodedStereo = f.encodedStereo ∧
      ∀ frame rest, g.publisher ≠ .pushing frame rest := by
  unfold Feed.publisherStep at h
  split at h
  · cases h
  · rename_i frame address bundle rest hpc
    cases h
    exact .inl ⟨frame, address, bundle, rest, hpc, rfl⟩
  · split at h
    · cases h
      exact .inr ⟨rfl, rfl, fun _ _ he => PublisherPc.noConfusion he⟩
    · obtain ⟨q, -, rfl⟩ := Option.map_eq_some_iff.mp h
      exact .inr ⟨rfl, rfl, fun _ _ he => PublisherPc.noConfusion he⟩
  · obtain ⟨q, -, rfl⟩ := Option.map_eq_some_iff.mp h
    refine .inr ⟨rfl, rfl, fun frame rest he => ?_⟩
    dsimp only at he
    split_ifs at he

theorem fetch_of_step (h : step parse movedFrom s a = some t) {slot : BufferSlotKey}
    {b : SharedBundle} (hb : t.feed.fetch slot = some b) :
    s.feed.fetch slot = some b ∨ Appears s a t slot b := by
  cases a with
  | publish cameraId timestamp bundles =>
    obtain ⟨f, hf, rfl⟩ := Option.map_eq_some_iff.mp h
    obtain ⟨-, rfl⟩ := Feed.publish_cases hf
    exact .inl hb
  | publisher =>
    obtain ⟨f, hf, rfl⟩ := Option.map_eq_some_iff.mp h
    rcases publisherStep_cases hf with
      ⟨frame, address, bundle, rest, hpc, rfl⟩ | ⟨hbuffer, hstereo, -⟩
    · rcases fetch_pushBundle hb with hold | ⟨htype, hslot, rfl⟩
      · exact .inl hold
      · exact .inr ⟨rfl, hb, .inl ⟨htype, frame, _, bundle, rest, hpc, rfl, hslot⟩⟩
    · left
      rwa [← Feed.fetch_congr hbuffer hstereo]
  | clear =>
    cases h
    left
    unfold Feed.fetch at hb ⊢
    split_ifs at hb ⊢
    · exact hb
    · cases hb
  | encoder address compress =>
    obtain ⟨f, hf, rfl⟩ := Option.map_eq_some_iff.mp h
    rcases encoderStep_cases hf with
      ⟨hbuffer, hstereo, -⟩ | ⟨cameraId, b', rest, hencoder, rfl⟩
    · left
      rwa [← Feed.fetch_congr hbuffer hstereo]
    · rcases fetch_encode (f := s.feed) hb with hold | ⟨rfl, rfl, hencodes⟩
      · exact .inl hold
      · refine .inr ⟨rfl, hb, .inr ⟨rfl, ?_⟩⟩
        unfold made
        rw [hencoder]
        dsimp only
        rw [if_pos hencodes]
        exact List.mem_singleton_self _
  | _ =>
    rw [feed_of_step h rfl] at hb
    exact .inl hb

theorem pushing_of_step (h : step parse movedFrom s a = some t) {frame : SharedFrame}
    {rest : List (UInt64 × DataBundle)} (hpc : t.feed.publisher = .pushing frame rest) :
    (∃ frame' rest', s.feed.publisher = .pushing frame' rest' ∧ frame'.cameraId = frame.cameraId ∧
      rest <:+ rest') ∨
    ∃ timestamp, a = .publish frame.cameraId timestamp rest := by
  cases a with
  | publish cameraId timestamp bundles =>
    obtain ⟨f, hf, rfl⟩ := Option.map_eq_some_iff.mp h
    obtain ⟨-, rfl⟩ := Feed.publish_cases hf
    cases hpc
    exact .inr ⟨timestamp, rfl⟩
  | publisher =>
    obtain ⟨f, hf, rfl⟩ := Option.map_eq_some_iff.mp h
    rcases publisherStep_cases hf with ⟨frame', address, bundle, rest', hpc', rfl⟩ | ⟨-, -, hnone⟩
    · cases hpc
      exact .inl ⟨frame', _, hpc', rfl, List.suffix_cons _ _⟩
    · exact absurd hpc (hnone frame rest)
  | clear =>
    cases h
    exact .inl ⟨frame, rest, hpc, rfl, List.suffix_rfl⟩
  | encoder address compress =>
    obtain ⟨f, hf, rfl⟩ := Option.map_eq_some_iff.mp h
    left
    refine ⟨frame, rest, ?_, rfl, List.suffix_rfl⟩
    rcases encoderStep_cases hf with ⟨-, -, hpublisher⟩ | ⟨cameraId, b, rest', -, rfl⟩
    · exact hpublisher.symm.trans hpc
    · exact (encode_publisher s.feed address compress cameraId b).symm.trans hpc
  | _ =>
    rw [feed_of_step h rfl] at hpc
    exact .inl ⟨frame, rest, hpc, rfl, List.suffix_rfl⟩

theorem lastSent_of_step (h : step parse movedFrom s a = some t) (slot : BufferSlotKey) :
    t.client.lastSent (WSSClient.dedupKey slot) = s.client.lastSent (WSSClient.dedupKey slot) ∨
    ∃ b slots, s.client.loop = .fetched slot b slots ∧
      t.client.lastSent (WSSClient.dedupKey slot) = b.address ∧
      ⟨slot.type, b⟩ ∈ t.client.sendQueue := by
  rcases hclient : a.isClients with _ | _
  · rw [client_of_step h hclient]
    exact .inl rfl
  · obtain ⟨c, rfl, hstep⟩ := clientStep h hclient
    cases hstep with
    | enqueue slot' b slots hloop =>
      unfold WSSClient.enqueue
      split_ifs
      · exact .inl rfl
      · by_cases hslot : slot = slot'
        · subst hslot
          refine .inr ⟨b, slots, hloop, Function.update_self .., ?_⟩
          exact List.mem_append_right _ (List.mem_singleton_self _)
        · left
          exact Function.update_of_ne (fun he => hslot (WSSClient.dedupKey_injective he)) ..
    | _ => exact .inl rfl

theorem finds_of_step (h : step parse movedFrom s a = some t) {slot : BufferSlotKey}
    {b : SharedBundle} (hb : t.Finds slot b) : s.Finds slot b ∨ Appears s a t slot b := by
  rcases hb with hfetch | ⟨slots, hloop⟩
  · rcases fetch_of_step h hfetch with hold | happears
    · exact .inl (.inl hold)
    · exact .inr happears
  · rcases fetched_of_step h hloop with hold | ⟨-, -, -, hfetch⟩
    · exact .inl (.inr ⟨slots, hold⟩)
    · exact .inl (.inl hfetch)

theorem DedupInv.appears (h : DedupInv seen s) (halloc : Allocates s a) (hnew : NotRemembered s a)
    {slot : BufferSlotKey} {b : SharedBundle} (hb : Appears s a t slot b) :
    s.client.lastSent (WSSClient.dedupKey slot) ≠ b.address ∧
      (∀ b', s.Finds slot b' → b'.address ≠ b.address) ∧
      ∀ frame rest, t.feed.publisher = .pushing frame rest → ∀ p ∈ rest,
        p.2.type ≠ .stereoImage → slot = ⟨frame.cameraId, p.2.type⟩ → b.address ≠ p.1 := by
  rcases hb.origin with ⟨htype, frame, frame', bundle, rest, hpc, hpc', rfl⟩ | ⟨hstereo, hmade⟩
  · obtain ⟨hlast, hfound⟩ := h.pending frame _ hpc _ List.mem_cons_self htype
    refine ⟨hlast, hfound, fun frame'' rest' hpc'' p hp _ _ => ?_⟩
    obtain ⟨-, rfl⟩ := PublisherPc.pushing.inj (hpc'.symm.trans hpc'')
    have hnodup := h.nodup frame _ hpc
    rw [List.map_cons, List.nodup_cons] at hnodup
    have hmem : p.1 ∈ rest.map (·.1) := List.mem_map_of_mem hp
    exact fun he => hnodup.1 (he ▸ hmem)
  · -- An encoded image; what is yet to be pushed is found in other slots.
    refine ⟨hnew _ hmade slot rfl, fun b' hb' he => ?_, fun frame rest _ p _ htype hslot => ?_⟩
    · exact (halloc.2 _ hmade).2 (he ▸ hb'.holds)
    · rw [hslot] at hstereo
      exact absurd hstereo htype

theorem DedupInv.step (h : DedupInv seen s) (halloc : Allocates s a) (hnew : NotRemembered s a)
    (hstep : step parse movedFrom s a = some t) :
    DedupInv (seen ++ t.client.sendQueue) t where
  found := by
    intro slot b hb hskip
    rcases finds_of_step hstep hb with hold | happears
    · rcases lastSent_of_step hstep slot with hlast | ⟨b', slots, hloop, hlast, hqueue⟩
      · exact List.mem_append_left _ (h.found slot b hold (hlast.symm.trans hskip))
      · -- Two bundles with one address cannot be found together, so it is the one just queued.
        obtain rfl := h.same slot b' b (.inr ⟨slots, hloop⟩) hold (hlast.symm.trans hskip)
        exact List.mem_append_right _ hqueue
    · rw [happears.client] at hskip
      exact absurd hskip (h.appears halloc hnew happears).1
  same := by
    intro slot b b' hb hb' haddress
    rcases finds_of_step hstep hb with hold | happears
    · rcases finds_of_step hstep hb' with hold' | happears'
      · exact h.same slot b b' hold hold' haddress
      · exact absurd haddress ((h.appears halloc hnew happears').2.1 b hold)
    · rcases finds_of_step hstep hb' with hold' | happears'
      · exact absurd haddress.symm ((h.appears halloc hnew happears).2.1 b' hold')
      · exact Option.some.inj (happears.fetch.symm.trans happears'.fetch)
  nodup := by
    intro frame rest hpc
    rcases pushing_of_step hstep hpc with ⟨frame', rest', hpc', -, hsuffix⟩ | ⟨timestamp, rfl⟩
    · exact (h.nodup frame' rest' hpc').sublist (hsuffix.sublist.map _)
    · have hnodup := halloc.1
      unfold made at hnodup
      rwa [List.map_map] at hnodup
  pending := by
    intro frame rest hpc p hp htype
    have happears : ∀ b, Appears s a t ⟨frame.cameraId, p.2.type⟩ b → b.address ≠ p.1 :=
      fun b hb => (h.appears halloc hnew hb).2.2 frame rest hpc p hp htype rfl
    rcases pushing_of_step hstep hpc with ⟨frame', rest', hpc', hcamera, hsuffix⟩ | ⟨timestamp, rfl⟩
    · have hold := h.pending frame' rest' hpc' p (hsuffix.subset hp) htype
      rw [hcamera] at hold
      constructor
      · rcases lastSent_of_step hstep ⟨frame.cameraId, p.2.type⟩ with
          hlast | ⟨b, slots, hloop, hlast, -⟩
        · rw [hlast]
          exact hold.1
        · rw [hlast]
          exact hold.2 b (.inr ⟨slots, hloop⟩)
      · intro b hb
        rcases finds_of_step hstep hb with hb | hb
        · exact hold.2 b hb
        · exact happears b hb
    · -- The frame is new, and so are the addresses in it.
      have hmade : (p.1, some ⟨frame.cameraId, p.2.type⟩) ∈
          made s (.publish frame.cameraId timestamp rest) := by
        apply List.mem_map.mpr
        exact ⟨p, hp, congrArg (Prod.mk p.1) (if_neg htype)⟩
      constructor
      · rw [client_of_step hstep rfl]
        exact hnew _ hmade _ rfl
      · intro b hb
        rcases finds_of_step hstep hb with hb | hb
        · exact fun he => (halloc.2 _ hmade).2 (he ▸ hb.holds)
        · exact happears b hb

theorem DedupInv.mono {seen' : List SendItem} (hseen : seen ⊆ seen') (h : DedupInv seen s) :
    DedupInv seen' s where
  found := fun slot b hb hskip => hseen (h.found slot b hb hskip)
  same := h.same
  nodup := h.nodup
  pending := h.pending

theorem dedupInv_init (depth queueDepth : UInt64)
    (cells : Fin DataPipeline.frameCapacity.val.toNat → SharedFrame) :
    DedupInv [] ⟨.init depth queueDepth cells, .init⟩ := by
  have hnone : ∀ slot b, ¬(⟨.init depth queueDepth cells, .init⟩ : State).Finds slot b := by
    rintro slot b (hfetch | ⟨slots, hloop⟩)
    · unfold Feed.fetch at hfetch
      split_ifs at hfetch <;> cases hfetch
    · cases hloop
  refine ⟨?_, ?_, ?_, ?_⟩
  · exact fun slot b hb => absurd hb (hnone slot b)
  · exact fun slot b b' hb => absurd hb (hnone slot b)
  · exact fun _ _ he => PublisherPc.noConfusion he
  · exact fun _ _ he => PublisherPc.noConfusion he

/-- If no new bundle gets the address that the client was sent last from the slot of the bundle,
then whatever the client passes over in a run, it has queued in that run. -/
theorem skipped_mem_queued (parse : Bytes → Except JsonException Json)
    (movedFrom : SharedFrame → SharedFrame) (depth queueDepth : UInt64)
    (cells : Fin DataPipeline.frameCapacity.val.toNat → SharedFrame) (as : List Action) {s : State}
    (hguard : Guarded (step parse movedFrom) (fun s a => Allocates s a ∧ NotRemembered s a)
      ⟨.init depth queueDepth cells, .init⟩ as)
    (hrun : run (step parse movedFrom) ⟨.init depth queueDepth cells, .init⟩ as = some s)
    {slot : BufferSlotKey} {b : SharedBundle} (hskip : Skips s slot b) :
    ⟨slot.type, b⟩ ∈ trace (step parse movedFrom) (·.client.sendQueue)
      ⟨.init depth queueDepth cells, .init⟩ as := by
  have hstep : ∀ seen s a t, DedupInv seen s → Allocates s a ∧ NotRemembered s a →
      step parse movedFrom s a = some t → DedupInv (seen ++ t.client.sendQueue) t :=
    fun seen s a t h hG hstep => h.step hG.1 hG.2 hstep
  have hinv := hguard.invariant_trace (I := DedupInv) (fun _ _ _ => DedupInv.mono) hstep
    (dedupInv_init depth queueDepth cells) hrun
  exact hinv.found slot b (.inr hskip.1) hskip.2

theorem allocates_of_made_eq_nil (h : made s a = []) : Allocates s a ∧ NotRemembered s a := by
  unfold Allocates NotRemembered
  rw [h]
  exact ⟨⟨List.nodup_nil, fun _ hm => absurd hm List.not_mem_nil⟩,
    fun _ hm => absurd hm List.not_mem_nil⟩

theorem guarded_of_made_eq_nil {as : List Action}
    (h : allSteps (step parse movedFrom) (fun s a => (made s a).isEmpty) s as = true) :
    Guarded (step parse movedFrom) (fun s a => Allocates s a ∧ NotRemembered s a) s as :=
  Guarded.of_allSteps _ (fun _ _ ha => allocates_of_made_eq_nil (List.isEmpty_iff.mp ha)) h

theorem allocates_reading {cameraId : String} {timestamp : Timestamp} {address : UInt64}
    {bundle : DataBundle} (hnonzero : address ≠ 0) (hheld : address ∉ s.heldAddresses)
    (hcache : s.feed.encodedStereo = fun _ => none) :
    Allocates s (.publish cameraId timestamp [(address, bundle)]) := by
  refine ⟨List.nodup_singleton _, fun m hm => ?_⟩
  rw [List.mem_singleton.mp hm]
  refine ⟨hnonzero, ?_⟩
  rintro (hmem | ⟨c, b, hb, -⟩)
  · exact hheld hmem
  · rw [hcache] at hb
    cases hb

end

/-- Moving a frame out of a cell takes its bundles along. -/
def emptied (frame : SharedFrame) : SharedFrame := { frame with bundles := [] }

/-- The ring of a slot has one cell. -/
def shallowState : State := ⟨.init 1 4 fun _ => ⟨"", ⟨0, 0⟩, []⟩, .init⟩

def lookAgain : List Action := [.readFrame none, .look [⟨"cam1", .imu⟩], .visit]

def seenTwice : List Action :=
  publishImu 4096 1 ++ serveImu (some ⟨0x1, [0x7B]⟩) ++ lookAgain

theorem skipped_mem_queued_seenTwice : ∃ s b,
    run (step parseNothing emptied) shallowState seenTwice = some s ∧
    Skips s ⟨"cam1", .imu⟩ b ∧
    ⟨.imu, b⟩ ∈ trace (step parseNothing emptied) (·.client.sendQueue) shallowState seenTwice := by
  have hrun := eq_some_getD (o := run (step parseNothing emptied) shallowState seenTwice)
    (by with_unfolding_all rfl) shallowState
  have hskip : Skips ((run (step parseNothing emptied) shallowState seenTwice).getD shallowState)
      ⟨"cam1", .imu⟩ ⟨4096, ⟨⟨1, 5⟩, .imu, [1]⟩, "cam1", 0⟩ :=
    ⟨⟨[], by with_unfolding_all rfl⟩, by with_unfolding_all rfl⟩
  refine ⟨_, _, hrun, hskip, skipped_mem_queued parseNothing emptied 1 4 _ seenTwice ?_ hrun hskip⟩
  refine ⟨⟨allocates_reading (by decide) (by decide) rfl, ?_⟩, fun t ht => ?_⟩
  · intro m hm slot _
    rw [List.mem_singleton.mp hm]
    exact (by decide : (0 : UInt64) ≠ 4096)
  · cases ht
    exact guarded_of_made_eq_nil (by with_unfolding_all rfl)

/-- `encode_loop` goes once through its queues and finds the frame of the reading. -/
def drainQueues : List Action := List.replicate 11 (.encoder 0 markedJpeg)

def firstReading : List Action :=
  publishImu 4096 1 ++ drainQueues ++ serveImu (some ⟨0x1, [0x7B]⟩)

/-- The second reading drives the first out of the ring, and the third is where the first was. -/
def reusedAddress : List Action :=
  firstReading ++ (publishImu 8192 2 ++ (publishImu 4096 3 ++ lookAgain))

def firstSent : State :=
  (run (step parseNothing emptied) shallowState firstReading).getD shallowState

def secondPushed : State :=
  (run (step parseNothing emptied) firstSent (publishImu 8192 2)).getD shallowState

theorem guarded_publishImu {s : State} {address : UInt64} {reading : UInt8} {as : List Action}
    (hnonzero : address ≠ 0) (hheld : address ∉ s.heldAddresses)
    (hcache : s.feed.encodedStereo = fun _ => none)
    (hquiet : ∀ t, step parseNothing emptied s
        (.publish "cam1" ⟨1, 5⟩ [(address, ⟨⟨1, 5⟩, .imu, [reading]⟩)]) = some t →
      allSteps (step parseNothing emptied) (fun s a => (made s a).isEmpty) t
        (List.replicate 7 .publisher ++ as) = true) :
    Guarded (step parseNothing emptied) Allocates s (publishImu address reading ++ as) := by
  refine ⟨allocates_reading hnonzero hheld hcache, fun t ht => ?_⟩
  exact (guarded_of_made_eq_nil (hquiet t ht)).mono fun _ _ hG => hG.1

theorem guarded_reusedAddress :
    Guarded (step parseNothing emptied) Allocates shallowState reusedAddress := by
  have hfirst : Guarded (step parseNothing emptied) Allocates shallowState firstReading := by
    unfold firstReading
    rw [List.append_assoc]
    refine guarded_publishImu (by decide) (by decide) rfl fun t ht => ?_
    cases ht
    with_unfolding_all rfl
  have hsecond : Guarded (step parseNothing emptied) Allocates firstSent
      (publishImu 8192 2 ++ []) := by
    refine guarded_publishImu (by decide) (by with_unfolding_all decide) rfl fun t ht => ?_
    cases ht
    with_unfolding_all rfl
  have hthird : Guarded (step parseNothing emptied) Allocates secondPushed
      (publishImu 4096 3 ++ lookAgain) := by
    refine guarded_publishImu (by decide) (by with_unfolding_all decide) rfl fun t ht => ?_
    cases ht
    with_unfolding_all rfl
  refine hfirst.append fun t ht => ?_
  obtain rfl : firstSent = t := by
    unfold firstSent
    rw [ht]
    rfl
  rw [List.append_nil] at hsecond
  refine hsecond.append fun t ht => ?_
  obtain rfl : secondPushed = t := by
    unfold secondPushed
    rw [ht]
    rfl
  exact hthird

/-- The third reading is passed over, and it never was in the queue. -/
theorem reused_address_skipped : ∃ s b,
    Guarded (step parseNothing emptied) Allocates shallowState reusedAddress ∧
    run (step parseNothing emptied) shallowState reusedAddress = some s ∧
    Skips s ⟨"cam1", .imu⟩ b ∧
    ⟨.imu, b⟩ ∉
      trace (step parseNothing emptied) (·.client.sendQueue) shallowState reusedAddress := by
  have hrun := eq_some_getD (o := run (step parseNothing emptied) shallowState reusedAddress)
    (by with_unfolding_all rfl) shallowState
  refine ⟨_, ⟨4096, ⟨⟨1, 5⟩, .imu, [3]⟩, "cam1", 2⟩, guarded_reusedAddress, hrun,
    ⟨⟨[], by with_unfolding_all rfl⟩, by with_unfolding_all rfl⟩, fun hmem => ?_⟩
  have horders : (trace (step parseNothing emptied) (·.client.sendQueue) shallowState
      reusedAddress).all (fun item => item.bundle.order ≠ 2) = true := by
    with_unfolding_all rfl
  exact absurd rfl (of_decide_eq_true (List.all_eq_true.mp horders _ hmem))

end WSServer.Delivery

end StereoCamera
