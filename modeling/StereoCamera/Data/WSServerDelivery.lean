import StereoCamera.Data.DataPipeline
import StereoCamera.Data.DataBuffer
import StereoCamera.Data.WSClientLoop

/-! How a bundle gets from `pub_callback` to `send_to_one` of one client (`main.cpp`,
`data/WSServer.cpp`): by way of buffer #2, or of `encode_loop` and its cache, and then by way of
the filter and the queue of the client. One step is one access to what threads share. -/

namespace StereoCamera.WSServer.Delivery
open Transition

/-- A bundle, and where it is. `order` counts the bundles pushed into buffer #2 before it; an
encoded image has the `order` of its raw image. `cameraId` is what it was pushed for. -/
structure SharedBundle where
  address : UInt64
  bundle : DataBundle
  cameraId : String
  order : ℕ

structure SharedFrame where
  cameraId : String
  timestamp : Timestamp
  bundles : List SharedBundle

abbrev EncodeQueue := SPSCQueue.State DataPipeline.frameCapacity Unit SharedFrame

def imageSizes : List (ℕ × ℕ × ℕ) :=
  [(1280 * 720, 1280, 720), (1920 * 1080, 1920, 1080), (1920 * 1200, 1920, 1200),
    (2208 * 1242, 2208, 1242), (672 * 376, 672, 376), (1280 * 480, 1280, 480)]

/-- `compress` stands for `tjCompress2`. The number of pixels is cast to an `int`. -/
def encodeStereoImage (compress : Bytes → ℕ → ℕ → Option Bytes) (rawConcat : Bytes) :
    Option Bytes :=
  let half := rawConcat.length / 2
  let pixels := half / 4
  if rawConcat.length < 8 then none
  else if pixels = 0 ∨ half % 4 ≠ 0 then none
  else do
    let (_, w, h) ← imageSizes.find? fun r => pixels % 2 ^ 32 = r.1
    let left ← compress (rawConcat.take half) w h
    let right ← compress (rawConcat.drop half) w h
    return uint32Bytes (UInt32.ofNat left.length) ++ left ++ right

/-- Where the publisher thread stands in `pub_callback`; `frame` has the bundles that are in
buffer #2 already. -/
inductive PublisherPc
  | idle
  | pushing (frame : SharedFrame) (rest : List (UInt64 × DataBundle))
  | queueing (group : DataGroup)

inductive EncoderPc
  | waiting
  | popping (group : DataGroup)
  | encoding (cameraId : String) (rest : List SharedBundle)

structure Feed where
  buffer2 : DataBuffer SharedBundle
  encodeQueues : DataGroup → EncodeQueue
  publisher : PublisherPc
  encoder : EncoderPc
  lastEncodedPtr : UInt64
  encodedStereo : String → Option SharedBundle
  /-- How many bundles were pushed into buffer #2. -/
  pushed : ℕ

namespace Feed

def init (depth queueDepth : UInt64)
    (cells : Fin DataPipeline.frameCapacity.val.toNat → SharedFrame) : Feed where
  buffer2 := .mk' depth
  encodeQueues := fun _ => .init Unit ((SPSCQueue.Queue.init cells).setMaxDepth queueDepth)
  publisher := .idle
  encoder := .waiting
  lastEncodedPtr := 0
  encodedStereo := fun _ => none
  pushed := 0

def setQueue (f : Feed) (group : DataGroup) (q : EncodeQueue) : Feed :=
  { f with encodeQueues := Function.update f.encodeQueues group q }

def publish (f : Feed) (cameraId : String) (timestamp : Timestamp)
    (bundles : List (UInt64 × DataBundle)) : Option Feed :=
  match f.publisher with
  | .idle => some { f with publisher := .pushing ⟨cameraId, timestamp, []⟩ bundles }
  | _ => none

def pushBundle (f : Feed) (frame : SharedFrame) (address : UInt64) (bundle : DataBundle)
    (rest : List (UInt64 × DataBundle)) : Feed :=
  let b : SharedBundle := ⟨address, bundle, frame.cameraId, f.pushed⟩
  { f with buffer2 := f.buffer2.push frame.cameraId bundle.type b
           publisher := .pushing { frame with bundles := frame.bundles ++ [b] } rest
           pushed := f.pushed + 1 }

section
variable (movedFrom : SharedFrame → SharedFrame)

def publisherStep (f : Feed) : Option Feed :=
  match f.publisher with
  | .idle => none
  | .pushing frame ((address, bundle) :: rest) => some (f.pushBundle frame address bundle rest)
  | .pushing frame [] =>
    match frame.bundles with
    | [] => some { f with publisher := .idle }
    | b :: _ =>
      let group := dataTypeToGroup b.bundle.type
      (SPSCQueue.step movedFrom (f.encodeQueues group) (.callTryPush () frame)).map fun q =>
        { f.setQueue group q with publisher := .queueing group }
  | .queueing group =>
    (SPSCQueue.step movedFrom (f.encodeQueues group) (.producer ())).map fun q =>
      -- The call has returned when its thread is in none.
      { f.setQueue group q with
        publisher := if (q.producers ()).isSome then .queueing group else .idle }

def callPop (f : Feed) (group : DataGroup) : Option Feed :=
  (SPSCQueue.step movedFrom (f.encodeQueues group) .callPop).map fun q =>
    { f.setQueue group q with encoder := .popping group }

/-- What `encode_loop` does with one bundle of a frame. -/
def encode (f : Feed) (address : UInt64) (compress : Bytes → ℕ → ℕ → Option Bytes)
    (cameraId : String) (b : SharedBundle) : Feed :=
  if b.bundle.type ≠ .stereoImage ∨ b.bundle.payload = [] ∨ b.address = f.lastEncodedPtr then f
  else
    let f := { f with lastEncodedPtr := b.address }
    match encodeStereoImage compress b.bundle.payload with
    | none => f
    | some encoded =>
      let out : SharedBundle := ⟨address, { b.bundle with payload := encoded }, cameraId, b.order⟩
      { f with encodedStereo := Function.update f.encodedStereo cameraId (some out) }

/-- The next step of `encode_loop`. The frames of the other two groups are dropped. -/
def encoderStep (f : Feed) (address : UInt64) (compress : Bytes → ℕ → ℕ → Option Bytes) :
    Option Feed :=
  match f.encoder with
  | .waiting => f.callPop movedFrom .visualGeometric2D
  | .popping group =>
    match (f.encodeQueues group).consumer with
    | none => none
    | some pc =>
      (SPSCQueue.step movedFrom (f.encodeQueues group) .consumer).bind fun q =>
        match (SPSCQueue.pop movedFrom (f.encodeQueues group).queue pc).2 with
        | .inl _ => some (f.setQueue group q)
        | .inr (some frame) =>
          if group = .visualGeometric2D then
            some { f.setQueue group q with encoder := .encoding frame.cameraId frame.bundles }
          else (f.setQueue group q).callPop movedFrom group
        | .inr none =>
          match DataPipeline.nextGroup group with
          | some group' => (f.setQueue group q).callPop movedFrom group'
          | none => some { f.setQueue group q with encoder := .waiting }
  | .encoding _ [] => f.callPop movedFrom .visualGeometric2D
  | .encoding cameraId (b :: rest) =>
    some { f.encode address compress cameraId b with encoder := .encoding cameraId rest }

end

def fetch (f : Feed) (slot : BufferSlotKey) : Option SharedBundle :=
  if slot.type = .stereoImage then f.encodedStereo slot.cameraId
  else f.buffer2.getLatest slot.cameraId slot.type

end Feed

structure SendItem where
  type : DataType
  bundle : SharedBundle

inductive LoopPc
  | reading
  | looking
  | visiting (slots : List BufferSlotKey)
  | fetched (slot : BufferSlotKey) (bundle : SharedBundle) (slots : List BufferSlotKey)
  | finished

structure WSSClient where
  subscriptions : Finset Bytes
  lastSent : String → UInt64
  sendQueue : List SendItem
  loop : LoopPc
  sender : Option SendItem
  /-- The calls of `send_to_one`, in that order. -/
  sent : List SendItem

namespace WSSClient

def init : WSSClient := ⟨∅, fun _ => 0, [], .reading, none, []⟩

def readFrame (parse : Bytes → Except JsonException Json) (c : WSSClient) :
    Option Frame → WSSClient
  | none => { c with loop := .looking }
  | some frame =>
    if frame.opcode = 0x8 then { c with loop := .finished }
    else if frame.opcode = 0x1 ∧ frame.payload ≠ [] then
      { c with subscriptions := ((handleText parse frame.payload).run.run c.subscriptions).2
               loop := .looking }
    else { c with loop := .looking }

/-- The loop over `subscriptions`. -/
def isSubscribed (c : WSSClient) (slot : BufferSlotKey) : Prop :=
  ∃ sub ∈ c.subscriptions, sub = bytes "all" ∨ sub = bytes (dataTypeToChannel slot.type) ∨
    sub = bytes (slot.cameraId ++ "/" ++ dataTypeToChannel slot.type)

instance (c : WSSClient) (slot : BufferSlotKey) : Decidable (c.isSubscribed slot) :=
  inferInstanceAs (Decidable (∃ sub ∈ c.subscriptions, _))

def dedupKey (slot : BufferSlotKey) : String := slot.cameraId ++ "/" ++ toString slot.type.toNat

/-- The filter for duplicates, and the queue, where a new item replaces those of its type. -/
def enqueue (c : WSSClient) (slot : BufferSlotKey) (b : SharedBundle) : WSSClient :=
  if c.lastSent (dedupKey slot) = b.address then c
  else
    { c with lastSent := Function.update c.lastSent (dedupKey slot) b.address
             sendQueue := c.sendQueue.filter (·.type ≠ slot.type) ++ [⟨slot.type, b⟩] }

def visit (f : Feed) (c : WSSClient) : Option WSSClient :=
  match c.loop with
  | .visiting [] => some { c with loop := .reading }
  | .visiting (slot :: slots) =>
    if c.isSubscribed slot then
      match f.fetch slot with
      | some b =>
        if b.bundle.payload = [] then some { c with loop := .visiting slots }
        else some { c with loop := .fetched slot b slots }
      | none => some { c with loop := .visiting slots }
    else some { c with loop := .visiting slots }
  | .fetched slot b slots => some { c.enqueue slot b with loop := .visiting slots }
  | _ => none

def sendLoop (c : WSSClient) : Option WSSClient :=
  match c.sender with
  | some item => some { c with sender := none, sent := c.sent ++ [item] }
  | none =>
    match c.sendQueue with
    | [] => none
    | item :: queue => some { c with sendQueue := queue, sender := some item }

end WSSClient

structure State where
  feed : Feed
  client : WSSClient

/-- `slots` is the order in which `active_slots` lists the slots. -/
inductive Action
  | publish (cameraId : String) (timestamp : Timestamp) (bundles : List (UInt64 × DataBundle))
  | publisher
  | clear
  | encoder (address : UInt64) (compress : Bytes → ℕ → ℕ → Option Bytes)
  | readFrame (frame : Option Frame)
  | leave
  | look (slots : List BufferSlotKey)
  | visit
  | send

def State.setFeed (s : State) (f : Feed) : State := { s with feed := f }

def State.setClient (s : State) (c : WSSClient) : State := { s with client := c }

def step (parse : Bytes → Except JsonException Json) (movedFrom : SharedFrame → SharedFrame)
    (s : State) : Action → Option State
  | .publish cameraId timestamp bundles =>
    (s.feed.publish cameraId timestamp bundles).map s.setFeed
  | .publisher => (s.feed.publisherStep movedFrom).map s.setFeed
  | .clear => some (s.setFeed { s.feed with buffer2 := s.feed.buffer2.clear })
  | .encoder address compress => (s.feed.encoderStep movedFrom address compress).map s.setFeed
  | .readFrame frame =>
    match s.client.loop with
    | .reading => some (s.setClient (s.client.readFrame parse frame))
    | _ => none
  | .leave =>
    match s.client.loop with
    | .reading => some (s.setClient { s.client with loop := .finished })
    | _ => none
  | .look slots =>
    match s.client.loop with
    | .looking =>
      if s.client.subscriptions = ∅ then some (s.setClient { s.client with loop := .reading })
      else if slots.Perm s.feed.buffer2.activeSlots then
        some (s.setClient { s.client with loop := .visiting slots })
      else none
    | _ => none
  | .visit => (s.client.visit s.feed).map s.setClient
  | .send => s.client.sendLoop.map s.setClient

end StereoCamera.WSServer.Delivery
