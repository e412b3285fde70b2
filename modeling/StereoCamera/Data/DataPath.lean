import StereoCamera.Data.DealerLoop
import StereoCamera.Data.PipelineConservation
import StereoCamera.Data.WSServerOrigins

/-! The way of a camera's data through the whole node (`main.cpp`): from the messages that
`dealer_loop` receives, by way of the queues of the pipeline, `pub_loop` and `pub_callback`, to
the threads that serve one client. -/

namespace StereoCamera.DataPath
open Transition

structure State (D : Type) where
  buffer1 : DataBuffer DataBundle
  pipeline : DataPipeline.State D
  server : WSServer.Delivery.State
  /-- `pub_loop` is in `pub_callback` with the frame that it has popped. -/
  inCallback : Bool
  published : List (DataGroup × ChannelFrame)

/-- Each dealer receives messages; commands create and remove slots of buffer #1. What
`encode_loop` makes of an image lies at an address. -/
inductive Action (D : Type)
  | receive (d : D) (grp : String) (zparts : List Bytes)
  | commands (buffer1 : DataBuffer DataBundle)
  | dealer (d : D)
  | pub (addresses : List UInt64)
  | encoder (address : UInt64)
  | server (a : WSServer.Delivery.Action)

def fromQueue (g : DataGroup) (frames : List (DataGroup × ChannelFrame)) : List ChannelFrame :=
  (frames.filter (·.1 = g)).map Prod.snd

def items (frames : List (DataGroup × ChannelFrame)) : List (String × DataBundle) :=
  frames.flatMap fun p => p.2.bundles.map fun b => (p.2.cameraId, b)

variable {D : Type} [DecidableEq D]

def madeBy (d : D) (g : DataGroup) (made : List (D × DataGroup × ChannelFrame)) :
    List ChannelFrame :=
  fromQueue g ((made.filter (·.1 = d)).map Prod.snd)

def init (depth queueDepth : UInt64) (cells : DataGroup → Fin DataPipeline.frameCapacity.val.toNat →
    ChannelFrame) (encodeCells : Fin DataPipeline.frameCapacity.val.toNat →
    WSServer.Delivery.SharedFrame) : State D where
  buffer1 := .mk' depth
  pipeline := .init fun g => (SPSCQueue.Queue.init (cells g)).setMaxDepth queueDepth
  server := ⟨.init depth queueDepth encodeCells, .init⟩
  inCallback := false
  published := []

section
variable (parse : Bytes → Except JsonException Json) (camera : D → String)
  (movedFrom : ChannelFrame → ChannelFrame)
  (encodeMovedFrom : WSServer.Delivery.SharedFrame → WSServer.Delivery.SharedFrame)
  (compress : Bytes → ℕ → ℕ → Option Bytes)

def made (s : State D) : Action D → List (D × DataGroup × ChannelFrame)
  | .receive d grp zparts =>
    match ((dealerReceive parse (camera d) grp zparts).run.run s.buffer1).1 with
    | .ok (some (g, frame)) => [(d, g, frame)]
    | _ => []
  | _ => []

def receive (s : State D) (d : D) (grp : String) (zparts : List Bytes) : Option (State D) :=
  match s.pipeline.dealers d with
  | .receiving =>
    match (dealerReceive parse (camera d) grp zparts).run.run s.buffer1 with
    | (.ok (some (g, frame)), buffer1) =>
      (DataPipeline.step camera movedFrom s.pipeline
        (.receive d g frame.timestamp frame.bundles)).map fun p =>
          { s with buffer1 := buffer1, pipeline := p }
    | (_, buffer1) => some { s with buffer1 := buffer1 }
  | _ => none

def popStep (s : State D) : Option (State D) :=
  (DataPipeline.pubStep movedFrom s.pipeline).map fun p =>
    { s with pipeline := p, inCallback := false }

def pubStep (s : State D) (addresses : List UInt64) : Option (State D) :=
  match s.pipeline.pub with
  | .handing g frame =>
    if s.inCallback then
      match s.server.feed.publisher with
      | .idle => popStep movedFrom s
      | _ => (s.server.feed.publisherStep encodeMovedFrom).map fun f =>
          { s with server := s.server.setFeed f }
    else if frame.bundles = [] then
      popStep movedFrom { s with published := s.published ++ [(g, frame)] }
    else if addresses.length = frame.bundles.length then
      (s.server.feed.publish frame.cameraId frame.timestamp
        (addresses.zip frame.bundles)).map fun f =>
          { s with server := s.server.setFeed f
                   inCallback := true
                   published := s.published ++ [(g, frame)] }
    else none
  | _ => popStep movedFrom s

/-- A step of the threads of the client, or `buffer2->clear`. -/
def serverStep (s : State D) (a : WSServer.Delivery.Action) : Option (State D) :=
  match a with
  | .publish _ _ _ | .publisher | .encoder _ _ => none
  | a => (WSServer.Delivery.step parse encodeMovedFrom s.server a).map fun server =>
      { s with server := server }

def step (s : State D) : Action D → Option (State D)
  | .receive d grp zparts => receive parse camera movedFrom s d grp zparts
  | .commands buffer1 => some { s with buffer1 := buffer1 }
  | .dealer d => (DataPipeline.step camera movedFrom s.pipeline (.dealer d)).map fun p =>
      { s with pipeline := p }
  | .pub addresses => pubStep movedFrom encodeMovedFrom s addresses
  | .encoder address =>
    (WSServer.Delivery.step parse encodeMovedFrom s.server (.encoder address compress)).map
      fun server => { s with server := server }
  | .server a => serverStep parse encodeMovedFrom s a

end

/-- No two dealers fill the same position of a queue. -/
def Exclusive (s : State D) : Action D → Prop
  | .dealer d => DataPipeline.Exclusive s.pipeline (.dealer d)
  | _ => True

end StereoCamera.DataPath
