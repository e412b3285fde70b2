import StereoCamera.Data.DataPath
import StereoCamera.Data.LoopbackSubscriber
import StereoCamera.Data.Relay
import StereoCamera.Lib.Multipart

/-! The sockets on which `pub_loop` publishes the frames and `publish_shutdown` its notice
(`data/DataPublisher.cpp`), beside the rest of the way of a camera's data. -/

namespace StereoCamera.PubSockets
open Multipart

inductive Thread
  | pub
  | caller
  deriving DecidableEq

/-- Where `pub_loop` stands: in the condition wait, before `sockets_mutex_`, with it, or
returned. -/
inductive LoopPc
  | waiting
  | locking
  | holding
  | returned
  deriving DecidableEq

/-- Where the thread that calls `publish_shutdown` and `stop` stands; the sockets that have not
got the notice yet. -/
inductive CallerPc
  | idle
  | announceLock
  | announcing (sockets : List String)
  | joining
  | closeLock
  | closing
  deriving DecidableEq

structure State (D : Type) where
  path : DataPath.State D
  /-- The channels in `zmq_sockets_`, in the order of the loops over them. -/
  sockets : List String
  running : Bool
  mutex : Option Thread
  loop : LoopPc
  /-- What `publish_group` has not sent yet, once it is called for the popped frame. -/
  sending : Option (List (MessagePart Bytes))
  caller : CallerPc
  wire : String → List (MessagePart Bytes)

/-- `publish_shutdown` and `stop` are called, or their next step is made. -/
inductive Action (D : Type)
  | path (a : DataPath.Action D)
  | pub (addresses : List UInt64)
  | publishShutdown
  | stop
  | caller

def shutdownNotice : Bytes :=
  bytes "\x7b\"event\":\"server_shutdown\",\"message\":\"Service restarting\"\x7d"

variable {D : Type} [DecidableEq D]

/-- `start`, with the sockets that could be bound. -/
def init (path : DataPath.State D) (sockets : List String) : State D where
  path := path
  sockets := sockets
  running := true
  mutex := none
  loop := .waiting
  sending := none
  caller := .idle
  wire := fun _ => []

def send (s : State D) (channel : String) (p : MessagePart Bytes) : State D :=
  { s with wire := Function.update s.wire channel (s.wire channel ++ [p]) }

section
variable (print : Json → Bytes) (parse : Bytes → Except JsonException Json) (camera : D → String)
  (movedFrom : ChannelFrame → ChannelFrame)
  (encodeMovedFrom : WSServer.Delivery.SharedFrame → WSServer.Delivery.SharedFrame)
  (compress : Bytes → ℕ → ℕ → Option Bytes)

def publishGroup (s : State D) (g : DataGroup) (frame : ChannelFrame) : Option (State D) :=
  if pubChannel g ∈ s.sockets then
    match DataPublisher.publishGroup print (pubChannel g) frame with
    | .ok out => some { s with sending := some (parts out) }
    | .error _ => none
  else some { s with sending := some [] }

/-- `pub_loop` pops, or is in `pub_callback`. Behind the last queue it lets go of the mutex. -/
def popStep (s : State D) (addresses : List UInt64) : Option (State D) :=
  (DataPath.pubStep movedFrom encodeMovedFrom s.path addresses).map fun path =>
    let s := { s with path := path, sending := if path.inCallback then s.sending else none }
    match path.pipeline.pub with
    | .waiting => { s with mutex := none, loop := .waiting }
    | _ => { s with mutex := some .pub, loop := .holding }

/-- The condition wait may end at any time, with or without a frame. -/
def pubStep (s : State D) (addresses : List UInt64) : Option (State D) :=
  match s.loop with
  | .waiting => some { s with loop := if s.running then .locking else .returned }
  | .locking => if s.mutex = none then popStep movedFrom encodeMovedFrom s addresses else none
  | .holding =>
    match s.path.pipeline.pub, s.sending with
    | .handing g frame, none => publishGroup print s g frame
    | .handing g _, some (p :: ps) => some { send s (pubChannel g) p with sending := some ps }
    | _, _ => popStep movedFrom encodeMovedFrom s addresses
  | .returned => none

def callerStep (s : State D) : Option (State D) :=
  match s.caller with
  | .idle => none
  | .announceLock =>
    if s.mutex = none then
      some { s with mutex := some .caller, caller := .announcing s.sockets }
    else none
  | .announcing (channel :: sockets) =>
    some { send s channel ⟨shutdownNotice, false⟩ with caller := .announcing sockets }
  | .announcing [] => some { s with mutex := none, caller := .idle }
  | .joining => if s.loop = .returned then some { s with caller := .closeLock } else none
  | .closeLock =>
    if s.mutex = none then some { s with mutex := some .caller, caller := .closing } else none
  | .closing => some { s with sockets := [], mutex := none, caller := .idle }

def step (s : State D) : Action D → Option (State D)
  | .path (.pub _) => none
  | .path a =>
    (DataPath.step parse camera movedFrom encodeMovedFrom compress s.path a).map fun path =>
      { s with path := path }
  | .pub addresses => pubStep print movedFrom encodeMovedFrom s addresses
  | .publishShutdown =>
    match s.caller with
    | .idle => some { s with caller := .announceLock }
    | _ => none
  | .stop =>
    match s.caller with
    | .idle => some { s with running := false, caller := .joining }
    | _ => none
  | .caller => callerStep s

def made (s : State D) : Action D → List (D × DataGroup × ChannelFrame)
  | .path a => DataPath.made parse camera s.path a
  | _ => []

end

def Exclusive (s : State D) : Action D → Prop
  | .path a => DataPath.Exclusive s.path a
  | _ => True

/-- A subscriber gets whole messages of each socket, in their order, but not necessarily all. -/
def Receives (s : State D) (received : List (String × List Bytes)) : Prop :=
  ∀ channel, (ofKey channel received).Sublist (messages (s.wire channel))

end StereoCamera.PubSockets
