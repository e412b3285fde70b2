import Mathlib.Algebra.BigOperators.Group.Finset.Basic
import Mathlib.Data.Fintype.Basic
import StereoCamera.Common.Types
import StereoCamera.Data.SPSCQueueFifo

/-! The shared `DataPipeline`: one dealer thread for each capturing camera pushes into
the three queues, and `pub_loop` drains them (`SDKSlotManager.cpp`, `DataPublisher.cpp`). -/

namespace StereoCamera.DataPipeline
open Transition

def frameCapacity : SPSCQueue.Capacity := ⟨16, by decide, by decide⟩

abbrev FrameQ := SPSCQueue.Queue frameCapacity ChannelFrame

inductive DealerPc
  | receiving
  | pushing (g : DataGroup)
  | counting (pushed : Bool)
  deriving DecidableEq

/-- Where `pub_loop` stands: in the condition wait, inside `pop` on one queue, or with a
popped frame that it has not handed over yet. -/
inductive PubPc
  | waiting
  | popping (g : DataGroup)
  | handing (g : DataGroup) (frame : ChannelFrame)

structure State (D : Type) where
  lanes : DataGroup → SPSCQueue.State frameCapacity D ChannelFrame
  dealers : D → DealerPc
  pub : PubPc
  totalPushed : UInt64
  totalDropped : UInt64
  /-- Frames given to `publish_group` and `pub_callback_`, in that order. -/
  handed : DataGroup → List ChannelFrame

inductive Action (D : Type)
  | receive (d : D) (g : DataGroup) (timestamp : Timestamp) (bundles : List DataBundle)
  | dealer (d : D)
  | pub

variable {D : Type} [DecidableEq D]

def State.init (q : DataGroup → FrameQ) : State D where
  lanes := fun g => SPSCQueue.State.init D (q g)
  dealers := fun _ => .receiving
  pub := .waiting
  totalPushed := 0
  totalDropped := 0
  handed := fun _ => []

def setLane (s : State D) (g : DataGroup) (l : SPSCQueue.State frameCapacity D ChannelFrame) :
    State D :=
  { s with lanes := Function.update s.lanes g l }

def setDealer (s : State D) (d : D) (pc : DealerPc) : State D :=
  { s with dealers := Function.update s.dealers d pc }

def handOver (s : State D) (g : DataGroup) (frame : ChannelFrame) : State D :=
  { s with handed := Function.update s.handed g (s.handed g ++ [frame]) }

/-- The queue that `pub_loop` drains after `g`; none after the last one. -/
def nextGroup : DataGroup → Option DataGroup
  | .visualGeometric2D => some .visualGeometric3D
  | .visualGeometric3D => some .sensorTracking
  | .sensorTracking => none

section
variable (camera : D → String) (movedFrom : ChannelFrame → ChannelFrame)

def callPop (s : State D) (g : DataGroup) : Option (State D) :=
  (SPSCQueue.step movedFrom (s.lanes g) .callPop).map fun l =>
    { setLane s g l with pub := .popping g }

def dealerStep (s : State D) (d : D) : Option (State D) :=
  match s.dealers d with
  | .receiving => none
  | .pushing g =>
    match (s.lanes g).producers d with
    | none => none
    | some pc =>
      (SPSCQueue.step movedFrom (s.lanes g) (.producer d)).map fun l =>
        match (SPSCQueue.tryPush (s.lanes g).queue pc).2 with
        | .inl _ => setLane s g l
        | .inr pushed => setDealer (setLane s g l) d (.counting pushed)
  | .counting true => some { setDealer s d .receiving with totalPushed := s.totalPushed + 1 }
  | .counting false => some { setDealer s d .receiving with totalDropped := s.totalDropped + 1 }

def pubStep (s : State D) : Option (State D) :=
  match s.pub with
  | .waiting => callPop movedFrom s .visualGeometric2D
  | .handing g frame => callPop movedFrom (handOver s g frame) g
  | .popping g =>
    match (s.lanes g).consumer with
    | none => none
    | some pc =>
      (SPSCQueue.step movedFrom (s.lanes g) .consumer).bind fun l =>
        match (SPSCQueue.pop movedFrom (s.lanes g).queue pc).2 with
        | .inl _ => some (setLane s g l)
        | .inr (some frame) => some { setLane s g l with pub := .handing g frame }
        | .inr none =>
          match nextGroup g with
          | some g' => callPop movedFrom (setLane s g l) g'
          | none => some { setLane s g l with pub := .waiting }

def step (s : State D) : Action D → Option (State D)
  | .receive d g timestamp bundles =>
    match s.dealers d with
    | .receiving =>
      (SPSCQueue.step movedFrom (s.lanes g)
        (.callTryPush d ⟨camera d, timestamp, bundles⟩)).map fun l =>
          setDealer (setLane s g l) d (.pushing g)
    | _ => none
  | .dealer d => dealerStep movedFrom s d
  | .pub => pubStep movedFrom s

end

/-- No dealer writes a cell from a stale `write_pos_`, or while another dealer has filled
its cell of that queue and not yet published it. -/
def Exclusive (s : State D) : Action D → Prop
  | .dealer d => ∀ g, s.dealers d = .pushing g → SPSCQueue.Exclusive (s.lanes g) (.producer d)
  | _ => True

end StereoCamera.DataPipeline
