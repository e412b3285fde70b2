import StereoCamera.Common.Json
import StereoCamera.Data.DataBuffer
import StereoCamera.Data.DataPipeline
import StereoCamera.Data.SPSCQueueCalls

/-! The multipart messages of `publish_group` (`data/DataPublisher.cpp`), and the path on which
`main` hands every published frame to the WebSocket server without them. -/

namespace StereoCamera

namespace DataPublisher

def partJson (b : DataBundle) : Json :=
  .object [("id", .string (bytes (dataTypeToChannel b.type))), ("size", .integer b.payload.length)]

/-- The header; the library keeps its members in the order of their keys. -/
def groupHeader (channel : String) (frame : ChannelFrame) : Json :=
  .object [("camera_id", .string (bytes frame.cameraId)), ("channel", .string (bytes channel)),
    ("parts", .array (frame.bundles.map partJson)),
    ("ts_nsec", .integer frame.timestamp.nsec.toInt),
    ("ts_sec", .integer frame.timestamp.sec.toInt)]

/-- The frames of the message that goes out on the socket of `channel`. -/
def publishGroup (print : Json → Bytes) (channel : String) (frame : ChannelFrame) :
    Except JsonException (List Bytes) :=
  if frame.bundles = [] then return []
  else do
    let hdrStr ← (groupHeader channel frame).dump print
    let topic := bytes (frame.cameraId ++ "/" ++ channel)
    return topic :: hdrStr :: frame.bundles.map (·.payload)

theorem validUtf8_groupHeader (channel : String) (frame : ChannelFrame) :
    (groupHeader channel frame).ValidUtf8 := by
  refine ⟨Utf8.valid_encode _, Utf8.valid_encode _, ?_, trivial, trivial, trivial⟩
  apply Json.allValidUtf8_iff.mpr
  intro j hj
  obtain ⟨b, -, rfl⟩ := List.mem_map.mp hj
  exact ⟨Utf8.valid_encode _, trivial, trivial⟩

theorem publishGroup_eq (print : Json → Bytes) (channel : String) {frame : ChannelFrame}
    (hne : frame.bundles ≠ []) :
    publishGroup print channel frame =
      .ok (bytes (frame.cameraId ++ "/" ++ channel) :: print (groupHeader channel frame) ::
        frame.bundles.map (·.payload)) := by
  unfold publishGroup Json.dump
  rw [if_neg hne, if_pos (validUtf8_groupHeader channel frame)]
  rfl

end DataPublisher

/-- What the publisher thread feeds in the WebSocket server: buffer #2 and the queues of
`encode_loop`. -/
structure EncodeSide where
  buffer2 : DataBuffer DataBundle
  encodeQueues : DataGroup → DataPipeline.FrameQ

namespace EncodeSide

def push (s : EncodeSide) (cameraId : String) (b : DataBundle) : EncodeSide :=
  { s with buffer2 := s.buffer2.push cameraId b.type b }

/-- `WSServer::push_encode`; an accepted frame also wakes `encode_loop`. -/
def pushEncode (s : EncodeSide) (group : DataGroup) (frame : ChannelFrame) : EncodeSide :=
  let queue := ((s.encodeQueues group).callTryPush frame).1
  { s with encodeQueues := Function.update s.encodeQueues group queue }

/-- `pub_callback` in `main`. -/
def pubCallback (s : EncodeSide) (frame : ChannelFrame) : EncodeSide :=
  let s := frame.bundles.foldl (fun s b => s.push frame.cameraId b) s
  match frame.bundles with
  | [] => s
  | b :: _ => s.pushEncode (dataTypeToGroup b.type) frame

end EncodeSide

end StereoCamera
