import StereoCamera.Data.DataPublisher
import StereoCamera.Data.DealerLoop

/-! The subscriber that used to stand between `publish_group` and the WebSocket server
(`data/LoopbackSubscriber.cpp`), against the path that replaced it. -/

namespace StereoCamera

/-- Its buffer and its encode callback belong to the WebSocket server. -/
structure LoopbackSubscriber where
  server : EncodeSide
  totalFrames : UInt64

namespace LoopbackSubscriber

def receiveFrame (parse : Bytes → Except JsonException Json) (hdrStr : Bytes)
    (payloads : List Bytes) : BufferM ChannelFrame := do
  let hdr ← parse hdrStr
  let parts ← hdr.indexKey "parts"
  let hdr := hdr.asObject
  let sec ← hdr.valueWith Json.getInt64 "ts_sec" 0
  let nsec ← hdr.valueWith Json.getInt64 "ts_nsec" 0
  let cameraId ← hdr.value "camera_id" (bytes "default")
  let cameraId := Utf8.decode cameraId
  let bundles ← receiveParts cameraId ⟨sec, nsec⟩ parts 0 payloads
  return ⟨cameraId, ⟨sec, nsec⟩, bundles⟩

/-- `sub_loop`, for one multipart message. -/
def receive (parse : Bytes → Except JsonException Json) (sub : LoopbackSubscriber)
    (zparts : List Bytes) : LoopbackSubscriber :=
  match zparts with
  | _topic :: hdrStr :: payloads =>
    match (receiveFrame parse hdrStr payloads).run.run sub.server.buffer2 with
    | (.ok frame, buffer2) =>
      let server := { sub.server with buffer2 := buffer2 }
      let server := match frame.bundles with
        | [] => server
        | b :: _ => server.pushEncode (dataTypeToGroup b.type) frame
      ⟨server, sub.totalFrames + 1⟩
    | (.error _, buffer2) => { sub with server := { sub.server with buffer2 := buffer2 } }
  | _ => sub

theorem namesTypes_partJson (bundles : List DataBundle) :
    NamesTypes (bundles.map DataPublisher.partJson) (bundles.map (·.type)) := by
  unfold NamesTypes
  rw [List.forall₂_map_left_iff, List.forall₂_map_right_iff]
  apply List.forall₂_same.mpr
  intro b _
  rfl

theorem foldl_push (cameraId : String) (bundles : List DataBundle) (s : EncodeSide) :
    bundles.foldl (fun s b => s.push cameraId b) s =
      { s with buffer2 := pushAll cameraId bundles s.buffer2 } := by
  induction bundles generalizing s with
  | nil => rfl
  | cons b bundles ih =>
    rw [List.foldl_cons, ih]
    rfl

theorem run_receiveFrame {parse : Bytes → Except JsonException Json} {hdrStr : Bytes}
    {channel : String} {frame : ChannelFrame}
    (hparse : parse hdrStr = .ok (DataPublisher.groupHeader channel frame))
    (hts : ∀ b ∈ frame.bundles, b.timestamp = frame.timestamp) (buffer : DataBuffer DataBundle) :
    (receiveFrame parse hdrStr (frame.bundles.map (·.payload))).run.run buffer =
      (.ok frame, pushAll frame.cameraId frame.bundles buffer) := by
  have hparts : (DataPublisher.groupHeader channel frame).indexKey "parts" =
      .ok (.array (frame.bundles.map DataPublisher.partJson)) := rfl
  have hsec : (DataPublisher.groupHeader channel frame).asObject.valueWith Json.getInt64
      "ts_sec" 0 = .ok frame.timestamp.sec := by
    change Except.ok (Int64.ofInt frame.timestamp.sec.toInt) = _
    rw [Int64.ofInt_toInt]
  have hnsec : (DataPublisher.groupHeader channel frame).asObject.valueWith Json.getInt64
      "ts_nsec" 0 = .ok frame.timestamp.nsec := by
    change Except.ok (Int64.ofInt frame.timestamp.nsec.toInt) = _
    rw [Int64.ofInt_toInt]
  have hcamera : (DataPublisher.groupHeader channel frame).asObject.value "camera_id"
      (bytes "default") = .ok (bytes frame.cameraId) := rfl
  have hloop := run_receiveParts frame.cameraId frame.timestamp [] frame.bundles hts
    (namesTypes_partJson frame.bundles) buffer
  unfold receiveFrame
  rw [hparse, run_liftM_ok_bind, hparts, run_liftM_ok_bind]
  dsimp only
  rw [hsec, run_liftM_ok_bind, hnsec, run_liftM_ok_bind, hcamera, run_liftM_ok_bind, bytes,
    Utf8.decode_encode]
  exact run_bind_of_ok hloop _

/-- A frame that is published and received again does to the WebSocket server what
`pub_callback` does with the frame itself. -/
theorem receive_publishGroup {parse : Bytes → Except JsonException Json} {print : Json → Bytes}
    {channel : String} {frame : ChannelFrame} (hne : frame.bundles ≠ [])
    (hts : ∀ b ∈ frame.bundles, b.timestamp = frame.timestamp)
    (hlossless : parse (print (DataPublisher.groupHeader channel frame)) =
      .ok (DataPublisher.groupHeader channel frame)) (sub : LoopbackSubscriber) :
    ∃ zparts, DataPublisher.publishGroup print channel frame = .ok zparts ∧
      sub.receive parse zparts = ⟨sub.server.pubCallback frame, sub.totalFrames + 1⟩ := by
  refine ⟨_, DataPublisher.publishGroup_eq print channel hne, ?_⟩
  unfold receive EncodeSide.pubCallback
  dsimp only
  have hrun := run_receiveFrame hlossless hts sub.server.buffer2
  rcases hb : frame.bundles with _ | ⟨b, bundles⟩
  · exact absurd hb hne
  · rw [hb] at hrun
    simp only [hrun, hb, foldl_push]

/-- The header of three readings, as the publisher prints it. -/
def readingsText : Bytes :=
  bytes ("\x7b\"camera_id\":\"cam1\",\"channel\":\"sensor_tracking\",\"parts\":[\x7b" ++
    "\"id\":\"temperature\",\"size\":2\x7d,\x7b\"id\":\"imu\",\"size\":3\x7d,\x7b" ++
    "\"id\":\"temperature\",\"size\":1\x7d],\"ts_nsec\":5,\"ts_sec\":4102444800\x7d")

def readingsFrame : ChannelFrame :=
  ⟨"cam1", ⟨4102444800, 5⟩, [⟨⟨4102444800, 5⟩, .temperature, [21, 7]⟩,
    ⟨⟨4102444800, 5⟩, .imu, [1, 2, 3]⟩, ⟨⟨4102444800, 5⟩, .temperature, [22]⟩]⟩

def freshSubscriber : LoopbackSubscriber :=
  ⟨⟨DataBuffer.mk' 3, fun _ => (SPSCQueue.Queue.init fun _ => ⟨"", ⟨0, 0⟩, []⟩).setMaxDepth 4⟩, 0⟩

theorem receive_publishGroup_readings :
    ∃ zparts, DataPublisher.publishGroup (fun _ => readingsText) "sensor_tracking"
        readingsFrame = .ok zparts ∧
      freshSubscriber.receive (fun text => if text = readingsText then
          .ok (DataPublisher.groupHeader "sensor_tracking" readingsFrame)
        else .error (.parseError text)) zparts =
          ⟨freshSubscriber.server.pubCallback readingsFrame, 1⟩ := by
  refine receive_publishGroup (List.cons_ne_nil _ _) ?_ (if_pos rfl) freshSubscriber
  simp [readingsFrame]

end LoopbackSubscriber

end StereoCamera
