import StereoCamera.Data.DataPublisher
import StereoCamera.Data.DealerLoop
import StereoCamera.Data.SPSCQueueFifo

/-! What becomes of a camera's message on its way through `dealer_loop`, a queue of the
pipeline and `publish_group`. -/

namespace StereoCamera

structure CameraMessage where
  sec : Int64
  nsec : Int64
  parts : List (DataType × Bytes)
  nonempty : parts ≠ []

namespace CameraMessage

/-- The frames are an active header with these times and parts, and the payloads. -/
structure Carries (parse : Bytes → Except JsonException Json) (zparts : List Bytes) (hdr : Json)
    (msg : CameraMessage) : Prop where
  frames : ∃ hdrStr, zparts = hdrStr :: msg.parts.map Prod.snd ∧ parse hdrStr = .ok hdr
  active : hdr.valueWith Json.getBool "active" true = .ok true
  sec : hdr.item "ts_sec" = .integer msg.sec.toInt
  nsec : hdr.item "ts_nsec" = .integer msg.nsec.toInt
  parts : ∃ parts, hdr.item "parts" = .array parts ∧ NamesTypes parts (msg.parts.map Prod.fst)

def FitsInt (msg : CameraMessage) : Prop :=
  (-2 ^ 31 ≤ msg.sec.toInt ∧ msg.sec.toInt < 2 ^ 31) ∧
    -2 ^ 31 ≤ msg.nsec.toInt ∧ msg.nsec.toInt < 2 ^ 31

/-- A published header says of the message what the camera's header said. -/
structure HeaderPreserves (hdr : Json) (msg : CameraMessage) : Prop where
  sec : hdr.item "ts_sec" = .integer msg.sec.toInt
  nsec : hdr.item "ts_nsec" = .integer msg.nsec.toInt
  parts : ∃ parts, hdr.item "parts" = .array parts ∧
    List.Forall₂ (fun part p => part.item "id" = .string (bytes (dataTypeToChannel p.1)) ∧
      part.item "size" = .integer p.2.length) parts msg.parts

def Preserved (print : Json → Bytes) (channel : String) (frame : ChannelFrame) (out : List Bytes)
    (msg : CameraMessage) : Prop :=
  (∃ topic, out = topic :: print (DataPublisher.groupHeader channel frame) ::
    msg.parts.map Prod.snd) ∧ HeaderPreserves (DataPublisher.groupHeader channel frame) msg

def frame (msg : CameraMessage) (cameraId : String) : ChannelFrame :=
  let timestamp : Timestamp :=
    ⟨(Int32.ofInt msg.sec.toInt).toInt64, (Int32.ofInt msg.nsec.toInt).toInt64⟩
  ⟨cameraId, timestamp, msg.parts.map fun p => ⟨timestamp, p.1, p.2⟩⟩

variable {parse : Bytes → Except JsonException Json} {zparts : List Bytes} {hdr : Json}
  {msg : CameraMessage}

theorem getInt_of_item {n : ℤ} {key : String}
    (hobj : ∃ members, hdr = .object members) (h : hdr.item key = .integer n) :
    hdr.valueWith Json.getInt key 0 = .ok (Int32.ofInt n) := by
  obtain ⟨members, rfl⟩ := hobj
  unfold Json.item at h
  unfold Json.valueWith
  cases hl : members.lookup key with
  | none =>
    simp [hl] at h
  | some v =>
    have hv : v = .integer n := by simpa [hl] using h
    dsimp only
    rw [hl, hv]
    rfl

theorem Carries.object (h : msg.Carries parse zparts hdr) : ∃ members, hdr = .object members := by
  have hactive := h.active
  cases hdr with
  | object members => exact ⟨members, rfl⟩
  | _ => cases hactive

theorem run_dealerReceive (h : msg.Carries parse zparts hdr) (cameraId : String) {grp : String}
    {group : DataGroup} (hgrp : socketGroup grp = some group) (buffer : DataBuffer DataBundle) :
    (dealerReceive parse cameraId grp zparts).run.run buffer =
      (.ok (some (group, msg.frame cameraId)),
        pushAll cameraId (msg.frame cameraId).bundles buffer) := by
  obtain ⟨hdrStr, rfl, hparse⟩ := h.frames
  obtain ⟨parts, hparts, hnames⟩ := h.parts
  have hindex : hdr.indexKey "parts" = .ok (.array parts) := by
    obtain ⟨members, rfl⟩ := h.object
    exact congrArg Except.ok hparts
  have htypes : (msg.frame cameraId).bundles.map (·.type) = msg.parts.map Prod.fst := by
    simp [CameraMessage.frame]
  have hpayloads : (msg.frame cameraId).bundles.map (·.payload) = msg.parts.map Prod.snd := by
    simp [CameraMessage.frame]
  have hts : ∀ b ∈ (msg.frame cameraId).bundles, b.timestamp = (msg.frame cameraId).timestamp := by
    intro b hb
    obtain ⟨p, -, rfl⟩ := List.mem_map.mp hb
    rfl
  have hloop := run_receiveParts cameraId (msg.frame cameraId).timestamp []
    (msg.frame cameraId).bundles hts (htypes ▸ hnames) buffer
  rw [hpayloads] at hloop
  change (receiveParts cameraId (msg.frame cameraId).timestamp (.array parts) 0 _).run.run _ = _
    at hloop
  have hne : (msg.frame cameraId).bundles.isEmpty = false := by
    simp [CameraMessage.frame, msg.nonempty]
  unfold dealerReceive
  dsimp only
  rw [hparse, run_liftM_ok_bind, h.active, run_liftM_ok_bind, if_neg (by decide), hindex,
    run_liftM_ok_bind, hgrp]
  dsimp only
  rw [getInt_of_item h.object h.sec, run_liftM_ok_bind, getInt_of_item h.object h.nsec,
    run_liftM_ok_bind]
  change (receiveParts cameraId (msg.frame cameraId).timestamp _ 0 _ >>= _).run.run buffer = _
  rw [run_bind_of_ok hloop, hne]
  rfl

theorem toInt64_ofInt_eq_iff (n : Int64) :
    (Int32.ofInt n.toInt).toInt64.toInt = n.toInt ↔ -2 ^ 31 ≤ n.toInt ∧ n.toInt < 2 ^ 31 := by
  rw [Int32.toInt_toInt64, Int32.toInt_ofInt]
  change n.toInt.bmod (2 ^ 32) = n.toInt ↔ _
  rw [Int.bmod_eq_iff (by decide)]
  constructor
  · rintro ⟨hlo, hhi, -⟩
    exact ⟨hlo, hhi⟩
  · rintro ⟨hlo, hhi⟩
    exact ⟨hlo, hhi, by simp⟩

theorem headerPreserves_iff (msg : CameraMessage) (cameraId channel : String) :
    HeaderPreserves (DataPublisher.groupHeader channel (msg.frame cameraId)) msg ↔
      msg.FitsInt := by
  unfold FitsInt
  rw [← toInt64_ofInt_eq_iff, ← toInt64_ofInt_eq_iff]
  constructor
  · intro h
    exact ⟨Json.integer.inj h.sec, Json.integer.inj h.nsec⟩
  · rintro ⟨hsec, hnsec⟩
    refine ⟨congrArg Json.integer hsec, congrArg Json.integer hnsec, _, rfl, ?_⟩
    unfold CameraMessage.frame
    dsimp only
    rw [List.map_map, List.forall₂_map_left_iff]
    apply List.forall₂_same.mpr
    intro p _
    exact ⟨rfl, rfl⟩

theorem preserved_iff (print : Json → Bytes) (msg : CameraMessage) (cameraId channel : String) :
    ∃ out, DataPublisher.publishGroup print channel (msg.frame cameraId) = .ok out ∧
      (Preserved print channel (msg.frame cameraId) out msg ↔ msg.FitsInt) := by
  have hne : (msg.frame cameraId).bundles ≠ [] := by
    simp [CameraMessage.frame, msg.nonempty]
  refine ⟨_, DataPublisher.publishGroup_eq print channel hne, ?_⟩
  unfold Preserved
  rw [headerPreserves_iff]
  apply and_iff_right
  refine ⟨bytes (cameraId ++ "/" ++ channel), ?_⟩
  simp [CameraMessage.frame]

end CameraMessage

def pubChannel : DataGroup → String
  | .visualGeometric2D => "visual_geometric_2d"
  | .visualGeometric3D => "visual_geometric_3d"
  | .sensorTracking => "sensor_tracking"

/-- The dealer makes one frame of a message. Whenever that frame was accepted by the queue of its
group and `pub_loop` has popped it, at whatever moment of whatever run, what is published in its
turn is the message exactly if its times fit an `int`. -/
theorem relay_preserves_iff {parse : Bytes → Except JsonException Json} (print : Json → Bytes)
    {zparts : List Bytes} {hdr : Json} {msg : CameraMessage} (hmsg : msg.Carries parse zparts hdr)
    (cameraId : String) {grp : String} {group : DataGroup} (hgrp : socketGroup grp = some group)
    (buffer : DataBuffer DataBundle) :
    ∃ frame,
      ((dealerReceive parse cameraId grp zparts).run.run buffer).1 = .ok (some (group, frame)) ∧
      ∀ (movedFrom : ChannelFrame → ChannelFrame)
        (cells : Fin DataPipeline.frameCapacity.val.toNat → ChannelFrame) (depth : UInt64) as s,
        Transition.run (SPSCQueue.step movedFrom)
          (SPSCQueue.State.init Unit ((SPSCQueue.Queue.init cells).setMaxDepth depth)) as = some s →
        s.accepted.length < 2 ^ 64 →
        ∀ i, s.accepted[i]? = some frame → i < s.popped.length →
          ∃ out, (s.popped.map (DataPublisher.publishGroup print (pubChannel group)))[i]? =
              some (.ok out) ∧
            (msg.Preserved print (pubChannel group) frame out ↔ msg.FitsInt) := by
  refine ⟨msg.frame cameraId, by rw [msg.run_dealerReceive hmsg cameraId hgrp], ?_⟩
  intro movedFrom cells depth as s hrun hlt i hi hpop
  have hinv : SPSCQueue.SoloInv s :=
    ((SPSCQueue.soloInv_init _ rfl rfl (SPSCQueue.setMaxDepth_le _ _)).run hrun hlt).1
  have hpopped : s.popped[i]? = some (msg.frame cameraId) := by
    obtain ⟨rest, hrest⟩ := hinv.popped
    rwa [← hrest, List.getElem?_append_left hpop] at hi
  obtain ⟨out, hout, hiff⟩ := msg.preserved_iff print cameraId (pubChannel group)
  refine ⟨out, ?_, hiff⟩
  rw [List.getElem?_map, hpopped, Option.map_some, hout]

def imuMessage (sec : Int64) : CameraMessage := ⟨sec, 5, [(.imu, [1, 2])], by decide⟩

def imuHeader (sec : Int64) : Json :=
  .object [("active", .bool true), ("parts", .array [.object [("id", .string (bytes "imu"))]]),
    ("ts_nsec", .integer 5), ("ts_sec", .integer sec.toInt)]

def imuText (sec : Int64) : Bytes :=
  bytes ("\x7b\"active\":true,\"parts\":[\x7b\"id\":\"imu\"\x7d],\"ts_nsec\":5,\"ts_sec\":" ++
    toString sec.toInt ++ "\x7d")

def parseImu (sec : Int64) (text : Bytes) : Except JsonException Json :=
  if text = imuText sec then .ok (imuHeader sec) else .error (.parseError text)

theorem carries_imuMessage (sec : Int64) :
    (imuMessage sec).Carries (parseImu sec) [imuText sec, [1, 2]] (imuHeader sec) where
  frames := ⟨imuText sec, rfl, if_pos rfl⟩
  active := rfl
  sec := rfl
  nsec := rfl
  parts := by
    refine ⟨_, rfl, ?_⟩
    exact .cons rfl .nil

def pushPop (frame : ChannelFrame) : List (SPSCQueue.Action Unit ChannelFrame) :=
  [.callTryPush () frame, .producer (), .producer (), .producer (), .producer (), .producer (),
    .callPop, .consumer, .consumer, .consumer, .consumer]

def sensorQueue : SPSCQueue.State DataPipeline.frameCapacity Unit ChannelFrame :=
  .init Unit ((SPSCQueue.Queue.init fun _ => ⟨"", ⟨0, 0⟩, []⟩).setMaxDepth 4)

theorem run_pushPop (frame : ChannelFrame) : ∃ s,
    Transition.run (SPSCQueue.step id) sensorQueue (pushPop frame) = some s ∧
      s.accepted = [frame] ∧ s.popped = [frame] := by
  have haccepted : (Transition.run (SPSCQueue.step id) sensorQueue (pushPop frame)).map
      (·.accepted) = some [frame] := by
    with_unfolding_all rfl
  have hpopped : (Transition.run (SPSCQueue.step id) sensorQueue (pushPop frame)).map
      (·.popped) = some [frame] := by
    with_unfolding_all rfl
  obtain ⟨s, hrun, heq⟩ := Option.map_eq_some_iff.mp haccepted
  rw [hrun, Option.map_some] at hpopped
  exact ⟨s, hrun, heq, Option.some.inj hpopped⟩

/-- In the year 2038 the seconds no longer fit: they are published as negative. -/
theorem relay_wraps_seconds : ∃ frame s,
    ((dealerReceive (parseImu 2147483648) "cam1" "sensor_data"
      [imuText 2147483648, [1, 2]]).run.run (DataBuffer.mk' 3)).1 =
        .ok (some (.sensorTracking, frame)) ∧
    Transition.run (SPSCQueue.step id) sensorQueue (pushPop frame) = some s ∧
    s.accepted = [frame] ∧ s.popped = [frame] ∧
    (DataPublisher.groupHeader (pubChannel .sensorTracking) frame).item "ts_sec" =
      .integer (-2147483648) ∧
    ∀ print out,
      ¬(imuMessage 2147483648).Preserved print (pubChannel .sensorTracking) frame out := by
  have hmsg := carries_imuMessage 2147483648
  obtain ⟨s, hrun, haccepted, hpopped⟩ := run_pushPop ((imuMessage 2147483648).frame "cam1")
  refine ⟨_, s, ?_, hrun, haccepted, hpopped, rfl, ?_⟩
  · have hgroup : socketGroup "sensor_data" = some .sensorTracking := rfl
    rw [CameraMessage.run_dealerReceive hmsg "cam1" hgroup]
  · rintro print out ⟨-, hheader⟩
    have hfits := (CameraMessage.headerPreserves_iff _ _ _).mp hheader
    exact absurd hfits.1.2 (by decide)

/-- Three readings of one moment in 2023. -/
def sensorMessage : CameraMessage :=
  ⟨1700000000, 5, [(.imu, [1, 2]), (.temperature, [21]), (.barometer, [7, 8, 9])], by decide⟩

def sensorHeader : Json :=
  .object [("parts", .array [.object [("id", .string (bytes "imu"))],
      .object [("id", .string (bytes "temperature"))],
      .object [("id", .string (bytes "barometer"))]]),
    ("ts_nsec", .integer 5), ("ts_sec", .integer 1700000000)]

def sensorText : Bytes :=
  bytes ("\x7b\"parts\":[\x7b\"id\":\"imu\"\x7d,\x7b\"id\":\"temperature\"\x7d,\x7b" ++
    "\"id\":\"barometer\"\x7d],\"ts_nsec\":5,\"ts_sec\":1700000000\x7d")

def parseSensors (text : Bytes) : Except JsonException Json :=
  if text = sensorText then .ok sensorHeader else .error (.parseError text)

theorem carries_sensorMessage :
    sensorMessage.Carries parseSensors [sensorText, [1, 2], [21], [7, 8, 9]] sensorHeader where
  frames := ⟨sensorText, rfl, if_pos rfl⟩
  active := rfl
  sec := rfl
  nsec := rfl
  parts := by
    refine ⟨_, rfl, ?_⟩
    exact .cons rfl (.cons rfl (.cons rfl .nil))

/-- The queue lets another frame through before. -/
def twoFrames : List (SPSCQueue.Action Unit ChannelFrame) :=
  pushPop ((imuMessage 1600000000).frame "cam1") ++ pushPop (sensorMessage.frame "cam1")

theorem relay_preserves_sensors : ∃ frame s out,
    ((dealerReceive parseSensors "cam1" "sensor_data"
      [sensorText, [1, 2], [21], [7, 8, 9]]).run.run (DataBuffer.mk' 3)).1 =
        .ok (some (.sensorTracking, frame)) ∧
    Transition.run (SPSCQueue.step id) sensorQueue twoFrames = some s ∧
    (s.popped.map (DataPublisher.publishGroup (fun _ => []) (pubChannel .sensorTracking)))[1]? =
      some (.ok out) ∧
    sensorMessage.Preserved (fun _ => []) (pubChannel .sensorTracking) frame out := by
  have hgroup : socketGroup "sensor_data" = some .sensorTracking := rfl
  obtain ⟨frame, hframe, hrelay⟩ :=
    relay_preserves_iff (fun _ => []) carries_sensorMessage "cam1" hgroup (DataBuffer.mk' 3)
  obtain rfl : frame = sensorMessage.frame "cam1" := by
    have hmade := hframe
    rw [CameraMessage.run_dealerReceive carries_sensorMessage "cam1" hgroup] at hmade
    cases hmade
    rfl
  have hqueue : (Transition.run (SPSCQueue.step id) sensorQueue twoFrames).map
      (fun s => (s.accepted[1]?, s.accepted.length, s.popped.length)) =
        some (some (sensorMessage.frame "cam1"), 2, 2) := by
    decide +kernel
  obtain ⟨s, hrun, hfields⟩ := Option.map_eq_some_iff.mp hqueue
  simp only [Prod.mk.injEq] at hfields
  obtain ⟨hsecond, haccepted, hpopped⟩ := hfields
  have hlt : s.accepted.length < 2 ^ 64 := by omega
  obtain ⟨out, hout, hiff⟩ := hrelay id _ 4 _ s hrun hlt 1 hsecond (by omega)
  refine ⟨_, s, out, hframe, hrun, hout, hiff.mpr ?_⟩
  exact ⟨⟨by decide, by decide⟩, by decide, by decide⟩

end StereoCamera
