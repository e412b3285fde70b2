import StereoCamera.Api.CameraSDKClient
import StereoCamera.Api.ClientHandler
import StereoCamera.Data.DataPipeline

/-! The commands of `ClientHandler` that change no session and no slot. -/

namespace StereoCamera

structure PipelineCounters where
  totalPushed : UInt64
  totalDropped : UInt64
  queue2dSize : UInt64
  queue3dSize : UInt64
  queueSensorSize : UInt64

/-- What `handle_check_status` asks of a `WSServer`. -/
structure WSServerCounters where
  running : Bool
  clientCount : UInt64
  totalFrames : UInt64

/-- `pipeline_`, `buffer2_` and `wss_server_`, as they are when the status is taken. -/
structure Attached where
  pipeline : Option PipelineCounters
  buffer2 : Option (DataBuffer DataBundle)
  wssServer : Option WSServerCounters

def PipelineCounters.toJson (p : PipelineCounters) : Json :=
  let rate :=
    if p.totalPushed + p.totalDropped > 0 then
      100.0 * p.totalDropped.toFloat / (p.totalPushed + p.totalDropped).toFloat
    else 0.0
  .object [
    ("drop_rate_pct", .float rate),
    ("queue_2d_size", .integer p.queue2dSize.toNat),
    ("queue_3d_size", .integer p.queue3dSize.toNat),
    ("queue_sensor_size", .integer p.queueSensorSize.toNat),
    ("total_dropped", .integer p.totalDropped.toNat),
    ("total_pushed", .integer p.totalPushed.toNat)]

def DataBuffer.toJson (b : DataBuffer DataBundle) : Json :=
  .object [("active_slots", .array (b.activeSlots.map fun s =>
    .object [
      ("buffered", .integer (b.slotSize s.cameraId s.type).toNat),
      ("camera_id", .string (bytes s.cameraId)),
      ("type", .string (bytes (dataTypeToChannel s.type)))]))]

def WSServerCounters.toJson (w : WSServerCounters) : Json :=
  .object [
    ("clients", .integer w.clientCount.toNat),
    ("frames_sent", .integer w.totalFrames.toNat),
    ("running", .bool w.running)]

/-- A member that is there only if the object it describes is attached. -/
def optionalMember {α : Type} (key : String) (toJson : α → Json) (o : Option α) :
    List (String × Json) :=
  match o with
  | none => []
  | some a => [(key, toJson a)]

namespace ClientHandler

def handleInit (_ : ClientHandler) (_clientId : String) : Response :=
  makeResponse .alreadyInit "Already initialized — use connect to start a session"

def handleDispose (_ : ClientHandler) (_clientId : String) : Response :=
  makeResponse .error "Dispose not permitted via API — shutdown the service instead"

def handleCheckStatus (h : ClientHandler) (att : Attached) (_clientId : String) : Response :=
  ⟨.success, bytes "Status", .object (
    optionalMember "cameras" SDKSlotManager.getStatus h.sdkManager ++
    optionalMember "data_buffer_2" DataBuffer.toJson att.buffer2 ++
    [("initialized", .bool h.moduleInitialized)] ++
    optionalMember "pipeline" PipelineCounters.toJson att.pipeline ++
    [("sessions", .integer h.sessions.entries.length)] ++
    optionalMember "wss" WSServerCounters.toJson att.wssServer)⟩

def cameraClient (h : ClientHandler) (clientId : String) : Except Response CameraSDKClient :=
  match h.connectedSession clientId with
  | none => .error (makeResponse .notReady "Not connected")
  | some _ =>
    match h.sdkManager with
    | none => .error (makeResponse .error "No SDK manager")
    | some m =>
      match m.getCameraIds with
      | [] => .error (makeResponse .error "No camera available")
      | id :: _ =>
        match m.getClient id with
        | none => .error (makeResponse .error "No camera client")
        | some client => .ok client

def reopenParams : List Bytes := [bytes "fps", bytes "resolution", bytes "depth_mode"]

def setParameterDetail (name : Bytes) : Json :=
  if name ∈ reopenParams then
    .object [("name", .string name), ("needs_reopen", .bool true),
      ("reopen_message", .string (bytes "Parameter " ++ name ++
        bytes " requires camera reopen to take effect"))]
  else .object [("name", .string name), ("needs_reopen", .bool false)]

def handleSetParameter (lib : Libraries) (h : ClientHandler) (clientId : String) (name : Bytes)
    (value : ParameterValue) : Except JsonException Response :=
  match h.cameraClient clientId with
  | .error refusal => .ok refusal
  | .ok client => do
    let resp ← client.setParameter lib name value
    return ⟨resp.code, resp.message, setParameterDetail name⟩

def handleGetParameter (lib : Libraries) (h : ClientHandler) (clientId : String) (name : Bytes) :
    Except JsonException Response :=
  match h.cameraClient clientId with
  | .error refusal => .ok refusal
  | .ok client => client.getParameter lib name

end ClientHandler

end StereoCamera
