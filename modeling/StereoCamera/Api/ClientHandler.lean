import StereoCamera.Common.Response
import StereoCamera.Data.SDKSlotManager

/-! `ClientHandler` (`api/ClientHandler.cpp`): the session table and the four commands that
change it. Every part that runs under `sessions_mutex_` is a function of its own. -/

namespace StereoCamera

structure ClientSession where
  id : String := ""
  connected : Bool := false
  activeTypes : List DataType := []
  cameraId : String := ""
  deriving DecidableEq

structure ClientHandler where
  sdkManager : Option SDKSlotManager
  sessions : AList fun _ : String => ClientSession
  moduleInitialized : Bool

namespace ClientHandler

def mk' : ClientHandler := ⟨none, ∅, true⟩

def setSdkManager (h : ClientHandler) (mgr : SDKSlotManager) : ClientHandler :=
  { h with sdkManager := some mgr }

def setSession (h : ClientHandler) (clientId : String) (s : ClientSession) : ClientHandler :=
  { h with sessions := h.sessions.insert clientId s }

/-- What the test `it == end() || !it->second.connected` lets through. -/
def connectedSession (h : ClientHandler) (clientId : String) : Option ClientSession :=
  (h.sessions.lookup clientId).filter (·.connected)

/-- An empty request means the default types. -/
def captureTypes (types : List DataType) : List DataType :=
  if types.isEmpty then [.stereoImage, .imu] else types

def firstCamera (m : SDKSlotManager) : String := m.getCameraIds.head?.getD "cam1"

def handleConnect (h : ClientHandler) (clientId : String) : ClientHandler × Response :=
  if !h.moduleInitialized then (h, makeResponse .notReady "Not initialized")
  else
    let session := (h.sessions.lookup clientId).getD {}
    if session.connected then (h, makeResponse .alreadyInit "Already connected")
    else (h.setSession clientId { session with id := clientId, connected := true },
      makeResponse .success "Connected")

def disconnectSession (h : ClientHandler) (clientId : String) :
    ClientHandler × Option (List DataType × String) :=
  match h.connectedSession clientId with
  | none => (h, none)
  | some s =>
    (h.setSession clientId { s with connected := false, activeTypes := [] },
      some (s.activeTypes, s.cameraId))

def stopCamera (h : ClientHandler) (cameraId : String) (types : List DataType) : ClientHandler :=
  { h with sdkManager := h.sdkManager.map fun m => (m.stopCapture cameraId types).1 }

def handleDisconnect (h : ClientHandler) (clientId : String) : ClientHandler × Response :=
  match h.disconnectSession clientId with
  | (h, none) => (h, makeResponse .notReady "Not connected")
  | (h, some (typesToStop, camId)) =>
    (if typesToStop ≠ [] ∧ camId ≠ "" then h.stopCamera camId typesToStop else h,
      makeResponse .success "Disconnected")

/-- The first section of `handle_start_capture`; whether the client is connected. -/
def startSession (h : ClientHandler) (clientId : String) (types : List DataType) :
    ClientHandler × Bool :=
  match h.connectedSession clientId with
  | none => (h, false)
  | some s =>
    (h.setSession clientId { s with activeTypes := addTypes s.activeTypes (captureTypes types) },
      true)

/-- The second section of `handle_start_capture`, whatever became of the session. -/
def setCamera (h : ClientHandler) (clientId cameraId : String) : ClientHandler :=
  h.setSession clientId { (h.sessions.lookup clientId).getD {} with cameraId := cameraId }

def handleStartCapture (h : ClientHandler) (clientId : String) (types : List DataType) :
    ClientHandler × Response :=
  match h.startSession clientId types with
  | (h, false) => (h, makeResponse .notReady "Not connected")
  | (h, true) =>
    match h.sdkManager with
    | none => (h, makeResponse .success "Capture started")
    | some m =>
      let h := h.setCamera clientId (firstCamera m)
      let (m, ok) := m.startCapture (firstCamera m) (captureTypes types)
      (h.setSdkManager m,
        if ok then makeResponse .success "Capture started"
        else makeResponse .error "StartCapture failed")

def stopSession (h : ClientHandler) (clientId : String) (types : List DataType) :
    ClientHandler × Bool :=
  match h.connectedSession clientId with
  | none => (h, false)
  | some s =>
    (h.setSession clientId { s with activeTypes := eraseAll s.activeTypes (captureTypes types) },
      true)

def handleStopCapture (h : ClientHandler) (clientId : String) (types : List DataType) :
    ClientHandler × Response :=
  match h.stopSession clientId types with
  | (h, false) => (h, makeResponse .notReady "Not connected")
  | (h, true) =>
    match h.sdkManager with
    | none => (h, makeResponse .success "Capture stopped")
    | some m =>
      (h.stopCamera (firstCamera m) (captureTypes types), makeResponse .success "Capture stopped")

section
variable {h : ClientHandler} {c : String} {s : ClientSession} {m : SDKSlotManager}

theorem handleDisconnect_of_not_connected (hs : h.connectedSession c = none) :
    h.handleDisconnect c = (h, makeResponse .notReady "Not connected") := by
  rw [handleDisconnect, disconnectSession, hs]

theorem handleStartCapture_of_not_connected (hs : h.connectedSession c = none)
    (types : List DataType) :
    h.handleStartCapture c types = (h, makeResponse .notReady "Not connected") := by
  rw [handleStartCapture, startSession, hs]

theorem handleStopCapture_of_not_connected (hs : h.connectedSession c = none)
    (types : List DataType) :
    h.handleStopCapture c types = (h, makeResponse .notReady "Not connected") := by
  rw [handleStopCapture, stopSession, hs]

theorem handleStartCapture_of_no_manager (hs : h.connectedSession c = some s)
    (hm : h.sdkManager = none) (types : List DataType) :
    h.handleStartCapture c types =
      (h.setSession c { s with activeTypes := addTypes s.activeTypes (captureTypes types) },
        makeResponse .success "Capture started") := by
  have hmgr : ∀ s', (h.setSession c s').sdkManager = none := fun _ => hm
  simp only [handleStartCapture, startSession, hs, hmgr]

theorem handleStartCapture_of_manager (hs : h.connectedSession c = some s)
    (hm : h.sdkManager = some m) (types : List DataType) :
    h.handleStartCapture c types =
      ((h.setSession c
        { s with
          activeTypes := addTypes s.activeTypes (captureTypes types)
          cameraId := firstCamera m }).setSdkManager
          (m.startCapture (firstCamera m) (captureTypes types)).1,
        if (m.startCapture (firstCamera m) (captureTypes types)).2 then
          makeResponse .success "Capture started"
        else makeResponse .error "StartCapture failed") := by
  have hmgr : ∀ s', (h.setSession c s').sdkManager = some m := fun _ => hm
  simp only [handleStartCapture, startSession, hs, hmgr]
  simp only [setCamera, setSession, AList.lookup_insert, AList.insert_insert]
  rfl

theorem handleStopCapture_of_no_manager (hs : h.connectedSession c = some s)
    (hm : h.sdkManager = none) (types : List DataType) :
    h.handleStopCapture c types =
      (h.setSession c { s with activeTypes := eraseAll s.activeTypes (captureTypes types) },
        makeResponse .success "Capture stopped") := by
  have hmgr : ∀ s', (h.setSession c s').sdkManager = none := fun _ => hm
  simp only [handleStopCapture, stopSession, hs, hmgr]

theorem handleStopCapture_of_manager (hs : h.connectedSession c = some s)
    (hm : h.sdkManager = some m) (types : List DataType) :
    h.handleStopCapture c types =
      ((h.setSession c
        { s with activeTypes := eraseAll s.activeTypes (captureTypes types) }).stopCamera
          (firstCamera m) (captureTypes types),
        makeResponse .success "Capture stopped") := by
  have hmgr : ∀ s', (h.setSession c s').sdkManager = some m := fun _ => hm
  simp only [handleStopCapture, stopSession, hs, hmgr]

end

inductive Command
  | connect (clientId : String)
  | disconnect (clientId : String)
  | startCapture (clientId : String) (types : List DataType)
  | stopCapture (clientId : String) (types : List DataType)
  deriving DecidableEq

def handle (h : ClientHandler) : Command → ClientHandler × Response
  | .connect c => h.handleConnect c
  | .disconnect c => h.handleDisconnect c
  | .startCapture c types => h.handleStartCapture c types
  | .stopCapture c types => h.handleStopCapture c types

def step (h : ClientHandler) (cmd : Command) : Option ClientHandler := some (h.handle cmd).1

end ClientHandler

end StereoCamera
