import StereoCamera.Api.Subscriptions

/-! Commands that are answered with anything but `Success`. All but one of the refusing paths
return before they write; `handle_start_capture` writes the session first and asks the slot
manager afterwards, which refuses when it has no camera. -/

namespace StereoCamera.ClientHandler

structure Unchanged (h h' : ClientHandler) : Prop where
  sessions : ∀ c, h'.sessions.lookup c = h.sessions.lookup c
  sdkManager : h'.sdkManager = h.sdkManager
  moduleInitialized : h'.moduleInitialized = h.moduleInitialized

def Refused (h : ClientHandler) (cmd : Command) : Prop := (h.handle cmd).2.code ≠ .success

/-- A `start_capture` that the slot manager will refuse for want of a camera writes to the
client's session only what is already there. -/
def RecordsNothingNew (h : ClientHandler) : Command → Prop
  | .startCapture c types =>
    ∀ s m, h.connectedSession c = some s → h.sdkManager = some m → m.getCameraIds = [] →
      captureTypes types ⊆ s.activeTypes ∧ s.cameraId = "cam1"
  | _ => True

section
variable {h : ClientHandler} {c : String} {s : ClientSession} {types : List DataType}
  {m : SDKSlotManager}

theorem Unchanged.refl (h : ClientHandler) : Unchanged h h := ⟨fun _ => rfl, rfl, rfl⟩

theorem lookup_firstCamera_of_no_camera (hm : m.getCameraIds = []) :
    firstCamera m = "cam1" ∧ m.slots.lookup (firstCamera m) = none := by
  have hkeys : m.slots.keys = [] := hm
  constructor
  · rw [firstCamera, hm]
    rfl
  · rw [AList.lookup_eq_none, AList.mem_keys, hkeys]
    exact List.not_mem_nil

theorem lookup_firstCamera_of_camera (hm : m.getCameraIds ≠ []) :
    ∃ slot, m.slots.lookup (firstCamera m) = some slot := by
  obtain ⟨id, ids, hids⟩ := List.exists_cons_of_ne_nil hm
  have hkeys : m.slots.keys = id :: ids := hids
  have hfirst : firstCamera m = id := by
    rw [firstCamera, hids]
    rfl
  apply Option.isSome_iff_exists.mp
  rw [AList.lookup_isSome, AList.mem_keys, hkeys, hfirst]
  exact List.mem_cons_self

theorem handleConnect_of_refused (hr : Refused h (.connect c)) : (h.handleConnect c).1 = h := by
  change (h.handleConnect c).2.code ≠ .success at hr
  unfold handleConnect at hr ⊢
  split_ifs with hinit
  · rfl
  · rw [if_neg hinit] at hr
    dsimp only at hr ⊢
    split_ifs with hconn
    · rfl
    · rw [if_neg hconn] at hr
      exact absurd rfl hr

theorem handleDisconnect_of_refused (hr : Refused h (.disconnect c)) :
    (h.handleDisconnect c).1 = h := by
  rcases hs : h.connectedSession c with _ | s
  · rw [handleDisconnect_of_not_connected hs]
  · change (h.handleDisconnect c).2.code ≠ .success at hr
    rw [handleDisconnect, disconnectSession, hs] at hr
    exact absurd rfl hr

theorem handleStopCapture_of_refused (hr : Refused h (.stopCapture c types)) :
    (h.handleStopCapture c types).1 = h := by
  change (h.handleStopCapture c types).2.code ≠ .success at hr
  rcases hs : h.connectedSession c with _ | s
  · rw [handleStopCapture_of_not_connected hs]
  · rcases hm : h.sdkManager with _ | m
    · rw [handleStopCapture_of_no_manager hs hm] at hr
      exact absurd rfl hr
    · rw [handleStopCapture_of_manager hs hm] at hr
      exact absurd rfl hr

theorem code_handleStartCapture (hs : h.connectedSession c = some s)
    (hm : h.sdkManager = some m) :
    (h.handleStartCapture c types).2.code =
      if (m.startCapture (firstCamera m) (captureTypes types)).2 then .success else .error := by
  rw [handleStartCapture_of_manager hs hm]
  split_ifs <;> rfl

theorem refused_startCapture_iff (hs : h.connectedSession c = some s)
    (hm : h.sdkManager = some m) : Refused h (.startCapture c types) ↔ m.getCameraIds = [] := by
  change (h.handleStartCapture c types).2.code ≠ .success ↔ _
  rw [code_handleStartCapture hs hm]
  by_cases hids : m.getCameraIds = []
  · have hnone := (lookup_firstCamera_of_no_camera hids).2
    rw [SDKSlotManager.startCapture_of_lookup_none hnone]
    exact iff_of_true nofun hids
  · obtain ⟨slot, hslot⟩ := lookup_firstCamera_of_camera hids
    have hok : (m.startCapture (firstCamera m) (captureTypes types)).2 = true := by
      rw [SDKSlotManager.startCapture, hslot]
    rw [if_pos hok]
    exact iff_of_false (fun hne => hne rfl) hids

theorem startedSession_eq_self_iff {camera : String} :
    startedSession s camera types = s ↔
      captureTypes types ⊆ s.activeTypes ∧ s.cameraId = camera := by
  rw [← addTypes_eq_self_iff]
  constructor
  · intro heq
    constructor
    · exact congrArg ClientSession.activeTypes heq
    · exact (congrArg ClientSession.cameraId heq).symm
  · rintro ⟨htypes, hcamera⟩
    unfold startedSession
    rw [htypes, ← hcamera]

theorem unchanged_setSession_iff {h' : ClientHandler} {s' : ClientSession}
    (hs : h.sessions.lookup c = some s) (hsess : h'.sessions = (h.setSession c s').sessions)
    (hmgr : h'.sdkManager = h.sdkManager)
    (hinit : h'.moduleInitialized = h.moduleInitialized) : Unchanged h h' ↔ s' = s := by
  constructor
  · intro hu
    have hc := hu.sessions c
    rw [hsess, setSession, AList.lookup_insert, hs] at hc
    exact Option.some.inj hc
  · rintro rfl
    refine ⟨fun c' => ?_, hmgr, hinit⟩
    rw [hsess, setSession]
    by_cases hc : c' = c
    · rw [hc, AList.lookup_insert, hs]
    · rw [AList.lookup_insert_ne hc]

theorem unchanged_startCapture_iff (hs : h.connectedSession c = some s)
    (hm : h.sdkManager = some m) (hids : m.getCameraIds = []) :
    Unchanged h (h.handleStartCapture c types).1 ↔
      captureTypes types ⊆ s.activeTypes ∧ s.cameraId = "cam1" := by
  obtain ⟨hfirst, hnone⟩ := lookup_firstCamera_of_no_camera hids
  obtain ⟨hmgr, hsess⟩ := handleStartCapture_of_connected types hm hs
  rw [SDKSlotManager.startCapture_of_lookup_none hnone] at hmgr
  rw [hfirst] at hsess
  have hlook := (connectedSession_eq_some.mp hs).1
  have hinit : (h.handleStartCapture c types).1.moduleInitialized = h.moduleInitialized := by
    rw [handleStartCapture_of_manager hs hm]
    rfl
  rw [unchanged_setSession_iff hlook hsess (hmgr.trans hm.symm) hinit]
  exact startedSession_eq_self_iff

end

theorem refused_unchanged_iff (h : ClientHandler) (cmd : Command) :
    (Refused h cmd → Unchanged h (h.handle cmd).1) ↔ RecordsNothingNew h cmd := by
  have hsame : ∀ {h' : ClientHandler}, h' = h → Unchanged h h' := by
    rintro _ rfl
    exact .refl _
  cases cmd with
  | connect c => exact iff_of_true (fun hr => hsame (handleConnect_of_refused hr)) trivial
  | disconnect c => exact iff_of_true (fun hr => hsame (handleDisconnect_of_refused hr)) trivial
  | stopCapture c types =>
    exact iff_of_true (fun hr => hsame (handleStopCapture_of_refused hr)) trivial
  | startCapture c types =>
    constructor
    · intro hkeeps s m hs hm hids
      have hr : Refused h (.startCapture c types) := (refused_startCapture_iff hs hm).mpr hids
      exact (unchanged_startCapture_iff hs hm hids).mp (hkeeps hr)
    · intro hnothing hr
      rcases hs : h.connectedSession c with _ | s
      · exact hsame (congrArg Prod.fst (handleStartCapture_of_not_connected hs types))
      · rcases hm : h.sdkManager with _ | m
        · have hcode : (h.handleStartCapture c types).2.code = .success := by
            rw [handleStartCapture_of_no_manager hs hm]
            rfl
          exact absurd hcode hr
        · have hids := (refused_startCapture_iff hs hm).mp hr
          exact (unchanged_startCapture_iff hs hm hids).mpr (hnothing s m hs hm hids)

/-- Without cameras, a connected client's refused request stays in its session. -/
theorem refused_start_recorded :
    let h := ((mk'.setSdkManager (.mk' (.mk' 3))).handle (.connect "a")).1
    let after := (h.handle (.startCapture "a" [.imu])).1
    Refused h (.startCapture "a" [.imu]) ∧ ¬Unchanged h after ∧
      h.activeOf "a" = [] ∧ after.activeOf "a" = [.imu] := by
  have hactive : ∀ h h' : ClientHandler, Unchanged h h' → h'.activeOf "a" = h.activeOf "a" := by
    intro h h' hu
    unfold activeOf connectedSession
    rw [hu.sessions]
  refine ⟨nofun, fun hu => ?_, by decide, by decide⟩
  exact absurd (hactive _ _ hu) (by decide)

end StereoCamera.ClientHandler
