import StereoCamera.Data.SDKSlotManager

/-! The types that `start_capture` asks the camera SDK for. The list that is to leave out what
is active already is computed from the types that were merged before. -/

namespace StereoCamera.SDKSlot

def newRequests (slot : SDKSlot) (types : List DataType) (thread : ℕ) : List SDKRequest :=
  (slot.startCapture types thread).client.sent.drop slot.client.sent.length

def askedTypes (requests : List SDKRequest) : List String :=
  requests.flatMap fun r =>
    match r with
    | .startCapture dataTypes => dataTypes
    | _ => []

/-- Exactly the new types are asked for, none of them twice, and nothing is sent without one. -/
structure AsksForNew (slot : SDKSlot) (types : List DataType) (requests : List SDKRequest) :
    Prop where
  mem_iff : ∀ name, name ∈ askedTypes requests ↔
    ∃ t ∈ types, t ∉ slot.activeTypes ∧ dataTypeToChannel t = name
  nodup : (askedTypes requests).Nodup
  silent : (∀ t ∈ types, t ∈ slot.activeTypes) → requests = []

variable {slot : SDKSlot} {types : List DataType}

theorem newTypeNames_eq (merged types : List DataType) :
    newTypeNames merged types = types.map dataTypeToChannel := by
  -- Whatever was active, no requested type is left out.
  unfold newTypeNames
  dsimp only
  congr 1
  rw [List.filter_eq_self]
  intro t ht
  simp [ht]

theorem sent_startCapture (slot : SDKSlot) (types : List DataType) (thread : ℕ) :
    (slot.startCapture types thread).client.sent = slot.client.sent ++
      (if types = [] then []
      else if slot.capturing then [.connect, .startCapture (types.map dataTypeToChannel)]
      else [.startCapture (types.map dataTypeToChannel)]) := by
  have hempty : (types.map dataTypeToChannel).isEmpty = true ↔ types = [] := by
    rw [List.isEmpty_iff, List.map_eq_nil_iff]
  unfold startCapture
  dsimp only
  rw [newTypeNames_eq]
  by_cases hnil : types = []
  · rw [if_pos hnil]
    simp only [if_pos (hempty.mpr hnil)]
    split_ifs <;> exact (List.append_nil _).symm
  · rw [if_neg hnil]
    simp only [if_neg fun h => hnil (hempty.mp h)]
    split_ifs
    · simp only [CameraSDKClient.post, List.append_assoc]
      rfl
    · simp only [CameraSDKClient.post]

theorem sent_stopCapture (slot : SDKSlot) (types : List DataType) :
    (slot.stopCapture types).1.client.sent = slot.client.sent ++
      (if types ≠ [] ∧ slot.capturing = true then
        .stopCapture (typesToTypeNames types) ::
          (typesToTypeNames types).map .deactivateChannel
      else []) := by
  rw [stopCapture_client]
  by_cases hsend : types ≠ [] ∧ slot.capturing = true
  · have hnames : (!(typesToTypeNames types).isEmpty && slot.capturing) = true := by
      simp [typesToTypeNames, hsend.1, hsend.2]
    rw [if_pos hsend, if_pos hnames, CameraSDKClient.foldl_deactivate, CameraSDKClient.post,
      List.append_assoc]
    rfl
  · have hnames : ¬(!(typesToTypeNames types).isEmpty && slot.capturing) = true := by
      simpa [typesToTypeNames] using hsend
    rw [if_neg hsend, if_neg hnames, List.append_nil]

theorem newRequests_eq (slot : SDKSlot) (types : List DataType) (thread : ℕ) :
    slot.newRequests types thread =
      if types = [] then []
      else if slot.capturing then [.connect, .startCapture (types.map dataTypeToChannel)]
      else [.startCapture (types.map dataTypeToChannel)] := by
  unfold newRequests
  rw [sent_startCapture, List.drop_left]

theorem askedTypes_newRequests (slot : SDKSlot) (types : List DataType) (thread : ℕ) :
    askedTypes (slot.newRequests types thread) = types.map dataTypeToChannel := by
  rw [newRequests_eq]
  split_ifs with hnil
  · rw [hnil]
    rfl
  · simp [askedTypes]
  · simp [askedTypes]

/-- `start_capture` asks for exactly the new types if and only if nothing is requested twice or
active already. -/
theorem asksForNew_iff (slot : SDKSlot) (types : List DataType) (thread : ℕ) :
    slot.AsksForNew types (slot.newRequests types thread) ↔
      types.Nodup ∧ ∀ t ∈ types, t ∉ slot.activeTypes := by
  have hasked := askedTypes_newRequests slot types thread
  constructor
  · intro h
    refine ⟨?_, fun t ht => ?_⟩
    · have hnodup := h.nodup
      rw [hasked] at hnodup
      exact List.Nodup.of_map dataTypeToChannel hnodup
    · have hname : dataTypeToChannel t ∈ askedTypes (slot.newRequests types thread) := by
        rw [hasked]
        exact List.mem_map_of_mem ht
      obtain ⟨t', -, hnew, heq⟩ := (h.mem_iff _).mp hname
      rwa [dataTypeToChannel_injective heq] at hnew
  · rintro ⟨hnodup, hnew⟩
    refine ⟨fun name => ?_, ?_, fun hactive => ?_⟩
    · rw [hasked, List.mem_map]
      constructor
      · rintro ⟨t, ht, heq⟩
        exact ⟨t, ht, hnew t ht, heq⟩
      · rintro ⟨t, ht, -, heq⟩
        exact ⟨t, ht, heq⟩
    · rw [hasked]
      exact hnodup.map dataTypeToChannel_injective
    · have hnil : types = [] := by
        rw [List.eq_nil_iff_forall_not_mem]
        exact fun t ht => hnew t ht (hactive t ht)
      rw [newRequests_eq, if_pos hnil]

def capturingImu : SDKSlot :=
  (configured ⟨"cam1", "https://cam", "tcp://cam", []⟩).startCapture [.imu] 0

/-- A second subscriber asks for the same readings, and so is the camera. -/
theorem active_type_asked_again :
    ¬capturingImu.AsksForNew [.imu] (capturingImu.newRequests [.imu] 1) := by
  intro h
  have hsilent := h.silent (by decide)
  have hsent : capturingImu.newRequests [.imu] 1 = [.connect, .startCapture ["imu"]] := by
    decide
  rw [hsent] at hsilent
  cases hsilent

end StereoCamera.SDKSlot
