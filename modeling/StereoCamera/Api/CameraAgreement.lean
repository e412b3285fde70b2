import StereoCamera.Api.OrphanedCaptures
import StereoCamera.Data.CaptureSections
import StereoCamera.Data.RequestedTypes

/-! What a slot has active against what its camera was asked for, over all sections of
`SDKSlotManager` (`data/SDKSlotManager.cpp`). The camera is told of a stop only while the slot
is capturing, but the types go in any case. -/

namespace StereoCamera

theorem mem_typesToTypeNames_eraseAll {active types : List DataType} {name : String} :
    name ∈ typesToTypeNames (eraseAll active types) ↔
      name ∈ typesToTypeNames active ∧ name ∉ typesToTypeNames types := by
  unfold typesToTypeNames
  simp only [List.mem_map, mem_eraseAll]
  constructor
  · rintro ⟨t, ⟨hactive, hnot⟩, rfl⟩
    refine ⟨⟨t, hactive, rfl⟩, ?_⟩
    rintro ⟨u, hu, heq⟩
    exact hnot (dataTypeToChannel_injective heq ▸ hu)
  · rintro ⟨⟨t, hactive, rfl⟩, hnot⟩
    exact ⟨t, ⟨hactive, fun ht => hnot ⟨t, ht, rfl⟩⟩, rfl⟩

theorem mem_typesToTypeNames_addTypes {active types : List DataType} {name : String} :
    name ∈ typesToTypeNames (addTypes active types) ↔
      name ∈ typesToTypeNames active ∨ name ∈ typesToTypeNames types := by
  unfold typesToTypeNames
  simp only [List.mem_map, mem_addTypes, or_and_right, exists_or]

namespace CameraSDKClient

theorem outstanding_stop (c : CameraSDKClient) (names : List String) :
    (names.foldl (fun c name => c.post (.deactivateChannel name))
      (c.post (.stopCapture names))).outstanding = c.outstanding.filter (· ∉ names) := by
  rw [outstanding_deactivate, outstanding_post_stopCapture]

theorem outstanding_shutDown (c : CameraSDKClient) :
    ((c.post .disconnect).post .dispose).outstanding = c.outstanding := by
  simp only [outstanding, post, List.foldl_append, List.foldl_cons, List.foldl_nil]

end CameraSDKClient

namespace SDKSlot

def Served (slot : SDKSlot) : Prop :=
  ∀ name ∈ typesToTypeNames slot.activeTypes, name ∈ slot.client.outstanding

def InStep (slot : SDKSlot) : Prop :=
  ∀ name, name ∈ slot.client.outstanding ↔ name ∈ typesToTypeNames slot.activeTypes

def StopsWhileCapturing (slot : SDKSlot) (types : List DataType) : Prop :=
  slot.capturing = false → ∀ t ∈ types, t ∉ slot.activeTypes

section
variable (slot : SDKSlot) (types : List DataType) (thread : ℕ) {name : String}

theorem mem_outstanding_startCapture_iff :
    name ∈ (slot.startCapture types thread).client.outstanding ↔
      name ∈ slot.client.outstanding ∨ name ∈ typesToTypeNames types := by
  unfold startCapture typesToTypeNames
  dsimp only
  rw [newTypeNames_eq]
  by_cases hnil : (types.map dataTypeToChannel).isEmpty = true
  · have hnames : types.map dataTypeToChannel = [] := List.isEmpty_iff.mp hnil
    simp only [hnames, List.isEmpty_nil, if_true, List.not_mem_nil, or_false]
    split_ifs <;> rfl
  · simp only [if_neg hnil]
    split_ifs
    · rw [CameraSDKClient.outstanding_post_startCapture,
        CameraSDKClient.outstanding_post_connect, List.mem_append]
    · rw [CameraSDKClient.outstanding_post_startCapture, List.mem_append]

theorem mem_outstanding_stopCapture_iff :
    name ∈ (slot.stopCapture types).1.client.outstanding ↔
      name ∈ slot.client.outstanding ∧
        (slot.capturing = true → name ∉ typesToTypeNames types) := by
  rw [stopCapture_client]
  split_ifs with hsend
  · have hc : slot.capturing = true := (Bool.and_eq_true_iff.mp hsend).2
    simp [CameraSDKClient.outstanding_stop, hc]
  · rw [iff_self_and]
    intro _ hc hname
    apply hsend
    rw [hc, Bool.and_true, Bool.not_eq_true', List.isEmpty_eq_false_iff]
    exact List.ne_nil_of_mem hname

theorem mem_outstanding_forceStop_iff :
    name ∈ slot.forceStop.1.client.outstanding ↔
      name ∈ slot.client.outstanding ∧
        (slot.capturing = true → name ∉ typesToTypeNames slot.activeTypes) := by
  unfold forceStop
  by_cases hc : slot.capturing = true
  · rw [if_pos hc]
    by_cases hnil : (typesToTypeNames slot.activeTypes).isEmpty = true
    · simp [hc, List.isEmpty_iff.mp hnil]
    · simp [hc, hnil, CameraSDKClient.outstanding_stop]
  · simp [hc]

theorem mem_typesToTypeNames_forceStop :
    name ∈ typesToTypeNames slot.forceStop.1.activeTypes ↔
      name ∈ typesToTypeNames slot.activeTypes ∧ slot.capturing = false := by
  unfold forceStop
  by_cases hc : slot.capturing = true
  · simp [hc, typesToTypeNames]
  · simp [hc]

end

variable {slot : SDKSlot}

theorem inStep_configured (cfg : CameraSDKConfig) : (configured cfg).InStep := by
  intro name
  rfl

theorem InStep.served (h : slot.InStep) : slot.Served := fun name => (h name).mpr

theorem Served.startCapture (h : slot.Served) (types : List DataType) (thread : ℕ) :
    (slot.startCapture types thread).Served := by
  intro name hname
  rw [startCapture_activeTypes, mem_typesToTypeNames_addTypes] at hname
  rw [mem_outstanding_startCapture_iff]
  exact hname.imp_left (h name)

theorem Served.stopCapture (h : slot.Served) (types : List DataType) :
    (slot.stopCapture types).1.Served := by
  intro name hname
  rw [stopCapture_activeTypes, mem_typesToTypeNames_eraseAll] at hname
  rw [mem_outstanding_stopCapture_iff]
  exact ⟨h name hname.1, fun _ => hname.2⟩

theorem Served.forceStop (h : slot.Served) : slot.forceStop.1.Served := by
  intro name hname
  obtain ⟨hactive, hidle⟩ := (slot.mem_typesToTypeNames_forceStop).mp hname
  rw [mem_outstanding_forceStop_iff]
  refine ⟨h name hactive, fun hc => ?_⟩
  rw [hidle] at hc
  cases hc

theorem Served.stopAll (h : slot.Served) : slot.stopAll.1.Served := h

theorem Served.shutDown (h : slot.Served) : slot.shutDown.Served := by
  intro name hname
  show name ∈ ((slot.client.post .disconnect).post .dispose).outstanding
  rw [CameraSDKClient.outstanding_shutDown]
  exact h name hname

theorem InStep.startCapture (h : slot.InStep) (types : List DataType) (thread : ℕ) :
    (slot.startCapture types thread).InStep := by
  intro name
  rw [startCapture_activeTypes, mem_typesToTypeNames_addTypes, mem_outstanding_startCapture_iff,
    h name]

theorem InStep.stopCapture_iff (h : slot.InStep) (types : List DataType) :
    (slot.stopCapture types).1.InStep ↔ slot.StopsWhileCapturing types := by
  -- An idle slot lets the types go, and the camera goes on.
  have hafter : (slot.stopCapture types).1.InStep ↔
      ∀ name ∈ typesToTypeNames slot.activeTypes,
        (slot.capturing = true → name ∉ typesToTypeNames types) →
          name ∉ typesToTypeNames types := by
    unfold InStep
    simp only [mem_outstanding_stopCapture_iff, stopCapture_activeTypes,
      mem_typesToTypeNames_eraseAll, h _]
    constructor
    · intro heq name hname hstop
      exact ((heq name).mp ⟨hname, hstop⟩).2
    · intro hkeep name
      constructor
      · intro hname
        exact ⟨hname.1, hkeep name hname.1 hname.2⟩
      · intro hname
        exact ⟨hname.1, fun _ => hname.2⟩
  rw [hafter]
  constructor
  · intro hkeep hidle t ht hactive
    have hname : dataTypeToChannel t ∈ typesToTypeNames types := List.mem_map_of_mem ht
    refine hkeep _ (List.mem_map_of_mem hactive) (fun hc => ?_) hname
    rw [hidle] at hc
    cases hc
  · intro hstops name hname hstop htypes
    cases hc : slot.capturing with
    | true => exact hstop hc htypes
    | false =>
      obtain ⟨t, ht, rfl⟩ := List.mem_map.mp htypes
      obtain ⟨u, hu, heq⟩ := List.mem_map.mp hname
      exact hstops hc t ht (dataTypeToChannel_injective heq ▸ hu)

theorem InStep.forceStop (h : slot.InStep) : slot.forceStop.1.InStep := by
  intro name
  rw [mem_outstanding_forceStop_iff, mem_typesToTypeNames_forceStop, h name]
  apply and_congr_right
  intro hname
  rw [← Bool.not_eq_true]
  exact ⟨fun hnot hc => hnot hc hname, fun hidle hc => absurd hc hidle⟩

theorem InStep.stopAll (h : slot.InStep) : slot.stopAll.1.InStep := h

theorem InStep.shutDown (h : slot.InStep) : slot.shutDown.InStep := by
  intro name
  show name ∈ ((slot.client.post .disconnect).post .dispose).outstanding ↔ _
  rw [CameraSDKClient.outstanding_shutDown]
  exact h name

end SDKSlot

namespace SDKSlotManager
open Transition

def Served (m : SDKSlotManager) : Prop :=
  ∀ id slot, m.slots.lookup id = some slot → slot.Served

def InStep (m : SDKSlotManager) : Prop :=
  ∀ id slot, m.slots.lookup id = some slot → slot.InStep

def sectionStep (m : SDKSlotManager) (s : Section) : Option SDKSlotManager := some (m.enter s)

/-- A stop that names an active type finds its camera capturing. -/
def StopsWhileCapturing (m : SDKSlotManager) : Section → Prop
  | .capture (.stop cameraId types) =>
    ∀ slot, m.slots.lookup cameraId = some slot → slot.StopsWhileCapturing types
  | _ => True

variable {m m' : SDKSlotManager}

theorem forall_mapValues {P : SDKSlot → Prop} {f : SDKSlot → SDKSlot}
    (hm : ∀ id slot, m.slots.lookup id = some slot → P slot) (hf : ∀ slot, P slot → P (f slot))
    (id : String) (slot : SDKSlot)
    (h : (m.slots.mapValues fun _ slot => f slot).lookup id = some slot) : P slot := by
  rw [AList.lookup_mapValues] at h
  obtain ⟨old, hold, rfl⟩ := Option.map_eq_some_iff.mp h
  exact hf old (hm id old hold)

theorem Configured.inStep (hm : m.Configured) : m.InStep := by
  intro id slot h
  obtain ⟨cfg, rfl⟩ := hm.slots id slot h
  exact SDKSlot.inStep_configured cfg

theorem Served.step (hm : m.Served) {s : Section} (h : sectionStep m s = some m') : m'.Served := by
  obtain rfl := Option.some.inj h
  intro id slot hslot
  cases s with
  | capture c =>
    obtain ⟨old, hold, rfl | ⟨types, thread, -, rfl⟩ | ⟨types, -, rfl⟩⟩ := lookup_call c hslot
    · exact hm id slot hold
    · exact (hm id old hold).startCapture types thread
    · exact (hm id old hold).stopCapture types
  | forceStopAllCaptures =>
    exact forall_mapValues hm (fun _ => SDKSlot.Served.forceStop) id slot hslot
  | stopRunning => exact hm id slot hslot
  | stopAll => exact forall_mapValues hm (fun _ => SDKSlot.Served.stopAll) id slot hslot
  | shutDown => exact forall_mapValues hm (fun _ => SDKSlot.Served.shutDown) id slot hslot

theorem InStep.step_iff (hm : m.InStep) {s : Section} (h : sectionStep m s = some m') :
    m'.InStep ↔ m.StopsWhileCapturing s := by
  obtain rfl := Option.some.inj h
  constructor
  · intro hafter
    cases s with
    | capture c =>
      cases c with
      | start cameraId types => trivial
      | stop cameraId types =>
        intro slot hslot
        exact ((hm cameraId slot hslot).stopCapture_iff types).mp
          (hafter cameraId _ (lookup_stopCapture_self hslot))
    | _ => trivial
  · intro hstops id slot hslot
    cases s with
    | capture c =>
      obtain ⟨old, hold, rfl | ⟨types, thread, -, rfl⟩ | ⟨types, rfl, rfl⟩⟩ := lookup_call c hslot
      · exact hm id slot hold
      · exact (hm id old hold).startCapture types thread
      · exact ((hm id old hold).stopCapture_iff types).mpr (hstops old hold)
    | forceStopAllCaptures =>
      exact forall_mapValues hm (fun _ => SDKSlot.InStep.forceStop) id slot hslot
    | stopRunning => exact hm id slot hslot
    | stopAll => exact forall_mapValues hm (fun _ => SDKSlot.InStep.stopAll) id slot hslot
    | shutDown => exact forall_mapValues hm (fun _ => SDKSlot.InStep.shutDown) id slot hslot

/-- After any sections, every camera has been asked for all that its slot has active. It delivers
nothing else in all states of a run exactly if no stop of it takes an active type from a slot
that is idle. -/
theorem camera_inStep_iff (buffer : DataBuffer DataBundle) (configs : List CameraSDKConfig)
    (sections : List Section) :
    (∀ pre m, pre <+: sections →
        run sectionStep ((mk' buffer).configure configs) pre = some m → m.Served) ∧
      ((∀ pre m, pre <+: sections →
          run sectionStep ((mk' buffer).configure configs) pre = some m → m.InStep) ↔
        Guarded sectionStep StopsWhileCapturing ((mk' buffer).configure configs) sections) := by
  have hinit : ((mk' buffer).configure configs).InStep :=
    (configured_configure buffer configs).inStep
  have hserved : ((mk' buffer).configure configs).Served := fun id slot h =>
    (hinit id slot h).served
  constructor
  · intro pre m _ hrun
    exact run_invariant (fun _ _ _ hm hstep => Served.step hm hstep) hserved hrun
  · exact guarded_iff_forall_prefix (I := fun _ => True) (fun _ _ _ _ _ => trivial)
      (fun m s hnone => absurd hnone (Option.some_ne_none (m.enter s)))
      (fun _ _ _ _ hm hstep => InStep.step_iff hm hstep) trivial hinit sections

/-- The first stop ends the capture of both types, and the second one is not sent. -/
def stopsOneByOne : List Section :=
  [.capture (.start "cam1" [.imu, .depthMap]), .capture (.stop "cam1" [.imu]),
    .capture (.stop "cam1" [.depthMap])]

theorem camera_not_inStep :
    ∃ m slot, run sectionStep oneCamera stopsOneByOne = some m ∧
      m.slots.lookup "cam1" = some slot ∧ slot.activeTypes = [] ∧
      slot.client.outstanding = ["depth_map"] := by
  have hslot : ((run sectionStep oneCamera stopsOneByOne).bind fun m =>
      m.slots.lookup "cam1").map (fun slot => (slot.activeTypes, slot.client.outstanding)) =
        some ([], ["depth_map"]) := by
    rfl
  obtain ⟨slot, hlookup, hfields⟩ := Option.map_eq_some_iff.mp hslot
  obtain ⟨m, hrun, hm⟩ := Option.bind_eq_some_iff.mp hlookup
  obtain ⟨htypes, hout⟩ := Prod.mk.inj hfields
  exact ⟨m, slot, hrun, hm, htypes, hout⟩

end SDKSlotManager

end StereoCamera
