import StereoCamera.Data.SlotChannels

/-! All sections of `SDKSlotManager` under `mutex_` that change a slot, in any order
(`data/SDKSlotManager.cpp`). `stop_all` takes the mutex twice. -/

namespace StereoCamera

namespace SDKSlot

/-- What `force_stop_all_captures` does to a slot, and the thread it takes over for joining. -/
def forceStop (slot : SDKSlot) : SDKSlot × Option ℕ :=
  if slot.capturing then
    let names := typesToTypeNames slot.activeTypes
    let client :=
      if names.isEmpty then slot.client
      else names.foldl (fun c name => c.post (.deactivateChannel name))
        (slot.client.post (.stopCapture names))
    ({ slot with
        capturing := false
        subscriberCount := 0
        client := client
        activeTypes := []
        activeChannels := []
        dealerThread := none }, slot.dealerThread)
  else (slot, none)

/-- What the first section of `stop_all` does to a slot, and the thread it takes over. -/
def stopAll (slot : SDKSlot) : SDKSlot × Option ℕ :=
  ({ slot with capturing := false, subscriberCount := 0, dealerThread := none },
    slot.dealerThread)

/-- What the second section of `stop_all` does to a slot. -/
def shutDown (slot : SDKSlot) : SDKSlot :=
  { slot with client := (slot.client.post .disconnect).post .dispose }

/-- `start_capture` would assign a new thread to a `dealer_thread` that owns one, which
destroys a thread that can be joined and so ends the process. -/
def StartTerminates (slot : SDKSlot) : Prop :=
  slot.capturing = false ∧ slot.dealerThread.isSome = true

structure Orderly (slot : SDKSlot) : Prop where
  coherent : slot.Coherent
  types : slot.activeTypes.Nodup
  channels : slot.activeChannels.Nodup

theorem orderly_configured (cfg : CameraSDKConfig) : (configured cfg).Orderly where
  coherent := coherent_configured cfg
  types := List.nodup_nil
  channels := List.nodup_nil

variable {slot : SDKSlot}

theorem Orderly.startCapture (h : slot.Orderly) (types : List DataType) (thread : ℕ) :
    (slot.startCapture types thread).Orderly where
  coherent := h.coherent.startCapture types thread
  types := nodup_startCapture_types types thread h.types
  channels := nodup_startCapture_channels types thread h.channels

theorem Orderly.stopCapture (h : slot.Orderly) (types : List DataType) :
    (slot.stopCapture types).1.Orderly where
  coherent := h.coherent.stopCapture types
  types := nodup_stopCapture_types types h.types
  channels := nodup_stopCapture_channels types h.channels

theorem coherent_of_idle (hcount : slot.subscriberCount = 0) (hcapturing : slot.capturing = false)
    (hdealer : slot.dealerThread = none) : slot.Coherent where
  nonneg := hcount.ge
  capturing_iff := by
    rw [hcount, hcapturing]
    simp
  owns_dealer := by
    rw [hdealer, hcapturing]
    rfl

theorem Orderly.forceStop (h : slot.Orderly) : slot.forceStop.1.Orderly := by
  unfold SDKSlot.forceStop
  split_ifs
  · exact ⟨coherent_of_idle rfl rfl rfl, List.nodup_nil, List.nodup_nil⟩
  · exact h

theorem Orderly.stopAll (h : slot.Orderly) : slot.stopAll.1.Orderly :=
  ⟨coherent_of_idle rfl rfl rfl, h.types, h.channels⟩

theorem Orderly.shutDown (h : slot.Orderly) : slot.shutDown.Orderly where
  coherent := ⟨h.coherent.nonneg, h.coherent.capturing_iff, h.coherent.owns_dealer⟩
  types := h.types
  channels := h.channels

theorem Orderly.not_startTerminates (h : slot.Orderly) : ¬slot.StartTerminates := by
  rintro ⟨hcapturing, hdealer⟩
  have howned := h.coherent.owns_dealer
  rw [hcapturing, hdealer] at howned
  cases howned

end SDKSlot

namespace SDKSlotManager

def forceStopAllCaptures (m : SDKSlotManager) : SDKSlotManager × List ℕ :=
  ({ m with
      slots := m.slots.mapValues fun _ slot => slot.forceStop.1
      buffer := m.slots.entries.foldl (fun b e =>
        if e.2.capturing then e.2.activeTypes.foldl (fun b t => b.removeSlot e.1 t) b else b)
        m.buffer },
    m.slots.entries.filterMap fun e => e.2.forceStop.2)

/-- `running_.store(false)`, which `stop_all` does before it takes the mutex. -/
def stopRunning (m : SDKSlotManager) : SDKSlotManager := { m with running := false }

def stopAll (m : SDKSlotManager) : SDKSlotManager × List ℕ :=
  ({ m with slots := m.slots.mapValues fun _ slot => slot.stopAll.1 },
    m.slots.entries.filterMap fun e => e.2.stopAll.2)

def shutDown (m : SDKSlotManager) : SDKSlotManager :=
  { m with slots := m.slots.mapValues fun _ slot => slot.shutDown }

inductive CaptureCall
  | start (cameraId : String) (types : List DataType)
  | stop (cameraId : String) (types : List DataType)

def call (m : SDKSlotManager) : CaptureCall → SDKSlotManager
  | .start cameraId types => (m.startCapture cameraId types).1
  | .stop cameraId types => (m.stopCapture cameraId types).1

inductive Section
  | capture (c : CaptureCall)
  | forceStopAllCaptures
  | stopRunning
  | stopAll
  | shutDown

def enter (m : SDKSlotManager) : Section → SDKSlotManager
  | .capture c => m.call c
  | .forceStopAllCaptures => m.forceStopAllCaptures.1
  | .stopRunning => m.stopRunning
  | .stopAll => m.stopAll.1
  | .shutDown => m.shutDown

section
variable {m : SDKSlotManager} {id : String} {slot : SDKSlot}

theorem lookup_call (c : CaptureCall) (h : (m.call c).slots.lookup id = some slot) :
    ∃ old, m.slots.lookup id = some old ∧
      (slot = old ∨ (∃ types thread, c = .start id types ∧ slot = old.startCapture types thread) ∨
        ∃ types, c = .stop id types ∧ slot = (old.stopCapture types).1) := by
  cases c with
  | start cameraId types =>
    rcases hold : m.slots.lookup cameraId with _ | old
    · change (m.startCapture cameraId types).1.slots.lookup id = some slot at h
      rw [startCapture_of_lookup_none hold] at h
      exact ⟨slot, h, .inl rfl⟩
    · by_cases hid : id = cameraId
      · subst hid
        have hnew := (lookup_startCapture_self hold).symm.trans h
        exact ⟨old, hold, .inr (.inl ⟨types, _, rfl, (Option.some.inj hnew).symm⟩)⟩
      · exact ⟨slot, (lookup_startCapture_ne hid).symm.trans h, .inl rfl⟩
  | stop cameraId types =>
    rcases hold : m.slots.lookup cameraId with _ | old
    · change (m.stopCapture cameraId types).1.slots.lookup id = some slot at h
      rw [stopCapture_of_lookup_none hold] at h
      exact ⟨slot, h, .inl rfl⟩
    · by_cases hid : id = cameraId
      · subst hid
        have hnew := (lookup_stopCapture_self hold).symm.trans h
        exact ⟨old, hold, .inr (.inr ⟨types, rfl, (Option.some.inj hnew).symm⟩)⟩
      · exact ⟨slot, (lookup_stopCapture_ne hid).symm.trans h, .inl rfl⟩

end

def Orderly (m : SDKSlotManager) : Prop :=
  ∀ id slot, m.slots.lookup id = some slot → slot.Orderly

theorem Configured.orderly {m : SDKSlotManager} (hm : m.Configured) : m.Orderly := by
  intro id slot h
  obtain ⟨cfg, rfl⟩ := hm.slots id slot h
  exact SDKSlot.orderly_configured cfg

theorem Orderly.mapValues {m : SDKSlotManager} (hm : m.Orderly) {f : SDKSlot → SDKSlot}
    (hf : ∀ slot, slot.Orderly → (f slot).Orderly) {id : String} {slot : SDKSlot}
    (h : (m.slots.mapValues fun _ slot => f slot).lookup id = some slot) : slot.Orderly := by
  rw [AList.lookup_mapValues] at h
  obtain ⟨old, hold, rfl⟩ := Option.map_eq_some_iff.mp h
  exact hf old (hm id old hold)

theorem Orderly.enter {m : SDKSlotManager} (hm : m.Orderly) (s : Section) :
    (m.enter s).Orderly := by
  intro id slot h
  cases s with
  | capture c =>
    obtain ⟨old, hold, rfl | ⟨types, thread, -, rfl⟩ | ⟨types, -, rfl⟩⟩ := lookup_call c h
    · exact hm id slot hold
    · exact (hm id old hold).startCapture types thread
    · exact (hm id old hold).stopCapture types
  | forceStopAllCaptures => exact hm.mapValues (fun _ => SDKSlot.Orderly.forceStop) h
  | stopRunning => exact hm id slot h
  | stopAll => exact hm.mapValues (fun _ => SDKSlot.Orderly.stopAll) h
  | shutDown => exact hm.mapValues (fun _ => SDKSlot.Orderly.shutDown) h

theorem Orderly.enters {m : SDKSlotManager} (hm : m.Orderly) (sections : List Section) :
    (sections.foldl SDKSlotManager.enter m).Orderly := by
  induction sections generalizing m with
  | nil => exact hm
  | cons s sections ih => exact ih (hm.enter s)

/-- After any sections, the flag, the counter and the thread of each slot agree, its lists hold
nothing twice, and no `start_capture` assigns a thread over one that can be joined. -/
theorem slots_orderly (buffer : DataBuffer DataBundle) (configs : List CameraSDKConfig)
    (sections : List Section) (id : String) (slot : SDKSlot)
    (h : (sections.foldl enter ((mk' buffer).configure configs)).slots.lookup id = some slot) :
    ((slot.capturing = true ↔ 0 < slot.subscriberCount) ∧
      (0 < slot.subscriberCount ↔ slot.dealerThread.isSome = true) ∧
      0 ≤ slot.subscriberCount) ∧
      (slot.activeTypes.Nodup ∧ slot.activeChannels.Nodup) ∧ ¬slot.StartTerminates := by
  have hslot : slot.Orderly :=
    ((configured_configure buffer configs).orderly.enters sections) id slot h
  have hcoherent := hslot.coherent
  refine ⟨⟨hcoherent.capturing_iff, ?_, hcoherent.nonneg⟩, ⟨hslot.types, hslot.channels⟩,
    hslot.not_startTerminates⟩
  rw [hcoherent.owns_dealer, hcoherent.capturing_iff]

/-- Two captures of one camera are ended by `stop_all`, and one that starts during it is not. -/
def restartSections : List Section :=
  [.capture (.start "cam1" [.imu, .imu]), .capture (.start "cam1" []), .stopRunning, .stopAll,
    .capture (.start "cam1" [.stereoImage]), .shutDown]

def oneCamera : SDKSlotManager :=
  (mk' (.mk' 3)).configure [⟨"cam1", "https://cam", "tcp://cam", []⟩]

theorem slots_orderly_restart :
    ∃ slot, (restartSections.foldl enter oneCamera).slots.lookup "cam1" = some slot ∧
      (slot.subscriberCount, slot.dealerThread) = (1, some 1) ∧
      ((slot.capturing = true ↔ 0 < slot.subscriberCount) ∧
        (0 < slot.subscriberCount ↔ slot.dealerThread.isSome = true) ∧
        0 ≤ slot.subscriberCount) ∧
        (slot.activeTypes.Nodup ∧ slot.activeChannels.Nodup) ∧ ¬slot.StartTerminates := by
  have hslot : ((restartSections.foldl enter oneCamera).slots.lookup "cam1").map
      (fun slot => (slot.subscriberCount, slot.dealerThread)) = some (1, some 1) := by
    rfl
  obtain ⟨slot, hlookup, hfields⟩ := Option.map_eq_some_iff.mp hslot
  exact ⟨slot, hlookup, hfields, slots_orderly _ _ restartSections "cam1" slot hlookup⟩

end SDKSlotManager

end StereoCamera
