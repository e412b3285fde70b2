import Mathlib.Algebra.Order.Ring.Int
import StereoCamera.Common.Json
import StereoCamera.Data.DataBuffer

/-! `SDKSlotManager` (`data/SDKSlotManager.cpp`): the sections of `start_capture` and
`stop_capture` that run under `mutex_`. The answers of the camera SDK only reach the log,
so the client keeps what was sent to it. -/

namespace StereoCamera

inductive SDKRequest
  | connect
  | disconnect
  | dispose
  | startCapture (dataTypes : List String)
  | stopCapture (dataTypes : List String)
  | deactivateChannel (dataType : String)
  deriving DecidableEq

structure CameraSDKClient where
  baseUrl : String
  sent : List SDKRequest
  deriving DecidableEq

def CameraSDKClient.post (c : CameraSDKClient) (r : SDKRequest) : CameraSDKClient :=
  { c with sent := c.sent ++ [r] }

theorem CameraSDKClient.foldl_deactivate (names : List String) (c : CameraSDKClient) :
    names.foldl (fun c name => c.post (.deactivateChannel name)) c =
      { c with sent := c.sent ++ names.map .deactivateChannel } := by
  induction names generalizing c with
  | nil => rw [List.foldl_nil, List.map_nil, List.append_nil]
  | cons name names ih =>
    rw [List.foldl_cons, ih, post, List.append_assoc]
    rfl

/-- The types that were requested from the camera SDK and not stopped there since. -/
def CameraSDKClient.outstanding (c : CameraSDKClient) : List String :=
  c.sent.foldl (fun out r =>
    match r with
    | .startCapture dataTypes => out ++ dataTypes
    | .stopCapture dataTypes => out.filter (· ∉ dataTypes)
    | _ => out) []

/-- `std::thread` objects are named by the order in which they were created. `subscriberCount`
is the `int` of the source as long as fewer than 2^31 starts are without a stop. -/
structure SDKSlot where
  cameraId : String
  zmqEndpoint : String
  channels : List (String × String)
  client : CameraSDKClient
  dealerThread : Option ℕ
  capturing : Bool
  subscriberCount : ℤ
  activeTypes : List DataType
  activeChannels : List String
  deriving DecidableEq

structure CameraSDKConfig where
  id : String
  baseUrl : String
  zmqEndpoint : String
  channels : List (String × String)

def typesToChannels (types : List DataType) : List String :=
  let groups := types.map dataTypeToGroup
  (if .visualGeometric2D ∈ groups then ["visual_2d"] else []) ++
  (if .visualGeometric3D ∈ groups then ["visual_3d"] else []) ++
  (if .sensorTracking ∈ groups then ["sensor_data"] else [])

def typesToTypeNames (types : List DataType) : List String := types.map dataTypeToChannel

/-- `push_back` of every type that is not in the list yet. -/
def addTypes (active types : List DataType) : List DataType :=
  types.foldl (fun active t => if t ∈ active then active else active ++ [t]) active

/-- `erase(remove(..))` for every element of `gone`. -/
def eraseAll {α : Type} [DecidableEq α] (xs gone : List α) : List α :=
  gone.foldl (fun xs g => xs.filter (· ≠ g)) xs

theorem mem_addTypes {active types : List DataType} {t : DataType} :
    t ∈ addTypes active types ↔ t ∈ active ∨ t ∈ types := by
  unfold addTypes
  induction types generalizing active with
  | nil => simp
  | cons u types ih =>
    rw [List.foldl_cons, ih, List.mem_cons]
    by_cases hu : u ∈ active
    · rw [if_pos hu]
      constructor
      · exact Or.imp_right .inr
      · rintro (h | rfl | h)
        exacts [.inl h, .inl hu, .inr h]
    · rw [if_neg hu, List.mem_append, List.mem_singleton, or_assoc]

theorem addTypes_eq_self_iff {active types : List DataType} :
    addTypes active types = active ↔ types ⊆ active := by
  constructor
  · intro h t ht
    rw [← h]
    exact mem_addTypes.mpr (.inr ht)
  · intro h
    unfold addTypes
    induction types with
    | nil => rfl
    | cons u types ih =>
      have hu : u ∈ active := h List.mem_cons_self
      rw [List.foldl_cons, if_pos hu]
      exact ih fun t ht => h (List.mem_cons_of_mem u ht)

theorem nodup_addTypes {active types : List DataType} (h : active.Nodup) :
    (addTypes active types).Nodup := by
  unfold addTypes
  induction types generalizing active with
  | nil => exact h
  | cons u types ih =>
    rw [List.foldl_cons]
    refine ih ?_
    split_ifs with hu
    · exact h
    · exact h.append (List.nodup_singleton u) (List.disjoint_singleton.mpr hu)

theorem mem_eraseAll {α : Type} [DecidableEq α] {xs gone : List α} {x : α} :
    x ∈ eraseAll xs gone ↔ x ∈ xs ∧ x ∉ gone := by
  unfold eraseAll
  induction gone generalizing xs with
  | nil => simp
  | cons g gone ih =>
    rw [List.foldl_cons, ih, List.mem_filter, List.mem_cons, not_or, and_assoc, decide_eq_true_eq]

theorem eraseAll_nil {α : Type} [DecidableEq α] (gone : List α) : eraseAll [] gone = [] :=
  List.eq_nil_iff_forall_not_mem.mpr fun _ h => List.not_mem_nil (mem_eraseAll.mp h).1

theorem nodup_eraseAll {α : Type} [DecidableEq α] {xs : List α} (h : xs.Nodup) (gone : List α) :
    (eraseAll xs gone).Nodup := by
  unfold eraseAll
  induction gone generalizing xs with
  | nil => exact h
  | cons g gone ih => exact ih (h.filter _)

namespace SDKSlot

def configured (cfg : CameraSDKConfig) : SDKSlot where
  cameraId := cfg.id
  zmqEndpoint := cfg.zmqEndpoint
  channels := cfg.channels
  client := ⟨cfg.baseUrl, []⟩
  dealerThread := none
  capturing := false
  subscriberCount := 0
  activeTypes := []
  activeChannels := []

/-- The types that `start_capture` asks the SDK for: it filters `types` by a list that was
computed after `types` were merged into `active_types`. -/
def newTypeNames (merged types : List DataType) : List String :=
  let previouslyActive := merged.filter (· ∉ types)
  (types.filter (· ∉ previouslyActive)).map dataTypeToChannel

def startCapture (slot : SDKSlot) (types : List DataType) (thread : ℕ) : SDKSlot :=
  let activeTypes := addTypes slot.activeTypes types
  let channelsToActivate := (typesToChannels types).filter (· ∉ slot.activeChannels)
  let names := newTypeNames activeTypes types
  let slot := { slot with
    subscriberCount := slot.subscriberCount + 1
    activeTypes := activeTypes
    activeChannels := slot.activeChannels ++ channelsToActivate }
  if slot.capturing then
    if names.isEmpty then slot
    else { slot with client := (slot.client.post .connect).post (.startCapture names) }
  else
    { slot with
      client := if names.isEmpty then slot.client else slot.client.post (.startCapture names)
      capturing := true
      dealerThread := some thread }

/-- What `stop_capture` does to the slot, and the thread it takes over for joining. -/
def stopCapture (slot : SDKSlot) (types : List DataType) : SDKSlot × Option ℕ :=
  let count : ℤ :=
    if slot.subscriberCount > 0 then slot.subscriberCount - 1 else slot.subscriberCount
  let activeTypes := eraseAll slot.activeTypes types
  let channelsToDeactivate := (typesToChannels types).filter (· ∉ typesToChannels activeTypes)
  let names := typesToTypeNames types
  let client :=
    if !names.isEmpty && slot.capturing then
      names.foldl (fun c name => c.post (.deactivateChannel name))
        (slot.client.post (.stopCapture names))
    else slot.client
  let activeChannels :=
    if !channelsToDeactivate.isEmpty && slot.capturing then
      eraseAll slot.activeChannels channelsToDeactivate
    else slot.activeChannels
  let slot : SDKSlot := { slot with subscriberCount := count, activeTypes, client, activeChannels }
  if count ≤ 0 ∧ slot.capturing = true then
    ({ slot with capturing := false, dealerThread := none }, slot.dealerThread)
  else (slot, none)

section
variable (slot : SDKSlot) (types : List DataType) (thread : ℕ)

theorem startCapture_eq :
    ∃ client, slot.startCapture types thread =
      { slot with
        subscriberCount := slot.subscriberCount + 1
        activeTypes := addTypes slot.activeTypes types
        activeChannels := slot.activeChannels ++
          (typesToChannels types).filter (· ∉ slot.activeChannels)
        client := client
        capturing := true
        dealerThread := if slot.capturing then slot.dealerThread else some thread } := by
  unfold startCapture
  by_cases hc : slot.capturing = true
  · simp only [if_pos hc]
    split_ifs
    · exact ⟨slot.client, by rw [← hc]⟩
    · exact ⟨_, by rw [← hc]⟩
  · simp only [if_neg hc]
    exact ⟨_, rfl⟩

@[simp] theorem startCapture_subscriberCount :
    (slot.startCapture types thread).subscriberCount = slot.subscriberCount + 1 := by
  obtain ⟨client, h⟩ := slot.startCapture_eq types thread
  rw [h]

@[simp] theorem startCapture_activeTypes :
    (slot.startCapture types thread).activeTypes = addTypes slot.activeTypes types := by
  obtain ⟨client, h⟩ := slot.startCapture_eq types thread
  rw [h]

@[simp] theorem startCapture_capturing : (slot.startCapture types thread).capturing = true := by
  obtain ⟨client, h⟩ := slot.startCapture_eq types thread
  rw [h]

@[simp] theorem startCapture_dealerThread :
    (slot.startCapture types thread).dealerThread =
      if slot.capturing then slot.dealerThread else some thread := by
  obtain ⟨client, h⟩ := slot.startCapture_eq types thread
  rw [h]

@[simp] theorem startCapture_channels :
    (slot.startCapture types thread).channels = slot.channels := by
  obtain ⟨client, h⟩ := slot.startCapture_eq types thread
  rw [h]

@[simp] theorem stopCapture_channels : (slot.stopCapture types).1.channels = slot.channels := by
  unfold stopCapture
  dsimp only
  split_ifs <;> rfl

theorem stopCapture_client :
    (slot.stopCapture types).1.client =
      if !(typesToTypeNames types).isEmpty && slot.capturing then
        (typesToTypeNames types).foldl (fun c name => c.post (.deactivateChannel name))
          (slot.client.post (.stopCapture (typesToTypeNames types)))
      else slot.client := by
  unfold stopCapture
  dsimp only
  split_ifs <;> rfl

@[simp] theorem stopCapture_activeTypes :
    (slot.stopCapture types).1.activeTypes = eraseAll slot.activeTypes types := by
  unfold stopCapture
  dsimp only
  split_ifs <;> rfl

end

/-- The counter, the flag and the owned thread tell the same story. -/
structure Coherent (slot : SDKSlot) : Prop where
  nonneg : 0 ≤ slot.subscriberCount
  capturing_iff : slot.capturing = true ↔ 0 < slot.subscriberCount
  owns_dealer : slot.dealerThread.isSome = slot.capturing

variable {slot : SDKSlot}

theorem coherent_configured (cfg : CameraSDKConfig) : (configured cfg).Coherent where
  nonneg := Int.le_refl 0
  capturing_iff := by simp [configured]
  owns_dealer := rfl

theorem Coherent.startCapture (h : slot.Coherent) (types : List DataType) (thread : ℕ) :
    (slot.startCapture types thread).Coherent where
  nonneg := by
    rw [startCapture_subscriberCount]
    exact Int.add_nonneg h.nonneg Int.one_nonneg
  capturing_iff := by
    rw [startCapture_capturing, startCapture_subscriberCount]
    exact ⟨fun _ => Int.lt_add_one_of_le h.nonneg, fun _ => rfl⟩
  owns_dealer := by
    rw [startCapture_dealerThread, startCapture_capturing]
    split_ifs with hc
    · exact h.owns_dealer.trans hc
    · rfl

theorem Coherent.stopCapture_eq (h : slot.Coherent) (types : List DataType) :
    (slot.stopCapture types).1.subscriberCount = max (slot.subscriberCount - 1) 0 ∧
      ((slot.stopCapture types).1.capturing = true ↔ 1 < slot.subscriberCount) ∧
      (slot.stopCapture types).1.dealerThread =
        (if 1 < slot.subscriberCount then slot.dealerThread else none) ∧
      (slot.stopCapture types).2 =
        if slot.subscriberCount = 1 then slot.dealerThread else none := by
  -- The last subscriber's stop ends the capture and takes the dealer over.
  have hnonneg := h.nonneg
  have hc := h.capturing_iff
  have hd : slot.capturing = false → slot.dealerThread = none := fun hf =>
    Option.isNone_iff_eq_none.mp (by rw [← Option.not_isSome, h.owns_dealer, hf]; rfl)
  unfold stopCapture
  dsimp only
  rcases lt_trichotomy slot.subscriberCount 1 with h1 | h1 | h1
  · -- Nobody subscribed: the count stays at zero and nothing is captured.
    have hf : slot.capturing = false := by
      rw [← Bool.not_eq_true, hc]
      omega
    rw [hf, hd hf]
    simp
    omega
  · have ht : slot.capturing = true := hc.mpr (by omega)
    rw [h1, ht]
    simp
  · have ht : slot.capturing = true := hc.mpr (by omega)
    have hlast : ¬(slot.subscriberCount - 1 ≤ 0 ∧ slot.capturing = true) := by omega
    have hpos : slot.subscriberCount > 0 := by omega
    simp only [if_pos hpos, if_neg hlast, if_pos h1]
    refine ⟨by omega, iff_of_true ht h1, trivial, ?_⟩
    rw [if_neg (by omega)]

theorem Coherent.stopCapture (h : slot.Coherent) (types : List DataType) :
    (slot.stopCapture types).1.Coherent := by
  obtain ⟨hcount, hcap, hdealer, -⟩ := h.stopCapture_eq types
  refine ⟨?_, ?_, ?_⟩
  · rw [hcount]
    exact le_max_right _ _
  · rw [hcap, hcount]
    omega
  · rw [hdealer, Bool.eq_iff_iff, hcap]
    split_ifs with h1
    · simp only [h1, iff_true, h.owns_dealer, h.capturing_iff]
      omega
    · simp only [h1, iff_false]
      exact Bool.false_ne_true

end SDKSlot

/-- `slots` lists the map in its iteration order, which no call after `configure` changes. -/
structure SDKSlotManager where
  slots : AList fun _ : String => SDKSlot
  buffer : DataBuffer DataBundle
  running : Bool
  /-- Dealer threads created so far. -/
  spawned : ℕ

namespace SDKSlotManager

def mk' (buffer : DataBuffer DataBundle) : SDKSlotManager := ⟨∅, buffer, false, 0⟩

def configure (m : SDKSlotManager) (configs : List CameraSDKConfig) : SDKSlotManager :=
  configs.foldl (fun m cfg => { m with slots := m.slots.insert cfg.id (.configured cfg) }) m

def getCameraIds (m : SDKSlotManager) : List String := m.slots.keys

def startCapture (m : SDKSlotManager) (cameraId : String) (types : List DataType) :
    SDKSlotManager × Bool :=
  match m.slots.lookup cameraId with
  | none => (m, false)
  | some slot =>
    ({ m with
        slots := m.slots.replace cameraId (slot.startCapture types m.spawned)
        buffer := types.foldl (fun b t => b.createSlot cameraId t) m.buffer
        running := if slot.capturing then m.running else true
        spawned := if slot.capturing then m.spawned else m.spawned + 1 }, true)

/-- The locked section of `stop_capture`: the new state, the returned flag, and the thread
that the caller joins after the section. -/
def stopCapture (m : SDKSlotManager) (cameraId : String) (types : List DataType) :
    SDKSlotManager × Bool × Option ℕ :=
  match m.slots.lookup cameraId with
  | none => (m, false, none)
  | some slot =>
    ({ m with
        slots := m.slots.replace cameraId (slot.stopCapture types).1
        buffer := types.foldl (fun b t => b.removeSlot cameraId t) m.buffer },
      true, (slot.stopCapture types).2)

def getClient (m : SDKSlotManager) (cameraId : String) : Option CameraSDKClient :=
  (m.slots.lookup cameraId).map (·.client)

def getStatus (m : SDKSlotManager) : Json :=
  .array (m.slots.entries.map fun e =>
    .object [
      ("active_types", .array (e.2.activeTypes.map fun t => .string (bytes (dataTypeToChannel t)))),
      ("camera_id", .string (bytes e.1)),
      ("capturing", .bool e.2.capturing),
      ("channels", .array (e.2.channels.map fun ch =>
        .object [("endpoint", .string (bytes ch.2)), ("name", .string (bytes ch.1))])),
      ("subscriber_count", .integer e.2.subscriberCount)])

def capturingActive (m : SDKSlotManager) (cameraId : String) : Bool :=
  match m.slots.lookup cameraId with
  | none => false
  | some slot => slot.capturing

theorem capturingActive_iff {m : SDKSlotManager} {cameraId : String} :
    m.capturingActive cameraId = true ↔
      ∃ slot, m.slots.lookup cameraId = some slot ∧ slot.capturing = true := by
  unfold capturingActive
  cases m.slots.lookup cameraId with
  | none => simp
  | some slot => simp

section
variable {m : SDKSlotManager} {cameraId : String} {types : List DataType} {slot : SDKSlot}

theorem lookup_startCapture_self (h : m.slots.lookup cameraId = some slot) :
    (m.startCapture cameraId types).1.slots.lookup cameraId =
      some (slot.startCapture types m.spawned) := by
  unfold startCapture
  rw [h]
  exact AList.lookup_replace_self _ (AList.lookup_isSome.mp (by rw [h]; rfl))

theorem lookup_startCapture_ne {id : String} (hid : id ≠ cameraId) :
    (m.startCapture cameraId types).1.slots.lookup id = m.slots.lookup id := by
  unfold startCapture
  cases m.slots.lookup cameraId with
  | none => rfl
  | some slot => exact AList.lookup_replace_ne _ hid

theorem startCapture_of_lookup_none (h : m.slots.lookup cameraId = none) :
    m.startCapture cameraId types = (m, false) := by
  unfold startCapture
  rw [h]

theorem stopCapture_of_lookup_none (h : m.slots.lookup cameraId = none) :
    m.stopCapture cameraId types = (m, false, none) := by
  unfold stopCapture
  rw [h]

theorem lookup_stopCapture_self (h : m.slots.lookup cameraId = some slot) :
    (m.stopCapture cameraId types).1.slots.lookup cameraId = some (slot.stopCapture types).1 := by
  unfold stopCapture
  rw [h]
  exact AList.lookup_replace_self _ (AList.lookup_isSome.mp (by rw [h]; rfl))

theorem lookup_stopCapture_ne {id : String} (hid : id ≠ cameraId) :
    (m.stopCapture cameraId types).1.slots.lookup id = m.slots.lookup id := by
  unfold stopCapture
  cases m.slots.lookup cameraId with
  | none => rfl
  | some slot => exact AList.lookup_replace_ne _ hid

theorem keys_startCapture :
    (m.startCapture cameraId types).1.slots.keys = m.slots.keys := by
  unfold startCapture
  cases m.slots.lookup cameraId with
  | none => rfl
  | some slot => exact AList.keys_replace _ _ _

theorem keys_stopCapture :
    (m.stopCapture cameraId types).1.slots.keys = m.slots.keys := by
  unfold stopCapture
  cases m.slots.lookup cameraId with
  | none => rfl
  | some slot => exact AList.keys_replace _ _ _

end

def Coherent (m : SDKSlotManager) : Prop :=
  ∀ id slot, m.slots.lookup id = some slot → slot.Coherent

theorem Coherent.startCapture {m : SDKSlotManager} (hm : m.Coherent) (cameraId : String)
    (types : List DataType) : (m.startCapture cameraId types).1.Coherent := by
  intro id slot h
  rcases hold : m.slots.lookup cameraId with _ | old
  · rw [startCapture_of_lookup_none hold] at h
    exact hm id slot h
  · by_cases hid : id = cameraId
    · rw [hid, lookup_startCapture_self hold] at h
      exact Option.some.inj h ▸ (hm cameraId old hold).startCapture types m.spawned
    · exact hm id slot ((lookup_startCapture_ne hid).symm.trans h)

theorem Coherent.stopCapture {m : SDKSlotManager} (hm : m.Coherent) (cameraId : String)
    (types : List DataType) : (m.stopCapture cameraId types).1.Coherent := by
  intro id slot h
  rcases hold : m.slots.lookup cameraId with _ | old
  · rw [stopCapture_of_lookup_none hold] at h
    exact hm id slot h
  · by_cases hid : id = cameraId
    · rw [hid, lookup_stopCapture_self hold] at h
      exact Option.some.inj h ▸ (hm cameraId old hold).stopCapture types
    · exact hm id slot ((lookup_stopCapture_ne hid).symm.trans h)

/-- As `configure` leaves it: no camera has been asked for anything. -/
structure Configured (m : SDKSlotManager) : Prop where
  slots : ∀ id slot, m.slots.lookup id = some slot → ∃ cfg, slot = .configured cfg
  spawned : m.spawned = 0

theorem Configured.coherent {m : SDKSlotManager} (hm : m.Configured) : m.Coherent := by
  intro id slot h
  obtain ⟨cfg, rfl⟩ := hm.slots id slot h
  exact SDKSlot.coherent_configured cfg

theorem Configured.configure {m : SDKSlotManager} (hm : m.Configured)
    (configs : List CameraSDKConfig) : (m.configure configs).Configured := by
  unfold SDKSlotManager.configure
  induction configs generalizing m with
  | nil => exact hm
  | cons cfg configs ih =>
    refine ih ⟨fun id slot h => ?_, hm.spawned⟩
    by_cases hid : id = cfg.id
    · rw [hid, AList.lookup_insert] at h
      exact ⟨cfg, (Option.some.inj h).symm⟩
    · rw [AList.lookup_insert_ne hid] at h
      exact hm.slots id slot h

theorem configured_configure (buffer : DataBuffer DataBundle) (configs : List CameraSDKConfig) :
    ((mk' buffer).configure configs).Configured := by
  refine Configured.configure ⟨fun id slot h => ?_, rfl⟩ configs
  cases (AList.lookup_empty id).symm.trans h

theorem buffer_configure (m : SDKSlotManager) (configs : List CameraSDKConfig) :
    (m.configure configs).buffer = m.buffer := by
  unfold SDKSlotManager.configure
  induction configs generalizing m with
  | nil => rfl
  | cons cfg configs ih => exact ih _

end SDKSlotManager

end StereoCamera
