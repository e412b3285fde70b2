import StereoCamera.Api.AdminServer
import StereoCamera.Api.Subscriptions
import StereoCamera.Data.RequestedTypes
import StereoCamera.Data.UnknownParts

/-! Names that are none of the nine in the `data_types` of a request, next to the same in the
parts of a message. -/

namespace StereoCamera

def SDKRequest.dataTypes : SDKRequest → List String
  | .startCapture dataTypes => dataTypes
  | .stopCapture dataTypes => dataTypes
  | .deactivateChannel dataType => [dataType]
  | _ => []

namespace SDKSlot

def requestsAbout (t : DataType) (sent : List SDKRequest) : List SDKRequest :=
  sent.filter fun r => dataTypeToChannel t ∈ r.dataTypes

/-- What a slot keeps for an active type. All but the channel is shared by its active types. -/
structure Capture where
  subscribers : ℤ
  capturing : Bool
  dealer : Option ℕ
  channelActive : Bool
  deriving DecidableEq

def activeCapture (slot : SDKSlot) (t : DataType) : Capture where
  subscribers := slot.subscriberCount
  capturing := slot.capturing
  dealer := slot.dealerThread
  channelActive := typesToChannels [t] ⊆ slot.activeChannels

/-- The capture of one type, if it is active, and what the camera was told of it. -/
def captureOf (slot : SDKSlot) (t : DataType) : Option Capture × List SDKRequest :=
  (if t ∈ slot.activeTypes then some (slot.activeCapture t) else none,
    requestsAbout t slot.client.sent)

section
variable {slot : SDKSlot} {t : DataType} {types : List DataType} {thread : ℕ}

theorem requestsAbout_append (sent more : List SDKRequest) :
    requestsAbout t (sent ++ more) = requestsAbout t sent ++ requestsAbout t more :=
  List.filter_append _ _

theorem mem_typeNames_iff : dataTypeToChannel t ∈ types.map dataTypeToChannel ↔ t ∈ types :=
  List.mem_map_of_injective dataTypeToChannel_injective

theorem ite_some_inj {α : Type} {p : Prop} [Decidable p] {a b : α} :
    (if p then some a else none) = (if p then some b else none) ↔ (p → a = b) := by
  split_ifs with hp
  · rw [Option.some_inj, forall_prop_of_true hp]
  · exact iff_of_true rfl fun h => absurd h hp

theorem requestsAbout_startCapture_iff :
    requestsAbout t (slot.startCapture types thread).client.sent =
        requestsAbout t slot.client.sent ↔ t ∉ types := by
  rw [sent_startCapture, requestsAbout_append, List.append_right_eq_self]
  by_cases ht : t ∈ types
  · have hne : types ≠ [] := List.ne_nil_of_mem ht
    have hname := mem_typeNames_iff.mpr ht
    apply iff_of_false
    · intro hnil
      rw [if_neg hne] at hnil
      split_ifs at hnil <;> simp [requestsAbout, SDKRequest.dataTypes, hname] at hnil
    · exact fun h => h ht
  · have hname := mt mem_typeNames_iff.mp ht
    apply iff_of_true
    · split_ifs <;> simp [requestsAbout, SDKRequest.dataTypes, hname]
    · exact ht

theorem requestsAbout_stopCapture_iff :
    requestsAbout t (slot.stopCapture types).1.client.sent = requestsAbout t slot.client.sent ↔
      (t ∈ types → slot.capturing = false) := by
  rw [sent_stopCapture, requestsAbout_append, List.append_right_eq_self]
  by_cases ht : t ∈ types
  · have hne : types ≠ [] := List.ne_nil_of_mem ht
    have hname : dataTypeToChannel t ∈ typesToTypeNames types := mem_typeNames_iff.mpr ht
    rw [forall_prop_of_true ht]
    cases hc : slot.capturing with
    | true => simp [hne, requestsAbout, SDKRequest.dataTypes, hname]
    | false => simp [requestsAbout]
  · have hname : dataTypeToChannel t ∉ typesToTypeNames types := mt mem_typeNames_iff.mp ht
    apply iff_of_true
    · split_ifs
      · simp only [requestsAbout, List.filter_eq_nil_iff, decide_eq_true_eq]
        intro r hr
        rcases List.mem_cons.mp hr with rfl | hr
        · exact hname
        · obtain ⟨name, hmem, rfl⟩ := List.mem_map.mp hr
          intro heq
          rw [List.mem_singleton.mp heq] at hname
          exact hname hmem
      · rfl
    · exact fun h => absurd h ht

theorem captureOf_startCapture_iff :
    (slot.startCapture types thread).captureOf t = slot.captureOf t ↔
      t ∉ types ∧ t ∉ slot.activeTypes := by
  -- A start counts one more subscriber for every active type, named or not.
  unfold captureOf
  rw [Prod.mk.injEq, requestsAbout_startCapture_iff, and_comm]
  refine and_congr_right fun ht => ?_
  have hmem : t ∈ (slot.startCapture types thread).activeTypes ↔ t ∈ slot.activeTypes := by
    rw [startCapture_activeTypes, mem_addTypes, or_iff_left ht]
  simp only [hmem, ite_some_inj]
  refine imp_congr_right fun _ => iff_of_false (fun heq => ?_) id
  have hcount := congrArg Capture.subscribers heq
  simp [activeCapture] at hcount

theorem stopCapture_subscriberCount :
    (slot.stopCapture types).1.subscriberCount =
      if slot.subscriberCount > 0 then slot.subscriberCount - 1 else slot.subscriberCount := by
  unfold stopCapture
  dsimp only
  split_ifs <;> rfl

theorem capturing_stopCapture (hle : slot.subscriberCount ≤ 0) :
    (slot.stopCapture types).1.capturing = false := by
  have hpos : ¬slot.subscriberCount > 0 := not_lt.mpr hle
  cases hc : slot.capturing <;> simp [stopCapture, hpos, hle, hc]

theorem activeCapture_stopCapture_iff :
    (slot.stopCapture types).1.activeCapture t = slot.activeCapture t ↔
      slot.subscriberCount ≤ 0 ∧ slot.capturing = false := by
  constructor
  · intro heq
    have hcount := congrArg Capture.subscribers heq
    have hcapturing := congrArg Capture.capturing heq
    have hle : slot.subscriberCount ≤ 0 := by
      by_contra hpos
      rw [not_le] at hpos
      simp only [activeCapture, stopCapture_subscriberCount, gt_iff_lt, if_pos hpos] at hcount
      omega
    exact ⟨hle, hcapturing.symm.trans (capturing_stopCapture hle)⟩
  · rintro ⟨hle, hc⟩
    have hpos : ¬slot.subscriberCount > 0 := not_lt.mpr hle
    simp [activeCapture, stopCapture, hpos, hc]

theorem captureOf_stopCapture_iff :
    (slot.stopCapture types).1.captureOf t = slot.captureOf t ↔
      (t ∈ types → slot.capturing = false ∧ t ∉ slot.activeTypes) ∧
        (t ∉ types → t ∈ slot.activeTypes →
          slot.subscriberCount ≤ 0 ∧ slot.capturing = false) := by
  -- A stop changes something of every active type, unless there is no subscriber and no capture.
  unfold captureOf
  rw [Prod.mk.injEq, requestsAbout_stopCapture_iff, stopCapture_activeTypes]
  by_cases ht : t ∈ types
  · have hgone : t ∉ eraseAll slot.activeTypes types := fun hmem => (mem_eraseAll.mp hmem).2 ht
    rw [if_neg hgone, forall_prop_of_true ht, forall_prop_of_true ht, and_comm]
    have hlost : none = (if t ∈ slot.activeTypes then some (slot.activeCapture t) else none) ↔
        t ∉ slot.activeTypes := by
      split_ifs with hactive
      · exact iff_of_false nofun fun h => h hactive
      · exact iff_of_true rfl hactive
    rw [hlost, and_iff_left fun h => absurd ht h]
  · have hmem : t ∈ eraseAll slot.activeTypes types ↔ t ∈ slot.activeTypes := by
      rw [mem_eraseAll, and_iff_left ht]
    simp only [hmem, ite_some_inj, activeCapture_stopCapture_iff]
    rw [forall_prop_of_true ht]
    simp [ht]

end

end SDKSlot

namespace SDKSlotManager

structure SameCapture (t : DataType) (m m' : SDKSlotManager) : Prop where
  slots : ∀ id, (m'.slots.lookup id).map (·.captureOf t) = (m.slots.lookup id).map (·.captureOf t)
  buffer : ∀ id, m'.buffer.slots.lookup ⟨id, t⟩ = m.buffer.slots.lookup ⟨id, t⟩

section
variable {m : SDKSlotManager} {id : String} {t : DataType} {types : List DataType}

theorem SameCapture.refl (t : DataType) (m : SDKSlotManager) : SameCapture t m m :=
  ⟨fun _ => rfl, fun _ => rfl⟩

/-- One slot is replaced. -/
theorem captures_eq_iff {m' : SDKSlotManager} {slot slot' : SDKSlot}
    (hslot : m.slots.lookup id = some slot) (hself : m'.slots.lookup id = some slot')
    (hne : ∀ id', id' ≠ id → m'.slots.lookup id' = m.slots.lookup id') :
    (∀ id', (m'.slots.lookup id').map (·.captureOf t) =
      (m.slots.lookup id').map (·.captureOf t)) ↔ slot'.captureOf t = slot.captureOf t := by
  constructor
  · intro h
    have hcap := h id
    rwa [hself, hslot, Option.map_some, Option.map_some, Option.some_inj] at hcap
  · intro hcap id'
    by_cases hid : id' = id
    · rw [hid, hself, hslot, Option.map_some, Option.map_some, hcap]
    · rw [hne id' hid]

theorem sameCapture_startCapture_iff :
    SameCapture t m (m.startCapture id types).1 ↔
      ∀ slot, m.slots.lookup id = some slot → t ∉ types ∧ t ∉ slot.activeTypes := by
  rcases hslot : m.slots.lookup id with _ | slot
  · rw [startCapture_of_lookup_none hslot]
    exact iff_of_true (.refl t m) nofun
  · have hself : (m.startCapture id types).1.slots.lookup id =
        some (slot.startCapture types m.spawned) := lookup_startCapture_self hslot
    have hcaptures := captures_eq_iff (t := t) hslot hself fun _ hid => lookup_startCapture_ne hid
    rw [SDKSlot.captureOf_startCapture_iff] at hcaptures
    simp only [Option.some_inj, forall_eq']
    constructor
    · intro h
      exact hcaptures.mp h.slots
    · intro h
      refine ⟨hcaptures.mpr h, fun id' => ?_⟩
      rw [startCapture, hslot]
      exact DataBuffer.lookup_createSlots_of_not_named fun hkey => h.1 hkey.2

theorem lookup_buffer_stopCapture {slot : SDKSlot} (hslot : m.slots.lookup id = some slot)
    (key : BufferSlotKey) : (m.stopCapture id types).1.buffer.slots.lookup key =
      if key.cameraId = id ∧ key.type ∈ types then none else m.buffer.slots.lookup key := by
  rw [stopCapture, hslot]
  exact DataBuffer.lookup_removeSlots m.buffer id types key

theorem sameCapture_stopCapture_iff :
    SameCapture t m (m.stopCapture id types).1 ↔ ∀ slot, m.slots.lookup id = some slot →
      (t ∈ types → slot.capturing = false ∧ t ∉ slot.activeTypes ∧
        m.buffer.slots.lookup ⟨id, t⟩ = none) ∧
      (t ∉ types → t ∈ slot.activeTypes →
        slot.subscriberCount ≤ 0 ∧ slot.capturing = false) := by
  rcases hslot : m.slots.lookup id with _ | slot
  · rw [stopCapture_of_lookup_none hslot]
    exact iff_of_true (.refl t m) nofun
  · have hself : (m.stopCapture id types).1.slots.lookup id =
        some (slot.stopCapture types).1 := lookup_stopCapture_self hslot
    have hcaptures := captures_eq_iff (t := t) hslot hself fun _ hid => lookup_stopCapture_ne hid
    rw [SDKSlot.captureOf_stopCapture_iff] at hcaptures
    simp only [Option.some_inj, forall_eq']
    constructor
    · intro h
      obtain ⟨hnamed, hspared⟩ := hcaptures.mp h.slots
      refine ⟨fun ht => ?_, hspared⟩
      have hgone := h.buffer id
      rw [lookup_buffer_stopCapture hslot, if_pos ⟨rfl, ht⟩] at hgone
      exact ⟨(hnamed ht).1, (hnamed ht).2, hgone.symm⟩
    · rintro ⟨hnamed, hspared⟩
      have hidle : t ∈ types → slot.capturing = false ∧ t ∉ slot.activeTypes := by
        intro ht
        obtain ⟨hcapturing, hactive, -⟩ := hnamed ht
        exact ⟨hcapturing, hactive⟩
      refine ⟨hcaptures.mpr ⟨hidle, hspared⟩, fun id' => ?_⟩
      rw [lookup_buffer_stopCapture hslot]
      split_ifs with hkey
      · obtain ⟨rfl, ht⟩ := hkey
        exact (hnamed ht).2.2.symm
      · rfl

end

end SDKSlotManager

namespace ClientHandler

/-- No capture state of type `t` has changed, neither in a session nor in the manager. -/
structure SameCapture (t : DataType) (h h' : ClientHandler) : Prop where
  sessions : ∀ c, (h'.sessions.lookup c).map (fun s => decide (t ∈ s.activeTypes)) =
    (h.sessions.lookup c).map (fun s => decide (t ∈ s.activeTypes))
  manager : Option.Rel (SDKSlotManager.SameCapture t) h.sdkManager h'.sdkManager

/-- A start of `t` changes nothing: the client is not connected, or has `t` already and there
is no camera. -/
def StartInert (t : DataType) (h : ClientHandler) (c : String) : Prop :=
  ∀ s, h.connectedSession c = some s → t ∈ s.activeTypes ∧
    ∀ m, h.sdkManager = some m → m.slots.lookup (firstCamera m) = none

/-- A start of other types leaves `t` alone: it is not among those that would be counted. -/
def StartSpares (t : DataType) (h : ClientHandler) (c : String) : Prop :=
  ∀ s, h.connectedSession c = some s → ∀ m, h.sdkManager = some m →
    ∀ slot, m.slots.lookup (firstCamera m) = some slot → t ∉ slot.activeTypes

/-- A stop of `t` changes nothing: the client is not connected, or does not have `t` and the
camera neither captures nor holds anything of it. -/
def StopInert (t : DataType) (h : ClientHandler) (c : String) : Prop :=
  ∀ s, h.connectedSession c = some s → t ∉ s.activeTypes ∧
    ∀ m, h.sdkManager = some m → ∀ slot, m.slots.lookup (firstCamera m) = some slot →
      slot.capturing = false ∧ t ∉ slot.activeTypes ∧
        m.buffer.slots.lookup ⟨firstCamera m, t⟩ = none

/-- A stop of other types leaves `t` alone: there is no subscriber to take off, nor a capture
to end. -/
def StopSpares (t : DataType) (h : ClientHandler) (c : String) : Prop :=
  ∀ s, h.connectedSession c = some s → ∀ m, h.sdkManager = some m →
    ∀ slot, m.slots.lookup (firstCamera m) = some slot → t ∈ slot.activeTypes →
      slot.subscriberCount ≤ 0 ∧ slot.capturing = false

section
variable {h h' : ClientHandler} {c : String} {s s' : ClientSession} {t : DataType}
  {types : List DataType}

theorem SameCapture.refl (t : DataType) (h : ClientHandler) : SameCapture t h h where
  sessions := fun _ => rfl
  manager := by
    cases h.sdkManager with
    | none => exact .none
    | some m => exact .some (.refl t m)

theorem sameCapture_iff (hs : h.connectedSession c = some s)
    (hsess : h'.sessions = (h.setSession c s').sessions) :
    SameCapture t h h' ↔ (t ∈ s'.activeTypes ↔ t ∈ s.activeTypes) ∧
      Option.Rel (SDKSlotManager.SameCapture t) h.sdkManager h'.sdkManager := by
  have hlook := (connectedSession_eq_some.mp hs).1
  have hself : h'.sessions.lookup c = some s' := by
    rw [hsess]
    exact AList.lookup_insert _
  constructor
  · intro hsame
    have hc := hsame.sessions c
    rw [hself, hlook, Option.map_some, Option.map_some, Option.some_inj, decide_eq_decide] at hc
    exact ⟨hc, hsame.manager⟩
  · rintro ⟨htypes, hmanager⟩
    refine ⟨fun c' => ?_, hmanager⟩
    by_cases hc : c' = c
    · rw [hc, hself, hlook, Option.map_some, Option.map_some, decide_eq_decide.mpr htypes]
    · rw [hsess, setSession, AList.lookup_insert_ne hc]

theorem rel_map_iff {α : Type} {R : α → α → Prop} {o : Option α} {f : α → α} :
    Option.Rel R o (o.map f) ↔ ∀ a, o = some a → R a (f a) := by
  cases o with
  | none => exact iff_of_true .none nofun
  | some a =>
    constructor
    · rintro (_ | hrel) _ ⟨⟩
      assumption
    · intro hall
      exact .some (hall a rfl)

theorem handleStartCapture_parts (hs : h.connectedSession c = some s) (types : List DataType) :
    ∃ s', (h.handleStartCapture c types).1.sessions = (h.setSession c s').sessions ∧
      s'.activeTypes = addTypes s.activeTypes (captureTypes types) ∧
      (h.handleStartCapture c types).1.sdkManager =
        h.sdkManager.map fun m => (m.startCapture (firstCamera m) (captureTypes types)).1 := by
  rcases hm : h.sdkManager with _ | m
  · rw [handleStartCapture_of_no_manager hs hm]
    exact ⟨_, rfl, rfl, hm⟩
  · rw [handleStartCapture_of_manager hs hm]
    exact ⟨_, rfl, rfl, rfl⟩

theorem handleStopCapture_parts (hs : h.connectedSession c = some s) (types : List DataType) :
    ∃ s', (h.handleStopCapture c types).1.sessions = (h.setSession c s').sessions ∧
      s'.activeTypes = eraseAll s.activeTypes (captureTypes types) ∧
      (h.handleStopCapture c types).1.sdkManager =
        h.sdkManager.map fun m => (m.stopCapture (firstCamera m) (captureTypes types)).1 := by
  rcases hm : h.sdkManager with _ | m
  · rw [handleStopCapture_of_no_manager hs hm]
    exact ⟨_, rfl, rfl, hm⟩
  · rw [handleStopCapture_of_manager hs hm]
    refine ⟨_, rfl, rfl, ?_⟩
    rw [stopCamera, setSession, hm]
    rfl

theorem sameCapture_handleStartCapture_iff :
    SameCapture t h (h.handleStartCapture c types).1 ↔
      (t ∈ captureTypes types → StartInert t h c) ∧
        (t ∉ captureTypes types → StartSpares t h c) := by
  rcases hs : h.connectedSession c with _ | s
  · have hnone : ∀ s, h.connectedSession c ≠ some s := by
      intro s hs'
      cases hs.symm.trans hs'
    rw [handleStartCapture_of_not_connected hs]
    refine iff_of_true (.refl t h) ⟨fun _ s hs' => ?_, fun _ s hs' => ?_⟩
    · exact absurd hs' (hnone s)
    · exact absurd hs' (hnone s)
  · obtain ⟨s', hsess, hactive, hmgr⟩ := handleStartCapture_parts hs types
    rw [sameCapture_iff hs hsess, hactive, hmgr, rel_map_iff, mem_addTypes]
    unfold StartInert StartSpares
    simp only [SDKSlotManager.sameCapture_startCapture_iff, hs, Option.some_inj,
      forall_eq']
    by_cases ht : t ∈ captureTypes types
    · simp [ht, Option.eq_none_iff_forall_ne_some]
    · simp [ht]

theorem sameCapture_handleStopCapture_iff :
    SameCapture t h (h.handleStopCapture c types).1 ↔
      (t ∈ captureTypes types → StopInert t h c) ∧
        (t ∉ captureTypes types → StopSpares t h c) := by
  rcases hs : h.connectedSession c with _ | s
  · have hnone : ∀ s, h.connectedSession c ≠ some s := by
      intro s hs'
      cases hs.symm.trans hs'
    rw [handleStopCapture_of_not_connected hs]
    refine iff_of_true (.refl t h) ⟨fun _ s hs' => ?_, fun _ s hs' => ?_⟩
    · exact absurd hs' (hnone s)
    · exact absurd hs' (hnone s)
  · obtain ⟨s', hsess, hactive, hmgr⟩ := handleStopCapture_parts hs types
    rw [sameCapture_iff hs hsess, hactive, hmgr, rel_map_iff, mem_eraseAll]
    unfold StopInert StopSpares
    simp only [SDKSlotManager.sameCapture_stopCapture_iff, hs, Option.some_inj,
      forall_eq']
    by_cases ht : t ∈ captureTypes types
    · simp [ht]
    · simp [ht]

end

end ClientHandler

namespace AdminServer
open ClientHandler

def requestEntries (j : Json) : List Json :=
  if j.contains "data_types" then (j.item "data_types").elements else []

def Names (j : Json) (t : DataType) : Prop :=
  .string (bytes (dataTypeToChannel t)) ∈ requestEntries j

def HasUnknown (j : Json) : Prop := ∃ entry ∈ requestEntries j, ¬entry.IsTypeName

/-- A request with an unknown entry changes nothing in what is captured of the types that it
does not name. -/
def KeepsUnnamed (lib : Libraries) (att : Attached) (h : ClientHandler) (cmd : Bytes) (j : Json)
    (clientId : String) : Prop :=
  HasUnknown j → ∀ t, ¬Names j t → ∀ h' resp, dispatch lib att h cmd j clientId = .ok (h', resp) →
    SameCapture t h h'

section
variable {j : Json} {t : DataType}

theorem dataTypes_eq (j : Json) : dataTypes j = (requestEntries j).map Json.getDataType := by
  unfold dataTypes requestEntries
  split_ifs <;> rfl

theorem mem_dataTypes_iff : t ∈ dataTypes j ↔ Names j t ∨ t = .stereoImage ∧ HasUnknown j := by
  rw [dataTypes_eq, List.mem_map]
  constructor
  · rintro ⟨entry, hentry, rfl⟩
    by_cases hname : entry.IsTypeName
    · obtain ⟨t, rfl⟩ := hname
      rw [Json.getDataType_channel]
      exact .inl hentry
    · exact .inr ⟨Json.getDataType_of_not_typeName hname, entry, hentry, hname⟩
  · rintro (hnamed | ⟨rfl, entry, hentry, hname⟩)
    · exact ⟨_, hnamed, Json.getDataType_channel t⟩
    · exact ⟨entry, hentry, Json.getDataType_of_not_typeName hname⟩

theorem captureTypes_dataTypes (h : HasUnknown j) : captureTypes (dataTypes j) = dataTypes j := by
  obtain ⟨entry, hentry, -⟩ := h
  have hne : (dataTypes j).isEmpty = false := by
    rw [dataTypes_eq, List.isEmpty_eq_false_iff]
    exact List.ne_nil_of_mem (List.mem_map_of_mem hentry)
  rw [captureTypes, hne]
  rfl

/-- An unknown entry acts on the first type as a name would, and on the others as any request
does. -/
theorem keepsUnnamed_iff {lib : Libraries} {att : Attached} {h h' : ClientHandler} {cmd : Bytes}
    {clientId : String} {resp : Response} {Inert Spared : DataType → Prop}
    (hdispatch : dispatch lib att h cmd j clientId = .ok (h', resp))
    (hsame : ∀ t, SameCapture t h h' ↔ (t ∈ captureTypes (dataTypes j) → Inert t) ∧
      (t ∉ captureTypes (dataTypes j) → Spared t)) :
    KeepsUnnamed lib att h cmd j clientId ↔
      (HasUnknown j → (¬Names j .stereoImage → Inert .stereoImage) ∧
        ∀ t, t ≠ .stereoImage → ¬Names j t → Spared t) := by
  have hstarted : HasUnknown j → ∀ t, ¬Names j t →
      (t ∈ captureTypes (dataTypes j) ↔ t = .stereoImage) := by
    intro hunknown t hnamed
    rw [captureTypes_dataTypes hunknown, mem_dataTypes_iff, or_iff_right hnamed,
      and_iff_left hunknown]
  constructor
  · intro hkeeps hunknown
    constructor
    · intro hnamed
      have hcap := (hsame _).mp (hkeeps hunknown _ hnamed h' resp hdispatch)
      exact hcap.1 ((hstarted hunknown _ hnamed).mpr rfl)
    · intro t ht hnamed
      have hcap := (hsame t).mp (hkeeps hunknown t hnamed h' resp hdispatch)
      exact hcap.2 (mt (hstarted hunknown t hnamed).mp ht)
  · intro hspared hunknown t hnamed h'' resp' hdispatch'
    cases hdispatch.symm.trans hdispatch'
    obtain ⟨hinert, hothers⟩ := hspared hunknown
    rw [hsame, hstarted hunknown t hnamed]
    constructor
    · rintro rfl
      exact hinert hnamed
    · intro ht
      exact hothers t ht hnamed

theorem dispatch_startCapture (lib : Libraries) (att : Attached) (h : ClientHandler) (j : Json)
    (clientId : String) : dispatch lib att h (bytes "start_capture") j clientId =
      .ok (h.handleStartCapture clientId (dataTypes j)) := by
  unfold dispatch
  rw [if_neg (by decide), if_neg (by decide), if_neg (by decide), if_neg (by decide),
    if_neg (by decide), if_pos rfl]
  rfl

theorem dispatch_stopCapture (lib : Libraries) (att : Attached) (h : ClientHandler) (j : Json)
    (clientId : String) : dispatch lib att h (bytes "stop_capture") j clientId =
      .ok (h.handleStopCapture clientId (dataTypes j)) := by
  unfold dispatch
  rw [if_neg (by decide), if_neg (by decide), if_neg (by decide), if_neg (by decide),
    if_neg (by decide), if_neg (by decide), if_pos rfl]
  rfl

end

/-- An unknown name is taken for the first type, so it is harmless only where that type is
named as well or has nothing to lose or gain. The count of subscribers, the flag and the dealer
of a slot are shared, so that no other active type may go unnamed either. -/
theorem unknown_names_iff (parse : Bytes → Except JsonException Json) (cameraId grp : String)
    (zparts : List Bytes) (s : DealerSide) (lib : Libraries) (att : Attached) (h : ClientHandler)
    (j : Json) (clientId : String) :
    (((DealerSide.handleMessage parse cameraId grp zparts).run.run s).2 =
          DealerSide.handleKnown parse cameraId grp s zparts ↔
        DealerSide.PartsKnown parse grp zparts) ∧
      (KeepsUnnamed lib att h (bytes "start_capture") j clientId ↔
        (HasUnknown j → (¬Names j .stereoImage → StartInert .stereoImage h clientId) ∧
          ∀ t, t ≠ .stereoImage → ¬Names j t → StartSpares t h clientId)) ∧
      (KeepsUnnamed lib att h (bytes "stop_capture") j clientId ↔
        (HasUnknown j → (¬Names j .stereoImage → StopInert .stereoImage h clientId) ∧
          ∀ t, t ≠ .stereoImage → ¬Names j t → StopSpares t h clientId)) := by
  refine ⟨?_, ?_, ?_⟩
  · exact DealerSide.handleMessage_eq_handleKnown_iff parse cameraId grp zparts s
  · exact keepsUnnamed_iff (dispatch_startCapture lib att h j clientId) fun _ =>
      sameCapture_handleStartCapture_iff
  · exact keepsUnnamed_iff (dispatch_stopCapture lib att h j clientId) fun _ =>
      sameCapture_handleStopCapture_iff

def misspeltRequest : Json :=
  .object [("data_types", .array [.string (bytes "imu"), .string (bytes "deptmap")])]

def misspeltHeader : Json :=
  .object [("parts", .array [.object [("id", .string (bytes "deptmap"))]])]

theorem misspelt_taken_for_stereo_image :
    ((DealerSide.handleMessage (fun _ => .ok misspeltHeader) "cam1" "visual_2d"
        [[], [1]]).run.run DealerSide.freshDealer).2 ≠
      DealerSide.handleKnown (fun _ => .ok misspeltHeader) "cam1" "visual_2d"
        DealerSide.freshDealer [[], [1]] ∧
    ∀ lib att, ¬KeepsUnnamed lib att (mk'.handle (.connect "a")).1 (bytes "start_capture")
      misspeltRequest "a" := by
  constructor
  · intro hsame
    have hpushed := congrArg DealerSide.pushed hsame
    exact absurd hpushed (List.cons_ne_nil _ _)
  · intro lib att hkeeps
    have hunknown : HasUnknown misspeltRequest := by
      refine ⟨_, List.mem_cons_of_mem _ List.mem_cons_self, ?_⟩
      rw [Json.isTypeName_string_iff]
      decide
    have hnamed : ¬Names misspeltRequest .stereoImage := by
      rintro (_ | ⟨_, _ | ⟨_, hnil⟩⟩)
      exact List.not_mem_nil hnil
    have hactive := (hkeeps hunknown .stereoImage hnamed _ _
      (dispatch_startCapture lib att _ _ _)).sessions "a"
    exact absurd hactive (by decide)

end AdminServer

end StereoCamera
