import StereoCamera.Data.CaptureSections
import StereoCamera.Lib.Transition

/-! When the active channels of a slot are those of its active types. A `stop_capture` that ends
a capture leaves the types of the other subscribers behind, and one that comes later takes
types away without their channels. -/

namespace StereoCamera

namespace SDKSlot

/-- The channels are those of the types, and a slot that is idle has none of either. -/
structure Matched (slot : SDKSlot) : Prop where
  channels : ∀ ch, ch ∈ slot.activeChannels ↔ ch ∈ typesToChannels slot.activeTypes
  idle : slot.capturing = false → slot.activeTypes = [] ∧ slot.activeChannels = []

def EndsWith (slot : SDKSlot) (types : List DataType) : Prop :=
  slot.subscriberCount = 1 → slot.activeTypes ⊆ types

variable {slot : SDKSlot} {types : List DataType}

theorem channels_iff_toFinset :
    (∀ ch, ch ∈ slot.activeChannels ↔ ch ∈ typesToChannels slot.activeTypes) ↔
      slot.activeChannels.toFinset = channelsOf slot.activeTypes.toFinset := by
  rw [← toFinset_typesToChannels, Finset.ext_iff]
  simp only [List.mem_toFinset]

theorem matched_configured (cfg : CameraSDKConfig) : (configured cfg).Matched where
  channels := by
    intro ch
    rfl
  idle := fun _ => ⟨rfl, rfl⟩

theorem Matched.startCapture (h : slot.Matched) (types : List DataType) (thread : ℕ) :
    (slot.startCapture types thread).Matched where
  channels := by
    have hold := channels_iff_toFinset.mp h.channels
    rw [channels_iff_toFinset, toFinset_startCapture_activeChannels, startCapture_activeTypes,
      toFinset_addTypes, hold, channelsOf, channelsOf, channelsOf, Finset.image_union]
  idle := by
    rw [startCapture_capturing]
    exact fun hc => absurd hc Bool.noConfusion

theorem channelsOf_sdiff (active gone : Finset DataType) :
    channelsOf active \ (channelsOf gone \ channelsOf (active \ gone)) =
      channelsOf (active \ gone) := by
  have hunion : channelsOf active ⊆ channelsOf gone ∪ channelsOf (active \ gone) := by
    unfold channelsOf
    rw [← Finset.image_union]
    apply Finset.image_subset_image
    rw [Finset.union_sdiff_self_eq_union]
    exact Finset.subset_union_right
  have hsub : channelsOf (active \ gone) ⊆ channelsOf active := channelsOf_mono Finset.sdiff_subset
  ext ch
  simp only [Finset.mem_sdiff, not_and_not_right]
  constructor
  · rintro ⟨hch, hkept⟩
    rcases Finset.mem_union.mp (hunion hch) with hgone | hrest
    · exact hkept hgone
    · exact hrest
  · intro hch
    exact ⟨hsub hch, fun _ => hch⟩

theorem Matched.stopCapture_channels (h : slot.Matched) (types : List DataType) :
    ∀ ch, ch ∈ (slot.stopCapture types).1.activeChannels ↔
      ch ∈ typesToChannels (slot.stopCapture types).1.activeTypes := by
  have hold := channels_iff_toFinset.mp h.channels
  rw [channels_iff_toFinset, toFinset_stopCapture_channels, stopCapture_activeTypes,
    toFinset_eraseAll, hold]
  by_cases hc : slot.capturing = true
  · rw [if_pos hc, channelsOf_sdiff]
  · obtain ⟨htypes, -⟩ := h.idle (Bool.not_eq_true _ ▸ hc)
    rw [if_neg hc, htypes, List.toFinset_nil, Finset.empty_sdiff]

theorem Matched.stopCapture_iff (hslot : slot.Coherent) (h : slot.Matched)
    (types : List DataType) :
    (slot.stopCapture types).1.Matched ↔ slot.EndsWith types := by
  obtain ⟨-, hcapturing, -⟩ := hslot.stopCapture_eq types
  have hchannels := h.stopCapture_channels types
  have hnil : (slot.stopCapture types).1.activeTypes = [] ↔ slot.activeTypes ⊆ types := by
    rw [stopCapture_activeTypes, List.eq_nil_iff_forall_not_mem]
    simp only [mem_eraseAll, not_and_not_right]
    rfl
  have hempty : (slot.stopCapture types).1.activeTypes = [] →
      (slot.stopCapture types).1.activeChannels = [] := by
    intro htypes
    rw [List.eq_nil_iff_forall_not_mem]
    intro ch hch
    have hmem := (hchannels ch).mp hch
    rw [htypes] at hmem
    exact absurd hmem List.not_mem_nil
  constructor
  · intro hafter hlast
    apply hnil.mp
    refine (hafter.idle ?_).1
    rw [← Bool.not_eq_true, hcapturing]
    omega
  · intro hends
    refine ⟨hchannels, fun hidle => ?_⟩
    rw [← Bool.not_eq_true, hcapturing] at hidle
    have htypes : (slot.stopCapture types).1.activeTypes = [] := by
      apply hnil.mpr
      rcases (Int.lt_or_eq_of_le (not_lt.mp hidle)) with hlt | hone
      · -- Nobody was subscribed, so nothing was active.
        have hoff : slot.capturing = false := by
          rw [← Bool.not_eq_true, hslot.capturing_iff]
          omega
        rw [(h.idle hoff).1]
        exact List.nil_subset _
      · exact hends hone
    exact ⟨htypes, hempty htypes⟩

end SDKSlot

namespace SDKSlotManager
open Transition

def Matched (m : SDKSlotManager) : Prop :=
  ∀ id slot, m.slots.lookup id = some slot → slot.Matched

def step (m : SDKSlotManager) (c : CaptureCall) : Option SDKSlotManager := some (m.call c)

def EndsCaptures (m : SDKSlotManager) : CaptureCall → Prop
  | .start _ _ => True
  | .stop cameraId types => ∀ slot, m.slots.lookup cameraId = some slot → slot.EndsWith types

theorem Configured.matched {m : SDKSlotManager} (hm : m.Configured) : m.Matched := by
  intro id slot h
  obtain ⟨cfg, rfl⟩ := hm.slots id slot h
  exact SDKSlot.matched_configured cfg

theorem coherent_step (m : SDKSlotManager) (c : CaptureCall) (t : SDKSlotManager)
    (hm : m.Coherent) (hstep : step m c = some t) : t.Coherent := by
  cases hstep
  cases c with
  | start cameraId types => exact hm.startCapture cameraId types
  | stop cameraId types => exact hm.stopCapture cameraId types

theorem matched_step_iff (m : SDKSlotManager) (c : CaptureCall) (t : SDKSlotManager)
    (hm : m.Coherent) (hmatched : m.Matched) (hstep : step m c = some t) :
    t.Matched ↔ m.EndsCaptures c := by
  cases hstep
  constructor
  · intro ht
    cases c with
    | start cameraId types => trivial
    | stop cameraId types =>
      intro slot hslot
      have hafter := ht cameraId _ (lookup_stopCapture_self hslot)
      exact ((hmatched cameraId slot hslot).stopCapture_iff (hm cameraId slot hslot) types).mp
        hafter
  · intro hends id slot hslot
    obtain ⟨old, hold, rfl | ⟨types, thread, -, rfl⟩ | ⟨types, rfl, rfl⟩⟩ := lookup_call c hslot
    · exact hmatched id slot hold
    · exact (hmatched id old hold).startCapture types thread
    · exact ((hmatched id old hold).stopCapture_iff (hm id old hold) types).mpr (hends old hold)

/-- The channels match the types in all states of a run exactly if each stop of it that ends a
capture names every type that is still active. -/
theorem matched_iff_endsCaptures (buffer : DataBuffer DataBundle) (configs : List CameraSDKConfig)
    (cs : List CaptureCall) :
    (∀ pre m, pre <+: cs → run step ((mk' buffer).configure configs) pre = some m → m.Matched) ↔
      Guarded step EndsCaptures ((mk' buffer).configure configs) cs := by
  have hinit := configured_configure buffer configs
  exact guarded_iff_forall_prefix coherent_step
    (fun m c hnone => absurd hnone (Option.some_ne_none (m.call c)))
    matched_step_iff hinit.coherent hinit.matched cs

/-- Two subscribers start, and both stop what the first of them started. -/
def stopsOneType : List CaptureCall :=
  [.start "cam1" [.imu], .start "cam1" [.depthMap], .stop "cam1" [.imu], .stop "cam1" [.imu]]

theorem idle_slot_keeps_types :
    ∃ m, run step oneCamera stopsOneType = some m ∧ ¬m.Matched := by
  have hslot : ((run step oneCamera stopsOneType).bind fun m => m.slots.lookup "cam1").map
      (fun slot => (slot.capturing, slot.activeTypes)) = some (false, [.depthMap]) := by
    rfl
  obtain ⟨slot, hlookup, hfields⟩ := Option.map_eq_some_iff.mp hslot
  obtain ⟨m, hrun, hm⟩ := Option.bind_eq_some_iff.mp hlookup
  obtain ⟨hidle, htypes⟩ := Prod.mk.inj hfields
  refine ⟨m, hrun, fun hmatched => ?_⟩
  have hnil := ((hmatched "cam1" slot hm).idle hidle).1
  rw [htypes] at hnil
  cases hnil

end SDKSlotManager

end StereoCamera
