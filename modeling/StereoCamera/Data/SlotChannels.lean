import Mathlib.Data.Finset.Image
import Mathlib.Data.Finset.SDiff
import StereoCamera.Data.SDKSlotManager

/-! The types and the channels of a slot as sets, and what `start_capture` and `stop_capture`
do to them. -/

namespace StereoCamera

def zmqChannel : DataGroup → String
  | .visualGeometric2D => "visual_2d"
  | .visualGeometric3D => "visual_3d"
  | .sensorTracking => "sensor_data"

def channelsOf (types : Finset DataType) : Finset String :=
  types.image fun t => zmqChannel (dataTypeToGroup t)

theorem channelsOf_mono {s t : Finset DataType} (h : s ⊆ t) : channelsOf s ⊆ channelsOf t :=
  Finset.image_subset_image h

theorem mem_typesToChannels {types : List DataType} {ch : String} :
    ch ∈ typesToChannels types ↔ ∃ t ∈ types, zmqChannel (dataTypeToGroup t) = ch := by
  unfold typesToChannels
  simp only [List.mem_append, or_assoc]
  constructor
  · rintro (h | h | h) <;> split_ifs at h with hg
    all_goals first
      | exact absurd h List.not_mem_nil
      | (obtain ⟨t, ht, hgroup⟩ := List.mem_map.mp hg
         exact ⟨t, ht, by rw [hgroup, List.mem_singleton.mp h]; rfl⟩)
  · rintro ⟨t, ht, rfl⟩
    have hg : dataTypeToGroup t ∈ types.map dataTypeToGroup := List.mem_map_of_mem ht
    cases hgroup : dataTypeToGroup t with
    | visualGeometric2D =>
      rw [hgroup] at hg
      exact .inl (by rw [if_pos hg]; exact List.mem_singleton.mpr rfl)
    | visualGeometric3D =>
      rw [hgroup] at hg
      exact .inr (.inl (by rw [if_pos hg]; exact List.mem_singleton.mpr rfl))
    | sensorTracking =>
      rw [hgroup] at hg
      exact .inr (.inr (by rw [if_pos hg]; exact List.mem_singleton.mpr rfl))

theorem toFinset_typesToChannels (types : List DataType) :
    (typesToChannels types).toFinset = channelsOf types.toFinset := by
  ext ch
  rw [List.mem_toFinset, mem_typesToChannels, channelsOf, Finset.mem_image]
  simp only [List.mem_toFinset]

theorem nodup_typesToChannels (types : List DataType) : (typesToChannels types).Nodup := by
  unfold typesToChannels
  dsimp only
  split_ifs <;> decide

theorem toFinset_addTypes (active types : List DataType) :
    (addTypes active types).toFinset = active.toFinset ∪ types.toFinset := by
  ext t
  rw [List.mem_toFinset, mem_addTypes, Finset.mem_union, List.mem_toFinset, List.mem_toFinset]

theorem toFinset_eraseAll {α : Type} [DecidableEq α] (xs gone : List α) :
    (eraseAll xs gone).toFinset = xs.toFinset \ gone.toFinset := by
  ext x
  rw [List.mem_toFinset, mem_eraseAll, Finset.mem_sdiff, List.mem_toFinset, List.mem_toFinset]

theorem toFinset_filter_notMem {α : Type} [DecidableEq α] (xs ys : List α) :
    (xs.filter (· ∉ ys)).toFinset = xs.toFinset \ ys.toFinset := by
  ext x
  rw [List.mem_toFinset, List.mem_filter, Finset.mem_sdiff, List.mem_toFinset, List.mem_toFinset,
    decide_eq_true_eq]

namespace SDKSlot

section
variable (slot : SDKSlot) (types : List DataType) (thread : ℕ)

theorem startCapture_activeChannels :
    (slot.startCapture types thread).activeChannels = slot.activeChannels ++
      (typesToChannels types).filter (· ∉ slot.activeChannels) := by
  obtain ⟨client, h⟩ := slot.startCapture_eq types thread
  rw [h]

theorem stopCapture_activeChannels :
    (slot.stopCapture types).1.activeChannels =
      if slot.capturing then
        eraseAll slot.activeChannels ((typesToChannels types).filter
          (· ∉ typesToChannels (eraseAll slot.activeTypes types)))
      else slot.activeChannels := by
  have hsource : (slot.stopCapture types).1.activeChannels =
      if !((typesToChannels types).filter
          (· ∉ typesToChannels (eraseAll slot.activeTypes types))).isEmpty && slot.capturing then
        eraseAll slot.activeChannels ((typesToChannels types).filter
          (· ∉ typesToChannels (eraseAll slot.activeTypes types)))
      else slot.activeChannels := by
    unfold stopCapture
    dsimp only
    split_ifs <;> rfl
  rw [hsource]
  rcases hgone : (typesToChannels types).filter
    (· ∉ typesToChannels (eraseAll slot.activeTypes types)) with _ | ⟨ch, gone⟩
  · -- Erasing nothing changes nothing.
    split_ifs <;> rfl
  · rfl

theorem toFinset_startCapture_activeChannels :
    (slot.startCapture types thread).activeChannels.toFinset =
      slot.activeChannels.toFinset ∪ channelsOf types.toFinset := by
  rw [startCapture_activeChannels, List.toFinset_append, toFinset_filter_notMem,
    toFinset_typesToChannels, Finset.union_sdiff_self_eq_union]

theorem toFinset_stopCapture_channels :
    (slot.stopCapture types).1.activeChannels.toFinset =
      if slot.capturing then
        slot.activeChannels.toFinset \
          (channelsOf types.toFinset \ channelsOf (slot.activeTypes.toFinset \ types.toFinset))
      else slot.activeChannels.toFinset := by
  rw [stopCapture_activeChannels]
  split_ifs
  · rw [toFinset_eraseAll, toFinset_filter_notMem, toFinset_typesToChannels,
      toFinset_typesToChannels, toFinset_eraseAll]
  · rfl

variable {slot}

theorem nodup_startCapture_types (h : slot.activeTypes.Nodup) :
    (slot.startCapture types thread).activeTypes.Nodup := by
  rw [startCapture_activeTypes]
  exact nodup_addTypes h

theorem nodup_startCapture_channels (h : slot.activeChannels.Nodup) :
    (slot.startCapture types thread).activeChannels.Nodup := by
  rw [startCapture_activeChannels]
  refine h.append ((nodup_typesToChannels types).filter _) ?_
  intro ch hch hnew
  exact of_decide_eq_true (List.mem_filter.mp hnew).2 hch

theorem nodup_stopCapture_types (h : slot.activeTypes.Nodup) :
    (slot.stopCapture types).1.activeTypes.Nodup := by
  rw [stopCapture_activeTypes]
  exact nodup_eraseAll h types

theorem nodup_stopCapture_channels (h : slot.activeChannels.Nodup) :
    (slot.stopCapture types).1.activeChannels.Nodup := by
  rw [stopCapture_activeChannels]
  split_ifs
  · exact nodup_eraseAll h _
  · exact h

end

end SDKSlot

end StereoCamera
