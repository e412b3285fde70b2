import StereoCamera.Api.Subscriptions
import StereoCamera.Api.Workers
import StereoCamera.Data.SlotChannels

/-! Sessions and slots without the order of the elements of their lists, and what the sections
of a command do to them. -/

namespace StereoCamera

structure SlotView where
  config : String × String × List (String × String) × String
  count : ℤ
  types : Finset DataType
  channels : Finset String

namespace SlotView

def start (v : SlotView) (types : Finset DataType) : SlotView :=
  { v with
    count := v.count + 1
    types := v.types ∪ types
    channels := v.channels ∪ channelsOf types }

def leftover (v : SlotView) (types : Finset DataType) : Finset String :=
  v.channels \ (channelsOf types \ channelsOf (v.types \ types))

def stop (v : SlotView) (types : Finset DataType) : SlotView :=
  { v with
    count := max (v.count - 1) 0
    types := v.types \ types
    channels := if 0 < v.count then v.leftover types else v.channels }

end SlotView

structure SessionView where
  id : String := ""
  connected : Bool := false
  types : Finset DataType := ∅
  camera : String := ""

def ClientSession.view (s : ClientSession) : SessionView :=
  ⟨s.id, s.connected, s.activeTypes.toFinset, s.cameraId⟩

def SDKSlot.view (slot : SDKSlot) : SlotView :=
  ⟨(slot.cameraId, slot.zmqEndpoint, slot.channels, slot.client.baseUrl), slot.subscriberCount,
    slot.activeTypes.toFinset, slot.activeChannels.toFinset⟩

namespace SDKSlot

section
variable (slot : SDKSlot) (types : List DataType) (thread : ℕ)

theorem startCapture_config :
    (slot.startCapture types thread).cameraId = slot.cameraId ∧
      (slot.startCapture types thread).zmqEndpoint = slot.zmqEndpoint ∧
      (slot.startCapture types thread).client.baseUrl = slot.client.baseUrl := by
  unfold startCapture
  dsimp only
  split_ifs <;> exact ⟨rfl, rfl, rfl⟩

theorem stopCapture_config :
    (slot.stopCapture types).1.cameraId = slot.cameraId ∧
      (slot.stopCapture types).1.zmqEndpoint = slot.zmqEndpoint ∧
      (slot.stopCapture types).1.client.baseUrl = slot.client.baseUrl := by
  refine ⟨?_, ?_, ?_⟩
  · unfold stopCapture
    dsimp only
    split_ifs <;> rfl
  · unfold stopCapture
    dsimp only
    split_ifs <;> rfl
  · rw [stopCapture_client]
    split_ifs
    · rw [CameraSDKClient.foldl_deactivate]
      rfl
    · rfl

theorem toFinset_stopCapture_activeChannels (hslot : slot.Coherent) :
    (slot.stopCapture types).1.activeChannels.toFinset =
      if 0 < slot.subscriberCount then slot.view.leftover types.toFinset
      else slot.activeChannels.toFinset := by
  rw [toFinset_stopCapture_channels]
  by_cases hcap : slot.capturing = true
  · rw [if_pos hcap, if_pos (hslot.capturing_iff.mp hcap)]
    rfl
  · rw [if_neg hcap, if_neg fun h => hcap (hslot.capturing_iff.mpr h)]

theorem view_startCapture :
    (slot.startCapture types thread).view = slot.view.start types.toFinset := by
  obtain ⟨hid, hep, hurl⟩ := slot.startCapture_config types thread
  unfold view SlotView.start
  rw [hid, hep, hurl, startCapture_channels, startCapture_subscriberCount,
    startCapture_activeTypes, toFinset_startCapture_activeChannels, toFinset_addTypes]

theorem view_stopCapture (hslot : slot.Coherent) :
    (slot.stopCapture types).1.view = slot.view.stop types.toFinset := by
  obtain ⟨hid, hep, hurl⟩ := slot.stopCapture_config types
  unfold view SlotView.stop
  rw [hid, hep, hurl, stopCapture_channels, (hslot.stopCapture_eq types).1,
    stopCapture_activeTypes, toFinset_eraseAll,
    slot.toFinset_stopCapture_activeChannels types hslot]
  rfl

end

structure Tidy (slot : SDKSlot) : Prop where
  types : slot.activeTypes.Nodup
  channels : slot.activeChannels.Nodup
  covered : channelsOf slot.activeTypes.toFinset ⊆ slot.activeChannels.toFinset

theorem tidy_configured (cfg : CameraSDKConfig) : (configured cfg).Tidy where
  types := List.nodup_nil
  channels := List.nodup_nil
  covered := Finset.empty_subset _

variable {slot : SDKSlot}

theorem Tidy.startCapture (h : slot.Tidy) (types : List DataType) (thread : ℕ) :
    (slot.startCapture types thread).Tidy where
  types := nodup_startCapture_types types thread h.types
  channels := nodup_startCapture_channels types thread h.channels
  covered := by
    rw [toFinset_startCapture_activeChannels, startCapture_activeTypes, toFinset_addTypes,
      channelsOf, Finset.image_union]
    exact Finset.union_subset_union_left h.covered

theorem Tidy.stopCapture (hslot : slot.Coherent) (h : slot.Tidy) (types : List DataType) :
    (slot.stopCapture types).1.Tidy where
  types := nodup_stopCapture_types types h.types
  channels := nodup_stopCapture_channels types h.channels
  covered := by
    rw [toFinset_stopCapture_activeChannels _ _ hslot, stopCapture_activeTypes, toFinset_eraseAll]
    have hcovered : channelsOf (slot.activeTypes.toFinset \ types.toFinset) ⊆
        slot.activeChannels.toFinset :=
      (channelsOf_mono Finset.sdiff_subset).trans h.covered
    split_ifs
    · intro ch hch
      show ch ∈ slot.activeChannels.toFinset \ _
      rw [Finset.mem_sdiff, Finset.mem_sdiff, not_and_not_right]
      exact ⟨hcovered hch, fun _ => hch⟩
    · exact hcovered

end SDKSlot

namespace ClientHandler
open Transition

def sessionView (h : ClientHandler) (c : String) : Option SessionView :=
  (h.sessions.lookup c).map ClientSession.view

def slotView (h : ClientHandler) (id : String) : Option SlotView :=
  (h.slotAt id).map SDKSlot.view

def Command.client : Command → String
  | .connect c => c
  | .disconnect c => c
  | .startCapture c _ => c
  | .stopCapture c _ => c

inductive ViewCall
  | nothing
  | start (types : Finset DataType)
  | stop (types : Finset DataType)

def ViewCall.apply : ViewCall → SlotView → SlotView
  | .nothing, v => v
  | .start types, v => v.start types
  | .stop types, v => v.stop types

/-- What a command still has to do after its first section: to record the camera in the
session of a client, and to call the slot manager. -/
structure Plan where
  records : Option String
  call : ViewCall

def act (s : SessionView) : Command → SessionView
  | .connect c => if s.connected then s else { s with id := c, connected := true }
  | .disconnect _ => if s.connected then { s with connected := false, types := ∅ } else s
  | .startCapture _ types =>
    if s.connected then { s with types := s.types ∪ (captureTypes types).toFinset } else s
  | .stopCapture _ types =>
    if s.connected then { s with types := s.types \ (captureTypes types).toFinset } else s

def actAt : Option SessionView → Command → Option SessionView
  | some s, cmd => some (act s cmd)
  | none, .connect c => some (act {} (.connect c))
  | none, _ => none

def plan (s : SessionView) : Command → Plan
  | .connect _ => ⟨none, .nothing⟩
  | .disconnect _ =>
    ⟨none, if s.connected ∧ s.types ≠ ∅ ∧ s.camera ≠ "" then .stop s.types else .nothing⟩
  | .startCapture c types =>
    if s.connected then ⟨some c, .start (captureTypes types).toFinset⟩ else ⟨none, .nothing⟩
  | .stopCapture _ types =>
    ⟨none, if s.connected then .stop (captureTypes types).toFinset else .nothing⟩

structure Views where
  sessions : String → Option SessionView
  slots : String → Option SlotView

def views (h : ClientHandler) : Views := ⟨h.sessionView, h.slotView⟩

namespace Views

def first (v : Views) (cmd : Command) : Views :=
  { v with
    sessions := Function.update v.sessions cmd.client (actAt (v.sessions cmd.client) cmd) }

def plan (v : Views) (cmd : Command) : Plan :=
  ClientHandler.plan ((v.sessions cmd.client).getD {}) cmd

def setCamera (v : Views) (c camera : String) : Views :=
  { v with
    sessions := Function.update v.sessions c
      (some { (v.sessions c).getD {} with camera := camera }) }

def record (v : Views) (camera : String) (p : Plan) : Views :=
  match p.records with
  | none => v
  | some c => v.setCamera c camera

def perform (v : Views) (camera : String) (p : Plan) : Views :=
  { v with slots := Function.update v.slots camera ((v.slots camera).map p.call.apply) }

end Views

def Task.rest : Task → Plan
  | .command _ => ⟨none, .nothing⟩
  | .startIds c types => ⟨some c, .start types.toFinset⟩
  | .startCamera c _ types => ⟨some c, .start types.toFinset⟩
  | .startSlot _ types => ⟨none, .start types.toFinset⟩
  | .stopIds types => ⟨none, .stop types.toFinset⟩
  | .stopSlot _ types => ⟨none, .stop types.toFinset⟩
  | .done => ⟨none, .nothing⟩

def Task.Underway (camera : String) : Task → Prop
  | .command _ => False
  | .startCamera _ id _ => id = camera
  | .startSlot id _ => id = camera
  | .stopSlot id _ => id = camera
  | _ => True

structure Consistent (h : ClientHandler) : Prop where
  initialized : h.moduleInitialized = true
  manager : ∃ m, h.sdkManager = some m ∧ m.Coherent
  camera : ∀ c s, h.sessions.lookup c = some s → s.cameraId = "" ∨ s.cameraId = h.captureCamera
  idle : ∀ c s, h.sessions.lookup c = some s → s.connected = false → s.activeTypes = []
  types : ∀ c s, h.sessions.lookup c = some s → s.activeTypes.Nodup
  slots : ∀ id slot, h.slotAt id = some slot → slot.Tidy

section
variable {h h' : ClientHandler} {c : String} {s : ClientSession} {types : List DataType}

theorem sessionView_setSession :
    (h.setSession c s).sessionView = Function.update h.sessionView c (some s.view) := by
  funext c'
  unfold sessionView setSession
  by_cases hc : c' = c
  · subst hc
    rw [Function.update_self, AList.lookup_insert, Option.map_some]
  · rw [Function.update_of_ne hc, AList.lookup_insert_ne hc]

theorem slotView_setSession : (h.setSession c s).slotView = h.slotView := rfl

theorem Consistent.setSession (hh : Consistent h)
    (hcam : s.cameraId = "" ∨ s.cameraId = h.captureCamera)
    (hidle : s.connected = false → s.activeTypes = []) (htypes : s.activeTypes.Nodup) :
    Consistent (h.setSession c s) := by
  have hlook : ∀ c' s', (h.setSession c s).sessions.lookup c' = some s' →
      s' = s ∨ h.sessions.lookup c' = some s' := by
    intro c' s' hs'
    unfold ClientHandler.setSession at hs'
    by_cases hc : c' = c
    · rw [hc, AList.lookup_insert] at hs'
      exact .inl (Option.some.inj hs').symm
    · rw [AList.lookup_insert_ne hc] at hs'
      exact .inr hs'
  refine ⟨hh.initialized, hh.manager, ?_, ?_, ?_, hh.slots⟩
  · intro c' s' hs'
    rcases hlook c' s' hs' with rfl | hs
    · exact hcam
    · exact hh.camera c' s' hs
  · intro c' s' hs'
    rcases hlook c' s' hs' with rfl | hs
    · exact hidle
    · exact hh.idle c' s' hs
  · intro c' s' hs'
    rcases hlook c' s' hs' with rfl | hs
    · exact htypes
    · exact hh.types c' s' hs

theorem connectedSession_eq_none_iff :
    h.connectedSession c = none ↔ ((h.sessionView c).getD {}).connected = false := by
  unfold connectedSession sessionView
  cases hs : h.sessions.lookup c with
  | none => exact iff_of_true rfl rfl
  | some s =>
    rw [Option.map_some, Option.getD_some, Option.filter_eq_none_iff]
    constructor
    · intro hn
      exact Bool.eq_false_iff.mpr (hn s rfl)
    · rintro hf s' ⟨⟩
      exact Bool.eq_false_iff.mp hf

theorem sessionView_of_connectedSession (hs : h.connectedSession c = some s) :
    h.sessionView c = some s.view ∧ s.connected = true := by
  obtain ⟨hlook, hconn⟩ := connectedSession_eq_some.mp hs
  refine ⟨?_, hconn⟩
  unfold sessionView
  rw [hlook, Option.map_some]

end

end ClientHandler

end StereoCamera
