import StereoCamera.Lib.Transition
import StereoCamera.Api.ClientHandler

/-! What the session table asks of the camera, and what the camera's slot gives. Every
command is summed up by the types it leaves active and the call it makes on the slot; the
run theorem says when the slot serves all live subscriptions. -/

namespace StereoCamera
open Transition

namespace ClientHandler

inductive SlotCall
  | nothing
  | start (types : List DataType)
  | stop (types : List DataType)

end ClientHandler

def SDKSlot.call (slot : SDKSlot) (thread : ℕ) : ClientHandler.SlotCall → SDKSlot
  | .nothing => slot
  | .start types => slot.startCapture types thread
  | .stop types => (slot.stopCapture types).1

namespace ClientHandler

def Connected (h : ClientHandler) (clientId : String) : Prop :=
  (h.connectedSession clientId).isSome = true

instance (h : ClientHandler) (clientId : String) : Decidable (h.Connected clientId) :=
  inferInstanceAs (Decidable (_ = true))

def activeOf (h : ClientHandler) (clientId : String) : List DataType :=
  match h.connectedSession clientId with
  | none => []
  | some s => s.activeTypes

def captureCamera (h : ClientHandler) : String :=
  match h.sdkManager with
  | none => "cam1"
  | some m => firstCamera m

def slotAt (h : ClientHandler) (cameraId : String) : Option SDKSlot :=
  match h.sdkManager with
  | none => none
  | some m => m.slots.lookup cameraId

def captureSlot (h : ClientHandler) : Option SDKSlot := h.slotAt h.captureCamera

def slotCall (h : ClientHandler) : Command → SlotCall
  | .connect _ => .nothing
  | .disconnect c =>
    if h.activeOf c ≠ [] ∧ h.captureCamera ≠ "" then .stop (h.activeOf c) else .nothing
  | .startCapture c types => if h.Connected c then .start (captureTypes types) else .nothing
  | .stopCapture c types => if h.Connected c then .stop (captureTypes types) else .nothing

def activeAfter (h : ClientHandler) : Command → String → List DataType
  | .connect _, c' => h.activeOf c'
  | .disconnect c, c' => if c' = c then [] else h.activeOf c'
  | .startCapture c types, c' =>
    if c' = c ∧ h.Connected c then addTypes (h.activeOf c) (captureTypes types)
    else h.activeOf c'
  | .stopCapture c types, c' =>
    if c' = c then eraseAll (h.activeOf c) (captureTypes types) else h.activeOf c'

/-- Between two commands: the manager is set, its slots are coherent, and the types of a
session were asked of `captureCamera`. -/
structure Ready (h : ClientHandler) : Prop where
  manager : ∃ m, h.sdkManager = some m ∧ m.Coherent
  camera : ∀ c s, h.sessions.lookup c = some s → s.activeTypes ≠ [] →
    s.cameraId = h.captureCamera
  idle : ∀ c s, h.sessions.lookup c = some s → s.connected = false → s.activeTypes = []

structure Effect (h : ClientHandler) (cmd : Command) (h' : ClientHandler) : Prop where
  ready : Ready h'
  captureCamera : h'.captureCamera = h.captureCamera
  active : ∀ c', h'.activeOf c' = h.activeAfter cmd c'
  slot : ∃ thread, h'.captureSlot =
    h.captureSlot.map fun slot => slot.call thread (h.slotCall cmd)
  others : ∀ id, id ≠ h.captureCamera → h'.slotAt id = h.slotAt id

section
variable {h : ClientHandler} {c c' : String} {s : ClientSession}
  {types : List DataType}

theorem captureTypes_ne_nil (types : List DataType) : captureTypes types ≠ [] := by
  unfold captureTypes
  cases types with
  | nil => exact List.cons_ne_nil _ _
  | cons t ts => exact List.cons_ne_nil t ts

theorem connectedSession_eq_some :
    h.connectedSession c = some s ↔ h.sessions.lookup c = some s ∧ s.connected = true :=
  Option.filter_eq_some_iff

theorem connectedSession_setSession :
    (h.setSession c s).connectedSession c' =
      if c' = c then (if s.connected then some s else none) else h.connectedSession c' := by
  unfold connectedSession setSession
  by_cases hc : c' = c
  · rw [hc, AList.lookup_insert, if_pos rfl]
    rfl
  · rw [AList.lookup_insert_ne hc, if_neg hc]

theorem activeOf_setSession :
    (h.setSession c s).activeOf c' =
      if c' = c then (if s.connected then s.activeTypes else []) else h.activeOf c' := by
  unfold activeOf
  rw [connectedSession_setSession]
  split_ifs <;> rfl

theorem activeOf_of_connectedSession (hs : h.connectedSession c = some s) :
    h.activeOf c = s.activeTypes := by
  unfold activeOf
  rw [hs]

theorem activeOf_of_not_connected (hs : h.connectedSession c = none) : h.activeOf c = [] := by
  unfold activeOf
  rw [hs]

@[simp] theorem captureCamera_setSession :
    (h.setSession c s).captureCamera = h.captureCamera := rfl

theorem Ready.setSession (hr : Ready h) (hcam : s.activeTypes ≠ [] → s.cameraId = h.captureCamera)
    (hidle : s.connected = false → s.activeTypes = []) : Ready (h.setSession c s) where
  manager := hr.manager
  camera := by
    intro c' s' hs'
    by_cases hc : c' = c
    · rw [ClientHandler.setSession, hc, AList.lookup_insert] at hs'
      exact Option.some.inj hs' ▸ hcam
    · rw [ClientHandler.setSession, AList.lookup_insert_ne hc] at hs'
      exact hr.camera c' s' hs'
  idle := by
    intro c' s' hs'
    by_cases hc : c' = c
    · rw [ClientHandler.setSession, hc, AList.lookup_insert] at hs'
      exact Option.some.inj hs' ▸ hidle
    · rw [ClientHandler.setSession, AList.lookup_insert_ne hc] at hs'
      exact hr.idle c' s' hs'

theorem firstCamera_startCapture (m : SDKSlotManager) (id : String) :
    firstCamera (m.startCapture id types).1 = firstCamera m := by
  unfold firstCamera SDKSlotManager.getCameraIds
  rw [SDKSlotManager.keys_startCapture]

theorem firstCamera_stopCapture (m : SDKSlotManager) (id : String) :
    firstCamera (m.stopCapture id types).1 = firstCamera m := by
  unfold firstCamera SDKSlotManager.getCameraIds
  rw [SDKSlotManager.keys_stopCapture]

theorem captureCamera_of_manager {m : SDKSlotManager} (hm : h.sdkManager = some m) :
    h.captureCamera = firstCamera m := by
  unfold captureCamera
  rw [hm]

theorem slotAt_of_manager {m : SDKSlotManager} (hm : h.sdkManager = some m) (id : String) :
    h.slotAt id = m.slots.lookup id := by
  unfold slotAt
  rw [hm]

theorem slotAt_startCapture (m : SDKSlotManager) (id : String) (types : List DataType) :
    ∃ thread, ∀ id', ((m.startCapture id types).1.slots.lookup id') =
      if id' = id then (m.slots.lookup id').map fun slot => slot.startCapture types thread
      else m.slots.lookup id' := by
  refine ⟨m.spawned, fun id' => ?_⟩
  split_ifs with hid
  · subst hid
    rcases hslot : m.slots.lookup id' with _ | slot
    · rw [SDKSlotManager.startCapture_of_lookup_none hslot, hslot]
      rfl
    · rw [SDKSlotManager.lookup_startCapture_self hslot]
      rfl
  · exact SDKSlotManager.lookup_startCapture_ne hid

theorem slotAt_stopCapture {m : SDKSlotManager} (id id' : String) :
    (m.stopCapture id types).1.slots.lookup id' =
      if id' = id then (m.slots.lookup id').map fun slot => (slot.stopCapture types).1
      else m.slots.lookup id' := by
  split_ifs with hid
  · subst hid
    rcases hslot : m.slots.lookup id' with _ | slot
    · rw [SDKSlotManager.stopCapture_of_lookup_none hslot, hslot]
      rfl
    · rw [SDKSlotManager.lookup_stopCapture_self hslot]
      rfl
  · exact SDKSlotManager.lookup_stopCapture_ne hid

theorem Ready.captureCamera_stopCamera (hr : Ready h) (id : String) (types : List DataType) :
    (h.stopCamera id types).captureCamera = h.captureCamera := by
  obtain ⟨m, hm, -⟩ := hr.manager
  have hm' : (h.stopCamera id types).sdkManager = some (m.stopCapture id types).1 := by
    rw [ClientHandler.stopCamera, hm]
    rfl
  rw [captureCamera_of_manager hm, captureCamera_of_manager hm', firstCamera_stopCapture]

theorem Ready.stopCamera (hr : Ready h) (id : String) (types : List DataType) :
    Ready (h.stopCamera id types) := by
  have hcam := hr.captureCamera_stopCamera id types
  obtain ⟨m, hm, hcoh⟩ := hr.manager
  refine ⟨⟨(m.stopCapture id types).1, ?_, hcoh.stopCapture id types⟩, ?_, hr.idle⟩
  · rw [ClientHandler.stopCamera, hm]
    rfl
  · rw [hcam]
    exact hr.camera

theorem Ready.slotAt_stopCamera (hr : Ready h) (id id' : String) :
    (h.stopCamera id types).slotAt id' =
      if id' = id then (h.slotAt id').map fun slot => (slot.stopCapture types).1
      else h.slotAt id' := by
  obtain ⟨m, hm, -⟩ := hr.manager
  have hm' : (h.stopCamera id types).sdkManager = some (m.stopCapture id types).1 := by
    rw [ClientHandler.stopCamera, hm]
    rfl
  rw [slotAt_of_manager hm, slotAt_of_manager hm', slotAt_stopCapture]

def startedSession (s : ClientSession) (camera : String) (types : List DataType) :
    ClientSession :=
  { s with activeTypes := addTypes s.activeTypes (captureTypes types), cameraId := camera }

theorem handleStartCapture_of_connected (types : List DataType) {m : SDKSlotManager}
    (hm : h.sdkManager = some m) (hs : h.connectedSession c = some s) :
    (h.handleStartCapture c types).1.sdkManager =
        some (m.startCapture (firstCamera m) (captureTypes types)).1 ∧
      (h.handleStartCapture c types).1.sessions =
        (h.setSession c (startedSession s (firstCamera m) types)).sessions := by
  rw [handleStartCapture_of_manager hs hm]
  exact ⟨rfl, rfl⟩

theorem map_call_nothing {thread : ℕ} (o : Option SDKSlot) :
    (o.map fun slot => slot.call thread .nothing) = o := Option.map_id'

theorem Effect.of_unchanged (hr : Ready h) {cmd : Command}
    (hactive : ∀ c', h.activeOf c' = h.activeAfter cmd c') (hcall : h.slotCall cmd = .nothing) :
    Effect h cmd h where
  ready := hr
  captureCamera := rfl
  active := hactive
  slot := ⟨0, by rw [hcall, map_call_nothing]⟩
  others := fun _ _ => rfl

theorem effect_connect (hr : Ready h) (c : String) :
    Effect h (.connect c) (h.handleConnect c).1 := by
  have hsame : Effect h (.connect c) h := .of_unchanged hr (fun _ => rfl) rfl
  unfold handleConnect
  split_ifs with hinit
  · exact hsame
  · dsimp only
    split_ifs with hconn
    · exact hsame
    · -- A session that is not connected has no types, so the new one has none.
      have hnil : ((h.sessions.lookup c).getD {}).activeTypes = [] := by
        rcases hs : h.sessions.lookup c with _ | s
        · rfl
        · rw [hs, Option.getD_some, Bool.not_eq_true] at hconn
          exact hr.idle c s hs hconn
      refine ⟨hr.setSession (fun hne => absurd hnil hne) (fun _ => hnil), rfl, fun c' => ?_,
        hsame.slot, fun _ _ => rfl⟩
      rw [activeOf_setSession, activeAfter, if_pos rfl]
      split_ifs with hc
      · subst hc
        have hout : h.connectedSession c' = none := by
          rw [connectedSession, Option.filter_eq_none_iff]
          intro s hs hsc
          rw [hs, Option.getD_some] at hconn
          exact hconn hsc
        rw [activeOf_of_not_connected hout]
        exact hnil
      · rfl

theorem effect_disconnect (hr : Ready h) (c : String) :
    Effect h (.disconnect c) (h.handleDisconnect c).1 := by
  unfold handleDisconnect disconnectSession
  rcases hs : h.connectedSession c with _ | s
  · have hnil := activeOf_of_not_connected hs
    refine .of_unchanged hr (fun c' => ?_) ?_
    · rw [activeAfter]
      split_ifs with hc
      · rw [hc, hnil]
      · rfl
    · rw [slotCall, hnil, if_neg (fun h => h.1 rfl)]
  · have hact := activeOf_of_connectedSession hs
    have hlook := (connectedSession_eq_some.mp hs).1
    have hr' : Ready (h.setSession c { s with connected := false, activeTypes := [] }) :=
      hr.setSession (fun hne => absurd rfl hne) fun _ => rfl
    have hactive : ∀ c', (h.setSession c { s with connected := false, activeTypes := [] }).activeOf
        c' = h.activeAfter (.disconnect c) c' := by
      intro c'
      rw [activeOf_setSession, activeAfter]
      rfl
    dsimp only
    split_ifs with hstop
    · -- Types were active, so the session's camera is the one that the commands use.
      obtain ⟨hne, hcam⟩ := hstop
      have hid : h.captureCamera = s.cameraId := (hr.camera c s hlook hne).symm
      refine ⟨hr'.stopCamera _ _, hr'.captureCamera_stopCamera _ _, hactive, ⟨0, ?_⟩, ?_⟩
      · rw [captureSlot, hr'.captureCamera_stopCamera, captureCamera_setSession,
          hr'.slotAt_stopCamera, if_pos hid, slotCall, hact, if_pos ⟨hne, hid ▸ hcam⟩]
        rfl
      · intro id hid'
        rw [hr'.slotAt_stopCamera, if_neg (hid ▸ hid')]
        rfl
    · refine ⟨hr', rfl, hactive, ⟨0, ?_⟩, fun _ _ => rfl⟩
      rw [slotCall, hact, if_neg, map_call_nothing]
      · rfl
      · exact fun ⟨hne, hcam⟩ => hstop ⟨hne, hr.camera c s hlook hne ▸ hcam⟩

theorem effect_startCapture (hr : Ready h) (c : String) (types : List DataType) :
    Effect h (.startCapture c types) (h.handleStartCapture c types).1 := by
  rcases hs : h.connectedSession c with _ | s
  · have hout : ¬h.Connected c := by rw [Connected, hs]; exact Bool.false_ne_true
    rw [handleStartCapture_of_not_connected hs]
    refine .of_unchanged hr (fun c' => ?_) ?_
    · rw [activeAfter, if_neg fun hc => hout hc.2]
    · rw [slotCall, if_neg hout]
  · have hin : h.Connected c := by rw [Connected, hs]; rfl
    have hact := activeOf_of_connectedSession hs
    obtain ⟨hlook, hconn⟩ := connectedSession_eq_some.mp hs
    obtain ⟨m, hm, hcoh⟩ := hr.manager
    have hcam := captureCamera_of_manager hm
    obtain ⟨hmgr, hsess⟩ := handleStartCapture_of_connected types hm hs
    -- Only the sessions and the manager are looked at from here on.
    generalize (h.handleStartCapture c types).1 = h' at hmgr hsess
    have hcam' : h'.captureCamera = h.captureCamera := by
      rw [captureCamera_of_manager hmgr, hcam, firstCamera_startCapture]
    obtain ⟨thread, hslots⟩ := slotAt_startCapture m (firstCamera m)
      (captureTypes types)
    have hstarted : Ready (h.setSession c (startedSession s (firstCamera m) types)) :=
      hr.setSession (fun _ => hcam.symm) fun hf => absurd (hconn.symm.trans hf) nofun
    refine ⟨⟨⟨_, hmgr, hcoh.startCapture _ _⟩, ?_, ?_⟩, hcam', fun c' => ?_, ⟨thread, ?_⟩, ?_⟩
    · rw [hsess, hcam']
      exact hstarted.camera
    · rw [hsess]
      exact hstarted.idle
    · have hview : h'.activeOf c' =
          (h.setSession c (startedSession s (firstCamera m) types)).activeOf c' := by
        rw [activeOf, activeOf, connectedSession, connectedSession, hsess]
      rw [hview, activeOf_setSession, activeAfter, hact]
      have hconn' : (startedSession s (firstCamera m) types).connected = true := hconn
      by_cases hc : c' = c
      · rw [if_pos hc, if_pos hconn', if_pos ⟨hc, hin⟩]
        rfl
      · rw [if_neg hc, if_neg fun h => hc h.1]
    · rw [captureSlot, hcam', slotAt_of_manager hmgr, hcam, hslots, if_pos rfl, slotCall,
        if_pos hin, captureSlot, slotAt_of_manager hm, hcam]
      rfl
    · intro id hid
      rw [slotAt_of_manager hmgr, hslots, if_neg (hcam ▸ hid), slotAt_of_manager hm]

theorem effect_stopCapture (hr : Ready h) (c : String) (types : List DataType) :
    Effect h (.stopCapture c types) (h.handleStopCapture c types).1 := by
  rcases hs : h.connectedSession c with _ | s
  · have hnil := activeOf_of_not_connected hs
    have hout : ¬h.Connected c := by rw [Connected, hs]; exact Bool.false_ne_true
    rw [handleStopCapture_of_not_connected hs]
    refine .of_unchanged hr (fun c' => ?_) ?_
    · rw [activeAfter]
      split_ifs with hc
      · rw [hc, hnil, eraseAll_nil]
      · rfl
    · rw [slotCall, if_neg hout]
  · have hin : h.Connected c := by rw [Connected, hs]; rfl
    have hact := activeOf_of_connectedSession hs
    obtain ⟨hlook, hconn⟩ := connectedSession_eq_some.mp hs
    obtain ⟨m, hm, -⟩ := hr.manager
    have hcam := captureCamera_of_manager hm
    have hr' : Ready (h.setSession c
        { s with activeTypes := eraseAll s.activeTypes (captureTypes types) }) := by
      refine hr.setSession (fun hne => hr.camera c s hlook ?_) fun hf =>
        absurd (hconn.symm.trans hf) nofun
      intro hnil
      exact hne (by rw [hnil, eraseAll_nil])
    rw [handleStopCapture_of_manager hs hm]
    refine ⟨hr'.stopCamera _ _, hr'.captureCamera_stopCamera _ _, fun c' => ?_, ⟨0, ?_⟩, ?_⟩
    · show (h.setSession c
        { s with activeTypes := eraseAll s.activeTypes (captureTypes types) }).activeOf c' = _
      rw [activeOf_setSession, activeAfter, hact]
      split_ifs
      · rfl
      · rfl
    · rw [captureSlot, hr'.captureCamera_stopCamera, captureCamera_setSession,
        hr'.slotAt_stopCamera, if_pos hcam, slotCall, if_pos hin]
      rfl
    · intro id hid
      rw [hr'.slotAt_stopCamera, if_neg (hcam ▸ hid)]
      rfl

theorem effect (hr : Ready h) (cmd : Command) : Effect h cmd (h.handle cmd).1 := by
  cases cmd with
  | connect c => exact effect_connect hr c
  | disconnect c => exact effect_disconnect hr c
  | startCapture c types => exact effect_startCapture hr c types
  | stopCapture c types => exact effect_stopCapture hr c types

theorem mem_activeAfter {cmd : Command} {t : DataType} (ht : t ∈ h.activeAfter cmd c) :
    t ∈ h.activeOf c ∨ ∃ types, h.slotCall cmd = .start types ∧ t ∈ types := by
  cases cmd with
  | connect c' => exact .inl ht
  | disconnect c' =>
    rw [activeAfter] at ht
    split_ifs at ht
    · exact absurd ht List.not_mem_nil
    · exact .inl ht
  | startCapture c' types =>
    rw [activeAfter] at ht
    split_ifs at ht with hc
    · rw [hc.1]
      refine (mem_addTypes.mp ht).imp_right fun ht => ⟨captureTypes types, ?_, ht⟩
      rw [slotCall, if_pos hc.2]
    · exact .inl ht
  | stopCapture c' types =>
    rw [activeAfter] at ht
    split_ifs at ht with hc
    · exact .inl (hc ▸ (mem_eraseAll.mp ht).1)
    · exact .inl ht

theorem exists_mem_activeAfter {cmd : Command} (hcmd : h.slotCall cmd = .start types) :
    ∃ c t, t ∈ h.activeAfter cmd c := by
  cases cmd with
  | connect c => cases hcmd
  | disconnect c =>
    rw [slotCall] at hcmd
    split_ifs at hcmd
  | startCapture c types =>
    rw [slotCall] at hcmd
    split_ifs at hcmd with hin
    obtain ⟨t, ht⟩ := List.exists_mem_of_ne_nil _ (captureTypes_ne_nil types)
    refine ⟨c, t, ?_⟩
    rw [activeAfter, if_pos ⟨rfl, hin⟩]
    exact mem_addTypes.mpr (.inr ht)
  | stopCapture c types =>
    rw [slotCall] at hcmd
    split_ifs at hcmd

end

def Served (h : ClientHandler) : Prop :=
  ∀ c s, h.sessions.lookup c = some s → s.connected = true → ∀ t ∈ s.activeTypes,
    ∃ slot, h.slotAt s.cameraId = some slot ∧ slot.capturing = true ∧ t ∈ slot.activeTypes

/-- A start finds a configured camera; a stop or disconnect releases no type that some
client keeps, and is not the slot's last counted subscriber while some client keeps one. -/
def Harmless (h : ClientHandler) (cmd : Command) : Prop :=
  match h.slotCall cmd with
  | .nothing => True
  | .start _ => ∃ slot, h.captureSlot = some slot
  | .stop released => ∀ c t, t ∈ h.activeAfter cmd c →
    t ∉ released ∧ ∃ slot, h.captureSlot = some slot ∧ 1 < slot.subscriberCount

section
variable {h h' : ClientHandler} {cmd : Command}

theorem Ready.served_iff (hr : Ready h) :
    Served h ↔ ∀ c t, t ∈ h.activeOf c →
      ∃ slot, h.captureSlot = some slot ∧ slot.capturing = true ∧ t ∈ slot.activeTypes := by
  constructor
  · intro hserved c t ht
    rcases hs : h.connectedSession c with _ | s
    · rw [activeOf_of_not_connected hs] at ht
      exact absurd ht List.not_mem_nil
    · rw [activeOf_of_connectedSession hs] at ht
      obtain ⟨hlook, hconn⟩ := connectedSession_eq_some.mp hs
      have hslot := hserved c s hlook hconn t ht
      rwa [hr.camera c s hlook (List.ne_nil_of_mem ht)] at hslot
  · intro hserved c s hlook hconn t ht
    rw [hr.camera c s hlook (List.ne_nil_of_mem ht)]
    refine hserved c t ?_
    rwa [activeOf_of_connectedSession (connectedSession_eq_some.mpr ⟨hlook, hconn⟩)]

theorem Ready.coherent_captureSlot (hr : Ready h) {slot : SDKSlot}
    (hslot : h.captureSlot = some slot) : slot.Coherent := by
  obtain ⟨m, hm, hcoh⟩ := hr.manager
  rw [captureSlot, slotAt_of_manager hm] at hslot
  exact hcoh _ slot hslot

theorem Effect.served_iff (he : Effect h cmd h') (hr : Ready h) (hserved : Served h) :
    Served h' ↔ Harmless h cmd := by
  rw [hr.served_iff] at hserved
  rw [he.ready.served_iff, Harmless]
  obtain ⟨thread, hslot'⟩ := he.slot
  simp only [he.active, hslot']
  rcases hcall : h.slotCall cmd with _ | types | released
  · -- No call: the slot is the same and no type was added.
    refine iff_of_true (fun c t ht => ?_) trivial
    rcases mem_activeAfter ht with ht | ⟨types, hstart, -⟩
    · rw [map_call_nothing]
      exact hserved c t ht
    · cases hcall.symm.trans hstart
  · rcases hslot : h.captureSlot with _ | slot
    · -- A start without a camera leaves its types unserved.
      refine iff_of_false (fun hall => ?_) (fun ⟨slot, hsome⟩ => by cases hsome)
      obtain ⟨c, t, ht⟩ := exists_mem_activeAfter hcall
      obtain ⟨slot, hsome, -⟩ := hall c t ht
      cases hsome
    · refine iff_of_true (fun c t ht => ?_) ⟨slot, rfl⟩
      refine ⟨_, rfl, slot.startCapture_capturing types thread, ?_⟩
      show t ∈ (slot.startCapture types thread).activeTypes
      rw [SDKSlot.startCapture_activeTypes, mem_addTypes]
      rcases mem_activeAfter ht with ht | ⟨types', hstart, ht⟩
      · obtain ⟨slot', hsome, -, hmem⟩ := hserved c t ht
        exact .inl (Option.some.inj (hslot.symm.trans hsome) ▸ hmem)
      · cases hcall.symm.trans hstart
        exact .inr ht
  · -- After a stop no type is new, so each was served before it.
    refine forall₂_congr fun c t => imp_congr_right fun ht => ?_
    rcases mem_activeAfter ht with hold | ⟨types, hstart, -⟩
    · obtain ⟨slot, hslot, hcap, hmem⟩ := hserved c t hold
      obtain ⟨-, hcap', -⟩ := (hr.coherent_captureSlot hslot).stopCapture_eq released
      rw [hslot]
      constructor
      · rintro ⟨slot', hsome, hc, ht'⟩
        obtain rfl : (slot.stopCapture released).1 = slot' := Option.some.inj hsome
        rw [SDKSlot.stopCapture_activeTypes, mem_eraseAll] at ht'
        exact ⟨ht'.2, slot, rfl, hcap'.mp hc⟩
      · rintro ⟨hnot, slot', hsome, hcount⟩
        obtain rfl := Option.some.inj hsome
        refine ⟨(slot.stopCapture released).1, rfl, hcap'.mpr hcount, ?_⟩
        rw [SDKSlot.stopCapture_activeTypes]
        exact mem_eraseAll.mpr ⟨hmem, hnot⟩
    · cases hcall.symm.trans hstart

end

theorem ready_init {m : SDKSlotManager} (hm : m.Coherent) : Ready (mk'.setSdkManager m) where
  manager := ⟨m, rfl, hm⟩
  camera := fun c _ h => by cases (AList.lookup_empty c).symm.trans h
  idle := fun c _ h => by cases (AList.lookup_empty c).symm.trans h

theorem ready_step {h h' : ClientHandler} {cmd : Command} (hr : Ready h)
    (hstep : step h cmd = some h') : Ready h' :=
  Option.some.inj hstep ▸ (effect hr cmd).ready

/-- Exactly the runs of harmless commands serve every live subscription throughout. -/
theorem served_iff_harmless {m : SDKSlotManager} (hm : m.Configured) (cmds : List Command) :
    (∀ pre h, pre <+: cmds → run step (mk'.setSdkManager m) pre = some h → Served h) ↔
      Guarded step Harmless (mk'.setSdkManager m) cmds := by
  refine guarded_iff_forall_prefix (I := Ready) (fun h cmd h' => ready_step)
    (fun h cmd hnone => by cases hnone) (fun h cmd h' hr hserved hstep => ?_)
    (ready_init hm.coherent) ?_ cmds
  · obtain rfl := Option.some.inj hstep
    exact (effect hr cmd).served_iff hr hserved
  · intro c s hs
    cases (AList.lookup_empty c).symm.trans hs

def oneCamera : SDKSlotManager :=
  (SDKSlotManager.mk' (DataBuffer.mk' 16)).configure
    [⟨"cam1", "https://localhost:8080", "ipc:///tmp/zed_vision", []⟩]

theorem configured_oneCamera : oneCamera.Configured := SDKSlotManager.configured_configure _ _

def harmlessTest (h : ClientHandler) (cmd : Command) : Bool :=
  match h.slotCall cmd with
  | .nothing => true
  | .start _ => h.captureSlot.isSome
  | .stop released => h.sessions.keys.all fun c => (h.activeAfter cmd c).all fun t =>
    t ∉ released ∧ (h.captureSlot.map fun slot => decide (1 < slot.subscriberCount)) = some true

theorem mem_keys_of_mem_activeOf {h : ClientHandler} {c : String} {t : DataType}
    (ht : t ∈ h.activeOf c) : c ∈ h.sessions.keys := by
  unfold activeOf at ht
  split at ht
  · cases ht
  · rename_i s hs
    exact AList.mem_keys.mpr (AList.lookup_isSome.mp
      (Option.isSome_iff_exists.mpr ⟨s, (connectedSession_eq_some.mp hs).1⟩))

theorem mem_activeOf_of_stop {h : ClientHandler} {cmd : Command} {released : List DataType}
    {c : String} {t : DataType} (hcall : h.slotCall cmd = .stop released)
    (ht : t ∈ h.activeAfter cmd c) : t ∈ h.activeOf c := by
  cases cmd with
  | connect c' => exact ht
  | disconnect c' =>
    simp only [activeAfter] at ht
    split_ifs at ht
    · cases ht
    · exact ht
  | startCapture c' types =>
    simp only [slotCall] at hcall
    split_ifs at hcall
  | stopCapture c' types =>
    simp only [activeAfter] at ht
    split_ifs at ht with hc
    · rw [hc]
      exact (mem_eraseAll.mp ht).1
    · exact ht

theorem harmless_of_harmlessTest (h : ClientHandler) (cmd : Command)
    (htest : harmlessTest h cmd = true) : Harmless h cmd := by
  unfold harmlessTest at htest
  unfold Harmless
  split
  · trivial
  · rename_i hcall
    rw [hcall] at htest
    exact Option.isSome_iff_exists.mp htest
  · rename_i released hcall
    rw [hcall] at htest
    intro c t ht
    have hkey := mem_keys_of_mem_activeOf (mem_activeOf_of_stop hcall ht)
    have htypes := List.all_eq_true.mp (List.all_eq_true.mp htest c hkey) t ht
    obtain ⟨hkept, hcount⟩ := of_decide_eq_true htypes
    obtain ⟨slot, hslot, hlt⟩ := Option.map_eq_some_iff.mp hcount
    exact ⟨hkept, slot, hslot, of_decide_eq_true hlt⟩

/-- One client stops a type and starts another, and the other one leaves. -/
def twoClients : List Command :=
  [.connect "a", .connect "b", .startCapture "a" [.imu], .startCapture "b" [.depthMap],
    .stopCapture "b" [.depthMap], .startCapture "b" [.stereoImage], .disconnect "a"]

theorem served_twoClients :
    ∃ h, run step (mk'.setSdkManager oneCamera) twoClients = some h ∧ h.Connected "b" ∧
      h.activeOf "b" = [.stereoImage] ∧ Served h := by
  have h := served_iff_harmless configured_oneCamera twoClients
  refine ⟨_, rfl, by decide, by decide, h.mpr ?_ twoClients _ List.prefix_rfl rfl⟩
  exact .of_allSteps harmlessTest harmless_of_harmlessTest (by decide)

/-- The second client stops the type that the first still has active. -/
def sharedType : List Command :=
  [.connect "a", .connect "b", .startCapture "a" [.imu], .startCapture "b" [.imu],
    .stopCapture "b" [.imu]]

/-- A client stops one of its two types. -/
def partialStop : List Command :=
  [.connect "a", .startCapture "a" [.imu, .stereoImage], .stopCapture "a" [.imu]]

theorem stop_takes_types_away :
    (∃ h, run step (mk'.setSdkManager oneCamera) sharedType = some h ∧ ¬Served h) ∧
      ∃ h, run step (mk'.setSdkManager oneCamera) partialStop = some h ∧ ¬Served h := by
  refine ⟨⟨_, rfl, fun h => ?_⟩, ⟨_, rfl, fun h => ?_⟩⟩
  · obtain ⟨slot, hslot, -, ht⟩ := h "a" ⟨"a", true, [.imu], "cam1"⟩ rfl rfl .imu (by decide)
    obtain rfl := Option.some.inj hslot
    exact absurd ht (by decide)
  · obtain ⟨slot, hslot, hcap, -⟩ :=
      h "a" ⟨"a", true, [.stereoImage], "cam1"⟩ rfl rfl .stereoImage (by decide)
    obtain rfl := Option.some.inj hslot
    exact absurd hcap (by decide)

end ClientHandler

end StereoCamera
