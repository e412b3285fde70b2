import StereoCamera.Api.CommandViews

/-! What every section of a command does to the sessions and to the slots. -/

namespace StereoCamera.ClientHandler
open Transition

/-! ## The first section -/

structure FirstSection (h : ClientHandler) (cmd : Command) (h' : ClientHandler) (t : Task) :
    Prop where
  consistent : Consistent h'
  camera : h'.captureCamera = h.captureCamera
  underway : t.Underway h.captureCamera
  views : h'.views = h.views.first cmd
  rest : t.rest = h.views.plan cmd

section
variable {h h' : ClientHandler} {cmd : Command} {c : String} {s : ClientSession} {t t' : Task}

theorem views_first (hsessions : h'.sessionView =
      Function.update h.sessionView cmd.client (actAt (h.sessionView cmd.client) cmd))
    (hslots : h'.slotView = h.slotView) : h'.views = h.views.first cmd := by
  unfold ClientHandler.views Views.first
  rw [hsessions, hslots]

theorem FirstSection.unchanged (hh : Consistent h)
    (hact : actAt (h.sessionView cmd.client) cmd = h.sessionView cmd.client)
    (hplan : h.views.plan cmd = ⟨none, .nothing⟩) : FirstSection h cmd h .done where
  consistent := hh
  camera := rfl
  underway := trivial
  views := views_first (by rw [hact, Function.update_eq_self]) rfl
  rest := hplan.symm

theorem FirstSection.of_setSession (hh : Consistent (h.setSession cmd.client s))
    (hact : actAt (h.sessionView cmd.client) cmd = some s.view)
    (ht : t.Underway h.captureCamera) (hrest : t.rest = h.views.plan cmd) :
    FirstSection h cmd (h.setSession cmd.client s) t where
  consistent := hh
  camera := rfl
  underway := ht
  views := views_first (by rw [sessionView_setSession, hact]) rfl
  rest := hrest

theorem act_of_not_connected {v : SessionView} (hv : v.connected = false)
    (hcmd : ∀ c, cmd ≠ .connect c) : act v cmd = v ∧ plan v cmd = ⟨none, .nothing⟩ := by
  cases cmd with
  | connect c => exact absurd rfl (hcmd c)
  | disconnect c =>
    simp only [act, plan, hv, Bool.false_eq_true, if_false, false_and, and_self]
  | startCapture c types =>
    simp only [act, plan, hv, Bool.false_eq_true, if_false, and_self]
  | stopCapture c types =>
    simp only [act, plan, hv, Bool.false_eq_true, if_false, and_self]

theorem FirstSection.of_not_connected (hh : Consistent h)
    (hconn : ((h.sessionView cmd.client).getD {}).connected = false)
    (hcmd : ∀ c, cmd ≠ .connect c) : FirstSection h cmd h .done := by
  refine FirstSection.unchanged hh ?_ (act_of_not_connected hconn hcmd).2
  cases hs : h.sessionView cmd.client with
  | some v =>
    rw [hs, Option.getD_some] at hconn
    exact congrArg some (act_of_not_connected hconn hcmd).1
  | none =>
    cases cmd with
    | connect c => exact absurd rfl (hcmd c)
    | _ => rfl

theorem Consistent.isSome_manager (hh : Consistent h) : h.sdkManager.isSome = true := by
  obtain ⟨m, hm, -⟩ := hh.manager
  rw [hm]
  rfl

theorem firstSection_connect (hh : Consistent h) (c : String) :
    FirstSection h (.connect c) (h.handleConnect c).1 .done := by
  have hact : actAt (h.sessionView c) (.connect c) =
      some (act ((h.sessions.lookup c).getD {}).view (.connect c)) := by
    unfold sessionView
    cases h.sessions.lookup c <;> rfl
  unfold handleConnect
  rw [hh.initialized, Bool.not_true, if_neg Bool.false_ne_true]
  dsimp only
  split_ifs with hconn
  · refine FirstSection.unchanged hh ?_ rfl
    show actAt (h.sessionView c) (.connect c) = h.sessionView c
    have hconn' : ((h.sessions.lookup c).getD {}).view.connected = true := hconn
    rw [hact, act, if_pos hconn']
    unfold sessionView
    cases hs : h.sessions.lookup c with
    | some s => rfl
    | none =>
      rw [hs] at hconn
      exact absurd hconn Bool.false_ne_true
  · -- A session that is not connected has no types.
    have hidle : ((h.sessions.lookup c).getD {}).activeTypes = [] ∧
        (((h.sessions.lookup c).getD {}).cameraId = "" ∨
          ((h.sessions.lookup c).getD {}).cameraId = h.captureCamera) := by
      rcases hs : h.sessions.lookup c with _ | s
      · exact ⟨rfl, .inl rfl⟩
      · rw [hs, Option.getD_some, Bool.not_eq_true] at hconn
        exact ⟨hh.idle c s hs hconn, hh.camera c s hs⟩
    refine FirstSection.of_setSession (hh.setSession hidle.2 (fun _ => hidle.1) ?_) ?_ trivial rfl
    · show ((h.sessions.lookup c).getD {}).activeTypes.Nodup
      rw [hidle.1]
      exact List.nodup_nil
    · show actAt (h.sessionView c) (.connect c) = _
      have hconn' : ¬((h.sessions.lookup c).getD {}).view.connected = true := hconn
      rw [hact, act, if_neg hconn']
      rfl

theorem FirstSection.of_connectedSession_none (hh : Consistent h)
    (hs : h.connectedSession cmd.client = none) (hcmd : ∀ c, cmd ≠ .connect c)
    (hfirst : h.firstSection cmd = (h, .done)) :
    FirstSection h cmd (h.firstSection cmd).1 (h.firstSection cmd).2 := by
  rw [hfirst]
  exact .of_not_connected hh (connectedSession_eq_none_iff.mp hs) hcmd

theorem FirstSection.of_connectedSession (hs : h.connectedSession cmd.client = some s)
    {s' : ClientSession} (hh' : Consistent (h.setSession cmd.client s'))
    (hfirst : h.firstSection cmd = (h.setSession cmd.client s', t))
    (hact : act s.view cmd = s'.view) (ht : t.Underway h.captureCamera)
    (hrest : t.rest = plan s.view cmd) :
    FirstSection h cmd (h.firstSection cmd).1 (h.firstSection cmd).2 := by
  have hview : h.sessionView cmd.client = some s.view := (sessionView_of_connectedSession hs).1
  rw [hfirst]
  refine FirstSection.of_setSession hh' ?_ ht ?_
  · rw [hview]
    exact congrArg some hact
  · rw [hrest]
    show plan s.view cmd = plan ((h.sessionView cmd.client).getD {}) cmd
    rw [hview]
    rfl

theorem firstSection_disconnect (hh : Consistent h) (c : String) :
    FirstSection h (.disconnect c) (h.firstSection (.disconnect c)).1
      (h.firstSection (.disconnect c)).2 := by
  rcases hs : h.connectedSession c with _ | s
  · refine .of_connectedSession_none hh hs (fun _ => Command.noConfusion) ?_
    simp only [firstSection, disconnectSession, hs]
  · obtain ⟨hlook, hconn⟩ := connectedSession_eq_some.mp hs
    have hconn' : s.view.connected = true := hconn
    have hsession : Consistent (h.setSession c { s with connected := false, activeTypes := [] }) :=
      hh.setSession (hh.camera c s hlook) (fun _ => rfl) List.nodup_nil
    have hfirst : h.firstSection (.disconnect c) =
        (h.setSession c { s with connected := false, activeTypes := [] },
          if h.sdkManager.isSome ∧ s.activeTypes ≠ [] ∧ s.cameraId ≠ "" then
            .stopSlot s.cameraId s.activeTypes
          else .done) := by
      simp only [firstSection, disconnectSession, hs]
      rfl
    -- The source tests the manager and the list; the plan tests the connection and the set.
    have hiff : (h.sdkManager.isSome = true ∧ s.activeTypes ≠ [] ∧ s.cameraId ≠ "") ↔
        (s.view.connected = true ∧ s.view.types ≠ ∅ ∧ s.view.camera ≠ "") := by
      show _ ↔ (_ ∧ s.activeTypes.toFinset ≠ ∅ ∧ s.cameraId ≠ "")
      rw [ne_eq s.activeTypes.toFinset, List.toFinset_eq_empty_iff]
      exact and_congr_left' (iff_of_true hh.isSome_manager hconn')
    refine .of_connectedSession hs hsession hfirst ?_ ?_ ?_
    · rw [act, if_pos hconn']
      rfl
    · split_ifs with hstop
      · exact (hh.camera c s hlook).resolve_left hstop.2.2
      · trivial
    · rw [plan]
      by_cases hstop : s.view.connected = true ∧ s.view.types ≠ ∅ ∧ s.view.camera ≠ ""
      · rw [if_pos hstop, if_pos (hiff.mpr hstop)]
        rfl
      · rw [if_neg hstop, if_neg fun hn => hstop (hiff.mp hn)]
        rfl

theorem firstSection_startCapture (hh : Consistent h) (c : String) (types : List DataType) :
    FirstSection h (.startCapture c types) (h.firstSection (.startCapture c types)).1
      (h.firstSection (.startCapture c types)).2 := by
  rcases hs : h.connectedSession c with _ | s
  · refine .of_connectedSession_none hh hs (fun _ => Command.noConfusion) ?_
    simp only [firstSection, startSession, hs]
  · obtain ⟨hlook, hconn⟩ := connectedSession_eq_some.mp hs
    have hconn' : s.view.connected = true := hconn
    have hsession : Consistent (h.setSession c { s with
        activeTypes := addTypes s.activeTypes (captureTypes types) }) :=
      hh.setSession (hh.camera c s hlook)
        (fun hf => absurd (hf.symm.trans hconn) Bool.false_ne_true)
        (nodup_addTypes (hh.types c s hlook))
    have hfirst : h.firstSection (.startCapture c types) =
        (h.setSession c { s with activeTypes := addTypes s.activeTypes (captureTypes types) },
          .startIds c (captureTypes types)) := by
      simp only [firstSection, startSession, hs]
      rw [if_pos hsession.isSome_manager]
    refine .of_connectedSession hs hsession hfirst ?_ trivial ?_
    · rw [act, if_pos hconn']
      unfold ClientSession.view
      rw [toFinset_addTypes]
    · rw [plan, if_pos hconn']
      rfl

theorem firstSection_stopCapture (hh : Consistent h) (c : String) (types : List DataType) :
    FirstSection h (.stopCapture c types) (h.firstSection (.stopCapture c types)).1
      (h.firstSection (.stopCapture c types)).2 := by
  rcases hs : h.connectedSession c with _ | s
  · refine .of_connectedSession_none hh hs (fun _ => Command.noConfusion) ?_
    simp only [firstSection, stopSession, hs]
  · obtain ⟨hlook, hconn⟩ := connectedSession_eq_some.mp hs
    have hconn' : s.view.connected = true := hconn
    have hsession : Consistent (h.setSession c { s with
        activeTypes := eraseAll s.activeTypes (captureTypes types) }) :=
      hh.setSession (hh.camera c s hlook)
        (fun hf => absurd (hf.symm.trans hconn) Bool.false_ne_true)
        (nodup_eraseAll (hh.types c s hlook) _)
    have hfirst : h.firstSection (.stopCapture c types) =
        (h.setSession c { s with activeTypes := eraseAll s.activeTypes (captureTypes types) },
          .stopIds (captureTypes types)) := by
      simp only [firstSection, stopSession, hs]
      rw [if_pos hsession.isSome_manager]
    refine .of_connectedSession hs hsession hfirst ?_ trivial ?_
    · rw [act, if_pos hconn']
      unfold ClientSession.view
      rw [toFinset_eraseAll]
    · rw [plan, if_pos hconn']
      rfl

theorem firstSection_spec (hh : Consistent h) (cmd : Command) :
    FirstSection h cmd (h.firstSection cmd).1 (h.firstSection cmd).2 := by
  cases cmd with
  | connect c => exact firstSection_connect hh c
  | disconnect c => exact firstSection_disconnect hh c
  | startCapture c types => exact firstSection_startCapture hh c types
  | stopCapture c types => exact firstSection_stopCapture hh c types

/-! ## The sections after the first one -/

inductive Progress (camera : String) (v : Views) (p : Plan) : Views → Plan → Prop
  | same : Progress camera v p v p
  | record : Progress camera v p (v.record camera p) ⟨none, p.call⟩
  | perform (hp : p.records = none) :
    Progress camera v p (v.perform camera p) ⟨none, .nothing⟩

theorem view_default (o : Option ClientSession) : (o.getD {}).view = (o.map (·.view)).getD {} := by
  cases o <;> rfl

theorem Consistent.setCamera (hh : Consistent h) (c : String) :
    Consistent (h.setCamera c h.captureCamera) := by
  refine hh.setSession (.inr rfl) ?_ ?_
  · intro hf
    cases hs : h.sessions.lookup c with
    | none => rfl
    | some s =>
      rw [hs] at hf
      exact hh.idle c s hs hf
  · cases hs : h.sessions.lookup c with
    | none => exact List.nodup_nil
    | some s => exact hh.types c s hs

theorem views_setCamera (c camera : String) :
    (h.setCamera c camera).views = h.views.setCamera c camera := by
  unfold ClientHandler.views Views.setCamera ClientHandler.setCamera
  rw [sessionView_setSession, slotView_setSession]
  show Views.mk (Function.update _ c (some { ((h.sessions.lookup c).getD {}).view with
    camera := camera })) _ = _
  rw [view_default]
  rfl

structure Call (h : ClientHandler) (call : ViewCall) (m : SDKSlotManager) : Prop where
  coherent : m.Coherent
  keys : m.getCameraIds = h.sdkManager.elim [] SDKSlotManager.getCameraIds
  tidy : ∀ id slot, m.slots.lookup id = some slot → slot.Tidy
  slots : (fun id => (m.slots.lookup id).map SDKSlot.view) =
    Function.update h.slotView h.captureCamera ((h.slotView h.captureCamera).map call.apply)

theorem Call.consistent (hh : Consistent h) {call : ViewCall} {m : SDKSlotManager}
    (hm : Call h call m) : Consistent (h.setSdkManager m) ∧
      (h.setSdkManager m).captureCamera = h.captureCamera ∧
      (h.setSdkManager m).views = h.views.perform h.captureCamera ⟨none, call⟩ := by
  have hcam : (h.setSdkManager m).captureCamera = h.captureCamera := by
    obtain ⟨m₀, hm₀, -⟩ := hh.manager
    rw [captureCamera_of_manager hm₀, captureCamera_of_manager (m := m) rfl]
    unfold firstCamera
    rw [hm.keys, hm₀, Option.elim_some]
  refine ⟨⟨hh.initialized, ⟨m, rfl, hm.coherent⟩, ?_, hh.idle, hh.types, hm.tidy⟩, hcam, ?_⟩
  · rw [hcam]
    exact hh.camera
  · unfold ClientHandler.views Views.perform
    exact congrArg (Views.mk h.sessionView) hm.slots

theorem call_startCapture (hh : Consistent h) {m : SDKSlotManager} (hm : h.sdkManager = some m)
    (types : List DataType) :
    Call h (.start types.toFinset) (m.startCapture h.captureCamera types).1 := by
  obtain ⟨m₀, hm₀, hcoh⟩ := hh.manager
  obtain rfl : m₀ = m := Option.some.inj (hm₀.symm.trans hm)
  obtain ⟨thread, hslots⟩ := slotAt_startCapture m₀ h.captureCamera types
  refine ⟨hcoh.startCapture _ _, ?_, ?_, ?_⟩
  · rw [hm, Option.elim_some]
    exact SDKSlotManager.keys_startCapture
  · intro id slot hslot
    rw [hslots] at hslot
    split_ifs at hslot with hid
    · obtain ⟨old, hold, rfl⟩ := Option.map_eq_some_iff.mp hslot
      exact (hh.slots id old ((slotAt_of_manager hm id).trans hold)).startCapture types thread
    · exact hh.slots id slot ((slotAt_of_manager hm id).trans hslot)
  · funext id
    rw [hslots]
    by_cases hid : id = h.captureCamera
    · rw [if_pos hid, hid, Function.update_self, slotView, slotAt_of_manager hm, Option.map_map,
        Option.map_map]
      exact congrArg (fun f => Option.map f (m₀.slots.lookup h.captureCamera))
        (funext fun slot => slot.view_startCapture types thread)
    · rw [if_neg hid, Function.update_of_ne hid, slotView, slotAt_of_manager hm]

theorem call_stopCapture (hh : Consistent h) {m : SDKSlotManager} (hm : h.sdkManager = some m)
    (types : List DataType) :
    Call h (.stop types.toFinset) (m.stopCapture h.captureCamera types).1 := by
  obtain ⟨m₀, hm₀, hcoh⟩ := hh.manager
  obtain rfl : m₀ = m := Option.some.inj (hm₀.symm.trans hm)
  refine ⟨hcoh.stopCapture _ _, ?_, ?_, ?_⟩
  · rw [hm, Option.elim_some]
    exact SDKSlotManager.keys_stopCapture
  · intro id slot hslot
    rw [slotAt_stopCapture] at hslot
    split_ifs at hslot with hid
    · obtain ⟨old, hold, rfl⟩ := Option.map_eq_some_iff.mp hslot
      exact (hh.slots id old ((slotAt_of_manager hm id).trans hold)).stopCapture
        (hcoh id old hold) types
    · exact hh.slots id slot ((slotAt_of_manager hm id).trans hslot)
  · funext id
    rw [slotAt_stopCapture]
    by_cases hid : id = h.captureCamera
    · rw [if_pos hid, hid, Function.update_self, slotView, slotAt_of_manager hm, Option.map_map,
        Option.map_map]
      refine Option.map_congr fun slot hslot => ?_
      exact slot.view_stopCapture types (hcoh _ slot hslot)
    · rw [if_neg hid, Function.update_of_ne hid, slotView, slotAt_of_manager hm]

structure LaterSection (h : ClientHandler) (t : Task) (h' : ClientHandler) (t' : Task) :
    Prop where
  consistent : Consistent h'
  camera : h'.captureCamera = h.captureCamera
  underway : t'.Underway h.captureCamera
  progress : Progress h.captureCamera h.views t.rest h'.views t'.rest

theorem LaterSection.of_call (hh : Consistent h) {call : ViewCall} {m : SDKSlotManager}
    (hm : Call h call m) (ht : t.rest = ⟨none, call⟩) :
    LaterSection h t (h.setSdkManager m) .done := by
  obtain ⟨hcons, hcam, hviews⟩ := hm.consistent hh
  refine ⟨hcons, hcam, trivial, ?_⟩
  rw [hviews, ht]
  exact .perform rfl

theorem advance_spec (hh : Consistent h) (ht : t.Underway h.captureCamera)
    (hadv : h.advance t = some (h', t')) : LaterSection h t h' t' := by
  obtain ⟨m, hm, -⟩ := hh.manager
  cases t with
  | command cmd => exact ht.elim
  | startIds c types =>
    rw [advance, hm, Option.map_some, Option.some.injEq, Prod.mk.injEq] at hadv
    obtain ⟨rfl, rfl⟩ := hadv
    exact ⟨hh, rfl, (captureCamera_of_manager hm).symm, .same⟩
  | startCamera c cam types =>
    obtain rfl : cam = h.captureCamera := ht
    rw [advance, Option.some.injEq, Prod.mk.injEq] at hadv
    obtain ⟨rfl, rfl⟩ := hadv
    refine ⟨hh.setCamera c, rfl, rfl, ?_⟩
    rw [views_setCamera]
    exact .record
  | startSlot cam types =>
    obtain rfl : cam = h.captureCamera := ht
    rw [advance, startSlotManager, hm, Option.map_some, Option.some.injEq, Prod.mk.injEq] at hadv
    obtain ⟨rfl, rfl⟩ := hadv
    exact .of_call hh (call_startCapture hh hm types) rfl
  | stopIds types =>
    rw [advance, hm, Option.map_some, Option.some.injEq, Prod.mk.injEq] at hadv
    obtain ⟨rfl, rfl⟩ := hadv
    exact ⟨hh, rfl, (captureCamera_of_manager hm).symm, .same⟩
  | stopSlot cam types =>
    obtain rfl : cam = h.captureCamera := ht
    rw [advance, stopCamera, hm, Option.map_some, Option.some.injEq, Prod.mk.injEq] at hadv
    obtain ⟨rfl, rfl⟩ := hadv
    exact .of_call hh (call_stopCapture hh hm types) rfl
  | done => exact absurd hadv.symm (Option.some_ne_none _)

end

end StereoCamera.ClientHandler
