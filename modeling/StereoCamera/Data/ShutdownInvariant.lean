import StereoCamera.Data.Shutdown

/-! What the end of `main` and the commands that still come in keep. -/

namespace StereoCamera.Shutdown
open Transition DealerThreads

def MainPc.Past : MainPc → Prop
  | .serving | .stopping => False
  | .joining _ | .destroying | .destroyed => True

def Wired (m : SDKSlotManager) (id : String) : Prop :=
  ∃ slot, m.slots.lookup id = some slot ∧ slot.channels.filter (·.1 ≠ "base") ≠ []

structure Inv (s : State) : Prop where
  owned : ∃ joined, Owned joined s
  wired : ∀ d ∈ s.threads.dealers, d.MayLoop → Wired s.threads.mgr d.cameraId
  camera : ∀ id slot k, s.threads.mgr.slots.lookup id = some slot → slot.dealerThread = some k →
    ∃ d, s.threads.dealers[k]? = some d ∧ d.cameraId = id
  running : s.main.Past → ∀ id, s.threads.mgr.capturingActive id = true →
    s.threads.mgr.running = true

section
variable {s t : State} {th : DealerThreads.State} {k : ℕ} {a : Action}

theorem Wired.of_channels {m m' : SDKSlotManager} {id : String} (h : Wired m id)
    (hchannels : (m'.slots.lookup id).map SDKSlot.channels =
      (m.slots.lookup id).map SDKSlot.channels) : Wired m' id := by
  obtain ⟨slot, hslot, hne⟩ := h
  rw [hslot] at hchannels
  obtain ⟨slot', hslot', heq⟩ := Option.map_eq_some_iff.mp hchannels
  exact ⟨slot', hslot', heq ▸ hne⟩

theorem channels_startCapture (m : SDKSlotManager) (id : String) (types : List DataType)
    (id' : String) :
    ((m.startCapture id types).1.slots.lookup id').map SDKSlot.channels =
      (m.slots.lookup id').map SDKSlot.channels := by
  rcases hslot : m.slots.lookup id with _ | slot
  · rw [SDKSlotManager.startCapture_of_lookup_none hslot]
  · by_cases hid : id' = id
    · rw [hid, SDKSlotManager.lookup_startCapture_self hslot, hslot]
      simp
    · rw [SDKSlotManager.lookup_startCapture_ne hid]

theorem channels_stopCapture (m : SDKSlotManager) (id : String) (types : List DataType)
    (id' : String) :
    ((m.stopCapture id types).1.slots.lookup id').map SDKSlot.channels =
      (m.slots.lookup id').map SDKSlot.channels := by
  rcases hslot : m.slots.lookup id with _ | slot
  · rw [SDKSlotManager.stopCapture_of_lookup_none hslot]
  · by_cases hid : id' = id
    · rw [hid, SDKSlotManager.lookup_stopCapture_self hslot, hslot]
      simp
    · rw [SDKSlotManager.lookup_stopCapture_ne hid]

theorem channels_mapValues {slots : AList fun _ : String => SDKSlot} {f : SDKSlot → SDKSlot}
    (hf : ∀ slot, (f slot).channels = slot.channels) (id : String) :
    ((slots.mapValues fun _ => f).lookup id).map SDKSlot.channels =
      (slots.lookup id).map SDKSlot.channels := by
  rw [AList.lookup_mapValues, Option.map_map]
  exact congrArg (Option.map · _) (funext hf)

theorem startCapture_cases {id : String} {types : List DataType}
    (h : DealerThreads.step s.threads (.startCapture id types) = some th) :
    newDealer s.threads.mgr id = none ∧ th.dealers = s.threads.dealers ∧
        th.mgr.running = s.threads.mgr.running ∧
        (∀ id', th.mgr.capturingActive id' = s.threads.mgr.capturingActive id') ∨
      ∃ d, newDealer s.threads.mgr id = some d ∧ d.cameraId = id ∧ d.pc = .connecting ∧
        th.dealers = s.threads.dealers ++ [d] ∧ th.mgr.running = true ∧
        th.mgr.capturingActive id = true ∧ (d.channels ≠ [] ↔ Wired s.threads.mgr id) ∧
        ∀ id', id' ≠ id → th.mgr.capturingActive id' = s.threads.mgr.capturingActive id' := by
  have hactive : ∀ id', id' ≠ id → th.mgr.capturingActive id' =
      s.threads.mgr.capturingActive id' := by
    intro id' hid
    have hmgr : th.mgr = (s.threads.mgr.startCapture id types).1 := by rw [← Option.some.inj h]
    exact capturingActive_congr (hmgr ▸ SDKSlotManager.lookup_startCapture_ne hid)
  obtain ⟨hslot, rfl⟩ | ⟨slot, hslot, -, hself, -, hcase⟩ := step_startCapture h
  · left
    refine ⟨?_, rfl, rfl, fun id' => rfl⟩
    unfold newDealer
    rw [hslot]
  have hself : th.mgr.capturingActive id = true :=
    SDKSlotManager.capturingActive_iff.mpr ⟨_, hself, SDKSlot.startCapture_capturing _ _ _⟩
  rcases hcase with ⟨hcapturing, hdealers, hrunning, -⟩ | ⟨hcapturing, hdealers, hrunning, -⟩
  · left
    refine ⟨?_, hdealers, hrunning, fun id' => ?_⟩
    · unfold newDealer
      rw [hslot]
      simp [hcapturing]
    · by_cases hid : id' = id
      · rw [hid, hself, SDKSlotManager.capturingActive_iff.mpr ⟨slot, hslot, hcapturing⟩]
      · exact hactive id' hid
  · right
    refine ⟨⟨id, slot.channels.filter (·.1 ≠ "base"), .connecting⟩, ?_, rfl, rfl, hdealers,
      hrunning, hself, ⟨fun hne => ⟨slot, hslot, hne⟩, ?_⟩, hactive⟩
    · unfold newDealer
      rw [hslot]
      simp [hcapturing]
    · rintro ⟨slot', hslot', hne⟩
      obtain rfl := Option.some.inj (hslot.symm.trans hslot')
      exact hne

theorem stopCapture_cases (hcoherent : s.threads.mgr.Coherent) {id : String}
    {types : List DataType}
    (h : DealerThreads.step s.threads (.stopCapture id types) = some th) :
    th.dealers = s.threads.dealers ∧ th.mgr.running = s.threads.mgr.running ∧
      ∀ id', th.mgr.capturingActive id' = true →
        s.threads.mgr.capturingActive id' = true := by
  -- `stop_capture` makes no loop condition true.
  obtain ⟨-, rfl⟩ | ⟨slot, hslot, hdealers, hrunning, -, hself, hne, -⟩ := step_stopCapture h
  · exact ⟨rfl, rfl, fun id' hid => hid⟩
  refine ⟨hdealers, hrunning, fun id' hactive => ?_⟩
  by_cases hid : id' = id
  · rw [hid] at hactive ⊢
    obtain ⟨slot', hslot', hcapturing⟩ := SDKSlotManager.capturingActive_iff.mp hactive
    obtain rfl := Option.some.inj (hself.symm.trans hslot')
    have hcount := ((hcoherent id slot hslot).stopCapture_eq types).2.1.mp hcapturing
    refine SDKSlotManager.capturingActive_iff.mpr ⟨slot, hslot, ?_⟩
    exact (hcoherent id slot hslot).capturing_iff.mpr (Int.one_pos.trans hcount)
  · rwa [capturingActive_congr (hne id' hid)] at hactive

theorem capturingActive_mapValues {m : SDKSlotManager} {f : SDKSlot → SDKSlot}
    (hf : ∀ slot, (f slot).capturing = true → slot.capturing = true) {id : String}
    (h : ({ m with slots := m.slots.mapValues fun _ => f } : SDKSlotManager).capturingActive id =
      true) : m.capturingActive id = true := by
  obtain ⟨slot, hslot, hcapturing⟩ := SDKSlotManager.capturingActive_iff.mp h
  change (m.slots.mapValues fun _ => f).lookup id = some slot at hslot
  rw [AList.lookup_mapValues] at hslot
  obtain ⟨old, hold, rfl⟩ := Option.map_eq_some_iff.mp hslot
  exact SDKSlotManager.capturingActive_iff.mpr ⟨old, hold, hf old hcapturing⟩

theorem not_capturingActive_stopAll (m : SDKSlotManager) (id : String) :
    m.stopAll.1.capturingActive id = false := by
  rw [← Bool.not_eq_true, SDKSlotManager.capturingActive_iff]
  rintro ⟨slot, hslot, hcapturing⟩
  change (m.slots.mapValues fun _ slot => slot.stopAll.1).lookup id = some slot at hslot
  rw [AList.lookup_mapValues] at hslot
  obtain ⟨old, -, rfl⟩ := Option.map_eq_some_iff.mp hslot
  cases hcapturing

theorem mainStep_cases (h : mainStep s = some t) :
    t.threads.dealers = s.threads.dealers ∧ t.threads.joining = s.threads.joining ∧
      (∀ id, (t.threads.mgr.slots.lookup id).map SDKSlot.channels =
        (s.threads.mgr.slots.lookup id).map SDKSlot.channels) ∧
      (∀ id slot, t.threads.mgr.slots.lookup id = some slot → ∃ old,
        s.threads.mgr.slots.lookup id = some old ∧
          ∀ k, slot.dealerThread = some k → old.dealerThread = some k) ∧
      (t.main.Past → ∀ id, t.threads.mgr.capturingActive id = true →
        s.main.Past ∧ t.threads.mgr.running = s.threads.mgr.running ∧
          s.threads.mgr.capturingActive id = true) := by
  obtain ⟨threads, main⟩ := s
  cases main with
  | serving =>
    obtain rfl := Option.some.inj h
    exact ⟨rfl, rfl, fun id => rfl, fun id slot hslot => ⟨slot, hslot, fun k hk => hk⟩, False.elim⟩
  | stopping =>
    obtain rfl := Option.some.inj h
    refine ⟨rfl, rfl, channels_mapValues (f := fun slot => slot.stopAll.1) fun _ => rfl,
      fun id slot hslot => ?_, fun _ id hactive => ?_⟩
    · change (threads.mgr.slots.mapValues fun _ slot => slot.stopAll.1).lookup id = _ at hslot
      rw [AList.lookup_mapValues] at hslot
      obtain ⟨old, hold, rfl⟩ := Option.map_eq_some_iff.mp hslot
      refine ⟨old, hold, fun k hk => ?_⟩
      cases hk
    · exact absurd (hactive.symm.trans (not_capturingActive_stopAll _ _)) Bool.noConfusion
  | joining ks =>
    cases ks with
    | nil =>
      obtain rfl := Option.some.inj h
      refine ⟨rfl, rfl, channels_mapValues (f := SDKSlot.shutDown) fun _ => rfl,
        fun id slot hslot => ?_, fun _ id hactive => ⟨trivial, rfl, ?_⟩⟩
      swap
      · exact capturingActive_mapValues (f := SDKSlot.shutDown) (fun _ hc => hc) hactive
      change (threads.mgr.slots.mapValues fun _ slot => slot.shutDown).lookup id = _ at hslot
      rw [AList.lookup_mapValues] at hslot
      obtain ⟨old, hold, rfl⟩ := Option.map_eq_some_iff.mp hslot
      exact ⟨old, hold, fun k hk => hk⟩
    | cons k ks =>
      obtain rfl := Option.some.inj (Option.ite_none_right_eq_some.mp h).2
      exact ⟨rfl, rfl, fun id => rfl, fun id slot hslot => ⟨slot, hslot, fun k hk => hk⟩,
        fun _ id hactive => ⟨trivial, rfl, hactive⟩⟩
  | destroying =>
    obtain rfl := Option.some.inj (Option.ite_none_right_eq_some.mp h).2
    exact ⟨rfl, rfl, fun id => rfl, fun id slot hslot => ⟨slot, hslot, fun k hk => hk⟩,
      fun _ id hactive => ⟨trivial, rfl, hactive⟩⟩
  | destroyed => cases h

theorem inv_init {m : SDKSlotManager} (hm : m.Configured) : Inv (State.init m) where
  owned := ⟨[], owned_init hm⟩
  wired := fun d hd => absurd hd List.not_mem_nil
  camera := by
    intro id slot k hslot hk
    obtain ⟨cfg, rfl⟩ := hm.slots id slot hslot
    cases hk
  running := False.elim

theorem Inv.thread (hs : Inv s) {a : DealerThreads.Action}
    (h : DealerThreads.step s.threads a = some th)
    (hchannels : ∀ id, (th.mgr.slots.lookup id).map SDKSlot.channels =
      (s.threads.mgr.slots.lookup id).map SDKSlot.channels)
    (hdealers : ∀ d ∈ th.dealers, d.MayLoop →
      (∃ e ∈ s.threads.dealers, e.MayLoop ∧ e.cameraId = d.cameraId) ∨
        Wired s.threads.mgr d.cameraId)
    (hcamera : ∀ id slot k, th.mgr.slots.lookup id = some slot → slot.dealerThread = some k →
      ∃ d, th.dealers[k]? = some d ∧ d.cameraId = id)
    (hrunning : s.main.Past → ∀ id, th.mgr.capturingActive id = true → th.mgr.running = true) :
    Inv { s with threads := th } where
  owned :=
    let ⟨joined, howned⟩ := hs.owned
    ⟨_, howned.step (step_thread.mpr ⟨th, h, rfl⟩)⟩
  wired := by
    intro d hd hmay
    refine Wired.of_channels ?_ (hchannels d.cameraId)
    rcases hdealers d hd hmay with ⟨e, he, hemay, hcamera⟩ | hwired
    · exact hcamera ▸ hs.wired e he hemay
    · exact hwired
  camera := hcamera
  running := hrunning

theorem Inv.startCapture (hs : Inv s) {id : String} {types : List DataType}
    (h : DealerThreads.step s.threads (.startCapture id types) = some th) :
    Inv { s with threads := th } := by
  have hmgr : th.mgr = (s.threads.mgr.startCapture id types).1 := by rw [← Option.some.inj h]
  obtain ⟨joined, howned⟩ := hs.owned
  have hcases := startCapture_cases h
  refine hs.thread h (fun id' => hmgr ▸ channels_startCapture _ id types id') ?_ ?_ ?_
  · intro d hd hmay
    rcases hcases with ⟨-, hdealers, -⟩ | ⟨new, -, hcamera, hpc, hdealers, -, -, hwired, -⟩
    · exact .inl ⟨d, hdealers ▸ hd, hmay, rfl⟩
    · rw [hdealers, List.mem_append, List.mem_singleton] at hd
      rcases hd with hd | rfl
      · exact .inl ⟨d, hd, hmay, rfl⟩
      · right
        unfold Dealer.MayLoop at hmay
        rw [hpc] at hmay
        exact hcamera ▸ hwired.mp hmay
  · intro id' slot' k hslot' hk
    obtain ⟨-, rfl⟩ | ⟨slot, hslot, -, hself, hne, hcase⟩ := step_startCapture h
    · exact hs.camera id' slot' k hslot' hk
    by_cases hid : id' = id
    · rw [hid] at hslot' ⊢
      obtain rfl := Option.some.inj (hself.symm.trans hslot')
      rw [SDKSlot.startCapture_dealerThread] at hk
      rcases hcase with ⟨hcapturing, hdealers, -⟩ | ⟨hcapturing, hdealers, -⟩
      · rw [hcapturing, if_pos rfl] at hk
        rw [hdealers]
        exact hs.camera id slot k hslot hk
      · rw [hcapturing, if_neg Bool.false_ne_true, howned.spawned] at hk
        obtain rfl := Option.some.inj hk
        rw [hdealers]
        exact ⟨_, List.getElem?_concat_length, rfl⟩
    · obtain ⟨d, hd, hcamera⟩ := hs.camera id' slot' k (hne id' hid ▸ hslot') hk
      refine ⟨d, ?_, hcamera⟩
      rcases hcase with ⟨-, hdealers, -⟩ | ⟨-, hdealers, -⟩
      · rwa [hdealers]
      · rwa [hdealers, List.getElem?_append_left (List.getElem?_eq_some_iff.mp hd).1]
  · intro hpast id' hactive
    rcases hcases with ⟨-, -, hrunning, hsame⟩ | ⟨-, -, -, -, -, hrunning, -⟩
    · exact hrunning.trans (hs.running hpast id' (hsame id' ▸ hactive))
    · exact hrunning

theorem Inv.stopCapture (hs : Inv s) {id : String} {types : List DataType}
    (h : DealerThreads.step s.threads (.stopCapture id types) = some th) :
    Inv { s with threads := th } := by
  have hmgr : th.mgr = (s.threads.mgr.stopCapture id types).1 := by rw [← Option.some.inj h]
  obtain ⟨joined, howned⟩ := hs.owned
  obtain ⟨hdealers, hrunning, hactive⟩ := stopCapture_cases howned.coherent h
  refine hs.thread h (fun id' => hmgr ▸ channels_stopCapture _ id types id')
    (fun d hd hmay => .inl ⟨d, hdealers ▸ hd, hmay, rfl⟩) ?_
    (fun hpast id' hid => hrunning.trans (hs.running hpast id' (hactive id' hid)))
  intro id' slot' k hslot' hk
  rw [hdealers]
  obtain ⟨-, rfl⟩ | ⟨slot, hslot, -, -, -, hself, hne, -⟩ := step_stopCapture h
  · exact hs.camera id' slot' k hslot' hk
  by_cases hid : id' = id
  · rw [hid] at hslot' ⊢
    obtain rfl := Option.some.inj (hself.symm.trans hslot')
    obtain ⟨-, -, hdealer, -⟩ := (howned.coherent id slot hslot).stopCapture_eq types
    rw [hdealer, Option.ite_none_right_eq_some] at hk
    exact hs.camera id slot k hslot hk.2
  · exact hs.camera id' slot' k (hne id' hid ▸ hslot') hk

theorem Inv.dealer (hs : Inv s) {subs : List (String × String)}
    (h : DealerThreads.step s.threads (.dealer k subs) = some th) :
    Inv { s with threads := th } := by
  have hstep := step_dealer.mp h
  obtain ⟨d, pc, hd, hpc, rfl⟩ := hstep
  refine hs.thread h (fun id => rfl) ?_ ?_ hs.running
  · intro e he hmay
    obtain ⟨j, hj⟩ := List.getElem?_of_mem he
    obtain ⟨old, hold, rfl | ⟨rfl, rfl⟩⟩ := getElem?_setPc_cases hj
    · exact .inl ⟨e, List.mem_of_getElem? hold, hmay, rfl⟩
    · obtain rfl := Option.some.inj (hd.symm.trans hold)
      exact .inl ⟨d, List.mem_of_getElem? hd, .of_next hpc hmay, rfl⟩
  · intro id slot j hslot hj
    obtain ⟨e, he, hcamera⟩ := hs.camera id slot j hslot hj
    rw [getElem?_setPc, he]
    split_ifs
    · exact ⟨_, rfl, hcamera⟩
    · exact ⟨e, rfl, hcamera⟩

theorem Inv.main (hs : Inv s) (h : mainStep s = some t) : Inv t := by
  obtain ⟨hdealers, -, hchannels, hslots, hactive⟩ := mainStep_cases h
  refine ⟨?_, ?_, ?_, ?_⟩
  · obtain ⟨joined, howned⟩ := hs.owned
    exact ⟨_, howned.main h⟩
  · intro d hd hmay
    exact (hs.wired d (hdealers ▸ hd) hmay).of_channels (hchannels d.cameraId)
  · intro id slot k hslot hk
    obtain ⟨old, hold, hthread⟩ := hslots id slot hslot
    rw [hdealers]
    exact hs.camera id old k hold (hthread k hk)
  · intro hpast id hid
    obtain ⟨hpast', hrunning, hid'⟩ := hactive hpast id hid
    exact hrunning.trans (hs.running hpast' id hid')

theorem Inv.step (hs : Inv s) (h : step s a = some t) : Inv t := by
  cases a with
  | thread a =>
    obtain ⟨th, hth, rfl⟩ := step_thread.mp h
    cases a with
    | startCapture id types => exact hs.startCapture hth
    | stopCapture id types => exact hs.stopCapture hth
    | join k =>
      have hstep := step_join.mp hth
      obtain ⟨-, -, rfl⟩ := hstep
      exact hs.thread hth (fun id => rfl) (fun d hd hmay => .inl ⟨d, hd, hmay, rfl⟩) hs.camera
        hs.running
    | dealer k subs => exact hs.dealer hth
  | main => exact hs.main h

theorem Inv.loopCondition_eq (hs : Inv s) (hpast : s.main.Past) (id : String) :
    s.threads.loopCondition id = s.threads.mgr.capturingActive id := by
  -- After the first section, `running_` stops nobody whose camera is capturing.
  unfold DealerThreads.State.loopCondition
  rcases hactive : s.threads.mgr.capturingActive id with _ | _
  · exact Bool.and_false _
  · rw [hs.running hpast id hactive, Bool.and_true]

end

end StereoCamera.Shutdown
