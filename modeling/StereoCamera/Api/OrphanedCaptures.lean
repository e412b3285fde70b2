import Mathlib.Data.Finset.Card
import StereoCamera.Api.Subscriptions

/-! Captures that outlive their clients. As long as each client holds at most one count of
the slot and gives it back with all its types, nothing is left running when all are gone. -/

namespace StereoCamera
open Transition

namespace CameraSDKClient
variable (c : CameraSDKClient)

theorem outstanding_post_startCapture (names : List String) :
    (c.post (.startCapture names)).outstanding = c.outstanding ++ names := by
  simp only [outstanding, post, List.foldl_append, List.foldl_cons, List.foldl_nil]

theorem outstanding_post_stopCapture (names : List String) :
    (c.post (.stopCapture names)).outstanding = c.outstanding.filter (· ∉ names) := by
  simp only [outstanding, post, List.foldl_append, List.foldl_cons, List.foldl_nil]

theorem outstanding_post_connect : (c.post .connect).outstanding = c.outstanding := by
  simp only [outstanding, post, List.foldl_append, List.foldl_cons, List.foldl_nil]

theorem outstanding_deactivate (names : List String) :
    (names.foldl (fun c name => c.post (.deactivateChannel name)) c).outstanding =
      c.outstanding := by
  rw [foldl_deactivate]
  simp only [outstanding, List.foldl_append, List.foldl_map]
  exact List.foldl_fixed names

end CameraSDKClient

namespace SDKSlot
variable {slot : SDKSlot} {types : List DataType} {thread : ℕ} {name : String}

theorem mem_newTypeNames {merged : List DataType} (h : name ∈ newTypeNames merged types) :
    ∃ t ∈ types, dataTypeToChannel t = name := by
  obtain ⟨t, ht, hname⟩ := List.mem_map.mp h
  exact ⟨t, List.mem_of_mem_filter ht, hname⟩

theorem mem_outstanding_startCapture
    (h : name ∈ (slot.startCapture types thread).client.outstanding) :
    name ∈ slot.client.outstanding ∨ ∃ t ∈ types, dataTypeToChannel t = name := by
  unfold startCapture at h
  dsimp only at h
  split_ifs at h
  · exact .inl h
  · rw [CameraSDKClient.outstanding_post_startCapture, CameraSDKClient.outstanding_post_connect,
      List.mem_append] at h
    exact h.imp_right mem_newTypeNames
  · exact .inl h
  · rw [CameraSDKClient.outstanding_post_startCapture, List.mem_append] at h
    exact h.imp_right mem_newTypeNames

theorem mem_outstanding_stopCapture (hc : slot.capturing = true)
    (h : name ∈ (slot.stopCapture types).1.client.outstanding) :
    name ∈ slot.client.outstanding ∧ ∀ t ∈ types, dataTypeToChannel t ≠ name := by
  rw [stopCapture_client, hc, Bool.and_true] at h
  split_ifs at h with hnames
  · rw [CameraSDKClient.outstanding_deactivate, CameraSDKClient.outstanding_post_stopCapture,
      List.mem_filter, decide_eq_true_eq] at h
    refine ⟨h.1, fun t ht htn => h.2 ?_⟩
    exact htn ▸ List.mem_map_of_mem ht
  · rw [Bool.not_eq_true, Bool.not_eq_false', List.isEmpty_iff, typesToTypeNames,
      List.map_eq_nil_iff] at hnames
    exact ⟨h, fun t ht => absurd hnames (List.ne_nil_of_mem ht)⟩

theorem stopCapture_client_of_not_capturing (hc : slot.capturing = false) :
    (slot.stopCapture types).1.client = slot.client := by
  rw [stopCapture_client, hc, Bool.and_false, if_neg Bool.false_ne_true]

end SDKSlot

namespace ClientHandler

/-- The slot's counter is the number of clients with active types, and the slot and the SDK
hold no type that no client has active. -/
structure Accounted (active : String → List DataType) (slot : SDKSlot) : Prop where
  holders : ∃ H : Finset String, (∀ c, c ∈ H ↔ active c ≠ []) ∧ slot.subscriberCount = H.card
  types : ∀ t ∈ slot.activeTypes, ∃ c, t ∈ active c
  requested : ∀ name ∈ slot.client.outstanding,
    ∃ c, ∃ t ∈ active c, dataTypeToChannel t = name

section
variable {active active' : String → List DataType} {slot : SDKSlot} {c : String}
  {types : List DataType}

theorem Accounted.start (h : Accounted active slot) (hnone : active c = []) (hne : types ≠ [])
    (hself : active' c = addTypes (active c) types) (hrest : ∀ c', c' ≠ c → active' c' = active c')
    (thread : ℕ) : Accounted active' (slot.startCapture types thread) := by
  have hmem : ∀ t ∈ types, t ∈ active' c := fun t ht => hself ▸ mem_addTypes.mpr (.inr ht)
  have hkeep : ∀ c' t, t ∈ active c' → t ∈ active' c' := by
    intro c' t ht
    by_cases hc : c' = c
    · rw [hc, hnone] at ht
      exact absurd ht List.not_mem_nil
    · rwa [hrest c' hc]
  obtain ⟨H, hH, hcount⟩ := h.holders
  refine ⟨⟨insert c H, fun c' => ?_, ?_⟩, fun t ht => ?_, fun name hname => ?_⟩
  · rw [Finset.mem_insert, hH]
    by_cases hc : c' = c
    · obtain ⟨t, ht⟩ := List.exists_mem_of_ne_nil types hne
      exact iff_of_true (.inl hc) (hc ▸ List.ne_nil_of_mem (hmem t ht))
    · rw [hrest c' hc, or_iff_right hc]
  · -- `c` held nothing before, so it is counted once.
    have hout : c ∉ H := fun hc => (hH c).mp hc hnone
    rw [SDKSlot.startCapture_subscriberCount, hcount, Finset.card_insert_of_notMem hout,
      Nat.cast_add_one]
  · rw [SDKSlot.startCapture_activeTypes, mem_addTypes] at ht
    rcases ht with ht | ht
    · obtain ⟨c', ht'⟩ := h.types t ht
      exact ⟨c', hkeep c' t ht'⟩
    · exact ⟨c, hmem t ht⟩
  · rcases SDKSlot.mem_outstanding_startCapture hname with hold | ⟨t, ht, hname⟩
    · obtain ⟨c', t, ht, hname⟩ := h.requested name hold
      exact ⟨c', t, hkeep c' t ht, hname⟩
    · exact ⟨c, t, hmem t ht, hname⟩

theorem Accounted.release (h : Accounted active slot) (hcoh : slot.Coherent)
    (hholds : active c ≠ []) (hall : ∀ t ∈ active c, t ∈ types) (hself : active' c = [])
    (hrest : ∀ c', c' ≠ c → active' c' = active c') :
    Accounted active' (slot.stopCapture types).1 := by
  have hkeep : ∀ c' t, t ∈ active c' → t ∉ types → t ∈ active' c' := by
    intro c' t ht hnot
    by_cases hc : c' = c
    · exact absurd (hall t (hc ▸ ht)) hnot
    · rwa [hrest c' hc]
  obtain ⟨H, hH, hcount⟩ := h.holders
  have hin : c ∈ H := (hH c).mpr hholds
  have hpos : 0 < H.card := Finset.card_pos.mpr ⟨c, hin⟩
  refine ⟨⟨H.erase c, fun c' => ?_, ?_⟩, fun t ht => ?_, fun name hname => ?_⟩
  · rw [Finset.mem_erase, hH]
    by_cases hc : c' = c
    · rw [hc]
      exact iff_of_false (fun h => h.1 rfl) fun h => h hself
    · rw [hrest c' hc, and_iff_right hc]
  · rw [(hcoh.stopCapture_eq types).1, hcount, Finset.card_erase_of_mem hin]
    omega
  · rw [SDKSlot.stopCapture_activeTypes, mem_eraseAll] at ht
    obtain ⟨c', ht'⟩ := h.types t ht.1
    exact ⟨c', hkeep c' t ht' ht.2⟩
  · -- While somebody holds the slot it captures, so the stop sends what it removes.
    have hcap : slot.capturing = true := by
      rw [hcoh.capturing_iff, hcount]
      exact_mod_cast hpos
    obtain ⟨hold, hnot⟩ := SDKSlot.mem_outstanding_stopCapture hcap hname
    obtain ⟨c', t, ht, htn⟩ := h.requested name hold
    exact ⟨c', t, hkeep c' t ht fun htypes => hnot t htypes htn, htn⟩

theorem Accounted.stop_idle (h : Accounted active slot) (hcoh : slot.Coherent)
    (hcount : slot.subscriberCount = 0) : Accounted active (slot.stopCapture types).1 := by
  refine ⟨?_, fun t ht => ?_, ?_⟩
  · rw [(hcoh.stopCapture_eq types).1, hcount, max_eq_right (by decide), ← hcount]
    exact h.holders
  · rw [SDKSlot.stopCapture_activeTypes, mem_eraseAll] at ht
    exact h.types t ht.1
  · rw [SDKSlot.stopCapture_client_of_not_capturing]
    · exact h.requested
    · rw [← Bool.not_eq_true, hcoh.capturing_iff, hcount]
      exact Int.lt_irrefl 0

theorem Accounted.congr (h : Accounted active slot) (heq : ∀ c, active' c = active c) :
    Accounted active' slot :=
  (funext heq : active' = active) ▸ h

end

/-- With no session connected, every slot is at rest and the SDK has been asked to stop all
that it was asked to start. -/
def NothingOrphaned (h : ClientHandler) : Prop :=
  (∀ e ∈ h.sessions.entries, e.2.connected = false) →
    ∀ id slot, h.slotAt id = some slot → slot.subscriberCount = 0 ∧ slot.capturing = false ∧
      slot.activeTypes = [] ∧ slot.dealerThread = none ∧ slot.client.outstanding = []

/-- A client starts only with no types active; it stops all its types at once, or it has
none and nobody subscribes. A disconnect releases the types of a camera with an id. -/
def Balanced (h : ClientHandler) (cmd : Command) : Prop :=
  ∀ slot, h.captureSlot = some slot →
    match cmd with
    | .connect _ => True
    | .disconnect c => h.activeOf c ≠ [] → h.captureCamera ≠ ""
    | .startCapture c _ => h.activeOf c = []
    | .stopCapture c types => h.Connected c →
      (∀ t ∈ h.activeOf c, t ∈ captureTypes types) ∧
        (h.activeOf c = [] → slot.subscriberCount = 0)

structure AllAccounted (h : ClientHandler) : Prop where
  ready : Ready h
  slot : ∀ slot, h.captureSlot = some slot → Accounted h.activeOf slot
  others : ∀ id slot, id ≠ h.captureCamera → h.slotAt id = some slot →
    ∃ cfg, slot = .configured cfg

theorem allAccounted_init {m : SDKSlotManager} (hm : m.Configured) :
    AllAccounted (mk'.setSdkManager m) where
  ready := ready_init hm.coherent
  slot := by
    intro slot hslot
    obtain ⟨cfg, rfl⟩ := hm.slots _ slot hslot
    refine ⟨⟨∅, fun c => ?_, rfl⟩, fun t ht => ?_, fun name hname => ?_⟩
    · refine iff_of_false (Finset.notMem_empty c) fun hc => hc ?_
      exact activeOf_of_not_connected (by rw [connectedSession]; rfl)
    · exact absurd ht List.not_mem_nil
    · exact absurd hname List.not_mem_nil
  others := fun id slot _ hslot => hm.slots id slot hslot

section
variable {h h' : ClientHandler} {cmd : Command}

theorem Effect.accounted (he : Effect h cmd h') (hb : Balanced h cmd) {slot : SDKSlot}
    (hslot : h.captureSlot = some slot) (hcoh : slot.Coherent)
    (hacc : Accounted h.activeOf slot) (thread : ℕ) :
    Accounted h'.activeOf (slot.call thread (h.slotCall cmd)) := by
  replace hb := hb slot hslot
  have hact := he.active
  cases cmd with
  | connect c => exact hacc.congr hact
  | disconnect c =>
    rw [slotCall]
    by_cases hne : h.activeOf c = []
    · rw [if_neg fun h => h.1 hne]
      refine hacc.congr fun c' => ?_
      rw [hact, activeAfter]
      split_ifs with hc
      · rw [hc, hne]
      · rfl
    · rw [if_pos ⟨hne, hb hne⟩]
      refine hacc.release hcoh hne (fun t ht => ht) ?_ fun c' hc => ?_
      · rw [hact, activeAfter, if_pos rfl]
      · rw [hact, activeAfter, if_neg hc]
  | startCapture c types =>
    rw [slotCall]
    split_ifs with hin
    · refine hacc.start hb (captureTypes_ne_nil types) ?_ (fun c' hc => ?_) thread
      · rw [hact, activeAfter, if_pos ⟨rfl, hin⟩]
      · rw [hact, activeAfter, if_neg fun h => hc h.1]
    · refine hacc.congr fun c' => ?_
      rw [hact, activeAfter, if_neg fun h => hin h.2]
  | stopCapture c types =>
    have hself : (∀ t ∈ h.activeOf c, t ∈ captureTypes types) → h'.activeOf c = [] := by
      intro hall
      rw [hact, activeAfter, if_pos rfl, List.eq_nil_iff_forall_not_mem]
      exact fun t ht => (mem_eraseAll.mp ht).2 (hall t (mem_eraseAll.mp ht).1)
    have hrest : ∀ c', c' ≠ c → h'.activeOf c' = h.activeOf c' := by
      intro c' hc
      rw [hact, activeAfter, if_neg hc]
    have hsame : h.activeOf c = [] → ∀ c', h'.activeOf c' = h.activeOf c' := by
      intro hnil c'
      by_cases hc : c' = c
      · rw [hc, hnil, hself fun t ht => absurd (hnil ▸ ht) List.not_mem_nil]
      · exact hrest c' hc
    rw [slotCall]
    split_ifs with hin
    · by_cases hnil : h.activeOf c = []
      · exact (hacc.stop_idle hcoh ((hb hin).2 hnil)).congr (hsame hnil)
      · exact hacc.release hcoh hnil (hb hin).1 (hself (hb hin).1) hrest
    · refine hacc.congr (hsame (activeOf_of_not_connected ?_))
      rwa [Connected, Bool.not_eq_true, Option.isSome_eq_false_iff, Option.isNone_iff_eq_none]
        at hin

theorem AllAccounted.step (ha : AllAccounted h) (hb : Balanced h cmd)
    (hstep : step h cmd = some h') : AllAccounted h' := by
  obtain rfl := Option.some.inj hstep
  have he := effect ha.ready cmd
  obtain ⟨thread, hslot'⟩ := he.slot
  refine ⟨he.ready, fun slot' h' => ?_, fun id slot hid hslot => ?_⟩
  · rw [hslot'] at h'
    obtain ⟨slot, hslot, rfl⟩ := Option.map_eq_some_iff.mp h'
    exact he.accounted hb hslot (ha.ready.coherent_captureSlot hslot) (ha.slot slot hslot) thread
  · rw [he.captureCamera] at hid
    rw [he.others id hid] at hslot
    exact ha.others id slot hid hslot

theorem activeOf_of_none_connected (hnone : ∀ e ∈ h.sessions.entries, e.2.connected = false)
    (c : String) : h.activeOf c = [] := by
  rcases hs : h.connectedSession c with _ | s
  · exact activeOf_of_not_connected hs
  · obtain ⟨hlook, hconn⟩ := connectedSession_eq_some.mp hs
    have hentry := AList.mem_lookup_iff.mp hlook
    exact absurd ((hnone _ hentry).symm.trans hconn) Bool.false_ne_true

theorem Accounted.at_rest {active : String → List DataType} {slot : SDKSlot}
    (hacc : Accounted active slot) (hcoh : slot.Coherent) (hnone : ∀ c, active c = []) :
    slot.subscriberCount = 0 ∧ slot.capturing = false ∧ slot.activeTypes = [] ∧
      slot.dealerThread = none ∧ slot.client.outstanding = [] := by
  have hno : ∀ c t, t ∉ active c := fun c t => hnone c ▸ List.not_mem_nil
  obtain ⟨H, hH, hcount⟩ := hacc.holders
  obtain rfl : H = ∅ := Finset.eq_empty_of_forall_notMem fun c hc => (hH c).mp hc (hnone c)
  rw [Finset.card_empty, Nat.cast_zero] at hcount
  have hcap : slot.capturing = false := by
    rw [← Bool.not_eq_true, hcoh.capturing_iff, hcount]
    exact Int.lt_irrefl 0
  refine ⟨hcount, hcap, ?_, ?_, ?_⟩
  · refine List.eq_nil_iff_forall_not_mem.mpr fun t ht => ?_
    obtain ⟨c, ht⟩ := hacc.types t ht
    exact hno c t ht
  · rw [← Option.isNone_iff_eq_none, ← Option.not_isSome, hcoh.owns_dealer, hcap]
    rfl
  · refine List.eq_nil_iff_forall_not_mem.mpr fun name hname => ?_
    obtain ⟨c, t, ht, -⟩ := hacc.requested name hname
    exact hno c t ht

theorem AllAccounted.nothingOrphaned (ha : AllAccounted h) : NothingOrphaned h := by
  intro hnone id slot hslot
  by_cases hid : id = h.captureCamera
  · subst hid
    exact (ha.slot slot hslot).at_rest (ha.ready.coherent_captureSlot hslot)
      (activeOf_of_none_connected hnone)
  · obtain ⟨cfg, rfl⟩ := ha.others id slot hid hslot
    exact ⟨rfl, rfl, rfl, rfl, rfl⟩

end

/-- A run of balanced commands leaves nothing running when nobody is connected. -/
theorem nothingOrphaned_of_balanced {m : SDKSlotManager} (hm : m.Configured)
    {cmds : List Command} (hb : Guarded step Balanced (mk'.setSdkManager m) cmds)
    {h : ClientHandler} (hrun : run step (mk'.setSdkManager m) cmds = some h) :
    NothingOrphaned h :=
  (hb.invariant (fun _ _ _ ha hb => ha.step hb) (allAccounted_init hm) hrun).nothingOrphaned

/-- One client stops its type before it leaves, the other leaves with two. -/
def stopAndLeave : List Command :=
  [.connect "a", .connect "b", .startCapture "a" [.imu], .startCapture "b" [.depthMap, .imu],
    .stopCapture "a" [.imu], .disconnect "b", .disconnect "a"]

theorem nothingOrphaned_stopAndLeave :
    ∃ h, run step (mk'.setSdkManager oneCamera) stopAndLeave = some h ∧
      (∀ e ∈ h.sessions.entries, e.2.connected = false) ∧ NothingOrphaned h := by
  have hb : Guarded step Balanced (mk'.setSdkManager oneCamera) stopAndLeave := by
    refine .cons (fun _ _ => trivial) rfl ?_
    refine .cons (fun _ _ => trivial) rfl ?_
    refine .cons (fun _ _ => rfl) rfl ?_
    refine .cons (fun _ _ => rfl) rfl ?_
    refine .cons (fun _ _ _ => ⟨by decide, fun hnone => absurd hnone (by decide)⟩) rfl ?_
    refine .cons (fun _ _ _ => by decide) rfl ?_
    exact .cons (fun _ _ hactive => absurd rfl hactive) rfl trivial
  exact ⟨_, rfl, by decide, nothingOrphaned_of_balanced configured_oneCamera hb rfl⟩

/-- A client starts a second time before it leaves. -/
def startTwiceAndLeave : List Command :=
  [.connect "a", .startCapture "a" [.imu], .startCapture "a" [.imu], .disconnect "a"]

theorem second_start_orphans_capture :
    ∃ h, run step (mk'.setSdkManager oneCamera) startTwiceAndLeave = some h ∧
      (∀ e ∈ h.sessions.entries, e.2.connected = false) ∧
      (h.slotAt "cam1").map (fun slot => (slot.subscriberCount, slot.capturing)) =
        some (1, true) ∧ ¬NothingOrphaned h := by
  refine ⟨_, rfl, by decide, rfl, fun h => ?_⟩
  exact absurd (h (by decide) "cam1" _ rfl).1 (by decide)

end ClientHandler

end StereoCamera
