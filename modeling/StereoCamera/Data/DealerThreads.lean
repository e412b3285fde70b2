import StereoCamera.Lib.Transition
import StereoCamera.Data.SDKSlotManager

/-! The dealer threads that `start_capture` creates and `stop_capture` joins. Each section
under `mutex_`, each join and each evaluation of a dealer's loop condition is one step. -/

namespace StereoCamera.DealerThreads
open Transition

/-- Where `dealer_loop` stands: connecting its sockets, before its loop condition, in the
loop's body, or returned. -/
inductive DealerPc
  | connecting
  | atCondition
  | receiving
  | returned
  deriving DecidableEq

structure Dealer where
  cameraId : String
  channels : List (String × String)
  pc : DealerPc

structure State where
  mgr : SDKSlotManager
  /-- Thread `k` is the `k`-th one created. -/
  dealers : List Dealer
  /-- The threads that a `stop_capture` has taken over and not joined yet. -/
  joining : List ℕ

inductive Action
  | startCapture (cameraId : String) (types : List DataType)
  | stopCapture (cameraId : String) (types : List DataType)
  | join (k : ℕ)
  /-- Dealer `k` takes a step; `subs` are the sockets whose `zmq_connect` succeeds, if it is
  connecting them. -/
  | dealer (k : ℕ) (subs : List (String × String))

/-- `running_ && capturing_active(camera_id)` -/
def State.loopCondition (s : State) (cameraId : String) : Bool :=
  s.mgr.running && s.mgr.capturingActive cameraId

def State.setPc (s : State) (k : ℕ) (pc : DealerPc) : State :=
  { s with dealers := s.dealers.modify k fun d => { d with pc := pc } }

def newDealer (m : SDKSlotManager) (cameraId : String) : Option Dealer :=
  match m.slots.lookup cameraId with
  | none => none
  | some slot =>
    if slot.capturing then none
    else some ⟨cameraId, slot.channels.filter (·.1 ≠ "base"), .connecting⟩

def Dealer.next (loopCondition : Bool) (subs : List (String × String)) (d : Dealer) :
    Option DealerPc :=
  match d.pc with
  | .connecting =>
    if subs ⊆ d.channels then some (if subs.isEmpty then .returned else .atCondition) else none
  | .atCondition => some (if loopCondition then .receiving else .returned)
  | .receiving => some .atCondition
  | .returned => none

def step (s : State) : Action → Option State
  | .startCapture cameraId types =>
    some { s with
      mgr := (s.mgr.startCapture cameraId types).1
      dealers := s.dealers ++ (newDealer s.mgr cameraId).toList }
  | .stopCapture cameraId types =>
    some { s with
      mgr := (s.mgr.stopCapture cameraId types).1
      joining := s.joining ++ (s.mgr.stopCapture cameraId types).2.2.toList }
  | .join k =>
    if k ∈ s.joining ∧ (s.dealers[k]?).map Dealer.pc = some .returned then
      some { s with joining := s.joining.erase k }
    else none
  | .dealer k subs =>
    (s.dealers[k]?).bind fun d =>
      (d.next (s.loopCondition d.cameraId) subs).map (s.setPc k)

def State.init (m : SDKSlotManager) : State := ⟨m, [], []⟩

/-- The dealer has sockets to receive from and has not left its loop. -/
def Dealer.MayLoop (d : Dealer) : Prop :=
  match d.pc with
  | .connecting => d.channels ≠ []
  | .atCondition | .receiving => True
  | .returned => False

def State.CanReceive (s : State) (d : Dealer) : Prop :=
  d.pc = .receiving ∨ d.MayLoop ∧ s.loopCondition d.cameraId = true

/-- One dealer for each camera, and a dealer that is being joined will leave its loop. -/
structure OneDealer (s : State) : Prop where
  unique : ∀ (i j : ℕ) (d e : Dealer), s.dealers[i]? = some d → s.dealers[j]? = some e →
    d.cameraId = e.cameraId → s.CanReceive d → s.CanReceive e → i = j
  stopped : ∀ k ∈ s.joining, ∀ d, s.dealers[k]? = some d → d.MayLoop →
    s.loopCondition d.cameraId = false

/-- Thread `k` is never stuck and returns after at most `n` of its own steps. -/
def ReturnsWithin (k : ℕ) : ℕ → State → Prop
  | 0, s => (s.dealers[k]?).map Dealer.pc = some .returned
  | n + 1, s =>
    (s.dealers[k]?).map Dealer.pc = some .returned ∨
      (∃ subs t, step s (.dealer k subs) = some t) ∧
        ∀ subs t, step s (.dealer k subs) = some t → ReturnsWithin k n t

def DealerPc.stepsLeft : DealerPc → ℕ
  | .connecting | .receiving => 2
  | .atCondition => 1
  | .returned => 0

/-- No `start_capture` restarts a camera while a dealer of the camera, taken over by an
earlier `stop_capture`, has yet to leave its loop. -/
def NoOldDealer (s : State) : Action → Prop
  | .startCapture cameraId _ => s.mgr.capturingActive cameraId = false →
    ∀ d ∈ s.dealers, d.cameraId = cameraId → ¬d.MayLoop
  | _ => True

structure Inv (s : State) : Prop where
  coherent : s.mgr.Coherent
  running : ∀ id slot, s.mgr.slots.lookup id = some slot → slot.capturing = true →
    s.mgr.running = true
  spawned : s.mgr.spawned = s.dealers.length
  owned : ∀ id slot k, s.mgr.slots.lookup id = some slot → slot.dealerThread = some k →
    ∃ d, s.dealers[k]? = some d ∧ d.cameraId = id
  joining : ∀ k ∈ s.joining, k < s.dealers.length
  channels : ∀ d ∈ s.dealers, ∃ slot, s.mgr.slots.lookup d.cameraId = some slot ∧
    d.channels = slot.channels.filter (·.1 ≠ "base")
  connected : ∀ d ∈ s.dealers, d.MayLoop → d.channels ≠ []

section
variable {s t : State} {k : ℕ} {pc : DealerPc} {d : Dealer} {a : Action}

@[simp] theorem setPc_mgr : (s.setPc k pc).mgr = s.mgr := rfl

@[simp] theorem setPc_joining : (s.setPc k pc).joining = s.joining := rfl

@[simp] theorem setPc_loopCondition (id : String) :
    (s.setPc k pc).loopCondition id = s.loopCondition id := rfl

theorem getElem?_setPc (j : ℕ) :
    (s.setPc k pc).dealers[j]? =
      if k = j then (s.dealers[j]?).map fun d => { d with pc := pc } else s.dealers[j]? := by
  unfold State.setPc
  rw [List.getElem?_modify]
  split_ifs <;> simp

theorem getElem?_setPc_self (h : s.dealers[k]? = some d) :
    (s.setPc k pc).dealers[k]? = some { d with pc := pc } := by
  rw [getElem?_setPc, if_pos rfl, h]
  rfl

theorem getElem?_setPc_cases {j : ℕ} {e : Dealer} (he : (s.setPc k pc).dealers[j]? = some e) :
    ∃ d, s.dealers[j]? = some d ∧ (e = d ∨ j = k ∧ e = { d with pc := pc }) := by
  rw [getElem?_setPc] at he
  split_ifs at he with hj
  · obtain ⟨d, hd, rfl⟩ := Option.map_eq_some_iff.mp he
    exact ⟨d, hd, .inr ⟨hj.symm, rfl⟩⟩
  · exact ⟨e, he, .inl rfl⟩

theorem step_dealer {subs : List (String × String)} :
    step s (.dealer k subs) = some t ↔
      ∃ d pc, s.dealers[k]? = some d ∧ d.next (s.loopCondition d.cameraId) subs = some pc ∧
        t = s.setPc k pc := by
  simp only [step, Option.bind_eq_some_iff, Option.map_eq_some_iff]
  constructor
  · rintro ⟨d, hd, pc, hpc, rfl⟩
    exact ⟨d, pc, hd, hpc, rfl⟩
  · rintro ⟨d, pc, hd, hpc, rfl⟩
    exact ⟨d, hd, pc, hpc, rfl⟩

theorem step_join :
    step s (.join k) = some t ↔
      k ∈ s.joining ∧ (s.dealers[k]?).map Dealer.pc = some .returned ∧
        t = { s with joining := s.joining.erase k } := by
  unfold step
  rw [Option.ite_none_right_eq_some, and_assoc, Option.some.injEq, eq_comm (a := t)]

theorem Dealer.MayLoop.of_next {c : Bool} {subs : List (String × String)}
    (h : d.next c subs = some pc) (hpc : ({ d with pc := pc } : Dealer).MayLoop) :
    d.MayLoop := by
  obtain ⟨id, channels, old⟩ := d
  cases old with
  | connecting =>
    -- Sockets were connected, so there was a channel.
    rintro rfl
    simp only [Dealer.next, List.subset_nil, Option.ite_none_right_eq_some] at h
    obtain ⟨rfl, h⟩ := h
    cases h
    exact hpc
  | atCondition => trivial
  | receiving => trivial
  | returned => exact absurd h nofun

theorem Dealer.loopCondition_of_next {c : Bool} {subs : List (String × String)}
    (h : d.next c subs = some .receiving) : c = true := by
  obtain ⟨id, channels, old⟩ := d
  cases old with
  | connecting =>
    simp only [Dealer.next, Option.ite_none_right_eq_some, Option.some.injEq] at h
    obtain ⟨-, h⟩ := h
    split_ifs at h
  | atCondition =>
    by_contra hc
    simp only [Dealer.next, if_neg hc] at h
    cases h
  | receiving => cases h
  | returned => cases h

theorem step_startCapture {id : String} {types : List DataType}
    (h : step s (.startCapture id types) = some t) :
    s.mgr.slots.lookup id = none ∧ t = s ∨
      ∃ slot, s.mgr.slots.lookup id = some slot ∧ t.joining = s.joining ∧
        t.mgr.slots.lookup id = some (slot.startCapture types s.mgr.spawned) ∧
        (∀ id', id' ≠ id → t.mgr.slots.lookup id' = s.mgr.slots.lookup id') ∧
        (slot.capturing = true ∧ t.dealers = s.dealers ∧ t.mgr.running = s.mgr.running ∧
            t.mgr.spawned = s.mgr.spawned ∨
          slot.capturing = false ∧
            t.dealers = s.dealers ++ [⟨id, slot.channels.filter (·.1 ≠ "base"), .connecting⟩] ∧
            t.mgr.running = true ∧ t.mgr.spawned = s.mgr.spawned + 1) := by
  obtain rfl := Option.some.inj h
  rcases hslot : s.mgr.slots.lookup id with _ | slot
  · left
    simp [SDKSlotManager.startCapture_of_lookup_none hslot, newDealer, hslot]
  · right
    refine ⟨slot, rfl, rfl, SDKSlotManager.lookup_startCapture_self hslot,
      fun id' hid => SDKSlotManager.lookup_startCapture_ne hid, ?_⟩
    rcases hc : slot.capturing with _ | _
    · right
      simp [SDKSlotManager.startCapture, newDealer, hslot, hc]
    · left
      simp [SDKSlotManager.startCapture, newDealer, hslot, hc]

theorem step_stopCapture {id : String} {types : List DataType}
    (h : step s (.stopCapture id types) = some t) :
    s.mgr.slots.lookup id = none ∧ t = s ∨
      ∃ slot, s.mgr.slots.lookup id = some slot ∧ t.dealers = s.dealers ∧
        t.mgr.running = s.mgr.running ∧ t.mgr.spawned = s.mgr.spawned ∧
        t.mgr.slots.lookup id = some (slot.stopCapture types).1 ∧
        (∀ id', id' ≠ id → t.mgr.slots.lookup id' = s.mgr.slots.lookup id') ∧
        t.joining = s.joining ++ (slot.stopCapture types).2.toList := by
  obtain rfl := Option.some.inj h
  rcases hslot : s.mgr.slots.lookup id with _ | slot
  · left
    simp [SDKSlotManager.stopCapture_of_lookup_none hslot]
  · right
    refine ⟨slot, rfl, rfl, ?_, ?_, SDKSlotManager.lookup_stopCapture_self hslot,
      fun id' hid => SDKSlotManager.lookup_stopCapture_ne hid, ?_⟩
    all_goals simp [SDKSlotManager.stopCapture, hslot]

theorem inv_init {m : SDKSlotManager} (hm : m.Configured) :
    Inv (State.init m) where
  coherent := hm.coherent
  running := by
    intro id slot h hc
    obtain ⟨cfg, rfl⟩ := hm.slots id slot h
    contradiction
  spawned := hm.spawned
  owned := by
    intro id slot k h hk
    obtain ⟨cfg, rfl⟩ := hm.slots id slot h
    contradiction
  joining := fun k hk => absurd hk List.not_mem_nil
  channels := fun d hd => absurd hd List.not_mem_nil
  connected := fun d hd => absurd hd List.not_mem_nil

theorem Inv.startCapture (hs : Inv s) {id : String} {types : List DataType}
    (h : step s (.startCapture id types) = some t) : Inv t := by
  have hmgr : t.mgr = (s.mgr.startCapture id types).1 := by rw [← Option.some.inj h]
  obtain ⟨-, rfl⟩ | ⟨slot, hslot, hjoining, hself, hne, hcase⟩ := step_startCapture h
  · exact hs
  -- A dealer is created or not; either way the old ones stay in front.
  have hsub : ∃ new, t.dealers = s.dealers ++ new ∧
      ∀ d ∈ new, d.cameraId = id ∧ d.channels = slot.channels.filter (·.1 ≠ "base") ∧
        (d.MayLoop → d.channels ≠ []) := by
    rcases hcase with ⟨-, hd, -⟩ | ⟨-, hd, -⟩
    · exact ⟨[], by rw [hd, List.append_nil], fun d hd => absurd hd List.not_mem_nil⟩
    · refine ⟨_, hd, fun d hd => ?_⟩
      rw [List.mem_singleton.mp hd]
      exact ⟨rfl, rfl, fun h => h⟩
  obtain ⟨new, hnew, hnew'⟩ := hsub
  refine ⟨hmgr ▸ hs.coherent.startCapture id types, ?_, ?_, ?_, ?_, ?_, ?_⟩
  · intro id' slot' h' hc
    rcases hcase with ⟨hcap, -, hrun, -⟩ | ⟨-, -, hrun, -⟩
    · rw [hrun]
      by_cases hid : id' = id
      · exact hs.running id slot hslot hcap
      · exact hs.running id' slot' (hne id' hid ▸ h') hc
    · exact hrun
  · rcases hcase with ⟨-, hd, -, hsp⟩ | ⟨-, hd, -, hsp⟩
    · rw [hsp, hd, hs.spawned]
    · rw [hsp, hd, hs.spawned, List.length_append, List.length_singleton]
  · intro id' slot' k h' hk
    by_cases hid : id' = id
    · subst hid
      obtain rfl := Option.some.inj (hself.symm.trans h')
      rw [SDKSlot.startCapture_dealerThread] at hk
      rcases hcase with ⟨hcap, hd, -⟩ | ⟨hcap, hd, -⟩
      · rw [hcap, if_pos rfl] at hk
        rw [hd]
        exact hs.owned _ slot k hslot hk
      · rw [hcap, if_neg Bool.false_ne_true, hs.spawned] at hk
        obtain rfl := Option.some.inj hk
        exact ⟨_, by rw [hd, List.getElem?_concat_length], rfl⟩
    · obtain ⟨d, hd, hdid⟩ := hs.owned id' slot' k (hne id' hid ▸ h') hk
      refine ⟨d, ?_, hdid⟩
      rw [hnew, List.getElem?_append_left (List.getElem?_eq_some_iff.mp hd).1, hd]
  · intro k hk
    rw [hnew, List.length_append]
    exact Nat.lt_add_right _ (hs.joining k (hjoining ▸ hk))
  · intro d hd
    rw [hnew, List.mem_append] at hd
    have hold : ∃ slot', s.mgr.slots.lookup d.cameraId = some slot' ∧
        d.channels = slot'.channels.filter (·.1 ≠ "base") := by
      rcases hd with hd | hd
      · exact hs.channels d hd
      · exact ⟨slot, (hnew' d hd).1 ▸ hslot, (hnew' d hd).2.1⟩
    obtain ⟨slot', hl, hch⟩ := hold
    by_cases hid : d.cameraId = id
    · rw [hid] at hl ⊢
      obtain rfl := Option.some.inj (hslot.symm.trans hl)
      exact ⟨_, hself, by rw [hch, SDKSlot.startCapture_channels]⟩
    · exact ⟨slot', (hne _ hid).trans hl, hch⟩
  · intro d hd
    rw [hnew, List.mem_append] at hd
    rcases hd with hd | hd
    · exact hs.connected d hd
    · exact (hnew' d hd).2.2

theorem Inv.stopCapture (hs : Inv s) {id : String} {types : List DataType}
    (h : step s (.stopCapture id types) = some t) : Inv t := by
  have hmgr : t.mgr = (s.mgr.stopCapture id types).1 := by rw [← Option.some.inj h]
  obtain ⟨-, rfl⟩ | ⟨slot, hslot, hdealers, hrun, hspawned, hself, hne, hjoining⟩ :=
    step_stopCapture h
  · exact hs
  have hslots := hs.coherent id slot hslot
  obtain ⟨-, hcap, hdealer, htaken⟩ := hslots.stopCapture_eq types
  refine ⟨hmgr ▸ hs.coherent.stopCapture id types, ?_, ?_, ?_, ?_, ?_, hdealers ▸ hs.connected⟩
  · intro id' slot' h' hc
    rw [hrun]
    by_cases hid : id' = id
    · subst hid
      obtain rfl := Option.some.inj (hself.symm.trans h')
      exact hs.running _ slot hslot (hslots.capturing_iff.mpr ((hcap.mp hc).trans' Int.one_pos))
    · exact hs.running id' slot' (hne id' hid ▸ h') hc
  · rw [hspawned, hdealers, hs.spawned]
  · intro id' slot' k h' hk
    rw [hdealers]
    by_cases hid : id' = id
    · subst hid
      obtain rfl := Option.some.inj (hself.symm.trans h')
      rw [hdealer, Option.ite_none_right_eq_some] at hk
      exact hs.owned _ slot k hslot hk.2
    · exact hs.owned id' slot' k (hne id' hid ▸ h') hk
  · intro k hk
    rw [hdealers]
    rw [hjoining, List.mem_append, Option.mem_toList] at hk
    rcases hk with hk | hk
    · exact hs.joining k hk
    · rw [htaken, Option.ite_none_right_eq_some] at hk
      obtain ⟨d, hd, -⟩ := hs.owned id slot k hslot hk.2
      exact (List.getElem?_eq_some_iff.mp hd).1
  · intro d hd
    obtain ⟨slot', hl, hch⟩ := hs.channels d (hdealers ▸ hd)
    by_cases hid : d.cameraId = id
    · rw [hid] at hl ⊢
      obtain rfl := Option.some.inj (hslot.symm.trans hl)
      exact ⟨_, hself, by rw [hch, SDKSlot.stopCapture_channels]⟩
    · exact ⟨slot', (hne _ hid).trans hl, hch⟩

theorem Inv.setPc (hs : Inv s) {subs : List (String × String)} (hk : s.dealers[k]? = some d)
    (hpc : d.next (s.loopCondition d.cameraId) subs = some pc) : Inv (s.setPc k pc) where
  coherent := hs.coherent
  running := hs.running
  spawned := by
    rw [setPc_mgr, hs.spawned, State.setPc, List.length_modify]
  owned := by
    intro id slot j h hj
    obtain ⟨d, hd, hid⟩ := hs.owned id slot j h hj
    rw [getElem?_setPc, hd]
    split_ifs
    · exact ⟨_, rfl, hid⟩
    · exact ⟨d, rfl, hid⟩
  joining := by
    intro j hj
    rw [State.setPc, List.length_modify]
    exact hs.joining j hj
  channels := by
    intro e he
    obtain ⟨j, hj⟩ := List.getElem?_of_mem he
    obtain ⟨d, hd, rfl | ⟨-, rfl⟩⟩ := getElem?_setPc_cases hj
    · exact hs.channels e (List.mem_of_getElem? hd)
    · exact hs.channels d (List.mem_of_getElem? hd)
  connected := by
    intro e he hmay
    obtain ⟨j, hj⟩ := List.getElem?_of_mem he
    obtain ⟨d', hd', rfl | ⟨rfl, rfl⟩⟩ := getElem?_setPc_cases hj
    · exact hs.connected e (List.mem_of_getElem? hd') hmay
    · obtain rfl := Option.some.inj (hk.symm.trans hd')
      exact hs.connected d (List.mem_of_getElem? hk) (.of_next hpc hmay)

theorem Inv.step (hs : Inv s) (h : step s a = some t) : Inv t := by
  cases a with
  | startCapture id types => exact hs.startCapture h
  | stopCapture id types => exact hs.stopCapture h
  | join k =>
    obtain ⟨-, -, rfl⟩ := step_join.mp h
    exact ⟨hs.coherent, hs.running, hs.spawned, hs.owned,
      fun j hj => hs.joining j (List.mem_of_mem_erase hj), hs.channels, hs.connected⟩
  | dealer k subs =>
    obtain ⟨d, pc, hd, hpc, rfl⟩ := step_dealer.mp h
    exact hs.setPc hd hpc

theorem Inv.loopCondition_eq (hs : Inv s) (id : String) :
    s.loopCondition id = s.mgr.capturingActive id := by
  -- `running_` never stops a dealer whose camera is capturing.
  unfold State.loopCondition
  rcases hc : s.mgr.capturingActive id with _ | _
  · exact Bool.and_false _
  · obtain ⟨slot, hslot, hcap⟩ := SDKSlotManager.capturingActive_iff.mp hc
    rw [hs.running id slot hslot hcap, Bool.and_true]

theorem capturingActive_congr {m m' : SDKSlotManager} {id : String}
    (h : m'.slots.lookup id = m.slots.lookup id) :
    m'.capturingActive id = m.capturingActive id := by
  unfold SDKSlotManager.capturingActive
  rw [h]

theorem OneDealer.mono (hp : OneDealer s) (hdealers : t.dealers = s.dealers)
    (hcond : ∀ id, t.loopCondition id = true → s.loopCondition id = true)
    (hjoining : ∀ k ∈ t.joining, k ∈ s.joining ∨
      ∀ d, s.dealers[k]? = some d → t.loopCondition d.cameraId = false) :
    OneDealer t where
  unique := by
    have hcan : ∀ d, t.CanReceive d → s.CanReceive d := fun d =>
      Or.imp_right (And.imp_right (hcond _))
    intro i j d e hd he hid hcd hce
    exact hp.unique i j d e (hdealers ▸ hd) (hdealers ▸ he) hid (hcan d hcd) (hcan e hce)
  stopped := by
    intro k hk d hd hmay
    rw [hdealers] at hd
    rcases hjoining k hk with hk | hk
    · rw [← Bool.not_eq_true]
      exact fun hc => Bool.false_ne_true ((hp.stopped k hk d hd hmay).symm.trans (hcond _ hc))
    · exact hk d hd

theorem OneDealer.setPc (hp : OneDealer s) {subs : List (String × String)}
    (hd : s.dealers[k]? = some d) (hpc : d.next (s.loopCondition d.cameraId) subs = some pc) :
    OneDealer (s.setPc k pc) := by
  have hback : ∀ (j : ℕ) (e : Dealer), (s.setPc k pc).dealers[j]? = some e →
      ∃ d, s.dealers[j]? = some d ∧ e.cameraId = d.cameraId ∧ (e.MayLoop → d.MayLoop) ∧
        (s.CanReceive e → s.CanReceive d) := by
    intro j e he
    obtain ⟨d', hd', rfl | ⟨rfl, rfl⟩⟩ := getElem?_setPc_cases he
    · exact ⟨e, hd', rfl, fun h => h, fun h => h⟩
    · obtain rfl := Option.some.inj (hd.symm.trans hd')
      have hmay : ({ d with pc := pc } : Dealer).MayLoop → d.MayLoop := .of_next hpc
      refine ⟨d, hd, rfl, hmay, ?_⟩
      rintro (hrec | ⟨h, hc⟩)
      · -- Only a true loop condition leads into the body.
        obtain rfl : pc = .receiving := hrec
        exact .inr ⟨hmay trivial, Dealer.loopCondition_of_next hpc⟩
      · exact .inr ⟨hmay h, hc⟩
  refine ⟨?_, ?_⟩
  · intro i j e f he hf hid hce hcf
    obtain ⟨e', he', heid, -, hce'⟩ := hback i e he
    obtain ⟨f', hf', hfid, -, hcf'⟩ := hback j f hf
    exact hp.unique i j e' f' he' hf' (heid.symm.trans (hid.trans hfid)) (hce' hce) (hcf' hcf)
  · intro j hj e he hmay
    obtain ⟨e', he', heid, hmay', -⟩ := hback j e he
    rw [heid]
    exact hp.stopped j hj e' he' (hmay' hmay)

theorem OneDealer.stopCapture (hs : Inv s) (hp : OneDealer s) {id : String}
    {types : List DataType} (h : step s (.stopCapture id types) = some t) : OneDealer t := by
  have ht : Inv t := hs.step h
  obtain ⟨-, rfl⟩ | ⟨slot, hslot, hdealers, -, -, hself, hne, hjoining⟩ := step_stopCapture h
  · exact hp
  obtain ⟨-, hcap, -, htaken⟩ := (hs.coherent id slot hslot).stopCapture_eq types
  refine hp.mono hdealers ?_ ?_
  · intro id' hc
    rw [ht.loopCondition_eq] at hc
    rw [hs.loopCondition_eq]
    by_cases hid : id' = id
    · subst hid
      obtain ⟨slot', hslot', hc'⟩ := SDKSlotManager.capturingActive_iff.mp hc
      obtain rfl := Option.some.inj (hself.symm.trans hslot')
      exact SDKSlotManager.capturingActive_iff.mpr ⟨slot, hslot,
        (hs.coherent _ slot hslot).capturing_iff.mpr ((hcap.mp hc').trans' Int.one_pos)⟩
    · exact (capturingActive_congr (hne id' hid)).symm.trans hc
  · intro k hk
    rw [hjoining, List.mem_append, Option.mem_toList, htaken, Option.ite_none_right_eq_some] at hk
    refine hk.imp_right fun ⟨hone, hk⟩ d hd => ?_
    -- The thread taken over is the slot's own, and the slot is not capturing any more.
    obtain ⟨d', hd', hid⟩ := hs.owned id slot k hslot hk
    obtain rfl := Option.some.inj (hd'.symm.trans hd)
    rw [ht.loopCondition_eq, ← Bool.not_eq_true, hid, SDKSlotManager.capturingActive_iff]
    rintro ⟨slot', hslot', hc'⟩
    obtain rfl := Option.some.inj (hself.symm.trans hslot')
    exact absurd (hcap.mp hc') (by rw [hone]; exact Int.lt_irrefl 1)

theorem State.CanReceive.mayLoop (h : s.CanReceive d) : d.MayLoop := by
  rcases h with h | h
  · unfold Dealer.MayLoop
    rw [h]
    trivial
  · exact h.1

theorem getElem?_concat_cases {α : Type} {xs : List α} {x y : α} {i : ℕ}
    (h : (xs ++ [x])[i]? = some y) : xs[i]? = some y ∨ i = xs.length ∧ y = x := by
  rcases Nat.lt_or_ge i xs.length with hi | hi
  · rw [List.getElem?_append_left hi] at h
    exact .inl h
  · rw [List.getElem?_append_right hi, List.getElem?_singleton, Option.ite_none_right_eq_some] at h
    obtain ⟨hi', h⟩ := h
    exact .inr ⟨Nat.le_antisymm (Nat.le_of_sub_eq_zero hi') hi, (Option.some.inj h).symm⟩

structure Started (s t : State) (id : String) (new : Dealer) : Prop where
  camera : new.cameraId = id
  mayLoop : ∀ d ∈ s.dealers, d.cameraId = id → d.MayLoop → new.MayLoop
  dealers : t.dealers = s.dealers ++ [new]
  joining : t.joining = s.joining
  self : t.loopCondition id = true
  others : ∀ id', id' ≠ id → t.loopCondition id' = s.loopCondition id'

theorem Started.not_mayLoop {id : String} {new : Dealer} (hnew : Started s t id new)
    (ht : OneDealer t) : ∀ d ∈ s.dealers, d.cameraId = id → ¬d.MayLoop := by
  -- An old dealer and the new one would both find the condition true.
  intro d hd hid hmay
  obtain ⟨i, hi⟩ := List.getElem?_of_mem hd
  have hilt : i < s.dealers.length := (List.getElem?_eq_some_iff.mp hi).1
  have hold : t.dealers[i]? = some d := by
    rw [hnew.dealers, List.getElem?_append_left hilt, hi]
  have hlast : t.dealers[s.dealers.length]? = some new := by
    rw [hnew.dealers]
    exact List.getElem?_concat_length
  have hsame := ht.unique i s.dealers.length d new hold hlast (hid.trans hnew.camera.symm)
    (.inr ⟨hmay, hid ▸ hnew.self⟩)
    (.inr ⟨hnew.mayLoop d hd hid hmay, hnew.camera.symm ▸ hnew.self⟩)
  exact absurd hsame (Nat.ne_of_lt hilt)

theorem Started.oneDealer {id : String} {new : Dealer} (hnew : Started s t id new)
    (hs : Inv s) (hp : OneDealer s)
    (hout : ∀ d ∈ s.dealers, d.cameraId = id → ¬d.MayLoop) : OneDealer t := by
  have hout' : ∀ (i : ℕ) (d : Dealer), s.dealers[i]? = some d → d.MayLoop →
      d.cameraId ≠ id := fun i d hd hmay hid => hout d (List.mem_of_getElem? hd) hid hmay
  have hcan : ∀ (i : ℕ) (d : Dealer), s.dealers[i]? = some d → t.CanReceive d →
      s.CanReceive d := by
    intro i d hd hc
    refine hc.imp_right fun h => ⟨h.1, ?_⟩
    exact hnew.others _ (hout' i d hd h.1) ▸ h.2
  refine ⟨?_, ?_⟩
  · intro i j d e hd he hde hcd hce
    rw [hnew.dealers] at hd he
    rcases getElem?_concat_cases hd with hd | ⟨hi, hd⟩
    · rcases getElem?_concat_cases he with he | ⟨-, he⟩
      · exact hp.unique i j d e hd he hde (hcan i d hd hcd) (hcan j e he hce)
      · rw [he, hnew.camera] at hde
        exact absurd hde (hout' i d hd hcd.mayLoop)
    · rcases getElem?_concat_cases he with he | ⟨hj, -⟩
      · rw [hd, hnew.camera] at hde
        exact absurd hde.symm (hout' j e he hce.mayLoop)
      · exact hi.trans hj.symm
  · -- The threads that are being joined are old ones, of other cameras.
    intro k hk d hd hmay
    rw [hnew.joining] at hk
    rw [hnew.dealers, List.getElem?_append_left (hs.joining k hk)] at hd
    rw [hnew.others _ (hout' k d hd hmay)]
    exact hp.stopped k hk d hd hmay

theorem oneDealer_startCapture_iff (hs : Inv s) (hp : OneDealer s) {id : String}
    {types : List DataType} (h : step s (.startCapture id types) = some t) :
    OneDealer t ↔ NoOldDealer s (.startCapture id types) := by
  have ht : Inv t := hs.step h
  obtain ⟨hslot, rfl⟩ | ⟨slot, hslot, hjoining, hself, hne, hcase⟩ := step_startCapture h
  · -- An unknown camera has no dealers.
    refine ⟨fun _ _ d hd hid _ => ?_, fun _ => hp⟩
    obtain ⟨slot, hl, -⟩ := hs.channels d hd
    rw [hid] at hl
    exact absurd (hslot.symm.trans hl) nofun
  have hactive : s.mgr.capturingActive id = slot.capturing := by
    unfold SDKSlotManager.capturingActive
    rw [hslot]
  have hcond : ∀ id', id' ≠ id → t.loopCondition id' = s.loopCondition id' := by
    intro id' hid
    rw [ht.loopCondition_eq, hs.loopCondition_eq, capturingActive_congr (hne id' hid)]
  have hcond_self : t.loopCondition id = true := by
    rw [ht.loopCondition_eq]
    exact SDKSlotManager.capturingActive_iff.mpr
      ⟨_, hself, SDKSlot.startCapture_capturing slot types _⟩
  rcases hcase with ⟨hcap, hdealers, -⟩ | ⟨hcap, hdealers, -⟩
  · -- The camera is capturing: no dealer is created.
    refine ⟨fun _ hc => ?_, fun _ => hp.mono hdealers ?_ ?_⟩
    · exact absurd (hcap.symm.trans (hactive.symm.trans hc)) nofun
    · intro id' hc
      by_cases hid : id' = id
      · rw [hid, hs.loopCondition_eq, hactive, hcap]
      · exact hcond id' hid ▸ hc
    · exact fun k hk => .inl (hjoining ▸ hk)
  · have hmay : ∀ d ∈ s.dealers, d.cameraId = id → d.MayLoop →
        slot.channels.filter (·.1 ≠ "base") ≠ [] := by
      intro d hd hid hmay
      obtain ⟨slot', hl, hch⟩ := hs.channels d hd
      obtain rfl := Option.some.inj (hslot.symm.trans (hid ▸ hl))
      exact hch ▸ hs.connected d hd hmay
    have hnew : Started s t id ⟨id, slot.channels.filter (·.1 ≠ "base"), .connecting⟩ :=
      ⟨rfl, hmay, hdealers, hjoining, hcond_self, hcond⟩
    constructor
    · exact fun hpt _ => hnew.not_mayLoop hpt
    · exact fun hguard => hnew.oneDealer hs hp (hguard (hactive.trans hcap))

theorem oneDealer_step_iff (hs : Inv s) (hp : OneDealer s) (h : step s a = some t) :
    OneDealer t ↔ NoOldDealer s a := by
  cases a with
  | startCapture id types => exact oneDealer_startCapture_iff hs hp h
  | stopCapture id types => exact iff_of_true (hp.stopCapture hs h) trivial
  | join k =>
    obtain ⟨-, -, rfl⟩ := step_join.mp h
    refine iff_of_true (hp.mono rfl (fun id hc => hc) fun j hj => ?_) trivial
    exact .inl (List.mem_of_mem_erase hj)
  | dealer k subs =>
    obtain ⟨d, pc, hd, hpc, rfl⟩ := step_dealer.mp h
    exact iff_of_true (hp.setPc hd hpc) trivial

theorem Dealer.stepsLeft_next {c : Bool} {subs : List (String × String)}
    (hc : d.MayLoop → c = false) (h : d.next c subs = some pc) :
    pc.stepsLeft < d.pc.stepsLeft := by
  obtain ⟨id, channels, old⟩ := d
  cases old with
  | connecting =>
    simp only [Dealer.next, Option.ite_none_right_eq_some, Option.some.injEq] at h
    obtain ⟨-, rfl⟩ := h
    show DealerPc.stepsLeft _ < 2
    split_ifs <;> decide
  | atCondition =>
    obtain rfl : c = false := hc trivial
    cases h
    exact Nat.one_pos
  | receiving =>
    cases h
    exact Nat.one_lt_two
  | returned => cases h

theorem DealerPc.eq_returned_of_stepsLeft (h : pc.stepsLeft = 0) : pc = .returned := by
  cases pc with
  | returned => rfl
  | _ => exact absurd h (by decide)

theorem Dealer.exists_next (c : Bool) (h : d.pc ≠ .returned) : ∃ pc, d.next c [] = some pc := by
  obtain ⟨id, channels, old⟩ := d
  cases old with
  | connecting => exact ⟨.returned, by simp [Dealer.next]⟩
  | atCondition => exact ⟨_, rfl⟩
  | receiving => exact ⟨_, rfl⟩
  | returned => exact absurd rfl h

theorem returnsWithin_of_stepsLeft_le {n : ℕ} (hd : s.dealers[k]? = some d)
    (hn : d.pc.stepsLeft ≤ n) (hc : d.MayLoop → s.loopCondition d.cameraId = false) :
    ReturnsWithin k n s := by
  induction n generalizing s d with
  | zero =>
    show (s.dealers[k]?).map Dealer.pc = some .returned
    rw [hd, Option.map_some, DealerPc.eq_returned_of_stepsLeft (Nat.le_zero.mp hn)]
  | succ n ih =>
    by_cases h0 : d.pc = .returned
    · exact .inl (by rw [hd, Option.map_some, h0])
    · refine .inr ⟨?_, fun subs t ht => ?_⟩
      · obtain ⟨pc, hpc⟩ := d.exists_next (s.loopCondition d.cameraId) h0
        exact ⟨[], _, step_dealer.mpr ⟨d, pc, hd, hpc, rfl⟩⟩
      · obtain ⟨d', pc, hd', hpc, rfl⟩ := step_dealer.mp ht
        obtain rfl := Option.some.inj (hd.symm.trans hd')
        have hlt := Dealer.stepsLeft_next hc hpc
        exact ih (getElem?_setPc_self hd) (Nat.le_of_lt_succ (hlt.trans_le hn))
          (fun h => hc (.of_next hpc h))

theorem OneDealer.returnsWithin (hs : Inv s) (hp : OneDealer s) (hk : k ∈ s.joining) :
    ReturnsWithin k 2 s := by
  -- A join does not wait for ever: the dealer's next evaluation sends it out.
  obtain ⟨d, hd⟩ : ∃ d, s.dealers[k]? = some d :=
    ⟨_, List.getElem?_eq_getElem (hs.joining k hk)⟩
  refine returnsWithin_of_stepsLeft_le hd ?_ (hp.stopped k hk d hd)
  cases d.pc <;> decide

end

theorem oneDealer_init (m : SDKSlotManager) : OneDealer (State.init m) where
  unique := fun _ _ _ _ hd => absurd (List.mem_of_getElem? hd) List.not_mem_nil
  stopped := fun _ hk => absurd hk List.not_mem_nil

/-- Exactly the runs that never restart a camera too early keep one dealer for each camera,
and in them every join returns. -/
theorem oneDealer_iff_noOldDealer {m : SDKSlotManager} (hm : m.Configured) (as : List Action) :
    (∀ pre t, pre <+: as → run step (State.init m) pre = some t →
      OneDealer t ∧ ∀ k ∈ t.joining, ReturnsWithin k 2 t) ↔
      Guarded step NoOldDealer (State.init m) as := by
  have hnone : ∀ s a, step s a = none → NoOldDealer s a := by
    intro s a h
    cases a with
    | startCapture id types => exact absurd h nofun
    | stopCapture id types => trivial
    | join k => trivial
    | dealer k subs => trivial
  have hiff := guarded_iff_forall_prefix (G := NoOldDealer) (fun s a t => Inv.step) hnone
    (fun s a t => oneDealer_step_iff) (inv_init hm) (oneDealer_init m) as
  rw [← hiff]
  constructor
  · exact fun h pre t hpre ht => (h pre t hpre ht).1
  · intro h pre t hpre ht
    have hinv : Inv t := run_invariant (fun s a t => Inv.step) (inv_init hm) ht
    have hp := h pre t hpre ht
    exact ⟨hp, fun k hk => hp.returnsWithin hinv hk⟩

def oneCamera : SDKSlotManager :=
  (SDKSlotManager.mk' (DataBuffer.mk' 16)).configure
    [⟨"cam1", "http://localhost:8080", "", [("base", "tcp://localhost:5555"),
      ("sensor_data", "tcp://localhost:5558")]⟩]

theorem configured_oneCamera : oneCamera.Configured := SDKSlotManager.configured_configure _ _

/-- The camera is started again once its first dealer has been joined. -/
def restartSchedule : List Action :=
  [.startCapture "cam1" [.imu], .dealer 0 [("sensor_data", "tcp://localhost:5558")],
    .stopCapture "cam1" [.imu], .dealer 0 [], .join 0, .startCapture "cam1" [.imu]]

theorem oneDealer_restartSchedule :
    ∃ t, run step (State.init oneCamera) restartSchedule = some t ∧ OneDealer t := by
  have h := oneDealer_iff_noOldDealer configured_oneCamera restartSchedule
  refine ⟨_, rfl, (h.mpr ?_ restartSchedule _ List.prefix_rfl rfl).1⟩
  refine .cons (fun _ d hd => absurd hd List.not_mem_nil) rfl ?_
  refine .cons trivial rfl (.cons trivial rfl (.cons trivial rfl (.cons trivial rfl ?_)))
  refine .cons (fun _ d hd _ hmay => ?_) rfl trivial
  rw [List.mem_singleton.mp hd] at hmay
  exact hmay

/-- The camera is started again between the stop and the evaluation that would have sent
its first dealer out. -/
def oldDealerSchedule : List Action :=
  [.startCapture "cam1" [.imu], .dealer 0 [("sensor_data", "tcp://localhost:5558")],
    .stopCapture "cam1" [.imu], .startCapture "cam1" [.imu],
    .dealer 1 [("sensor_data", "tcp://localhost:5558")], .dealer 0 [], .dealer 1 []]

theorem oldDealer_runs_beside_new :
    ∃ t, run step (State.init oneCamera) oldDealerSchedule = some t ∧
      t.dealers.map (fun d => (d.cameraId, d.pc)) =
        [("cam1", .receiving), ("cam1", .receiving)] ∧
      t.joining = [0] ∧ t.loopCondition "cam1" = true ∧ ¬OneDealer t := by
  refine ⟨_, rfl, rfl, rfl, rfl, fun h => ?_⟩
  exact absurd (h.unique 0 1 _ _ rfl rfl rfl (.inl rfl) (.inl rfl)) (by decide)

end StereoCamera.DealerThreads
