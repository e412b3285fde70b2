import StereoCamera.Data.DealerMessage
import StereoCamera.Data.DealerThreads

/-! The slots of the buffer between `stop_capture` and the dealers' pushes. The section of
`stop_capture` removes slots, a start creates them, and so does every push that finds none. -/

namespace StereoCamera.StoppedSlots
open Transition

structure StopCall where
  /-- The slots it removed, as far as no later start named them. -/
  keys : List BufferSlotKey
  thread : Option ℕ

structure State where
  threads : DealerThreads.State
  pending : ℕ → List DataBundle
  calls : List StopCall
  /-- The slots that a returned `stop_capture` removed, as far as no later start named them. -/
  stopped : List BufferSlotKey

inductive Action
  | startCapture (cameraId : String) (types : List DataType)
  /-- The section under `mutex_`. -/
  | stopCapture (cameraId : String) (types : List DataType)
  | stopReturns (i : ℕ)
  | dealer (k : ℕ) (subs : List (String × String))
  | receive (k : ℕ) (grp : String) (zparts : List Bytes)
  | push (k : ℕ)

def keysOf (cameraId : String) (types : List DataType) : List BufferSlotKey :=
  types.map (⟨cameraId, ·⟩)

def StopCall.restart (call : StopCall) (keys : List BufferSlotKey) : StopCall :=
  { call with keys := call.keys.filter (· ∉ keys) }

def State.setThreads (s : State) (t : DealerThreads.State) : State := { s with threads := t }

/-- The buffer is not guarded by `mutex_`. -/
def pushBundle (s : DealerThreads.State) (cameraId : String) (b : DataBundle) :
    DealerThreads.State :=
  { s with mgr := { s.mgr with buffer := s.mgr.buffer.push cameraId b.type b } }

def stopReturns (s : State) (call : StopCall) : Option DealerThreads.State :=
  match call.thread with
  | none => some s.threads
  | some k => DealerThreads.step s.threads (.join k)

def step (parse : Bytes → Except JsonException Json) (s : State) : Action → Option State
  | .startCapture cameraId types =>
    (DealerThreads.step s.threads (.startCapture cameraId types)).map fun t =>
      { s with
        threads := t
        calls := s.calls.map (·.restart (keysOf cameraId types))
        stopped := s.stopped.filter (· ∉ keysOf cameraId types) }
  | .stopCapture cameraId types =>
    (DealerThreads.step s.threads (.stopCapture cameraId types)).map fun t =>
      { s with
        threads := t
        calls := s.calls ++
          [⟨keysOf cameraId types, (s.threads.mgr.stopCapture cameraId types).2.2⟩] }
  | .stopReturns i =>
    (s.calls[i]?).bind fun call => (stopReturns s call).map fun t =>
      { s with threads := t, calls := s.calls.eraseIdx i, stopped := s.stopped ++ call.keys }
  | .dealer k subs =>
    if s.pending k = [] then (DealerThreads.step s.threads (.dealer k subs)).map s.setThreads
    else none
  | .receive k grp zparts =>
    if s.pending k = [] ∧ (s.threads.dealers[k]?).map (·.pc) = some .receiving then
      some { s with
        pending := Function.update s.pending k (DealerSide.messageBundles parse grp zparts) }
    else none
  | .push k =>
    match s.threads.dealers[k]?, s.pending k with
    | some d, b :: bundles =>
      some { s with
        threads := pushBundle s.threads d.cameraId b
        pending := Function.update s.pending k bundles }
    | _, _ => none

def State.init (m : SDKSlotManager) : State := ⟨.init m, fun _ => [], [], []⟩

def State.slot (s : State) (key : BufferSlotKey) : Option (RingBuffer DataBundle) :=
  s.threads.mgr.buffer.slots.lookup key

def State.Removed (s : State) (key : BufferSlotKey) : Prop :=
  key ∈ s.stopped ∨ ∃ call ∈ s.calls, key ∈ call.keys

instance (s : State) (key : BufferSlotKey) : Decidable (s.Removed key) :=
  inferInstanceAs (Decidable (_ ∨ ∃ call ∈ s.calls, key ∈ call.keys))

/-- What a returned `stop_capture` promises, until a start names the type again. -/
def NoStoppedSlot (s : State) : Prop := ∀ key ∈ s.stopped, s.slot key = none

/-- No dealer pushes a bundle into a slot that a `stop_capture` has removed. -/
def NotRemoved (s : State) : Action → Prop
  | .push k => ∀ d ∈ s.threads.dealers[k]?, ∀ b ∈ (s.pending k).head?,
    ¬s.Removed ⟨d.cameraId, b.type⟩
  | _ => True

instance (s : State) (a : Action) : Decidable (NotRemoved s a) :=
  match a with
  | .push k => inferInstanceAs (Decidable (∀ d ∈ s.threads.dealers[k]?, ∀ b ∈ (s.pending k).head?,
      ¬s.Removed ⟨d.cameraId, b.type⟩))
  | .startCapture .. | .stopCapture .. | .stopReturns .. | .dealer .. | .receive .. =>
    .isTrue trivial

structure Inv (s : State) : Prop where
  threads : DealerThreads.Inv s.threads
  removed : ∀ key, s.Removed key → s.slot key = none
  configured : ∀ key, s.slot key ≠ none → s.threads.mgr.slots.lookup key.cameraId ≠ none

section
variable {parse : Bytes → Except JsonException Json} {s t : State} {key : BufferSlotKey}
  {cameraId : String} {types : List DataType}

theorem mem_keysOf : key ∈ keysOf cameraId types ↔ key.cameraId = cameraId ∧ key.type ∈ types := by
  unfold keysOf
  rw [List.mem_map]
  constructor
  · rintro ⟨t, ht, rfl⟩
    exact ⟨rfl, ht⟩
  · rintro ⟨rfl, ht⟩
    exact ⟨key.type, ht, rfl⟩

theorem slot_startCapture {m : SDKSlotManager} (hkey : key ∉ keysOf cameraId types) :
    (m.startCapture cameraId types).1.buffer.slots.lookup key = m.buffer.slots.lookup key := by
  rw [mem_keysOf] at hkey
  unfold SDKSlotManager.startCapture
  cases m.slots.lookup cameraId with
  | none => rfl
  | some slot => exact DataBuffer.lookup_createSlots_of_not_named hkey

theorem slot_stopCapture (m : SDKSlotManager) (cameraId : String) (types : List DataType)
    (key : BufferSlotKey) : (m.stopCapture cameraId types).1.buffer.slots.lookup key =
      if key ∈ keysOf cameraId types ∧ m.slots.lookup cameraId ≠ none then none
      else m.buffer.slots.lookup key := by
  simp only [mem_keysOf]
  unfold SDKSlotManager.stopCapture
  cases m.slots.lookup cameraId with
  | none => simp
  | some slot =>
    simp only [ne_eq, reduceCtorEq, not_false_eq_true, and_true]
    exact DataBuffer.lookup_removeSlots m.buffer cameraId types key

theorem lookup_startCapture_ne_none {m : SDKSlotManager} {id : String}
    (h : m.slots.lookup id ≠ none) : (m.startCapture cameraId types).1.slots.lookup id ≠ none := by
  rw [Ne, AList.lookup_eq_none, AList.mem_keys] at h ⊢
  rwa [SDKSlotManager.keys_startCapture]

theorem lookup_stopCapture_ne_none {m : SDKSlotManager} {id : String}
    (h : m.slots.lookup id ≠ none) : (m.stopCapture cameraId types).1.slots.lookup id ≠ none := by
  rw [Ne, AList.lookup_eq_none, AList.mem_keys] at h ⊢
  rwa [SDKSlotManager.keys_stopCapture]

theorem inv_init (n : UInt64) (configs : List CameraSDKConfig) :
    Inv (.init ((SDKSlotManager.mk' (.mk' n)).configure configs)) := by
  have hnone : ∀ key, (State.init ((SDKSlotManager.mk' (.mk' n)).configure configs)).slot key =
      none := by
    intro key
    change ((SDKSlotManager.mk' (.mk' n)).configure configs).buffer.slots.lookup key = none
    rw [SDKSlotManager.buffer_configure]
    rfl
  refine ⟨DealerThreads.inv_init (SDKSlotManager.configured_configure _ _), ?_, ?_⟩
  · exact fun key _ => hnone key
  · exact fun key hkey => absurd (hnone key) hkey

theorem Inv.startCapture (hs : Inv s) (h : step parse s (.startCapture cameraId types) = some t) :
    Inv t := by
  unfold step at h
  obtain ⟨threads, hthreads, rfl⟩ := Option.map_eq_some_iff.mp h
  have hmgr : threads.mgr = (s.threads.mgr.startCapture cameraId types).1 := by
    rw [← Option.some.inj hthreads]
  refine ⟨hs.threads.step hthreads, fun key hkey => ?_, fun key hslot => ?_⟩
  · -- What is still removed was so before, and the start did not name it.
    have hboth : s.Removed key ∧ key ∉ keysOf cameraId types := by
      rcases hkey with hkey | ⟨call, hcall, hkey⟩
      · rw [List.mem_filter, decide_eq_true_eq] at hkey
        exact ⟨.inl hkey.1, hkey.2⟩
      · obtain ⟨old, hold, rfl⟩ := List.mem_map.mp hcall
        rw [StopCall.restart, List.mem_filter, decide_eq_true_eq] at hkey
        exact ⟨.inr ⟨old, hold, hkey.1⟩, hkey.2⟩
    change threads.mgr.buffer.slots.lookup key = none
    rw [hmgr, slot_startCapture hboth.2]
    exact hs.removed key hboth.1
  · change threads.mgr.buffer.slots.lookup key ≠ none at hslot
    change threads.mgr.slots.lookup key.cameraId ≠ none
    rw [hmgr] at hslot ⊢
    apply lookup_startCapture_ne_none
    by_cases hkey : key ∈ keysOf cameraId types
    · intro hnone
      rw [(mem_keysOf.mp hkey).1] at hnone
      rw [SDKSlotManager.startCapture_of_lookup_none hnone] at hslot
      exact hs.configured key hslot ((mem_keysOf.mp hkey).1 ▸ hnone)
    · rw [slot_startCapture hkey] at hslot
      exact hs.configured key hslot

theorem Inv.stopCapture (hs : Inv s) (h : step parse s (.stopCapture cameraId types) = some t) :
    Inv t := by
  unfold step at h
  obtain ⟨threads, hthreads, rfl⟩ := Option.map_eq_some_iff.mp h
  have hmgr : threads.mgr = (s.threads.mgr.stopCapture cameraId types).1 := by
    rw [← Option.some.inj hthreads]
  refine ⟨hs.threads.step hthreads, fun key hkey => ?_, fun key hslot => ?_⟩
  · change threads.mgr.buffer.slots.lookup key = none
    rw [hmgr, slot_stopCapture]
    split_ifs with hnew
    · rfl
    · rcases hkey with hkey | ⟨call, hcall, hkey⟩
      · exact hs.removed key (.inl hkey)
      · rcases List.mem_append.mp hcall with hold | hcall
        · exact hs.removed key (.inr ⟨call, hold, hkey⟩)
        · -- The call is the new one, and its camera is not configured.
          rw [List.mem_singleton.mp hcall] at hkey
          by_contra hslot
          have hcam := hs.configured key hslot
          rw [(mem_keysOf.mp hkey).1] at hcam
          exact hnew ⟨hkey, hcam⟩
  · change threads.mgr.buffer.slots.lookup key ≠ none at hslot
    change threads.mgr.slots.lookup key.cameraId ≠ none
    rw [hmgr] at hslot ⊢
    rw [slot_stopCapture] at hslot
    split_ifs at hslot with hnew
    · exact absurd rfl hslot
    · exact lookup_stopCapture_ne_none (hs.configured key hslot)

theorem Inv.of_threads (hs : Inv s) {threads : DealerThreads.State}
    (hthreads : DealerThreads.Inv threads) (hmgr : threads.mgr = s.threads.mgr)
    (hthreads' : t.threads = threads) (hremoved : ∀ key, t.Removed key → s.Removed key) :
    Inv t := by
  have hslot : ∀ key, t.slot key = s.slot key := by
    intro key
    unfold State.slot
    rw [hthreads', hmgr]
  refine ⟨hthreads' ▸ hthreads, fun key hkey => ?_, fun key hkey => ?_⟩
  · rw [hslot]
    exact hs.removed key (hremoved key hkey)
  · rw [hslot] at hkey
    rw [hthreads', hmgr]
    exact hs.configured key hkey

theorem Inv.stopReturns (hs : Inv s) {i : ℕ} (h : step parse s (.stopReturns i) = some t) :
    Inv t := by
  unfold step at h
  obtain ⟨call, hcall, h⟩ := Option.bind_eq_some_iff.mp h
  obtain ⟨threads, hthreads, rfl⟩ := Option.map_eq_some_iff.mp h
  have hmem : call ∈ s.calls := List.mem_of_getElem? hcall
  have hkept : DealerThreads.Inv threads ∧ threads.mgr = s.threads.mgr := by
    unfold StoppedSlots.stopReturns at hthreads
    split at hthreads
    · cases hthreads
      exact ⟨hs.threads, rfl⟩
    · refine ⟨hs.threads.step hthreads, ?_⟩
      obtain ⟨-, -, rfl⟩ := DealerThreads.step_join.mp hthreads
      rfl
  refine hs.of_threads hkept.1 hkept.2 rfl fun key hkey => ?_
  rcases hkey with hkey | ⟨call', hcall', hkey⟩
  · rcases List.mem_append.mp hkey with hkey | hkey
    · exact .inl hkey
    · exact .inr ⟨call, hmem, hkey⟩
  · exact .inr ⟨call', List.mem_of_mem_eraseIdx hcall', hkey⟩

theorem Inv.dealer (hs : Inv s) {k : ℕ} {subs : List (String × String)}
    (h : step parse s (.dealer k subs) = some t) : Inv t := by
  unfold step at h
  obtain ⟨-, h⟩ := Option.ite_none_right_eq_some.mp h
  obtain ⟨threads, hthreads, rfl⟩ := Option.map_eq_some_iff.mp h
  have hmgr : threads.mgr = s.threads.mgr := by
    obtain ⟨d, pc, -, -, rfl⟩ := DealerThreads.step_dealer.mp hthreads
    rfl
  exact hs.of_threads (hs.threads.step hthreads) hmgr rfl fun _ hkey => hkey

theorem Inv.receive (hs : Inv s) {k : ℕ} {grp : String} {zparts : List Bytes}
    (h : step parse s (.receive k grp zparts) = some t) : Inv t := by
  unfold step at h
  obtain ⟨-, h⟩ := Option.ite_none_right_eq_some.mp h
  cases h
  exact hs.of_threads hs.threads rfl rfl fun _ hkey => hkey

theorem step_push {k : ℕ} (h : step parse s (.push k) = some t) :
    ∃ d b bundles, s.threads.dealers[k]? = some d ∧ s.pending k = b :: bundles ∧
      t = { s with
        threads := pushBundle s.threads d.cameraId b
        pending := Function.update s.pending k bundles } := by
  unfold step at h
  dsimp only at h
  split at h
  · rename_i d b bundles hd hpending
    exact ⟨d, b, bundles, hd, hpending, (Option.some.inj h).symm⟩
  · cases h

theorem Inv.push (hs : Inv s) {k : ℕ} (hG : NotRemoved s (.push k))
    (h : step parse s (.push k) = some t) : Inv t := by
  obtain ⟨d, b, bundles, hd, hpending, rfl⟩ := step_push h
  have hfree : ¬s.Removed ⟨d.cameraId, b.type⟩ := by
    refine hG d hd b ?_
    rw [hpending]
    rfl
  have hthreads : DealerThreads.Inv (pushBundle s.threads d.cameraId b) :=
    ⟨hs.threads.coherent, hs.threads.running, hs.threads.spawned, hs.threads.owned,
      hs.threads.joining, hs.threads.channels, hs.threads.connected⟩
  refine ⟨hthreads, fun key hkey => ?_, fun key hkey => ?_⟩
  · have hne : key ≠ ⟨d.cameraId, b.type⟩ := by
      rintro rfl
      exact hfree hkey
    exact (DataBuffer.lookup_push_ne hne).trans (hs.removed key hkey)
  · by_cases hne : key = ⟨d.cameraId, b.type⟩
    · obtain ⟨slot, hslot, -⟩ := hs.threads.channels d (List.mem_of_getElem? hd)
      change s.threads.mgr.slots.lookup key.cameraId ≠ none
      rw [hne, hslot]
      exact Option.some_ne_none slot
    · change (s.threads.mgr.buffer.push d.cameraId b.type b).slots.lookup key ≠ none at hkey
      rw [DataBuffer.lookup_push_ne hne] at hkey
      exact hs.configured key hkey

theorem Inv.step (hs : Inv s) {a : Action} (hG : NotRemoved s a) (h : step parse s a = some t) :
    Inv t := by
  cases a with
  | startCapture cameraId types => exact hs.startCapture h
  | stopCapture cameraId types => exact hs.stopCapture h
  | stopReturns i => exact hs.stopReturns h
  | dealer k subs => exact hs.dealer h
  | receive k grp zparts => exact hs.receive h
  | push k => exact hs.push hG h

end

/-- As long as no dealer pushes into a removed slot, the slots of a returned `stop_capture`
stay away until a start names them. -/
theorem noStoppedSlot_of_guarded (parse : Bytes → Except JsonException Json) (n : UInt64)
    (configs : List CameraSDKConfig) (as : List Action)
    (hG : Guarded (step parse) NotRemoved
      (.init ((SDKSlotManager.mk' (.mk' n)).configure configs)) as) {t : State}
    (h : run (step parse) (.init ((SDKSlotManager.mk' (.mk' n)).configure configs)) as = some t) :
    NoStoppedSlot t := by
  have hinv : Inv t := hG.invariant (fun s a t hs hG h => hs.step hG h) (inv_init n configs) h
  exact fun key hkey => hinv.removed key (.inl hkey)

def imuHeader : Json := .object [("parts", .array [.object [("id", .string (bytes "imu"))]])]

def imuCamera : List CameraSDKConfig :=
  [⟨"cam1", "http://localhost:8080", "", [("sensor_data", "tcp://localhost:5558")]⟩]

def firstMessage : List Action :=
  [.startCapture "cam1" [.imu], .dealer 0 [("sensor_data", "tcp://localhost:5558")],
    .dealer 0 [], .receive 0 "sensor_data" [[], [1]]]

def lastReturn : List Action := [.dealer 0 [], .dealer 0 [], .stopReturns 0]

def pushBeforeStop : List Action :=
  firstMessage ++ [.push 0, .stopCapture "cam1" [.imu]] ++ lastReturn

def pushAfterStop : List Action :=
  firstMessage ++ [.stopCapture "cam1" [.imu], .push 0] ++ lastReturn

theorem noStoppedSlot_pushBeforeStop :
    ∃ t, run (step fun _ => .ok imuHeader)
        (.init ((SDKSlotManager.mk' (.mk' 3)).configure imuCamera)) pushBeforeStop = some t ∧
      NoStoppedSlot t := by
  have hruns : (run (step fun _ => .ok imuHeader)
      (.init ((SDKSlotManager.mk' (.mk' 3)).configure imuCamera)) pushBeforeStop).isSome := by
    decide
  have hguarded : Guarded (step fun _ => .ok imuHeader) NotRemoved
      (.init ((SDKSlotManager.mk' (.mk' 3)).configure imuCamera)) pushBeforeStop :=
    .of_allSteps (fun s a => decide (NotRemoved s a)) (fun s a => of_decide_eq_true) (by decide)
  obtain ⟨t, ht⟩ := Option.isSome_iff_exists.mp hruns
  exact ⟨t, ht, noStoppedSlot_of_guarded _ 3 imuCamera pushBeforeStop hguarded ht⟩

/-- The push comes between the section of `stop_capture` and the join. -/
theorem push_brings_slot_back :
    ∃ t, run (step fun _ => .ok imuHeader)
        (.init ((SDKSlotManager.mk' (.mk' 3)).configure imuCamera)) pushAfterStop = some t ∧
      ¬NoStoppedSlot t := by
  refine ⟨_, rfl, fun h => ?_⟩
  have hslot := h ⟨"cam1", .imu⟩ (by decide)
  have hsome := congrArg Option.isSome hslot
  exact absurd hsome (by decide)

end StereoCamera.StoppedSlots
