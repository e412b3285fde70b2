import StereoCamera.Data.CaptureSections
import StereoCamera.Data.DealerThreads

/-! The end of `main`, from `stop_all` to `zmq_ctx_destroy`, while the API servers still serve
commands. They are stopped last. -/

namespace StereoCamera.Shutdown
open Transition DealerThreads

inductive MainPc
  | serving
  /-- `running_` is false. -/
  | stopping
  /-- Past the first section of `stop_all`; these threads are still to be joined. -/
  | joining (ks : List ℕ)
  | destroying
  | destroyed

structure State where
  threads : DealerThreads.State
  main : MainPc

inductive Action
  | thread (a : DealerThreads.Action)
  | main

def State.setMgr (s : State) (m : SDKSlotManager) (main : MainPc) : State :=
  ⟨{ s.threads with mgr := m }, main⟩

def HasSockets (d : Dealer) : Prop := d.pc = .atCondition ∨ d.pc = .receiving

instance decidableHasSockets (d : Dealer) : Decidable (HasSockets d) :=
  inferInstanceAs (Decidable (_ ∨ _))

/-- `zmq_ctx_destroy` waits until every socket of the context is closed. -/
def mainStep (s : State) : Option State :=
  match s.main with
  | .serving => some (s.setMgr s.threads.mgr.stopRunning .stopping)
  | .stopping => some (s.setMgr s.threads.mgr.stopAll.1 (.joining s.threads.mgr.stopAll.2))
  | .joining [] => some (s.setMgr s.threads.mgr.shutDown .destroying)
  | .joining (k :: ks) =>
    if (s.threads.dealers[k]?).map Dealer.pc = some .returned then
      some { s with main := .joining ks }
    else none
  | .destroying =>
    if ∀ d ∈ s.threads.dealers, ¬HasSockets d then some { s with main := .destroyed } else none
  | .destroyed => none

def step (s : State) : Action → Option State
  | .thread a => (DealerThreads.step s.threads a).map fun threads => { s with threads := threads }
  | .main => mainStep s

def State.init (m : SDKSlotManager) : State := ⟨.init m, .serving⟩

def joins (s : State) : Action → List ℕ
  | .thread (.join k) => [k]
  | .main =>
    match s.main with
    | .joining (k :: _) => [k]
    | _ => []
  | _ => []

def MainPc.toJoin : MainPc → List ℕ
  | .joining ks => ks
  | _ => []

def slotThreads (slots : AList fun _ : String => SDKSlot) : List ℕ :=
  slots.entries.filterMap fun e => e.2.dealerThread

def Returned (s : DealerThreads.State) (k : ℕ) : Prop :=
  (s.dealers[k]?).map Dealer.pc = some .returned

/-- Every thread has been joined, or belongs to one slot or one caller that will join it. -/
structure Owned (joined : List ℕ) (s : State) : Prop where
  coherent : s.threads.mgr.Coherent
  spawned : s.threads.mgr.spawned = s.threads.dealers.length
  threads : (joined ++ s.threads.joining ++ s.main.toJoin ++ slotThreads s.threads.mgr.slots).Perm
    (List.range s.threads.dealers.length)
  returned : ∀ k ∈ joined, Returned s.threads k

section
variable {s t : State} {th : DealerThreads.State} {joined : List ℕ} {k : ℕ} {a : Action}

theorem step_thread {a : DealerThreads.Action} :
    step s (.thread a) = some t ↔
      ∃ th, DealerThreads.step s.threads a = some th ∧ t = { s with threads := th } := by
  unfold step
  rw [Option.map_eq_some_iff]
  simp only [eq_comm]

theorem Returned.setPc {d : Dealer} {c : Bool} {subs : List (String × String)} {pc : DealerPc}
    {j : ℕ} (h : Returned th k) (hd : th.dealers[j]? = some d) (hpc : d.next c subs = some pc) :
    Returned (th.setPc j pc) k := by
  have hkj : j ≠ k := by
    rintro rfl
    unfold Returned at h
    rw [hd] at h
    rw [Dealer.next, Option.some.inj h] at hpc
    cases hpc
  unfold Returned
  rw [getElem?_setPc, if_neg hkj]
  exact h

theorem Returned.append (h : Returned th k) (new : List Dealer) :
    ((th.dealers ++ new)[k]?).map Dealer.pc = some .returned := by
  obtain ⟨d, hd, hpc⟩ := Option.map_eq_some_iff.mp h
  rw [List.getElem?_append_left (List.getElem?_eq_some_iff.mp hd).1]
  exact h

theorem count_slotThreads_replace {slots : AList fun _ : String => SDKSlot} {id : String}
    {slot : SDKSlot} (h : slots.lookup id = some slot) (new : SDKSlot) (x : ℕ) :
    new.dealerThread.toList.count x + (slotThreads slots).count x =
      slot.dealerThread.toList.count x + (slotThreads (slots.replace id new)).count x := by
  have hperm := AList.perm_filterMap_replace (fun e => e.2.dealerThread) new h
  have hcount := hperm.count_eq x
  rw [List.count_append, List.count_append] at hcount
  exact hcount

theorem dealerThread_eq_none {slot : SDKSlot} (h : slot.Coherent)
    (hcapturing : slot.capturing = false) : slot.dealerThread = none := by
  have howned := h.owns_dealer
  rwa [hcapturing, Option.isSome_eq_false_iff, Option.isNone_iff_eq_none] at howned

theorem count_slotThreads_startCapture {m : SDKSlotManager} (hm : m.Coherent) {id : String}
    {slot : SDKSlot} (h : m.slots.lookup id = some slot) (types : List DataType) (x : ℕ) :
    (slotThreads (m.startCapture id types).1.slots).count x =
      (slotThreads m.slots).count x + if slot.capturing then 0 else [m.spawned].count x := by
  have hcount := count_slotThreads_replace h (slot.startCapture types m.spawned) x
  have hslots : (m.startCapture id types).1.slots =
      m.slots.replace id (slot.startCapture types m.spawned) := by
    unfold SDKSlotManager.startCapture
    rw [h]
  rw [← hslots, SDKSlot.startCapture_dealerThread] at hcount
  split_ifs at hcount ⊢ with hcapturing
  · omega
  · rw [dealerThread_eq_none (hm id slot h) (eq_false_of_ne_true hcapturing)] at hcount
    simp only [Option.toList_some, Option.toList_none, List.count_nil] at hcount
    omega

theorem count_slotThreads_stopCapture {m : SDKSlotManager} (hm : m.Coherent) (id : String)
    (types : List DataType) (x : ℕ) :
    (slotThreads (m.stopCapture id types).1.slots).count x +
      (m.stopCapture id types).2.2.toList.count x = (slotThreads m.slots).count x := by
  -- The thread that `stop_capture` takes over was its slot's.
  rcases h : m.slots.lookup id with _ | slot
  · rw [SDKSlotManager.stopCapture_of_lookup_none h]
    rfl
  have hcount := count_slotThreads_replace h (slot.stopCapture types).1 x
  have hcoherent := hm id slot h
  obtain ⟨-, -, hdealer, htaken⟩ := hcoherent.stopCapture_eq types
  have hslots : (m.stopCapture id types).1.slots =
      m.slots.replace id (slot.stopCapture types).1 := by
    unfold SDKSlotManager.stopCapture
    rw [h]
  have hthread : (m.stopCapture id types).2.2 = (slot.stopCapture types).2 := by
    unfold SDKSlotManager.stopCapture
    rw [h]
  rw [← hslots, hdealer] at hcount
  rw [hthread, htaken]
  rcases lt_trichotomy slot.subscriberCount 1 with hlt | heq | hgt
  · have hcapturing : slot.capturing = false := by
      rw [← Bool.not_eq_true, hcoherent.capturing_iff]
      omega
    rw [dealerThread_eq_none hcoherent hcapturing] at hcount ⊢
    simp only [ite_self, Option.toList_none, List.count_nil] at hcount ⊢
    omega
  · rw [heq] at hcount ⊢
    simp only [lt_irrefl, if_false, if_true, Option.toList_none, List.count_nil] at hcount ⊢
    omega
  · rw [if_pos hgt] at hcount
    rw [if_neg hgt.ne', Option.toList_none, List.count_nil]
    omega

theorem slotThreads_mapValues {slots : AList fun _ : String => SDKSlot} {f : SDKSlot → SDKSlot}
    (hf : ∀ slot, (f slot).dealerThread = slot.dealerThread) :
    slotThreads (slots.mapValues fun _ => f) = slotThreads slots := by
  unfold slotThreads AList.mapValues
  rw [List.filterMap_map]
  exact congrArg (List.filterMap · _) (funext fun e => hf e.2)

theorem slotThreads_stopAll (m : SDKSlotManager) : slotThreads m.stopAll.1.slots = [] := by
  unfold slotThreads SDKSlotManager.stopAll AList.mapValues
  rw [List.filterMap_map]
  exact List.filterMap_eq_nil_iff.mpr fun e _ => rfl

theorem stopAll_threads (m : SDKSlotManager) : m.stopAll.2 = slotThreads m.slots := rfl

theorem coherent_mapValues {m : SDKSlotManager} {f : SDKSlot → SDKSlot}
    (hf : ∀ id slot, m.slots.lookup id = some slot → (f slot).Coherent) :
    ({ m with slots := m.slots.mapValues fun _ => f } : SDKSlotManager).Coherent := by
  intro id slot h
  rw [AList.lookup_mapValues] at h
  obtain ⟨old, hold, rfl⟩ := Option.map_eq_some_iff.mp h
  exact hf id old hold

theorem owned_init {m : SDKSlotManager} (hm : m.Configured) : Owned [] (State.init m) where
  coherent := hm.coherent
  spawned := hm.spawned
  threads := by
    have hnone : slotThreads m.slots = [] := by
      refine List.filterMap_eq_nil_iff.mpr fun e he => ?_
      obtain ⟨cfg, hcfg⟩ := hm.slots e.1 e.2 (AList.mem_lookup_iff.mpr he)
      rw [hcfg]
      rfl
    change ([] ++ slotThreads m.slots).Perm []
    rw [hnone]
    rfl
  returned := fun k hk => absurd hk List.not_mem_nil

theorem threads_perm_iff :
    (joined ++ s.threads.joining ++ s.main.toJoin ++ slotThreads s.threads.mgr.slots).Perm
        (List.range s.threads.dealers.length) ↔
      ∀ x, joined.count x + s.threads.joining.count x + s.main.toJoin.count x +
        (slotThreads s.threads.mgr.slots).count x =
          (List.range s.threads.dealers.length).count x := by
  rw [List.perm_iff_count]
  simp only [List.count_append]

theorem Owned.startCapture (hs : Owned joined s) {id : String} {types : List DataType}
    (h : DealerThreads.step s.threads (.startCapture id types) = some th) :
    Owned joined { s with threads := th } := by
  have hmgr : th.mgr = (s.threads.mgr.startCapture id types).1 := by rw [← Option.some.inj h]
  obtain ⟨-, rfl⟩ | ⟨slot, hslot, hjoining, -, -, hcase⟩ := step_startCapture h
  · exact hs
  have hcount := count_slotThreads_startCapture hs.coherent hslot types
  rw [← hmgr] at hcount
  have hthreads := threads_perm_iff.mp hs.threads
  refine ⟨hmgr ▸ hs.coherent.startCapture id types, ?_, threads_perm_iff.mpr fun x => ?_,
    fun k hk => ?_⟩
  · rcases hcase with ⟨-, hdealers, -, hspawned⟩ | ⟨-, hdealers, -, hspawned⟩
    · rw [hspawned, hdealers, hs.spawned]
    · rw [hspawned, hdealers, hs.spawned, List.length_append, List.length_singleton]
  · have hx := hthreads x
    have hnew := hcount x
    rcases hcase with ⟨hcapturing, hdealers, -⟩ | ⟨hcapturing, hdealers, -⟩
    · rw [hcapturing, if_pos rfl] at hnew
      simp only [hjoining, hdealers]
      omega
    · rw [hcapturing, if_neg Bool.false_ne_true, hs.spawned] at hnew
      simp only [hjoining, hdealers, List.length_append, List.length_singleton,
        List.range_succ, List.count_append]
      omega
  · rcases hcase with ⟨-, hdealers, -⟩ | ⟨-, hdealers, -⟩
    · unfold Returned
      rw [hdealers]
      exact hs.returned k hk
    · unfold Returned
      rw [hdealers]
      exact (hs.returned k hk).append _

theorem Owned.stopCapture (hs : Owned joined s) {id : String} {types : List DataType}
    (h : DealerThreads.step s.threads (.stopCapture id types) = some th) :
    Owned joined { s with threads := th } := by
  obtain rfl := Option.some.inj h
  have hspawned : (s.threads.mgr.stopCapture id types).1.spawned = s.threads.mgr.spawned := by
    unfold SDKSlotManager.stopCapture
    cases s.threads.mgr.slots.lookup id <;> rfl
  refine ⟨hs.coherent.stopCapture id types, hspawned.trans hs.spawned,
    threads_perm_iff.mpr fun x => ?_, hs.returned⟩
  have hx := threads_perm_iff.mp hs.threads x
  have hcount := count_slotThreads_stopCapture hs.coherent id types x
  simp only [List.count_append]
  omega

theorem Owned.join (hs : Owned joined s)
    (h : DealerThreads.step s.threads (.join k) = some th) :
    Owned (joined ++ [k]) { s with threads := th } := by
  obtain ⟨hk, hreturned, rfl⟩ := step_join.mp h
  refine ⟨hs.coherent, hs.spawned, threads_perm_iff.mpr fun x => ?_, fun j hj => ?_⟩
  · have hx := threads_perm_iff.mp hs.threads x
    have hcount := (List.perm_cons_erase hk).count_eq x
    rw [List.count_cons] at hcount
    simp only [List.count_append, List.count_singleton]
    omega
  · rcases List.mem_append.mp hj with hj | hj
    · exact hs.returned j hj
    · rw [List.mem_singleton.mp hj]
      exact hreturned

theorem Owned.dealer (hs : Owned joined s) {subs : List (String × String)}
    (h : DealerThreads.step s.threads (.dealer k subs) = some th) :
    Owned joined { s with threads := th } := by
  obtain ⟨d, pc, hd, hpc, rfl⟩ := step_dealer.mp h
  have hlength : (s.threads.setPc k pc).dealers.length = s.threads.dealers.length :=
    List.length_modify _ _ _
  refine ⟨hs.coherent, hs.spawned.trans hlength.symm, ?_,
    fun j hj => (hs.returned j hj).setPc hd hpc⟩
  show List.Perm _ (List.range (s.threads.setPc k pc).dealers.length)
  rw [hlength]
  exact hs.threads

theorem Owned.main (hs : Owned joined s) (h : mainStep s = some t) :
    Owned (joined ++ joins s .main) t := by
  obtain ⟨threads, main⟩ := s
  have hthreads := threads_perm_iff.mp hs.threads
  cases main with
  | serving =>
    obtain rfl := Option.some.inj h
    rw [joins, List.append_nil]
    exact ⟨hs.coherent, hs.spawned, hs.threads, hs.returned⟩
  | stopping =>
    obtain rfl := Option.some.inj h
    rw [joins, List.append_nil]
    refine ⟨?_, hs.spawned, threads_perm_iff.mpr fun x => ?_, hs.returned⟩
    · exact coherent_mapValues fun _ _ _ => SDKSlot.coherent_of_idle rfl rfl rfl
    · have hx := hthreads x
      simp only [State.setMgr, MainPc.toJoin, stopAll_threads, slotThreads_stopAll,
        List.count_nil] at hx ⊢
      omega
  | joining ks =>
    cases ks with
    | nil =>
      obtain rfl := Option.some.inj h
      rw [joins, List.append_nil]
      refine ⟨?_, hs.spawned, threads_perm_iff.mpr fun x => ?_, hs.returned⟩
      · refine coherent_mapValues fun id slot hslot => ?_
        have hcoherent := hs.coherent id slot hslot
        exact ⟨hcoherent.nonneg, hcoherent.capturing_iff, hcoherent.owns_dealer⟩
      · have hslots : slotThreads threads.mgr.shutDown.slots = slotThreads threads.mgr.slots :=
          slotThreads_mapValues fun _ => rfl
        have hx := hthreads x
        simp only [State.setMgr, MainPc.toJoin, hslots] at hx ⊢
        exact hx
    | cons k ks =>
      obtain ⟨hreturned, h⟩ := Option.ite_none_right_eq_some.mp h
      obtain rfl := Option.some.inj h
      refine ⟨hs.coherent, hs.spawned, threads_perm_iff.mpr fun x => ?_, fun j hj => ?_⟩
      · have hx := hthreads x
        simp only [joins, MainPc.toJoin, List.count_append, List.count_cons, List.count_nil]
          at hx ⊢
        omega
      · rcases List.mem_append.mp hj with hj | hj
        · exact hs.returned j hj
        · rw [List.mem_singleton.mp hj]
          exact hreturned
  | destroying =>
    obtain ⟨-, h⟩ := Option.ite_none_right_eq_some.mp h
    obtain rfl := Option.some.inj h
    rw [joins, List.append_nil]
    exact ⟨hs.coherent, hs.spawned, hs.threads, hs.returned⟩
  | destroyed => cases h

theorem Owned.step (hs : Owned joined s) (h : step s a = some t) :
    Owned (joined ++ joins s a) t := by
  cases a with
  | thread a =>
    obtain ⟨th, hth, rfl⟩ := step_thread.mp h
    cases a with
    | startCapture id types =>
      show Owned (joined ++ []) _
      rw [List.append_nil]
      exact hs.startCapture hth
    | stopCapture id types =>
      show Owned (joined ++ []) _
      rw [List.append_nil]
      exact hs.stopCapture hth
    | join k => exact hs.join hth
    | dealer k subs =>
      show Owned (joined ++ []) _
      rw [List.append_nil]
      exact hs.dealer hth
  | main => exact hs.main h

end

/-- While commands come in and `main` shuts down, in whatever order, every dealer thread that
was ever created has been joined once, after it returned, or still belongs to exactly one slot,
one `stop_capture` or `stop_all`. -/
theorem owned_of_run {m : SDKSlotManager} (hm : m.Configured) {as : List Action} {t : State}
    (h : run step (State.init m) as = some t) :
    (log step joins (State.init m) as ++ t.threads.joining ++ t.main.toJoin ++
        slotThreads t.threads.mgr.slots).Perm (List.range t.threads.dealers.length) ∧
      ∀ k ∈ log step joins (State.init m) as, Returned t.threads k := by
  have howned : Owned ([] ++ log step joins (State.init m) as) t :=
    run_invariant_log (fun _ _ _ _ hs ht => hs.step ht) (owned_init hm) h
  exact ⟨howned.threads, howned.returned⟩

/-- A `stop_capture` waits for its thread while `stop_all` takes over the next one. -/
def restartedSchedule : List Action :=
  [.thread (.startCapture "cam1" [.imu]), .thread (.stopCapture "cam1" [.imu]),
    .thread (.startCapture "cam1" [.imu]), .main, .main, .thread (.dealer 1 []), .main]

theorem owned_of_run_restarted :
    ∃ t, run step (State.init oneCamera) restartedSchedule = some t ∧
      log step joins (State.init oneCamera) restartedSchedule = [1] ∧ t.threads.joining = [0] ∧
      ([1] ++ [0] ++ t.main.toJoin ++ slotThreads t.threads.mgr.slots).Perm (List.range 2) ∧
      ∀ k ∈ [1], Returned t.threads k := by
  obtain ⟨t, ht⟩ : ∃ t, run step (State.init oneCamera) restartedSchedule = some t := ⟨_, rfl⟩
  have howned := owned_of_run configured_oneCamera ht
  obtain rfl := Option.some.inj ht
  exact ⟨_, rfl, rfl, rfl, howned⟩

end StereoCamera.Shutdown
