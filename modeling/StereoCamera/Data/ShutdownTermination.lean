import StereoCamera.Lib.Termination
import StereoCamera.Data.ShutdownInvariant

/-! Whether `main` comes to its end, and what is left of the threads then. -/

namespace StereoCamera.Shutdown
open Transition DealerThreads

def MainPc.stepsLeft : MainPc → ℕ
  | .serving => 0
  | .stopping => 0
  | .joining ks => ks.length + 2
  | .destroying => 1
  | .destroyed => 0

def State.stepsLeft (s : State) : ℕ :=
  s.main.stepsLeft + (s.threads.dealers.map fun d => d.pc.stepsLeft).sum

/-- No `start_capture` creates a dealer with channels after the first section of `stop_all`. -/
def NoLateDealer (s : State) : Action → Prop
  | .thread (.startCapture cameraId _) =>
    s.main.Past → ∀ d, newDealer s.threads.mgr cameraId = some d → d.channels = []
  | _ => True

/-- After the first section of `stop_all`, whoever is in the loop finds its condition false. -/
def Quiet (s : State) : Prop :=
  s.main.Past → ∀ d ∈ s.threads.dealers, d.MayLoop → s.threads.loopCondition d.cameraId = false

section
variable {s t : State} {th : DealerThreads.State} {k : ℕ} {a : Action}

theorem Quiet.of_active (hs : Inv s) (ht : Inv t) (hq : Quiet s)
    (hpast : t.main.Past → (∃ d ∈ t.threads.dealers, t.threads.loopCondition d.cameraId = true) →
      s.main.Past)
    (hdealers : ∀ d ∈ t.threads.dealers, d.MayLoop →
      ∃ e ∈ s.threads.dealers, e.MayLoop ∧ e.cameraId = d.cameraId)
    (hactive : t.main.Past → ∀ id, t.threads.mgr.capturingActive id = true →
      s.threads.mgr.capturingActive id = true) : Quiet t := by
  intro hpt d hd hmay
  by_contra hloop
  rw [Bool.not_eq_false] at hloop
  have hps := hpast hpt ⟨d, hd, hloop⟩
  obtain ⟨e, he, hemay, hcamera⟩ := hdealers d hd hmay
  have hfalse := hq hps e he hemay
  rw [hcamera, hs.loopCondition_eq hps] at hfalse
  rw [ht.loopCondition_eq hpt] at hloop
  exact absurd (hfalse.symm.trans (hactive hpt _ hloop)) Bool.false_ne_true

theorem quiet_startCapture_iff (hs : Inv s) (hq : Quiet s) {id : String} {types : List DataType}
    (h : step s (.thread (.startCapture id types)) = some t) :
    Quiet t ↔ NoLateDealer s (.thread (.startCapture id types)) := by
  have ht : Inv t := hs.step h
  obtain ⟨th, hth, rfl⟩ := step_thread.mp h
  rcases startCapture_cases hth with ⟨hnew, hdealers, -, hsame⟩ |
    ⟨new, hnew, hcamera, hpc, hdealers, hrunning, hself, hwired, hothers⟩
  · refine iff_of_true (hq.of_active hs ht (fun hpast _ => hpast) (fun d hd hmay => ?_) ?_) ?_
    · exact ⟨d, hdealers ▸ hd, hmay, rfl⟩
    · exact fun _ id' hid => hsame id' ▸ hid
    · intro _ d hd
      rw [hnew] at hd
      cases hd
  have hmay : new.MayLoop ↔ new.channels ≠ [] := by
    unfold Dealer.MayLoop
    rw [hpc]
  have hloop : th.loopCondition id = true := by
    unfold DealerThreads.State.loopCondition
    rw [hrunning, hself]
    rfl
  constructor
  · intro hqt hpast d hd
    obtain rfl := Option.some.inj (hnew.symm.trans hd)
    by_contra hne
    have hmem : new ∈ th.dealers := by
      rw [hdealers]
      exact List.mem_append_right _ (List.mem_singleton_self _)
    have hfalse := hqt hpast new hmem (hmay.mpr hne)
    change th.loopCondition new.cameraId = false at hfalse
    rw [hcamera, hloop] at hfalse
    cases hfalse
  · intro hguard hpast d hd hdmay
    have hnone : new.channels = [] := hguard hpast new hnew
    change th.loopCondition d.cameraId = false
    change d ∈ th.dealers at hd
    rw [hdealers, List.mem_append, List.mem_singleton] at hd
    rcases hd with hd | rfl
    · -- The camera has no channels, so the dealer is another camera's.
      have hid : d.cameraId ≠ id := by
        intro hid
        exact hwired.mpr (hid ▸ hs.wired d hd hdmay) hnone
      have hfalse := hq hpast d hd hdmay
      rw [hs.loopCondition_eq hpast] at hfalse
      change DealerThreads.State.loopCondition ({ s with threads := th } : State).threads _ = false
      rw [ht.loopCondition_eq hpast]
      exact (hothers _ hid).trans hfalse
    · exact absurd hnone (hmay.mp hdmay)

theorem quiet_step_iff (hs : Inv s) (hq : Quiet s) (h : step s a = some t) :
    Quiet t ↔ NoLateDealer s a := by
  have ht : Inv t := hs.step h
  cases a with
  | thread a =>
    cases a with
    | startCapture id types => exact quiet_startCapture_iff hs hq h
    | stopCapture id types =>
      obtain ⟨th, hth, rfl⟩ := step_thread.mp h
      obtain ⟨joined, howned⟩ := hs.owned
      obtain ⟨hdealers, -, hactive⟩ := stopCapture_cases howned.coherent hth
      refine iff_of_true (hq.of_active hs ht (fun hpast _ => hpast) ?_ fun _ => hactive) trivial
      exact fun d hd hmay => ⟨d, hdealers ▸ hd, hmay, rfl⟩
    | join k =>
      obtain ⟨th, hth, rfl⟩ := step_thread.mp h
      obtain ⟨-, -, rfl⟩ := step_join.mp hth
      exact iff_of_true hq trivial
    | dealer k subs =>
      obtain ⟨th, hth, rfl⟩ := step_thread.mp h
      obtain ⟨d, pc, hd, hpc, rfl⟩ := step_dealer.mp hth
      refine iff_of_true (hq.of_active hs ht (fun hpast _ => hpast) ?_ fun _ id hid => hid) trivial
      intro e he hmay
      obtain ⟨j, hj⟩ := List.getElem?_of_mem he
      obtain ⟨old, hold, rfl | ⟨rfl, rfl⟩⟩ := getElem?_setPc_cases hj
      · exact ⟨e, List.mem_of_getElem? hold, hmay, rfl⟩
      · obtain rfl := Option.some.inj (hd.symm.trans hold)
        exact ⟨d, List.mem_of_getElem? hd, .of_next hpc hmay, rfl⟩
  | main =>
    obtain ⟨hdealers, -, -, -, hactive⟩ := mainStep_cases h
    refine iff_of_true (hq.of_active hs ht ?_ ?_ ?_) trivial
    · rintro hpast ⟨d, -, hloop⟩
      rw [ht.loopCondition_eq hpast] at hloop
      exact (hactive hpast _ hloop).1
    · exact fun d hd hmay => ⟨d, hdealers ▸ hd, hmay, rfl⟩
    · exact fun hpast id hid => (hactive hpast id hid).2.2

end

/-- Moreover, when `zmq_ctx_destroy` returns, no thread that a `stop_capture` has yet to join is
about to open its sockets. -/
def Settled (s : State) (a : Action) : Prop :=
  NoLateDealer s a ∧ (a = .main → s.main = .destroying →
    ∀ k ∈ s.threads.joining, ∀ d, s.threads.dealers[k]? = some d → d.pc ≠ .connecting)

theorem mayLoop_of_step {s t : State} {a : Action} (h : step s a = some t) {d : Dealer}
    (hd : d ∈ t.threads.dealers) (hmay : d.MayLoop) :
    (∃ e ∈ s.threads.dealers, e.MayLoop) ∨
      ∃ id types, a = .thread (.startCapture id types) ∧ newDealer s.threads.mgr id = some d := by
  cases a with
  | main => exact .inl ⟨d, (mainStep_cases h).1 ▸ hd, hmay⟩
  | thread a =>
    obtain ⟨th, hth, rfl⟩ := step_thread.mp h
    cases a with
    | startCapture id types =>
      rcases startCapture_cases hth with ⟨-, hdealers, -⟩ | ⟨new, hnew, -, -, hdealers, -⟩
      · exact .inl ⟨d, hdealers ▸ hd, hmay⟩
      · change d ∈ th.dealers at hd
        rw [hdealers, List.mem_append, List.mem_singleton] at hd
        rcases hd with hd | rfl
        · exact .inl ⟨d, hd, hmay⟩
        · exact .inr ⟨id, types, rfl, hnew⟩
    | stopCapture id types =>
      obtain rfl := Option.some.inj hth
      exact .inl ⟨d, hd, hmay⟩
    | join k =>
      obtain ⟨-, -, rfl⟩ := step_join.mp hth
      exact .inl ⟨d, hd, hmay⟩
    | dealer k subs =>
      obtain ⟨e, pc, he, hpc, rfl⟩ := step_dealer.mp hth
      obtain ⟨j, hj⟩ := List.getElem?_of_mem hd
      obtain ⟨old, hold, rfl | ⟨rfl, rfl⟩⟩ := getElem?_setPc_cases hj
      · exact .inl ⟨d, List.mem_of_getElem? hold, hmay⟩
      · obtain rfl := Option.some.inj (he.symm.trans hold)
        exact .inl ⟨e, List.mem_of_getElem? he, .of_next hpc hmay⟩

theorem joining_of_mayLoop {s : State} (hs : Inv s) (hq : Quiet s) (hmain : s.main = .destroying)
    {k : ℕ} {d : Dealer} (hd : s.threads.dealers[k]? = some d) (hmay : d.MayLoop) :
    k ∈ s.threads.joining := by
  -- When no socket is open, whoever may still loop is a thread that a `stop_capture` joins.
  have hpast : s.main.Past := by
    rw [hmain]
    trivial
  obtain ⟨joined, howned⟩ := hs.owned
  have hk : k ∈ List.range s.threads.dealers.length :=
    List.mem_range.mpr (List.getElem?_eq_some_iff.mp hd).1
  have hnone : s.main.toJoin = [] := by
    rw [hmain]
    rfl
  rw [← howned.threads.mem_iff, hnone, List.append_nil, List.mem_append, List.mem_append] at hk
  rcases hk with (hk | hk) | hk
  · have hreturned := howned.returned k hk
    unfold Returned at hreturned
    rw [hd, Option.map_some, Option.some.injEq] at hreturned
    unfold Dealer.MayLoop at hmay
    rw [hreturned] at hmay
    exact hmay.elim
  · exact hk
  · -- A slot with a thread is capturing, and the dealer would go round.
    obtain ⟨e, he, hthread⟩ := List.mem_filterMap.mp hk
    have hslot : s.threads.mgr.slots.lookup e.1 = some e.2 := AList.mem_lookup_iff.mpr he
    obtain ⟨d', hd', hcamera⟩ := hs.camera e.1 e.2 k hslot hthread
    obtain rfl := Option.some.inj (hd.symm.trans hd')
    have hcapturing := (howned.coherent e.1 e.2 hslot).owns_dealer
    rw [hthread, Option.isSome_some] at hcapturing
    have hloop := hq hpast d (List.mem_of_getElem? hd) hmay
    rw [hs.loopCondition_eq hpast, hcamera,
      SDKSlotManager.capturingActive_iff.mpr ⟨e.2, hslot, hcapturing.symm⟩] at hloop
    cases hloop

theorem destroying_of_mainStep {s t : State} (h : mainStep s = some t)
    (hdestroyed : t.main = .destroyed) :
    s.main = .destroying ∧ ∀ d ∈ s.threads.dealers, ¬HasSockets d := by
  obtain ⟨threads, main⟩ := s
  cases main with
  | destroying => exact ⟨rfl, (Option.ite_none_right_eq_some.mp h).1⟩
  | destroyed => cases h
  | joining ks =>
    cases ks with
    | nil =>
      obtain rfl := Option.some.inj h
      cases hdestroyed
    | cons k ks =>
      obtain rfl := Option.some.inj (Option.ite_none_right_eq_some.mp h).2
      cases hdestroyed
  | _ =>
    obtain rfl := Option.some.inj h
    cases hdestroyed

theorem connecting_of_newDealer {m : SDKSlotManager} {id : String} {d : Dealer}
    (h : newDealer m id = some d) : d.pc = .connecting := by
  unfold newDealer at h
  split at h
  · cases h
  · split_ifs at h
    exact Option.some.inj h ▸ rfl

/-- After `zmq_ctx_destroy` nobody has a socket to open, to use or to close, if no dealer was
created too late and none that a `stop_capture` waits for had its sockets still to open. -/
theorem contextFree_of_run {m : SDKSlotManager} (hm : m.Configured) {as : List Action}
    (hG : Guarded step Settled (State.init m) as) {t : State}
    (h : run step (State.init m) as = some t) (hdestroyed : t.main = .destroyed) :
    ∀ d ∈ t.threads.dealers, ¬d.MayLoop := by
  refine (hG.invariant (I := fun s => (Inv s ∧ Quiet s) ∧
    (s.main = .destroyed → ∀ d ∈ s.threads.dealers, ¬d.MayLoop)) ?_
    ⟨⟨inv_init hm, fun h => h.elim⟩, fun h => MainPc.noConfusion h⟩ h).2 hdestroyed
  rintro s a t ⟨⟨hs, hq⟩, hfree⟩ ⟨hlate, hjoining⟩ ht
  refine ⟨⟨hs.step ht, (quiet_step_iff hs hq ht).mpr hlate⟩, fun hdestroyed d hd hmay => ?_⟩
  by_cases hmain : s.main = .destroyed
  · rcases mayLoop_of_step ht hd hmay with ⟨e, he, hemay⟩ | ⟨id, types, rfl, hnew⟩
    · exact hfree hmain e he hemay
    · have hnone : d.channels = [] := hlate (hmain ▸ trivial) d hnew
      unfold Dealer.MayLoop at hmay
      rw [connecting_of_newDealer hnew] at hmay
      exact hmay hnone
  · -- This is the step in which `zmq_ctx_destroy` returns.
    cases a with
    | thread a =>
      obtain ⟨th, -, rfl⟩ := step_thread.mp ht
      exact hmain hdestroyed
    | main =>
      obtain ⟨hdestroying, hclosed⟩ := destroying_of_mainStep ht hdestroyed
      rw [(mainStep_cases ht).1] at hd
      obtain ⟨k, hk⟩ := List.getElem?_of_mem hd
      have hwaited := joining_of_mayLoop hs hq hdestroying hk hmay
      have hpc := hjoining rfl hdestroying k hwaited d hk
      unfold Dealer.MayLoop at hmay
      cases hp : d.pc with
      | connecting => exact hpc hp
      | atCondition => exact hclosed d hd (.inl hp)
      | receiving => exact hclosed d hd (.inr hp)
      | returned =>
        rw [hp] at hmay
        exact hmay

/-- `stop_capture` still waits for the dealer when `zmq_ctx_destroy` returns. -/
def stopWaitsSchedule : List Action :=
  [.thread (.startCapture "cam1" [.imu]),
    .thread (.dealer 0 [("sensor_data", "tcp://localhost:5558")]),
    .thread (.stopCapture "cam1" [.imu]), .main, .main, .main, .thread (.dealer 0 []), .main]

theorem contextFree_of_run_stopWaits :
    ∃ t, run step (State.init oneCamera) stopWaitsSchedule = some t ∧ t.main = .destroyed ∧
      t.threads.dealers.length = 1 ∧ t.threads.joining = [0] ∧
      ∀ d ∈ t.threads.dealers, ¬d.MayLoop := by
  have hG : Guarded step Settled (State.init oneCamera) stopWaitsSchedule := by
    have hthread : ∀ s a, NoLateDealer s (.thread a) → Settled s (.thread a) :=
      fun _ _ h => ⟨h, fun h => Action.noConfusion h⟩
    have hmain : ∀ pc : MainPc, pc ≠ .destroying → ∀ s : State, s.main = pc → Settled s .main :=
      fun pc hpc s hs => ⟨trivial, fun _ h => absurd (hs.symm.trans h) hpc⟩
    refine .cons (hthread _ _ fun h => h.elim) rfl (.cons (hthread _ _ trivial) rfl ?_)
    refine .cons (hthread _ _ trivial) rfl ?_
    refine .cons (hmain .serving (fun h => nomatch h) _ rfl) rfl ?_
    refine .cons (hmain .stopping (fun h => nomatch h) _ rfl) rfl ?_
    refine .cons (hmain (.joining []) (fun h => nomatch h) _ rfl) rfl ?_
    refine .cons (hthread _ _ trivial) rfl (.cons ⟨trivial, fun _ _ k hk d hd => ?_⟩ rfl trivial)
    -- The dealer has returned, though nobody has joined it.
    obtain rfl : k = 0 := List.mem_singleton.mp hk
    obtain rfl := Option.some.inj hd
    exact fun hpc => DealerPc.noConfusion hpc
  exact ⟨_, rfl, rfl, rfl, rfl, contextFree_of_run configured_oneCamera hG rfl rfl⟩

/-- The thread that a `stop_capture` waits for opens its sockets after the context is gone. -/
def waitedSchedule : List Action :=
  [.thread (.startCapture "cam1" [.imu]), .thread (.stopCapture "cam1" [.imu]), .main, .main,
    .main, .main]

example : ∃ t, run step (State.init oneCamera) waitedSchedule = some t ∧ t.main = .destroyed ∧
    t.threads.dealers.map Dealer.pc = [.connecting] := ⟨_, rfl, rfl, rfl⟩

end StereoCamera.Shutdown
