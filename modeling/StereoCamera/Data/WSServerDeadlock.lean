import StereoCamera.Data.WSServerThreads
import StereoCamera.Lib.Transition

/-! When the threads of `WSServer` can wait for one another in a circle. -/

namespace StereoCamera.WSServer.Threads
open Locks

/-! ## The mutexes held at each place -/

def AcceptPc.held : AcceptPc → List Mutex
  | .cleaning _ | .joinSend _ _ | .joinLoop _ _ | .erase _ _ | .pushing => [.clients]
  | _ => []

def StopPc.held : StopPc → List Mutex
  | .stopping _ | .stopSend _ _ | .joinSend _ _ | .joinLoop _ _ => [.clients]
  | _ => []

def EncodePc.held : EncodePc → List Mutex
  | .encodedHeld => [.encoded]
  | .waiting => [.encode]
  | _ => []

def CallerPc.held : CallerPc → List Mutex
  | .sending _ | .sendLock _ _ | .counting => [.clients]
  | .writing c _ => [.send c, .clients]
  | .notifying => [.encode]
  | _ => []

def LoopPc.held (c : ℕ) : LoopPc → List Mutex
  | .greeting | .reading => [.send c]
  | .encodedHeld => [.encoded]
  | .queueHeld _ => [.sendQueue c]
  | .clientsHeld => [.clients]
  | _ => []

def SendPc.held (c : ℕ) : SendPc → List Mutex
  | .waiting => [.sendQueue c]
  | .sending => [.send c]
  | _ => []

def held (t : Thread) (p : Pc) : List Mutex :=
  match t, p with
  | .accept, .accept p => p.held
  | .stopper, .stop p => p.held
  | .encode, .encode p => p.held
  | .caller _, .caller p => p.held
  | .loop c, .loop p => p.held c
  | .send c, .send p => p.held c
  | _, _ => []

def Holds (t : Thread) (p : Pc) (l : Mutex) : Prop := l ∈ held t p

/-! ## How much has to happen first -/

def Mutex.level : Mutex → ℕ
  | .clients => 2
  | _ => 0

def AcceptPc.rank : AcceptPc → ℕ
  | .cleanLock | .pushLock => 3
  | .joinSend _ _ | .joinLoop _ _ => 2
  | _ => 0

def StopPc.rank : StopPc → ℕ
  | .joinAccept | .joinEncode => 4
  | .clientsLock => 3
  | .joinSend _ _ | .joinLoop _ _ => 2
  | _ => 0

def EncodePc.rank : EncodePc → ℕ
  | .encodedLock | .encodeLock => 1
  | _ => 0

def CallerPc.rank : CallerPc → ℕ
  | .broadcastLock | .countLock => 3
  | .sendLock _ _ | .notifyLock => 1
  | _ => 0

def LoopPc.rank : LoopPc → ℕ
  | .clientsLock => 3
  | .greetLock | .readLock | .encodedLock | .queueLock _ => 1
  | _ => 0

def SendPc.rank : SendPc → ℕ
  | .queueLock | .sendLock => 1
  | _ => 0

/-- Above the ranks of all that the thread can be waiting for. -/
def rank (t : Thread) (p : Pc) : ℕ :=
  match t, p with
  | .accept, .accept p => p.rank
  | .stopper, .stop p => p.rank
  | .encode, .encode p => p.rank
  | .caller _, .caller p => p.rank
  | .loop _, .loop p => p.rank
  | .send _, .send p => p.rank
  | _, _ => 0

/-- The rank that a thread never exceeds, as long as no exiting `client_loop` takes
`clients_mutex_`. -/
def Thread.bound : Thread → ℕ
  | .accept | .caller _ => 3
  | .stopper => 4
  | .encode | .loop _ | .send _ => 1

def NoneLogs (s : ThreadState) : Prop := ∀ c, s.pc (.loop c) ≠ .loop .clientsLock

/-- No exiting `client_loop` finds `frame_count_` positive after it has found it a multiple
of 500. -/
def SkipsLog (s : ThreadState) (a : Thread × Answer) : Prop :=
  ∀ c, a.1 = .loop c → s.pc a.1 = .loop .loadAgain → s.data.frameCount = 0

theorem eq_of_lift {P : Type} {f : P → Pc} {next : Next P} {m : Move Thread Mutex Pc} {d : Shared}
    (h : lift f next = some (m, d)) : ∃ m', next = some (m', d) ∧ m = m'.map f := by
  obtain ⟨⟨m', d'⟩, hnext, heq⟩ := Option.map_eq_some_iff.mp h
  cases heq
  exact ⟨m', hnext, rfl⟩

theorem threads_cases {motive : Thread → Pc → Move Thread Mutex Pc → Prop} {d d' : Shared}
    {o : Answer}
    (accept : ∀ p m, acceptLoop p d o = some (m, d') → motive .accept (.accept p) (m.map .accept))
    (stopper : ∀ p m, stop p d o = some (m, d') → motive .stopper (.stop p) (m.map .stop))
    (encode : ∀ p m, encodeLoop p d o = some (m, d') → motive .encode (.encode p) (m.map .encode))
    (caller : ∀ n p m, Threads.caller p d o = some (m, d') →
      motive (.caller n) (.caller p) (m.map .caller))
    (loop : ∀ c p m, clientLoop c p d o = some (m, d') → motive (.loop c) (.loop p) (m.map .loop))
    (send : ∀ c p m, sendLoop c p d o = some (m, d') → motive (.send c) (.send p) (m.map .send))
    {t : Thread} {p : Pc} {m : Move Thread Mutex Pc}
    (h : threads.next t p d o = some (m, d')) : motive t p m := by
  unfold threads at h
  dsimp only at h
  split at h
  · obtain ⟨m', hm, rfl⟩ := eq_of_lift h
    exact accept _ _ hm
  · obtain ⟨m', hm, rfl⟩ := eq_of_lift h
    exact stopper _ _ hm
  · obtain ⟨m', hm, rfl⟩ := eq_of_lift h
    exact encode _ _ hm
  · obtain ⟨m', hm, rfl⟩ := eq_of_lift h
    exact caller _ _ _ hm
  · obtain ⟨m', hm, rfl⟩ := eq_of_lift h
    exact loop _ _ _ hm
  · obtain ⟨m', hm, rfl⟩ := eq_of_lift h
    exact send _ _ _ hm
  · cases h

section
variable {d d' : Shared} {o : Answer}

theorem acceptLoop_scoped {p : AcceptPc} {m : Move Thread Mutex AcceptPc}
    (h : acceptLoop p d o = some (m, d')) :
    m.Scoped (fun p l => l ∈ p.held) p ∧ m.Ranked Mutex.level Thread.bound p.rank := by
  unfold acceptLoop joinIf at h
  split at h <;> (try split_ifs at h) <;> cases h <;>
    simp [Move.Scoped, Move.Ranked, AcceptPc.held, AcceptPc.rank, Mutex.level, Thread.bound]

theorem stop_scoped {p : StopPc} {m : Move Thread Mutex StopPc} (h : stop p d o = some (m, d')) :
    m.Scoped (fun p l => l ∈ p.held) p ∧ m.Ranked Mutex.level Thread.bound p.rank := by
  unfold stop joinIf at h
  split at h <;> (try split_ifs at h) <;> cases h <;>
    simp [Move.Scoped, Move.Ranked, StopPc.held, StopPc.rank, Mutex.level, Thread.bound]

theorem encodeLoop_scoped {p : EncodePc} {m : Move Thread Mutex EncodePc}
    (h : encodeLoop p d o = some (m, d')) :
    m.Scoped (fun p l => l ∈ p.held) p ∧ m.Ranked Mutex.level Thread.bound p.rank := by
  unfold encodeLoop at h
  split at h <;> (try split at h) <;> cases h <;>
    simp [Move.Scoped, Move.Ranked, EncodePc.held, EncodePc.rank, Mutex.level]

theorem caller_scoped {p : CallerPc} {m : Move Thread Mutex CallerPc}
    (h : caller p d o = some (m, d')) :
    m.Scoped (fun p l => l ∈ p.held) p ∧ m.Ranked Mutex.level Thread.bound p.rank := by
  unfold caller at h
  split at h <;> (try split at h) <;> cases h <;>
    simp [Move.Scoped, Move.Ranked, CallerPc.held, CallerPc.rank, Mutex.level]
  -- Behind a write, `broadcast` still holds `clients_mutex_`.
  grind

theorem clientLoop_scoped {c : ℕ} {p : LoopPc} {m : Move Thread Mutex LoopPc}
    (h : clientLoop c p d o = some (m, d')) :
    m.Scoped (fun p l => l ∈ p.held c) p ∧ m.Ranked Mutex.level Thread.bound p.rank := by
  unfold clientLoop at h
  split at h <;> (try split_ifs at h) <;> (try split at h) <;> cases h <;> (try split_ifs) <;>
    simp [Move.Scoped, Move.Ranked, LoopPc.held, LoopPc.rank, Mutex.level]

theorem sendLoop_scoped {c : ℕ} {p : SendPc} {m : Move Thread Mutex SendPc}
    (h : sendLoop c p d o = some (m, d')) :
    m.Scoped (fun p l => l ∈ p.held c) p ∧ m.Ranked Mutex.level Thread.bound p.rank := by
  unfold sendLoop at h
  split at h <;> (try split at h) <;> cases h <;> (try split_ifs) <;>
    simp [Move.Scoped, Move.Ranked, SendPc.held, SendPc.rank, Mutex.level]

theorem threads_scoped : threads.Scoped Holds := by
  intro t p d o m d' h
  refine threads_cases (motive := fun t p m => m.Scoped (Holds t) p) ?_ ?_ ?_ ?_ ?_ ?_ h
  · exact fun p m hm => Move.scoped_map.mpr (acceptLoop_scoped hm).1
  · exact fun p m hm => Move.scoped_map.mpr (stop_scoped hm).1
  · exact fun p m hm => Move.scoped_map.mpr (encodeLoop_scoped hm).1
  · exact fun n p m hm => Move.scoped_map.mpr (caller_scoped hm).1
  · exact fun c p m hm => Move.scoped_map.mpr (clientLoop_scoped hm).1
  · exact fun c p m hm => Move.scoped_map.mpr (sendLoop_scoped hm).1

theorem threads_ranked {t : Thread} {p : Pc} {m : Move Thread Mutex Pc}
    (h : threads.next t p d o = some (m, d')) : m.Ranked Mutex.level Thread.bound (rank t p) := by
  refine threads_cases (motive := fun t p m => m.Ranked Mutex.level Thread.bound (rank t p))
    ?_ ?_ ?_ ?_ ?_ ?_ h
  · exact fun p m hm => Move.ranked_map.mpr (acceptLoop_scoped hm).2
  · exact fun p m hm => Move.ranked_map.mpr (stop_scoped hm).2
  · exact fun p m hm => Move.ranked_map.mpr (encodeLoop_scoped hm).2
  · exact fun n p m hm => Move.ranked_map.mpr (caller_scoped hm).2
  · exact fun c p m hm => Move.ranked_map.mpr (clientLoop_scoped hm).2
  · exact fun c p m hm => Move.ranked_map.mpr (sendLoop_scoped hm).2

theorem rank_le_level {t : Thread} {p : Pc} {l : Mutex} (h : Holds t p l) :
    rank t p ≤ l.level := by
  -- Whoever holds a mutex waits only for what is below it.
  unfold Holds held at h
  unfold rank
  split at h
  · rename_i p
    cases p <;> simp_all [AcceptPc.held, AcceptPc.rank, Mutex.level]
  · rename_i p
    cases p <;> simp_all [StopPc.held, StopPc.rank, Mutex.level]
  · rename_i p
    cases p <;> simp_all [EncodePc.held, EncodePc.rank]
  · rename_i n p
    cases p <;> simp_all [CallerPc.held, CallerPc.rank, Mutex.level]
  · rename_i c p
    cases p <;> simp_all [LoopPc.held, LoopPc.rank]
  · rename_i c p
    cases p <;> simp_all [SendPc.held, SendPc.rank]
  · cases h

theorem rank_le_bound {s : ThreadState} (hs : NoneLogs s) (t : Thread) :
    rank t (s.pc t) ≤ t.bound := by
  unfold rank
  split
  · rename_i p heq
    cases p <;> simp [AcceptPc.rank, Thread.bound]
  · rename_i p heq
    cases p <;> simp [StopPc.rank, Thread.bound]
  · rename_i p heq
    cases p <;> simp [EncodePc.rank, Thread.bound]
  · rename_i n p heq
    cases p <;> simp [CallerPc.rank, Thread.bound]
  · rename_i c p heq
    cases p
    case clientsLock => exact absurd heq (hs c)
    all_goals simp [LoopPc.rank, Thread.bound]
  · rename_i c p heq
    cases p <;> simp [SendPc.rank, Thread.bound]
  · exact Nat.zero_le _

theorem eq_of_next_loop {c : ℕ} {q : Pc} {m : Move Thread Mutex Pc}
    (h : threads.next (.loop c) q d o = some (m, d')) :
    ∃ p m', q = .loop p ∧ clientLoop c p d o = some (m', d') ∧ m = m'.map .loop := by
  cases q with
  | loop p =>
    obtain ⟨m', hm', hmap⟩ := eq_of_lift h
    exact ⟨p, m', rfl, hm', hmap⟩
  | _ => cases h

theorem clientLoop_clientsLock {c : ℕ} {p : LoopPc} {m : Move Thread Mutex LoopPc}
    (h : clientLoop c p d o = some (m, d')) (hm : m.dest = .clientsLock) :
    p = .loadAgain ∧ 0 < d.frameCount := by
  -- Only the second load of `frame_count_` leads there.
  unfold clientLoop at h
  split at h <;> (try split_ifs at h) <;> (try split at h) <;> cases h <;>
    simp only [Move.dest] at hm <;> (try split_ifs at hm) <;> cases hm
  exact ⟨rfl, ‹_›⟩

end

theorem NoneLogs.step {s t : ThreadState} {a : Thread × Answer} (hs : NoneLogs s)
    (hskip : SkipsLog s a) (h : step threads s a = some t) : NoneLogs t := by
  obtain ⟨m, d, hnext, hpc, -, -⟩ := step_cases h
  intro c hc
  rw [hpc] at hc
  by_cases hac : a.1 = .loop c
  · -- The move into `clientsLock` is the one that logs, which `SkipsLog` excludes.
    rw [← hac, Function.update_self] at hc
    obtain ⟨p, m', hp, hloop, rfl⟩ := eq_of_next_loop (hac ▸ hnext)
    have hm' : m'.dest = .clientsLock := by
      cases m' <;> exact Pc.loop.inj hc
    obtain ⟨rfl, hpos⟩ := clientLoop_clientsLock hloop hm'
    rw [hskip c hac (hac ▸ hp)] at hpos
    exact absurd hpos (by decide)
  · rw [Function.update_of_ne (Ne.symm hac)] at hc
    exact hs c hc

theorem not_circular {s : ThreadState} (howned : Owned Holds s) (hs : NoneLogs s) :
    ¬Circular threads s :=
  not_circular_of_ranked rank howned (fun _ _ => rank_le_level) (rank_le_bound hs)
    fun _ _ _ _ => threads_ranked

/-- The threads never wait in a circle in a run in which no exiting `client_loop` logs. -/
theorem not_circular_of_skipsLog {s : ThreadState} (as : List (Thread × Answer))
    (hG : Transition.Guarded (step threads) SkipsLog started as)
    (hrun : Transition.run (step threads) started as = some s) : ¬Circular threads s := by
  have hs : Owned Holds s ∧ NoneLogs s := by
    refine Transition.Guarded.invariant (I := fun s => Owned Holds s ∧ NoneLogs s)
      (G := SkipsLog) ?_ hG ?_ hrun
    · rintro r a t ⟨howned, hr⟩ hskip h
      exact ⟨howned.step threads_scoped h, hr.step hskip h⟩
    · refine ⟨?_, fun c hc => by cases hc⟩
      intro l t
      refine iff_of_false (fun h => by cases h) ?_
      cases t <;> exact List.not_mem_nil
  exact not_circular hs.1 hs.2

/-! ## A client that leaves after one frame, and after 500 -/

/-- A client connects, subscribes and reaches the loop over the slots. -/
def connectSchedule : List (Thread × Answer) :=
  [(.accept, .no), (.accept, .no), (.accept, .no), (.accept, .yes), (.accept, .no), (.accept, .no),
    (.accept, .no), (.accept, .no), (.accept, .no), (.loop 0, .no), (.loop 0, .no), (.loop 0, .no),
    (.loop 0, .no), (.loop 0, .no), (.loop 0, .yes)]

def sendFrame : List (Thread × Answer) :=
  [(.loop 0, .item .imu), (.loop 0, .no), (.loop 0, .no), (.loop 0, .no)]

/-- The client closes; `accept_loop` joins its threads between the flag and the log. -/
def leaveSchedule : List (Thread × Answer) :=
  [(.loop 0, .no), (.loop 0, .no), (.loop 0, .yes), (.loop 0, .no), (.loop 0, .no), (.loop 0, .no),
    (.loop 0, .no), (.send 0, .no), (.send 0, .no), (.accept, .no), (.accept, .no), (.accept, .no),
    (.accept, .no), (.loop 0, .no), (.loop 0, .no)]

def addFrames (s : ThreadState) (n : ℕ) : ThreadState :=
  { s with data := { s.data with frameCount := s.data.frameCount + UInt32.ofNat n } }

theorem run_sendFrame {s : ThreadState} (hpc : s.pc (.loop 0) = .loop .slots)
    (hfree : s.owner (.sendQueue 0) = none) (hqueue : (s.data.client 0).sendQueue = [.imu]) :
    Transition.run (step threads) s sendFrame = some (addFrames s 1) := by
  simp only [sendFrame, Transition.run_cons, Transition.run_nil, step, threads, lift, clientLoop,
    hpc, State.move, Move.map, Option.map_some, Function.update_self, Option.bind_some,
    Function.update_idem, Shared.setClient]
  simp [addFrames, hpc, hfree]
  rw [hqueue]
  show { s.data.client 0 with sendQueue := [DataType.imu] } = _
  rw [← hqueue]

theorem addFrames_addFrames (s : ThreadState) (m n : ℕ) :
    addFrames (addFrames s m) n = addFrames s (m + n) := by
  unfold addFrames
  simp only [UInt32.ofNat_add, UInt32.add_assoc]

theorem run_sendFrames (n : ℕ) {s : ThreadState} (hpc : s.pc (.loop 0) = .loop .slots)
    (hfree : s.owner (.sendQueue 0) = none) (hqueue : (s.data.client 0).sendQueue = [.imu]) :
    Transition.run (step threads) s (List.replicate n sendFrame).flatten =
      some (addFrames s n) := by
  induction n generalizing s with
  | zero =>
    show some s = some { s with data := { s.data with frameCount := s.data.frameCount + 0 } }
    rw [UInt32.add_zero]
  | succ n ih =>
    rw [List.replicate_succ, List.flatten_cons,
      Transition.run_append_of_eq _ (run_sendFrame hpc hfree hqueue), ih, addFrames_addFrames,
      Nat.add_comm]
    · exact hpc
    · exact hfree
    · exact hqueue

def served : ThreadState :=
  (Transition.run (step threads) started (connectSchedule ++ sendFrame)).getD started

def stuck : ThreadState :=
  (Transition.run (step threads) (addFrames served 499) leaveSchedule).getD started

/-- With one frame sent, the same leave logs nothing. -/
theorem not_circular_oneFrame :
    ¬Circular threads ((Transition.run (step threads) started
      (connectSchedule ++ sendFrame ++ leaveSchedule.dropLast)).getD started) := by
  refine not_circular_of_skipsLog (connectSchedule ++ sendFrame ++ leaveSchedule.dropLast)
    (Transition.Guarded.of_allSteps (fun s a => s.pc a.1 ≠ .loop .loadAgain) ?_ ?_) ?_
  · intro s a hne c _ heq
    exact absurd heq (of_decide_eq_true hne)
  · decide
  · rfl

/-- `accept_loop` holds `clients_mutex_` and joins the `client_loop` that waits for it. -/
theorem client_leaves_circular :
    Transition.run (step threads) started
        (connectSchedule ++ sendFrame ++ (List.replicate 499 sendFrame).flatten ++ leaveSchedule) =
      some stuck ∧ Circular threads stuck := by
  constructor
  · have hserved : Transition.run (step threads) started (connectSchedule ++ sendFrame) =
        some served := rfl
    rw [List.append_assoc, Transition.run_append_of_eq _ hserved, Transition.run_append_of_eq _
      (run_sendFrames 499 rfl rfl rfl)]
    rfl
  · -- The 500th frame makes the count a multiple of 500, so the client logs as it leaves.
    refine ⟨.accept, .tail (b := .loop 0) (.single ?_) ?_⟩
    · exact .join (o := .no) rfl rfl
    · exact .lock (o := .no) rfl rfl

end StereoCamera.WSServer.Threads
