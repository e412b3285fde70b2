import Mathlib.Data.List.Nodup
import Mathlib.Data.List.Perm.Basic
import Mathlib.Data.List.Range
import StereoCamera.Api.AdminServerThreads
import StereoCamera.Lib.Transition

/-! No connection is handled twice. When `stop` has returned, a queued connection was handled
unless the workers left it behind, and the runs in which they do are told by their steps. -/

namespace StereoCamera.AdminServer.Threads
open Locks Transition

variable {n : ℕ} {s t : ThreadState}

def Calling (s : ThreadState) (i conn : ℕ) : Prop := s.pc (.worker i) = .worker (.calling conn)

def HasLeft (s : ThreadState) (i : ℕ) : Prop := s.pc (.worker i) = .worker .finished

/-- The first `k` connections were popped: each was handled, or is in the hands of one worker. -/
structure Popped (k : ℕ) (s : ThreadState) : Prop where
  le : k ≤ s.data.queued
  pending : s.data.pending = List.range' k (s.data.queued - k)
  nodup : s.data.handled.Nodup
  handled : ∀ conn ∈ s.data.handled, conn < k
  calling : ∀ i conn, Calling s i conn → conn < k ∧ conn ∉ s.data.handled
  unique : ∀ i j conn, Calling s i conn → Calling s j conn → i = j
  all : ∀ conn < k, conn ∈ s.data.handled ∨ ∃ i, Calling s i conn

theorem popped_started (n : ℕ) : Popped 0 (started n) where
  le := Nat.zero_le _
  pending := rfl
  nodup := List.nodup_nil
  handled := fun _ h => absurd h List.not_mem_nil
  calling := by
    intro i conn h
    have hpc := Pc.worker.inj h
    split_ifs at hpc
  unique := by
    intro i j conn h
    have hpc := Pc.worker.inj h
    split_ifs at hpc
  all := fun _ h => absurd h (Nat.not_lt_zero _)

theorem threads_cases {a : Thread × Bool} (h : Locks.step (threads n) s a = some t) :
    (∃ p m d, a.1 = .accept ∧ s.pc .accept = .accept p ∧ acceptLoop p s.data a.2 = some (m, d) ∧
      t.pc = Function.update s.pc .accept (.accept m.dest) ∧ t.data = d) ∨
    (∃ p m d, a.1 = .stopper ∧ s.pc .stopper = .stop p ∧ stop n p s.data a.2 = some (m, d) ∧
      t.pc = Function.update s.pc .stopper (.stop m.dest) ∧ t.data = d ∧
      ∀ u q, m = .join u q → (threads n).finished (s.pc u) = true) ∨
    ∃ i p m d, a.1 = .worker i ∧ s.pc (.worker i) = .worker p ∧
      workerLoop p s.data a.2 = some (m, d) ∧
      t.pc = Function.update s.pc (.worker i) (.worker m.dest) ∧ t.data = d := by
  obtain ⟨m, d, hnext, hpc, hdata, htakes⟩ := step_cases h
  obtain ⟨u, answer⟩ := a
  dsimp only [threads] at hnext
  split at hnext
  · rename_i p hp
    obtain ⟨⟨m, d⟩, hloop, heq⟩ := Option.map_eq_some_iff.mp hnext
    cases heq
    exact .inl ⟨p, m, d, rfl, hp, hloop, (m.dest_map _ ▸ hpc :), hdata⟩
  · rename_i p hp
    obtain ⟨⟨m, d⟩, hloop, heq⟩ := Option.map_eq_some_iff.mp hnext
    cases heq
    refine .inr (.inl ⟨p, m, d, rfl, hp, hloop, (m.dest_map _ ▸ hpc :), hdata, ?_⟩)
    rintro u q rfl
    exact htakes.1
  · rename_i i p hp
    obtain ⟨⟨m, d⟩, hloop, heq⟩ := Option.map_eq_some_iff.mp hnext
    cases heq
    exact .inr (.inr ⟨i, p, m, d, rfl, hp, hloop, (m.dest_map _ ▸ hpc :), hdata⟩)
  · cases hnext

theorem stop_data {p : StopPc} {d d' : Shared} {answer : Bool} {m : Move Thread Mutex StopPc}
    (h : stop n p d answer = some (m, d')) :
    d'.pending = d.pending ∧ d'.queued = d.queued ∧ d'.handled = d.handled := by
  unfold stop at h
  cases p <;> dsimp only at h <;> (try split_ifs at h) <;> cases h <;> exact ⟨rfl, rfl, rfl⟩

theorem Popped.of_workers {k : ℕ} (h : Popped k s) (hdata : t.data.handled = s.data.handled)
    (hworkers : ∀ i, t.pc (.worker i) = s.pc (.worker i)) (hle : k ≤ t.data.queued)
    (hpending : t.data.pending = List.range' k (t.data.queued - k)) : Popped k t := by
  have hcalling : ∀ i conn, Calling t i conn ↔ Calling s i conn := by
    intro i conn
    unfold Calling
    rw [hworkers]
  refine ⟨hle, hpending, ?_, ?_, ?_, ?_, ?_⟩
  · rw [hdata]
    exact h.nodup
  · rw [hdata]
    exact h.handled
  · intro i conn hc
    rw [hdata]
    exact h.calling i conn ((hcalling i conn).mp hc)
  · intro i j conn hi hj
    exact h.unique i j conn ((hcalling i conn).mp hi) ((hcalling j conn).mp hj)
  · intro conn hconn
    rw [hdata]
    rcases h.all conn hconn with hh | ⟨i, hi⟩
    · exact .inl hh
    · exact .inr ⟨i, (hcalling i conn).mpr hi⟩

section
variable {i : ℕ} {p : WorkerPc}

theorem Popped.goto {k : ℕ} (h : Popped k s) (hdata : t.data = s.data)
    (hpc : t.pc = Function.update s.pc (.worker i) (.worker p)) (hp : ∀ conn, p ≠ .calling conn)
    (hold : ∀ conn, ¬Calling s i conn) : Popped k t := by
  have hcalling : ∀ j conn, Calling t j conn ↔ Calling s j conn := by
    intro j conn
    unfold Calling
    rw [hpc]
    by_cases hj : j = i
    · subst hj
      rw [Function.update_self]
      exact iff_of_false (fun he => hp conn (Pc.worker.inj he)) (hold conn)
    · rw [Function.update_of_ne fun he => hj (Thread.worker.inj he)]
  refine ⟨hdata ▸ h.le, hdata ▸ h.pending, hdata ▸ h.nodup, hdata ▸ h.handled, ?_, ?_, ?_⟩
  · intro j conn hc
    rw [hdata]
    exact h.calling j conn ((hcalling j conn).mp hc)
  · intro j j' conn hj hj'
    exact h.unique j j' conn ((hcalling j conn).mp hj) ((hcalling j' conn).mp hj')
  · intro conn hconn
    rw [hdata]
    rcases h.all conn hconn with hh | ⟨j, hj⟩
    · exact .inl hh
    · exact .inr ⟨j, (hcalling j conn).mpr hj⟩

theorem Popped.pop {k conn : ℕ} {pending : List ℕ} (h : Popped k s)
    (hpending : s.data.pending = conn :: pending)
    (hdata : t.data = { s.data with pending := pending })
    (hpc : t.pc = Function.update s.pc (.worker i) (.worker (.calling conn)))
    (hold : ∀ conn, ¬Calling s i conn) : Popped (k + 1) t := by
  -- The head of the queue is connection `k`.
  have hrange := h.pending
  rw [hpending] at hrange
  have hpos : s.data.queued - k = s.data.queued - (k + 1) + 1 := by
    have hlen := congrArg List.length hrange
    rw [List.length_cons, List.length_range'] at hlen
    omega
  rw [hpos, List.range'_succ] at hrange
  obtain ⟨rfl, htail⟩ := List.cons.inj hrange
  have hself : Calling t i conn := by
    unfold Calling
    rw [pc_self hpc]
  have hne : ∀ j c, j ≠ i → (Calling t j c ↔ Calling s j c) := by
    intro j c hj
    unfold Calling
    rw [pc_of_ne hpc fun he => hj (Thread.worker.inj he)]
  have hcases : ∀ j c, Calling t j c → j = i ∧ c = conn ∨ j ≠ i ∧ Calling s j c := by
    intro j c hc
    by_cases hj : j = i
    · subst hj
      unfold Calling at hc
      rw [pc_self hpc] at hc
      exact .inl ⟨rfl, (WorkerPc.calling.inj (Pc.worker.inj hc)).symm⟩
    · exact .inr ⟨hj, (hne j c hj).mp hc⟩
  refine ⟨?_, ?_, hdata ▸ h.nodup, ?_, ?_, ?_, ?_⟩
  · rw [hdata]
    change conn + 1 ≤ s.data.queued
    have := h.le
    omega
  · rw [hdata]
    exact htail
  · intro c hc
    rw [hdata] at hc
    exact Nat.lt_succ_of_lt (h.handled c hc)
  · intro j c hc
    rw [hdata]
    rcases hcases j c hc with ⟨-, rfl⟩ | ⟨-, hc⟩
    · exact ⟨Nat.lt_succ_self _, fun hh => absurd (h.handled c hh) (Nat.lt_irrefl c)⟩
    · exact ⟨Nat.lt_succ_of_lt (h.calling j c hc).1, (h.calling j c hc).2⟩
  · intro j j' c hj hj'
    rcases hcases j c hj with ⟨rfl, rfl⟩ | ⟨-, hj⟩ <;>
      rcases hcases j' c hj' with ⟨rfl, hc⟩ | ⟨-, hj'⟩
    · rfl
    · exact absurd (h.calling j' c hj').1 (Nat.lt_irrefl c)
    · exact absurd (hc ▸ (h.calling j c hj).1) (Nat.lt_irrefl conn)
    · exact h.unique j j' c hj hj'
  · intro c hc
    rw [hdata]
    rcases Nat.lt_succ_iff_lt_or_eq.mp hc with hc | rfl
    · rcases h.all c hc with hh | ⟨j, hj⟩
      · exact .inl hh
      · refine .inr ⟨j, (hne j c ?_).mpr hj⟩
        rintro rfl
        exact hold c hj
    · exact .inr ⟨i, hself⟩

theorem Popped.call {k conn : ℕ} (h : Popped k s) (hi : Calling s i conn)
    (hdata : t.data = { s.data with handled := s.data.handled ++ [conn] })
    (hpc : t.pc = Function.update s.pc (.worker i) (.worker .handling)) : Popped k t := by
  obtain ⟨hlt, hnot⟩ := h.calling i conn hi
  have hcases : ∀ j c, Calling t j c ↔ j ≠ i ∧ Calling s j c := by
    intro j c
    unfold Calling
    rw [hpc]
    by_cases hj : j = i
    · subst hj
      rw [Function.update_self]
      exact iff_of_false (fun he => WorkerPc.noConfusion (Pc.worker.inj he)) fun he => he.1 rfl
    · rw [Function.update_of_ne fun he => hj (Thread.worker.inj he), and_iff_right hj]
  refine ⟨hdata ▸ h.le, hdata ▸ h.pending, ?_, ?_, ?_, ?_, ?_⟩
  · rw [hdata]
    exact List.concat_eq_append ▸ h.nodup.concat hnot
  · intro c hc
    rw [hdata] at hc
    rcases List.mem_append.mp hc with hc | hc
    · exact h.handled c hc
    · rw [List.mem_singleton.mp hc]
      exact hlt
  · intro j c hc
    obtain ⟨hj, hc⟩ := (hcases j c).mp hc
    refine ⟨(h.calling j c hc).1, fun hh => ?_⟩
    rw [hdata] at hh
    rcases List.mem_append.mp hh with hh | hh
    · exact (h.calling j c hc).2 hh
    · rw [List.mem_singleton.mp hh] at hc
      exact hj (h.unique j i conn hc hi)
  · intro j j' c hj hj'
    exact h.unique j j' c ((hcases j c).mp hj).2 ((hcases j' c).mp hj').2
  · intro c hc
    rw [hdata]
    rcases h.all c hc with hh | ⟨j, hj⟩
    · exact .inl (List.mem_append_left _ hh)
    · by_cases hji : j = i
      · subst hji
        have heq : c = conn := WorkerPc.calling.inj (Pc.worker.inj (hj.symm.trans hi))
        exact .inl (List.mem_append_right _ (List.mem_singleton.mpr heq))
      · exact .inr ⟨j, (hcases j c).mpr ⟨hji, hj⟩⟩

end

theorem Popped.step {k : ℕ} {a : Thread × Bool} (h : Popped k s)
    (hstep : Locks.step (threads n) s a = some t) : ∃ k', Popped k' t := by
  rcases threads_cases hstep with ⟨p, m, d, -, hp, hloop, hpc, hdata⟩ |
    ⟨p, m, d, -, hp, hloop, hpc, hdata, -⟩ | ⟨i, p, m, d, -, hp, hloop, hpc, hdata⟩
  · have hworkers : ∀ i, t.pc (.worker i) = s.pc (.worker i) :=
      fun i => pc_of_ne hpc Thread.noConfusion
    refine ⟨k, h.of_workers ?_ hworkers ?_ ?_⟩
    · cases p <;> cases hloop <;> rw [hdata]
    · cases p <;> cases hloop <;> rw [hdata] <;> first | exact h.le | exact Nat.le_succ_of_le h.le
    · have hconcat : List.range' k (s.data.queued - k) ++ [s.data.queued] =
          List.range' k (s.data.queued + 1 - k) := by
        have hle := h.le
        rw [Nat.succ_sub hle, List.range'_1_concat, Nat.add_sub_cancel' hle]
      cases p <;> cases hloop <;> rw [hdata] <;>
        first | exact h.pending | exact (h.pending ▸ hconcat :)
  · have hworkers : ∀ i, t.pc (.worker i) = s.pc (.worker i) :=
      fun i => pc_of_ne hpc Thread.noConfusion
    obtain ⟨hpending, hqueued, hhandled⟩ := stop_data hloop
    subst hdata
    refine ⟨k, h.of_workers hhandled hworkers ?_ ?_⟩
    · rw [hqueued]
      exact h.le
    · rw [hpending, hqueued]
      exact h.pending
  · have hold : (∀ conn, p ≠ .calling conn) → ∀ conn, ¬Calling s i conn := by
      intro hne conn hc
      exact hne conn (Pc.worker.inj (hp.symm.trans hc))
    cases p with
    | top =>
      cases hloop
      refine ⟨k, h.goto hdata hpc ?_ (hold fun _ => WorkerPc.noConfusion)⟩
      dsimp only [Move.dest]
      intro conn
      split_ifs <;> exact WorkerPc.noConfusion
    | queueLock =>
      cases hloop
      exact ⟨k, h.goto hdata hpc (fun _ => WorkerPc.noConfusion)
        (hold fun _ => WorkerPc.noConfusion)⟩
    | waiting =>
      unfold workerLoop at hloop
      dsimp only at hloop
      split_ifs at hloop <;> cases hloop <;>
        exact ⟨k, h.goto hdata hpc (fun _ => WorkerPc.noConfusion)
          (hold fun _ => WorkerPc.noConfusion)⟩
    | sleeping =>
      cases hloop
      refine ⟨k, h.goto hdata hpc ?_ (hold fun _ => WorkerPc.noConfusion)⟩
      dsimp only [Move.dest]
      intro conn
      split_ifs <;> exact WorkerPc.noConfusion
    | testing =>
      unfold workerLoop at hloop
      dsimp only at hloop
      split_ifs at hloop <;> cases hloop <;>
        exact ⟨k, h.goto hdata hpc (fun _ => WorkerPc.noConfusion)
          (hold fun _ => WorkerPc.noConfusion)⟩
    | popping =>
      unfold workerLoop at hloop
      dsimp only at hloop
      split at hloop
      · cases hloop
        exact ⟨k, h.goto hdata hpc (fun _ => WorkerPc.noConfusion)
          (hold fun _ => WorkerPc.noConfusion)⟩
      · rename_i conn pending hpending
        cases hloop
        exact ⟨k + 1, h.pop hpending hdata hpc (hold fun _ => WorkerPc.noConfusion)⟩
    | calling conn =>
      cases hloop
      exact ⟨k, h.call hp hdata hpc⟩
    | handling =>
      cases hloop
      exact ⟨k, h.goto hdata hpc (fun _ => WorkerPc.noConfusion)
        (hold fun _ => WorkerPc.noConfusion)⟩
    | finished => cases hloop

/-! ### Who is left when `stop` returns -/

structure Joined (n : ℕ) (s : ThreadState) : Prop where
  places : ∀ i, ∃ p, s.pc (.worker i) = .worker p
  absent : ∀ i, n ≤ i → HasLeft s i
  joined : ∀ j, s.pc .stopper = .stop (.joinWorker j) → ∀ i < j, HasLeft s i
  returned : s.pc .stopper = .stop .returned → ∀ i, HasLeft s i

theorem joined_started (n : ℕ) : Joined n (started n) where
  places := fun _ => ⟨_, rfl⟩
  absent := by
    intro i hi
    change Pc.worker (if i < n then _ else _) = _
    rw [if_neg (Nat.not_lt.mpr hi)]
  joined := fun _ h => StopPc.noConfusion (Pc.stop.inj h)
  returned := fun h => StopPc.noConfusion (Pc.stop.inj h)

theorem HasLeft.step {i : ℕ} {a : Thread × Bool} (h : HasLeft s i)
    (hstep : Locks.step (threads n) s a = some t) : HasLeft t i := by
  unfold HasLeft at h ⊢
  obtain ⟨m, d, hnext, hpc, -⟩ := step_cases hstep
  have hother : Thread.worker i ≠ a.1 := by
    intro hi
    rw [← hi, h] at hnext
    cases hnext
  exact (pc_of_ne hpc hother).trans h

theorem places_step {i : ℕ} {a : Thread × Bool} (h : ∃ p, s.pc (.worker i) = .worker p)
    (hstep : Locks.step (threads n) s a = some t) : ∃ p, t.pc (.worker i) = .worker p := by
  rcases threads_cases hstep with ⟨p, m, d, -, -, -, hpc, -⟩ | ⟨p, m, d, -, -, -, hpc, -, -⟩ |
    ⟨j, p, m, d, -, -, -, hpc, -⟩
  · rw [pc_of_ne hpc Thread.noConfusion]
    exact h
  · rw [pc_of_ne hpc Thread.noConfusion]
    exact h
  · by_cases hj : i = j
    · subst hj
      exact ⟨_, pc_self hpc⟩
    · rw [pc_of_ne hpc fun he => hj (Thread.worker.inj he)]
      exact h

theorem Joined.hasLeft_of_finished (h : Joined n s) {i : ℕ}
    (hfin : (threads n).finished (s.pc (.worker i)) = true) : HasLeft s i := by
  obtain ⟨p, hp⟩ := h.places i
  rw [hp] at hfin
  unfold HasLeft
  rw [hp, of_decide_eq_true hfin]

theorem Joined.step {a : Thread × Bool} (h : Joined n s)
    (hstep : Locks.step (threads n) s a = some t) : Joined n t := by
  have hplaces : ∀ i, ∃ p, t.pc (.worker i) = .worker p := fun i => places_step (h.places i) hstep
  have hsame : t.pc .stopper = s.pc .stopper → Joined n t := by
    intro hpc
    refine ⟨hplaces, fun i hi => (h.absent i hi).step hstep, fun j hj i hi => ?_, fun hret i => ?_⟩
    · exact (h.joined j (hpc ▸ hj) i hi).step hstep
    · exact (h.returned (hpc ▸ hret) i).step hstep
  rcases threads_cases hstep with ⟨p, m, d, -, hp, hloop, hpc, -⟩ |
    ⟨p, m, d, -, hp, hloop, hpc, -, hjoin⟩ | ⟨i, p, m, d, -, hp, hloop, hpc, -⟩
  · exact hsame (pc_of_ne hpc Thread.noConfusion)
  · have hstop : t.pc .stopper = .stop m.dest := pc_self hpc
    refine ⟨hplaces, fun i hi => (h.absent i hi).step hstep, fun j hj i hi => ?_, fun hret i => ?_⟩
    · rw [hstop] at hj
      have hj := Pc.stop.inj hj
      unfold stop at hloop
      cases p with
      | joinWorker k =>
        dsimp only at hloop
        split_ifs at hloop
        · cases hloop
          cases hj
          rcases Nat.lt_succ_iff_lt_or_eq.mp hi with hlt | rfl
          · exact (h.joined k hp i hlt).step hstep
          · exact (h.hasLeft_of_finished (hjoin _ _ rfl)).step hstep
        · cases hloop
          cases hj
      | joinAccept =>
        cases hloop
        cases hj
        exact absurd hi (Nat.not_lt_zero i)
      | idle =>
        dsimp only at hloop
        split_ifs at hloop
        cases hloop
        cases hj
      | shutdown =>
        cases hloop
        cases hj
      | returned => cases hloop
    · rw [hstop] at hret
      have hret := Pc.stop.inj hret
      unfold stop at hloop
      cases p with
      | joinWorker k =>
        dsimp only at hloop
        split_ifs at hloop with hk
        · cases hloop
          cases hret
        · by_cases hi : i < k
          · exact (h.joined k hp i hi).step hstep
          · exact (h.absent i (by omega)).step hstep
      | joinAccept =>
        cases hloop
        cases hret
      | idle =>
        dsimp only at hloop
        split_ifs at hloop
        cases hloop
        cases hret
      | shutdown =>
        cases hloop
        cases hret
      | returned => cases hloop
  · exact hsame (pc_of_ne hpc Thread.noConfusion)

/-! ### Which runs serve all connections -/

def Attended (s : ThreadState) : Prop := s.data.pending = [] ∨ ∃ i, ¬HasLeft s i

/-- No worker leaves as the last one while connections are pending, and no connection is queued
when no worker is left. -/
def Attentive (s : ThreadState) (a : Thread × Bool) : Prop :=
  (∀ i, a.1 = .worker i → s.pc (.worker i) = .worker .top → s.data.running = false →
    (∀ j, j ≠ i → HasLeft s j) → s.data.pending = []) ∧
  (a.1 = .accept → s.pc .accept = .accept .pushing → ∃ i, ¬HasLeft s i)

theorem attended_of_workers (hpending : t.data.pending = s.data.pending)
    (hworkers : ∀ i, t.pc (.worker i) = s.pc (.worker i)) : Attended t ↔ Attended s := by
  unfold Attended HasLeft
  simp only [hpending, hworkers]

theorem workerLoop_leaves {p : WorkerPc} {d d' : Shared} {answer : Bool}
    {m : Move Thread Mutex WorkerPc} (h : workerLoop p d answer = some (m, d'))
    (hm : m.dest = .finished) :
    (p = .top ∧ d.running = false ∨ p = .testing ∧ d.pending = []) ∧ d' = d := by
  cases p with
  | top =>
    cases h
    refine ⟨.inl ⟨rfl, ?_⟩, rfl⟩
    by_contra hrunning
    rw [Bool.not_eq_false] at hrunning
    simp [Move.dest, hrunning] at hm
  | waiting =>
    unfold workerLoop at h
    dsimp only at h
    split_ifs at h <;> cases h <;> cases hm
  | sleeping =>
    cases h
    dsimp only [Move.dest] at hm
    split_ifs at hm
  | testing =>
    unfold workerLoop at h
    dsimp only at h
    split_ifs at h with hleave
    · cases h
      refine ⟨.inr ⟨rfl, ?_⟩, rfl⟩
      exact List.isEmpty_iff.mp (Bool.and_eq_true_iff.mp hleave).2
    · cases h
      cases hm
  | popping =>
    unfold workerLoop at h
    dsimp only at h
    split at h <;> cases h <;> cases hm
  | finished => cases h
  | _ =>
    cases h
    cases hm

theorem attended_of_not_hasLeft {i : ℕ} {p : WorkerPc} (hpc : t.pc (.worker i) = .worker p)
    (hp : p ≠ .finished) : Attended t := by
  refine .inr ⟨i, fun hleft => hp ?_⟩
  exact Pc.worker.inj (hpc.symm.trans hleft)

theorem attended_step_iff {a : Thread × Bool} (hs : Attended s)
    (hstep : Locks.step (threads n) s a = some t) : Attended t ↔ Attentive s a := by
  rcases threads_cases hstep with ⟨p, m, d, ha, hp, hloop, hpc, hdata⟩ |
    ⟨p, m, d, ha, hp, hloop, hpc, hdata, -⟩ | ⟨i, p, m, d, ha, hp, hloop, hpc, hdata⟩
  · have hworkers : ∀ i, t.pc (.worker i) = s.pc (.worker i) :=
      fun i => pc_of_ne hpc Thread.noConfusion
    have hnot : ∀ i, a.1 = .worker i → False := fun i hi => Thread.noConfusion (ha.symm.trans hi)
    by_cases hpushing : p = .pushing
    · subst hpushing
      cases hloop
      have hne : t.data.pending ≠ [] := by
        rw [hdata]
        exact List.append_ne_nil_of_right_ne_nil _ (List.cons_ne_nil _ _)
      unfold Attended Attentive HasLeft
      simp only [hworkers]
      constructor
      · rintro (hnil | hleft)
        · exact absurd hnil hne
        · exact ⟨fun i hi => (hnot i hi).elim, fun _ _ => hleft⟩
      · rintro ⟨-, hleft⟩
        exact .inr (hleft ha hp)
    · have hpending : t.data.pending = s.data.pending := by
        cases p <;> cases hloop <;> first | exact absurd rfl hpushing | rw [hdata]
      rw [attended_of_workers hpending hworkers]
      refine iff_of_true hs ⟨fun i hi => (hnot i hi).elim, fun _ he => ?_⟩
      exact absurd (Pc.accept.inj (hp.symm.trans he)) hpushing
  · have hworkers : ∀ i, t.pc (.worker i) = s.pc (.worker i) :=
      fun i => pc_of_ne hpc Thread.noConfusion
    rw [attended_of_workers (hdata ▸ (stop_data hloop).1) hworkers]
    refine iff_of_true hs ⟨fun i hi => Thread.noConfusion (ha.symm.trans hi), fun hi => ?_⟩
    exact Thread.noConfusion (ha.symm.trans hi)
  · have hself : t.pc (.worker i) = .worker m.dest := pc_self hpc
    have hother : ∀ j, j ≠ i → (HasLeft t j ↔ HasLeft s j) := by
      intro j hj
      unfold HasLeft
      rw [pc_of_ne hpc fun he => hj (Thread.worker.inj he)]
    have hinert : ¬(p = .top ∧ s.data.running = false) → Attentive s a := by
      intro hnot
      refine ⟨fun j hj hj' hrunning _ => ?_, fun hi => Thread.noConfusion (ha.symm.trans hi)⟩
      have heq : i = j := Thread.worker.inj (ha.symm.trans hj)
      subst heq
      exact absurd ⟨Pc.worker.inj (hp.symm.trans hj'), hrunning⟩ hnot
    by_cases hdest : m.dest = .finished
    · obtain ⟨hwhere, hsame⟩ := workerLoop_leaves hloop hdest
      have hpending : t.data.pending = s.data.pending := by rw [hdata, hsame]
      rcases hwhere with ⟨rfl, hrunning⟩ | ⟨rfl, hnil⟩
      · have hleft : HasLeft t i := by
          unfold HasLeft
          rw [hself, hdest]
        constructor
        · rintro (hnil | ⟨j, hj⟩)
          · refine ⟨fun _ _ _ _ _ => hpending ▸ hnil, fun hi => ?_⟩
            exact Thread.noConfusion (ha.symm.trans hi)
          · refine ⟨fun i' hi' _ _ hall => ?_, fun hi => Thread.noConfusion (ha.symm.trans hi)⟩
            have heq : i = i' := Thread.worker.inj (ha.symm.trans hi')
            subst heq
            have hji : j ≠ i := by
              rintro rfl
              exact hj hleft
            exact absurd ((hother j hji).mpr (hall j hji)) hj
        · intro hatt
          by_cases hall : ∀ j, j ≠ i → HasLeft s j
          · exact .inl (hpending.trans (hatt.1 i ha hp hrunning hall))
          · push Not at hall
            obtain ⟨j, hji, hj⟩ := hall
            exact .inr ⟨j, fun hleft => hj ((hother j hji).mp hleft)⟩
      · refine iff_of_true (.inl (hpending.trans hnil)) (hinert ?_)
        exact fun he => WorkerPc.noConfusion he.1
    · refine iff_of_true (attended_of_not_hasLeft hself hdest) (hinert ?_)
      rintro ⟨rfl, hrunning⟩
      cases hloop
      apply hdest
      dsimp only [Move.dest]
      rw [hrunning]
      rfl

theorem attentive_of_step_eq_none {a : Thread × Bool}
    (hstep : Locks.step (threads n) s a = none) : Attentive s a := by
  obtain ⟨u, answer⟩ := a
  constructor
  · rintro i rfl hp hrunning
    unfold Locks.step threads lift workerLoop at hstep
    simp [hp, Move.map] at hstep
  · rintro rfl hp
    unfold Locks.step threads lift acceptLoop at hstep
    simp [hp, Move.map] at hstep

structure Inv (n : ℕ) (s : ThreadState) : Prop where
  popped : ∃ k, Popped k s
  joined : Joined n s

theorem inv_started (n : ℕ) : Inv n (started n) := ⟨⟨0, popped_started n⟩, joined_started n⟩

theorem inv_step (s : ThreadState) (a : Thread × Bool) (t : ThreadState) (h : Inv n s)
    (hstep : Locks.step (threads n) s a = some t) : Inv n t := by
  obtain ⟨k, hk⟩ := h.popped
  exact ⟨hk.step hstep, h.joined.step hstep⟩

theorem not_attended_step (s : ThreadState) (a : Thread × Bool) (t : ThreadState)
    (h : ¬Attended s) (hstep : Locks.step (threads n) s a = some t) : ¬Attended t := by
  have hall : ∀ i, HasLeft s i := by
    intro i
    by_contra hi
    exact h (.inr ⟨i, hi⟩)
  have hpending : t.data.pending ≠ [] := by
    have hne : s.data.pending ≠ [] := fun hnil => h (.inl hnil)
    rcases threads_cases hstep with ⟨p, m, d, -, -, hloop, -, hdata⟩ |
      ⟨p, m, d, -, -, hloop, -, hdata, -⟩ | ⟨i, p, m, d, -, hp, hloop, -, -⟩
    · cases p <;> cases hloop <;> rw [hdata] <;>
        first | exact hne | exact List.append_ne_nil_of_left_ne_nil hne _
    · rw [hdata, (stop_data hloop).1]
      exact hne
    · -- No worker is left that could make a step.
      cases hp.symm.trans (hall i)
      cases hloop
  rintro (hnil | ⟨i, hi⟩)
  · exact hpending hnil
  · exact hi ((hall i).step hstep)

theorem Popped.handled_perm {k : ℕ} (h : Popped k s) (hnil : s.data.pending = [])
    (hleft : ∀ i, HasLeft s i) : s.data.handled.Perm (List.range s.data.queued) := by
  have hk : k = s.data.queued := by
    have hlen := congrArg List.length h.pending
    have hle := h.le
    rw [hnil, List.length_nil, List.length_range'] at hlen
    omega
  apply (List.perm_ext_iff_of_nodup h.nodup List.nodup_range).mpr
  intro conn
  rw [List.mem_range, ← hk]
  constructor
  · exact h.handled conn
  · intro hconn
    rcases h.all conn hconn with hh | ⟨i, hi⟩
    · exact hh
    · exact absurd (Pc.worker.inj (hi.symm.trans (hleft i))) WorkerPc.noConfusion

/-- No connection is handled twice, and when `stop` has returned, every queued connection was
handled exactly if every step was attentive. -/
theorem handled_iff_attentive (n : ℕ) (as : List (Thread × Bool)) (s : ThreadState)
    (hrun : run (Locks.step (threads n)) (started n) as = some s) :
    s.data.handled.Nodup ∧
      (s.pc .stopper = .stop .returned →
        (s.data.pending = [] ∧ s.data.handled.Perm (List.range s.data.queued) ↔
          Guarded (Locks.step (threads n)) Attentive (started n) as)) := by
  have hinv : Inv n s := run_invariant inv_step (inv_started n) hrun
  obtain ⟨k, hk⟩ := hinv.popped
  refine ⟨hk.nodup, fun hret => ?_⟩
  have hleft := hinv.joined.returned hret
  rw [← guarded_iff_forall_prefix (I := fun _ => True) (P := Attended) (fun _ _ _ _ _ => trivial)
    (fun _ _ => attentive_of_step_eq_none) (fun _ _ _ _ hs hstep => attended_step_iff hs hstep)
    trivial (.inl rfl) as]
  constructor
  · rintro ⟨hnil, -⟩ pre t ⟨rest, rfl⟩ ht
    by_contra hnot
    rw [run_append_of_eq _ ht] at hrun
    exact run_invariant not_attended_step hnot hrun (.inl hnil)
  · intro hprefix
    have hnil : s.data.pending = [] := by
      rcases hprefix as s List.prefix_rfl hrun with hnil | ⟨i, hi⟩
      · exact hnil
      · exact absurd (hleft i) hi
    exact ⟨hnil, hk.handled_perm hnil hleft⟩

def queueOne : List (Thread × Bool) :=
  [(.accept, true), (.accept, true), (.accept, true), (.accept, true)]

def handleOne : List (Thread × Bool) := List.replicate 6 (.worker 0, true)

/-- `stop` is called; the accept thread leaves, then the worker goes on, then `stop` returns. -/
def stopAfter (worker : List (Thread × Bool)) : List (Thread × Bool) :=
  [(.stopper, true), (.stopper, true), (.accept, true)] ++ worker ++
    [(.stopper, true), (.stopper, true), (.stopper, true)]

/-- The worker comes back from its first connection, finds the server stopping, and leaves the
second one. -/
theorem stop_abandons_connection : ∃ s,
    run (Locks.step (threads 1)) (started 1) (queueOne ++ queueOne ++ handleOne ++
      stopAfter [(.worker 0, true), (.worker 0, true)]) = some s ∧
    s.pc .stopper = .stop .returned ∧ s.data.pending = [1] ∧ s.data.handled = [0] ∧
    ¬(s.data.pending = [] ∧ s.data.handled.Perm (List.range s.data.queued)) := by
  have hend : (run (Locks.step (threads 1)) (started 1) (queueOne ++ queueOne ++ handleOne ++
      stopAfter [(.worker 0, true), (.worker 0, true)])).map
        (fun s => (s.pc .stopper, s.data.pending, s.data.handled)) =
          some (.stop .returned, [1], [0]) := by
    decide
  obtain ⟨s, hrun, heq⟩ := Option.map_eq_some_iff.mp hend
  obtain ⟨hret, heq⟩ := Prod.mk.inj heq
  obtain ⟨hpending, hhandled⟩ := Prod.mk.inj heq
  refine ⟨s, hrun, hret, hpending, hhandled, fun h => ?_⟩
  rw [hpending] at h
  exact List.cons_ne_nil _ _ h.1

theorem handled_iff_attentive_one : ∃ s,
    run (Locks.step (threads 1)) (started 1) (queueOne ++ handleOne ++
      stopAfter [(.worker 0, true), (.worker 0, true)]) = some s ∧
    s.data.handled.Nodup ∧ s.pc .stopper = .stop .returned ∧
    Guarded (Locks.step (threads 1)) Attentive (started 1) (queueOne ++ handleOne ++
      stopAfter [(.worker 0, true), (.worker 0, true)]) := by
  have hend : (run (Locks.step (threads 1)) (started 1) (queueOne ++ handleOne ++
      stopAfter [(.worker 0, true), (.worker 0, true)])).map
        (fun s => (s.pc .stopper, s.data.pending, s.data.queued, s.data.handled)) =
          some (.stop .returned, [], 1, [0]) := by
    decide
  obtain ⟨s, hrun, heq⟩ := Option.map_eq_some_iff.mp hend
  obtain ⟨hret, heq⟩ := Prod.mk.inj heq
  obtain ⟨hpending, heq⟩ := Prod.mk.inj heq
  obtain ⟨hqueued, hhandled⟩ := Prod.mk.inj heq
  obtain ⟨hnodup, hiff⟩ := handled_iff_attentive 1 _ s hrun
  refine ⟨s, hrun, hnodup, hret, (hiff hret).mp ⟨hpending, ?_⟩⟩
  rw [hhandled, hqueued]
  exact List.Perm.refl _

end StereoCamera.AdminServer.Threads
