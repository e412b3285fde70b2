import Mathlib.Data.Fintype.BigOperators
import StereoCamera.Api.AdminServerThreads
import StereoCamera.Lib.Condition
import StereoCamera.Lib.Transition

/-! Who wakes the workers of `AdminServer` (`api/AdminServer.cpp`). While a worker sleeps, there
is for every pending connection a thread that is going to look, so that none waits for the
timeout. One step is one access. -/

namespace StereoCamera.AdminServer.WakeUps
open Condition Transition
open AdminServer.Threads (Shared)

inductive Thread (workerCount : ℕ)
  | accept
  | stopper
  | worker (i : Fin workerCount)
  deriving DecidableEq

def threadEquiv (workerCount : ℕ) : Option (Option (Fin workerCount)) ≃ Thread workerCount where
  toFun
    | none => .accept
    | some none => .stopper
    | some (some i) => .worker i
  invFun
    | .accept => none
    | .stopper => some none
    | .worker i => some (some i)
  left_inv := by rintro (_ | _ | i) <;> rfl
  right_inv := by rintro (_ | _ | i) <;> rfl

instance fintypeThread (workerCount : ℕ) : Fintype (Thread workerCount) :=
  .ofEquiv _ (threadEquiv workerCount)

inductive AcceptPc
  | top
  | accepting
  | failed
  | pushLock
  | pushing
  | unlocking
  | notifying
  | finished
  deriving DecidableEq

/-- The accept thread pushes with the mutex, and notifies without it. -/
def acceptLoop (p : AcceptPc) (d : Shared) (answer : Bool) : Option (Move AcceptPc × Shared) :=
  match p with
  | .top => some (.goto (if d.running then .accepting else .finished), d)
  | .accepting => some (.goto (if d.listening && answer then .pushLock else .failed), d)
  | .failed => some (.goto (if d.running then .top else .finished), d)
  | .pushLock => some (.lock .pushing, d)
  | .pushing =>
    some (.goto .unlocking, { d with pending := d.pending ++ [d.queued], queued := d.queued + 1 })
  | .unlocking => some (.unlock .notifying, d)
  | .notifying => some (.notifyOne .top, d)
  | .finished => none

inductive WorkerPc
  | top
  | queueLock
  | testing
  | blind
  | woken
  | deciding
  | calling (conn : ℕ)
  | handling
  | finished
  deriving DecidableEq

/-- `worker_loop`. Who wakes because the time is over goes on whatever the predicate says. -/
def workerLoop (p : WorkerPc) (d : Shared) (answer : Bool) : Option (Move WorkerPc × Shared) :=
  match p with
  | .top => some (.goto (if d.running then .queueLock else .finished), d)
  | .queueLock => some (.lock .testing, d)
  | .testing =>
    some (.goto (if !d.running || !d.pending.isEmpty then .deciding else .blind), d)
  | .blind => some (.wait .woken, d)
  | .woken => some (.goto (if answer then .deciding else .testing), d)
  | .deciding =>
    match d.pending with
    | [] => some (.unlock (if d.running then .top else .finished), d)
    | conn :: pending => some (.unlock (.calling conn), { d with pending := pending })
  | .calling conn => some (.goto .handling, { d with handled := d.handled ++ [conn] })
  | .handling => some (.goto .top, d)
  | .finished => none

inductive StopPc
  | idle
  | shutdown
  | joinAccept
  | notifying
  | joinWorkers
  deriving DecidableEq

/-- `stop`; how long it waits for the accept thread is left open. -/
def stop (p : StopPc) (d : Shared) (answer : Bool) : Option (Move StopPc × Shared) :=
  match p with
  | .idle => if answer then some (.goto .shutdown, { d with running := false }) else none
  | .shutdown => some (.goto .joinAccept, { d with listening := false })
  | .joinAccept => if answer then some (.goto .notifying, d) else none
  | .notifying => some (.notifyAll .joinWorkers, d)
  | .joinWorkers => none

inductive Pc
  | accept (p : AcceptPc)
  | stop (p : StopPc)
  | worker (p : WorkerPc)
  deriving DecidableEq

def threads (workerCount : ℕ) : Program (Thread workerCount) Pc Shared Bool where
  next t p d answer :=
    match t, p with
    | .accept, .accept p => (acceptLoop p d answer).map fun r => (r.1.map .accept, r.2)
    | .stopper, .stop p => (stop p d answer).map fun r => (r.1.map .stop, r.2)
    | .worker _, .worker p => (workerLoop p d answer).map fun r => (r.1.map .worker, r.2)
    | _, _ => none

def started (workerCount : ℕ) : State (Thread workerCount) Pc Shared where
  pc
    | .accept => .accept .top
    | .stopper => .stop .idle
    | .worker _ => .worker .top
  mode _ := .awake
  owner := none
  data := ⟨true, true, [], 0, []⟩

namespace Pc

def holds : Pc → Bool
  | .accept .pushing | .accept .unlocking => true
  | .worker .testing | .worker .blind | .worker .woken | .worker .deciding => true
  | _ => false

def tells : Pc → Bool
  | .accept .unlocking | .accept .notifying => true
  | _ => false

def looks : Pc → Bool
  | .worker .testing | .worker .woken | .worker .deciding => true
  | _ => false

end Pc

def accounts (workerCount : ℕ) : Accounts (Thread workerCount) Pc Shared where
  holds _ p := p.holds = true
  items d := d.pending.length
  owes
    | .accept, p => p.tells.toNat
    | .stopper, _ => 0
    | .worker _, p => p.looks.toNat
  owesHeld _ _ := 0
  missed _ p d := if p = .worker .blind then d.pending.length else 0
  owesHeld_le _ _ := Nat.zero_le _

section
variable {workerCount : ℕ} {d d' : Shared} {answer : Bool}

theorem accounts_discreet {t : Thread workerCount} {p p' : Pc} (hp : p' ≠ .worker .blind)
    (h : d'.pending = d.pending) : (accounts workerCount).Discreet t p d p' d' where
  others _ u q := by
    change (if q = .worker .blind then d'.pending.length else 0) + 0 ≤
      (if q = .worker .blind then d.pending.length else 0) + 0
    rw [h]
  own _ := .inl (if_neg hp)

theorem permits_acceptLoop {p : AcceptPc} {m : Move AcceptPc}
    (h : acceptLoop p d answer = some (m, d')) :
    (accounts workerCount).Permits .accept (.accept p) d (m.map .accept) d' := by
  unfold acceptLoop at h
  cases p with
  | top | accepting | failed =>
    cases h
    split_ifs
    · exact ⟨Iff.rfl, .inr le_rfl, accounts_discreet nofun rfl⟩
    · exact ⟨Iff.rfl, .inr le_rfl, accounts_discreet nofun rfl⟩
  | pushLock =>
    cases h
    exact ⟨rfl, .inr le_rfl, rfl⟩
  | pushing =>
    cases h
    refine ⟨Iff.rfl, .inr ?_, fun h => absurd rfl h, fun _ => .inl rfl⟩
    change (d.pending ++ [d.queued]).length + 0 ≤ d.pending.length + 1
    exact List.length_append.le
  | unlocking =>
    cases h
    exact ⟨rfl, nofun, .inr le_rfl⟩
  | notifying =>
    cases h
    exact ⟨Iff.rfl, le_rfl, accounts_discreet nofun rfl⟩
  | finished => cases h

theorem permits_workerLoop {i : Fin workerCount} {p : WorkerPc} {m : Move WorkerPc}
    (h : workerLoop p d answer = some (m, d')) :
    (accounts workerCount).Permits (.worker i) (.worker p) d (m.map .worker) d' := by
  unfold workerLoop at h
  cases p with
  | top =>
    cases h
    split_ifs
    · exact ⟨Iff.rfl, .inr le_rfl, accounts_discreet nofun rfl⟩
    · exact ⟨Iff.rfl, .inr le_rfl, accounts_discreet nofun rfl⟩
  | queueLock =>
    cases h
    exact ⟨rfl, .inr (Nat.le_succ _), rfl⟩
  | testing =>
    cases h
    split_ifs with htest
    · exact ⟨Iff.rfl, .inr le_rfl, accounts_discreet nofun rfl⟩
    · have hempty : d.pending = [] := by
        cases hpending : d.pending with
        | nil => rfl
        | cons conn pending =>
          rw [hpending] at htest
          exact absurd (Bool.or_true _) htest
      have hlength : d.pending.length = 0 := by rw [hempty, List.length_nil]
      refine ⟨Iff.rfl, .inl hlength, fun h => absurd rfl h, fun _ => .inl ?_⟩
      change (if Pc.worker .blind = .worker .blind then d.pending.length else 0) = 0
      rw [hlength, ite_self]
  | blind =>
    cases h
    exact ⟨rfl, rfl, rfl, le_rfl, rfl, Nat.one_pos, fun d => rfl⟩
  | woken =>
    cases h
    split_ifs
    · exact ⟨Iff.rfl, .inr le_rfl, accounts_discreet nofun rfl⟩
    · exact ⟨Iff.rfl, .inr le_rfl, accounts_discreet nofun rfl⟩
  | deciding =>
    dsimp only at h
    split at h
    · rename_i hempty
      cases h
      have hlength : d.pending.length = 0 := by rw [hempty, List.length_nil]
      split_ifs
      · exact ⟨rfl, nofun, .inl hlength⟩
      · exact ⟨rfl, nofun, .inl hlength⟩
    · rename_i conn pending hpending
      cases h
      refine ⟨rfl, nofun, .inr ?_⟩
      change pending.length + 1 ≤ d.pending.length + 0
      rw [hpending]
      exact le_rfl
  | calling conn =>
    cases h
    exact ⟨Iff.rfl, .inr le_rfl, accounts_discreet nofun rfl⟩
  | handling =>
    cases h
    exact ⟨Iff.rfl, .inr le_rfl, accounts_discreet nofun rfl⟩
  | finished => cases h

theorem permits_stop {p : StopPc} {m : Move StopPc} (h : stop p d answer = some (m, d')) :
    (accounts workerCount).Permits .stopper (.stop p) d (m.map .stop) d' := by
  unfold stop at h
  cases p with
  | idle =>
    dsimp only at h
    split_ifs at h
    cases h
    exact ⟨Iff.rfl, .inr le_rfl, accounts_discreet nofun rfl⟩
  | shutdown =>
    cases h
    exact ⟨Iff.rfl, .inr le_rfl, accounts_discreet nofun rfl⟩
  | joinAccept =>
    dsimp only at h
    split_ifs at h
    cases h
    exact ⟨Iff.rfl, .inr le_rfl, accounts_discreet nofun rfl⟩
  | notifying =>
    cases h
    exact ⟨Iff.rfl, Nat.le_succ _, accounts_discreet nofun rfl⟩
  | joinWorkers => cases h

theorem permits_threads {t : Thread workerCount} {p : Pc} {m : Move Pc}
    (h : (threads workerCount).next t p d answer = some (m, d')) :
    (accounts workerCount).Permits t p d m d' := by
  unfold threads at h
  dsimp only at h
  split at h
  · obtain ⟨⟨m, d⟩, hm, heq⟩ := Option.map_eq_some_iff.mp h
    cases heq
    exact permits_acceptLoop hm
  · obtain ⟨⟨m, d⟩, hm, heq⟩ := Option.map_eq_some_iff.mp h
    cases heq
    exact permits_stop hm
  · obtain ⟨⟨m, d⟩, hm, heq⟩ := Option.map_eq_some_iff.mp h
    cases heq
    exact permits_workerLoop hm
  · cases h

theorem acceptLoop_ne_wait {p p' : AcceptPc} : acceptLoop p d answer ≠ some (.wait p', d') := by
  unfold acceptLoop
  split <;> nofun

theorem stop_ne_wait {p p' : StopPc} : stop p d answer ≠ some (.wait p', d') := by
  unfold stop
  split
  · split_ifs <;> nofun
  · nofun
  · split_ifs <;> nofun
  all_goals nofun

theorem threads_ne_wait {t : Thread workerCount} (ht : ∀ i, t ≠ .worker i) (p : Pc) (d : Shared)
    (answer : Bool) (p' : Pc) (d' : Shared) :
    (threads workerCount).next t p d answer ≠ some (.wait p', d') := by
  intro h
  unfold threads at h
  dsimp only at h
  split at h
  · obtain ⟨q, d'', hq⟩ := Move.of_map_eq_wait h
    exact acceptLoop_ne_wait hq
  · obtain ⟨q, d'', hq⟩ := Move.of_map_eq_wait h
    exact stop_ne_wait hq
  · exact ht _ rfl
  · cases h

end

def OnItsWay {workerCount : ℕ} (s : State (Thread workerCount) Pc Shared)
    (i : Fin workerCount) : Prop :=
  s.mode (.worker i) = .signalled ∨
    s.mode (.worker i) = .awake ∧ (s.pc (.worker i)).looks = true

instance decidableOnItsWay {workerCount : ℕ} (s : State (Thread workerCount) Pc Shared)
    (i : Fin workerCount) : Decidable (OnItsWay s i) :=
  inferInstanceAs (Decidable (_ ∨ _))

section
variable {workerCount : ℕ} {s : State (Thread workerCount) Pc Shared}
  {as : List (Action (Thread workerCount) Bool)}

theorem credit_worker (s : State (Thread workerCount) Pc Shared) (i : Fin workerCount) :
    (accounts workerCount).credit s (.worker i) = if OnItsWay s i then 1 else 0 := by
  unfold Accounts.credit
  rcases hmode : s.mode (.worker i) with _ | _ | _
  · change (s.pc (.worker i)).looks.toNat = _
    cases hlooks : (s.pc (.worker i)).looks with
    | false =>
      refine (if_neg ?_).symm
      rintro (h | ⟨-, h⟩)
      · cases hmode.symm.trans h
      · cases hlooks.symm.trans h
    | true => exact (if_pos (.inr ⟨hmode, hlooks⟩)).symm
  · refine (if_neg ?_).symm
    rintro (h | ⟨h, -⟩)
    · cases hmode.symm.trans h
    · cases hmode.symm.trans h
  · exact (if_pos (.inl hmode)).symm

theorem sum_credit (haccept : s.mode .accept = .awake) (hstopper : s.mode .stopper = .awake) :
    ∑ t, (accounts workerCount).credit s t = (s.pc .accept).tells.toNat +
      (Finset.univ.filter fun i => OnItsWay s i).card := by
  rw [← (threadEquiv workerCount).sum_comp, Fintype.sum_option, Fintype.sum_option,
    Finset.card_filter]
  have haccept := (accounts workerCount).credit_of_awake haccept
  have hstopper := (accounts workerCount).credit_of_awake hstopper
  change (accounts workerCount).credit s .accept + ((accounts workerCount).credit s .stopper +
    ∑ i, (accounts workerCount).credit s (.worker i)) = _
  rw [haccept, hstopper]
  refine congrArg (_ + ·) ((Nat.zero_add _).trans ?_)
  exact Finset.sum_congr rfl fun i _ => credit_worker s i

theorem balanced_of_run (h : run (step (threads workerCount)) (started workerCount) as = some s) :
    (accounts workerCount).Balanced s := by
  refine run_invariant (fun s a t hs h => hs.step (fun _ _ _ _ _ _ => permits_threads) h)
    (.init (fun t => rfl) rfl ?_) h
  intro t
  cases t <;> exact nofun

theorem awake_of_run (h : run (step (threads workerCount)) (started workerCount) as = some s)
    {t : Thread workerCount} (ht : ∀ i, t ≠ .worker i) : s.mode t = .awake :=
  run_invariant (fun _ _ _ hs h => awake_of_step (threads_ne_wait ht) hs h) rfl h

/-- While a worker sleeps, for every pending connection a worker was woken or is about to take
one, but for the connection that the accept thread is still going to notify of. -/
theorem pending_le_of_asleep
    (h : run (step (threads workerCount)) (started workerCount) as = some s)
    {i : Fin workerCount} (hasleep : s.mode (.worker i) = .asleep) :
    s.data.pending.length ≤ (s.pc .accept).tells.toNat +
      (Finset.univ.filter fun j => OnItsWay s j).card := by
  have hcovered := (balanced_of_run h).covered (.worker i) hasleep
  rwa [sum_credit (awake_of_run h nofun) (awake_of_run h nofun)] at hcovered

/-- Two workers sleep, one is woken for a connection, and the next connection comes. -/
def twoConnections : List (Action (Thread 2) Bool) :=
  List.replicate 4 (.act (.worker 0) false .accept) ++
    List.replicate 4 (.act (.worker 1) false .accept) ++
      List.replicate 6 (.act .accept true (.worker 0)) ++
        List.replicate 4 (.act .accept true (.worker 0))

theorem pending_le_of_asleep_twoConnections : ∃ s,
    run (step (threads 2)) (started 2) twoConnections = some s ∧ s.data.pending = [0, 1] ∧
      s.mode (.worker 1) = .asleep ∧
      s.data.pending.length ≤ (s.pc .accept).tells.toNat +
        (Finset.univ.filter fun j => OnItsWay s j).card := by
  obtain ⟨s, hrun, hpending, hasleep⟩ : ∃ s,
      run (step (threads 2)) (started 2) twoConnections = some s ∧ s.data.pending = [0, 1] ∧
        s.mode (.worker 1) = .asleep := ⟨_, rfl, rfl, rfl⟩
  exact ⟨s, hrun, hpending, hasleep, pending_le_of_asleep hrun hasleep⟩

end

end StereoCamera.AdminServer.WakeUps
