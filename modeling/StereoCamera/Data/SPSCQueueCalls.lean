import StereoCamera.Data.SPSCQueue
import StereoCamera.Lib.Transition

/-! A call of `try_push` that no other thread interrupts, and what the calls that run carry. -/

namespace StereoCamera.SPSCQueue
open Transition

variable {c : Capacity} {D T : Type}

def Queue.callTryPush (q : Queue c T) (item : T) : Queue c T × Bool :=
  if q.writePos - q.readPos ≥ q.maxDepth then (q, false)
  else
    ({ q with buffer := Function.update q.buffer (cell c q.writePos) item
              writePos := q.writePos + 1 }, true)

variable [DecidableEq D]

def State.callTryPush (s : State c D T) (p : D) (item : T) : State c D T :=
  let returned := s.queue.callTryPush item
  { s with queue := returned.1
           seen := Function.update s.seen p s.unpopped
           accepted := if returned.2 then s.accepted ++ [item] else s.accepted
           fullReports := if returned.2 then s.fullReports else s.fullReports ++ [s.unpopped] }

/-- The steps of the call, one after the other, do what the call does. -/
theorem run_callTryPush (movedFrom : T → T) {s : State c D T} {p : D} (hp : s.producers p = none)
    (item : T) :
    run (step movedFrom) s (.callTryPush p item ::
      List.replicate (if (s.queue.callTryPush item).2 then 5 else 3) (.producer p)) =
        some (s.callTryPush p item) := by
  have hself : Function.update s.producers p none = s.producers := by
    rw [← hp, Function.update_eq_self]
  unfold State.callTryPush Queue.callTryPush
  by_cases hfull : s.queue.writePos - s.queue.readPos ≥ s.queue.maxDepth
  · simp [hfull, List.replicate_succ, run_cons, step, hp, producerStep, tryPush,
      PushPc.loadsReadPos, State.unpopped, hself]
  · simp [hfull, List.replicate_succ, run_cons, step, hp, producerStep, tryPush,
      PushPc.loadsReadPos, State.unpopped, PushPc.item, hself]

def State.inFlight (s : State c D T) (p : D) : List T := (s.producers p).toList.map PushPc.item

section
variable {movedFrom : T → T} {s t : State c D T} {p : D}

theorem callTryPush_carries {item : T} (h : step movedFrom s (.callTryPush p item) = some t) :
    t.accepted = s.accepted ∧ s.inFlight p = [] ∧ t.inFlight p = [item] ∧
      ∀ q, q ≠ p → t.inFlight q = s.inFlight q := by
  simp only [step] at h
  split at h
  · rename_i hnone
    cases h
    simp [State.inFlight, hnone, PushPc.item]
    intro q hq
    rw [Function.update_of_ne hq]
  · cases h

theorem producer_carries (h : step movedFrom s (.producer p) = some t) :
    (t.accepted = s.accepted ∧ (t.inFlight p = s.inFlight p ∨ t.inFlight p = []) ∨
      t.accepted = s.accepted ++ s.inFlight p ∧ t.inFlight p = []) ∧
      ∀ q, q ≠ p → t.inFlight q = s.inFlight q := by
  obtain ⟨pc, hpc, rfl⟩ := Option.map_eq_some_iff.mp h
  unfold State.inFlight
  rw [hpc]
  cases pc with
  | loadMaxDepth item wp rp =>
    by_cases hfull : wp - rp ≥ s.queue.maxDepth
    · simp +contextual [producerStep, tryPush, hfull]
    · simp +contextual [producerStep, tryPush, hfull, PushPc.item]
  | _ => simp +contextual [producerStep, tryPush, PushPc.item]

theorem callPop_carries (h : step movedFrom s .callPop = some t) :
    t.accepted = s.accepted ∧ t.producers = s.producers := by
  simp only [step] at h
  split at h
  · cases h
    exact ⟨rfl, rfl⟩
  · cases h

theorem consumer_carries (h : step movedFrom s .consumer = some t) :
    t.accepted = s.accepted ∧ t.producers = s.producers := by
  obtain ⟨pc, -, rfl⟩ := Option.map_eq_some_iff.mp h
  unfold consumerStep
  split <;> exact ⟨rfl, rfl⟩

end

end StereoCamera.SPSCQueue
