import Mathlib.Data.Nat.ModEq
import Mathlib.Data.List.Infix
import Mathlib.Logic.Function.Basic

/-! `SPSCQueue` (`data/SPSCQueue.h`): each call is the sequence of atomic steps it makes.
The producers are indexed, because the queue itself cannot tell how many threads push. -/

namespace StereoCamera.SPSCQueue

/-- The template argument `Capacity`, a `size_t` that passed the `static_assert`. -/
structure Capacity where
  val : UInt64
  pos : 0 < val
  powerOfTwo : val &&& (val - 1) = 0

def Capacity.kMask (c : Capacity) : UInt64 := c.val - 1

theorem Capacity.toNat_pos (c : Capacity) : 0 < c.val.toNat := c.pos

theorem Capacity.toNat_kMask (c : Capacity) : c.kMask.toNat = c.val.toNat - 1 :=
  UInt64.toNat_sub_of_le _ _ (UInt64.le_iff_toNat_le.mpr c.toNat_pos)

theorem Capacity.exists_two_pow (c : Capacity) : ∃ k, c.val.toNat = 2 ^ k := by
  have h : c.val.toNat &&& (c.val.toNat - 1) = 0 := by
    rw [← c.toNat_kMask, ← UInt64.toNat_and]
    exact congrArg UInt64.toNat c.powerOfTwo
  exact (Nat.and_sub_one_eq_zero_iff_isPowerOfTwo c.toNat_pos.ne').mp h

theorem and_kMask_lt (c : Capacity) (pos : UInt64) : (pos &&& c.kMask).toNat < c.val.toNat := by
  have hle : (pos &&& c.kMask).toNat ≤ c.kMask.toNat := by
    rw [UInt64.toNat_and]
    exact Nat.and_le_right
  have := c.toNat_pos
  rw [c.toNat_kMask] at hle
  omega

/-- The cell `pos & kMask` of `buffer_`. -/
def cell (c : Capacity) (pos : UInt64) : Fin c.val.toNat :=
  ⟨(pos &&& c.kMask).toNat, and_kMask_lt c pos⟩

theorem cell_val (c : Capacity) (pos : UInt64) :
    (cell c pos : ℕ) = pos.toNat % c.val.toNat := by
  obtain ⟨k, hk⟩ := c.exists_two_pow
  simp only [cell, UInt64.toNat_and, c.toNat_kMask, hk, Nat.and_two_pow_sub_one_eq_mod]

theorem cell_ne {c : Capacity} {a b : UInt64} (hab : a.toNat < b.toNat)
    (hb : b.toNat < a.toNat + c.val.toNat) : cell c a ≠ cell c b := by
  intro h
  have hmod : a.toNat ≡ b.toNat [MOD c.val.toNat] := by
    have := congrArg Fin.val h
    rwa [cell_val, cell_val] at this
  have hdvd := (Nat.modEq_iff_dvd' hab.le).mp hmod
  have := Nat.le_of_dvd (by omega) hdvd
  omega

variable {c : Capacity} {D T : Type}

structure Queue (c : Capacity) (T : Type) where
  writePos : UInt64
  readPos : UInt64
  maxDepth : UInt64
  buffer : Fin c.val.toNat → T

/-- The constructor; `cells` are the default-constructed elements of `buffer_`. -/
def Queue.init (cells : Fin c.val.toNat → T) : Queue c T := ⟨0, 0, c.val, cells⟩

def Queue.setMaxDepth (q : Queue c T) (depth : UInt64) : Queue c T :=
  { q with maxDepth := if depth > c.val then c.val else depth }

def Queue.empty (q : Queue c T) : Bool := q.readPos ≥ q.writePos

def Queue.size (q : Queue c T) : UInt64 :=
  if q.writePos ≥ q.readPos then q.writePos - q.readPos else 0

theorem setMaxDepth_le (q : Queue c T) (depth : UInt64) :
    (q.setMaxDepth depth).maxDepth ≤ c.val := by
  unfold Queue.setMaxDepth
  split_ifs with h
  · exact UInt64.le_refl _
  · exact UInt64.not_lt.mp h

/-- Where a thread stands inside `try_push`, with the locals it has loaded. -/
inductive PushPc (T : Type)
  | loadWritePos (item : T)
  | loadReadPos (item : T) (wp : UInt64)
  | loadMaxDepth (item : T) (wp rp : UInt64)
  | storeCell (item : T) (wp : UInt64)
  | storeWritePos (item : T) (wp : UInt64)

def PushPc.item : PushPc T → T
  | .loadWritePos item | .loadReadPos item _ | .loadMaxDepth item _ _
  | .storeCell item _ | .storeWritePos item _ => item

def PushPc.loadsReadPos : PushPc T → Bool
  | .loadReadPos .. => true
  | _ => false

inductive PopPc (T : Type)
  | loadReadPos
  | loadWritePos (rp : UInt64)
  | takeCell (rp : UInt64)
  | storeReadPos (out : T) (rp : UInt64)

/-- One step of `try_push`; on the right the value it returns. -/
def tryPush (q : Queue c T) : PushPc T → Queue c T × (PushPc T ⊕ Bool)
  | .loadWritePos item => (q, .inl (.loadReadPos item q.writePos))
  | .loadReadPos item wp => (q, .inl (.loadMaxDepth item wp q.readPos))
  | .loadMaxDepth item wp rp =>
    if wp - rp ≥ q.maxDepth then (q, .inr false) else (q, .inl (.storeCell item wp))
  | .storeCell item wp =>
    ({ q with buffer := Function.update q.buffer (cell c wp) item }, .inl (.storeWritePos item wp))
  | .storeWritePos _ wp => ({ q with writePos := wp + 1 }, .inr true)

/-- One step of `pop`; on the right `out` when it returns true. A cell that was moved
out of keeps a valid but unspecified value, `movedFrom` of the old one. -/
def pop (movedFrom : T → T) (q : Queue c T) : PopPc T → Queue c T × (PopPc T ⊕ Option T)
  | .loadReadPos => (q, .inl (.loadWritePos q.readPos))
  | .loadWritePos rp => if rp ≥ q.writePos then (q, .inr none) else (q, .inl (.takeCell rp))
  | .takeCell rp =>
    let out := q.buffer (cell c rp)
    ({ q with buffer := Function.update q.buffer (cell c rp) (movedFrom out) },
      .inl (.storeReadPos out rp))
  | .storeReadPos out rp => ({ q with readPos := rp + 1 }, .inr (some out))

/-- The queue, the threads inside its calls, and what the calls have returned so far. -/
structure State (c : Capacity) (D T : Type) where
  queue : Queue c T
  producers : D → Option (PushPc T)
  consumer : Option (PopPc T)
  accepted : List T
  popped : List T
  /-- Number of unpopped items when the producer last loaded `read_pos_`. -/
  seen : D → ℕ
  /-- That number, for each `try_push` that returned false. -/
  fullReports : List ℕ
  /-- Number of unpopped items at the load of `write_pos_`, for each `pop` that returned false. -/
  emptyReports : List ℕ

def State.unpopped (s : State c D T) : ℕ := s.accepted.length - s.popped.length

def State.init (D : Type) (q : Queue c T) : State c D T where
  queue := q
  producers := fun _ => none
  consumer := none
  accepted := []
  popped := []
  seen := fun _ => 0
  fullReports := []
  emptyReports := []

inductive Action (D T : Type)
  | callTryPush (p : D) (item : T)
  | producer (p : D)
  | callPop
  | consumer

variable [DecidableEq D]

def producerStep (s : State c D T) (p : D) (pc : PushPc T) : State c D T :=
  match tryPush s.queue pc with
  | (q, .inl pc') =>
    { s with queue := q, producers := Function.update s.producers p (some pc'),
             seen := if pc.loadsReadPos then Function.update s.seen p s.unpopped else s.seen }
  | (q, .inr true) =>
    { s with queue := q, producers := Function.update s.producers p none,
             accepted := s.accepted ++ [pc.item] }
  | (q, .inr false) =>
    { s with queue := q, producers := Function.update s.producers p none,
             fullReports := s.fullReports ++ [s.seen p] }

def consumerStep (movedFrom : T → T) (s : State c D T) (pc : PopPc T) : State c D T :=
  match pop movedFrom s.queue pc with
  | (q, .inl pc') => { s with queue := q, consumer := some pc' }
  | (q, .inr (some out)) => { s with queue := q, consumer := none, popped := s.popped ++ [out] }
  | (q, .inr none) =>
    { s with queue := q, consumer := none, emptyReports := s.emptyReports ++ [s.unpopped] }

/-- One step of one thread; a thread that is not inside a call may begin one. -/
def step (movedFrom : T → T) (s : State c D T) : Action D T → Option (State c D T)
  | .callTryPush p item =>
    match s.producers p with
    | none => some { s with producers := Function.update s.producers p (some (.loadWritePos item)) }
    | some _ => none
  | .producer p => (s.producers p).map (producerStep s p)
  | .callPop =>
    match s.consumer with
    | none => some { s with consumer := some .loadReadPos }
    | some _ => none
  | .consumer => s.consumer.map (consumerStep movedFrom s)

end StereoCamera.SPSCQueue
