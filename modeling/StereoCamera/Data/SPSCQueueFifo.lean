import StereoCamera.Data.SPSCQueue
import StereoCamera.Lib.Transition

/-! The queue is a bounded FIFO as long as no two threads fill the same position: the
counters are the lengths of the histories, and the cells between them hold the rest. -/

namespace StereoCamera.SPSCQueue
open Transition

variable {c : Capacity} {D T : Type}

def PushPc.filled : Option (PushPc T) → Prop
  | some (.storeWritePos ..) => True
  | _ => False

/-- What the locals of a call to `try_push` still say about the queue. -/
def PushOk (s : State c D T) : Option (PushPc T) → Prop
  | some (.loadMaxDepth _ _ rp) => rp ≤ s.queue.readPos
  | some (.storeCell _ wp) => ∃ rp ≤ s.queue.readPos, wp - rp < s.queue.maxDepth
  | some (.storeWritePos item wp) =>
    wp = s.queue.writePos ∧ s.unpopped < s.queue.maxDepth.toNat ∧
      s.queue.buffer (cell c wp) = item
  | _ => True

def PopOk (s : State c D T) : Option (PopPc T) → Prop
  | some (.loadWritePos rp) => rp = s.queue.readPos
  | some (.takeCell rp) => rp = s.queue.readPos ∧ s.popped.length < s.accepted.length
  | some (.storeReadPos out rp) =>
    rp = s.queue.readPos ∧ s.accepted[s.popped.length]? = some out
  | _ => True

def taken : Option (PopPc T) → Bool
  | some (.storeReadPos ..) => true
  | _ => false

def inPop : Option (PopPc T) → List T
  | some (.storeReadPos out _) => [out]
  | _ => []

/-- What the cells between the two counters hold, without an item already moved out. -/
def State.queued (s : State c D T) : List T :=
  let start := s.queue.readPos.toNat + (inPop s.consumer).length
  (List.range' start (s.queue.writePos.toNat - start)).map fun i =>
    s.queue.buffer (cell c (UInt64.ofNat i))

structure Inv (s : State c D T) : Prop where
  maxDepth_le : s.queue.maxDepth ≤ c.val
  writePos : s.queue.writePos.toNat = s.accepted.length
  readPos : s.queue.readPos.toNat = s.popped.length
  popped : s.popped <+: s.accepted
  bounded : s.unpopped ≤ s.queue.maxDepth.toNat
  cells : ∀ pos : UInt64, s.queue.readPos ≤ pos → pos < s.queue.writePos →
    (taken s.consumer → pos ≠ s.queue.readPos) →
    s.accepted[pos.toNat]? = some (s.queue.buffer (cell c pos))
  producers : ∀ p, PushOk s (s.producers p)
  filled : ∀ p p', PushPc.filled (s.producers p) → PushPc.filled (s.producers p') → p = p'
  consumer : PopOk s s.consumer

/-- When a cell is written, the writer's position is the current one and no other
thread has filled it. -/
def Exclusive (s : State c D T) : Action D T → Prop
  | .producer p => ∀ item wp, s.producers p = some (.storeCell item wp) →
    wp = s.queue.writePos ∧ ∀ p', ¬ PushPc.filled (s.producers p')
  | _ => True

variable {s : State c D T}

theorem Inv.writePos_sub (h : Inv s) :
    s.unpopped = s.queue.writePos.toNat - s.queue.readPos.toNat := by
  rw [h.writePos, h.readPos, State.unpopped]

theorem Inv.readPos_le (h : Inv s) : s.queue.readPos.toNat ≤ s.queue.writePos.toNat := by
  rw [h.readPos, h.writePos]
  exact h.popped.length_le

theorem Inv.room_of_checked (h : Inv s) {p : D} {item : T} {wp : UInt64}
    (hp : s.producers p = some (.storeCell item wp)) (hwp : wp = s.queue.writePos) :
    s.unpopped < s.queue.maxDepth.toNat := by
  -- A stale `read_pos_` only overestimates what is in the queue.
  obtain ⟨rp, hrp, hlt⟩ : ∃ rp ≤ s.queue.readPos, wp - rp < s.queue.maxDepth := by
    simpa only [hp, PushOk] using h.producers p
  have hle := UInt64.le_iff_toNat_le.mp hrp
  have hsub : (wp - rp).toNat = wp.toNat - rp.toNat := by
    refine UInt64.toNat_sub_of_le _ _ (UInt64.le_iff_toNat_le.mpr ?_)
    rw [hwp]
    exact hle.trans h.readPos_le
  have := UInt64.lt_iff_toNat_lt.mp hlt
  rw [h.writePos_sub, ← hwp]
  omega

theorem Inv.accepted_length (h : Inv s) :
    s.accepted.length = s.popped.length + s.queue.size.toNat := by
  have hle := h.readPos_le
  rw [Queue.size, if_pos (UInt64.le_iff_toNat_le.mpr hle),
    UInt64.toNat_sub_of_le _ _ (UInt64.le_iff_toNat_le.mpr hle), ← h.readPos, ← h.writePos]
  omega

theorem Inv.unpopped_le_capacity (h : Inv s) : s.unpopped ≤ c.val.toNat :=
  h.bounded.trans (UInt64.le_iff_toNat_le.mp h.maxDepth_le)

theorem accepted_consumerStep (movedFrom : T → T) (s : State c D T) (pc : PopPc T) :
    (consumerStep movedFrom s pc).accepted = s.accepted := by
  unfold consumerStep
  split <;> rfl

theorem popped_consumerStep (movedFrom : T → T) (s : State c D T) (pc : PopPc T) :
    (consumerStep movedFrom s pc).popped = s.popped ++
      (match (pop movedFrom s.queue pc).2 with
        | .inr out => out.toList
        | .inl _ => []) := by
  cases pc <;> simp only [consumerStep, pop] <;> try split_ifs
  all_goals simp only [Option.toList, List.append_nil]

theorem inPop_length : ∀ pc : Option (PopPc T), (inPop pc).length = if taken pc then 1 else 0
  | none | some .loadReadPos | some (.loadWritePos _) | some (.takeCell _)
  | some (.storeReadPos ..) => rfl

theorem Inv.drop_eq_queued (h : Inv s) (hlt : s.accepted.length < 2 ^ 64) :
    s.accepted.drop (s.popped.length + (inPop s.consumer).length) = s.queued := by
  apply List.ext_getElem?
  intro i
  simp only [State.queued, h.readPos, h.writePos, List.getElem?_drop, List.getElem?_map]
  generalize hm : s.popped.length + (inPop s.consumer).length = m
  by_cases hi : m + i < s.accepted.length
  · have hpos : (UInt64.ofNat (m + i)).toNat = m + i := UInt64.toNat_ofNat_of_lt (hi.trans hlt)
    rw [List.getElem?_range' (by omega), one_mul, Option.map_some]
    have hcell := h.cells (UInt64.ofNat (m + i))
      (UInt64.le_iff_toNat_le.mpr (by rw [hpos, h.readPos]; omega))
      (UInt64.lt_iff_toNat_lt.mpr (by rw [hpos, h.writePos]; exact hi)) ?_
    · rwa [hpos] at hcell
    · intro ht he
      have := congrArg UInt64.toNat he
      rw [hpos, h.readPos] at this
      rw [inPop_length, if_pos ht] at hm
      omega
  · rw [List.getElem?_eq_none (by omega), List.getElem?_eq_none (by rw [List.length_range']; omega)]
    rfl

theorem Inv.accepted_eq (h : Inv s) (hlt : s.accepted.length < 2 ^ 64) :
    s.accepted = s.popped ++ inPop s.consumer ++ s.queued := by
  have hhead : s.popped ++ inPop s.consumer =
      s.accepted.take (s.popped.length + (inPop s.consumer).length) := by
    rw [← List.length_append]
    refine List.prefix_iff_eq_take.mp ?_
    have hok := h.consumer
    cases hc : s.consumer with
    | none => simpa only [inPop, List.append_nil] using h.popped
    | some pc =>
      rw [hc] at hok
      cases pc with
      | storeReadPos out rp =>
        obtain ⟨hlen, hget⟩ := List.getElem?_eq_some_iff.mp hok.2
        simp only [inPop, ← hget]
        exact List.concat_get_prefix h.popped hlen
      | _ => simpa only [inPop, List.append_nil] using h.popped
  rw [hhead, ← h.drop_eq_queued hlt, List.take_append_drop]

theorem inv_init {D : Type} (q : Queue c T) (hw : q.writePos = 0) (hr : q.readPos = 0)
    (hd : q.maxDepth ≤ c.val) : Inv (State.init D q) where
  maxDepth_le := hd
  writePos := by simp [State.init, hw]
  readPos := by simp [State.init, hr]
  popped := List.prefix_rfl
  bounded := Nat.zero_le _
  cells := fun pos _ hpos => absurd (hw ▸ hpos : pos < 0) (by simp [UInt64.lt_iff_toNat_lt])
  producers := fun _ => trivial
  filled := fun _ _ hp => hp.elim
  consumer := trivial

theorem PushOk.mono {s t : State c D T} {k : Option (PushPc T)} (h : PushOk s k)
    (hk : ¬PushPc.filled k) (hread : s.queue.readPos ≤ t.queue.readPos)
    (hdepth : t.queue.maxDepth = s.queue.maxDepth) : PushOk t k := by
  -- Only a thread with a filled cell depends on more than `read_pos_` not going back.
  cases k with
  | none => trivial
  | some pc =>
    cases pc with
    | loadMaxDepth item wp rp => exact UInt64.le_trans h hread
    | storeCell item wp =>
      obtain ⟨rp, hrp, hroom⟩ := h
      exact ⟨rp, UInt64.le_trans hrp hread, hdepth ▸ hroom⟩
    | storeWritePos item wp => exact absurd trivial hk
    | _ => trivial

theorem PopOk.mono {s t : State c D T} {k : Option (PopPc T)} (h : PopOk s k)
    (hread : t.queue.readPos = s.queue.readPos) (hpopped : t.popped = s.popped)
    (haccepted : s.accepted <+: t.accepted) : PopOk t k := by
  cases k with
  | none => trivial
  | some pc =>
    cases pc with
    | loadReadPos => trivial
    | loadWritePos rp => exact h.trans hread.symm
    | takeCell rp =>
      refine ⟨h.1.trans hread.symm, ?_⟩
      rw [hpopped]
      exact h.2.trans_le haccepted.length_le
    | storeReadPos out rp =>
      refine ⟨h.1.trans hread.symm, ?_⟩
      obtain ⟨more, hmore⟩ := haccepted
      have hlen := (List.getElem?_eq_some_iff.mp h.2).1
      rw [hpopped, ← hmore, List.getElem?_append_left hlen]
      exact h.2

theorem Inv.setConsumer {s : State c D T} (h : Inv s) (ht : taken s.consumer = false)
    {k : Option (PopPc T)} (hok : PopOk s k) (reports : List ℕ) :
    Inv { s with consumer := k, emptyReports := reports } :=
  { h with
    cells := fun pos hr hw _ => h.cells pos hr hw (by rw [ht]; exact fun hf => nomatch hf)
    producers := fun p => h.producers p
    consumer := hok }

theorem Inv.takeCell {s : State c D T} (h : Inv s) (movedFrom : T → T) {rp : UInt64}
    (hc : s.consumer = some (.takeCell rp)) :
    Inv (consumerStep movedFrom s (.takeCell rp)) := by
  obtain ⟨hrp, hne⟩ : rp = s.queue.readPos ∧ s.popped.length < s.accepted.length := by
    simpa only [hc, PopOk] using h.consumer
  have hcap := h.unpopped_le_capacity
  have hsub := h.writePos_sub
  have hlt : s.queue.readPos.toNat < s.queue.writePos.toNat := by
    rwa [h.readPos, h.writePos]
  have hhead : s.accepted[s.popped.length]? = some (s.queue.buffer (cell c rp)) := by
    have := h.cells rp (by rw [hrp]; exact UInt64.le_refl _)
      (by rw [hrp]; exact UInt64.lt_iff_toNat_lt.mpr hlt) (by rw [hc]; exact fun hf => nomatch hf)
    rwa [hrp, h.readPos, ← hrp] at this
  refine { h with cells := fun pos hr hw ht => ?_, producers := fun p => ?_, consumer := ?_ }
  · change s.accepted[pos.toNat]? = some (Function.update s.queue.buffer (cell c rp) _ (cell c pos))
    have hpos : pos ≠ s.queue.readPos := ht rfl
    have hlt' : s.queue.readPos.toNat < pos.toNat :=
      lt_of_le_of_ne (UInt64.le_iff_toNat_le.mp hr) fun he => hpos (UInt64.toNat_inj.mp he.symm)
    have hw' : pos.toNat < s.queue.writePos.toNat := UInt64.lt_iff_toNat_lt.mp hw
    -- Less than a capacity lies between the counters, so only the head's cell changes.
    rw [hrp, Function.update_of_ne (cell_ne hlt' (by omega)).symm]
    exact h.cells pos hr hw (by rw [hc]; exact fun hf => nomatch hf)
  · have hold := h.producers p
    change PushOk _ (s.producers p)
    cases hpc : s.producers p with
    | none => trivial
    | some pc =>
      rw [hpc] at hold
      cases pc with
      | storeWritePos item wp =>
        refine ⟨hold.1, hold.2.1, ?_⟩
        change Function.update s.queue.buffer (cell c rp) _ (cell c wp) = item
        have := hold.2.1
        have := UInt64.le_iff_toNat_le.mp h.maxDepth_le
        rw [hold.1, hrp, Function.update_of_ne (cell_ne hlt (by omega)).symm, ← hold.1]
        exact hold.2.2
      | _ => exact hold
  · exact ⟨hrp, hhead⟩

theorem Inv.storeReadPos {s : State c D T} (h : Inv s) (movedFrom : T → T) {out : T} {rp : UInt64}
    (hc : s.consumer = some (.storeReadPos out rp)) (hlt : s.accepted.length < 2 ^ 64) :
    Inv (consumerStep movedFrom s (.storeReadPos out rp)) := by
  obtain ⟨hrp, hout⟩ : rp = s.queue.readPos ∧ s.accepted[s.popped.length]? = some out := by
    simpa only [hc, PopOk] using h.consumer
  obtain ⟨hlen, hget⟩ := List.getElem?_eq_some_iff.mp hout
  have hnext : (rp + 1).toNat = s.popped.length + 1 := by
    rw [UInt64.toNat_add, hrp, h.readPos]
    exact Nat.mod_eq_of_lt (by change s.popped.length + 1 < 2 ^ 64; omega)
  have hunpopped : (consumerStep movedFrom s (.storeReadPos out rp)).unpopped ≤ s.unpopped := by
    change s.accepted.length - (s.popped ++ [out]).length ≤ s.accepted.length - s.popped.length
    rw [List.length_append]
    omega
  have hread : s.queue.readPos ≤ rp + 1 := by
    rw [UInt64.le_iff_toNat_le, hnext, h.readPos]
    omega
  refine { maxDepth_le := h.maxDepth_le, writePos := h.writePos, readPos := ?_, popped := ?_,
           bounded := hunpopped.trans h.bounded, cells := fun pos hr hw _ => ?_,
           producers := fun p => ?_, filled := h.filled, consumer := trivial }
  · change (rp + 1).toNat = (s.popped ++ [out]).length
    simp only [hnext, List.length_append, List.length_singleton]
  · change s.popped ++ [out] <+: s.accepted
    rw [← hget]
    exact List.concat_get_prefix h.popped hlen
  · change rp + 1 ≤ pos at hr
    have hr' : s.popped.length + 1 ≤ pos.toNat := hnext ▸ UInt64.le_iff_toNat_le.mp hr
    refine h.cells pos (UInt64.le_iff_toNat_le.mpr (by rw [h.readPos]; omega)) hw fun _ he => ?_
    rw [he, h.readPos] at hr'
    omega
  · have hold := h.producers p
    change PushOk _ (s.producers p)
    match hpc : s.producers p with
    | some (.storeWritePos item wp) =>
      rw [hpc] at hold
      exact ⟨hold.1, hunpopped.trans_lt hold.2.1, hold.2.2⟩
    | none | some (.loadWritePos _) | some (.loadReadPos ..) | some (.loadMaxDepth ..)
    | some (.storeCell ..) =>
      rw [hpc] at hold
      exact hold.mono id hread rfl

theorem Inv.consumerStep {s : State c D T} (h : Inv s) (movedFrom : T → T) {pc : PopPc T}
    (hc : s.consumer = some pc) (hlt : s.accepted.length < 2 ^ 64) :
    Inv (consumerStep movedFrom s pc) := by
  cases pc with
  | loadReadPos => exact h.setConsumer (by rw [hc]; rfl) (k := some (.loadWritePos _)) rfl _
  | loadWritePos rp =>
    have hrp : rp = s.queue.readPos := by simpa only [hc, PopOk] using h.consumer
    by_cases hempty : rp ≥ s.queue.writePos
    · simp only [SPSCQueue.consumerStep, pop, if_pos hempty]
      exact h.setConsumer (by rw [hc]; rfl) (k := none) trivial _
    · simp only [SPSCQueue.consumerStep, pop, if_neg hempty]
      refine h.setConsumer (by rw [hc]; rfl) (k := some (.takeCell rp)) ⟨hrp, ?_⟩ _
      have := UInt64.lt_iff_toNat_lt.mp (UInt64.not_le.mp hempty)
      rwa [hrp, h.readPos, h.writePos] at this
  | takeCell rp => exact h.takeCell movedFrom hc
  | storeReadPos out rp => exact h.storeReadPos movedFrom hc hlt

variable [DecidableEq D]

theorem popped_producerStep (s : State c D T) (p : D) (pc : PushPc T) :
    (producerStep s p pc).popped = s.popped := by
  unfold producerStep
  split <;> rfl

theorem accepted_producerStep (s : State c D T) (p : D) (pc : PushPc T) :
    (producerStep s p pc).accepted = s.accepted ++
      (match (tryPush s.queue pc).2 with
        | .inr true => [pc.item]
        | _ => []) := by
  unfold producerStep
  split <;> simp_all

theorem Inv.setProducer {s : State c D T} (h : Inv s) (p : D) {k : Option (PushPc T)}
    (hok : PushOk s k) (hk : ¬ PushPc.filled k) (seen : D → ℕ) (reports : List ℕ) :
    Inv { s with producers := Function.update s.producers p k, seen := seen,
                 fullReports := reports } := by
  refine { h with producers := fun p' => ?_, filled := fun p₁ p₂ h₁ h₂ => ?_ }
  · change PushOk s (Function.update s.producers p k p')
    by_cases hp : p' = p
    · subst hp
      rwa [Function.update_self]
    · rw [Function.update_of_ne hp]
      exact h.producers p'
  · have hne : ∀ p', PushPc.filled (Function.update s.producers p k p') → p' ≠ p := by
      rintro p' hf rfl
      exact hk (by simpa only [Function.update_self] using hf)
    have hp₁ := hne p₁ h₁
    have hp₂ := hne p₂ h₂
    simp only [Function.update_of_ne hp₁] at h₁
    simp only [Function.update_of_ne hp₂] at h₂
    exact h.filled p₁ p₂ h₁ h₂

theorem Inv.storeCell {s : State c D T} (h : Inv s) {p : D} {item : T} {wp : UInt64}
    (hp : s.producers p = some (.storeCell item wp)) (hwp : wp = s.queue.writePos)
    (hex : ∀ p', ¬ PushPc.filled (s.producers p')) :
    Inv (producerStep s p (.storeCell item wp)) := by
  have hroom := h.room_of_checked hp hwp
  have hcap := UInt64.le_iff_toNat_le.mp h.maxDepth_le
  have hfree : ∀ pos : UInt64, s.queue.readPos ≤ pos → pos < s.queue.writePos →
      cell c pos ≠ cell c wp := by
    intro pos hr hw
    have := UInt64.le_iff_toNat_le.mp hr
    have := UInt64.lt_iff_toNat_lt.mp hw
    have := h.writePos_sub
    exact hwp ▸ cell_ne (by omega) (by omega)
  refine { h with cells := fun pos hr hw ht => ?_, producers := fun p' => ?_, filled := ?_ }
  · change s.accepted[pos.toNat]? =
      some (Function.update s.queue.buffer (cell c wp) item (cell c pos))
    rw [Function.update_of_ne (hfree pos hr hw)]
    exact h.cells pos hr hw ht
  · change PushOk (producerStep s p (.storeCell item wp))
      (Function.update s.producers p (some (.storeWritePos item wp)) p')
    by_cases hpp : p' = p
    · subst hpp
      rw [Function.update_self]
      exact ⟨hwp, hroom, Function.update_self ..⟩
    · rw [Function.update_of_ne hpp]
      exact (h.producers p').mono (hex p') (UInt64.le_refl _) rfl
  · intro p₁ p₂ h₁ h₂
    have heq : ∀ p', PushPc.filled (Function.update s.producers p
        (some (.storeWritePos item wp)) p') → p' = p := by
      intro p' hf
      by_contra hne
      rw [Function.update_of_ne hne] at hf
      exact hex p' hf
    exact (heq p₁ h₁).trans (heq p₂ h₂).symm

theorem Inv.storeWritePos {s : State c D T} (h : Inv s) {p : D} {item : T} {wp : UInt64}
    (hp : s.producers p = some (.storeWritePos item wp))
    (hlt : s.accepted.length + 1 < 2 ^ 64) :
    Inv (producerStep s p (.storeWritePos item wp)) := by
  obtain ⟨hwp, hroom, hcell⟩ : wp = s.queue.writePos ∧ s.unpopped < s.queue.maxDepth.toNat ∧
      s.queue.buffer (cell c wp) = item := by
    simpa only [hp, PushOk] using h.producers p
  have hnext : (wp + 1).toNat = s.accepted.length + 1 := by
    rw [UInt64.toNat_add, hwp, h.writePos]
    exact Nat.mod_eq_of_lt hlt
  have hle := h.popped.length_le
  have hunpopped : (producerStep s p (.storeWritePos item wp)).unpopped = s.unpopped + 1 := by
    change (s.accepted ++ [item]).length - s.popped.length = _
    rw [List.length_append, List.length_singleton, State.unpopped]
    omega
  refine { maxDepth_le := h.maxDepth_le, writePos := ?_, readPos := h.readPos, popped := ?_,
           bounded := ?_, cells := fun pos hr hw ht => ?_, producers := fun p' => ?_,
           filled := fun p₁ p₂ h₁ h₂ => ?_, consumer := ?_ }
  · change (wp + 1).toNat = (s.accepted ++ [item]).length
    simp only [hnext, List.length_append, List.length_singleton]
  · exact h.popped.trans (List.prefix_append ..)
  · rw [hunpopped]
    exact hroom
  · change (s.accepted ++ [item])[pos.toNat]? = some (s.queue.buffer (cell c pos))
    have hpos : pos.toNat < (wp + 1).toNat := UInt64.lt_iff_toNat_lt.mp hw
    by_cases hlast : pos.toNat < s.accepted.length
    · rw [List.getElem?_append_left hlast]
      refine h.cells pos hr (UInt64.lt_iff_toNat_lt.mpr ?_) ht
      rwa [h.writePos]
    · have heq : pos = wp := by
        apply UInt64.toNat_inj.mp
        rw [hwp, h.writePos]
        omega
      rw [heq, hcell, hwp, h.writePos, List.getElem?_concat_length]
  · change PushOk _ (Function.update s.producers p none p')
    by_cases hpp : p' = p
    · subst hpp
      rw [Function.update_self]
      trivial
    · -- At most one thread has a filled cell, and that is `p`.
      have hnf : ¬PushPc.filled (s.producers p') := fun hf =>
        hpp (h.filled p' p hf (by rw [hp]; trivial))
      rw [Function.update_of_ne hpp]
      exact (h.producers p').mono hnf (UInt64.le_refl _) rfl
  · have hne : ∀ p', PushPc.filled (Function.update s.producers p none p') →
        PushPc.filled (s.producers p') := by
      intro p' hf
      by_cases hpp : p' = p
      · subst hpp
        rw [Function.update_self] at hf
        exact hf.elim
      · rwa [Function.update_of_ne hpp] at hf
    exact h.filled p₁ p₂ (hne p₁ h₁) (hne p₂ h₂)
  · exact h.consumer.mono rfl rfl (List.prefix_append _ _)

theorem Inv.producerStep {s : State c D T} (h : Inv s) {p : D} {pc : PushPc T}
    (hp : s.producers p = some pc) (hx : Exclusive s (.producer p))
    (hlt : (producerStep s p pc).accepted.length < 2 ^ 64) : Inv (producerStep s p pc) := by
  cases pc with
  | loadWritePos item => exact h.setProducer p (k := some (.loadReadPos item _)) trivial id _ _
  | loadReadPos item wp =>
    exact h.setProducer p (k := some (.loadMaxDepth item wp _)) (UInt64.le_refl _) id _ _
  | loadMaxDepth item wp rp =>
    have hrp : rp ≤ s.queue.readPos := by simpa only [hp, PushOk] using h.producers p
    by_cases hfull : wp - rp ≥ s.queue.maxDepth
    · simp only [SPSCQueue.producerStep, tryPush, if_pos hfull]
      exact h.setProducer p (k := none) trivial id _ _
    · simp only [SPSCQueue.producerStep, tryPush, if_neg hfull]
      exact h.setProducer p (k := some (.storeCell item wp))
        ⟨rp, hrp, UInt64.not_le.mp hfull⟩ id _ _
  | storeCell item wp => exact h.storeCell hp (hx item wp hp).1 (hx item wp hp).2
  | storeWritePos item wp =>
    refine h.storeWritePos hp ?_
    simpa only [SPSCQueue.producerStep, tryPush, PushPc.item, List.length_append,
      List.length_singleton] using hlt

theorem Inv.step {s t : State c D T} (h : Inv s) {movedFrom : T → T} {a : Action D T}
    (hx : Exclusive s a) (hstep : step movedFrom s a = some t)
    (hlt : t.accepted.length < 2 ^ 64) : Inv t := by
  cases a with
  | callTryPush p item =>
    simp only [SPSCQueue.step] at hstep
    split at hstep
    · cases hstep
      exact h.setProducer p (k := some (.loadWritePos item)) trivial id _ _
    · cases hstep
  | producer p =>
    obtain ⟨pc, hp, rfl⟩ := Option.map_eq_some_iff.mp hstep
    exact h.producerStep hp hx hlt
  | callPop =>
    simp only [SPSCQueue.step] at hstep
    split at hstep
    · rename_i hc
      cases hstep
      exact h.setConsumer (by rw [hc]; rfl) (k := some .loadReadPos) trivial _
    · cases hstep
  | consumer =>
    obtain ⟨pc, hc, rfl⟩ := Option.map_eq_some_iff.mp hstep
    exact h.consumerStep movedFrom hc (accepted_consumerStep movedFrom s pc ▸ hlt)

/-! ### One producer and one consumer -/

structure SoloInv (s : State c Unit T) : Prop extends Inv s where
  loaded : ∀ item wp, s.producers () = some (.loadReadPos item wp) → wp = s.queue.writePos
  compared : ∀ item wp rp, s.producers () = some (.loadMaxDepth item wp rp) →
    wp = s.queue.writePos ∧ s.seen () = wp.toNat - rp.toNat
  checked : ∀ item wp, s.producers () = some (.storeCell item wp) → wp = s.queue.writePos
  full : ∀ n ∈ s.fullReports, s.queue.maxDepth.toNat ≤ n
  empty : ∀ n ∈ s.emptyReports, n = 0

theorem soloInv_init (q : Queue c T) (hw : q.writePos = 0) (hr : q.readPos = 0)
    (hd : q.maxDepth ≤ c.val) : SoloInv (State.init Unit q) where
  toInv := inv_init q hw hr hd
  loaded := fun _ _ h => nomatch h
  compared := fun _ _ _ h => nomatch h
  checked := fun _ _ h => nomatch h
  full := fun _ h => nomatch h
  empty := fun _ h => nomatch h

theorem SoloInv.exclusive {s : State c Unit T} (h : SoloInv s) (a : Action Unit T) :
    Exclusive s a := by
  cases a with
  | producer p =>
    intro item wp hp
    refine ⟨h.checked item wp hp, fun p' hf => ?_⟩
    obtain rfl : p' = p := rfl
    rw [hp] at hf
    exact hf
  | _ => trivial

theorem SoloInv.setProducer {s : State c Unit T} (h : SoloInv s) {k : Option (PushPc T)}
    {seen : Unit → ℕ} {reports : List ℕ}
    (hinv : Inv { s with producers := Function.update s.producers () k, seen := seen,
                         fullReports := reports })
    (hl : ∀ item wp, k = some (.loadReadPos item wp) → wp = s.queue.writePos)
    (hm : ∀ item wp rp, k = some (.loadMaxDepth item wp rp) →
      wp = s.queue.writePos ∧ seen () = wp.toNat - rp.toNat)
    (hc : ∀ item wp, k = some (.storeCell item wp) → wp = s.queue.writePos)
    (hf : ∀ n ∈ reports, s.queue.maxDepth.toNat ≤ n) :
    SoloInv { s with producers := Function.update s.producers () k, seen := seen,
                     fullReports := reports } where
  toInv := hinv
  loaded := fun item wp hp => hl item wp (by simpa only [Function.update_self] using hp)
  compared := fun item wp rp hp => hm item wp rp (by simpa only [Function.update_self] using hp)
  checked := fun item wp hp => hc item wp (by simpa only [Function.update_self] using hp)
  full := hf
  empty := h.empty

theorem SoloInv.maxDepth_le_seen {s : State c Unit T} (h : SoloInv s) {item : T} {wp rp : UInt64}
    (hp : s.producers () = some (.loadMaxDepth item wp rp)) (hfull : wp - rp ≥ s.queue.maxDepth) :
    s.queue.maxDepth.toNat ≤ s.seen () := by
  -- A producer that finds the depth reached did see that many items.
  obtain ⟨hwp, hseen⟩ := h.compared item wp rp hp
  have hrp : rp ≤ s.queue.readPos := by simpa only [hp, PushOk] using h.producers ()
  have hle : rp ≤ wp := by
    rw [hwp]
    exact UInt64.le_trans hrp (UInt64.le_iff_toNat_le.mpr h.readPos_le)
  rw [hseen, ← UInt64.toNat_sub_of_le _ _ hle]
  exact UInt64.le_iff_toNat_le.mp hfull

theorem SoloInv.producerStep {s : State c Unit T} (h : SoloInv s) {pc : PushPc T}
    (hp : s.producers () = some pc) (hinv : Inv (producerStep s () pc)) :
    SoloInv (producerStep s () pc) := by
  cases pc with
  | loadWritePos item =>
    refine h.setProducer hinv ?_ ?_ ?_ h.full
    · intro _ _ he
      cases he
      rfl
    · intro _ _ _ he
      cases he
    · intro _ _ he
      cases he
  | loadReadPos item wp =>
    refine h.setProducer hinv ?_ ?_ ?_ h.full
    · intro _ _ he
      cases he
    · intro item' wp' rp' he
      cases he
      have hwp := h.loaded item wp hp
      refine ⟨hwp, ?_⟩
      change Function.update s.seen () s.unpopped () = _
      rw [Function.update_self, h.writePos_sub, hwp]
    · intro _ _ he
      cases he
  | loadMaxDepth item wp rp =>
    by_cases hfull : wp - rp ≥ s.queue.maxDepth
    · simp only [SPSCQueue.producerStep, tryPush, if_pos hfull] at hinv ⊢
      refine h.setProducer hinv ?_ ?_ ?_ fun n hn => ?_
      · exact fun _ _ he => nomatch he
      · exact fun _ _ _ he => nomatch he
      · exact fun _ _ he => nomatch he
      · rcases List.mem_append.mp hn with hn | hn
        · exact h.full n hn
        · rw [List.mem_singleton.mp hn]
          exact h.maxDepth_le_seen hp hfull
    · simp only [SPSCQueue.producerStep, tryPush, if_neg hfull] at hinv ⊢
      refine h.setProducer hinv ?_ ?_ ?_ h.full
      · exact fun _ _ he => nomatch he
      · exact fun _ _ _ he => nomatch he
      · intro item' wp' he
        cases he
        exact (h.compared item wp rp hp).1
  | storeCell item wp | storeWritePos item wp =>
    exact { hinv with
      loaded := fun _ _ hp' => nomatch hp'
      compared := fun _ _ _ hp' => nomatch hp'
      checked := fun _ _ hp' => nomatch hp'
      full := h.full
      empty := h.empty }

theorem SoloInv.consumerStep {s : State c Unit T} (h : SoloInv s) (movedFrom : T → T)
    {pc : PopPc T} (hc : s.consumer = some pc) (hinv : Inv (consumerStep movedFrom s pc)) :
    SoloInv (consumerStep movedFrom s pc) := by
  cases pc with
  | loadReadPos => exact { h with toInv := hinv }
  | loadWritePos rp =>
    have hrp : rp = s.queue.readPos := by simpa only [hc, PopOk] using h.consumer
    by_cases hempty : rp ≥ s.queue.writePos
    · simp only [SPSCQueue.consumerStep, pop, if_pos hempty] at hinv ⊢
      refine { h with toInv := hinv, empty := fun n hn => ?_ }
      rcases List.mem_append.mp hn with hn | hn
      · exact h.empty n hn
      · have := UInt64.le_iff_toNat_le.mp hempty
        rw [List.mem_singleton.mp hn, h.writePos_sub, ← hrp]
        omega
    · simp only [SPSCQueue.consumerStep, pop, if_neg hempty] at hinv ⊢
      exact { h with toInv := hinv }
  | takeCell rp => exact { h with toInv := hinv }
  | storeReadPos out rp => exact { h with toInv := hinv }

theorem SoloInv.step {s t : State c Unit T} (h : SoloInv s) {movedFrom : T → T}
    {a : Action Unit T} (hstep : step movedFrom s a = some t)
    (hlt : t.accepted.length < 2 ^ 64) : SoloInv t := by
  have hinv := h.toInv.step (h.exclusive a) hstep hlt
  cases a with
  | callTryPush p item =>
    simp only [SPSCQueue.step] at hstep
    split at hstep
    · cases hstep
      refine h.setProducer (k := some (.loadWritePos item)) hinv ?_ ?_ ?_ h.full
      · exact fun _ _ he => nomatch he
      · exact fun _ _ _ he => nomatch he
      · exact fun _ _ he => nomatch he
    · cases hstep
  | producer p =>
    obtain ⟨pc, hp, rfl⟩ := Option.map_eq_some_iff.mp hstep
    exact h.producerStep hp hinv
  | callPop =>
    simp only [SPSCQueue.step] at hstep
    split at hstep
    · cases hstep
      exact { h with toInv := hinv }
    · cases hstep
  | consumer =>
    obtain ⟨pc, hc, rfl⟩ := Option.map_eq_some_iff.mp hstep
    exact h.consumerStep movedFrom hc hinv

theorem accepted_prefix_step {movedFrom : T → T} {s t : State c D T}
    {a : Action D T} (hstep : step movedFrom s a = some t) : s.accepted <+: t.accepted := by
  cases a with
  | callTryPush p item =>
    simp only [SPSCQueue.step] at hstep
    split at hstep <;> cases hstep
    exact List.prefix_rfl
  | producer p =>
    obtain ⟨pc, hp, rfl⟩ := Option.map_eq_some_iff.mp hstep
    unfold producerStep
    split
    · exact List.prefix_rfl
    · exact List.prefix_append ..
    · exact List.prefix_rfl
  | callPop =>
    simp only [SPSCQueue.step] at hstep
    split at hstep <;> cases hstep
    exact List.prefix_rfl
  | consumer =>
    obtain ⟨pc, hc, rfl⟩ := Option.map_eq_some_iff.mp hstep
    rw [accepted_consumerStep]

theorem maxDepth_step {movedFrom : T → T} {s t : State c D T}
    {a : Action D T} (hstep : step movedFrom s a = some t) :
    t.queue.maxDepth = s.queue.maxDepth := by
  cases a with
  | callTryPush p item =>
    simp only [SPSCQueue.step] at hstep
    split at hstep <;> cases hstep
    rfl
  | producer p =>
    obtain ⟨pc, hp, rfl⟩ := Option.map_eq_some_iff.mp hstep
    cases pc <;> simp only [producerStep, tryPush]
    split_ifs <;> rfl
  | callPop =>
    simp only [SPSCQueue.step] at hstep
    split at hstep <;> cases hstep
    rfl
  | consumer =>
    obtain ⟨pc, hc, rfl⟩ := Option.map_eq_some_iff.mp hstep
    cases pc <;> simp only [consumerStep, pop]
    split_ifs <;> rfl

theorem SoloInv.run {movedFrom : T → T} {s t : State c Unit T} {as : List (Action Unit T)}
    (h : SoloInv s) (hrun : run (SPSCQueue.step movedFrom) s as = some t)
    (hlt : t.accepted.length < 2 ^ 64) : SoloInv t ∧ t.queue.maxDepth = s.queue.maxDepth := by
  have hinv : t.accepted.length < 2 ^ 64 →
      SoloInv t ∧ t.queue.maxDepth = s.queue.maxDepth := by
    refine run_invariant (I := fun t => t.accepted.length < 2 ^ 64 →
      SoloInv t ∧ t.queue.maxDepth = s.queue.maxDepth) ?_ (fun _ => ⟨h, rfl⟩) hrun
    intro r a t ih hstep hlt
    obtain ⟨hr, hd⟩ := ih ((accepted_prefix_step hstep).length_le.trans_lt hlt)
    exact ⟨hr.step hstep hlt, (maxDepth_step hstep).trans hd⟩
  exact hinv hlt

/-- A bounded FIFO of depth `d`, said of what the calls returned and of what is in the cells. -/
structure BoundedFifo (d : ℕ) (s : State c Unit T) : Prop where
  fifo : s.popped <+: s.accepted
  bounded : (s.queue.writePos - s.queue.readPos).toNat ≤ d
  /-- An accepted item is popped, in the hands of the running `pop`, or in its cell. -/
  retained : s.accepted = s.popped ++ inPop s.consumer ++ s.queued
  /-- The cell about to be written is the cell of no unpopped item. -/
  separate : ∀ item wp, s.producers () = some (.storeCell item wp) →
    ∀ i, s.popped.length ≤ i → i < s.accepted.length → cell c (UInt64.ofNat i) ≠ cell c wp
  full : ∀ n ∈ s.fullReports, d ≤ n
  empty : ∀ n ∈ s.emptyReports, n = 0

theorem SoloInv.boundedFifo {s : State c Unit T} (h : SoloInv s)
    (hlt : s.accepted.length < 2 ^ 64) : BoundedFifo s.queue.maxDepth.toNat s where
  fifo := h.popped
  bounded := by
    rw [UInt64.toNat_sub_of_le _ _ (UInt64.le_iff_toNat_le.mpr h.readPos_le), ← h.writePos_sub]
    exact h.bounded
  retained := h.accepted_eq hlt
  separate := fun item wp hp i hi hi' => by
    have hpos : (UInt64.ofNat i).toNat = i := UInt64.toNat_ofNat_of_lt (hi'.trans hlt)
    have hwp := h.checked item wp hp
    have hroom := h.room_of_checked hp hwp
    have := UInt64.le_iff_toNat_le.mp h.maxDepth_le
    refine cell_ne ?_ ?_ <;> rw [hpos, hwp, h.writePos]
    · exact hi'
    · rw [State.unpopped] at hroom
      omega
  full := h.full
  empty := h.empty

/-- `SPSCQueue` with one producer and one consumer is a bounded FIFO over every
interleaving of their steps. -/
theorem spsc_boundedFifo (movedFrom : T → T) (cells : Fin c.val.toNat → T) (depth : UInt64)
    (as : List (Action Unit T)) (s : State c Unit T)
    (hrun : run (step movedFrom) (State.init Unit ((Queue.init cells).setMaxDepth depth)) as =
      some s)
    (hlt : s.accepted.length < 2 ^ 64) :
    BoundedFifo ((Queue.init cells).setMaxDepth depth).maxDepth.toNat s := by
  obtain ⟨h, hd⟩ := (soloInv_init _ rfl rfl (setMaxDepth_le _ _)).run hrun hlt
  have hdepth : s.queue.maxDepth = ((Queue.init cells).setMaxDepth depth).maxDepth := hd
  exact hdepth ▸ h.boundedFifo hlt

def two : Capacity := ⟨2, by decide, by decide⟩

/-- The consumer starts first; the second push finds the queue full at depth 1. -/
def pushPopSchedule : List (Action Unit ℕ) :=
  [.callTryPush () 7, .producer (), .callPop, .producer (), .producer (), .consumer,
    .producer (), .producer (), .callTryPush () 8, .producer (), .producer (), .consumer,
    .consumer, .producer (), .consumer]

theorem spsc_boundedFifo_two : ∃ s,
    run (step id) (State.init Unit ((Queue.init (c := two) fun _ => 0).setMaxDepth 1))
      pushPopSchedule = some s ∧
    s.accepted = [7] ∧ s.popped = [7] ∧ s.fullReports = [1] ∧ BoundedFifo 1 s :=
  ⟨_, rfl, rfl, rfl, rfl, spsc_boundedFifo id (fun _ => 0) 1 pushPopSchedule _ rfl (by decide)⟩

end StereoCamera.SPSCQueue
