import StereoCamera.Data.SPSCQueueFifo

/-! With one producer, what is popped is what was accepted, in that order, however often the
counters wrap. -/

namespace StereoCamera.SPSCQueue
open Transition

variable {c : Capacity} {T : Type}

theorem cell_ofNat (c : Capacity) (i : ℕ) :
    (cell c (UInt64.ofNat i) : ℕ) = i % c.val.toNat := by
  -- The capacity divides 2^64, so the position wraps on the boundary of the buffer.
  obtain ⟨k, hk⟩ := c.exists_two_pow
  have hlt := c.val.toNat_lt
  rw [hk] at hlt
  have hk64 : k < 64 := (Nat.pow_lt_pow_iff_right (by decide)).mp hlt
  have hdvd : 2 ^ k ∣ 2 ^ 64 := Nat.pow_dvd_pow 2 hk64.le
  have hmod : (UInt64.ofNat i).toNat = i % 2 ^ 64 := UInt64.toNat_ofNat'
  rw [cell_val, hmod, hk, Nat.mod_mod_of_dvd _ hdvd]

theorem cell_ofNat_ne {c : Capacity} {i j : ℕ} (hij : i < j) (hj : j < i + c.val.toNat) :
    cell c (UInt64.ofNat i) ≠ cell c (UInt64.ofNat j) := by
  intro h
  have hmod : i ≡ j [MOD c.val.toNat] := by
    have := congrArg Fin.val h
    rwa [cell_ofNat, cell_ofNat] at this
  have hdvd := (Nat.modEq_iff_dvd' hij.le).mp hmod
  have := Nat.le_of_dvd (by omega) hdvd
  omega

theorem toNat_ofNat_sub {m n : ℕ} (hmn : m ≤ n) (hlt : n - m < 2 ^ 64) :
    (UInt64.ofNat n - UInt64.ofNat m).toNat = n - m := by
  have hsum : UInt64.ofNat n = UInt64.ofNat m + UInt64.ofNat (n - m) := by
    rw [← UInt64.ofNat_add, Nat.add_sub_cancel' hmn]
  have hsub : UInt64.ofNat n - UInt64.ofNat m = UInt64.ofNat (n - m) := by grind
  rw [hsub]
  exact UInt64.toNat_ofNat_of_lt' hlt

def PushOrder (s : State c Unit T) : Option (PushPc T) → Prop
  | some (.loadReadPos _ wp) => wp = s.queue.writePos
  | some (.loadMaxDepth _ wp rp) =>
    wp = s.queue.writePos ∧
      ∃ n ≤ s.popped.length, rp = UInt64.ofNat n ∧ s.accepted.length ≤ n + c.val.toNat
  | some (.storeCell _ wp) =>
    wp = s.queue.writePos ∧ s.accepted.length < s.popped.length + c.val.toNat
  | some (.storeWritePos item wp) =>
    wp = s.queue.writePos ∧ s.accepted.length < s.popped.length + c.val.toNat ∧
      s.queue.buffer (cell c wp) = item
  | _ => True

/-- The counters are the lengths of the histories modulo 2^64. -/
structure OrderInv (s : State c Unit T) : Prop where
  maxDepth_le : s.queue.maxDepth ≤ c.val
  writePos : s.queue.writePos = UInt64.ofNat s.accepted.length
  readPos : s.queue.readPos = UInt64.ofNat s.popped.length
  popped : s.popped <+: s.accepted
  room : s.accepted.length ≤ s.popped.length + c.val.toNat
  cells : ∀ i, s.popped.length + (inPop s.consumer).length ≤ i → i < s.accepted.length →
    s.accepted[i]? = some (s.queue.buffer (cell c (UInt64.ofNat i)))
  producer : PushOrder s (s.producers ())
  consumer : PopOk s s.consumer

theorem orderInv_init (q : Queue c T) (hw : q.writePos = 0) (hr : q.readPos = 0)
    (hd : q.maxDepth ≤ c.val) : OrderInv (State.init Unit q) where
  maxDepth_le := hd
  writePos := hw
  readPos := hr
  popped := List.prefix_rfl
  room := Nat.zero_le _
  cells := fun _ _ hi => absurd hi (Nat.not_lt_zero _)
  producer := trivial
  consumer := trivial

variable {s t : State c Unit T}

theorem OrderInv.setProducer (h : OrderInv s) {k : Option (PushPc T)} (hok : PushOrder s k)
    (seen : Unit → ℕ) (reports : List ℕ) :
    OrderInv { s with producers := Function.update s.producers () k, seen := seen,
                      fullReports := reports } where
  maxDepth_le := h.maxDepth_le
  writePos := h.writePos
  readPos := h.readPos
  popped := h.popped
  room := h.room
  cells := h.cells
  producer := by
    change PushOrder s (Function.update s.producers () k ())
    rw [Function.update_self]
    exact hok
  consumer := h.consumer

theorem OrderInv.storeCell (h : OrderInv s) {item : T} {wp : UInt64}
    (hp : s.producers () = some (.storeCell item wp)) :
    OrderInv (producerStep s () (.storeCell item wp)) := by
  have hok := h.producer
  rw [hp] at hok
  obtain ⟨hwp, hroom⟩ := hok
  refine ⟨h.maxDepth_le, h.writePos, h.readPos, h.popped, h.room, ?_, ?_, h.consumer⟩
  · intro i hlo hi
    change s.popped.length + (inPop s.consumer).length ≤ i at hlo
    change i < s.accepted.length at hi
    change s.accepted[i]? = some (Function.update s.queue.buffer (cell c wp) item _)
    have hne := cell_ofNat_ne (c := c) hi (by omega)
    rw [hwp, h.writePos, Function.update_of_ne hne]
    exact h.cells i hlo hi
  · change PushOrder _ (Function.update s.producers () (some (.storeWritePos item wp)) ())
    rw [Function.update_self]
    exact ⟨hwp, hroom, Function.update_self ..⟩

theorem OrderInv.storeWritePos (h : OrderInv s) {item : T} {wp : UInt64}
    (hp : s.producers () = some (.storeWritePos item wp)) :
    OrderInv (producerStep s () (.storeWritePos item wp)) := by
  have hok := h.producer
  rw [hp] at hok
  obtain ⟨hwp, hroom, hcell⟩ := hok
  have hlen : (s.accepted ++ [item]).length = s.accepted.length + 1 := by simp
  refine ⟨h.maxDepth_le, ?_, h.readPos, ?_, ?_, ?_, ?_, ?_⟩
  · change wp + 1 = UInt64.ofNat (s.accepted ++ [item]).length
    rw [hlen, UInt64.ofNat_add, hwp, h.writePos]
    rfl
  · exact h.popped.trans (List.prefix_append ..)
  · change (s.accepted ++ [item]).length ≤ _
    rw [hlen]
    exact hroom
  · intro i hlo hi
    change i < (s.accepted ++ [item]).length at hi
    change (s.accepted ++ [item])[i]? = some (s.queue.buffer _)
    by_cases hlast : i < s.accepted.length
    · rw [List.getElem?_append_left hlast]
      exact h.cells i hlo hlast
    · have heq : i = s.accepted.length := by omega
      rw [heq, ← h.writePos, ← hwp, hcell, List.getElem?_concat_length]
  · change PushOrder _ (Function.update s.producers () none ())
    rw [Function.update_self]
    trivial
  · exact h.consumer.mono rfl rfl (List.prefix_append _ _)

theorem OrderInv.producerStep (h : OrderInv s) {pc : PushPc T} (hp : s.producers () = some pc) :
    OrderInv (producerStep s () pc) := by
  have hok := h.producer
  rw [hp] at hok
  cases pc with
  | loadWritePos item => exact h.setProducer (k := some (.loadReadPos item _)) rfl _ _
  | loadReadPos item wp =>
    refine h.setProducer (k := some (.loadMaxDepth item wp _)) ⟨hok, ?_⟩ _ _
    exact ⟨_, Nat.le_refl _, h.readPos, h.room⟩
  | loadMaxDepth item wp rp =>
    obtain ⟨hwp, n, hn, hrp, hroom⟩ := hok
    by_cases hfull : wp - rp ≥ s.queue.maxDepth
    · simp only [SPSCQueue.producerStep, tryPush, if_pos hfull]
      exact h.setProducer (k := none) trivial _ _
    · simp only [SPSCQueue.producerStep, tryPush, if_neg hfull]
      refine h.setProducer (k := some (.storeCell item wp)) ⟨hwp, ?_⟩ _ _
      -- A stale `read_pos_` only overestimates what is in the queue.
      have hle := h.popped.length_le
      have hcap := c.val.toNat_lt
      have hsub : (wp - rp).toNat = s.accepted.length - n := by
        rw [hwp, h.writePos, hrp]
        exact toNat_ofNat_sub (by omega) (by omega)
      have hlt := UInt64.lt_iff_toNat_lt.mp (UInt64.not_le.mp hfull)
      have hdepth := UInt64.le_iff_toNat_le.mp h.maxDepth_le
      omega
  | storeCell item wp => exact h.storeCell hp
  | storeWritePos item wp => exact h.storeWritePos hp

theorem OrderInv.setConsumer (h : OrderInv s) (hin : inPop s.consumer = []) {k : Option (PopPc T)}
    (hok : PopOk s k) (reports : List ℕ) :
    OrderInv { s with consumer := k, emptyReports := reports } where
  maxDepth_le := h.maxDepth_le
  writePos := h.writePos
  readPos := h.readPos
  popped := h.popped
  room := h.room
  cells := by
    intro i hlo hi
    refine h.cells i ?_ hi
    rw [hin]
    exact Nat.le_of_add_right_le hlo
  producer := h.producer
  consumer := hok

theorem OrderInv.takeCell (h : OrderInv s) (movedFrom : T → T) {rp : UInt64}
    (hc : s.consumer = some (.takeCell rp)) :
    OrderInv (consumerStep movedFrom s (.takeCell rp)) := by
  have hok := h.consumer
  rw [hc] at hok
  obtain ⟨hrp, hlt⟩ := hok
  have hroom := h.room
  have hcells := h.cells
  rw [hc] at hcells
  change ∀ i, s.popped.length ≤ i → _ at hcells
  have hhead := hcells s.popped.length (Nat.le_refl _) hlt
  -- Less than a capacity lies between the counters, so only the cell of the head changes.
  have hkeep : ∀ i, s.popped.length < i → i < s.popped.length + c.val.toNat →
      (consumerStep movedFrom s (.takeCell rp)).queue.buffer (cell c (UInt64.ofNat i)) =
        s.queue.buffer (cell c (UInt64.ofNat i)) := by
    intro i hlo hi
    change Function.update s.queue.buffer (cell c rp) _ _ = _
    rw [hrp, h.readPos, Function.update_of_ne (cell_ofNat_ne hlo hi).symm]
  refine ⟨h.maxDepth_le, h.writePos, h.readPos, h.popped, h.room, ?_, ?_, hrp, ?_⟩
  · intro i hlo hi
    change s.popped.length + 1 ≤ i at hlo
    change i < s.accepted.length at hi
    rw [hkeep i hlo (by omega)]
    exact hcells i (Nat.le_of_succ_le hlo) hi
  · have hold := h.producer
    change PushOrder _ (s.producers ())
    cases hp : s.producers () with
    | none => trivial
    | some pc =>
      rw [hp] at hold
      cases pc with
      | storeWritePos item wp =>
        refine ⟨hold.1, hold.2.1, ?_⟩
        rw [hold.1, h.writePos, hkeep _ hlt hold.2.1, ← h.writePos, ← hold.1]
        exact hold.2.2
      | _ => exact hold
  · change s.accepted[s.popped.length]? = some (s.queue.buffer (cell c rp))
    rw [hrp, h.readPos]
    exact hhead

theorem OrderInv.storeReadPos (h : OrderInv s) (movedFrom : T → T) {out : T} {rp : UInt64}
    (hc : s.consumer = some (.storeReadPos out rp)) :
    OrderInv (consumerStep movedFrom s (.storeReadPos out rp)) := by
  have hok := h.consumer
  rw [hc] at hok
  obtain ⟨hrp, hout⟩ := hok
  obtain ⟨hlen, hget⟩ := List.getElem?_eq_some_iff.mp hout
  have hroom := h.room
  have hnext : (s.popped ++ [out]).length = s.popped.length + 1 := by simp
  refine ⟨h.maxDepth_le, h.writePos, ?_, ?_, ?_, ?_, ?_, trivial⟩
  · change rp + 1 = UInt64.ofNat (s.popped ++ [out]).length
    rw [hnext, UInt64.ofNat_add, hrp, h.readPos]
    rfl
  · change s.popped ++ [out] <+: s.accepted
    rw [← hget]
    exact List.concat_get_prefix h.popped hlen
  · change s.accepted.length ≤ (s.popped ++ [out]).length + _
    omega
  · intro i hlo hi
    change (s.popped ++ [out]).length + 0 ≤ i at hlo
    refine h.cells i ?_ hi
    rw [hc]
    change s.popped.length + 1 ≤ i
    omega
  · have hold := h.producer
    change PushOrder _ (s.producers ())
    cases hp : s.producers () with
    | none => trivial
    | some pc =>
      rw [hp] at hold
      cases pc with
      | loadWritePos item => trivial
      | loadReadPos item wp => exact hold
      | loadMaxDepth item wp rp =>
        obtain ⟨hwp, n, hn, hn'⟩ := hold
        refine ⟨hwp, n, ?_, hn'⟩
        change n ≤ (s.popped ++ [out]).length
        omega
      | storeCell item wp =>
        refine ⟨hold.1, ?_⟩
        change s.accepted.length < (s.popped ++ [out]).length + _
        omega
      | storeWritePos item wp =>
        refine ⟨hold.1, ?_, hold.2.2⟩
        change s.accepted.length < (s.popped ++ [out]).length + _
        omega

theorem OrderInv.consumerStep (h : OrderInv s) (movedFrom : T → T) {pc : PopPc T}
    (hc : s.consumer = some pc) : OrderInv (consumerStep movedFrom s pc) := by
  cases pc with
  | loadReadPos => exact h.setConsumer (by rw [hc]; rfl) (k := some (.loadWritePos _)) rfl _
  | loadWritePos rp =>
    have hrp : rp = s.queue.readPos := by simpa only [hc, PopOk] using h.consumer
    by_cases hempty : rp ≥ s.queue.writePos
    · simp only [SPSCQueue.consumerStep, pop, if_pos hempty]
      exact h.setConsumer (by rw [hc]; rfl) (k := none) trivial _
    · simp only [SPSCQueue.consumerStep, pop, if_neg hempty]
      refine h.setConsumer (by rw [hc]; rfl) (k := some (.takeCell rp)) ⟨hrp, ?_⟩ _
      -- The counters differ, so something is left, whichever of them has wrapped.
      apply Nat.lt_of_le_of_ne h.popped.length_le
      intro heq
      apply hempty
      rw [hrp, h.readPos, h.writePos, heq]
      exact UInt64.le_refl _
  | takeCell rp => exact h.takeCell movedFrom hc
  | storeReadPos out rp => exact h.storeReadPos movedFrom hc

theorem OrderInv.step (h : OrderInv s) {movedFrom : T → T} {a : Action Unit T}
    (hstep : step movedFrom s a = some t) : OrderInv t := by
  cases a with
  | callTryPush p item =>
    simp only [SPSCQueue.step] at hstep
    split at hstep
    · cases hstep
      exact h.setProducer (k := some (.loadWritePos item)) trivial _ _
    · cases hstep
  | producer p =>
    obtain ⟨pc, hp, rfl⟩ := Option.map_eq_some_iff.mp hstep
    exact h.producerStep hp
  | callPop =>
    simp only [SPSCQueue.step] at hstep
    split at hstep
    · rename_i hc
      cases hstep
      exact h.setConsumer (by rw [hc]; rfl) (k := some .loadReadPos) trivial _
    · cases hstep
  | consumer =>
    obtain ⟨pc, hc, rfl⟩ := Option.map_eq_some_iff.mp hstep
    exact h.consumerStep movedFrom hc

end StereoCamera.SPSCQueue
