import StereoCamera.Data.DataBufferHistory

/-! For which depths a `DataBuffer` keeps to the number of bundles it was built for: the ring
rounds it up to a power of two. -/

namespace StereoCamera

namespace RingBuffer
variable {T : Type}

theorem nextPowerOfTwo_of_two_pow {n : UInt64} {k : ℕ} (hn : n.toNat = 2 ^ k) :
    nextPowerOfTwo n = n := by
  have hne : n ≠ 0 := by
    rintro rfl
    exact (Nat.two_pow_pos k).ne hn
  obtain ⟨w, hsmeared, hnext⟩ := nextPowerOfTwo_smeared hne
  rw [hn] at hsmeared
  have hones := hsmeared.eq_of_ones (by decide)
  have hone : 1 ≤ 2 ^ k := Nat.one_le_two_pow
  have hlt := n.toNat_lt
  rw [hnext]
  apply UInt64.toNat_inj.mp
  rw [UInt64.toNat_add, hones, hn]
  change (2 ^ k - 1 + 1) % 2 ^ 64 = 2 ^ k
  rw [Nat.sub_add_cancel hone]
  exact Nat.mod_eq_of_lt (hn ▸ hlt)

theorem nextPowerOfTwo_of_not {n : UInt64} (hpos : 0 < n) (hn : ¬n.toNat.isPowerOfTwo) :
    nextPowerOfTwo n = 0 ∨ n < nextPowerOfTwo n := by
  have hposNat : 0 < n.toNat := UInt64.lt_iff_toNat_lt.mp hpos
  have hne0 : n ≠ 0 := by
    rintro rfl
    exact absurd hpos (by decide)
  obtain ⟨w, hsmeared, hnext⟩ := nextPowerOfTwo_smeared hne0
  have hle := hsmeared.le (by decide)
  have hne : w.toNat ≠ n.toNat - 1 := by
    intro heq
    rw [heq] at hsmeared
    have hones := hsmeared.ones (by decide)
    have hone : 1 ≤ 2 ^ (n.toNat - 1).size := Nat.one_le_two_pow
    exact hn ⟨(n.toNat - 1).size, by omega⟩
  have hw := w.toNat_lt
  rw [hnext]
  by_cases hlast : w.toNat + 1 = 2 ^ 64
  · left
    apply UInt64.toNat_inj.mp
    rw [UInt64.toNat_add]
    change (w.toNat + 1) % 2 ^ 64 = 0
    rw [hlast, Nat.mod_self]
  · right
    rw [UInt64.lt_iff_toNat_lt, UInt64.toNat_add]
    change n.toNat < (w.toNat + 1) % 2 ^ 64
    rw [Nat.mod_eq_of_lt (by omega)]
    omega

theorem size_push_of_lt {r : RingBuffer T} (hlt : r.size < r.capacity) (item : T) :
    (r.push item).size = r.size + 1 := by
  have hnext : r.writeIdx + 1 - r.readIdx = r.size + 1 := by
    unfold size
    grind
  have hroom : ¬r.size + 1 > r.capacity := by
    have := UInt64.lt_iff_toNat_lt.mp hlt
    have := r.capacity.toNat_lt
    rw [gt_iff_lt, UInt64.lt_iff_toNat_lt, UInt64.toNat_add]
    change ¬r.capacity.toNat < (r.size.toNat + 1) % 2 ^ 64
    rw [Nat.mod_eq_of_lt (by omega)]
    omega
  unfold push
  dsimp only
  rw [hnext, if_neg hroom]
  exact hnext

theorem size_push_of_capacity_zero {r : RingBuffer T} (hzero : r.capacity = 0)
    (hsize : r.size = 0) (item : T) : (r.push item).size = 0 := by
  have hnext : r.writeIdx + 1 - r.readIdx = 1 := by
    unfold size at hsize
    grind
  unfold push
  dsimp only
  rw [hnext, hzero, if_pos (by decide)]
  change r.writeIdx + 1 - (r.writeIdx + 1 - 0) = 0
  grind

end RingBuffer

namespace DataBuffer

/-- Of the bundles pushed to a key since its slot was created or cleared the last `n` are
counted, and its ring refers to no others. -/
def EnforcesDepth (n : UInt64) : Prop :=
  ∀ (B : Type) (type : B → DataType) (cs : List (Call B)) (cameraId : String) (t : DataType),
    let d := cs.foldl (DataBuffer.call type) (mk' n)
    let hist := ((cs.foldl (record type) fun _ => none) ⟨cameraId, t⟩).getD []
    (d.slotSize cameraId t).toNat = min hist.length n.toNat ∧
      ∀ r, d.slots.lookup ⟨cameraId, t⟩ = some r →
        ∀ b, some b ∈ r.ring → b ∈ hist.rtake n.toNat

section
variable {B : Type} {d : DataBuffer B}

theorem enforcesDepth_of_two_pow {n : UInt64} {k : ℕ} (hn : n.toNat = 2 ^ k) :
    EnforcesDepth n := by
  intro B type cs cameraId t
  have hnext : (RingBuffer.nextPowerOfTwo n).toNat = 2 ^ k := by
    rw [RingBuffer.nextPowerOfTwo_of_two_pow hn, hn]
  have hkeeps := (keeps_mk' hnext).calls type cs
  dsimp only
  rw [hn]
  refine ⟨hkeeps.recalls.slotSize cameraId t, fun r hr b hb => ?_⟩
  rcases (hkeeps.slots ⟨cameraId, t⟩).cases with ⟨hnone, -⟩ | ⟨r', hist, hr', hh, hring, hcap⟩
  · rw [hr] at hnone
    cases hnone
  · obtain rfl := Option.some.inj (hr.symm.trans hr')
    rw [hh, Option.getD_some, ← hcap]
    exact hring.mem_ring hb

theorem lookup_push_self (cameraId : String) (t : DataType) (b : B) :
    (d.push cameraId t b).slots.lookup ⟨cameraId, t⟩ =
      some (((d.slots.lookup ⟨cameraId, t⟩).getD (.mk' d.maxFramesPerSlot)).push b) := by
  unfold DataBuffer.push
  dsimp only
  cases hr : d.slots.lookup ⟨cameraId, t⟩ with
  | none => exact AList.lookup_insert _
  | some r => exact lookup_replace_of_lookup hr _

theorem maxFramesPerSlot_push (cameraId : String) (t : DataType) (b : B) :
    (d.push cameraId t b).maxFramesPerSlot = d.maxFramesPerSlot := by
  unfold DataBuffer.push
  dsimp only
  split <;> rfl

end

def pushes (m : ℕ) : List (Call Unit) := List.replicate m (.push "cam1" ())

theorem record_pushes (m : ℕ) :
    ((pushes m).foldl (record fun _ => DataType.imu) fun _ => none) ⟨"cam1", .imu⟩ =
      if m = 0 then none else some (List.replicate m ()) := by
  unfold pushes
  induction m with
  | zero => rfl
  | succ m ih =>
    rw [List.replicate_succ', List.foldl_append, List.foldl_cons, List.foldl_nil, record,
      Function.update_self, ih, if_neg (Nat.succ_ne_zero m), List.replicate_succ']
    split_ifs with hm
    · rw [hm]
      rfl
    · rfl

/-- The slot that the pushes fill, or the one that the first of them would create. -/
def pushedRing (n : UInt64) (m : ℕ) : RingBuffer Unit :=
  ((((pushes m).foldl (DataBuffer.call fun _ => DataType.imu) (mk' n)).slots.lookup
    ⟨"cam1", .imu⟩).getD (.mk' n))

theorem size_pushedRing_zero (n : UInt64) : (pushedRing n 0).size = 0 := UInt64.sub_self 0

theorem pushedRing_succ (n : UInt64) (m : ℕ) :
    pushedRing n (m + 1) = (pushedRing n m).push () := by
  have hdepth : ∀ m, ((pushes m).foldl (DataBuffer.call fun _ => DataType.imu)
      (mk' n)).maxFramesPerSlot = n := by
    intro m
    unfold pushes
    induction m with
    | zero => rfl
    | succ m ih =>
      rw [List.replicate_succ', List.foldl_append]
      exact (maxFramesPerSlot_push _ _ _).trans ih
  have hstep : pushes (m + 1) = pushes m ++ [.push "cam1" ()] := List.replicate_succ'
  unfold pushedRing
  rw [hstep, List.foldl_append, List.foldl_cons, List.foldl_nil]
  change ((DataBuffer.push _ "cam1" .imu ()).slots.lookup ⟨"cam1", .imu⟩).getD _ = _
  rw [lookup_push_self, hdepth, Option.getD_some]

theorem slotSize_pushes (n : UInt64) (m : ℕ) :
    ((pushes m).foldl (DataBuffer.call fun _ => DataType.imu) (mk' n)).slotSize "cam1" .imu =
      (pushedRing n m).size := by
  unfold slotSize pushedRing
  split
  · rename_i hnone
    rw [hnone]
    exact (UInt64.sub_self 0).symm
  · rename_i r hr
    rw [hr]
    rfl

theorem size_pushedRing {n : UInt64} {m : ℕ} (hm : m ≤ (RingBuffer.nextPowerOfTwo n).toNat) :
    (pushedRing n m).capacity = RingBuffer.nextPowerOfTwo n ∧
      (pushedRing n m).size.toNat = m := by
  induction m with
  | zero => exact ⟨rfl, congrArg UInt64.toNat (size_pushedRing_zero n)⟩
  | succ m ih =>
    obtain ⟨hcap, hsize⟩ := ih (Nat.le_of_succ_le hm)
    have hlt : (pushedRing n m).size < (pushedRing n m).capacity := by
      rw [UInt64.lt_iff_toNat_lt, hsize, hcap]
      exact hm
    have hbound := (RingBuffer.nextPowerOfTwo n).toNat_lt
    rw [pushedRing_succ]
    refine ⟨hcap, ?_⟩
    rw [RingBuffer.size_push_of_lt hlt, UInt64.toNat_add, hsize]
    change (m + 1) % 2 ^ 64 = m + 1
    exact Nat.mod_eq_of_lt (hm.trans_lt hbound)

/-- A depth is enforced exactly if it is a power of two. -/
theorem enforcesDepth_iff {n : UInt64} (hpos : 0 < n) :
    EnforcesDepth n ↔ n.toNat.isPowerOfTwo := by
  constructor
  · intro henforces
    by_contra hnot
    have hcount : ∀ m, (pushedRing n m).size.toNat = min m n.toNat := by
      intro m
      have hdepth := (henforces Unit (fun _ => .imu) (pushes m) "cam1" .imu).1
      rw [slotSize_pushes, record_pushes] at hdepth
      rw [hdepth]
      split_ifs with hm
      · rw [hm]
        rfl
      · rw [Option.getD_some, List.length_replicate]
    have hone : 1 ≤ n.toNat := UInt64.lt_iff_toNat_lt.mp hpos
    rcases RingBuffer.nextPowerOfTwo_of_not hpos hnot with hzero | hlt
    · -- Not even the first bundle is counted.
      have hfirst := hcount 1
      have hsize : (pushedRing n 1).size = 0 := by
        rw [pushedRing_succ]
        exact RingBuffer.size_push_of_capacity_zero hzero (size_pushedRing_zero n) ()
      rw [hsize, min_eq_left hone] at hfirst
      cases hfirst
    · -- One bundle more than asked for is counted.
      have hmore := hcount (n.toNat + 1)
      rw [(size_pushedRing (UInt64.lt_iff_toNat_lt.mp hlt)).2] at hmore
      omega
  · rintro ⟨k, hk⟩
    exact enforcesDepth_of_two_pow hk

theorem enforcesDepth_iff_three :
    (0 : UInt64) < 3 ∧ (EnforcesDepth 3 ↔ (3 : UInt64).toNat.isPowerOfTwo) :=
  ⟨by decide, enforcesDepth_iff (by decide)⟩

/-- The default depth: four bundles are counted instead of three. -/
theorem default_depth_exceeded : ¬EnforcesDepth 3 := by
  intro h
  have hsize := (h Unit (fun _ => .imu) (pushes 4) "cam1" .imu).1
  have hfour : ((pushes 4).foldl (DataBuffer.call fun _ => DataType.imu)
      (mk' 3)).slotSize "cam1" .imu = 4 := by
    rfl
  rw [hfour] at hsize
  exact absurd hsize (by decide)

end DataBuffer

end StereoCamera
