import StereoCamera.Data.DataBufferHistory

/-! The cells of a `RingBuffer`, for depths up to the largest power of two that a `size_t` can
hold. The capacity is smeared over 32 places only. -/

namespace StereoCamera.RingBuffer

open PowerOfTwo

section
variable {T : Type}

def cell (r : RingBuffer T) (idx : UInt64) : ℕ := (idx &&& r.mask).toNat

/-- The ring for the depth `v` has as many cells as the least power of two that is not below
`v`; every index has a cell, and indexes in a row go round all cells. -/
structure RoundsUp (T : Type) (v : UInt64) : Prop where
  least : IsLeast {p | p.isPowerOfTwo ∧ v.toNat ≤ p} (nextPowerOfTwo v).toNat
  length : (mk' v : RingBuffer T).ring.length = (nextPowerOfTwo v).toNat
  inside : ∀ idx, (mk' v : RingBuffer T).cell idx < (mk' v : RingBuffer T).ring.length
  next : ∀ idx, (mk' v : RingBuffer T).cell (idx + 1) =
    ((mk' v : RingBuffer T).cell idx + 1) % (mk' v : RingBuffer T).ring.length
  all : ∀ idx, ∀ c < (mk' v : RingBuffer T).ring.length,
    ∃ i < (mk' v : RingBuffer T).ring.length,
      (mk' v : RingBuffer T).cell (idx + UInt64.ofNat i) = c

theorem isLeast_nextPowerOfTwo (n : ℕ) :
    IsLeast {p | p.isPowerOfTwo ∧ n ≤ p} (2 ^ (n - 1).size) := by
  have hset : {p | p.isPowerOfTwo ∧ max n 1 ≤ p} = {p : ℕ | p.isPowerOfTwo ∧ n ≤ p} := by
    ext p
    refine and_congr_right ?_
    rintro ⟨k, rfl⟩
    rw [max_le_iff, and_iff_left Nat.one_le_two_pow]
  exact hset ▸ isLeast_two_pow_size n

theorem size_le {v : UInt64} (hv : v.toNat ≤ 2 ^ 63) : (v.toNat - 1).size ≤ 63 := by
  apply Nat.size_le.mpr
  have : 0 < 2 ^ 63 := Nat.two_pow_pos 63
  omega

theorem toNat_nextPowerOfTwo_eq_iff {v : UInt64} (hv : v.toNat ≤ 2 ^ 63) :
    (nextPowerOfTwo v).toNat = 2 ^ (v.toNat - 1).size ↔ NoGap 32 (v.toNat - 1) := by
  by_cases hzero : v = 0
  · subst hzero
    refine iff_of_true rfl fun i hi => ?_
    simp at hi
  obtain ⟨w, hsmeared, hnext⟩ := nextPowerOfTwo_smeared hzero
  have hpow : 2 ^ (v.toNat - 1).size ≤ 2 ^ 63 := Nat.pow_le_pow_right (by decide) (size_le hv)
  have hone : 1 ≤ 2 ^ (v.toNat - 1).size := Nat.one_le_two_pow
  have hw := w.toNat_lt
  rw [← hsmeared.eq_two_pow_sub_one_iff, hnext, UInt64.toNat_add]
  change (w.toNat + 1) % 2 ^ 64 = _ ↔ _
  omega

theorem roundsUp_of_eq {v : UInt64} {k : ℕ} (hleast : (nextPowerOfTwo v).toNat = 2 ^ k)
    (hk : k = (v.toNat - 1).size) : RoundsUp T v where
  least := by
    rw [hleast, hk]
    exact isLeast_nextPowerOfTwo v.toNat
  length := List.length_replicate
  inside := by
    intro idx
    rw [mk', List.length_replicate]
    exact toNat_and_mask_lt hleast rfl idx
  next := by
    intro idx
    rw [mk', List.length_replicate]
    exact toNat_succ_and_mask hleast rfl idx
  all := by
    intro idx c hc
    rw [mk', List.length_replicate] at hc ⊢
    exact exists_add_and_mask hleast rfl idx hc

end

/-- A depth up to 2^63 is rounded up as the ring needs it exactly if below the highest bit of
the depth less one there are no 32 zeros in a row. -/
theorem roundsUp_iff (T : Type) {v : UInt64} (hv : v.toNat ≤ 2 ^ 63) :
    RoundsUp T v ↔ NoGap 32 (v.toNat - 1) := by
  rw [← toNat_nextPowerOfTwo_eq_iff hv]
  constructor
  · intro h
    exact h.least.unique (isLeast_nextPowerOfTwo v.toNat)
  · intro h
    exact roundsUp_of_eq h rfl

theorem roundsUp_three :
    (3 : UInt64).toNat ≤ 2 ^ 63 ∧ (RoundsUp Unit 3 ↔ NoGap 32 ((3 : UInt64).toNat - 1)) :=
  ⟨by decide, roundsUp_iff Unit (by decide)⟩

/-- The first depth that is not rounded to a power of two. -/
theorem depth_not_rounded :
    (nextPowerOfTwo 4294967297).toNat = 8589934591 ∧ ¬RoundsUp Unit 4294967297 := by
  have hnext : (nextPowerOfTwo 4294967297).toNat = 8589934591 := by decide
  refine ⟨hnext, fun h => ?_⟩
  obtain ⟨k, hk⟩ := h.least.1.1
  rw [hnext] at hk
  have hlow : 2 ^ 32 < 2 ^ k := by omega
  have hhigh : 2 ^ k < 2 ^ 33 := by omega
  have := (Nat.pow_lt_pow_iff_right (by decide)).mp hlow
  have := (Nat.pow_lt_pow_iff_right (by decide)).mp hhigh
  omega

end StereoCamera.RingBuffer
