import Mathlib.Data.Nat.ModEq
import Mathlib.Data.Nat.Size
import Mathlib.Order.Bounds.Basic

/-! Rounding up to a power of two by smearing bits, and counters that run freely over a table
of that many cells: a cell is a counter masked by the length less one. -/

namespace PowerOfTwo

/-- Bit `i` of `w` says whether one of the `m` bits of `v` from `i` on is set. -/
def SmearedBy (m v w : ℕ) : Prop :=
  ∀ i, w.testBit i = true ↔ ∃ j < m, v.testBit (i + j) = true

theorem smearedBy_one (v : ℕ) : SmearedBy 1 v v := by
  intro i
  simp

/-- `v |= v >> m` doubles the reach of every bit. -/
theorem SmearedBy.or_shiftRight {m v w : ℕ} (h : SmearedBy m v w) :
    SmearedBy (m + m) v (w ||| w >>> m) := by
  intro i
  rw [Nat.testBit_or, Nat.testBit_shiftRight, Bool.or_eq_true, h i, h (m + i)]
  constructor
  · rintro (⟨j, hj, hbit⟩ | ⟨j, hj, hbit⟩)
    · exact ⟨j, Nat.lt_add_right m hj, hbit⟩
    · refine ⟨m + j, Nat.add_lt_add_left hj m, ?_⟩
      rwa [Nat.add_left_comm, ← Nat.add_assoc]
  · rintro ⟨j, hj, hbit⟩
    by_cases hjm : j < m
    · exact .inl ⟨j, hjm, hbit⟩
    · refine .inr ⟨j - m, by omega, ?_⟩
      have hsum : m + i + (j - m) = i + j := by omega
      rwa [hsum]

theorem SmearedBy.or_shiftRight_uint64 {m v : ℕ} {w : UInt64} (h : SmearedBy m v w.toNat)
    (shift : UInt64) (hshift : shift.toNat % 64 = m) :
    SmearedBy (m + m) v (w ||| w >>> shift).toNat := by
  rw [UInt64.toNat_or, UInt64.toNat_shiftRight, hshift]
  exact h.or_shiftRight

theorem lt_size_of_testBit {v i : ℕ} (h : v.testBit i = true) : i < v.size :=
  Nat.lt_size.mpr (Nat.ge_two_pow_of_testBit h)

theorem testBit_size_sub_one {v : ℕ} (hv : v ≠ 0) : v.testBit (v.size - 1) = true := by
  have hlt : v.log2 < v.size := Nat.lt_size.mpr (Nat.log2_self_le hv)
  have hle : v.size ≤ v.log2 + 1 := Nat.size_le.mpr Nat.lt_log2_self
  have hsize : v.size - 1 = v.log2 := by omega
  rw [hsize]
  exact Nat.testBit_log2 hv

/-- Below its highest bit `v` has no `m` zeros in a row. -/
def NoGap (m v : ℕ) : Prop := ∀ i < v.size, ∃ j < m, v.testBit (i + j) = true

theorem SmearedBy.eq_two_pow_sub_one_iff {m v w : ℕ} (h : SmearedBy m v w) :
    w = 2 ^ v.size - 1 ↔ NoGap m v := by
  -- Smearing makes ones of everything below the highest bit where no gap is too wide for it.
  have hiff : w = 2 ^ v.size - 1 ↔ ∀ i, w.testBit i = true ↔ i < v.size := by
    constructor
    · rintro rfl i
      rw [Nat.testBit_two_pow_sub_one, decide_eq_true_eq]
    · intro hbits
      apply Nat.eq_of_testBit_eq
      intro i
      rw [Nat.testBit_two_pow_sub_one, Bool.eq_iff_iff, hbits i, decide_eq_true_eq]
  rw [hiff]
  constructor
  · intro hbits i hi
    exact (h i).mp ((hbits i).mpr hi)
  · intro hgap i
    constructor
    · intro hbit
      obtain ⟨j, -, hj⟩ := (h i).mp hbit
      have := lt_size_of_testBit hj
      omega
    · intro hi
      exact (h i).mpr (hgap i hi)

theorem noGap_of_lt {m v : ℕ} (hv : v < 2 ^ m) : NoGap m v := by
  intro i hi
  have hv0 : v ≠ 0 := by
    rintro rfl
    simp at hi
  have hm : v.size ≤ m := Nat.size_le.mpr hv
  refine ⟨v.size - 1 - i, by omega, ?_⟩
  have hsum : i + (v.size - 1 - i) = v.size - 1 := by omega
  rw [hsum]
  exact testBit_size_sub_one hv0

theorem SmearedBy.eq_two_pow_sub_one {m v w : ℕ} (h : SmearedBy m v w) (hv : v < 2 ^ m) :
    w = 2 ^ v.size - 1 := h.eq_two_pow_sub_one_iff.mpr (noGap_of_lt hv)

theorem SmearedBy.le {m v w : ℕ} (h : SmearedBy m v w) (hm : 0 < m) : v ≤ w := by
  have hor : v ||| w = w := by
    apply Nat.eq_of_testBit_eq
    intro i
    have himp : v.testBit i = true → w.testBit i = true := fun hbit => (h i).mpr ⟨0, hm, hbit⟩
    rw [Nat.testBit_or]
    cases hv : v.testBit i with
    | false => rfl
    | true => rw [himp hv, Bool.or_true]
  exact hor ▸ Nat.left_le_or

theorem SmearedBy.eq_of_ones {m k w : ℕ} (h : SmearedBy m (2 ^ k - 1) w) (hm : 0 < m) :
    w = 2 ^ k - 1 := by
  apply Nat.eq_of_testBit_eq
  intro i
  rw [Bool.eq_iff_iff, h i]
  simp only [Nat.testBit_two_pow_sub_one, decide_eq_true_eq]
  constructor
  · rintro ⟨j, -, hlt⟩
    omega
  · intro hlt
    exact ⟨0, hm, hlt⟩

theorem SmearedBy.ones {m v : ℕ} (h : SmearedBy m v v) (hm : 1 < m) : v = 2 ^ v.size - 1 := by
  have hdown : ∀ i j, v.testBit (i + j) = true → v.testBit i = true := by
    intro i j
    induction j with
    | zero => exact id
    | succ j ih =>
      intro hbit
      exact ih ((h (i + j)).mpr ⟨1, hm, hbit⟩)
  have hall : SmearedBy (v.size + 1) v v := by
    intro i
    constructor
    · intro hbit
      exact ⟨0, Nat.succ_pos _, hbit⟩
    · rintro ⟨j, -, hbit⟩
      exact hdown i j hbit
  apply hall.eq_two_pow_sub_one
  exact (Nat.lt_size_self v).trans (Nat.pow_lt_pow_right (by decide) (Nat.lt_succ_self _))

/-- The number of bits of `n - 1` is the exponent of the least power of two from `n` on. -/
theorem isLeast_two_pow_size (n : ℕ) :
    IsLeast {p | p.isPowerOfTwo ∧ max n 1 ≤ p} (2 ^ (n - 1).size) := by
  constructor
  · refine ⟨⟨_, rfl⟩, max_le ?_ Nat.one_le_two_pow⟩
    have := Nat.lt_size_self (n - 1)
    omega
  · rintro p ⟨⟨k, rfl⟩, hp⟩
    apply Nat.pow_le_pow_right (by decide)
    apply Nat.size_le.mpr
    have := (le_max_left n 1).trans hp
    have := Nat.one_le_two_pow (n := k)
    omega

section Mask
variable {capacity mask : UInt64} {k : ℕ}

theorem toNat_and_mask (hcap : capacity.toNat = 2 ^ k) (hmask : mask = capacity - 1)
    (pos : UInt64) : (pos &&& mask).toNat = pos.toNat % capacity.toNat := by
  have hpos : 1 ≤ capacity.toNat := hcap ▸ Nat.one_le_two_pow
  have hsub : mask.toNat = capacity.toNat - 1 := by
    rw [hmask]
    exact UInt64.toNat_sub_of_le _ _ (UInt64.le_iff_toNat_le.mpr hpos)
  rw [UInt64.toNat_and, hsub, hcap, Nat.and_two_pow_sub_one_eq_mod]

theorem toNat_and_mask_lt (hcap : capacity.toNat = 2 ^ k) (hmask : mask = capacity - 1)
    (pos : UInt64) : (pos &&& mask).toNat < capacity.toNat := by
  rw [toNat_and_mask hcap hmask]
  exact Nat.mod_lt _ (hcap ▸ Nat.two_pow_pos k)

theorem dvd_two_pow_64 (hcap : capacity.toNat = 2 ^ k) : capacity.toNat ∣ 2 ^ 64 := by
  have hlt := capacity.toNat_lt
  rw [hcap] at hlt ⊢
  exact Nat.pow_dvd_pow 2 ((Nat.pow_lt_pow_iff_right (by decide)).mp hlt).le

theorem toNat_succ_and_mask (hcap : capacity.toNat = 2 ^ k) (hmask : mask = capacity - 1)
    (pos : UInt64) :
    ((pos + 1) &&& mask).toNat = ((pos &&& mask).toNat + 1) % capacity.toNat := by
  -- The next counter has the next cell, also across the wrap of the counter.
  rw [toNat_and_mask hcap hmask, toNat_and_mask hcap hmask, UInt64.toNat_add,
    Nat.mod_mod_of_dvd _ (dvd_two_pow_64 hcap), UInt64.toNat_one, Nat.mod_add_mod]

theorem exists_add_and_mask (hcap : capacity.toNat = 2 ^ k) (hmask : mask = capacity - 1)
    (pos : UInt64) {c : ℕ} (hc : c < capacity.toNat) :
    ∃ i < capacity.toNat, ((pos + UInt64.ofNat i) &&& mask).toNat = c := by
  have hpos : 0 < capacity.toNat := hcap ▸ Nat.two_pow_pos k
  have hlt : pos.toNat % capacity.toNat < capacity.toNat := Nat.mod_lt _ hpos
  refine ⟨(c + (capacity.toNat - pos.toNat % capacity.toNat)) % capacity.toNat,
    Nat.mod_lt _ hpos, ?_⟩
  have hi : (c + (capacity.toNat - pos.toNat % capacity.toNat)) % capacity.toNat < 2 ^ 64 :=
    (Nat.mod_lt _ hpos).trans capacity.toNat_lt
  rw [toNat_and_mask hcap hmask, UInt64.toNat_add, UInt64.toNat_ofNat_of_lt' hi,
    Nat.mod_mod_of_dvd _ (dvd_two_pow_64 hcap), Nat.add_mod_mod, Nat.add_mod]
  have hsum : pos.toNat % capacity.toNat + (c + (capacity.toNat - pos.toNat % capacity.toNat)) =
      c + capacity.toNat := by omega
  rw [← Nat.add_mod, ← Nat.mod_add_mod, hsum, Nat.add_mod_right, Nat.mod_eq_of_lt hc]

theorem toNat_round_add_and_mask (hcap : capacity.toNat = 2 ^ k) (hmask : mask = capacity - 1)
    (a : UInt64) {c : UInt64} (hc : c.toNat < capacity.toNat) :
    ((a - (a &&& mask) + c) &&& mask).toNat = c.toNat := by
  have hrest : (a &&& mask).toNat = a.toNat % capacity.toNat := toNat_and_mask hcap hmask a
  have hle : a &&& mask ≤ a := by
    rw [UInt64.le_iff_toNat_le, hrest]
    exact Nat.mod_le _ _
  have hround : (a - (a &&& mask)).toNat % capacity.toNat = 0 := by
    rw [UInt64.toNat_sub_of_le _ _ hle, hrest]
    exact Nat.mod_eq_zero_of_dvd (Nat.dvd_sub_mod _)
  rw [toNat_and_mask hcap hmask, UInt64.toNat_add, Nat.mod_mod_of_dvd _ (dvd_two_pow_64 hcap),
    Nat.add_mod, hround, Nat.zero_add, Nat.mod_mod, Nat.mod_eq_of_lt hc]

/-- Counters less than a table apart use different cells, also across the wrap of the counter. -/
theorem and_mask_ne (hcap : capacity.toNat = 2 ^ k) (hmask : mask = capacity - 1)
    {a b : UInt64} (hab : 0 < (a - b).toNat) (hlt : (a - b).toNat < capacity.toNat) :
    (a &&& mask).toNat ≠ (b &&& mask).toNat := by
  intro h
  rw [toNat_and_mask hcap hmask, toNat_and_mask hcap hmask] at h
  have hsum : a.toNat = (b.toNat + (a - b).toNat) % 2 ^ 64 := by
    rw [← UInt64.toNat_add]
    congr 1
    rw [UInt64.add_comm, UInt64.sub_add_cancel]
  have hmod : a.toNat ≡ b.toNat + (a - b).toNat [MOD capacity.toNat] := by
    rw [hsum]
    exact Nat.mod_mod_of_dvd _ (dvd_two_pow_64 hcap)
  have hzero : (a - b).toNat ≡ 0 [MOD capacity.toNat] := by
    apply Nat.ModEq.add_left_cancel' b.toNat
    exact hmod.symm.trans h
  have hdvd := (Nat.modEq_zero_iff_dvd).mp hzero
  have := Nat.le_of_dvd hab hdvd
  omega

end Mask

end PowerOfTwo
