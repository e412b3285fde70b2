import Mathlib.Data.Nat.Bitwise
import Mathlib.Tactic.Ring

/-! Numbers as bytes, most significant byte first, and the 64-bit word that a decoder
assembles from them. -/

namespace BigEndian

def ofBytes (bs : List UInt8) : ℕ := bs.foldl (fun n b => n * 256 + b.toNat) 0

def toBytes : ℕ → ℕ → List UInt8
  | 0, _ => []
  | width + 1, n => UInt8.ofNat (n / 256 ^ width) :: toBytes width n

@[simp] theorem length_toBytes (width n : ℕ) : (toBytes width n).length = width := by
  induction width with
  | zero => rfl
  | succ width ih => rw [toBytes, List.length_cons, ih]

theorem foldl_eq (bs : List UInt8) (n : ℕ) :
    bs.foldl (fun n b => n * 256 + b.toNat) n = n * 256 ^ bs.length + ofBytes bs := by
  induction bs generalizing n with
  | nil => simp [ofBytes]
  | cons b bs ih =>
    rw [List.foldl_cons, ih, List.length_cons, ofBytes, ofBytes, List.foldl_cons, ih (_ + _),
      ofBytes, pow_succ']
    ring

theorem ofBytes_cons (b : UInt8) (bs : List UInt8) :
    ofBytes (b :: bs) = b.toNat * 256 ^ bs.length + ofBytes bs := by
  rw [ofBytes, List.foldl_cons, foldl_eq, Nat.zero_mul, Nat.zero_add]

theorem ofBytes_lt (bs : List UInt8) : ofBytes bs < 256 ^ bs.length := by
  induction bs with
  | nil => exact Nat.one_pos
  | cons b bs ih =>
    have hb : b.toNat + 1 ≤ 256 := b.toNat_lt
    calc ofBytes (b :: bs) = b.toNat * 256 ^ bs.length + ofBytes bs := ofBytes_cons b bs
      _ < b.toNat * 256 ^ bs.length + 256 ^ bs.length := Nat.add_lt_add_left ih _
      _ = (b.toNat + 1) * 256 ^ bs.length := (Nat.succ_mul _ _).symm
      _ ≤ 256 * 256 ^ bs.length := Nat.mul_le_mul_right _ hb
      _ = 256 ^ (b :: bs).length := (pow_succ' 256 bs.length).symm

theorem ofBytes_toBytes (width n : ℕ) : ofBytes (toBytes width n) = n % 256 ^ width := by
  induction width with
  | zero => rw [toBytes, pow_zero, Nat.mod_one]; rfl
  | succ width ih =>
    rw [toBytes, ofBytes_cons, ih, length_toBytes, UInt8.toNat_ofNat', pow_succ]
    exact (Nat.add_comm _ _).trans ((congrArg _ (Nat.mul_comm _ _)).trans Nat.mod_mul.symm)

theorem toNat_shiftLeft_or (w : UInt64) (b : UInt8) (h : w.toNat < 2 ^ 56) :
    (w <<< 8 ||| b.toUInt64).toNat = w.toNat * 256 + b.toNat := by
  have hb : b.toUInt64.toNat < 2 ^ 8 := by
    rw [UInt8.toNat_toUInt64]
    exact b.toNat_lt
  have hw : (w <<< 8).toNat = w.toNat <<< 8 := by
    rw [UInt64.toNat_shiftLeft]
    exact Nat.mod_eq_of_lt (by rw [Nat.shiftLeft_eq]; simp; omega)
  rw [UInt64.toNat_or, hw, ← Nat.shiftLeft_add_eq_or_of_lt hb, Nat.shiftLeft_eq,
    UInt8.toNat_toUInt64]

def shiftIn (w : UInt64) (bs : List UInt8) : UInt64 :=
  bs.foldl (fun w b => w <<< 8 ||| b.toUInt64) w

theorem toNat_shiftIn (bs : List UInt8) (w : UInt64)
    (h : w.toNat * 256 ^ bs.length + ofBytes bs < 2 ^ 64) :
    (shiftIn w bs).toNat = w.toNat * 256 ^ bs.length + ofBytes bs := by
  induction bs generalizing w with
  | nil => simp [shiftIn, ofBytes]
  | cons b bs ih =>
    rw [ofBytes_cons, List.length_cons] at h ⊢
    have hw : w.toNat < 2 ^ 56 := by
      have hpow : 1 ≤ 256 ^ bs.length := Nat.one_le_pow _ _ (by decide)
      have : w.toNat * 256 ≤ w.toNat * 256 ^ (bs.length + 1) := by
        rw [pow_succ']
        exact Nat.mul_le_mul_left _ (Nat.le_mul_of_pos_right _ hpow)
      omega
    have hstep := toNat_shiftLeft_or w b hw
    have heq : (w.toNat * 256 + b.toNat) * 256 ^ bs.length + ofBytes bs =
        w.toNat * 256 ^ (bs.length + 1) + (b.toNat * 256 ^ bs.length + ofBytes bs) := by
      rw [pow_succ']
      ring
    rw [shiftIn, List.foldl_cons, ← shiftIn, ih _ (by rw [hstep, heq]; exact h), hstep, heq]

theorem toNat_shiftIn_zero (bs : List UInt8) (h : bs.length ≤ 8) :
    (shiftIn 0 bs).toNat = ofBytes bs := by
  have hlt : ofBytes bs < 2 ^ 64 :=
    (ofBytes_lt bs).trans_le (Nat.pow_le_pow_right (by decide) h)
  have hzero : (0 : UInt64).toNat * 256 ^ bs.length + ofBytes bs = ofBytes bs := by
    rw [UInt64.toNat_zero, Nat.zero_mul, Nat.zero_add]
  rw [toNat_shiftIn bs 0 (by rw [hzero]; exact hlt), hzero]

theorem toUInt8_shiftRight_and (w : UInt64) {i : ℕ} (hi : i < 8) :
    ((w >>> UInt64.ofNat (i * 8)) &&& 0xFF).toUInt8 = UInt8.ofNat (w.toNat / 256 ^ i) := by
  have hshift : (w >>> UInt64.ofNat (i * 8)).toNat = w.toNat / 256 ^ i := by
    have hmod : (UInt64.ofNat (i * 8)).toNat % 64 = i * 8 := by
      rw [UInt64.toNat_ofNat']
      omega
    rw [UInt64.toNat_shiftRight, hmod, Nat.shiftRight_eq_div_pow, Nat.mul_comm, pow_mul]
    rfl
  apply UInt8.toNat_inj.mp
  have hmask : (0xFF : UInt64).toNat = 2 ^ 8 - 1 := rfl
  rw [UInt64.toNat_toUInt8, UInt64.toNat_and, hshift, hmask, Nat.and_two_pow_sub_one_eq_mod,
    UInt8.toNat_ofNat', Nat.mod_mod]

end BigEndian
