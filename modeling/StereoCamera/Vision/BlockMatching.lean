import Mathlib.Algebra.Order.BigOperators.Group.Finset
import Mathlib.Algebra.BigOperators.Group.Finset.Basic
import Mathlib.Algebra.Order.Field.Basic
import Mathlib.Data.Rat.Cast.Order
import Mathlib.Tactic.Ring
import StereoCamera.Vision.DisparitySafety

/-! Block matching: away from the border, `compute` stores the first disparity at which the sum
of absolute differences over the window is least. -/

namespace StereoCamera.DisparityMap

open CheckedList CheckedLoop FirstMin

/-! ### What is matched -/

def grayAt (luma : UInt8 → UInt8 → UInt8 → UInt8) (bgra : List UInt8) (w : ℕ) (col row : ℤ) : ℤ :=
  let p := 4 * (row.toNat * w + col.toNat)
  (luma (bgra.getD (p + 2) 0) (bgra.getD (p + 1) 0) (bgra.getD p 0)).toNat

/-- The difference, at disparity `d`, of the column `dx` beside column `x`. -/
def absDiff (luma : UInt8 → UInt8 → UInt8 → UInt8) (pair : StereoImagePair) (x d row dx : ℤ) : ℕ :=
  (grayAt luma pair.left pair.width.toNat (x + dx) row -
    grayAt luma pair.right pair.width.toNat (x + dx - d) row).natAbs

def rowSad (luma : UInt8 → UInt8 → UInt8 → UInt8) (pair : StereoImagePair) (half : ℕ)
    (x d row : ℤ) : ℕ := ∑ i ∈ Finset.range (2 * half + 1), absDiff luma pair x d row (i - half)

def windowSad (luma : UInt8 → UInt8 → UInt8 → UInt8) (pair : StereoImagePair) (half : ℕ)
    (x y d : ℤ) : ℕ :=
  ∑ j ∈ Finset.range (2 * half + 1), rowSad luma pair half x d (y + (j - half))

/-- A pair with all its bytes, of fewer than 2^32. -/
structure FullSize (pair : StereoImagePair) : Prop where
  bytes : 4 * (pair.width.toNat * pair.height.toNat) < 2 ^ 32
  left : 4 * (pair.width.toNat * pair.height.toNat) ≤ pair.left.length
  right : 4 * (pair.width.toNat * pair.height.toNat) ≤ pair.right.length

def windowHalf (config : DisparityConfig) : ℕ := max config.blockSize.toNat 1 / 2

def candidates (pair : StereoImagePair) (config : DisparityConfig) : ℕ :=
  min config.maxDisparity.toNat pair.width.toNat

/-- The pixels whose windows, at all candidates, lie inside the images. -/
structure Inner (pair : StereoImagePair) (config : DisparityConfig) (x y : ℕ) : Prop where
  left : windowHalf config + candidates pair config ≤ x
  right : x + windowHalf config < pair.width.toNat
  top : windowHalf config ≤ y
  bottom : y + windowHalf config < pair.height.toNat

section
variable {pair : StereoImagePair} {config : DisparityConfig}

theorem toNat_block (config : DisparityConfig) :
    config.block.toNat = max config.blockSize.toNat 1 := by
  change (if config.blockSize ≤ 1 then 1 else config.blockSize).toNat = _
  split_ifs with h
  · exact (max_eq_right (UInt32.le_iff_toNat_le.mp h)).symm
  · rw [UInt32.not_le] at h
    exact (max_eq_left (UInt32.lt_iff_toNat_lt.mp h).le).symm

theorem windowHalf_lt (config : DisparityConfig) : windowHalf config < 2 ^ 31 := by
  have h := config.blockSize.toNat_lt
  unfold windowHalf
  omega

theorem half_eq (config : DisparityConfig) : config.half = windowHalf config := by
  have hdiv : (config.block / 2).toNat = windowHalf config := by
    rw [UInt32.toNat_div, toNat_block]
    rfl
  unfold DisparityConfig.half
  rw [castInt_of_lt (hdiv.trans_lt (windowHalf_lt config)), hdiv]

theorem toNat_maxDisp (pair : StereoImagePair) (config : DisparityConfig) :
    (config.maxDisp pair.width).toNat = candidates pair config := by
  change (if config.maxDisparity ≤ pair.width then config.maxDisparity else pair.width).toNat = _
  split_ifs with h
  · exact (min_eq_left (UInt32.le_iff_toNat_le.mp h)).symm
  · rw [UInt32.not_le] at h
    exact (min_eq_right (UInt32.lt_iff_toNat_lt.mp h).le).symm

theorem FullSize.sides (hfull : FullSize pair) {x y : ℕ} (hx : x < pair.width.toNat)
    (hy : y < pair.height.toNat) : pair.width.toNat < 2 ^ 30 ∧ pair.height.toNat < 2 ^ 30 := by
  have hwidth := Nat.le_mul_of_pos_right pair.width.toNat ((Nat.zero_le y).trans_lt hy)
  have hheight := Nat.le_mul_of_pos_left pair.height.toNat ((Nat.zero_le x).trans_lt hx)
  have hbytes := hfull.bytes
  omega

theorem FullSize.isBorder_iff (hfull : FullSize pair) {x y : ℕ} (hx : x < pair.width.toNat)
    (hy : y < pair.height.toNat) :
    isBorder config pair.width pair.height (UInt32.ofNat x) (UInt32.ofNat y) = true ↔
      ¬Inner pair config x y := by
  -- The test of `compute` does not go wrong where its differences wrap.
  obtain ⟨hwidth, hheight⟩ := hfull.sides hx hy
  have hhalf := windowHalf_lt config
  have hcandidates : candidates pair config ≤ pair.width.toNat := Nat.min_le_right _ _
  have hhalf32 : (UInt32.ofInt config.half).toNat = windowHalf config := by
    rw [half_eq, toNat_ofInt (by omega) (by omega), Int.toNat_natCast]
  have hx32 : (UInt32.ofNat x).toNat = x := UInt32.toNat_ofNat_of_lt' (hx.trans pair.width.toNat_lt)
  have hy32 : (UInt32.ofNat y).toNat = y :=
    UInt32.toNat_ofNat_of_lt' (hy.trans pair.height.toNat_lt)
  have hinner : Inner pair config x y ↔ windowHalf config + candidates pair config ≤ x ∧
      x + windowHalf config < pair.width.toNat ∧ windowHalf config ≤ y ∧
      y + windowHalf config < pair.height.toNat :=
    ⟨fun h => ⟨h.left, h.right, h.top, h.bottom⟩, fun h => ⟨h.1, h.2.1, h.2.2.1, h.2.2.2⟩⟩
  unfold isBorder
  rw [decide_eq_true_iff, hinner]
  simp only [UInt32.lt_iff_toNat_lt, ge_iff_le, UInt32.le_iff_toNat_le, UInt32.toNat_add,
    UInt32.toNat_sub, hhalf32, hx32, hy32, toNat_maxDisp]
  omega

end

/-! ### The sum over the window -/

theorem mem_offsets {half z : ℤ} : z ∈ offsets half ↔ -half ≤ z ∧ z ≤ half := by
  unfold offsets
  rw [List.mem_map]
  constructor
  · rintro ⟨k, hk, rfl⟩
    have hk := List.mem_range.mp hk
    omega
  · rintro ⟨hle, hge⟩
    refine ⟨(z + half).toNat, List.mem_range.mpr ?_, ?_⟩ <;> omega

theorem length_offsets (half : ℤ) : (offsets half).length = (2 * half + 1).toNat := by
  unfold offsets
  rw [List.length_map, List.length_range]

theorem sum_offsets (term : ℤ → ℕ) (half : ℕ) :
    ((offsets half).map term).sum = ∑ k ∈ Finset.range (2 * half + 1), term (k - half) := by
  have hcount : (2 * (half : ℤ) + 1).toNat = 2 * half + 1 := by
    omega
  unfold offsets
  rw [hcount, List.map_map]
  rfl

theorem foldlM_add {f : UInt32 × UInt32 → ℤ → Except OutOfBounds (UInt32 × UInt32)}
    (term : ℤ → ℕ) (count : ℕ) (zs : List ℤ)
    (hf : ∀ z ∈ zs, ∀ acc, f acc z =
      .ok (acc.1 + UInt32.ofNat (term z), acc.2 + UInt32.ofNat count)) (acc : UInt32 × UInt32) :
    zs.foldlM f acc = .ok (acc.1 + UInt32.ofNat (zs.map term).sum,
      acc.2 + UInt32.ofNat (zs.length * count)) := by
  induction zs generalizing acc with
  | nil => simp [pure, Except.pure]
  | cons z zs ih =>
    rw [List.foldlM_cons, hf z List.mem_cons_self]
    refine (ih (fun z hz => hf z (List.mem_cons_of_mem _ hz)) _).trans ?_
    simp only [List.map_cons, List.sum_cons, List.length_cons, UInt32.ofNat_add, UInt32.ofNat_mul,
      Nat.succ_mul]
    grind

theorem ofInt_natCast (n : ℕ) : UInt32.ofInt n = UInt32.ofNat n := by
  change UInt32.ofNat ((n : ℤ) % 2 ^ 32).toNat = UInt32.ofNat n
  have hmod : ((n : ℤ) % 2 ^ 32).toNat = n % 2 ^ 32 := by
    omega
  rw [hmod]
  apply UInt32.toNat_inj.mp
  rw [UInt32.toNat_ofNat', UInt32.toNat_ofNat', Nat.mod_mod]

section
variable {luma : UInt8 → UInt8 → UInt8 → UInt8} {pair : StereoImagePair}
  {config : DisparityConfig} {leftGray rightGray : List UInt8}

theorem FullSize.area_lt (hfull : FullSize pair) :
    pair.width.toNat * pair.height.toNat < 2 ^ 32 := by
  have hbytes := hfull.bytes
  omega

theorem grayByte_eq (luma : UInt8 → UInt8 → UInt8 → UInt8) (bgra : List UInt8) {w : ℕ}
    {row col : ℤ} (hsmall : 4 * (row.toNat * w + col.toNat) < 2 ^ 32) :
    ((grayByte luma bgra (row.toNat * w + col.toNat)).toNat : ℤ) = grayAt luma bgra w col row := by
  have hp : (UInt32.ofNat (row.toNat * w + col.toNat) * 4).toNat =
      4 * (row.toNat * w + col.toNat) := by
    rw [UInt32.toNat_mul, UInt32.toNat_ofNat']
    change (row.toNat * w + col.toNat) % 2 ^ 32 * 4 % 2 ^ 32 = _
    omega
  unfold grayByte grayAt
  rw [hp]

theorem FullSize.sadTerm_eq (hfull : FullSize pair) (hgray : GrayOf luma pair leftGray rightGray)
    {ry rx rxr : ℤ} (hry : 0 ≤ ry ∧ ry < castInt pair.height)
    (hrx : 0 ≤ rx ∧ rx < castInt pair.width) (hrxr : 0 ≤ rxr ∧ rxr < castInt pair.width)
    (acc : UInt32 × UInt32) :
    sadTerm leftGray rightGray pair.width ry rx rxr acc =
      .ok (acc.1 + UInt32.ofNat (grayAt luma pair.left pair.width.toNat rx ry -
        grayAt luma pair.right pair.width.toNat rxr ry).natAbs, acc.2 + 1) := by
  obtain ⟨hleft, hleftLt⟩ := toNat_intIndex hfull.area_lt hry.1 hry.2 hrx.1 hrx.2
  obtain ⟨hright, hrightLt⟩ := toNat_intIndex hfull.area_lt hry.1 hry.2 hrxr.1 hrxr.2
  have hbytes := hfull.bytes
  unfold sadTerm
  rw [hleft, hright, read_of_getElem? (hgray.left _ hleftLt),
    read_of_getElem? (hgray.right _ hrightLt)]
  dsimp only [bind, Except.bind]
  rw [grayByte_eq luma pair.left (by omega), grayByte_eq luma pair.right (by omega),
    Int.abs_eq_natAbs, ofInt_natCast]
  rfl

theorem Inner.window {x y : ℕ} (hinner : Inner pair config x y) {d : ℕ}
    (hd : d < candidates pair config) {dx dy : ℤ}
    (hdx : -(windowHalf config : ℤ) ≤ dx ∧ dx ≤ windowHalf config)
    (hdy : -(windowHalf config : ℤ) ≤ dy ∧ dy ≤ windowHalf config) :
    (0 ≤ (y : ℤ) + dy ∧ (y : ℤ) + dy < pair.height.toNat) ∧
      (0 ≤ (x : ℤ) + dx ∧ (x : ℤ) + dx < pair.width.toNat) ∧
      (0 ≤ (x : ℤ) + dx - d ∧ (x : ℤ) + dx - d < pair.width.toNat) := by
  obtain ⟨hleft, hright, htop, hbottom⟩ := hinner
  omega

theorem FullSize.casts (hfull : FullSize pair) {x y : ℕ} (hx : x < pair.width.toNat)
    (hy : y < pair.height.toNat) :
    castInt pair.width = pair.width.toNat ∧ castInt pair.height = pair.height.toNat := by
  obtain ⟨hwidth, hheight⟩ := hfull.sides hx hy
  exact ⟨castInt_of_lt (by omega), castInt_of_lt (by omega)⟩

theorem Inner.inside {x y : ℕ} (hinner : Inner pair config x y) :
    x < pair.width.toNat ∧ y < pair.height.toNat :=
  ⟨(Nat.le_add_right x _).trans_lt hinner.right, (Nat.le_add_right y _).trans_lt hinner.bottom⟩

theorem length_offsets_windowHalf (config : DisparityConfig) :
    (offsets (windowHalf config)).length = 2 * windowHalf config + 1 := by
  rw [length_offsets]
  omega

theorem FullSize.sadRow_eq (hfull : FullSize pair) (hgray : GrayOf luma pair leftGray rightGray)
    {x y d : ℕ} (hinner : Inner pair config x y) (hd : d < candidates pair config) {dy : ℤ}
    (hdy : dy ∈ offsets (windowHalf config)) (acc : UInt32 × UInt32) :
    sadRow leftGray rightGray pair.width (windowHalf config) x d (y + dy) acc =
      .ok (acc.1 + UInt32.ofNat (rowSad luma pair (windowHalf config) x d (y + dy)),
        acc.2 + UInt32.ofNat (2 * windowHalf config + 1)) := by
  obtain ⟨hw, hh⟩ := hfull.casts hinner.inside.1 hinner.inside.2
  unfold rowSad
  rw [← sum_offsets (absDiff luma pair x d (y + dy)), ← length_offsets_windowHalf,
    ← Nat.mul_one (offsets _).length]
  refine foldlM_add _ 1 _ (fun dx hdx acc => ?_) acc
  obtain ⟨hry, hrx, hrxr⟩ := hinner.window hd (mem_offsets.mp hdx) (mem_offsets.mp hdy)
  rw [← hw] at hrx hrxr
  rw [← hh] at hry
  have hkept : ¬((x : ℤ) + dx < 0 ∨ castInt pair.width ≤ x + dx ∨ (x : ℤ) + dx - d < 0 ∨
      castInt pair.width ≤ x + dx - d) := by
    omega
  exact (if_neg hkept).trans (hfull.sadTerm_eq hgray hry hrx hrxr acc)

theorem FullSize.sadSum_eq (hfull : FullSize pair) (hgray : GrayOf luma pair leftGray rightGray)
    {x y d : ℕ} (hinner : Inner pair config x y) (hd : d < candidates pair config) :
    sadSum leftGray rightGray pair.width pair.height (windowHalf config) x y d =
      .ok (UInt32.ofNat (windowSad luma pair (windowHalf config) x y d),
        UInt32.ofNat ((2 * windowHalf config + 1) * (2 * windowHalf config + 1))) := by
  obtain ⟨hw, hh⟩ := hfull.casts hinner.inside.1 hinner.inside.2
  have hzero : -(windowHalf config : ℤ) ≤ 0 ∧ (0 : ℤ) ≤ windowHalf config := by
    omega
  refine (foldlM_add (fun dy => rowSad luma pair (windowHalf config) x d (y + dy))
    (2 * windowHalf config + 1) (offsets (windowHalf config)) (fun dy hdy acc => ?_)
    (0, 0)).trans ?_
  · obtain ⟨hry, -, -⟩ := hinner.window hd hzero (mem_offsets.mp hdy)
    have hkept : ¬((y : ℤ) + dy < 0 ∨ castInt pair.height ≤ y + dy) := by
      omega
    exact (if_neg hkept).trans (hfull.sadRow_eq hgray hinner hd hdy acc)
  · rw [sum_offsets fun dy => rowSad luma pair (windowHalf config) x d (y + dy),
      length_offsets_windowHalf]
    simp [windowSad]

theorem toNat_ofNat_small {n : ℕ} (h : n < 2 ^ 30) : (UInt32.ofNat n).toNat = n :=
  UInt32.toNat_ofNat_of_lt' (h.trans (by decide))

theorem castInt_ofNat {n : ℕ} (h : n < 2 ^ 30) : castInt (UInt32.ofNat n) = n := by
  have hn := toNat_ofNat_small h
  rw [castInt_of_lt (hn.trans_lt (h.trans (by decide))), hn]

theorem Inner.window_le {x y : ℕ} (hinner : Inner pair config x y) :
    (2 * windowHalf config + 1) * (2 * windowHalf config + 1) ≤
      pair.width.toNat * pair.height.toNat := by
  obtain ⟨hleft, hright, htop, hbottom⟩ := hinner
  exact Nat.mul_le_mul (by omega) (by omega)

theorem FullSize.pixelSad_eq (hfull : FullSize pair) (hgray : GrayOf luma pair leftGray rightGray)
    {x y d : ℕ} (hinner : Inner pair config x y) (hd : d < candidates pair config) :
    pixelSad config leftGray rightGray pair.width pair.height (UInt32.ofNat x) (UInt32.ofNat y)
        (UInt32.ofNat d) =
      .ok ((windowSad luma pair (windowHalf config) x y d % 2 ^ 32 : ℕ) /
        ((2 * windowHalf config + 1) * (2 * windowHalf config + 1) : ℕ)) := by
  obtain ⟨hwidth, hheight⟩ := hfull.sides hinner.inside.1 hinner.inside.2
  have hcandidates : candidates pair config ≤ pair.width.toNat := Nat.min_le_right _ _
  have hcount : (UInt32.ofNat ((2 * windowHalf config + 1) * (2 * windowHalf config + 1))).toNat =
      (2 * windowHalf config + 1) * (2 * windowHalf config + 1) :=
    UInt32.toNat_ofNat_of_lt' (hinner.window_le.trans_lt hfull.area_lt)
  have hpos : 0 < UInt32.ofNat ((2 * windowHalf config + 1) * (2 * windowHalf config + 1)) := by
    rw [UInt32.lt_iff_toNat_lt, hcount]
    exact Nat.mul_pos (Nat.succ_pos _) (Nat.succ_pos _)
  have hhalf : castInt (config.block / 2) = windowHalf config := half_eq config
  unfold pixelSad computeSad
  rw [castInt_ofNat (hinner.inside.1.trans hwidth), castInt_ofNat (hinner.inside.2.trans hheight),
    castInt_ofNat (hd.trans_le (hcandidates.trans hwidth.le)), hhalf]
  dsimp only
  rw [hfull.sadSum_eq hgray hinner hd]
  change Except.ok (if _ then _ else _) = _
  rw [if_pos hpos, hcount, UInt32.toNat_ofNat']

end

/-! ### The search for the best disparity -/

section
variable {sad : UInt32 → Except OutOfBounds ℚ} {maxDisp : UInt32} {cost : ℕ → ℚ} {best : Best}

structure Best.Found (cost : ℕ → ℚ) (n i : ℕ) (best : Best) : Prop where
  bestCost : best.bestCost = cost i
  bestDisp : best.bestDisp = i
  prevCost : 0 < i → best.prevCost = cost (i - 1)
  nextCost : i + 1 < n → best.nextCost = cost (i + 1)

theorem candidate_of_le {k : ℕ} (hcost : sad (UInt32.ofNat k) = .ok (cost k))
    (hle : best.bestCost ≤ cost k) :
    best.candidate sad maxDisp (UInt32.ofNat k) = .ok best := by
  unfold Best.candidate
  rw [hcost]
  exact if_neg (not_lt_of_ge hle)

theorem candidate_of_lt (hcost : ∀ d < maxDisp.toNat, sad (UInt32.ofNat d) = .ok (cost d)) {k : ℕ}
    (hk : k < maxDisp.toNat) (hlt : cost k < best.bestCost) :
    ∃ best', best.candidate sad maxDisp (UInt32.ofNat k) = .ok best' ∧
      best'.Found cost maxDisp.toNat k := by
  have hk32 : (UInt32.ofNat k).toNat = k := UInt32.toNat_ofNat_of_lt' (hk.trans maxDisp.toNat_lt)
  have hone : (1 : UInt32) ≤ maxDisp := by
    rw [UInt32.le_iff_toNat_le]
    exact Nat.one_le_of_lt hk
  have hzero : 0 < UInt32.ofNat k ↔ 0 < k := by
    rw [UInt32.lt_iff_toNat_lt, hk32]
    rfl
  have hlast : UInt32.ofNat k < maxDisp - 1 ↔ k + 1 < maxDisp.toNat := by
    rw [UInt32.lt_iff_toNat_lt, UInt32.toNat_sub_of_le _ _ hone, hk32]
    change k < maxDisp.toNat - 1 ↔ _
    omega
  obtain ⟨prev, hprev, hprev'⟩ : ∃ prev, (if 0 < UInt32.ofNat k then sad (UInt32.ofNat k - 1)
      else .ok best.prevCost) = .ok prev ∧ (0 < k → prev = cost (k - 1)) := by
    by_cases hpos : 0 < k
    · have hpred : UInt32.ofNat k - 1 = UInt32.ofNat (k - 1) := (UInt32.ofNat_sub hpos).symm
      refine ⟨cost (k - 1), ?_, fun _ => rfl⟩
      rw [if_pos (hzero.mpr hpos), hpred, hcost _ ((Nat.sub_le k 1).trans_lt hk)]
    · exact ⟨best.prevCost, if_neg (mt hzero.mp hpos), fun h => absurd h hpos⟩
  obtain ⟨next, hnext, hnext'⟩ : ∃ next, (if UInt32.ofNat k < maxDisp - 1 then
      sad (UInt32.ofNat k + 1) else .ok best.nextCost) = .ok next ∧
      (k + 1 < maxDisp.toNat → next = cost (k + 1)) := by
    by_cases hmore : k + 1 < maxDisp.toNat
    · have hsucc : UInt32.ofNat k + 1 = UInt32.ofNat (k + 1) := (UInt32.ofNat_add k 1).symm
      refine ⟨cost (k + 1), ?_, fun _ => rfl⟩
      rw [if_pos (hlast.mpr hmore), hsucc, hcost _ hmore]
    · exact ⟨best.nextCost, if_neg (mt hlast.mp hmore), fun h => absurd h hmore⟩
  refine ⟨⟨cost k, k, prev, next⟩, ?_, rfl, rfl, hprev', hnext'⟩
  unfold Best.candidate
  rw [hcost k hk]
  refine (if_pos hlt).trans ?_
  rw [hprev, hnext, hk32]
  rfl

theorem search_found (hcost : ∀ d < maxDisp.toNat, sad (UInt32.ofNat d) = .ok (cost d))
    (hsmall : ∀ d < maxDisp.toNat, cost d < 10 ^ 30) :
    ∃ best, search sad maxDisp = .ok best ∧ (maxDisp.toNat = 0 ∧ best = {} ∨
      ∃ i, IsFirstMin cost maxDisp.toNat i ∧ best.Found cost maxDisp.toNat i) := by
  refine foldlM_range_ok (fun k (best : Best) => k = 0 ∧ best = {} ∨
    ∃ i, IsFirstMin cost k i ∧ best.Found cost maxDisp.toNat i) (.inl ⟨rfl, rfl⟩) ?_
  rintro k hk best (⟨rfl, rfl⟩ | ⟨i, hi, hfound⟩)
  · have hless : cost 0 < ({} : Best).bestCost := hsmall 0 hk
    obtain ⟨best', hrun, hfound⟩ := candidate_of_lt hcost hk hless
    exact ⟨best', hrun, .inr ⟨0, isFirstMin_one, hfound⟩⟩
  · have hnext := hi.succ
    by_cases hlt : cost k < cost i
    · rw [if_pos hlt] at hnext
      obtain ⟨best', hrun, hfound'⟩ := candidate_of_lt hcost hk (hlt.trans_eq hfound.bestCost.symm)
      exact ⟨best', hrun, .inr ⟨k, hnext, hfound'⟩⟩
    · rw [if_neg hlt] at hnext
      refine ⟨best, candidate_of_le (hcost k hk) ?_, .inr ⟨i, hnext, hfound⟩⟩
      rw [hfound.bestCost]
      exact le_of_not_gt hlt

end

/-! ### What is stored -/

section
variable {luma : UInt8 → UInt8 → UInt8 → UInt8} {pair : StereoImagePair}
  {config : DisparityConfig} {leftGray rightGray : List UInt8}

def matchCost (luma : UInt8 → UInt8 → UInt8 → UInt8) (pair : StereoImagePair)
    (config : DisparityConfig) (x y d : ℕ) : Except OutOfBounds ℚ := do
  let leftGray ← toGray luma pair.left pair.width pair.height
  let rightGray ← toGray luma pair.right pair.width pair.height
  pixelSad config leftGray rightGray pair.width pair.height (UInt32.ofNat x) (UInt32.ofNat y)
    (UInt32.ofNat d)

theorem GrayOf.matchCost_eq (hgray : GrayOf luma pair leftGray rightGray) (x y d : ℕ) :
    matchCost luma pair config x y d = pixelSad config leftGray rightGray pair.width pair.height
      (UInt32.ofNat x) (UInt32.ofNat y) (UInt32.ofNat d) := by
  unfold matchCost
  rw [hgray.leftRun, hgray.rightRun]
  rfl

theorem FullSize.compute_ok (hfull : FullSize pair) (luma : UInt8 → UInt8 → UInt8 → UInt8)
    (config : DisparityConfig) :
    ∃ leftGray rightGray data, GrayOf luma pair leftGray rightGray ∧
      compute luma pair config = .ok ⟨data, pair.width, pair.height⟩ ∧
      data.length = pair.width.toNat * pair.height.toNat ∧
      ∀ x y, x < pair.width.toNat → y < pair.height.toNat →
        data[y * pair.width.toNat + x]? = some (storedAt config leftGray rightGray pair.width
          pair.height (UInt32.ofNat x) (UInt32.ofNat y)) := by
  have hpasses : ¬Rejected pair := by
    obtain ⟨hbytes, hleft, hright⟩ := hfull
    rw [rejected_iff]
    omega
  obtain ⟨leftGray, rightGray, data, hgray, hrun, hlength, hfilled⟩ :=
    compute_of_readsInside luma config hfull.area_lt hpasses
      (readsInside_of_le hfull.area_lt hfull.left) (readsInside_of_le hfull.area_lt hfull.right)
  refine ⟨leftGray, rightGray, data, hgray, hrun, hlength, fun x y hx hy => ?_⟩
  have hdone : y * pair.width.toNat + x < pair.height.toNat * pair.width.toNat := by
    rw [Nat.mul_comm pair.height.toNat]
    exact index_lt hx hy
  rw [hfilled x y hx hy, if_pos hdone]

theorem FullSize.cost_lt (hfull : FullSize pair) (hgray : GrayOf luma pair leftGray rightGray)
    {x y d : ℕ} (hinner : Inner pair config x y) (hd : d < candidates pair config) {cost : ℚ}
    (hcost : pixelSad config leftGray rightGray pair.width pair.height (UInt32.ofNat x)
      (UInt32.ofNat y) (UInt32.ofNat d) = .ok cost) : cost < 10 ^ 30 := by
  rw [hfull.pixelSad_eq hgray hinner hd] at hcost
  cases hcost
  have hcount : (1 : ℚ) ≤ ((2 * windowHalf config + 1) * (2 * windowHalf config + 1) : ℕ) := by
    exact_mod_cast Nat.mul_pos (Nat.succ_pos _) (Nat.succ_pos _)
  have hsum : ((windowSad luma pair (windowHalf config) x y d % 2 ^ 32 : ℕ) : ℚ) < 10 ^ 30 := by
    exact_mod_cast (Nat.mod_lt _ (by decide)).trans (by decide : 2 ^ 32 < 10 ^ 30)
  exact (div_le_self (Nat.cast_nonneg _) hcount).trans_lt hsum

theorem FullSize.storedAt_found (hfull : FullSize pair)
    (hgray : GrayOf luma pair leftGray rightGray) {x y : ℕ} (hinner : Inner pair config x y)
    {cost : ℕ → ℚ}
    (hcost : ∀ d < candidates pair config, matchCost luma pair config x y d = .ok (cost d)) :
    ∃ best : Best, storedAt config leftGray rightGray pair.width pair.height (UInt32.ofNat x)
        (UInt32.ofNat y) = best.refined config.subpixel (config.maxDisp pair.width) ∧
      (candidates pair config = 0 ∧ best = {} ∨
        ∃ i, IsFirstMin cost (candidates pair config) i ∧
          best.Found cost (candidates pair config) i) := by
  have hborder := mt (hfull.isBorder_iff hinner.inside.1 hinner.inside.2).mp (not_not_intro hinner)
  simp only [hgray.matchCost_eq] at hcost
  have hsmall := fun d hd => hfull.cost_lt hgray hinner hd (hcost d hd)
  rw [← toNat_maxDisp] at hcost hsmall
  obtain ⟨best, hsearch, hbest⟩ := search_found hcost hsmall
  rw [toNat_maxDisp] at hbest
  exact ⟨best, storedAt_of_search hborder hsearch, hbest⟩

theorem natAbs_sub_le (b c : UInt8) : ((b.toNat : ℤ) - c.toNat).natAbs ≤ 255 := by
  have hb := b.toNat_lt
  have hc := c.toNat_lt
  omega

theorem windowSad_le (luma : UInt8 → UInt8 → UInt8 → UInt8) (pair : StereoImagePair)
    (config : DisparityConfig) (x y d : ℤ) :
    windowSad luma pair (windowHalf config) x y d ≤
      (2 * windowHalf config + 1) * ((2 * windowHalf config + 1) * 255) := by
  have hrow : ∀ row, rowSad luma pair (windowHalf config) x d row ≤
      (2 * windowHalf config + 1) * 255 := by
    intro row
    have hsum := Finset.sum_le_card_nsmul (Finset.range (2 * windowHalf config + 1))
      (fun i => absDiff luma pair x d row (i - windowHalf config)) 255
      fun i _ => natAbs_sub_le _ _
    rwa [Finset.card_range] at hsum
  have hsum := Finset.sum_le_card_nsmul (Finset.range (2 * windowHalf config + 1))
    (fun j => rowSad luma pair (windowHalf config) x d (y + (j - windowHalf config))) _
    fun j _ => hrow (y + (j - windowHalf config))
  rwa [Finset.card_range] at hsum

theorem windowSad_lt (hblock : 255 * (config.blockSize.toNat + 1) ^ 2 < 2 ^ 32) (x y d : ℤ) :
    windowSad luma pair (windowHalf config) x y d < 2 ^ 32 := by
  -- No sum over a window wraps for the blocks that the costs have room for.
  have hside : 2 * windowHalf config + 1 ≤ config.blockSize.toNat + 1 := by
    unfold windowHalf
    omega
  calc windowSad luma pair (windowHalf config) x y d
      ≤ (2 * windowHalf config + 1) * ((2 * windowHalf config + 1) * 255) :=
        windowSad_le luma pair config x y d
    _ = 255 * (2 * windowHalf config + 1) ^ 2 := by ring
    _ ≤ 255 * (config.blockSize.toNat + 1) ^ 2 :=
        Nat.mul_le_mul_left 255 (Nat.pow_le_pow_left hside 2)
    _ < 2 ^ 32 := hblock

/-- What block matching does at an inner pixel: no term of a window is left out, the costs are
the sums over the whole window divided by its size, and the first minimum is stored. -/
structure Matched (luma : UInt8 → UInt8 → UInt8 → UInt8) (pair : StereoImagePair)
    (config : DisparityConfig) (m : DisparityMap) (x y : ℕ) : Prop where
  window : ∀ d < candidates pair config, ∀ dx dy : ℤ,
    -(windowHalf config : ℤ) ≤ dx ∧ dx ≤ windowHalf config →
    -(windowHalf config : ℤ) ≤ dy ∧ dy ≤ windowHalf config →
    (0 ≤ (y : ℤ) + dy ∧ (y : ℤ) + dy < pair.height.toNat) ∧
      (0 ≤ (x : ℤ) + dx ∧ (x : ℤ) + dx < pair.width.toNat) ∧
      (0 ≤ (x : ℤ) + dx - d ∧ (x : ℤ) + dx - d < pair.width.toNat)
  costs : ∀ d < candidates pair config, matchCost luma pair config x y d =
    .ok (windowSad luma pair (windowHalf config) x y d /
      ((2 * windowHalf config + 1) * (2 * windowHalf config + 1) : ℕ))
  stored : ∃ d : ℕ, m.data[y * pair.width.toNat + x]? = some (d : ℚ) ∧
    (candidates pair config = 0 ∧ d = 0 ∨
      IsFirstMin (fun d => windowSad luma pair (windowHalf config) x y d)
        (candidates pair config) d)

theorem FullSize.matchCost_eq (hfull : FullSize pair)
    (hgray : GrayOf luma pair leftGray rightGray)
    (hblock : 255 * (config.blockSize.toNat + 1) ^ 2 < 2 ^ 32) {x y d : ℕ}
    (hinner : Inner pair config x y) (hd : d < candidates pair config) :
    matchCost luma pair config x y d =
      .ok (windowSad luma pair (windowHalf config) x y d /
        ((2 * windowHalf config + 1) * (2 * windowHalf config + 1) : ℕ)) := by
  rw [hgray.matchCost_eq, hfull.pixelSad_eq hgray hinner hd,
    Nat.mod_eq_of_lt (windowSad_lt hblock x y d)]

/-- Without refinement, every inner pixel gets the first disparity with the least sum of absolute
differences over its whole window, and every other pixel 0. -/
theorem compute_matches (luma : UInt8 → UInt8 → UInt8 → UInt8) (hfull : FullSize pair)
    (hblock : 255 * (config.blockSize.toNat + 1) ^ 2 < 2 ^ 32)
    (hsubpixel : config.subpixel = false) :
    ∃ m, compute luma pair config = .ok m ∧
      m.data.length = pair.width.toNat * pair.height.toNat ∧
      ∀ x y, x < pair.width.toNat → y < pair.height.toNat →
        (Inner pair config x y → Matched luma pair config m x y) ∧
        (¬Inner pair config x y → m.data[y * pair.width.toNat + x]? = some 0) := by
  obtain ⟨leftGray, rightGray, data, hgray, hrun, hlength, hdata⟩ := hfull.compute_ok luma config
  refine ⟨_, hrun, hlength, fun x y hx hy => ⟨fun hinner => ?_, fun hinner => ?_⟩⟩
  · have hcost := fun d (hd : d < candidates pair config) =>
      hfull.matchCost_eq hgray hblock hinner hd
    obtain ⟨best, hstored, hbest⟩ := hfull.storedAt_found hgray hinner hcost
    have hrefined : best.refined config.subpixel (config.maxDisp pair.width) = best.bestDisp := by
      unfold Best.refined
      rw [hsubpixel, if_neg (by simp)]
    refine ⟨fun d hd dx dy hdx hdy => hinner.window hd hdx hdy, hcost, ?_⟩
    rw [hdata x y hx hy, hstored, hrefined]
    rcases hbest with ⟨hnone, rfl⟩ | ⟨i, hi, hfound⟩
    · exact ⟨0, by simp, .inl ⟨hnone, rfl⟩⟩
    · refine ⟨i, congrArg some hfound.bestDisp, .inr ?_⟩
      have hmono : StrictMono fun sum : ℕ => (sum : ℚ) /
          ((2 * windowHalf config + 1) * (2 * windowHalf config + 1) : ℕ) := by
        intro a b hab
        refine div_lt_div_of_pos_right (Nat.cast_lt.mpr hab) ?_
        exact_mod_cast Nat.mul_pos (Nat.succ_pos _) (Nat.succ_pos _)
      exact (IsFirstMin.of_strictMono hmono fun d _ => rfl).mp hi
  · have hborder : isBorder config pair.width pair.height (UInt32.ofNat x) (UInt32.ofNat y) =
        true := (hfull.isBorder_iff hx hy).mpr hinner
    rw [hdata x y hx hy, storedAt, if_pos hborder]

end

def redRow (a b c d : UInt8) : List UInt8 :=
  [0, 0, a, 255, 0, 0, b, 255, 0, 0, c, 255, 0, 0, d, 255]

/-- At the last pixel, the costs of the disparities 0, 1 and 2 are 3, 0 and 6. -/
def redPair : StereoImagePair := ⟨redRow 0 0 0 20, redRow 0 40 20 30, 4, 1⟩

theorem redPair_fullSize : FullSize redPair := ⟨by decide, by decide, by decide⟩

def grayPixels (values : List UInt8) : List UInt8 := values.flatMap fun v => [v, v, v, 255]

/-- The right image is the left one moved by one pixel. -/
def shiftedPair : StereoImagePair :=
  ⟨grayPixels [9, 1, 7, 3, 8, 2, 6, 4, 9, 1, 8, 5, 2, 7, 3, 4, 9, 6, 1, 5],
    grayPixels [1, 7, 3, 8, 0, 6, 4, 9, 1, 0, 5, 2, 7, 3, 0, 9, 6, 1, 5, 0], 5, 4⟩

theorem shiftedPair_fullSize : FullSize shiftedPair := ⟨by decide, by decide, by decide⟩

theorem compute_matches_shiftedPair :
    windowHalf ⟨2, 3, false⟩ = 1 ∧ Inner shiftedPair ⟨2, 3, false⟩ 3 1 ∧
      ∃ m, compute weights shiftedPair ⟨2, 3, false⟩ = .ok m ∧ m.data.length = 5 * 4 ∧
        ∀ x y, x < 5 → y < 4 →
          (Inner shiftedPair ⟨2, 3, false⟩ x y →
            Matched weights shiftedPair ⟨2, 3, false⟩ m x y) ∧
          (¬Inner shiftedPair ⟨2, 3, false⟩ x y → m.data[y * 5 + x]? = some 0) := by
  have hinner : Inner shiftedPair ⟨2, 3, false⟩ 3 1 :=
    ⟨by decide, by decide, by decide, by decide⟩
  exact ⟨rfl, hinner, compute_matches weights shiftedPair_fullSize (by decide) rfl⟩

end StereoCamera.DisparityMap
