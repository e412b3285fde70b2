import StereoCamera.Vision.Reprojection
import StereoCamera.Vision.SubpixelRefinement

/-! From a stereo pair to its cloud of points: which pixels get a point, and how far the depth of
a point can be from the one of the best disparity. -/

namespace StereoCamera

namespace DisparityMap

open FirstMin

section
variable {cost : ℕ → ℚ} {best : Best} {d : ℕ} {maxDisp : UInt32}

theorem Best.Found.refined_near (hfound : best.Found cost maxDisp.toNat d)
    (hbest : IsFirstMin cost maxDisp.toNat d) (subpixel : Bool) :
    (d : ℚ) - 1 / 2 ≤ best.refined subpixel maxDisp ∧
      best.refined subpixel maxDisp < d + 1 / 2 := by
  -- Refinement moves a disparity by half a pixel at most, since neither neighbour of the best
  -- disparity is cheaper.
  have hone : (1 : UInt32) ≤ maxDisp := by
    rw [UInt32.le_iff_toNat_le]
    exact Nat.one_le_of_lt hbest.lt
  unfold Best.refined
  rw [hfound.bestDisp]
  split_ifs with hactive
  · obtain ⟨-, hpos, hlast⟩ := hactive
    have hpos : 0 < d := Nat.cast_pos.mp hpos
    have hlast : d + 1 < maxDisp.toNat := by
      rw [UInt32.toNat_sub_of_le _ _ hone] at hlast
      have hlt : d < maxDisp.toNat - 1 := Nat.cast_lt.mp hlast
      omega
    have hprev := hbest.first (d - 1) (Nat.sub_one_lt hpos.ne')
    have hnext := hbest.le (d + 1) hlast
    rw [hfound.bestCost, hfound.prevCost hpos, hfound.nextCost hlast]
    have hcurved : 0 < 2 * (cost (d - 1) - 2 * cost d + cost (d + 1)) := by linarith
    have hupper : (cost (d - 1) - cost (d + 1)) /
        (2 * (cost (d - 1) - 2 * cost d + cost (d + 1))) ≤ 1 / 2 := by
      rw [div_le_iff₀ hcurved]
      linarith
    have hlower : -(1 / 2) < (cost (d - 1) - cost (d + 1)) /
        (2 * (cost (d - 1) - 2 * cost d + cost (d + 1))) := by
      rw [lt_div_iff₀ hcurved]
      linarith
    dsimp only
    split_ifs
    · constructor <;> linarith
    · constructor <;> linarith
  · constructor <;> linarith

theorem Best.Found.refined_of_edge (hfound : best.Found cost maxDisp.toNat d)
    {subpixel : Bool} (hedge : subpixel = false ∨ d = 0 ∨ d + 1 = maxDisp.toNat) :
    best.refined subpixel maxDisp = d := by
  have hinactive : ¬(subpixel = true ∧ (0 : ℚ) < d ∧ (d : ℚ) < (maxDisp - 1).toNat) := by
    rintro ⟨hsub, hpos, hlast⟩
    rcases hedge with hsub' | rfl | hlast'
    · exact Bool.false_ne_true (hsub'.symm.trans hsub)
    · exact lt_irrefl _ hpos
    · have hone : (1 : UInt32) ≤ maxDisp := by
        rw [UInt32.le_iff_toNat_le, ← hlast']
        exact Nat.succ_le_succ (Nat.zero_le d)
      rw [UInt32.toNat_sub_of_le _ _ hone, ← hlast'] at hlast
      exact lt_irrefl _ hlast
  unfold Best.refined
  rw [hfound.bestDisp, if_neg hinactive]

end

variable {luma : UInt8 → UInt8 → UInt8 → UInt8} {pair : StereoImagePair}
  {config : DisparityConfig}

instance decidableInner (pair : StereoImagePair) (config : DisparityConfig) (x y : ℕ) :
    Decidable (Inner pair config x y) :=
  decidable_of_iff (windowHalf config + candidates pair config ≤ x ∧
    x + windowHalf config < pair.width.toNat ∧ windowHalf config ≤ y ∧
      y + windowHalf config < pair.height.toNat)
    ⟨fun ⟨hl, hr, ht, hb⟩ => ⟨hl, hr, ht, hb⟩, fun h => ⟨h.left, h.right, h.top, h.bottom⟩⟩

/-- The first disparity at which the window matches best; 0 if there are no candidates. -/
def bestDisparity (luma : UInt8 → UInt8 → UInt8 → UInt8) (pair : StereoImagePair)
    (config : DisparityConfig) (px : ℕ × ℕ) : ℕ :=
  ((List.range (candidates pair config)).argmin fun d : ℕ =>
    windowSad luma pair (windowHalf config) px.1 px.2 d).getD 0

theorem IsFirstMin.bestDisparity_eq {px : ℕ × ℕ} {d : ℕ}
    (h : IsFirstMin (fun d : ℕ => windowSad luma pair (windowHalf config) px.1 px.2 d)
      (candidates pair config) d) : bestDisparity luma pair config px = d := by
  have hmem := Option.mem_def.mp (isFirstMin_iff.mp h)
  rw [bestDisparity, hmem]
  rfl

theorem bestDisparity_of_none (h : candidates pair config = 0) (px : ℕ × ℕ) :
    bestDisparity luma pair config px = 0 := by
  rw [bestDisparity, h]
  rfl

structure Near (config : DisparityConfig) (n d : ℕ) (stored : ℚ) : Prop where
  lower : (d : ℚ) - 1 / 2 ≤ stored
  upper : stored < d + 1 / 2
  edge : config.subpixel = false ∨ d = 0 ∨ d + 1 = n → stored = d

theorem Near.pos_iff {n d : ℕ} {stored : ℚ} (h : Near config n d stored) : 0 < stored ↔ 0 < d := by
  rcases Nat.eq_zero_or_pos d with rfl | hd
  · rw [h.edge (.inr (.inl rfl)), Nat.cast_pos]
  · have hone : (1 : ℚ) ≤ d := Nat.one_le_cast.mpr hd
    exact iff_of_true (by linarith [h.lower]) hd

theorem FullSize.compute_near (luma : UInt8 → UInt8 → UInt8 → UInt8) (hfull : FullSize pair)
    (hblock : 255 * (config.blockSize.toNat + 1) ^ 2 < 2 ^ 32) :
    ∃ m, compute luma pair config = .ok m ∧ m.width = pair.width ∧ m.height = pair.height ∧
      m.data.length = pair.width.toNat * pair.height.toNat ∧
      ∀ px ∈ pixels pair.width pair.height,
        if Inner pair config px.1 px.2 then
          Near config (candidates pair config) (bestDisparity luma pair config px) (m.at px)
        else m.at px = 0 := by
  obtain ⟨leftGray, rightGray, data, hgray, hrun, hlength, hdata⟩ := hfull.compute_ok luma config
  refine ⟨_, hrun, rfl, rfl, hlength, fun px hpx => ?_⟩
  obtain ⟨hx, hy⟩ := mem_pixels.mp hpx
  have hat : DisparityMap.at ⟨data, pair.width, pair.height⟩ px =
      storedAt config leftGray rightGray pair.width pair.height (UInt32.ofNat px.1)
        (UInt32.ofNat px.2) := by
    rw [DisparityMap.at, List.getD_eq_getElem?_getD, hdata px.1 px.2 hx hy]
    rfl
  rw [hat]
  split_ifs with hinner
  · have hcost := fun d (hd : d < candidates pair config) =>
      hfull.matchCost_eq hgray hblock hinner hd
    obtain ⟨best, hstored, hbest⟩ := hfull.storedAt_found hgray hinner hcost
    rw [hstored]
    rcases hbest with ⟨hnone, rfl⟩ | ⟨d, hd, hfound⟩
    · have hzero : Best.refined {} config.subpixel (config.maxDisp pair.width) = 0 := by
        unfold Best.refined
        rw [if_neg fun h => lt_irrefl _ h.2.1]
      rw [hzero, bestDisparity_of_none hnone, hnone]
      exact ⟨by norm_num, by norm_num, fun _ => rfl⟩
    · -- The costs are the sums divided by the size of the window.
      have hmono : StrictMono fun sum : ℕ => (sum : ℚ) /
          ((2 * windowHalf config + 1) * (2 * windowHalf config + 1) : ℕ) := by
        intro a b hab
        refine div_lt_div_of_pos_right (Nat.cast_lt.mpr hab) ?_
        exact_mod_cast Nat.mul_pos (Nat.succ_pos _) (Nat.succ_pos _)
      have hfirst := (IsFirstMin.of_strictMono hmono fun d _ => rfl).mp hd
      rw [IsFirstMin.bestDisparity_eq hfirst]
      rw [← toNat_maxDisp] at hfound hd ⊢
      have hnear := hfound.refined_near hd config.subpixel
      exact ⟨hnear.1, hnear.2, hfound.refined_of_edge⟩
  · exact if_pos ((hfull.isBorder_iff hx hy).mpr hinner)

end DisparityMap

namespace PointCloud

open DisparityMap

variable {luma : UInt8 → UInt8 → UInt8 → UInt8} {pair : StereoImagePair}
  {config : DisparityConfig} {baseline focalLength : ℚ} {k : Intrinsics}

/-- The point gives back its pixel, and its depth is that of a disparity at most half a pixel
from the best one there; without refinement it is the best one. -/
structure Sees (luma : UInt8 → UInt8 → UInt8 → UInt8) (pair : StereoImagePair)
    (config : DisparityConfig) (baseline focalLength : ℚ) (k : Intrinsics) (p : Point3D)
    (px : ℕ × ℕ) : Prop where
  u : (px.1 : ℚ) = k.fx * p.x / p.z + k.cx
  v : (px.2 : ℚ) = k.fy * p.y / p.z + k.cy
  near : baseline * focalLength / (bestDisparity luma pair config px + 1 / 2) < p.z
  far : p.z ≤ baseline * focalLength / (bestDisparity luma pair config px - 1 / 2)
  exact : config.subpixel = false ∨
      bestDisparity luma pair config px + 1 = candidates pair config →
    p.z = baseline * focalLength / bestDisparity luma pair config px

theorem sees_of_near {m : DisparityMap} {p : Point3D} {px : ℕ × ℕ} (hb : 0 < baseline)
    (hf : 0 < focalLength) (hback : GivesBack baseline focalLength k m p px)
    (hnear : Near config (candidates pair config) (bestDisparity luma pair config px) (m.at px))
    (hpos : 0 < bestDisparity luma pair config px) :
    Sees luma pair config baseline focalLength k p px := by
  have hbf : 0 < baseline * focalLength := mul_pos hb hf
  have hat : 0 < m.at px := hnear.pos_iff.mpr hpos
  have hz : p.z = baseline * focalLength / m.at px := by
    rw [hback.disparity, div_div_cancel₀ hbf.ne']
  have hone : (1 : ℚ) ≤ bestDisparity luma pair config px := Nat.one_le_cast.mpr hpos
  refine ⟨hback.u, hback.v, ?_, ?_, fun hedge => ?_⟩
  · rw [hz]
    exact div_lt_div_of_pos_left hbf hat hnear.upper
  · rw [hz]
    exact div_le_div_of_nonneg_left hbf.le (by linarith) hnear.lower
  · rw [hz, hnear.edge (hedge.imp_right .inr)]

/-- The three stages run through on every full-size pair, whatever their objects held before, and
the cloud has a point for each pixel whose window stays inside the images at all candidates and
matches best at a positive disparity, in the order of the pixels, and no other point. -/
theorem generate_of_pair (luma : UInt8 → UInt8 → UInt8 → UInt8) (hfull : FullSize pair)
    (hblock : 255 * (config.blockSize.toNat + 1) ^ 2 < 2 ^ 32) (hb : 0 < baseline)
    (hf : 0 < focalLength) (hfx : k.fx ≠ 0) (hfy : k.fy ≠ 0) (depth : DepthMap)
    (cloud : PointCloud) :
    ∃ m d c, DisparityMap.compute luma pair config = .ok m ∧
      depth.compute m baseline focalLength = .ok d ∧ cloud.generate d k = .ok c ∧
      List.Forall₂ (Sees luma pair config baseline focalLength k) c.points
        ((pixels pair.width pair.height).filter fun px =>
          Inner pair config px.1 px.2 ∧ 0 < bestDisparity luma pair config px) := by
  obtain ⟨m, hm, hwidth, hheight, hlength, hstored⟩ := hfull.compute_near luma hblock
  have hsize : m.data.length = m.width.toNat * m.height.toNat := by rw [hlength, hwidth, hheight]
  have hlt : m.width.toNat * m.height.toNat < 2 ^ 32 := by
    rw [hwidth, hheight]
    exact hfull.area_lt
  obtain ⟨d, c, hd, hc, hpoints⟩ := generate_compute hsize hlt hb hf hfx hfy depth cloud
  refine ⟨m, d, c, hm, hd, hc, ?_⟩
  rw [hwidth, hheight] at hpoints
  have hpixels : (pixels pair.width pair.height).filter (fun px => 0 < m.at px) =
      (pixels pair.width pair.height).filter fun px =>
        Inner pair config px.1 px.2 ∧ 0 < bestDisparity luma pair config px := by
    refine List.filter_congr fun px hpx => ?_
    have hpx := hstored px hpx
    rw [decide_eq_decide]
    split_ifs at hpx with hinner
    · rw [hpx.pos_iff, and_iff_right hinner]
    · rw [hpx]
      exact iff_of_false (lt_irrefl 0) fun h => hinner h.1
  rw [hpixels] at hpoints
  refine List.Forall₂.flip ?_
  refine ((List.forall₂_and_left _ _).mpr ⟨fun px hpx => List.mem_filter.mp hpx,
    hpoints.flip⟩).imp ?_
  rintro px p ⟨⟨hpx, hsees⟩, hback⟩
  obtain ⟨hinner, hpos⟩ := of_decide_eq_true hsees
  have hnear := hstored px hpx
  rw [if_pos hinner] at hnear
  exact sees_of_near hb hf hback hnear hpos

theorem generate_of_pair_red :
    ∃ m d c, DisparityMap.compute weights redPair ⟨3, 1, true⟩ = .ok m ∧
      heldDepth.compute m 2 3 = .ok d ∧ heldCloud.generate d ⟨2, 2, 0, 0⟩ = .ok c ∧
      List.Forall₂ (Sees weights redPair ⟨3, 1, true⟩ 2 3 ⟨2, 2, 0, 0⟩) c.points
        ((pixels redPair.width redPair.height).filter fun px =>
          Inner redPair ⟨3, 1, true⟩ px.1 px.2 ∧
            0 < bestDisparity weights redPair ⟨3, 1, true⟩ px) :=
  generate_of_pair weights redPair_fullSize (by decide) (by decide) (by decide) (by decide)
    (by decide) _ _

end PointCloud

end StereoCamera
