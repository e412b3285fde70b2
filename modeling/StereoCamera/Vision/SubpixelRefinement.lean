import Mathlib.Tactic.IntervalCases
import Mathlib.Tactic.Linarith
import StereoCamera.Vision.BlockMatching

/-! Sub-pixel refinement against the parabola through the costs beside the best disparity. -/

namespace StereoCamera.DisparityMap

open FirstMin

/-- `v` is where the parabola through `(d - 1, a)`, `(d, b)` and `(d + 1, c)` is least. -/
structure AtVertex (d a b c v : ℚ) : Prop where
  vertex : v = d + (a - c) / (2 * (a - 2 * b + c))
  near : |v - d| ≤ 1 / 2
  cheaper : (a < c → v < d) ∧ (c < a → d < v)

theorem atVertex_sub_iff {d a b c : ℚ} (hcurved : 0 < a - 2 * b + c) :
    AtVertex d a b c (d - (a - c) / (2 * (a - 2 * b + c))) ↔ a = c := by
  constructor
  · intro h
    have hvertex := h.vertex
    have hzero : (a - c) / (2 * (a - 2 * b + c)) = 0 := by
      linarith
    rcases div_eq_zero_iff.mp hzero with hac | hden
    · exact sub_eq_zero.mp hac
    · linarith
  · rintro rfl
    refine ⟨by simp, by simp, fun h => absurd h (lt_irrefl a), fun h => absurd h (lt_irrefl a)⟩

section
variable {luma : UInt8 → UInt8 → UInt8 → UInt8} {pair : StereoImagePair}
  {config : DisparityConfig} {cost : ℕ → ℚ} {best : Best} {d : ℕ}

theorem Best.Found.refined_eq {maxDisp : UInt32} (hfound : best.Found cost maxDisp.toNat d)
    (hpos : 0 < d) (hlast : d < maxDisp.toNat - 1)
    (hcurved : 1 / 10 ^ 6 < cost (d - 1) - 2 * cost d + cost (d + 1)) :
    best.refined true maxDisp =
      d - (cost (d - 1) - cost (d + 1)) / (2 * (cost (d - 1) - 2 * cost d + cost (d + 1))) := by
  have hone : (1 : UInt32) ≤ maxDisp := by
    rw [UInt32.le_iff_toNat_le]
    change 1 ≤ maxDisp.toNat
    omega
  have hinside : (0 : ℚ) < d ∧ (d : ℚ) < (maxDisp - 1).toNat := by
    rw [UInt32.toNat_sub_of_le _ _ hone]
    exact ⟨Nat.cast_pos.mpr hpos, Nat.cast_lt.mpr hlast⟩
  have hdenom : 1 / 10 ^ 6 < |cost (d - 1) - 2 * cost d + cost (d + 1)| :=
    hcurved.trans_le (le_abs_self _)
  unfold Best.refined
  rw [hfound.bestDisp, hfound.bestCost, hfound.prevCost hpos, hfound.nextCost (by omega),
    if_pos ⟨rfl, hinside⟩]
  exact if_pos hdenom

/-- What `compute` stores at an inner pixel whose best disparity has neighbours is the vertex of
the parabola exactly when the neighbours cost the same. -/
theorem stored_atVertex_iff (luma : UInt8 → UInt8 → UInt8 → UInt8) (hfull : FullSize pair)
    (hsubpixel : config.subpixel = true) {x y : ℕ} (hinner : Inner pair config x y)
    (hcost : ∀ e < candidates pair config, matchCost luma pair config x y e = .ok (cost e))
    (hbest : IsFirstMin cost (candidates pair config) d) (hpos : 0 < d)
    (hlast : d < candidates pair config - 1)
    (hcurved : 1 / 10 ^ 6 < cost (d - 1) - 2 * cost d + cost (d + 1)) :
    ∃ m v, compute luma pair config = .ok m ∧ m.data[y * pair.width.toNat + x]? = some v ∧
      (AtVertex d (cost (d - 1)) (cost d) (cost (d + 1)) v ↔ cost (d - 1) = cost (d + 1)) := by
  obtain ⟨leftGray, rightGray, data, hgray, hrun, -, hdata⟩ := hfull.compute_ok luma config
  obtain ⟨best, hstored, hsearch⟩ := hfull.storedAt_found hgray hinner hcost
  refine ⟨_, _, hrun, hdata x y hinner.inside.1 hinner.inside.2, ?_⟩
  rcases hsearch with ⟨hnone, -⟩ | ⟨i, hi, hfound⟩
  · omega
  · obtain rfl := hi.unique hbest
    rw [← toNat_maxDisp] at hfound hlast
    rw [hstored, hsubpixel, hfound.refined_eq hpos hlast hcurved]
    exact atVertex_sub_iff ((by norm_num : (0 : ℚ) < 1 / 10 ^ 6).trans hcurved)

end

theorem redPair_inner : Inner redPair ⟨3, 1, true⟩ 3 0 :=
  ⟨by decide, by decide, by decide, by decide⟩

def redCost (e : ℕ) : ℚ := [3, 0, 6].getD e 0

theorem matchCost_redPair : ∀ e < candidates redPair ⟨3, 1, true⟩,
    matchCost weights redPair ⟨3, 1, true⟩ 3 0 e = .ok (redCost e) := by
  intro e he
  have he : e < 3 := he
  interval_cases e <;> with_unfolding_all rfl

theorem stored_atVertex_iff_redPair :
    ∃ m v, compute weights redPair ⟨3, 1, true⟩ = .ok m ∧ m.data[0 * 4 + 3]? = some v ∧
      (AtVertex (1 : ℕ) (redCost 0) (redCost 1) (redCost 2) v ↔ redCost 0 = redCost 2) := by
  refine stored_atVertex_iff weights redPair_fullSize rfl redPair_inner matchCost_redPair ?_
    (by decide) (by decide) (by norm_num [redCost])
  refine ⟨by decide, fun j hj => ?_, fun j hj => ?_⟩
  · have hj : j < 3 := hj
    interval_cases j <;> norm_num [redCost]
  · interval_cases j
    norm_num [redCost]

/-- The cheaper neighbour of disparity 1 is 0, and 7/6 is stored instead of 5/6. -/
theorem refinement_moves_away :
    (matchCost weights redPair ⟨3, 1, true⟩ 3 0 0 = .ok 3 ∧
      matchCost weights redPair ⟨3, 1, true⟩ 3 0 1 = .ok 0 ∧
      matchCost weights redPair ⟨3, 1, true⟩ 3 0 2 = .ok 6) ∧
    compute weights redPair ⟨3, 1, true⟩ = .ok ⟨[0, 0, 0, 7 / 6], 4, 1⟩ ∧
    ¬AtVertex 1 3 0 6 (7 / 6) := by
  refine ⟨⟨?_, ?_, ?_⟩, ?_, fun h => ?_⟩
  · with_unfolding_all rfl
  · with_unfolding_all rfl
  · with_unfolding_all rfl
  · with_unfolding_all rfl
  · have hside := h.cheaper.1 (by norm_num)
    norm_num at hside

end StereoCamera.DisparityMap
