import Mathlib.Analysis.Real.Sqrt
import StereoCamera.Common.Std
import StereoCamera.Lib.CheckedLoops

/-! Intrinsics estimated from image points (`calibration/Calibration2D.cpp`). A `double` may be
of any type with the arithmetic that is used; the estimate is the same over floating point
numbers and over the reals. -/

namespace StereoCamera

inductive ArithmeticFault
  | outOfBounds
  | divisionByZero
  deriving DecidableEq

/-- The arithmetic of a `double` beyond its sums and products; a quotient may be undefined. -/
class Arithmetic (D : Type) where
  div : D → D → Option D
  sqrt : D → D
  lt : D → D → Bool
  /-- `0.1`. -/
  tenth : D

instance natCastFloat : NatCast Float := ⟨Float.ofNat⟩

instance : Arithmetic Float where
  div a b := some (a / b)
  sqrt := Float.sqrt
  lt a b := a < b
  tenth := 0.1

noncomputable instance : Arithmetic ℝ where
  div a b := if b = 0 then none else some (a / b)
  sqrt := Real.sqrt
  lt a b := a < b
  tenth := 1 / 10

def divide {D : Type} [Arithmetic D] (a b : D) : Except ArithmeticFault D :=
  match Arithmetic.div a b with
  | none => .error .divisionByZero
  | some q => .ok q

def elementAt {α : Type} (xs : List α) (i : ℕ) : Except ArithmeticFault α :=
  (CheckedList.read xs i).mapError fun _ => .outOfBounds

theorem divide_ne_outOfBounds {D : Type} [Arithmetic D] (a b : D) :
    divide a b ≠ .error .outOfBounds := by
  unfold divide
  split <;> nofun

theorem elementAt_of_lt {α : Type} {xs : List α} {i : ℕ} (h : i < xs.length) :
    elementAt xs i = .ok xs[i] := by
  rw [elementAt, CheckedList.read_of_lt h]
  rfl

structure CalibrationParams2D (D : Type) where
  fx : D
  fy : D
  cx : D
  cy : D
  distortion : List D

structure Calibration2D (D : Type) where
  params : CalibrationParams2D D

namespace Calibration2D

open CheckedLoop

structure Point2D (D : Type) where
  x : D
  y : D

structure Point3D (D : Type) where
  x : D
  y : D
  z : D

variable {D : Type} [NatCast D] [Add D] [Sub D] [Mul D] [Arithmetic D]

def mk' : Calibration2D D := ⟨⟨(0 : ℕ), (0 : ℕ), (0 : ℕ), (0 : ℕ), []⟩⟩

def sums (imagePoints : List (List (Point2D D))) : D × D :=
  imagePoints.foldl (fun sum view =>
    view.foldl (fun sum pt => (sum.1 + pt.x, sum.2 + pt.y)) sum) ((0 : ℕ), (0 : ℕ))

def distance (cx cy : D) (pt : Point2D D) : D :=
  let dx := pt.x - cx
  let dy := pt.y - cy
  Arithmetic.sqrt (dx * dx + dy * dy)

def sumDist (cx cy : D) (imagePoints : List (List (Point2D D))) : D :=
  imagePoints.foldl (fun sum view =>
    view.foldl (fun sum pt => sum + distance cx cy pt) sum) (0 : ℕ)

/-- The size of the image, the last two arguments of the source, is not used there. The sizes
are multiplied as `size_t`. -/
def calibrate (cal : Calibration2D D) (imagePoints : List (List (Point2D D)))
    (objectPoints : List (List (Point3D D))) :
    Except ArithmeticFault (CalibrationParams2D D × Calibration2D D) :=
  if imagePoints.isEmpty ∨ imagePoints.length ≠ objectPoints.length then .ok (cal.params, cal)
  else do
    let nViews := UInt64.ofNat imagePoints.length
    let firstView ← elementAt imagePoints 0
    let nPts := UInt64.ofNat firstView.length
    let (sumX, sumY) := sums imagePoints
    let totalPts : D := (nViews * nPts).toNat
    let cx ← divide sumX totalPts
    let cy ← divide sumY totalPts
    let meanDist ← divide (sumDist cx cy imagePoints) totalPts
    let scale ← divide meanDist (Arithmetic.sqrt (2 : ℕ))
    let params := ⟨scale, scale, cx, cy, List.replicate 5 (0 : ℕ)⟩
    return (params, ⟨params⟩)

def totalPts (imagePoints : List (List (Point2D D))) : ℕ :=
  (UInt64.ofNat imagePoints.length * UInt64.ofNat (imagePoints.headD []).length).toNat

section
variable {cal : Calibration2D D} {imagePoints : List (List (Point2D D))}
  {objectPoints : List (List (Point3D D))}

theorem calibrate_of_views (hviews : imagePoints ≠ [])
    (hobjects : imagePoints.length = objectPoints.length) :
    cal.calibrate imagePoints objectPoints = (do
      let cx ← divide (sums imagePoints).1 (totalPts imagePoints : D)
      let cy ← divide (sums imagePoints).2 (totalPts imagePoints : D)
      let meanDist ← divide (sumDist cx cy imagePoints) (totalPts imagePoints : D)
      let scale ← divide meanDist (Arithmetic.sqrt (2 : ℕ))
      let params := ⟨scale, scale, cx, cy, List.replicate 5 (0 : ℕ)⟩
      return (params, ⟨params⟩)) := by
  obtain ⟨view, views, rfl⟩ := List.exists_cons_of_ne_nil hviews
  have hguard : ¬((view :: views).isEmpty = true ∨
      (view :: views).length ≠ objectPoints.length) := by
    rintro (h | h)
    · cases h
    · exact h hobjects
  exact if_neg hguard

theorem calibrate_ne_outOfBounds :
    cal.calibrate imagePoints objectPoints ≠ .error .outOfBounds := by
  unfold calibrate
  split_ifs with hguard
  · nofun
  obtain ⟨view, views, rfl⟩ := List.exists_cons_of_ne_nil
    fun hnil => hguard (.inl (List.isEmpty_iff.mpr hnil))
  refine bind_ne_error nofun fun firstView _ => ?_
  refine bind_ne_error (divide_ne_outOfBounds _ _) fun cx _ => ?_
  refine bind_ne_error (divide_ne_outOfBounds _ _) fun cy _ => ?_
  refine bind_ne_error (divide_ne_outOfBounds _ _) fun meanDist _ => ?_
  exact bind_ne_error (divide_ne_outOfBounds _ _) fun scale _ => nofun

theorem distortion_of_calibrate {params : CalibrationParams2D D} {cal' : Calibration2D D}
    (h : cal.calibrate imagePoints objectPoints = .ok (params, cal')) :
    params.distortion = cal.params.distortion ∨ params.distortion.length = 5 := by
  unfold calibrate at h
  split_ifs at h with hguard
  · cases h
    exact .inl rfl
  · obtain ⟨firstView, -, h⟩ := exists_of_bind_eq_ok h
    obtain ⟨cx, -, h⟩ := exists_of_bind_eq_ok h
    obtain ⟨cy, -, h⟩ := exists_of_bind_eq_ok h
    obtain ⟨meanDist, -, h⟩ := exists_of_bind_eq_ok h
    obtain ⟨scale, -, h⟩ := exists_of_bind_eq_ok h
    cases h
    exact .inr rfl

end

/-! ### Over the reals -/

section
variable {imagePoints : List (List (Point2D ℝ))} {objectPoints : List (List (Point3D ℝ))}
  {cal : Calibration2D ℝ}

noncomputable def mean (xs : List ℝ) : ℝ := xs.sum / xs.length

noncomputable def distanceBetween (p q : Point2D ℝ) : ℝ :=
  √((p.x - q.x) ^ 2 + (p.y - q.y) ^ 2)

/-- The center is the mean of the points, and the focal length their mean distance from it
over the square root of two. -/
structure Estimates (points : List (Point2D ℝ)) (params : CalibrationParams2D ℝ) : Prop where
  cx : params.cx = mean (points.map Point2D.x)
  cy : params.cy = mean (points.map Point2D.y)
  fx : params.fx = mean (points.map (distanceBetween ⟨params.cx, params.cy⟩)) / √2
  fy : params.fy = params.fx

theorem foldl_add_eq_sum {α : Type} (f : α → ℝ) (xs : List α) (a : ℝ) :
    xs.foldl (fun sum x => sum + f x) a = a + (xs.map f).sum := by
  induction xs generalizing a with
  | nil => simp
  | cons x xs ih => rw [List.foldl_cons, ih, List.map_cons, List.sum_cons, add_assoc]

theorem sums_eq (imagePoints : List (List (Point2D ℝ))) :
    sums imagePoints =
      ((imagePoints.flatten.map Point2D.x).sum, (imagePoints.flatten.map Point2D.y).sum) := by
  have hfold : ∀ (points : List (Point2D ℝ)) (a b : ℝ),
      points.foldl (fun sum pt => (sum.1 + pt.x, sum.2 + pt.y)) (a, b) =
        (a + (points.map Point2D.x).sum, b + (points.map Point2D.y).sum) := by
    intro points
    induction points with
    | nil => simp
    | cons pt points ih =>
      intro a b
      rw [List.foldl_cons, ih, List.map_cons, List.map_cons, List.sum_cons, List.sum_cons,
        add_assoc, add_assoc]
  unfold sums
  rw [← List.foldl_flatten, hfold, Nat.cast_zero, zero_add, zero_add]

theorem sumDist_eq (cx cy : ℝ) (imagePoints : List (List (Point2D ℝ))) :
    sumDist cx cy imagePoints =
      (imagePoints.flatten.map (distanceBetween ⟨cx, cy⟩)).sum := by
  have hdist : distance cx cy = distanceBetween ⟨cx, cy⟩ := by
    funext pt
    unfold distance distanceBetween
    dsimp only
    rw [← pow_two, ← pow_two, sub_sq_comm, sub_sq_comm pt.y]
    rfl
  unfold sumDist
  rw [← List.foldl_flatten, foldl_add_eq_sum, Nat.cast_zero, zero_add, hdist]

theorem divide_of_ne_zero {a b : ℝ} (hb : b ≠ 0) : divide a b = .ok (a / b) := by
  have hdiv : Arithmetic.div a b = some (a / b) := if_neg hb
  rw [divide, hdiv]

theorem divide_zero (a : ℝ) : divide a (0 : ℝ) = .error .divisionByZero := by
  have hdiv : Arithmetic.div a (0 : ℝ) = none := if_pos rfl
  rw [divide, hdiv]

theorem calibrate_eq (cal : Calibration2D ℝ) (hviews : imagePoints ≠ [])
    (hobjects : imagePoints.length = objectPoints.length) (htotal : totalPts imagePoints ≠ 0) :
    cal.calibrate imagePoints objectPoints =
      let cx := (imagePoints.flatten.map Point2D.x).sum / totalPts imagePoints
      let cy := (imagePoints.flatten.map Point2D.y).sum / totalPts imagePoints
      let scale := (imagePoints.flatten.map (distanceBetween ⟨cx, cy⟩)).sum /
        totalPts imagePoints / √2
      let params := ⟨scale, scale, cx, cy, List.replicate 5 0⟩
      .ok (params, ⟨params⟩) := by
  have htwo : Arithmetic.sqrt ((2 : ℕ) : ℝ) = √2 := rfl
  have htotalR : (totalPts imagePoints : ℝ) ≠ 0 := Nat.cast_ne_zero.mpr htotal
  have hsqrt : √(2 : ℝ) ≠ 0 := by positivity
  rw [calibrate_of_views hviews hobjects, sums_eq]
  dsimp only
  rw [divide_of_ne_zero htotalR, ok_bind, divide_of_ne_zero htotalR, ok_bind, sumDist_eq,
    divide_of_ne_zero htotalR, ok_bind, htwo, divide_of_ne_zero hsqrt, ok_bind, Nat.cast_zero]
  rfl

theorem calibrate_of_total_zero (cal : Calibration2D ℝ) (hviews : imagePoints ≠ [])
    (hobjects : imagePoints.length = objectPoints.length) (htotal : totalPts imagePoints = 0) :
    cal.calibrate imagePoints objectPoints = .error .divisionByZero := by
  rw [calibrate_of_views hviews hobjects, htotal, Nat.cast_zero, divide_zero]
  rfl

/-- The divisor is the number of points, or it does not matter which number it is. -/
def Counts (imagePoints : List (List (Point2D ℝ))) : Prop :=
  totalPts imagePoints = imagePoints.flatten.length ∨
    totalPts imagePoints ≠ 0 ∧ ∀ pt ∈ imagePoints.flatten, pt = ⟨0, 0⟩

theorem mean_map (f : Point2D ℝ → ℝ) (points : List (Point2D ℝ)) :
    mean (points.map f) = (points.map f).sum / points.length := by
  rw [mean, List.length_map]

theorem sum_eq_zero_of_div_eq_div {s t n : ℝ} (hne : t ≠ n) (h : s / t = s / n) : s = 0 := by
  -- Divided by another number, a sum that is not zero is another mean.
  by_contra hs
  rw [div_eq_mul_inv, div_eq_mul_inv] at h
  exact hne (inv_injective (mul_left_cancel₀ hs h))

theorem distanceBetween_self (p : Point2D ℝ) : distanceBetween p p = 0 := by
  simp [distanceBetween]

theorem eq_of_distanceBetween_eq_zero {p q : Point2D ℝ} (h : distanceBetween p q = 0) : q = p := by
  obtain ⟨px, py⟩ := p
  obtain ⟨qx, qy⟩ := q
  have hsum : (px - qx) ^ 2 + (py - qy) ^ 2 = 0 :=
    (Real.sqrt_eq_zero (add_nonneg (sq_nonneg _) (sq_nonneg _))).mp h
  obtain ⟨hx, hy⟩ := (add_eq_zero_iff_of_nonneg (sq_nonneg _) (sq_nonneg _)).mp hsum
  have hx := sub_eq_zero.mp (pow_eq_zero_iff two_ne_zero |>.mp hx)
  have hy := sub_eq_zero.mp (pow_eq_zero_iff two_ne_zero |>.mp hy)
  rw [hx, hy]

theorem origin_of_estimates {points : List (Point2D ℝ)} {t : ℝ} (hne : t ≠ points.length)
    {params : CalibrationParams2D ℝ} (hcx : params.cx = (points.map Point2D.x).sum / t)
    (hcy : params.cy = (points.map Point2D.y).sum / t)
    (hfx : params.fx = (points.map (distanceBetween ⟨params.cx, params.cy⟩)).sum / t / √2)
    (h : Estimates points params) : ∀ pt ∈ points, pt = ⟨0, 0⟩ := by
  have hsqrt : √(2 : ℝ) ≠ 0 := by positivity
  have hx := h.cx
  rw [hcx, mean_map] at hx
  have hy := h.cy
  rw [hcy, mean_map] at hy
  have hd := h.fx
  rw [hfx, mean_map, div_left_inj' hsqrt] at hd
  have hcx0 : params.cx = 0 := by rw [hcx, sum_eq_zero_of_div_eq_div hne hx, zero_div]
  have hcy0 : params.cy = 0 := by rw [hcy, sum_eq_zero_of_div_eq_div hne hy, zero_div]
  have hdist := sum_eq_zero_of_div_eq_div hne hd
  rw [hcx0, hcy0] at hdist
  intro pt hpt
  refine eq_of_distanceBetween_eq_zero ?_
  refine List.all_zero_of_le_zero_le_of_sum_eq_zero ?_ hdist (List.mem_map_of_mem hpt)
  intro d hd
  obtain ⟨q, -, rfl⟩ := List.mem_map.mp hd
  exact Real.sqrt_nonneg _

theorem sum_map_eq_zero {f : Point2D ℝ → ℝ} (hf : f ⟨0, 0⟩ = 0) {points : List (Point2D ℝ)}
    (h : ∀ pt ∈ points, pt = ⟨0, 0⟩) : (points.map f).sum = 0 := by
  refine List.sum_eq_zero fun d hd => ?_
  obtain ⟨pt, hpt, rfl⟩ := List.mem_map.mp hd
  rw [h pt hpt, hf]

theorem estimates_origin {points : List (Point2D ℝ)} (horigin : ∀ pt ∈ points, pt = ⟨0, 0⟩)
    {params : CalibrationParams2D ℝ} (hcx : params.cx = 0) (hcy : params.cy = 0)
    (hfx : params.fx = 0) (hfy : params.fy = 0) : Estimates points params where
  cx := by rw [hcx, mean_map, sum_map_eq_zero rfl horigin, zero_div]
  cy := by rw [hcy, mean_map, sum_map_eq_zero rfl horigin, zero_div]
  fx := by
    rw [hfx, hcx, hcy, mean_map, sum_map_eq_zero (distanceBetween_self _) horigin, zero_div,
      zero_div]
  fy := hfy.trans hfx.symm

end

/-- The estimate of views with a point is the mean of all points and their mean distance from it
exactly if the number of the views times the size of the first of them is the number of points,
or all points are at the origin and the first view is not empty. -/
theorem estimates_iff (cal : Calibration2D ℝ) {imagePoints : List (List (Point2D ℝ))}
    {objectPoints : List (List (Point3D ℝ))} (hviews : imagePoints ≠ [])
    (hobjects : imagePoints.length = objectPoints.length) (hpoints : imagePoints.flatten ≠ []) :
    (∃ params, cal.calibrate imagePoints objectPoints = .ok (params, ⟨params⟩) ∧
      Estimates imagePoints.flatten params) ↔ Counts imagePoints := by
  have hcount : imagePoints.flatten.length ≠ 0 := mt List.length_eq_zero_iff.mp hpoints
  by_cases htotal : totalPts imagePoints = 0
  · rw [calibrate_of_total_zero cal hviews hobjects htotal]
    refine iff_of_false (by rintro ⟨params, ⟨⟩, -⟩) ?_
    rintro (h | h)
    · exact hcount (h ▸ htotal)
    · exact h.1 htotal
  rw [calibrate_eq cal hviews hobjects htotal]
  dsimp only
  constructor
  · rintro ⟨params, ⟨⟩, h⟩
    by_cases heq : totalPts imagePoints = imagePoints.flatten.length
    · exact .inl heq
    · refine .inr ⟨htotal, ?_⟩
      exact origin_of_estimates (Nat.cast_injective.ne heq) rfl rfl rfl h
  · intro h
    refine ⟨_, rfl, ?_⟩
    rcases h with heq | ⟨-, horigin⟩
    · rw [heq]
      exact ⟨(mean_map _ _).symm, (mean_map _ _).symm, by rw [mean_map], rfl⟩
    · have hx := sum_map_eq_zero (f := Point2D.x) rfl horigin
      have hy := sum_map_eq_zero (f := Point2D.y) rfl horigin
      rw [hx, hy, zero_div, sum_map_eq_zero (distanceBetween_self _) horigin, zero_div, zero_div]
      exact estimates_origin horigin rfl rfl rfl rfl

def squareViews : List (List (Point2D ℝ)) := [[⟨0, 0⟩, ⟨2, 0⟩], [⟨0, 2⟩, ⟨2, 2⟩]]

theorem estimates_square :
    ∃ params, (mk' : Calibration2D ℝ).calibrate squareViews [[], []] = .ok (params, ⟨params⟩) ∧
      Estimates squareViews.flatten params := by
  have hviews : squareViews ≠ [] := List.cons_ne_nil _ _
  have hpoints : squareViews.flatten ≠ [] := List.cons_ne_nil _ _
  exact (estimates_iff mk' hviews rfl hpoints).mpr (.inl rfl)

/-- The first view has one point and the second two, but the sums are divided by two. -/
def raggedViews : List (List (Point2D ℝ)) := [[⟨0, 0⟩], [⟨0, 0⟩, ⟨3, 0⟩]]

theorem ragged_views_misestimated :
    raggedViews.flatten ≠ [] ∧ mean (raggedViews.flatten.map Point2D.x) = 1 ∧
      (∃ params, (mk' : Calibration2D ℝ).calibrate raggedViews [[], []] = .ok (params, ⟨params⟩) ∧
        params.cx = 3 / 2) ∧
      ¬∃ params, (mk' : Calibration2D ℝ).calibrate raggedViews [[], []] = .ok (params, ⟨params⟩) ∧
        Estimates raggedViews.flatten params := by
  have hsum : (raggedViews.flatten.map Point2D.x).sum = 3 := by
    simp [raggedViews]
  have hmean : mean (raggedViews.flatten.map Point2D.x) = 1 := by
    rw [mean_map, hsum]
    norm_num [raggedViews]
  have htotal : totalPts raggedViews = 2 := rfl
  have hviews : raggedViews ≠ [] := List.cons_ne_nil _ _
  have hobjects : raggedViews.length = ([[], []] : List (List (Point3D ℝ))).length := rfl
  have hrun := calibrate_eq mk' hviews hobjects (by rw [htotal]; decide)
  rw [hsum, htotal] at hrun
  refine ⟨List.cons_ne_nil _ _, hmean, ⟨_, hrun, rfl⟩, ?_⟩
  rintro ⟨params, hparams, h⟩
  have hcx := h.cx
  rw [hmean] at hcx
  cases hrun.symm.trans hparams
  norm_num at hcx

end Calibration2D

end StereoCamera
