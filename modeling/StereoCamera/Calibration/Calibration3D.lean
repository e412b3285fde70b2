import StereoCamera.Calibration.Calibration2D

/-! The calibration of a stereo pair (`calibration/Calibration3D.cpp`), and for which points it
can be asked for. The guard compares only the numbers of left and right views. -/

namespace StereoCamera

structure StereoCalibrationParams (D : Type) where
  left : CalibrationParams2D D
  right : CalibrationParams2D D
  R : Vector D 9
  T : Vector D 3

structure Calibration3D (D : Type) where
  params : StereoCalibrationParams D

namespace Calibration3D

open Calibration2D CheckedLoop

variable {D : Type} [NatCast D] [Add D] [Sub D] [Mul D] [Arithmetic D]

def addDifference (leftPoints rightPoints : List (List (Point2D D))) (v : ℕ) (sumDx : D) (i : ℕ) :
    Except ArithmeticFault D := do
  let left ← elementAt (← elementAt leftPoints v) i
  let right ← elementAt (← elementAt rightPoints v) i
  return sumDx + (left.x - right.x)

def sumDifferences (leftPoints rightPoints : List (List (Point2D D))) : Except ArithmeticFault D :=
  (List.range leftPoints.length).foldlM (fun sumDx v => do
    let view ← elementAt leftPoints v
    (List.range view.length).foldlM (addDifference leftPoints rightPoints v) sumDx) ((0 : ℕ) : D)

def updateT (fx meanDisp : D) (T : Vector D 3) : Except ArithmeticFault (Vector D 3) :=
  if Arithmetic.lt ((0 : ℕ) : D) fx && Arithmetic.lt Arithmetic.tenth meanDisp then do
    let t ← divide fx meanDisp
    return T.set 0 t
  else return T

/-- The size of the image, the last two arguments of the source, is not used there. -/
def calibrate (cal : Calibration3D D) (leftPoints rightPoints : List (List (Point2D D)))
    (objectPoints : List (List (Point3D D))) :
    Except ArithmeticFault (StereoCalibrationParams D × Calibration3D D) :=
  if leftPoints.isEmpty ∨ leftPoints.length ≠ rightPoints.length then .ok (cal.params, cal)
  else do
    let (left, _) ← (mk' : Calibration2D D).calibrate leftPoints objectPoints
    let (right, _) ← (mk' : Calibration2D D).calibrate rightPoints objectPoints
    let nViews := UInt64.ofNat leftPoints.length
    let sumDx ← sumDifferences leftPoints rightPoints
    let firstView ← elementAt leftPoints 0
    let meanDisp ← divide sumDx ((nViews * UInt64.ofNat firstView.length).toNat : D)
    let T ← updateT left.fx meanDisp cal.params.T
    let params := { cal.params with left := left, right := right, T := T }
    return (params, ⟨params⟩)

/-- As many views of each kind, as many points on the left as on the right in each of them, and
some point. -/
structure Consistent (leftPoints rightPoints : List (List (Point2D D)))
    (objectPoints : List (List (Point3D D))) : Prop where
  objects : leftPoints.length = objectPoints.length
  points : leftPoints.map List.length = rightPoints.map List.length
  some : leftPoints.flatten ≠ []

/-- What a calibration should do with any points: no access outside them, and nothing if they are
not consistent. -/
structure Careful (cal : Calibration3D D) (leftPoints rightPoints : List (List (Point2D D)))
    (objectPoints : List (List (Point3D D))) : Prop where
  inside : cal.calibrate leftPoints rightPoints objectPoints ≠ .error .outOfBounds
  unchanged : ¬Consistent leftPoints rightPoints objectPoints →
    cal.calibrate leftPoints rightPoints objectPoints = .ok (cal.params, cal)

theorem updateT_ne_outOfBounds {D : Type} [NatCast D] [Arithmetic D] (fx meanDisp : D)
    (T : Vector D 3) : updateT fx meanDisp T ≠ .error .outOfBounds := by
  unfold updateT
  split_ifs
  · exact bind_ne_error (divide_ne_outOfBounds _ _) fun t _ => nofun
  · nofun

section Sums
variable {D : Type} [Add D] [Sub D] {leftPoints rightPoints : List (List (Point2D D))}

theorem addDifferences_ok {v : ℕ} (hl : v < leftPoints.length) (hr : v < rightPoints.length)
    (hle : leftPoints[v].length ≤ rightPoints[v].length) (sumDx : D) :
    ∃ t, (List.range leftPoints[v].length).foldlM (addDifference leftPoints rightPoints v) sumDx =
      .ok t := by
  obtain ⟨t, hrun, -⟩ := foldlM_range_ok (f := addDifference leftPoints rightPoints v)
    (n := leftPoints[v].length) (s := sumDx) (fun _ _ => True) trivial (by
      intro i hi sumDx _
      have hi' : i < rightPoints[v].length := hi.trans_le hle
      refine ⟨sumDx + (leftPoints[v][i].x - rightPoints[v][i].x), ?_, trivial⟩
      unfold addDifference
      rw [elementAt_of_lt hl, elementAt_of_lt hr]
      change (elementAt leftPoints[v] i >>= _) = _
      rw [elementAt_of_lt hi]
      change (elementAt rightPoints[v] i >>= _) = _
      rw [elementAt_of_lt hi']
      rfl)
  exact ⟨t, hrun⟩

theorem sumDifferences_ok [NatCast D]
    (hpoints : leftPoints.map List.length = rightPoints.map List.length) :
    ∃ sumDx, sumDifferences leftPoints rightPoints = .ok sumDx := by
  have hviews : leftPoints.length = rightPoints.length := by
    simpa using congrArg List.length hpoints
  obtain ⟨sumDx, hrun, -⟩ := foldlM_range_ok (f := fun sumDx v => do
      let view ← elementAt leftPoints v
      (List.range view.length).foldlM (addDifference leftPoints rightPoints v) sumDx)
    (n := leftPoints.length) (s := ((0 : ℕ) : D)) (fun _ _ => True) trivial (by
      intro v hl sumDx _
      have hr : v < rightPoints.length := hviews ▸ hl
      have hsame : leftPoints[v].length = rightPoints[v].length := by
        have h := congrArg (·[v]?) hpoints
        simpa [hl, hr] using h
      obtain ⟨t, hrun⟩ := addDifferences_ok hl hr hsame.le sumDx
      refine ⟨t, ?_, trivial⟩
      rw [elementAt_of_lt hl]
      exact hrun)
  exact ⟨sumDx, hrun⟩

end Sums

section
variable {cal : Calibration3D D} {leftPoints rightPoints : List (List (Point2D D))}
  {objectPoints : List (List (Point3D D))}

theorem careful_of_refused (h : leftPoints = [] ∨ leftPoints.length ≠ rightPoints.length) :
    Careful cal leftPoints rightPoints objectPoints := by
  have hrun : cal.calibrate leftPoints rightPoints objectPoints = .ok (cal.params, cal) :=
    if_pos (h.imp_left List.isEmpty_iff.mpr)
  refine ⟨?_, fun _ => hrun⟩
  rw [hrun]
  nofun

theorem calibrate_ne_outOfBounds
    (hpoints : leftPoints.map List.length = rightPoints.map List.length) :
    cal.calibrate leftPoints rightPoints objectPoints ≠ .error .outOfBounds := by
  unfold calibrate
  split_ifs with hguard
  · nofun
  obtain ⟨sumDx, hsum⟩ := sumDifferences_ok hpoints
  obtain ⟨view, views, rfl⟩ := List.exists_cons_of_ne_nil
    fun hnil => hguard (.inl (List.isEmpty_iff.mpr hnil))
  refine bind_ne_error Calibration2D.calibrate_ne_outOfBounds fun left _ => ?_
  refine bind_ne_error Calibration2D.calibrate_ne_outOfBounds fun right _ => ?_
  refine bind_ne_error (by rw [hsum]; nofun) fun sumDx _ => ?_
  refine bind_ne_error nofun fun firstView _ => ?_
  refine bind_ne_error (divide_ne_outOfBounds _ _) fun meanDisp _ => ?_
  exact bind_ne_error (updateT_ne_outOfBounds _ _ _) fun T _ => nofun

theorem distortion_of_calibrate (hviews : leftPoints ≠ [])
    (hlength : leftPoints.length = rightPoints.length) {params : StereoCalibrationParams D}
    {cal' : Calibration3D D}
    (h : cal.calibrate leftPoints rightPoints objectPoints = .ok (params, cal')) :
    params.left.distortion = [] ∨ params.left.distortion.length = 5 := by
  have hguard : ¬(leftPoints.isEmpty = true ∨ leftPoints.length ≠ rightPoints.length) := by
    rintro (hempty | hne)
    · exact hviews (List.isEmpty_iff.mp hempty)
    · exact hne hlength
  unfold calibrate at h
  rw [if_neg hguard] at h
  obtain ⟨⟨left, calLeft⟩, hleft, h⟩ := exists_of_bind_eq_ok h
  obtain ⟨⟨right, calRight⟩, -, h⟩ := exists_of_bind_eq_ok h
  obtain ⟨sumDx, -, h⟩ := exists_of_bind_eq_ok h
  obtain ⟨firstView, -, h⟩ := exists_of_bind_eq_ok h
  obtain ⟨meanDisp, -, h⟩ := exists_of_bind_eq_ok h
  obtain ⟨T, -, h⟩ := exists_of_bind_eq_ok h
  cases h
  exact Calibration2D.distortion_of_calibrate hleft

end

/-- Other coefficients than a calibration leaves, as `set_params` may store them. -/
def storedParams : StereoCalibrationParams D where
  left := ⟨(0 : ℕ), (0 : ℕ), (0 : ℕ), (0 : ℕ), [((0 : ℕ) : D)]⟩
  right := ⟨(0 : ℕ), (0 : ℕ), (0 : ℕ), (0 : ℕ), []⟩
  R := .replicate 9 (0 : ℕ)
  T := .replicate 3 (0 : ℕ)

/-- Over any arithmetic, and whatever the parameters were, a calibration is careful exactly if
its guard refuses the points or they are consistent. -/
theorem careful_iff (leftPoints rightPoints : List (List (Point2D D)))
    (objectPoints : List (List (Point3D D))) :
    (∀ cal : Calibration3D D, Careful cal leftPoints rightPoints objectPoints) ↔
      leftPoints = [] ∨ leftPoints.length ≠ rightPoints.length ∨
        Consistent leftPoints rightPoints objectPoints := by
  constructor
  · intro hcareful
    by_contra hnot
    obtain ⟨hviews, hnot⟩ := not_or.mp hnot
    obtain ⟨hlength, hinconsistent⟩ := not_or.mp hnot
    have hrun := (hcareful ⟨storedParams⟩).unchanged hinconsistent
    rcases distortion_of_calibrate hviews (not_not.mp hlength) hrun with h | h
    · cases h
    · cases h
  · rintro (hempty | hlength | hconsistent) cal
    · exact careful_of_refused (.inl hempty)
    · exact careful_of_refused (.inr hlength)
    · exact ⟨calibrate_ne_outOfBounds hconsistent.points, fun h => absurd hconsistent h⟩

/-- A point that the right view does not have. -/
theorem missing_point_read :
    (⟨storedParams⟩ : Calibration3D ℝ).calibrate [[⟨1, 0⟩, ⟨2, 0⟩]] [[⟨0, 0⟩]] [[]] =
        .error .outOfBounds ∧
      ¬∀ cal : Calibration3D ℝ, Careful cal [[⟨1, 0⟩, ⟨2, 0⟩]] [[⟨0, 0⟩]] [[]] := by
  have hleft : ∃ left, (mk' : Calibration2D ℝ).calibrate [[⟨1, 0⟩, ⟨2, 0⟩]] [[]] = .ok left :=
    ⟨_, calibrate_eq mk' (List.cons_ne_nil _ _) rfl (show (2 : ℕ) ≠ 0 by decide)⟩
  have hright : ∃ right, (mk' : Calibration2D ℝ).calibrate [[⟨0, 0⟩]] [[]] = .ok right :=
    ⟨_, calibrate_eq mk' (List.cons_ne_nil _ _) rfl (show (1 : ℕ) ≠ 0 by decide)⟩
  have hsum : sumDifferences [[(⟨1, 0⟩ : Point2D ℝ), ⟨2, 0⟩]] [[⟨0, 0⟩]] =
      .error .outOfBounds := rfl
  have hrun : (⟨storedParams⟩ : Calibration3D ℝ).calibrate [[⟨1, 0⟩, ⟨2, 0⟩]] [[⟨0, 0⟩]] [[]] =
      .error .outOfBounds := by
    obtain ⟨left, hleft⟩ := hleft
    obtain ⟨right, hright⟩ := hright
    unfold calibrate
    rw [if_neg (by decide)]
    simp only [hleft, hright, hsum, bind, Except.bind]
  exact ⟨hrun, fun h => (h ⟨storedParams⟩).inside hrun⟩

end Calibration3D

end StereoCamera
