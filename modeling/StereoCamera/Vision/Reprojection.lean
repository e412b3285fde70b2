import Mathlib.Algebra.Order.Field.Rat
import Mathlib.Tactic.FieldSimp
import Mathlib.Tactic.Ring
import StereoCamera.Vision.DisparitySafety
import StereoCamera.Vision.PointCloud

/-! Every point of a cloud gives back its pixel and its disparity, and the points stand in the
order of the pixels. -/

namespace StereoCamera

open CheckedList CheckedLoop

def pixels (width height : UInt32) : List (ℕ × ℕ) :=
  (List.range height.toNat).flatMap fun v => (List.range width.toNat).map fun u => (u, v)

theorem mem_pixels {width height : UInt32} {px : ℕ × ℕ} :
    px ∈ pixels width height ↔ px.1 < width.toNat ∧ px.2 < height.toNat := by
  obtain ⟨u, v⟩ := px
  simp only [pixels, List.mem_flatMap, List.mem_map, List.mem_range, Prod.mk.injEq]
  constructor
  · rintro ⟨v', hv, u', hu, rfl, rfl⟩
    exact ⟨hu, hv⟩
  · rintro ⟨hu, hv⟩
    exact ⟨v, hv, u, hu, rfl, rfl⟩

def DisparityMap.at (m : DisparityMap) (px : ℕ × ℕ) : ℚ :=
  m.data.getD (px.2 * m.width.toNat + px.1) 0

namespace DepthMap

theorem length_resize (data : List ℚ) (n : ℕ) : (resize data n).length = n := by
  unfold resize
  rw [List.length_append, List.length_take, List.length_replicate]
  omega

theorem compute_eq (depth : DepthMap) {m : DisparityMap} (baseline focalLength : ℚ)
    (hsize : m.data.length = (m.width * m.height).toNat) :
    depth.compute m baseline focalLength =
      .ok ⟨m.data.map (depthOf baseline focalLength), m.width, m.height⟩ := by
  obtain ⟨data, hrun, hlength, hdata⟩ := foldlM_range_ok
    (f := fun (data : List ℚ) i => do
      let disp ← read m.data i
      write data i (depthOf baseline focalLength disp))
    (s := resize depth.data (m.width * m.height).toNat) (n := m.data.length)
    (fun k (data : List ℚ) => data.length = m.data.length ∧
      ∀ i < k, data[i]? = (m.data[i]?).map (depthOf baseline focalLength))
    ⟨(length_resize _ _).trans hsize.symm, fun i hi => absurd hi i.not_lt_zero⟩ (by
      rintro k hk data ⟨hlength, hdone⟩
      have hwrite : k < data.length := hk.trans_eq hlength.symm
      refine ⟨data.set k (depthOf baseline focalLength m.data[k]), ?_, ?_, ?_⟩
      · rw [read_of_lt hk]
        exact write_of_lt hwrite _
      · rw [List.length_set, hlength]
      · intro i hi
        rcases Nat.lt_succ_iff_lt_or_eq.mp hi with hi | rfl
        · rw [List.getElem?_set_ne hi.ne', hdone i hi]
        · rw [List.getElem?_set_self hwrite, List.getElem?_eq_getElem hk, Option.map_some])
  have hmap : data = m.data.map (depthOf baseline focalLength) := by
    apply List.ext_getElem?
    intro i
    rw [List.getElem?_map]
    rcases lt_or_ge i m.data.length with hi | hi
    · exact hdata i hi
    · rw [List.getElem?_eq_none (hlength.trans_le hi), List.getElem?_eq_none hi, Option.map_none]
  unfold compute
  dsimp only
  rw [hrun, hmap]
  rfl

end DepthMap

structure GivesBack (baseline focalLength : ℚ) (k : PointCloud.Intrinsics) (m : DisparityMap)
    (p : Point3D) (px : ℕ × ℕ) : Prop where
  u : (px.1 : ℚ) = k.fx * p.x / p.z + k.cx
  v : (px.2 : ℚ) = k.fy * p.y / p.z + k.cy
  disparity : m.at px = baseline * focalLength / p.z

namespace PointCloud
variable {m : DisparityMap} {baseline focalLength : ℚ} {k : Intrinsics}

def pointsOf (baseline focalLength : ℚ) (k : Intrinsics) (m : DisparityMap)
    (pxs : List (ℕ × ℕ)) : List Point3D :=
  (pxs.filter fun px => 0 < m.at px).map fun px =>
    pointOf k (UInt32.ofNat px.1) (UInt32.ofNat px.2)
      (DepthMap.depthOf baseline focalLength (m.at px))

theorem pointsOf_flatMap {ι : Type*} (xs : List ι) (g : ι → List (ℕ × ℕ)) :
    pointsOf baseline focalLength k m (xs.flatMap g) =
      xs.flatMap fun i => pointsOf baseline focalLength k m (g i) := by
  unfold pointsOf
  rw [List.filter_flatMap, List.map_flatMap]

theorem depthOf_pos_iff (hb : 0 < baseline) (hf : 0 < focalLength) (disparity : ℚ) :
    0 < DepthMap.depthOf baseline focalLength disparity ↔ 0 < disparity := by
  unfold DepthMap.depthOf
  split_ifs with h
  · exact iff_of_true (div_pos (mul_pos hb hf) h) h
  · exact iff_of_false (lt_irrefl 0) h

theorem addPixel_eq (hsize : m.data.length = m.width.toNat * m.height.toNat)
    (hlt : m.width.toNat * m.height.toNat < 2 ^ 32) (hb : 0 < baseline) (hf : 0 < focalLength)
    {u v : ℕ} (hu : u < m.width.toNat) (hv : v < m.height.toNat) (points : List Point3D) :
    addPixel k ⟨m.data.map (DepthMap.depthOf baseline focalLength), m.width, m.height⟩ points
      (UInt32.ofNat u) (UInt32.ofNat v) =
        .ok (points ++ pointsOf baseline focalLength k m [(u, v)]) := by
  have hu32 : (UInt32.ofNat u).toNat = u := UInt32.toNat_ofNat_of_lt' (hu.trans m.width.toNat_lt)
  have hv32 : (UInt32.ofNat v).toNat = v := UInt32.toNat_ofNat_of_lt' (hv.trans m.height.toNat_lt)
  have hindex : (UInt32.ofNat v * m.width + UInt32.ofNat u).toNat = v * m.width.toNat + u := by
    have := DisparityMap.toNat_index hlt (x := UInt32.ofNat u) (y := UInt32.ofNat v)
      (hu32.trans_lt hu) (hv32.trans_lt hv)
    rwa [hu32, hv32] at this
  have hinside : v * m.width.toNat + u < m.data.length :=
    hsize ▸ DisparityMap.index_lt hu hv
  have hread : read (m.data.map (DepthMap.depthOf baseline focalLength))
      (v * m.width.toNat + u) = .ok (DepthMap.depthOf baseline focalLength (m.at (u, v))) := by
    apply read_of_getElem?
    unfold DisparityMap.at
    rw [List.getElem?_map, List.getElem?_eq_getElem hinside, List.getD_eq_getElem _ _ hinside,
      Option.map_some]
  have hpos := depthOf_pos_iff hb hf (m.at (u, v))
  have hturn : addPixel k ⟨m.data.map (DepthMap.depthOf baseline focalLength), m.width, m.height⟩
      points (UInt32.ofNat u) (UInt32.ofNat v) =
        if DepthMap.depthOf baseline focalLength (m.at (u, v)) ≤ 0 then .ok points
        else .ok (points ++ [pointOf k (UInt32.ofNat u) (UInt32.ofNat v)
          (DepthMap.depthOf baseline focalLength (m.at (u, v)))]) := by
    unfold addPixel
    dsimp only
    rw [hindex, hread]
    rfl
  rw [hturn]
  unfold pointsOf
  by_cases h : 0 < m.at (u, v)
  · simp only [if_neg (not_le_of_gt (hpos.mpr h)), List.filter_cons, List.filter_nil,
      decide_eq_true h, if_true, List.map_cons, List.map_nil]
  · simp only [if_pos (not_lt.mp fun hz => h (hpos.mp hz)), List.filter_cons, List.filter_nil,
      decide_eq_false h, Bool.false_eq_true, if_false, List.map_nil, List.append_nil]

theorem generate_eq (hsize : m.data.length = m.width.toNat * m.height.toNat)
    (hlt : m.width.toNat * m.height.toNat < 2 ^ 32) (hb : 0 < baseline) (hf : 0 < focalLength)
    (cloud : PointCloud) :
    cloud.generate ⟨m.data.map (DepthMap.depthOf baseline focalLength), m.width, m.height⟩ k =
      .ok ⟨pointsOf baseline focalLength k m (pixels m.width m.height)⟩ := by
  have hrow : ∀ v ∈ List.range m.height.toNat, ∀ points : List Point3D,
      (List.range m.width.toNat).foldlM (fun points u =>
        addPixel k ⟨m.data.map (DepthMap.depthOf baseline focalLength), m.width, m.height⟩ points
          (UInt32.ofNat u) (UInt32.ofNat v)) points =
        .ok (points ++ pointsOf baseline focalLength k m
          ((List.range m.width.toNat).map fun u => (u, v))) := by
    intro v hv points
    have hloop := foldlM_append_ok (fun u => pointsOf baseline focalLength k m [(u, v)])
      (fun u hu points => addPixel_eq hsize hlt hb hf (List.mem_range.mp hu)
        (List.mem_range.mp hv) points) points
    rw [hloop, ← pointsOf_flatMap, List.map_eq_flatMap]
  have hloop := foldlM_append_ok (fun v => pointsOf baseline focalLength k m
    ((List.range m.width.toNat).map fun u => (u, v))) hrow cloud.clear.points
  rw [← pointsOf_flatMap] at hloop
  unfold generate
  dsimp only
  rw [hloop]
  rfl

theorem givesBack_pointOf (hb : 0 < baseline) (hf : 0 < focalLength) (hfx : k.fx ≠ 0)
    (hfy : k.fy ≠ 0) {px : ℕ × ℕ} (hpx : px ∈ pixels m.width m.height) (hpos : 0 < m.at px) :
    GivesBack baseline focalLength k m
      (pointOf k (UInt32.ofNat px.1) (UInt32.ofNat px.2)
        (DepthMap.depthOf baseline focalLength (m.at px))) px := by
  obtain ⟨hu, hv⟩ := mem_pixels.mp hpx
  have hu32 : (UInt32.ofNat px.1).toNat = px.1 :=
    UInt32.toNat_ofNat_of_lt' (hu.trans m.width.toNat_lt)
  have hv32 : (UInt32.ofNat px.2).toNat = px.2 :=
    UInt32.toNat_ofNat_of_lt' (hv.trans m.height.toNat_lt)
  have hz : DepthMap.depthOf baseline focalLength (m.at px) = baseline * focalLength / m.at px :=
    if_pos hpos
  have hz0 : baseline * focalLength / m.at px ≠ 0 := (div_pos (mul_pos hb hf) hpos).ne'
  have hback : ∀ f c w z : ℚ, f ≠ 0 → z ≠ 0 → w = f * ((w - c) * z / f) / z + c := by
    intro f c w z hf hz
    field_simp
    ring
  refine ⟨?_, ?_, ?_⟩
  · rw [hz]
    change _ = k.fx * (((UInt32.ofNat px.1).toNat - k.cx) * _ / k.fx) / _ + k.cx
    rw [hu32]
    exact hback k.fx k.cx px.1 _ hfx hz0
  · rw [hz]
    change _ = k.fy * (((UInt32.ofNat px.2).toNat - k.cy) * _ / k.fy) / _ + k.cy
    rw [hv32]
    exact hback k.fy k.cy px.2 _ hfy hz0
  · change _ = baseline * focalLength / DepthMap.depthOf baseline focalLength (m.at px)
    rw [hz, div_div_cancel₀ (mul_pos hb hf).ne']

/-- The points of a frame are those of its pixels of positive disparity, in their order, and
each gives back its pixel and disparity; nothing is left of earlier frames. -/
theorem generate_compute (hsize : m.data.length = m.width.toNat * m.height.toNat)
    (hlt : m.width.toNat * m.height.toNat < 2 ^ 32) (hb : 0 < baseline) (hf : 0 < focalLength)
    (hfx : k.fx ≠ 0) (hfy : k.fy ≠ 0) (depth : DepthMap) (cloud : PointCloud) :
    ∃ d c, depth.compute m baseline focalLength = .ok d ∧ cloud.generate d k = .ok c ∧
      List.Forall₂ (GivesBack baseline focalLength k m) c.points
        ((pixels m.width m.height).filter fun px => 0 < m.at px) := by
  have harea : m.data.length = (m.width * m.height).toNat :=
    hsize.trans (DisparityMap.toNat_area hlt).symm
  refine ⟨_, _, depth.compute_eq baseline focalLength harea,
    generate_eq hsize hlt hb hf cloud, ?_⟩
  unfold pointsOf
  dsimp only
  rw [List.forall₂_map_left_iff]
  apply List.forall₂_same.mpr
  intro px hpx
  obtain ⟨hin, hpos⟩ := List.mem_filter.mp hpx
  exact givesBack_pointOf hb hf hfx hfy hin (of_decide_eq_true hpos)

/-- Two pixels, of which one has no disparity, in objects that held more. -/
def pairMap : DisparityMap := ⟨[0, 1 / 2], 2, 1⟩

def heldDepth : DepthMap := ⟨[7, 7, 7], 3, 1⟩

def heldCloud : PointCloud := ⟨[⟨1, 2, 3⟩]⟩

theorem generate_compute_pair :
    ∃ d c, heldDepth.compute pairMap 2 3 = .ok d ∧
      heldCloud.generate d ⟨2, 2, 0, 0⟩ = .ok c ∧
      List.Forall₂ (GivesBack 2 3 ⟨2, 2, 0, 0⟩ pairMap) c.points
        ((pixels pairMap.width pairMap.height).filter fun px => 0 < pairMap.at px) :=
  generate_compute rfl (by decide) (by decide) (by decide) (by decide) (by decide) _ _

end PointCloud

end StereoCamera
