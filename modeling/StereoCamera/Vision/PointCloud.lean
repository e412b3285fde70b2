import StereoCamera.Vision.DisparityMap

/-! Depths from disparities and points from depths (`vision/DepthMap.cpp`,
`vision/PointCloud.cpp`), with rationals for `float` values. Both objects are used again for
the next frame. -/

namespace StereoCamera

open CheckedList

structure DepthMap where
  data : List ℚ
  width : UInt32
  height : UInt32

structure Point3D where
  x : ℚ
  y : ℚ
  z : ℚ
  deriving DecidableEq

structure PointCloud where
  points : List Point3D

namespace DepthMap

/-- `data_.resize(n)`: what was there stays, and what is new is 0. -/
def resize (data : List ℚ) (n : ℕ) : List ℚ := data.take n ++ List.replicate (n - data.length) 0

def depthOf (baseline focalLength disparity : ℚ) : ℚ :=
  if 0 < disparity then baseline * focalLength / disparity else 0

def compute (depth : DepthMap) (disparity : DisparityMap) (baseline focalLength : ℚ) :
    Except OutOfBounds DepthMap := do
  let width := disparity.width
  let height := disparity.height
  let data ← (List.range disparity.data.length).foldlM (fun data i => do
    let disp ← read disparity.data i
    write data i (depthOf baseline focalLength disp)) (resize depth.data (width * height).toNat)
  return ⟨data, width, height⟩

end DepthMap

namespace PointCloud

/-- The camera's matrix without its zeros. -/
structure Intrinsics where
  fx : ℚ
  fy : ℚ
  cx : ℚ
  cy : ℚ

def clear (_cloud : PointCloud) : PointCloud := ⟨[]⟩

def pointOf (k : Intrinsics) (u v : UInt32) (z : ℚ) : Point3D :=
  ⟨(u.toNat - k.cx) * z / k.fx, (v.toNat - k.cy) * z / k.fy, z⟩

def addPixel (k : Intrinsics) (depth : DepthMap) (points : List Point3D) (u v : UInt32) :
    Except OutOfBounds (List Point3D) := do
  let z ← read depth.data (v * depth.width + u).toNat
  if z ≤ 0 then return points
  else return points ++ [pointOf k u v z]

def generate (cloud : PointCloud) (depth : DepthMap) (k : Intrinsics) :
    Except OutOfBounds PointCloud := do
  let points ← (List.range depth.height.toNat).foldlM (fun points v =>
    (List.range depth.width.toNat).foldlM (fun points u =>
      addPixel k depth points (UInt32.ofNat u) (UInt32.ofNat v)) points) cloud.clear.points
  return ⟨points⟩

end PointCloud

end StereoCamera
