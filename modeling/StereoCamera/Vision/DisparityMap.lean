import Mathlib.Data.Rat.Defs
import Mathlib.Algebra.Order.Ring.Unbundled.Rat
import StereoCamera.Lib.CheckedLoops

/-! Disparities by block matching (`vision/DisparityMap.cpp`). An `int` is an integer, as no
signed arithmetic overflows, except that a cast of a `uint32_t` wraps; `float` values are
rationals. An access outside a buffer or an image ends the run. -/

namespace StereoCamera

structure StereoImagePair where
  left : List UInt8
  right : List UInt8
  width : UInt32
  height : UInt32

structure DisparityConfig where
  maxDisparity : UInt32 := 64
  blockSize : UInt32 := 7
  subpixel : Bool := true

structure DisparityMap where
  data : List ℚ
  width : UInt32
  height : UInt32
  deriving DecidableEq

namespace DisparityMap

open CheckedList

def castInt (n : UInt32) : ℤ := n.toInt32.toInt

/-- `luma` is the weighted sum of red, green and blue, cut down to a byte. -/
def grayPixel (luma : UInt8 → UInt8 → UInt8 → UInt8) (bgra gray : List UInt8) (i : UInt32) :
    Except OutOfBounds (List UInt8) := do
  let p := (i * 4).toNat
  let r ← read bgra (p + 2)
  let g ← read bgra (p + 1)
  let b ← read bgra p
  write gray i.toNat (luma r g b)

/-- The weights of `to_gray` without rounding. -/
def weights (r g b : UInt8) : UInt8 :=
  UInt8.ofNat ((299 * r.toNat + 587 * g.toNat + 114 * b.toNat) / 1000)

def toGray (luma : UInt8 → UInt8 → UInt8 → UInt8) (bgra : List UInt8) (w h : UInt32) :
    Except OutOfBounds (List UInt8) :=
  (List.range (w * h).toNat).foldlM (fun gray i => grayPixel luma bgra gray (UInt32.ofNat i))
    (List.replicate (w * h).toNat 0)

def offsets (half : ℤ) : List ℤ := (List.range (2 * half + 1).toNat).map fun k : ℕ => (k : ℤ) - half

def sadTerm (leftGray rightGray : List UInt8) (w : UInt32) (ry rx rxr : ℤ)
    (acc : UInt32 × UInt32) : Except OutOfBounds (UInt32 × UInt32) := do
  let l ← read leftGray (UInt32.ofInt ry * w + UInt32.ofInt rx).toNat
  let r ← read rightGray (UInt32.ofInt ry * w + UInt32.ofInt rxr).toNat
  let diff : ℤ := (l.toNat : ℤ) - r.toNat
  return (acc.1 + UInt32.ofInt |diff|, acc.2 + 1)

def sadRow (leftGray rightGray : List UInt8) (w : UInt32) (half x d ry : ℤ)
    (acc : UInt32 × UInt32) : Except OutOfBounds (UInt32 × UInt32) :=
  (offsets half).foldlM (fun acc dx =>
    let rx := x + dx
    let rxr := rx - d
    if rx < 0 ∨ castInt w ≤ rx ∨ rxr < 0 ∨ castInt w ≤ rxr then .ok acc
    else sadTerm leftGray rightGray w ry rx rxr acc) acc

def sadSum (leftGray rightGray : List UInt8) (w h : UInt32) (half x y d : ℤ) :
    Except OutOfBounds (UInt32 × UInt32) :=
  (offsets half).foldlM (fun acc dy =>
    let ry := y + dy
    if ry < 0 ∨ castInt h ≤ ry then .ok acc
    else sadRow leftGray rightGray w half x d ry acc) (0, 0)

/-- `max_disp`, the last argument of the source, is not used there. -/
def computeSad (leftGray rightGray : List UInt8) (w h : UInt32) (x y d : ℤ) (block : UInt32) :
    Except OutOfBounds ℚ := do
  let half := castInt (block / 2)
  let (sad, count) ← sadSum leftGray rightGray w h half x y d
  return if 0 < count then (sad.toNat : ℚ) / count.toNat else 10 ^ 30

structure Best where
  bestCost : ℚ := 10 ^ 30
  bestDisp : ℚ := 0
  prevCost : ℚ := 10 ^ 30
  nextCost : ℚ := 10 ^ 30

def Best.candidate (sad : UInt32 → Except OutOfBounds ℚ) (maxDisp : UInt32) (best : Best)
    (d : UInt32) : Except OutOfBounds Best := do
  let cost ← sad d
  if cost < best.bestCost then
    let prevCost ← (if 0 < d then sad (d - 1) else .ok best.prevCost)
    let nextCost ← (if d < maxDisp - 1 then sad (d + 1) else .ok best.nextCost)
    return ⟨cost, d.toNat, prevCost, nextCost⟩
  else
    return best

def search (sad : UInt32 → Except OutOfBounds ℚ) (maxDisp : UInt32) : Except OutOfBounds Best :=
  (List.range maxDisp.toNat).foldlM
    (fun best d => best.candidate sad maxDisp (UInt32.ofNat d)) {}

def Best.refined (best : Best) (subpixel : Bool) (maxDisp : UInt32) : ℚ :=
  if subpixel ∧ 0 < best.bestDisp ∧ best.bestDisp < (maxDisp - 1).toNat then
    let denom := best.prevCost - 2 * best.bestCost + best.nextCost
    if 1 / 10 ^ 6 < |denom| then
      best.bestDisp - (best.prevCost - best.nextCost) / (2 * denom)
    else best.bestDisp
  else best.bestDisp

end DisparityMap

namespace DisparityConfig

def block (config : DisparityConfig) : UInt32 := max config.blockSize 1

def maxDisp (config : DisparityConfig) (width : UInt32) : UInt32 :=
  min config.maxDisparity width

def half (config : DisparityConfig) : ℤ := DisparityMap.castInt (config.block / 2)

end DisparityConfig

namespace DisparityMap

open CheckedList

/-- The pixels that `compute` leaves at 0. -/
def isBorder (config : DisparityConfig) (width height x y : UInt32) : Bool :=
  x < UInt32.ofInt config.half + config.maxDisp width ∨ x ≥ width - UInt32.ofInt config.half ∨
    y < UInt32.ofInt config.half ∨ y ≥ height - UInt32.ofInt config.half

def pixelSad (config : DisparityConfig) (leftGray rightGray : List UInt8)
    (width height x y d : UInt32) : Except OutOfBounds ℚ :=
  computeSad leftGray rightGray width height (castInt x) (castInt y) (castInt d) config.block

def computePixel (config : DisparityConfig) (leftGray rightGray : List UInt8)
    (width height x y : UInt32) (data : List ℚ) : Except OutOfBounds (List ℚ) :=
  if isBorder config width height x y then .ok data
  else do
    let best ← search (pixelSad config leftGray rightGray width height x y) (config.maxDisp width)
    write data (y * width + x).toNat (best.refined config.subpixel (config.maxDisp width))

/-- What the map held before is gone. -/
def compute (luma : UInt8 → UInt8 → UInt8 → UInt8) (pair : StereoImagePair)
    (config : DisparityConfig) : Except OutOfBounds DisparityMap := do
  let width := pair.width
  let height := pair.height
  let data := List.replicate (width * height).toNat (0 : ℚ)
  if pair.left.length < (width * height * 4).toNat ∨
      pair.right.length < (width * height * 4).toNat then
    return ⟨data, width, height⟩
  let leftGray ← toGray luma pair.left width height
  let rightGray ← toGray luma pair.right width height
  let data ← (List.range height.toNat).foldlM (fun data y =>
    (List.range width.toNat).foldlM (fun data x =>
      computePixel config leftGray rightGray width height (UInt32.ofNat x) (UInt32.ofNat y) data)
      data) data
  return ⟨data, width, height⟩

end DisparityMap

end StereoCamera
