import StereoCamera.Calibration.Calibration3D
import StereoCamera.Data.ConfigManager

/-! Calibrations in files (`to_json`, `from_json`, `save` and `load` of
`calibration/Calibration2D.cpp` and `calibration/Calibration3D.cpp`). -/

namespace StereoCamera

def Json.ofDoubles (xs : List Float) : Json := .array (xs.map .float)

/-- `get<std::vector<double>>()` -/
def Json.getDoubles : Json → Except JsonException (List Float)
  | .array elements => elements.mapM Json.getDouble
  | j => .error (.typeError 302 ("type must be array, but is " ++ j.typeName))

theorem Json.getDoubles_ofDoubles (xs : List Float) : (Json.ofDoubles xs).getDoubles = .ok xs := by
  change (xs.map Json.float).mapM Json.getDouble = .ok xs
  induction xs with
  | nil => rfl
  | cons x xs ih =>
    rw [List.map_cons, List.mapM_cons, ih]
    rfl

theorem Json.validUtf8_ofDoubles (xs : List Float) : (Json.ofDoubles xs).ValidUtf8 := by
  refine Json.allValidUtf8_iff.mpr fun j hj => ?_
  obtain ⟨x, -, rfl⟩ := List.mem_map.mp hj
  trivial

namespace CalibrationParams2D

def toJson (p : CalibrationParams2D Float) : Json :=
  .object [("cx", .float p.cx), ("cy", .float p.cy), ("distortion", .ofDoubles p.distortion),
    ("fx", .float p.fx), ("fy", .float p.fy)]

def fromJson (j : Json) : Except JsonException (CalibrationParams2D Float) := do
  let fx ← j.valueWith Json.getDouble "fx" 0
  let fy ← j.valueWith Json.getDouble "fy" 0
  let cx ← j.valueWith Json.getDouble "cx" 0
  let cy ← j.valueWith Json.getDouble "cy" 0
  let distortion ← j.valueWith Json.getDoubles "distortion" []
  return ⟨fx, fy, cx, cy, distortion⟩

theorem fromJson_toJson (p : CalibrationParams2D Float) : fromJson p.toJson = .ok p := by
  have hdistortion : p.toJson.valueWith Json.getDoubles "distortion" [] = .ok p.distortion :=
    Json.getDoubles_ofDoubles p.distortion
  unfold fromJson
  rw [hdistortion]
  rfl

theorem validUtf8_toJson (p : CalibrationParams2D Float) : p.toJson.ValidUtf8 :=
  ⟨trivial, trivial, Json.validUtf8_ofDoubles _, trivial, trivial, trivial⟩

end CalibrationParams2D

namespace StereoCalibrationParams

def identity : List Float := [1, 0, 0, 0, 1, 0, 0, 0, 1]

/-- The first `n` of the numbers, as far as there are so many; the size of what is read is cast
to an `int`. -/
def fill {n : ℕ} (initial read : List Float) : Vector Float n :=
  .ofFn fun i => if (i : ℤ) < Int.bmod read.length (2 ^ 32) then read.getD i 0 else initial.getD i 0

def toJson (p : StereoCalibrationParams Float) : Json :=
  .object [("R", .ofDoubles p.R.toList), ("T", .ofDoubles p.T.toList), ("left", p.left.toJson),
    ("right", p.right.toJson)]

def fromJson (j : Json) : Except JsonException (StereoCalibrationParams Float) := do
  let left ← CalibrationParams2D.fromJson (← j.valueWith .ok "left" (.object []))
  let right ← CalibrationParams2D.fromJson (← j.valueWith .ok "right" (.object []))
  let R ← j.valueWith Json.getDoubles "R" identity
  let T ← j.valueWith Json.getDoubles "T" [0, 0, 0]
  return ⟨left, right, fill identity R, fill [0, 0, 0] T⟩

theorem fill_toList {n : ℕ} (hn : n < 2 ^ 31) (initial : List Float) (v : Vector Float n) :
    fill initial v.toList = v := by
  have hsize : Int.bmod v.toList.length (2 ^ 32) = n := by
    rw [Vector.length_toList]
    exact Int.bmod_eq_of_le_mul_two (by omega) (by push_cast; omega)
  apply Vector.ext
  intro i hi
  rw [fill, Vector.getElem_ofFn, hsize, if_pos (Int.ofNat_lt.mpr hi), List.getD_eq_getElem?_getD,
    Vector.getElem?_toList, Vector.getElem?_eq_getElem hi]
  rfl

theorem fromJson_toJson (p : StereoCalibrationParams Float) : fromJson p.toJson = .ok p := by
  have hR : p.toJson.valueWith Json.getDoubles "R" identity = .ok p.R.toList :=
    Json.getDoubles_ofDoubles _
  have hT : p.toJson.valueWith Json.getDoubles "T" [0, 0, 0] = .ok p.T.toList :=
    Json.getDoubles_ofDoubles _
  have hleft : p.toJson.valueWith .ok "left" (.object []) = .ok p.left.toJson := rfl
  have hright : p.toJson.valueWith .ok "right" (.object []) = .ok p.right.toJson := rfl
  unfold fromJson
  rw [hR, hT, hleft, hright]
  change (do
    let left ← CalibrationParams2D.fromJson p.left.toJson
    let right ← CalibrationParams2D.fromJson p.right.toJson
    return (⟨left, right, fill identity p.R.toList, fill [0, 0, 0] p.T.toList⟩ :
      StereoCalibrationParams Float)) = Except.ok p
  rw [CalibrationParams2D.fromJson_toJson, CalibrationParams2D.fromJson_toJson,
    fill_toList (by decide), fill_toList (by decide)]
  rfl

theorem validUtf8_toJson (p : StereoCalibrationParams Float) : p.toJson.ValidUtf8 :=
  ⟨Json.validUtf8_ofDoubles _, Json.validUtf8_ofDoubles _, p.left.validUtf8_toJson,
    p.right.validUtf8_toJson, trivial⟩

end StereoCalibrationParams

/-- What `save` of either class does: opening the file empties it, before `dump` is called. -/
def saveJson (print : Json → Bytes) (j : Json) (fs : FileSystem) (path : String) :
    Except JsonException Bool × FileSystem :=
  if ¬fs.writable path then (.ok false, fs)
  else
    match j.dump print with
    | .error e => (.error e, fs.write path [])
    | .ok text => (.ok true, fs.write path text)

/-- What `load` of either class reads; every exception is caught. -/
def loadJson {α : Type} (parse : Bytes → Except JsonException Json)
    (fromJson : Json → Except JsonException α) (fs : FileSystem) (path : String) : Option α :=
  (fs.contents path).bind fun text => (parse text >>= fromJson).toOption

theorem saveJson_of_validUtf8 {print : Json → Bytes} {j : Json} (hj : j.ValidUtf8)
    {fs : FileSystem} {path : String} (hwritable : fs.writable path = true) :
    saveJson print j fs path = (.ok true, fs.write path (print j)) := by
  -- There is no text in a calibration that could not be written.
  have hdump : j.dump print = .ok (print j) := if_pos hj
  unfold saveJson
  rw [if_neg (not_not_intro hwritable), hdump]

theorem loadJson_write {α : Type} {parse : Bytes → Except JsonException Json}
    {fromJson : Json → Except JsonException α} (fs : FileSystem) (path : String) {text : Bytes}
    {j : Json} (hparse : parse text = .ok j) {p : α} (hread : fromJson j = .ok p) :
    loadJson parse fromJson (fs.write path text) path = some p := by
  have hcontents : (fs.write path text).contents path = some text := Function.update_self ..
  unfold loadJson
  rw [hcontents, Option.bind_some, hparse]
  change (fromJson j).toOption = _
  rw [hread]
  rfl

namespace Calibration2D

def save (print : Json → Bytes) (cal : Calibration2D Float) (fs : FileSystem) (path : String) :
    Except JsonException Bool × FileSystem := saveJson print cal.params.toJson fs path

def load (parse : Bytes → Except JsonException Json) (cal : Calibration2D Float) (fs : FileSystem)
    (path : String) : Bool × Calibration2D Float :=
  match loadJson parse CalibrationParams2D.fromJson fs path with
  | none => (false, cal)
  | some p => (true, ⟨p⟩)

theorem load_saved (cal held : Calibration2D Float) {parse : Bytes → Except JsonException Json}
    {print : Json → Bytes} {fs : FileSystem} {path : String}
    (hlossless : parse (print cal.params.toJson) = .ok cal.params.toJson)
    (hwritable : fs.writable path = true) :
    ∃ fs', cal.save print fs path = (.ok true, fs') ∧ held.load parse fs' path = (true, cal) := by
  refine ⟨_, saveJson_of_validUtf8 cal.params.validUtf8_toJson hwritable, ?_⟩
  unfold load
  rw [loadJson_write fs path hlossless (CalibrationParams2D.fromJson_toJson _)]

end Calibration2D

namespace Calibration3D

def save (print : Json → Bytes) (cal : Calibration3D Float) (fs : FileSystem) (path : String) :
    Except JsonException Bool × FileSystem := saveJson print cal.params.toJson fs path

def load (parse : Bytes → Except JsonException Json) (cal : Calibration3D Float) (fs : FileSystem)
    (path : String) : Bool × Calibration3D Float :=
  match loadJson parse StereoCalibrationParams.fromJson fs path with
  | none => (false, cal)
  | some p => (true, ⟨p⟩)

theorem load_cases (parse : Bytes → Except JsonException Json) (fs : FileSystem) (path : String) :
    (∀ held : Calibration3D Float, held.load parse fs path = (false, held)) ∨
      ∃ cal, ∀ held : Calibration3D Float, held.load parse fs path = (true, cal) := by
  unfold load
  cases loadJson parse StereoCalibrationParams.fromJson fs path with
  | none => exact .inl fun held => rfl
  | some p => exact .inr ⟨⟨p⟩, fun held => rfl⟩

/-- Any file that `load` accepts, also one with members missing or with too few or too many
numbers, gives a calibration that is the same after it was saved and loaded again, into whatever
object; and other files give what they gave. The library promises that finite numbers are read
as they were written. -/
theorem load_saved_of_load {parse : Bytes → Except JsonException Json} {print : Json → Bytes}
    {fs : FileSystem} {path saved : String} {held cal : Calibration3D Float}
    (hload : held.load parse fs path = (true, cal))
    (hlossless : parse (print cal.params.toJson) = .ok cal.params.toJson)
    (hwritable : fs.writable saved = true) :
    ∃ fs', cal.save print fs saved = (.ok true, fs') ∧
      (∀ other : Calibration3D Float, other.load parse fs' saved = (true, cal) ∧
        other.load parse fs path = (true, cal)) ∧
      ∀ file, file ≠ saved → ∀ other : Calibration3D Float,
        other.load parse fs' file = other.load parse fs file := by
  refine ⟨_, saveJson_of_validUtf8 cal.params.validUtf8_toJson hwritable,
    fun other => ⟨?_, ?_⟩, fun file hfile other => ?_⟩
  · unfold load
    rw [loadJson_write fs saved hlossless (StereoCalibrationParams.fromJson_toJson _)]
  · rcases load_cases parse fs path with hall | ⟨cal', hall⟩
    · exact absurd (congrArg Prod.fst ((hall held).symm.trans hload)) Bool.false_ne_true
    · rw [hall other, ← hall held, hload]
  · have hcontents : (fs.write saved (print cal.params.toJson)).contents file = fs.contents file :=
      Function.update_of_ne hfile _ _
    unfold load loadJson
    rw [hcontents]

/-- A file with nothing but a rotation that is cut short. -/
def shortRotation : Json := .object [("R", .ofDoubles [0, 1])]

def shortCalibration : Calibration3D Float :=
  ⟨⟨⟨0, 0, 0, 0, []⟩, ⟨0, 0, 0, 0, []⟩, #v[0, 1, 0, 0, 1, 0, 0, 0, 1], #v[0, 0, 0]⟩⟩

def shortPrint (_ : Json) : Bytes := [1]

/-- With `shortPrint`, a library that knows the two texts of the example. -/
def shortParse (text : Bytes) : Except JsonException Json :=
  if text = [0] then .ok shortRotation else .ok shortCalibration.params.toJson

theorem load_saved_of_load_short :
    ∃ fs', shortCalibration.save shortPrint ⟨fun _ => some [0], fun _ => true⟩ "stereo.json" =
        (.ok true, fs') ∧
      ∀ other : Calibration3D Float,
        other.load shortParse fs' "stereo.json" = (true, shortCalibration) := by
  let fs : FileSystem := ⟨fun _ => some [0], fun _ => true⟩
  have hload : shortCalibration.load shortParse fs "stereo.json" = (true, shortCalibration) := rfl
  have hlossless : shortParse (shortPrint shortCalibration.params.toJson) =
      .ok shortCalibration.params.toJson := rfl
  have hwritable : fs.writable "stereo.json" = true := rfl
  obtain ⟨fs', hsave, hsaved, -⟩ := load_saved_of_load hload hlossless hwritable
  exact ⟨fs', hsave, fun other => (hsaved other).1⟩

end Calibration3D

end StereoCamera
