import Mathlib.Data.List.Dedup

/-! The types that every module shares (`common/Types.h`). -/

namespace StereoCamera

inductive DataType
  | stereoImage
  | depthMap
  | pointCloud
  | imu
  | disparityMap
  | confidenceMap
  | temperature
  | magnetometer
  | barometer
  deriving DecidableEq, Repr

/-- `static_cast<int>(type)`. -/
def DataType.toNat : DataType → ℕ
  | .stereoImage => 0
  | .depthMap => 1
  | .pointCloud => 2
  | .imu => 3
  | .disparityMap => 4
  | .confidenceMap => 5
  | .temperature => 6
  | .magnetometer => 7
  | .barometer => 8

inductive DataGroup
  | visualGeometric2D
  | visualGeometric3D
  | sensorTracking
  deriving DecidableEq, Repr

structure Timestamp where
  sec : Int64
  nsec : Int64
  deriving DecidableEq

structure DataBundle where
  timestamp : Timestamp
  type : DataType
  payload : List UInt8
  deriving DecidableEq

structure ChannelFrame where
  cameraId : String
  timestamp : Timestamp
  bundles : List DataBundle
  deriving DecidableEq

inductive ParameterType
  | integer
  | float
  | enum
  deriving DecidableEq, Repr

structure ParameterValue where
  intVal : Int32 := 0
  floatVal : Float := 0.0
  enumVal : List UInt8 := []
  type : ParameterType := .integer

/-- A code that comes from a camera is cast from any `int`. -/
inductive ResponseCode
  | success
  | error
  | notReady
  | alreadyInit
  | invalidParam
  | unavailable
  | unnamed (n : Int32)
  deriving DecidableEq, Repr

def ResponseCode.ofInt (n : Int32) : ResponseCode :=
  if n = 0 then .success
  else if n = 1 then .error
  else if n = 2 then .notReady
  else if n = 3 then .alreadyInit
  else if n = 4 then .invalidParam
  else if n = 5 then .unavailable
  else .unnamed n

def ResponseCode.toInt : ResponseCode → Int32
  | .success => 0
  | .error => 1
  | .notReady => 2
  | .alreadyInit => 3
  | .invalidParam => 4
  | .unavailable => 5
  | .unnamed n => n

def dataTypeToChannel : DataType → String
  | .stereoImage => "stereo_image"
  | .depthMap => "depth_map"
  | .pointCloud => "point_cloud"
  | .imu => "imu"
  | .disparityMap => "disparity_map"
  | .confidenceMap => "confidence_map"
  | .temperature => "temperature"
  | .magnetometer => "magnetometer"
  | .barometer => "barometer"

def dataTypeToGroup : DataType → DataGroup
  | .stereoImage | .depthMap => .visualGeometric2D
  | .pointCloud | .disparityMap | .confidenceMap => .visualGeometric3D
  | _ => .sensorTracking

theorem dataTypeToChannel_injective : Function.Injective dataTypeToChannel := by
  intro s t h
  cases s <;> cases t <;> first | rfl | exact absurd h (by decide)

theorem ResponseCode.toInt_ofInt (n : Int32) : (ofInt n).toInt = n := by
  unfold ofInt
  split_ifs <;> (subst_vars; rfl)

end StereoCamera
