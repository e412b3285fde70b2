import StereoCamera.Common.Json

/-! `Response` (`common/Response.h`). -/

namespace StereoCamera

structure Response where
  code : ResponseCode
  message : Bytes
  detail : Json

def makeResponse (code : ResponseCode) (message : String) : Response :=
  ⟨code, bytes message, .object []⟩

end StereoCamera
