import StereoCamera.Common.Response
import StereoCamera.Data.SDKSlotManager

/-! The requests of `CameraSDKClient` (`api/CameraSDKClient.cpp`) whose answer is used: those
for parameters. -/

namespace StereoCamera

/-- What the libraries answer. `parse` and `print` are those of `nlohmann::json`; `curl` is
`none` where `curl_easy_init` fails, and gives the data received or the text of the error. -/
structure Libraries where
  parse : Bytes → Except JsonException Json
  print : Json → Bytes
  curl : Option (String → Bytes → Except String Bytes)

/-- `nlohmann::json` accepts no string that is not valid UTF-8. -/
structure Libraries.Documented (lib : Libraries) : Prop where
  valid : ∀ text j, lib.parse text = .ok j → j.ValidUtf8

namespace CameraSDKClient

/-- The `try` block of `http_post`. -/
def readResponse (lib : Libraries) (responseData : Bytes) : Except JsonException Response := do
  let respJson ← lib.parse responseData
  let code ← respJson.valueWith Json.getInt "code" 1
  let message ← respJson.value "message" []
  let detail ← respJson.valueWith .ok "detail" (.object [])
  return ⟨.ofInt code, message, detail⟩

def httpPost (lib : Libraries) (c : CameraSDKClient) (endpoint : String) (body : Json) :
    Except JsonException Response := do
  let jsonStr ← body.dump lib.print
  match lib.curl with
  | none => return makeResponse .error "CURL not initialized"
  | some perform =>
    match perform (c.baseUrl ++ endpoint) jsonStr with
    | .error text => return makeResponse .error text
    | .ok responseData =>
      match readResponse lib responseData with
      | .ok result => return result
      | .error e => return ⟨.error, bytes "Parse error: " ++ e.what, .object []⟩

def parameterJson (value : ParameterValue) : Json :=
  match value.type with
  | .enum => .string value.enumVal
  | .float => .float value.floatVal
  | .integer => .integer value.intVal.toInt

def setParameterBody (name : Bytes) (value : ParameterValue) : Json :=
  .object [("command", .string (bytes "set_parameter")), ("name", .string name),
    ("value", parameterJson value)]

def getParameterBody (name : Bytes) : Json :=
  .object [("command", .string (bytes "get_parameter")), ("name", .string name)]

def setParameter (lib : Libraries) (c : CameraSDKClient) (name : Bytes) (value : ParameterValue) :
    Except JsonException Response :=
  c.httpPost lib "/api/set_parameter" (setParameterBody name value)

def getParameter (lib : Libraries) (c : CameraSDKClient) (name : Bytes) :
    Except JsonException Response :=
  c.httpPost lib "/api/get_parameter" (getParameterBody name)

end CameraSDKClient

end StereoCamera
