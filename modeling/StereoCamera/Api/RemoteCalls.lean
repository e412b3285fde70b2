import StereoCamera.Api.ForwardedParameter
import StereoCamera.Api.RequestChunks
import StereoCamera.Common.HttpReply
import StereoCamera.Lib.CheckedLoops

/-! The two ends of the command protocol: what `CameraSDKClient` asks for and what an
`AdminServer` at the other end makes of it. -/

namespace StereoCamera

namespace CameraSDKClient

inductive Call
  | init
  | dispose
  | connect
  | disconnect
  | startCapture (types : List DataType)
  | stopCapture (types : List DataType)
  | activateChannel (channelName : Bytes)
  | deactivateChannel (channelName : Bytes)
  | startCaptureByChannels (channels : List Bytes)
  | stopCaptureByChannels (channels : List Bytes)
  | checkStatus
  | setParameter (name : Bytes) (value : ParameterValue)
  | getParameter (name : Bytes)

namespace Call

def command : Call → String
  | .init => "init"
  | .dispose => "dispose"
  | .connect => "connect"
  | .disconnect => "disconnect"
  | .startCapture _ | .startCaptureByChannels _ => "start_capture"
  | .stopCapture _ | .stopCaptureByChannels _ => "stop_capture"
  | .activateChannel _ => "activate_channel"
  | .deactivateChannel _ => "deactivate_channel"
  | .checkStatus => "check_status"
  | .setParameter _ _ => "set_parameter"
  | .getParameter _ => "get_parameter"

def endpoint (k : Call) : String := "/api/" ++ k.command

def names (types : List DataType) : Json :=
  .array (types.map fun t => .string (bytes (dataTypeToChannel t)))

def arguments : Call → List (String × Json)
  | .startCapture types | .stopCapture types => [("data_types", names types)]
  | .startCaptureByChannels channels | .stopCaptureByChannels channels =>
    [("data_types", .array (channels.map .string))]
  | .activateChannel name | .deactivateChannel name => [("data_type", .string name)]
  | .setParameter name value => [("name", .string name), ("value", parameterJson value)]
  | .getParameter name => [("name", .string name)]
  | _ => []

def body (k : Call) : Json := .object (("command", .string (bytes k.command)) :: k.arguments)

end Call

def call (lib : Libraries) (c : CameraSDKClient) (k : Call) : Except JsonException Response :=
  c.httpPost lib k.endpoint k.body

end CameraSDKClient

open CameraSDKClient

def typesOfNames (channels : List Bytes) : List DataType :=
  channels.map fun name => Json.getDataType (.string name)

/-- The method of the handler that answers the call. The requests name no client, and there is
no command for a single channel. -/
def ClientHandler.handleCall (lib : Libraries) (att : Attached) (h : ClientHandler) :
    Call → Except JsonException (ClientHandler × Response)
  | .init => .ok (h, h.handleInit "default")
  | .dispose => .ok (h, h.handleDispose "default")
  | .connect => .ok (h.handleConnect "default")
  | .disconnect => .ok (h.handleDisconnect "default")
  | .startCapture types => .ok (h.handleStartCapture "default" types)
  | .stopCapture types => .ok (h.handleStopCapture "default" types)
  | .startCaptureByChannels channels =>
    .ok (h.handleStartCapture "default" (typesOfNames channels))
  | .stopCaptureByChannels channels => .ok (h.handleStopCapture "default" (typesOfNames channels))
  | .activateChannel _ => .ok (h, makeResponse .error "Unknown command: activate_channel")
  | .deactivateChannel _ => .ok (h, makeResponse .error "Unknown command: deactivate_channel")
  | .checkStatus => .ok (h, h.handleCheckStatus att "default")
  | .setParameter name value =>
    (h.handleSetParameter lib "default" name value).map fun resp => (h, resp)
  | .getParameter name => (h.handleGetParameter lib "default" name).map fun resp => (h, resp)

/-- The library reads the object that it wrote. -/
structure Libraries.ReadsBack (lib : Libraries) (j : Json) : Prop where
  parse : lib.parse (lib.print j) = .ok j
  brace : AdminServer.isJsonBody (lib.print j) = true

/-- The code is named if it has a name, as every code is that was read as a number. -/
def ResponseCode.Canonical (code : ResponseCode) : Prop := .ofInt code.toInt = code

theorem ResponseCode.canonical_ofInt (n : Int32) : (ofInt n).Canonical := by
  unfold Canonical
  rw [toInt_ofInt]

theorem CameraSDKClient.canonical_of_httpPost {lib : Libraries} {c : CameraSDKClient}
    {endpoint : String} {body : Json} {resp : Response}
    (h : c.httpPost lib endpoint body = .ok resp) : resp.code.Canonical := by
  unfold httpPost at h
  rcases hdump : body.dump lib.print with e | jsonStr
  · rw [hdump] at h
    cases h
  rw [hdump, ok_bind] at h
  split at h
  · cases h
    rfl
  · split at h
    · cases h
      rfl
    · split at h
      · next hread =>
        obtain rfl := Except.ok.inj h
        unfold readResponse at hread
        simp only [bind, Except.bind, pure, Except.pure] at hread
        split at hread
        · cases hread
        split at hread
        · cases hread
        split at hread
        · cases hread
        split at hread
        · cases hread
        obtain rfl := Except.ok.inj hread
        exact ResponseCode.canonical_ofInt _
      · cases h
        rfl

namespace ClientHandler

theorem canonical_refusal {h : ClientHandler} {clientId : String} {refusal : Response}
    (hrefusal : h.cameraClient clientId = .error refusal) : refusal.code.Canonical := by
  unfold cameraClient at hrefusal
  repeat' split at hrefusal
  all_goals
    cases hrefusal
    try rfl

theorem canonical_of_handleCall {lib : Libraries} {att : Attached} {h h' : ClientHandler}
    {k : Call} {resp : Response} (hhandle : h.handleCall lib att k = .ok (h', resp)) :
    resp.code.Canonical := by
  have hsnd : ∀ {p : ClientHandler × Response},
      (.ok p : Except JsonException (ClientHandler × Response)) = .ok (h', resp) →
      p.2.code.Canonical → resp.code.Canonical := by
    intro p hp hcode
    rwa [Except.ok.inj hp] at hcode
  have hstart : ∀ types, (h.handleStartCapture "default" types).2.code.Canonical := by
    intro types
    unfold handleStartCapture
    repeat' split
    all_goals
      dsimp only
      try split_ifs
      all_goals rfl
  have hstop : ∀ types, (h.handleStopCapture "default" types).2.code.Canonical := by
    intro types
    unfold handleStopCapture
    repeat' split
    all_goals rfl
  cases k with
  | startCapture types =>
    exact hsnd hhandle (hstart types)
  | startCaptureByChannels channels =>
    exact hsnd hhandle (hstart _)
  | stopCapture types =>
    exact hsnd hhandle (hstop types)
  | stopCaptureByChannels channels =>
    exact hsnd hhandle (hstop _)
  | connect =>
    have hconnect : (h.handleConnect "default").2.code.Canonical := by
      unfold handleConnect
      dsimp only
      split_ifs <;> rfl
    exact hsnd hhandle hconnect
  | disconnect =>
    have hdisconnect : (h.handleDisconnect "default").2.code.Canonical := by
      unfold handleDisconnect
      split <;> rfl
    exact hsnd hhandle hdisconnect
  | setParameter name value =>
    obtain ⟨r, hr, heq⟩ := CheckedLoop.exists_of_map_eq_ok hhandle
    cases heq
    unfold handleSetParameter at hr
    rcases hclient : h.cameraClient "default" with refusal | client
    · rw [hclient] at hr
      cases hr
      exact canonical_refusal hclient
    · rw [hclient] at hr
      obtain ⟨r', hr', heq⟩ := CheckedLoop.exists_of_bind_eq_ok hr
      cases heq
      have hcode : r'.code.Canonical := CameraSDKClient.canonical_of_httpPost hr'
      exact hcode
  | getParameter name =>
    obtain ⟨r, hr, heq⟩ := CheckedLoop.exists_of_map_eq_ok hhandle
    cases heq
    unfold handleGetParameter at hr
    rcases hclient : h.cameraClient "default" with refusal | client
    · rw [hclient] at hr
      cases hr
      exact canonical_refusal hclient
    · rw [hclient] at hr
      exact CameraSDKClient.canonical_of_httpPost hr
  | _ =>
    cases hhandle
    rfl

end ClientHandler

namespace AdminServer

section
variable {lib : Libraries} {att : Attached} {h h' : ClientHandler} {k : Call} {resp : Response}

theorem commandOf_body (hread : lib.ReadsBack k.body) (path : Bytes) :
    commandOf lib path (lib.print k.body) = bytes k.command := by
  unfold commandOf
  simp only [hread.brace, hread.parse, if_true]
  rfl

theorem readBody_body (hread : lib.ReadsBack k.body) :
    readBody lib (lib.print k.body) = .ok (k.body, bytes "default") := by
  have hclient : k.body.value "client_id" (bytes "default") = .ok (bytes "default") := by
    cases k <;> rfl
  unfold readBody
  rw [if_pos hread.brace, hread.parse, ok_bind, hclient]
  rfl

theorem dataTypes_names (types : List DataType) (command : Json) :
    dataTypes (.object [("command", command), ("data_types", Call.names types)]) = types := by
  show (types.map fun t => Json.string (bytes (dataTypeToChannel t))).map Json.getDataType = types
  rw [List.map_map]
  refine (List.map_congr_left fun t _ => ?_).trans (List.map_id types)
  exact Json.getDataType_channel t

theorem dataTypes_channels (channels : List Bytes) (command : Json) :
    dataTypes (.object [("command", command), ("data_types", .array (channels.map .string))]) =
      typesOfNames channels := by
  show (channels.map Json.string).map Json.getDataType = _
  rw [List.map_map]
  rfl

theorem parameterJson_value (name : Json) (value : ParameterValue) (command : Json) :
    parameterJson (parameterValue (.object [("command", command), ("name", name),
      ("value", parameterJson value)])) = parameterJson value := by
  have hitem : (Json.object [("command", command), ("name", name),
      ("value", parameterJson value)]).item "value" = parameterJson value := rfl
  have hcontains : (Json.object [("command", command), ("name", name),
      ("value", parameterJson value)]).contains "value" = true := rfl
  unfold parameterValue
  rw [if_pos hcontains, hitem]
  unfold parameterJson
  cases value.type with
  | enum => rfl
  | float => rfl
  | integer => simp

theorem handleSetParameter_congr {name : Bytes} {value value' : ParameterValue}
    (hvalue : parameterJson value = parameterJson value') (clientId : String) :
    h.handleSetParameter lib clientId name value =
      h.handleSetParameter lib clientId name value' := by
  unfold ClientHandler.handleSetParameter setParameter setParameterBody
  rw [hvalue]

theorem dispatch_body (k : Call) :
    dispatch lib att h (bytes k.command) k.body "default" = h.handleCall lib att k := by
  cases k with
  | startCapture types =>
    exact congrArg (fun types => Except.ok (h.handleStartCapture "default" types))
      (dataTypes_names types _)
  | stopCapture types =>
    exact congrArg (fun types => Except.ok (h.handleStopCapture "default" types))
      (dataTypes_names types _)
  | startCaptureByChannels channels =>
    exact congrArg (fun types => Except.ok (h.handleStartCapture "default" types))
      (dataTypes_channels channels _)
  | stopCaptureByChannels channels =>
    exact congrArg (fun types => Except.ok (h.handleStopCapture "default" types))
      (dataTypes_channels channels _)
  | setParameter name value =>
    have hname : (Call.setParameter name value).body.value "name" [] = .ok name := rfl
    apply (dispatch_setParameter hname).trans
    apply congrArg (Except.map fun resp => (h, resp))
    exact handleSetParameter_congr (parameterJson_value _ value _) "default"
  | getParameter name =>
    show (do return (h, ← h.handleGetParameter lib "default" name)) =
      (h.handleGetParameter lib "default" name).map fun resp => (h, resp)
    cases h.handleGetParameter lib "default" name <;> rfl
  | _ => rfl

def reply (jsonStr : Bytes) : Http.Reply where
  statusLine := bytes "HTTP/1.1 200 OK"
  fields := [⟨bytes "Content-Type", bytes " application/json"⟩,
    ⟨bytes "Content-Length", 0x20 :: bytes (toString jsonStr.length)⟩,
    ⟨bytes "Connection", bytes " close"⟩]
  body := jsonStr

theorem httpResponse_eq (jsonStr : Bytes) : httpResponse jsonStr = (reply jsonStr).render := by
  have hfirst : bytes "HTTP/1.1 200 OK\r\nContent-Type: application/json\r\nContent-Length: " =
      bytes "HTTP/1.1 200 OK" ++ Http.crlf ++ bytes "Content-Type: application/json" ++
        Http.crlf ++ bytes "Content-Length: " := by decide +kernel
  have hlast : bytes "\r\nConnection: close\r\n\r\n" =
      Http.crlf ++ bytes "Connection: close" ++ (Http.crlf ++ Http.crlf) := by decide +kernel
  have hlength : bytes "Content-Length: " = bytes "Content-Length" ++ [0x3A, 0x20] := by
    decide +kernel
  have htype : bytes "Content-Type: application/json" =
      bytes "Content-Type" ++ 0x3A :: bytes " application/json" := by decide +kernel
  have hclose : bytes "Connection: close" = bytes "Connection" ++ 0x3A :: bytes " close" := by
    decide +kernel
  unfold httpResponse Http.Reply.render Http.joinLines
  rw [hfirst, hlast, hlength, htype, hclose]
  simp [reply, Http.Field.line]

theorem wellFormed_reply (jsonStr : Bytes) : (reply jsonStr).WellFormed := by
  obtain ⟨hne, hdigits, hdecimal⟩ := StdString.decimal_toString jsonStr.length
  have hvalue := Http.Field.value_of_digits (bytes "Content-Length") hne hdigits
  have htype : ¬(⟨bytes "Content-Type", bytes " application/json"⟩ : Http.Field).Named
      "content-length" := by decide +kernel
  have hclose : ¬(⟨bytes "Connection", bytes " close"⟩ : Http.Field).Named "content-length" := by
    decide +kernel
  have hlength : ∀ text, (⟨bytes "Content-Length", text⟩ : Http.Field).Named "content-length" := by
    intro text
    show (bytes "Content-Length").map StdString.toLower = _
    decide +kernel
  have hfield : ∀ b, StdString.isDigit b = true → Http.isFieldByte b = true := by
    intro b hb
    obtain ⟨hlow, hhigh⟩ := of_decide_eq_true hb
    refine decide_eq_true (.inr ⟨UInt8.le_trans (b := 0x30) (by decide) hlow, ?_⟩)
    rintro rfl
    exact absurd hhigh (by decide)
  have hstatus : ∀ b ∈ bytes "HTTP/1.1 200 OK", Http.isFieldByte b = true := by decide +kernel
  have hversion : bytes "HTTP/1.1 " <+: bytes "HTTP/1.1 200 OK" := by decide +kernel
  have hname : bytes "Content-Length" ≠ [] ∧ ∀ b ∈ bytes "Content-Length",
      Http.isTokenByte b = true := by decide +kernel
  refine ⟨hversion, hstatus, ?_, ?_, ?_⟩
  · simp only [reply, List.forall_mem_cons]
    refine ⟨by decide +kernel, ⟨hname.1, hname.2, ?_⟩, by decide +kernel, ?_⟩
    · rw [List.forall_mem_cons]
      exact ⟨by decide, fun b hb => hfield b (hdigits b hb)⟩
    · simp
  · simp [reply, htype, hclose, hlength]
  · simp only [reply, List.forall_mem_cons]
    refine ⟨fun h => absurd h htype, fun _ => ?_, fun h => absurd h hclose, by simp⟩
    rw [hvalue]
    exact ⟨hne, hdigits, hdecimal⟩

theorem readResponse_replyJson (hread : lib.ReadsBack (replyJson resp))
    (hcode : .ofInt resp.code.toInt = resp.code) :
    readResponse lib (lib.print (replyJson resp)) = .ok resp := by
  unfold readResponse
  rw [hread.parse, ok_bind]
  show (.ok ⟨.ofInt (Int32.ofInt resp.code.toInt.toInt), resp.message, resp.detail⟩ :
    Except JsonException Response) = .ok resp
  rw [Int32.ofInt_toInt, hcode]

/-- The text arrives as the body of a request that announces its length, in whatever pieces. -/
structure Arrives (text : Bytes) (chunks : List Bytes) : Prop where
  pieces : [] ∉ chunks
  request : ∃ head len, head.WellFormed ∧ announced head = .ok len ∧
    len.toNat = text.length ∧ chunks.flatten = head.render ++ text

theorem received_of_arrives {text : Bytes} {chunks : List Bytes} (h : Arrives text chunks)
    (later : List Bytes) : ∃ head len, head.WellFormed ∧ announced head = .ok len ∧
      received (chunks ++ later) [] = head.render ++ text := by
  -- The whole text is read, whether or not the stream ends behind it.
  obtain ⟨head, len, hhead, hlen, hlength, hchunks⟩ := h.request
  refine ⟨head, len, hhead, hlen, ?_⟩
  refine received_of_complete hhead h.pieces hlen hchunks ?_ (.inl hlength.le)
  -- Whatever is missing has a byte in it.
  rintro early ⟨rest, rfl⟩ hearly
  have hlt : 0 < rest.flatten.length := by
    rw [List.length_pos_iff]
    intro hnil
    cases rest with
    | nil => exact hearly (List.append_nil _).symm
    | cons chunk rest =>
      rw [List.flatten_cons, List.append_eq_nil_iff] at hnil
      refine h.pieces (List.mem_append_right _ ?_)
      rw [hnil.1]
      exact List.mem_cons_self
  have htotal := congrArg List.length hchunks
  rw [List.flatten_append, List.length_append, List.length_append] at htotal
  omega

theorem handleConnection_of_received {head : Http.Head} {len : UInt64} {body : Bytes}
    {reads : List Bytes} (hhead : head.WellFormed) (hlen : announced head = .ok len)
    (hreads : received reads [] = head.render ++ body) :
    handleConnection lib att (some h) reads =
      match answer lib att h (commandOf lib head.target body) body with
      | .error e => .error (.json e)
      | .ok (h, reply) => .ok (some h, some reply) := by
  have hraw : head.render ++ body ≠ [] := by
    intro hnil
    have hlength := congrArg List.length hnil
    rw [List.length_append, head.length_render, List.length_nil] at hlength
    omega
  unfold handleConnection
  rw [receive_eq reads (r := ⟨[], none⟩) rfl, hreads, scanHeaders_render hhead, hlen]
  dsimp only [Except.map]
  rw [ok_bind]
  dsimp only
  rw [if_neg hraw, splitRequest_render hhead]
  rfl

theorem handleConnection_of_arrives (hlib : lib.Documented) (hrequest : lib.ReadsBack k.body)
    (hreply : lib.ReadsBack (replyJson resp))
    (hhandle : h.handleCall lib att k = .ok (h', resp)) {chunks : List Bytes}
    (harrives : Arrives (lib.print k.body) chunks) (later : List Bytes) :
    handleConnection lib att (some h) (chunks ++ later) =
      .ok (some h', some (httpResponse (lib.print (replyJson resp)))) := by
  obtain ⟨head, len, hhead, hlen, hreads⟩ := received_of_arrives harrives later
  rw [handleConnection_of_received hhead hlen hreads, commandOf_body hrequest]
  have hroute : route lib att h (bytes k.command) (lib.print k.body) =
      .ok (h', replyJson resp) := by
    unfold route
    rw [readBody_body hrequest]
    dsimp only
    have hdefault : Utf8.decode (bytes "default") = "default" := Utf8.decode_encode _
    rw [hdefault, dispatch_body, hhandle]
    rfl
  have hdump : (replyJson resp).dump lib.print = .ok (lib.print (replyJson resp)) :=
    if_pos (hlib.valid _ _ hreply.parse)
  unfold answer
  rw [hroute, ok_bind]
  dsimp only
  rw [hdump]
  rfl

end

/-- A method of `CameraSDKClient` whose request arrives at an `AdminServer` has the effect on the
handler there and the response that the handler's own method has, however the bytes come; if the
library reads the two documents that it wrote and `curl` gives the body of the reply. -/
theorem call_eq_handleCall {lib : Libraries} (hlib : lib.Documented) {att : Attached}
    {h h' : ClientHandler} {k : Call} {resp : Response}
    (hhandle : h.handleCall lib att k = .ok (h', resp)) (hrequest : lib.ReadsBack k.body)
    (hreply : lib.ReadsBack (replyJson resp)) {chunks : List Bytes}
    (harrives : Arrives (lib.print k.body) chunks) (later : List Bytes) {c : CameraSDKClient}
    {perform : String → Bytes → Except String Bytes}
    (hperform : ∀ r : Http.Reply, r.WellFormed →
      handleConnection lib att (some h) (chunks ++ later) = .ok (some h', some r.render) →
        perform (c.baseUrl ++ k.endpoint) (lib.print k.body) = .ok r.body) :
    handleConnection lib att (some h) (chunks ++ later) =
        .ok (some h', some (httpResponse (lib.print (replyJson resp)))) ∧
      c.call { lib with curl := some perform } k = .ok resp := by
  have hconnection := handleConnection_of_arrives hlib hrequest hreply hhandle harrives later
  refine ⟨hconnection, ?_⟩
  have hbody : perform (c.baseUrl ++ k.endpoint) (lib.print k.body) =
      .ok (lib.print (replyJson resp)) := by
    apply hperform (reply (lib.print (replyJson resp))) (wellFormed_reply _)
    rw [← httpResponse_eq]
    exact hconnection
  have hdump : k.body.dump lib.print = .ok (lib.print k.body) :=
    if_pos (hlib.valid _ _ hrequest.parse)
  have hread : readResponse { lib with curl := some perform } (lib.print (replyJson resp)) =
      .ok resp :=
    readResponse_replyJson ⟨hreply.parse, hreply.brace⟩
      (ClientHandler.canonical_of_handleCall hhandle)
  unfold CameraSDKClient.call httpPost
  rw [hdump, ok_bind]
  dsimp only
  rw [hbody]
  dsimp only
  rw [hread]
  rfl

def exposureCall : Call := .setParameter (bytes "exposure") { intVal := 12 }

def exposureText : Bytes :=
  bytes "\x7b\"command\":\"set_parameter\",\"name\":\"exposure\",\"value\":12\x7d"

def cameraText : Bytes := bytes "\x7b\"code\":0,\"message\":\"Parameter set\"\x7d"

def exposureResponse : Response :=
  ⟨.success, bytes "Parameter set", ClientHandler.setParameterDetail (bytes "exposure")⟩

def exposureReply : Bytes :=
  bytes ("\x7b\"code\":0,\"detail\":\x7b\"name\":\"exposure\",\"needs_reopen\":false\x7d," ++
    "\"message\":\"Parameter set\"\x7d")

/-- As the libraries behave on a request for an exposure and its two replies. -/
def exposureCallLib : Libraries where
  parse text :=
    if text = exposureText then .ok exposureCall.body
    else if text = exposureReply then .ok (replyJson exposureResponse)
    else if text = cameraText then
      .ok (.object [("code", .integer 0), ("message", .string (bytes "Parameter set"))])
    else .error (.parseError (bytes "[json.exception.parse_error.101] syntax error"))
  print j := if j.contains "command" then exposureText else exposureReply
  curl := some fun _ _ => .ok cameraText

theorem exposureCallLib_documented : exposureCallLib.Documented where
  valid := by
    intro text j h
    unfold exposureCallLib at h
    dsimp only at h
    split_ifs at h
    · cases h
      exact ⟨valid_bytes _, valid_bytes _, trivial, trivial⟩
    · cases h
      exact replyJson_validUtf8_iff.mpr ⟨valid_bytes _, valid_bytes _, trivial, trivial⟩
    · cases h
      exact ⟨trivial, valid_bytes _, trivial⟩

def exposureHead : Http.Head where
  method := bytes "POST"
  target := bytes "/api/set_parameter"
  fields := [⟨bytes "Host", bytes " localhost:8080"⟩, ⟨bytes "Content-Type",
    bytes " application/json"⟩, ⟨bytes "Content-Length", bytes " 56"⟩]

def exposureReads : List Bytes :=
  [exposureHead.render, exposureText.take 20, exposureText.drop 20]

/-- `curl` at the other end of a connection to a handler with a client and a camera. -/
def exposureCurl (_ : String) (_ : Bytes) : Except String Bytes :=
  match handleConnection exposureCallLib ⟨none, none, none⟩ (some connectedHandler)
      (exposureReads ++ []) with
  | .ok (_, some raw) => Http.cutBody raw
  | _ => .error "Server returned nothing (no headers, no data)"

def nodeClient : CameraSDKClient := ⟨"https://localhost:8080", []⟩

theorem call_eq_handleCall_exposure :
    handleConnection exposureCallLib ⟨none, none, none⟩ (some connectedHandler)
        (exposureReads ++ []) =
      .ok (some connectedHandler, some (httpResponse exposureReply)) ∧
    nodeClient.call { exposureCallLib with curl := some exposureCurl } exposureCall =
      .ok exposureResponse := by
  have hhandle : connectedHandler.handleCall exposureCallLib ⟨none, none, none⟩ exposureCall =
      .ok (connectedHandler, exposureResponse) := rfl
  have hrequest : exposureCallLib.ReadsBack exposureCall.body := ⟨rfl, by decide +kernel⟩
  have hreply : exposureCallLib.ReadsBack (replyJson exposureResponse) :=
    ⟨rfl, by decide +kernel⟩
  have harrives : Arrives (exposureCallLib.print exposureCall.body) exposureReads :=
    ⟨by decide +kernel, exposureHead, 56, by decide +kernel, by decide +kernel, by decide +kernel,
      by decide +kernel⟩
  have hperform : ∀ r : Http.Reply, r.WellFormed →
      handleConnection exposureCallLib ⟨none, none, none⟩ (some connectedHandler)
        (exposureReads ++ []) = .ok (some connectedHandler, some r.render) →
      exposureCurl (nodeClient.baseUrl ++ exposureCall.endpoint)
        (exposureCallLib.print exposureCall.body) = .ok r.body := by
    intro r hr hconnection
    unfold exposureCurl
    rw [hconnection]
    exact hr.cutBody_render
  exact call_eq_handleCall exposureCallLib_documented hhandle hrequest hreply harrives [] hperform

end AdminServer

end StereoCamera
