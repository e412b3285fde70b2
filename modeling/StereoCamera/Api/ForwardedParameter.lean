import StereoCamera.Api.AdminServerSafety

/-! What `set_parameter` forwards to the camera. Every kind of value that `route` does not know
leaves the defaults of `ParameterValue`, and an integer is cut to an `int`. -/

namespace StereoCamera

namespace CameraSDKClient
variable {lib : Libraries} {c : CameraSDKClient} {endpoint : String} {body : Json}

/-- What `http_post` gives to `curl_easy_perform`, if it gets there. -/
def posted (lib : Libraries) (c : CameraSDKClient) (endpoint : String) (body : Json) :
    Option (String × Bytes) :=
  match body.dump lib.print, lib.curl with
  | .ok jsonStr, some _ => some (c.baseUrl ++ endpoint, jsonStr)
  | _, _ => none

theorem httpPost_of_posted {perform : String → Bytes → Except String Bytes} {url : String}
    {text : Bytes} (hcurl : lib.curl = some perform)
    (h : posted lib c endpoint body = some (url, text)) :
    c.httpPost lib endpoint body =
      .ok (match perform url text with
        | .error what => makeResponse .error what
        | .ok responseData =>
          match readResponse lib responseData with
          | .ok result => result
          | .error e => ⟨.error, bytes "Parse error: " ++ e.what, .object []⟩) := by
  unfold posted at h
  unfold httpPost
  rw [hcurl] at h ⊢
  rcases hdump : body.dump lib.print with e | jsonStr
  · rw [hdump] at h
    cases h
  · rw [hdump] at h
    cases h
    rw [ok_bind]
    dsimp only
    rcases hperform : perform (c.baseUrl ++ endpoint) text with what | responseData
    · rfl
    · dsimp only
      cases readResponse lib responseData with
      | error e => rfl
      | ok result => rfl

theorem posted_isSome_iff (hbody : body.ValidUtf8) :
    (posted lib c endpoint body).isSome ↔ lib.curl.isSome := by
  have hdump : body.dump lib.print = .ok (lib.print body) := if_pos hbody
  unfold posted
  rw [hdump]
  cases lib.curl with
  | none => rfl
  | some perform => rfl

end CameraSDKClient

namespace AdminServer
open CameraSDKClient

/-- The document that a `set_parameter` request has posted to the camera. -/
def forwarded (lib : Libraries) (h : ClientHandler) (body : Bytes) : Option Json :=
  match readBody lib body with
  | .error _ => none
  | .ok (j, clientId) =>
    match j.value "name" [], h.cameraClient (Utf8.decode clientId) with
    | .ok name, .ok client =>
      let doc := setParameterBody name (parameterValue j)
      (posted lib client "/api/set_parameter" doc).map fun _ => doc
    | _, _ => none

def Refused (lib : Libraries) (att : Attached) (h : ClientHandler) (body : Bytes) : Prop :=
  ∃ h' reply, route lib att h (bytes "set_parameter") body = .ok (h', reply) ∧
    reply.item "code" ≠ .integer 0

/-- The camera is told the value of the request, or nothing and the client is told so. -/
def ForwardsExactly (lib : Libraries) (att : Attached) (h : ClientHandler) (body : Bytes)
    (members : List (String × Json)) : Prop :=
  match forwarded lib h body with
  | some doc => members.lookup "value" = some (doc.item "value")
  | none => Refused lib att h body

/-- The kinds of values that go through the two dispatches unchanged. -/
def Settable : Json → Prop
  | .string _ | .float _ => True
  | .integer n => -2 ^ 31 ≤ n ∧ n < 2 ^ 31
  | _ => False

/-- The request is read from its first byte on; if its client is readable, so is the name; and
if there is a camera to be told, there is a value that an `int`, a `double` or a string holds. -/
structure Exact (lib : Libraries) (h : ClientHandler) (body : Bytes)
    (members : List (String × Json)) : Prop where
  brace : isJsonBody body = true
  name : ∀ clientId, (Json.object members).value "client_id" (bytes "default") = .ok clientId →
    ∃ name, (Json.object members).value "name" [] = .ok name
  value : ∀ clientId client,
    (Json.object members).value "client_id" (bytes "default") = .ok clientId →
      h.cameraClient (Utf8.decode clientId) = .ok client → lib.curl.isSome →
        ∃ v, members.lookup "value" = some v ∧ Settable v

section
variable {lib : Libraries} {att : Attached} {h : ClientHandler} {body : Bytes}
  {members : List (String × Json)}

theorem settable_iff {v : Json} (hv : members.lookup "value" = some v) :
    v = parameterJson (parameterValue (.object members)) ↔ Settable v := by
  have hcontains : (Json.object members).contains "value" = true := by
    rw [Json.contains, hv]
    rfl
  have hitem : (Json.object members).item "value" = v := by
    rw [Json.item, hv]
    rfl
  unfold parameterValue
  rw [if_pos hcontains, hitem]
  cases v with
  | integer n =>
    have hint : n = (Int32.ofInt n).toInt ↔ -2 ^ 31 ≤ n ∧ n < 2 ^ 31 := by
      constructor
      · intro hn
        rw [hn]
        exact ⟨Int32.le_toInt _, Int32.toInt_lt _⟩
      · exact fun hn => (Int32.toInt_ofInt_of_le hn.1 hn.2).symm
    rw [Settable, ← hint]
    exact ⟨Json.integer.inj, congrArg Json.integer⟩
  | string s => exact iff_of_true rfl trivial
  | float f => exact iff_of_true rfl trivial
  | _ => exact iff_of_false nofun nofun

theorem dispatch_setParameter {j : Json} {clientId : String} {name : Bytes}
    (hname : j.value "name" [] = .ok name) :
    dispatch lib att h (bytes "set_parameter") j clientId =
      (h.handleSetParameter lib clientId name (parameterValue j)).map fun resp => (h, resp) := by
  unfold dispatch
  rw [if_neg (by decide), if_neg (by decide), if_neg (by decide), if_neg (by decide),
    if_neg (by decide), if_neg (by decide), if_neg (by decide), if_pos rfl, hname, ok_bind]
  cases h.handleSetParameter lib clientId name (parameterValue j) <;> rfl

theorem dispatch_setParameter_of_error {j : Json} {clientId : String} {e : JsonException}
    (hname : j.value "name" [] = .error e) :
    dispatch lib att h (bytes "set_parameter") j clientId = .error e := by
  unfold dispatch
  rw [if_neg (by decide), if_neg (by decide), if_neg (by decide), if_neg (by decide),
    if_neg (by decide), if_neg (by decide), if_neg (by decide), if_pos rfl, hname]
  rfl

theorem readBody_of_brace (hbrace : isJsonBody body = true)
    (hparse : lib.parse body = .ok (.object members)) :
    readBody lib body = ((Json.object members).value "client_id" (bytes "default")).map
      fun clientId => (.object members, clientId) := by
  unfold readBody
  rw [if_pos hbrace, hparse, ok_bind]
  cases (Json.object members).value "client_id" (bytes "default") <;> rfl

theorem refused_of_readBody_error {e : JsonException} (hread : readBody lib body = .error e) :
    Refused lib att h body := by
  refine ⟨h, .object [("code", .integer 1), ("message", .string (bytes "Invalid JSON body"))],
    ?_, ?_⟩
  · rw [route, hread]
    rfl
  · intro hcode
    cases hcode

theorem not_refused_of_name_error {j : Json} {clientId : Bytes} {e : JsonException}
    (hread : readBody lib body = .ok (j, clientId)) (hname : j.value "name" [] = .error e) :
    ¬Refused lib att h body := by
  rintro ⟨h', reply, hroute, -⟩
  rw [route, hread] at hroute
  dsimp only at hroute
  rw [dispatch_setParameter_of_error hname] at hroute
  cases hroute

theorem refused_of_handle {j : Json} {clientId name : Bytes} {resp : Response}
    (hread : readBody lib body = .ok (j, clientId)) (hname : j.value "name" [] = .ok name)
    (hresp : h.handleSetParameter lib (Utf8.decode clientId) name (parameterValue j) = .ok resp)
    (hcode : resp.code.toInt.toInt ≠ 0) : Refused lib att h body := by
  refine ⟨h, replyJson resp, ?_, ?_⟩
  · rw [route, hread]
    dsimp only
    rw [dispatch_setParameter hname, hresp]
    rfl
  · exact fun hreply => hcode (Json.integer.inj hreply)

theorem cameraClient_refusal_code {clientId : String} {refusal : Response}
    (hrefusal : h.cameraClient clientId = .error refusal) : refusal.code.toInt.toInt ≠ 0 := by
  unfold ClientHandler.cameraClient at hrefusal
  repeat' split at hrefusal
  all_goals
    cases hrefusal
    try decide

theorem handleSetParameter_of_no_curl {clientId : String} {name : Bytes} {value : ParameterValue}
    {client : CameraSDKClient} (hbody : (setParameterBody name value).ValidUtf8)
    (hclient : h.cameraClient clientId = .ok client) (hcurl : lib.curl = none) :
    h.handleSetParameter lib clientId name value =
      .ok ⟨.error, bytes "CURL not initialized", ClientHandler.setParameterDetail name⟩ := by
  have hdump : (setParameterBody name value).dump lib.print = .ok (lib.print _) := if_pos hbody
  rw [ClientHandler.handleSetParameter, hclient]
  dsimp only
  rw [setParameter, httpPost, hdump, hcurl]
  rfl

theorem forwarded_of_readBody {j : Json} {clientId name : Bytes} {client : CameraSDKClient}
    (hread : readBody lib body = .ok (j, clientId)) (hname : j.value "name" [] = .ok name)
    (hclient : h.cameraClient (Utf8.decode clientId) = .ok client) :
    forwarded lib h body =
      (posted lib client "/api/set_parameter" (setParameterBody name (parameterValue j))).map
        fun _ => setParameterBody name (parameterValue j) := by
  simp only [forwarded, hread, hname, hclient]

theorem lookup_value_eq_iff {name : Bytes} :
    members.lookup "value" =
        some ((setParameterBody name (parameterValue (.object members))).item "value") ↔
      ∃ v, members.lookup "value" = some v ∧ Settable v := by
  show members.lookup "value" = some (parameterJson (parameterValue (.object members))) ↔ _
  rcases hv : members.lookup "value" with _ | v
  · exact iff_of_false nofun (by rintro ⟨v, ⟨⟩, -⟩)
  · rw [Option.some.injEq, settable_iff hv]
    exact ⟨fun hset => ⟨v, rfl, hset⟩, by rintro ⟨_, ⟨⟩, hset⟩; exact hset⟩

theorem forwardsExactly_iff_of_client_error {e : JsonException} (hbrace : isJsonBody body = true)
    (hparse : lib.parse body = .ok (.object members))
    (hid : (Json.object members).value "client_id" (bytes "default") = .error e) :
    ForwardsExactly lib att h body members ↔ Exact lib h body members := by
  have hread := readBody_of_brace hbrace hparse
  rw [hid] at hread
  have hnone : forwarded lib h body = none := by
    unfold forwarded
    rw [hread]
    rfl
  rw [ForwardsExactly, hnone]
  refine iff_of_true (refused_of_readBody_error hread) ⟨hbrace, ?_, ?_⟩
  · intro clientId hok
    cases hid.symm.trans hok
  · intro clientId client hok
    cases hid.symm.trans hok

theorem forwardsExactly_iff_of_name_error {clientId : Bytes} {e : JsonException}
    (hread : readBody lib body = .ok (.object members, clientId))
    (hid : (Json.object members).value "client_id" (bytes "default") = .ok clientId)
    (hname : (Json.object members).value "name" [] = .error e) :
    ForwardsExactly lib att h body members ↔ Exact lib h body members := by
  -- The name cannot be read: nothing catches the exception.
  have hnone : forwarded lib h body = none := by
    unfold forwarded
    rw [hread]
    dsimp only
    rw [hname]
  rw [ForwardsExactly, hnone]
  refine iff_of_false (not_refused_of_name_error hread hname) ?_
  intro hexact
  obtain ⟨name, hok⟩ := hexact.name clientId hid
  cases hname.symm.trans hok

theorem forwardsExactly_iff_of_refusal {clientId name : Bytes} {refusal : Response}
    (hbrace : isJsonBody body = true) (hread : readBody lib body = .ok (.object members, clientId))
    (hid : (Json.object members).value "client_id" (bytes "default") = .ok clientId)
    (hname : (Json.object members).value "name" [] = .ok name)
    (hclient : h.cameraClient (Utf8.decode clientId) = .error refusal) :
    ForwardsExactly lib att h body members ↔ Exact lib h body members := by
  have hnone : forwarded lib h body = none := by
    unfold forwarded
    rw [hread]
    dsimp only
    rw [hname, hclient]
  have hresp : h.handleSetParameter lib (Utf8.decode clientId) name
      (parameterValue (.object members)) = .ok refusal := by
    rw [ClientHandler.handleSetParameter, hclient]
  rw [ForwardsExactly, hnone]
  refine iff_of_true (refused_of_handle hread hname hresp (cameraClient_refusal_code hclient))
    ⟨hbrace, fun _ _ => ⟨name, hname⟩, ?_⟩
  intro clientId' client hid' hclient'
  cases hid.symm.trans hid'
  cases hclient.symm.trans hclient'

theorem forwardsExactly_iff_of_camera {clientId name : Bytes} {client : CameraSDKClient}
    (hlib : lib.Documented) (hbrace : isJsonBody body = true)
    (hparse : lib.parse body = .ok (.object members))
    (hread : readBody lib body = .ok (.object members, clientId))
    (hid : (Json.object members).value "client_id" (bytes "default") = .ok clientId)
    (hname : (Json.object members).value "name" [] = .ok name)
    (hclient : h.cameraClient (Utf8.decode clientId) = .ok client) :
    ForwardsExactly lib att h body members ↔ Exact lib h body members := by
  have hvalid : (Json.object members).ValidUtf8 := hlib.valid body _ hparse
  have hvalidBody : (setParameterBody name (parameterValue (.object members))).ValidUtf8 :=
    setParameterBody_validUtf8 (hvalid.value (valid_bytes "") hname) (valid_parameterValue hvalid)
  have hposted : (posted lib client "/api/set_parameter"
      (setParameterBody name (parameterValue (.object members)))).isSome ↔ lib.curl.isSome :=
    posted_isSome_iff hvalidBody
  have hforwarded := forwarded_of_readBody hread hname hclient
  -- The camera is told nothing only if curl fails to start, and then the caller is told so.
  rcases hpost : posted lib client "/api/set_parameter"
      (setParameterBody name (parameterValue (.object members))) with _ | request
  · have hcurl : ¬lib.curl.isSome := by
      rw [← hposted, hpost]
      exact Bool.false_ne_true
    rw [hpost] at hforwarded
    rw [ForwardsExactly, hforwarded]
    refine iff_of_true (refused_of_handle hread hname
      (handleSetParameter_of_no_curl hvalidBody hclient (Option.not_isSome_iff_eq_none.mp hcurl))
      (show ResponseCode.error.toInt.toInt ≠ 0 by decide)) ⟨hbrace, fun _ _ => ⟨name, hname⟩, ?_⟩
    intro _ _ _ _ hsome
    exact absurd hsome hcurl
  · have hcurl : lib.curl.isSome := by
      rw [← hposted, hpost]
      rfl
    rw [hpost, Option.map_some] at hforwarded
    rw [ForwardsExactly, hforwarded]
    refine lookup_value_eq_iff.trans ?_
    constructor
    · intro hvalue
      exact ⟨hbrace, fun _ _ => ⟨name, hname⟩, fun _ _ _ _ _ => hvalue⟩
    · exact fun hexact => hexact.value clientId client hid hclient hcurl

end

/-- The camera is told what was asked for, or the request is refused, exactly where the request
is readable and its value, if there is a camera to be told, is a string, a float or an integer
that an `int` holds. -/
theorem forwardsExactly_iff {lib : Libraries} (hlib : lib.Documented) (att : Attached)
    (h : ClientHandler) {body : Bytes} {members : List (String × Json)}
    (hparse : lib.parse body = .ok (.object members)) :
    ForwardsExactly lib att h body members ↔ Exact lib h body members := by
  by_cases hbrace : isJsonBody body = true
  · rcases hid : (Json.object members).value "client_id" (bytes "default") with e | clientId
    · exact forwardsExactly_iff_of_client_error hbrace hparse hid
    have hread : readBody lib body = .ok (.object members, clientId) := by
      rw [readBody_of_brace hbrace hparse, hid]
      rfl
    rcases hname : (Json.object members).value "name" [] with e | name
    · exact forwardsExactly_iff_of_name_error hread hid hname
    rcases hclient : h.cameraClient (Utf8.decode clientId) with refusal | client
    · exact forwardsExactly_iff_of_refusal hbrace hread hid hname hclient
    · exact forwardsExactly_iff_of_camera hlib hbrace hparse hread hid hname hclient
  · -- The body is not looked at, and there is nothing to read the name from.
    have hread : readBody lib body = .ok (.null, bytes "default") := by
      rw [readBody, if_neg hbrace]
      rfl
    have hnone : forwarded lib h body = none := by
      unfold forwarded
      rw [hread]
      rfl
    rw [ForwardsExactly, hnone]
    exact iff_of_false (not_refused_of_name_error hread rfl) fun hexact => hbrace hexact.brace

def exposureMembers (n : ℤ) : List (String × Json) :=
  [("name", .string (bytes "exposure")), ("value", .integer n)]

def exposureBody (n : ℤ) : Bytes :=
  bytes ("\x7b\"name\":\"exposure\",\"value\":" ++ toString n ++ "\x7d")

/-- As the libraries behave on two requests for an exposure, with a camera that takes it. -/
def exposureLib : Libraries where
  parse text :=
    if text = exposureBody 12 then .ok (.object (exposureMembers 12))
    else if text = exposureBody 4294967296 then .ok (.object (exposureMembers 4294967296))
    else if text = bytes "\x7b\"code\":0\x7d" then .ok (.object [("code", .integer 0)])
    else .error (.parseError (bytes "[json.exception.parse_error.101] syntax error"))
  print j :=
    match j.item "value" with
    | .integer n => bytes ("\x7b\"command\":\"set_parameter\",\"name\":\"exposure\",\"value\":" ++
        toString n ++ "\x7d")
    | _ => bytes "null"
  curl := some fun _ _ => .ok (bytes "\x7b\"code\":0\x7d")

theorem exposureLib_documented : exposureLib.Documented where
  valid := by
    intro text j h
    unfold exposureLib at h
    dsimp only at h
    split_ifs at h
    · cases h
      exact ⟨valid_bytes _, trivial, trivial⟩
    · cases h
      exact ⟨valid_bytes _, trivial, trivial⟩
    · cases h
      exact ⟨trivial, trivial⟩

def connectedHandler : ClientHandler :=
  ((ClientHandler.mk'.setSdkManager ((SDKSlotManager.mk' (.mk' 3)).configure
    [⟨"cam1", "https://cam", "tcp://cam", []⟩])).handleConnect "default").1

theorem forwardsExactly_exposure :
    ForwardsExactly exposureLib ⟨none, none, none⟩ connectedHandler (exposureBody 12)
      (exposureMembers 12) := by
  refine (forwardsExactly_iff exposureLib_documented _ _ (if_pos rfl)).mpr ⟨by decide, ?_, ?_⟩
  · exact fun _ _ => ⟨bytes "exposure", rfl⟩
  · exact fun _ _ _ _ _ => ⟨.integer 12, rfl, by decide, by decide⟩

/-- An exposure that an `int` cannot hold is set to zero. -/
theorem exposure_wraps :
    exposureLib.parse (exposureBody 4294967296) = .ok (.object (exposureMembers 4294967296)) ∧
      (forwarded exposureLib connectedHandler (exposureBody 4294967296)).map (·.item "value") =
        some (.integer 0) ∧
      ¬ForwardsExactly exposureLib ⟨none, none, none⟩ connectedHandler (exposureBody 4294967296)
        (exposureMembers 4294967296) := by
  have hforwarded : forwarded exposureLib connectedHandler (exposureBody 4294967296) =
      some (setParameterBody (bytes "exposure") { intVal := 0 }) := rfl
  refine ⟨rfl, ?_, ?_⟩
  · rw [hforwarded]
    rfl
  · rw [ForwardsExactly, hforwarded]
    intro hvalue
    cases hvalue

end AdminServer

end StereoCamera
