import StereoCamera.Api.RequestReading

/-! Which requests end the worker thread with an exception. Whatever else a request holds, it
is answered, or the connection is closed. -/

namespace StereoCamera

def Response.ValidUtf8 (resp : Response) : Prop :=
  Utf8.Valid resp.message ∧ resp.detail.ValidUtf8

theorem valid_bytes (s : String) : Utf8.Valid (bytes s) := Utf8.valid_encode s

theorem makeResponse_validUtf8 (code : ResponseCode) (message : String) :
    (makeResponse code message).ValidUtf8 := ⟨valid_bytes message, trivial⟩

namespace Json

/-- An object in which the key is missing or names a string. -/
def MayName (j : Json) (key : String) : Prop :=
  ∃ members, j = .object members ∧ ∀ v, members.lookup key = some v → ∃ s, v = .string s

theorem valueWith_cases {α : Type} (get : Json → Except JsonException α) (j : Json)
    (key : String) (dflt : α) :
    (∃ members, j = .object members ∧ members.lookup key = none ∧
      j.valueWith get key dflt = .ok dflt) ∨
    (∃ members v, j = .object members ∧ members.lookup key = some v ∧
      j.valueWith get key dflt = get v) ∨
    ((∀ members, j ≠ .object members) ∧
      ∃ text, j.valueWith get key dflt = .error (.typeError 306 text)) := by
  cases j with
  | object members =>
    rcases hv : members.lookup key with _ | v
    · exact .inl ⟨members, rfl, hv, by simp only [valueWith, hv]⟩
    · exact .inr (.inl ⟨members, v, rfl, hv, by simp only [valueWith, hv]⟩)
  | _ => exact .inr (.inr ⟨nofun, _, rfl⟩)

theorem value_ok_iff {j : Json} {key : String} {dflt : Bytes} :
    (∃ s, j.value key dflt = .ok s) ↔ j.MayName key := by
  unfold value MayName
  rcases valueWith_cases getString j key dflt with
    ⟨members, rfl, hv, h⟩ | ⟨members, v, rfl, hv, h⟩ | ⟨hobject, text, h⟩
  · refine iff_of_true ⟨dflt, h⟩ ⟨members, rfl, ?_⟩
    intro v hsome
    cases hv.symm.trans hsome
  · rw [h]
    constructor
    · rintro ⟨s, hs⟩
      refine ⟨members, rfl, ?_⟩
      intro w hw
      cases hv.symm.trans hw
      exact ⟨s, getString_eq_ok_iff.mp hs⟩
    · rintro ⟨_, ⟨⟩, hstring⟩
      obtain ⟨s, rfl⟩ := hstring v hv
      exact ⟨s, rfl⟩
  · rw [h]
    refine iff_of_false ?_ ?_
    · rintro ⟨s, hs⟩
      cases hs
    · rintro ⟨members, hj, -⟩
      exact hobject members hj

theorem ValidUtf8.valueWith {α : Type} {P : α → Prop} {get : Json → Except JsonException α}
    (hget : ∀ v a, v.ValidUtf8 → get v = .ok a → P a) {j : Json} (hj : j.ValidUtf8)
    {key : String} {dflt a : α} (hdflt : P dflt) (h : j.valueWith get key dflt = .ok a) : P a := by
  rcases valueWith_cases get j key dflt with
    ⟨members, rfl, hv, heq⟩ | ⟨members, v, rfl, hv, heq⟩ | ⟨hobject, text, heq⟩
  · cases heq.symm.trans h
    exact hdflt
  · exact hget v a (hj.lookup hv) (heq.symm.trans h)
  · cases heq.symm.trans h

theorem ValidUtf8.value {j : Json} (hj : j.ValidUtf8) {key : String} {dflt s : Bytes}
    (hdflt : Utf8.Valid dflt) (h : j.value key dflt = .ok s) : Utf8.Valid s := by
  refine ValidUtf8.valueWith ?_ hj hdflt h
  intro v s hv hs
  rw [getString_eq_ok_iff.mp hs] at hv
  exact hv

theorem ValidUtf8.item {j : Json} (hj : j.ValidUtf8) (key : String) : (j.item key).ValidUtf8 := by
  unfold Json.item
  split
  · rename_i members
    rcases hv : members.lookup key with _ | v
    · exact trivial
    · exact hj.lookup hv
  · exact trivial

theorem what_of_valueWith {α : Type} {get : Json → Except JsonException α}
    (hget : ∀ v e, get v = .error e → Utf8.Valid e.what) {j : Json} {key : String} {dflt : α}
    {e : JsonException} (h : j.valueWith get key dflt = .error e) : Utf8.Valid e.what := by
  rcases valueWith_cases get j key dflt with
    ⟨members, rfl, hv, heq⟩ | ⟨members, v, rfl, hv, heq⟩ | ⟨hobject, text, heq⟩
  · cases heq.symm.trans h
  · exact hget v e (heq.symm.trans h)
  · cases heq.symm.trans h
    exact valid_bytes _

theorem what_of_getInt {j : Json} {e : JsonException} (h : j.getInt = .error e) :
    Utf8.Valid e.what := by
  cases j <;> cases h <;> exact valid_bytes _

theorem what_of_getString {j : Json} {e : JsonException} (h : j.getString = .error e) :
    Utf8.Valid e.what := by
  cases j <;> cases h <;> exact valid_bytes _

end Json

namespace CameraSDKClient
variable {lib : Libraries}

/-- What the camera sends back to the request can be parsed, or the text of the error is
valid UTF-8. -/
def Legible (lib : Libraries) (c : CameraSDKClient) (endpoint : String) (body : Json) : Prop :=
  ∀ perform responseData e, lib.curl = some perform →
    perform (c.baseUrl ++ endpoint) (lib.print body) = .ok responseData →
    lib.parse responseData = .error e → Utf8.Valid e.what

theorem readResponse_of_parse_ok (hlib : lib.Documented) {responseData : Bytes} {j : Json}
    (hparse : lib.parse responseData = .ok j) :
    (∃ r, readResponse lib responseData = .ok r ∧ r.ValidUtf8) ∨
      ∃ e, readResponse lib responseData = .error e ∧ Utf8.Valid e.what := by
  have hj := hlib.valid responseData j hparse
  unfold readResponse
  rw [hparse, ok_bind]
  rcases hcode : j.valueWith Json.getInt "code" 1 with e | code
  · exact .inr ⟨e, rfl, Json.what_of_valueWith (fun _ _ => Json.what_of_getInt) hcode⟩
  rcases hmessage : j.value "message" [] with e | message
  · exact .inr ⟨e, rfl, Json.what_of_valueWith (fun _ _ => Json.what_of_getString) hmessage⟩
  rcases hdetail : j.valueWith .ok "detail" (.object []) with e | detail
  · exact .inr ⟨e, rfl, Json.what_of_valueWith (fun _ _ h => by cases h) hdetail⟩
  · exact .inl ⟨_, rfl, hj.value (valid_bytes "") hmessage,
      Json.ValidUtf8.valueWith (P := Json.ValidUtf8) (fun _ _ hv h => Except.ok.inj h ▸ hv) hj
        (show (Json.object []).ValidUtf8 from trivial) hdetail⟩

theorem httpPost_ok (hlib : lib.Documented) (c : CameraSDKClient) (endpoint : String) {body : Json}
    (hbody : body.ValidUtf8) :
    ∃ resp, c.httpPost lib endpoint body = .ok resp ∧ resp.detail.ValidUtf8 ∧
      (Utf8.Valid resp.message ↔ c.Legible lib endpoint body) := by
  have hdump : body.dump lib.print = .ok (lib.print body) := if_pos hbody
  unfold httpPost Legible
  rw [hdump, ok_bind]
  rcases hcurl : lib.curl with _ | perform
  · refine ⟨_, rfl, trivial, iff_of_true (valid_bytes _) ?_⟩
    intro perform data e h
    cases h
  dsimp only
  rcases hperform : perform (c.baseUrl ++ endpoint) (lib.print body) with text | data
  · refine ⟨_, rfl, trivial, iff_of_true (valid_bytes _) ?_⟩
    rintro _ data e ⟨⟩ h
    cases hperform.symm.trans h
  dsimp only
  rcases hparse : lib.parse data with e | j
  · have hread : readResponse lib data = .error e := by
      unfold readResponse
      rw [hparse]
      rfl
    rw [hread]
    refine ⟨_, rfl, trivial, (Utf8.valid_encode_append_iff "Parse error: " e.what).trans ?_⟩
    constructor
    · rintro he _ data' e' ⟨⟩ hdata hparse'
      cases hperform.symm.trans hdata
      cases hparse.symm.trans hparse'
      exact he
    · exact fun h => h perform data e rfl hperform hparse
  · have hlegible : ∀ perform' data' e', some perform = some perform' →
        perform' (c.baseUrl ++ endpoint) (lib.print body) = .ok data' →
        lib.parse data' = .error e' → Utf8.Valid e'.what := by
      rintro _ data' e' ⟨⟩ hdata hparse'
      cases hperform.symm.trans hdata
      cases hparse.symm.trans hparse'
    obtain ⟨r, hread, hmessage, hdetail⟩ | ⟨e, hread, he⟩ := readResponse_of_parse_ok hlib hparse
    · rw [hread]
      exact ⟨r, rfl, hdetail, iff_of_true hmessage hlegible⟩
    · rw [hread]
      exact ⟨_, rfl, trivial, iff_of_true
        ((Utf8.valid_encode_append_iff "Parse error: " e.what).mpr he) hlegible⟩

theorem setParameterBody_validUtf8 {name : Bytes} (hname : Utf8.Valid name) {value : ParameterValue}
    (hvalue : Utf8.Valid value.enumVal) : (setParameterBody name value).ValidUtf8 := by
  refine ⟨valid_bytes _, hname, ?_, trivial⟩
  unfold parameterJson
  split
  · exact hvalue
  · trivial
  · trivial

end CameraSDKClient

namespace ClientHandler
variable (h : ClientHandler) (clientId : String)

theorem handleConnect_validUtf8 : (h.handleConnect clientId).2.ValidUtf8 := by
  unfold handleConnect
  dsimp only
  split_ifs <;> exact makeResponse_validUtf8 _ _

theorem handleDisconnect_validUtf8 : (h.handleDisconnect clientId).2.ValidUtf8 := by
  unfold handleDisconnect
  split <;> exact makeResponse_validUtf8 _ _

theorem handleStartCapture_validUtf8 (types : List DataType) :
    (h.handleStartCapture clientId types).2.ValidUtf8 := by
  unfold handleStartCapture
  split
  · exact makeResponse_validUtf8 _ _
  · split
    · exact makeResponse_validUtf8 _ _
    · dsimp only
      split_ifs <;> exact makeResponse_validUtf8 _ _

theorem handleStopCapture_validUtf8 (types : List DataType) :
    (h.handleStopCapture clientId types).2.ValidUtf8 := by
  unfold handleStopCapture
  split
  · exact makeResponse_validUtf8 _ _
  · split <;> exact makeResponse_validUtf8 _ _

theorem cameraClient_refusal {refusal : Response}
    (hrefusal : h.cameraClient clientId = .error refusal) :
    refusal.ValidUtf8 := by
  unfold cameraClient at hrefusal
  repeat' split at hrefusal
  all_goals
    cases hrefusal
    try exact makeResponse_validUtf8 _ _

theorem getStatus_validUtf8 (m : SDKSlotManager) : m.getStatus.ValidUtf8 := by
  refine Json.allValidUtf8_iff.mpr ?_
  intro j hj
  obtain ⟨e, -, rfl⟩ := List.mem_map.mp hj
  refine ⟨Json.allValidUtf8_iff.mpr ?_, valid_bytes _, trivial, Json.allValidUtf8_iff.mpr ?_,
    trivial, trivial⟩
  · intro j hj
    obtain ⟨t, -, rfl⟩ := List.mem_map.mp hj
    exact valid_bytes _
  · intro j hj
    obtain ⟨ch, -, rfl⟩ := List.mem_map.mp hj
    exact ⟨valid_bytes _, valid_bytes _, trivial⟩

theorem dataBuffer_validUtf8 (b : DataBuffer DataBundle) : b.toJson.ValidUtf8 := by
  refine ⟨Json.allValidUtf8_iff.mpr ?_, trivial⟩
  intro j hj
  obtain ⟨s, -, rfl⟩ := List.mem_map.mp hj
  exact ⟨trivial, valid_bytes _, valid_bytes _, trivial⟩

theorem optionalMember_validUtf8 {α : Type} {key : String} {toJson : α → Json}
    (htoJson : ∀ a, (toJson a).ValidUtf8) {o : Option α} :
    ∀ kv ∈ optionalMember key toJson o, kv.2.ValidUtf8 := by
  intro kv hkv
  unfold optionalMember at hkv
  cases o with
  | none => cases hkv
  | some a =>
    rw [List.mem_singleton.mp hkv]
    exact htoJson a

theorem handleCheckStatus_validUtf8 (att : Attached) :
    (h.handleCheckStatus att clientId).ValidUtf8 := by
  refine ⟨valid_bytes _, Json.membersValidUtf8_iff.mpr ?_⟩
  have hpipeline : ∀ p : PipelineCounters, p.toJson.ValidUtf8 := fun p =>
    ⟨trivial, trivial, trivial, trivial, trivial, trivial, trivial⟩
  have hwss : ∀ w : WSServerCounters, w.toJson.ValidUtf8 := fun w =>
    ⟨trivial, trivial, trivial, trivial⟩
  simp only [List.forall_mem_append, List.forall_mem_singleton]
  exact ⟨⟨⟨⟨⟨optionalMember_validUtf8 getStatus_validUtf8,
    optionalMember_validUtf8 dataBuffer_validUtf8⟩, trivial⟩, optionalMember_validUtf8 hpipeline⟩,
    trivial⟩, optionalMember_validUtf8 hwss⟩

theorem setParameterDetail_validUtf8 {name : Bytes} (hname : Utf8.Valid name) :
    (setParameterDetail name).ValidUtf8 := by
  unfold setParameterDetail
  split_ifs
  · refine ⟨hname, trivial, ?_, trivial⟩
    show Utf8.Valid (bytes "Parameter " ++ name ++ bytes " requires camera reopen to take effect")
    rw [List.append_assoc]
    exact (Utf8.valid_encode_append_iff _ _).mpr (hname.append (valid_bytes _))
  · exact ⟨hname, trivial, trivial⟩

theorem handleSetParameter_ok {lib : Libraries} (hlib : lib.Documented) {name : Bytes}
    (hname : Utf8.Valid name) {value : ParameterValue} (hvalue : Utf8.Valid value.enumVal) :
    ∃ resp, h.handleSetParameter lib clientId name value = .ok resp ∧
      (resp.ValidUtf8 ↔ ∀ client, h.cameraClient clientId = .ok client →
        client.Legible lib "/api/set_parameter" (CameraSDKClient.setParameterBody name value)) := by
  unfold handleSetParameter
  rcases hclient : h.cameraClient clientId with refusal | client
  · refine ⟨refusal, rfl, iff_of_true (h.cameraClient_refusal clientId hclient) ?_⟩
    intro client hc
    cases hc
  · have hbody := CameraSDKClient.setParameterBody_validUtf8 hname hvalue
    obtain ⟨resp, hpost, -, hlegible⟩ := client.httpPost_ok hlib "/api/set_parameter" hbody
    refine ⟨⟨resp.code, resp.message, setParameterDetail name⟩, ?_, ?_⟩
    · dsimp only
      unfold CameraSDKClient.setParameter
      rw [hpost]
      rfl
    · show (_ ∧ _) ↔ _
      rw [and_iff_left (setParameterDetail_validUtf8 hname), hlegible]
      constructor
      · rintro hlegible _ ⟨⟩
        exact hlegible
      · exact fun hall => hall client rfl

theorem handleGetParameter_ok {lib : Libraries} (hlib : lib.Documented) {name : Bytes}
    (hname : Utf8.Valid name) :
    ∃ resp, h.handleGetParameter lib clientId name = .ok resp ∧
      (resp.ValidUtf8 ↔ ∀ client, h.cameraClient clientId = .ok client →
        client.Legible lib "/api/get_parameter" (CameraSDKClient.getParameterBody name)) := by
  unfold handleGetParameter
  rcases hclient : h.cameraClient clientId with refusal | client
  · refine ⟨refusal, rfl, iff_of_true (h.cameraClient_refusal clientId hclient) ?_⟩
    intro client hc
    cases hc
  · have hbody : (CameraSDKClient.getParameterBody name).ValidUtf8 :=
      ⟨valid_bytes _, hname, trivial⟩
    obtain ⟨resp, hpost, hdetail, hlegible⟩ := client.httpPost_ok hlib "/api/get_parameter" hbody
    refine ⟨resp, hpost, ?_⟩
    show (_ ∧ _) ↔ _
    rw [and_iff_left hdetail, hlegible]
    constructor
    · rintro hlegible _ ⟨⟩
      exact hlegible
    · exact fun hall => hall client rfl

end ClientHandler

namespace AdminServer

def cameraRequest (cmd : Bytes) (j : Json) (name : Bytes) : Option (String × Json) :=
  if cmd = bytes "set_parameter" then
    some ("/api/set_parameter", CameraSDKClient.setParameterBody name (parameterValue j))
  else if cmd = bytes "get_parameter" then
    some ("/api/get_parameter", CameraSDKClient.getParameterBody name)
  else none

/-- What a command must meet to be answered: it is valid UTF-8, a parameter command comes with
an object that may name the parameter, and the camera's answer to it is legible. -/
structure Dispatchable (lib : Libraries) (h : ClientHandler) (cmd : Bytes) (j : Json)
    (clientId : String) : Prop where
  command : Utf8.Valid cmd
  object : cmd = bytes "set_parameter" ∨ cmd = bytes "get_parameter" → j.MayName "name"
  camera : ∀ name endpoint body client, j.value "name" [] = .ok name →
    cameraRequest cmd j name = some (endpoint, body) → h.cameraClient clientId = .ok client →
    client.Legible lib endpoint body

section
variable {lib : Libraries} {h : ClientHandler} {cmd : Bytes} {j : Json} {clientId : String}

theorem dispatchable_of_no_parameter (hcmd : Utf8.Valid cmd) (hset : cmd ≠ bytes "set_parameter")
    (hget : cmd ≠ bytes "get_parameter") : Dispatchable lib h cmd j clientId where
  command := hcmd
  object := by
    rintro (heq | heq)
    · exact absurd heq hset
    · exact absurd heq hget
  camera := by
    intro name endpoint body client _ hrequest
    unfold cameraRequest at hrequest
    rw [if_neg hset, if_neg hget] at hrequest
    cases hrequest

theorem parameter_ok_iff (hj : j.ValidUtf8) (hcmd : Utf8.Valid cmd)
    (hparam : cmd = bytes "set_parameter" ∨ cmd = bytes "get_parameter")
    {handle : Bytes → Except JsonException Response}
    (hhandle : ∀ name, Utf8.Valid name → ∃ resp, handle name = .ok resp ∧
      (resp.ValidUtf8 ↔ ∀ endpoint body client, cameraRequest cmd j name = some (endpoint, body) →
        h.cameraClient clientId = .ok client → client.Legible lib endpoint body)) :
    (∃ h' resp, (j.value "name" [] >>= fun name => handle name >>= fun resp => pure (h, resp)) =
        (.ok (h', resp) : Except JsonException (ClientHandler × Response)) ∧ resp.ValidUtf8) ↔
      Dispatchable lib h cmd j clientId := by
  rcases hname : j.value "name" [] with e | name
  · -- The name is read before the handler is called: the request is not an object.
    refine iff_of_false ?_ ?_
    · rintro ⟨h', resp, heq, -⟩
      cases heq
    · intro hdis
      obtain ⟨name, hok⟩ := Json.value_ok_iff.mpr (hdis.object hparam)
      cases hname.symm.trans hok
  · obtain ⟨resp, hresp, hvalid⟩ := hhandle name (hj.value (valid_bytes "") hname)
    rw [ok_bind, hresp]
    constructor
    · rintro ⟨_, _, ⟨⟩, hutf8⟩
      refine ⟨hcmd, fun _ => Json.value_ok_iff.mp ⟨name, hname⟩, ?_⟩
      intro name' endpoint body client hok
      cases hname.symm.trans hok
      exact hvalid.mp hutf8 endpoint body client
    · intro hdis
      exact ⟨h, resp, rfl, hvalid.mpr fun endpoint body client =>
        hdis.camera name endpoint body client hname⟩

theorem valid_parameterValue (hj : j.ValidUtf8) : Utf8.Valid (parameterValue j).enumVal := by
  unfold parameterValue
  split_ifs with hcontains
  · split
    · exact valid_bytes ""
    · exact valid_bytes ""
    · rename_i s hs
      have hvalid := hj.item "value"
      rw [hs] at hvalid
      exact hvalid
    · exact valid_bytes ""
  · exact valid_bytes ""

theorem forall_legible_iff {name : Bytes} {endpoint : String} {body : Json}
    (hrequest : cameraRequest cmd j name = some (endpoint, body)) :
    (∀ client, h.cameraClient clientId = .ok client → client.Legible lib endpoint body) ↔
      ∀ endpoint body client, cameraRequest cmd j name = some (endpoint, body) →
        h.cameraClient clientId = .ok client → client.Legible lib endpoint body := by
  constructor
  · intro hall endpoint' body' client hrequest'
    cases hrequest.symm.trans hrequest'
    exact hall client
  · exact fun hall client => hall endpoint body client hrequest

theorem dispatch_ok_iff (hlib : lib.Documented) (att : Attached) (hj : j.ValidUtf8) :
    (∃ h' resp, dispatch lib att h cmd j clientId = .ok (h', resp) ∧ resp.ValidUtf8) ↔
      Dispatchable lib h cmd j clientId := by
  -- A command with an answer of its own needs nothing.
  have own : ∀ {name : String} {r : ClientHandler × Response}, r.2.ValidUtf8 →
      bytes name ≠ bytes "set_parameter" → bytes name ≠ bytes "get_parameter" →
      ((∃ h' resp, (pure r : Except JsonException _) = .ok (h', resp) ∧ resp.ValidUtf8) ↔
        Dispatchable lib h (bytes name) j clientId) := fun hr hset hget =>
    iff_of_true ⟨_, _, rfl, hr⟩ (dispatchable_of_no_parameter (valid_bytes _) hset hget)
  unfold dispatch
  rcases eq_or_ne cmd (bytes "init") with rfl | hne
  · rw [if_pos rfl]
    exact own (makeResponse_validUtf8 _ _) (by decide) (by decide)
  rw [if_neg hne]
  rcases eq_or_ne cmd (bytes "dispose") with rfl | hne
  · rw [if_pos rfl]
    exact own (makeResponse_validUtf8 _ _) (by decide) (by decide)
  rw [if_neg hne]
  rcases eq_or_ne cmd (bytes "connect") with rfl | hne
  · rw [if_pos rfl]
    exact own (h.handleConnect_validUtf8 clientId) (by decide) (by decide)
  rw [if_neg hne]
  rcases eq_or_ne cmd (bytes "disconnect") with rfl | hne
  · rw [if_pos rfl]
    exact own (h.handleDisconnect_validUtf8 clientId) (by decide) (by decide)
  rw [if_neg hne]
  rcases eq_or_ne cmd (bytes "check_status") with rfl | hne
  · rw [if_pos rfl]
    exact own (h.handleCheckStatus_validUtf8 clientId att) (by decide) (by decide)
  rw [if_neg hne]
  rcases eq_or_ne cmd (bytes "start_capture") with rfl | hne
  · rw [if_pos rfl]
    exact own (h.handleStartCapture_validUtf8 clientId _) (by decide) (by decide)
  rw [if_neg hne]
  rcases eq_or_ne cmd (bytes "stop_capture") with rfl | hne
  · rw [if_pos rfl]
    exact own (h.handleStopCapture_validUtf8 clientId _) (by decide) (by decide)
  rw [if_neg hne]
  rcases eq_or_ne cmd (bytes "set_parameter") with rfl | hset
  · rw [if_pos rfl]
    refine parameter_ok_iff hj (valid_bytes _) (.inl rfl) ?_
    intro name hname
    obtain ⟨resp, hresp, hiff⟩ :=
      h.handleSetParameter_ok clientId hlib hname (valid_parameterValue hj)
    exact ⟨resp, hresp, hiff.trans (forall_legible_iff rfl)⟩
  rw [if_neg hset]
  rcases eq_or_ne cmd (bytes "get_parameter") with rfl | hget
  · rw [if_pos rfl]
    refine parameter_ok_iff hj (valid_bytes _) (.inr rfl) ?_
    intro name hname
    obtain ⟨resp, hresp, hiff⟩ := h.handleGetParameter_ok clientId hlib hname
    exact ⟨resp, hresp, hiff.trans (forall_legible_iff rfl)⟩
  rw [if_neg hget]
  -- Only the text of an unknown command comes from outside.
  constructor
  · rintro ⟨_, _, ⟨⟩, hcmd, -⟩
    exact dispatchable_of_no_parameter ((Utf8.valid_encode_append_iff _ _).mp hcmd) hset hget
  · intro hdis
    exact ⟨h, _, rfl, (Utf8.valid_encode_append_iff _ _).mpr hdis.command, trivial⟩

def Answerable (lib : Libraries) (h : ClientHandler) (path body : Bytes) : Prop :=
  ∀ j clientId, readBody lib body = .ok (j, clientId) →
    Dispatchable lib h (commandOf lib path body) j (Utf8.decode clientId)

theorem validUtf8_of_readBody (hlib : lib.Documented) {body id : Bytes}
    (hread : readBody lib body = .ok (j, id)) : j.ValidUtf8 := by
  unfold readBody at hread
  split_ifs at hread
  · rcases hparse : lib.parse body with e | j'
    · rw [hparse] at hread
      cases hread
    · rw [hparse, ok_bind] at hread
      rcases hid : j'.value "client_id" (bytes "default") with e | id'
      · rw [hid] at hread
        cases hread
      · rw [hid] at hread
        cases hread
        exact hlib.valid body j hparse
  · cases hread
    trivial

theorem replyJson_validUtf8_iff {resp : Response} :
    (replyJson resp).ValidUtf8 ↔ resp.ValidUtf8 := by
  constructor
  · rintro ⟨-, hdetail, hmessage, -⟩
    exact ⟨hmessage, hdetail⟩
  · rintro ⟨hmessage, hdetail⟩
    exact ⟨trivial, hdetail, hmessage, trivial⟩

theorem answer_ok_iff_route {att : Attached} {body : Bytes} :
    (∃ r, answer lib att h cmd body = .ok r) ↔
      ∃ h' reply, route lib att h cmd body = .ok (h', reply) ∧ reply.ValidUtf8 := by
  unfold answer
  rcases route lib att h cmd body with e | ⟨h', reply⟩
  · refine iff_of_false ?_ ?_
    · rintro ⟨r, hr⟩
      cases hr
    · rintro ⟨_, _, hr, -⟩
      cases hr
  · rw [ok_bind]
    dsimp only
    rcases hdump : reply.dump lib.print with e | text
    · refine iff_of_false ?_ ?_
      · rintro ⟨r, hr⟩
        cases hr
      · rintro ⟨_, _, ⟨⟩, hreply⟩
        obtain ⟨text, htext⟩ := Json.dump_ok_iff.mpr hreply
        cases hdump.symm.trans htext
    · exact iff_of_true ⟨_, rfl⟩ ⟨h', reply, rfl, Json.dump_ok_iff.mp ⟨text, hdump⟩⟩

theorem answer_ok_iff (hlib : lib.Documented) (att : Attached) (path body : Bytes) :
    (∃ r, answer lib att h (commandOf lib path body) body = .ok r) ↔
      Answerable lib h path body := by
  rw [answer_ok_iff_route]
  unfold route Answerable
  rcases hread : readBody lib body with e | ⟨j, id⟩
  · -- The reply to a body that cannot be read is a constant.
    refine iff_of_true ⟨h, _, rfl, trivial, valid_bytes _, trivial⟩ ?_
    intro j clientId hj
    cases hj
  · rw [show (∀ j' id', Except.ok (j, id) = (.ok (j', id') : Except JsonException (Json × Bytes)) →
        Dispatchable lib h (commandOf lib path body) j' (Utf8.decode id')) ↔
        Dispatchable lib h (commandOf lib path body) j (Utf8.decode id) from
      ⟨fun hall => hall j id rfl, by rintro hdis _ _ ⟨⟩; exact hdis⟩,
      ← dispatch_ok_iff hlib att (validUtf8_of_readBody hlib hread)]
    dsimp only
    rcases dispatch lib att h (commandOf lib path body) j (Utf8.decode id) with e | ⟨h', resp⟩
    · refine iff_of_false ?_ ?_ <;>
      · rintro ⟨_, _, hr, -⟩
        cases hr
    · constructor
      · rintro ⟨_, _, ⟨⟩, hreply⟩
        exact ⟨h', resp, rfl, replyJson_validUtf8_iff.mp hreply⟩
      · rintro ⟨_, _, ⟨⟩, hresp⟩
        exact ⟨h', _, rfl, replyJson_validUtf8_iff.mpr hresp⟩

end

/-- A connection is answered or closed, and nothing is thrown, exactly when the announced length
is a number and what was read can be answered. -/
theorem handleConnection_returns_iff {lib : Libraries} (hlib : lib.Documented) (att : Attached)
    (handler : Option ClientHandler) (reads : List Bytes) :
    (∃ r, handleConnection lib att handler reads = .ok r) ↔
      LengthReadable (received reads []) ∧
        ∀ h path body, handler = some h → received reads [] ≠ [] →
          splitRequest (received reads []) = .ok (path, body) → Answerable lib h path body := by
  have hempty : scanHeaders [] = .ok none := rfl
  unfold handleConnection
  rw [receive_eq reads (r := ⟨[], none⟩) hempty, ← scanHeaders_ok_iff]
  rcases scanHeaders (received reads []) with e | headers
  · -- Reading throws before any handler is looked at.
    refine iff_of_false ?_ ?_
    · rintro ⟨r, hr⟩
      cases hr
    · rintro ⟨⟨headers, hheaders⟩, -⟩
      cases hheaders
  rw [and_iff_right ⟨headers, rfl⟩]
  dsimp only [Except.map]
  rw [ok_bind]
  cases handler with
  | none =>
    refine iff_of_true ⟨_, rfl⟩ ?_
    intro h path body hh
    cases hh
  | some h =>
    dsimp only
    -- An empty request closes the connection, with nothing to answer.
    split_ifs with hraw
    · refine iff_of_true ⟨_, rfl⟩ ?_
      intro h path body _ hne
      exact absurd hraw hne
    · obtain ⟨path, body, hsplit⟩ := splitRequest_ok (received reads [])
      rw [hsplit, ok_bind]
      dsimp only
      constructor
      · rintro ⟨r, hr⟩ _ _ _ ⟨⟩ - ⟨⟩
        refine (answer_ok_iff hlib att path body).mp ?_
        rcases hans : answer lib att h (commandOf lib path body) body with e | r
        · rw [hans] at hr
          cases hr
        · exact ⟨r, rfl⟩
      · intro hall
        obtain ⟨⟨h', reply⟩, hans⟩ := (answer_ok_iff hlib att path body).mpr
          (hall h path body rfl hraw rfl)
        rw [hans]
        exact ⟨_, rfl⟩

/-- As the libraries behave on an empty object, without a camera to connect to. -/
def emptyObjectLib : Libraries where
  parse text :=
    if text = bytes "\x7b\x7d" then .ok (.object [])
    else .error (.parseError (bytes "[json.exception.parse_error.101] syntax error"))
  print _ := bytes "\x7b\"code\":0,\"detail\":\x7b\x7d,\"message\":\"Connected\"\x7d"
  curl := some fun _ _ => .error "Couldn't connect to server"

theorem emptyObjectLib_documented : emptyObjectLib.Documented where
  valid := by
    intro text j h
    unfold emptyObjectLib at h
    dsimp only at h
    split_ifs at h
    cases h
    trivial

def connectReads : List Bytes :=
  [bytes "POST /Connect HTTP/1.1\r\nContent-Le", bytes "ngth: 2\r\n\r\n\x7b", bytes "\x7d"]

theorem handleConnection_connectReads :
    ∃ r, handleConnection emptyObjectLib ⟨none, none, none⟩ (some .mk') connectReads = .ok r := by
  refine (handleConnection_returns_iff emptyObjectLib_documented _ _ _).mpr
    ⟨scanHeaders_ok_iff.mp ⟨some (41, 2), by decide⟩, ?_⟩
  rintro h path body - - hsplit j clientId -
  have hrequest : splitRequest (received connectReads []) =
      .ok (bytes "/Connect", bytes "\x7b\x7d") := by decide
  cases hrequest.symm.trans hsplit
  have hcmd : commandOf emptyObjectLib (bytes "/Connect") (bytes "\x7b\x7d") =
      bytes "connect" := by rfl
  rw [hcmd]
  exact dispatchable_of_no_parameter (valid_bytes _) (by decide) (by decide)

/-- Nothing catches what `stoul` and `value` throw. -/
theorem requests_end_worker :
    handleConnection emptyObjectLib ⟨none, none, none⟩ (some .mk')
        [bytes "GET / HTTP/1.1\r\nContent-Length: x\r\n\r\n"] = .error .invalidArgument ∧
      handleConnection emptyObjectLib ⟨none, none, none⟩ (some .mk')
        [bytes "GET /SetParameter HTTP/1.1\r\n\r\n"] =
          .error (.json (.typeError 306 "cannot use value() with null")) := ⟨rfl, rfl⟩

end AdminServer

end StereoCamera
