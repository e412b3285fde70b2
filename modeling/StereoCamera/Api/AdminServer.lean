import StereoCamera.Api.HandlerQueries
import StereoCamera.Common.Std

/-! `AdminServer::Impl` (`api/AdminServer.cpp`): how a worker reads a request, carries it out
and answers. What the SSL calls of a connection return is given. -/

namespace StereoCamera.AdminServer
open StdString

def commandNames : List (String × String) :=
  [("checkstatus", "check_status"), ("init", "init"), ("dispose", "dispose"),
    ("connect", "connect"), ("disconnect", "disconnect"), ("startcapture", "start_capture"),
    ("stopcapture", "stop_capture"), ("setparameter", "set_parameter"),
    ("getparameter", "get_parameter")]

def pathToCommand (path : Bytes) : Bytes :=
  let p := match path with
    | 0x2F :: p => p
    | p => p
  let lower := p.map toLower
  ((commandNames.find? fun n => bytes n.1 = lower).map fun n => bytes n.2).getD lower

def headerEnd (raw : Bytes) : Option ℕ := find (bytes "\r\n\r\n") raw

/-- What stands behind `Content-Length:`, up to the end of the line. -/
def contentLengthText (headerBlock : Bytes) : Except StdException (Option Bytes) :=
  match (find (bytes "Content-Length:") headerBlock).orElse
      fun _ => find (bytes "content-length:") headerBlock with
  | none => .ok none
  | some clPos =>
    (substr headerBlock (clPos + 15)
      ((findFrom (bytes "\r\n") headerBlock clPos).map (· - clPos - 15))).map some

def contentLength (headerBlock : Bytes) : Except StdException UInt64 := do
  match ← contentLengthText headerBlock with
  | none => return 0
  | some text => stoul text

/-- The variables of the reading loop; `headers` holds `header_end_pos` and `content_length`
once the headers are complete. -/
structure Reading where
  raw : Bytes
  headers : Option (ℕ × UInt64)

def scanHeaders (raw : Bytes) : Except StdException (Option (ℕ × UInt64)) :=
  match headerEnd raw with
  | none => .ok none
  | some pos => do
    let headerBlock ← substr raw 0 (some pos)
    return some (pos, ← contentLength headerBlock)

def Reading.scan (r : Reading) (raw : Bytes) : Except StdException (Option (ℕ × UInt64)) :=
  if r.headers.isSome then .ok r.headers else scanHeaders raw

/-- The reading loop. The list holds what the calls of `SSL_read` deliver: one that delivers
nothing ends the loop. Behind the last the loop waits in the next call, which is `none`. -/
def readLoop : List Bytes → Reading → Except StdException (Option Reading)
  | [], _ => .ok none
  | chunk :: chunks, r =>
    if chunk = [] then .ok (some r)
    else do
      let raw := r.raw ++ chunk
      let headers ← r.scan raw
      match headers with
      | some (pos, len) =>
        if len.toNat ≤ raw.length - pos - 4 then return some ⟨raw, headers⟩
        else readLoop chunks ⟨raw, headers⟩
      | none => readLoop chunks ⟨raw, headers⟩

/-- The loop over a stream that ends behind the deliveries, so that it never waits. -/
def receive (reads : List Bytes) (r : Reading) : Except StdException Reading := do
  return (← readLoop (reads ++ [[]]) r).getD r

def requestLine (header : Bytes) : Except StdException (Bytes × Bytes) :=
  match findFrom (bytes " ") header 0 with
  | none => return (bytes "GET", bytes "/")
  | some firstSpace => do
    let method ← substr header 0 (some firstSpace)
    match findFrom (bytes " ") header (firstSpace + 1) with
    | none => return (method, bytes "/")
    | some secondSpace =>
      return (method, ← substr header (firstSpace + 1) (some (secondSpace - firstSpace - 1)))

def splitRequest (raw : Bytes) : Except StdException (Bytes × Bytes) :=
  match headerEnd raw with
  | none => return (bytes "/", raw)
  | some pos => do
    let header ← substr raw 0 (some pos)
    let body ← substr raw (pos + 4) none
    let (_, path) ← requestLine header
    return (path, body)

def isJsonBody (body : Bytes) : Bool := body.head? = some 0x7B

/-- A command in the body replaces that of the path, unless reading it throws. -/
def commandOf (lib : Libraries) (path body : Bytes) : Bytes :=
  let cmd := pathToCommand path
  if isJsonBody body then
    match lib.parse body with
    | .error _ => cmd
    | .ok j =>
      if j.contains "command" then
        match j.value "command" cmd with
        | .error _ => cmd
        | .ok cmd => cmd
      else cmd
  else cmd

/-- The first `try` block of `route`: the body and the client it names. -/
def readBody (lib : Libraries) (body : Bytes) : Except JsonException (Json × Bytes) :=
  if isJsonBody body then do
    let j ← lib.parse body
    return (j, ← j.value "client_id" (bytes "default"))
  else return (.null, bytes "default")

def dataTypes (j : Json) : List DataType :=
  if j.contains "data_types" then (j.item "data_types").elements.map Json.getDataType else []

def parameterValue (j : Json) : ParameterValue :=
  if j.contains "value" then
    match j.item "value" with
    | .integer n => { intVal := Int32.ofInt n, type := .integer }
    | .float f => { floatVal := f, type := .float }
    | .string s => { enumVal := s, type := .enum }
    | _ => {}
  else {}

/-- Outside every `try` block. -/
def dispatch (lib : Libraries) (att : Attached) (h : ClientHandler) (cmd : Bytes) (j : Json)
    (clientId : String) : Except JsonException (ClientHandler × Response) :=
  if cmd = bytes "init" then return (h, h.handleInit clientId)
  else if cmd = bytes "dispose" then return (h, h.handleDispose clientId)
  else if cmd = bytes "connect" then return h.handleConnect clientId
  else if cmd = bytes "disconnect" then return h.handleDisconnect clientId
  else if cmd = bytes "check_status" then return (h, h.handleCheckStatus att clientId)
  else if cmd = bytes "start_capture" then return h.handleStartCapture clientId (dataTypes j)
  else if cmd = bytes "stop_capture" then return h.handleStopCapture clientId (dataTypes j)
  else if cmd = bytes "set_parameter" then do
    let name ← j.value "name" []
    return (h, ← h.handleSetParameter lib clientId name (parameterValue j))
  else if cmd = bytes "get_parameter" then do
    return (h, ← h.handleGetParameter lib clientId (← j.value "name" []))
  else return (h, ⟨.error, bytes "Unknown command: " ++ cmd, .object []⟩)

def replyJson (resp : Response) : Json :=
  .object [("code", .integer resp.code.toInt.toInt), ("detail", resp.detail),
    ("message", .string resp.message)]

def route (lib : Libraries) (att : Attached) (h : ClientHandler) (cmd body : Bytes) :
    Except JsonException (ClientHandler × Json) :=
  match readBody lib body with
  | .error _ =>
    return (h, .object [("code", .integer 1), ("message", .string (bytes "Invalid JSON body"))])
  | .ok (j, clientId) => do
    let (h, resp) ← dispatch lib att h cmd j (Utf8.decode clientId)
    return (h, replyJson resp)

def httpResponse (jsonStr : Bytes) : Bytes :=
  bytes "HTTP/1.1 200 OK\r\nContent-Type: application/json\r\nContent-Length: " ++
    bytes (toString jsonStr.length) ++ bytes "\r\nConnection: close\r\n\r\n" ++ jsonStr

def answer (lib : Libraries) (att : Attached) (h : ClientHandler) (cmd body : Bytes) :
    Except JsonException (ClientHandler × Bytes) := do
  let (h, resp) ← route lib att h cmd body
  return (h, httpResponse (← resp.dump lib.print))

/-- The handler that a connection leaves behind and the reply written to it, if any; the
connection is closed in either case. The stream ends behind `reads`. -/
def handleConnection (lib : Libraries) (att : Attached) (handler : Option ClientHandler)
    (reads : List Bytes) : Except StdException (Option ClientHandler × Option Bytes) := do
  let r ← receive reads ⟨[], none⟩
  match handler with
  | none => return (none, none)
  | some h =>
    if r.raw = [] then return (handler, none)
    else
      let (path, body) ← splitRequest r.raw
      match answer lib att h (commandOf lib path body) body with
      | .error e => .error (.json e)
      | .ok (h, reply) => return (some h, some reply)

end StereoCamera.AdminServer
