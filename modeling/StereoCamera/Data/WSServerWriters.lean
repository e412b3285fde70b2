import StereoCamera.Data.WSFrameRoundTrip
import StereoCamera.Lib.Locks

/-! The threads of `WSServer` that write to the connection of one client: `client_loop` says that
it is ready, `send_loop` sends data frames, and `broadcast` may be called by anybody. One step is
one access, or one `SSL_write`. -/

namespace StereoCamera.WSServer.Writers
open Locks

/-- `caller n` is a thread outside the server that calls `broadcast`. -/
inductive Thread
  | loop
  | send
  | caller (n : ℕ)
  deriving DecidableEq

inductive Mutex
  | clients
  | send
  deriving DecidableEq

structure Shared where
  active : Bool
  sendQueue : List (DataType × DataBundle)
  /-- The calls of `SSL_write`: what they should write, and how much they took. A call that took
  nothing has failed. -/
  writes : List (Bytes × ℕ)

namespace Shared

def bytes (d : Shared) : Bytes := d.writes.flatMap fun w => w.1.take w.2

def sslWrite (d : Shared) (data : Bytes) (size : ℕ) : ℕ × Shared :=
  let n := min size data.length
  (n, { d with writes := d.writes ++ [(data, n)] })

end Shared

/-- What the connection, a camera, a caller or a clock decides. -/
inductive Answer
  | no
  | yes
  | takes (size : ℕ)
  | item (type : DataType) (bundle : DataBundle)
  | message (text : Bytes)
  deriving DecidableEq

def Answer.size : Answer → ℕ
  | .takes size => size
  | _ => 0

abbrev Next (P : Type) := Option (Move Thread Mutex P × Shared)

/-- One `SSL_write` of `ws_send_binary`, which has `hdr` and `data` left to write; on the right
what it returns. -/
def wsSendStep (hdr data : Bytes) (d : Shared) (size : ℕ) : (Bytes × Bytes ⊕ Bool) × Shared :=
  if hdr ≠ [] then
    let (n, d) := d.sslWrite hdr size
    (if n = 0 then .inr false else .inl (hdr.drop n, data), d)
  else if data ≠ [] then
    let (n, d) := d.sslWrite (data.take 16384) size
    (if n = 0 then .inr false else .inl ([], data.drop n), d)
  else (.inr true, d)

def binaryHeader (data : Bytes) : Bytes := buildHeader 0x82 (UInt64.ofNat data.length)

def textHeader (message : Bytes) : Bytes := buildHeader 0x81 (UInt64.ofNat message.length)

inductive LoopPc
  | greetLock
  | greeting (hdr data : Bytes)
  | greeted
  | running
  | leaving
  | finished
  deriving DecidableEq

def readyMessage : Bytes := bytes "\x7b\"status\":\"ready\"\x7d"

/-- `client_loop`; whether the ready message could be sent makes no difference. -/
def clientLoop (p : LoopPc) (d : Shared) (answer : Answer) : Next LoopPc :=
  match p with
  | .greetLock => some (.acquire .send (.greeting (binaryHeader readyMessage) readyMessage), d)
  | .greeting hdr data =>
    match wsSendStep hdr data d answer.size with
    | (.inl (hdr, data), d) => some (.goto (.greeting hdr data), d)
    | (.inr _, d) => some (.goto .greeted, d)
  | .greeted => some (.release .send .running, d)
  | .running =>
    match answer with
    | .item type bundle =>
      some (.goto .running,
        { d with sendQueue := d.sendQueue.filter (·.1 ≠ type) ++ [(type, bundle)] })
    | .no => some (.goto .leaving, d)
    | _ => some (.goto .running, d)
  | .leaving => some (.goto .finished, { d with active := false })
  | .finished => none

inductive SendPc
  | top
  | queue
  | sendLock (frame : Bytes)
  | sending (hdr data : Bytes)
  | clearing
  | unlocking
  | finished
  deriving DecidableEq

/-- What `send_to_one` makes of a bundle; both times are cast to `uint32_t`. -/
def bundleFrame (type : DataType) (bundle : DataBundle) : Bytes :=
  uint32Bytes (UInt32.ofNat type.toNat) ++
    uint32Bytes (UInt32.ofInt bundle.timestamp.sec.toInt) ++
    uint32Bytes (UInt32.ofInt bundle.timestamp.nsec.toInt) ++ bundle.payload

def sendLoop (p : SendPc) (d : Shared) (answer : Answer) : Next SendPc :=
  match p with
  | .top => some (.goto (if d.active && answer ≠ .no then .queue else .finished), d)
  | .queue =>
    match d.sendQueue with
    | [] => some (.goto .top, d)
    | (type, bundle) :: queue =>
      some (.goto (.sendLock (bundleFrame type bundle)), { d with sendQueue := queue })
  | .sendLock frame => some (.acquire .send (.sending (binaryHeader frame) frame), d)
  | .sending hdr data =>
    match wsSendStep hdr data d answer.size with
    | (.inl (hdr, data), d) => some (.goto (.sending hdr data), d)
    | (.inr true, d) => some (.goto .unlocking, d)
    | (.inr false, d) => some (.goto .clearing, d)
  | .clearing => some (.goto .unlocking, { d with active := false })
  | .unlocking => some (.release .send .top, d)
  | .finished => none

inductive CallerPc
  | idle
  | clientsLock (message : Bytes)
  | testing (message : Bytes)
  | sendLock (message : Bytes)
  | header (message : Bytes)
  | payload (message : Bytes)
  | unlocking
  | done
  deriving DecidableEq

/-- The size of a text is passed as an `int`, and a negative one is refused. -/
def intSized (message : Bytes) : Bytes :=
  message.take (Int.bmod message.length (2 ^ 32)).toNat

/-- `broadcast`, as far as this client is concerned. -/
def broadcast (p : CallerPc) (d : Shared) (answer : Answer) : Next CallerPc :=
  match p with
  | .idle =>
    match answer with
    | .message text => some (.goto (.clientsLock text), d)
    | _ => none
  | .clientsLock message => some (.acquire .clients (.testing message), d)
  | .testing message => some (.goto (if d.active then .sendLock message else .done), d)
  | .sendLock message => some (.acquire .send (.header message), d)
  | .header message =>
    some (.goto (.payload message), (d.sslWrite (textHeader message) answer.size).2)
  | .payload message => some (.goto .unlocking, (d.sslWrite (intSized message) answer.size).2)
  | .unlocking => some (.release .send .done, d)
  | .done => some (.release .clients .idle, d)

inductive Pc
  | loop (p : LoopPc)
  | send (p : SendPc)
  | caller (p : CallerPc)
  deriving DecidableEq

def lift {P : Type} (f : P → Pc) (next : Next P) : Next Pc :=
  next.map fun r => (r.1.map f, r.2)

def threads : Program Thread Mutex Pc Shared Answer where
  next t p d answer :=
    match t, p with
    | .loop, .loop p => lift .loop (clientLoop p d answer)
    | .send, .send p => lift .send (sendLoop p d answer)
    | .caller _, .caller p => lift .caller (broadcast p d answer)
    | _, _ => none
  finished
    | .loop p => p = .finished
    | .send p => p = .finished
    | .caller _ => false

abbrev ThreadState := State Thread Mutex Pc Shared

/-- As `accept_loop` leaves a client that it has just added. -/
def started : ThreadState where
  pc
    | .loop => .loop .greetLock
    | .send => .send .top
    | .caller _ => .caller .idle
  owner _ := none
  data := ⟨true, [], []⟩

end StereoCamera.WSServer.Writers
