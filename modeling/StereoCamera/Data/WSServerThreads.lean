import StereoCamera.Common.Types
import StereoCamera.Lib.Locks

/-! The threads of `WSServer` (`data/WSServer.cpp`) as far as they take mutexes, join one
another and read or write the flags that decide where they go. One step is one access. -/

namespace StereoCamera.WSServer.Threads
open Locks

/-- `caller n` is a thread outside the server that uses its functions. -/
inductive Thread
  | accept
  | stopper
  | encode
  | caller (n : ℕ)
  | loop (c : ℕ)
  | send (c : ℕ)
  deriving DecidableEq

inductive Mutex
  | clients
  | encoded
  | encode
  | send (c : ℕ)
  | sendQueue (c : ℕ)
  deriving DecidableEq

/-- `loopThread` and `sendThread` say whether the thread was created. -/
structure WSSClient where
  active : Bool := true
  loopThread : Bool := false
  sendThread : Bool := false
  sendRunning : Bool := false
  sendQueue : List DataType := []

/-- Clients are named by the order in which they connected. -/
structure Shared where
  running : Bool
  clients : List ℕ
  hadClients : Bool
  connected : ℕ
  client : ℕ → WSSClient
  frameCount : UInt32

def Shared.setClient (d : Shared) (c : ℕ) (f : WSSClient → WSSClient) : Shared :=
  { d with client := Function.update d.client c (f (d.client c)) }

/-- What `select`, a peer, a clock or a caller decides. -/
inductive Answer
  | no
  | yes
  | item (type : DataType)
  deriving DecidableEq

abbrev Next (P : Type) := Option (Move Thread Mutex P × Shared)

/-- `if (thread && thread->joinable()) thread->join();` -/
def joinIf {P : Type} (started : Bool) (t : Thread) (next : P) (d : Shared) : Next P :=
  some (if started then .join t next else .goto next, d)

inductive AcceptPc
  | top
  | cleanLock
  | cleaning (rest : List ℕ)
  | joinSend (c : ℕ) (rest : List ℕ)
  | joinLoop (c : ℕ) (rest : List ℕ)
  | erase (c : ℕ) (rest : List ℕ)
  | select
  | pushLock
  | pushing
  | startLoop (c : ℕ)
  | setSendRunning (c : ℕ)
  | startSend (c : ℕ)
  | finished
  deriving DecidableEq

def acceptLoop (p : AcceptPc) (d : Shared) (answer : Answer) : Next AcceptPc :=
  match p with
  | .top => some (.goto (if d.running then .cleanLock else .finished), d)
  | .cleanLock => some (.acquire .clients (.cleaning d.clients), d)
  | .cleaning [] =>
    -- The callback of the last disconnect runs after the mutex is released.
    some (.release .clients .select, { d with hadClients := d.hadClients && !d.clients.isEmpty })
  | .cleaning (c :: rest) =>
    if (d.client c).active then some (.goto (.cleaning rest), d)
    else some (.goto (.joinSend c rest), d.setClient c ({ · with sendRunning := false }))
  | .joinSend c rest => joinIf (d.client c).sendThread (.send c) (.joinLoop c rest) d
  | .joinLoop c rest => joinIf (d.client c).loopThread (.loop c) (.erase c rest) d
  | .erase c rest => some (.goto (.cleaning rest), { d with clients := d.clients.erase c })
  | .select => some (.goto (if answer = .yes then .pushLock else .top), d)
  | .pushLock => some (.acquire .clients .pushing, d)
  | .pushing =>
    some (.release .clients (.startLoop d.connected),
      { d with clients := d.clients ++ [d.connected], connected := d.connected + 1
               hadClients := true })
  | .startLoop c =>
    some (.goto (.setSendRunning c), d.setClient c ({ · with loopThread := true }))
  | .setSendRunning c =>
    some (.goto (.startSend c), d.setClient c ({ · with sendRunning := true }))
  | .startSend c => some (.goto .top, d.setClient c ({ · with sendThread := true }))
  | .finished => none

inductive StopPc
  | idle
  | joinAccept
  | joinEncode
  | clientsLock
  | stopping (rest : List ℕ)
  | stopSend (c : ℕ) (rest : List ℕ)
  | joinSend (c : ℕ) (rest : List ℕ)
  | joinLoop (c : ℕ) (rest : List ℕ)
  deriving DecidableEq

def stop (p : StopPc) (d : Shared) (answer : Answer) : Next StopPc :=
  match p with
  | .idle => if answer = .yes then some (.goto .joinAccept, { d with running := false }) else none
  | .joinAccept => some (.join .accept .joinEncode, d)
  | .joinEncode => some (.join .encode .clientsLock, d)
  | .clientsLock => some (.acquire .clients (.stopping d.clients), d)
  | .stopping [] => some (.release .clients .idle, { d with clients := [] })
  | .stopping (c :: rest) =>
    some (.goto (.stopSend c rest), d.setClient c ({ · with active := false }))
  | .stopSend c rest =>
    some (.goto (.joinSend c rest), d.setClient c ({ · with sendRunning := false }))
  | .joinSend c rest => joinIf (d.client c).sendThread (.send c) (.joinLoop c rest) d
  | .joinLoop c rest => joinIf (d.client c).loopThread (.loop c) (.stopping rest) d

inductive EncodePc
  | top
  | work
  | encodedLock
  | encodedHeld
  | encodeLock
  | waiting
  | finished
  deriving DecidableEq

/-- `wait_for` gives the mutex back while it sleeps and takes it again to look. -/
def encodeLoop (p : EncodePc) (d : Shared) (answer : Answer) : Next EncodePc :=
  match p with
  | .top => some (.goto (if d.running then .work else .finished), d)
  | .work =>
    match answer with
    | .item _ => some (.goto .encodedLock, d)
    | .yes => some (.goto .top, d)
    | .no => some (.goto .encodeLock, d)
  | .encodedLock => some (.acquire .encoded .encodedHeld, d)
  | .encodedHeld => some (.release .encoded .work, d)
  | .encodeLock => some (.acquire .encode .waiting, d)
  | .waiting => some (.release .encode (if answer = .no then .encodeLock else .top), d)
  | .finished => none

inductive CallerPc
  | idle
  | broadcastLock
  | sending (rest : List ℕ)
  | sendLock (c : ℕ) (rest : List ℕ)
  | writing (c : ℕ) (rest : List ℕ)
  | countLock
  | counting
  | notifyLock
  | notifying
  deriving DecidableEq

/-- `broadcast`, `client_count` and `push_encode`, as often as the caller likes. -/
def caller (p : CallerPc) (d : Shared) (answer : Answer) : Next CallerPc :=
  match p with
  | .idle =>
    match answer with
    | .yes => some (.goto .broadcastLock, d)
    | .no => some (.goto .countLock, d)
    | .item _ => some (.goto .notifyLock, d)
  | .broadcastLock => some (.acquire .clients (.sending d.clients), d)
  | .sending [] => some (.release .clients .idle, d)
  | .sending (c :: rest) =>
    some (.goto (if (d.client c).active then .sendLock c rest else .sending rest), d)
  | .sendLock c rest => some (.acquire (.send c) (.writing c rest), d)
  | .writing c rest => some (.release (.send c) (.sending rest), d)
  | .countLock => some (.acquire .clients .counting, d)
  | .counting => some (.release .clients .idle, d)
  | .notifyLock => some (.acquire .encode .notifying, d)
  | .notifying => some (.release .encode .idle, d)

inductive LoopPc
  | notStarted
  | greetLock
  | greeting
  | top
  | select
  | readLock
  | reading
  | subscriptions
  | slots
  | encodedLock
  | encodedHeld
  | queueLock (type : DataType)
  | queueHeld (type : DataType)
  | counting
  | deactivate
  | stopSend
  | load
  | loadAgain
  | clientsLock
  | clientsHeld
  | finished
  deriving DecidableEq

def clientLoop (c : ℕ) (p : LoopPc) (d : Shared) (answer : Answer) : Next LoopPc :=
  match p with
  | .notStarted => if (d.client c).loopThread then some (.goto .greetLock, d) else none
  | .greetLock => some (.acquire (.send c) .greeting, d)
  | .greeting => some (.release (.send c) .top, d)
  | .top =>
    some (.goto (if d.running && (d.client c).active then .select else .deactivate), d)
  | .select => some (.goto (if answer = .yes then .readLock else .subscriptions), d)
  | .readLock => some (.acquire (.send c) .reading, d)
  | .reading => some (.release (.send c) (if answer = .yes then .subscriptions else .deactivate), d)
  | .subscriptions => some (.goto (if answer = .no then .top else .slots), d)
  | .slots =>
    match answer with
    | .no => some (.goto .top, d)
    | .yes => some (.goto .slots, d)
    | .item type =>
      some (.goto (if type = .stereoImage then .encodedLock else .queueLock type), d)
  | .encodedLock => some (.acquire .encoded .encodedHeld, d)
  | .encodedHeld =>
    some (.release .encoded (if answer = .no then .slots else .queueLock .stereoImage), d)
  | .queueLock type => some (.acquire (.sendQueue c) (.queueHeld type), d)
  | .queueHeld type =>
    some (.release (.sendQueue c) .counting,
      d.setClient c fun s => { s with sendQueue := s.sendQueue.filter (· ≠ type) ++ [type] })
  | .counting => some (.goto .slots, { d with frameCount := d.frameCount + 1 })
  | .deactivate => some (.goto .stopSend, d.setClient c ({ · with active := false }))
  | .stopSend => some (.goto .load, d.setClient c ({ · with sendRunning := false }))
  -- The two loads of `frame_count_` are apart.
  | .load => some (.goto (if d.frameCount % 500 = 0 then .loadAgain else .finished), d)
  | .loadAgain => some (.goto (if 0 < d.frameCount then .clientsLock else .finished), d)
  | .clientsLock => some (.acquire .clients .clientsHeld, d)
  | .clientsHeld => some (.release .clients .finished, d)
  | .finished => none

inductive SendPc
  | notStarted
  | top
  | queueLock
  | waiting
  | sendLock
  | sending
  | finished
  deriving DecidableEq

def sendLoop (c : ℕ) (p : SendPc) (d : Shared) (answer : Answer) : Next SendPc :=
  match p with
  | .notStarted => if (d.client c).sendThread then some (.goto .top, d) else none
  | .top =>
    some (.goto
      (if (d.client c).sendRunning && (d.client c).active then .queueLock else .finished), d)
  | .queueLock => some (.acquire (.sendQueue c) .waiting, d)
  | .waiting =>
    match (d.client c).sendQueue with
    | [] =>
      some (.release (.sendQueue c)
        (if answer = .no ∧ (d.client c).sendRunning then .queueLock else .top), d)
    | _ :: queue =>
      some (.release (.sendQueue c) .sendLock, d.setClient c ({ · with sendQueue := queue }))
  | .sendLock => some (.acquire (.send c) .sending, d)
  | .sending =>
    some (.release (.send c) .top,
      if answer = .no then d.setClient c ({ · with active := false }) else d)
  | .finished => none

inductive Pc
  | accept (p : AcceptPc)
  | stop (p : StopPc)
  | encode (p : EncodePc)
  | caller (p : CallerPc)
  | loop (p : LoopPc)
  | send (p : SendPc)
  deriving DecidableEq

def lift {P : Type} (f : P → Pc) (next : Next P) : Next Pc :=
  next.map fun r => (r.1.map f, r.2)

def threads : Program Thread Mutex Pc Shared Answer where
  next t p d answer :=
    match t, p with
    | .accept, .accept p => lift .accept (acceptLoop p d answer)
    | .stopper, .stop p => lift .stop (stop p d answer)
    | .encode, .encode p => lift .encode (encodeLoop p d answer)
    | .caller _, .caller p => lift .caller (caller p d answer)
    | .loop c, .loop p => lift .loop (clientLoop c p d answer)
    | .send c, .send p => lift .send (sendLoop c p d answer)
    | _, _ => none
  finished
    | .accept p => p = .finished
    | .encode p => p = .finished
    | .loop p => p = .finished
    | .send p => p = .finished
    | _ => false

abbrev ThreadState := State Thread Mutex Pc Shared

def started : ThreadState where
  pc
    | .accept => .accept .top
    | .stopper => .stop .idle
    | .encode => .encode .top
    | .caller _ => .caller .idle
    | .loop _ => .loop .notStarted
    | .send _ => .send .notStarted
  owner _ := none
  data := ⟨true, [], false, 0, fun _ => {}, 0⟩

end StereoCamera.WSServer.Threads
