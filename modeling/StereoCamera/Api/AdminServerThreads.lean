import Mathlib.Data.Nat.Notation
import StereoCamera.Lib.Locks

/-! The threads of `AdminServer` (`api/AdminServer.cpp`): the accept thread fills the queue of
pending connections, the workers empty it, and `stop` joins them all. One step is one access. -/

namespace StereoCamera.AdminServer.Threads
open Locks

inductive Thread
  | accept
  | stopper
  | worker (i : ℕ)
  deriving DecidableEq

inductive Mutex
  | queue
  deriving DecidableEq

/-- Connections are named by the order in which they were queued. -/
structure Shared where
  running : Bool
  /-- `server_fd` has not been shut down. -/
  listening : Bool
  pending : List ℕ
  queued : ℕ
  handled : List ℕ

/-- The moves of a thread whose places are `P`. What a peer or the clock decides is a `Bool`. -/
abbrev Next (P : Type) := Option (Move Thread Mutex P × Shared)

inductive AcceptPc
  | top
  | accepting
  | failed
  | pushLock
  | pushing
  | finished
  deriving DecidableEq

/-- `accept` fails once the socket is shut down. A connection whose handshake fails, and one
for which `accept` failed while the server runs, leads back to the top. -/
def acceptLoop (p : AcceptPc) (d : Shared) (answer : Bool) : Next AcceptPc :=
  match p with
  | .top => some (.goto (if d.running then .accepting else .finished), d)
  | .accepting => some (.goto (if d.listening && answer then .pushLock else .failed), d)
  | .failed => some (.goto (if d.running then .top else .finished), d)
  | .pushLock => some (.acquire .queue .pushing, d)
  | .pushing =>
    some (.release .queue .top,
      { d with pending := d.pending ++ [d.queued], queued := d.queued + 1 })
  | .finished => none

inductive WorkerPc
  | top
  | queueLock
  | waiting
  | sleeping
  | testing
  | popping
  | calling (conn : ℕ)
  | handling
  | finished
  deriving DecidableEq

/-- `worker_loop`. Who sleeps may wake up for no reason; who wakes because the time is over goes
on whatever the predicate says. -/
def workerLoop (p : WorkerPc) (d : Shared) (answer : Bool) : Next WorkerPc :=
  match p with
  | .top => some (.goto (if d.running then .queueLock else .finished), d)
  | .queueLock => some (.acquire .queue .waiting, d)
  | .waiting =>
    if !d.running || !d.pending.isEmpty then some (.goto .testing, d)
    else some (.release .queue .sleeping, d)
  | .sleeping => some (.acquire .queue (if answer then .waiting else .testing), d)
  | .testing =>
    if !d.running && d.pending.isEmpty then some (.release .queue .finished, d)
    else some (.goto .popping, d)
  | .popping =>
    match d.pending with
    | [] => some (.release .queue .top, d)
    | conn :: pending => some (.release .queue (.calling conn), { d with pending := pending })
  | .calling conn => some (.goto .handling, { d with handled := d.handled ++ [conn] })
  | .handling => some (.goto .top, d)
  | .finished => none

inductive StopPc
  | idle
  | shutdown
  | joinAccept
  | joinWorker (i : ℕ)
  | returned
  deriving DecidableEq

def stop (workerCount : ℕ) (p : StopPc) (d : Shared) (answer : Bool) : Next StopPc :=
  match p with
  | .idle => if answer then some (.goto .shutdown, { d with running := false }) else none
  | .shutdown => some (.goto .joinAccept, { d with listening := false })
  | .joinAccept => some (.join .accept (.joinWorker 0), d)
  | .joinWorker i =>
    if i < workerCount then some (.join (.worker i) (.joinWorker (i + 1)), d)
    else some (.goto .returned, d)
  | .returned => none

inductive Pc
  | accept (p : AcceptPc)
  | stop (p : StopPc)
  | worker (p : WorkerPc)
  deriving DecidableEq

def lift {P : Type} (f : P → Pc) (next : Next P) : Next Pc :=
  next.map fun r => (r.1.map f, r.2)

def threads (workerCount : ℕ) : Program Thread Mutex Pc Shared Bool where
  next t p d answer :=
    match t, p with
    | .accept, .accept p => lift .accept (acceptLoop p d answer)
    | .stopper, .stop p => lift .stop (stop workerCount p d answer)
    | .worker _, .worker p => lift .worker (workerLoop p d answer)
    | _, _ => none
  finished
    | .accept p => p = .finished
    | .stop p => p = .returned
    | .worker p => p = .finished

abbrev ThreadState := State Thread Mutex Pc Shared

/-- As `start` leaves the server. A worker that was not created is finished. -/
def started (workerCount : ℕ) : ThreadState where
  pc
    | .accept => .accept .top
    | .stopper => .stop .idle
    | .worker i => .worker (if i < workerCount then .top else .finished)
  owner _ := none
  data := ⟨true, true, [], 0, []⟩

end StereoCamera.AdminServer.Threads
