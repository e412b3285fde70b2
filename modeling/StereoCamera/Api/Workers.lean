import StereoCamera.Lib.Transition
import StereoCamera.Api.ClientHandler

/-! Commands that run at the same time in several `AdminServer` workers. A step is a part of a
command that runs under `sessions_mutex_`, or a call of the slot manager. -/

namespace StereoCamera.ClientHandler
open Transition

inductive Task
  | command (cmd : Command)
  | startIds (clientId : String) (types : List DataType)
  | startCamera (clientId cameraId : String) (types : List DataType)
  | startSlot (cameraId : String) (types : List DataType)
  | stopIds (types : List DataType)
  | stopSlot (cameraId : String) (types : List DataType)
  | done
  deriving DecidableEq

def startSlotManager (h : ClientHandler) (cameraId : String) (types : List DataType) :
    ClientHandler :=
  { h with sdkManager := h.sdkManager.map fun m => (m.startCapture cameraId types).1 }

def firstSection (h : ClientHandler) : Command → ClientHandler × Task
  | .connect c => ((h.handleConnect c).1, .done)
  | .disconnect c =>
    match h.disconnectSession c with
    | (h, none) => (h, .done)
    | (h, some (typesToStop, camId)) =>
      (h, if h.sdkManager.isSome ∧ typesToStop ≠ [] ∧ camId ≠ "" then .stopSlot camId typesToStop
        else .done)
  | .startCapture c types =>
    match h.startSession c types with
    | (h, false) => (h, .done)
    | (h, true) => (h, if h.sdkManager.isSome then .startIds c (captureTypes types) else .done)
  | .stopCapture c types =>
    match h.stopSession c types with
    | (h, false) => (h, .done)
    | (h, true) => (h, if h.sdkManager.isSome then .stopIds (captureTypes types) else .done)

def advance (h : ClientHandler) : Task → Option (ClientHandler × Task)
  | .command cmd => some (h.firstSection cmd)
  | .startIds c types => h.sdkManager.map fun m => (h, .startCamera c (firstCamera m) types)
  | .startCamera c cam types => some (h.setCamera c cam, .startSlot cam types)
  | .startSlot cam types => some (h.startSlotManager cam types, .done)
  | .stopIds types => h.sdkManager.map fun m => (h, .stopSlot (firstCamera m) types)
  | .stopSlot cam types => some (h.stopCamera cam types, .done)
  | .done => none

structure Pair where
  handler : ClientHandler
  first : Task
  second : Task

def pairStep (p : Pair) : Bool → Option Pair
  | true => (p.handler.advance p.first).map fun r => ⟨r.1, r.2, p.second⟩
  | false => (p.handler.advance p.second).map fun r => ⟨r.1, p.first, r.2⟩

structure Pool where
  handler : ClientHandler
  task : ℕ → Task

inductive PoolAction
  | take (worker : ℕ) (cmd : Command)
  | go (worker : ℕ)

def poolStep (p : Pool) : PoolAction → Option Pool
  | .take i cmd =>
    if p.task i = .done then some { p with task := Function.update p.task i (.command cmd) }
    else none
  | .go i => (p.handler.advance (p.task i)).map fun r => ⟨r.1, Function.update p.task i r.2⟩

def Pool.init (m : SDKSlotManager) : Pool := ⟨mk'.setSdkManager m, fun _ => .done⟩

theorem run_false {h h' : ClientHandler} {t t' : Task} (hadv : h.advance t = some (h', t'))
    (sched : List Bool) :
    run pairStep ⟨h, .done, t⟩ (false :: sched) = run pairStep ⟨h', .done, t'⟩ sched := by
  rw [run_cons, pairStep, hadv]
  rfl

theorem run_command {h h' : ClientHandler} {cmd : Command} {t : Task}
    (hfirst : h.firstSection cmd = (h', t)) (sched : List Bool) :
    run pairStep ⟨h, .done, .command cmd⟩ (false :: sched) = run pairStep ⟨h', .done, t⟩ sched :=
  run_false (by rw [advance, hfirst]) sched

/-! Alone, the sections of a command are the handler of the command. -/

theorem run_alone_of_done {h : ClientHandler} {cmd : Command}
    (hfirst : h.firstSection cmd = ((h.handle cmd).1, .done)) :
    ∃ sched, run pairStep ⟨h, .done, .command cmd⟩ sched =
      some ⟨(h.handle cmd).1, .done, .done⟩ :=
  ⟨[false], run_command hfirst []⟩

theorem stopCamera_of_none {h : ClientHandler} (hm : h.sdkManager = none) (cameraId : String)
    (types : List DataType) : h.stopCamera cameraId types = h := by
  unfold stopCamera
  rw [hm, Option.map_none, ← hm]

theorem run_alone_disconnect (h : ClientHandler) (c : String) :
    ∃ sched, run pairStep ⟨h, .done, .command (.disconnect c)⟩ sched =
      some ⟨(h.handleDisconnect c).1, .done, .done⟩ := by
  rcases hd : h.disconnectSession c with ⟨h₁, _ | ⟨types, cam⟩⟩
  · refine run_alone_of_done ?_
    simp only [firstSection, handle, handleDisconnect, hd]
  have hfirst : h.firstSection (.disconnect c) = (h₁,
      if h₁.sdkManager.isSome ∧ types ≠ [] ∧ cam ≠ "" then .stopSlot cam types else .done) := by
    simp only [firstSection, hd]
  simp only [handleDisconnect, hd]
  by_cases hstop : types ≠ [] ∧ cam ≠ ""
  · rw [if_pos hstop]
    cases hm : h₁.sdkManager with
    | some m =>
      refine ⟨[false, false], ?_⟩
      rw [run_command hfirst, if_pos ⟨by rw [hm]; rfl, hstop⟩]
      rfl
    | none =>
      -- Without a manager there is no second section, and the handler's call does nothing.
      refine ⟨[false], ?_⟩
      rw [run_command hfirst, if_neg (by rw [hm]; exact fun hc => Bool.false_ne_true hc.1),
        stopCamera_of_none hm]
      rfl
  · refine ⟨[false], ?_⟩
    rw [run_command hfirst, if_neg fun hc => hstop hc.2, if_neg hstop]
    rfl

theorem run_alone_startCapture (h : ClientHandler) (c : String) (types : List DataType) :
    ∃ sched, run pairStep ⟨h, .done, .command (.startCapture c types)⟩ sched =
      some ⟨(h.handleStartCapture c types).1, .done, .done⟩ := by
  rcases hs : h.startSession c types with ⟨h₁, _ | _⟩
  · refine run_alone_of_done ?_
    simp only [firstSection, handle, handleStartCapture, hs]
  have hfirst : h.firstSection (.startCapture c types) = (h₁,
      if h₁.sdkManager.isSome then .startIds c (captureTypes types) else .done) := by
    simp only [firstSection, hs]
  rcases hm : h₁.sdkManager with _ | m
  · refine ⟨[false], ?_⟩
    rw [run_command hfirst, if_neg (by rw [hm]; exact Bool.false_ne_true)]
    simp only [handleStartCapture, hs, hm, run_nil]
  · -- The session, the camera ids, the camera of the session, the slot.
    refine ⟨[false, false, false, false], ?_⟩
    have hids : h₁.advance (.startIds c (captureTypes types)) =
        some (h₁, .startCamera c (firstCamera m) (captureTypes types)) := by
      simp only [advance, hm, Option.map_some]
    have hset : (h₁.setCamera c (firstCamera m)).sdkManager = some m := hm
    rw [run_command hfirst, if_pos (by rw [hm]; rfl), run_false hids, run_false rfl,
      run_false rfl]
    simp only [handleStartCapture, hs, hm, run_nil, startSlotManager, hset, Option.map_some,
      setSdkManager]

theorem run_alone_stopCapture (h : ClientHandler) (c : String) (types : List DataType) :
    ∃ sched, run pairStep ⟨h, .done, .command (.stopCapture c types)⟩ sched =
      some ⟨(h.handleStopCapture c types).1, .done, .done⟩ := by
  rcases hs : h.stopSession c types with ⟨h₁, _ | _⟩
  · refine run_alone_of_done ?_
    simp only [firstSection, handle, handleStopCapture, hs]
  have hfirst : h.firstSection (.stopCapture c types) = (h₁,
      if h₁.sdkManager.isSome then .stopIds (captureTypes types) else .done) := by
    simp only [firstSection, hs]
  rcases hm : h₁.sdkManager with _ | m
  · refine ⟨[false], ?_⟩
    rw [run_command hfirst, if_neg (by rw [hm]; exact Bool.false_ne_true)]
    simp only [handleStopCapture, hs, hm, run_nil]
  · refine ⟨[false, false, false], ?_⟩
    have hids : h₁.advance (.stopIds (captureTypes types)) =
        some (h₁, .stopSlot (firstCamera m) (captureTypes types)) := by
      simp only [advance, hm, Option.map_some]
    rw [run_command hfirst, if_pos (by rw [hm]; rfl), run_false hids, run_false rfl]
    simp only [handleStopCapture, hs, hm, run_nil]

theorem run_alone (h : ClientHandler) (cmd : Command) :
    ∃ sched, run pairStep ⟨h, .done, .command cmd⟩ sched =
      some ⟨(h.handle cmd).1, .done, .done⟩ := by
  cases cmd with
  | connect c => exact run_alone_of_done rfl
  | disconnect c => exact run_alone_disconnect h c
  | startCapture c types => exact run_alone_startCapture h c types
  | stopCapture c types => exact run_alone_stopCapture h c types

end StereoCamera.ClientHandler
