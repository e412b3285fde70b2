import StereoCamera.Data.DataPipeline
import StereoCamera.Lib.Condition

/-! Who wakes `encode_loop` and `send_loop` (`data/WSServer.cpp`). Neither sleeps on work that
nobody is going to tell it of, although what stops them may come while they are not looking. One
step is one access; the bounded queues are taken for the lists that they implement. -/

namespace StereoCamera.WSServer.WakeUps
open Condition Transition

/-- What the clock or the caller of a function decides. -/
inductive Answer
  | no
  | yes
  | frame (group : DataGroup) (frame : ChannelFrame)
  | item (type : DataType) (bundle : DataBundle)

/-! ## The encode loop -/

inductive EncodeThread
  | publisher
  | encoder
  | stopper
  deriving DecidableEq

instance fintypeEncodeThread : Fintype EncodeThread where
  elems := {.publisher, .encoder, .stopper}
  complete t := by cases t <;> decide

structure EncodeShared where
  running : Bool
  queues : DataGroup → List ChannelFrame
  maxDepth : ℕ

namespace EncodeShared

def setQueue (d : EncodeShared) (group : DataGroup) (queue : List ChannelFrame) : EncodeShared :=
  { d with queues := Function.update d.queues group queue }

def count (d : EncodeShared) (groups : List DataGroup) : ℕ :=
  (groups.map fun group => (d.queues group).length).sum

def waiting (d : EncodeShared) : ℕ :=
  d.count [.visualGeometric2D, .visualGeometric3D, .sensorTracking]

end EncodeShared

inductive PublisherPc
  | idle
  | pushed
  | notifying
  | unlocking
  deriving DecidableEq

/-- `push_encode`, as often as its caller likes. It notifies with the mutex, and has pushed
without it. -/
def pushEncode (p : PublisherPc) (d : EncodeShared) (answer : Answer) :
    Option (Move PublisherPc × EncodeShared) :=
  match p with
  | .idle =>
    match answer with
    | .frame group frame =>
      if (d.queues group).length < d.maxDepth then
        some (.goto .pushed, d.setQueue group (d.queues group ++ [frame]))
      else some (.goto .idle, d)
    | _ => none
  | .pushed => some (.lock .notifying, d)
  | .notifying => some (.notifyOne .unlocking, d)
  | .unlocking => some (.unlock .idle, d)

inductive EncoderPc
  | top
  | popping (group : DataGroup) (gotData : Bool)
  | encodeLock
  | testing
  | looking (group : DataGroup)
  | blind
  | woken
  | leaving
  | finished
  deriving DecidableEq

/-- `encode_loop`. Who wakes because the time is over goes on whatever the predicate says. -/
def encodeLoop (p : EncoderPc) (d : EncodeShared) (answer : Answer) :
    Option (Move EncoderPc × EncodeShared) :=
  match p with
  | .top => some (.goto (if d.running then .popping .visualGeometric2D false else .finished), d)
  | .popping group gotData =>
    match d.queues group with
    | _ :: queue => some (.goto (.popping group true), d.setQueue group queue)
    | [] =>
      match DataPipeline.nextGroup group with
      | some next => some (.goto (.popping next gotData), d)
      | none => some (.goto (if gotData then .top else .encodeLock), d)
  | .encodeLock => some (.lock .testing, d)
  | .testing => some (.goto (if d.running then .looking .visualGeometric2D else .leaving), d)
  | .looking group =>
    match d.queues group with
    | _ :: _ => some (.goto .leaving, d)
    | [] =>
      match DataPipeline.nextGroup group with
      | some next => some (.goto (.looking next), d)
      | none => some (.goto .blind, d)
  | .blind => some (.wait .woken, d)
  | .woken =>
    match answer with
    | .yes => some (.goto .leaving, d)
    | _ => some (.goto .testing, d)
  | .leaving => some (.unlock .top, d)
  | .finished => none

inductive StopPc
  | idle
  | notifying
  | returned
  deriving DecidableEq

/-- `stop` as far as it concerns `encode_loop`. It never takes the mutex. -/
def stop (p : StopPc) (d : EncodeShared) (answer : Answer) :
    Option (Move StopPc × EncodeShared) :=
  match p with
  | .idle =>
    match answer with
    | .yes => some (.goto .notifying, { d with running := false })
    | _ => none
  | .notifying => some (.notifyAll .returned, d)
  | .returned => none

inductive EncodePc
  | publisher (p : PublisherPc)
  | encoder (p : EncoderPc)
  | stop (p : StopPc)
  deriving DecidableEq

def encodeThreads : Program EncodeThread EncodePc EncodeShared Answer where
  next t p d answer :=
    match t, p with
    | .publisher, .publisher p => (pushEncode p d answer).map fun r => (r.1.map .publisher, r.2)
    | .encoder, .encoder p => (encodeLoop p d answer).map fun r => (r.1.map .encoder, r.2)
    | .stopper, .stop p => (stop p d answer).map fun r => (r.1.map .stop, r.2)
    | _, _ => none

def encodeStarted (maxDepth : ℕ) : State EncodeThread EncodePc EncodeShared where
  pc
    | .publisher => .publisher .idle
    | .encoder => .encoder .top
    | .stopper => .stop .idle
  mode _ := .awake
  owner := none
  data := ⟨true, fun _ => [], maxDepth⟩

namespace EncodePc

def holds : EncodePc → Bool
  | .publisher .notifying | .publisher .unlocking => true
  | .encoder (.popping _ _) | .encoder .top | .encoder .encodeLock | .encoder .finished => false
  | .encoder _ => true
  | _ => false

def tells : EncodePc → Bool
  | .publisher .pushed | .publisher .notifying => true
  | _ => false

/-- The frames in the queues that the loop has found empty. -/
def missed (d : EncodeShared) : EncodePc → ℕ
  | .encoder (.looking .visualGeometric3D) => d.count [.visualGeometric2D]
  | .encoder (.looking .sensorTracking) => d.count [.visualGeometric2D, .visualGeometric3D]
  | .encoder .blind => d.waiting
  | _ => 0

end EncodePc

def encodeAccounts : Accounts EncodeThread EncodePc EncodeShared where
  holds _ p := p.holds = true
  items d := d.waiting
  owes
    | .publisher, p => p.tells.toNat
    | .encoder, _ => 1
    | .stopper, _ => 0
  owesHeld
    | .publisher, p => p.tells.toNat
    | .encoder, _ | .stopper, _ => 0
  missed _ p d := p.missed d
  owesHeld_le t p := by
    cases t with
    | publisher => exact le_rfl
    | encoder => exact Nat.zero_le 1
    | stopper => exact le_rfl

namespace EncodeShared
variable {d : EncodeShared} {group : DataGroup} {queue : List ChannelFrame} {k : ℕ}

theorem queues_setQueue (d : EncodeShared) (group : DataGroup) (queue : List ChannelFrame) :
    (d.setQueue group queue).queues = Function.update d.queues group queue := rfl

theorem count_setQueue_le (h : queue.length ≤ (d.queues group).length + k)
    {groups : List DataGroup} (hgroups : groups.Nodup) :
    (d.setQueue group queue).count groups ≤ d.count groups + k := by
  unfold count
  rw [queues_setQueue]
  induction groups with
  | nil => exact Nat.zero_le _
  | cons g groups ih =>
    obtain ⟨hg, hgroups⟩ := List.nodup_cons.mp hgroups
    rw [List.map_cons, List.map_cons, List.sum_cons, List.sum_cons]
    by_cases hgg : g = group
    · subst hgg
      have hrest : groups.map (fun g' => (Function.update d.queues g queue g').length) =
          groups.map fun g' => (d.queues g').length := by
        refine List.map_congr_left fun g' hg' => ?_
        rw [Function.update_of_ne (ne_of_mem_of_not_mem hg' hg)]
      rw [hrest, Function.update_self]
      omega
    · rw [Function.update_of_ne hgg]
      have hrest := ih hgroups
      omega

theorem waiting_setQueue_le (h : queue.length ≤ (d.queues group).length + k) :
    (d.setQueue group queue).waiting ≤ d.waiting + k :=
  count_setQueue_le h (by decide)

theorem missed_setQueue_le (h : queue.length ≤ (d.queues group).length + k) (q : EncodePc) :
    q.missed (d.setQueue group queue) ≤ q.missed d + k := by
  unfold EncodePc.missed
  split
  · exact count_setQueue_le h (by decide)
  · exact count_setQueue_le h (by decide)
  · exact waiting_setQueue_le h
  · exact Nat.zero_le _

end EncodeShared

section
variable {d d' : EncodeShared} {answer : Answer}

theorem permits_pushEncode {p : PublisherPc} {m : Move PublisherPc}
    (h : pushEncode p d answer = some (m, d')) :
    encodeAccounts.Permits .publisher (.publisher p) d (m.map .publisher) d' := by
  unfold pushEncode at h
  cases p with
  | idle =>
    dsimp only at h
    split at h
    · rename_i group frame
      split_ifs at h
      · cases h
        have hlength : (d.queues group ++ [frame]).length ≤ (d.queues group).length + 1 :=
          List.length_append.le
        refine ⟨Iff.rfl, .inr (EncodeShared.waiting_setQueue_le hlength), ?_, nofun⟩
        exact fun _ u q => EncodeShared.missed_setQueue_le hlength q
      · cases h
        exact ⟨Iff.rfl, .inr le_rfl, fun _ u q => le_rfl, nofun⟩
    · cases h
  | pushed =>
    cases h
    exact ⟨rfl, .inr le_rfl, rfl⟩
  | notifying =>
    cases h
    exact ⟨Iff.rfl, le_rfl, fun h => absurd rfl h, fun _ => .inl rfl⟩
  | unlocking =>
    cases h
    exact ⟨rfl, nofun, .inr le_rfl⟩

theorem permits_goto {p p' : EncoderPc}
    (hholds : (EncodePc.encoder p').holds = (EncodePc.encoder p).holds)
    (hmissed : (EncodePc.encoder p).holds = true →
      (EncodePc.encoder p').missed d ≤ (EncodePc.encoder p).missed d) :
    encodeAccounts.Permits .encoder (.encoder p) d (.goto (.encoder p')) d := by
  refine ⟨?_, .inr le_rfl, fun _ u q => le_rfl, fun h => .inr (hmissed h)⟩
  change _ = true ↔ _ = true
  rw [hholds]

theorem permits_encodeLoop {p : EncoderPc} {m : Move EncoderPc}
    (h : encodeLoop p d answer = some (m, d')) :
    encodeAccounts.Permits .encoder (.encoder p) d (m.map .encoder) d' := by
  unfold encodeLoop at h
  cases p with
  | top =>
    cases h
    split_ifs
    · exact permits_goto rfl nofun
    · exact permits_goto rfl nofun
  | popping group gotData =>
    dsimp only at h
    split at h
    · rename_i frame queue hqueue
      cases h
      have hlength : queue.length ≤ (d.queues group).length + 0 := by
        rw [hqueue]
        exact Nat.le_succ _
      refine ⟨Iff.rfl, .inr ?_, fun _ u q => EncodeShared.missed_setQueue_le hlength q, nofun⟩
      exact Nat.add_le_add_right (EncodeShared.waiting_setQueue_le hlength) 1
    · split at h
      · cases h
        exact permits_goto rfl nofun
      · cases h
        split_ifs
        · exact permits_goto rfl nofun
        · exact permits_goto rfl nofun
  | encodeLock =>
    cases h
    exact ⟨rfl, .inr le_rfl, rfl⟩
  | testing =>
    cases h
    split_ifs
    · exact permits_goto rfl fun _ => le_rfl
    · exact permits_goto rfl fun _ => le_rfl
  | looking group =>
    dsimp only at h
    split at h
    · cases h
      exact permits_goto rfl fun _ => Nat.zero_le _
    · rename_i hqueue
      have hlength : (d.queues group).length = 0 := by rw [hqueue, List.length_nil]
      cases group with
      | visualGeometric2D =>
        cases h
        refine permits_goto rfl fun _ => ?_
        change (d.queues .visualGeometric2D).length + 0 ≤ 0
        omega
      | visualGeometric3D =>
        cases h
        refine permits_goto rfl fun _ => ?_
        change (d.queues .visualGeometric2D).length +
          ((d.queues .visualGeometric3D).length + 0) ≤ (d.queues .visualGeometric2D).length + 0
        omega
      | sensorTracking =>
        cases h
        refine permits_goto rfl fun _ => ?_
        change (d.queues .visualGeometric2D).length + ((d.queues .visualGeometric3D).length +
          ((d.queues .sensorTracking).length + 0)) ≤ (d.queues .visualGeometric2D).length +
            ((d.queues .visualGeometric3D).length + 0)
        omega
  | blind =>
    cases h
    exact ⟨rfl, rfl, rfl, le_rfl, rfl, Nat.one_pos, fun d => rfl⟩
  | woken =>
    dsimp only at h
    split at h
    · cases h
      exact permits_goto rfl fun _ => le_rfl
    · cases h
      exact permits_goto rfl fun _ => le_rfl
  | leaving =>
    cases h
    exact ⟨rfl, nofun, .inr le_rfl⟩
  | finished => cases h

theorem permits_stop {p : StopPc} {m : Move StopPc} (h : stop p d answer = some (m, d')) :
    encodeAccounts.Permits .stopper (.stop p) d (m.map .stop) d' := by
  unfold stop at h
  cases p with
  | idle =>
    dsimp only at h
    split at h
    · cases h
      refine ⟨Iff.rfl, .inr le_rfl, fun _ u q => ?_, nofun⟩
      change q.missed d ≤ q.missed d
      exact le_rfl
    · cases h
  | notifying =>
    cases h
    exact ⟨Iff.rfl, Nat.le_succ _, fun _ u q => le_rfl, nofun⟩
  | returned => cases h

theorem permits_encodeThreads {t : EncodeThread} {p : EncodePc} {m : Move EncodePc}
    (h : encodeThreads.next t p d answer = some (m, d')) :
    encodeAccounts.Permits t p d m d' := by
  unfold encodeThreads at h
  dsimp only at h
  split at h
  · obtain ⟨⟨m, d⟩, hm, heq⟩ := Option.map_eq_some_iff.mp h
    cases heq
    exact permits_pushEncode hm
  · obtain ⟨⟨m, d⟩, hm, heq⟩ := Option.map_eq_some_iff.mp h
    cases heq
    exact permits_encodeLoop hm
  · obtain ⟨⟨m, d⟩, hm, heq⟩ := Option.map_eq_some_iff.mp h
    cases heq
    exact permits_stop hm
  · cases h

theorem pushEncode_ne_wait {p p' : PublisherPc} : pushEncode p d answer ≠ some (.wait p', d') := by
  unfold pushEncode
  split
  · split
    · split_ifs <;> nofun
    · nofun
  all_goals nofun

theorem stop_ne_wait {p p' : StopPc} : stop p d answer ≠ some (.wait p', d') := by
  unfold stop
  split
  · split <;> nofun
  all_goals nofun

theorem encodeThreads_ne_wait {t : EncodeThread} (ht : t ≠ .encoder) (p : EncodePc)
    (d : EncodeShared) (answer : Answer) (p' : EncodePc) (d' : EncodeShared) :
    encodeThreads.next t p d answer ≠ some (.wait p', d') := by
  intro h
  unfold encodeThreads at h
  dsimp only at h
  split at h
  · obtain ⟨q, d'', hq⟩ := Move.of_map_eq_wait h
    exact pushEncode_ne_wait hq
  · exact ht rfl
  · obtain ⟨q, d'', hq⟩ := Move.of_map_eq_wait h
    exact stop_ne_wait hq
  · cases h

end

section
variable {maxDepth : ℕ} {s : State EncodeThread EncodePc EncodeShared}
  {as : List (Action EncodeThread Answer)}

theorem balanced_of_run (h : run (step encodeThreads) (encodeStarted maxDepth) as = some s) :
    encodeAccounts.Balanced s := by
  refine run_invariant (fun s a t hs h => hs.step (fun _ _ _ _ _ _ => permits_encodeThreads) h)
    (.init (fun t => rfl) rfl ?_) h
  intro t
  cases t <;> exact nofun

theorem awake_of_run (h : run (step encodeThreads) (encodeStarted maxDepth) as = some s)
    {t : EncodeThread} (ht : t ≠ .encoder) : s.mode t = .awake :=
  run_invariant (fun _ _ _ hs h => awake_of_step (encodeThreads_ne_wait ht) hs h) rfl h

/-- While `encode_loop` sleeps its queues are empty, but for a frame whose `push_encode` is still
going to notify. -/
theorem waiting_of_asleep (h : run (step encodeThreads) (encodeStarted maxDepth) as = some s)
    (hasleep : s.mode .encoder = .asleep) :
    s.data.waiting ≤ (s.pc .publisher).tells.toNat := by
  have hcovered := (balanced_of_run h).covered .encoder hasleep
  have hpublisher := encodeAccounts.credit_of_awake
    (awake_of_run (t := .publisher) h nofun)
  have hstopper := encodeAccounts.credit_of_awake
    (awake_of_run (t := .stopper) h nofun)
  have hencoder : encodeAccounts.credit s .encoder = 0 := by
    unfold Accounts.credit
    rw [hasleep]
  have hsum : ∑ t, encodeAccounts.credit s t = encodeAccounts.credit s .publisher +
      (encodeAccounts.credit s .encoder + (encodeAccounts.credit s .stopper + 0)) := rfl
  rw [hsum, hpublisher, hencoder, hstopper] at hcovered
  exact hcovered

/-- A frame comes after the loop has looked at its queue and before the loop sleeps. -/
def lateFrame : List (Action EncodeThread Answer) :=
  List.replicate 9 (.act .encoder .no .encoder) ++
    [.act .publisher (.frame .visualGeometric2D ⟨"cam1", ⟨0, 0⟩, []⟩) .encoder,
      .act .encoder .no .encoder]

theorem waiting_of_asleep_lateFrame : ∃ s,
    run (step encodeThreads) (encodeStarted 2) lateFrame = some s ∧ s.data.waiting = 1 ∧
      s.mode .encoder = .asleep ∧ s.data.waiting ≤ (s.pc .publisher).tells.toNat := by
  obtain ⟨s, hrun, hwaiting, hasleep⟩ : ∃ s,
      run (step encodeThreads) (encodeStarted 2) lateFrame = some s ∧ s.data.waiting = 1 ∧
        s.mode .encoder = .asleep := ⟨_, rfl, rfl, rfl⟩
  exact ⟨s, hrun, hwaiting, hasleep, waiting_of_asleep hrun hasleep⟩

end

/-! ## The send loop of a client -/

/-- `closer` is `accept_loop` or `stop` at the client. -/
inductive SendThread
  | loop
  | sender
  | closer
  deriving DecidableEq

instance fintypeSendThread : Fintype SendThread where
  elems := {.loop, .sender, .closer}
  complete t := by cases t <;> decide

structure SendShared where
  active : Bool
  sendRunning : Bool
  sendQueue : List (DataType × DataBundle)

inductive LoopPc
  | running
  | queueLock (type : DataType) (bundle : DataBundle)
  | pushing (type : DataType) (bundle : DataBundle)
  | unlocking
  | notifying
  | stopSend
  | notifyingAll
  | finished
  deriving DecidableEq

/-- `client_loop` where it queues a bundle, as often as there is one, and its end. It pushes with
the mutex, and notifies without it. -/
def clientLoop (p : LoopPc) (d : SendShared) (answer : Answer) :
    Option (Move LoopPc × SendShared) :=
  match p with
  | .running =>
    match answer with
    | .item type bundle => some (.goto (.queueLock type bundle), d)
    | .yes => some (.goto .stopSend, { d with active := false })
    | _ => none
  | .queueLock type bundle => some (.lock (.pushing type bundle), d)
  | .pushing type bundle =>
    some (.goto .unlocking,
      { d with sendQueue := d.sendQueue.filter (·.1 ≠ type) ++ [(type, bundle)] })
  | .unlocking => some (.unlock .notifying, d)
  | .notifying => some (.notifyOne .running, d)
  | .stopSend => some (.goto .notifyingAll, { d with sendRunning := false })
  | .notifyingAll => some (.notifyAll .finished, d)
  | .finished => none

inductive SenderPc
  | top
  | queueLock
  | testing
  | blind
  | woken
  | taking
  | sending (type : DataType) (bundle : DataBundle)
  | finished
  deriving DecidableEq

def sendLoop (p : SenderPc) (d : SendShared) (answer : Answer) :
    Option (Move SenderPc × SendShared) :=
  match p with
  | .top => some (.goto (if d.sendRunning && d.active then .queueLock else .finished), d)
  | .queueLock => some (.lock .testing, d)
  | .testing =>
    some (.goto (if !d.sendQueue.isEmpty || !d.sendRunning then .taking else .blind), d)
  | .blind => some (.wait .woken, d)
  | .woken =>
    match answer with
    | .yes => some (.goto .taking, d)
    | _ => some (.goto .testing, d)
  | .taking =>
    match d.sendQueue with
    | [] => some (.unlock .top, d)
    | (type, bundle) :: queue =>
      some (.unlock (.sending type bundle), { d with sendQueue := queue })
  | .sending _ _ =>
    match answer with
    | .no => some (.goto .top, { d with active := false })
    | _ => some (.goto .top, d)
  | .finished => none

inductive CloserPc
  | idle
  | stopSend
  | notifyingAll
  | joining
  deriving DecidableEq

def closeClient (p : CloserPc) (d : SendShared) (answer : Answer) :
    Option (Move CloserPc × SendShared) :=
  match p with
  | .idle =>
    match answer with
    | .yes => some (.goto .stopSend, { d with active := false })
    | _ => none
  | .stopSend => some (.goto .notifyingAll, { d with sendRunning := false })
  | .notifyingAll => some (.notifyAll .joining, d)
  | .joining => none

inductive SendPc
  | loop (p : LoopPc)
  | sender (p : SenderPc)
  | closer (p : CloserPc)
  deriving DecidableEq

def sendThreads : Program SendThread SendPc SendShared Answer where
  next t p d answer :=
    match t, p with
    | .loop, .loop p => (clientLoop p d answer).map fun r => (r.1.map .loop, r.2)
    | .sender, .sender p => (sendLoop p d answer).map fun r => (r.1.map .sender, r.2)
    | .closer, .closer p => (closeClient p d answer).map fun r => (r.1.map .closer, r.2)
    | _, _ => none

def sendStarted : State SendThread SendPc SendShared where
  pc
    | .loop => .loop .running
    | .sender => .sender .top
    | .closer => .closer .idle
  mode _ := .awake
  owner := none
  data := ⟨true, true, []⟩

namespace SendPc

def holds : SendPc → Bool
  | .loop (.pushing _ _) | .loop .unlocking => true
  | .sender .testing | .sender .blind | .sender .woken | .sender .taking => true
  | _ => false

def tells : SendPc → Bool
  | .loop .unlocking | .loop .notifying => true
  | _ => false

end SendPc

def sendAccounts : Accounts SendThread SendPc SendShared where
  holds _ p := p.holds = true
  items d := d.sendQueue.length
  owes
    | .loop, p => p.tells.toNat
    | .sender, _ => 1
    | .closer, _ => 0
  owesHeld _ _ := 0
  missed _ p d := if p = .sender .blind then d.sendQueue.length else 0
  owesHeld_le _ _ := Nat.zero_le _

section
variable {d d' : SendShared} {answer : Answer}

theorem sendAccounts_discreet {t : SendThread} {p p' : SendPc} (hp : p' ≠ .sender .blind)
    (h : d'.sendQueue = d.sendQueue) : sendAccounts.Discreet t p d p' d' where
  others _ u q := by
    change (if q = .sender .blind then d'.sendQueue.length else 0) + 0 ≤
      (if q = .sender .blind then d.sendQueue.length else 0) + 0
    rw [h]
  own _ := .inl (if_neg hp)

theorem permits_clientLoop {p : LoopPc} {m : Move LoopPc}
    (h : clientLoop p d answer = some (m, d')) :
    sendAccounts.Permits .loop (.loop p) d (m.map .loop) d' := by
  unfold clientLoop at h
  cases p with
  | running =>
    dsimp only at h
    split at h
    · cases h
      exact ⟨Iff.rfl, .inr le_rfl, sendAccounts_discreet nofun rfl⟩
    · cases h
      exact ⟨Iff.rfl, .inr le_rfl, sendAccounts_discreet nofun rfl⟩
    · cases h
  | queueLock type bundle =>
    cases h
    exact ⟨rfl, .inr le_rfl, rfl⟩
  | pushing type bundle =>
    cases h
    refine ⟨Iff.rfl, .inr ?_, fun h => absurd rfl h, fun _ => .inl rfl⟩
    change (d.sendQueue.filter _ ++ [(type, bundle)]).length + 0 ≤ d.sendQueue.length + 1
    rw [List.length_append]
    exact Nat.add_le_add_right (List.length_filter_le _ _) 1
  | unlocking =>
    cases h
    exact ⟨rfl, nofun, .inr le_rfl⟩
  | notifying =>
    cases h
    exact ⟨Iff.rfl, le_rfl, sendAccounts_discreet nofun rfl⟩
  | stopSend =>
    cases h
    exact ⟨Iff.rfl, .inr le_rfl, sendAccounts_discreet nofun rfl⟩
  | notifyingAll =>
    cases h
    exact ⟨Iff.rfl, Nat.le_succ _, sendAccounts_discreet nofun rfl⟩
  | finished => cases h

theorem permits_sendLoop {p : SenderPc} {m : Move SenderPc}
    (h : sendLoop p d answer = some (m, d')) :
    sendAccounts.Permits .sender (.sender p) d (m.map .sender) d' := by
  unfold sendLoop at h
  cases p with
  | top =>
    cases h
    split_ifs
    · exact ⟨Iff.rfl, .inr le_rfl, sendAccounts_discreet nofun rfl⟩
    · exact ⟨Iff.rfl, .inr le_rfl, sendAccounts_discreet nofun rfl⟩
  | queueLock =>
    cases h
    exact ⟨rfl, .inr le_rfl, rfl⟩
  | testing =>
    cases h
    split_ifs with htest
    · exact ⟨Iff.rfl, .inr le_rfl, sendAccounts_discreet nofun rfl⟩
    · have hempty : d.sendQueue = [] := by
        cases hqueue : d.sendQueue with
        | nil => rfl
        | cons item queue => exact absurd (by rw [hqueue]; rfl) htest
      refine ⟨Iff.rfl, .inr le_rfl, fun h => absurd rfl h, fun _ => .inl ?_⟩
      change (if SendPc.sender .blind = .sender .blind then d.sendQueue.length else 0) = 0
      rw [hempty, List.length_nil, ite_self]
  | blind =>
    cases h
    exact ⟨rfl, rfl, rfl, le_rfl, rfl, Nat.one_pos, fun d => rfl⟩
  | woken =>
    dsimp only at h
    split at h
    · cases h
      exact ⟨Iff.rfl, .inr le_rfl, sendAccounts_discreet nofun rfl⟩
    · cases h
      exact ⟨Iff.rfl, .inr le_rfl, sendAccounts_discreet nofun rfl⟩
  | taking =>
    dsimp only at h
    split at h
    · cases h
      exact ⟨rfl, nofun, .inr le_rfl⟩
    · rename_i type bundle queue hqueue
      cases h
      refine ⟨rfl, nofun, .inr ?_⟩
      change queue.length + 1 ≤ d.sendQueue.length + 1
      rw [hqueue]
      exact Nat.le_succ _
  | sending type bundle =>
    dsimp only at h
    split at h
    · cases h
      exact ⟨Iff.rfl, .inr le_rfl, sendAccounts_discreet nofun rfl⟩
    · cases h
      exact ⟨Iff.rfl, .inr le_rfl, sendAccounts_discreet nofun rfl⟩
  | finished => cases h

theorem permits_closeClient {p : CloserPc} {m : Move CloserPc}
    (h : closeClient p d answer = some (m, d')) :
    sendAccounts.Permits .closer (.closer p) d (m.map .closer) d' := by
  unfold closeClient at h
  cases p with
  | idle =>
    dsimp only at h
    split at h
    · cases h
      exact ⟨Iff.rfl, .inr le_rfl, sendAccounts_discreet nofun rfl⟩
    · cases h
  | stopSend =>
    cases h
    exact ⟨Iff.rfl, .inr le_rfl, sendAccounts_discreet nofun rfl⟩
  | notifyingAll =>
    cases h
    exact ⟨Iff.rfl, Nat.le_succ _, sendAccounts_discreet nofun rfl⟩
  | joining => cases h

theorem permits_sendThreads {t : SendThread} {p : SendPc} {m : Move SendPc}
    (h : sendThreads.next t p d answer = some (m, d')) : sendAccounts.Permits t p d m d' := by
  unfold sendThreads at h
  dsimp only at h
  split at h
  · obtain ⟨⟨m, d⟩, hm, heq⟩ := Option.map_eq_some_iff.mp h
    cases heq
    exact permits_clientLoop hm
  · obtain ⟨⟨m, d⟩, hm, heq⟩ := Option.map_eq_some_iff.mp h
    cases heq
    exact permits_sendLoop hm
  · obtain ⟨⟨m, d⟩, hm, heq⟩ := Option.map_eq_some_iff.mp h
    cases heq
    exact permits_closeClient hm
  · cases h

theorem clientLoop_ne_wait {p p' : LoopPc} : clientLoop p d answer ≠ some (.wait p', d') := by
  unfold clientLoop
  split
  · split <;> nofun
  all_goals nofun

theorem closeClient_ne_wait {p p' : CloserPc} : closeClient p d answer ≠ some (.wait p', d') := by
  unfold closeClient
  split
  · split <;> nofun
  all_goals nofun

theorem sendThreads_ne_wait {t : SendThread} (ht : t ≠ .sender) (p : SendPc) (d : SendShared)
    (answer : Answer) (p' : SendPc) (d' : SendShared) :
    sendThreads.next t p d answer ≠ some (.wait p', d') := by
  intro h
  unfold sendThreads at h
  dsimp only at h
  split at h
  · obtain ⟨q, d'', hq⟩ := Move.of_map_eq_wait h
    exact clientLoop_ne_wait hq
  · exact ht rfl
  · obtain ⟨q, d'', hq⟩ := Move.of_map_eq_wait h
    exact closeClient_ne_wait hq
  · cases h

end

section
variable {s : State SendThread SendPc SendShared} {as : List (Action SendThread Answer)}

theorem sendBalanced_of_run (h : run (step sendThreads) sendStarted as = some s) :
    sendAccounts.Balanced s := by
  refine run_invariant (fun s a t hs h => hs.step (fun _ _ _ _ _ _ => permits_sendThreads) h)
    (.init (fun t => rfl) rfl ?_) h
  intro t
  cases t <;> exact nofun

theorem sendAwake_of_run (h : run (step sendThreads) sendStarted as = some s)
    {t : SendThread} (ht : t ≠ .sender) : s.mode t = .awake :=
  run_invariant (fun _ _ _ hs h => awake_of_step (sendThreads_ne_wait ht) hs h) rfl h

/-- While `send_loop` sleeps the queue of its client is empty, but for a bundle that
`client_loop` is still going to notify it of. -/
theorem length_of_asleep (h : run (step sendThreads) sendStarted as = some s)
    (hasleep : s.mode .sender = .asleep) :
    s.data.sendQueue.length ≤ (s.pc .loop).tells.toNat := by
  have hcovered := (sendBalanced_of_run h).covered .sender hasleep
  have hloop := sendAccounts.credit_of_awake
    (sendAwake_of_run (t := .loop) h nofun)
  have hcloser := sendAccounts.credit_of_awake
    (sendAwake_of_run (t := .closer) h nofun)
  have hsender : sendAccounts.credit s .sender = 0 := by
    unfold Accounts.credit
    rw [hasleep]
  have hsum : ∑ t, sendAccounts.credit s t = sendAccounts.credit s .loop +
      (sendAccounts.credit s .sender + (sendAccounts.credit s .closer + 0)) := rfl
  rw [hsum, hloop, hsender, hcloser] at hcovered
  exact hcovered

def sleepsFirst : List (Action SendThread Answer) :=
  List.replicate 4 (.act .sender .no .sender) ++
    [.act .loop (.item .imu ⟨⟨0, 0⟩, .imu, [1]⟩) .sender, .act .loop .no .sender,
      .act .loop .no .sender, .act .loop .no .sender]

theorem length_of_asleep_sleepsFirst : ∃ s,
    run (step sendThreads) sendStarted sleepsFirst = some s ∧ s.data.sendQueue.length = 1 ∧
      s.mode .sender = .asleep ∧ s.data.sendQueue.length ≤ (s.pc .loop).tells.toNat := by
  obtain ⟨s, hrun, hlength, hasleep⟩ : ∃ s,
      run (step sendThreads) sendStarted sleepsFirst = some s ∧ s.data.sendQueue.length = 1 ∧
        s.mode .sender = .asleep := ⟨_, rfl, rfl, rfl⟩
  exact ⟨s, hrun, hlength, hasleep, length_of_asleep hrun hasleep⟩

end

end StereoCamera.WSServer.WakeUps
