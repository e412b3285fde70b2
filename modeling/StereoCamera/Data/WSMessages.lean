import StereoCamera.Data.WSServerStream
import StereoCamera.Data.WSBundles

/-! The threads that write to one connection put on it what a single writer would have: the
messages in the order in which they took the mutex, each in one piece. Of the data frames among
them, a client makes the bundles that `send_loop` took from its queue. -/

namespace StereoCamera.WSServer.Writers
open Locks PartialIO Transition

/-- A thread takes the mutex for a frame, or `send_loop` takes a bundle from the queue. -/
inductive Event
  | binary (payload : Bytes)
  | text (payload : Bytes)
  | takes (type : DataType) (bundle : DataBundle)

namespace Event

def message : Event → Option Message
  | .binary payload => some (.binary payload)
  | .text payload => some (.text payload)
  | .takes .. => none

def frame : Event → Bytes
  | .binary payload => binaryHeader payload ++ payload
  | .text payload => textHeader payload ++ payload
  | .takes .. => []

def payload : Event → Option Bytes
  | .binary payload => some payload
  | _ => none

def item : Event → Option (DataType × DataBundle)
  | .takes type bundle => some (type, bundle)
  | _ => none

end Event

def events (s : ThreadState) (a : Thread × Answer) : List Event :=
  match a.1, s.pc a.1 with
  | .loop, .loop .greetLock => [.binary readyMessage]
  | .send, .send .queue => s.data.sendQueue.head?.toList.map fun item => .takes item.1 item.2
  | .send, .send (.sendLock frame) => [.binary frame]
  | .caller _, .caller (.sendLock message) => [.text message]
  | _, _ => []

abbrev history (as : List (Thread × Answer)) : List Event :=
  log (Locks.step threads) events started as

/-- The messages whose frames were begun, in the order in which that was. -/
def messages (es : List Event) : List Message := es.filterMap Event.message

def stream (es : List Event) : Bytes := es.flatMap Event.frame

theorem stream_append (es es' : List Event) : stream (es ++ es') = stream es ++ stream es' :=
  List.flatMap_append

theorem written_sendAll (es : List Event) (hfit : ∀ m ∈ messages es, m.Fits) {ssl : Sink UInt8}
    (hssl : ssl.Positive) : (sendAll ssl (messages es)).written = ssl.written ++ stream es := by
  induction es generalizing ssl with
  | nil => exact (List.append_nil _).symm
  | cons e es ih =>
    rw [← List.singleton_append, stream_append]
    cases e with
    | binary payload =>
      obtain ⟨hfirst, hrest⟩ := List.forall_mem_cons.mp hfit
      obtain ⟨t, ht, hwritten, hpos⟩ := wsSendBinary_eq hssl hfirst
      have hframe : stream [.binary payload] = frameBytes 0x82 none payload := by
        rw [stream, List.flatMap_singleton, Event.frame, binaryHeader, buildHeader_eq _ hfirst]
        rfl
      have hcons : messages ([.binary payload] ++ es) = .binary payload :: messages es := rfl
      rw [hcons, sendAll, List.foldl_cons, ← sendAll, Message.send, ht, ih hrest hpos, hwritten,
        hframe, List.append_assoc]
    | text payload =>
      obtain ⟨hfirst, hrest⟩ := List.forall_mem_cons.mp hfit
      have hwritten := broadcastTo_eq ssl hfirst
      have hframe : stream [.text payload] = frameBytes 0x81 none payload := by
        rw [stream, List.flatMap_singleton, Event.frame, textHeader,
          buildHeader_eq _ (lt_trans hfirst (by decide))]
        rfl
      have hcons : messages ([.text payload] ++ es) = .text payload :: messages es := rfl
      have hih := @ih hrest ⟨ssl.written ++ frameBytes 0x81 none payload, ssl.sizes⟩ hssl
      rw [hcons, sendAll, List.foldl_cons, ← sendAll, Message.send, hwritten, hih, hframe,
        List.append_assoc]
    | takes type bundle => exact ih hfit hssl

/-! ### One step -/

section
variable {s s' : ThreadState} {a : Thread × Answer}

inductive Writes (s s' : ThreadState) (t : Thread) (es : List Event) : Prop
  | quiet (hold : unwritten (s.pc t) = none) (hnew : unwritten (s'.pc t) = none)
    (hwrites : s'.data.writes = s.data.writes) (hes : stream es = [])
  | begins (hfree : s.owner .send = none) (hnew : unwritten (s'.pc t) = some (stream es))
    (hwrites : s'.data.writes = s.data.writes)
  | goes {asked rest : Bytes} {n : ℕ} (hold : unwritten (s.pc t) = some (asked.take n ++ rest))
    (hnew : (unwritten (s'.pc t)).getD [] = rest)
    (hwrites : s'.data.writes = s.data.writes ++ [(asked, n)]) (hes : stream es = [])
  | ends (hold : unwritten (s.pc t) = some []) (hnew : unwritten (s'.pc t) = none)
    (hwrites : s'.data.writes = s.data.writes) (hes : stream es = [])
  | fails {asked left : Bytes} (hold : unwritten (s.pc t) = some left)
    (hnew : unwritten (s'.pc t) = none)
    (hwrites : s'.data.writes = s.data.writes ++ [(asked, 0)]) (hes : stream es = [])

theorem wsSendStep_writes (hdr data : Bytes) (d : Shared) (size : ℕ) :
    (∃ hdr' data' asked n, wsSendStep hdr data d size = (.inl (hdr', data'),
      { d with writes := d.writes ++ [(asked, n)] }) ∧
        hdr ++ data = asked.take n ++ (hdr' ++ data')) ∨
    (hdr ++ data = [] ∧ wsSendStep hdr data d size = (.inr true, d)) ∨
    ∃ asked, wsSendStep hdr data d size = (.inr false,
      { d with writes := d.writes ++ [(asked, 0)] }) := by
  unfold wsSendStep Shared.sslWrite
  dsimp only
  split_ifs with hhdr hn hdata hn
  · rw [hn]
    exact .inr (.inr ⟨hdr, rfl⟩)
  · refine .inl ⟨_, _, hdr, _, rfl, ?_⟩
    rw [← List.append_assoc, List.take_append_drop]
  · rw [hn]
    exact .inr (.inr ⟨data.take 16384, rfl⟩)
  · refine .inl ⟨_, _, data.take 16384, _, rfl, ?_⟩
    have hle : min size (data.take 16384).length ≤ 16384 :=
      (Nat.min_le_right _ _).trans (List.length_take_le _ _)
    rw [not_not.mp hhdr, List.take_take, Nat.min_eq_left hle, List.nil_append, List.nil_append,
      List.take_append_drop]
  · refine .inr (.inl ⟨?_, rfl⟩)
    rw [not_not.mp hhdr, not_not.mp hdata]
    rfl

theorem Writes.of_sendStep {t : Thread} {hdr data : Bytes} {p : Pc} (size : ℕ)
    (hold : unwritten (s.pc t) = some (hdr ++ data)) (hpc : s'.pc t = p)
    (hinl : ∀ hdr' data' d', wsSendStep hdr data s.data size = (.inl (hdr', data'), d') →
      unwritten p = some (hdr' ++ data') ∧ s'.data = d')
    (hinr : ∀ r d', wsSendStep hdr data s.data size = (.inr r, d') →
      unwritten p = none ∧ s'.data = d') {es : List Event} (hes : stream es = []) :
    Writes s s' t es := by
  rcases wsSendStep_writes hdr data s.data size with ⟨hdr', data', asked, n, hstep, hsplit⟩ |
    ⟨hnil, hstep⟩ | ⟨asked, hstep⟩
  · obtain ⟨hnew, hdata⟩ := hinl _ _ _ hstep
    refine .goes (hold.trans (congrArg some hsplit)) ?_ (by rw [hdata]) hes
    rw [hpc, hnew]
    rfl
  · obtain ⟨hnew, hdata⟩ := hinr _ _ hstep
    exact .ends (hold.trans (congrArg some hnil)) (hpc ▸ hnew) (by rw [hdata]) hes
  · obtain ⟨hnew, hdata⟩ := hinr _ _ hstep
    exact .fails hold (hpc ▸ hnew) (by rw [hdata]) hes

theorem writes_of_loop {q : LoopPc} {answer : Answer} {m : Move Thread Mutex LoopPc}
    (hq : s.pc .loop = .loop q) (hloop : clientLoop q s.data answer = some (m, s'.data))
    (hpc : s'.pc .loop = .loop m.dest)
    (htakes : (m.map Pc.loop).Takes threads s .loop s'.owner) :
    Writes s s' .loop (events s (.loop, answer)) := by
  have hes : events s (.loop, answer) =
      if q = .greetLock then [.binary readyMessage] else [] := by
    cases q <;> simp [events, hq]
  unfold clientLoop at hloop
  split at hloop
  · obtain ⟨rfl, hdata⟩ := Prod.mk.inj (Option.some.inj hloop)
    refine .begins htakes.1 ?_ (hdata ▸ rfl)
    rw [hpc, hes, if_pos rfl, stream, List.flatMap_singleton]
    rfl
  · rename_i hdr data
    refine .of_sendStep answer.size (by rw [hq]; rfl) hpc (fun hdr' data' d' hstep => ?_)
      (fun r d' hstep => ?_) (by rw [hes, if_neg LoopPc.noConfusion]; rfl)
    all_goals
      rw [hstep] at hloop
      obtain ⟨rfl, hdata⟩ := Prod.mk.inj (Option.some.inj hloop)
      exact ⟨rfl, hdata.symm⟩
  · obtain ⟨rfl, hdata⟩ := Prod.mk.inj (Option.some.inj hloop)
    exact .quiet (by rw [hq]; rfl) (by rw [hpc]; rfl) (hdata ▸ rfl) (by rw [hes]; rfl)
  · split at hloop <;> obtain ⟨rfl, hdata⟩ := Prod.mk.inj (Option.some.inj hloop) <;>
      exact .quiet (by rw [hq]; rfl) (by rw [hpc]; rfl) (hdata ▸ rfl) (by rw [hes]; rfl)
  · obtain ⟨rfl, hdata⟩ := Prod.mk.inj (Option.some.inj hloop)
    exact .quiet (by rw [hq]; rfl) (by rw [hpc]; rfl) (hdata ▸ rfl) (by rw [hes]; rfl)
  · cases hloop

theorem writes_of_send {q : SendPc} {answer : Answer} {m : Move Thread Mutex SendPc}
    (hq : s.pc .send = .send q) (hloop : sendLoop q s.data answer = some (m, s'.data))
    (hpc : s'.pc .send = .send m.dest)
    (htakes : (m.map Pc.send).Takes threads s .send s'.owner) :
    Writes s s' .send (events s (.send, answer)) := by
  unfold sendLoop at hloop
  split at hloop
  · obtain ⟨rfl, hdata⟩ := Prod.mk.inj (Option.some.inj hloop)
    refine .quiet (by rw [hq]; rfl) ?_ (hdata ▸ rfl) (by simp [events, hq, stream])
    rw [hpc]
    dsimp only [Move.dest]
    split_ifs <;> rfl
  · have hes : stream (events s (.send, answer)) = [] := by
      cases hqueue : s.data.sendQueue <;> simp [events, hq, hqueue, stream, Event.frame]
    split at hloop <;> obtain ⟨rfl, hdata⟩ := Prod.mk.inj (Option.some.inj hloop) <;>
      exact .quiet (by rw [hq]; rfl) (by rw [hpc]; rfl) (hdata ▸ rfl) hes
  · obtain ⟨rfl, hdata⟩ := Prod.mk.inj (Option.some.inj hloop)
    refine .begins htakes.1 ?_ (hdata ▸ rfl)
    rw [hpc]
    simp [events, hq, stream, Event.frame, unwritten, Move.dest]
  · rename_i hdr data
    refine .of_sendStep answer.size (by rw [hq]; rfl) hpc (fun hdr' data' d' hstep => ?_)
      (fun r d' hstep => ?_) (by simp [events, hq, stream])
    · rw [hstep] at hloop
      obtain ⟨rfl, hdata⟩ := Prod.mk.inj (Option.some.inj hloop)
      exact ⟨rfl, hdata.symm⟩
    · rw [hstep] at hloop
      cases r <;> obtain ⟨rfl, hdata⟩ := Prod.mk.inj (Option.some.inj hloop) <;>
        exact ⟨rfl, hdata.symm⟩
  · obtain ⟨rfl, hdata⟩ := Prod.mk.inj (Option.some.inj hloop)
    exact .quiet (by rw [hq]; rfl) (by rw [hpc]; rfl) (hdata ▸ rfl) (by simp [events, hq, stream])
  · obtain ⟨rfl, hdata⟩ := Prod.mk.inj (Option.some.inj hloop)
    exact .quiet (by rw [hq]; rfl) (by rw [hpc]; rfl) (hdata ▸ rfl) (by simp [events, hq, stream])
  · cases hloop

theorem writes_of_broadcast {n : ℕ} (hsteady : Steady s (.caller n, a.2)) {q : CallerPc}
    {m : Move Thread Mutex CallerPc} (hq : s.pc (.caller n) = .caller q)
    (hloop : Writers.broadcast q s.data a.2 = some (m, s'.data))
    (hpc : s'.pc (.caller n) = .caller m.dest)
    (htakes : (m.map Pc.caller).Takes threads s (.caller n) s'.owner) :
    Writes s s' (.caller n) (events s (.caller n, a.2)) := by
  have hquiet : (∀ message, q ≠ .sendLock message) → stream (events s (.caller n, a.2)) = [] := by
    intro hne
    cases q with
    | sendLock message => exact absurd rfl (hne message)
    | _ => simp [events, hq, stream]
  unfold Writers.broadcast at hloop
  split at hloop
  · split at hloop
    · obtain ⟨rfl, hdata⟩ := Prod.mk.inj (Option.some.inj hloop)
      exact .quiet (by rw [hq]; rfl) (by rw [hpc]; rfl) (hdata ▸ rfl)
        (hquiet fun _ => CallerPc.noConfusion)
    · cases hloop
  · obtain ⟨rfl, hdata⟩ := Prod.mk.inj (Option.some.inj hloop)
    exact .quiet (by rw [hq]; rfl) (by rw [hpc]; rfl) (hdata ▸ rfl)
      (hquiet fun _ => CallerPc.noConfusion)
  · obtain ⟨rfl, hdata⟩ := Prod.mk.inj (Option.some.inj hloop)
    refine .quiet (by rw [hq]; rfl) ?_ (hdata ▸ rfl) (hquiet fun _ => CallerPc.noConfusion)
    rw [hpc]
    dsimp only [Move.dest]
    split_ifs <;> rfl
  · obtain ⟨rfl, hdata⟩ := Prod.mk.inj (Option.some.inj hloop)
    refine .begins htakes.1 ?_ (hdata ▸ rfl)
    rw [hpc]
    simp [events, hq, stream, Event.frame, unwritten, Move.dest]
  · rename_i message
    obtain ⟨rfl, hdata⟩ := Prod.mk.inj (Option.some.inj hloop)
    have hsize := Nat.min_eq_right (hsteady.header n message rfl hq)
    have hwrites : s'.data.writes = s.data.writes ++
        [(textHeader message, min a.2.size (textHeader message).length)] := hdata ▸ rfl
    have hold : unwritten (s.pc (.caller n)) = some
        ((textHeader message).take (min a.2.size (textHeader message).length) ++ message) := by
      rw [hq, hsize, List.take_length]
      rfl
    exact .goes hold (by rw [hpc]; rfl) hwrites (hquiet fun _ => CallerPc.noConfusion)
  · rename_i message
    obtain ⟨rfl, hdata⟩ := Prod.mk.inj (Option.some.inj hloop)
    obtain ⟨-, hint, hle⟩ := hsteady.payload n message rfl hq
    have hsize := Nat.min_eq_right hle
    rw [hint] at hdata
    have hwrites : s'.data.writes =
        s.data.writes ++ [(message, min a.2.size message.length)] := hdata ▸ rfl
    have hold : unwritten (s.pc (.caller n)) =
        some (message.take (min a.2.size message.length) ++ []) := by
      rw [hq, hsize, List.take_length, List.append_nil]
      rfl
    exact .goes hold (by rw [hpc]; rfl) hwrites (hquiet fun _ => CallerPc.noConfusion)
  · obtain ⟨rfl, hdata⟩ := Prod.mk.inj (Option.some.inj hloop)
    exact .quiet (by rw [hq]; rfl) (by rw [hpc]; rfl) (hdata ▸ rfl)
      (hquiet fun _ => CallerPc.noConfusion)
  · obtain ⟨rfl, hdata⟩ := Prod.mk.inj (Option.some.inj hloop)
    exact .quiet (by rw [hq]; rfl) (by rw [hpc]; rfl) (hdata ▸ rfl)
      (hquiet fun _ => CallerPc.noConfusion)

theorem writes_of_step (hsteady : Steady s a) (hstep : Locks.step threads s a = some s') :
    Writes s s' a.1 (events s a) := by
  obtain ⟨m, d, hnext, hpc, rfl, htakes⟩ := step_cases hstep
  obtain ⟨t, answer⟩ := a
  rcases threads_next hnext with ⟨q, m', rfl, hq, rfl, hloop⟩ | ⟨q, m', rfl, hq, rfl, hloop⟩ |
    ⟨n, q, m', rfl, hq, rfl, hloop⟩
  all_goals
    rw [Move.dest_map] at hpc
    have hself := pc_self hpc
  · exact writes_of_loop hq hloop hself htakes
  · exact writes_of_send hq hloop hself htakes
  · exact writes_of_broadcast hsteady hq hloop hself htakes

/-! ### Whole runs -/

structure Accounted (es : List Event) (s : ThreadState) : Prop where
  began : s.data.bytes <+: stream es
  writing : s.data.NoFailure → ∀ t left, unwritten (s.pc t) = some left →
    s.data.bytes ++ left = stream es
  idle : s.data.NoFailure → (∀ t, unwritten (s.pc t) = none) → s.data.bytes = stream es

theorem Broken.unwritten (h : Broken s) (howned : Owned Holds s) (t : Thread) :
    Writers.unwritten (s.pc t) = none := by
  rcases h.closing with hclearing | ⟨-, -, -, hidle⟩
  · by_cases ht : t = .send
    · rw [ht, hclearing]
      rfl
    · refine unwritten_of_ne howned (t := .send) ?_ t ht
      rw [hclearing]
      exact List.mem_singleton_self _
  · exact hidle t

theorem Inv.noFailure (h : Inv s) {t : Thread} {left : Bytes}
    (ht : unwritten (s.pc t) = some left) : s.data.NoFailure := by
  rcases h.phase with hsound | hbroken
  · exact hsound.ok
  · exact absurd (ht.symm.trans (hbroken.unwritten h.owned t)) (Option.some_ne_none _)

theorem bytes_of_append {d d' : Shared} {asked : Bytes} {n : ℕ}
    (h : d'.writes = d.writes ++ [(asked, n)]) : d'.bytes = d.bytes ++ asked.take n := by
  unfold Shared.bytes
  rw [h, List.flatMap_append, List.flatMap_singleton]

theorem bytes_of_eq {d d' : Shared} (h : d'.writes = d.writes) : d'.bytes = d.bytes := by
  unfold Shared.bytes
  rw [h]

theorem Accounted.of_write {es : List Event} {t : Thread} {p : Pc}
    (hothers : ∀ u, u ≠ t → unwritten (s.pc u) = none)
    (hpc : s'.pc = Function.update s.pc t p) (hbegan : s'.data.bytes <+: stream es)
    (hwritten : s'.data.NoFailure → s'.data.bytes ++ (unwritten p).getD [] = stream es) :
    Accounted es s' where
  began := hbegan
  writing hok u left hu := by
  -- The others write as little as before.
    by_cases hut : u = t
    · rw [hut, pc_self hpc] at hu
      have hall := hwritten hok
      rwa [hu] at hall
    · rw [pc_of_ne hpc hut, hothers u hut] at hu
      cases hu
  idle hok hnone := by
    have hall := hwritten hok
    rwa [← pc_self hpc, hnone t, Option.getD_none, List.append_nil] at hall

theorem Accounted.step {es : List Event} (h : Accounted es s) (hinv : Inv s)
    (hsteady : Steady s a) (hstep : Locks.step threads s a = some s') :
    Accounted (es ++ events s a) s' := by
  have hwrites := writes_of_step hsteady hstep
  obtain ⟨m, d, -, hpc, rfl, -⟩ := step_cases hstep
  have hself := pc_self hpc
  -- Only who holds the mutex is in the middle of a frame.
  have hothers : ∀ left, unwritten (s.pc a.1) = some left →
      ∀ u, u ≠ a.1 → unwritten (s.pc u) = none :=
    fun left hleft => unwritten_of_ne hinv.owned (holds_of_unwritten hleft)
  cases hwrites with
  | quiet hold hnew hsame hes =>
    have hbytes := bytes_of_eq hsame
    have hunwritten : ∀ u, unwritten (s'.pc u) = unwritten (s.pc u) := by
      intro u
      by_cases hu : u = a.1
      · rw [hu, hnew, hold]
      · rw [pc_of_ne hpc hu]
    have hok : s'.data.NoFailure → s.data.NoFailure := fun hok w hw => hok w (hsame ▸ hw)
    refine ⟨?_, fun hok' u left hu => ?_, fun hok' hnone => ?_⟩
    all_goals rw [stream_append, hes, List.append_nil, hbytes]
    · exact h.began
    · exact h.writing (hok hok') u left ((hunwritten u).symm.trans hu)
    · exact h.idle (hok hok') fun u => (hunwritten u).symm.trans (hnone u)
  | begins hfree hnew hsame =>
    have hbytes := bytes_of_eq hsame
    have hnone := unwritten_of_free hinv.owned hfree
    refine .of_write (fun u _ => hnone u) hpc ?_ fun hok' => ?_
    · rw [hbytes, stream_append]
      exact h.began.trans (List.prefix_append _ _)
    · have hok : s.data.NoFailure := fun w hw => hok' w (hsame ▸ hw)
      rw [hbytes, stream_append, h.idle hok hnone, ← hself, hnew]
      rfl
  | @goes asked rest n hold hnew hmore hes =>
    have hbytes := bytes_of_append hmore
    have hall := h.writing (hinv.noFailure hold) a.1 _ hold
    rw [← List.append_assoc, ← hbytes] at hall
    refine .of_write (hothers _ hold) hpc ?_ fun _ => ?_
    all_goals rw [stream_append, hes, List.append_nil, ← hall]
    · exact List.prefix_append _ _
    · rw [← hself, hnew]
  | ends hold hnew hsame hes =>
    have hbytes := bytes_of_eq hsame
    have hall := h.writing (hinv.noFailure hold) a.1 _ hold
    refine .of_write (hothers _ hold) hpc ?_ fun _ => ?_
    all_goals rw [stream_append, hes, List.append_nil, hbytes]
    · exact h.began
    · rw [← hself, hnew]
      exact hall
  | @fails asked left hold hnew hmore hes =>
    have hbytes := bytes_of_append hmore
    rw [List.take_zero, List.append_nil] at hbytes
    refine .of_write (hothers _ hold) hpc ?_ fun hok => ?_
    · rw [stream_append, hes, List.append_nil, hbytes]
      exact h.began
    · have hlast := hok (asked, 0) (hmore ▸ List.mem_append_right _ (List.mem_singleton_self _))
      exact absurd rfl hlast

theorem accounted_of_run {as : List (Thread × Answer)}
    (hsteady : Guarded (Locks.step threads) Steady started as)
    (hrun : run (Locks.step threads) started as = some s) : Accounted (history as) s := by
  have hnone : ∀ t, unwritten (started.pc t) = none := fun t => by cases t <;> rfl
  have hstarted : Inv started ∧ Accounted [] started :=
    ⟨inv_started, ⟨List.nil_prefix, fun _ t left h => absurd (h.symm.trans (hnone t))
      (Option.some_ne_none _), fun _ _ => rfl⟩⟩
  refine (hsteady.invariant_log (I := fun es s => Inv s ∧ Accounted es s) ?_ hstarted hrun).2
  intro es s a s' h hG hstep
  exact ⟨h.1.step s a s' hG hstep, h.2.step h.1 hG hstep⟩

/-- In every run whose steps are steady, the connection has got a beginning of what one writer
would have sent, the messages one after the other as they were begun; and all of it where no
call failed and nobody is in the middle of a frame. -/
theorem bytes_eq_sendAll (as : List (Thread × Answer)) (s : ThreadState)
    (hsteady : Guarded (Locks.step threads) Steady started as)
    (hrun : run (Locks.step threads) started as = some s)
    (hfit : ∀ m ∈ messages (history as), m.Fits) {accepts : ℕ → ℕ} (haccepts : ∀ k, 0 < accepts k) :
    s.data.bytes <+: (sendAll ⟨[], accepts⟩ (messages (history as))).written ∧
      (s.data.NoFailure → (∀ t, unwritten (s.pc t) = none) →
        s.data.bytes = (sendAll ⟨[], accepts⟩ (messages (history as))).written) := by
  have h := accounted_of_run hsteady hrun
  rw [@written_sendAll _ hfit ⟨[], accepts⟩ haccepts, List.nil_append]
  exact ⟨h.began, h.idle⟩

/-- The ready message and one reading, the header of the latter in two parts. -/
def greetAndSend : List (Thread × Answer) :=
  [(.loop, .yes), (.loop, .takes 100), (.loop, .takes 100), (.loop, .yes)] ++ sendReading ++
    [(.send, .takes 1), (.send, .takes 100), (.send, .takes 100), (.send, .yes)]

theorem steady_greetAndSend : Guarded (Locks.step threads) Steady started greetAndSend := by
  apply Guarded.of_allSteps steadyTest steady_of_steadyTest
  decide

theorem exists_run_greetAndSend : ∃ s, run (Locks.step threads) started greetAndSend = some s ∧
    s.data.NoFailure ∧ ∀ t, unwritten (s.pc t) = none := by
  refine ⟨_, rfl, fun w hw => ?_, fun t => by cases t <;> rfl⟩
  have hwrites : (run (Locks.step threads) started greetAndSend).map
      (fun s => s.data.writes.all (·.2 ≠ 0)) = some true := by decide
  exact of_decide_eq_true (List.all_eq_true.mp (Option.some.inj hwrites) w hw)

theorem messages_greetAndSend : messages (history greetAndSend) =
    [.binary readyMessage, .binary (bundleFrame .imu ⟨⟨1, 5⟩, .imu, [1, 2]⟩)] := rfl

theorem fits_greetAndSend : ∀ m ∈ messages (history greetAndSend), m.Fits := by
  rw [messages_greetAndSend]
  intro m hm
  rcases List.mem_pair.mp hm with rfl | rfl
  · exact lt_trans (by decide : readyMessage.length < 100) (by decide)
  · exact lt_trans (by decide : (bundleFrame .imu ⟨⟨1, 5⟩, .imu, [1, 2]⟩).length < 100) (by decide)

theorem bytes_eq_sendAll_greeted : ∃ s, run (Locks.step threads) started greetAndSend = some s ∧
    s.data.bytes = (sendAll ⟨[], fun _ => 1⟩
      [.binary readyMessage, .binary (bundleFrame .imu ⟨⟨1, 5⟩, .imu, [1, 2]⟩)]).written := by
  obtain ⟨s, hrun, hok, hidle⟩ := exists_run_greetAndSend
  exact ⟨s, hrun, (bytes_eq_sendAll greetAndSend s steady_greetAndSend hrun fits_greetAndSend
    fun _ => Nat.one_pos).2 hok hidle⟩

/-! ### The bundles -/

/-- The payload that `send_loop` is about to take the mutex for. -/
def waiting : Pc → List Bytes
  | .send (.sendLock frame) => [frame]
  | _ => []

def greeting : Pc → List Bytes
  | .loop .greetLock => []
  | _ => [readyMessage]

def taken (es : List Event) : List (DataType × DataBundle) := es.filterMap Event.item

structure Carried (es : List Event) (s : ThreadState) : Prop where
  early : Early s
  first : s.pc .loop = .loop .greetLock → taken es = []
  payloads : es.filterMap Event.payload ++ waiting (s.pc .send) =
    greeting (s.pc .loop) ++ (taken es).map fun item => bundleFrame item.1 item.2

theorem Carried.loop {es : List Event} (h : Carried es s) {q : LoopPc} {answer : Answer}
    {m : Move Thread Mutex LoopPc} (hq : s.pc .loop = .loop q)
    (hloop : clientLoop q s.data answer = some (m, s'.data))
    (hpc : s'.pc = Function.update s.pc .loop (.loop m.dest)) :
    Carried (es ++ events s (.loop, answer)) s' := by
  have hself : s'.pc .loop = .loop m.dest := pc_self hpc
  have hsend : s'.pc .send = s.pc .send := pc_of_ne hpc Thread.noConfusion
  have hlater : m.dest ≠ .greetLock := by
    unfold clientLoop at hloop
    split at hloop <;> (try split at hloop) <;>
      first
        | exact absurd hloop (Option.some_ne_none _).symm
        | obtain ⟨rfl, -⟩ := Prod.mk.inj (Option.some.inj hloop)
          exact LoopPc.noConfusion
  have hgreeting : greeting (.loop m.dest) = [readyMessage] := by
    cases hdest : m.dest with
    | greetLock => exact absurd hdest hlater
    | _ => rfl
  refine ⟨h.early.loop hq hloop hpc, fun hfirst => ?_, ?_⟩
  · exact absurd (Pc.loop.inj (hself.symm.trans hfirst)) hlater
  · have hpayloads := h.payloads
    rw [hq] at hpayloads
    rw [hself, hsend, hgreeting]
    by_cases hgreet : q = .greetLock
    · subst hgreet
      -- There is nothing yet but this message.
      have htaken := h.first hq
      have hidle : waiting (s.pc .send) = [] := by
        rcases h.early with hplace | ⟨-, hplace⟩
        · rw [hq] at hplace
          rcases hplace with he | he | he <;> cases he
        · rcases hplace with he | he | he <;> rw [he] <;> rfl
      rw [hidle, htaken, List.append_nil] at hpayloads
      have hevents : events s (.loop, answer) = [.binary readyMessage] := by simp [events, hq]
      have htaken' : taken (es ++ [.binary readyMessage]) = [] := by
        rw [taken, List.filterMap_append, ← taken, htaken]
        rfl
      rw [hevents, htaken', hidle, List.filterMap_append, hpayloads]
      rfl
    · have hevents : events s (.loop, answer) = [] := by cases q <;> simp_all [events]
      rw [hevents, List.append_nil, hpayloads]
      congr 1
      cases q with
      | greetLock => exact absurd rfl hgreet
      | _ => rfl

theorem Carried.send {es : List Event} (h : Carried es s) {q : SendPc} {answer : Answer}
    {m : Move Thread Mutex SendPc} (hq : s.pc .send = .send q)
    (hloop : sendLoop q s.data answer = some (m, s'.data))
    (hpc : s'.pc = Function.update s.pc .send (.send m.dest)) :
    Carried (es ++ events s (.send, answer)) s' := by
  have hself : s'.pc .send = .send m.dest := pc_self hpc
  have hgreet : s'.pc .loop = s.pc .loop := pc_of_ne hpc Thread.noConfusion
  have hpayloads := h.payloads
  rw [hq] at hpayloads
  have hquiet : events s (.send, answer) = [] → waiting (.send q) = [] →
      waiting (.send m.dest) = [] → Carried (es ++ events s (.send, answer)) s' := by
    intro hevents hold hnew
    rw [hevents, List.append_nil]
    refine ⟨h.early.send hq hloop hpc, fun hfirst => h.first (hgreet.symm.trans hfirst), ?_⟩
    rw [hself, hgreet, hnew, ← hpayloads, hold]
  have hearly := h.early.send hq hloop hpc
  unfold sendLoop at hloop
  split at hloop
  · obtain ⟨rfl, -⟩ := Prod.mk.inj (Option.some.inj hloop)
    refine hquiet (by simp [events, hq]) rfl ?_
    dsimp only [Move.dest]
    split_ifs <;> rfl
  · split at hloop
    · rename_i hnil
      obtain ⟨rfl, -⟩ := Prod.mk.inj (Option.some.inj hloop)
      exact hquiet (by simp [events, hq, hnil]) rfl rfl
    · rename_i type bundle queue hqueue
      obtain ⟨rfl, -⟩ := Prod.mk.inj (Option.some.inj hloop)
      have hevents : events s (.send, answer) = [.takes type bundle] := by
        simp [events, hq, hqueue]
      have htaken : taken (es ++ [.takes type bundle]) = taken es ++ [(type, bundle)] := by
        rw [taken, List.filterMap_append]
        rfl
      refine ⟨hearly, fun hfirst => ?_, ?_⟩
      · -- Nothing is queued before the greeting.
        rcases h.early with hplace | ⟨hnil, -⟩
        · rw [hgreet.symm.trans hfirst] at hplace
          rcases hplace with he | he | he <;> cases he
        · exact absurd (hqueue.symm.trans hnil) (List.cons_ne_nil _ _)
      · have hnone : waiting (.send .queue) = [] := rfl
        rw [hnone, List.append_nil] at hpayloads
        rw [hevents, htaken, hself, hgreet, List.filterMap_append, hpayloads, List.map_append,
          ← List.append_assoc]
        congr 1
        exact List.append_nil _
  · rename_i frame
    obtain ⟨rfl, -⟩ := Prod.mk.inj (Option.some.inj hloop)
    have hevents : events s (.send, answer) = [.binary frame] := by simp [events, hq]
    have htaken : taken (es ++ [.binary frame]) = taken es := by
      rw [taken, List.filterMap_append]
      exact List.append_nil _
    rw [hevents]
    refine ⟨hearly, fun hfirst => htaken.trans (h.first (hgreet.symm.trans hfirst)), ?_⟩
    rw [htaken, hself, hgreet, List.filterMap_append, ← hpayloads, List.append_assoc]
    rfl
  · have hevents : events s (.send, answer) = [] := by simp [events, hq]
    split at hloop <;> obtain ⟨rfl, -⟩ := Prod.mk.inj (Option.some.inj hloop) <;>
      exact hquiet hevents rfl rfl
  · obtain ⟨rfl, -⟩ := Prod.mk.inj (Option.some.inj hloop)
    exact hquiet (by simp [events, hq]) rfl rfl
  · obtain ⟨rfl, -⟩ := Prod.mk.inj (Option.some.inj hloop)
    exact hquiet (by simp [events, hq]) rfl rfl
  · cases hloop

theorem Carried.broadcast {es : List Event} (h : Carried es s) {n : ℕ} {q : CallerPc}
    {answer : Answer} {m : Move Thread Mutex CallerPc} (hq : s.pc (.caller n) = .caller q)
    (hloop : Writers.broadcast q s.data answer = some (m, s'.data))
    (hpc : s'.pc = Function.update s.pc (.caller n) (.caller m.dest)) :
    Carried (es ++ events s (.caller n, answer)) s' := by
  have hevents : (events s (.caller n, answer)).filterMap Event.payload = [] ∧
      taken (events s (.caller n, answer)) = [] := by
    cases q <;> simp [events, hq, taken, Event.payload, Event.item]
  have htaken : taken (es ++ events s (.caller n, answer)) = taken es := by
    rw [taken, List.filterMap_append, ← taken, ← taken, hevents.2, List.append_nil]
  have hgreet : s'.pc .loop = s.pc .loop := pc_of_ne hpc Thread.noConfusion
  have hsend : s'.pc .send = s.pc .send := pc_of_ne hpc Thread.noConfusion
  refine ⟨h.early.broadcast hloop hpc, fun hfirst => ?_, ?_⟩
  · rw [htaken]
    exact h.first (hgreet.symm.trans hfirst)
  · rw [htaken, hgreet, hsend, List.filterMap_append, hevents.1, List.append_nil]
    exact h.payloads

theorem Carried.step {es : List Event} (h : Carried es s)
    (hstep : Locks.step threads s a = some s') : Carried (es ++ events s a) s' := by
  obtain ⟨m, d, hnext, hpc, rfl, -⟩ := step_cases hstep
  obtain ⟨t, answer⟩ := a
  rcases threads_next hnext with ⟨q, m', rfl, hq, rfl, hloop⟩ | ⟨q, m', rfl, hq, rfl, hloop⟩ |
    ⟨n, q, m', rfl, hq, rfl, hloop⟩
  all_goals rw [Move.dest_map] at hpc
  · exact h.loop hq hloop hpc
  · exact h.send hq hloop hpc
  · exact h.broadcast hq hloop hpc

theorem carried_of_run {as : List (Thread × Answer)}
    (hrun : run (Locks.step threads) started as = some s) : Carried (history as) s := by
  have hstarted : Carried [] started := ⟨inv_started.early, fun _ => rfl, rfl⟩
  exact run_invariant_log (I := Carried) (fun _ _ _ _ h hstep => h.step hstep) hstarted hrun

end

def readingOf (frame : Frame) : Option Reading :=
  if frame.opcode = 2 then readBundle frame.payload else none

theorem readings_messages (es : List Event) :
    ((messages es).map Message.frame).filterMap readingOf =
      (es.filterMap Event.payload).filterMap readBundle := by
  rw [messages, List.map_filterMap, List.filterMap_filterMap, List.filterMap_filterMap]
  refine List.filterMap_congr fun e _ => ?_
  cases e <;> rfl

theorem readings_greeting (p : Pc) : (greeting p).filterMap readBundle = [] := by
  unfold greeting
  split
  · rfl
  · rw [List.filterMap_cons_none readBundle_readyMessage]
    rfl

/-- In every run whose steps are steady, a client that reads a connection on which nothing failed
and nobody is in the middle of a frame gets all frames, and makes of them the bundles that
`send_loop` took from its queue, in that order; the last may still wait for the mutex. -/
theorem readings_eq_taken (as : List (Thread × Answer)) (s : ThreadState)
    (hsteady : Guarded (Locks.step threads) Steady started as)
    (hrun : run (Locks.step threads) started as = some s) (hok : s.data.NoFailure)
    (hidle : ∀ t, unwritten (s.pc t) = none) (hfit : ∀ m ∈ messages (history as), m.Fits)
    {delivers : ℕ → ℕ} (hdelivers : ∀ k, 0 < delivers k) :
    ∃ frames t, readFrames (messages (history as)).length ⟨s.data.bytes, delivers⟩ =
        .ok (some (frames, t)) ∧ t.data = [] ∧
      frames.filterMap readingOf ++ (waiting (s.pc .send)).filterMap readBundle =
        (taken (history as)).map fun item => .of item.1 item.2 := by
  have hone : Sink.Positive (⟨[], fun _ => 1⟩ : Sink UInt8) := fun _ => Nat.one_pos
  obtain ⟨bs, hbs, hread⟩ := exists_sendAll (messages (history as)) hfit
  have hbytes : s.data.bytes = bs := by
    rw [(accounted_of_run hsteady hrun).idle hok hidle, ← List.nil_append bs, ← hbs _ hone,
      written_sendAll _ hfit hone]
    rfl
  obtain ⟨t, ht, hdata⟩ := hread ⟨s.data.bytes, delivers⟩ [] hdelivers
    (hbytes.trans (List.append_nil bs).symm)
  refine ⟨_, t, ht, hdata, ?_⟩
  rw [readings_messages, ← List.filterMap_append, (carried_of_run hrun).payloads,
    List.filterMap_append, readings_greeting, List.nil_append, List.filterMap_map]
  have hmap : ∀ es : List (DataType × DataBundle),
      es.filterMap (readBundle ∘ fun item => bundleFrame item.1 item.2) =
        es.map fun item => .of item.1 item.2 := by
    intro es
    rw [← List.filterMap_eq_map]
    exact List.filterMap_congr fun item _ => readBundle_bundleFrame item.1 item.2
  exact hmap _

theorem readings_eq_taken_greeted : ∃ s frames t,
    run (Locks.step threads) started greetAndSend = some s ∧
      readFrames 2 ⟨s.data.bytes, fun _ => 3⟩ = .ok (some (frames, t)) ∧
      frames.filterMap readingOf = [⟨.imu, 1, 5, [1, 2]⟩] := by
  obtain ⟨s, hrun, hok, hidle⟩ := exists_run_greetAndSend
  obtain ⟨frames, t, ht, -, hreadings⟩ := readings_eq_taken greetAndSend s steady_greetAndSend hrun
    hok hidle fits_greetAndSend (fun _ => Nat.succ_pos 2 : ∀ _, 0 < 3)
  have hwaiting : (run (Locks.step threads) started greetAndSend).map
      (fun s => waiting (s.pc .send)) = some [] := by decide
  rw [hrun] at hwaiting
  have hnone : waiting (s.pc .send) = [] := Option.some.inj hwaiting
  rw [hnone] at hreadings
  exact ⟨s, frames, t, hrun, ht, (List.append_nil _).symm.trans hreadings⟩

end StereoCamera.WSServer.Writers
