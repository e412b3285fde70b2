import StereoCamera.Data.WSServerDeadlock

/-! The life of a client of `WSServer` (`data/WSServer.cpp`): `accept_loop` creates it and starts
its threads, and destroys it behind their end, unless `stop` does. -/

namespace StereoCamera.WSServer.Threads
open Locks

def LoopEnded (s : ThreadState) (c : ℕ) : Prop := s.pc (.loop c) = .loop .finished

def SendEnded (s : ThreadState) (c : ℕ) : Prop := s.pc (.send c) = .send .finished

def Ended (s : ThreadState) (c : ℕ) : Prop := LoopEnded s c ∧ SendEnded s c

structure Unborn (s : ThreadState) (c : ℕ) : Prop where
  loopPc : s.pc (.loop c) = .loop .notStarted
  sendPc : s.pc (.send c) = .send .notStarted
  loopThread : (s.data.client c).loopThread = false
  sendThread : (s.data.client c).sendThread = false

def Typed : Thread → Pc → Prop
  | .accept, .accept _ | .stopper, .stop _ | .encode, .encode _ | .caller _, .caller _ => True
  | .loop _, .loop _ | .send _, .send _ => True
  | _, _ => False

def Accesses : Thread → Pc → ℕ → Prop
  | .accept, .accept (.cleaning (c' :: _)), c => c' = c
  | .accept, .accept (.joinSend c' _), c => c' = c
  | .accept, .accept (.joinLoop c' _), c => c' = c
  | .accept, .accept (.erase c' _), c => c' = c
  | .accept, .accept (.startLoop c'), c => c' = c
  | .accept, .accept (.setSendRunning c'), c => c' = c
  | .accept, .accept (.startSend c'), c => c' = c
  | .stopper, .stop (.stopping (c' :: _)), c => c' = c
  | .stopper, .stop (.stopSend c' _), c => c' = c
  | .stopper, .stop (.joinSend c' _), c => c' = c
  | .stopper, .stop (.joinLoop c' _), c => c' = c
  | .caller _, .caller (.sending (c' :: _)), c => c' = c
  | .caller _, .caller (.sendLock c' _), c => c' = c
  | .caller _, .caller (.writing c' _), c => c' = c
  | .loop c', .loop p, c => c' = c ∧ p ≠ .notStarted ∧ p ≠ .finished
  | .send c', .send p, c => c' = c ∧ p ≠ .notStarted ∧ p ≠ .finished
  | _, _, _ => False

/-- The loop thread of the client that was just added is still to be started. -/
def AcceptPc.startsLoop (c : ℕ) (p : AcceptPc) : Prop := p = .startLoop c

def AcceptPc.startsSend (c : ℕ) (p : AcceptPc) : Prop :=
  p = .startLoop c ∨ p = .setSendRunning c ∨ p = .startSend c

def AcceptKnows (s : ThreadState) : AcceptPc → Prop
  | .cleaning rest => rest.Nodup ∧ rest ⊆ s.data.clients
  | .joinSend c rest => (c :: rest).Nodup ∧ c :: rest ⊆ s.data.clients
  | .joinLoop c rest => (c :: rest).Nodup ∧ c :: rest ⊆ s.data.clients ∧ SendEnded s c
  | .erase c rest => (c :: rest).Nodup ∧ c :: rest ⊆ s.data.clients ∧ Ended s c
  | .startLoop c | .setSendRunning c | .startSend c => c ∈ s.data.clients
  | _ => True

structure LeavesEnded (s : ThreadState) (rest : List ℕ) : Prop where
  subset : rest ⊆ s.data.clients
  ended : ∀ c ∈ s.data.clients, c ∉ rest → Ended s c

def StopKnows (s : ThreadState) : StopPc → Prop
  | .idle | .joinAccept => True
  | .joinEncode | .clientsLock => s.pc .accept = .accept .finished
  | .stopping rest => s.pc .accept = .accept .finished ∧ LeavesEnded s rest
  | .stopSend c rest | .joinSend c rest =>
    s.pc .accept = .accept .finished ∧ LeavesEnded s (c :: rest)
  | .joinLoop c rest =>
    s.pc .accept = .accept .finished ∧ LeavesEnded s (c :: rest) ∧ SendEnded s c

def CallerKnows (clients : List ℕ) : CallerPc → Prop
  | .sending rest => rest ⊆ clients
  | .sendLock c rest | .writing c rest => c :: rest ⊆ clients
  | _ => True

structure Lifecycle (s : ThreadState) : Prop where
  owned : Owned Holds s
  typed : ∀ t, Typed t (s.pc t)
  nodup : s.data.clients.Nodup
  lt : ∀ c ∈ s.data.clients, c < s.data.connected
  unborn : ∀ c, s.data.connected ≤ c → Unborn s c
  ended : ∀ c, c < s.data.connected → c ∉ s.data.clients → Ended s c
  loopThread : ∀ c ∈ s.data.clients, (∀ p, s.pc .accept = .accept p → ¬p.startsLoop c) →
    (s.data.client c).loopThread = true
  sendThread : ∀ c ∈ s.data.clients, (∀ p, s.pc .accept = .accept p → ¬p.startsSend c) →
    (s.data.client c).sendThread = true
  accept : ∀ p, s.pc .accept = .accept p → AcceptKnows s p
  stop : ∀ p, s.pc .stopper = .stop p → StopKnows s p
  caller : ∀ n p, s.pc (.caller n) = .caller p → CallerKnows s.data.clients p

theorem Lifecycle.mem_of_accesses {s : ThreadState} (hs : Lifecycle s) {t : Thread} {c : ℕ}
    (h : Accesses t (s.pc t) c) : c ∈ s.data.clients := by
  unfold Accesses at h
  split at h
  case h_1 hpc => exact h ▸ (hs.accept _ hpc).2 List.mem_cons_self
  case h_2 hpc => exact h ▸ (hs.accept _ hpc).2 List.mem_cons_self
  case h_3 hpc => exact h ▸ (hs.accept _ hpc).2.1 List.mem_cons_self
  case h_4 hpc => exact h ▸ (hs.accept _ hpc).2.1 List.mem_cons_self
  case h_5 hpc | h_6 hpc | h_7 hpc => exact h ▸ hs.accept _ hpc
  case h_8 hpc | h_9 hpc | h_10 hpc => exact h ▸ (hs.stop _ hpc).2.subset List.mem_cons_self
  case h_11 hpc => exact h ▸ (hs.stop _ hpc).2.1.subset List.mem_cons_self
  case h_12 hpc | h_13 hpc | h_14 hpc => exact h ▸ hs.caller _ _ hpc List.mem_cons_self
  case h_15 c' p hpc =>
    obtain ⟨rfl, hstarted, hfinished⟩ := h
    by_contra hmem
    rcases Nat.lt_or_ge c' s.data.connected with hlt | hge
    · exact hfinished (Pc.loop.inj (hpc.symm.trans (hs.ended _ hlt hmem).1))
    · exact hstarted (Pc.loop.inj (hpc.symm.trans (hs.unborn _ hge).loopPc))
  case h_16 c' p hpc =>
    obtain ⟨rfl, hstarted, hfinished⟩ := h
    by_contra hmem
    rcases Nat.lt_or_ge c' s.data.connected with hlt | hge
    · exact hfinished (Pc.send.inj (hpc.symm.trans (hs.ended _ hlt hmem).2))
    · exact hstarted (Pc.send.inj (hpc.symm.trans (hs.unborn _ hge).sendPc))
  case h_17 => exact h.elim

/-! ## What the steps leave as it is -/

theorem typed_of_next {t : Thread} {q : Pc} {d d' : Shared} {o : Answer}
    {m : Move Thread Mutex Pc}
    (h : threads.next t q d o = some (m, d')) : Typed t m.dest := by
  refine threads_cases (motive := fun t _ m => Typed t m.dest) ?_ ?_ ?_ ?_ ?_ ?_ h
  all_goals
    intros
    rw [Move.dest_map]
    trivial

section
variable {s s' : ThreadState} {a : Thread × Answer} {c : ℕ}

theorem LoopEnded.step (hc : LoopEnded s c) (h : step threads s a = some s') :
    LoopEnded s' c := by
  obtain ⟨m, d, hnext, hpc, -, -⟩ := step_cases h
  by_cases ha : a.1 = .loop c
  · rw [ha, hc] at hnext
    cases hnext
  · exact (pc_of_ne hpc (Ne.symm ha)).trans hc

theorem SendEnded.step (hc : SendEnded s c) (h : step threads s a = some s') :
    SendEnded s' c := by
  obtain ⟨m, d, hnext, hpc, -, -⟩ := step_cases h
  by_cases ha : a.1 = .send c
  · rw [ha, hc] at hnext
    cases hnext
  · exact (pc_of_ne hpc (Ne.symm ha)).trans hc

theorem typed_step (hs : ∀ t, Typed t (s.pc t)) (h : step threads s a = some s') (t : Thread) :
    Typed t (s'.pc t) := by
  obtain ⟨m, d, hnext, hpc, -, -⟩ := step_cases h
  by_cases ha : t = a.1
  · subst ha
    rw [pc_self hpc]
    exact typed_of_next hnext
  · rw [pc_of_ne hpc ha]
    exact hs t

theorem Ended.step (hc : Ended s c) (h : step threads s a = some s') : Ended s' c :=
  ⟨hc.1.step h, hc.2.step h⟩

theorem Unborn.step (hc : Unborn s c) (h : step threads s a = some s')
    (hloop : (s'.data.client c).loopThread = (s.data.client c).loopThread)
    (hsend : (s'.data.client c).sendThread = (s.data.client c).sendThread) : Unborn s' c := by
  obtain ⟨m, d, hnext, hpc, -, -⟩ := step_cases h
  refine ⟨?_, ?_, hloop.trans hc.loopThread, hsend.trans hc.sendThread⟩
  · by_cases ha : a.1 = .loop c
    · rw [ha, hc.loopPc] at hnext
      change lift .loop (if (s.data.client c).loopThread then _ else _) = _ at hnext
      rw [hc.loopThread] at hnext
      cases hnext
    · exact (pc_of_ne hpc (Ne.symm ha)).trans hc.loopPc
  · by_cases ha : a.1 = .send c
    · rw [ha, hc.sendPc] at hnext
      change lift .send (if (s.data.client c).sendThread then _ else _) = _ at hnext
      rw [hc.sendThread] at hnext
      cases hnext
    · exact (pc_of_ne hpc (Ne.symm ha)).trans hc.sendPc

theorem AcceptKnows.step {p : AcceptPc} (hp : AcceptKnows s p) (h : step threads s a = some s')
    (hclients : s'.data.clients = s.data.clients) : AcceptKnows s' p := by
  unfold AcceptKnows at hp ⊢
  rw [hclients]
  split at hp
  · exact hp
  · exact hp
  · exact ⟨hp.1, hp.2.1, hp.2.2.step h⟩
  · exact ⟨hp.1, hp.2.1, hp.2.2.step h⟩
  · exact hp
  · exact hp
  · exact hp
  · trivial

theorem LeavesEnded.step {rest : List ℕ} (hrest : LeavesEnded s rest)
    (h : step threads s a = some s') (hclients : s'.data.clients = s.data.clients) :
    LeavesEnded s' rest where
  subset := by
    rw [hclients]
    exact hrest.subset
  ended c hc hne := by
    rw [hclients] at hc
    exact (hrest.ended c hc hne).step h

theorem accept_finished_step (hp : s.pc .accept = .accept .finished)
    (h : step threads s a = some s') : s'.pc .accept = .accept .finished := by
  obtain ⟨m, d, hnext, hpc, -, -⟩ := step_cases h
  by_cases ha : a.1 = .accept
  · rw [ha, hp] at hnext
    cases hnext
  · exact (pc_of_ne hpc (Ne.symm ha)).trans hp

theorem StopKnows.step {p : StopPc} (hp : StopKnows s p) (h : step threads s a = some s')
    (hclients : s'.data.clients = s.data.clients) : StopKnows s' p := by
  unfold StopKnows at hp ⊢
  split at hp
  · trivial
  · trivial
  · exact accept_finished_step hp h
  · exact accept_finished_step hp h
  · exact ⟨accept_finished_step hp.1 h, hp.2.step h hclients⟩
  · exact ⟨accept_finished_step hp.1 h, hp.2.step h hclients⟩
  · exact ⟨accept_finished_step hp.1 h, hp.2.step h hclients⟩
  · exact ⟨accept_finished_step hp.1 h, hp.2.1.step h hclients, hp.2.2.step h⟩

end

structure SameClients (d d' : Shared) : Prop where
  clients : d'.clients = d.clients
  connected : d'.connected = d.connected
  loopThread : ∀ c, (d'.client c).loopThread = (d.client c).loopThread
  sendThread : ∀ c, (d'.client c).sendThread = (d.client c).sendThread

theorem SameClients.refl (d : Shared) : SameClients d d := ⟨rfl, rfl, fun _ => rfl, fun _ => rfl⟩

theorem sameClients_setClient {d : Shared} {c : ℕ} {f : WSSClient → WSSClient}
    (hloop : ∀ k, (f k).loopThread = k.loopThread) (hsend : ∀ k, (f k).sendThread = k.sendThread) :
    SameClients d (d.setClient c f) where
  clients := rfl
  connected := rfl
  loopThread c' := by
    unfold Shared.setClient
    dsimp only
    by_cases hc : c' = c
    · subst hc
      rw [Function.update_self, hloop]
    · rw [Function.update_of_ne hc]
  sendThread c' := by
    unfold Shared.setClient
    dsimp only
    by_cases hc : c' = c
    · subst hc
      rw [Function.update_self, hsend]
    · rw [Function.update_of_ne hc]

section
variable {d d' : Shared} {o : Answer}

theorem sameClients_of_clientLoop {c : ℕ} {p : LoopPc} {m : Move Thread Mutex LoopPc}
    (h : clientLoop c p d o = some (m, d')) : SameClients d d' := by
  unfold clientLoop at h
  split at h <;> (try split_ifs at h) <;> (try split at h) <;> cases h <;>
    first
      | exact .refl _
      | exact sameClients_setClient (fun _ => rfl) fun _ => rfl
      | exact ⟨rfl, rfl, fun _ => rfl, fun _ => rfl⟩

theorem sameClients_of_sendLoop {c : ℕ} {p : SendPc} {m : Move Thread Mutex SendPc}
    (h : sendLoop c p d o = some (m, d')) : SameClients d d' := by
  unfold sendLoop at h
  split at h <;> (try split_ifs at h) <;> (try split at h) <;> cases h <;>
    first
      | exact .refl _
      | exact sameClients_setClient (fun _ => rfl) fun _ => rfl

theorem data_of_encodeLoop {p : EncodePc} {m : Move Thread Mutex EncodePc}
    (h : encodeLoop p d o = some (m, d')) : d' = d := by
  unfold encodeLoop at h
  split at h <;> (try split at h) <;> cases h <;> rfl

theorem callerKnows_of_caller {p : CallerPc} {m : Move Thread Mutex CallerPc}
    (h : caller p d o = some (m, d')) (hp : CallerKnows d.clients p) :
    d' = d ∧ CallerKnows d.clients m.dest := by
  unfold caller at h
  cases p with
  | idle =>
    dsimp only at h
    split at h <;> (cases h; exact ⟨rfl, trivial⟩)
  | broadcastLock =>
    cases h
    exact ⟨rfl, List.Subset.refl _⟩
  | sending rest =>
    cases rest with
    | nil =>
      cases h
      exact ⟨rfl, trivial⟩
    | cons c rest =>
      cases h
      refine ⟨rfl, ?_⟩
      change CallerKnows d.clients (if _ then _ else _)
      split_ifs
      · exact hp
      · exact fun c' hc' => hp (List.mem_cons_of_mem _ hc')
  | sendLock c rest =>
    cases h
    exact ⟨rfl, hp⟩
  | writing c rest =>
    cases h
    exact ⟨rfl, fun c' hc' => hp (List.mem_cons_of_mem _ hc')⟩
  | countLock | counting | notifyLock | notifying =>
    cases h
    exact ⟨rfl, trivial⟩

theorem eq_of_next_caller {n : ℕ} {q : Pc} {m : Move Thread Mutex Pc}
    (h : threads.next (.caller n) q d o = some (m, d')) :
    ∃ p m', q = .caller p ∧ caller p d o = some (m', d') ∧ m = m'.map .caller := by
  cases q with
  | caller p =>
    obtain ⟨m', hm', hmap⟩ := eq_of_lift h
    exact ⟨p, m', rfl, hm', hmap⟩
  | _ => cases h

theorem eq_of_next_accept {q : Pc} {m : Move Thread Mutex Pc}
    (h : threads.next .accept q d o = some (m, d')) :
    ∃ p m', q = .accept p ∧ acceptLoop p d o = some (m', d') ∧ m = m'.map .accept := by
  cases q with
  | accept p =>
    obtain ⟨m', hm', hmap⟩ := eq_of_lift h
    exact ⟨p, m', rfl, hm', hmap⟩
  | _ => cases h

theorem eq_of_next_stopper {q : Pc} {m : Move Thread Mutex Pc}
    (h : threads.next .stopper q d o = some (m, d')) :
    ∃ p m', q = .stop p ∧ stop p d o = some (m', d') ∧ m = m'.map .stop := by
  cases q with
  | stop p =>
    obtain ⟨m', hm', hmap⟩ := eq_of_lift h
    exact ⟨p, m', rfl, hm', hmap⟩
  | _ => cases h

theorem sameClients_of_next {t : Thread} {q : Pc} {m : Move Thread Mutex Pc}
    (h : threads.next t q d o = some (m, d')) (haccept : t ≠ .accept) (hstopper : t ≠ .stopper) :
    SameClients d d' := by
  unfold threads at h
  dsimp only at h
  split at h
  · exact absurd rfl haccept
  · exact absurd rfl hstopper
  · obtain ⟨m', hm, -⟩ := eq_of_lift h
    rw [data_of_encodeLoop hm]
    exact .refl d
  · rename_i p
    obtain ⟨m', hm, -⟩ := eq_of_lift h
    unfold caller at hm
    split at hm <;> (try split at hm) <;> cases hm <;> exact .refl d
  · obtain ⟨m', hm, -⟩ := eq_of_lift h
    exact sameClients_of_clientLoop hm
  · obtain ⟨m', hm, -⟩ := eq_of_lift h
    exact sameClients_of_sendLoop hm
  · cases h

end

/-! ## The steps -/

namespace Lifecycle
variable {s s' : ThreadState} {a : Thread × Answer}

theorem of_same (hs : Lifecycle s) (h : step threads s a = some s')
    (hsame : SameClients s.data s'.data)
    (hstart : ∀ c p', s'.pc .accept = .accept p' → ∀ p, s.pc .accept = .accept p →
      (p.startsLoop c → p'.startsLoop c) ∧ (p.startsSend c → p'.startsSend c))
    (hexists : ∀ p, s.pc .accept = .accept p → ∃ p', s'.pc .accept = .accept p')
    (haccept : ∀ p, s'.pc .accept = .accept p → AcceptKnows s' p)
    (hstop : ∀ p, s'.pc .stopper = .stop p → StopKnows s' p)
    (hcaller : ∀ n p, s'.pc (.caller n) = .caller p → CallerKnows s'.data.clients p) :
    Lifecycle s' where
  owned := hs.owned.step threads_scoped h
  typed := typed_step hs.typed h
  nodup := by
    rw [hsame.clients]
    exact hs.nodup
  lt c hc := by
    rw [hsame.clients] at hc
    rw [hsame.connected]
    exact hs.lt c hc
  unborn c hc := by
    rw [hsame.connected] at hc
    exact (hs.unborn c hc).step h (hsame.loopThread c) (hsame.sendThread c)
  ended c hc hmem := by
    rw [hsame.connected] at hc
    rw [hsame.clients] at hmem
    exact (hs.ended c hc hmem).step h
  loopThread c hc hp := by
    rw [hsame.clients] at hc
    rw [hsame.loopThread]
    refine hs.loopThread c hc fun p hpc hstarts => ?_
    obtain ⟨p', hpc'⟩ := hexists p hpc
    exact hp p' hpc' ((hstart c p' hpc' p hpc).1 hstarts)
  sendThread c hc hp := by
    rw [hsame.clients] at hc
    rw [hsame.sendThread]
    refine hs.sendThread c hc fun p hpc hstarts => ?_
    obtain ⟨p', hpc'⟩ := hexists p hpc
    exact hp p' hpc' ((hstart c p' hpc' p hpc).2 hstarts)
  accept := haccept
  stop := hstop
  caller := hcaller

theorem caller_of_ne (hs : Lifecycle s) (h : step threads s a = some s')
    (hclients : s'.data.clients = s.data.clients) {n : ℕ} (hn : a.1 ≠ .caller n) {p : CallerPc}
    (hp : s'.pc (.caller n) = .caller p) : CallerKnows s'.data.clients p := by
  obtain ⟨m, d, hnext, hpc, -, -⟩ := step_cases h
  rw [hclients]
  exact hs.caller n p ((pc_of_ne hpc hn.symm).symm.trans hp)

theorem of_others (hs : Lifecycle s) (h : step threads s a = some s') (ha : a.1 ≠ .accept)
    (ha' : a.1 ≠ .stopper) : Lifecycle s' := by
  obtain ⟨m, d, hnext, hpc, hdata, -⟩ := step_cases h
  have hsame : SameClients s.data s'.data := hdata ▸ sameClients_of_next hnext ha ha'
  have haccept : s'.pc .accept = s.pc .accept := pc_of_ne hpc (Ne.symm ha)
  refine hs.of_same h hsame ?_ ?_ ?_ ?_ ?_
  · intro c p' hp' p hp
    cases Pc.accept.inj ((hp.symm.trans haccept.symm).trans hp')
    exact ⟨id, id⟩
  · exact fun p hp => ⟨p, haccept.trans hp⟩
  · exact fun p hp => (hs.accept p (haccept.symm.trans hp)).step h hsame.clients
  · intro p hp
    exact (hs.stop p ((pc_of_ne hpc (Ne.symm ha')).symm.trans hp)).step h hsame.clients
  · intro n p hp
    by_cases hn : a.1 = .caller n
    · rw [hn] at hnext hpc
      obtain ⟨q, m', hq, hm', rfl⟩ := eq_of_next_caller hnext
      obtain ⟨-, hknows⟩ := callerKnows_of_caller hm' (hs.caller n q hq)
      rw [pc_self hpc, Move.dest_map] at hp
      rw [hsame.clients, ← Pc.caller.inj hp]
      exact hknows
    · exact hs.caller_of_ne h hsame.clients hn hp

theorem sendEnded_of_join (hs : Lifecycle s) {c : ℕ}
    (h : threads.finished (s.pc (.send c)) = true) : SendEnded s c := by
  -- Who joins a thread of the client has seen its end.
  have htyped := hs.typed (.send c)
  unfold SendEnded
  cases hpc : s.pc (.send c) with
  | send p =>
    rw [hpc] at h
    rw [of_decide_eq_true h]
  | accept p | stop p | encode p | caller p | loop p =>
    rw [hpc] at htyped
    exact htyped.elim

theorem loopEnded_of_join (hs : Lifecycle s) {c : ℕ}
    (h : threads.finished (s.pc (.loop c)) = true) : LoopEnded s c := by
  have htyped := hs.typed (.loop c)
  unfold LoopEnded
  cases hpc : s.pc (.loop c) with
  | loop p =>
    rw [hpc] at h
    rw [of_decide_eq_true h]
  | accept p | stop p | encode p | caller p | send p =>
    rw [hpc] at htyped
    exact htyped.elim

theorem accept_finished_of_join (hs : Lifecycle s)
    (h : threads.finished (s.pc .accept) = true) : s.pc .accept = .accept .finished := by
  have htyped := hs.typed .accept
  cases hpc : s.pc .accept with
  | accept p =>
    rw [hpc] at h
    rw [of_decide_eq_true h]
  | stop p | encode p | caller p | loop p | send p =>
    rw [hpc] at htyped
    exact htyped.elim

theorem caller_of_clients (hs : Lifecycle s) {t : Thread} (ht : Holds t (s.pc t) .clients)
    (hcaller : ∀ n, t ≠ .caller n) {clients : List ℕ} {n : ℕ} {p : CallerPc}
    (hp : s.pc (.caller n) = .caller p) : CallerKnows clients p := by
  -- While somebody has the mutex of the list, no caller goes through it.
  have hnot : ¬Holds (.caller n) (s.pc (.caller n)) .clients :=
    fun h => hcaller n (hs.owned.unique ht h)
  rw [hp] at hnot
  unfold CallerKnows
  split
  · exact absurd List.mem_cons_self hnot
  · exact absurd List.mem_cons_self hnot
  · exact absurd (List.mem_cons_of_mem _ List.mem_cons_self) hnot
  · trivial

theorem of_stop_same (hs : Lifecycle s) (h : step threads s a = some s') (ha : a.1 = .stopper)
    {p : StopPc} (hp : s'.pc .stopper = .stop p) (hsame : SameClients s.data s'.data)
    (hknows : StopKnows s' p) : Lifecycle s' := by
  obtain ⟨m, d, hnext, hpc, hdata, -⟩ := step_cases h
  have haccept : s'.pc .accept = s.pc .accept := pc_of_ne hpc (by rw [ha]; nofun)
  refine hs.of_same h hsame ?_ ?_ ?_ ?_ ?_
  · intro c p' hp' p hp
    cases Pc.accept.inj ((hp.symm.trans haccept.symm).trans hp')
    exact ⟨id, id⟩
  · exact fun p hp => ⟨p, haccept.trans hp⟩
  · exact fun p hp => (hs.accept p (haccept.symm.trans hp)).step h hsame.clients
  · intro p' hp'
    cases Pc.stop.inj (hp.symm.trans hp')
    exact hknows
  · exact fun n p hp => hs.caller_of_ne h hsame.clients (by rw [ha]; nofun) hp

theorem of_clear (hs : Lifecycle s) (h : step threads s a = some s') (ha : a.1 = .stopper)
    (hp : s.pc .stopper = .stop (.stopping []))
    (hclear : s'.data = { s.data with clients := [] })
    (hp' : s'.pc .stopper = .stop .idle) : Lifecycle s' := by
  obtain ⟨m, d, hnext, hpc, -, -⟩ := step_cases h
  obtain ⟨hfinished, hleaves⟩ := hs.stop _ hp
  have haccept := accept_finished_step hfinished h
  have hnil : s'.data.clients = [] := by rw [hclear]
  have hconnected : s'.data.connected = s.data.connected := by rw [hclear]
  have hclient : s'.data.client = s.data.client := by rw [hclear]
  have hno : ∀ c, c ∉ s'.data.clients := by
    intro c
    rw [hnil]
    exact List.not_mem_nil
  refine ⟨hs.owned.step threads_scoped h, typed_step hs.typed h, ?_, ?_, ?_, ?_, ?_, ?_, ?_, ?_, ?_⟩
  · rw [hnil]
    exact List.nodup_nil
  · exact fun c hc => absurd hc (hno c)
  · intro c hc
    rw [hconnected] at hc
    exact (hs.unborn c hc).step h (by rw [hclient]) (by rw [hclient])
  · intro c hc _
    rw [hconnected] at hc
    by_cases hmem : c ∈ s.data.clients
    · exact (hleaves.ended c hmem List.not_mem_nil).step h
    · exact (hs.ended c hc hmem).step h
  · exact fun c hc => absurd hc (hno c)
  · exact fun c hc => absurd hc (hno c)
  · intro p hp
    cases Pc.accept.inj (haccept.symm.trans hp)
    trivial
  · intro p hp
    cases Pc.stop.inj (hp'.symm.trans hp)
    trivial
  · intro n p hcaller
    have hheld : Holds .stopper (s.pc .stopper) .clients := by
      rw [hp]
      exact List.mem_cons_self
    refine hs.caller_of_clients (n := n) hheld nofun ?_
    exact (pc_of_ne (u := .caller n) hpc (by rw [ha]; nofun)).symm.trans hcaller

theorem of_stopper (hs : Lifecycle s) (h : step threads s a = some s') (ha : a.1 = .stopper) :
    Lifecycle s' := by
  obtain ⟨m, d, hnext, hpc, hdata, htakes⟩ := step_cases h
  rw [ha] at hnext hpc
  obtain ⟨p, m', hp, hm', rfl⟩ := eq_of_next_stopper hnext
  have hpc' : s'.pc .stopper = .stop m'.dest := by rw [pc_self hpc, Move.dest_map]
  have hknows := hs.stop p hp
  have hstays : s'.data = s.data → SameClients s.data s'.data := by
    intro heq
    rw [heq]
    exact .refl _
  unfold Threads.stop at hm'
  cases p with
  | idle =>
    dsimp only at hm'
    split_ifs at hm'
    cases hm'
    refine hs.of_stop_same h ha hpc' ?_ trivial
    rw [hdata]
    exact ⟨rfl, rfl, fun _ => rfl, fun _ => rfl⟩
  | joinAccept =>
    cases hm'
    refine hs.of_stop_same h ha hpc' (hstays hdata) ?_
    exact accept_finished_step (hs.accept_finished_of_join htakes.1) h
  | joinEncode =>
    cases hm'
    exact hs.of_stop_same h ha hpc' (hstays hdata) (accept_finished_step hknows h)
  | clientsLock =>
    cases hm'
    refine hs.of_stop_same h ha hpc' (hstays hdata) ⟨accept_finished_step hknows h, ?_, ?_⟩
    · rw [hdata]
      exact List.Subset.refl _
    · intro c hc hne
      rw [hdata] at hc
      exact absurd hc hne
  | stopping rest =>
    cases rest with
    | nil =>
      cases hm'
      exact hs.of_clear h ha hp hdata hpc'
    | cons c rest =>
      cases hm'
      have hsame : SameClients s.data s'.data := by
        rw [hdata]
        exact sameClients_setClient (fun _ => rfl) fun _ => rfl
      exact hs.of_stop_same h ha hpc' hsame (StopKnows.step (p := .stopping (c :: rest)) hknows h
        hsame.clients)
  | stopSend c rest =>
    cases hm'
    have hsame : SameClients s.data s'.data := by
      rw [hdata]
      exact sameClients_setClient (fun _ => rfl) fun _ => rfl
    exact hs.of_stop_same h ha hpc' hsame (StopKnows.step (p := .stopSend c rest) hknows h
      hsame.clients)
  | joinSend c rest =>
    have hstarts : ∀ p, s.pc .accept = .accept p → ¬p.startsSend c := by
      intro p hp
      cases Pc.accept.inj (hknows.1.symm.trans hp)
      rintro (h | h | h) <;> cases h
    have hthread := hs.sendThread c (hknows.2.subset List.mem_cons_self) hstarts
    unfold joinIf at hm'
    dsimp only at hm'
    rw [hthread] at hm'
    cases hm'
    have hsame := hstays hdata
    refine hs.of_stop_same h ha hpc' hsame ⟨accept_finished_step hknows.1 h,
      hknows.2.step h hsame.clients, ?_⟩
    exact (hs.sendEnded_of_join htakes.1).step h
  | joinLoop c rest =>
    obtain ⟨hfinished, hleaves, hsend⟩ := hknows
    have hstarts : ∀ p, s.pc .accept = .accept p → ¬p.startsLoop c := by
      intro p hp
      cases Pc.accept.inj (hfinished.symm.trans hp)
      exact nofun
    have hthread := hs.loopThread c (hleaves.subset List.mem_cons_self) hstarts
    unfold joinIf at hm'
    dsimp only at hm'
    rw [hthread] at hm'
    cases hm'
    have hended : Ended s' c := Ended.step ⟨hs.loopEnded_of_join htakes.1, hsend⟩ h
    have hsame := hstays hdata
    refine hs.of_stop_same h ha hpc' hsame ⟨accept_finished_step hfinished h, ?_, ?_⟩
    · rw [hsame.clients]
      exact fun c' hc' => hleaves.subset (List.mem_cons_of_mem _ hc')
    · intro c' hc' hne
      rw [hsame.clients] at hc'
      by_cases hc : c' = c
      · exact hc ▸ hended
      · exact (hleaves.ended c' hc' (List.not_mem_cons_of_ne_of_not_mem hc hne)).step h

theorem stop_of_accept (hs : Lifecycle s) (h : step threads s a = some s') (ha : a.1 = .accept)
    {p : StopPc} (hp : s'.pc .stopper = .stop p) : StopKnows s' p := by
  obtain ⟨m, d, hnext, hpc, -, -⟩ := step_cases h
  rw [ha] at hnext hpc
  have hknows := hs.stop p ((pc_of_ne (u := .stopper) hpc nofun).symm.trans hp)
  have hrunning : s.pc .accept ≠ .accept .finished := by
    intro hfinished
    rw [hfinished] at hnext
    cases hnext
  unfold StopKnows at hknows ⊢
  split at hknows
  · trivial
  · trivial
  · exact absurd hknows hrunning
  · exact absurd hknows hrunning
  · exact absurd hknows.1 hrunning
  · exact absurd hknows.1 hrunning
  · exact absurd hknows.1 hrunning
  · exact absurd hknows.1 hrunning

theorem of_accept_same (hs : Lifecycle s) (h : step threads s a = some s') (ha : a.1 = .accept)
    {p p' : AcceptPc} (hp : s.pc .accept = .accept p) (hp' : s'.pc .accept = .accept p')
    (hsame : SameClients s.data s'.data)
    (hstart : ∀ c, (p.startsLoop c → p'.startsLoop c) ∧ (p.startsSend c → p'.startsSend c))
    (hknows : AcceptKnows s' p') : Lifecycle s' := by
  refine hs.of_same h hsame ?_ ?_ ?_ ?_ ?_
  · intro c q' hq' q hq
    cases Pc.accept.inj (hp.symm.trans hq)
    cases Pc.accept.inj (hp'.symm.trans hq')
    exact hstart c
  · exact fun q hq => ⟨p', hp'⟩
  · intro q hq
    cases Pc.accept.inj (hp'.symm.trans hq)
    exact hknows
  · exact fun q hq => hs.stop_of_accept h ha hq
  · exact fun n q hq => hs.caller_of_ne h hsame.clients (by rw [ha]; nofun) hq

theorem of_erase (hs : Lifecycle s) (h : step threads s a = some s') (ha : a.1 = .accept)
    {c : ℕ} {rest : List ℕ} (hp : s.pc .accept = .accept (.erase c rest))
    (hdata : s'.data = { s.data with clients := s.data.clients.erase c })
    (hp' : s'.pc .accept = .accept (.cleaning rest)) : Lifecycle s' := by
  obtain ⟨m, d, hnext, hpc, -, -⟩ := step_cases h
  rw [ha] at hpc
  obtain ⟨hrest, hsubset, hended⟩ := hs.accept _ hp
  obtain ⟨hc, hrest⟩ := List.nodup_cons.mp hrest
  have hclients : s'.data.clients = s.data.clients.erase c := by rw [hdata]
  have hclient : s'.data.client = s.data.client := by rw [hdata]
  have hconnected : s'.data.connected = s.data.connected := by rw [hdata]
  have hmem : ∀ c', c' ∈ s'.data.clients → c' ∈ s.data.clients := by
    intro c' hc'
    rw [hclients] at hc'
    exact List.mem_of_mem_erase hc'
  have hstarts : ∀ c' q, s.pc .accept = .accept q → ¬q.startsLoop c' ∧ ¬q.startsSend c' := by
    intro c' q hq
    cases Pc.accept.inj (hp.symm.trans hq)
    refine ⟨nofun, ?_⟩
    rintro (h | h | h) <;> cases h
  refine ⟨hs.owned.step threads_scoped h, typed_step hs.typed h, ?_, ?_, ?_, ?_, ?_, ?_, ?_, ?_, ?_⟩
  · rw [hclients]
    exact hs.nodup.erase c
  · intro c' hc'
    rw [hconnected]
    exact hs.lt c' (hmem c' hc')
  · intro c' hc'
    rw [hconnected] at hc'
    exact (hs.unborn c' hc').step h (by rw [hclient]) (by rw [hclient])
  · intro c' hlt hnot
    rw [hconnected] at hlt
    by_cases hcc : c' = c
    · exact hcc ▸ hended.step h
    · refine (hs.ended c' hlt fun hin => hnot ?_).step h
      rw [hclients]
      exact (List.mem_erase_of_ne hcc).mpr hin
  · intro c' hc' _
    rw [hclient]
    exact hs.loopThread c' (hmem c' hc') fun q hq => (hstarts c' q hq).1
  · intro c' hc' _
    rw [hclient]
    exact hs.sendThread c' (hmem c' hc') fun q hq => (hstarts c' q hq).2
  · intro q hq
    cases Pc.accept.inj (hp'.symm.trans hq)
    refine ⟨hrest, fun c' hc' => ?_⟩
    rw [hclients]
    exact (List.mem_erase_of_ne (ne_of_mem_of_not_mem hc' hc)).mpr
      (hsubset (List.mem_cons_of_mem _ hc'))
  · exact fun q hq => hs.stop_of_accept h ha hq
  · intro n q hcaller
    have hheld : Holds .accept (s.pc .accept) .clients := by
      rw [hp]
      exact List.mem_cons_self
    refine hs.caller_of_clients (n := n) hheld nofun ?_
    exact (pc_of_ne (u := .caller n) hpc nofun).symm.trans hcaller

theorem of_push (hs : Lifecycle s) (h : step threads s a = some s') (ha : a.1 = .accept)
    (hp : s.pc .accept = .accept .pushing)
    (hdata : s'.data = { s.data with
      clients := s.data.clients ++ [s.data.connected], connected := s.data.connected + 1
      hadClients := true })
    (hp' : s'.pc .accept = .accept (.startLoop s.data.connected)) : Lifecycle s' := by
  obtain ⟨m, d, hnext, hpc, -, -⟩ := step_cases h
  rw [ha] at hpc
  have hclients : s'.data.clients = s.data.clients ++ [s.data.connected] := by rw [hdata]
  have hclient : s'.data.client = s.data.client := by rw [hdata]
  have hconnected : s'.data.connected = s.data.connected + 1 := by rw [hdata]
  have hnew : s.data.connected ∉ s.data.clients := fun hin => (hs.lt _ hin).false
  have hmem : ∀ c, c ∈ s'.data.clients → c ∈ s.data.clients ∨ c = s.data.connected := by
    intro c hc
    rw [hclients] at hc
    exact (List.mem_append.mp hc).imp_right List.mem_singleton.mp
  have hstarts : ∀ c q, s.pc .accept = .accept q → ¬q.startsLoop c ∧ ¬q.startsSend c := by
    intro c q hq
    cases Pc.accept.inj (hp.symm.trans hq)
    refine ⟨nofun, ?_⟩
    rintro (h | h | h) <;> cases h
  refine ⟨hs.owned.step threads_scoped h, typed_step hs.typed h, ?_, ?_, ?_, ?_, ?_, ?_, ?_, ?_, ?_⟩
  · rw [hclients]
    exact List.nodup_append.mpr ⟨hs.nodup, List.nodup_singleton _, fun c hc c' hc' =>
      ne_of_mem_of_not_mem hc (List.mem_singleton.mp hc' ▸ hnew)⟩
  · intro c hc
    rw [hconnected]
    rcases hmem c hc with hin | rfl
    · exact (hs.lt c hin).trans (Nat.lt_succ_self _)
    · exact Nat.lt_succ_self _
  · intro c hc
    rw [hconnected] at hc
    exact (hs.unborn c (Nat.le_of_succ_le hc)).step h (by rw [hclient]) (by rw [hclient])
  · intro c hlt hnot
    rw [hconnected] at hlt
    rw [hclients] at hnot
    have hne : c ≠ s.data.connected := by
      rintro rfl
      exact hnot (List.mem_append_right _ List.mem_cons_self)
    exact (hs.ended c (by omega) fun hin => hnot (List.mem_append_left _ hin)).step h
  · intro c hc hstart
    rw [hclient]
    rcases hmem c hc with hin | rfl
    · exact hs.loopThread c hin fun q hq => (hstarts c q hq).1
    · exact absurd rfl (hstart _ hp')
  · intro c hc hstart
    rw [hclient]
    rcases hmem c hc with hin | rfl
    · exact hs.sendThread c hin fun q hq => (hstarts c q hq).2
    · exact absurd (.inl rfl) (hstart _ hp')
  · intro q hq
    cases Pc.accept.inj (hp'.symm.trans hq)
    change s.data.connected ∈ s'.data.clients
    rw [hclients]
    exact List.mem_append_right _ List.mem_cons_self
  · exact fun q hq => hs.stop_of_accept h ha hq
  · intro n q hcaller
    have hheld : Holds .accept (s.pc .accept) .clients := by
      rw [hp]
      exact List.mem_cons_self
    refine hs.caller_of_clients (n := n) hheld nofun ?_
    exact (pc_of_ne (u := .caller n) hpc nofun).symm.trans hcaller

theorem of_start (hs : Lifecycle s) (h : step threads s a = some s') (ha : a.1 = .accept) {c : ℕ}
    {f : WSSClient → WSSClient} {p p' : AcceptPc} (hp : s.pc .accept = .accept p)
    (hp' : s'.pc .accept = .accept p') (hc : c ∈ s.data.clients)
    (hdata : s'.data = s.data.setClient c f)
    (hloop : (∀ k, (f k).loopThread = true) ∨ (∀ k, (f k).loopThread = k.loopThread) ∧
      ¬p.startsLoop c)
    (hsend : (∀ k, (f k).sendThread = true) ∨ (∀ k, (f k).sendThread = k.sendThread) ∧
      (p.startsSend c → p'.startsSend c))
    (hothers : ∀ c', c' ≠ c → ¬p.startsLoop c' ∧ ¬p.startsSend c')
    (hknows : AcceptKnows s' p') : Lifecycle s' := by
  obtain ⟨m, d, hnext, hpc, -, -⟩ := step_cases h
  rw [ha] at hpc
  have hclients : s'.data.clients = s.data.clients := by rw [hdata]; rfl
  have hconnected : s'.data.connected = s.data.connected := by rw [hdata]; rfl
  have hself : s'.data.client c = f (s.data.client c) := by
    rw [hdata]
    exact Function.update_self ..
  have hne : ∀ c', c' ≠ c → s'.data.client c' = s.data.client c' := by
    intro c' hc'
    rw [hdata]
    exact Function.update_of_ne hc' ..
  have hstarts : ∀ c' q, c' ≠ c → s.pc .accept = .accept q →
      ¬q.startsLoop c' ∧ ¬q.startsSend c' := by
    intro c' q hc' hq
    cases Pc.accept.inj (hp.symm.trans hq)
    exact hothers c' hc'
  refine ⟨hs.owned.step threads_scoped h, typed_step hs.typed h, ?_, ?_, ?_, ?_, ?_, ?_, ?_, ?_, ?_⟩
  · rw [hclients]
    exact hs.nodup
  · intro c' hc'
    rw [hclients] at hc'
    rw [hconnected]
    exact hs.lt c' hc'
  · intro c' hge
    rw [hconnected] at hge
    have hcc : c' ≠ c := by
      rintro rfl
      exact absurd (hs.lt _ hc) (Nat.not_lt.mpr hge)
    exact (hs.unborn c' hge).step h (by rw [hne c' hcc]) (by rw [hne c' hcc])
  · intro c' hlt hnot
    rw [hconnected] at hlt
    rw [hclients] at hnot
    exact (hs.ended c' hlt hnot).step h
  · intro c' hc' _
    rw [hclients] at hc'
    by_cases hcc : c' = c
    · rw [hcc, hself]
      rcases hloop with hset | ⟨hkeeps, hnot⟩
      · exact hset _
      · rw [hkeeps]
        refine hs.loopThread c hc fun q hq => ?_
        cases Pc.accept.inj (hp.symm.trans hq)
        exact hnot
    · rw [hne c' hcc]
      exact hs.loopThread c' hc' fun q hq => (hstarts c' q hcc hq).1
  · intro c' hc' hstart
    rw [hclients] at hc'
    by_cases hcc : c' = c
    · rw [hcc, hself]
      rcases hsend with hset | ⟨hkeeps, hstill⟩
      · exact hset _
      · rw [hkeeps]
        refine hs.sendThread c hc fun q hq => ?_
        cases Pc.accept.inj (hp.symm.trans hq)
        exact fun hstarts => hstart p' hp' (hcc ▸ hstill hstarts)
    · rw [hne c' hcc]
      exact hs.sendThread c' hc' fun q hq => (hstarts c' q hcc hq).2
  · intro q hq
    cases Pc.accept.inj (hp'.symm.trans hq)
    exact hknows
  · exact fun q hq => hs.stop_of_accept h ha hq
  · exact fun n q hq => hs.caller_of_ne h hclients (by rw [ha]; nofun) hq

theorem of_accept (hs : Lifecycle s) (h : step threads s a = some s') (ha : a.1 = .accept) :
    Lifecycle s' := by
  obtain ⟨m, d, hnext, hpc, hdata, htakes⟩ := step_cases h
  rw [ha] at hnext hpc
  obtain ⟨p, m', hp, hm', rfl⟩ := eq_of_next_accept hnext
  have hpc' : s'.pc .accept = .accept m'.dest := by rw [pc_self hpc, Move.dest_map]
  have hknows := hs.accept p hp
  have hstays : s'.data = s.data → SameClients s.data s'.data := by
    intro heq
    rw [heq]
    exact .refl _
  have hnone : ∀ {c : ℕ}, p ≠ .startLoop c → p ≠ .setSendRunning c → p ≠ .startSend c →
      ¬p.startsLoop c ∧ ¬p.startsSend c := by
    refine fun h₁ h₂ h₃ => ⟨h₁, ?_⟩
    rintro (h | h | h)
    · exact h₁ h
    · exact h₂ h
    · exact h₃ h
  have hstart : (∀ c, p ≠ .startLoop c) → (∀ c, p ≠ .setSendRunning c) →
      (∀ c, p ≠ .startSend c) → ∀ c, (p.startsLoop c → m'.dest.startsLoop c) ∧
        (p.startsSend c → m'.dest.startsSend c) := by
    intro h₁ h₂ h₃ c
    obtain ⟨hl, hsnd⟩ := hnone (h₁ c) (h₂ c) (h₃ c)
    exact ⟨fun h => absurd h hl, fun h => absurd h hsnd⟩
  unfold acceptLoop at hm'
  cases p with
  | top =>
    cases hm'
    refine hs.of_accept_same h ha hp hpc' (hstays hdata) (hstart nofun nofun nofun) ?_
    change AcceptKnows s' (if _ then _ else _)
    split_ifs <;> trivial
  | cleanLock =>
    cases hm'
    refine hs.of_accept_same h ha hp hpc' (hstays hdata) (hstart nofun nofun nofun) ⟨hs.nodup, ?_⟩
    rw [hdata]
    exact List.Subset.refl _
  | cleaning rest =>
    cases rest with
    | nil =>
      cases hm'
      refine hs.of_accept_same h ha hp hpc' ?_ (hstart nofun nofun nofun) trivial
      rw [hdata]
      exact ⟨rfl, rfl, fun _ => rfl, fun _ => rfl⟩
    | cons c rest =>
      dsimp only at hm'
      obtain ⟨hrest, hsubset⟩ := hknows
      split_ifs at hm'
      · cases hm'
        have hsame := hstays hdata
        refine hs.of_accept_same h ha hp hpc' hsame (hstart nofun nofun nofun)
          ⟨(List.nodup_cons.mp hrest).2, fun c' hc' => ?_⟩
        rw [hsame.clients]
        exact hsubset (List.mem_cons_of_mem _ hc')
      · cases hm'
        have hsame : SameClients s.data s'.data := by
          rw [hdata]
          exact sameClients_setClient (fun _ => rfl) fun _ => rfl
        refine hs.of_accept_same h ha hp hpc' hsame (hstart nofun nofun nofun) ⟨hrest, ?_⟩
        rw [hsame.clients]
        exact hsubset
  | joinSend c rest =>
    obtain ⟨hrest, hsubset⟩ := hknows
    have hthread := hs.sendThread c (hsubset List.mem_cons_self) fun q hq => by
      cases Pc.accept.inj (hp.symm.trans hq)
      exact (hnone nofun nofun nofun).2
    unfold joinIf at hm'
    dsimp only at hm'
    rw [hthread] at hm'
    cases hm'
    have hsame := hstays hdata
    refine hs.of_accept_same h ha hp hpc' hsame (hstart nofun nofun nofun) ⟨hrest, ?_, ?_⟩
    · rw [hsame.clients]
      exact hsubset
    · exact (hs.sendEnded_of_join htakes.1).step h
  | joinLoop c rest =>
    obtain ⟨hrest, hsubset, hsend⟩ := hknows
    have hthread := hs.loopThread c (hsubset List.mem_cons_self) fun q hq => by
      cases Pc.accept.inj (hp.symm.trans hq)
      exact (hnone nofun nofun nofun).1
    unfold joinIf at hm'
    dsimp only at hm'
    rw [hthread] at hm'
    cases hm'
    have hsame := hstays hdata
    refine hs.of_accept_same h ha hp hpc' hsame (hstart nofun nofun nofun) ⟨hrest, ?_, ?_⟩
    · rw [hsame.clients]
      exact hsubset
    · exact Ended.step ⟨hs.loopEnded_of_join htakes.1, hsend⟩ h
  | erase c rest =>
    cases hm'
    exact hs.of_erase h ha hp hdata hpc'
  | select =>
    cases hm'
    refine hs.of_accept_same h ha hp hpc' (hstays hdata) (hstart nofun nofun nofun) ?_
    change AcceptKnows s' (if _ then _ else _)
    split_ifs <;> trivial
  | pushLock =>
    cases hm'
    exact hs.of_accept_same h ha hp hpc' (hstays hdata) (hstart nofun nofun nofun) trivial
  | pushing =>
    cases hm'
    exact hs.of_push h ha hp hdata hpc'
  | startLoop c =>
    cases hm'
    refine hs.of_start h ha hp hpc' hknows hdata (.inl fun _ => rfl)
      (.inr ⟨fun _ => rfl, fun _ => .inr (.inl rfl)⟩) (fun c' hc' => ?_) ?_
    · exact hnone (fun h => hc' (AcceptPc.startLoop.inj h).symm) nofun nofun
    · change c ∈ s'.data.clients
      rw [hdata]
      exact hknows
  | setSendRunning c =>
    cases hm'
    refine hs.of_start h ha hp hpc' hknows hdata (.inr ⟨fun _ => rfl, nofun⟩)
      (.inr ⟨fun _ => rfl, fun _ => .inr (.inr rfl)⟩) (fun c' hc' => ?_) ?_
    · exact hnone nofun (fun h => hc' (AcceptPc.setSendRunning.inj h).symm) nofun
    · change c ∈ s'.data.clients
      rw [hdata]
      exact hknows
  | startSend c =>
    cases hm'
    refine hs.of_start h ha hp hpc' hknows hdata (.inr ⟨fun _ => rfl, nofun⟩)
      (.inl fun _ => rfl) (fun c' hc' => ?_) trivial
    exact hnone nofun nofun (fun h => hc' (AcceptPc.startSend.inj h).symm)
  | finished => cases hm'

theorem step (hs : Lifecycle s) (h : Locks.step threads s a = some s') : Lifecycle s' := by
  by_cases haccept : a.1 = .accept
  · exact hs.of_accept h haccept
  · by_cases hstopper : a.1 = .stopper
    · exact hs.of_stopper h hstopper
    · exact hs.of_others h haccept hstopper

theorem init : Lifecycle started where
  owned l t := by
    refine iff_of_false (fun h => by cases h) ?_
    cases t <;> exact List.not_mem_nil
  typed t := by cases t <;> trivial
  nodup := List.nodup_nil
  lt c hc := absurd hc List.not_mem_nil
  unborn c _ := ⟨rfl, rfl, rfl, rfl⟩
  ended c hc := absurd hc (Nat.not_lt_zero c)
  loopThread c hc := absurd hc List.not_mem_nil
  sendThread c hc := absurd hc List.not_mem_nil
  accept p hp := by
    cases hp
    trivial
  stop p hp := by
    cases hp
    trivial
  caller n p hp := by
    cases hp
    trivial

end Lifecycle

/-! ## No client is touched after its end -/

theorem lifecycle_of_run {s : ThreadState} {as : List (Thread × Answer)}
    (h : Transition.run (step threads) started as = some s) : Lifecycle s :=
  Transition.run_invariant (fun _ _ _ hs h => hs.step h) .init h

structure OnlyNew (d d' : Shared) : Prop where
  connected : d.connected ≤ d'.connected
  clients : ∀ c ∈ d'.clients, c ∈ d.clients ∨ c = d.connected

theorem SameClients.onlyNew {d d' : Shared} (h : SameClients d d') : OnlyNew d d' where
  connected := h.connected.ge
  clients c hc := by
    rw [h.clients] at hc
    exact .inl hc

theorem onlyNew_of_acceptLoop {d d' : Shared} {o : Answer} {p : AcceptPc}
    {m : Move Thread Mutex AcceptPc} (h : acceptLoop p d o = some (m, d')) : OnlyNew d d' := by
  unfold acceptLoop joinIf at h
  split at h
  case h_3 | h_12 =>
    cases h
    exact ⟨le_rfl, fun c hc => .inl hc⟩
  case h_4 c rest =>
    split_ifs at h
    · cases h
      exact ⟨le_rfl, fun c hc => .inl hc⟩
    · cases h
      exact ⟨le_rfl, fun c hc => .inl hc⟩
  case h_7 c rest =>
    cases h
    exact ⟨le_rfl, fun c' hc' => .inl (List.mem_of_mem_erase hc')⟩
  case h_10 =>
    cases h
    refine ⟨Nat.le_succ _, fun c hc => ?_⟩
    exact (List.mem_append.mp hc).imp_right List.mem_singleton.mp
  case h_14 => cases h
  all_goals
    cases h
    exact ⟨le_rfl, fun c hc => .inl hc⟩

theorem onlyNew_of_stop {d d' : Shared} {o : Answer} {p : StopPc} {m : Move Thread Mutex StopPc}
    (h : stop p d o = some (m, d')) : OnlyNew d d' := by
  unfold stop joinIf at h
  split at h
  case h_1 =>
    split_ifs at h
    cases h
    exact ⟨le_rfl, fun c hc => .inl hc⟩
  case h_5 =>
    cases h
    exact ⟨le_rfl, fun c hc => absurd hc List.not_mem_nil⟩
  all_goals
    cases h
    exact ⟨le_rfl, fun c hc => .inl hc⟩

theorem onlyNew_of_step {s s' : ThreadState} {a : Thread × Answer}
    (h : step threads s a = some s') : OnlyNew s.data s'.data := by
  obtain ⟨m, d, hnext, -, rfl, -⟩ := step_cases h
  by_cases haccept : a.1 = .accept
  · rw [haccept] at hnext
    obtain ⟨p, m', -, hm', -⟩ := eq_of_next_accept hnext
    exact onlyNew_of_acceptLoop hm'
  · by_cases hstopper : a.1 = .stopper
    · rw [hstopper] at hnext
      obtain ⟨p, m', -, hm', -⟩ := eq_of_next_stopper hnext
      exact onlyNew_of_stop hm'
    · exact (sameClients_of_next hnext haccept hstopper).onlyNew

theorem gone_of_step {s s' : ThreadState} {a : Thread × Answer} {c : ℕ}
    (h : step threads s a = some s') (hc : c < s.data.connected ∧ c ∉ s.data.clients) :
    c < s'.data.connected ∧ c ∉ s'.data.clients := by
  have hnew := onlyNew_of_step h
  refine ⟨hc.1.trans_le hnew.connected, fun hin => ?_⟩
  rcases hnew.clients c hin with hin | heq
  · exact hc.2 hin
  · exact hc.1.ne heq

/-- Once a client has been destroyed, by `accept_loop` or by `stop`, it never comes back, and no
thread ever touches it. -/
theorem not_accesses_of_destroyed {s t : ThreadState} {as bs : List (Thread × Answer)}
    (has : Transition.run (step threads) started as = some s) {c : ℕ}
    (hconnected : c < s.data.connected) (hgone : c ∉ s.data.clients)
    (hbs : Transition.run (step threads) s bs = some t) (u : Thread) :
    c ∉ t.data.clients ∧ ¬Accesses u (t.pc u) c := by
  have ht : Lifecycle t := Transition.run_invariant (fun _ _ _ hs h => hs.step h)
    (lifecycle_of_run has) hbs
  have hgone := (Transition.run_invariant
    (I := fun s => c < s.data.connected ∧ c ∉ s.data.clients) (fun _ _ _ hc h => gone_of_step h hc)
    ⟨hconnected, hgone⟩ hbs).2
  exact ⟨hgone, fun hu => hgone (ht.mem_of_accesses hu)⟩

def destroySchedule : List (Thread × Answer) :=
  connectSchedule ++
    [(.loop 0, .no), (.loop 0, .no), (.loop 0, .yes), (.loop 0, .no), (.loop 0, .no),
      (.loop 0, .no), (.loop 0, .no), (.loop 0, .no), (.loop 0, .no), (.send 0, .no),
      (.send 0, .no), (.accept, .no), (.accept, .no), (.accept, .no), (.accept, .no),
      (.accept, .no), (.accept, .no)]

theorem not_accesses_of_destroyed_first : ∃ s t,
    Transition.run (step threads) started destroySchedule = some s ∧ 0 < s.data.connected ∧
      0 ∉ s.data.clients ∧ Transition.run (step threads) s [(.accept, .no)] = some t ∧
        0 ∉ t.data.clients ∧ ¬Accesses .accept (t.pc .accept) 0 := by
  obtain ⟨s, t, has, hconnected, hgone, hbs⟩ : ∃ s t,
      Transition.run (step threads) started destroySchedule = some s ∧ 0 < s.data.connected ∧
        0 ∉ s.data.clients ∧ Transition.run (step threads) s [(.accept, .no)] = some t :=
    ⟨_, _, rfl, by decide, by decide, rfl⟩
  exact ⟨s, t, has, hconnected, hgone, hbs, not_accesses_of_destroyed has hconnected hgone hbs _⟩

/-! ## The callback of the last disconnect -/

def findsAllGone (s : ThreadState) (a : Thread × Answer) : Bool :=
  a.1 = .accept ∧ s.pc .accept = .accept (.cleaning []) ∧ s.data.hadClients = true ∧
    s.data.clients = []

/-- The calls of `on_all_disconnected_`, each with the number of clients that had connected. -/
def callbacks (s : ThreadState) (as : List (Thread × Answer)) : List ℕ :=
  Transition.log (step threads)
    (fun s a => if findsAllGone s a then [s.data.connected] else []) s as

section
variable {s s' : ThreadState} {a : Thread × Answer}

theorem hadClients_of_next {t : Thread} {q : Pc} {d d' : Shared} {o : Answer}
    {m : Move Thread Mutex Pc} (h : threads.next t q d o = some (m, d')) (ht : t ≠ .accept) :
    d'.hadClients = d.hadClients ∧ d'.connected = d.connected := by
  unfold threads at h
  dsimp only at h
  split at h
  · exact absurd rfl ht
  · obtain ⟨m', hm, -⟩ := eq_of_lift h
    unfold stop joinIf at hm
    split at hm <;> (try split_ifs at hm) <;> cases hm <;> exact ⟨rfl, rfl⟩
  · obtain ⟨m', hm, -⟩ := eq_of_lift h
    rw [data_of_encodeLoop hm]
    exact ⟨rfl, rfl⟩
  · obtain ⟨m', hm, -⟩ := eq_of_lift h
    unfold caller at hm
    split at hm <;> (try split at hm) <;> cases hm <;> exact ⟨rfl, rfl⟩
  · obtain ⟨m', hm, -⟩ := eq_of_lift h
    unfold clientLoop at hm
    split at hm <;> (try split_ifs at hm) <;> (try split at hm) <;> cases hm <;> exact ⟨rfl, rfl⟩
  · obtain ⟨m', hm, -⟩ := eq_of_lift h
    unfold sendLoop at hm
    split at hm <;> (try split_ifs at hm) <;> (try split at hm) <;> cases hm <;> exact ⟨rfl, rfl⟩
  · cases h

theorem hadClients_of_step (h : step threads s a = some s') :
    if findsAllGone s a then
      s'.data.hadClients = false ∧ s'.data.connected = s.data.connected
    else
      s'.data.hadClients = s.data.hadClients ∧ s'.data.connected = s.data.connected ∨
        s'.data.hadClients = true ∧ s'.data.connected = s.data.connected + 1 := by
  obtain ⟨m, d, hnext, -, hdata, -⟩ := step_cases h
  by_cases ha : a.1 = .accept
  · rw [ha] at hnext
    obtain ⟨p, m', hp, hm', -⟩ := eq_of_next_accept hnext
    unfold findsAllGone
    rw [hdata, hp]
    unfold acceptLoop joinIf at hm'
    split at hm'
    case h_3 =>
      cases hm'
      split_ifs with hgone
      · obtain ⟨-, -, hhad, hnil⟩ := of_decide_eq_true hgone
        refine ⟨?_, rfl⟩
        dsimp only
        rw [hhad, hnil]
        rfl
      · refine .inl ⟨?_, rfl⟩
        dsimp only
        rcases hhad : s.data.hadClients with _ | _
        · rfl
        · rcases hclients : s.data.clients with _ | ⟨c, rest⟩
          · exact absurd (decide_eq_true ⟨ha, rfl, hhad, hclients⟩) hgone
          · rfl
    case h_10 =>
      cases hm'
      rw [if_neg (by simp)]
      exact .inr ⟨rfl, rfl⟩
    case h_4 =>
      rw [if_neg (by simp)]
      split_ifs at hm' <;> cases hm' <;> exact .inl ⟨rfl, rfl⟩
    case h_14 => cases hm'
    all_goals
      cases hm'
      rw [if_neg (by simp)]
      exact .inl ⟨rfl, rfl⟩
  · obtain ⟨hhad, hconnected⟩ := hadClients_of_next hnext ha
    rw [if_neg fun h => ha (of_decide_eq_true h).1, hdata]
    exact .inl ⟨hhad, hconnected⟩

/-- After the last call with `n` clients, `had_clients_` says whether one more has connected. -/
structure CalledAt (s : ThreadState) (n : ℕ) : Prop where
  le : n ≤ s.data.connected
  hadClients : s.data.hadClients = true ↔ n < s.data.connected

theorem CalledAt.step {n : ℕ} (hs : CalledAt s n) (h : Locks.step threads s a = some s') :
    if findsAllGone s a then n < s.data.connected ∧ CalledAt s' s.data.connected
    else CalledAt s' n := by
  have hstep := hadClients_of_step h
  split_ifs at hstep ⊢ with hgone
  · obtain ⟨-, -, hhad, -⟩ := of_decide_eq_true hgone
    refine ⟨hs.hadClients.mp hhad, hstep.2.ge, ?_⟩
    rw [hstep.1, hstep.2]
    exact iff_of_false nofun (Nat.lt_irrefl _)
  · rcases hstep with ⟨hhad, hconnected⟩ | ⟨hhad, hconnected⟩
    · refine ⟨hconnected ▸ hs.le, ?_⟩
      rw [hhad, hconnected]
      exact hs.hadClients
    · refine ⟨hconnected ▸ hs.le.trans (Nat.le_succ _), ?_⟩
      rw [hhad, hconnected]
      exact iff_of_true rfl (Nat.lt_succ_of_le hs.le)

theorem callbacks_of_calledAt {as : List (Thread × Answer)} {n : ℕ} (hs : CalledAt s n)
    (h : Transition.run (Locks.step threads) s as = some s') :
    (n :: callbacks s as).Pairwise (· < ·) ∧
      CalledAt s' ((n :: callbacks s as).getLast (List.cons_ne_nil _ _)) := by
  induction as generalizing s n with
  | nil =>
    cases h
    exact ⟨List.pairwise_singleton _ _, hs⟩
  | cons a as ih =>
    obtain ⟨r, hr, has⟩ := (Transition.run_cons_eq_some _).mp h
    have hstep := hs.step hr
    have hcalls : callbacks s (a :: as) =
        (if findsAllGone s a then [s.data.connected] else []) ++ callbacks r as :=
      Transition.log_cons hr as
    rw [hcalls]
    split_ifs at hstep ⊢ with hgone
    · obtain ⟨hlt, hcalled⟩ := hstep
      obtain ⟨hpairwise, hlast⟩ := ih hcalled has
      refine ⟨List.pairwise_cons.mpr ⟨fun k hk => ?_, hpairwise⟩, hlast⟩
      rcases List.mem_cons.mp hk with rfl | hk
      · exact hlt
      · exact hlt.trans ((List.pairwise_cons.mp hpairwise).1 k hk)
    · exact ih hstep has

theorem destroyed_of_callbacks {as : List (Thread × Answer)} (hs : Lifecycle s)
    (h : Transition.run (Locks.step threads) s as = some s') {n : ℕ} (hn : n ∈ callbacks s as)
    {c : ℕ} (hc : c < n) : c ∉ s'.data.clients ∧ Ended s' c := by
  induction as generalizing s with
  | nil => cases hn
  | cons a as ih =>
    obtain ⟨r, hr, has⟩ := (Transition.run_cons_eq_some _).mp h
    rw [callbacks, Transition.log_cons hr] at hn
    rcases List.mem_append.mp hn with hn | hn
    · split_ifs at hn with hgone
      · cases List.mem_singleton.mp hn
        obtain ⟨-, -, -, hnil⟩ := of_decide_eq_true hgone
        have hnot : c ∉ s.data.clients := by
          rw [hnil]
          exact List.not_mem_nil
        have hinv := Transition.run_invariant
          (I := fun s => (c < s.data.connected ∧ c ∉ s.data.clients) ∧ Ended s c)
          (fun _ _ _ hu hb => ⟨gone_of_step hb hu.1, hu.2.step hb⟩)
          ⟨⟨hc, hnot⟩, hs.ended c hc hnot⟩ h
        exact ⟨hinv.1.2, hinv.2⟩
      · exact absurd hn List.not_mem_nil
    · exact ih (hs.step hr) has hn

/-- Each call of `on_all_disconnected_` comes when every client so far has ended and is gone, and
after a new client since the call before; and `had_clients_` is up exactly while one more client
has connected than at the last call. -/
theorem callbacks_of_run {as : List (Thread × Answer)}
    (h : Transition.run (Locks.step threads) started as = some s) :
    (0 :: callbacks started as).Pairwise (· < ·) ∧
      (s.data.hadClients = true ↔
        (0 :: callbacks started as).getLast (List.cons_ne_nil _ _) < s.data.connected) ∧
      ∀ n ∈ callbacks started as, ∀ c < n, c ∉ s.data.clients ∧ Ended s c := by
  obtain ⟨hpairwise, hcalled⟩ := callbacks_of_calledAt (s := started) (n := 0)
    ⟨le_rfl, iff_of_false nofun (Nat.lt_irrefl 0)⟩ h
  exact ⟨hpairwise, hcalled.hadClients, fun n hn c hc => destroyed_of_callbacks .init h hn hc⟩

theorem callbacks_of_run_once : ∃ s,
    Transition.run (Locks.step threads) started (destroySchedule ++ [(.accept, .no)]) = some s ∧
      callbacks started (destroySchedule ++ [(.accept, .no)]) = [1] ∧
        ∀ n ∈ callbacks started (destroySchedule ++ [(.accept, .no)]), ∀ c < n,
          c ∉ s.data.clients ∧ Ended s c := by
  obtain ⟨s, hrun⟩ : ∃ s, Transition.run (Locks.step threads) started
    (destroySchedule ++ [(.accept, .no)]) = some s := ⟨_, rfl⟩
  exact ⟨s, hrun, by decide, (callbacks_of_run hrun).2.2⟩

end

end StereoCamera.WSServer.Threads
