import StereoCamera.Data.WSServerWriters
import StereoCamera.Lib.Transition

/-! What arrives on the connection of a client is one frame after the other, of which only the
last may be cut short, as long as no writer goes on after a failure that it does not look at. -/

namespace StereoCamera.WSServer.Writers
open Locks Transition

/-! ### Streams of frames -/

def IsFrame (bs : Bytes) : Prop :=
  ∃ payload, bs = binaryHeader payload ++ payload ∨ bs = textHeader payload ++ payload

/-- For all lengths that a payload can have, the header is the one of the standard. -/
theorem isFrame_frameBytes {payload : Bytes} (h : payload.length < 2 ^ 63) :
    IsFrame (frameBytes 0x82 none payload) ∧ IsFrame (frameBytes 0x81 none payload) := by
  refine ⟨⟨payload, .inl ?_⟩, ⟨payload, .inr ?_⟩⟩
  · unfold binaryHeader
    rw [buildHeader_eq _ h]
    rfl
  · unfold textHeader
    rw [buildHeader_eq _ h]
    rfl

def Whole (bs : Bytes) : Prop :=
  ∃ frames : List Bytes, (∀ f ∈ frames, IsFrame f) ∧ bs = frames.flatten

def Open (left bs : Bytes) : Prop :=
  ∃ whole done, Whole whole ∧ IsFrame (done ++ left) ∧ bs = whole ++ done

theorem Whole.open {bs frame : Bytes} (h : Whole bs) (hframe : IsFrame frame) : Open frame bs :=
  ⟨bs, [], h, hframe, (List.append_nil bs).symm⟩

theorem Open.append {bs more left : Bytes} (h : Open (more ++ left) bs) :
    Open left (bs ++ more) := by
  obtain ⟨whole, done, hwhole, hframe, rfl⟩ := h
  rw [← List.append_assoc] at hframe
  exact ⟨whole, done ++ more, hwhole, hframe, List.append_assoc _ _ _⟩

theorem Open.whole {bs : Bytes} (h : Open [] bs) : Whole bs := by
  obtain ⟨whole, done, ⟨frames, hframes, rfl⟩, hframe, rfl⟩ := h
  rw [List.append_nil] at hframe
  refine ⟨frames ++ [done], fun f hf => ?_, ?_⟩
  · rcases List.mem_append.mp hf with hf | hf
    · exact hframes f hf
    · rw [List.mem_singleton.mp hf]
      exact hframe
  · rw [List.flatten_append, List.flatten_singleton]

def Stream (left : Option Bytes) (bs : Bytes) : Prop :=
  match left with
  | none => Whole bs
  | some left => Open left bs

theorem binaryFrame (payload : Bytes) : IsFrame (binaryHeader payload ++ payload) :=
  ⟨payload, .inl rfl⟩

theorem Whole.exists_open {bs : Bytes} (h : Whole bs) : ∃ left, Open left bs :=
  ⟨_, h.open (binaryFrame [])⟩

/-! ### What a connection gets -/

def Shared.NoFailure (d : Shared) : Prop := ∀ w ∈ d.writes, w.2 ≠ 0

/-- All frames are whole but the last one, and no call follows one that failed. -/
structure Intact (d : Shared) : Prop where
  frames : ∃ left, Open left d.bytes
  failure : ∀ w ∈ d.writes.dropLast, w.2 ≠ 0

theorem bytes_sslWrite (d : Shared) (data : Bytes) (size : ℕ) :
    (d.sslWrite data size).2.bytes = d.bytes ++ data.take (d.sslWrite data size).1 := by
  unfold Shared.sslWrite Shared.bytes
  simp

theorem noFailure_sslWrite {d : Shared} (h : d.NoFailure) {data : Bytes} {size : ℕ}
    (hn : (d.sslWrite data size).1 ≠ 0) : (d.sslWrite data size).2.NoFailure := by
  intro w hw
  rcases List.mem_append.mp hw with hw | hw
  · exact h w hw
  · rw [List.mem_singleton.mp hw]
    exact hn

theorem intact_of_failure {d : Shared} (h : d.NoFailure) {left : Bytes} (hopen : Open left d.bytes)
    {data : Bytes} {size : ℕ} (hn : (d.sslWrite data size).1 = 0) :
    Intact (d.sslWrite data size).2 where
  frames := by
  -- Nothing is written by a call that fails, and all calls before it were good.
    refine ⟨left, ?_⟩
    rw [bytes_sslWrite, hn, List.take_zero, List.append_nil]
    exact hopen
  failure := by
    intro w hw
    apply h w
    have hdrop : (d.sslWrite data size).2.writes.dropLast = d.writes := List.dropLast_concat
    rwa [hdrop] at hw

theorem sslWrite_cases {d : Shared} {asked rest : Bytes} (hasked : asked ≠ []) (size : ℕ)
    (hopen : Open (asked ++ rest) d.bytes) (hok : d.NoFailure) :
    ((d.sslWrite asked size).1 = 0 ∧ size = 0 ∧ Intact (d.sslWrite asked size).2) ∨
      (d.sslWrite asked size).1 ≠ 0 ∧ (d.sslWrite asked size).2.NoFailure ∧
        Open (asked.drop (d.sslWrite asked size).1 ++ rest) (d.sslWrite asked size).2.bytes := by
  by_cases hn : (d.sslWrite asked size).1 = 0
  · have hlen : 0 < asked.length := List.length_pos_iff.mpr hasked
    have hmin : min size asked.length = 0 := hn
    exact .inl ⟨hn, by omega, intact_of_failure hok hopen hn⟩
  · refine .inr ⟨hn, noFailure_sslWrite hok hn, ?_⟩
    rw [bytes_sslWrite]
    apply Open.append
    rw [← List.append_assoc, List.take_append_drop]
    exact hopen

theorem wsSendStep_cases {hdr data : Bytes} {d d' : Shared} {size : ℕ}
    {result : Bytes × Bytes ⊕ Bool} (h : wsSendStep hdr data d size = (result, d'))
    (hopen : Open (hdr ++ data) d.bytes) (hok : d.NoFailure) :
    (∃ hdr' data', result = .inl (hdr', data') ∧ Open (hdr' ++ data') d'.bytes ∧ d'.NoFailure) ∨
      (result = .inr true ∧ Whole d'.bytes ∧ d'.NoFailure) ∨
      (result = .inr false ∧ Intact d' ∧ hdr ++ data ≠ [] ∧ size = 0) := by
  unfold wsSendStep at h
  split_ifs at h with hhdr hdata
  · rcases sslWrite_cases hhdr size hopen hok with ⟨hn, hsize, hintact⟩ | ⟨hn, hok', hopen'⟩
    · dsimp only at h
      rw [if_pos hn] at h
      obtain ⟨rfl, rfl⟩ := Prod.mk.inj h
      refine .inr (.inr ⟨rfl, hintact, ?_, hsize⟩)
      exact List.append_ne_nil_of_left_ne_nil hhdr _
    · dsimp only at h
      rw [if_neg hn] at h
      obtain ⟨rfl, rfl⟩ := Prod.mk.inj h
      exact .inl ⟨_, _, rfl, hopen', hok'⟩
  · have hnil : hdr = [] := not_not.mp hhdr
    subst hnil
    have hchunk : data.take 16384 ≠ [] := by
      rw [Ne, List.take_eq_nil_iff]
      simp [hdata]
    have hsplit : Open (data.take 16384 ++ data.drop 16384) d.bytes := by
      rw [List.take_append_drop]
      exact hopen
    rcases sslWrite_cases hchunk size hsplit hok with ⟨hn, hsize, hintact⟩ | ⟨hn, hok', hopen'⟩
    · dsimp only at h
      rw [if_pos hn] at h
      obtain ⟨rfl, rfl⟩ := Prod.mk.inj h
      exact .inr (.inr ⟨rfl, hintact, hdata, hsize⟩)
    · dsimp only at h
      rw [if_neg hn] at h
      obtain ⟨rfl, rfl⟩ := Prod.mk.inj h
      refine .inl ⟨_, _, rfl, ?_, hok'⟩
      -- What is left of the chunk, and what follows it.
      have hle : (d.sslWrite (data.take 16384) size).1 ≤ (data.take 16384).length :=
        Nat.min_le_right _ _
      have hdrop : (data.take 16384).drop (d.sslWrite (data.take 16384) size).1 ++
          data.drop 16384 = data.drop (d.sslWrite (data.take 16384) size).1 := by
        rw [← List.drop_append_of_le_length hle, List.take_append_drop]
      rw [hdrop] at hopen'
      exact hopen'
  · have hnil : hdr = [] := not_not.mp hhdr
    have hnil' : data = [] := not_not.mp hdata
    subst hnil hnil'
    obtain ⟨rfl, rfl⟩ := Prod.mk.inj h
    exact .inr (.inl ⟨rfl, hopen.whole, hok⟩)

theorem wsSendStep_frame (hdr data : Bytes) (d : Shared) (size : ℕ) :
    (wsSendStep hdr data d size).2.active = d.active ∧
      (wsSendStep hdr data d size).2.sendQueue = d.sendQueue := by
  unfold wsSendStep
  split_ifs <;> exact ⟨rfl, rfl⟩

/-! ### Who writes -/

def unwritten : Pc → Option Bytes
  | .loop (.greeting hdr data) => some (hdr ++ data)
  | .send (.sending hdr data) => some (hdr ++ data)
  | .caller (.header message) => some (textHeader message ++ message)
  | .caller (.payload message) => some message
  | _ => none

def LoopPc.held : LoopPc → List Mutex
  | .greeting .. | .greeted => [.send]
  | _ => []

def SendPc.held : SendPc → List Mutex
  | .sending .. | .clearing | .unlocking => [.send]
  | _ => []

def CallerPc.held : CallerPc → List Mutex
  | .testing _ | .sendLock _ | .done => [.clients]
  | .header _ | .payload _ | .unlocking => [.clients, .send]
  | _ => []

def Pc.held : Pc → List Mutex
  | .loop p => p.held
  | .send p => p.held
  | .caller p => p.held

def Holds (_t : Thread) (p : Pc) (l : Mutex) : Prop := l ∈ p.held

theorem holds_of_unwritten {t : Thread} {p : Pc} {left : Bytes} (h : unwritten p = some left) :
    Holds t p .send := by
  unfold unwritten at h
  unfold Holds
  split at h <;> cases h
  all_goals simp [Pc.held, LoopPc.held, SendPc.held, CallerPc.held]

theorem threads_next {t : Thread} {p : Pc} {d d' : Shared} {answer : Answer}
    {m : Move Thread Mutex Pc} (h : threads.next t p d answer = some (m, d')) :
    (∃ q m', t = .loop ∧ p = .loop q ∧ m = m'.map .loop ∧ clientLoop q d answer = some (m', d')) ∨
    (∃ q m', t = .send ∧ p = .send q ∧ m = m'.map .send ∧ sendLoop q d answer = some (m', d')) ∨
    ∃ n q m', t = .caller n ∧ p = .caller q ∧ m = m'.map .caller ∧
      broadcast q d answer = some (m', d') := by
  dsimp only [threads] at h
  split at h
  · obtain ⟨⟨m', d'⟩, hloop, heq⟩ := Option.map_eq_some_iff.mp h
    cases heq
    exact .inl ⟨_, m', rfl, rfl, rfl, hloop⟩
  · obtain ⟨⟨m', d'⟩, hloop, heq⟩ := Option.map_eq_some_iff.mp h
    cases heq
    exact .inr (.inl ⟨_, m', rfl, rfl, rfl, hloop⟩)
  · obtain ⟨⟨m', d'⟩, hloop, heq⟩ := Option.map_eq_some_iff.mp h
    cases heq
    exact .inr (.inr ⟨_, _, m', rfl, rfl, rfl, hloop⟩)
  · cases h

theorem threads_scoped : threads.Scoped Holds := by
  intro t p d answer m d' h
  rcases threads_next h with ⟨q, m', rfl, rfl, rfl, hloop⟩ | ⟨q, m', rfl, rfl, rfl, hloop⟩ |
    ⟨n, q, m', rfl, rfl, rfl, hloop⟩
  · refine Move.scoped_map.mpr ?_
    unfold clientLoop at hloop
    split at hloop <;> (try split at hloop) <;> cases hloop <;>
      simp [Move.Scoped, Holds, Pc.held, LoopPc.held]
  · refine Move.scoped_map.mpr ?_
    unfold sendLoop at hloop
    split at hloop <;> (try split at hloop) <;> cases hloop <;>
      simp [Move.Scoped, Holds, Pc.held, SendPc.held]
  · refine Move.scoped_map.mpr ?_
    unfold broadcast at hloop
    split at hloop <;> (try split at hloop) <;> cases hloop <;>
      simp [Move.Scoped, Holds, Pc.held, CallerPc.held]
    all_goals
      intro l
      cases l <;> simp

/-! ### The two phases of a connection -/

section
variable {s s' : ThreadState}

/-- Nothing has failed, and only the owner of the mutex is in the middle of a frame. -/
structure Sound (s : ThreadState) : Prop where
  ok : s.data.NoFailure
  writing : ∀ t left, unwritten (s.pc t) = some left → Open left s.data.bytes
  idle : (∀ t, unwritten (s.pc t) = none) → Whole s.data.bytes

def Closing (s : ThreadState) : Prop :=
  s.pc .send = .send .clearing ∨
    s.data.active = false ∧
      (s.pc .send = .send .unlocking ∨ s.pc .send = .send .top ∨ s.pc .send = .send .finished) ∧
      (∀ n message, s.pc (.caller n) ≠ .caller (.sendLock message)) ∧
      ∀ t, unwritten (s.pc t) = none

structure Broken (s : ThreadState) : Prop where
  intact : Intact s.data
  greeted : s.pc .loop = .loop .running ∨ s.pc .loop = .loop .leaving ∨ s.pc .loop = .loop .finished
  closing : Closing s

def Early (s : ThreadState) : Prop :=
  (s.pc .loop = .loop .running ∨ s.pc .loop = .loop .leaving ∨ s.pc .loop = .loop .finished) ∨
    s.data.sendQueue = [] ∧
      (s.pc .send = .send .top ∨ s.pc .send = .send .queue ∨ s.pc .send = .send .finished)

structure Inv (s : ThreadState) : Prop where
  owned : Owned Holds s
  early : Early s
  phase : Sound s ∨ Broken s

theorem unwritten_unique (h : Owned Holds s) {t u : Thread} {left : Bytes}
    (ht : Holds t (s.pc t) .send) (hu : unwritten (s.pc u) = some left) : t = u :=
  h.unique ht (holds_of_unwritten hu)

theorem unwritten_of_ne (h : Owned Holds s) {t : Thread} (ht : Holds t (s.pc t) .send)
    (u : Thread) (hu : u ≠ t) : unwritten (s.pc u) = none := by
  cases hleft : unwritten (s.pc u) with
  | none => rfl
  | some left => exact absurd (unwritten_unique h ht hleft).symm hu

theorem unwritten_of_free (h : Owned Holds s) (hfree : s.owner .send = none) (u : Thread) :
    unwritten (s.pc u) = none := by
  cases hleft : unwritten (s.pc u) with
  | none => rfl
  | some left =>
    have howner := (h _ _).mpr (holds_of_unwritten (t := u) hleft)
    exact absurd (hfree.symm.trans howner) (Option.some_ne_none _).symm

theorem Sound.write {t : Thread} {p : Pc} (hothers : ∀ u, u ≠ t → unwritten (s.pc u) = none)
    (hpc : s'.pc = Function.update s.pc t p) (hok : s'.data.NoFailure)
    (hstream : Stream (unwritten p) s'.data.bytes) : Sound s' where
  ok := hok
  writing := by
    intro u left hu
    rw [hpc] at hu
    by_cases hut : u = t
    · subst hut
      rw [Function.update_self] at hu
      rw [hu] at hstream
      exact hstream
    · rw [Function.update_of_ne hut, hothers u hut] at hu
      cases hu
  idle := by
    intro hidle
    have ht := hidle t
    rw [pc_self hpc] at ht
    rw [ht] at hstream
    exact hstream

theorem Sound.quiet (h : Sound s) {t : Thread} {p : Pc} (hold : unwritten (s.pc t) = none)
    (hpc : s'.pc = Function.update s.pc t p) (hnew : unwritten p = none)
    (hwrites : s'.data.writes = s.data.writes) : Sound s' := by
  have hbytes : s'.data.bytes = s.data.bytes := by
    unfold Shared.bytes
    rw [hwrites]
  have hsame : ∀ u, unwritten (s'.pc u) = unwritten (s.pc u) := by
    intro u
    rw [hpc]
    by_cases hut : u = t
    · subst hut
      rw [Function.update_self, hnew, hold]
    · rw [Function.update_of_ne hut]
  refine ⟨?_, fun u left hu => ?_, fun hidle => ?_⟩
  · intro w hw
    exact h.ok w (hwrites ▸ hw)
  · rw [hbytes]
    exact h.writing u left ((hsame u).symm.trans hu)
  · rw [hbytes]
    exact h.idle fun u => (hsame u).symm.trans (hidle u)

/-- No `SSL_write` of the ready message fails; the ones of `broadcast` take all that they should
write, which is something; and when `send_to_one` takes notice of a failure, no `broadcast` that
has found the client active still waits for its mutex. -/
structure Steady (s : ThreadState) (a : Thread × Answer) : Prop where
  ready : a.1 = .loop → ∀ hdr data, s.pc .loop = .loop (.greeting hdr data) → hdr ++ data ≠ [] →
    a.2.size ≠ 0
  header : ∀ n message, a.1 = .caller n → s.pc (.caller n) = .caller (.header message) →
    (textHeader message).length ≤ a.2.size
  payload : ∀ n message, a.1 = .caller n → s.pc (.caller n) = .caller (.payload message) →
    message ≠ [] ∧ intSized message = message ∧ message.length ≤ a.2.size
  clearing : a.1 = .send → s.pc .send = .send .clearing →
    ∀ n message, s.pc (.caller n) ≠ .caller (.sendLock message)

theorem sslWrite_whole {d : Shared} {asked : Bytes} (hasked : asked ≠ []) {size : ℕ}
    (hsize : asked.length ≤ size) (hok : d.NoFailure) :
    (d.sslWrite asked size).2.bytes = d.bytes ++ asked ∧ (d.sslWrite asked size).2.NoFailure := by
  have hn : (d.sslWrite asked size).1 = asked.length := min_eq_right hsize
  constructor
  · rw [bytes_sslWrite, hn, List.take_length]
  · apply noFailure_sslWrite hok
    rw [hn]
    exact (List.length_pos_iff.mpr hasked).ne'

theorem textHeader_ne_nil (message : Bytes) : textHeader message ≠ [] := by
  unfold textHeader buildHeader
  split_ifs <;> exact List.cons_ne_nil _ _

section
variable {a : Thread × Answer} {d : Shared}

theorem Sound.loop (h : Sound s) (howned : Owned Holds s) (hsteady : Steady s (.loop, a.2))
    {q : LoopPc} {m : Move Thread Mutex LoopPc} (hq : s.pc .loop = .loop q)
    (hloop : clientLoop q s.data a.2 = some (m, s'.data))
    (hpc : s'.pc = Function.update s.pc .loop (.loop m.dest))
    (htakes : (m.map Pc.loop).Takes threads s .loop s'.owner) : Sound s' := by
  have hquiet : unwritten (.loop q) = none → unwritten (.loop m.dest) = none →
      s'.data.writes = s.data.writes → Sound s' :=
    fun hold hnew hwrites => h.quiet (hq ▸ hold) hpc hnew hwrites
  unfold clientLoop at hloop
  split at hloop
  · obtain ⟨rfl, hdata⟩ := Prod.mk.inj (Option.some.inj hloop)
    have hidle := unwritten_of_free howned htakes.1
    refine Sound.write (fun u _ => hidle u) hpc ?_ ?_
    · rw [← hdata]
      exact h.ok
    · rw [← hdata]
      exact (h.idle hidle).open (binaryFrame _)
  · rename_i hdr data
    have hheld : Holds .loop (s.pc .loop) .send := by
      rw [hq]
      exact List.mem_singleton_self _
    have hothers := unwritten_of_ne howned hheld
    have hopen : Open (hdr ++ data) s.data.bytes := h.writing .loop _ (by rw [hq]; rfl)
    split at hloop
    all_goals
      rename_i hstep
      obtain ⟨rfl, hdata⟩ := Prod.mk.inj (Option.some.inj hloop)
      rcases wsSendStep_cases hstep hopen h.ok with ⟨hdr', data', heq, hopen', hok⟩ |
        ⟨heq, hwhole, hok⟩ | ⟨heq, -, hne, hsize⟩
    · cases heq
      exact Sound.write hothers hpc (hdata ▸ hok) (hdata ▸ hopen')
    · cases heq
    · cases heq
    · cases heq
    · exact Sound.write hothers hpc (hdata ▸ hok) (hdata ▸ hwhole)
    · exact absurd hsize (hsteady.ready rfl hdr data hq hne)
  · obtain ⟨rfl, hdata⟩ := Prod.mk.inj (Option.some.inj hloop)
    exact hquiet rfl rfl (hdata ▸ rfl)
  · split at hloop <;> obtain ⟨rfl, hdata⟩ := Prod.mk.inj (Option.some.inj hloop) <;>
      exact hquiet rfl rfl (hdata ▸ rfl)
  · obtain ⟨rfl, hdata⟩ := Prod.mk.inj (Option.some.inj hloop)
    exact hquiet rfl rfl (hdata ▸ rfl)
  · cases hloop

theorem Sound.send (h : Sound s) (howned : Owned Holds s) (hearly : Early s) {answer : Answer}
    {q : SendPc} {m : Move Thread Mutex SendPc} (hq : s.pc .send = .send q)
    (hloop : sendLoop q s.data answer = some (m, s'.data))
    (hpc : s'.pc = Function.update s.pc .send (.send m.dest))
    (htakes : (m.map Pc.send).Takes threads s .send s'.owner) : Sound s' ∨ Broken s' := by
  -- A failure of `send_to_one` is the only one that can come.
  have hquiet : unwritten (.send q) = none → unwritten (.send m.dest) = none →
      s'.data.writes = s.data.writes → Sound s' ∨ Broken s' :=
    fun hold hnew hwrites => .inl (h.quiet (hq ▸ hold) hpc hnew hwrites)
  unfold sendLoop at hloop
  split at hloop
  · obtain ⟨rfl, hdata⟩ := Prod.mk.inj (Option.some.inj hloop)
    refine hquiet rfl ?_ (hdata ▸ rfl)
    dsimp only [Move.dest]
    split_ifs <;> rfl
  · split at hloop <;> obtain ⟨rfl, hdata⟩ := Prod.mk.inj (Option.some.inj hloop) <;>
      exact hquiet rfl rfl (hdata ▸ rfl)
  · obtain ⟨rfl, hdata⟩ := Prod.mk.inj (Option.some.inj hloop)
    have hidle := unwritten_of_free howned htakes.1
    refine .inl (Sound.write (fun u _ => hidle u) hpc ?_ ?_)
    · rw [← hdata]
      exact h.ok
    · rw [← hdata]
      exact (h.idle hidle).open (binaryFrame _)
  · rename_i hdr data
    have hheld : Holds .send (s.pc .send) .send := by
      rw [hq]
      exact List.mem_singleton_self _
    have hothers := unwritten_of_ne howned hheld
    have hopen : Open (hdr ++ data) s.data.bytes := h.writing .send _ (by rw [hq]; rfl)
    split at hloop
    all_goals
      rename_i hstep
      obtain ⟨rfl, hdata⟩ := Prod.mk.inj (Option.some.inj hloop)
      rcases wsSendStep_cases hstep hopen h.ok with ⟨hdr', data', heq, hopen', hok⟩ |
        ⟨heq, hwhole, hok⟩ | ⟨heq, hintact, -, -⟩ <;> cases heq
    · exact .inl (Sound.write hothers hpc (hdata ▸ hok) (hdata ▸ hopen'))
    · exact .inl (Sound.write hothers hpc (hdata ▸ hok) (hdata ▸ hwhole))
    · -- The ready message is long written.
      rcases hearly with hgreeted | ⟨-, hplace⟩
      · refine .inr ⟨hdata ▸ hintact, ?_, .inl ?_⟩
        · rw [pc_of_ne hpc Thread.noConfusion]
          exact hgreeted
        · rw [pc_self hpc]
          rfl
      · rw [hq] at hplace
        rcases hplace with he | he | he <;> cases he
  · obtain ⟨rfl, hdata⟩ := Prod.mk.inj (Option.some.inj hloop)
    exact hquiet rfl rfl (hdata ▸ rfl)
  · obtain ⟨rfl, hdata⟩ := Prod.mk.inj (Option.some.inj hloop)
    exact hquiet rfl rfl (hdata ▸ rfl)
  · cases hloop

theorem Sound.broadcast (h : Sound s) (howned : Owned Holds s) {n : ℕ}
    (hsteady : Steady s (.caller n, a.2)) {q : CallerPc} {m : Move Thread Mutex CallerPc}
    (hq : s.pc (.caller n) = .caller q)
    (hloop : Writers.broadcast q s.data a.2 = some (m, s'.data))
    (hpc : s'.pc = Function.update s.pc (.caller n) (.caller m.dest))
    (htakes : (m.map Pc.caller).Takes threads s (.caller n) s'.owner) : Sound s' := by
  have hquiet : unwritten (.caller q) = none → unwritten (.caller m.dest) = none →
      s'.data.writes = s.data.writes → Sound s' :=
    fun hold hnew hwrites => h.quiet (hq ▸ hold) hpc hnew hwrites
  unfold Writers.broadcast at hloop
  split at hloop
  · split at hloop
    · obtain ⟨rfl, hdata⟩ := Prod.mk.inj (Option.some.inj hloop)
      exact hquiet rfl rfl (hdata ▸ rfl)
    · cases hloop
  · obtain ⟨rfl, hdata⟩ := Prod.mk.inj (Option.some.inj hloop)
    exact hquiet rfl rfl (hdata ▸ rfl)
  · obtain ⟨rfl, hdata⟩ := Prod.mk.inj (Option.some.inj hloop)
    refine hquiet rfl ?_ (hdata ▸ rfl)
    dsimp only [Move.dest]
    split_ifs <;> rfl
  · rename_i message
    obtain ⟨rfl, hdata⟩ := Prod.mk.inj (Option.some.inj hloop)
    have hidle := unwritten_of_free howned htakes.1
    refine Sound.write (fun u _ => hidle u) hpc ?_ ?_
    · rw [← hdata]
      exact h.ok
    · rw [← hdata]
      exact (h.idle hidle).open ⟨message, .inr rfl⟩
  · rename_i message
    obtain ⟨rfl, hdata⟩ := Prod.mk.inj (Option.some.inj hloop)
    have hothers := unwritten_of_ne howned (t := .caller n) (by
      rw [hq]
      exact List.mem_cons_of_mem _ (List.mem_singleton_self _))
    have hopen : Open (textHeader message ++ message) s.data.bytes :=
      h.writing (.caller n) _ (by rw [hq]; rfl)
    obtain ⟨hbytes, hok⟩ := sslWrite_whole (textHeader_ne_nil message)
      (hsteady.header n message rfl hq) h.ok
    refine Sound.write hothers hpc (hdata ▸ hok) ?_
    rw [← hdata, hbytes]
    exact hopen.append
  · rename_i message
    obtain ⟨rfl, hdata⟩ := Prod.mk.inj (Option.some.inj hloop)
    have hothers := unwritten_of_ne howned (t := .caller n) (by
      rw [hq]
      exact List.mem_cons_of_mem _ (List.mem_singleton_self _))
    have hopen : Open (message ++ []) s.data.bytes := by
      rw [List.append_nil]
      exact h.writing (.caller n) _ (by rw [hq]; rfl)
    obtain ⟨hne, hint, hsize⟩ := hsteady.payload n message rfl hq
    rw [hint] at hdata
    obtain ⟨hbytes, hok⟩ := sslWrite_whole hne hsize h.ok
    refine Sound.write hothers hpc (hdata ▸ hok) ?_
    rw [← hdata, hbytes]
    exact hopen.append.whole
  · obtain ⟨rfl, hdata⟩ := Prod.mk.inj (Option.some.inj hloop)
    exact hquiet rfl rfl (hdata ▸ rfl)
  · obtain ⟨rfl, hdata⟩ := Prod.mk.inj (Option.some.inj hloop)
    exact hquiet rfl rfl (hdata ▸ rfl)

theorem Broken.quiet (h : Broken s) {t : Thread} {p : Pc}
    (hpc : s'.pc = Function.update s.pc t p) (hwrites : s'.data.writes = s.data.writes)
    (hgreeted : s'.pc .loop = .loop .running ∨ s'.pc .loop = .loop .leaving ∨
      s'.pc .loop = .loop .finished) (hsend : t ≠ .send)
    (hactive : s.data.active = false → s'.data.active = false)
    (hnew : s.data.active = false →
      unwritten p = none ∧ ∀ message, p ≠ .caller (.sendLock message)) :
    Broken s' := by
  refine ⟨⟨?_, ?_⟩, hgreeted, ?_⟩
  · have hbytes : s'.data.bytes = s.data.bytes := by
      unfold Shared.bytes
      rw [hwrites]
    rw [hbytes]
    exact h.intact.frames
  · rw [hwrites]
    exact h.intact.failure
  · have hsame : s'.pc .send = s.pc .send := by rw [hpc, Function.update_of_ne hsend.symm]
    rcases h.closing with hclearing | ⟨hoff, hplace, hwaiting, hidle⟩
    · exact .inl (hsame.trans hclearing)
    · refine .inr ⟨hactive hoff, ?_, fun n message => ?_, fun u => ?_⟩
      · rw [hsame]
        exact hplace
      · rw [hpc]
        by_cases hn : Thread.caller n = t
        · rw [hn, Function.update_self]
          exact (hnew hoff).2 message
        · rw [Function.update_of_ne hn]
          exact hwaiting n message
      · rw [hpc]
        by_cases hu : u = t
        · rw [hu, Function.update_self]
          exact (hnew hoff).1
        · rw [Function.update_of_ne hu]
          exact hidle u

theorem Broken.loop (h : Broken s) {answer : Answer} {q : LoopPc}
    {m : Move Thread Mutex LoopPc} (hq : s.pc .loop = .loop q)
    (hloop : clientLoop q s.data answer = some (m, s'.data))
    (hpc : s'.pc = Function.update s.pc .loop (.loop m.dest)) : Broken s' := by
  have hself : s'.pc .loop = .loop m.dest := pc_self hpc
  have hquiet : s'.data.writes = s.data.writes →
      (m.dest = .running ∨ m.dest = .leaving ∨ m.dest = .finished) →
      (s.data.active = false → s'.data.active = false) → Broken s' := by
    intro hwrites hdest hactive
    refine h.quiet hpc hwrites ?_ Thread.noConfusion hactive fun _ => ⟨?_, fun _ => Pc.noConfusion⟩
    · rw [hself]
      rcases hdest with hdest | hdest | hdest <;> simp [hdest]
    · rcases hdest with hdest | hdest | hdest <;> rw [hdest] <;> rfl
  rcases h.greeted with hplace | hplace | hplace <;>
    cases Pc.loop.inj (hq.symm.trans hplace)
  · unfold clientLoop at hloop
    dsimp only at hloop
    split at hloop <;> obtain ⟨rfl, hdata⟩ := Prod.mk.inj (Option.some.inj hloop) <;>
      exact hquiet (hdata ▸ rfl) (by simp [Move.dest]) (hdata ▸ id)
  · obtain ⟨rfl, hdata⟩ := Prod.mk.inj (Option.some.inj hloop)
    exact hquiet (hdata ▸ rfl) (by simp [Move.dest]) (hdata ▸ fun _ => rfl)
  · cases hloop

theorem Broken.send (h : Broken s) (howned : Owned Holds s) (hsteady : Steady s (.send, a.2))
    {q : SendPc} {m : Move Thread Mutex SendPc} (hq : s.pc .send = .send q)
    (hloop : sendLoop q s.data a.2 = some (m, s'.data))
    (hpc : s'.pc = Function.update s.pc .send (.send m.dest)) : Broken s' := by
  have hself : s'.pc .send = .send m.dest := pc_self hpc
  have hgreeted : s'.pc .loop = .loop .running ∨ s'.pc .loop = .loop .leaving ∨
      s'.pc .loop = .loop .finished := by
    rw [pc_of_ne hpc Thread.noConfusion]
    exact h.greeted
  have hcallers : (∀ n message, s.pc (.caller n) ≠ .caller (.sendLock message)) →
      ∀ n message, s'.pc (.caller n) ≠ .caller (.sendLock message) := by
    intro hnone n message
    rw [pc_of_ne hpc Thread.noConfusion]
    exact hnone n message
  have hidle : (∀ u, u ≠ .send → unwritten (s.pc u) = none) → unwritten (.send m.dest) = none →
      ∀ u, unwritten (s'.pc u) = none := by
    intro hothers hnew u
    rw [hpc]
    by_cases hu : u = .send
    · rw [hu, Function.update_self]
      exact hnew
    · rw [Function.update_of_ne hu]
      exact hothers u hu
  rcases h.closing with hclearing | ⟨hoff, hplace, hwaiting, hnobody⟩
  · cases Pc.send.inj (hq.symm.trans hclearing)
    obtain ⟨rfl, hdata⟩ := Prod.mk.inj (Option.some.inj hloop)
    have hothers := unwritten_of_ne howned (t := .send) (by
      rw [hq]
      exact List.mem_singleton_self _)
    refine ⟨?_, hgreeted, .inr ⟨hdata ▸ rfl, .inl hself, ?_, hidle hothers rfl⟩⟩
    · rw [← hdata]
      exact ⟨h.intact.frames, h.intact.failure⟩
    · exact hcallers (hsteady.clearing rfl hq)
  · have hclosed : s'.data = s.data → (m.dest = .top ∨ m.dest = .finished) → Broken s' := by
      intro hdata hdest
      refine ⟨hdata ▸ h.intact, hgreeted, .inr ⟨hdata ▸ hoff, ?_, hcallers hwaiting, ?_⟩⟩
      · rw [hself]
        rcases hdest with hdest | hdest <;> simp [hdest]
      · refine hidle (fun u _ => hnobody u) ?_
        rcases hdest with hdest | hdest <;> rw [hdest] <;> rfl
    rcases hplace with hplace | hplace | hplace <;> cases Pc.send.inj (hq.symm.trans hplace)
    · obtain ⟨rfl, hdata⟩ := Prod.mk.inj (Option.some.inj hloop)
      exact hclosed hdata.symm (.inl rfl)
    · obtain ⟨rfl, hdata⟩ := Prod.mk.inj (Option.some.inj hloop)
      refine hclosed hdata.symm (.inr ?_)
      dsimp only [Move.dest]
      rw [hoff]
      rfl
    · cases hloop

theorem Broken.broadcast (h : Broken s) (howned : Owned Holds s) {answer : Answer} {n : ℕ}
    {q : CallerPc} {m : Move Thread Mutex CallerPc} (hq : s.pc (.caller n) = .caller q)
    (hloop : Writers.broadcast q s.data answer = some (m, s'.data))
    (hpc : s'.pc = Function.update s.pc (.caller n) (.caller m.dest))
    (htakes : (m.map Pc.caller).Takes threads s (.caller n) s'.owner) : Broken s' := by
  -- A `broadcast` cannot have the mutex of a client whose failure is still to be noticed.
  have hgreeted : s'.pc .loop = .loop .running ∨ s'.pc .loop = .loop .leaving ∨
      s'.pc .loop = .loop .finished := by
    rw [pc_of_ne hpc Thread.noConfusion]
    exact h.greeted
  have hnowrite : unwritten (.caller q) = none := by
    rw [← hq]
    rcases h.closing with hclearing | ⟨-, -, -, hidle⟩
    · refine unwritten_of_ne howned (t := .send) ?_ _ Thread.noConfusion
      rw [hclearing]
      exact List.mem_singleton_self _
    · exact hidle _
  have hnolock : ∀ message, q ≠ .sendLock message := by
    rintro message rfl
    rcases h.closing with hclearing | ⟨-, -, hwaiting, -⟩
    · have howner := (howned .send .send).mpr (by
        rw [hclearing]
        exact List.mem_singleton_self _)
      obtain ⟨rfl, -⟩ := Prod.mk.inj (Option.some.inj hloop)
      exact absurd (htakes.1.symm.trans howner) (Option.some_ne_none _).symm
    · exact hwaiting n message hq
  have hquiet : s'.data = s.data →
      (s.data.active = false → unwritten (.caller m.dest) = none ∧
        ∀ message, m.dest ≠ .sendLock message) → Broken s' := by
    intro hdata hnew
    refine h.quiet hpc (hdata ▸ rfl) hgreeted Thread.noConfusion (hdata ▸ id) fun hoff => ?_
    exact ⟨(hnew hoff).1, fun message he => (hnew hoff).2 message (Pc.caller.inj he)⟩
  unfold Writers.broadcast at hloop
  split at hloop
  · split at hloop
    · obtain ⟨rfl, hdata⟩ := Prod.mk.inj (Option.some.inj hloop)
      exact hquiet hdata.symm fun _ => ⟨rfl, fun _ => CallerPc.noConfusion⟩
    · cases hloop
  · obtain ⟨rfl, hdata⟩ := Prod.mk.inj (Option.some.inj hloop)
    exact hquiet hdata.symm fun _ => ⟨rfl, fun _ => CallerPc.noConfusion⟩
  · obtain ⟨rfl, hdata⟩ := Prod.mk.inj (Option.some.inj hloop)
    refine hquiet hdata.symm fun hoff => ?_
    dsimp only [Move.dest]
    rw [if_neg (by rw [hoff]; exact Bool.false_ne_true)]
    exact ⟨rfl, fun _ => CallerPc.noConfusion⟩
  · exact absurd rfl (hnolock _)
  · exact absurd hnowrite (Option.some_ne_none _)
  · exact absurd hnowrite (Option.some_ne_none _)
  · obtain ⟨rfl, hdata⟩ := Prod.mk.inj (Option.some.inj hloop)
    exact hquiet hdata.symm fun _ => ⟨rfl, fun _ => CallerPc.noConfusion⟩
  · obtain ⟨rfl, hdata⟩ := Prod.mk.inj (Option.some.inj hloop)
    exact hquiet hdata.symm fun _ => ⟨rfl, fun _ => CallerPc.noConfusion⟩

end

theorem inv_started : Inv started where
  owned := by
    intro l t
    refine iff_of_false (Option.some_ne_none t).symm ?_
    cases t <;> exact List.not_mem_nil
  early := .inr ⟨rfl, .inl rfl⟩
  phase := by
    refine .inl ⟨fun _ h => absurd h List.not_mem_nil, fun t left h => ?_, fun _ => ?_⟩
    · cases t <;> cases h
    · exact ⟨[], fun _ h => absurd h List.not_mem_nil, rfl⟩

theorem Early.loop (h : Early s) {answer : Answer} {q : LoopPc} {m : Move Thread Mutex LoopPc}
    (hq : s.pc .loop = .loop q) (hloop : clientLoop q s.data answer = some (m, s'.data))
    (hpc : s'.pc = Function.update s.pc .loop (.loop m.dest)) : Early s' := by
  have hself : s'.pc .loop = .loop m.dest := pc_self hpc
  have hgreeted : (m.dest = .running ∨ m.dest = .leaving ∨ m.dest = .finished) → Early s' := by
    intro hdest
    left
    rw [hself]
    rcases hdest with hdest | hdest | hdest <;> simp [hdest]
  have hbefore : (q ≠ .running ∧ q ≠ .leaving ∧ q ≠ .finished) →
      s'.data.sendQueue = s.data.sendQueue → Early s' := by
    rintro ⟨hrunning, hleaving, hfinished⟩ hdata
    rcases h with hplace | ⟨hnil, hplace⟩
    · rw [hq] at hplace
      rcases hplace with he | he | he
      · exact absurd (Pc.loop.inj he) hrunning
      · exact absurd (Pc.loop.inj he) hleaving
      · exact absurd (Pc.loop.inj he) hfinished
    · refine .inr ⟨hdata.trans hnil, ?_⟩
      rw [pc_of_ne hpc Thread.noConfusion]
      exact hplace
  unfold clientLoop at hloop
  split at hloop
  · obtain ⟨rfl, hdata⟩ := Prod.mk.inj (Option.some.inj hloop)
    exact hbefore (by simp) (hdata ▸ rfl)
  · rename_i hdr data
    have hqueue := (wsSendStep_frame hdr data s.data answer.size).2
    split at hloop <;> rename_i hstep <;> rw [hstep] at hqueue <;>
      obtain ⟨rfl, hdata⟩ := Prod.mk.inj (Option.some.inj hloop) <;>
      exact hbefore (by simp) (hdata ▸ hqueue)
  · obtain ⟨rfl, -⟩ := Prod.mk.inj (Option.some.inj hloop)
    exact hgreeted (.inl rfl)
  · split at hloop <;> obtain ⟨rfl, -⟩ := Prod.mk.inj (Option.some.inj hloop) <;>
      exact hgreeted (by simp [Move.dest])
  · obtain ⟨rfl, -⟩ := Prod.mk.inj (Option.some.inj hloop)
    exact hgreeted (.inr (.inr rfl))
  · cases hloop

theorem Early.send (h : Early s) {answer : Answer} {q : SendPc} {m : Move Thread Mutex SendPc}
    (hq : s.pc .send = .send q) (hloop : sendLoop q s.data answer = some (m, s'.data))
    (hpc : s'.pc = Function.update s.pc .send (.send m.dest)) : Early s' := by
  have hself : s'.pc .send = .send m.dest := pc_self hpc
  rcases h with hplace | ⟨hnil, hplace⟩
  · left
    rw [pc_of_ne hpc Thread.noConfusion]
    exact hplace
  · right
    rw [hself]
    rcases hplace with hplace | hplace | hplace <;> cases Pc.send.inj (hq.symm.trans hplace)
    · obtain ⟨rfl, hdata⟩ := Prod.mk.inj (Option.some.inj hloop)
      refine ⟨hdata ▸ hnil, ?_⟩
      dsimp only [Move.dest]
      split_ifs <;> simp
    · unfold sendLoop at hloop
      dsimp only at hloop
      rw [hnil] at hloop
      obtain ⟨rfl, hdata⟩ := Prod.mk.inj (Option.some.inj hloop)
      exact ⟨hdata ▸ hnil, .inl rfl⟩
    · cases hloop

theorem Early.broadcast (h : Early s) {answer : Answer} {n : ℕ} {q : CallerPc}
    {m : Move Thread Mutex CallerPc}
    (hloop : Writers.broadcast q s.data answer = some (m, s'.data))
    (hpc : s'.pc = Function.update s.pc (.caller n) (.caller m.dest)) : Early s' := by
  have hqueue : s'.data.sendQueue = s.data.sendQueue := by
    unfold Writers.broadcast at hloop
    split at hloop <;> (try split at hloop) <;>
      first
        | cases hloop
        | obtain ⟨-, hdata⟩ := Prod.mk.inj (Option.some.inj hloop)
          exact hdata ▸ rfl
  unfold Early
  rw [hqueue, hpc, Function.update_of_ne Thread.noConfusion,
    Function.update_of_ne Thread.noConfusion]
  exact h

theorem Inv.step (s : ThreadState) (a : Thread × Answer) (s' : ThreadState) (h : Inv s)
    (hsteady : Steady s a) (hstep : Locks.step threads s a = some s') : Inv s' := by
  have howned := h.owned.step threads_scoped hstep
  obtain ⟨m, d, hnext, hpc, rfl, htakes⟩ := step_cases hstep
  obtain ⟨t, answer⟩ := a
  rcases threads_next hnext with ⟨q, m', rfl, hq, rfl, hloop⟩ | ⟨q, m', rfl, hq, rfl, hloop⟩ |
    ⟨n, q, m', rfl, hq, rfl, hloop⟩
  all_goals rw [Move.dest_map] at hpc
  · refine ⟨howned, h.early.loop hq hloop hpc, ?_⟩
    rcases h.phase with hsound | hbroken
    · exact .inl (hsound.loop h.owned hsteady hq hloop hpc htakes)
    · exact .inr (hbroken.loop hq hloop hpc)
  · refine ⟨howned, h.early.send hq hloop hpc, ?_⟩
    rcases h.phase with hsound | hbroken
    · exact hsound.send h.owned h.early hq hloop hpc htakes
    · exact .inr (hbroken.send h.owned hsteady hq hloop hpc)
  · refine ⟨howned, h.early.broadcast hloop hpc, ?_⟩
    rcases h.phase with hsound | hbroken
    · exact .inl (hsound.broadcast h.owned hsteady hq hloop hpc htakes)
    · exact .inr (hbroken.broadcast h.owned hq hloop hpc htakes)

theorem Sound.intact (h : Sound s) : Intact s.data where
  frames := by
    by_cases hidle : ∀ t, unwritten (s.pc t) = none
    · exact (h.idle hidle).exists_open
    · push Not at hidle
      obtain ⟨t, ht⟩ := hidle
      obtain ⟨left, hleft⟩ := Option.ne_none_iff_exists'.mp ht
      exact ⟨left, h.writing t left hleft⟩
  failure := fun w hw => h.ok w (List.mem_of_mem_dropLast hw)

/-- In every run whose steps are steady, the connection has got whole frames and at most a part
of one more, and nothing is written after a write that failed. -/
theorem intact_of_steady (as : List (Thread × Answer)) (s : ThreadState)
    (hsteady : Guarded (Locks.step threads) Steady started as)
    (hrun : run (Locks.step threads) started as = some s) : Intact s.data := by
  have hinv : Inv s := hsteady.invariant Inv.step inv_started hrun
  rcases hinv.phase with hsound | hbroken
  · exact hsound.intact
  · exact hbroken.intact

end

def sendReading : List (Thread × Answer) :=
  [(.loop, .yes), (.loop, .item .imu ⟨⟨1, 5⟩, .imu, [1, 2]⟩), (.send, .yes), (.send, .yes),
    (.send, .yes)]

/-- The connection takes the header of the ready message and not the rest; `send_loop` writes on. -/
theorem send_after_failed_ready : ∃ s,
    run (Locks.step threads) started
      ([(.loop, .yes), (.loop, .takes 100), (.loop, .no)] ++ sendReading ++
        [(.send, .takes 100)]) = some s ∧ ¬Intact s.data := by
  have hfailed : (run (Locks.step threads) started
      ([(.loop, .yes), (.loop, .takes 100), (.loop, .no)] ++ sendReading ++
        [(.send, .takes 100)])).map (fun s => s.data.writes.dropLast.any (·.2 = 0)) =
          some true := by
    decide
  obtain ⟨s, hrun, hany⟩ := Option.map_eq_some_iff.mp hfailed
  refine ⟨s, hrun, fun hintact => ?_⟩
  obtain ⟨w, hw, hzero⟩ := List.any_eq_true.mp hany
  exact hintact.failure w hw (of_decide_eq_true hzero)

def steadyTest (s : ThreadState) (a : Thread × Answer) : Bool :=
  match a.1 with
  | .loop => a.2.size ≠ 0 || s.pc .loop = .loop .greetLock || s.pc .loop = .loop .running ||
      s.pc .loop = .loop .greeted || s.pc .loop = .loop (.greeting [] [])
  | .send => s.pc .send ≠ .send .clearing
  | .caller _ => false

theorem steady_of_steadyTest (s : ThreadState) (a : Thread × Answer)
    (h : steadyTest s a = true) : Steady s a := by
  obtain ⟨t, answer⟩ := a
  cases t with
  | loop =>
    refine ⟨fun _ hdr data hp hne => ?_, fun _ _ he => Thread.noConfusion he,
      fun _ _ he => Thread.noConfusion he, fun he => Thread.noConfusion he⟩
    have hpair : ¬(hdr = [] ∧ data = []) := fun he => hne (by rw [he.1, he.2]; rfl)
    simpa [steadyTest, hp, hpair] using h
  | send =>
    refine ⟨fun he => Thread.noConfusion he, fun _ _ he => Thread.noConfusion he,
      fun _ _ he => Thread.noConfusion he, fun _ hp => ?_⟩
    simp [steadyTest, hp] at h
  | caller n => cases h

/-- The ready message is written, and of the reading only the first byte of its header. -/
theorem intact_of_steady_cut : ∃ s,
    run (Locks.step threads) started
      ([(.loop, .yes), (.loop, .takes 100), (.loop, .takes 100), (.loop, .yes)] ++ sendReading ++
        [(.send, .takes 1), (.send, .no)]) = some s ∧ Intact s.data := by
  have hlength : (run (Locks.step threads) started
      ([(.loop, .yes), (.loop, .takes 100), (.loop, .takes 100), (.loop, .yes)] ++ sendReading ++
        [(.send, .takes 1), (.send, .no)])).map (fun s => s.data.bytes.length) = some 21 := by
    decide
  obtain ⟨s, hrun, -⟩ := Option.map_eq_some_iff.mp hlength
  refine ⟨s, hrun, intact_of_steady _ s ?_ hrun⟩
  apply Guarded.of_allSteps steadyTest steady_of_steadyTest
  decide

end StereoCamera.WSServer.Writers
