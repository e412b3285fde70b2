import Mathlib.Algebra.Order.BigOperators.Group.Finset

/-! Threads that share one mutex and one condition variable. What keeps a thread from sleeping
while there is work that nobody was told of is a matter of accounts: who has put work there
owes a notification, and who was woken owes a look. -/

namespace Condition

/-- What a thread does next, and where it stands then. `wait` gives the mutex back and sleeps;
the thread goes on when it has the mutex again. -/
inductive Move (P : Type)
  | goto (next : P)
  | lock (next : P)
  | unlock (next : P)
  | wait (next : P)
  | notifyOne (next : P)
  | notifyAll (next : P)

def Move.map {P Q : Type} (f : P → Q) : Move P → Move Q
  | .goto p => .goto (f p)
  | .lock p => .lock (f p)
  | .unlock p => .unlock (f p)
  | .wait p => .wait (f p)
  | .notifyOne p => .notifyOne (f p)
  | .notifyAll p => .notifyAll (f p)

theorem Move.of_map_eq_wait {P Q D : Type} {f : P → Q} {next : Option (Move P × D)} {q : Q} {d : D}
    (h : next.map (fun r => (r.1.map f, r.2)) = some (.wait q, d)) :
    ∃ p d', next = some (.wait p, d') := by
  obtain ⟨⟨m, d'⟩, hnext, heq⟩ := Option.map_eq_some_iff.mp h
  cases m with
  | wait p => exact ⟨p, d', hnext⟩
  | goto p | lock p | unlock p | notifyOne p | notifyAll p => cases heq

inductive Mode
  | awake
  | asleep
  | signalled
  deriving DecidableEq

/-- `next t p d o` is the move of thread `t` at `p`, with the shared data `d`, when what is
outside answers `o`. -/
structure Program (T P D O : Type) where
  next : T → P → D → O → Option (Move P × D)

structure State (T P D : Type) where
  pc : T → P
  mode : T → Mode
  owner : Option T
  data : D

/-- `sleeper` is who is woken if the thread notifies one. A sleeper may also wake because its
time is over, or for no reason. -/
inductive Action (T O : Type)
  | act (t : T) (answer : O) (sleeper : T)
  | wake (t : T)
  | retake (t : T)

variable {T P D O : Type} [DecidableEq T]

def State.move (s : State T P D) (t : T) (p : P) (d : D) : State T P D :=
  { s with pc := Function.update s.pc t p, data := d }

def State.setMode (s : State T P D) (t : T) (m : Mode) : State T P D :=
  { s with mode := Function.update s.mode t m }

section
variable [Fintype T]

def makeMove (s : State T P D) (t sleeper : T) (m : Move P) (d : D) : Option (State T P D) :=
  match m with
  | .goto p => some (s.move t p d)
  | .lock p => if s.owner = none then some { s.move t p d with owner := some t } else none
  | .unlock p => some { s.move t p d with owner := none }
  | .wait p => some { (s.move t p d).setMode t .asleep with owner := none }
  | .notifyOne p =>
    if s.mode sleeper = .asleep then some ((s.move t p d).setMode sleeper .signalled)
    else if ∀ u, s.mode u ≠ .asleep then some (s.move t p d)
    else none
  | .notifyAll p =>
    some { s.move t p d with
      mode := fun u => if s.mode u = .asleep then .signalled else s.mode u }

def step (prog : Program T P D O) (s : State T P D) (a : Action T O) : Option (State T P D) :=
  match a with
  | .act t answer sleeper =>
    if s.mode t = .awake then
      (prog.next t (s.pc t) s.data answer).bind fun r => makeMove s t sleeper r.1 r.2
    else none
  | .wake t => if s.mode t = .asleep then some (s.setMode t .signalled) else none
  | .retake t =>
    if s.mode t = .signalled ∧ s.owner = none then
      some { s.setMode t .awake with owner := some t }
    else none

end

/-- `items` counts the work. `owes` says how much of it the thread will tell of, or look after
itself; `owesHeld` is the part of it that it will tell of with the mutex in its hands. `missed`
counts the work where the thread has looked before it sleeps. -/
structure Accounts (T P D : Type) where
  holds : T → P → Prop
  items : D → ℕ
  owes : T → P → ℕ
  owesHeld : T → P → ℕ
  missed : T → P → D → ℕ
  owesHeld_le : ∀ t p, owesHeld t p ≤ owes t p

namespace Accounts
variable (acc : Accounts T P D)

/-- There is nothing to tell of, or it grows with what the thread owes. -/
def Covers (t : T) (p : P) (d : D) (p' : P) (d' : D) : Prop :=
  acc.items d' = 0 ∨ acc.items d' + acc.owes t p ≤ acc.items d + acc.owes t p'

/-- Without the mutex the thread tells of nothing, and owes for what it puts where another one
has looked. With the mutex it is the only one that can have looked. -/
structure Discreet (t : T) (p : P) (d : D) (p' : P) (d' : D) : Prop where
  others : ¬acc.holds t p → ∀ u q,
    acc.missed u q d' + acc.owesHeld t p ≤ acc.missed u q d + acc.owesHeld t p'
  own : acc.holds t p → acc.missed t p' d' = 0 ∨
    acc.missed t p' d' + acc.owesHeld t p ≤ acc.missed t p d + acc.owesHeld t p'

def Permits (t : T) (p : P) (d : D) (m : Move P) (d' : D) : Prop :=
  match m with
  | .goto p' =>
    (acc.holds t p' ↔ acc.holds t p) ∧ acc.Covers t p d p' d' ∧ acc.Discreet t p d p' d'
  | .lock p' => acc.holds t p' ∧ acc.Covers t p d p' d' ∧ acc.missed t p' d' = 0
  | .unlock p' => acc.holds t p ∧ ¬acc.holds t p' ∧ acc.Covers t p d p' d'
  | .wait p' =>
    acc.holds t p ∧ acc.holds t p' ∧ d' = d ∧ acc.items d ≤ acc.missed t p d ∧
      acc.owesHeld t p = 0 ∧ 0 < acc.owes t p' ∧ ∀ d, acc.missed t p' d = 0
  | .notifyOne p' | .notifyAll p' =>
    (acc.holds t p' ↔ acc.holds t p) ∧
      acc.items d' + acc.owes t p ≤ acc.items d + acc.owes t p' + 1 ∧ acc.Discreet t p d p' d'

def credit (s : State T P D) (t : T) : ℕ :=
  match s.mode t with
  | .awake => acc.owes t (s.pc t)
  | .asleep => 0
  | .signalled => 1

def creditHeld (s : State T P D) (t : T) : ℕ :=
  match s.mode t with
  | .awake => acc.owesHeld t (s.pc t)
  | .asleep | .signalled => 0

variable [Fintype T]

/-- While anyone sleeps, somebody was woken or will tell of all the work. -/
structure Balanced (s : State T P D) : Prop where
  owned : ∀ t, s.owner = some t ↔ s.mode t = .awake ∧ acc.holds t (s.pc t)
  sleeper : ∀ t, s.mode t ≠ .awake →
    acc.holds t (s.pc t) ∧ 0 < acc.owes t (s.pc t) ∧ ∀ d, acc.missed t (s.pc t) d = 0
  covered : ∀ t, s.mode t = .asleep → acc.items s.data ≤ ∑ u, acc.credit s u
  looked : ∀ t, s.owner = some t → acc.missed t (s.pc t) s.data ≤ ∑ u, acc.creditHeld s u

end Accounts

section
variable [Fintype T]

theorem sum_add_le_sum_add {f g : T → ℕ} {t : T} {a b : ℕ} (hne : ∀ u, u ≠ t → f u ≤ g u)
    (ht : f t + a ≤ g t + b) : ∑ u, f u + a ≤ ∑ u, g u + b := by
  have hrest : ∑ u ∈ Finset.univ.erase t, f u ≤ ∑ u ∈ Finset.univ.erase t, g u :=
    Finset.sum_le_sum fun u hu => hne u (Finset.ne_of_mem_erase hu)
  rw [← Finset.add_sum_erase _ f (Finset.mem_univ t),
    ← Finset.add_sum_erase _ g (Finset.mem_univ t)]
  omega

end

namespace Accounts
variable {acc : Accounts T P D} {s s' : State T P D} {t : T} {p : P}

section
omit [DecidableEq T]

theorem creditHeld_le (s : State T P D) (t : T) : acc.creditHeld s t ≤ acc.credit s t := by
  unfold creditHeld credit
  cases s.mode t with
  | awake => exact acc.owesHeld_le t _
  | asleep => exact le_rfl
  | signalled => exact Nat.zero_le _

variable (acc) in
theorem credit_of_awake (h : s.mode t = .awake) : acc.credit s t = acc.owes t (s.pc t) := by
  rw [credit, h]

theorem creditHeld_of_awake (h : s.mode t = .awake) :
    acc.creditHeld s t = acc.owesHeld t (s.pc t) := by
  rw [creditHeld, h]

theorem credit_le_of_mode (hpc : s'.pc t = s.pc t)
    (hmode : s'.mode t = s.mode t ∨ s.mode t = .asleep) :
    acc.credit s t ≤ acc.credit s' t := by
  unfold credit
  rcases hmode with h | h
  · rw [hpc, h]
  · rw [h]
    exact Nat.zero_le _

theorem creditHeld_le_of_mode (hpc : s'.pc t = s.pc t)
    (hmode : s'.mode t = s.mode t ∨ s.mode t ≠ .awake) :
    acc.creditHeld s t ≤ acc.creditHeld s' t := by
  unfold creditHeld
  rcases hmode with h | h
  · rw [hpc, h]
  · cases hm : s.mode t with
    | awake => exact absurd hm h
    | asleep => exact Nat.zero_le _
    | signalled => exact Nat.zero_le _

end

variable [Fintype T]

variable (acc) in
theorem sum_credit (hpc : s'.pc = Function.update s.pc t p) (hawake : s.mode t = .awake)
    (hmode : s'.mode t = .awake) (hothers : ∀ u, s'.mode u = s.mode u ∨ s.mode u = .asleep) :
    ∑ u, acc.credit s u + acc.owes t p ≤ ∑ u, acc.credit s' u + acc.owes t (s.pc t) := by
  refine sum_add_le_sum_add (t := t) (fun u hu => ?_) ?_
  · exact credit_le_of_mode (by rw [hpc, Function.update_of_ne hu]) (hothers u)
  · rw [acc.credit_of_awake hawake, acc.credit_of_awake hmode, hpc, Function.update_self, add_comm]

theorem sum_creditHeld (hpc : s'.pc = Function.update s.pc t p) (hawake : s.mode t = .awake)
    (hmode : s'.mode t = .awake) (hothers : ∀ u, s'.mode u = s.mode u ∨ s.mode u ≠ .awake) :
    ∑ u, acc.creditHeld s u + acc.owesHeld t p ≤
      ∑ u, acc.creditHeld s' u + acc.owesHeld t (s.pc t) := by
  refine sum_add_le_sum_add (t := t) (fun u hu => ?_) ?_
  · exact creditHeld_le_of_mode (by rw [hpc, Function.update_of_ne hu]) (hothers u)
  · rw [creditHeld_of_awake hawake, creditHeld_of_awake hmode, hpc, Function.update_self, add_comm]

variable (acc) in
theorem sum_credit_wake (h : s.mode t = .asleep) :
    ∑ u, acc.credit s u + 1 ≤ ∑ u, acc.credit (s.setMode t .signalled) u := by
  refine sum_add_le_sum_add (t := t) (b := 0) (fun u hu => ?_) ?_
  · refine credit_le_of_mode rfl (.inl ?_)
    exact Function.update_of_ne hu _ _
  · unfold credit
    rw [h]
    dsimp only [State.setMode]
    rw [Function.update_self]

namespace Balanced

theorem sleeper_of_move (hs : acc.Balanced s) (hpc : s'.pc = Function.update s.pc t p)
    (hawake : s.mode t = .awake) (hmode : ∀ u, s'.mode u ≠ .awake → s.mode u ≠ .awake) (u : T)
    (hu : s'.mode u ≠ .awake) :
    acc.holds u (s'.pc u) ∧ 0 < acc.owes u (s'.pc u) ∧ ∀ d, acc.missed u (s'.pc u) d = 0 := by
  have hne : u ≠ t := by
    rintro rfl
    exact hmode u hu hawake
  rw [hpc, Function.update_of_ne hne]
  exact hs.sleeper u (hmode u hu)

theorem owned_of_move (hs : acc.Balanced s) (hpc : s'.pc = Function.update s.pc t p)
    (hholds : acc.holds t p ↔ acc.holds t (s.pc t)) (howner : s'.owner = s.owner)
    (hmode : ∀ u, s'.mode u = .awake ↔ s.mode u = .awake) (u : T) :
    s'.owner = some u ↔ s'.mode u = .awake ∧ acc.holds u (s'.pc u) := by
  rw [howner, hs.owned u, hmode u, hpc]
  by_cases hu : u = t
  · subst hu
    rw [Function.update_self, hholds]
  · rw [Function.update_of_ne hu]

theorem looked_of_move (hs : acc.Balanced s) (hpc : s'.pc = Function.update s.pc t p)
    (hawake : s.mode t = .awake) (hdiscreet : acc.Discreet t (s.pc t) s.data p s'.data)
    (howner : s'.owner = s.owner)
    (hsum : ∑ u, acc.creditHeld s u + acc.owesHeld t p ≤
      ∑ u, acc.creditHeld s' u + acc.owesHeld t (s.pc t)) (u : T) (hu : s'.owner = some u) :
    acc.missed u (s'.pc u) s'.data ≤ ∑ v, acc.creditHeld s' v := by
  -- A discreet move leaves nothing behind where others have looked.
  rw [howner] at hu
  have hbefore := hs.looked u hu
  rw [hpc]
  by_cases hut : u = t
  · subst hut
    rw [Function.update_self]
    rcases hdiscreet.own ((hs.owned u).mp hu).2 with hzero | hle
    · exact hzero.le.trans (Nat.zero_le _)
    · omega
  · rw [Function.update_of_ne hut]
    have hfree : ¬acc.holds t (s.pc t) := by
      intro hholds
      exact hut (Option.some.inj (hu.symm.trans ((hs.owned t).mpr ⟨hawake, hholds⟩)))
    have hothers := hdiscreet.others hfree u (s.pc u)
    omega

variable {d : D} {sleeper : T}

theorem goto (hs : acc.Balanced s) (hawake : s.mode t = .awake)
    (h : acc.Permits t (s.pc t) s.data (.goto p) d) : acc.Balanced (s.move t p d) := by
  obtain ⟨hholds, hcovers, hdiscreet⟩ := h
  refine ⟨?_, ?_, ?_, ?_⟩
  · exact hs.owned_of_move rfl hholds rfl fun u => Iff.rfl
  · exact hs.sleeper_of_move rfl hawake fun u => id
  · intro u hu
    have hbefore := hs.covered u hu
    have hpc : (s.move t p d).pc = Function.update s.pc t p := rfl
    have hsum := acc.sum_credit hpc hawake hawake fun u => .inl rfl
    rcases hcovers with hzero | hle
    · exact hzero.le.trans (Nat.zero_le _)
    · change acc.items d ≤ _
      omega
  · exact hs.looked_of_move rfl hawake hdiscreet rfl
      (sum_creditHeld rfl hawake hawake fun u => .inl rfl)

theorem lock (hs : acc.Balanced s) (hawake : s.mode t = .awake) (hfree : s.owner = none)
    (h : acc.Permits t (s.pc t) s.data (.lock p) d) :
    acc.Balanced { s.move t p d with owner := some t } := by
  obtain ⟨hholds, hcovers, hmissed⟩ := h
  have hnot : ∀ u, ¬(s.mode u = .awake ∧ acc.holds u (s.pc u)) := by
    intro u hu
    cases hfree.symm.trans ((hs.owned u).mpr hu)
  refine ⟨?_, ?_, ?_, ?_⟩
  · intro u
    by_cases hu : u = t
    · subst hu
      refine iff_of_true rfl ⟨hawake, ?_⟩
      dsimp only [State.move]
      rwa [Function.update_self]
    · refine iff_of_false (fun h => hu (Option.some.inj h).symm) ?_
      dsimp only [State.move]
      rw [Function.update_of_ne hu]
      exact hnot u
  · exact hs.sleeper_of_move rfl hawake fun u => id
  · intro u hu
    have hbefore := hs.covered u hu
    have hpc : { s.move t p d with owner := some t }.pc = Function.update s.pc t p := rfl
    have hsum := acc.sum_credit hpc hawake hawake fun u => .inl rfl
    rcases hcovers with hzero | hle
    · exact hzero.le.trans (Nat.zero_le _)
    · change acc.items d ≤ _
      omega
  · rintro u ⟨⟩
    dsimp only [State.move]
    rw [Function.update_self, hmissed]
    exact Nat.zero_le _

theorem unlock (hs : acc.Balanced s) (hawake : s.mode t = .awake)
    (h : acc.Permits t (s.pc t) s.data (.unlock p) d) :
    acc.Balanced { s.move t p d with owner := none } := by
  obtain ⟨hheld, hholds, hcovers⟩ := h
  have howner : s.owner = some t := (hs.owned t).mpr ⟨hawake, hheld⟩
  refine ⟨?_, ?_, ?_, nofun⟩
  · intro u
    refine iff_of_false nofun ?_
    dsimp only [State.move]
    by_cases hu : u = t
    · subst hu
      rw [Function.update_self]
      exact fun h => hholds h.2
    · rw [Function.update_of_ne hu, ← hs.owned u, howner]
      exact fun h => hu (Option.some.inj h).symm
  · exact hs.sleeper_of_move rfl hawake fun u => id
  · intro u hu
    have hbefore := hs.covered u hu
    have hpc : { s.move t p d with owner := none }.pc = Function.update s.pc t p := rfl
    have hsum := acc.sum_credit hpc hawake hawake fun u => .inl rfl
    rcases hcovers with hzero | hle
    · exact hzero.le.trans (Nat.zero_le _)
    · change acc.items d ≤ _
      omega

theorem wait (hs : acc.Balanced s) (hawake : s.mode t = .awake)
    (h : acc.Permits t (s.pc t) s.data (.wait p) d) :
    acc.Balanced { (s.move t p d).setMode t .asleep with owner := none } := by
  -- Who goes to sleep has looked everywhere, so that what is there came later, from somebody who
  -- still has to take the mutex to tell of it.
  obtain ⟨hheld, hholds, rfl, hlooked, howes, hlook, hmissed⟩ := h
  have howner : s.owner = some t := (hs.owned t).mpr ⟨hawake, hheld⟩
  have hpc : ∀ u, u ≠ t → Function.update s.pc t p u = s.pc u :=
    fun u hu => Function.update_of_ne hu _ _
  have hmode : ∀ u, u ≠ t → Function.update s.mode t Mode.asleep u = s.mode u :=
    fun u hu => Function.update_of_ne hu _ _
  refine ⟨?_, ?_, ?_, nofun⟩
  · intro u
    refine iff_of_false nofun ?_
    dsimp only [State.move, State.setMode]
    by_cases hu : u = t
    · subst hu
      rw [Function.update_self]
      exact fun h => Mode.noConfusion h.1
    · rw [hpc u hu, hmode u hu, ← hs.owned u, howner]
      exact fun h => hu (Option.some.inj h).symm
  · intro u hu
    dsimp only [State.move, State.setMode] at hu ⊢
    by_cases hut : u = t
    · subst hut
      rw [Function.update_self]
      exact ⟨hholds, hlook, hmissed⟩
    · rw [hmode u hut] at hu
      rw [hpc u hut]
      exact hs.sleeper u hu
  · intro u _
    have hbefore := hs.looked t howner
    have hsum : ∑ v, acc.creditHeld s v + 0 ≤
        ∑ v, acc.credit { (s.move t p s.data).setMode t .asleep with owner := none } v + 0 := by
      refine sum_add_le_sum_add (t := t) (fun v hv => ?_) ?_
      · refine (creditHeld_le s v).trans (credit_le_of_mode (hpc v hv) (.inl (hmode v hv)))
      · rw [creditHeld_of_awake hawake, howes]
        exact Nat.zero_le _
    exact hlooked.trans (hbefore.trans (by omega))

theorem notify (hs : acc.Balanced s) (hawake : s.mode t = .awake)
    (hpc : s'.pc = Function.update s.pc t p) (howner : s'.owner = s.owner)
    (hwoken : ∀ u, s'.mode u = s.mode u ∨ s.mode u = .asleep ∧ s'.mode u = .signalled)
    (h : acc.Permits t (s.pc t) s.data (.notifyOne p) s'.data)
    (hcredit : (∃ u, s'.mode u = .asleep) →
      ∑ u, acc.credit s u + 1 + acc.owes t p ≤ ∑ u, acc.credit s' u + acc.owes t (s.pc t)) :
    acc.Balanced s' := by
  obtain ⟨hholds, hcovers, hdiscreet⟩ := h
  have hmode : ∀ u, s'.mode u = .awake ↔ s.mode u = .awake := by
    intro u
    rcases hwoken u with h | ⟨h, h'⟩
    · rw [h]
    · rw [h, h']
      exact iff_of_false nofun nofun
  have hawake' : s'.mode t = .awake := (hmode t).mpr hawake
  refine ⟨?_, ?_, ?_, ?_⟩
  · exact hs.owned_of_move hpc hholds howner hmode
  · exact hs.sleeper_of_move hpc hawake fun u => mt (hmode u).mpr
  · intro u hu
    have hasleep : s.mode u = .asleep := by
      rcases hwoken u with h | ⟨-, h⟩
      · rw [← h, hu]
      · cases hu.symm.trans h
    have hbefore := hs.covered u hasleep
    have hafter := hcredit ⟨u, hu⟩
    omega
  · refine hs.looked_of_move hpc hawake hdiscreet howner (sum_creditHeld hpc hawake hawake' ?_)
    intro u
    rcases hwoken u with h | ⟨h, -⟩
    · exact .inl h
    · refine .inr ?_
      rw [h]
      exact nofun

theorem makeMove {m : Move P} (hs : acc.Balanced s) (hawake : s.mode t = .awake)
    (hm : acc.Permits t (s.pc t) s.data m d)
    (h : Condition.makeMove s t sleeper m d = some s') : acc.Balanced s' := by
  unfold Condition.makeMove at h
  cases m with
  | goto p =>
    cases h
    exact hs.goto hawake hm
  | lock p =>
    dsimp only at h
    split_ifs at h with hfree
    cases h
    exact hs.lock hawake hfree hm
  | unlock p =>
    cases h
    exact hs.unlock hawake hm
  | wait p =>
    cases h
    exact hs.wait hawake hm
  | notifyOne p =>
    dsimp only at h
    split_ifs at h with hasleep hnone
    · cases h
      have hne : t ≠ sleeper := by
        rintro rfl
        cases hawake.symm.trans hasleep
      have hmode : ∀ u, Function.update s.mode sleeper Mode.signalled u = s.mode u ∨
          s.mode u = .asleep ∧ Function.update s.mode sleeper Mode.signalled u = .signalled := by
        intro u
        by_cases hu : u = sleeper
        · subst hu
          exact .inr ⟨hasleep, Function.update_self ..⟩
        · exact .inl (Function.update_of_ne hu _ _)
      refine hs.notify (p := p) hawake rfl rfl hmode hm fun _ => ?_
      have hwake := acc.sum_credit_wake hasleep
      have hpc : ((s.move t p d).setMode sleeper .signalled).pc =
          Function.update (s.setMode sleeper .signalled).pc t p := rfl
      have hsum := acc.sum_credit hpc ((Function.update_of_ne hne _ _).trans hawake)
        ((Function.update_of_ne hne _ _).trans hawake) fun u => .inl rfl
      change _ ≤ _ + acc.owes t ((s.setMode sleeper .signalled).pc t)
      omega
    · cases h
      refine hs.notify (p := p) hawake rfl rfl (fun u => .inl rfl) hm ?_
      rintro ⟨u, hu⟩
      exact absurd hu (hnone u)
  | notifyAll p =>
    cases h
    have hmode : ∀ u, (if s.mode u = .asleep then Mode.signalled else s.mode u) = s.mode u ∨
        s.mode u = .asleep ∧
          (if s.mode u = .asleep then Mode.signalled else s.mode u) = .signalled := by
      intro u
      by_cases hu : s.mode u = .asleep
      · exact .inr ⟨hu, if_pos hu⟩
      · exact .inl (if_neg hu)
    refine hs.notify (p := p) hawake rfl rfl hmode hm ?_
    rintro ⟨u, hu⟩
    dsimp only at hu
    split_ifs at hu with hasleep
    exact absurd hu hasleep

theorem wake (hs : acc.Balanced s) (hasleep : s.mode t = .asleep) :
    acc.Balanced (s.setMode t .signalled) := by
  have hmode : ∀ u, u ≠ t → (s.setMode t .signalled).mode u = s.mode u :=
    fun u hu => Function.update_of_ne hu _ _
  have hself : (s.setMode t .signalled).mode t = .signalled := Function.update_self ..
  refine ⟨?_, ?_, ?_, ?_⟩
  · intro u
    rw [show (s.setMode t .signalled).owner = s.owner from rfl, hs.owned u]
    by_cases hu : u = t
    · subst hu
      rw [hasleep, hself]
      exact iff_of_false (fun h => Mode.noConfusion h.1) fun h => Mode.noConfusion h.1
    · rw [hmode u hu]
      rfl
  · intro u hu
    refine hs.sleeper u fun h => hu ?_
    by_cases hut : u = t
    · subst hut
      cases hasleep.symm.trans h
    · rw [hmode u hut, h]
  · intro u hu
    have hbefore := hs.covered t hasleep
    have hsum := acc.sum_credit_wake hasleep
    change acc.items s.data ≤ _
    omega
  · intro u hu
    have hbefore := hs.looked u hu
    refine hbefore.trans (Finset.sum_le_sum fun v _ => creditHeld_le_of_mode rfl ?_)
    by_cases hv : v = t
    · subst hv
      refine .inr ?_
      rw [hasleep]
      exact nofun
    · exact .inl (hmode v hv)

theorem retake (hs : acc.Balanced s) (hsignalled : s.mode t = .signalled)
    (hfree : s.owner = none) : acc.Balanced { s.setMode t .awake with owner := some t } := by
  obtain ⟨hholds, hlook, hmissed⟩ := hs.sleeper t (by rw [hsignalled]; exact nofun)
  have hmode : ∀ u, u ≠ t → Function.update s.mode t Mode.awake u = s.mode u :=
    fun u hu => Function.update_of_ne hu _ _
  have hnot : ∀ u, ¬(s.mode u = .awake ∧ acc.holds u (s.pc u)) := by
    intro u hu
    cases hfree.symm.trans ((hs.owned u).mpr hu)
  refine ⟨?_, ?_, ?_, ?_⟩
  · intro u
    dsimp only [State.setMode]
    by_cases hu : u = t
    · subst hu
      rw [Function.update_self]
      exact iff_of_true rfl ⟨rfl, hholds⟩
    · rw [hmode u hu]
      exact iff_of_false (fun h => hu (Option.some.inj h).symm) (hnot u)
  · intro u hu
    dsimp only [State.setMode] at hu ⊢
    have hut : u ≠ t := by
      rintro rfl
      exact hu (Function.update_self ..)
    rw [hmode u hut] at hu
    exact hs.sleeper u hu
  · intro u hu
    dsimp only [State.setMode] at hu
    have hut : u ≠ t := by
      rintro rfl
      rw [Function.update_self] at hu
      cases hu
    rw [hmode u hut] at hu
    refine (hs.covered u hu).trans (Finset.sum_le_sum fun v _ => ?_)
    by_cases hv : v = t
    · subst hv
      unfold credit
      rw [hsignalled]
      dsimp only [State.setMode]
      rw [Function.update_self]
      exact hlook
    · exact credit_le_of_mode rfl (.inl (hmode v hv))
  · rintro u ⟨⟩
    exact (hmissed _).le.trans (Nat.zero_le _)

variable {prog : Program T P D O}

theorem step (hprog : ∀ t p d o m d', prog.next t p d o = some (m, d') → acc.Permits t p d m d')
    (hs : acc.Balanced s) {a : Action T O} (h : Condition.step prog s a = some s') :
    acc.Balanced s' := by
  unfold Condition.step at h
  cases a with
  | act t answer sleeper =>
    dsimp only at h
    split_ifs at h with hawake
    obtain ⟨⟨m, d⟩, hnext, hmove⟩ := Option.bind_eq_some_iff.mp h
    exact hs.makeMove hawake (hprog _ _ _ _ _ _ hnext) hmove
  | wake t =>
    dsimp only at h
    split_ifs at h with hasleep
    cases h
    exact hs.wake hasleep
  | retake t =>
    dsimp only at h
    split_ifs at h with hretake
    cases h
    exact hs.retake hretake.1 hretake.2

omit [DecidableEq T] in
theorem init (hmode : ∀ t, s.mode t = .awake) (howner : s.owner = none)
    (hfree : ∀ t, ¬acc.holds t (s.pc t)) : acc.Balanced s where
  owned t := by
    rw [howner]
    exact iff_of_false nofun fun h => hfree t h.2
  sleeper t h := absurd (hmode t) h
  covered t h := by cases (hmode t).symm.trans h
  looked t h := by cases howner.symm.trans h

end Balanced

end Accounts

theorem awake_of_step [Fintype T] {prog : Program T P D O} {s s' : State T P D} {t : T}
    (hprog : ∀ p d o p' d', prog.next t p d o ≠ some (.wait p', d')) (ht : s.mode t = .awake)
    {a : Action T O} (h : step prog s a = some s') : s'.mode t = .awake := by
  have hset : ∀ (s : State T P D) (u : T) (m : Mode), u ≠ t → (s.setMode u m).mode t = s.mode t :=
    fun s u m hu => Function.update_of_ne hu.symm _ _
  have hne : ∀ u m, s.mode u = m → m ≠ .awake → u ≠ t := by
    rintro u m hu hm rfl
    exact hm (hu.symm.trans ht)
  unfold step at h
  cases a with
  | act u answer sleeper =>
    dsimp only at h
    split_ifs at h with hawake
    obtain ⟨⟨m, d⟩, hnext, hmove⟩ := Option.bind_eq_some_iff.mp h
    cases m with
    | goto p | unlock p =>
      cases hmove
      exact ht
    | lock p =>
      unfold makeMove at hmove
      dsimp only at hmove
      split_ifs at hmove
      cases hmove
      exact ht
    | wait p =>
      cases hmove
      refine (hset _ u _ ?_).trans ht
      rintro rfl
      exact hprog _ _ _ _ _ hnext
    | notifyOne p =>
      unfold makeMove at hmove
      dsimp only at hmove
      split_ifs at hmove with hasleep
      · cases hmove
        exact (hset _ sleeper _ (hne _ _ hasleep nofun)).trans ht
      · cases hmove
        exact ht
    | notifyAll p =>
      cases hmove
      change (if s.mode t = .asleep then Mode.signalled else s.mode t) = .awake
      rw [ht]
      rfl
  | wake u =>
    dsimp only at h
    split_ifs at h with hasleep
    cases h
    exact (hset _ u _ (hne _ _ hasleep nofun)).trans ht
  | retake u =>
    dsimp only at h
    split_ifs at h with hretake
    cases h
    exact (hset _ u _ (hne _ _ hretake.1 nofun)).trans ht

end Condition
