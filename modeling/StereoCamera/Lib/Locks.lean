import Mathlib.Logic.Function.Basic
import Mathlib.Logic.Relation
import Mathlib.Order.Defs.PartialOrder
import Mathlib.Tactic.SplitIfs

/-! Threads that take mutexes and join one another, and a rank that rules out a circular
wait. -/

namespace Locks

/-- What a thread does next, and where it stands then. -/
inductive Move (T L P : Type)
  | goto (next : P)
  | acquire (l : L) (next : P)
  | release (l : L) (next : P)
  | join (t : T) (next : P)

namespace Move

def dest {T L P : Type} : Move T L P → P
  | goto p => p
  | acquire _ p => p
  | release _ p => p
  | join _ p => p

def map {T L P Q : Type} (f : P → Q) : Move T L P → Move T L Q
  | goto p => goto (f p)
  | acquire l p => acquire l (f p)
  | release l p => release l (f p)
  | join t p => join t (f p)

theorem dest_map {T L P Q : Type} (f : P → Q) (m : Move T L P) : (m.map f).dest = f m.dest := by
  cases m <;> rfl

end Move

/-- `next t p d o` is the move of thread `t` at `p`, with the shared data `d`, when what is
outside answers `o`. -/
structure Program (T L P D O : Type) where
  next : T → P → D → O → Option (Move T L P × D)
  finished : P → Bool

structure State (T L P D : Type) where
  pc : T → P
  owner : L → Option T
  data : D

variable {T L P D O : Type}

/-- `t` cannot go on before `u` does. -/
inductive Waits (prog : Program T L P D O) (s : State T L P D) (t u : T) : Prop
  | lock {o : O} {l : L} {p : P} {d : D}
    (hnext : prog.next t (s.pc t) s.data o = some (.acquire l p, d)) (howner : s.owner l = some u)
  | join {o : O} {p : P} {d : D}
    (hnext : prog.next t (s.pc t) s.data o = some (.join u p, d))
    (hrunning : prog.finished (s.pc u) = false)

def Circular (prog : Program T L P D O) (s : State T L P D) : Prop :=
  ∃ t, Relation.TransGen (Waits prog s) t t

def Move.Scoped (holds : P → L → Prop) (p : P) : Move T L P → Prop
  | .goto p' => ∀ l, holds p' l ↔ holds p l
  | .acquire l p' => ∀ l', holds p' l' ↔ l' = l ∨ holds p l'
  | .release l p' => holds p l ∧ ∀ l', holds p' l' ↔ l' ≠ l ∧ holds p l'
  | .join _ p' => ∀ l, holds p' l ↔ holds p l

theorem Move.scoped_map {Q : Type} {f : P → Q} {holds : Q → L → Prop} {p : P}
    {m : Move T L P} : (m.map f).Scoped holds (f p) ↔ m.Scoped (fun p => holds (f p)) p := by
  cases m <;> rfl

def Program.Scoped (prog : Program T L P D O) (holds : T → P → L → Prop) : Prop :=
  ∀ t p d o m d', prog.next t p d o = some (m, d') → m.Scoped (holds t) p

/-- What the move waits for is below `r`: a mutex by its level, a thread by its bound. -/
def Move.Ranked {α : Type} [LT α] (level : L → α) (bound : T → α) (r : α) : Move T L P → Prop
  | .goto _ | .release _ _ => True
  | .acquire l _ => level l < r
  | .join t _ => bound t < r

theorem Move.ranked_map {Q α : Type} [LT α] {f : P → Q} {level : L → α} {bound : T → α} {r : α}
    {m : Move T L P} : (m.map f).Ranked level bound r ↔ m.Ranked level bound r := by
  cases m <;> rfl

def Owned (holds : T → P → L → Prop) (s : State T L P D) : Prop :=
  ∀ l t, s.owner l = some t ↔ holds t (s.pc t) l

section
variable [DecidableEq T] [DecidableEq L]

def State.move (s : State T L P D) (t : T) (p : P) (d : D) : State T L P D :=
  { s with pc := Function.update s.pc t p, data := d }

/-- A taken mutex and a running thread hold their caller up. -/
def step (prog : Program T L P D O) (s : State T L P D) (a : T × O) : Option (State T L P D) :=
  match prog.next a.1 (s.pc a.1) s.data a.2 with
  | none => none
  | some (.goto p, d) => some (s.move a.1 p d)
  | some (.acquire l p, d) =>
    if s.owner l = none then
      some { s.move a.1 p d with owner := Function.update s.owner l (some a.1) }
    else none
  | some (.release l p, d) => some { s.move a.1 p d with owner := Function.update s.owner l none }
  | some (.join t p, d) => if prog.finished (s.pc t) then some (s.move a.1 p d) else none

end

section
variable {prog : Program T L P D O} {holds : T → P → L → Prop} {s s' : State T L P D}

theorem Owned.unique (hs : Owned holds s) {l : L} {t u : T} (ht : holds t (s.pc t) l)
    (hu : holds u (s.pc u) l) : t = u :=
  Option.some.inj (((hs l t).mpr ht).symm.trans ((hs l u).mpr hu))

/-- Where every wait goes down in rank, no wait is circular. -/
theorem not_circular_of_rank {α : Type} [Preorder α] (rank : T → α)
    (hrank : ∀ t u, Waits prog s t u → rank u < rank t) : ¬Circular prog s := by
  rintro ⟨t, ht⟩
  have hlt : ∀ {t u}, Relation.TransGen (Waits prog s) t u → rank u < rank t := by
    intro t u h
    induction h with
    | single h => exact hrank _ _ h
    | tail _ h ih => exact lt_trans (hrank _ _ h) ih
  exact lt_irrefl _ (hlt ht)

/-- Holders stay below the level of what they hold, threads below their bound, and every move
waits for something lower. -/
theorem not_circular_of_ranked {α : Type} [Preorder α] {level : L → α} {bound : T → α}
    (rank : T → P → α) (hs : Owned holds s)
    (hheld : ∀ t l, holds t (s.pc t) l → rank t (s.pc t) ≤ level l)
    (hbound : ∀ t, rank t (s.pc t) ≤ bound t)
    (hmove : ∀ t o m d, prog.next t (s.pc t) s.data o = some (m, d) →
      m.Ranked level bound (rank t (s.pc t))) : ¬Circular prog s := by
  refine not_circular_of_rank (fun t => rank t (s.pc t)) ?_
  intro t u h
  cases h with
  | lock hnext howner => exact lt_of_le_of_lt (hheld u _ ((hs _ u).mp howner)) (hmove t _ _ _ hnext)
  | join hnext _ => exact lt_of_le_of_lt (hbound u) (hmove t _ _ _ hnext)

variable [DecidableEq T]

theorem pc_self {t : T} {p : P} (hpc : s'.pc = Function.update s.pc t p) : s'.pc t = p := by
  rw [hpc, Function.update_self]

theorem pc_of_ne {t u : T} {p : P} (hpc : s'.pc = Function.update s.pc t p) (hu : u ≠ t) :
    s'.pc u = s.pc u := by
  rw [hpc, Function.update_of_ne hu]

theorem Owned.of_same (hs : Owned holds s) {t : T} {p : P}
    (hpc : s'.pc = Function.update s.pc t p) (howner : s'.owner = s.owner)
    (hp : ∀ l, holds t p l ↔ holds t (s.pc t) l) : Owned holds s' := by
  intro l u
  rw [hpc, howner, hs l u]
  by_cases hu : u = t
  · subst hu
    rw [Function.update_self, hp]
  · rw [Function.update_of_ne hu]

variable [DecidableEq L]

def Move.Takes (prog : Program T L P D O) (s : State T L P D) (t : T) (owner : L → Option T) :
    Move T L P → Prop
  | .goto _ => owner = s.owner
  | .acquire l _ => s.owner l = none ∧ owner = Function.update s.owner l (some t)
  | .release l _ => owner = Function.update s.owner l none
  | .join u _ => prog.finished (s.pc u) = true ∧ owner = s.owner

theorem step_cases {a : T × O} (h : step prog s a = some s') :
    ∃ m d, prog.next a.1 (s.pc a.1) s.data a.2 = some (m, d) ∧
      s'.pc = Function.update s.pc a.1 m.dest ∧ s'.data = d ∧ m.Takes prog s a.1 s'.owner := by
  unfold step at h
  split at h
  · cases h
  · rename_i p d hnext
    cases h
    exact ⟨_, _, hnext, rfl, rfl, rfl⟩
  · rename_i l p d hnext
    split_ifs at h with hfree
    cases h
    exact ⟨_, _, hnext, rfl, rfl, hfree, rfl⟩
  · rename_i l p d hnext
    cases h
    exact ⟨_, _, hnext, rfl, rfl, rfl⟩
  · rename_i t p d hnext
    split_ifs at h with hfin
    cases h
    exact ⟨_, _, hnext, rfl, rfl, hfin, rfl⟩

theorem Owned.of_acquire (hs : Owned holds s) {t : T} {p : P} {l : L}
    (hpc : s'.pc = Function.update s.pc t p)
    (howner : s'.owner = Function.update s.owner l (some t)) (hfree : s.owner l = none)
    (hp : ∀ l', holds t p l' ↔ l' = l ∨ holds t (s.pc t) l') : Owned holds s' := by
  intro l' u
  rw [hpc, howner]
  have hnot : ¬holds u (s.pc u) l := by
    rw [← hs, hfree]
    exact nofun
  by_cases hu : u = t
  · subst hu
    rw [Function.update_self, hp, ← hs]
    by_cases hl : l' = l
    · subst hl
      rw [Function.update_self]
      exact iff_of_true rfl (.inl rfl)
    · rw [Function.update_of_ne hl, or_iff_right hl]
  · rw [Function.update_of_ne hu, ← hs]
    by_cases hl : l' = l
    · subst hl
      rw [Function.update_self, hfree]
      exact iff_of_false (fun h => hu (Option.some.inj h).symm) nofun
    · rw [Function.update_of_ne hl]

theorem Owned.of_release (hs : Owned holds s) {t : T} {p : P} {l : L}
    (hpc : s'.pc = Function.update s.pc t p) (howner : s'.owner = Function.update s.owner l none)
    (hheld : holds t (s.pc t) l) (hp : ∀ l', holds t p l' ↔ l' ≠ l ∧ holds t (s.pc t) l') :
    Owned holds s' := by
  intro l' u
  rw [hpc, howner]
  by_cases hl : l' = l
  · subst hl
    rw [Function.update_self]
    refine iff_of_false nofun ?_
    by_cases hu : u = t
    · subst hu
      rw [Function.update_self, hp]
      exact fun h => h.1 rfl
    · rw [Function.update_of_ne hu, ← hs, (hs l' t).mpr hheld]
      exact fun h => hu (Option.some.inj h).symm
  · rw [Function.update_of_ne hl, hs]
    by_cases hu : u = t
    · subst hu
      rw [Function.update_self, hp, and_iff_right hl]
    · rw [Function.update_of_ne hu]

theorem Owned.step (hprog : prog.Scoped holds) (hs : Owned holds s) {a : T × O}
    (h : step prog s a = some s') : Owned holds s' := by
  obtain ⟨m, d, hnext, hpc, -, htakes⟩ := step_cases h
  have hm := hprog _ _ _ _ _ _ hnext
  cases m with
  | goto p => exact hs.of_same hpc htakes hm
  | acquire l p => exact hs.of_acquire hpc htakes.2 htakes.1 hm
  | release l p => exact hs.of_release hpc htakes hm.1 hm.2
  | join u p => exact hs.of_same hpc htakes.2 hm

end

end Locks
