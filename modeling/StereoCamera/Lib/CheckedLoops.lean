import Mathlib.Algebra.Order.Ring.Nat
import Mathlib.Data.List.MinMax

/-! Arrays whose bounds are checked, counting loops that may stop with an error, and the first
index at which a function is least. -/

structure OutOfBounds where
  deriving DecidableEq

namespace CheckedList

variable {α : Type*}

def read (xs : List α) (i : ℕ) : Except OutOfBounds α :=
  match xs[i]? with
  | none => .error ⟨⟩
  | some a => .ok a

def write (xs : List α) (i : ℕ) (a : α) : Except OutOfBounds (List α) :=
  if i < xs.length then .ok (xs.set i a) else .error ⟨⟩

theorem read_of_getElem? {xs : List α} {i : ℕ} {a : α} (h : xs[i]? = some a) :
    read xs i = .ok a := by
  unfold read
  rw [h]

theorem read_of_lt {xs : List α} {i : ℕ} (h : i < xs.length) : read xs i = .ok xs[i] :=
  read_of_getElem? (List.getElem?_eq_getElem h)

theorem read_of_le {xs : List α} {i : ℕ} (h : xs.length ≤ i) : read xs i = .error ⟨⟩ := by
  unfold read
  rw [List.getElem?_eq_none h]

theorem write_of_lt {xs : List α} {i : ℕ} (h : i < xs.length) (a : α) :
    write xs i a = .ok (xs.set i a) := if_pos h

end CheckedList

namespace CheckedLoop

section
variable {ε α β : Type} {x : Except ε α} {f : α → Except ε β}

theorem exists_of_bind_eq_ok {b : β} (h : (x >>= f) = .ok b) : ∃ a, x = .ok a ∧ f a = .ok b := by
  cases x with
  | error e => cases h
  | ok a => exact ⟨a, rfl, h⟩

theorem exists_of_map_eq_ok {g : α → β} {b : β} (h : x.map g = .ok b) :
    ∃ a, x = .ok a ∧ g a = b := by
  cases x with
  | error e => cases h
  | ok a => exact ⟨a, rfl, Except.ok.inj h⟩

theorem bind_ne_error {e : ε} (hx : x ≠ .error e) (hf : ∀ a, x = .ok a → f a ≠ .error e) :
    (x >>= f) ≠ .error e := by
  cases x with
  | error e' =>
    intro h
    cases h
    exact hx rfl
  | ok a => exact hf a rfl

end

variable {ε σ : Type*} {f : σ → ℕ → Except ε σ} {n : ℕ} {s t : σ}

theorem foldlM_range_ok (I : ℕ → σ → Prop) (hzero : I 0 s)
    (hturn : ∀ i < n, ∀ s, I i s → ∃ t, f s i = .ok t ∧ I (i + 1) t) :
    ∃ t, (List.range n).foldlM f s = .ok t ∧ I n t := by
  induction n with
  | zero => exact ⟨s, rfl, hzero⟩
  | succ n ih =>
    obtain ⟨t, hrun, ht⟩ := ih fun i hi => hturn i (hi.trans n.lt_succ_self)
    obtain ⟨u, hu, hI⟩ := hturn n n.lt_succ_self t ht
    refine ⟨u, ?_, hI⟩
    rw [List.range_succ, List.foldlM_append, hrun]
    change [n].foldlM f t = _
    rw [List.foldlM_cons, hu]
    rfl

theorem turn_of_foldlM_range (I : ℕ → σ → Prop) (hzero : I 0 s)
    (hkeep : ∀ i < n, ∀ s t, I i s → f s i = .ok t → I (i + 1) t)
    (hrun : (List.range n).foldlM f s = .ok t) :
    I n t ∧ ∀ i < n, ∃ s t, I i s ∧ f s i = .ok t := by
  induction n generalizing t with
  | zero =>
    cases hrun
    exact ⟨hzero, fun i hi => absurd hi i.not_lt_zero⟩
  | succ n ih =>
    rw [List.range_succ, List.foldlM_append] at hrun
    rcases hfirst : (List.range n).foldlM f s with e | r
    · rw [hfirst] at hrun
      cases hrun
    · obtain ⟨hr, hturns⟩ := ih (fun i hi => hkeep i (hi.trans n.lt_succ_self)) hfirst
      have hlast : f r n = .ok t := by
        rw [hfirst] at hrun
        change [n].foldlM f r = _ at hrun
        rw [List.foldlM_cons] at hrun
        rcases hf : f r n with e | u
        · rw [hf] at hrun
          cases hrun
        · rw [hf] at hrun
          exact hrun
      refine ⟨hkeep n n.lt_succ_self r t hr hlast, fun i hi => ?_⟩
      rcases Nat.lt_succ_iff_lt_or_eq.mp hi with hi | rfl
      · exact hturns i hi
      · exact ⟨r, t, hr, hlast⟩

section
variable {α β : Type*} {f : List β → α → Except ε (List β)}

theorem foldlM_append_ok {xs : List α} (g : α → List β)
    (hturn : ∀ a ∈ xs, ∀ acc, f acc a = .ok (acc ++ g a)) (acc : List β) :
    xs.foldlM f acc = .ok (acc ++ xs.flatMap g) := by
  induction xs generalizing acc with
  | nil =>
    rw [List.flatMap_nil, List.append_nil]
    rfl
  | cons a xs ih =>
    have hfirst : f acc a = .ok (acc ++ g a) := hturn a List.mem_cons_self acc
    have hrest := ih (fun b hb => hturn b (List.mem_cons_of_mem a hb)) (acc ++ g a)
    rw [List.foldlM_cons, hfirst, List.flatMap_cons, ← List.append_assoc]
    exact hrest

end

end CheckedLoop

namespace FirstMin

variable {β : Type*} [LinearOrder β] {f : ℕ → β} {n i : ℕ}

structure IsFirstMin (f : ℕ → β) (n i : ℕ) : Prop where
  lt : i < n
  le : ∀ j < n, f i ≤ f j
  first : ∀ j < i, f i < f j

theorem isFirstMin_iff : IsFirstMin f n i ↔ i ∈ (List.range n).argmin f := by
  have hidxOf : ∀ j < n, (List.range n).idxOf j = j := by
    intro j hj
    have h := List.nodup_range.idxOf_getElem j (hj.trans_eq List.length_range.symm)
    rwa [List.getElem_range] at h
  rw [List.mem_argmin_iff]
  constructor
  · intro h
    refine ⟨List.mem_range.mpr h.lt, fun j hj => h.le j (List.mem_range.mp hj), fun j hj hji => ?_⟩
    have hj : j < n := List.mem_range.mp hj
    rw [hidxOf i h.lt, hidxOf j hj]
    exact Nat.le_of_not_lt fun hlt => absurd (h.first j hlt) (not_lt_of_ge hji)
  · rintro ⟨hi, hle, hindex⟩
    have hi : i < n := List.mem_range.mp hi
    refine ⟨hi, fun j hj => hle j (List.mem_range.mpr hj), fun j hji => ?_⟩
    have hj : j < n := hji.trans hi
    by_contra hnot
    have hindex := hindex j (List.mem_range.mpr hj) (le_of_not_gt hnot)
    rw [hidxOf i hi, hidxOf j hj] at hindex
    exact absurd hji (Nat.not_lt.mpr hindex)

theorem IsFirstMin.unique {j : ℕ} (hi : IsFirstMin f n i) (hj : IsFirstMin f n j) : i = j :=
  Option.mem_unique (isFirstMin_iff.mp hi) (isFirstMin_iff.mp hj)

theorem IsFirstMin.succ (h : IsFirstMin f n i) :
    IsFirstMin f (n + 1) (if f n < f i then n else i) := by
  rw [isFirstMin_iff, Option.mem_def] at h ⊢
  rw [List.range_succ, List.argmin_concat, h]
  dsimp only
  split_ifs <;> rfl

theorem isFirstMin_one : IsFirstMin f 1 0 :=
  ⟨Nat.one_pos, fun _ hj => (Nat.lt_one_iff.mp hj) ▸ le_rfl, fun j hj => absurd hj j.not_lt_zero⟩

theorem IsFirstMin.of_strictMono {γ : Type*} [LinearOrder γ] {g : ℕ → γ} {φ : β → γ}
    (hφ : StrictMono φ) (hg : ∀ j < n, g j = φ (f j)) : IsFirstMin g n i ↔ IsFirstMin f n i := by
  constructor
  · intro h
    refine ⟨h.lt, fun j hj => ?_, fun j hji => ?_⟩
    · have hle := h.le j hj
      rw [hg i h.lt, hg j hj] at hle
      exact hφ.le_iff_le.mp hle
    · have hlt := h.first j hji
      rw [hg i h.lt, hg j (hji.trans h.lt)] at hlt
      exact hφ.lt_iff_lt.mp hlt
  · intro h
    refine ⟨h.lt, fun j hj => ?_, fun j hji => ?_⟩
    · rw [hg i h.lt, hg j hj]
      exact hφ.le_iff_le.mpr (h.le j hj)
    · rw [hg i h.lt, hg j (hji.trans h.lt)]
      exact hφ.lt_iff_lt.mpr (h.first j hji)

end FirstMin
