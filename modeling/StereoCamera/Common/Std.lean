import Mathlib.Algebra.Order.Ring.Nat
import StereoCamera.Common.Json
import StereoCamera.Lib.Throwing

/-! The functions of `std::string` that the servers cut requests with, and what they throw. -/

namespace StereoCamera

inductive StdException
  | lengthError
  | outOfRange
  | invalidArgument
  | json (e : JsonException)
  deriving DecidableEq

@[simp] theorem ok_bind {ε α β : Type} (a : α) (f : α → Except ε β) : (.ok a >>= f) = f a := rfl

section
variable {ε σ α β : Type}

/-! What a program that can throw, and whose state outlives the exception, does first. -/

theorem run_bind_of_ok {x : ExceptT ε (StateM σ) α} {s s' : σ} {a : α}
    (h : x.run.run s = (.ok a, s')) (f : α → ExceptT ε (StateM σ) β) :
    (x >>= f).run.run s = (f a).run.run s' := by
  rw [Throwing.run_bind, h]

theorem run_bind_of_error {x : ExceptT ε (StateM σ) α} {s s' : σ} {e : ε}
    (h : x.run.run s = (.error e, s')) (f : α → ExceptT ε (StateM σ) β) :
    (x >>= f).run.run s = (.error e, s') := by
  rw [Throwing.run_bind, h]

theorem run_liftM_ok_bind (a : α) (f : α → ExceptT ε (StateM σ) β) (s : σ) :
    ((liftM (.ok a : Except ε α) : ExceptT ε (StateM σ) α) >>= f).run.run s =
      (f a).run.run s := rfl

theorem run_modify_bind (g : σ → σ) (f : PUnit → ExceptT ε (StateM σ) β) (s : σ) :
    ((modify g : ExceptT ε (StateM σ) PUnit) >>= f).run.run s = (f ⟨⟩).run.run (g s) := rfl

theorem run_get_bind (f : σ → ExceptT ε (StateM σ) β) (s : σ) :
    ((get : ExceptT ε (StateM σ) σ) >>= f).run.run s = (f s).run.run s := rfl

end

namespace StdString

/-- `s.find(pat)`; `npos` is `none`. -/
def find (pat : Bytes) : Bytes → Option ℕ
  | [] => if pat.isEmpty then some 0 else none
  | b :: s => if pat.isPrefixOf (b :: s) then some 0 else (find pat s).map (· + 1)

def findFrom (pat s : Bytes) (pos : ℕ) : Option ℕ := (find pat (s.drop pos)).map (· + pos)

/-- `s.substr(pos, count)`, or `s.substr(pos)` without a count. -/
def substr (s : Bytes) (pos : ℕ) (count : Option ℕ) : Except StdException Bytes :=
  if s.length < pos then .error .outOfRange
  else .ok (match count with
    | none => s.drop pos
    | some count => (s.drop pos).take count)

def toLower (b : UInt8) : UInt8 := if 0x41 ≤ b ∧ b ≤ 0x5A then b + 0x20 else b

def isSpace (b : UInt8) : Bool := b = 0x20 ∨ 0x09 ≤ b ∧ b ≤ 0x0D

def isDigit (b : UInt8) : Bool := 0x30 ≤ b ∧ b ≤ 0x39

/-- Whether there is a minus sign, and the digits that a number starts with. -/
def leadingDigits (s : Bytes) : Bool × Bytes :=
  match s.dropWhile isSpace with
  | 0x2D :: s => (true, s.takeWhile isDigit)
  | 0x2B :: s => (false, s.takeWhile isDigit)
  | s => (false, s.takeWhile isDigit)

def decimal (digits : Bytes) : ℕ := digits.foldl (fun n d => 10 * n + (d.toNat - 0x30)) 0

/-- `std::stoul`; a minus sign negates the number modulo 2^64. -/
def stoul (s : Bytes) : Except StdException UInt64 :=
  let (minus, digits) := leadingDigits s
  if digits = [] then .error .invalidArgument
  else if 2 ^ 64 ≤ decimal digits then .error .outOfRange
  else .ok (if minus then -UInt64.ofNat (decimal digits) else UInt64.ofNat (decimal digits))

def Number (s : Bytes) : Prop := (leadingDigits s).2 ≠ [] ∧ decimal (leadingDigits s).2 < 2 ^ 64

theorem stoul_ok_iff {s : Bytes} : (∃ n, stoul s = .ok n) ↔ Number s := by
  unfold stoul Number
  rcases leadingDigits s with ⟨minus, digits⟩
  dsimp only
  split_ifs with hnil hbig
  · exact iff_of_false (by rintro ⟨n, hn⟩; cases hn) fun h => h.1 hnil
  · exact iff_of_false (by rintro ⟨n, hn⟩; cases hn) fun h => Nat.not_lt.mpr hbig h.2
  · exact iff_of_true ⟨_, rfl⟩ ⟨hnil, Nat.lt_of_not_ge hbig⟩
  · exact iff_of_true ⟨_, rfl⟩ ⟨hnil, Nat.lt_of_not_ge hbig⟩

theorem find_of_isPrefixOf {pat s : Bytes} (h : pat.isPrefixOf s = true) : find pat s = some 0 := by
  cases s with
  | nil =>
    rw [List.isPrefixOf_iff_prefix, List.prefix_nil] at h
    subst h
    rfl
  | cons b s => rw [find, if_pos h]

theorem find_le {pat s : Bytes} {i : ℕ} (h : find pat s = some i) : i + pat.length ≤ s.length := by
  induction s generalizing i with
  | nil =>
    unfold find at h
    split_ifs at h with hpat
    cases h
    rw [List.isEmpty_iff.mp hpat]
    exact Nat.le_refl 0
  | cons b s ih =>
    unfold find at h
    split_ifs at h with hpat
    · cases h
      rw [Nat.zero_add]
      exact (List.isPrefixOf_iff_prefix.mp hpat).length_le
    · obtain ⟨j, hj, rfl⟩ := Option.map_eq_some_iff.mp h
      have := ih hj
      rw [List.length_cons]
      omega

theorem isPrefix_of_find {pat s : Bytes} {i : ℕ} (h : find pat s = some i) : pat <+: s.drop i := by
  induction s generalizing i with
  | nil =>
    unfold find at h
    split_ifs at h with hpat
    rw [List.isEmpty_iff.mp hpat]
    exact List.nil_prefix
  | cons b s ih =>
    unfold find at h
    split_ifs at h with hpat
    · cases h
      exact List.isPrefixOf_iff_prefix.mp hpat
    · obtain ⟨j, hj, rfl⟩ := Option.map_eq_some_iff.mp h
      exact ih hj

theorem findFrom_le {pat s : Bytes} {pos i : ℕ} (h : findFrom pat s pos = some i)
    (hpat : pat ≠ []) : pos ≤ i ∧ i + pat.length ≤ s.length := by
  obtain ⟨j, hj, rfl⟩ := Option.map_eq_some_iff.mp h
  have hlen := find_le hj
  have hpos : 0 < pat.length := List.length_pos_iff.mpr hpat
  rw [List.length_drop] at hlen
  omega

theorem find_append {pat s more : Bytes} {i : ℕ} (h : find pat s = some i) :
    find pat (s ++ more) = some i := by
  induction s generalizing i with
  | nil =>
    unfold find at h
    split_ifs at h with hpat
    cases h
    rw [List.isEmpty_iff.mp hpat]
    exact find_of_isPrefixOf List.isPrefixOf_nil_left
  | cons b s ih =>
    unfold find at h
    split_ifs at h with hpat
    · cases h
      refine find_of_isPrefixOf ?_
      rw [List.isPrefixOf_iff_prefix] at hpat ⊢
      exact hpat.trans (List.prefix_append _ _)
    · obtain ⟨j, hj, rfl⟩ := Option.map_eq_some_iff.mp h
      have hnot : ¬pat.isPrefixOf (b :: (s ++ more)) = true := by
        intro hmore
        refine hpat ?_
        rw [List.isPrefixOf_iff_prefix] at hmore ⊢
        refine List.prefix_of_prefix_length_le hmore (List.prefix_append (b :: s) more) ?_
        have := find_le hj
        rw [List.length_cons]
        omega
      rw [List.cons_append, find, if_neg hnot, ih hj]
      rfl

theorem find_append_of_not_mem {c : UInt8} {pat before s : Bytes} (h : c ∉ before) :
    find (c :: pat) (before ++ s) = (find (c :: pat) s).map (· + before.length) := by
  -- An occurrence starts with the first byte of the pattern.
  induction before with
  | nil => exact Option.map_id'.symm
  | cons b before ih =>
    obtain ⟨hb, hbefore⟩ := not_or.mp (mt List.mem_cons.mpr h)
    have hnot : ¬(c :: pat).isPrefixOf (b :: (before ++ s)) = true := by
      rw [List.isPrefixOf_iff_prefix, List.cons_prefix_cons]
      exact fun hpre => hb hpre.1
    rw [List.cons_append, find, if_neg hnot, ih hbefore, Option.map_map]
    rfl

theorem find_append_cons {c : UInt8} {pat : Bytes} (hpat : pat ≠ []) (hc : c ∉ pat)
    (before s : Bytes) :
    find pat (before ++ c :: s) =
      (find pat before).or ((find pat s).map (· + (before.length + 1))) := by
  -- No occurrence goes across a byte that is not in the pattern.
  induction before with
  | nil =>
    obtain ⟨b, pat, rfl⟩ := List.exists_cons_of_ne_nil hpat
    have hnot : ¬(b :: pat).isPrefixOf (c :: s) = true := by
      rw [List.isPrefixOf_iff_prefix, List.cons_prefix_cons]
      exact fun hpre => hc (hpre.1 ▸ List.mem_cons_self)
    have hnil : find (b :: pat) [] = none := rfl
    rw [List.nil_append, hnil, Option.none_or, find.eq_2, if_neg hnot]
    rfl
  | cons b before ih =>
    have hiff : pat.isPrefixOf (b :: (before ++ c :: s)) = pat.isPrefixOf (b :: before) := by
      rw [Bool.eq_iff_iff, List.isPrefixOf_iff_prefix, List.isPrefixOf_iff_prefix]
      constructor
      · intro hpre
        rcases List.prefix_or_prefix_of_prefix hpre
          (List.prefix_append (b :: before) (c :: s)) with h | h
        · exact h
        · obtain ⟨rest, rfl⟩ := h
          rw [← List.cons_append, List.prefix_append_right_inj] at hpre
          cases rest with
          | nil => exact List.append_nil _ ▸ List.prefix_refl _
          | cons d rest =>
            rw [(List.cons_prefix_cons.mp hpre).1] at hc
            exact absurd (by simp) hc
      · exact fun hpre => hpre.trans (List.prefix_append (b :: before) (c :: s))
    rw [List.cons_append, find.eq_2, find.eq_2, hiff, ih]
    split_ifs
    · rfl
    · cases find pat before with
      | some i => rfl
      | none =>
        rw [Option.none_or, Option.map_none, Option.none_or, Option.map_map]
        rfl

theorem substr_of_le {s : Bytes} {pos : ℕ} (h : pos ≤ s.length) (count : Option ℕ) :
    ∃ t, substr s pos count = .ok t := ⟨_, if_neg (Nat.not_lt.mpr h)⟩

end StdString

end StereoCamera
