import Mathlib.Algebra.Order.Ring.Nat

/-! Reading and writing through calls that move only a part of what they are asked for.
`sizes k` is the most that the `k`-th call moves; a call that moves nothing has failed. -/

namespace PartialIO

structure Source (α : Type*) where
  data : List α
  sizes : ℕ → ℕ

structure Sink (α : Type*) where
  written : List α
  sizes : ℕ → ℕ

/-- A stream that once had less than it was asked for has failed, and gives nothing more. -/
structure InputStream (α : Type*) where
  rest : List α
  good : Bool

variable {α : Type*}

namespace Source

/-- Every call moves something, as long as there is anything left. -/
def Positive (s : Source α) : Prop := ∀ k, 0 < s.sizes k

def read (s : Source α) (n : ℕ) : Option (List α × Source α) :=
  let k := min n (min (s.sizes 0) s.data.length)
  if k = 0 then none else some (s.data.take k, ⟨s.data.drop k, fun i => s.sizes (i + 1)⟩)

theorem read_eq_some {s t : Source α} {n : ℕ} {got : List α} (h : s.read n = some (got, t)) :
    ∃ k, 0 < k ∧ k ≤ n ∧ k ≤ s.data.length ∧ got = s.data.take k ∧
      t = ⟨s.data.drop k, fun i => s.sizes (i + 1)⟩ := by
  unfold read at h
  dsimp only at h
  split_ifs at h with hk
  obtain ⟨rfl, rfl⟩ := Prod.mk.inj (Option.some.inj h)
  exact ⟨_, Nat.pos_of_ne_zero hk, min_le_left _ _,
    (min_le_right _ _).trans (min_le_right _ _), rfl, rfl⟩

theorem length_of_read {s t : Source α} {n : ℕ} {got : List α} (h : s.read n = some (got, t)) :
    0 < got.length ∧ got.length ≤ n := by
  obtain ⟨k, hpos, hn, hlen, rfl, -⟩ := read_eq_some h
  rw [List.length_take_of_le hlen]
  exact ⟨hpos, hn⟩

theorem exists_read {s : Source α} (hs : s.Positive) {n : ℕ} (hn : 0 < n)
    (hdata : 0 < s.data.length) : ∃ got t, s.read n = some (got, t) := by
  unfold read
  have hk : min n (min (s.sizes 0) s.data.length) ≠ 0 :=
    (lt_min hn (lt_min (hs 0) hdata)).ne'
  exact ⟨_, _, if_neg hk⟩

def readLoop (limit n : ℕ) (s : Source α) : Option (List α × Source α) :=
  if n = 0 then some ([], s)
  else
    match _h : s.read (min limit n) with
    | none => none
    | some (got, t) => (readLoop limit (n - got.length) t).map fun r => (got ++ r.1, r.2)
termination_by n
decreasing_by
  have := length_of_read _h
  omega

theorem readLoop_zero (limit : ℕ) (s : Source α) : readLoop limit 0 s = some ([], s) := by
  rw [readLoop, if_pos rfl]

theorem readLoop_of_read {limit n : ℕ} {s t : Source α} {got : List α} (hn : n ≠ 0)
    (h : s.read (min limit n) = some (got, t)) :
    readLoop limit n s =
      (readLoop limit (n - got.length) t).map fun r => (got ++ r.1, r.2) := by
  rw [readLoop, if_neg hn]
  split
  · rename_i hnone
    cases hnone.symm.trans h
  · rename_i got' t' hsome
    obtain ⟨rfl, rfl⟩ := Prod.mk.inj (Option.some.inj (hsome.symm.trans h))
    rfl

theorem readLoop_of_read_none {limit n : ℕ} {s : Source α} (hn : n ≠ 0)
    (h : s.read (min limit n) = none) : readLoop limit n s = none := by
  rw [readLoop, if_neg hn]
  split
  · rfl
  · rename_i got t hsome
    cases h.symm.trans hsome

theorem readLoop_eq_some {limit n : ℕ} {s t : Source α} {got : List α}
    (h : readLoop limit n s = some (got, t)) :
    n ≤ s.data.length ∧ got = s.data.take n ∧ t.data = s.data.drop n := by
  induction n using Nat.strong_induction_on generalizing s got with
  | _ n ih =>
    by_cases hn : n = 0
    · subst hn
      rw [readLoop_zero] at h
      obtain ⟨rfl, rfl⟩ := Prod.mk.inj (Option.some.inj h)
      exact ⟨Nat.zero_le _, rfl, rfl⟩
    · rcases hread : s.read (min limit n) with _ | ⟨first, s'⟩
      · cases (readLoop_of_read_none hn hread).symm.trans h
      · rw [readLoop_of_read hn hread, Option.map_eq_some_iff] at h
        obtain ⟨⟨rest, t'⟩, hrest, heq⟩ := h
        obtain ⟨rfl, rfl⟩ := Prod.mk.inj heq
        obtain ⟨k, hk, hkn, hlen, rfl, rfl⟩ := read_eq_some hread
        rw [List.length_take_of_le hlen] at hrest
        obtain ⟨hlen', rfl, hdata⟩ := ih (n - k) (by omega) hrest
        have hkn' : k ≤ n := hkn.trans (min_le_right _ _)
        rw [List.length_drop] at hlen'
        refine ⟨by omega, ?_, ?_⟩
        · rw [← List.take_add, Nat.add_sub_cancel' hkn']
        · rw [hdata, List.drop_drop, Nat.add_sub_cancel' hkn']

theorem exists_readLoop {limit n : ℕ} {s : Source α} (hlimit : 0 < limit) (hs : s.Positive)
    (hn : n ≤ s.data.length) :
    ∃ t, readLoop limit n s = some (s.data.take n, t) ∧ t.Positive := by
  induction n using Nat.strong_induction_on generalizing s with
  | _ n ih =>
    rcases Nat.eq_zero_or_pos n with rfl | hpos
    · exact ⟨s, readLoop_zero limit s, hs⟩
    · obtain ⟨got, s', hread⟩ := exists_read hs (lt_min hlimit hpos) (hpos.trans_le hn)
      obtain ⟨hgot, hgotn⟩ := length_of_read hread
      obtain ⟨k, hk, hkn, hlen, rfl, rfl⟩ := read_eq_some hread
      rw [List.length_take_of_le hlen] at hgot hgotn
      have hkn' : k ≤ n := hkn.trans (min_le_right _ _)
      obtain ⟨t, ht, htpos⟩ := ih (n - k) (by omega)
        (s := ⟨s.data.drop k, fun i => s.sizes (i + 1)⟩) (fun i => hs (i + 1))
        (by rw [List.length_drop]; omega)
      refine ⟨t, ?_, htpos⟩
      rw [readLoop_of_read hpos.ne' hread, List.length_take_of_le hlen, ht, Option.map_some,
        ← List.take_add, Nat.add_sub_cancel' hkn']

end Source

abbrev Reader (α β : Type) := StateT (Source α) Option β

abbrev Parser (α β : Type) := StateT (List α) Option β

theorem Parser.run_bind_of_eq {α β γ : Type} {parser : Parser α β} {xs rest : List α} {x : β}
    (h : parser.run xs = some (x, rest)) (parser' : β → Parser α γ) :
    (parser >>= parser').run xs = (parser' x).run rest := by
  rw [StateT.run_bind, h]
  rfl

def splitAt? {α : Type} (n : ℕ) : Parser α (List α) :=
  fun xs => if n ≤ xs.length then some (xs.take n, xs.drop n) else none

theorem run_splitAt? {α : Type} (n : ℕ) (xs : List α) :
    (splitAt? n).run xs = if n ≤ xs.length then some (xs.take n, xs.drop n) else none := rfl

theorem run_splitAt?_append {α : Type} {xs : List α} (ys : List α) {n : ℕ} (h : xs.length = n) :
    (splitAt? n).run (xs ++ ys) = some (xs, ys) := by
  subst h
  rw [run_splitAt?, if_pos (by rw [List.length_append]; exact Nat.le_add_right _ _),
    List.take_left, List.drop_left]

/-- What is parsed depends on a beginning of the data only, and the rest is left as it is. -/
def Parser.Prefixed {α β : Type} (parser : Parser α β) : Prop :=
  ∀ xs x rest, parser.run xs = some (x, rest) →
    ∃ used, xs = used ++ rest ∧ ∀ more, parser.run (used ++ more) = some (x, more)

namespace Parser.Prefixed
variable {α β γ : Type}

theorem pure (x : β) : Prefixed (Pure.pure x : Parser α β) := by
  rintro xs _ _ ⟨⟩
  exact ⟨[], rfl, fun more => rfl⟩

theorem split (n : ℕ) : Prefixed (splitAt? n : Parser α (List α)) := by
  intro xs got rest h
  rw [run_splitAt?] at h
  split_ifs at h with hn
  cases h
  exact ⟨xs.take n, (List.take_append_drop n xs).symm,
    fun more => run_splitAt?_append more (List.length_take_of_le hn)⟩

theorem bind {parser : Parser α β} (h : Prefixed parser) {parser' : β → Parser α γ}
    (h' : ∀ x, Prefixed (parser' x)) : Prefixed (parser >>= parser') := by
  intro xs y rest hy
  rw [StateT.run_bind, Option.bind_eq_bind, Option.bind_eq_some_iff] at hy
  obtain ⟨⟨x, mid⟩, hx, hy⟩ := hy
  obtain ⟨used, rfl, hused⟩ := h xs x mid hx
  obtain ⟨used', rfl, hused'⟩ := h' x mid y rest hy
  refine ⟨used ++ used', (List.append_assoc _ _ _).symm, fun more => ?_⟩
  rw [List.append_assoc, run_bind_of_eq (hused _)]
  exact hused' more

end Parser.Prefixed

/-- The reader computes the parser: what it returns is what the parser says of the data, and
it does return when no call fails. -/
structure Computes {α β : Type} (reader : Reader α β) (parser : Parser α β) : Prop where
  sound : ∀ s x t, reader.run s = some (x, t) → parser.run s.data = some (x, t.data)
  complete : ∀ s x rest, s.Positive → parser.run s.data = some (x, rest) →
    ∃ t, reader.run s = some (x, t) ∧ t.data = rest ∧ t.Positive

namespace Computes
variable {α β γ : Type}

theorem readLoop {limit : ℕ} (hlimit : 0 < limit) (n : ℕ) :
    Computes (Source.readLoop limit n : Reader α (List α)) (splitAt? n) where
  sound := by
    intro s got t h
    obtain ⟨hn, rfl, hdata⟩ := Source.readLoop_eq_some h
    rw [run_splitAt?, if_pos hn, hdata]
  complete := by
    intro s got rest hs h
    rw [run_splitAt?] at h
    split_ifs at h with hn
    obtain ⟨rfl, rfl⟩ := Prod.mk.inj (Option.some.inj h)
    obtain ⟨t, ht, hpos⟩ := Source.exists_readLoop hlimit hs hn
    exact ⟨t, ht, (Source.readLoop_eq_some ht).2.2, hpos⟩

theorem pure (x : β) : Computes (Pure.pure x : Reader α β) (Pure.pure x) where
  sound := by
    rintro s _ _ ⟨⟩
    rfl
  complete := by
    rintro s _ _ hs ⟨⟩
    exact ⟨s, rfl, rfl, hs⟩

theorem bind {reader : Reader α β} {parser : Parser α β} (h : Computes reader parser)
    {reader' : β → Reader α γ} {parser' : β → Parser α γ}
    (h' : ∀ x, Computes (reader' x) (parser' x)) :
    Computes (reader >>= reader') (parser >>= parser') where
  sound := by
    intro s y u hy
    rw [StateT.run_bind, Option.bind_eq_bind, Option.bind_eq_some_iff] at hy ⊢
    obtain ⟨⟨x, t⟩, hx, hy⟩ := hy
    exact ⟨(x, t.data), h.sound s x t hx, (h' x).sound t y u hy⟩
  complete := by
    intro s y rest hs hy
    rw [StateT.run_bind, Option.bind_eq_bind, Option.bind_eq_some_iff] at hy
    obtain ⟨⟨x, mid⟩, hx, hy⟩ := hy
    obtain ⟨t, ht, rfl, htpos⟩ := h.complete s x mid hs hx
    obtain ⟨u, hu, hrest, hupos⟩ := (h' x).complete t y rest htpos hy
    refine ⟨u, ?_, hrest, hupos⟩
    rw [StateT.run_bind, Option.bind_eq_bind, ht]
    exact hu

end Computes

namespace Sink

def Positive (s : Sink α) : Prop := ∀ k, 0 < s.sizes k

def write (s : Sink α) (xs : List α) : Option (ℕ × Sink α) :=
  let k := min (s.sizes 0) xs.length
  if k = 0 then none else some (k, ⟨s.written ++ xs.take k, fun i => s.sizes (i + 1)⟩)

theorem write_eq_some {s t : Sink α} {xs : List α} {k : ℕ} (h : s.write xs = some (k, t)) :
    0 < k ∧ k ≤ xs.length ∧ t = ⟨s.written ++ xs.take k, fun i => s.sizes (i + 1)⟩ := by
  unfold write at h
  dsimp only at h
  split_ifs at h with hk
  obtain ⟨rfl, rfl⟩ := Prod.mk.inj (Option.some.inj h)
  exact ⟨Nat.pos_of_ne_zero hk, min_le_right _ _, rfl⟩

/-- Calls `write` with at most `limit` elements at a time until all are taken; whether they
all were. -/
def writeLoop (limit : ℕ) (xs : List α) (s : Sink α) : Bool × Sink α :=
  if xs = [] then (true, s)
  else
    match _h : s.write (xs.take limit) with
    | none => (false, s)
    | some (k, t) => writeLoop limit (xs.drop k) t
termination_by xs.length
decreasing_by
  obtain ⟨hk, hkl, -⟩ := write_eq_some _h
  rw [List.length_take] at hkl
  rw [List.length_drop]
  omega

theorem writeLoop_eq {limit : ℕ} (hlimit : 0 < limit) {s : Sink α} (hs : s.Positive)
    (xs : List α) :
    ∃ t, writeLoop limit xs s = (true, t) ∧ t.written = s.written ++ xs ∧ t.Positive := by
  induction hlen : xs.length using Nat.strong_induction_on generalizing s xs with
  | _ n ih =>
    by_cases hnil : xs = []
    · subst hnil
      exact ⟨s, by rw [writeLoop, if_pos rfl], (List.append_nil _).symm, hs⟩
    · rw [writeLoop, if_neg hnil]
      split
      · rename_i hnone
        have hpos : 0 < min (s.sizes 0) (xs.take limit).length := by
          rw [List.length_take]
          exact lt_min (hs 0) (lt_min hlimit (List.length_pos_iff.mpr hnil))
        rw [write, if_neg hpos.ne'] at hnone
        cases hnone
      · rename_i k t' hsome
        obtain ⟨hk, hkl, rfl⟩ := write_eq_some hsome
        rw [List.length_take] at hkl
        have htake : (xs.take limit).take k = xs.take k := by
          rw [List.take_take, min_eq_left (hkl.trans (min_le_left _ _))]
        obtain ⟨t, ht, hwritten, hpos⟩ := ih (xs.drop k).length
          (by rw [List.length_drop]; omega)
          (s := ⟨s.written ++ (xs.take limit).take k, fun i => s.sizes (i + 1)⟩)
          (fun i => hs (i + 1)) (xs.drop k) rfl
        refine ⟨t, ht, ?_, hpos⟩
        rw [hwritten, htake, List.append_assoc, List.take_append_drop]

end Sink

namespace InputStream

def opened (xs : List α) : InputStream α := ⟨xs, true⟩

def read : InputStream α → ℕ → List α × InputStream α
  | ⟨rest, false⟩, _ => ([], ⟨rest, false⟩)
  | ⟨rest, true⟩, n =>
    if n ≤ rest.length then (rest.take n, ⟨rest.drop n, true⟩) else (rest, ⟨[], false⟩)

def left : InputStream α → List α
  | ⟨_, false⟩ => []
  | ⟨rest, true⟩ => rest

@[simp] theorem left_opened (xs : List α) : (opened xs).left = xs := rfl

@[simp] theorem read_fst (s : InputStream α) (n : ℕ) : (s.read n).1 = s.left.take n := by
  obtain ⟨rest, good⟩ := s
  cases good with
  | false => exact List.take_nil.symm
  | true =>
    unfold read left
    dsimp only
    split_ifs with hn
    · rfl
    · exact (List.take_of_length_le (Nat.le_of_not_le hn)).symm

@[simp] theorem left_read (s : InputStream α) (n : ℕ) : (s.read n).2.left = s.left.drop n := by
  obtain ⟨rest, good⟩ := s
  cases good with
  | false => exact List.drop_nil.symm
  | true =>
    unfold read
    dsimp only
    split_ifs with hn
    · rfl
    · exact (List.drop_of_length_le (Nat.le_of_not_le hn)).symm

end InputStream

def overwrite (buf got : List α) : List α := got ++ buf.drop got.length

theorem length_overwrite {buf got : List α} (h : got.length ≤ buf.length) :
    (overwrite buf got).length = buf.length := by
  unfold overwrite
  rw [List.length_append, List.length_drop]
  omega

theorem overwrite_of_length_le {buf got : List α} (h : buf.length ≤ got.length) :
    overwrite buf got = got := by
  unfold overwrite
  rw [List.drop_of_length_le h, List.append_nil]

end PartialIO
