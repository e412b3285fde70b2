import Mathlib.Data.List.DropRight
import StereoCamera.Common.Std

/-! The head of an HTTP/1.1 request, as it is meant to be: a request line, the lines of the
header fields and an empty line. Below it, where searches in a head end up. -/

namespace StereoCamera.Http
open StdString

def crlf : Bytes := [0x0D, 0x0A]

def isTokenByte (b : UInt8) : Bool :=
  isDigit b ∨ 0x41 ≤ b ∧ b ≤ 0x5A ∨ 0x61 ≤ b ∧ b ≤ 0x7A ∨ b ∈ bytes "!#$%&'*+-.^_|~" ∨ b = 0x60

def isVisible (b : UInt8) : Bool := 0x21 ≤ b ∧ b ≤ 0x7E

def isFieldByte (b : UInt8) : Bool := b = 0x09 ∨ 0x20 ≤ b ∧ b ≠ 0x7F

def isBlank (b : UInt8) : Bool := b = 0x20 ∨ b = 0x09

/-- `text` is all that stands behind the colon. -/
structure Field where
  name : Bytes
  text : Bytes
  deriving DecidableEq

namespace Field

def line (f : Field) : Bytes := f.name ++ 0x3A :: f.text

def value (f : Field) : Bytes := (f.text.dropWhile isBlank).rdropWhile isBlank

/-- The field has that name, which is in lower case; the case of its own letters is free. -/
def Named (f : Field) (name : String) : Prop := f.name.map toLower = bytes name

instance (f : Field) (name : String) : Decidable (f.Named name) :=
  inferInstanceAs (Decidable (_ = _))

structure WellFormed (f : Field) : Prop where
  name_ne : f.name ≠ []
  name : ∀ b ∈ f.name, isTokenByte b
  text : ∀ b ∈ f.text, isFieldByte b

instance (f : Field) : Decidable f.WellFormed :=
  decidable_of_iff (f.name ≠ [] ∧ f.name.all isTokenByte ∧ f.text.all isFieldByte)
    ⟨fun h => ⟨h.1, List.all_eq_true.mp h.2.1, List.all_eq_true.mp h.2.2⟩,
      fun h => ⟨h.name_ne, List.all_eq_true.mpr h.name, List.all_eq_true.mpr h.text⟩⟩

end Field

structure Head where
  method : Bytes
  target : Bytes
  fields : List Field
  deriving DecidableEq

def joinLines (line : Bytes) (lines : List Bytes) : Bytes := line ++ lines.flatMap (crlf ++ ·)

namespace Head

def requestLine (r : Head) : Bytes :=
  r.method ++ 0x20 :: (r.target ++ 0x20 :: bytes "HTTP/1.1")

def lines (r : Head) : List Bytes := r.requestLine :: r.fields.map Field.line

def block (r : Head) : Bytes := joinLines r.requestLine (r.fields.map Field.line)

def render (r : Head) : Bytes := r.block ++ (crlf ++ crlf)

structure WellFormed (r : Head) : Prop where
  method_ne : r.method ≠ []
  method : ∀ b ∈ r.method, isTokenByte b
  target_ne : r.target ≠ []
  target : ∀ b ∈ r.target, isVisible b
  fields : ∀ f ∈ r.fields, f.WellFormed

instance (r : Head) : Decidable r.WellFormed :=
  decidable_of_iff (r.method ≠ [] ∧ r.method.all isTokenByte ∧ r.target ≠ [] ∧
      r.target.all isVisible ∧ ∀ f ∈ r.fields, f.WellFormed)
    ⟨fun h => ⟨h.1, List.all_eq_true.mp h.2.1, h.2.2.1, List.all_eq_true.mp h.2.2.2.1, h.2.2.2.2⟩,
      fun h => ⟨h.method_ne, List.all_eq_true.mpr h.method, h.target_ne,
        List.all_eq_true.mpr h.target, h.fields⟩⟩

end Head

theorem joinLines_nil (line : Bytes) : joinLines line [] = line := List.append_nil line

theorem joinLines_cons (line next : Bytes) (lines : List Bytes) :
    joinLines line (next :: lines) = line ++ 0x0D :: 0x0A :: joinLines next lines := rfl

theorem find_end {line : Bytes} {lines : List Bytes} (hline : 0x0D ∉ line)
    (hlines : ∀ l ∈ lines, l ≠ [] ∧ 0x0D ∉ l) (rest : Bytes) :
    find (crlf ++ crlf) (joinLines line lines ++ ((crlf ++ crlf) ++ rest)) =
      some (joinLines line lines).length := by
  induction lines generalizing line with
  | nil =>
    rw [joinLines_nil]
    have hfound : find (crlf ++ crlf) ((crlf ++ crlf) ++ rest) = some 0 :=
      find_of_isPrefixOf (List.isPrefixOf_iff_prefix.mpr (List.prefix_append _ rest))
    refine (find_append_of_not_mem hline).trans ?_
    refine (congrArg _ hfound).trans ?_
    exact congrArg some (Nat.zero_add _)
  | cons next lines ih =>
    obtain ⟨⟨hne, hnext⟩, hrest⟩ := List.forall_mem_cons.mp hlines
    rw [joinLines_cons, List.append_assoc]
    refine (find_append_of_not_mem hline).trans ?_
    obtain ⟨b, next', rfl⟩ := List.exists_cons_of_ne_nil hne
    have hb : (0x0D : UInt8) ≠ b := fun h => hnext (h ▸ List.mem_cons_self)
    have hfirst : ¬(crlf ++ crlf).isPrefixOf (0x0D :: 0x0A ::
        (joinLines (b :: next') lines ++ ((crlf ++ crlf) ++ rest))) = true := by
      rw [List.isPrefixOf_iff_prefix]
      intro hpre
      exact hb (List.cons_prefix_cons.mp
        (List.cons_prefix_cons.mp (List.cons_prefix_cons.mp hpre).2).2).1
    have hsecond : ¬(crlf ++ crlf).isPrefixOf (0x0A ::
        (joinLines (b :: next') lines ++ ((crlf ++ crlf) ++ rest))) = true := by
      rw [List.isPrefixOf_iff_prefix]
      intro hpre
      exact absurd (List.cons_prefix_cons.mp hpre).1 (by decide)
    show Option.map _ (find (crlf ++ crlf) (0x0D :: 0x0A ::
      (joinLines (b :: next') lines ++ ((crlf ++ crlf) ++ rest)))) = _
    rw [find.eq_2, if_neg hfirst, find.eq_2, if_neg hsecond, ih hnext hrest]
    simp only [Option.map_some, Option.some.injEq, List.length_append, List.length_cons]
    omega

/-- What stands behind the first occurrence of a text, up to the end of its line. -/
def behindFirst (pat : Bytes) (lines : List Bytes) : Option Bytes :=
  lines.findSome? fun line => (find pat line).map fun i => line.drop (i + pat.length)

def upToCrlf (s : Bytes) : Bytes :=
  match find crlf s with
  | none => s
  | some k => s.take k

theorem upToCrlf_append {line : Bytes} (hline : 0x0D ∉ line) (rest : Bytes) :
    upToCrlf (line ++ 0x0D :: 0x0A :: rest) = line := by
  have hcrlf : find crlf (0x0D :: 0x0A :: rest) = some 0 :=
    find_of_isPrefixOf (List.isPrefixOf_iff_prefix.mpr (List.prefix_append crlf rest))
  have hfind : find crlf (line ++ 0x0D :: 0x0A :: rest) = some line.length := by
    refine (find_append_of_not_mem hline).trans ?_
    refine (congrArg _ hcrlf).trans ?_
    exact congrArg some (Nat.zero_add _)
  unfold upToCrlf
  rw [hfind]
  exact List.take_left

theorem upToCrlf_of_not_mem {line : Bytes} (hline : 0x0D ∉ line) : upToCrlf line = line := by
  have hfind : find crlf line = none := by
    have h := @find_append_of_not_mem _ [0x0A] line [] hline
    rw [List.append_nil] at h
    exact h
  unfold upToCrlf
  rw [hfind]

theorem upToCrlf_eq_iff {line s : Bytes} (hline : 0x0D ∉ line) :
    upToCrlf s = line ↔ ∃ after, s = line ++ after ∧ (after = [] ∨ crlf <+: after) := by
  constructor
  · intro h
    unfold upToCrlf at h
    rcases hfind : find crlf s with _ | k
    · rw [hfind] at h
      exact ⟨[], by rw [List.append_nil, ← h], .inl rfl⟩
    · rw [hfind] at h
      exact ⟨s.drop k, by rw [← h, List.take_append_drop], .inr (isPrefix_of_find hfind)⟩
  · rintro ⟨after, rfl, rfl | ⟨rest, rfl⟩⟩
    · rw [List.append_nil]
      exact upToCrlf_of_not_mem hline
    · exact upToCrlf_append hline rest

theorem find_joinLines {pat : Bytes} (hne : pat ≠ []) (hcr : 0x0D ∉ pat) (hlf : 0x0A ∉ pat)
    {line : Bytes} {lines : List Bytes} (hlines : ∀ l ∈ line :: lines, 0x0D ∉ l) :
    (find pat (joinLines line lines)).map
        (fun i => upToCrlf ((joinLines line lines).drop (i + pat.length))) =
      behindFirst pat (line :: lines) := by
  induction lines generalizing line with
  | nil =>
    have hline : 0x0D ∉ line := hlines line List.mem_cons_self
    rw [joinLines_nil, behindFirst, List.findSome?_cons]
    cases hfind : find pat line with
    | none => rfl
    | some i => exact congrArg some (upToCrlf_of_not_mem fun h => hline (List.mem_of_mem_drop h))
  | cons next lines ih =>
    obtain ⟨hline, hrest⟩ := List.forall_mem_cons.mp hlines
    have hnext : find pat (0x0A :: joinLines next lines) =
        (find pat (joinLines next lines)).map (· + 1) := by
      have hnil : find pat [] = none := by
        rw [find, if_neg (by rwa [List.isEmpty_iff])]
      have h := find_append_cons hne hlf [] (joinLines next lines)
      rw [hnil] at h
      exact h
    rw [joinLines_cons, find_append_cons hne hcr, hnext, behindFirst, List.findSome?_cons]
    cases hfind : find pat line with
    | some i =>
      have hle := find_le hfind
      rw [Option.some_or, Option.map_some, Option.map_some, List.drop_append_of_le_length hle]
      exact congrArg some (upToCrlf_append (fun h => hline (List.mem_of_mem_drop h)) _)
    | none =>
      rw [Option.none_or, Option.map_map, Option.map_map, Option.map_none]
      refine Eq.trans (congrArg (fun f => Option.map f _) ?_) (ih hrest)
      funext i
      have hdrop : i + 1 + (line.length + 1) + pat.length =
          line.length + (i + pat.length + 2) := by omega
      show upToCrlf (List.drop (i + 1 + (line.length + 1) + pat.length)
        (line ++ 0x0D :: 0x0A :: joinLines next lines)) = _
      rw [hdrop, List.drop_length_add_append]
      rfl

namespace Field

variable {f : Field}

theorem line_ne (f : Field) : f.line ≠ [] := by
  unfold line
  simp

theorem WellFormed.cr_not_mem_text (h : f.WellFormed) : 0x0D ∉ f.text :=
  fun hmem => absurd (h.text _ hmem) (by decide)

theorem WellFormed.cr_not_mem_value (h : f.WellFormed) : 0x0D ∉ f.value := fun hmem =>
  h.cr_not_mem_text ((List.dropWhile_suffix _).subset ((List.rdropWhile_prefix _ _).subset hmem))

theorem WellFormed.cr_not_mem (h : f.WellFormed) : 0x0D ∉ f.line := by
  unfold line
  rw [List.mem_append, List.mem_cons]
  rintro (hname | hcolon | htext)
  · exact absurd (h.name _ hname) (by decide)
  · exact absurd hcolon (by decide)
  · exact h.cr_not_mem_text htext

end Field

namespace Head

variable {r : Head}

theorem WellFormed.requestLine_cr (h : r.WellFormed) : 0x0D ∉ r.requestLine := by
  unfold requestLine
  simp only [List.mem_append, List.mem_cons]
  rintro (hmethod | hspace | htarget | hspace | hversion)
  · exact absurd (h.method _ hmethod) (by decide)
  · exact absurd hspace (by decide)
  · exact absurd (h.target _ htarget) (by decide)
  · exact absurd hspace (by decide)
  · exact absurd hversion (by decide)

theorem WellFormed.lines_cr (h : r.WellFormed) : ∀ l ∈ r.lines, 0x0D ∉ l := by
  unfold lines
  rw [List.forall_mem_cons, List.forall_mem_map]
  exact ⟨h.requestLine_cr, fun f hf => (h.fields f hf).cr_not_mem⟩

theorem WellFormed.find_end (h : r.WellFormed) (rest : Bytes) :
    find (crlf ++ crlf) (r.render ++ rest) = some r.block.length := by
  unfold render
  rw [List.append_assoc]
  refine Http.find_end h.requestLine_cr ?_ rest
  rw [List.forall_mem_map]
  exact fun f hf => ⟨f.line_ne, (h.fields f hf).cr_not_mem⟩

theorem length_render (r : Head) : r.render.length = r.block.length + 4 := List.length_append

theorem take_render (r : Head) (rest : Bytes) :
    (r.render ++ rest).take r.block.length = r.block := by
  rw [render, List.append_assoc]
  exact List.take_left

theorem drop_render (r : Head) (rest : Bytes) :
    (r.render ++ rest).drop (r.block.length + 4) = rest := by
  rw [← length_render]
  exact List.drop_left

end Head

end StereoCamera.Http
