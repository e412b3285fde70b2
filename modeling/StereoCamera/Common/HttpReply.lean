import StereoCamera.Common.HttpRequest

/-! An HTTP/1.1 reply that says how long its body is, and numbers in decimal. -/

namespace StereoCamera

theorem bytes_append (s t : String) : bytes (s ++ t) = bytes s ++ bytes t := by
  unfold bytes Utf8.encode
  simp

namespace StdString

theorem bytes_digitChar {d : ℕ} (hd : d < 10) :
    bytes (String.singleton d.digitChar) = [UInt8.ofNat (0x30 + d)] := by
  revert d
  decide

theorem decimal_concat (digits : Bytes) (d : UInt8) :
    decimal (digits ++ [d]) = 10 * decimal digits + (d.toNat - 0x30) := by
  unfold decimal
  rw [List.foldl_append]
  rfl

theorem ofNat_digit {d : ℕ} (hd : d < 10) :
    isDigit (UInt8.ofNat (0x30 + d)) = true ∧ (UInt8.ofNat (0x30 + d)).toNat - 0x30 = d := by
  revert d
  decide

theorem decimal_toString (n : ℕ) :
    bytes (toString n) ≠ [] ∧ (∀ b ∈ bytes (toString n), isDigit b = true) ∧
      decimal (bytes (toString n)) = n := by
  change bytes n.repr ≠ [] ∧ (∀ b ∈ bytes n.repr, isDigit b = true) ∧ decimal (bytes n.repr) = n
  induction n using Nat.strong_induction_on with
  | h n ih =>
    have hdigit := ofNat_digit (Nat.mod_lt n (Nat.succ_pos 9))
    rcases Nat.lt_or_ge n 10 with hn | hn
    · rw [Nat.mod_eq_of_lt hn] at hdigit
      rw [Nat.repr_of_lt hn, bytes_digitChar hn]
      refine ⟨List.cons_ne_nil _ _, ?_, ?_⟩
      · simpa using hdigit.1
      · simpa [decimal] using hdigit.2
    · obtain ⟨-, hall, hvalue⟩ := ih (n / 10) (Nat.div_lt_self (by omega) (by omega))
      rw [Nat.repr_of_ge hn, bytes_append, bytes_digitChar (Nat.mod_lt n (Nat.succ_pos 9))]
      refine ⟨by simp, ?_, ?_⟩
      · rw [List.forall_mem_append]
        exact ⟨hall, by simpa using hdigit.1⟩
      · rw [decimal_concat, hvalue, hdigit.2]
        omega

end StdString

namespace Http
open StdString

structure Reply where
  statusLine : Bytes
  fields : List Field
  body : Bytes

namespace Reply

def render (r : Reply) : Bytes :=
  joinLines r.statusLine (r.fields.map Field.line) ++ (crlf ++ crlf) ++ r.body

structure WellFormed (r : Reply) : Prop where
  version : bytes "HTTP/1.1 " <+: r.statusLine
  statusLine : ∀ b ∈ r.statusLine, isFieldByte b
  fields : ∀ f ∈ r.fields, f.WellFormed
  once : (r.fields.filter fun f => f.Named "content-length").length = 1
  length : ∀ f ∈ r.fields, f.Named "content-length" →
    f.value ≠ [] ∧ (∀ b ∈ f.value, isDigit b) ∧ decimal f.value = r.body.length

end Reply

theorem Field.value_of_digits (name : Bytes) {digits : Bytes} (hne : digits ≠ [])
    (hdigits : ∀ b ∈ digits, isDigit b = true) :
    (⟨name, 0x20 :: digits⟩ : Field).value = digits := by
  have hblank : ∀ b, isDigit b = true → isBlank b = false := by
    intro b hb
    rw [← Bool.not_eq_true]
    intro hblank
    rcases of_decide_eq_true hblank with rfl | rfl
    · cases hb
    · cases hb
  have hfirst : (0x20 :: digits).dropWhile isBlank = digits := by
    obtain ⟨d, ds, rfl⟩ := List.exists_cons_of_ne_nil hne
    rw [List.dropWhile_cons, if_pos (by decide), List.dropWhile_cons,
      if_neg (by simp [hblank d (hdigits d List.mem_cons_self)])]
  unfold value
  rw [hfirst]
  refine List.rdropWhile_eq_self_iff.mpr fun h => ?_
  simp [hblank _ (hdigits _ (List.getLast_mem h))]

def cutBody (raw : Bytes) : Except String Bytes :=
  match find (crlf ++ crlf) raw with
  | none => .error "Received HTTP/0.9 when not allowed"
  | some pos => .ok (raw.drop (pos + 4))

theorem Reply.WellFormed.cutBody_render {r : Reply} (h : r.WellFormed) :
    cutBody r.render = .ok r.body := by
  have hend : find (crlf ++ crlf) r.render =
      some (joinLines r.statusLine (r.fields.map Field.line)).length := by
    unfold render
    rw [List.append_assoc]
    refine find_end (fun hcr => absurd (h.statusLine _ hcr) (by decide)) ?_ r.body
    rw [List.forall_mem_map]
    exact fun f hf => ⟨f.line_ne, (h.fields f hf).cr_not_mem⟩
  unfold cutBody
  rw [hend]
  apply congrArg Except.ok
  show r.render.drop (_ + (crlf ++ crlf).length) = _
  rw [← List.length_append]
  exact List.drop_left

end Http

end StereoCamera
