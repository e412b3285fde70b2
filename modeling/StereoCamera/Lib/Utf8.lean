import Mathlib.Data.List.Basic

/-! Byte sequences that are valid UTF-8. -/

def Utf8.Valid (bs : List UInt8) : Prop := bs.toByteArray.IsValidUTF8

namespace Utf8

def encode (s : String) : List UInt8 := s.toUTF8.data.toList

instance (bs : List UInt8) : Decidable (Valid bs) :=
  inferInstanceAs (Decidable bs.toByteArray.IsValidUTF8)

def decode (bs : List UInt8) : String :=
  if h : bs.toByteArray.IsValidUTF8 then String.fromUTF8 _ h else ""

theorem toByteArray_encode (s : String) : (encode s).toByteArray = s.toUTF8 := by
  refine ByteArray.ext (Array.ext' ?_)
  unfold encode
  rw [List.toList_data_toByteArray]

theorem valid_encode (s : String) : Valid (encode s) := by
  unfold Valid
  rw [toByteArray_encode]
  exact s.isValidUTF8

theorem decode_encode (s : String) : decode (encode s) = s := by
  have hvalid : (encode s).toByteArray.IsValidUTF8 := valid_encode s
  unfold decode
  rw [dif_pos hvalid]
  apply String.toByteArray_inj.mp
  exact toByteArray_encode s

theorem Valid.append {bs cs : List UInt8} (hbs : Valid bs) (hcs : Valid cs) : Valid (bs ++ cs) := by
  unfold Valid
  rw [List.toByteArray_append]
  exact ByteArray.IsValidUTF8.append hbs hcs

theorem isValidUTF8_utf8Encode_append_iff (cs : List Char) (b : ByteArray) :
    (cs.utf8Encode ++ b).IsValidUTF8 ↔ b.IsValidUTF8 := by
  induction cs with
  | nil => rw [List.utf8Encode_nil, ByteArray.empty_append]
  | cons c cs ih =>
    rw [← List.singleton_append, List.utf8Encode_append, ByteArray.append_assoc,
      ByteArray.isValidUTF8_utf8Encode_singleton_append_iff, ih]

theorem valid_encode_append_iff (s : String) (bs : List UInt8) :
    Valid (encode s ++ bs) ↔ Valid bs := by
  unfold Valid
  obtain ⟨cs, hcs⟩ := s.isValidUTF8
  rw [List.toByteArray_append, toByteArray_encode, String.toUTF8_eq_toByteArray, hcs,
    isValidUTF8_utf8Encode_append_iff]

end Utf8
