import Mathlib.Data.List.Lex
import Mathlib.Tactic.SplitIfs

/-!
# The order of bytes

Texts are compared character by character. Main statement: their bytes come in the same order, because
the encodings of two characters differ before either of them ends.
-/

namespace Phrasebook.Text

/-- The bytes of a text. -/
def bytes (s : String) : List UInt8 :=
  s.toUTF8.data.toList

theorem bytes_eq (s : String) : bytes s = s.toList.flatMap String.utf8EncodeChar := by
  conv_lhs => rw [← String.ofList_toList (s := s)]
  rw [bytes, String.toUTF8_eq_toByteArray, String.toByteArray_ofList, List.utf8Encode,
    List.toList_data_toByteArray]

theorem octet_cons_lt_iff {m n : Nat} (hm : m < 256) (hn : n < 256) {rest rest' : List UInt8} :
    UInt8.ofNat m :: rest < UInt8.ofNat n :: rest' ↔ m < n ∨ m = n ∧ rest < rest' := by
  rw [List.cons_lt_cons_iff, UInt8.lt_iff_toNat_lt, ← UInt8.toNat_inj,
    UInt8.toNat_ofNat_of_lt' hm, UInt8.toNat_ofNat_of_lt' hn]

/-- Whatever follows, the encodings of two characters are in the order of the characters. -/
theorem utf8EncodeChar_append_lt {c d : Char} (h : c < d) (rest rest' : List UInt8) :
    String.utf8EncodeChar c ++ rest < String.utf8EncodeChar d ++ rest' := by
  have lower : c.val.toNat < d.val.toNat := h
  have bound : d.val.toNat < 0x110000 := by
    have := d.valid
    simp only [UInt32.isValidChar, Nat.isValidChar] at this
    omega
  unfold String.utf8EncodeChar
  generalize c.val.toNat = m at lower
  generalize d.val.toNat = n at lower bound
  -- The digits to base 64 are compared one after the other.
  have third (k : Nat) : k / 4096 = k / 64 / 64 := by omega
  have fourth (k : Nat) : k / 262144 = k / 64 / 64 / 64 := by omega
  simp only
  split_ifs
  all_goals
    simp (disch := omega) only [List.cons_append, List.nil_append, octet_cons_lt_iff, third, fourth]
    clear third fourth
    omega

/-- The bytes of two texts are in the order of the texts. -/
theorem bytes_lt {s t : String} (h : s < t) : bytes s < bytes t := by
  rw [String.lt_iff] at h
  rw [bytes_eq, bytes_eq]
  generalize s.toList = cs, t.toList = ds at h
  induction cs generalizing ds with
  | nil =>
    cases ds with
    | nil => exact absurd h (List.lt_irrefl [])
    | cons d ds =>
      have encoded : String.utf8EncodeChar d ≠ [] := by
        rw [← List.length_pos_iff, String.length_utf8EncodeChar]
        exact d.utf8Size_pos
      obtain ⟨octet, octets, first⟩ := List.exists_cons_of_ne_nil encoded
      rw [List.flatMap_nil, List.flatMap_cons, first]
      exact List.nil_lt_cons _ _
  | cons c cs ih =>
    cases ds with
    | nil => simp at h
    | cons d ds =>
      rw [List.flatMap_cons, List.flatMap_cons]
      rcases List.cons_lt_cons_iff.mp h with lower | ⟨rfl, later⟩
      · exact utf8EncodeChar_append_lt lower _ _
      · exact List.append_left_lt (ih ds later)

/-- Lists of texts that are compared text by text can be compared by their bytes. -/
theorem map_bytes_lt {names names' : List String} (h : names < names') :
    names.map bytes < names'.map bytes :=
  List.map_lt (fun _ _ => bytes_lt) h

end Phrasebook.Text
