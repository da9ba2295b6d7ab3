import Phrasebook.Text.Lines

/-!
# Offsets into a text

An offset counts the bytes before a place in the text. `slice?` cuts out what stands between two
offsets and fails at an offset that is inside of a character or past the end. Main statements: the
boundaries are the byte lengths of the beginnings of the text, and a slice is a part of the text that
stands behind as many bytes as its first offset says.
-/

namespace Phrasebook.Text

@[simp] theorem byteLength_nil : byteLength [] = 0 := rfl

@[simp] theorem byteLength_cons (c : Char) (cs : List Char) :
    byteLength (c :: cs) = c.utf8Size + byteLength cs := rfl

@[simp] theorem byteLength_append (cs ds : List Char) :
    byteLength (cs ++ ds) = byteLength cs + byteLength ds := by
  induction cs with
  | nil => simp
  | cons c cs ih => simp [ih, Nat.add_assoc]

theorem byteLength_pos {cs : List Char} (h : cs ≠ []) : 0 < byteLength cs := by
  obtain ⟨c, cs, rfl⟩ := List.exists_cons_of_ne_nil h
  have := c.utf8Size_pos
  rw [byteLength_cons]
  omega

/-- Of two beginnings of a text the one with fewer bytes starts the other. -/
theorem prefix_of_byteLength_le {before before' after after' : List Char}
    (h : before ++ after = before' ++ after') (hlen : byteLength before ≤ byteLength before') :
    before <+: before' := by
  induction before generalizing before' with
  | nil => exact List.nil_prefix
  | cons c before ih =>
    cases before' with
    | nil =>
      have := c.utf8Size_pos
      simp at hlen
      omega
    | cons d before' =>
      obtain ⟨rfl, tails⟩ := List.cons_eq_cons.mp h
      apply List.cons_prefix_cons.mpr
      exact ⟨rfl, ih tails (by simpa using hlen)⟩

/-- Two beginnings of a text with the same number of bytes are equal. -/
theorem eq_of_byteLength_eq {before before' after after' : List Char}
    (h : before ++ after = before' ++ after') (hlen : byteLength before = byteLength before') :
    before = before' := by
  obtain ⟨more, rfl⟩ := prefix_of_byteLength_le h (Nat.le_of_eq hlen)
  by_cases hmore : more = []
  · simp [hmore]
  · have := byteLength_pos hmore
    rw [byteLength_append] at hlen
    omega

/-- Splitting after the bytes of a beginning gives the beginning and the rest. -/
theorem splitAtByte_append (before after : List Char) :
    splitAtByte (byteLength before) (before ++ after) = (before, after) := by
  induction before with
  | nil => simp [splitAtByte]
  | cons c before ih =>
    obtain ⟨n, size⟩ : ∃ n, c.utf8Size + byteLength before = n + 1 :=
      Nat.exists_eq_add_one.mpr (by have := c.utf8Size_pos; omega)
    rw [byteLength_cons, size, List.cons_append, splitAtByte, ← size, Nat.add_sub_cancel_left, ih]

/-- The boundaries of a text are the byte lengths of its beginnings. -/
theorem isBoundary_iff {offset : Nat} {text : List Char} :
    isBoundary offset text = true ↔
      ∃ before after, text = before ++ after ∧ offset = byteLength before := by
  induction text generalizing offset with
  | nil => cases offset <;> simp [isBoundary]
  | cons c text ih =>
    cases offset with
    | zero =>
      simp only [isBoundary, true_iff]
      exact ⟨[], c :: text, rfl, rfl⟩
    | succ n =>
      simp only [isBoundary, Bool.and_eq_true, decide_eq_true_eq, ih]
      constructor
      · rintro ⟨fits, before, after, rfl, rest⟩
        refine ⟨c :: before, after, rfl, ?_⟩
        rw [byteLength_cons]
        omega
      · rintro ⟨before, after, parts, bytes⟩
        cases before with
        | nil => simp at bytes
        | cons d before =>
          obtain ⟨rfl, rfl⟩ := List.cons_eq_cons.mp parts
          rw [byteLength_cons] at bytes
          exact ⟨by omega, before, after, rfl, by omega⟩

/-- The part of a text between two offsets, if they are boundaries and the second is not before the
    first. -/
def slice? (start stop : Nat) (text : List Char) : Option (List Char) :=
  if start ≤ stop ∧ isBoundary start text ∧ isBoundary stop text then
    some (splitAtByte (stop - start) (splitAtByte start text).2).1
  else
    none

/-- A slice is what stands in the text behind as many bytes as its first offset says. -/
theorem slice?_eq_some_iff {start stop : Nat} {text part : List Char} :
    slice? start stop text = some part ↔
      ∃ before after, text = before ++ (part ++ after) ∧ start = byteLength before ∧
        stop = byteLength (before ++ part) := by
  unfold slice?
  constructor
  · intro sliced
    split at sliced
    case isFalse => simp at sliced
    case isTrue inside =>
      obtain ⟨ordered, first, last⟩ := inside
      obtain ⟨before, rest, rfl, rfl⟩ := isBoundary_iff.mp first
      obtain ⟨before', after, parts, rfl⟩ := isBoundary_iff.mp last
      obtain ⟨part', rfl⟩ := prefix_of_byteLength_le parts ordered
      rw [List.append_assoc, List.append_cancel_left_eq] at parts
      subst parts
      have bytes : byteLength (before ++ part') - byteLength before = byteLength part' := by
        rw [byteLength_append, Nat.add_sub_cancel_left]
      rw [splitAtByte_append, bytes, splitAtByte_append, Option.some.injEq] at sliced
      exact ⟨before, after, by rw [← sliced], rfl, by rw [← sliced]⟩
  · rintro ⟨before, after, rfl, rfl, rfl⟩
    have first : isBoundary (byteLength before) (before ++ (part ++ after)) = true :=
      isBoundary_iff.mpr ⟨before, part ++ after, rfl, rfl⟩
    have last : isBoundary (byteLength (before ++ part)) (before ++ (part ++ after)) = true :=
      isBoundary_iff.mpr ⟨before ++ part, after, by simp, rfl⟩
    have bytes : byteLength (before ++ part) - byteLength before = byteLength part := by
      rw [byteLength_append, Nat.add_sub_cancel_left]
    rw [if_pos ⟨by simp, first, last⟩, splitAtByte_append, bytes, splitAtByte_append]

/-- What stands behind a beginning is the slice from its end on. -/
theorem slice?_append (before after : List Char) :
    slice? (byteLength before) (byteLength (before ++ after)) (before ++ after) = some after :=
  slice?_eq_some_iff.mpr ⟨before, [], by simp, rfl, rfl⟩

end Phrasebook.Text
