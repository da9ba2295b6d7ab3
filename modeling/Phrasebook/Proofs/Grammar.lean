import Mathlib.Data.List.Infix
import Phrasebook.Literal

/-!
# The grammar of literals

The content of a literal is a sequence of units. Main statement: `Literal.close` closes a literal
exactly with such a content, the one that the next quote outside of a unit ends.
-/

namespace Phrasebook

@[simp] theorem Quote.char_double : Quote.double.char = '"' := rfl

theorem Quote.isBreak_char (quote : Quote) : Text.isBreak quote.char = false := by
  cases quote <;> rfl

theorem Quote.char_ne_slash (quote : Quote) : quote.char ≠ '\\' := by
  cases quote <;> decide

namespace Literal

/-- The contents of literals between given quotes. A unit is one character other than the quote, the
    backslash and the terminators, or a backslash and one character that is no terminator. -/
inductive Units (quote : Char) : List Char → Prop
  | nil : Units quote []
  | plain {c : Char} {cs : List Char} : c ≠ quote → c ≠ '\\' → isTerminator c = false →
      Units quote cs → Units quote (c :: cs)
  | escaped {c : Char} {cs : List Char} : isTerminator c = false →
      Units quote cs → Units quote ('\\' :: c :: cs)

theorem isTerminator_ne_quote {t : Char} (h : isTerminator t = true) (quote : Quote) :
    t ≠ quote.char := by
  rintro rfl
  cases quote <;> simp [isTerminator, Quote.char] at h

theorem isBreak_of_not_isTerminator {c : Char} (h : isTerminator c = false) :
    Text.isBreak c = false := by
  simp only [isTerminator, Bool.or_eq_false_iff] at h
  simp [Text.isBreak, h]

theorem Units.not_isTerminator {quote : Char} {content : List Char} (h : Units quote content)
    {c : Char} (hmem : c ∈ content) : isTerminator c = false := by
  induction h with
  | nil => simp at hmem
  | plain _ _ hterm _ ih =>
    rcases List.mem_cons.mp hmem with rfl | hmem
    · exact hterm
    · exact ih hmem
  | escaped hterm _ ih =>
    rcases List.mem_cons.mp hmem with rfl | hmem
    · decide
    rcases List.mem_cons.mp hmem with rfl | hmem
    · exact hterm
    · exact ih hmem

/-- A closed literal is its content and the closing quote. -/
theorem exists_of_close {quote : Char} {cs content : List Char}
    (h : close quote cs = some content) : ∃ rest, cs = content ++ quote :: rest := by
  fun_induction close quote cs generalizing content with
  | case1 => simp at h
  | case2 cs =>
    obtain rfl : [] = content := by simpa using h
    exact ⟨cs, rfl⟩
  | case3 => simp at h
  | case4 => simp at h
  | case5 escaped rest hterm hquote ih =>
    obtain ⟨inner, hinner, rfl⟩ := Option.map_eq_some_iff.mp h
    obtain ⟨after, rfl⟩ := ih hinner
    exact ⟨after, rfl⟩
  | case6 => simp at h
  | case7 c cs hquote hslash hterm ih =>
    obtain ⟨inner, hinner, rfl⟩ := Option.map_eq_some_iff.mp h
    obtain ⟨after, rfl⟩ := ih hinner
    exact ⟨after, rfl⟩

theorem units_of_close {quote : Char} {cs content : List Char}
    (h : close quote cs = some content) : Units quote content := by
  fun_induction close quote cs generalizing content with
  | case1 => simp at h
  | case2 =>
    obtain rfl : [] = content := by simpa using h
    exact .nil
  | case3 => simp at h
  | case4 => simp at h
  | case5 escaped rest hterm hquote ih =>
    obtain ⟨inner, hinner, rfl⟩ := Option.map_eq_some_iff.mp h
    exact .escaped (by simpa using hterm) (ih hinner)
  | case6 => simp at h
  | case7 c cs hquote hslash hterm ih =>
    obtain ⟨inner, hinner, rfl⟩ := Option.map_eq_some_iff.mp h
    exact .plain hquote hslash (by simpa using hterm) (ih hinner)

theorem close_of_units {quote : Char} (hne : quote ≠ '\\') {content : List Char}
    (h : Units quote content) (rest : List Char) :
    close quote (content ++ quote :: rest) = some content := by
  induction h with
  | nil => simp [close.eq_def]
  | plain hquote hslash hterm _ ih =>
    rw [List.cons_append, close.eq_def]
    simp [hquote, hslash, hterm, ih]
  | escaped hterm _ ih =>
    rw [List.cons_append, List.cons_append, close.eq_def]
    simp [Ne.symm hne, hterm, ih]

/-- A literal is closed with the units up to the next quote outside of a unit. -/
theorem close_eq_some_iff {quote : Quote} {cs content : List Char} :
    close quote.char cs = some content ↔
      Units quote.char content ∧ ∃ rest, cs = content ++ quote.char :: rest := by
  constructor
  · intro h
    exact ⟨units_of_close h, exists_of_close h⟩
  · rintro ⟨units, rest, rfl⟩
    exact close_of_units quote.char_ne_slash units rest

/-- A literal stands on one line. -/
theorem not_isTerminator_of_close {quote : Char} {cs content : List Char}
    (h : close quote cs = some content) {c : Char} (hmem : c ∈ content) :
    isTerminator c = false :=
  (units_of_close h).not_isTerminator hmem

/-- A content without quotes, backslashes and terminators is closed by the next quote. -/
theorem close_append {quote : Char} (hne : quote ≠ '\\') {content : List Char}
    (hquote : quote ∉ content) (hslash : '\\' ∉ content)
    (hterm : ∀ c ∈ content, isTerminator c = false) (rest : List Char) :
    close quote (content ++ quote :: rest) = some content := by
  apply close_of_units hne
  induction content with
  | nil => exact .nil
  | cons c content ih =>
    simp only [List.mem_cons, not_or, forall_eq_or_imp] at hquote hslash hterm
    exact .plain (Ne.symm hquote.1) (Ne.symm hslash.1) hterm.1 (ih hquote.2 hslash.2 hterm.2)

/-- A literal is closed in its line or not at all. -/
theorem close_append_terminator {t : Char} (ht : isTerminator t = true) (quote : Quote)
    (cs rest : List Char) : close quote.char (cs ++ t :: rest) = close quote.char cs := by
  have notSlash : t ≠ '\\' := by
    rintro rfl
    simp [isTerminator] at ht
  fun_induction close quote.char cs with
  | case1 => simp [close.eq_def, isTerminator_ne_quote ht quote, notSlash, ht]
  | case2 => simp [close.eq_def]
  | case3 hquote => simp [close.eq_def, hquote, ht]
  | case4 escaped cs hterm hquote => simp [close.eq_def, hquote, hterm]
  | case5 escaped cs hterm hquote ih => simp [close.eq_def quote.char (_ :: _), hquote, hterm, ih]
  | case6 c cs hquote hslash hterm => simp [close.eq_def, hquote, hslash, hterm]
  | case7 c cs hquote hslash hterm ih =>
    simp [close.eq_def quote.char (_ :: _), hquote, hslash, hterm, ih]

end Literal

end Phrasebook
