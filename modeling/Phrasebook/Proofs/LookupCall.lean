import Mathlib.Tactic.Tauto
import Phrasebook.Catalog
import Phrasebook.Config.Basic
import Phrasebook.Proofs.Text.Replace

/-!
# The shape of lookup calls

A table name holds letters, digits, underscores and dots. So a call `<table>:GetLang(<index>)` holds
one colon and one closing parenthesis, which ends it, and no quote. From this follows that calls on
one table do not overlap: none ends another one but itself, and none starts inside another one.
-/

namespace Phrasebook

namespace Config

/-- The characters of a table name. -/
def isTableChar (c : Char) : Bool :=
  continuesIdentifier c || c == '.'

theorem startsIdentifier_isTableChar {c : Char} (h : startsIdentifier c = true) :
    isTableChar c = true := by
  simp only [startsIdentifier, Bool.or_eq_true] at h
  simp only [isTableChar, continuesIdentifier, Char.isAlphanum, Bool.or_eq_true]
  tauto

theorem isTableChar_of_isDotted {c : Char} :
    ∀ {fresh : Bool} {cs : List Char}, isDotted fresh cs = true → c ∈ cs → isTableChar c = true
  | _, [], _, hmem => by simp at hmem
  | true, d :: cs, h, hmem => by
    simp only [isDotted, if_true, Bool.and_eq_true] at h
    rcases List.mem_cons.mp hmem with rfl | inRest
    · exact startsIdentifier_isTableChar h.1
    · exact isTableChar_of_isDotted h.2 inRest
  | false, d :: cs, h, hmem => by
    simp only [isDotted, Bool.false_eq_true, if_false] at h
    split at h
    case isTrue dot =>
      rcases List.mem_cons.mp hmem with rfl | inRest
      · simp [isTableChar, dot]
      · exact isTableChar_of_isDotted h inRest
    case isFalse =>
      simp only [Bool.and_eq_true] at h
      rcases List.mem_cons.mp hmem with rfl | inRest
      · simp [isTableChar, h.1]
      · exact isTableChar_of_isDotted h.2 inRest

theorem isTableName_of_checkTable {table : String} (h : checkTable table = .ok ()) :
    isTableName table = true := by
  unfold checkTable at h
  split at h
  · assumption
  · simp at h

/-- A character that no identifier goes on with and that is no dot is not in a table name. -/
theorem not_mem_of_checkTable {table : String} {c : Char} (h : checkTable table = .ok ())
    (hc : isTableChar c = false) : c ∉ table.toList := by
  intro hmem
  have := isTableChar_of_isDotted (isTableName_of_checkTable h) hmem
  simp [hc] at this

end Config

/-- The characters of a call. -/
theorem toList_lookupCall (table : String) (index : Nat) :
    (lookupCall table index).toList =
      table.toList ++ ':' :: ("GetLang(".toList ++ Nat.toDigits 10 index ++ [')']) := by
  simp [lookupCall, Nat.toList_repr]

/-- No digit of a number is a character that is no digit. -/
theorem not_mem_toDigits {c : Char} (hc : c.isDigit = false) (n : Nat) :
    c ∉ Nat.toDigits 10 n := by
  intro hmem
  have := Nat.isDigit_of_mem_toDigits (by omega) (by omega) hmem
  simp [hc] at this

/-- What stands before the closing parenthesis of a call. -/
def callStem (table : String) (index : Nat) : List Char :=
  table.toList ++ ':' :: ("GetLang(".toList ++ Nat.toDigits 10 index)

theorem toList_lookupCall_eq_stem (table : String) (index : Nat) :
    (lookupCall table index).toList = callStem table index ++ [')'] := by
  simp [toList_lookupCall, callStem]

section

variable {table : String} (htable : Config.checkTable table = .ok ())
include htable

theorem parenthesis_not_mem_callStem (index : Nat) : ')' ∉ callStem table index := by
  have inTable := Config.not_mem_of_checkTable (c := ')') htable (by decide)
  have inDigits := not_mem_toDigits (c := ')') (by decide) index
  simp [callStem, inTable, inDigits]

theorem quote_not_mem_lookupCall (index : Nat) : '"' ∉ (lookupCall table index).toList := by
  have inTable := Config.not_mem_of_checkTable (c := '"') htable (by decide)
  have inDigits := not_mem_toDigits (c := '"') (by decide) index
  simp [toList_lookupCall, inTable, inDigits]

/-- A text up to a quote that does not hold a colon does not start like a text that starts with a
    call, which holds a colon and no quote. -/
theorem not_prefix_lookupCall {content rest : List Char} (hcolon : ':' ∉ content) (index : Nat) :
    ¬ content ++ ['"'] <+: (lookupCall table index).toList ++ rest := by
  intro h
  rcases List.prefix_or_prefix_of_prefix h (List.prefix_append _ rest) with shorter | longer
  · exact quote_not_mem_lookupCall htable index (shorter.subset (by simp))
  · have : ':' ∈ content ++ ['"'] := longer.subset (by simp [toList_lookupCall])
    simp [hcolon] at this

/-- No call ends with a shorter call: the colon is where the table name ends. -/
theorem eq_nil_of_append_lookupCall {before : List Char} {i j : Nat}
    (h : (lookupCall table j).toList = before ++ (lookupCall table i).toList) : before = [] := by
  have inTable := Config.not_mem_of_checkTable (c := ':') htable (by decide)
  have inDigits := not_mem_toDigits (c := ':') (by decide) j
  have count := congrArg (List.count ':') h
  have inBefore : ':' ∉ before := by
    rw [toList_lookupCall, toList_lookupCall] at count
    simp [List.count_eq_zero_of_not_mem inTable, List.count_eq_zero_of_not_mem inDigits] at count
    exact List.count_eq_zero.mp (by omega)
  have upToColon := congrArg (List.takeWhile (· != ':')) h
  rw [toList_lookupCall, toList_lookupCall, ← List.append_assoc] at upToColon
  have stops : ∀ (name rest : List Char), ':' ∉ name →
      (name ++ ':' :: rest).takeWhile (· != ':') = name := by
    intro name rest hname
    rw [List.takeWhile_append_of_pos]
    · simp
    · intro c hc
      have : c ≠ ':' := fun hcolon => hname (hcolon ▸ hc)
      simpa using this
  rw [stops _ _ inTable, stops _ _ (by simp [inBefore, inTable])] at upToColon
  simpa using congrArg List.length upToColon

omit htable in
/-- Calls on one table with different numbers are different. -/
theorem lookupCall_injective {i j : Nat}
    (h : (lookupCall table i).toList = (lookupCall table j).toList) : i = j := by
  rw [toList_lookupCall, toList_lookupCall] at h
  have digits : Nat.toDigits 10 i = Nat.toDigits 10 j := by simpa using h
  calc
    i = Nat.ofDigitChars 10 (Nat.toDigits 10 i) 0 := Nat.ofDigitChars_ten_toDigits.symm
    _ = Nat.ofDigitChars 10 (Nat.toDigits 10 j) 0 := by rw [digits]
    _ = j := Nat.ofDigitChars_ten_toDigits

/-- What ends a call goes up to its closing parenthesis and holds no other one. -/
theorem exists_stem_of_ending {before ending : List Char} {index : Nat}
    (hsplit : (lookupCall table index).toList = before ++ ending) (hne : ending ≠ []) :
    ∃ stem, ending = stem ++ [')'] ∧ ')' ∉ stem := by
  obtain ⟨stem, c, rfl⟩ := (List.eq_nil_or_concat' ending).resolve_left hne
  rw [toList_lookupCall_eq_stem, ← List.append_assoc] at hsplit
  obtain ⟨stemEq, closing⟩ := List.append_inj' hsplit rfl
  obtain rfl : c = ')' := by simpa using closing.symm
  have inStem := parenthesis_not_mem_callStem htable index
  rw [stemEq, List.mem_append, not_or] at inStem
  exact ⟨stem, rfl, inStem.2⟩

/-- Of two ends of calls none starts a text that starts with the other, unless they are equal. -/
theorem ending_eq_of_prefix {before ending before' ending' rest : List Char} {i j : Nat}
    (hsplit : (lookupCall table i).toList = before ++ ending) (hne : ending ≠ [])
    (hsplit' : (lookupCall table j).toList = before' ++ ending') (hne' : ending' ≠ [])
    (h : ending <+: ending' ++ rest) : ending = ending' := by
  obtain ⟨stem, rfl, hstem⟩ := exists_stem_of_ending htable hsplit hne
  obtain ⟨stem', rfl, hstem'⟩ := exists_stem_of_ending htable hsplit' hne'
  rw [List.append_assoc] at h
  rw [Text.eq_of_append_prefix hstem hstem' h]

end

end Phrasebook
