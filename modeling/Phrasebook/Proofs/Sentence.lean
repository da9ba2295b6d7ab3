import Phrasebook.Proofs.Text.Replace
import Phrasebook.Proofs.Text.Word
import Phrasebook.Sentence

/-!
# What reads like a sentence

The test for sentences compares a text with its upper-case form, takes a closing mark and the
placeholders out and looks for symbols in what is left, and counts words after the placeholders have
been replaced. Main statement: the test says of each character by its place whether it may stand
there. In particular no sentence holds a double quote, a backslash or a colon.
-/

namespace Phrasebook

namespace Text

/-- Every character of the text, with what follows it, satisfies the predicate. -/
def Everywhere (P : Char → List Char → Prop) (cs : List Char) : Prop :=
  ∀ before c after, cs = before ++ c :: after → P c after

@[simp] theorem everywhere_nil {P : Char → List Char → Prop} : Everywhere P [] := by
  simp [Everywhere]

theorem everywhere_cons {P : Char → List Char → Prop} {c : Char} {cs : List Char} :
    Everywhere P (c :: cs) ↔ P c cs ∧ Everywhere P cs := by
  constructor
  · intro h
    refine ⟨h [] c cs rfl, ?_⟩
    rintro before d after rfl
    exact h (c :: before) d after rfl
  · rintro ⟨here, later⟩ before d after parts
    cases before with
    | nil =>
      obtain ⟨rfl, rfl⟩ := List.cons_eq_cons.mp parts
      exact here
    | cons e before =>
      obtain ⟨rfl, rfl⟩ := List.cons_eq_cons.mp parts
      exact later before d after rfl

theorem everywhere_append {P : Char → List Char → Prop} {cs ds : List Char} :
    Everywhere P (cs ++ ds) ↔
      Everywhere (fun c after => P c (after ++ ds)) cs ∧ Everywhere P ds := by
  induction cs with
  | nil => simp
  | cons c cs ih => rw [List.cons_append, everywhere_cons, everywhere_cons, ih, and_assoc]

theorem Everywhere.congr {P Q : Char → List Char → Prop} {cs : List Char}
    (h : ∀ before c after, cs = before ++ c :: after → (P c after ↔ Q c after)) :
    Everywhere P cs ↔ Everywhere Q cs := by
  constructor
  · intro all before c after parts
    exact (h before c after parts).mp (all before c after parts)
  · intro all before c after parts
    exact (h before c after parts).mpr (all before c after parts)

/-- The upper-case form of a character is not empty. -/
theorem upper_ne_nil (c : Char) : upper c ≠ [] := by
  have expands : ∀ expansion ∈ caseExpansions, expansion.2 ≠ [] := by decide
  unfold upper
  split
  · simp
  · split
    · next ns found =>
      obtain ⟨earlier, later, parts, -⟩ := List.lookup_eq_some_iff.mp found
      have nonempty : ns ≠ [] := expands (c.toNat, ns) (by simp [parts])
      simpa using nonempty
    · simp

theorem length_le_length_upperCase (cs : List Char) : cs.length ≤ (upperCase cs).length := by
  induction cs with
  | nil => simp
  | cons c cs ih =>
    have := List.length_pos_iff.mpr (upper_ne_nil c)
    simp only [upperCase, List.flatMap_cons, List.length_append, List.length_cons] at ih ⊢
    omega

/-- A text is its own upper-case form if every character is: as no character vanishes, none can
    become several. -/
theorem upperCase_eq_self_iff {cs : List Char} :
    upperCase cs = cs ↔ ∀ c ∈ cs, upper c = [c] := by
  induction cs with
  | nil => simp [upperCase]
  | cons c cs ih =>
    rw [List.forall_mem_cons, ← ih, upperCase, List.flatMap_cons, ← upperCase]
    constructor
    · intro same
      have total := congrArg List.length same
      have rest := length_le_length_upperCase cs
      have first := List.length_pos_iff.mpr (upper_ne_nil c)
      simp only [List.length_append, List.length_cons] at total
      have one : (upper c).length = [c].length := by
        simp only [List.length_cons, List.length_nil]
        omega
      exact List.append_inj (same.trans (List.singleton_append).symm) one
    · rintro ⟨here, later⟩
      rw [here, later, List.singleton_append]

end Text

namespace Sentence

/-- The text with every placeholder replaced by its word. -/
def fillPlaceholders : List Char → List Char
  | [] => []
  | '%' :: 's' :: cs => placeholderWord ++ fillPlaceholders cs
  | c :: cs => c :: fillPlaceholders cs

theorem not_prefix_placeholder {c : Char} {cs : List Char}
    (h : ∀ rest, c = '%' → cs = 's' :: rest → False) : ¬ placeholder <+: c :: cs := by
  rintro ⟨rest, parts⟩
  obtain ⟨percent, rest'⟩ := List.cons_eq_cons.mp parts
  exact h rest percent.symm rest'.symm

theorem replace_placeholder (new : List Char) (cs : List Char) :
    Text.replace placeholder new ('%' :: 's' :: cs) =
      (new ++ (Text.replace placeholder new cs).1, (Text.replace placeholder new cs).2 + 1) :=
  Text.replaceFrom_pattern (by decide) cs

theorem replace_other (new : List Char) {c : Char} {cs : List Char}
    (h : ∀ rest, c = '%' → cs = 's' :: rest → False) :
    Text.replace placeholder new (c :: cs) =
      (c :: (Text.replace placeholder new cs).1, (Text.replace placeholder new cs).2) :=
  Text.replaceFrom_cons (not_prefix_placeholder h)

theorem replace_eq_fillPlaceholders (cs : List Char) :
    (Text.replace placeholder placeholderWord cs).1 = fillPlaceholders cs := by
  fun_induction fillPlaceholders cs with
  | case1 => rfl
  | case2 cs ih => rw [replace_placeholder, ih]
  | case3 c cs other ih => rw [replace_other _ other, ih]

example : fillPlaceholders "%%ss %s.".toList = "%placeholders placeholder.".toList := by
  decide +kernel

/-- A symbol that is part of a placeholder. -/
def InPlaceholder (c : Char) (after : List Char) : Prop :=
  c = '%' ∧ after.head? = some 's'

/-- Taking the placeholders out leaves no symbols if all symbols are part of one. -/
theorem any_isSymbol_replace (cs : List Char) :
    (Text.replace placeholder [] cs).1.any isSymbol = false ↔
      Text.Everywhere (fun c after => isSymbol c = true → InPlaceholder c after) cs := by
  fun_induction fillPlaceholders cs with
  | case1 => simp [Text.replace, Text.replaceFrom, placeholder]
  | case2 cs ih =>
    rw [replace_placeholder, Text.everywhere_cons, Text.everywhere_cons, ← ih]
    simp [InPlaceholder, show isSymbol 's' = false by decide]
  | case3 c cs other ih =>
    have notPart : ¬ InPlaceholder c cs := by
      rintro ⟨percent, next⟩
      obtain ⟨rest, rfl⟩ := List.head?_eq_some_iff.mp next
      exact other rest percent rfl
    rw [replace_other _ other, Text.everywhere_cons, ← ih, List.any_cons, Bool.or_eq_false_iff]
    simp [notPart]

/-- A symbol that may stand in a sentence: a closing mark at the end, or part of a placeholder. -/
def Allowed (c : Char) (after : List Char) : Prop :=
  after = [] ∧ isClosingMark c = true ∨ InPlaceholder c after

/-- Before a closing mark at the end only placeholders are allowed. -/
theorem allowed_append_closingMark {mark : Char} (h : isClosingMark mark = true) (c : Char)
    (after : List Char) : Allowed c (after ++ [mark]) ↔ InPlaceholder c after := by
  have notS : mark ≠ 's' := by
    rintro rfl
    exact absurd h (by decide)
  cases after with
  | nil => simp [Allowed, InPlaceholder, notS]
  | cons d after => simp [Allowed, InPlaceholder]

/-- A text holds no symbols, for the test, if each symbol may stand where it stands. -/
theorem hasSymbols_eq_false_iff (cs : List Char) :
    hasSymbols cs = false ↔
      Text.Everywhere (fun c after => isSymbol c = true → Allowed c after) cs := by
  rw [hasSymbols, any_isSymbol_replace, dropClosingMark]
  split
  case isTrue marked =>
    obtain ⟨last, hlast, mark⟩ := Option.any_eq_true _ _ |>.mp marked
    obtain ⟨before, rfl⟩ := List.getLast?_eq_some_iff.mp hlast
    have atEnd : Text.Everywhere (fun c after => isSymbol c = true → Allowed c after) [last] := by
      rw [Text.everywhere_cons]
      exact ⟨fun _ => .inl ⟨rfl, mark⟩, Text.everywhere_nil⟩
    rw [List.dropLast_concat, Text.everywhere_append, and_iff_left atEnd]
    apply Text.Everywhere.congr
    intro _ c after _
    rw [allowed_append_closingMark mark]
  case isFalse unmarked =>
    apply Text.Everywhere.congr
    rintro before c after rfl
    -- The last character is no closing mark, so that only placeholders are allowed.
    have notEnd : ¬ (after = [] ∧ isClosingMark c = true) := by
      rintro ⟨rfl, mark⟩
      apply unmarked
      simp [mark]
    rw [Allowed, or_iff_right notEnd]

/-- The text reads like a sentence, said of its characters and words. -/
structure Prose (cs : List Char) : Prop where
  /-- Some character has an upper-case form other than itself. -/
  cased : ∃ c ∈ cs, Text.upper c ≠ [c]
  /-- A symbol is a closing mark at the end of the text or the sign of a placeholder. -/
  symbols : ∀ before c after, cs = before ++ c :: after → isSymbol c = true →
    after = [] ∧ isClosingMark c = true ∨ c = '%' ∧ after.head? = some 's'
  /-- There are two words, a placeholder being one. -/
  words : 2 ≤ (Text.runs (fillPlaceholders cs)).encard

theorem isSentenceText_iff (cs : List Char) : isSentenceText cs = true ↔ Prose cs := by
  have cased : (Text.upperCase cs != cs) = true ↔ ∃ c ∈ cs, Text.upper c ≠ [c] := by
    rw [bne_iff_ne, ne_eq, Text.upperCase_eq_self_iff]
    push Not
    rfl
  have words : 2 ≤ wordCount cs ↔ 2 ≤ (Text.runs (fillPlaceholders cs)).encard := by
    rw [Text.encard_runs, wordCount, replace_eq_fillPlaceholders]
    exact (Nat.cast_le (α := ℕ∞)).symm
  simp only [isSentenceText, Bool.and_eq_true, Bool.not_eq_true', decide_eq_true_eq, cased, words,
    hasSymbols_eq_false_iff]
  constructor
  · rintro ⟨⟨first, second⟩, third⟩
    exact ⟨first, second, third⟩
  · rintro ⟨first, second, third⟩
    exact ⟨⟨first, second⟩, third⟩

end Sentence

/-- A sentence does not hold a symbol other than the closing marks and the percent sign. -/
theorem not_mem_of_isSentence {content : String} {c : Char} (hs : isSentence content = true)
    (hc : Sentence.isSymbol c = true) (hmark : Sentence.isClosingMark c = false)
    (hpercent : c ≠ '%') : c ∉ content.toList := by
  intro hmem
  obtain ⟨before, after, parts⟩ := List.append_of_mem hmem
  have prose := (Sentence.isSentenceText_iff _).mp hs
  rcases prose.symbols before c after parts hc with ⟨-, mark⟩ | ⟨percent, -⟩
  · simp [hmark] at mark
  · exact hpercent percent

/-- The test for sentences by the places of characters: a text passes if some character changes in
    upper case, every symbol is a closing mark at the end or the sign of a placeholder, and there are
    two words. So a sentence never holds a character that would end a literal, escape in it or be
    part of a call. -/
theorem isSentence_iff_prose (content : String) :
    (isSentence content = true ↔ Sentence.Prose content.toList) ∧
      (isSentence content = true → ∀ c ∈ ['"', '\\', ':', '(', ')'], c ∉ content.toList) := by
  refine ⟨Sentence.isSentenceText_iff _, ?_⟩
  intro hs c hmem
  simp only [List.mem_cons, List.not_mem_nil, or_false] at hmem
  rcases hmem with rfl | rfl | rfl | rfl | rfl
  all_goals exact not_mem_of_isSentence hs (by decide) (by decide) (by decide)

end Phrasebook
