import Mathlib.Data.Set.Card
import Phrasebook.Text.Word

/-!
# Words of a text

A word is a run of word characters that can be made longer on neither side. Main statement:
`countWords` counts these runs.
-/

namespace Phrasebook.Text

/-- The run stands in the text between `before` and `after` and is as long as it can be. -/
structure IsRun (text before run after : List Char) : Prop where
  text_eq : text = before ++ (run ++ after)
  ne_nil : run ≠ []
  word : ∀ c ∈ run, isWordChar c = true
  left : ∀ c, before.getLast? = some c → isWordChar c = false
  right : ∀ c, after.head? = some c → isWordChar c = false

/-- The maximal runs of word characters, each between what stands before and behind it. -/
def runs (text : List Char) : Set (List Char × List Char × List Char) :=
  {(before, run, after) | IsRun text before run after}

/-- The runs that start in the text, when a word may reach into it from the left. -/
def newRuns (inside : Bool) (text : List Char) : Set (List Char × List Char × List Char) :=
  {place ∈ runs text | inside = true → place.1 ≠ []}

/-- The run behind one more character. -/
def behind (c : Char) (place : List Char × List Char × List Char) :
    List Char × List Char × List Char :=
  (c :: place.1, place.2)

theorem behind_injective (c : Char) : Function.Injective (behind c) := by
  intro place place' same
  obtain ⟨befores, rests⟩ := Prod.mk.inj same
  exact Prod.ext (List.cons_eq_cons.mp befores).2 rests

/-- A run that does not start with the text is one of the rest of the text, and does not start with
    the rest if the first character belongs to a word. -/
theorem isRun_cons_iff {c : Char} {cs before run after : List Char} :
    IsRun (c :: cs) (c :: before) run after ↔
      IsRun cs before run after ∧ (isWordChar c = true → before ≠ []) := by
  constructor
  · intro h
    refine ⟨⟨(List.cons_eq_cons.mp h.text_eq).2, h.ne_nil, h.word, ?_, h.right⟩, ?_⟩
    · intro d last
      apply h.left
      simp [List.getLast?_cons, last]
    · rintro word rfl
      simp [h.left c rfl] at word
  · rintro ⟨h, notFirst⟩
    refine ⟨by rw [h.text_eq, List.cons_append], h.ne_nil, h.word, ?_, h.right⟩
    intro d last
    cases hbefore : before.getLast? with
    | some e =>
      obtain rfl : e = d := by simpa [List.getLast?_cons, hbefore] using last
      exact h.left e hbefore
    | none =>
      obtain rfl := List.getLast?_eq_none_iff.mp hbefore
      obtain rfl : c = d := by simpa using last
      simpa using notFirst

/-- A run at the start of the text ends before the first character that belongs to no word. -/
theorem isRun_nil_iff {text run after : List Char} :
    IsRun text [] run after ↔
      run ≠ [] ∧ run = text.takeWhile isWordChar ∧ after = text.dropWhile isWordChar := by
  constructor
  · intro h
    have ends : after.takeWhile isWordChar = [] ∧ after.dropWhile isWordChar = after := by
      cases after with
      | nil => exact ⟨rfl, rfl⟩
      | cons d after => simp [h.right d rfl]
    refine ⟨h.ne_nil, ?_, ?_⟩
    · rw [h.text_eq, List.nil_append, List.takeWhile_append_of_pos h.word, ends.1, List.append_nil]
    · rw [h.text_eq, List.nil_append, List.dropWhile_append_of_pos h.word, ends.2]
  · rintro ⟨ne_nil, rfl, rfl⟩
    refine ⟨List.takeWhile_append_dropWhile.symm, ne_nil, ?_, by simp, ?_⟩
    · exact List.all_eq_true.mp List.all_takeWhile
    · intro c first
      have stops := List.head?_dropWhile_not isWordChar text
      rw [first] at stops
      exact stops

/-- A run that starts behind the first character is one of the rest of the text. -/
theorem mem_newRuns_cons {inside : Bool} {c d : Char} {cs before : List Char}
    {rest : List Char × List Char} :
    (d :: before, rest) ∈ newRuns inside (c :: cs) ↔
      d = c ∧ (before, rest) ∈ newRuns (isWordChar c) cs := by
  obtain ⟨run, after⟩ := rest
  simp only [newRuns, runs, Set.mem_ofPred_eq]
  constructor
  · rintro ⟨isRun, -⟩
    obtain rfl : c = d := (List.cons_eq_cons.mp isRun.text_eq).1
    exact ⟨rfl, isRun_cons_iff.mp isRun⟩
  · rintro ⟨rfl, isRun⟩
    exact ⟨isRun_cons_iff.mpr isRun, by simp⟩

/-- At most one run starts with the text: if a word starts there and does not reach in from the
    left. -/
theorem mem_newRuns_nil {inside : Bool} {c : Char} {cs : List Char} {rest : List Char × List Char} :
    ([], rest) ∈ newRuns inside (c :: cs) ↔
      inside = false ∧ isWordChar c = true ∧
        rest = (c :: cs.takeWhile isWordChar, cs.dropWhile isWordChar) := by
  obtain ⟨run, after⟩ := rest
  simp only [newRuns, runs, Set.mem_ofPred_eq, isRun_nil_iff]
  by_cases hc : isWordChar c
  · cases inside <;> simp +contextual [hc]
  · simp +contextual [hc]

theorem newRuns_nil (inside : Bool) : newRuns inside [] = ∅ := by
  apply Set.eq_empty_of_forall_notMem
  rintro ⟨before, run, after⟩ ⟨isRun, -⟩
  have parts := isRun.text_eq
  simp [isRun.ne_nil] at parts

/-- When no word starts with the text, all runs are behind its first character. -/
theorem newRuns_cons {inside : Bool} {c : Char} (h : isWordChar c = true → inside = true)
    (cs : List Char) : newRuns inside (c :: cs) = behind c '' newRuns (isWordChar c) cs := by
  ext ⟨before, rest⟩
  cases before with
  | nil =>
    rw [mem_newRuns_nil]
    constructor
    · rintro ⟨rfl, word, -⟩
      exact absurd (h word) (by simp)
    · rintro ⟨place, -, same⟩
      simp [behind] at same
  | cons d before =>
    rw [mem_newRuns_cons]
    constructor
    · rintro ⟨rfl, hmem⟩
      exact ⟨_, hmem, rfl⟩
    · rintro ⟨⟨before', rest'⟩, hmem, same⟩
      simp only [behind, Prod.mk.injEq, List.cons_eq_cons] at same
      obtain ⟨⟨rfl, rfl⟩, rfl⟩ := same
      exact ⟨rfl, hmem⟩

/-- A word that starts with the text is one run more. -/
theorem newRuns_cons_word {c : Char} (h : isWordChar c = true) (cs : List Char) :
    newRuns false (c :: cs) =
      insert ([], c :: cs.takeWhile isWordChar, cs.dropWhile isWordChar)
        (newRuns true (c :: cs)) := by
  ext ⟨before, rest⟩
  cases before with
  | nil => simp [Set.mem_insert_iff, mem_newRuns_nil, h]
  | cons d before => simp [Set.mem_insert_iff, mem_newRuns_cons]

/-- The words that start in a text are its runs of word characters. -/
theorem encard_newRuns (inside : Bool) (text : List Char) :
    (newRuns inside text).encard = countWords inside text := by
  induction text generalizing inside with
  | nil => simp [newRuns_nil, countWords]
  | cons c cs ih =>
    by_cases hc : isWordChar c
    · have later : (newRuns true (c :: cs)).encard = countWords true cs := by
        rw [newRuns_cons (fun _ => rfl), hc, (behind_injective c).encard_image, ih]
      cases inside with
      | true => simp [countWords, hc, later]
      | false =>
        have new : ([], c :: cs.takeWhile isWordChar, cs.dropWhile isWordChar) ∉
            newRuns true (c :: cs) := by
          simp [mem_newRuns_nil]
        rw [newRuns_cons_word hc, Set.encard_insert_of_notMem new, later]
        simp [countWords, hc, add_comm]
    · have none : isWordChar c = false := by simpa using hc
      rw [newRuns_cons (by simp [none]), none, (behind_injective c).encard_image, ih]
      simp [countWords, none]

/-- The words of a text are its maximal runs of word characters. -/
theorem encard_runs (text : List Char) : (runs text).encard = countWords false text := by
  rw [← encard_newRuns]
  simp [newRuns]

end Phrasebook.Text
