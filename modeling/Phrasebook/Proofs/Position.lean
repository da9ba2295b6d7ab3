import Phrasebook.Proofs.Scan

/-!
# Positions of candidates

A candidate reports the line of its opening quote, the column in that line and the line itself, each
found in its own way. Main statement: they agree with the lines that the text is cut into, and the
candidates of a text are reported in the order of their positions.
-/

namespace Phrasebook

open Segment (enclose)

/-- The candidate tells where the literal stands that starts at an offset of the text. -/
structure Candidate.Placed (candidate : Candidate) (text : List Char) (start : Nat) : Prop where
  line : candidate.literal.place.line = 1 + Text.countBreaks (Text.splitAtByte start text).1
  sourceLine : (Text.splitLines text)[candidate.literal.place.line - 1]? =
    some candidate.sourceLine.toList
  column_pos : 1 ≤ candidate.column
  /-- The literal follows the characters before the column. -/
  column : enclose candidate.literal.quote candidate.literal.content.toList <+:
    candidate.sourceLine.toList.drop (candidate.column - 1)

/-- The position of one candidate is before that of the other, by line and then by column. -/
def Candidate.Precedes (first later : Candidate) : Prop :=
  first.literal.place.line < later.literal.place.line ∨
    first.literal.place.line = later.literal.place.line ∧ first.column < later.column

namespace Span

section

variable {text : String} {before content rest : List Char} {quote : Quote}
  (htext : text.toList = before ++ (enclose quote content ++ rest))
  (units : Literal.Units quote.char content)

include htext

/-- What the candidate of a literal that follows `before` tells. -/
theorem toCandidate_behind (file : String) :
    (behind before quote content).toCandidate file text =
      { literal := ⟨String.ofList content, quote, ⟨file, 1 + Text.countBreaks before⟩⟩
        sourceLine := String.ofList (Text.lineAround before (enclose quote content ++ rest))
        column := Text.columnAfter before } := by
  simp only [toCandidate, toLiteral, behind, Text.lineAt, Text.columnAt, htext,
    Text.splitAtByte_append]

include units

theorem placed_toCandidate (file : String) :
    ((behind before quote content).toCandidate file text).Placed text.toList
      (Text.byteLength before) := by
  rw [toCandidate_behind htext, htext]
  constructor
  · simp only [Text.splitAtByte_append]
  · simp only [Nat.add_sub_cancel_left, String.toList_ofList]
    exact Text.getElem?_splitLines before (Segment.head?_enclose_ne quote content rest)
  · simp [Text.columnAfter]
  · have stays : ∀ c ∈ enclose quote content, (! Text.isBreak c) = true := by
      intro c hmem
      simpa using Segment.unbroken_enclose units c hmem
    simp only [Text.columnAfter, Text.lineAround, Nat.add_sub_cancel, String.toList_ofList,
      List.drop_left, List.takeWhile_append_of_pos stays]
    exact List.prefix_append _ _

/-- A literal behind another one has the later position. -/
theorem precedes_toCandidate {before' content' rest' : List Char} {quote' : Quote}
    (htext' : text.toList = before' ++ (enclose quote' content' ++ rest'))
    (later : Text.byteLength (before ++ enclose quote content) ≤ Text.byteLength before')
    (file : String) :
    ((behind before quote content).toCandidate file text).Precedes
      ((behind before' quote' content').toCandidate file text) := by
  rw [toCandidate_behind htext, toCandidate_behind htext']
  have parts : (before ++ enclose quote content) ++ rest =
      before' ++ (enclose quote' content' ++ rest') := by
    rw [← htext', htext, List.append_assoc]
  obtain ⟨between, rfl⟩ := Text.prefix_of_byteLength_le parts later
  have unbroken := Segment.unbroken_enclose units
  have lines : Text.countBreaks (before ++ enclose quote content ++ between) =
      Text.countBreaks before + Text.countBreaks between := by
    rw [List.append_assoc, Text.countBreaks_append before (Segment.head?_enclose_ne _ _ _),
      Text.countBreaks_append_unbroken unbroken]
  simp only [Candidate.Precedes, lines]
  by_cases same : Text.Unbroken between
  · -- Both stand on one line, which the first literal and what is between them make longer.
    right
    have row : Text.Unbroken (enclose quote content ++ between) :=
      Text.unbroken_append.mpr ⟨unbroken, same⟩
    rw [Text.countBreaks_eq_zero_iff.mpr same, Text.columnAfter, Text.columnAfter,
      List.append_assoc, Text.lastLine_append_unbroken before row]
    simp [enclose]
  · left
    have : Text.countBreaks between ≠ 0 := fun none => same (Text.countBreaks_eq_zero_iff.mp none)
    omega

end

end Span

/-- Every position that is reported is right: the line counts the line breaks before the literal, the
    source line is the line with that number, the literal stands in it at the column, and the
    positions of the candidates increase. -/
theorem candidatesIn_placed (file text : String) :
    (∀ candidate ∈ candidatesIn file text, ∃ span ∈ scan text,
      candidate = span.toCandidate file text ∧ candidate.Placed text.toList span.start) ∧
    (candidatesIn file text).Pairwise Candidate.Precedes := by
  have scanned := Literal.scanned_scan text
  constructor
  · intro candidate hmem
    obtain ⟨span, hspan, rfl⟩ := List.mem_map.mp hmem
    have found := List.mem_of_mem_filter hspan
    refine ⟨span, found, rfl, ?_⟩
    obtain ⟨before, quote, content, rest, htext, units, rfl⟩ := scanned.exists_of_mem found
    exact Span.placed_toCandidate htext units file
  · apply List.pairwise_map.mpr
    apply List.Pairwise.filter
    apply scanned.pairwise.imp_of_mem
    intro first later hfirst hlater ordered
    obtain ⟨before, quote, content, rest, htext, units, rfl⟩ := scanned.exists_of_mem hfirst
    obtain ⟨before', quote', content', rest', htext', -, rfl⟩ := scanned.exists_of_mem hlater
    exact Span.precedes_toCandidate htext units htext' ordered file

end Phrasebook
