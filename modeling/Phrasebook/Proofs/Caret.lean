import Mathlib.Data.List.Forall2
import Phrasebook.Proofs.CatalogText
import Phrasebook.Proofs.Position
import Phrasebook.Report

/-!
# Carets

A report shows each candidate with its source line, and a caret in the row below it. Main statement:
a report is complete if and only if no text has to be padded beyond the limit; then the line numbers
share one column that is wide enough for all of them, and every caret is as far from that column as
the text before the opening quote is wide, by whatever measure. Otherwise a caret may be missing.
-/

namespace Phrasebook

open Segment (enclose)

namespace Text

/-- The line of the text that the offset is in, as it stands before and behind the offset. -/
def CutsLine (text : List Char) (offset : Nat) (before after : List Char) : Prop :=
  ∃ earlier later, text = earlier ++ ((before ++ after) ++ later) ∧
    offset = byteLength (earlier ++ before) ∧ Unbroken (before ++ after) ∧
    (∀ c ∈ earlier.getLast?, isBreak c = true) ∧ ∀ c ∈ later.head?, isBreak c = true

theorem unbroken_takeWhile (cs : List Char) : Unbroken (cs.takeWhile (! isBreak ·)) := by
  intro c hmem
  simpa using List.all_eq_true.mp List.all_takeWhile c hmem

theorem isBreak_head?_dropWhile {cs : List Char} {c : Char}
    (h : c ∈ (cs.dropWhile (! isBreak ·)).head?) : isBreak c = true := by
  have := List.head?_dropWhile_not (! isBreak ·) cs
  rw [Option.mem_def.mp h] at this
  simpa using this

/-- The last line before a cut and the first one behind it are the line of the cut. -/
theorem cutsLine_append (before after : List Char) :
    CutsLine (before ++ after) (byteLength before) (lastLine before)
      (after.takeWhile (! isBreak ·)) := by
  have whole : (before.reverse.dropWhile (! isBreak ·)).reverse ++ lastLine before = before := by
    rw [lastLine, ← List.reverse_append, List.takeWhile_append_dropWhile, List.reverse_reverse]
  refine ⟨(before.reverse.dropWhile (! isBreak ·)).reverse, after.dropWhile (! isBreak ·), ?_, ?_,
    ?_, ?_, fun c => isBreak_head?_dropWhile⟩
  · rw [List.append_assoc, List.takeWhile_append_dropWhile, ← List.append_assoc, whole]
  · rw [whole]
  · rw [unbroken_append]
    refine ⟨fun c hmem => ?_, unbroken_takeWhile after⟩
    exact unbroken_takeWhile _ c (List.mem_reverse.mp hmem)
  · intro c hmem
    rw [List.getLast?_reverse] at hmem
    exact isBreak_head?_dropWhile hmem

/-- The cut tells where in its line it is. -/
theorem CutsLine.columnAt_eq {text before after : List Char} {offset : Nat}
    (h : CutsLine text offset before after) :
    columnAt text offset = before.length + 1 ∧ before <+: lineAt text offset := by
  obtain ⟨earlier, later, rfl, rfl, unbroken, ends, -⟩ := h
  have first : lastLine earlier = [] := by
    unfold lastLine
    rw [← List.head?_reverse] at ends
    cases hearlier : earlier.reverse with
    | nil => rfl
    | cons c cs => simp [ends c (by simp [hearlier])]
  have split : splitAtByte (byteLength (earlier ++ before))
      (earlier ++ ((before ++ after) ++ later)) = (earlier ++ before, after ++ later) := by
    rw [← splitAtByte_append]
    simp
  have line : lastLine (earlier ++ before) = before := by
    rw [lastLine_append_unbroken earlier (unbroken_append.mp unbroken).1, first, List.nil_append]
  unfold columnAt lineAt
  rw [split]
  simp only [columnAfter, lineAround, line, true_and]
  exact List.prefix_append _ _

end Text

/-- No line ends inside a literal. -/
theorem Segment.takeWhile_enclose {quote : Quote} {content : List Char}
    (units : Literal.Units quote.char content) (rest : List Char) :
    (enclose quote content ++ rest).takeWhile (! Text.isBreak ·) =
      enclose quote content ++ rest.takeWhile (! Text.isBreak ·) := by
  apply List.takeWhile_append_of_pos
  intro c hmem
  simpa using unbroken_enclose units c hmem

namespace Report

/-- The row of a source line: the number of the line at the end of a column, a bar and the line. -/
def SourceRow (width line : Nat) (source : List Char) (row : String) : Prop :=
  ∃ indent, indent + (toString line).length = width ∧
    row = blanks indent ++ toString line ++ " | " ++ String.ofList source

/-- The row of a caret, so many columns behind the bar. -/
def caretRow (width columns : Nat) : String :=
  blanks width ++ " | " ++ blanks columns ++ "^"

/-- The candidate comes from a file in which its literal, written as `quoted`, has `before` in front
    of it and `rest` behind it on its line. -/
def OnLine (candidate : Candidate) (before quoted rest : List Char) : Prop :=
  ∃ file text, ∃ span ∈ Phrasebook.scan text, candidate = span.toCandidate file text ∧
    quoted = span.quoted.toList ∧ Text.CutsLine text.toList span.start before (quoted ++ rest)

/-- The block shows a candidate with the line it stands on and with a caret under its opening quote,
    where a column of the given width is left for the numbers of lines. -/
def PointsAt (measure : Measure) (width : Nat) (candidate : Candidate) (block : String) : Prop :=
  ∃ before quoted rest row heading, OnLine candidate before quoted rest ∧
    SourceRow width candidate.literal.place.line (before ++ (quoted ++ rest)) row ∧
    block = heading ++ "\n" ++ row ++ "\n" ++ caretRow width (measure before) ++ "\n\n"

/-- The report is made of a block for each candidate, all with one column for the numbers of lines,
    in which each of them has its place. -/
def Aligned (measure : Measure) (candidates : List Candidate) (report : String) : Prop :=
  ∃ width blocks, report = String.join blocks ∧
    (∀ candidate ∈ candidates, (toString candidate.literal.place.line).length ≤ width) ∧
    List.Forall₂ (PointsAt measure width) candidates blocks

/-- Neither a number of a line nor what is in front of an opening quote is wider than the limit. -/
def Fits (measure : Measure) (candidates : List Candidate) : Prop :=
  ∀ candidate ∈ candidates, (toString candidate.literal.place.line).length ≤ widthLimit ∧
    ∀ before quoted rest, OnLine candidate before quoted rest → measure before ≤ widthLimit

/-- A smaller number is not longer. -/
theorem length_toString_mono {m n : Nat} (h : m ≤ n) :
    (toString m).length ≤ (toString n).length := by
  have bound : n < 10 ^ n.repr.length :=
    (Nat.length_repr_le_iff Nat.length_repr_pos).mp (Nat.le_refl _)
  exact (Nat.length_repr_le_iff Nat.length_repr_pos).mpr (Nat.lt_of_le_of_lt h bound)

/-- The column is as wide as the widest line number. -/
theorem gutter_le_iff {candidates : List Candidate} {limit : Nat} (h : 1 ≤ limit) :
    gutter candidates ≤ limit ↔
      ∀ candidate ∈ candidates, (toString candidate.literal.place.line).length ≤ limit := by
  unfold gutter
  cases greatest : (candidates.map (·.literal.place.line)).max? with
  | none =>
    have none : candidates = [] := by simpa using greatest
    simp [none, h]
  | some line =>
    obtain ⟨hline, most⟩ := List.max?_eq_some_iff.mp greatest
    constructor
    · intro fits candidate hmem
      exact Nat.le_trans (length_toString_mono (most _ (List.mem_map_of_mem hmem))) fits
    · intro fits
      obtain ⟨candidate, hmem, rfl⟩ := List.mem_map.mp hline
      exact fits candidate hmem

theorem gutter_pos (candidates : List Candidate) : 1 ≤ gutter candidates := by
  unfold gutter
  split
  · exact Nat.le_refl 1
  · exact Nat.length_repr_pos

/-- The column is wide enough for every line number. -/
theorem length_line_le_gutter {candidates : List Candidate} {candidate : Candidate}
    (h : candidate ∈ candidates) :
    (toString candidate.literal.place.line).length ≤ gutter candidates :=
  (gutter_le_iff (gutter_pos candidates)).mp (Nat.le_refl _) candidate h

/-- The report is complete if and only if all of its lines fit. -/
theorem complete_write (lines : List Line) : (write lines).complete = lines.all (·.fits) := by
  induction lines with
  | nil => rfl
  | cons line lines ih =>
    rw [write, List.all_cons, ← ih]
    by_cases fits : line.fits
    · simp [fits]
    · simp [fits]

/-- What fits is written, and then what can be written of the rest. -/
theorem write_append_of_fits {lines : List Line} (h : lines.all (·.fits) = true)
    (rest : List Line) :
    write (lines ++ rest) =
      ⟨String.join (lines.map (·.text ++ "\n")) ++ (write rest).text, (write rest).complete⟩ := by
  induction lines with
  | nil => simp
  | cons line lines ih =>
    rw [List.all_cons, Bool.and_eq_true] at h
    simp [write, h.1, ih h.2, String.append_assoc]

theorem text_write {lines : List Line} (h : (write lines).complete = true) :
    (write lines).text = String.join (lines.map (·.text ++ "\n")) := by
  have fits : lines.all (·.fits) = true := by rw [← complete_write, h]
  have all := write_append_of_fits fits []
  rw [List.append_nil] at all
  simp [all, write, Written.whole]

/-- The lines about a candidate fit if the column of the line numbers and the caret do. -/
theorem all_fits_candidate {measure : Measure} {theme : Theme} {width : Nat} {shown : Candidate} :
    (candidate measure theme width shown).all (·.fits) = true ↔
      width ≤ widthLimit ∧ measure (beforeQuote shown) ≤ widthLimit := by
  simp [candidate, Line.fits]

theorem paint_plain (weight : Weight) (ink : Ink) (text : String) :
    Theme.paint ⟨false⟩ weight ink text = text := rfl

theorem ink_plain (ink : Ink) (text : String) : Theme.ink ⟨false⟩ ink text = text := rfl

theorem bar_append (text : String) : " | " ++ text = " " ++ ("|" ++ (" " ++ text)) := by
  rw [← String.append_assoc, ← String.append_assoc]
  rfl

/-- The lines about a candidate as one text. -/
def block (measure : Measure) (width : Nat) (shown : Candidate) : String :=
  String.join ((candidate measure ⟨false⟩ width shown).map (·.text ++ "\n"))

/-- Without colors a block ends in the row of the source line and that of the caret. -/
theorem exists_block_eq (measure : Measure) (width : Nat) (shown : Candidate) :
    ∃ heading : String, block measure width shown = heading ++ "\n" ++
      (alignRight width (toString shown.literal.place.line) ++ " | " ++ shown.sourceLine) ++ "\n" ++
      caretRow width (measure (beforeQuote shown)) ++ "\n\n" := by
  refine ⟨"candidate" ++ ": \"" ++ shown.literal.content ++ "\"  " ++ "sentence" ++ "\n" ++
    "  " ++ "-->" ++ " " ++ shown.literal.place.text ++ ":" ++ toString shown.column ++ "\n" ++
    blanks width ++ " " ++ "|", ?_⟩
  have last : "\n\n" = "\n" ++ ("" ++ ("\n" ++ "")) := rfl
  unfold block candidate caretRow
  -- The rows are compared part by part, so neighbouring parts are not folded into one.
  simp only [paint_plain, ink_plain, String.append_assoc, bar_append, last, List.map_cons,
    List.map_nil, String.join_cons, String.join_nil, -String.reduceAppend]

/-- A complete report is its blocks, one behind the other. -/
theorem text_candidates {measure : Measure} {found : List Candidate}
    (h : (candidates measure ⟨false⟩ found).complete = true) :
    (candidates measure ⟨false⟩ found).text =
      String.join (found.map (block measure (gutter found))) := by
  have blocks (width : Nat) (rest : List Candidate) :
      String.join ((rest.flatMap (candidate measure ⟨false⟩ width)).map (·.text ++ "\n")) =
        String.join (rest.map (block measure width)) := by
    induction rest with
    | nil => rfl
    | cons first rest ih =>
      rw [List.flatMap_cons, List.map_append, String.join_append, ih, List.map_cons,
        String.join_cons, block]
  unfold candidates at h ⊢
  rw [text_write h, blocks]

theorem complete_candidates {measure : Measure} {theme : Theme} {found : List Candidate} :
    (candidates measure theme found).complete = true ↔
      ∀ shown ∈ found, gutter found ≤ widthLimit ∧ measure (beforeQuote shown) ≤ widthLimit := by
  unfold candidates
  rw [complete_write, List.all_flatMap, List.all_eq_true]
  apply forall₂_congr
  intro shown _
  exact all_fits_candidate

/-- What is in front of the opening quote can be told from the candidate. -/
theorem OnLine.before_eq {shown : Candidate} {before quoted rest : List Char}
    (h : OnLine shown before quoted rest) : before = beforeQuote shown := by
  obtain ⟨file, text, span, -, rfl, -, cut⟩ := h
  obtain ⟨column, prefixed⟩ := cut.columnAt_eq
  unfold beforeQuote Span.toCandidate
  rw [column, Nat.add_sub_cancel, String.toList_ofList]
  exact List.prefix_iff_eq_take.mp prefixed

/-- Every candidate stands on a line, which is its source line. -/
theorem exists_onLine {shown : Candidate} {file text : String}
    (h : shown ∈ candidatesIn file text) :
    ∃ quoted rest, OnLine shown (beforeQuote shown) quoted rest ∧
      shown.sourceLine = String.ofList (beforeQuote shown ++ (quoted ++ rest)) := by
  obtain ⟨span, hspan, rfl⟩ := List.mem_map.mp h
  have found := List.mem_of_mem_filter hspan
  obtain ⟨before, quote, content, rest, htext, units, behind⟩ :=
    (Literal.scanned_scan text).exists_of_mem found
  rw [List.nil_append] at behind
  subst behind
  have quoted : (Span.behind before quote content).quoted.toList = enclose quote content := by
    simp [Span.quoted, Span.behind, enclose]
  have cut := Text.cutsLine_append before (enclose quote content ++ rest)
  rw [Segment.takeWhile_enclose units, ← htext] at cut
  have stands : OnLine ((Span.behind before quote content).toCandidate file text)
      (Text.lastLine before) (enclose quote content) (rest.takeWhile (! Text.isBreak ·)) :=
    ⟨file, text, _, found, rfl, quoted.symm, cut⟩
  refine ⟨_, _, stands.before_eq ▸ stands, ?_⟩
  rw [← stands.before_eq, Span.toCandidate_behind htext, Text.lineAround,
    Segment.takeWhile_enclose units]

/-- The block of a candidate has its caret under the opening quote. -/
theorem pointsAt_block {measure : Measure} {shown : Candidate} {file text : String} {width : Nat}
    (h : shown ∈ candidatesIn file text)
    (fits : (toString shown.literal.place.line).length ≤ width) :
    PointsAt measure width shown (block measure width shown) := by
  obtain ⟨quoted, rest, stands, line⟩ := exists_onLine h
  obtain ⟨heading, eq⟩ := exists_block_eq measure width shown
  refine ⟨_, quoted, rest, _, heading, stands, ?_, eq⟩
  rw [line]
  exact ⟨width - (toString shown.literal.place.line).length, Nat.sub_add_cancel fits, rfl⟩

/-- The report is complete if and only if everything in it fits. -/
theorem complete_iff_fits (measure : Measure) {found : List Candidate}
    (h : ∀ candidate ∈ found, ∃ file text, candidate ∈ candidatesIn file text) :
    (candidates measure ⟨false⟩ found).complete = true ↔ Fits measure found := by
  rw [complete_candidates]
  constructor
  · intro bounded shown hmem
    obtain ⟨narrow, near⟩ := bounded shown hmem
    refine ⟨Nat.le_trans (length_line_le_gutter hmem) narrow, ?_⟩
    intro before quoted rest stands
    rw [stands.before_eq]
    exact near
  · intro fits shown hmem
    obtain ⟨file, text, scanned⟩ := h shown hmem
    obtain ⟨quoted, rest, stands, -⟩ := exists_onLine scanned
    have narrow : gutter found ≤ widthLimit :=
      (gutter_le_iff (by decide)).mpr fun candidate hcandidate => (fits candidate hcandidate).1
    exact ⟨narrow, (fits shown hmem).2 _ _ _ stands⟩

end Report

namespace Text

/-- A line that starts with so many blanks, and then holds a literal. -/
def indented (blanks : Nat) (content : String) : String :=
  String.ofList (List.replicate blanks ' ' ++ enclose .double content.toList)

variable {content : String} (blanks : Nat)

theorem bare_replicate_blank : Literal.Bare (List.replicate blanks ' ') := by
  intro c hmem
  rw [List.eq_of_mem_replicate hmem]
  decide

theorem length_beforeQuote_indented (literal : Literal) :
    (Report.beforeQuote ⟨literal, indented blanks content, blanks + 1⟩).length = blanks := by
  simp [Report.beforeQuote, indented]

theorem caret_not_mem_indented (h : '^' ∉ content.toList) :
    '^' ∉ (indented blanks content).toList := by
  simp [indented, enclose, Quote.char, h]

variable (units : Literal.Units Quote.double.char content.toList)

include units

theorem scan_indented :
    scan (indented blanks content) =
      [.behind (List.replicate blanks ' ') .double content.toList] := by
  have bare := bare_replicate_blank blanks
  have closed := Literal.close_of_units (Quote.char_ne_slash .double) units []
  have alone := Segment.scanFrom_literal closed (byteLength (List.replicate blanks ' ')) 1
  have line : countBreaks (List.replicate blanks ' ') = 0 :=
    countBreaks_eq_zero_iff.mpr bare.unbroken
  unfold scan indented
  rw [List.append_nil] at alone
  rw [String.toList_ofList, Literal.scanFrom_append_bare bare, Nat.zero_add, alone, Span.behind,
    line, byteLength_append]
  rfl

theorem candidatesIn_indented (sentence : isSentence content = true) (file : String) :
    candidatesIn file (indented blanks content) =
      [⟨⟨content, .double, ⟨file, 1⟩⟩, indented blanks content, blanks + 1⟩] := by
  have htext : (indented blanks content).toList =
      List.replicate blanks ' ' ++ (enclose .double content.toList ++ []) := by
    rw [indented, String.toList_ofList, List.append_nil]
  have unbroken := (bare_replicate_blank blanks).unbroken
  have line : lastLine (List.replicate blanks ' ') = List.replicate blanks ' ' :=
    lastLine_append_unbroken [] unbroken
  have only : (Span.behind (List.replicate blanks ' ') .double content.toList).content = content :=
    String.ofList_toList
  unfold candidatesIn
  rw [scan_indented blanks units, List.filter_cons_of_pos (by rw [only]; exact sentence),
    List.filter_nil, List.map_singleton, Span.toCandidate_behind htext, lineAround, columnAfter,
    Segment.takeWhile_enclose units, line, countBreaks_eq_zero_iff.mpr unbroken]
  simp [indented]

end Text

namespace Report

/-- A report is broken off before a caret that is beyond the limit. -/
theorem write_candidate_of_wide {measure : Measure} {theme : Theme} {width : Nat}
    {shown : Candidate} (narrow : width ≤ widthLimit)
    (wide : widthLimit < measure (beforeQuote shown)) (rest : List Line) :
    write (candidate measure theme width shown ++ rest) =
      ⟨String.join (((candidate measure theme width shown).take 4).map (·.text ++ "\n")),
        false⟩ := by
  have head : ((candidate measure theme width shown).take 4).all (·.fits) = true := by
    simp [candidate, Line.fits, narrow]
  have tail : write ((candidate measure theme width shown).drop 4 ++ rest) = ⟨"", false⟩ := by
    simp [candidate, write, Line.fits, wide]
  have whole := write_append_of_fits head ((candidate measure theme width shown).drop 4 ++ rest)
  rw [← List.append_assoc, List.take_append_drop, tail] at whole
  rw [whole, String.append_empty]

/-- A report that shows a candidate has a caret in it. -/
theorem Aligned.caret_mem {measure : Measure} {shown : Candidate} {more : List Candidate}
    {report : String} (h : Aligned measure (shown :: more) report) : '^' ∈ report.toList := by
  obtain ⟨width, blocks, rfl, -, aligned⟩ := h
  obtain ⟨block, rest, points, -, rfl⟩ := List.forall₂_cons_left_iff.mp aligned
  obtain ⟨before, quoted, behind, row, heading, -, -, rfl⟩ := points
  simp [caretRow]

theorem caret_not_mem_blanks (width : Nat) : '^' ∉ (blanks width).toList := by
  simp [blanks]

/-- A candidate whose caret is beyond the limit is shown without one. -/
theorem not_aligned_of_wide {measure : Measure} {shown : Candidate}
    (narrow : gutter [shown] ≤ widthLimit) (wide : widthLimit < measure (beforeQuote shown))
    (content : '^' ∉ shown.literal.content.toList)
    (place : '^' ∉ shown.literal.place.text.toList) (line : '^' ∉ shown.sourceLine.toList) :
    (candidates measure ⟨false⟩ [shown]).complete = false ∧
      ¬ Aligned measure [shown] (candidates measure ⟨false⟩ [shown]).text := by
  have digits := not_mem_toDigits (c := '^') (by decide)
  unfold candidates
  rw [List.flatMap_cons, write_candidate_of_wide narrow wide]
  refine ⟨rfl, fun aligned => absurd aligned.caret_mem ?_⟩
  simp [candidate, ink_plain, paint_plain, caret_not_mem_blanks, alignRight, digits, content, place,
    line]

end Report

/-- A report of candidates from any files, without colors, is complete if and only if no number of a
    line and nothing in front of an opening quote is wider than the limit. Then every caret stands
    under the opening quote of its literal. -/
theorem caret_under_quote (measure : Report.Measure) {found : List Candidate}
    (h : ∀ candidate ∈ found, ∃ file text, candidate ∈ candidatesIn file text) :
    ((Report.candidates measure ⟨false⟩ found).complete = true ↔ Report.Fits measure found) ∧
    ((Report.candidates measure ⟨false⟩ found).complete = true →
      Report.Aligned measure found (Report.candidates measure ⟨false⟩ found).text) := by
  constructor
  · exact Report.complete_iff_fits measure h
  · intro complete
    refine ⟨Report.gutter found, _, Report.text_candidates complete, ?_, ?_⟩
    · intro candidate hmem
      exact Report.length_line_le_gutter hmem
    · rw [List.forall₂_map_right_iff, List.forall₂_same]
      intro candidate hmem
      obtain ⟨file, text, scanned⟩ := h candidate hmem
      exact Report.pointsAt_block scanned (Report.length_line_le_gutter hmem)

/-- Numbers of one and of two digits, characters of two columns before a quote and a quote at the
    start of its line. -/
theorem caret_under_quote_wide :
    let measure : Report.Measure := fun before =>
      before.foldr (fun c columns => (if c.toNat < 0x1100 then 1 else 2) + columns) 0
    let near := candidatesIn "names.lua" "名前 = \"Hi there\""
    let far := candidatesIn "rows.lua" "\n\n\n\n\n\n\n\n\n'Good bye'"
    (near ++ far).map (fun candidate => (candidate.literal.place.line, candidate.column,
      measure (Report.beforeQuote candidate))) = [(1, 6, 7), (10, 1, 0)] ∧
    (Report.candidates measure ⟨false⟩ (near ++ far)).complete = true ∧
    Report.Aligned measure (near ++ far)
      (Report.candidates measure ⟨false⟩ (near ++ far)).text := by
  intro measure near far
  have complete : (Report.candidates measure ⟨false⟩ (near ++ far)).complete = true := by
    decide +kernel
  refine ⟨by decide +kernel, complete, (caret_under_quote measure ?_).2 complete⟩
  intro candidate hmem
  rcases List.mem_append.mp hmem with near | far
  · exact ⟨_, _, near⟩
  · exact ⟨_, _, far⟩

/-- Behind 65536 blanks there is no caret: the report is broken off where it would be. -/
theorem caret_beyond_limit :
    let found := candidatesIn "a.lua" (Text.indented 65536 "Hello world")
    found.length = 1 ∧ (Report.candidates List.length ⟨false⟩ found).complete = false ∧
      ¬ Report.Aligned List.length found (Report.candidates List.length ⟨false⟩ found).text := by
  have closed : Literal.close Quote.double.char "Hello world\"".toList =
      some "Hello world".toList := by
    decide +kernel
  have only := Text.candidatesIn_indented 65536 (Literal.units_of_close closed)
    (by decide +kernel) "a.lua"
  intro found
  have alone : found = _ := only
  rw [alone]
  refine ⟨rfl, Report.not_aligned_of_wide (by decide +kernel) ?_ (by decide +kernel)
    (by decide +kernel) (Text.caret_not_mem_indented _ (by decide +kernel))⟩
  rw [Text.length_beforeQuote_indented]
  decide

end Phrasebook
