import Phrasebook.Proofs.Scan

/-!
# Scanning by offsets

A cursor looks for the next literal from an offset on. It cuts the text at offsets, and a cut inside
of a character or past the end is a failure; it counts line breaks only from one literal to the next.
Main statement: a scan takes the literals of the grammar leftmost first, and a cursor finds the same
ones without a failure.
-/

namespace Phrasebook

open Segment (enclose IsGap)

/-- Where the search for literals stands in a text. -/
structure Cursor where
  /-- The offset at which the search goes on. -/
  position : Nat
  /-- The line at the offset `counted`. -/
  line : Nat
  /-- The offset up to which the line breaks have been counted. -/
  counted : Nat
  deriving DecidableEq, Repr

namespace Cursor

/-- The search starts with the text. -/
def first : Cursor := ⟨0, 1, 0⟩

/-- The first quote in a text, behind its offset. -/
def firstQuote : List Char → Option (Nat × Quote)
  | [] => none
  | c :: cs =>
    match Quote.ofChar? c with
    | some quote => some (0, quote)
    | none => (firstQuote cs).map fun (offset, quote) => (c.utf8Size + offset, quote)

/-- The offset behind a literal with the given start, if it is closed. -/
def closeAt (text : List Char) (start : Nat) (quote : Quote) : Option (Option Nat) := do
  let body := start + 1
  let rest ← Text.slice? body (Text.byteLength text) text
  return (Literal.close quote.char rest).map fun content => body + Text.byteLength content + 1

/-- The line at an offset that is not before the last one counted. -/
def lineAt (text : List Char) (cursor : Cursor) (offset : Nat) : Option Nat := do
  let passed ← Text.slice? cursor.counted offset text
  return cursor.line + Text.countBreaks passed

/-- The next literal, if there is one, and the cursor behind it. The outer option is empty when the
    text is cut where it cannot be cut. -/
def next (text : List Char) (cursor : Cursor) : Option (Option (Span × Cursor)) :=
  if cursor.position < Text.byteLength text then do
    let rest ← Text.slice? cursor.position (Text.byteLength text) text
    match firstQuote rest with
    | none => return none
    | some (found, quote) =>
      let start := cursor.position + found
      match ← closeAt text start quote with
      | none => next text { cursor with position := start + 1 }
      | some stop =>
        let line ← lineAt text cursor start
        let content ← Text.slice? (start + 1) (stop - 1) text
        return some (⟨String.ofList content, quote, line, start, stop⟩, ⟨stop, line, start⟩)
  else
    return none
termination_by Text.byteLength text - cursor.position

/-- From the cursor on, the search ends and finds the spans, without a cut that fails. -/
inductive Yields (text : List Char) : Cursor → List Span → Prop
  | done {cursor : Cursor} : next text cursor = some none → Yields text cursor []
  | found {cursor cursor' : Cursor} {span : Span} {spans : List Span} :
      next text cursor = some (some (span, cursor')) → Yields text cursor' spans →
      Yields text cursor (span :: spans)

theorem Yields.congr {text : List Char} {cursor cursor' : Cursor} {spans : List Span}
    (same : next text cursor = next text cursor') (h : Yields text cursor' spans) :
    Yields text cursor spans := by
  cases h with
  | done none => exact .done (same.trans none)
  | found some later => exact .found (same.trans some) later

theorem firstQuote_quote (quote : Quote) (cs : List Char) :
    firstQuote (quote.char :: cs) = some (0, quote) := by
  simp [firstQuote, Segment.ofChar?_char]

theorem utf8Size_quote (quote : Quote) : quote.char.utf8Size = 1 := by
  cases quote <;> decide

theorem next_end (before : List Char) (line counted : Nat) :
    next before ⟨Text.byteLength before, line, counted⟩ = some none := by
  rw [next, if_neg (Nat.lt_irrefl _)]
  rfl

/-- A literal whose quote follows `before` is closed as the rest of the text says. -/
theorem closeAt_append (before rest : List Char) (quote : Quote) :
    closeAt (before ++ quote.char :: rest) (Text.byteLength before) quote =
      some ((Literal.close quote.char rest).map fun content =>
        Text.byteLength before + 1 + Text.byteLength content + 1) := by
  have cut := Text.slice?_append (before ++ [quote.char]) rest
  have body : Text.byteLength (before ++ [quote.char]) = Text.byteLength before + 1 := by
    simp [utf8Size_quote]
  rw [body, List.append_assoc, List.singleton_append] at cut
  rw [closeAt]
  simp only [cut]
  rfl

/-- The search passes over a character at which no literal starts. -/
theorem next_gap {c : Char} {rest : List Char} (isGap : IsGap c rest) (before : List Char)
    (line counted : Nat) :
    next (before ++ c :: rest) ⟨Text.byteLength before, line, counted⟩ =
      next (before ++ c :: rest) ⟨Text.byteLength (before ++ [c]), line, counted⟩ := by
  have inside : Text.byteLength before < Text.byteLength (before ++ c :: rest) := by
    have := c.utf8Size_pos
    simp
    omega
  rw [next, if_pos inside, Text.slice?_append]
  cases hquote : Quote.ofChar? c with
  | some quote =>
    -- The quote is tried and left, since nothing closes it.
    obtain rfl := Segment.eq_char_of_ofChar? hquote
    have unclosed : Literal.close quote.char rest = none := isGap.resolve_left (by simp [hquote])
    simp [firstQuote_quote, closeAt_append, unclosed, utf8Size_quote]
  | none =>
    -- From the next character on, the first quote is the same.
    have cut : Text.slice? (Text.byteLength (before ++ [c])) (Text.byteLength (before ++ c :: rest))
        (before ++ c :: rest) = some rest := by
      simpa using Text.slice?_append (before ++ [c]) rest
    conv_rhs => rw [next]
    cases hfirst : firstQuote rest with
    | none =>
      split
      · simp only [cut]
        simp [firstQuote, hquote, hfirst]
      · simp [firstQuote, hquote, hfirst]
    | some found =>
      have inside' : Text.byteLength (before ++ [c]) < Text.byteLength (before ++ c :: rest) := by
        have : rest ≠ [] := by
          rintro rfl
          simp [firstQuote] at hfirst
        have := Text.byteLength_pos this
        simp
        omega
      rw [if_pos inside', cut]
      simp [firstQuote, hquote, hfirst, Nat.add_assoc, lineAt]

/-- The search stops at a literal. -/
theorem next_literal {quote : Quote} {content : List Char} (units : Literal.Units quote.char content)
    (before rest : List Char) {line counted : Nat} {passed : List Char}
    (hpassed : Text.slice? counted (Text.byteLength before)
      (before ++ (enclose quote content ++ rest)) = some passed)
    (hline : line + Text.countBreaks passed = 1 + Text.countBreaks before) :
    next (before ++ (enclose quote content ++ rest)) ⟨Text.byteLength before, line, counted⟩ =
      some (some (.behind before quote content,
        ⟨Text.byteLength (before ++ enclose quote content), 1 + Text.countBreaks before,
          Text.byteLength before⟩)) := by
  have closed := Literal.close_of_units quote.char_ne_slash units rest
  have parts : enclose quote content ++ rest = quote.char :: (content ++ quote.char :: rest) := by
    simp [enclose]
  have stops : Text.byteLength before + 1 + Text.byteLength content + 1 =
      Text.byteLength (before ++ enclose quote content) := by
    simp [enclose, utf8Size_quote]
    omega
  have inner : Text.slice? (Text.byteLength before + 1)
      (Text.byteLength (before ++ enclose quote content) - 1)
      (before ++ (enclose quote content ++ rest)) = some content := by
    apply Text.slice?_eq_some_iff.mpr
    refine ⟨before ++ [quote.char], quote.char :: rest, by simp [enclose], ?_, ?_⟩
    · simp [utf8Size_quote]
    · simp [enclose, utf8Size_quote]
      omega
  have inside : Text.byteLength before < Text.byteLength (before ++ (enclose quote content ++ rest)) := by
    have := Segment.byteLength_enclose_pos quote content
    simp
    omega
  rw [next, if_pos inside, Text.slice?_append]
  rw [parts] at hpassed inner ⊢
  simp [-Text.byteLength_append, firstQuote_quote, closeAt_append, closed, stops, inner, lineAt,
    hpassed, hline, Span.behind]

/-- A cursor that stands behind `before`. What has been counted ends where no line break is cut in
    two: at the start of the text or at a quote. -/
def StandsBehind (cursor : Cursor) (before : List Char) : Prop :=
  ∃ counted passed, before = counted ++ passed ∧
    cursor = ⟨Text.byteLength before, 1 + Text.countBreaks counted, Text.byteLength counted⟩ ∧
    ∀ more, Text.countBreaks (counted ++ (passed ++ more)) =
      Text.countBreaks counted + Text.countBreaks (passed ++ more)

/-- The search with a cursor finds what the scan finds. -/
theorem yields_of_scanned {before rest : List Char} {spans : List Span}
    (h : Literal.Scanned before rest spans) {cursor : Cursor} (hcursor : cursor.StandsBehind before) :
    Yields (before ++ rest) cursor spans := by
  induction h generalizing cursor with
  | done before =>
    obtain ⟨counted, passed, -, rfl, -⟩ := hcursor
    rw [List.append_nil]
    exact .done (next_end before _ _)
  | @gap before rest c spans isGap _ ih =>
    obtain ⟨counted, passed, rfl, rfl, whole⟩ := hcursor
    apply Yields.congr (next_gap isGap (counted ++ passed) _ _)
    have step : StandsBehind ⟨Text.byteLength (counted ++ passed ++ [c]),
        1 + Text.countBreaks counted, Text.byteLength counted⟩ (counted ++ passed ++ [c]) := by
      refine ⟨counted, passed ++ [c], by simp, rfl, ?_⟩
      intro more
      simpa using whole ([c] ++ more)
    simpa only [List.append_assoc, List.singleton_append] using ih step
  | @literal before rest content quote spans units _ ih =>
    obtain ⟨counted, passed, rfl, rfl, whole⟩ := hcursor
    have cut : Text.slice? (Text.byteLength counted) (Text.byteLength (counted ++ passed))
        (counted ++ passed ++ (enclose quote content ++ rest)) = some passed :=
      Text.slice?_eq_some_iff.mpr ⟨counted, _, List.append_assoc .., rfl, rfl⟩
    have line : 1 + Text.countBreaks counted + Text.countBreaks passed =
        1 + Text.countBreaks (counted ++ passed) := by
      have := whole []
      simp only [List.append_nil] at this
      omega
    apply Yields.found (next_literal units (counted ++ passed) rest cut line)
    rw [← List.append_assoc]
    apply ih
    refine ⟨counted ++ passed, enclose quote content, rfl, rfl, ?_⟩
    intro more
    exact Text.countBreaks_append _ (Segment.head?_enclose_ne quote content more)

theorem standsBehind_first : first.StandsBehind [] :=
  ⟨[], [], rfl, rfl, by simp⟩

end Cursor

/-- A scan accepts exactly the grammar: its spans are the literals of the text, taken leftmost first,
    and there is no other way to take them. The search by offsets finds the same spans and never cuts
    the text inside of a character or past its end. -/
theorem scan_leftmost (text : String) :
    Literal.Leftmost text.toList 0 (scan text) ∧
      (∀ spans, Literal.Leftmost text.toList 0 spans →
        spans.map Span.extent = (scan text).map Span.extent) ∧
      Cursor.Yields text.toList .first (scan text) := by
  have scanned := Literal.scanned_scan text
  refine ⟨scanned.leftmost, ?_, Cursor.yields_of_scanned scanned Cursor.standsBehind_first⟩
  intro spans leftmost
  exact leftmost.extent_eq scanned.leftmost

end Phrasebook
