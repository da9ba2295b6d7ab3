import Phrasebook.Proofs.Segment

/-!
# What a scan finds

`Scanned` says what a scan does with a text, one constructor for a character that it passes over and
one for a literal; every fact about the spans is proved along it. Main statements: the spans of a
scan are the literals of the grammar, taken leftmost first, which can be done in one way only; and on
the two sides of a line terminator a scan finds what it finds in each of them alone.
-/

namespace Phrasebook

open Segment (enclose IsGap)

/-- The span of a literal that follows `before` in a text. -/
def Span.behind (before : List Char) (quote : Quote) (content : List Char) : Span where
  content := String.ofList content
  quote := quote
  line := 1 + Text.countBreaks before
  start := Text.byteLength before
  stop := Text.byteLength (before ++ enclose quote content)

namespace Segment

theorem head?_enclose_ne (quote : Quote) (content rest : List Char) :
    (enclose quote content ++ rest).head? ≠ some '\n' := by
  cases quote <;> simp [enclose, Quote.char]

theorem unbroken_enclose {quote : Quote} {content : List Char}
    (h : Literal.Units quote.char content) : Text.Unbroken (enclose quote content) := by
  have inside : Text.Unbroken content := fun c hmem =>
    Literal.isBreak_of_not_isTerminator (h.not_isTerminator hmem)
  simp [enclose, Quote.isBreak_char, inside]

theorem byteLength_enclose_pos (quote : Quote) (content : List Char) :
    0 < Text.byteLength (enclose quote content) :=
  Text.byteLength_pos (by simp [enclose])

/-- A text starts with a literal if the content and the closing quote follow its first character. -/
theorem enclose_prefix_iff {quote : Quote} {content : List Char} {c : Char} {rest : List Char} :
    enclose quote content <+: c :: rest ↔
      c = quote.char ∧ ∃ after, rest = content ++ quote.char :: after := by
  unfold enclose
  rw [List.cons_prefix_cons]
  constructor
  · rintro ⟨rfl, after, rfl⟩
    exact ⟨rfl, after, by simp⟩
  · rintro ⟨rfl, after, rfl⟩
    exact ⟨rfl, after, by simp⟩

/-- A gap is a character at which no literal starts. -/
theorem isGap_iff {c : Char} {rest : List Char} :
    IsGap c rest ↔
      ∀ quote content, Literal.Units quote.char content → ¬ enclose quote content <+: c :: rest := by
  constructor
  · intro gap quote content units starts
    obtain ⟨rfl, closed⟩ := enclose_prefix_iff.mp starts
    rcases gap with notQuote | unclosed
    · simp [ofChar?_char] at notQuote
    · simp [Literal.close_eq_some_iff.mpr ⟨units, closed⟩] at unclosed
  · intro none
    by_contra notGap
    simp only [IsGap, not_or, ← ne_eq, Option.ne_none_iff_exists'] at notGap
    obtain ⟨⟨quote, hquote⟩, content, closed⟩ := notGap
    obtain rfl := eq_char_of_ofChar? hquote
    obtain ⟨units, after, rfl⟩ := Literal.close_eq_some_iff.mp closed
    exact none quote content units (enclose_prefix_iff.mpr ⟨rfl, after, rfl⟩)

end Segment

namespace Literal

/-- A scan that has come to the end of `before` finds the spans in `rest`. -/
inductive Scanned : List Char → List Char → List Span → Prop
  | done (before : List Char) : Scanned before [] []
  | gap {before rest : List Char} {c : Char} {spans : List Span} : IsGap c rest →
      Scanned (before ++ [c]) rest spans → Scanned before (c :: rest) spans
  | literal {before rest content : List Char} {quote : Quote} {spans : List Span} :
      Units quote.char content → Scanned (before ++ enclose quote content) rest spans →
      Scanned before (enclose quote content ++ rest) (.behind before quote content :: spans)

/-- A scan that starts behind `before` on the right line. The line is right if it leads to the last
    line of the text, so that it does not matter whether `\r\n` is cut in two. -/
theorem scanned_scanFrom (before rest : List Char) {line : Nat}
    (hline : line + Text.countBreaks rest = 1 + Text.countBreaks (before ++ rest)) :
    Scanned before rest (scanFrom 0 (Text.byteLength before) line rest) := by
  induction rest using Segment.split_induction generalizing before line with
  | nil => exact .done before
  | gap c rest isGap ih =>
    have bytes : Text.byteLength before + c.utf8Size = Text.byteLength (before ++ [c]) := by simp
    rw [Segment.scanFrom_gap isGap, bytes]
    apply Scanned.gap isGap
    apply ih
    rw [List.append_assoc, List.singleton_append, ← hline, Text.countBreaks_cons]
    split <;> omega
  | literal quote content rest closed ih =>
    have units := units_of_close closed
    -- The literal starts with a quote, so that no line break is cut in two.
    have sum := Text.countBreaks_append before (Segment.head?_enclose_ne quote content rest)
    obtain rfl : line = 1 + Text.countBreaks before := by omega
    have bytes : Text.byteLength before + Text.byteLength (enclose quote content) =
        Text.byteLength (before ++ enclose quote content) := by simp
    rw [Segment.scanFrom_literal closed, bytes]
    apply Scanned.literal units
    apply ih
    rw [List.append_assoc, ← hline, Text.countBreaks_append_unbroken (Segment.unbroken_enclose units)]

/-- The literals of a text are found from its start. -/
theorem scanned_scan (text : String) : Scanned [] text.toList (scan text) :=
  scanned_scanFrom [] text.toList rfl

namespace Scanned

variable {before rest : List Char} {spans : List Span}

/-- A span that is found is that of a literal in the text. -/
theorem exists_of_mem (h : Scanned before rest spans) {span : Span} (hmem : span ∈ spans) :
    ∃ left quote content right, rest = left ++ (enclose quote content ++ right) ∧
      Units quote.char content ∧ span = .behind (before ++ left) quote content := by
  induction h with
  | done => simp at hmem
  | @gap before rest c spans _ _ ih =>
    obtain ⟨left, quote, content, right, rfl, units, rfl⟩ := ih hmem
    exact ⟨c :: left, quote, content, right, rfl, units, by simp⟩
  | @literal before rest content quote spans units _ ih =>
    rcases List.mem_cons.mp hmem with rfl | later
    · exact ⟨[], quote, content, rest, rfl, units, by simp⟩
    · obtain ⟨left, quote', content', right, rfl, units', rfl⟩ := ih later
      exact ⟨enclose quote content ++ left, quote', content', right, by simp, units', by simp⟩

/-- The spans that are found do not overlap and stand in the order of the text. -/
theorem pairwise (h : Scanned before rest spans) :
    spans.Pairwise fun first later => first.stop ≤ later.start := by
  induction h with
  | done => exact .nil
  | gap _ _ ih => exact ih
  | literal units next ih =>
    apply List.Pairwise.cons _ ih
    intro later hmem
    obtain ⟨left, quote, content, right, -, -, rfl⟩ := next.exists_of_mem hmem
    simp [Span.behind]

/-- Wherever a literal starts in the text, there is a span. -/
theorem covers (h : Scanned before rest spans) {left content right : List Char} {quote : Quote}
    (hrest : rest = left ++ (enclose quote content ++ right)) (units : Units quote.char content) :
    ∃ span ∈ spans, span.start ≤ Text.byteLength (before ++ left) ∧
      Text.byteLength (before ++ left) < span.stop := by
  induction h generalizing left with
  | done => simp [enclose] at hrest
  | @gap before rest c spans isGap _ ih =>
    cases left with
    | nil =>
      -- At the gap itself no literal starts.
      exfalso
      exact Segment.isGap_iff.mp isGap quote content units ⟨right, hrest.symm⟩
    | cons d left =>
      obtain ⟨rfl, tails⟩ := List.cons_eq_cons.mp hrest
      simpa using ih tails
  | @literal before rest content' quote' spans units' _ ih =>
    by_cases inside : Text.byteLength left < Text.byteLength (enclose quote' content')
    · refine ⟨_, List.mem_cons_self, ?_, ?_⟩
      · simp [Span.behind]
      · simp only [Span.behind, Text.byteLength_append]
        omega
    · obtain ⟨left, rfl⟩ := Text.prefix_of_byteLength_le hrest (Nat.not_lt.mp inside)
      rw [List.append_assoc, List.append_cancel_left_eq] at hrest
      obtain ⟨span, hmem, starts, stops⟩ := ih hrest
      rw [List.append_assoc] at starts stops
      exact ⟨span, List.mem_cons_of_mem _ hmem, starts, stops⟩

end Scanned

/-- A literal of the grammar, with the given quote and content, stands between two offsets. -/
def StandsAt (text : List Char) (start stop : Nat) (quote : Quote) (content : List Char) : Prop :=
  Text.slice? start stop text = some (enclose quote content) ∧ Units quote.char content

/-- The place lies before, between or behind the spans. -/
def InGap (spans : List Span) (place : Nat) : Prop :=
  ∀ span ∈ spans, place < span.start ∨ span.stop ≤ place

/-- The spans are the literals of a text from an offset on, taken leftmost first. -/
structure Leftmost (text : List Char) (offset : Nat) (spans : List Span) : Prop where
  ordered : spans.Pairwise fun first later => first.stop ≤ later.start
  inside : ∀ span ∈ spans,
    offset ≤ span.start ∧ span.start < span.stop ∧ span.stop ≤ Text.byteLength text
  boundaries : ∀ span ∈ spans,
    Text.isBoundary span.start text = true ∧ Text.isBoundary span.stop text = true
  literal : ∀ span ∈ spans, StandsAt text span.start span.stop span.quote span.content.toList
  /-- No quote in a gap begins a literal. -/
  gaps : ∀ place, offset ≤ place → InGap spans place →
    ∀ stop quote content, ¬ StandsAt text place stop quote content

theorem Scanned.leftmost {before rest : List Char} {spans : List Span}
    (h : Scanned before rest spans) :
    Leftmost (before ++ rest) (Text.byteLength before) spans where
  ordered := h.pairwise
  inside := by
    intro span hmem
    obtain ⟨left, quote, content, right, rfl, -, rfl⟩ := h.exists_of_mem hmem
    have := Segment.byteLength_enclose_pos quote content
    simp only [Span.behind, Text.byteLength_append]
    omega
  boundaries := by
    intro span hmem
    obtain ⟨left, quote, content, right, rfl, -, rfl⟩ := h.exists_of_mem hmem
    constructor
    · exact Text.isBoundary_iff.mpr ⟨before ++ left, _, (List.append_assoc ..).symm, rfl⟩
    · exact Text.isBoundary_iff.mpr ⟨before ++ left ++ enclose quote content, right, by simp, rfl⟩
  literal := by
    intro span hmem
    obtain ⟨left, quote, content, right, rfl, units, rfl⟩ := h.exists_of_mem hmem
    simp only [Span.behind, String.toList_ofList]
    refine ⟨Text.slice?_eq_some_iff.mpr ⟨before ++ left, right, ?_, rfl, rfl⟩, units⟩
    rw [List.append_assoc]
  gaps := by
    rintro place behind inGap stop quote content ⟨cut, units⟩
    obtain ⟨before', right, parts, rfl, -⟩ := Text.slice?_eq_some_iff.mp cut
    obtain ⟨left, rfl⟩ := Text.prefix_of_byteLength_le parts behind
    rw [List.append_assoc, List.append_cancel_left_eq] at parts
    obtain ⟨span, hmem, starts, stops⟩ := h.covers parts units
    rcases inGap span hmem with earlier | later <;> omega

/-- At most one literal starts at a place. -/
theorem StandsAt.unique {text content content' : List Char} {start stop stop' : Nat}
    {quote quote' : Quote} (h : StandsAt text start stop quote content)
    (h' : StandsAt text start stop' quote' content') :
    quote = quote' ∧ content = content' ∧ stop = stop' := by
  obtain ⟨before, after, rfl, rfl, rfl⟩ := Text.slice?_eq_some_iff.mp h.1
  obtain ⟨before', after', parts, bytes, rfl⟩ := Text.slice?_eq_some_iff.mp h'.1
  obtain rfl := Text.eq_of_byteLength_eq parts bytes
  rw [List.append_cancel_left_eq] at parts
  simp only [enclose, List.cons_append, List.append_assoc, List.nil_append, List.cons_eq_cons]
    at parts
  obtain ⟨char, bodies⟩ := parts
  obtain rfl : quote = quote' := by
    apply Option.some.inj
    rw [← Segment.ofChar?_char, char, Segment.ofChar?_char]
  -- Both contents are what the one quote is closed with.
  have closed := close_of_units quote.char_ne_slash h.2 after
  rw [bodies, close_of_units quote.char_ne_slash h'.2, Option.some.injEq] at closed
  exact ⟨rfl, closed.symm, by rw [closed]⟩

namespace Leftmost

variable {text : List Char} {offset : Nat} {span : Span} {spans : List Span}

theorem tail (h : Leftmost text offset (span :: spans)) : Leftmost text span.stop spans where
  ordered := h.ordered.of_cons
  inside := by
    intro later hmem
    obtain ⟨-, within⟩ := h.inside later (List.mem_cons_of_mem _ hmem)
    exact ⟨List.rel_of_pairwise_cons h.ordered hmem, within⟩
  boundaries := fun later hmem => h.boundaries later (List.mem_cons_of_mem _ hmem)
  literal := fun later hmem => h.literal later (List.mem_cons_of_mem _ hmem)
  gaps := by
    intro place behind inGap
    obtain ⟨first, nonempty, -⟩ := h.inside span List.mem_cons_self
    apply h.gaps place (by omega)
    intro later hmem
    rcases List.mem_cons.mp hmem with rfl | hmem
    · exact .inr behind
    · exact inGap later hmem

/-- No span starts before the first one. -/
theorem start_le (h : Leftmost text offset (span :: spans)) {later : Span}
    (hmem : later ∈ span :: spans) : span.start ≤ later.start := by
  rcases List.mem_cons.mp hmem with rfl | hmem
  · exact Nat.le_refl _
  · have := List.rel_of_pairwise_cons h.ordered hmem
    have := h.inside span List.mem_cons_self
    omega

/-- Where a literal starts, the spans leave no gap. -/
theorem exists_of_standsAt (h : Leftmost text offset spans) {start stop : Nat} {quote : Quote}
    {content : List Char} (behind : offset ≤ start)
    (stands : StandsAt text start stop quote content) : ∃ span ∈ spans, span.start ≤ start := by
  by_contra none
  push Not at none
  exact h.gaps start behind (fun span hmem => .inl (none span hmem)) stop quote content stands

/-- Two ways to take the first literal agree on its start. -/
theorem start_le_start {spans' : List Span} {span' : Span}
    (h : Leftmost text offset (span :: spans)) (h' : Leftmost text offset (span' :: spans')) :
    span'.start ≤ span.start := by
  obtain ⟨other, hmem, starts⟩ := h'.exists_of_standsAt (h.inside span List.mem_cons_self).1
    (h.literal span List.mem_cons_self)
  have := h'.start_le hmem
  omega

/-- There is one way to take the literals of a text leftmost first. -/
theorem extent_eq {spans' : List Span} (h : Leftmost text offset spans)
    (h' : Leftmost text offset spans') : spans.map Span.extent = spans'.map Span.extent := by
  induction spans generalizing offset spans' with
  | nil =>
    cases spans' with
    | nil => rfl
    | cons span' spans' =>
      obtain ⟨span, hmem, -⟩ := h.exists_of_standsAt (h'.inside span' List.mem_cons_self).1
        (h'.literal span' List.mem_cons_self)
      simp at hmem
  | cons span spans ih =>
    cases spans' with
    | nil =>
      obtain ⟨span', hmem, -⟩ := h'.exists_of_standsAt (h.inside span List.mem_cons_self).1
        (h.literal span List.mem_cons_self)
      simp at hmem
    | cons span' spans' =>
      have start : span.start = span'.start :=
        Nat.le_antisymm (start_le_start h' h) (start_le_start h h')
      have stands := h.literal span List.mem_cons_self
      rw [start] at stands
      obtain ⟨quote, content, stop⟩ := stands.unique (h'.literal span' List.mem_cons_self)
      have first : span.extent = span'.extent := by
        simp [Span.extent, quote, String.toList_injective content, start, stop]
      have rest := h'.tail
      rw [← stop] at rest
      rw [List.map_cons, List.map_cons, first, ih h.tail rest]

end Leftmost

end Literal

namespace Segment

/-- A terminator is a gap, and separates the segments before it from those behind it. -/
theorem split_append_terminator {t : Char} (ht : Literal.isTerminator t = true)
    (cs rest : List Char) : split (cs ++ t :: rest) = split cs ++ gap t :: split rest := by
  induction cs using split_induction with
  | nil =>
    apply split_gap
    left
    cases hquote : Quote.ofChar? t with
    | none => rfl
    | some quote => exact absurd (eq_char_of_ofChar? hquote) (Literal.isTerminator_ne_quote ht quote)
  | gap c cs isGap ih =>
    have same : ∀ quote, Quote.ofChar? c = some quote →
        Literal.close c (cs ++ t :: rest) = Literal.close c cs := by
      intro quote hquote
      obtain rfl := eq_char_of_ofChar? hquote
      exact Literal.close_append_terminator ht quote cs rest
    have isGap' : IsGap c (cs ++ t :: rest) := by
      cases hquote : Quote.ofChar? c with
      | none => exact .inl hquote
      | some quote => exact .inr ((same quote hquote).trans (isGap.resolve_left (by simp [hquote])))
    rw [List.cons_append, split_gap isGap', split_gap isGap, ih, List.cons_append]
  | literal quote content cs closed ih =>
    have closed' : Literal.close quote.char (content ++ quote.char :: (cs ++ t :: rest)) =
        some content :=
      Literal.close_of_units quote.char_ne_slash (Literal.units_of_close closed) _
    rw [List.append_assoc, split_literal closed', split_literal closed, ih, List.cons_append]

theorem extents_append (offset : Nat) (segments more : List Segment) :
    extents offset (segments ++ more) =
      extents offset segments ++
        extents (offset + Text.byteLength (segments.flatMap chars)) more := by
  induction segments generalizing offset with
  | nil => rfl
  | cons segment segments ih =>
    cases segment with
    | gap c => simp [extents, chars, ih, Nat.add_assoc]
    | literal quote content => simp [extents, chars, ih, Nat.add_assoc]

theorem map_moved_extents (bytes offset : Nat) (segments : List Segment) :
    extents (bytes + offset) segments =
      (extents offset segments).map fun (quote, content, start, stop) =>
        (quote, content, bytes + start, bytes + stop) := by
  induction segments generalizing offset with
  | nil => rfl
  | cons segment segments ih =>
    cases segment with
    | gap c => rw [extents, extents, Nat.add_assoc, ih]
    | literal quote content => simp only [extents, List.map_cons, Nat.add_assoc, ih]

end Segment

/-- The span when as many bytes are put in front of the text. -/
def Span.moved (bytes : Nat) (span : Span) : Span :=
  { span with start := bytes + span.start, stop := bytes + span.stop }

/-- Scanning is local to a line: before and behind a terminator a scan finds the literals that it
    finds in the text before it and in the text behind it, whatever stands on the other side. -/
theorem scan_append_terminator (before after : String) {t : Char}
    (ht : Literal.isTerminator t = true) :
    (scan (before.push t ++ after)).map Span.extent =
      (scan before ++
        (scan after).map (Span.moved (Text.byteLength (before.toList ++ [t])))).map Span.extent := by
  have chars : (before.push t ++ after).toList = before.toList ++ t :: after.toList := by simp
  have bytes : Text.byteLength ((Segment.split before.toList).flatMap Segment.chars) + t.utf8Size =
      Text.byteLength (before.toList ++ [t]) := by
    rw [Segment.flatMap_chars_split, Text.byteLength_append, Text.byteLength_cons,
      Text.byteLength_nil, Nat.add_zero]
  have moved : ((scan after).map (Span.moved (Text.byteLength (before.toList ++ [t])))).map
      Span.extent =
        Segment.extents (Text.byteLength (before.toList ++ [t])) (Segment.split after.toList) := by
    rw [← Nat.add_zero (Text.byteLength (before.toList ++ [t])), Segment.map_moved_extents,
      ← Segment.map_extent_scanFrom _ 0 1, List.map_map, List.map_map]
    rfl
  rw [List.map_append, moved, scan, Segment.map_extent_scanFrom, chars,
    Segment.split_append_terminator ht, Segment.extents_append, Segment.extents, Nat.zero_add, bytes,
    scan, Segment.map_extent_scanFrom]

/-- A quote and a backslash that nothing follows on their line do not reach over its end. -/
theorem scan_append_terminator_dangling :
    (scan ("\"one\" it's \\".push '\u2028' ++ "two' \"three\"")).map Span.extent =
      [(.double, "one", 0, 5), (.double, "three", 20, 27)] :=
  (scan_append_terminator "\"one\" it's \\" "two' \"three\"" (by decide)).trans (by decide +kernel)

end Phrasebook
