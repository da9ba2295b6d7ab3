import Phrasebook.Proofs.Grammar
import Phrasebook.Proofs.Text.Lines
import Phrasebook.Proofs.Text.Offset

/-!
# Texts in segments

A scanned text is a sequence of literals and of characters between them. The segments give the scan
without offsets; `Segment.spans` adds them again. Main statement: the spans of `scan` are the
literals among the segments, each at the offset to which the segments before it reach.
-/

namespace Phrasebook

/-- A part of a scanned text. -/
inductive Segment where
  /-- A character outside of literals. -/
  | gap (c : Char)
  | literal (quote : Quote) (content : List Char)
  deriving DecidableEq, Repr

namespace Segment

/-- The characters of a literal, quotes included. -/
def enclose (quote : Quote) (content : List Char) : List Char :=
  quote.char :: (content ++ [quote.char])

/-- The characters of a segment. -/
def chars : Segment → List Char
  | gap c => [c]
  | literal quote content => enclose quote content

/-- The segments of a text, of which the first `held` characters belong to the literal that has just
    been found. -/
def splitFrom : Nat → List Char → List Segment
  | _, [] => []
  | held + 1, _ :: cs => splitFrom held cs
  | 0, c :: cs =>
    match Quote.ofChar? c with
    | none => gap c :: splitFrom 0 cs
    | some quote =>
      match Literal.close c cs with
      | none => gap c :: splitFrom 0 cs
      | some content => literal quote content :: splitFrom (content.length + 1) cs

/-- The segments of a text. -/
def split (cs : List Char) : List Segment :=
  splitFrom 0 cs

theorem ofChar?_char (quote : Quote) : Quote.ofChar? quote.char = some quote := by
  cases quote <;> rfl

theorem eq_char_of_ofChar? {c : Char} {quote : Quote} (h : Quote.ofChar? c = some quote) :
    c = quote.char := by
  unfold Quote.ofChar? at h
  split at h
  · obtain rfl : Quote.double = quote := by simpa using h
    assumption
  · split at h
    · obtain rfl : Quote.single = quote := by simpa using h
      assumption
    · simp at h

theorem splitFrom_held (dropped rest : List Char) :
    splitFrom dropped.length (dropped ++ rest) = split rest := by
  induction dropped with
  | nil => rfl
  | cons c dropped ih => simpa [splitFrom] using ih

@[simp] theorem split_nil : split [] = [] := rfl

/-- A character is a gap unless it is a quote that opens a closed literal. -/
def IsGap (c : Char) (cs : List Char) : Prop :=
  Quote.ofChar? c = none ∨ Literal.close c cs = none

theorem split_gap {c : Char} {cs : List Char} (h : IsGap c cs) :
    split (c :: cs) = gap c :: split cs := by
  rcases h with notQuote | unclosed
  · simp [split, splitFrom, notQuote]
  · cases hquote : Quote.ofChar? c with
    | none => simp [split, splitFrom, hquote]
    | some quote => simp [split, splitFrom, hquote, unclosed]

theorem split_literal {quote : Quote} {content rest : List Char}
    (h : Literal.close quote.char (content ++ quote.char :: rest) = some content) :
    split (enclose quote content ++ rest) = literal quote content :: split rest := by
  have held : splitFrom (content.length + 1) (content ++ quote.char :: rest) = split rest := by
    simpa using splitFrom_held (content ++ [quote.char]) rest
  simp [enclose, split, splitFrom, ofChar?_char, h, held]

/-- What holds of a text if it holds of the empty text, at a gap and at a literal. -/
theorem split_induction {motive : List Char → Prop} (nil : motive [])
    (gap : ∀ c cs, IsGap c cs → motive cs → motive (c :: cs))
    (literal : ∀ quote content rest,
      Literal.close quote.char (content ++ quote.char :: rest) = some content → motive rest →
      motive (enclose quote content ++ rest))
    (cs : List Char) : motive cs := by
  induction h : cs.length using Nat.strongRecOn generalizing cs with
  | ind n ih =>
    cases cs with
    | nil => exact nil
    | cons c cs =>
      by_cases isGap : IsGap c cs
      · exact gap c cs isGap (ih _ (by simp [← h]) cs rfl)
      · simp only [IsGap, not_or, ← ne_eq, Option.ne_none_iff_exists'] at isGap
        obtain ⟨⟨quote, hquote⟩, content, closed⟩ := isGap
        obtain rfl := eq_char_of_ofChar? hquote
        obtain ⟨rest, rfl⟩ := Literal.exists_of_close closed
        have shorter : rest.length < n := by
          simp only [List.length_cons, List.length_append] at h
          omega
        simpa [enclose] using literal quote content rest closed (ih _ shorter rest rfl)

/-- The segments of a text make up the text. -/
theorem flatMap_chars_split (cs : List Char) : (split cs).flatMap chars = cs := by
  induction cs using split_induction with
  | nil => rfl
  | gap c cs h ih => simp [split_gap h, chars, ih]
  | literal quote content rest h ih => simp [split_literal h, chars, ih]

/-- The literals of a text stand on one line each. -/
theorem not_isTerminator_of_mem_split {quote : Quote} {content cs : List Char}
    (h : literal quote content ∈ split cs) {c : Char} (hmem : c ∈ content) :
    Literal.isTerminator c = false := by
  induction cs using split_induction with
  | nil => simp at h
  | gap d cs hgap ih =>
    rw [split_gap hgap] at h
    exact ih (by simpa using h)
  | literal quote' content' rest hclose ih =>
    rw [split_literal hclose, List.mem_cons] at h
    rcases h with same | later
    · obtain ⟨rfl, rfl⟩ := Segment.literal.injEq .. |>.mp same
      exact Literal.not_isTerminator_of_close hclose hmem
    · exact ih later

end Segment

/-- Where a literal stands, without the line. -/
def Span.extent (span : Span) : Quote × String × Nat × Nat :=
  (span.quote, span.content, span.start, span.stop)

namespace Segment

/-- The literals among segments that start at a byte offset. -/
def extents : Nat → List Segment → List (Quote × String × Nat × Nat)
  | _, [] => []
  | offset, gap c :: rest => extents (offset + c.utf8Size) rest
  | offset, literal quote content :: rest =>
    let stop := offset + Text.byteLength (enclose quote content)
    (quote, String.ofList content, offset, stop) :: extents stop rest

theorem scanFrom_held {dropped : List Char} (h : Text.Unbroken dropped) (rest : List Char)
    (offset line : Nat) :
    Literal.scanFrom dropped.length offset line (dropped ++ rest) =
      Literal.scanFrom 0 (offset + Text.byteLength dropped) line rest := by
  induction dropped generalizing offset with
  | nil => rfl
  | cons c dropped ih =>
    obtain ⟨notBreak, unbroken⟩ := Text.unbroken_cons.mp h
    have stays : Text.endsLine c (dropped ++ rest) = false := Text.endsLine_eq_false notBreak _
    rw [Text.byteLength_cons, ← Nat.add_assoc, ← ih unbroken]
    simp [Literal.scanFrom, stays]

theorem scanFrom_gap {c : Char} {cs : List Char} (h : IsGap c cs) (offset line : Nat) :
    Literal.scanFrom 0 offset line (c :: cs) =
      Literal.scanFrom 0 (offset + c.utf8Size)
        (if Text.endsLine c cs then line + 1 else line) cs := by
  rcases h with notQuote | unclosed
  · simp [Literal.scanFrom, notQuote]
  · cases hquote : Quote.ofChar? c with
    | none => simp [Literal.scanFrom, hquote]
    | some quote => simp [Literal.scanFrom, hquote, unclosed]

theorem scanFrom_literal {quote : Quote} {content rest : List Char}
    (h : Literal.close quote.char (content ++ quote.char :: rest) = some content)
    (offset line : Nat) :
    Literal.scanFrom 0 offset line (enclose quote content ++ rest) =
      { content := String.ofList content, quote, line, start := offset,
        stop := offset + Text.byteLength (enclose quote content) } ::
      Literal.scanFrom 0 (offset + Text.byteLength (enclose quote content)) line rest := by
  have unbroken : Text.Unbroken (content ++ [quote.char]) := by
    rw [Text.unbroken_append]
    refine ⟨fun c hmem => ?_, by simp [Quote.isBreak_char]⟩
    exact Literal.isBreak_of_not_isTerminator (Literal.not_isTerminator_of_close h hmem)
  have held := scanFrom_held unbroken rest (offset + quote.char.utf8Size) line
  have stays : ∀ cs, Text.endsLine quote.char cs = false :=
    Text.endsLine_eq_false quote.isBreak_char
  have bytes : offset + Text.byteLength (enclose quote content) =
      offset + quote.char.utf8Size + Text.byteLength content + quote.char.utf8Size := by
    simp [enclose]
    omega
  have bytes' : offset + Text.byteLength (enclose quote content) =
      offset + quote.char.utf8Size + Text.byteLength (content ++ [quote.char]) := by
    simp [enclose]
    omega
  rw [bytes', ← held, ← bytes', bytes]
  simp [enclose, Literal.scanFrom, ofChar?_char, h, stays]

/-- A scan finds the literals among the segments. -/
theorem map_extent_scanFrom (cs : List Char) (offset line : Nat) :
    (Literal.scanFrom 0 offset line cs).map Span.extent = extents offset (split cs) := by
  induction cs using split_induction generalizing offset line with
  | nil => rfl
  | gap c cs h ih =>
    rw [scanFrom_gap h, split_gap h, ih, extents]
  | literal quote content rest h ih =>
    rw [scanFrom_literal h, split_literal h, List.map_cons, ih]
    rfl

/-- A literal with double quotes and the given content follows `before` in the text. -/
def Stands (cs content before : List Char) : Prop :=
  ∃ left right, split cs = left ++ literal .double content :: right ∧ left.flatMap chars = before

theorem mem_extents {quote : Quote} {content : String} {start stop offset : Nat}
    {segments : List Segment} :
    (quote, content, start, stop) ∈ extents offset segments ↔
      ∃ left right, segments = left ++ literal quote content.toList :: right ∧
        start = offset + Text.byteLength (left.flatMap chars) ∧
        stop = start + Text.byteLength (enclose quote content.toList) := by
  induction segments generalizing offset with
  | nil => simp [extents]
  | cons segment rest ih =>
    cases segment with
    | gap c =>
      rw [extents, ih]
      constructor
      · rintro ⟨left, right, rfl, hstart, hstop⟩
        exact ⟨gap c :: left, right, rfl, by simp [chars, hstart, Nat.add_assoc], hstop⟩
      · rintro ⟨left, right, split, hstart, hstop⟩
        cases left with
        | nil => simp at split
        | cons first left =>
          obtain ⟨rfl, rfl⟩ := List.cons_eq_cons.mp split
          exact ⟨left, right, rfl, by simp [hstart, chars, Nat.add_assoc], hstop⟩
    | literal quote' content' =>
      rw [extents, List.mem_cons, ih]
      constructor
      · rintro (here | ⟨left, right, rfl, hstart, hstop⟩)
        · simp only [Prod.mk.injEq] at here
          obtain ⟨rfl, rfl, rfl, rfl⟩ := here
          exact ⟨[], rest, by simp, by simp, by simp⟩
        · exact ⟨literal quote' content' :: left, right, rfl,
            by simp [hstart, chars, Nat.add_assoc], hstop⟩
      · rintro ⟨left, right, split, hstart, hstop⟩
        cases left with
        | nil =>
          obtain ⟨same, rfl⟩ := List.cons_eq_cons.mp split
          obtain ⟨rfl, rfl⟩ := Segment.literal.injEq .. |>.mp same
          left
          simp only [List.flatMap_nil, Text.byteLength_nil, Nat.add_zero] at hstart
          simp [hstart, hstop]
        | cons first left =>
          obtain ⟨rfl, rfl⟩ := List.cons_eq_cons.mp split
          right
          exact ⟨left, right, rfl, by simp [hstart, chars, Nat.add_assoc], hstop⟩

/-- A text has a literal at an offset if it stands after a beginning with that many bytes. -/
theorem exists_span_iff {text content : String} {start : Nat} :
    (∃ span ∈ scan text, span.quote = .double ∧ span.content = content ∧ span.start = start) ↔
      ∃ before, Stands text.toList content.toList before ∧ start = Text.byteLength before := by
  have scanned := map_extent_scanFrom text.toList 0 1
  constructor
  · rintro ⟨span, hmem, hquote, rfl, rfl⟩
    have : span.extent ∈ extents 0 (split text.toList) := by
      rw [← scanned]
      exact List.mem_map_of_mem hmem
    obtain ⟨left, right, hsplit, hstart, -⟩ := mem_extents.mp this
    rw [hquote] at hsplit
    exact ⟨left.flatMap chars, ⟨left, right, hsplit, rfl⟩, by simpa using hstart⟩
  · rintro ⟨before, ⟨left, right, hsplit, rfl⟩, rfl⟩
    have : (Quote.double, content, Text.byteLength (left.flatMap chars),
        Text.byteLength (left.flatMap chars) +
          Text.byteLength (enclose .double content.toList)) ∈ extents 0 (split text.toList) :=
      mem_extents.mpr ⟨left, right, hsplit, by simp, rfl⟩
    rw [← scanned] at this
    obtain ⟨span, hmem, hextent⟩ := List.mem_map.mp this
    simp only [Span.extent, Prod.mk.injEq] at hextent
    exact ⟨span, hmem, hextent.1, hextent.2.1, hextent.2.2.1⟩

/-- Behind a gap a literal stands where it stands in the rest. -/
theorem stands_gap {c : Char} {cs content before : List Char} (h : IsGap c cs) :
    Stands (c :: cs) content before ↔ ∃ before', before = c :: before' ∧ Stands cs content before' := by
  rw [Stands, split_gap h]
  constructor
  · rintro ⟨left, right, hsplit, rfl⟩
    cases left with
    | nil => simp at hsplit
    | cons first left =>
      obtain ⟨rfl, tails⟩ := List.cons_eq_cons.mp hsplit
      exact ⟨left.flatMap chars, by simp [chars], left, right, tails, rfl⟩
  · rintro ⟨before', rfl, left, right, hsplit, rfl⟩
    exact ⟨gap c :: left, right, by simp [hsplit], by simp [chars]⟩

/-- At a literal stands that literal, and behind it what stands in the rest. -/
theorem stands_literal {quote : Quote} {content rest content' before : List Char}
    (h : Literal.close quote.char (content ++ quote.char :: rest) = some content) :
    Stands (enclose quote content ++ rest) content' before ↔
      (before = [] ∧ quote = .double ∧ content = content') ∨
        ∃ before', before = enclose quote content ++ before' ∧ Stands rest content' before' := by
  rw [Stands, split_literal h]
  constructor
  · rintro ⟨left, right, hsplit, rfl⟩
    cases left with
    | nil =>
      obtain ⟨same, -⟩ := List.cons_eq_cons.mp hsplit
      obtain ⟨rfl, rfl⟩ := Segment.literal.injEq .. |>.mp same
      exact .inl ⟨rfl, rfl, rfl⟩
    | cons first left =>
      obtain ⟨rfl, tails⟩ := List.cons_eq_cons.mp hsplit
      exact .inr ⟨left.flatMap chars, by simp [chars], left, right, tails, rfl⟩
  · rintro (⟨rfl, rfl, rfl⟩ | ⟨before', rfl, left, right, hsplit, rfl⟩)
    · exact ⟨[], split rest, rfl, rfl⟩
    · exact ⟨literal quote content :: left, right, by simp [hsplit], by simp [chars]⟩

end Segment

end Phrasebook
