import Phrasebook.Proofs.CatalogText
import Phrasebook.Proofs.Position

/-!
# Localizing line by line

Neither a quoted sentence nor a call holds the end of a line. So each line of a text can be localized
on its own. Main statement: the lines of a localized text are the localized lines of its source, and
the line number of a candidate is that of its line in both.
-/

namespace Phrasebook

namespace Replacement

/-- What is replaced and what takes its place stand on one line. -/
structure OnOneLine (replacement : Replacement) : Prop where
  quoted_ne_nil : replacement.quoted.toList ≠ []
  call_ne_nil : replacement.call.toList ≠ []
  quoted : Text.Unbroken replacement.quoted.toList
  call : Text.Unbroken replacement.call.toList

theorem OnOneLine.replace_eq {replacement : Replacement} (h : replacement.OnOneLine)
    (text : List Char) :
    Text.replace replacement.quoted.toList replacement.call.toList text =
      Text.replaceFrom replacement.quoted.toList replacement.call.toList 0 text := by
  unfold Text.replace
  rw [if_neg]
  simpa using h.quoted_ne_nil

variable {replacements : List Replacement} (hline : ∀ r ∈ replacements, r.OnOneLine)
include hline

/-- Both sides of a character that ends a line are localized on their own. -/
theorem applyAll_append_break {c : Char} (hc : Text.isBreak c = true) (before after : List Char) :
    applyAll replacements (before ++ c :: after) =
      ((applyAll replacements before).1 ++ c :: (applyAll replacements after).1,
        (applyAll replacements before).2 + (applyAll replacements after).2) := by
  induction replacements generalizing before after with
  | nil => rfl
  | cons r rest ih =>
    have first := hline r List.mem_cons_self
    have others := ih fun other hmem => hline other (List.mem_cons_of_mem _ hmem)
    have absent : c ∉ r.quoted.toList := by
      intro hmem
      simp [first.quoted c hmem] at hc
    simp only [applyAll, first.replace_eq, others,
      Text.replaceFrom_append_cons first.quoted_ne_nil absent, Prod.mk.injEq, true_and]
    omega

theorem applyAll_nil : applyAll replacements [] = ([], 0) := by
  induction replacements with
  | nil => rfl
  | cons r rest ih =>
    have first := hline r List.mem_cons_self
    have others := ih fun other hmem => hline other (List.mem_cons_of_mem _ hmem)
    simp only [applyAll, first.replace_eq, Text.replaceFrom, others]

theorem unbroken_applyAll {row : List Char} (hrow : Text.Unbroken row) :
    Text.Unbroken (applyAll replacements row).1 := by
  induction replacements generalizing row with
  | nil => exact hrow
  | cons r rest ih =>
    have first := hline r List.mem_cons_self
    rw [applyAll, first.replace_eq]
    apply ih fun other hmem => hline other (List.mem_cons_of_mem _ hmem)
    intro c hmem
    rcases Text.mem_replaceFrom first.quoted_ne_nil hmem with inRow | inCall
    · exact hrow c inRow
    · exact first.call c inCall

/-- No text starts with a line feed only after it has been localized. -/
theorem head?_applyAll {text : List Char} (htext : text.head? ≠ some '\n') :
    (applyAll replacements text).1.head? ≠ some '\n' := by
  induction replacements generalizing text with
  | nil => exact htext
  | cons r rest ih =>
    have first := hline r List.mem_cons_self
    rw [applyAll, first.replace_eq]
    apply ih fun other hmem => hline other (List.mem_cons_of_mem _ hmem)
    rcases Text.head?_replaceFrom first.quoted_ne_nil first.call_ne_nil text with same | ofCall
    · rw [same]
      exact htext
    · rw [ofCall]
      intro feed
      have := first.call '\n' (List.mem_of_head? feed)
      simp [Text.isBreak] at this

/-- Both sides of the end of a line are localized on their own. -/
theorem applyAll_append_ending {ending : List Char}
    (hending : ending ∈ [['\n'], ['\r'], ['\r', '\n']]) (before after : List Char) :
    applyAll replacements (before ++ (ending ++ after)) =
      ((applyAll replacements before).1 ++ (ending ++ (applyAll replacements after).1),
        (applyAll replacements before).2 + (applyAll replacements after).2) := by
  simp only [List.mem_cons, List.not_mem_nil, or_false] at hending
  rcases hending with rfl | rfl | rfl
  · exact applyAll_append_break hline rfl before after
  · exact applyAll_append_break hline rfl before after
  · have feed : applyAll replacements ([] ++ '\n' :: after) = _ :=
      applyAll_append_break hline rfl [] after
    have both : applyAll replacements (before ++ '\r' :: '\n' :: after) = _ :=
      applyAll_append_break hline rfl before ('\n' :: after)
    rw [applyAll_nil hline, List.nil_append, List.nil_append] at feed
    simpa [feed] using both

/-- The lines of a localized text are the localized lines of its source. -/
theorem splitLines_applyAll (text : List Char) :
    Text.splitLines (applyAll replacements text).1 =
      (Text.splitLines text).map fun row => (applyAll replacements row).1 := by
  induction text using Text.lines_induction with
  | last row unbroken =>
    rw [Text.splitLines_unbroken unbroken, Text.splitLines_unbroken (unbroken_applyAll hline unbroken)]
    rfl
  | line row ending rest unbroken hending ih =>
    have isEnding : ending ∈ [['\n'], ['\r'], ['\r', '\n']] := by
      rcases hending with rfl | rfl | ⟨rfl, -⟩ <;> simp
    have still : Text.EndsBefore ending (applyAll replacements rest).1 := by
      rcases hending with rfl | rfl | ⟨rfl, alone⟩
      · exact .inl rfl
      · exact .inr (.inl rfl)
      · exact .inr (.inr ⟨rfl, head?_applyAll hline alone⟩)
    rw [applyAll_append_ending hline isEnding, Text.splitLines_line unbroken hending,
      Text.splitLines_line (unbroken_applyAll hline unbroken) still, ih]
    rfl

end Replacement

/-- A call on a checked table stands on one line. -/
theorem unbroken_lookupCall {table : String} (htable : Config.checkTable table = .ok ())
    (index : Nat) : Text.Unbroken (lookupCall table index).toList := by
  have name := (Catalog.bare_table htable).unbroken
  have digits := (Catalog.bare_toDigits index).unbroken
  rw [toList_lookupCall]
  simp [name, digits, Text.isBreak]

/-- What a catalog of candidates replaces stands on one line. -/
theorem Catalog.onOneLine {catalog : Catalog} {table : String} (hquotable : catalog.Quotable)
    (htable : Config.checkTable table = .ok ()) :
    ∀ replacement ∈ Replacement.ofCatalog catalog table, replacement.OnOneLine := by
  intro replacement hmem
  obtain ⟨entry, hentry, rfl⟩ := List.mem_map.mp hmem
  obtain ⟨-, -, onLine⟩ := hquotable _ (index_le_of_mem_number hentry).2.2
  have content : Text.Unbroken entry.sentence.content.toList := fun c inContent =>
    Literal.isBreak_of_not_isTerminator (onLine c inContent)
  constructor
  case quoted_ne_nil => exact Piece.quoted_ne_nil entry
  case call_ne_nil => simp [toList_lookupCall]
  case quoted =>
    rw [Piece.toList_quoted]
    simp [content, Text.isBreak]
  case call => exact unbroken_lookupCall htable entry.index

/-- A candidate has the line with its number as its source line. -/
theorem sourceLine_of_candidate {file text : String} {candidate : Candidate}
    (h : candidate ∈ candidatesIn file text) :
    (Text.splitLines text.toList)[candidate.literal.place.line - 1]? =
      some candidate.sourceLine.toList := by
  obtain ⟨span, hspan, rfl⟩ := List.mem_map.mp h
  obtain ⟨before, quote, content, rest, htext, units, rfl⟩ :=
    (Literal.scanned_scan text).exists_of_mem (List.mem_of_mem_filter hspan)
  exact (Span.placed_toCandidate htext units file).sourceLine

/-- The line structure of a text is kept: what stands on both sides of the end of a line is localized
    on its own, so that the localized text has the localized lines of its source, in order. The line
    with the number of a candidate is the localized source line of the candidate. -/
theorem localizeText_line_by_line (sentences : List Approved) (table : String)
    (hcandidate : ∀ sentence ∈ sentences, ∃ file source, ∃ candidate ∈ candidatesIn file source,
      candidate.literal.content = sentence.content)
    (htable : Config.checkTable table = .ok ()) :
    let localized := fun text =>
      localizeText text (Replacement.ofCatalog ⟨sentences⟩ table)
    (∀ before after, ∀ ending ∈ ["\n", "\r", "\r\n"],
      localized (before ++ ending ++ after) =
        ((localized before).1 ++ ending ++ (localized after).1,
          (localized before).2 + (localized after).2)) ∧
    (∀ text, Text.splitLines (localized text).1.toList =
      (Text.splitLines text.toList).map fun row => (localized (String.ofList row)).1.toList) ∧
    ∀ file text, ∀ candidate ∈ candidatesIn file text,
      (Text.splitLines (localized text).1.toList)[candidate.literal.place.line - 1]? =
        some (localized candidate.sourceLine).1.toList := by
  intro localized
  have quotable : (Catalog.mk sentences).Quotable := Catalog.quotable_of_candidates hcandidate
  have hline := Catalog.onOneLine quotable htable
  have lines : ∀ text, Text.splitLines (localized text).1.toList =
      (Text.splitLines text.toList).map fun row => (localized (String.ofList row)).1.toList := by
    intro text
    simp only [localized, localizeText, String.toList_ofList]
    exact Replacement.splitLines_applyAll hline text.toList
  refine ⟨?_, lines, ?_⟩
  · intro before after ending hmem
    have isEnding : ending.toList ∈ [['\n'], ['\r'], ['\r', '\n']] := by
      simp only [List.mem_cons, List.not_mem_nil, or_false] at hmem
      rcases hmem with rfl | rfl | rfl <;> decide
    simp only [localized, localizeText, String.toList_append,
      Replacement.applyAll_append_ending hline isEnding, String.ofList_append, String.ofList_toList,
      String.append_assoc]
  · intro file text candidate hmem
    rw [lines, List.getElem?_map, sourceLine_of_candidate hmem, Option.map_some,
      String.ofList_toList]

/-- Two lines of which each is localized on its own. -/
theorem localizeText_line_by_line_return_feed :
    localizeText ("say(\"a b\")" ++ "\r\n" ++ "'\"a b'")
        (Replacement.ofCatalog ⟨[⟨"a b", ⟨"x", 1⟩⟩]⟩ "T") =
      ("say(T:GetLang(1))" ++ "\r\n" ++ "'\"a b'", 1 + 0) := by
  have candidate : ∀ sentence ∈ [Approved.mk "a b" ⟨"x", 1⟩], ∃ file source,
      ∃ candidate ∈ candidatesIn file source,
        candidate.literal.content = sentence.content := by
    intro sentence hmem
    obtain rfl := List.mem_singleton.mp hmem
    exact ⟨"x", "'a b'", by decide +kernel⟩
  obtain ⟨sides, -⟩ := localizeText_line_by_line [⟨"a b", ⟨"x", 1⟩⟩] "T" candidate (by decide)
  refine (sides "say(\"a b\")" "'\"a b'" "\r\n" (by decide)).trans ?_
  decide +kernel

end Phrasebook
