import Phrasebook.Proofs.Piece
import Phrasebook.Proofs.Segment

/-!
# Settled texts

Marking the literals of an entry takes every place where its quoted content occurs, while a scan
knows which quotes open a literal. A text is settled for an entry when every such place is a literal
or has lost one of its quotes to a literal that is replaced before. Main statement: marking replaces
exactly the literals of the entries when the text is settled for each of them.
-/

namespace Phrasebook

namespace Segment

variable {entries : List Catalog.Entry}

/-- The entry that has the content of a literal with double quotes. -/
def entryFor (entries : List Catalog.Entry) (quote : Quote) (content : List Char) :
    Option Catalog.Entry :=
  if quote = .double then entries.find? (·.sentence.content.toList = content) else none

theorem of_entryFor_eq_some {quote : Quote} {content : List Char} {entry : Catalog.Entry}
    (h : entryFor entries quote content = some entry) :
    quote = .double ∧ entry ∈ entries ∧ entry.sentence.content.toList = content := by
  unfold entryFor at h
  split at h
  · exact ⟨‹_›, List.mem_of_find?_eq_some h, by simpa using List.find?_some h⟩
  · simp at h

theorem entryFor_eq_none_iff {quote : Quote} {content : List Char} :
    entryFor entries quote content = none ↔
      (quote = .double → ∀ entry ∈ entries, entry.sentence.content.toList ≠ content) := by
  unfold entryFor
  split <;> simp_all

theorem entryFor_append_of_some {entry other : Catalog.Entry} {quote : Quote} {content : List Char}
    (h : entryFor entries quote content = some other) :
    entryFor (entries ++ [entry]) quote content = some other := by
  obtain ⟨rfl, -⟩ := of_entryFor_eq_some h
  simp only [entryFor, if_true] at h
  simp [entryFor, List.find?_append, h]

theorem entryFor_append_of_none {entry : Catalog.Entry} {quote : Quote} {content : List Char}
    (h : entryFor entries quote content = none) :
    entryFor (entries ++ [entry]) quote content =
      if quote = .double ∧ entry.sentence.content.toList = content then some entry else none := by
  by_cases hquote : quote = .double
  · simp only [entryFor, hquote, if_true] at h
    simp only [entryFor, hquote, if_true, List.find?_append, h, true_and]
    simp [List.find?_singleton]
  · simp [entryFor, hquote]

/-- The pieces of a segment when the literals of the entries are replaced. -/
def pieces (entries : List Catalog.Entry) : Segment → List Piece
  | gap c => [.char c]
  | literal quote content =>
    match entryFor entries quote content with
    | some entry => [.call entry]
    | none => Piece.ofText (enclose quote content)

/-- The text in pieces when the literals of the entries are replaced. -/
def piecesOf (entries : List Catalog.Entry) (cs : List Char) : List Piece :=
  (split cs).flatMap (pieces entries)

@[simp] theorem piecesOf_nil : piecesOf entries [] = [] := rfl

theorem piecesOf_gap {c : Char} {cs : List Char} (h : IsGap c cs) :
    piecesOf entries (c :: cs) = .char c :: piecesOf entries cs := by
  simp [piecesOf, split_gap h, pieces]

theorem piecesOf_literal {quote : Quote} {content rest : List Char}
    (h : Literal.close quote.char (content ++ quote.char :: rest) = some content) :
    piecesOf entries (enclose quote content ++ rest) =
      pieces entries (literal quote content) ++ piecesOf entries rest := by
  simp [piecesOf, split_literal h]

theorem pieces_of_some {quote : Quote} {content : List Char} {entry : Catalog.Entry}
    (h : entryFor entries quote content = some entry) :
    pieces entries (literal quote content) = [.call entry] := by
  simp [pieces, h]

theorem pieces_of_none {quote : Quote} {content : List Char}
    (h : entryFor entries quote content = none) :
    pieces entries (literal quote content) = Piece.ofText (enclose quote content) := by
  simp [pieces, h]

/-- Replacing literals does not change what the text stands for. -/
theorem restore_piecesOf (cs : List Char) : Piece.restore (piecesOf entries cs) = cs := by
  induction cs using split_induction with
  | nil => rfl
  | gap c cs h ih => simp [piecesOf_gap h, Piece.origin, ih]
  | literal quote content rest h ih =>
    rw [piecesOf_literal h]
    cases found : entryFor entries quote content with
    | none => simp [pieces_of_none found, ih]
    | some entry =>
      obtain ⟨rfl, -, rfl⟩ := of_entryFor_eq_some found
      simp [pieces_of_some found, Piece.origin, Piece.toList_quoted, enclose, ih]

/-- A literal of one of the entries stands after `before`. -/
def StandsOne (entries : List Catalog.Entry) (cs before : List Char) : Prop :=
  ∃ entry ∈ entries, Stands cs entry.sentence.content.toList before

theorem standsOne_literal {quote : Quote} {content rest before : List Char}
    (h : Literal.close quote.char (content ++ quote.char :: rest) = some content) :
    StandsOne entries (enclose quote content ++ rest) before ↔
      (before = [] ∧ entryFor entries quote content ≠ none) ∨
        ∃ before', before = enclose quote content ++ before' ∧
          StandsOne entries rest before' := by
  simp only [StandsOne, stands_literal h, ne_eq, entryFor_eq_none_iff]
  constructor
  · rintro ⟨entry, hmem, ⟨rfl, hquote, same⟩ | ⟨before', rfl, stands⟩⟩
    · exact .inl ⟨rfl, fun other => other hquote entry hmem same.symm⟩
    · exact .inr ⟨before', rfl, entry, hmem, stands⟩
  · rintro (⟨rfl, found⟩ | ⟨before', rfl, entry, hmem, stands⟩)
    · push Not at found
      obtain ⟨hquote, entry, hmem, same⟩ := found
      exact ⟨entry, hmem, .inl ⟨rfl, hquote, same.symm⟩⟩
    · exact ⟨entry, hmem, .inr ⟨before', rfl, stands⟩⟩

/-- A word that does not go on behind the first part of a text, together with the character after
    it, lies in that part. -/
theorem concat_prefix_append_iff {α : Type} {word l r : List α} {d : α}
    (hshort : ∀ word', word ≠ l ++ word') : word ++ [d] <+: l ++ r ↔ word ++ [d] <+: l := by
  refine ⟨fun h => ?_, fun h => h.trans (List.prefix_append l r)⟩
  rcases List.prefix_or_prefix_of_prefix h (List.prefix_append l r) with short | ⟨t, long⟩
  · exact short
  · rcases List.eq_nil_or_concat' t with rfl | ⟨init, last, rfl⟩
    · simp [← long]
    · rw [← List.append_assoc] at long
      exact absurd (List.append_inj_left' long.symm rfl) (hshort init)

theorem ofText_concat_prefix_iff {word cs : List Char} {c : Char} {rest : List Piece}
    (hshort : ∀ word', word ≠ cs ++ word') :
    Piece.ofText (word ++ [c]) <+: Piece.ofText cs ++ rest ↔ word ++ [c] <+: cs := by
  have hshort' : ∀ more, Piece.ofText word ≠ Piece.ofText cs ++ more := by
    intro more same
    obtain ⟨left, right, rfl, hleft, -⟩ := List.map_eq_append_iff.mp same
    change Piece.ofText left = _ at hleft
    have : left = cs := by simpa using congrArg Piece.restore hleft
    exact hshort right (by rw [this])
  rw [Piece.ofText_append, Piece.ofText_cons, Piece.ofText_nil, concat_prefix_append_iff hshort',
    ← Piece.ofText_prefix_ofText, Piece.ofText_append]
  rfl

/-- Characters up to the next quote start the text in pieces if they start the text and that quote
    does not open a literal that has been replaced. -/
theorem ofText_prefix_piecesOf_iff {word : List Char} (hword : '"' ∉ word) (cs : List Char) :
    Piece.ofText (word ++ ['"']) <+: piecesOf entries cs ↔
      word ++ ['"'] <+: cs ∧ ¬ StandsOne entries cs word := by
  induction cs using split_induction generalizing word with
  | nil => simp
  | gap c cs h ih =>
    rw [piecesOf_gap h]
    cases word with
    | nil =>
      have none : ¬ StandsOne entries (c :: cs) [] := by
        rintro ⟨entry, -, stands⟩
        obtain ⟨before', hbefore, -⟩ := (stands_gap h).mp stands
        simp at hbefore
      simp [none]
    | cons d word =>
      have later : StandsOne entries (c :: cs) (c :: word) ↔ StandsOne entries cs word := by
        simp [StandsOne, stands_gap h]
      simp only [List.mem_cons, not_or] at hword
      simp only [List.cons_append, Piece.ofText_cons, List.cons_prefix_cons, Piece.char.injEq,
        ih hword.2]
      constructor
      · rintro ⟨rfl, starts, free⟩
        exact ⟨⟨rfl, starts⟩, mt later.mp free⟩
      · rintro ⟨⟨rfl, starts⟩, free⟩
        exact ⟨rfl, starts, mt later.mpr free⟩
  | literal quote content rest h ih =>
    rw [piecesOf_literal h]
    cases found : entryFor entries quote content with
    | some entry =>
      obtain ⟨rfl, hmem, rfl⟩ := of_entryFor_eq_some found
      rw [pieces_of_some found]
      constructor
      · intro starts
        cases word <;> simp at starts
      · rintro ⟨starts, free⟩
        -- The first quote of the text is the one that opens the replaced literal.
        have : word = [] := by
          cases word with
          | nil => rfl
          | cons d word =>
            have : d = '"' := (List.cons_prefix_cons.mp (by simpa [enclose] using starts)).1
            simp [this] at hword
        subst this
        refine absurd ((standsOne_literal h).mpr (.inl ⟨rfl, ?_⟩)) free
        simp [found]
    | none =>
      rw [pieces_of_none found]
      by_cases hlong : ∃ word', word = enclose quote content ++ word'
      · obtain ⟨word', rfl⟩ := hlong
        have later : StandsOne entries (enclose quote content ++ rest)
            (enclose quote content ++ word') ↔ StandsOne entries rest word' := by
          simp [standsOne_literal h, found]
        rw [later, List.append_assoc, Piece.ofText_append, List.prefix_append_right_inj,
          List.prefix_append_right_inj]
        exact ih fun hmem => hword (List.mem_append_right _ hmem)
      · push Not at hlong
        have none : ¬ StandsOne entries (enclose quote content ++ rest) word := by
          rw [standsOne_literal h]
          rintro (⟨-, known⟩ | ⟨word', hword', -⟩)
          · exact known found
          · exact hlong word' hword'
        rw [ofText_concat_prefix_iff hlong, concat_prefix_append_iff hlong]
        simp [none]

/-- A stretch of characters stays as it is if no literal of the entry starts in it. -/
theorem mark_ofText_append_iff {entry : Catalog.Entry} {cs : List Char} {rest marked : List Piece} :
    (Piece.mark entry (Piece.ofText cs ++ rest)).1 = Piece.ofText cs ++ marked ↔
      (∀ a b, cs = a ++ b → b ≠ [] →
        ¬ Piece.ofText entry.quoted.toList <+: Piece.ofText b ++ rest) ∧
      (Piece.mark entry rest).1 = marked := by
  induction cs with
  | nil => simp
  | cons c cs ih =>
    by_cases found : Piece.ofText entry.quoted.toList <+: .char c :: (Piece.ofText cs ++ rest)
    · constructor
      · intro same
        obtain ⟨after, split⟩ := found
        rw [Piece.ofText_cons, List.cons_append, ← split, Piece.mark_quoted] at same
        simp at same
      · intro absent
        exact absurd found (absent.1 [] (c :: cs) rfl (by simp))
    · rw [Piece.ofText_cons, List.cons_append, List.cons_append, Piece.mark_cons found,
        List.cons_eq_cons, ih]
      constructor
      · rintro ⟨-, absent, same⟩
        refine ⟨?_, same⟩
        rintro (_ | ⟨d, a⟩) b split hb
        · obtain rfl : c :: cs = b := split
          exact found
        · exact absent a b (List.cons_eq_cons.mp split).2 hb
      · rintro ⟨absent, same⟩
        exact ⟨rfl, fun a b split hb => absent (c :: a) b (by simp [split]) hb, same⟩

/-- The quoted content that follows `before` in the text has lost a quote to a literal that is
    replaced no later: to one of the entries, or to one with the same content that ends where it
    starts. -/
def Spoiled (entries : List Catalog.Entry) (content cs before : List Char) : Prop :=
  (∃ entry ∈ entries, ∃ place, Stands cs entry.sentence.content.toList place ∧
    (before = place ++ '"' :: entry.sentence.content.toList ∨ place = before ++ '"' :: content)) ∨
  (∃ place, Stands cs content place ∧ before = place ++ '"' :: content)

/-- Every place where the quoted content occurs in the text is a literal or spoiled. -/
def Settled (entries : List Catalog.Entry) (content cs : List Char) : Prop :=
  ∀ before after, cs = before ++ (enclose .double content ++ after) →
    Stands cs content before ∨ Spoiled entries content cs before

theorem spoiled_gap {c : Char} {cs content before : List Char} (h : IsGap c cs) :
    Spoiled entries content (c :: cs) (c :: before) ↔ Spoiled entries content cs before := by
  simp [Spoiled, stands_gap h]

theorem spoiled_literal {quote : Quote} {content' rest content before : List Char}
    (h : Literal.close quote.char (content' ++ quote.char :: rest) = some content') :
    Spoiled entries content (enclose quote content' ++ rest) (enclose quote content' ++ before) ↔
      Spoiled entries content rest before := by
  have notLast : ∀ k : List Char, quote = .double → content' = k →
      enclose quote content' ++ before ≠ '"' :: k := by
    rintro k rfl rfl same
    have := congrArg List.length same
    simp [enclose] at this
  simp only [Spoiled, stands_literal h]
  constructor
  · rintro (⟨entry, hmem, place, (⟨rfl, hq, hk⟩ | ⟨place', rfl, stands⟩), hplace⟩ |
      ⟨place, (⟨rfl, hq, hk⟩ | ⟨place', rfl, stands⟩), hplace⟩)
    · rcases hplace with hplace | hplace
      · exact absurd hplace (notLast _ hq hk)
      · simp [enclose] at hplace
    · exact .inl ⟨entry, hmem, place', stands, by simpa using hplace⟩
    · exact absurd hplace (notLast _ hq hk)
    · exact .inr ⟨place', stands, by simpa using hplace⟩
  · rintro (⟨entry, hmem, place, stands, hplace⟩ | ⟨place, stands, hplace⟩)
    · exact .inl ⟨entry, hmem, _, .inr ⟨place, rfl, stands⟩, by simpa using hplace⟩
    · exact .inr ⟨_, .inr ⟨place, rfl, stands⟩, by simpa using hplace⟩

/-- The quote after the content that follows `before`, which starts in a literal, opens a literal of
    the entries in the rest. -/
def Opens (entries : List Catalog.Entry) (content whole rest before : List Char) : Prop :=
  ∃ word, before ++ '"' :: content = whole ++ word ∧ StandsOne entries rest word

/-- A quoted content that starts in a literal is spoiled if that literal is replaced and its closing
    quote is where the content starts, or if the content ends at the start of one in the rest. -/
theorem spoiled_inside {quote : Quote} {content' rest content before tail : List Char}
    (h : Literal.close quote.char (content' ++ quote.char :: rest) = some content')
    (htail : enclose quote content' = before ++ tail) :
    Spoiled entries content (enclose quote content' ++ rest) before ↔
      (before = '"' :: content' ∧ quote = .double ∧
        (entryFor entries quote content' ≠ none ∨ content' = content)) ∨
      Opens entries content (enclose quote content') rest before := by
  have tooLong : ∀ place k : List Char, before ≠ enclose quote content' ++ place ++ '"' :: k := by
    intro place k same
    have := congrArg List.length (htail.trans (congrArg (· ++ tail) same))
    simp at this
  simp only [Spoiled, Opens, StandsOne, stands_literal h, ne_eq, entryFor_eq_none_iff]
  constructor
  · rintro (⟨entry, hmem, place, (⟨rfl, hq, hk⟩ | ⟨place', rfl, stands⟩), hplace⟩ |
      ⟨place, (⟨rfl, hq, hk⟩ | ⟨place', rfl, stands⟩), hplace⟩)
    · rcases hplace with hplace | hplace
      · refine .inl ⟨by simpa [hk] using hplace, hq, .inl fun unknown => ?_⟩
        exact unknown hq entry hmem hk.symm
      · simp at hplace
    · rcases hplace with hplace | hplace
      · exact absurd hplace (tooLong _ _)
      · exact .inr ⟨place', hplace.symm, entry, hmem, stands⟩
    · exact .inl ⟨by simpa [hk] using hplace, hq, .inr hk⟩
    · exact absurd hplace (tooLong _ _)
  · rintro (⟨rfl, hq, known | same⟩ | ⟨word, hword, entry, hmem, stands⟩)
    · push Not at known
      obtain ⟨-, entry, hmem, same⟩ := known
      exact .inl ⟨entry, hmem, [], .inl ⟨rfl, hq, same.symm⟩, .inl (by simp [same])⟩
    · exact .inr ⟨[], .inl ⟨rfl, hq, same⟩, by simp [same]⟩
    · exact .inl ⟨entry, hmem, _, .inr ⟨word, rfl, stands⟩, .inr hword.symm⟩

/-- Whether a text that starts with a literal is settled is a matter of the quoted contents that
    start in the literal, and of the rest. -/
theorem settled_literal {quote : Quote} {content' rest content : List Char}
    (h : Literal.close quote.char (content' ++ quote.char :: rest) = some content') :
    Settled entries content (enclose quote content' ++ rest) ↔
      (∀ a b after, enclose quote content' = a ++ b → b ≠ [] →
        b ++ rest = enclose .double content ++ after →
        Stands (enclose quote content' ++ rest) content a ∨
          Spoiled entries content (enclose quote content' ++ rest) a) ∧
      Settled entries content rest := by
  constructor
  · intro settled
    refine ⟨fun a b after hsplit hne occurs => ?_, fun before after occurs => ?_⟩
    · exact settled a after (by rw [← occurs, ← List.append_assoc, ← hsplit])
    · rcases settled (enclose quote content' ++ before) after (by simp [occurs]) with stands | spoiled
      · rw [stands_literal h] at stands
        rcases stands with ⟨empty, -⟩ | ⟨before', same, stands⟩
        · simp [enclose] at empty
        · rw [List.append_cancel_left same]
          exact .inl stands
      · exact .inr ((spoiled_literal h).mp spoiled)
  · rintro ⟨inside, later⟩ before after occurs
    rcases List.append_eq_append_iff.mp occurs with ⟨t, rfl, hrest⟩ | ⟨t, hsplit, hrest⟩
    · exact (later t after hrest).imp (fun stands => (stands_literal h).mpr (.inr ⟨t, rfl, stands⟩))
        (spoiled_literal h).mpr
    · by_cases ht : t = []
      · subst ht
        obtain rfl : before = enclose quote content' := by simpa using hsplit.symm
        rcases later [] after (by simpa using hrest.symm) with stands | spoiled
        · exact .inl ((stands_literal h).mpr (.inr ⟨[], by simp, stands⟩))
        · exact .inr (by simpa using (spoiled_literal h).mpr spoiled)
      · exact inside before t after hsplit ht hrest.symm

/-- In pieces, the quoted content starts in a literal that is not replaced if it does so in the text
    and does not end at the start of a literal that is replaced. -/
theorem ofText_prefix_inside_iff {content whole a b rest : List Char} (hquote : '"' ∉ content)
    (hsplit : whole = a ++ b) (hne : b ≠ []) :
    Piece.ofText (enclose .double content) <+: Piece.ofText b ++ piecesOf entries rest ↔
      enclose .double content <+: b ++ rest ∧ ¬ Opens entries content whole rest a := by
  have enclosed : enclose .double content = ('"' :: content) ++ ['"'] := by simp [enclose]
  rw [enclosed]
  by_cases hlong : ∃ word, '"' :: content = b ++ word
  · obtain ⟨word, hword⟩ := hlong
    have free : '"' ∉ word := by
      obtain ⟨c, b, rfl⟩ := List.exists_cons_of_ne_nil hne
      have : content = b ++ word := (List.cons_eq_cons.mp hword).2
      exact fun hmem => hquote (this ▸ List.mem_append_right _ hmem)
    have opens : Opens entries content whole rest a ↔ StandsOne entries rest word := by
      simp [Opens, hsplit, hword]
    rw [hword, List.append_assoc, Piece.ofText_append, List.prefix_append_right_inj,
      List.prefix_append_right_inj, ofText_prefix_piecesOf_iff free, opens]
  · push Not at hlong
    have opens : ¬ Opens entries content whole rest a := by
      rintro ⟨word, hword, -⟩
      rw [hsplit, List.append_assoc] at hword
      exact hlong word (List.append_cancel_left hword)
    rw [ofText_concat_prefix_iff hlong, concat_prefix_append_iff hlong]
    simp [opens]

/-- In a literal without inner quotes a quoted content starts with the first quote or the last. -/
theorem eq_nil_or_eq_of_quote_inside {content a b : List Char} (hquote : '"' ∉ content)
    (h : enclose .double content = a ++ '"' :: b) : a = [] ∨ a = '"' :: content := by
  cases a with
  | nil => exact .inl rfl
  | cons c a =>
    simp only [enclose, Quote.char_double, List.cons_append, List.cons_eq_cons] at h
    obtain ⟨rfl, h⟩ := h
    right
    rcases List.append_eq_append_iff.mp h with ⟨t, rfl, ht⟩ | ⟨t, rfl, ht⟩
    · cases t with
      | nil => simp
      | cons d t => simp at ht
    · cases t with
      | nil => simp
      | cons d t =>
        obtain ⟨rfl, -⟩ := List.cons_eq_cons.mp ht
        simp at hquote

/-- Behind a gap that does not open the quoted content nothing changes. -/
theorem settled_gap {c : Char} {cs content : List Char} (h : IsGap c cs)
    (hnot : ∀ after, c :: cs ≠ enclose .double content ++ after) :
    Settled entries content (c :: cs) ↔ Settled entries content cs := by
  have stands : ∀ before, Stands (c :: cs) content (c :: before) ↔ Stands cs content before := by
    simp [stands_gap h]
  constructor
  · intro settled before after occurs
    have := settled (c :: before) after (by simp [occurs])
    rwa [stands, spoiled_gap h] at this
  · intro settled before after occurs
    cases before with
    | nil => exact absurd occurs (hnot after)
    | cons d before =>
      obtain ⟨rfl, later⟩ := List.cons_eq_cons.mp occurs
      rw [stands, spoiled_gap h]
      exact settled before after later

section

variable {entry : Catalog.Entry} (hquote : '"' ∉ entry.sentence.content.toList)
include hquote

/-- No quoted content is left to settle in a literal that is replaced. -/
theorem settled_replaced {content rest : List Char} (hplain : '"' ∉ content)
    (h : Literal.close Quote.double.char (content ++ Quote.double.char :: rest) = some content)
    (hknown : entryFor entries .double content ≠ none ∨ content = entry.sentence.content.toList) :
    Settled entries entry.sentence.content.toList (enclose .double content ++ rest) ↔
      Settled entries entry.sentence.content.toList rest := by
  rw [settled_literal h, and_iff_right_iff_imp]
  intro _ a b after hsplit hne occurs
  obtain ⟨b, rfl⟩ : ∃ b', b = '"' :: b' := by
    obtain ⟨c, b, rfl⟩ := List.exists_cons_of_ne_nil hne
    simp only [enclose, Quote.char_double, List.cons_append, List.cons_eq_cons] at occurs
    exact ⟨b, by rw [occurs.1]⟩
  rcases eq_nil_or_eq_of_quote_inside hplain hsplit with rfl | rfl
  · -- Both contents end at the first quote after the one at which they start.
    have same : content = entry.sentence.content.toList := by
      apply Text.eq_of_append_prefix hplain hquote
      rw [List.nil_append] at hsplit
      rw [← hsplit] at occurs
      simp only [enclose, Quote.char_double, List.cons_append, List.append_assoc,
        List.nil_append, List.cons_eq_cons, true_and] at occurs
      rw [show content ++ ['"'] <+: entry.sentence.content.toList ++ '"' :: after ↔ _ from
        by rw [← occurs]]
      simp
    exact .inl ((stands_literal h).mpr (.inl ⟨rfl, rfl, same⟩))
  · exact .inr ((spoiled_inside h hsplit).mpr (.inl ⟨rfl, rfl, hknown⟩))

/-- In a literal that stays, a quoted content is settled if it ends at the start of a literal that
    is replaced. -/
theorem settled_kept {quote : Quote} {content rest : List Char}
    (h : Literal.close quote.char (content ++ quote.char :: rest) = some content)
    (hunknown : entryFor entries quote content = none)
    (hother : ¬ (quote = .double ∧ entry.sentence.content.toList = content)) :
    Settled entries entry.sentence.content.toList (enclose quote content ++ rest) ↔
      (∀ a b, enclose quote content = a ++ b → b ≠ [] →
        ¬ Piece.ofText entry.quoted.toList <+: Piece.ofText b ++ piecesOf entries rest) ∧
      Settled entries entry.sentence.content.toList rest := by
  have quoted : entry.quoted.toList = enclose .double entry.sentence.content.toList := by
    simp [Piece.toList_quoted, enclose]
  rw [settled_literal h, quoted]
  refine and_congr_left fun _ => ?_
  -- Neither the literal itself nor its closing quote settles anything.
  have settles : ∀ a b, enclose quote content = a ++ b → b ≠ [] →
      (Stands (enclose quote content ++ rest) entry.sentence.content.toList a ∨
          Spoiled entries entry.sentence.content.toList (enclose quote content ++ rest) a ↔
        Opens entries entry.sentence.content.toList (enclose quote content) rest a) := by
    intro a b hsplit hne
    have notStands : ¬ Stands (enclose quote content ++ rest) entry.sentence.content.toList a := by
      rw [stands_literal h]
      rintro (⟨-, hq, same⟩ | ⟨a', rfl, -⟩)
      · exact hother ⟨hq, same.symm⟩
      · have := congrArg List.length hsplit
        simp [hne] at this
    rw [spoiled_inside h hsplit, or_iff_right notStands, or_iff_right]
    rintro ⟨-, hq, known | same⟩
    · exact known hunknown
    · exact hother ⟨hq, same.symm⟩
  constructor
  · intro inside a b hsplit hne found
    obtain ⟨⟨after, occurs⟩, notOpens⟩ := (ofText_prefix_inside_iff hquote hsplit hne).mp found
    exact notOpens ((settles a b hsplit hne).mp
      (inside a b after hsplit hne occurs.symm))
  · intro absent a b after hsplit hne occurs
    rw [settles a b hsplit hne]
    by_contra notOpens
    exact absent a b hsplit hne
      ((ofText_prefix_inside_iff hquote hsplit hne).mpr ⟨⟨after, occurs.symm⟩, notOpens⟩)

end

/-- One round of marking turns the pieces of a scanned text into those with one more entry exactly
    when the text is settled for that entry. -/
theorem mark_piecesOf_iff {entry : Catalog.Entry}
    (hquote : '"' ∉ entry.sentence.content.toList)
    (hslash : '\\' ∉ entry.sentence.content.toList)
    (hterm : ∀ c ∈ entry.sentence.content.toList, Literal.isTerminator c = false)
    (hplain : ∀ other ∈ entries, '"' ∉ other.sentence.content.toList) (cs : List Char) :
    (Piece.mark entry (piecesOf entries cs)).1 = piecesOf (entries ++ [entry]) cs ↔
      Settled entries entry.sentence.content.toList cs := by
  have quoted : entry.quoted.toList = enclose .double entry.sentence.content.toList := by
    simp [Piece.toList_quoted, enclose]
  induction cs using split_induction with
  | nil => simp [Settled, enclose]
  | gap c cs h ih =>
    have notHere : ∀ after, c :: cs ≠ enclose .double entry.sentence.content.toList ++ after := by
      intro after occurs
      simp only [enclose, Quote.char_double, List.cons_append, List.append_assoc,
        List.nil_append, List.cons_eq_cons] at occurs
      obtain ⟨rfl, rfl⟩ := occurs
      rcases h with notQuote | unclosed
      · exact absurd notQuote (by decide)
      · simp [Literal.close_append (by decide) hquote hslash hterm] at unclosed
    have absent : ¬ Piece.ofText entry.quoted.toList <+: .char c :: piecesOf entries cs := by
      rintro ⟨after, split⟩
      apply notHere (Piece.restore after)
      have := congrArg Piece.restore split
      simpa [Piece.origin, restore_piecesOf, quoted] using this.symm
    rw [piecesOf_gap h, piecesOf_gap h, Piece.mark_cons absent, settled_gap h notHere]
    exact Iff.trans (by simp) ih
  | literal quote content rest h ih =>
    rw [piecesOf_literal h, piecesOf_literal h]
    cases found : entryFor entries quote content with
    | some other =>
      obtain ⟨rfl, hmem, rfl⟩ := of_entryFor_eq_some found
      rw [pieces_of_some found, pieces_of_some (entryFor_append_of_some found),
        settled_replaced hquote (hplain other hmem) h (.inl (by simp [found]))]
      exact Iff.trans (by simp [Piece.mark_call]) ih
    | none =>
      by_cases own : quote = .double ∧ entry.sentence.content.toList = content
      · obtain ⟨rfl, rfl⟩ := own
        have known : entryFor (entries ++ [entry]) .double entry.sentence.content.toList =
            some entry := by
          rw [entryFor_append_of_none found, if_pos ⟨rfl, rfl⟩]
        rw [pieces_of_none found, pieces_of_some known,
          settled_replaced hquote hquote h (.inr rfl), ← quoted, Piece.mark_quoted]
        exact Iff.trans (by simp) ih
      · have unknown : entryFor (entries ++ [entry]) quote content = none := by
          rw [entryFor_append_of_none found, if_neg own]
        rw [pieces_of_none found, pieces_of_none unknown, mark_ofText_append_iff,
          settled_kept hquote h found own]
        exact and_congr_right fun _ => ih

theorem piecesOf_no_entries (cs : List Char) : piecesOf [] cs = Piece.ofText cs := by
  induction cs using split_induction with
  | nil => rfl
  | gap c cs h ih => simp [piecesOf_gap h, ih]
  | literal quote content rest h ih =>
    rw [piecesOf_literal h, pieces_of_none (by simp [entryFor_eq_none_iff]), ih,
      Piece.ofText_append]

/-- Putting the literals of the last entry back leaves the others replaced. -/
theorem unmark_piecesOf {entry : Catalog.Entry}
    (hnew : ∀ other ∈ entries, other.sentence.content ≠ entry.sentence.content) (cs : List Char) :
    Piece.unmark entry (piecesOf (entries ++ [entry]) cs) = piecesOf entries cs := by
  induction cs using split_induction with
  | nil => rfl
  | gap c cs h ih =>
    rw [piecesOf_gap h, piecesOf_gap h, Piece.unmark_cons_of_ne (by simp), ih]
  | literal quote content rest h ih =>
    rw [piecesOf_literal h, piecesOf_literal h, Piece.unmark_append, ih]
    congr 1
    cases found : entryFor entries quote content with
    | some other =>
      have hne : other ≠ entry := by
        rintro rfl
        exact hnew other (of_entryFor_eq_some found).2.1 rfl
      rw [pieces_of_some found, pieces_of_some (entryFor_append_of_some found),
        Piece.unmark_cons_of_ne (by simpa using hne)]
      rfl
    | none =>
      by_cases own : quote = .double ∧ entry.sentence.content.toList = content
      · obtain ⟨rfl, rfl⟩ := own
        rw [pieces_of_none found, pieces_of_some
          (by rw [entryFor_append_of_none found, if_pos ⟨rfl, rfl⟩]), Piece.unmark_self]
        simp [Piece.toList_quoted, enclose, Piece.unmark]
      · rw [pieces_of_none found, pieces_of_none
          (by rw [entryFor_append_of_none found, if_neg own]), Piece.unmark_ofText]

/-- Marking all entries replaces exactly the literals when the text is settled for each entry with
    regard to those before it. -/
theorem markAll_ofText_iff (cs : List Char)
    (hquote : ∀ entry ∈ entries, '"' ∉ entry.sentence.content.toList)
    (hslash : ∀ entry ∈ entries, '\\' ∉ entry.sentence.content.toList)
    (hterm : ∀ entry ∈ entries, ∀ c ∈ entry.sentence.content.toList,
      Literal.isTerminator c = false)
    (hdistinct : entries.Pairwise (·.sentence.content ≠ ·.sentence.content)) :
    (Piece.markAll entries (Piece.ofText cs)).1 = piecesOf entries cs ↔
      ∀ earlier entry later, entries = earlier ++ entry :: later →
        Settled earlier entry.sentence.content.toList cs := by
  induction entries using List.reverseRecOn with
  | nil => simp [Piece.markAll, piecesOf_no_entries]
  | append_singleton earlier entry ih =>
    rw [List.pairwise_append] at hdistinct
    have hnew : ∀ other ∈ earlier, other.sentence.content ≠ entry.sentence.content :=
      fun other hmem => hdistinct.2.2 other hmem entry List.mem_cons_self
    have ih := ih (fun other hmem => hquote other (List.mem_append_left _ hmem))
      (fun other hmem => hslash other (List.mem_append_left _ hmem))
      (fun other hmem => hterm other (List.mem_append_left _ hmem)) hdistinct.1
    have last := mark_piecesOf_iff (hquote entry (by simp)) (hslash entry (by simp))
      (hterm entry (by simp))
      (fun other hmem => hquote other (List.mem_append_left _ hmem)) cs
    have splits : (∀ before other later, earlier ++ [entry] = before ++ other :: later →
          Settled before other.sentence.content.toList cs) ↔
        (∀ before other later, earlier = before ++ other :: later →
          Settled before other.sentence.content.toList cs) ∧
        Settled earlier entry.sentence.content.toList cs := by
      constructor
      · intro settled
        exact ⟨fun before other later h => settled before other (later ++ [entry]) (by simp [h]),
          settled earlier entry [] rfl⟩
      · rintro ⟨others, own⟩ before other later h
        rcases List.eq_nil_or_concat' later with rfl | ⟨later, final, rfl⟩
        · obtain ⟨rfl, same⟩ := List.append_inj' h rfl
          obtain rfl : entry = other := by simpa using same
          exact own
        · rw [← List.cons_append, ← List.append_assoc] at h
          exact others before other later (List.append_inj_left' h rfl)
    rw [splits, ← ih, ← last, Piece.markAll_concat]
    constructor
    · intro same
      have before : (Piece.markAll earlier (Piece.ofText cs)).1 = piecesOf earlier cs := by
        have unmarked := congrArg (Piece.unmark entry) same
        rwa [unmark_piecesOf hnew, Piece.unmark_mark] at unmarked
        intro hmem
        rcases Piece.mem_markAll_call hmem with inText | inEarlier
        · simp at inText
        · exact hnew entry inEarlier rfl
      exact ⟨before, before ▸ same⟩
    · rintro ⟨before, same⟩
      rw [before, same]

end Segment

end Phrasebook
