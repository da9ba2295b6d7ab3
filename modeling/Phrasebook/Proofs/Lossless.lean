import Phrasebook.Proofs.Catalog
import Phrasebook.Proofs.Piece

/-!
# Localizing is lossless

Every call that localizing puts into a text stands for the catalog entry whose literal it has
replaced: applying the replacements the other way round gives the text back, with the same count.
The one condition is that the text does not hold the calls already.
-/

namespace Phrasebook

/-- The replacement of a call by its literal. -/
def Replacement.swap (replacement : Replacement) : Replacement :=
  ⟨replacement.call, replacement.quoted⟩

namespace Piece

/-- Puts the literals of entries back, one entry after the other. -/
def unmarkAll : List Catalog.Entry → List Piece → List Piece
  | [], pieces => pieces
  | entry :: rest, pieces => unmarkAll rest (unmark entry pieces)

/-- Putting literals back does not change what the text stands for. -/
theorem restore_unmark (entry : Catalog.Entry) (pieces : List Piece) :
    restore (unmark entry pieces) = restore pieces := by
  induction pieces with
  | nil => rfl
  | cons piece rest ih =>
    by_cases same : piece = call entry
    · subst same
      simp [unmark_self, origin, ih]
    · simp [unmark_cons_of_ne same, ih]

theorem restore_unmarkAll (entries : List Catalog.Entry) (pieces : List Piece) :
    restore (unmarkAll entries pieces) = restore pieces := by
  induction entries generalizing pieces with
  | nil => rfl
  | cons entry entries ih => rw [unmarkAll, ih, restore_unmark]

/-- The calls that are left are those of other entries. -/
theorem mem_unmark_call {entry other : Catalog.Entry} {pieces : List Piece} :
    call other ∈ unmark entry pieces ↔ call other ∈ pieces ∧ other ≠ entry := by
  simp only [unmark, List.mem_flatMap]
  constructor
  · rintro ⟨piece, hmem, h⟩
    split at h
    · simp at h
    · obtain rfl : call other = piece := by simpa using h
      exact ⟨hmem, by simpa using ‹¬ call other = call entry›⟩
  · rintro ⟨hmem, hne⟩
    exact ⟨call other, hmem, by simp [hne]⟩

theorem mem_unmarkAll_call {other : Catalog.Entry} (entries : List Catalog.Entry)
    (pieces : List Piece) :
    call other ∈ unmarkAll entries pieces ↔ call other ∈ pieces ∧ other ∉ entries := by
  induction entries generalizing pieces with
  | nil => simp [unmarkAll]
  | cons entry entries ih =>
    rw [unmarkAll, ih, mem_unmark_call]
    simp only [List.mem_cons, not_or]
    tauto

/-- Putting literals back removes the calls of the entry. -/
theorem countP_isCall_unmark (entry : Catalog.Entry) (pieces : List Piece) :
    (unmark entry pieces).countP isCall + pieces.count (call entry) = pieces.countP isCall := by
  induction pieces with
  | nil => rfl
  | cons piece rest ih =>
    by_cases same : piece = call entry
    · subst same
      rw [unmark_self, List.countP_append, countP_isCall_ofText, List.count_cons_self,
        List.countP_cons_of_pos rfl]
      omega
    · rw [unmark_cons_of_ne same, List.countP_cons, List.countP_cons, List.count_cons_of_ne same]
      omega

/-- Without calls the localized text is its own source. -/
theorem render_eq_restore {pieces : List Piece} (table : String)
    (h : ∀ entry, call entry ∉ pieces) : render table pieces = restore pieces := by
  induction pieces with
  | nil => rfl
  | cons piece rest ih =>
    cases piece with
    | char c =>
      simp only [render_cons, restore_cons, text, origin]
      rw [ih fun entry hmem => h entry (List.mem_cons_of_mem _ hmem)]
    | call entry => exact absurd List.mem_cons_self (h entry)

section

variable {table : String} (htable : Config.checkTable table = .ok ())
include htable

/-- The end of a call that stands at the start of the localized text stands there in characters, or
    in characters followed by a call with which it ends. -/
theorem ending_prefix_render {index : Nat} {before ending : List Char}
    (hsplit : (lookupCall table index).toList = before ++ ending) (hne : ending ≠ [])
    (pieces : List Piece) (h : ending <+: render table pieces) :
    ofText ending <+: pieces ∨
      ∃ run entry rest, pieces = ofText run ++ call entry :: rest ∧
        ending = run ++ (lookupCall table entry.index).toList := by
  induction ending generalizing before pieces with
  | nil => exact absurd rfl hne
  | cons c ending ih =>
    cases pieces with
    | nil => simp at h
    | cons piece rest =>
      cases piece with
      | call entry =>
        refine .inr ⟨[], entry, rest, rfl, ?_⟩
        have whole : (lookupCall table entry.index).toList ≠ [] := by simp [toList_lookupCall]
        exact ending_eq_of_prefix htable hsplit hne (List.nil_append _).symm whole
          (by simpa [text] using h)
      | char d =>
        obtain ⟨rfl, tail⟩ := List.cons_prefix_cons.mp (by simpa [text] using h)
        cases ending with
        | nil => exact .inl (by simp)
        | cons e ending =>
          have hsplit : (lookupCall table index).toList = (before ++ [c]) ++ e :: ending := by
            simp [hsplit]
          rcases ih hsplit (by simp) rest tail with
            inRest | ⟨run, entry, after, rfl, split⟩
          · exact .inl (by simpa using inRest)
          · exact .inr ⟨c :: run, entry, after, by simp, by simp [split]⟩

/-- No call starts at a character of a text whose source does not hold that call. -/
theorem not_lookupCall_prefix_char {index : Nat} {c : Char} {rest : List Piece}
    (hfree : ¬ (lookupCall table index).toList <:+: restore (char c :: rest)) :
    ¬ (lookupCall table index).toList <+: render table (char c :: rest) := by
  intro h
  have nonempty : (lookupCall table index).toList ≠ [] := by simp [toList_lookupCall]
  rcases ending_prefix_render htable (List.nil_append _).symm nonempty _ h with
    ⟨after, split⟩ | ⟨run, entry, after, split, ends⟩
  · apply hfree
    rw [← split, restore_append, restore_ofText]
    exact (List.prefix_append _ _).isInfix
  · -- A call that ends with another call is that call, so it does not start with a character.
    obtain rfl := eq_nil_of_append_lookupCall htable ends
    simp at split

/-- Replacing the calls of an entry by its literal puts the literals back. -/
theorem replace_call_render {entry : Catalog.Entry} (pieces : List Piece)
    (hsame : ∀ other, call other ∈ pieces → other.index = entry.index → other = entry)
    (hfree : ¬ (lookupCall table entry.index).toList <:+: restore pieces) :
    Text.replace (lookupCall table entry.index).toList entry.quoted.toList (render table pieces) =
      (render table (unmark entry pieces), pieces.count (call entry)) := by
  have nonempty : (lookupCall table entry.index).toList ≠ [] := by simp [toList_lookupCall]
  rw [Text.replace, if_neg (by simpa using nonempty)]
  induction pieces with
  | nil => rfl
  | cons piece rest ih =>
    have sameRest : ∀ other, call other ∈ rest → other.index = entry.index → other = entry :=
      fun other hmem => hsame other (List.mem_cons_of_mem _ hmem)
    have freeRest : ¬ (lookupCall table entry.index).toList <:+: restore rest := by
      intro found
      apply hfree
      rw [restore_cons]
      exact found.trans (List.suffix_append _ _).isInfix
    have ih := ih sameRest freeRest
    cases piece with
    | char c =>
      rw [render_cons, text, List.singleton_append,
        Text.replaceFrom_cons (by simpa [text] using not_lookupCall_prefix_char htable hfree), ih,
        unmark_cons_of_ne (by simp)]
      simp [text]
    | call other =>
      by_cases same : other = entry
      · subst same
        rw [render_cons, text, Text.replaceFrom_pattern nonempty, ih, unmark_self]
        simp
      · -- A call of this entry that starts inside the other call would be its end.
        have absent : ∀ a b, (lookupCall table other.index).toList = a ++ b → b ≠ [] →
            ¬ (lookupCall table entry.index).toList <+: b ++ render table rest := by
          intro a b split hb found
          have ends := ending_eq_of_prefix htable (List.nil_append _).symm nonempty split hb found
          rw [← ends] at split
          obtain rfl := eq_nil_of_append_lookupCall htable split
          exact same (hsame other List.mem_cons_self (lookupCall_injective split))
        rw [render_cons, text, Text.replaceFrom_append _ _ absent, ih,
          unmark_cons_of_ne (by simpa using same)]
        simp [text, same]

/-- Applying the replacements of entries the other way round puts their literals back, and counts
    the calls that go. -/
theorem applyAll_swap_render (entries : List Catalog.Entry) (pieces : List Piece)
    (hsame : ∀ entry ∈ entries, ∀ other, call other ∈ pieces → other.index = entry.index →
      other = entry)
    (hfree : ∀ entry ∈ entries, ¬ (lookupCall table entry.index).toList <:+: restore pieces) :
    ∃ count,
      Replacement.applyAll
          ((entries.map fun entry => ⟨entry.quoted, lookupCall table entry.index⟩).map
            Replacement.swap)
          (render table pieces) =
        (render table (unmarkAll entries pieces), count) ∧
      (unmarkAll entries pieces).countP isCall + count = pieces.countP isCall := by
  induction entries generalizing pieces with
  | nil => exact ⟨0, rfl, rfl⟩
  | cons entry entries ih =>
    have first := replace_call_render htable pieces (hsame entry List.mem_cons_self)
      (hfree entry List.mem_cons_self)
    have sameLater : ∀ later ∈ entries, ∀ other, call other ∈ unmark entry pieces →
        other.index = later.index → other = later := by
      intro later hlater other hmem
      exact hsame later (List.mem_cons_of_mem _ hlater) other (mem_unmark_call.mp hmem).1
    have freeLater : ∀ later ∈ entries,
        ¬ (lookupCall table later.index).toList <:+: restore (unmark entry pieces) := by
      intro later hlater
      rw [restore_unmark]
      exact hfree later (List.mem_cons_of_mem _ hlater)
    obtain ⟨count, others, removed⟩ := ih (unmark entry pieces) sameLater freeLater
    refine ⟨pieces.count (call entry) + count, ?_, ?_⟩
    · simp only [List.map_cons, Replacement.swap, Replacement.applyAll, first, others, unmarkAll]
    · have := countP_isCall_unmark entry pieces
      rw [unmarkAll]
      omega

end

end Piece

/-- Localizing a text is undone by the same replacements the other way round, which put back as many
    literals as there are calls. -/
theorem localizeText_swap_localizeText (sentences : List Approved) (table text : String)
    (hsentence : ∀ sentence ∈ sentences, isSentence sentence.content = true)
    (htable : Config.checkTable table = .ok ())
    (hfree : ∀ index, 1 ≤ index → index ≤ sentences.length →
      ¬ (lookupCall table index).toList <:+: text.toList) :
    let replacements := Replacement.ofCatalog ⟨sentences⟩ table
    let localized := localizeText text replacements
    localizeText localized.1 (replacements.map Replacement.swap) = (text, localized.2) := by
  intro replacements localized
  let entries := (Catalog.mk sentences).entries
  let pieces := (Piece.markAll entries (Piece.ofText text.toList)).1
  have bounds : ∀ entry ∈ entries, 1 ≤ entry.index ∧ entry.index ≤ sentences.length ∧
      entry.sentence ∈ sentences := by
    intro entry hmem
    obtain ⟨low, high, mem⟩ := Catalog.index_le_of_mem_number hmem
    exact ⟨low, Nat.le_of_lt_succ (Nat.one_add sentences.length ▸ high), mem⟩
  have plain : ∀ entry ∈ entries, Piece.Plain entry := fun entry hmem =>
    Piece.plain_of_isSentence (hsentence _ (bounds entry hmem).2.2)
  -- What localizing does, in pieces.
  have forward := Piece.applyAll_render htable entries plain (Piece.ofText text.toList)
  rw [Piece.render_ofText] at forward
  have source : Piece.restore pieces = text.toList := by
    rw [Piece.restore_markAll, Piece.restore_ofText]
  have count : localized.2 = pieces.countP Piece.isCall := by
    simp only [pieces, Piece.countP_isCall_markAll, Piece.countP_isCall_ofText, Nat.zero_add]
    simp only [localized, localizeText, replacements, Replacement.ofCatalog]
    rw [forward]
  have localizedText : localized.1.toList = Piece.render table pieces := by
    simp only [localized, localizeText, replacements, Replacement.ofCatalog]
    rw [forward, String.toList_ofList]
  have own : ∀ entry, .call entry ∈ pieces → entry ∈ entries := fun entry hmem =>
    (Piece.mem_markAll_call hmem).resolve_left (Piece.call_not_mem_ofText entry _)
  -- What the way back does, in pieces.
  obtain ⟨back, backward, removed⟩ := Piece.applyAll_swap_render htable entries pieces
    (fun entry hmem other hcall => Catalog.entry_eq_of_index_eq hmem (own other hcall))
    (fun entry hmem => source ▸ hfree _ (bounds entry hmem).1 (bounds entry hmem).2.1)
  have noCalls : ∀ entry, .call entry ∉ Piece.unmarkAll entries pieces := by
    intro entry hmem
    obtain ⟨inPieces, notEntry⟩ := (Piece.mem_unmarkAll_call entries pieces).mp hmem
    exact notEntry (own entry inPieces)
  have noneLeft : (Piece.unmarkAll entries pieces).countP Piece.isCall = 0 := by
    rw [List.countP_eq_zero]
    intro piece hmem
    cases piece with
    | char c => simp [Piece.isCall]
    | call entry => exact absurd hmem (noCalls entry)
  have sameCount : back = localized.2 := by omega
  rw [Piece.render_eq_restore table noCalls, Piece.restore_unmarkAll, source, sameCount] at backward
  simp only [localizeText, localizedText, replacements, Replacement.ofCatalog]
  rw [backward]
  simp

/-- Calls next to each other and digits that go on do not disturb the way back. -/
theorem localizeText_swap_adjacent_calls :
    localizeText
        (localizeText "f(\"a b\"\"c d\"2)T:GetLang(3"
          (Replacement.ofCatalog ⟨[⟨"a b", ⟨"x", 1⟩⟩, ⟨"c d", ⟨"x", 1⟩⟩]⟩ "T")).1
        ((Replacement.ofCatalog ⟨[⟨"a b", ⟨"x", 1⟩⟩, ⟨"c d", ⟨"x", 1⟩⟩]⟩ "T").map
          Replacement.swap) =
      ("f(\"a b\"\"c d\"2)T:GetLang(3", 2) :=
  localizeText_swap_localizeText [⟨"a b", ⟨"x", 1⟩⟩, ⟨"c d", ⟨"x", 1⟩⟩] "T"
    "f(\"a b\"\"c d\"2)T:GetLang(3" (by decide) (by decide)
    (by
      intro index low high
      have : index = 1 ∨ index = 2 := by simp at high; omega
      rcases this with rfl | rfl <;> decide)

end Phrasebook
