import Phrasebook.Proofs.LookupCall
import Phrasebook.Proofs.Sentence
import Phrasebook.Replacement

/-!
# Texts in pieces

While replacements are applied, a text consists of characters of the source and of calls that have
taken the place of literals. As a list of pieces it keeps both apart, and replacing the literals of
an entry is marking them in that list. Main statement: on the characters, `Replacement.applyAll`
does what `Piece.markAll` does on the pieces, because no quoted sentence reaches into a call.
-/

namespace Phrasebook

/-- A part of a text to which replacements are applied. -/
inductive Piece where
  /-- A character of the source. -/
  | char (c : Char)
  /-- The call that has taken the place of a literal. -/
  | call (entry : Catalog.Entry)
  deriving DecidableEq, Repr

namespace Piece

/-- The characters of a piece in the localized text. -/
def text (table : String) : Piece → List Char
  | char c => [c]
  | call entry => (lookupCall table entry.index).toList

/-- The characters that a piece stands for in the source. -/
def origin : Piece → List Char
  | char c => [c]
  | call entry => entry.quoted.toList

/-- The localized text. -/
def render (table : String) (pieces : List Piece) : List Char :=
  pieces.flatMap (text table)

/-- The source of the localized text. -/
def restore (pieces : List Piece) : List Char :=
  pieces.flatMap origin

/-- The pieces of a text in which nothing has been replaced. -/
def ofText (cs : List Char) : List Piece :=
  cs.map char

@[simp] theorem render_nil (table : String) : render table [] = [] := rfl

@[simp] theorem render_cons (table : String) (piece : Piece) (pieces : List Piece) :
    render table (piece :: pieces) = piece.text table ++ render table pieces := by
  simp [render]

@[simp] theorem render_append (table : String) (pieces more : List Piece) :
    render table (pieces ++ more) = render table pieces ++ render table more := by
  simp [render]

@[simp] theorem render_ofText (table : String) (cs : List Char) :
    render table (ofText cs) = cs := by
  induction cs with
  | nil => rfl
  | cons c cs ih => simpa [ofText, text] using ih

@[simp] theorem restore_nil : restore [] = [] := rfl

@[simp] theorem restore_cons (piece : Piece) (pieces : List Piece) :
    restore (piece :: pieces) = piece.origin ++ restore pieces := by
  simp [restore]

@[simp] theorem restore_append (pieces more : List Piece) :
    restore (pieces ++ more) = restore pieces ++ restore more := by
  simp [restore]

@[simp] theorem restore_ofText (cs : List Char) : restore (ofText cs) = cs := by
  induction cs with
  | nil => rfl
  | cons c cs ih => simpa [ofText, origin] using ih

@[simp] theorem ofText_nil : ofText [] = [] := rfl

@[simp] theorem ofText_cons (c : Char) (cs : List Char) :
    ofText (c :: cs) = char c :: ofText cs := rfl

@[simp] theorem ofText_append (cs ds : List Char) : ofText (cs ++ ds) = ofText cs ++ ofText ds := by
  simp [ofText]

@[simp] theorem length_ofText (cs : List Char) : (ofText cs).length = cs.length := by
  simp [ofText]

@[simp] theorem ofText_prefix_ofText {cs ds : List Char} :
    ofText cs <+: ofText ds ↔ cs <+: ds := by
  constructor
  · rintro ⟨rest, h⟩
    exact ⟨restore rest, by simpa using congrArg restore h⟩
  · exact fun h => h.map char

@[simp] theorem call_not_mem_ofText (entry : Catalog.Entry) (cs : List Char) :
    call entry ∉ ofText cs := by
  simp [ofText]

/-- Marks the literals of an entry from left to right, and counts them. The first `held` pieces
    belong to the literal that has just been marked. -/
def markFrom (entry : Catalog.Entry) : Nat → List Piece → List Piece × Nat
  | _, [] => ([], 0)
  | held + 1, _ :: pieces => markFrom entry held pieces
  | 0, piece :: pieces =>
    if (ofText entry.quoted.toList).isPrefixOf (piece :: pieces) then
      let (marked, count) := markFrom entry (entry.quoted.length - 1) pieces
      (call entry :: marked, count + 1)
    else
      let (marked, count) := markFrom entry 0 pieces
      (piece :: marked, count)

/-- Marks the literals of an entry, and counts them. -/
def mark (entry : Catalog.Entry) (pieces : List Piece) : List Piece × Nat :=
  markFrom entry 0 pieces

/-- Marks the literals of entries, one entry after the other. -/
def markAll : List Catalog.Entry → List Piece → List Piece × Nat
  | [], pieces => (pieces, 0)
  | entry :: rest, pieces =>
    let (marked, count) := mark entry pieces
    let (marked', count') := markAll rest marked
    (marked', count + count')

/-- The quotes of an entry around its content. -/
theorem toList_quoted (entry : Catalog.Entry) :
    entry.quoted.toList = '"' :: (entry.sentence.content.toList ++ ['"']) := by
  simp [Catalog.Entry.quoted]

theorem quoted_ne_nil (entry : Catalog.Entry) : entry.quoted.toList ≠ [] := by
  simp [toList_quoted]

@[simp] theorem mark_nil (entry : Catalog.Entry) : mark entry [] = ([], 0) := rfl

theorem markFrom_held (entry : Catalog.Entry) (dropped rest : List Piece) :
    markFrom entry dropped.length (dropped ++ rest) = mark entry rest := by
  induction dropped with
  | nil => rfl
  | cons piece dropped ih => simpa [markFrom] using ih

/-- A literal of the entry at the start is marked. -/
theorem mark_quoted (entry : Catalog.Entry) (rest : List Piece) :
    mark entry (ofText entry.quoted.toList ++ rest) =
      (call entry :: (mark entry rest).1, (mark entry rest).2 + 1) := by
  obtain ⟨c, tail, quoted⟩ := List.exists_cons_of_ne_nil (quoted_ne_nil entry)
  have length : entry.quoted.length - 1 = (ofText tail).length := by
    rw [← String.length_toList, quoted]
    simp
  rw [mark, quoted, ofText_cons, List.cons_append, markFrom, if_pos (by simp [quoted]), length,
    markFrom_held]

/-- A piece at which no literal of the entry starts stays. -/
theorem mark_cons {entry : Catalog.Entry} {piece : Piece} {rest : List Piece}
    (hno : ¬ ofText entry.quoted.toList <+: piece :: rest) :
    mark entry (piece :: rest) = (piece :: (mark entry rest).1, (mark entry rest).2) := by
  have absent : (ofText entry.quoted.toList).isPrefixOf (piece :: rest) = false := by
    rw [Bool.eq_false_iff]
    simpa using hno
  simp [mark, markFrom, absent]

/-- No literal starts at a call. -/
theorem mark_call (entry other : Catalog.Entry) (rest : List Piece) :
    mark entry (call other :: rest) =
      (call other :: (mark entry rest).1, (mark entry rest).2) := by
  apply mark_cons
  simp [toList_quoted]

/-- What holds of a text in pieces if it holds of the empty text, at a literal of the entry and at
    any other piece. -/
theorem mark_induction (entry : Catalog.Entry) {motive : List Piece → Prop} (nil : motive [])
    (quoted : ∀ rest, motive rest → motive (ofText entry.quoted.toList ++ rest))
    (cons : ∀ piece rest, ¬ ofText entry.quoted.toList <+: piece :: rest → motive rest →
      motive (piece :: rest))
    (pieces : List Piece) : motive pieces := by
  induction h : pieces.length using Nat.strongRecOn generalizing pieces with
  | ind n ih =>
    by_cases found : ofText entry.quoted.toList <+: pieces
    · obtain ⟨rest, rfl⟩ := found
      refine quoted rest (ih _ ?_ rest rfl)
      have := List.length_pos_iff.mpr (quoted_ne_nil entry)
      simp only [List.length_append, length_ofText] at h
      omega
    · cases pieces with
      | nil => exact nil
      | cons piece rest => exact cons piece rest found (ih _ (by simp [← h]) rest rfl)

/-- Marking does not change what the text stands for. -/
theorem restore_mark (entry : Catalog.Entry) (pieces : List Piece) :
    restore (mark entry pieces).1 = restore pieces := by
  induction pieces using mark_induction entry with
  | nil => rfl
  | quoted rest ih => simp [mark_quoted, origin, ih]
  | cons piece rest hno ih => simp [mark_cons hno, ih]

/-- The piece is a call. -/
def isCall : Piece → Bool
  | char _ => false
  | call _ => true

@[simp] theorem countP_isCall_ofText (cs : List Char) : (ofText cs).countP isCall = 0 := by
  simp [ofText, isCall]

/-- Marking adds as many calls as it counts. -/
theorem countP_isCall_mark (entry : Catalog.Entry) (pieces : List Piece) :
    (mark entry pieces).1.countP isCall = pieces.countP isCall + (mark entry pieces).2 := by
  induction pieces using mark_induction entry with
  | nil => rfl
  | quoted rest ih =>
    simp only [mark_quoted, List.countP_cons, List.countP_append, countP_isCall_ofText, ih]
    simp [isCall]
    omega
  | cons piece rest hno ih =>
    simp only [mark_cons hno, List.countP_cons, ih]
    omega

/-- Marking adds no calls of other entries. -/
theorem mem_mark_call {entry other : Catalog.Entry} {pieces : List Piece}
    (h : call other ∈ (mark entry pieces).1) : call other ∈ pieces ∨ other = entry := by
  induction pieces using mark_induction entry with
  | nil => simp at h
  | quoted rest ih =>
    simp only [mark_quoted, List.mem_cons, call.injEq] at h
    rcases h with same | inRest
    · exact .inr same
    · exact (ih inRest).imp_left (List.mem_append_right _)
  | cons piece rest hno ih =>
    simp only [mark_cons hno, List.mem_cons] at h
    rcases h with here | inRest
    · exact .inl (by simp [here])
    · exact (ih inRest).imp_left (List.mem_cons_of_mem _)

theorem restore_markAll (entries : List Catalog.Entry) (pieces : List Piece) :
    restore (markAll entries pieces).1 = restore pieces := by
  induction entries generalizing pieces with
  | nil => rfl
  | cons entry entries ih => rw [markAll, ih, restore_mark]

theorem countP_isCall_markAll (entries : List Catalog.Entry) (pieces : List Piece) :
    (markAll entries pieces).1.countP isCall =
      pieces.countP isCall + (markAll entries pieces).2 := by
  induction entries generalizing pieces with
  | nil => rfl
  | cons entry entries ih =>
    simp only [markAll, ih, countP_isCall_mark]
    omega

theorem mem_markAll_call {other : Catalog.Entry} {entries : List Catalog.Entry}
    {pieces : List Piece} (h : call other ∈ (markAll entries pieces).1) :
    call other ∈ pieces ∨ other ∈ entries := by
  induction entries generalizing pieces with
  | nil => exact .inl h
  | cons entry entries ih =>
    rcases ih h with inMarked | later
    · exact (mem_mark_call inMarked).imp_right fun same => by simp [same]
    · exact .inr (List.mem_cons_of_mem _ later)

/-- Puts the literal of an entry back in place of its calls. -/
def unmark (entry : Catalog.Entry) (pieces : List Piece) : List Piece :=
  pieces.flatMap fun piece => if piece = call entry then ofText entry.quoted.toList else [piece]

theorem unmark_self (entry : Catalog.Entry) (rest : List Piece) :
    unmark entry (call entry :: rest) = ofText entry.quoted.toList ++ unmark entry rest := by
  simp [unmark]

theorem unmark_cons_of_ne {entry : Catalog.Entry} {piece : Piece} (hne : piece ≠ call entry)
    (rest : List Piece) : unmark entry (piece :: rest) = piece :: unmark entry rest := by
  simp [unmark, hne]

theorem unmark_append (entry : Catalog.Entry) (pieces more : List Piece) :
    unmark entry (pieces ++ more) = unmark entry pieces ++ unmark entry more := by
  simp [unmark]

theorem unmark_ofText (entry : Catalog.Entry) (cs : List Char) :
    unmark entry (ofText cs) = ofText cs := by
  induction cs with
  | nil => rfl
  | cons c cs ih => rw [ofText_cons, unmark_cons_of_ne (by simp), ih]

/-- Marking is undone by putting the literals back. -/
theorem unmark_mark {entry : Catalog.Entry} {pieces : List Piece} (h : call entry ∉ pieces) :
    unmark entry (mark entry pieces).1 = pieces := by
  induction pieces using mark_induction entry with
  | nil => rfl
  | quoted rest ih =>
    rw [mark_quoted, unmark_self, ih fun hmem => h (List.mem_append_right _ hmem)]
  | cons piece rest hno ih =>
    simp only [List.mem_cons, not_or] at h
    rw [mark_cons hno, unmark_cons_of_ne (Ne.symm h.1), ih h.2]

theorem markAll_concat (entries : List Catalog.Entry) (entry : Catalog.Entry)
    (pieces : List Piece) :
    (markAll (entries ++ [entry]) pieces).1 = (mark entry (markAll entries pieces).1).1 := by
  induction entries generalizing pieces with
  | nil => rfl
  | cons first entries ih => simp only [List.cons_append, markAll, ih]

/-- The content of the entry holds neither a double quote nor a colon, as is the case for every
    sentence. -/
def Plain (entry : Catalog.Entry) : Prop :=
  '"' ∉ entry.sentence.content.toList ∧ ':' ∉ entry.sentence.content.toList

theorem plain_of_isSentence {entry : Catalog.Entry}
    (h : isSentence entry.sentence.content = true) : Plain entry :=
  ⟨not_mem_of_isSentence h (by decide) (by decide) (by decide),
    not_mem_of_isSentence h (by decide) (by decide) (by decide)⟩

section

variable {table : String} (htable : Config.checkTable table = .ok ())
include htable

/-- Characters up to a closing quote that stand at the start of the localized text stand there in
    pieces: they cannot reach into a call, which has a colon and no quote. -/
theorem ofText_prefix_of_render {content : List Char} (hcolon : ':' ∉ content)
    (pieces : List Piece) (h : content ++ ['"'] <+: render table pieces) :
    ofText (content ++ ['"']) <+: pieces := by
  induction content generalizing pieces with
  | nil =>
    cases pieces with
    | nil => simp at h
    | cons piece rest =>
      cases piece with
      | char c => simpa [text] using h
      | call entry => exact absurd (by simpa [text] using h) (not_prefix_lookupCall htable hcolon _)
  | cons c content ih =>
    cases pieces with
    | nil => simp at h
    | cons piece rest =>
      cases piece with
      | char d =>
        obtain ⟨rfl, tail⟩ := List.cons_prefix_cons.mp (by simpa [text] using h)
        simpa using ih (fun hmem => hcolon (List.mem_cons_of_mem _ hmem)) rest tail
      | call entry => exact absurd (by simpa [text] using h) (not_prefix_lookupCall htable hcolon _)

/-- Replacing the literals of an entry marks them. -/
theorem replace_render {entry : Catalog.Entry} (hplain : Plain entry) (pieces : List Piece) :
    Text.replace entry.quoted.toList (lookupCall table entry.index).toList (render table pieces) =
      (render table (mark entry pieces).1, (mark entry pieces).2) := by
  have nonempty : entry.quoted.toList.isEmpty = false := by simp [toList_quoted]
  rw [Text.replace, nonempty, if_neg (by simp)]
  induction pieces using mark_induction entry with
  | nil => rfl
  | quoted rest ih =>
    rw [render_append, render_ofText, Text.replaceFrom_pattern (quoted_ne_nil entry), ih,
      mark_quoted]
    simp [text]
  | cons piece rest hno ih =>
    rw [mark_cons hno]
    cases piece with
    | char c =>
      have absent : ¬ entry.quoted.toList <+: c :: render table rest := by
        rw [toList_quoted] at hno ⊢
        intro found
        obtain ⟨rfl, tail⟩ := List.cons_prefix_cons.mp found
        apply hno
        simpa using ofText_prefix_of_render htable hplain.2 rest tail
      rw [render_cons, text, List.singleton_append, Text.replaceFrom_cons absent, ih]
      simp [text]
    | call other =>
      have head : entry.quoted.toList.head? = some '"' := by simp [toList_quoted]
      rw [render_cons, text, Text.replaceFrom_append_of_not_mem head _ _
        (quote_not_mem_lookupCall htable other.index), ih]
      simp [text]

/-- Applying the replacements of entries marks their literals. -/
theorem applyAll_render (entries : List Catalog.Entry) (hplain : ∀ entry ∈ entries, Plain entry)
    (pieces : List Piece) :
    Replacement.applyAll
        (entries.map fun entry => ⟨entry.quoted, lookupCall table entry.index⟩)
        (render table pieces) =
      (render table (markAll entries pieces).1, (markAll entries pieces).2) := by
  induction entries generalizing pieces with
  | nil => rfl
  | cons entry entries ih =>
    have first := replace_render htable (hplain entry List.mem_cons_self) pieces
    have others := ih (fun other hmem => hplain other (List.mem_cons_of_mem _ hmem))
      (mark entry pieces).1
    simp only [List.map_cons, Replacement.applyAll, first, others, markAll]

/-- Localizing a text against entries is marking their literals in it. -/
theorem localizeText_eq (entries : List Catalog.Entry) (hplain : ∀ entry ∈ entries, Plain entry)
    (text : String) :
    localizeText text (entries.map fun entry => ⟨entry.quoted, lookupCall table entry.index⟩) =
      let pieces := (markAll entries (ofText text.toList)).1
      (String.ofList (render table pieces), pieces.countP isCall) := by
  have applied := applyAll_render htable entries hplain (ofText text.toList)
  rw [render_ofText] at applied
  rw [localizeText, applied]
  simp only [countP_isCall_markAll, countP_isCall_ofText, Nat.zero_add]

end

end Piece

end Phrasebook
