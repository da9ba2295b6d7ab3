import Mathlib.Algebra.BigOperators.Group.List.Basic
import Mathlib.Data.List.Perm.Basic
import Phrasebook.Proofs.Exhaustion

/-!
# The order of replacements

Replacements are applied one after the other, in the order of the catalog. `Piece.atOnce` replaces
what stands in the text in one go. Main statement: if no two quoted sentences of a text share a quote,
then all of them are replaced, in whatever order the replacements are applied, and the result is that
of replacing them at once.
-/

namespace Phrasebook

/-- The number of places where a pattern occurs in a text, be they apart or not. -/
def Text.occurrences (pattern text : List Char) : Nat :=
  text.tails.countP (pattern.isPrefixOf ·)

namespace Piece

/-- Replaces the literals of entries from left to right, each by the call of its entry. The first
    `held` characters belong to the literal that has just been replaced. -/
def atOnceFrom (entries : List Catalog.Entry) : Nat → List Char → List Piece
  | _, [] => []
  | held + 1, _ :: cs => atOnceFrom entries held cs
  | 0, c :: cs =>
    match entries.find? (·.quoted.toList.isPrefixOf (c :: cs)) with
    | some entry => call entry :: atOnceFrom entries (entry.quoted.length - 1) cs
    | none => char c :: atOnceFrom entries 0 cs

/-- The text with the literals of entries replaced where they stand. -/
def atOnce (entries : List Catalog.Entry) (cs : List Char) : List Piece :=
  atOnceFrom entries 0 cs

end Piece

/-- The text with the quoted sentences of a catalog replaced at once, and their number. -/
def localizeAtOnce (text : String) (catalog : Catalog) (table : String) : String × Nat :=
  let pieces := Piece.atOnce catalog.entries text.toList
  (String.ofList (Piece.render table pieces), pieces.countP Piece.isCall)

namespace Piece

variable {entries : List Catalog.Entry}

@[simp] theorem atOnce_nil : atOnce entries [] = [] := rfl

theorem atOnceFrom_held (dropped rest : List Char) :
    atOnceFrom entries dropped.length (dropped ++ rest) = atOnce entries rest := by
  induction dropped with
  | nil => rfl
  | cons c dropped ih => simpa [atOnceFrom] using ih

/-- At most one entry has its literal at the start of a text. -/
structure Distinct (entries : List Catalog.Entry) : Prop where
  quote : ∀ entry ∈ entries, '"' ∉ entry.sentence.content.toList
  content : ∀ entry ∈ entries, ∀ other ∈ entries,
    entry.sentence.content = other.sentence.content → entry = other

theorem Distinct.mono {others : List Catalog.Entry} (h : Distinct others)
    (hsub : entries ⊆ others) : Distinct entries where
  quote entry hmem := h.quote entry (hsub hmem)
  content entry hmem other hmem' := h.content entry (hsub hmem) other (hsub hmem')

section

variable (hdistinct : Distinct entries)
include hdistinct

theorem Distinct.eq_of_prefix {entry other : Catalog.Entry} {cs : List Char}
    (hmem : entry ∈ entries) (hmem' : other ∈ entries) (h : entry.quoted.toList <+: cs)
    (h' : other.quoted.toList <+: cs) : entry = other := by
  obtain ⟨rest, rfl⟩ := h'
  rw [toList_quoted, toList_quoted, List.cons_append, List.cons_prefix_cons] at h
  have inner := h.2
  rw [List.append_assoc, List.singleton_append] at inner
  have same := Text.eq_of_append_prefix (hdistinct.quote entry hmem)
    (hdistinct.quote other hmem') inner
  exact hdistinct.content entry hmem other hmem' (String.ext_iff.mpr same)

theorem Distinct.find?_eq_some_iff {entry : Catalog.Entry} {cs : List Char} :
    entries.find? (·.quoted.toList.isPrefixOf cs) = some entry ↔
      entry ∈ entries ∧ entry.quoted.toList <+: cs := by
  constructor
  · intro found
    exact ⟨List.mem_of_find?_eq_some found, by simpa using List.find?_some found⟩
  · rintro ⟨hmem, starts⟩
    cases found : entries.find? (·.quoted.toList.isPrefixOf cs) with
    | none =>
      have absent := List.find?_eq_none.mp found entry hmem
      simp [starts] at absent
    | some other =>
      have starts' : other.quoted.toList <+: cs := by simpa using List.find?_some found
      rw [hdistinct.eq_of_prefix (List.mem_of_find?_eq_some found) hmem starts' starts]

/-- A literal of an entry is replaced by its call. -/
theorem atOnce_quoted {entry : Catalog.Entry} (hmem : entry ∈ entries) (rest : List Char) :
    atOnce entries (entry.quoted.toList ++ rest) = call entry :: atOnce entries rest := by
  have found := hdistinct.find?_eq_some_iff.mpr ⟨hmem, List.prefix_append _ rest⟩
  obtain ⟨c, tail, quoted⟩ := List.exists_cons_of_ne_nil (quoted_ne_nil entry)
  have length : entry.quoted.length - 1 = tail.length := by
    rw [← String.length_toList, quoted]
    simp
  rw [quoted, List.cons_append] at found ⊢
  rw [atOnce, atOnceFrom, found]
  simp only [length, atOnceFrom_held]

omit hdistinct in
/-- A character at which no literal of the entries starts stays. -/
theorem atOnce_cons {c : Char} {rest : List Char}
    (hno : ∀ entry ∈ entries, ¬ entry.quoted.toList <+: c :: rest) :
    atOnce entries (c :: rest) = char c :: atOnce entries rest := by
  have absent : entries.find? (·.quoted.toList.isPrefixOf (c :: rest)) = none := by
    rw [List.find?_eq_none]
    intro entry hmem
    simpa using hno entry hmem
  rw [atOnce, atOnceFrom, absent]
  rfl

omit hdistinct in
/-- A stretch of the text in which no literal of the entries starts stays. -/
theorem atOnce_append (stay rest : List Char)
    (hno : ∀ a b, stay = a ++ b → b ≠ [] →
      ∀ entry ∈ entries, ¬ entry.quoted.toList <+: b ++ rest) :
    atOnce entries (stay ++ rest) = ofText stay ++ atOnce entries rest := by
  induction stay with
  | nil => rfl
  | cons c stay ih =>
    have here : ∀ entry ∈ entries, ¬ entry.quoted.toList <+: c :: (stay ++ rest) :=
      hno [] (c :: stay) rfl (by simp)
    have later : ∀ a b, stay = a ++ b → b ≠ [] →
        ∀ entry ∈ entries, ¬ entry.quoted.toList <+: b ++ rest := by
      intro a b split hb
      exact hno (c :: a) b (by simp [split]) hb
    rw [List.cons_append, atOnce_cons here, ih later]
    rfl

omit hdistinct in
/-- What holds of a text if it holds of the empty text, at a literal of one of the entries and at any
    other character. -/
theorem atOnce_induction (entries : List Catalog.Entry) {motive : List Char → Prop}
    (nil : motive [])
    (quoted : ∀ entry ∈ entries, ∀ rest, motive rest → motive (entry.quoted.toList ++ rest))
    (cons : ∀ c rest, (∀ entry ∈ entries, ¬ entry.quoted.toList <+: c :: rest) → motive rest →
      motive (c :: rest))
    (cs : List Char) : motive cs := by
  induction h : cs.length using Nat.strongRecOn generalizing cs with
  | ind n ih =>
    by_cases found : ∃ entry ∈ entries, entry.quoted.toList <+: cs
    · obtain ⟨entry, hmem, rest, rfl⟩ := found
      apply quoted entry hmem
      apply ih rest.length ?_ rest rfl
      have := List.length_pos_iff.mpr (quoted_ne_nil entry)
      simp only [List.length_append] at h
      omega
    · push Not at found
      cases cs with
      | nil => exact nil
      | cons c rest =>
        apply cons c rest found
        apply ih rest.length ?_ rest rfl
        simp only [List.length_cons] at h
        omega

theorem restore_atOnce (cs : List Char) : restore (atOnce entries cs) = cs := by
  induction cs using atOnce_induction entries with
  | nil => rfl
  | quoted entry hmem rest ih => rw [atOnce_quoted hdistinct hmem, restore_cons, ih, origin]
  | cons c rest hno ih =>
    rw [atOnce_cons hno, restore_cons, ih]
    rfl

/-- The order of the entries does not matter if they are replaced at once. -/
theorem atOnce_perm {others : List Catalog.Entry} (hperm : others.Perm entries) (cs : List Char) :
    atOnce others cs = atOnce entries cs := by
  have hothers := hdistinct.mono hperm.subset
  induction cs using atOnce_induction entries with
  | nil => rfl
  | quoted entry hmem rest ih =>
    rw [atOnce_quoted hdistinct hmem, atOnce_quoted hothers (hperm.mem_iff.mpr hmem), ih]
  | cons c rest hno ih =>
    rw [atOnce_cons hno, atOnce_cons fun entry hmem => hno entry (hperm.mem_iff.mp hmem), ih]

end

omit entries in
theorem atOnce_no_entries (cs : List Char) : atOnce [] cs = ofText cs := by
  induction cs with
  | nil => rfl
  | cons c cs ih =>
    rw [atOnce_cons (by simp), ih]
    rfl

/-- No literal of the entries ends with the quote that another one starts with. -/
def QuotesApart (entries : List Catalog.Entry) (cs : List Char) : Prop :=
  ∀ entry ∈ entries, ∀ other ∈ entries, ∀ before after,
    cs = before ++ (entry.quoted.toList ++ after) → ¬ other.quoted.toList <+: '"' :: after

theorem QuotesApart.mono {others : List Catalog.Entry} {cs : List Char}
    (h : QuotesApart others cs) (hsub : entries ⊆ others) : QuotesApart entries cs := by
  intro entry hmem other hmem'
  exact h entry (hsub hmem) other (hsub hmem')

theorem QuotesApart.of_append {before cs : List Char} (h : QuotesApart entries (before ++ cs)) :
    QuotesApart entries cs := by
  intro entry hmem other hmem' left after split
  exact h entry hmem other hmem' (before ++ left) after (by rw [split, List.append_assoc])

theorem QuotesApart.of_cons {c : Char} {cs : List Char} (h : QuotesApart entries (c :: cs)) :
    QuotesApart entries cs := by
  rw [← List.singleton_append] at h
  exact h.of_append

/-- Behind the start of a literal no other one starts before its end. -/
theorem not_prefix_inside {entry other : Catalog.Entry} {rest : List Char}
    (hmem : entry ∈ entries) (hmem' : other ∈ entries)
    (hquote : '"' ∉ entry.sentence.content.toList)
    (hapart : QuotesApart entries (entry.quoted.toList ++ rest)) {a b : List Char}
    (hsplit : entry.quoted.toList = a ++ b) (ha : a ≠ []) (hb : b ≠ []) :
    ¬ other.quoted.toList <+: b ++ rest := by
  intro found
  obtain ⟨c, a, rfl⟩ := List.exists_cons_of_ne_nil ha
  obtain ⟨b, last, rfl⟩ := (List.eq_nil_or_concat' b).resolve_left hb
  rw [toList_quoted, List.cons_append, List.cons_eq_cons, ← List.append_assoc] at hsplit
  obtain ⟨content, closing⟩ := List.append_inj' hsplit.2 rfl
  obtain rfl : last = '"' := by simpa using closing.symm
  cases b with
  | nil => exact hapart entry hmem other hmem' [] rest rfl (by simpa using found)
  | cons d b =>
    rw [toList_quoted] at found
    obtain ⟨rfl, -⟩ := List.cons_prefix_cons.mp found
    apply hquote
    simp [content]

/-- After some entries have been replaced at once, marking the literals of one more is replacing that
    entry with them. -/
theorem mark_atOnce {entry : Catalog.Entry} {cs : List Char}
    (hdistinct : Distinct (entries ++ [entry])) (hapart : QuotesApart (entries ++ [entry]) cs) :
    (mark entry (atOnce entries cs)).1 = atOnce (entries ++ [entry]) cs := by
  have earlier := hdistinct.mono (List.subset_append_left entries [entry])
  induction cs using atOnce_induction (entries ++ [entry]) with
  | nil => rfl
  | quoted found hfound rest ih =>
    have ih := ih hapart.of_append
    rw [atOnce_quoted hdistinct hfound]
    by_cases hmem : found ∈ entries
    · rw [atOnce_quoted earlier hmem, mark_call, ih]
    · obtain rfl : found = entry := by simpa [hmem] using hfound
      have stays : atOnce entries (found.quoted.toList ++ rest) =
          ofText found.quoted.toList ++ atOnce entries rest := by
        apply atOnce_append
        intro a b split hb other hother
        have hother' := List.mem_append_left [found] hother
        by_cases ha : a = []
        · -- Two literals that start together are those of one entry.
          subst ha
          rw [List.nil_append] at split
          intro starts
          rw [← split] at starts
          apply hmem
          rw [hdistinct.eq_of_prefix hfound hother' (List.prefix_append _ rest) starts]
          exact hother
        · exact not_prefix_inside hfound hother' (hdistinct.quote found hfound) hapart split ha hb
      rw [stays, mark_quoted, ih]
  | cons c rest hno ih =>
    have ih := ih (hapart.of_cons)
    have hnoEarlier : ∀ other ∈ entries, ¬ other.quoted.toList <+: c :: rest :=
      fun other hmem => hno other (List.mem_append_left _ hmem)
    have absent : ¬ ofText entry.quoted.toList <+: char c :: atOnce entries rest := by
      rintro ⟨after, split⟩
      apply hno entry (by simp)
      have source := congrArg restore split
      rw [restore_append, restore_ofText, restore_cons, restore_atOnce earlier] at source
      exact ⟨restore after, source⟩
    rw [atOnce_cons hno, atOnce_cons hnoEarlier, mark_cons absent, ih]

/-- Marking the literals of entries one entry after the other is replacing them at once. -/
theorem markAll_atOnce {later : List Catalog.Entry} {cs : List Char}
    (hdistinct : Distinct (entries ++ later)) (hapart : QuotesApart (entries ++ later) cs) :
    (markAll later (atOnce entries cs)).1 = atOnce (entries ++ later) cs := by
  induction later generalizing entries with
  | nil => rw [List.append_nil]; rfl
  | cons entry later ih =>
    have front : entries ++ entry :: later = (entries ++ [entry]) ++ later := by simp
    rw [front] at hdistinct hapart ⊢
    have first : entries ++ [entry] ⊆ (entries ++ [entry]) ++ later := List.subset_append_left _ _
    rw [← ih hdistinct hapart, ← mark_atOnce (hdistinct.mono first) (hapart.mono first)]
    rfl

theorem occurrences_cons {pattern cs : List Char} {c : Char} :
    Text.occurrences pattern (c :: cs) =
      Text.occurrences pattern cs + if pattern.isPrefixOf (c :: cs) then 1 else 0 := by
  rw [Text.occurrences, List.tails_cons, List.countP_cons, ← Text.occurrences]

/-- In a stretch of the text in which the pattern does not start it does not occur. -/
theorem occurrences_append {pattern : List Char} (stay rest : List Char)
    (hno : ∀ a b, stay = a ++ b → b ≠ [] → ¬ pattern <+: b ++ rest) :
    Text.occurrences pattern (stay ++ rest) = Text.occurrences pattern rest := by
  induction stay with
  | nil => rfl
  | cons c stay ih =>
    have here : ¬ pattern <+: c :: (stay ++ rest) := hno [] (c :: stay) rfl (by simp)
    have later : ∀ a b, stay = a ++ b → b ≠ [] → ¬ pattern <+: b ++ rest := by
      intro a b split hb
      exact hno (c :: a) b (by simp [split]) hb
    rw [List.cons_append, occurrences_cons, ih later, if_neg (by simpa using here)]
    rfl

/-- At the literal of an entry that entry occurs once more, and no other one does. -/
theorem occurrences_quoted (hdistinct : Distinct entries) {entry other : Catalog.Entry}
    (hmem : entry ∈ entries) (hmem' : other ∈ entries) {rest : List Char}
    (hapart : QuotesApart entries (entry.quoted.toList ++ rest)) :
    Text.occurrences other.quoted.toList (entry.quoted.toList ++ rest) =
      Text.occurrences other.quoted.toList rest + if other = entry then 1 else 0 := by
  obtain ⟨c, tail, quoted⟩ := List.exists_cons_of_ne_nil (quoted_ne_nil entry)
  have inside : Text.occurrences other.quoted.toList (tail ++ rest) =
      Text.occurrences other.quoted.toList rest := by
    apply occurrences_append
    intro a b split hb
    have parts : entry.quoted.toList = (c :: a) ++ b := by rw [quoted, split, List.cons_append]
    exact not_prefix_inside hmem hmem' (hdistinct.quote entry hmem) hapart parts (by simp) hb
  have start : other.quoted.toList.isPrefixOf (entry.quoted.toList ++ rest) = true ↔
      other = entry := by
    rw [List.isPrefixOf_iff_prefix]
    constructor
    · intro starts
      exact hdistinct.eq_of_prefix hmem' hmem starts (List.prefix_append _ rest)
    · rintro rfl
      exact List.prefix_append _ rest
  rw [quoted, List.cons_append] at start ⊢
  simp only [occurrences_cons, inside, start]

/-- A sum over a list without repetitions grows by one if its summand at one element does. -/
theorem sum_map_succ {α : Type} [DecidableEq α] {l : List α} {x : α} (hnodup : l.Nodup)
    (hmem : x ∈ l) {f g : α → Nat} (hx : g x = f x + 1) (hother : ∀ y ∈ l, y ≠ x → g y = f y) :
    (l.map g).sum = (l.map f).sum + 1 := by
  have rest : (l.erase x).map g = (l.erase x).map f := by
    apply List.map_congr_left
    intro y inRest
    obtain ⟨hne, inList⟩ := hnodup.mem_erase_iff.mp inRest
    exact hother y inList hne
  rw [← List.sum_map_erase g hmem, ← List.sum_map_erase f hmem, rest, hx]
  omega

/-- Replacing entries at once replaces every occurrence of their literals. -/
theorem countP_isCall_atOnce (hdistinct : Distinct entries) (hnodup : entries.Nodup)
    {cs : List Char} (hapart : QuotesApart entries cs) :
    (atOnce entries cs).countP isCall =
      (entries.map fun entry => Text.occurrences entry.quoted.toList cs).sum := by
  induction cs using atOnce_induction entries with
  | nil =>
    have none : ∀ entry : Catalog.Entry, Text.occurrences entry.quoted.toList [] = 0 := by
      intro entry
      simp [Text.occurrences, toList_quoted]
    simp [none]
  | quoted found hfound rest ih =>
    rw [atOnce_quoted hdistinct hfound, List.countP_cons, ih hapart.of_append]
    refine (sum_map_succ hnodup hfound ?_ ?_).symm
    · rw [occurrences_quoted hdistinct hfound hfound hapart, if_pos rfl]
    · intro other hmem hne
      rw [occurrences_quoted hdistinct hfound hmem hapart, if_neg hne]
      rfl
  | cons c rest hno ih =>
    have same : ∀ entry ∈ entries, Text.occurrences entry.quoted.toList (c :: rest) =
        Text.occurrences entry.quoted.toList rest := by
      intro entry hmem
      rw [occurrences_cons, if_neg (by simpa using hno entry hmem)]
      rfl
    rw [atOnce_cons hno, List.countP_cons, ih hapart.of_cons, List.map_congr_left same]
    rfl

end Piece

/-- Quoted sentences that are apart in a text are apart for the entries of the catalog. -/
theorem Catalog.quotesApart {sentences : List Approved} {text : String}
    (h : ∀ sentence ∈ sentences, ∀ other ∈ sentences, ∀ start,
      HasQuoted text sentence.content start →
        ¬ HasQuoted text other.content (start + Text.byteLength sentence.content.toList + 1)) :
    Piece.QuotesApart (Catalog.mk sentences).entries text.toList := by
  intro entry hmem other hmem' before after parts found
  obtain ⟨after', follows⟩ := found
  rw [Piece.toList_quoted] at parts follows
  have inSentences := (Catalog.index_le_of_mem_number hmem).2.2
  have inSentences' := (Catalog.index_le_of_mem_number hmem').2.2
  refine h _ inSentences _ inSentences' (Text.byteLength before) ⟨before, after, ?_, rfl⟩ ?_
  · simpa using parts
  · refine ⟨before ++ '"' :: entry.sentence.content.toList, after', ?_, ?_⟩
    · have whole : text.toList =
          (before ++ '"' :: entry.sentence.content.toList) ++ '"' :: after := by simpa using parts
      rw [whole, ← follows]
      simp
    · have quoteSize : '"'.utf8Size = 1 := rfl
      simp [quoteSize]
      omega

/-- Two quoted sentences that share a quote stand in the text as one stretch with three quotes. -/
theorem infix_of_shared_quote {text content other : String} {start : Nat}
    (h : HasQuoted text content start)
    (h' : HasQuoted text other (start + Text.byteLength content.toList + 1)) :
    '"' :: (content.toList ++ '"' :: (other.toList ++ ['"'])) <:+: text.toList := by
  obtain ⟨before, after, parts, rfl⟩ := h
  obtain ⟨before', after', parts', place⟩ := h'
  have whole : (before ++ '"' :: content.toList) ++ '"' :: after =
      before' ++ '"' :: (other.toList ++ '"' :: after') := by
    rw [← parts', parts]
    simp
  have quoteSize : '"'.utf8Size = 1 := rfl
  have bytes : Text.byteLength (before ++ '"' :: content.toList) = Text.byteLength before' := by
    rw [← place, Text.byteLength_append, Text.byteLength_cons, quoteSize]
    omega
  obtain rfl := Text.eq_of_byteLength_eq whole bytes
  exact ⟨before, after', by rw [parts']; simp⟩

/-- If no two quoted sentences in a text share a quote, the order of the replacements does not matter:
    each of the sentences is replaced wherever it occurs, as if all were replaced at once. -/
theorem localizeText_perm (sentences : List Approved) (table text : String)
    (hsentence : ∀ sentence ∈ sentences, isSentence sentence.content = true)
    (hdistinct : (sentences.map (·.content)).Nodup)
    (htable : Config.checkTable table = .ok ())
    (hapart : ∀ sentence ∈ sentences, ∀ other ∈ sentences, ∀ start,
      HasQuoted text sentence.content start →
        ¬ HasQuoted text other.content (start + Text.byteLength sentence.content.toList + 1))
    (shuffled : List Replacement)
    (hperm : shuffled.Perm (Replacement.ofCatalog ⟨sentences⟩ table)) :
    localizeText text shuffled = localizeAtOnce text ⟨sentences⟩ table ∧
    (localizeText text shuffled).2 =
      (sentences.map fun sentence =>
        Text.occurrences ("\"" ++ sentence.content ++ "\"").toList text.toList).sum := by
  let entries := (Catalog.mk sentences).entries
  have plain : ∀ entry ∈ entries, Piece.Plain entry := fun entry hmem =>
    Piece.plain_of_isSentence (hsentence _ (Catalog.index_le_of_mem_number hmem).2.2)
  have contents : (entries.map (·.sentence.content)).Nodup := Catalog.nodup_content hdistinct
  have distinct : Piece.Distinct entries :=
    ⟨fun entry hmem => (plain entry hmem).1,
      fun entry hmem other hmem' => List.inj_on_of_nodup_map contents hmem hmem'⟩
  have apart : Piece.QuotesApart entries text.toList := Catalog.quotesApart hapart
  -- The replacements are those of the entries in some order.
  obtain ⟨others, others_map, others_perm⟩ : ∃ others : List Catalog.Entry,
      others.map (fun entry => ⟨entry.quoted, lookupCall table entry.index⟩) = shuffled ∧
        others.Perm entries := by
    have composed := congrFun (congrFun (List.eq_map_comp_perm fun entry : Catalog.Entry =>
      (⟨entry.quoted, lookupCall table entry.index⟩ : Replacement)) shuffled) entries
    obtain ⟨others, same, perm⟩ := composed.mpr hperm
    exact ⟨others, same.symm, perm⟩
  -- Marking them one after the other is replacing them at once.
  have marked : (Piece.markAll others (Piece.ofText text.toList)).1 =
      Piece.atOnce entries text.toList := by
    have afterNone : (Piece.markAll others (Piece.atOnce [] text.toList)).1 =
        Piece.atOnce others text.toList :=
      Piece.markAll_atOnce (distinct.mono others_perm.subset) (apart.mono others_perm.subset)
    rw [← Piece.atOnce_no_entries, afterNone, Piece.atOnce_perm distinct others_perm]
  have localized : localizeText text shuffled = localizeAtOnce text ⟨sentences⟩ table := by
    rw [← others_map, Piece.localizeText_eq htable others fun entry hmem =>
      plain entry (others_perm.mem_iff.mp hmem), marked]
    rfl
  refine ⟨localized, ?_⟩
  have bySentence : (sentences.map fun sentence =>
        Text.occurrences ("\"" ++ sentence.content ++ "\"").toList text.toList) =
      entries.map fun entry => Text.occurrences entry.quoted.toList text.toList := by
    conv_lhs => rw [← Catalog.map_sentence_number 1 sentences, List.map_map]
    rfl
  rw [localized, bySentence]
  exact Piece.countP_isCall_atOnce distinct contents.of_map apart

/-- A sentence that another one starts with leaves the literals of the other one alone. -/
theorem localizeText_perm_prefix :
    let text := "\"a b c\" \"a b\" \"a b c\""
    let sentences : List Approved := [⟨"a b", ⟨"x", 1⟩⟩, ⟨"a b c", ⟨"x", 2⟩⟩]
    let shuffled := (Replacement.ofCatalog ⟨sentences⟩ "T").reverse
    localizeText text shuffled = localizeAtOnce text ⟨sentences⟩ "T" ∧
    localizeAtOnce text ⟨sentences⟩ "T" =
      ("T:GetLang(2) T:GetLang(1) T:GetLang(2)", 3) := by
  intro text sentences shuffled
  have apart : ∀ sentence ∈ sentences, ∀ other ∈ sentences, ∀ start,
      HasQuoted text sentence.content start →
        ¬ HasQuoted text other.content (start + Text.byteLength sentence.content.toList + 1) := by
    intro sentence hmem other hmem' start here next
    have absent : ∀ sentence ∈ sentences, ∀ other ∈ sentences,
        ¬ '"' :: (sentence.content.toList ++ '"' :: (other.content.toList ++ ['"'])) <:+:
          text.toList := by
      decide +kernel
    exact absent sentence hmem other hmem' (infix_of_shared_quote here next)
  refine ⟨?_, by decide +kernel⟩
  exact (localizeText_perm sentences "T" text (by decide) (by decide) (by decide) apart shuffled
    (List.reverse_perm _)).1

end Phrasebook
