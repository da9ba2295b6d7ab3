import Phrasebook.Proofs.Catalog
import Phrasebook.Proofs.Settled

/-!
# Localizing and scanning

Localizing replaces quoted sentences wherever they occur in a text. What a scan would have replaced
are the literals with double quotes. Main statement: the two agree on a text exactly when every
quoted sentence in it that is no literal shares a quote with a literal whose turn comes before.
-/

namespace Phrasebook

/-- The entry a literal stands for: the one with its content, if it has double quotes. -/
def Catalog.entryOf? (catalog : Catalog) (span : Span) : Option Entry :=
  if span.quote = .double then catalog.entries.find? (·.sentence.content = span.content) else none

/-- Replaces literals of a text that starts at byte `offset`, where there is something to replace
    them by, and copies everything else. -/
def replaceSpans (new? : Span → Option String) (offset : Nat) : List Span → List Char → List Char
  | [], cs => cs
  | span :: spans, cs =>
    let (before, rest) := Text.splitAtByte (span.start - offset) cs
    let (literal, after) := Text.splitAtByte (span.stop - span.start) rest
    before ++ ((new? span).map String.toList).getD literal ++
      replaceSpans new? span.stop spans after

/-- The text with its literals of the catalog replaced by calls, and their number. -/
def localizeLiterals (text : String) (catalog : Catalog) (table : String) : String × Nat :=
  (String.ofList
    (replaceSpans (fun span => (catalog.entryOf? span).map (lookupCall table ·.index)) 0
      (scan text) text.toList),
   ((scan text).filter fun span => (catalog.entryOf? span).isSome).length)

/-- A literal with double quotes and this content opens at byte `start`. -/
def HasLiteral (text content : String) (start : Nat) : Prop :=
  ∃ span ∈ scan text, span.quote = .double ∧ span.content = content ∧ span.start = start

/-- The content in double quotes occurs at byte `start`, be it a literal or not. -/
def HasQuoted (text content : String) (start : Nat) : Prop :=
  ∃ before after, text.toList = before ++ '"' :: (content.toList ++ '"' :: after) ∧
    start = Text.byteLength before

/-- The quoted content of the entry at byte `start` shares a quote with a literal whose turn comes
    before: the opening one with a literal up to the entry itself, or the closing one with a literal
    of an entry before. -/
def Catalog.SharesQuote (catalog : Catalog) (text : String) (entry : Entry) (start : Nat) : Prop :=
  ∃ other ∈ catalog.entries, ∃ place, HasLiteral text other.sentence.content place ∧
    ((other.index ≤ entry.index ∧
        place + Text.byteLength other.sentence.content.toList + 1 = start) ∨
      (other.index < entry.index ∧
        start + Text.byteLength entry.sentence.content.toList + 1 = place))

namespace Segment

theorem entryOf?_eq (catalog : Catalog) (quote : Quote) (content : List Char)
    (line start stop : Nat) :
    catalog.entryOf? ⟨String.ofList content, quote, line, start, stop⟩ =
      entryFor catalog.entries quote content := by
  unfold Catalog.entryOf? entryFor
  simp only [String.ext_iff, String.toList_ofList]

theorem le_start_of_mem_scanFrom {span : Span} {cs : List Char} {offset line : Nat}
    (h : span ∈ Literal.scanFrom 0 offset line cs) : offset ≤ span.start := by
  have : span.extent ∈ extents offset (split cs) := by
    rw [← map_extent_scanFrom cs offset line]
    exact List.mem_map_of_mem h
  obtain ⟨left, right, -, hstart, -⟩ := mem_extents.mp this
  omega

/-- A character before the first literal is copied. -/
theorem replaceSpans_cons (new? : Span → Option String) (offset : Nat) (spans : List Span)
    (c : Char) (cs : List Char) (hstart : ∀ span ∈ spans, offset + c.utf8Size ≤ span.start) :
    replaceSpans new? offset spans (c :: cs) =
      c :: replaceSpans new? (offset + c.utf8Size) spans cs := by
  cases spans with
  | nil => rfl
  | cons span spans =>
    have := hstart span List.mem_cons_self
    have := c.utf8Size_pos
    obtain ⟨n, hn⟩ : ∃ n, span.start - offset = n + 1 := Nat.exists_eq_add_one.mpr (by omega)
    have rest : n + 1 - c.utf8Size = span.start - (offset + c.utf8Size) := by omega
    simp only [replaceSpans, hn, Text.splitAtByte, rest, List.cons_append]

/-- Replacing the literals of a scan gives the text of its pieces. -/
theorem replaceSpans_scanFrom (catalog : Catalog) (table : String) (cs : List Char)
    (offset line : Nat) :
    replaceSpans (fun span => (catalog.entryOf? span).map (lookupCall table ·.index)) offset
        (Literal.scanFrom 0 offset line cs) cs =
      Piece.render table (piecesOf catalog.entries cs) := by
  induction cs using split_induction generalizing offset line with
  | nil => rfl
  | gap c cs h ih =>
    rw [scanFrom_gap h, replaceSpans_cons _ _ _ _ _ fun span hmem => le_start_of_mem_scanFrom hmem,
      ih, piecesOf_gap h]
    rfl
  | literal quote content rest h ih =>
    rw [scanFrom_literal h, piecesOf_literal h, Piece.render_append, ← ih _ line, replaceSpans]
    simp only [Nat.sub_self, Text.splitAtByte, Nat.add_sub_cancel_left, Text.splitAtByte_append,
      entryOf?_eq, List.nil_append]
    congr 1
    cases found : entryFor catalog.entries quote content with
    | none => simp [pieces_of_none found]
    | some entry => simp [pieces_of_some found, Piece.text]

/-- The literals of the catalog are as many as the calls. -/
theorem length_filter_scanFrom (catalog : Catalog) (cs : List Char) (offset line : Nat) :
    ((Literal.scanFrom 0 offset line cs).filter fun span =>
        (catalog.entryOf? span).isSome).length =
      (piecesOf catalog.entries cs).countP Piece.isCall := by
  induction cs using split_induction generalizing offset line with
  | nil => rfl
  | gap c cs h ih =>
    rw [scanFrom_gap h, ih, piecesOf_gap h]
    simp [Piece.isCall]
  | literal quote content rest h ih =>
    rw [scanFrom_literal h, piecesOf_literal h, List.countP_append,
      ← ih (offset + Text.byteLength (enclose quote content)) line]
    cases found : entryFor catalog.entries quote content with
    | none => simp [entryOf?_eq, found, pieces_of_none found]
    | some entry =>
      simp [entryOf?_eq, found, pieces_of_some found, Piece.isCall]
      omega

end Segment

namespace Piece

variable {table : String} (htable : Config.checkTable table = .ok ())
include htable

/-- A text that starts with a call does not start with a quote. -/
theorem lookupCall_append_ne {index : Nat} {rest more : List Char} :
    (lookupCall table index).toList ++ rest ≠ '"' :: more := by
  intro same
  obtain ⟨c, call, hcall⟩ := List.exists_cons_of_ne_nil
    (show (lookupCall table index).toList ≠ [] by simp [toList_lookupCall])
  rw [hcall, List.cons_append, List.cons_eq_cons] at same
  apply quote_not_mem_lookupCall htable index
  simp [hcall, same.1]

/-- Pieces with the same source and the same text are the same. -/
theorem eq_of_render_eq {entries : List Catalog.Entry}
    (hquote : ∀ entry ∈ entries, '"' ∉ entry.sentence.content.toList)
    (hdistinct : ∀ entry ∈ entries, ∀ other ∈ entries,
      entry.sentence.content = other.sentence.content → entry = other)
    {pieces pieces' : List Piece} (hown : ∀ entry, call entry ∈ pieces → entry ∈ entries)
    (hown' : ∀ entry, call entry ∈ pieces' → entry ∈ entries)
    (hrestore : restore pieces = restore pieces')
    (hrender : render table pieces = render table pieces') : pieces = pieces' := by
  induction pieces generalizing pieces' with
  | nil =>
    cases pieces' with
    | nil => rfl
    | cons piece rest => cases piece <;> simp [origin, toList_quoted] at hrestore
  | cons piece rest ih =>
    cases pieces' with
    | nil => cases piece <;> simp [origin, toList_quoted] at hrestore
    | cons piece' rest' =>
      have ownRest : ∀ entry, call entry ∈ rest → entry ∈ entries :=
        fun entry hmem => hown entry (List.mem_cons_of_mem _ hmem)
      have ownRest' : ∀ entry, call entry ∈ rest' → entry ∈ entries :=
        fun entry hmem => hown' entry (List.mem_cons_of_mem _ hmem)
      simp only [restore_cons, render_cons] at hrestore hrender
      cases piece with
      | char c =>
        cases piece' with
        | char d =>
          simp only [origin, text, List.singleton_append, List.cons_eq_cons] at hrestore hrender
          rw [hrestore.1, ih ownRest ownRest' hrestore.2 hrender.2]
        | call entry =>
          simp only [origin, text, toList_quoted, List.cons_append, List.cons_eq_cons]
            at hrestore hrender
          rw [hrestore.1] at hrender
          exact absurd hrender.symm (lookupCall_append_ne htable)
      | call entry =>
        cases piece' with
        | char d =>
          simp only [origin, text, toList_quoted, List.cons_append, List.cons_eq_cons]
            at hrestore hrender
          rw [← hrestore.1] at hrender
          exact absurd hrender (lookupCall_append_ne htable)
        | call other =>
          have hentry := hown entry List.mem_cons_self
          have hother := hown' other List.mem_cons_self
          simp only [origin, toList_quoted, List.cons_append, List.append_assoc, List.nil_append,
            List.cons_eq_cons, true_and] at hrestore
          have starts : entry.sentence.content.toList ++ ['"'] <+:
              other.sentence.content.toList ++ '"' :: restore rest' := by
            rw [← hrestore]
            simp
          have contents : entry.sentence.content.toList = other.sentence.content.toList :=
            Text.eq_of_append_prefix (hquote entry hentry) (hquote other hother) starts
          obtain rfl := hdistinct entry hentry other hother (String.ext_iff.mpr contents)
          have later : restore rest = restore rest' := by simpa using hrestore
          rw [ih ownRest ownRest' later (List.append_cancel_left hrender)]

end Piece

namespace Segment

/-- The entries whose literals are replaced are among the given ones. -/
theorem mem_of_call_mem_piecesOf {entries : List Catalog.Entry} {entry : Catalog.Entry}
    {cs : List Char} (h : .call entry ∈ piecesOf entries cs) : entry ∈ entries := by
  simp only [piecesOf, List.mem_flatMap] at h
  obtain ⟨segment, -, hmem⟩ := h
  cases segment with
  | gap c => simp [pieces] at hmem
  | literal quote content =>
    cases found : entryFor entries quote content with
    | none => simp [pieces_of_none found] at hmem
    | some other =>
      obtain rfl : entry = other := by simpa [pieces_of_some found] using hmem
      exact (of_entryFor_eq_some found).2.1

/-- The text goes on with a literal where one stands. -/
theorem exists_of_stands {cs content before : List Char} (h : Stands cs content before) :
    ∃ after, cs = before ++ '"' :: (content ++ '"' :: after) := by
  obtain ⟨left, right, hsplit, rfl⟩ := h
  have whole := flatMap_chars_split cs
  rw [hsplit] at whole
  exact ⟨right.flatMap chars, by simpa [chars, enclose] using whole.symm⟩

/-- A text is settled for an entry when each place of its quoted content is a literal or shares a
    quote with a literal whose turn comes before. -/
theorem settled_iff {catalog : Catalog} {text : String} {earlier later : List Catalog.Entry}
    {entry : Catalog.Entry} (hentries : catalog.entries = earlier ++ entry :: later) :
    Settled earlier entry.sentence.content.toList text.toList ↔
      ∀ start, HasQuoted text entry.sentence.content start →
        HasLiteral text entry.sentence.content start ∨ catalog.SharesQuote text entry start := by
  have sorted := Catalog.pairwise_number 1 catalog.sentences
  rw [← Catalog.entries, hentries, List.pairwise_append] at sorted
  have before : ∀ other ∈ catalog.entries, other.index < entry.index → other ∈ earlier := by
    intro other hmem hindex
    rw [hentries, List.mem_append, List.mem_cons] at hmem
    rcases hmem with hmem | rfl | hmem
    · exact hmem
    · omega
    · have := List.rel_of_pairwise_cons sorted.2.1 hmem
      omega
  have isBefore : ∀ other ∈ earlier, other ∈ catalog.entries ∧ other.index < entry.index :=
    fun other hmem => ⟨by simp [hentries, hmem], sorted.2.2 other hmem entry (by simp)⟩
  have hentry : entry ∈ catalog.entries := by simp [hentries]
  have quoteSize : '"'.utf8Size = 1 := rfl
  constructor
  · rintro settled start ⟨left, right, hsplit, rfl⟩
    rcases settled left right (by simp [hsplit, enclose]) with stands |
      ⟨other, hmem, place, stands, rfl | rfl⟩ | ⟨place, stands, rfl⟩
    · exact .inl (exists_span_iff.mpr ⟨left, stands, rfl⟩)
    · obtain ⟨inCatalog, hindex⟩ := isBefore other hmem
      refine .inr ⟨other, inCatalog, _, exists_span_iff.mpr ⟨place, stands, rfl⟩, .inl ⟨?_, ?_⟩⟩
      · omega
      · simp [quoteSize]
        omega
    · obtain ⟨inCatalog, hindex⟩ := isBefore other hmem
      refine .inr ⟨other, inCatalog, _, exists_span_iff.mpr ⟨_, stands, rfl⟩, .inr ⟨hindex, ?_⟩⟩
      simp [quoteSize]
      omega
    · refine .inr ⟨entry, hentry, _, exists_span_iff.mpr ⟨place, stands, rfl⟩,
        .inl ⟨Nat.le_refl _, ?_⟩⟩
      simp [quoteSize]
      omega
  · intro shared left right hsplit
    have quoted : HasQuoted text entry.sentence.content (Text.byteLength left) :=
      ⟨left, right, by simp [hsplit, enclose], rfl⟩
    rcases shared _ quoted with literal | ⟨other, hmem, place, literal, hplace⟩
    · obtain ⟨left', stands, bytes⟩ := exists_span_iff.mp literal
      obtain ⟨after, hafter⟩ := exists_of_stands stands
      rw [Text.eq_of_byteLength_eq (hsplit.symm.trans hafter) bytes]
      exact .inl stands
    · obtain ⟨place, stands, rfl⟩ := exists_span_iff.mp literal
      obtain ⟨after, hafter⟩ := exists_of_stands stands
      right
      rcases hplace with ⟨hindex, bytes⟩ | ⟨hindex, bytes⟩
      · have whole : left ++ (enclose .double entry.sentence.content.toList ++ right) =
            place ++ '"' :: other.sentence.content.toList ++ '"' :: after := by
          simp [← hsplit, hafter]
        have same : left = place ++ '"' :: other.sentence.content.toList := by
          refine Text.eq_of_byteLength_eq whole ?_
          simp [quoteSize]
          omega
        by_cases own : other.index = entry.index
        · obtain rfl := Catalog.entry_eq_of_index_eq hentry hmem own
          exact .inr ⟨place, stands, same⟩
        · exact .inl ⟨other, before other hmem (by omega), place, stands, .inl same⟩
      · have whole : place ++ '"' :: (other.sentence.content.toList ++ '"' :: after) =
            left ++ '"' :: entry.sentence.content.toList ++ '"' :: right := by
          simp [← hafter, hsplit, enclose]
        have same : place = left ++ '"' :: entry.sentence.content.toList := by
          refine Text.eq_of_byteLength_eq whole ?_
          simp [quoteSize]
          omega
        exact .inl ⟨other, before other hmem hindex, place, stands, .inr same⟩

end Segment

/-- The content of a candidate is a sentence that stands on one line. -/
theorem isSentence_of_candidate {file source : String} {candidate : Candidate}
    (h : candidate ∈ candidatesIn file source) :
    isSentence candidate.literal.content = true ∧
      ∀ c ∈ candidate.literal.content.toList, Literal.isTerminator c = false := by
  obtain ⟨span, hspan, rfl⟩ := List.mem_map.mp h
  obtain ⟨hmem, sentence⟩ := List.mem_filter.mp hspan
  have : span.extent ∈ Segment.extents 0 (Segment.split source.toList) := by
    rw [← Segment.map_extent_scanFrom source.toList 0 1]
    exact List.mem_map_of_mem hmem
  obtain ⟨left, right, hsplit, -⟩ := Segment.mem_extents.mp this
  have inSplit : .literal span.quote span.content.toList ∈ Segment.split source.toList := by
    simp [hsplit]
  exact ⟨sentence, fun c hc => Segment.not_isTerminator_of_mem_split inSplit hc⟩

/-- Localizing a text replaces exactly the literals that a scan finds, by the calls with their
    numbers, if and only if every quoted sentence in the text that is no literal shares a quote with
    a literal whose turn comes before. -/
theorem localizeText_eq_localizeLiterals_iff (sentences : List Approved) (table text : String)
    (hcandidate : ∀ sentence ∈ sentences, ∃ file source, ∃ candidate ∈ candidatesIn file source,
      candidate.literal.content = sentence.content)
    (hdistinct : (sentences.map (·.content)).Nodup)
    (htable : Config.checkTable table = .ok ()) :
    localizeText text (Replacement.ofCatalog ⟨sentences⟩ table) =
        localizeLiterals text ⟨sentences⟩ table ↔
      ∀ entry ∈ (Catalog.mk sentences).entries, ∀ start,
        HasQuoted text entry.sentence.content start →
          HasLiteral text entry.sentence.content start ∨
            Catalog.SharesQuote ⟨sentences⟩ text entry start := by
  let catalog : Catalog := ⟨sentences⟩
  let marked := Piece.markAll catalog.entries (Piece.ofText text.toList)
  have sentence : ∀ entry ∈ catalog.entries, isSentence entry.sentence.content = true ∧
      ∀ c ∈ entry.sentence.content.toList, Literal.isTerminator c = false := by
    intro entry hmem
    obtain ⟨file, source, candidate, hfound, same⟩ :=
      hcandidate _ (Catalog.index_le_of_mem_number hmem).2.2
    exact same ▸ isSentence_of_candidate hfound
  have plain : ∀ entry ∈ catalog.entries, Piece.Plain entry := fun entry hmem =>
    Piece.plain_of_isSentence (sentence entry hmem).1
  have noSlash : ∀ entry ∈ catalog.entries, '\\' ∉ entry.sentence.content.toList :=
    fun entry hmem =>
      not_mem_of_isSentence (sentence entry hmem).1 (by decide) (by decide) (by decide)
  have contents : (catalog.entries.map (·.sentence.content)).Nodup :=
    Catalog.nodup_content hdistinct
  have distinct : catalog.entries.Pairwise (·.sentence.content ≠ ·.sentence.content) :=
    List.pairwise_map.mp contents
  -- Both sides in pieces.
  have localized : localizeText text (Replacement.ofCatalog catalog table) =
      (String.ofList (Piece.render table marked.1), marked.2) := by
    have applied := Piece.applyAll_render htable catalog.entries plain (Piece.ofText text.toList)
    rw [Piece.render_ofText] at applied
    simp only [localizeText, Replacement.ofCatalog]
    rw [applied]
  have literals : localizeLiterals text catalog table =
      (String.ofList (Piece.render table (Segment.piecesOf catalog.entries text.toList)),
        (Segment.piecesOf catalog.entries text.toList).countP Piece.isCall) := by
    rw [localizeLiterals, scan, Segment.replaceSpans_scanFrom, Segment.length_filter_scanFrom]
  have pieces : localizeText text (Replacement.ofCatalog catalog table) =
        localizeLiterals text catalog table ↔
      marked.1 = Segment.piecesOf catalog.entries text.toList := by
    rw [localized, literals, Prod.mk.injEq]
    constructor
    · rintro ⟨same, -⟩
      refine Piece.eq_of_render_eq htable (fun entry hmem => (plain entry hmem).1)
        (fun entry hmem other hmem' => List.inj_on_of_nodup_map contents hmem hmem')
        (fun entry hmem => ?_) (fun entry hmem => Segment.mem_of_call_mem_piecesOf hmem) ?_
        (by simpa using congrArg String.toList same)
      · exact (Piece.mem_markAll_call hmem).resolve_left (Piece.call_not_mem_ofText entry _)
      · rw [Piece.restore_markAll, Piece.restore_ofText, Segment.restore_piecesOf]
    · intro same
      refine ⟨by rw [same], ?_⟩
      rw [← same, Piece.countP_isCall_markAll, Piece.countP_isCall_ofText, Nat.zero_add]
  rw [pieces, Segment.markAll_ofText_iff _ (fun entry hmem => (plain entry hmem).1) noSlash
    (fun entry hmem => (sentence entry hmem).2) distinct]
  constructor
  · intro settled entry hmem
    obtain ⟨earlier, later, hentries⟩ := List.append_of_mem hmem
    exact (Segment.settled_iff hentries).mp (settled earlier entry later hentries)
  · intro shared earlier entry later hentries
    have hmem : entry ∈ catalog.entries := by simp [hentries]
    exact (Segment.settled_iff hentries).mpr (shared entry hmem)

/-- A quoted sentence between two literals, with which it shares its quotes, is left alone. -/
theorem localizeText_eq_localizeLiterals_between :
    localizeText "\"a b\"c d\"a b\""
        (Replacement.ofCatalog ⟨[⟨"a b", ⟨"x", 1⟩⟩, ⟨"c d", ⟨"x", 1⟩⟩]⟩ "T") =
      localizeLiterals "\"a b\"c d\"a b\"" ⟨[⟨"a b", ⟨"x", 1⟩⟩, ⟨"c d", ⟨"x", 1⟩⟩]⟩ "T" ∧
    ∀ entry ∈ (Catalog.mk [⟨"a b", ⟨"x", 1⟩⟩, ⟨"c d", ⟨"x", 1⟩⟩]).entries, ∀ start,
      HasQuoted "\"a b\"c d\"a b\"" entry.sentence.content start →
        HasLiteral "\"a b\"c d\"a b\"" entry.sentence.content start ∨
          Catalog.SharesQuote ⟨[⟨"a b", ⟨"x", 1⟩⟩, ⟨"c d", ⟨"x", 1⟩⟩]⟩ "\"a b\"c d\"a b\""
            entry start := by
  have same : localizeText "\"a b\"c d\"a b\""
        (Replacement.ofCatalog ⟨[⟨"a b", ⟨"x", 1⟩⟩, ⟨"c d", ⟨"x", 1⟩⟩]⟩ "T") =
      localizeLiterals "\"a b\"c d\"a b\"" ⟨[⟨"a b", ⟨"x", 1⟩⟩, ⟨"c d", ⟨"x", 1⟩⟩]⟩ "T" := by
    decide +kernel
  refine ⟨same, (localizeText_eq_localizeLiterals_iff _ "T" _ ?_ (by decide) (by decide)).mp same⟩
  intro sentence hmem
  refine ⟨"x", "\"a b\", \"c d\"", ?_⟩
  rcases List.mem_pair.mp hmem with rfl | rfl
  · decide +kernel
  · decide +kernel

/-- A quoted sentence inside of a literal with single quotes is replaced, though no scan finds it. -/
theorem localizeText_ne_localizeLiterals :
    (∃ candidate ∈ candidatesIn "x" "\"Hello world\"",
      candidate.literal.content = "Hello world") ∧
    Config.checkTable "T" = .ok () ∧
    localizeText "'\"Hello world\"'"
        (Replacement.ofCatalog ⟨[⟨"Hello world", ⟨"x", 1⟩⟩]⟩ "T") = ("'T:GetLang(1)'", 1) ∧
    localizeLiterals "'\"Hello world\"'" ⟨[⟨"Hello world", ⟨"x", 1⟩⟩]⟩ "T" =
      ("'\"Hello world\"'", 0) := by
  decide +kernel

end Phrasebook
