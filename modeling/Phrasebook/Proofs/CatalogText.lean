import Phrasebook.Proofs.LiteralAgreement

/-!
# Reading a catalog back

A text is scanned line by line: what a scan finds on a line is what it finds in the line alone. Main
statement: in the Lua chunk of a catalog a scan finds each sentence as the one literal on the line of
its number, and no other literals but those of the locale.
-/

namespace Phrasebook

namespace Text

/-- The text with the given lines, each ended by a line feed. -/
def ofLines (rows : List (List Char)) : List Char :=
  rows.flatMap (· ++ ['\n'])

@[simp] theorem ofLines_nil : ofLines [] = [] := rfl

@[simp] theorem ofLines_cons (row : List Char) (rows : List (List Char)) :
    ofLines (row :: rows) = row ++ '\n' :: ofLines rows := by
  simp [ofLines]

@[simp] theorem ofLines_append (rows more : List (List Char)) :
    ofLines (rows ++ more) = ofLines rows ++ ofLines more :=
  List.flatMap_append

theorem lastLine_append {row : List Char} (h : Unbroken row) (rows : List (List Char)) :
    lastLine (ofLines rows ++ row) = row := by
  -- What stands before the row is empty or ends in a line feed.
  have ends : lastLine (ofLines rows) = [] := by
    rcases List.eq_nil_or_concat' rows with rfl | ⟨rows, last, rfl⟩
    · rfl
    · rw [ofLines_append, ofLines_cons, ← List.append_assoc]
      exact lastLine_append_break _ rfl []
  rw [lastLine_append_unbroken _ h, ends, List.nil_append]

/-- The line around a cut through a row is the row. -/
theorem lineAt_row {before after : List Char} (hrow : Unbroken (before ++ after))
    (rows more : List (List Char)) :
    lineAt (ofLines (rows ++ (before ++ after) :: more)) (byteLength (ofLines rows ++ before)) =
      before ++ after := by
  obtain ⟨hbefore, hafter⟩ := unbroken_append.mp hrow
  have text : ofLines (rows ++ (before ++ after) :: more) =
      (ofLines rows ++ before) ++ (after ++ '\n' :: ofLines more) := by
    simp
  have stays : ∀ c ∈ after, (! isBreak c) = true := fun c hmem => by simpa using hafter c hmem
  rw [lineAt, text, splitAtByte_append]
  simp only [lineAround]
  rw [lastLine_append hbefore, List.takeWhile_append_of_pos stays]
  simp [isBreak]

end Text

namespace Literal

/-- The literals of a text that starts with a line are those of the line and those of the rest. -/
theorem scanFrom_line {row : List Char} (hrow : Text.Unbroken row) (rest : List Char)
    {held : Nat} (hheld : held ≤ row.length) (offset line : Nat) :
    scanFrom held offset line (row ++ '\n' :: rest) =
      scanFrom held offset line row ++
        scanFrom 0 (offset + Text.byteLength (row ++ ['\n'])) (line + 1) rest := by
  induction row generalizing held offset with
  | nil =>
    obtain rfl : held = 0 := by simpa using hheld
    rfl
  | cons c row ih =>
    obtain ⟨notBreak, unbroken⟩ := Text.unbroken_cons.mp hrow
    have stays : ∀ cs, Text.endsLine c cs = false := Text.endsLine_eq_false notBreak
    have bytes : offset + Text.byteLength (c :: row ++ ['\n']) =
        offset + c.utf8Size + Text.byteLength (row ++ ['\n']) := by
      rw [List.cons_append, Text.byteLength_cons, Nat.add_assoc]
    rw [bytes, List.cons_append]
    cases held with
    | succ held =>
      simp only [scanFrom, stays, Bool.false_eq_true, if_false]
      exact ih unbroken (by simpa using hheld) _
    | zero =>
      cases hquote : Quote.ofChar? c with
      | none =>
        simp only [scanFrom, hquote, stays, Bool.false_eq_true, if_false]
        exact ih unbroken (Nat.zero_le _) _
      | some quote =>
        obtain rfl := Segment.eq_char_of_ofChar? hquote
        simp only [scanFrom, hquote, stays, close_append_terminator (t := '\n') rfl quote,
          Bool.false_eq_true, if_false]
        cases hclose : close quote.char row with
        | none => exact ih unbroken (Nat.zero_le _) _
        | some content =>
          obtain ⟨after, rfl⟩ := exists_of_close hclose
          have inside : content.length + 1 ≤ (content ++ quote.char :: after).length := by simp
          simp only [List.cons_append]
          rw [ih unbroken inside]

/-- At a character a scan finds at most one literal, on the line of the character, and goes on. -/
theorem exists_scanFrom_cons (held offset line : Nat) (c : Char) (cs : List Char) :
    ∃ found held', scanFrom held offset line (c :: cs) =
        found ++ scanFrom held' (offset + c.utf8Size)
          (if Text.endsLine c cs then line + 1 else line) cs ∧
      ∀ span ∈ found, span.line = line := by
  cases held with
  | succ held => exact ⟨[], held, rfl, by simp⟩
  | zero =>
    cases hquote : Quote.ofChar? c with
    | none => exact ⟨[], 0, by simp only [scanFrom, hquote, List.nil_append], by simp⟩
    | some quote =>
      cases hclose : close c cs with
      | none => exact ⟨[], 0, by simp only [scanFrom, hquote, hclose, List.nil_append], by simp⟩
      | some content =>
        let span : Span :=
          { content := String.ofList content, quote, line, start := offset,
            stop := offset + c.utf8Size + Text.byteLength content + c.utf8Size }
        refine ⟨[span], content.length + 1, ?_, by simp [span]⟩
        simp only [scanFrom, hquote, hclose, List.singleton_append]
        rfl

/-- A scan does not go back to earlier lines. -/
theorem le_line_of_mem_scanFrom {span : Span} {cs : List Char} {held offset line : Nat}
    (h : span ∈ scanFrom held offset line cs) : line ≤ span.line := by
  induction cs generalizing held offset line with
  | nil => simp [scanFrom] at h
  | cons c cs ih =>
    obtain ⟨found, held', scanned, here⟩ := exists_scanFrom_cons held offset line c cs
    rw [scanned] at h
    rcases List.mem_append.mp h with first | later
    · exact (here span first).ge
    · have := ih later
      split at this <;> omega

/-- The literals of a line are on that line. -/
theorem line_eq_of_mem_scanFrom {span : Span} {row : List Char} (hrow : Text.Unbroken row)
    {held offset line : Nat} (h : span ∈ scanFrom held offset line row) : span.line = line := by
  induction row generalizing held offset with
  | nil => simp [scanFrom] at h
  | cons c row ih =>
    obtain ⟨notBreak, unbroken⟩ := Text.unbroken_cons.mp hrow
    obtain ⟨found, held', scanned, here⟩ := exists_scanFrom_cons held offset line c row
    rw [scanned, Text.endsLine_eq_false notBreak] at h
    rcases List.mem_append.mp h with first | later
    · exact here span first
    · exact ih unbroken later

/-- What a scan finds on a line of a text is what it finds in that line. -/
theorem filter_line_scanFrom {rows : List (List Char)} (hrows : ∀ row ∈ rows, Text.Unbroken row)
    (offset line number : Nat) :
    (scanFrom 0 offset line (Text.ofLines rows)).filter (·.line = line + number) =
      (rows[number]?.map
        (scanFrom 0 (offset + Text.byteLength (Text.ofLines (rows.take number)))
          (line + number))).getD [] := by
  induction rows generalizing offset line number with
  | nil => rfl
  | cons row rows ih =>
    have unbroken := hrows row List.mem_cons_self
    have later := ih fun row hmem => hrows row (List.mem_cons_of_mem _ hmem)
    rw [Text.ofLines_cons, scanFrom_line unbroken _ (Nat.zero_le _), List.filter_append]
    cases number with
    | zero =>
      have all : ∀ span ∈ scanFrom 0 offset line row, decide (span.line = line + 0) = true :=
        fun span hmem => by simp [line_eq_of_mem_scanFrom unbroken hmem]
      have none : ∀ {offset}, ∀ span ∈ scanFrom 0 offset (line + 1) (Text.ofLines rows),
          ¬ decide (span.line = line + 0) = true := fun span hmem => by
        have := le_line_of_mem_scanFrom hmem
        simp only [decide_eq_true_eq]
        omega
      rw [List.filter_eq_self.mpr all, List.filter_eq_nil_iff.mpr none]
      simp
    | succ number =>
      have none : ∀ span ∈ scanFrom 0 offset line row,
          ¬ decide (span.line = line + (number + 1)) = true := fun span hmem => by
        have := line_eq_of_mem_scanFrom unbroken hmem
        simp only [decide_eq_true_eq]
        omega
      have next := later (offset + Text.byteLength (row ++ ['\n'])) (line + 1) number
      rw [List.filter_eq_nil_iff.mpr none, List.nil_append]
      simp only [Nat.add_assoc, Nat.add_comm 1 number] at next ⊢
      rw [next, List.getElem?_cons_succ, List.take_succ_cons, Text.ofLines_cons]
      congr 3
      simp [Nat.add_assoc]

/-- No quote is in the text, and no end of a line. -/
def Bare (cs : List Char) : Prop :=
  ∀ c ∈ cs, Quote.ofChar? c = none ∧ Text.isBreak c = false

@[simp] theorem bare_nil : Bare [] := by simp [Bare]

@[simp] theorem bare_cons {c : Char} {cs : List Char} :
    Bare (c :: cs) ↔ (Quote.ofChar? c = none ∧ Text.isBreak c = false) ∧ Bare cs :=
  List.forall_mem_cons

@[simp] theorem bare_append {cs ds : List Char} : Bare (cs ++ ds) ↔ Bare cs ∧ Bare ds :=
  List.forall_mem_append

theorem Bare.unbroken {cs : List Char} (h : Bare cs) : Text.Unbroken cs :=
  fun c hmem => (h c hmem).2

/-- A bare beginning is passed over. -/
theorem scanFrom_append_bare {before : List Char} (hbare : Bare before) (offset line : Nat)
    (rest : List Char) :
    scanFrom 0 offset line (before ++ rest) =
      scanFrom 0 (offset + Text.byteLength before) line rest := by
  induction before generalizing offset with
  | nil => rfl
  | cons c before ih =>
    obtain ⟨⟨notQuote, notBreak⟩, bare⟩ := bare_cons.mp hbare
    have stays : Text.endsLine c (before ++ rest) = false := Text.endsLine_eq_false notBreak _
    rw [List.cons_append, Text.byteLength_cons, ← Nat.add_assoc, ← ih bare]
    simp only [scanFrom, notQuote, stays, Bool.false_eq_true, if_false]

theorem scanFrom_bare {cs : List Char} (hbare : Bare cs) (offset line : Nat) :
    scanFrom 0 offset line cs = [] := by
  simpa [scanFrom] using scanFrom_append_bare hbare offset line []

end Literal

namespace Catalog

/-- The line of an entry in the Lua chunk, up to the literal. -/
def entryKey (index : Nat) : List Char :=
  "\t[".toList ++ Nat.toDigits 10 index ++ "] = ".toList

/-- The line of an entry in the Lua chunk. -/
def entryRow (entry : Entry) : List Char :=
  entryKey entry.index ++ (Segment.enclose .double entry.sentence.content.toList ++ [','])

/-- The lines of the Lua chunk. -/
def luaRows (catalog : Catalog) (table locale : String) : List (List Char) :=
  [table.toList ++ ".Lang = \x7b\x7d".toList,
    [],
    table.toList ++ ".Lang[\"".toList ++ locale.toList ++ "\"] = \x7b".toList] ++
  (catalog.entries.map entryRow ++
  ["\x7d".toList,
    [],
    "function ".toList ++ table.toList ++ ":GetLang(iIdx)".toList,
    "\treturn self.Lang[\"".toList ++ locale.toList ++ "\"][iIdx]".toList,
    "end".toList])

theorem toList_toLua (catalog : Catalog) (table locale : String) :
    (catalog.toLua table locale).toList = Text.ofLines (catalog.luaRows table locale) := by
  have rows : ∀ entries : List Entry, (entries.foldr (renderEntry · ++ ·) "").toList =
      Text.ofLines (entries.map entryRow) := by
    intro entries
    induction entries with
    | nil => rfl
    | cons entry entries ih =>
      rw [List.foldr_cons, String.toList_append, ih]
      simp [renderEntry, entryRow, entryKey, Segment.enclose, Nat.toList_repr]
  simp [toLua, luaRows, rows]

@[simp] theorem length_number (first : Nat) (sentences : List Approved) :
    (number first sentences).length = sentences.length := by
  induction sentences generalizing first with
  | nil => rfl
  | cons sentence rest ih => simp [number, ih]

theorem getElem?_number (first index : Nat) (sentences : List Approved) :
    (number first sentences)[index]? = sentences[index]?.map (⟨first + index, ·⟩) := by
  induction sentences generalizing first index with
  | nil => rfl
  | cons sentence rest ih =>
    cases index with
    | zero => rfl
    | succ index =>
      rw [number, List.getElem?_cons_succ, List.getElem?_cons_succ, ih, Nat.add_right_comm,
        Nat.add_assoc]

theorem getElem?_entries (catalog : Catalog) (index : Nat) :
    catalog.entries[index]? = catalog.sentences[index]?.map (⟨index + 1, ·⟩) := by
  rw [entries, getElem?_number, Nat.add_comm 1 index]

theorem bare_toDigits (n : Nat) : Literal.Bare (Nat.toDigits 10 n) := by
  intro c hmem
  have digit := Nat.isDigit_of_mem_toDigits (by omega) (by omega) hmem
  have other : ∀ d : Char, d.isDigit = false → c ≠ d := by
    rintro _ notDigit rfl
    simp [digit] at notDigit
  simp [Quote.ofChar?, Text.isBreak, other '"' (by decide), other '\x27' (by decide),
    other '\n' (by decide), other '\r' (by decide)]

theorem bare_table {table : String} (h : Config.checkTable table = .ok ()) :
    Literal.Bare table.toList := by
  intro c hmem
  have other : ∀ d : Char, Config.isTableChar d = false → c ≠ d := by
    rintro _ notTable rfl
    exact Config.not_mem_of_checkTable h notTable hmem
  simp [Quote.ofChar?, Text.isBreak, other '"' (by decide), other '\x27' (by decide),
    other '\n' (by decide), other '\r' (by decide)]

theorem unbroken_locale {locale : String} (h : Config.checkLocale locale = .ok ()) :
    Text.Unbroken locale.toList := by
  intro c hmem
  have allowed : Config.isLocale locale = true := by
    unfold Config.checkLocale at h
    split at h
    · assumption
    · simp at h
  simp only [Config.isLocale, Bool.and_eq_true, List.all_eq_true] at allowed
  have fine := allowed.2 c hmem
  simp only [bne_iff_ne, ne_eq] at fine
  simp [Text.isBreak, fine]

/-- The contents of the catalog can be written between double quotes as they are. -/
def Quotable (catalog : Catalog) : Prop :=
  ∀ sentence ∈ catalog.sentences, '"' ∉ sentence.content.toList ∧
    '\\' ∉ sentence.content.toList ∧
    ∀ c ∈ sentence.content.toList, Literal.isTerminator c = false

theorem quotable_of_candidates {catalog : Catalog}
    (h : ∀ sentence ∈ catalog.sentences, ∃ file source, ∃ candidate ∈ candidatesIn file source,
      candidate.literal.content = sentence.content) : catalog.Quotable := by
  intro sentence hmem
  obtain ⟨file, source, candidate, found, same⟩ := h sentence hmem
  obtain ⟨isSentence, onLine⟩ := isSentence_of_candidate found
  rw [← same]
  exact ⟨not_mem_of_isSentence isSentence (by decide) (by decide) (by decide),
    not_mem_of_isSentence isSentence (by decide) (by decide) (by decide), onLine⟩

theorem bare_entryKey (index : Nat) : Literal.Bare (entryKey index) := by
  simp [entryKey, bare_toDigits, Quote.ofChar?, Text.isBreak]

section

variable {catalog : Catalog} {table locale : String} (hquotable : catalog.Quotable)
  (htable : Config.checkTable table = .ok ()) (hlocale : Config.checkLocale locale = .ok ())

include hquotable

theorem unbroken_entryRow {entry : Entry} (h : entry ∈ catalog.entries) :
    Text.Unbroken (entryRow entry) := by
  obtain ⟨-, -, onLine⟩ := hquotable _ (index_le_of_mem_number h).2.2
  have content : Text.Unbroken entry.sentence.content.toList := fun c hmem =>
    Literal.isBreak_of_not_isTerminator (onLine c hmem)
  simp [entryRow, (bare_entryKey _).unbroken, Segment.enclose, content, Text.isBreak]

/-- On the line of an entry a scan finds its sentence. -/
theorem scanFrom_entryRow {entry : Entry} (h : entry ∈ catalog.entries) (offset line : Nat) :
    ∃ span, Literal.scanFrom 0 offset line (entryRow entry) = [span] ∧ span.quote = .double ∧
      span.content = entry.sentence.content ∧
      span.start = offset + Text.byteLength (entryKey entry.index) := by
  obtain ⟨noQuote, noSlash, onLine⟩ := hquotable _ (index_le_of_mem_number h).2.2
  have closed : Literal.close Quote.double.char
      (entry.sentence.content.toList ++ Quote.double.char :: [',']) =
        some entry.sentence.content.toList :=
    Literal.close_append (by decide) noQuote noSlash onLine [',']
  have scanned := Segment.scanFrom_literal closed
    (offset + Text.byteLength (entryKey entry.index)) line
  have comma : Literal.Bare [','] := by simp [Quote.ofChar?, Text.isBreak]
  rw [Literal.scanFrom_bare comma] at scanned
  rw [entryRow, Literal.scanFrom_append_bare (bare_entryKey _), scanned]
  exact ⟨_, rfl, rfl, String.ofList_toList, rfl⟩

include htable hlocale

/-- No line of the chunk holds the end of another one. -/
theorem unbroken_luaRows : ∀ row ∈ catalog.luaRows table locale, Text.Unbroken row := by
  have tableUnbroken := (bare_table htable).unbroken
  have localeUnbroken := unbroken_locale hlocale
  intro row hmem
  simp only [luaRows, List.mem_append, List.mem_cons, List.mem_map, List.not_mem_nil, or_false]
    at hmem
  rcases hmem with (rfl | rfl | rfl) | ⟨entry, hentry, rfl⟩ | rfl | rfl | rfl | rfl | rfl
  case inr.inl => exact unbroken_entryRow hquotable hentry
  all_goals simp [tableUnbroken, localeUnbroken, Text.isBreak]

/-- What a scan of the chunk finds on a line is what it finds in the line. -/
theorem filter_line_scan_toLua (number : Nat) :
    (scan (catalog.toLua table locale)).filter (·.line = 1 + number) =
      ((catalog.luaRows table locale)[number]?.map
        (Literal.scanFrom 0
          (Text.byteLength (Text.ofLines ((catalog.luaRows table locale).take number)))
          (1 + number))).getD [] := by
  rw [scan, toList_toLua,
    Literal.filter_line_scanFrom (unbroken_luaRows hquotable htable hlocale), Nat.zero_add]

omit hquotable hlocale in
/-- The lines without an entry or the locale are bare. -/
theorem bare_of_luaRows {number : Nat} {row : List Char}
    (h : (catalog.luaRows table locale)[number]? = some row) (hfirst : number ≠ 2)
    (hlast : number ≠ catalog.size + 6) (hentry : ∀ index < catalog.size, number ≠ index + 3) :
    Literal.Bare row := by
  have bare := bare_table htable
  have length : (catalog.entries.map entryRow).length = catalog.size := by
    simp [entries, size]
  rw [luaRows, List.getElem?_append] at h
  split at h
  · next before =>
    simp only [List.length_cons, List.length_nil] at before
    obtain rfl | rfl : number = 0 ∨ number = 1 := by omega
    all_goals
      obtain rfl := Option.some.inj h
      simp [bare, Quote.ofChar?, Text.isBreak]
  · next after =>
    simp only [List.length_cons, List.length_nil, Nat.zero_add, Nat.reduceAdd, Nat.not_lt] at after h
    have past : catalog.size ≤ number - 3 := by
      by_contra inside
      exact hentry (number - 3) (by omega) (by omega)
    obtain ⟨more, rfl⟩ : ∃ more, number = catalog.size + 3 + more :=
      ⟨number - (catalog.size + 3), by omega⟩
    rw [List.getElem?_append_right (by omega), length] at h
    have rest : catalog.size + 3 + more - 3 - catalog.size = more := by omega
    rw [rest] at h
    have few := (List.getElem?_eq_some_iff.mp h).1
    simp only [List.length_cons, List.length_nil] at few
    obtain rfl | rfl | rfl | rfl : more = 0 ∨ more = 1 ∨ more = 2 ∨ more = 4 := by omega
    all_goals
      obtain rfl := Option.some.inj h
      simp [bare, Quote.ofChar?, Text.isBreak]

end

/-- The line of an entry among the lines of the chunk. -/
theorem getElem?_luaRows (catalog : Catalog) (table locale : String) {index : Nat} {entry : Entry}
    (h : catalog.entries[index]? = some entry) :
    (catalog.luaRows table locale)[index + 3]? = some (entryRow entry) := by
  have short : index < (catalog.entries.map entryRow).length := by
    simpa using (List.getElem?_eq_some_iff.mp h).1
  rw [luaRows, List.getElem?_append_right (by simp)]
  simp only [List.length_cons, List.length_nil, Nat.zero_add, Nat.reduceAdd, Nat.add_sub_cancel]
  rw [List.getElem?_append_left short, List.getElem?_map, h, Option.map_some]

end Catalog

/-- Reading the Lua chunk of a catalog back: on the line of each number stands one literal, with
    double quotes and the sentence of that number as its content, behind its number. The same number
    belongs to the sentence in the catalog and in the call that replaces the literal. All other
    literals are on the two lines of the locale. -/
theorem scan_toLua (catalog : Catalog) (table locale : String)
    (hcandidate : ∀ sentence ∈ catalog.sentences, ∃ file source,
      ∃ candidate ∈ candidatesIn file source, candidate.literal.content = sentence.content)
    (htable : Config.checkTable table = .ok ()) (hlocale : Config.checkLocale locale = .ok ()) :
    let chunk := catalog.toLua table locale
    (∀ index sentence, catalog.sentences[index]? = some sentence →
      ∃ span, (scan chunk).filter (·.line = 3 + (index + 1)) = [span] ∧ span.quote = .double ∧
        span.content = sentence.content ∧
        Text.lineAt chunk.toList span.start =
          ("\t[" ++ toString (index + 1) ++ "] = " ++ span.quoted ++ ",").toList ∧
        catalog.get? (index + 1) = some ⟨index + 1, sentence⟩ ∧
        (Replacement.ofCatalog catalog table)[index]? =
          some ⟨span.quoted, lookupCall table (index + 1)⟩) ∧
    ∀ span ∈ scan chunk, span.line = 3 ∨ span.line = catalog.size + 7 ∨
      ∃ index < catalog.size, span.line = 3 + (index + 1) := by
  intro chunk
  have quotable := Catalog.quotable_of_candidates hcandidate
  have scanned := Catalog.filter_line_scan_toLua quotable htable hlocale
  constructor
  · intro index sentence found
    have entry : catalog.entries[index]? = some ⟨index + 1, sentence⟩ := by
      rw [Catalog.getElem?_entries, found, Option.map_some]
    have hmem := List.mem_of_getElem? entry
    have row := catalog.getElem?_luaRows table locale entry
    obtain ⟨span, once, double, content, start⟩ := Catalog.scanFrom_entryRow quotable hmem
      (Text.byteLength (Text.ofLines ((catalog.luaRows table locale).take (index + 3))))
      (1 + (index + 3))
    have quoted : span.quoted = "\"" ++ sentence.content ++ "\"" := by
      apply String.toList_injective
      simp [Span.quoted, double, content]
    refine ⟨span, ?_, double, content, ?_, ?_, ?_⟩
    · have here := scanned (index + 3)
      rw [row, Option.map_some, Option.getD_some, once] at here
      have same : 3 + (index + 1) = 1 + (index + 3) := by omega
      rw [same]
      exact here
    · obtain ⟨short, atIndex⟩ := List.getElem?_eq_some_iff.mp row
      have rows := List.take_append_drop (index + 3) (catalog.luaRows table locale)
      rw [List.drop_eq_getElem_cons short, atIndex] at rows
      have unbroken := Catalog.unbroken_entryRow quotable hmem
      rw [Catalog.toList_toLua, start, ← Text.byteLength_append]
      nth_rewrite 1 [← rows]
      rw [Catalog.entryRow, Text.lineAt_row unbroken, quoted]
      simp [Catalog.entryKey, Segment.enclose, Nat.toList_repr]
    · rw [Catalog.get?, found, Option.map_some]
    · rw [Replacement.ofCatalog, List.getElem?_map, entry, Option.map_some, quoted]
      rfl
  · intro span hmem
    by_contra elsewhere
    push Not at elsewhere
    obtain ⟨notFirst, notLast, notEntry⟩ := elsewhere
    have positive : 1 ≤ span.line := Literal.le_line_of_mem_scanFrom hmem
    obtain ⟨number, line⟩ := Nat.exists_eq_add_of_le positive
    have here : span ∈ (scan chunk).filter (·.line = 1 + number) :=
      List.mem_filter.mpr ⟨hmem, by simp [line]⟩
    rw [scanned number] at here
    cases row : (catalog.luaRows table locale)[number]? with
    | none => simp [row] at here
    | some row' =>
      have bare : Literal.Bare row' := Catalog.bare_of_luaRows htable row (by omega) (by omega)
        fun index short => by have := notEntry index short; omega
      simp [row, Literal.scanFrom_bare bare] at here

/-- Apostrophes in a sentence and in the locale do no harm. -/
theorem scan_toLua_apostrophe :
    ∃ span,
      (scan (Catalog.toLua ⟨[⟨"One two", ⟨"a.lua", 1⟩⟩, ⟨"It's %s!", ⟨"a.lua", 1⟩⟩]⟩ "T" "l'x")).filter
          (·.line = 5) = [span] ∧
        span.quote = .double ∧ span.content = "It's %s!" := by
  obtain ⟨span, once, double, content, -⟩ :=
    (scan_toLua ⟨[⟨"One two", ⟨"a.lua", 1⟩⟩, ⟨"It's %s!", ⟨"a.lua", 1⟩⟩]⟩ "T" "l'x"
      (by
        intro sentence hmem
        refine ⟨"a.lua", "f('One two', \"It's %s!\")", ?_⟩
        revert sentence
        decide +kernel)
      (by decide) (by decide)).1 1 ⟨"It's %s!", ⟨"a.lua", 1⟩⟩ rfl
  exact ⟨span, once, double, content⟩

end Phrasebook
