import Phrasebook.Proofs.LiteralAgreement
import Phrasebook.Proofs.Localization

/-!
# Localizing leaves nothing to replace

Replacements are applied one after the other, each to what the one before has left. Main statement:
when all have been applied, no quoted sentence is left in the text, so that applying them again
changes nothing; each call has taken the place of two quotes, and a text is left as it is exactly if
nothing has been replaced in it.
-/

namespace Phrasebook

namespace Piece

variable {entry : Catalog.Entry} {cs : List Char} {pieces : List Piece}

/-- Characters that a marked text starts with are there before it is marked. -/
theorem ofText_prefix_of_mark (h : ofText cs <+: (mark entry pieces).1) : ofText cs <+: pieces := by
  induction pieces using mark_induction entry generalizing cs with
  | nil => exact h
  | quoted rest ih =>
    rw [mark_quoted] at h
    cases cs with
    | nil => simp
    | cons c cs => simp at h
  | cons piece rest hno ih =>
    rw [mark_cons hno] at h
    cases cs with
    | nil => simp
    | cons c cs =>
      obtain ⟨rfl, tail⟩ := List.cons_prefix_cons.mp h
      exact List.cons_prefix_cons.mpr ⟨rfl, ih tail⟩

/-- What ends a marked text is marked on its own. -/
theorem exists_of_suffix_mark {ending : List Piece} (h : ending <:+ (mark entry pieces).1) :
    ∃ rest, rest <:+ pieces ∧ ending = (mark entry rest).1 := by
  induction pieces using mark_induction entry with
  | nil => exact ⟨[], List.suffix_refl _, List.suffix_nil.mp h⟩
  | quoted rest ih =>
    rw [mark_quoted, List.suffix_cons_iff] at h
    rcases h with whole | later
    · exact ⟨_, List.suffix_refl _, by rw [whole, mark_quoted]⟩
    · obtain ⟨rest', hrest', same⟩ := ih later
      exact ⟨rest', hrest'.trans (List.suffix_append _ _), same⟩
  | cons piece rest hno ih =>
    rw [mark_cons hno, List.suffix_cons_iff] at h
    rcases h with whole | later
    · exact ⟨_, List.suffix_refl _, by rw [whole, mark_cons hno]⟩
    · obtain ⟨rest', hrest', same⟩ := ih later
      exact ⟨rest', hrest'.trans (List.suffix_cons _ _), same⟩

/-- Marking does not bring characters together. -/
theorem ofText_infix_of_mark (h : ofText cs <:+: (mark entry pieces).1) :
    ofText cs <:+: pieces := by
  obtain ⟨ending, starts, ends⟩ := List.infix_iff_prefix_suffix.mp h
  obtain ⟨rest, hrest, rfl⟩ := exists_of_suffix_mark ends
  exact (ofText_prefix_of_mark starts).isInfix.trans hrest.isInfix

/-- Marking leaves no literal of the entry, not even one that shared a quote with another one. -/
theorem quoted_not_infix_mark (entry : Catalog.Entry) (pieces : List Piece) :
    ¬ ofText entry.quoted.toList <:+: (mark entry pieces).1 := by
  intro h
  obtain ⟨ending, starts, ends⟩ := List.infix_iff_prefix_suffix.mp h
  obtain ⟨rest, -, rfl⟩ := exists_of_suffix_mark ends
  obtain ⟨after, rfl⟩ := ofText_prefix_of_mark starts
  rw [mark_quoted, toList_quoted] at starts
  simp at starts

/-- Without a literal of the entry there is nothing to mark. -/
theorem mark_of_not_infix (h : ¬ ofText entry.quoted.toList <:+: pieces) :
    mark entry pieces = (pieces, 0) := by
  induction pieces with
  | nil => rfl
  | cons piece rest ih =>
    rw [List.infix_cons_iff, not_or] at h
    rw [mark_cons h.1, ih h.2]

theorem ofText_infix_of_markAll {entries : List Catalog.Entry}
    (h : ofText cs <:+: (markAll entries pieces).1) : ofText cs <:+: pieces := by
  induction entries generalizing pieces with
  | nil => exact h
  | cons entry entries ih => exact ofText_infix_of_mark (ih h)

/-- Marking the literals of entries leaves none of them. -/
theorem quoted_not_infix_markAll {entries : List Catalog.Entry} (hmem : entry ∈ entries) :
    ¬ ofText entry.quoted.toList <:+: (markAll entries pieces).1 := by
  induction entries generalizing pieces with
  | nil => simp at hmem
  | cons first entries ih =>
    rcases List.mem_cons.mp hmem with rfl | later
    · exact fun h => quoted_not_infix_mark _ _ (ofText_infix_of_markAll h)
    · exact ih later

theorem markAll_of_not_infix {entries : List Catalog.Entry}
    (h : ∀ entry ∈ entries, ¬ ofText entry.quoted.toList <:+: pieces) :
    markAll entries pieces = (pieces, 0) := by
  induction entries with
  | nil => rfl
  | cons entry entries ih =>
    rw [markAll, mark_of_not_infix (h entry List.mem_cons_self)]
    simp only [ih fun other later => h other (List.mem_cons_of_mem _ later)]

/-- Each call stands for two quotes of the source. -/
theorem count_quote_render {table : String} (htable : Config.checkTable table = .ok ())
    (hplain : ∀ entry, call entry ∈ pieces → Plain entry) :
    (render table pieces).count '"' + 2 * pieces.countP isCall = (restore pieces).count '"' := by
  induction pieces with
  | nil => rfl
  | cons piece rest ih =>
    have ih := ih fun entry later => hplain entry (List.mem_cons_of_mem _ later)
    rw [render_cons, restore_cons, List.count_append, List.count_append, List.countP_cons]
    cases piece with
    | char c =>
      simp only [text, origin, isCall, Bool.false_eq_true, if_false]
      omega
    | call entry =>
      have content := List.count_eq_zero.mpr (hplain entry List.mem_cons_self).1
      have call := List.count_eq_zero.mpr (quote_not_mem_lookupCall htable entry.index)
      have quoted : entry.quoted.toList.count '"' = 2 := by
        rw [toList_quoted, List.count_cons_self, List.count_append, content]
        rfl
      simp only [text, origin, isCall, if_true, call, quoted]
      omega

end Piece

theorem infix_of_hasQuoted {text content : String} {start : Nat}
    (h : HasQuoted text content start) :
    '"' :: (content.toList ++ ['"']) <:+: text.toList := by
  obtain ⟨before, after, parts, -⟩ := h
  exact ⟨before, after, by simp [parts]⟩

/-- Localizing a file whose text is known writes it, unless the text stays the same. -/
theorem Session.exec_localizeFile {σ : Type} (root : Path) (replacements : List Replacement)
    {path : Path} {text : String} {state : State σ}
    (hread : state.disk.read path = .ok text.toUTF8) :
    exec (Localization.localizeFile root replacements path) state =
      let localized := localizeText text replacements
      if localized.2 = 0 then (.unchanged, state)
      else
        match state.disk.write path localized.1.toUTF8 with
        | .ok disk => (.changed localized.2, state.setDisk disk)
        | .error e => (.failed (.unwritten (path.relativeTo root).text e.message), state) := by
  have decoded : String.fromUTF8? text.toUTF8 = some text := dif_pos text.isValidUTF8
  rw [Localization.localizeFile, exec_bind, exec_read, hread]
  simp only [decoded]
  cases localizeText text replacements with
  | mk localized count =>
    cases count with
    | zero => rfl
    | succ count =>
      simp only [exec_bind, exec_write]
      cases state.disk.write path localized.toUTF8 <;> rfl

/-- Localizing a text leaves no quoted sentence in it, so that doing it again replaces nothing. Two
    quotes go with each replacement, and the text stays the same exactly if there is none. So the
    file of a text is written exactly if its text changes. -/
theorem localizeText_exhausts (sentences : List Approved) (table text : String)
    (hsentence : ∀ sentence ∈ sentences, isSentence sentence.content = true)
    (htable : Config.checkTable table = .ok ()) :
    let replacements := Replacement.ofCatalog ⟨sentences⟩ table
    let localized := localizeText text replacements
    (∀ sentence ∈ sentences, ∀ start, ¬ HasQuoted localized.1 sentence.content start) ∧
    localizeText localized.1 replacements = (localized.1, 0) ∧
    localized.1.toList.count '"' + 2 * localized.2 = text.toList.count '"' ∧
    (localized.1 = text ↔ localized.2 = 0) ∧
    ∀ (σ : Type) (root path : Path) (state : Session.State σ),
      state.disk.read path = .ok text.toUTF8 →
        Session.exec (Localization.localizeFile root replacements path) state =
          if localized.1 = text then (.unchanged, state)
          else
            match state.disk.write path localized.1.toUTF8 with
            | .ok disk => (.changed localized.2, state.setDisk disk)
            | .error e => (.failed (.unwritten (path.relativeTo root).text e.message), state) := by
  intro replacements localized
  let entries := (Catalog.mk sentences).entries
  let pieces := (Piece.markAll entries (Piece.ofText text.toList)).1
  have plain : ∀ entry ∈ entries, Piece.Plain entry := fun entry hmem =>
    Piece.plain_of_isSentence (hsentence _ (Catalog.index_le_of_mem_number hmem).2.2)
  have own : ∀ entry, .call entry ∈ pieces → Piece.Plain entry := fun entry hmem =>
    plain entry ((Piece.mem_markAll_call hmem).resolve_left (Piece.call_not_mem_ofText entry _))
  -- What localizing does, in pieces, the first time and again.
  have first : localized = (String.ofList (Piece.render table pieces), pieces.countP Piece.isCall) :=
    Piece.localizeText_eq htable entries plain text
  have absent : ∀ entry ∈ entries, ¬ Piece.ofText entry.quoted.toList <:+: pieces :=
    fun entry hmem => Piece.quoted_not_infix_markAll hmem
  have again := Piece.applyAll_render htable entries plain pieces
  rw [Piece.markAll_of_not_infix absent] at again
  have text' : localized.1.toList = Piece.render table pieces := by
    rw [first, String.toList_ofList]
  have count : localized.2 = pieces.countP Piece.isCall := by
    rw [first]
  have quotes : localized.1.toList.count '"' + 2 * localized.2 = text.toList.count '"' := by
    rw [text', count, Piece.count_quote_render htable own, Piece.restore_markAll,
      Piece.restore_ofText]
  have same_iff : localized.1 = text ↔ localized.2 = 0 := by
    refine ⟨fun same => ?_, localizeText_eq_self⟩
    rw [same] at quotes
    omega
  refine ⟨?_, ?_, quotes, same_iff, ?_⟩
  · intro sentence hmem start found
    have inCatalog : sentence ∈ (Catalog.mk sentences).sentences := hmem
    obtain ⟨entry, hentry, rfl⟩ := Catalog.exists_entry inCatalog
    have occurs := infix_of_hasQuoted found
    rw [← Piece.toList_quoted, text'] at occurs
    have replaced := Piece.replace_render htable (plain entry hentry) pieces
    rw [Piece.mark_of_not_infix (absent entry hentry)] at replaced
    exact Text.not_infix_of_replace (Piece.quoted_ne_nil entry) (congrArg Prod.snd replaced) occurs
  · rw [localizeText, text']
    simp only [replacements, Replacement.ofCatalog]
    rw [again, ← text', String.ofList_toList]
  · intro σ root path state hread
    rw [Session.exec_localizeFile root replacements hread]
    simp only [same_iff]
    rfl

/-- Of two quoted sentences that share a quote one is replaced, and the other is none any more. -/
theorem localizeText_exhausts_shared :
    let replacements := Replacement.ofCatalog ⟨[⟨"a b", ⟨"x", 1⟩⟩]⟩ "T"
    localizeText "\"a b\"a b\"" replacements = ("T:GetLang(1)a b\"", 1) ∧
      (∀ start, ¬ HasQuoted "T:GetLang(1)a b\"" "a b" start) ∧
      localizeText "T:GetLang(1)a b\"" replacements = ("T:GetLang(1)a b\"", 0) := by
  intro replacements
  have localized : localizeText "\"a b\"a b\"" replacements = ("T:GetLang(1)a b\"", 1) := by
    decide +kernel
  obtain ⟨absent, again, -⟩ :=
    localizeText_exhausts [⟨"a b", ⟨"x", 1⟩⟩] "T" "\"a b\"a b\"" (by decide) (by decide)
  simp only [localized, replacements] at absent again
  exact ⟨localized, absent _ List.mem_cons_self, again⟩

end Phrasebook
