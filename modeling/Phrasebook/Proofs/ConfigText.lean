import Mathlib.Data.List.Nodup
import Phrasebook.Config.Reader
import Phrasebook.Proofs.Text.Offset

/-!
# Reading a configuration back

Each way of reading is undone by the way of writing that belongs to it, with any text behind: a
character of a string, a string, a list of strings, the members of an object. Main statement: the
text of a configuration file is read as the configuration it was written for, whatever the texts in
its fields are.
-/

namespace Phrasebook

namespace Json

@[simp] theorem skipSpace_cons_blank {c : Char} (h : isSpace c) (cs : List Char) :
    skipSpace (c :: cs) = skipSpace cs := by
  simp [skipSpace, h]

@[simp] theorem skipSpace_cons_token {c : Char} (h : isSpace c = false) (cs : List Char) :
    skipSpace (c :: cs) = c :: cs := by
  simp [skipSpace, h]

theorem hexValue?_digitChar : ∀ n < 16, hexValue? n.digitChar = some n := by
  decide

/-- The four digits of a number below 256. -/
theorem hex4_written {n : Nat} (h : n < 256) (rest : List Char) :
    hex4 ('0' :: '0' :: (n / 16).digitChar :: (n % 16).digitChar :: rest) = .ok n := by
  have high := hexValue?_digitChar (n / 16) (by omega)
  have low := hexValue?_digitChar (n % 16) (by omega)
  have zero : hexValue? '0' = some 0 := by decide
  have long : ¬ Text.byteLength ['0', '0', (n / 16).digitChar, (n % 16).digitChar] < 4 := by
    have := Char.utf8Size_pos (n / 16).digitChar
    have := Char.utf8Size_pos (n % 16).digitChar
    have := Char.utf8Size_pos '0'
    simp only [Text.byteLength_cons, Text.byteLength_nil]
    omega
  have value : ((0 * 16 + 0) * 16 + n / 16) * 16 + n % 16 = n := by omega
  simp only [hex4, List.take_succ_cons, List.take_zero, long, if_false, List.mapM_cons, zero, high,
    low, List.mapM_nil, Option.pure_def, Option.bind_eq_bind, Option.bind_some, value]

/-- The escape of a control character. -/
theorem escape_control {c : Char} (h : c < ' ') (rest : List Char) :
    escape ('u' :: '0' :: '0' :: (c.toNat / 16).digitChar :: (c.toNat % 16).digitChar :: rest) =
      .ok (c, 5) := by
  have small : c.toNat < 32 := h
  have digits := hex4_written (n := c.toNat) (by omega) rest
  have notLow : isLowHalf c.toNat = false := by
    simp only [isLowHalf, Bool.and_eq_false_iff, decide_eq_false_iff_not]
    omega
  have notHigh : isHighHalf c.toNat = false := by
    simp only [isHighHalf, Bool.and_eq_false_iff, decide_eq_false_iff_not]
    omega
  simp [escape, unicodeEscape, digits, notLow, notHigh, Char.ofNat_toNat, bind, Except.bind, pure,
    Except.pure, Except.map]

/-- A character that has been written is read back. -/
theorem stringFrom_writtenChar (c : Char) (rest : List Char) :
    stringFrom 0 (writtenChar c ++ rest) =
      (stringFrom 0 rest).map fun (text, rest) => (c :: text, rest) := by
  unfold writtenChar
  split
  case h_8 notQuote notBackslash _ _ _ _ _ =>
    split
    case isTrue control =>
      simp only [List.cons_append, List.nil_append, stringFrom, Char.reduceEq, if_false, if_true]
      rw [escape_control control]
    case isFalse printable =>
      have other : c ≠ '"' ∧ c ≠ '\\' := ⟨notQuote, notBackslash⟩
      simp [stringFrom, other, printable]
  -- The characters that have an escape with one letter.
  all_goals
    simp [stringFrom, escape, shortEscape?, List.lookup_cons]

/-- A string that has been written is read back. -/
theorem string_written (text : String) (rest : List Char) :
    string (text.toList.flatMap writtenChar ++ '"' :: rest) = .ok (text, rest) := by
  have chars : ∀ cs : List Char,
      stringFrom 0 (cs.flatMap writtenChar ++ '"' :: rest) = .ok (cs, rest) := by
    intro cs
    induction cs with
    | nil => simp [stringFrom]
    | cons c cs ih =>
      rw [List.flatMap_cons, List.append_assoc, stringFrom_writtenChar, ih]
      rfl
  rw [string, chars]
  simp [Except.map]

theorem toList_writeString (text : String) :
    (writeString text).toList = '"' :: (text.toList.flatMap writtenChar ++ ['"']) := by
  simp [writeString]

end Json

namespace Config

@[simp] theorem readText_writeString (text : String) (rest : List Char) :
    readText ((Json.writeString text).toList ++ rest) = .ok (text, rest) := by
  rw [Json.toList_writeString, List.cons_append, List.append_assoc, readText,
    Json.skipSpace_cons_token (by decide)]
  exact Json.string_written text rest

theorem readText_blank_writeString (text : String) (rest : List Char) :
    readText (' ' :: ((Json.writeString text).toList ++ rest)) = .ok (text, rest) := by
  rw [← readText_writeString, readText, Json.skipSpace_cons_blank (by decide), readText]

theorem readOptional_writeString (text : String) (rest : List Char) :
    readOptional (' ' :: ((Json.writeString text).toList ++ rest)) = .ok (some text, rest) := by
  have value := readText_writeString text rest
  rw [Json.toList_writeString, List.cons_append] at value ⊢
  rw [readOptional, Json.skipSpace_cons_blank (by decide), Json.skipSpace_cons_token (by decide)]
  change (readText _).map _ = _
  rw [value]
  rfl

/-- What stands before a row of a list or of an object: a comma, except before the first one, and
    the end of the line. -/
def lead (first : Bool) : List Char :=
  if first then ['\n'] else [',', '\n']

/-- The line of an element of a list without its lead. -/
def textRow (text : String) : List Char :=
  "    ".toList ++ (Json.writeString text).toList

/-- The elements of a list after the first one, and its end. -/
def laterTexts (texts : List String) : String :=
  texts.foldr (fun item text => ",\n    " ++ Json.writeString item ++ text) "\n  ]"

theorem laterTexts_cons (text : String) (texts : List String) :
    (laterTexts (text :: texts)).toList =
      lead false ++ textRow text ++ (laterTexts texts).toList := by
  simp [laterTexts, lead, textRow]

/-- An element of a list is read back, with its lead. -/
theorem readElements_cons (first : Bool) (text : String) {fuel : Nat} {cs rest : List Char}
    {texts : List String} (h : readElements fuel false cs = .ok (texts, rest)) :
    readElements (fuel + 1) first (lead first ++ textRow text ++ cs) =
      .ok (text :: texts, rest) := by
  have next : nextElement first (lead first ++ textRow text ++ cs) =
      .ok (true, (Json.writeString text).toList ++ cs) := by
    rw [textRow, Json.toList_writeString]
    cases first with
    | true => simp [lead, nextElement, Json.isSpace]
    | false => simp [lead, nextElement, Json.isSpace]
  simp only [readElements, next, bind, Except.bind, if_true, readText_writeString, h, pure,
    Except.pure]

theorem readElements_later (texts : List String) (rest : List Char) (fuel : Nat) :
    readElements (texts.length + 1 + fuel) false ((laterTexts texts).toList ++ rest) =
      .ok (texts, rest) := by
  induction texts with
  | nil =>
    rw [List.length_nil, Nat.zero_add, Nat.add_comm]
    simp [laterTexts, readElements, nextElement, endArray, Json.isSpace, bind, Except.bind, pure,
      Except.pure]
  | cons text texts ih =>
    have fuels : (text :: texts).length + 1 + fuel = texts.length + 1 + fuel + 1 := by
      rw [List.length_cons]
      omega
    rw [fuels, laterTexts_cons, List.append_assoc]
    exact readElements_cons false text ih

theorem length_le_laterTexts (texts : List String) :
    texts.length ≤ (laterTexts texts).toList.length := by
  induction texts with
  | nil => simp
  | cons text texts ih =>
    rw [laterTexts_cons]
    simp only [List.length_append, List.length_cons, textRow, Json.toList_writeString]
    omega

/-- A list of strings that has been written is read back. -/
theorem readTexts_writeList (texts : List String) (rest : List Char) :
    readTexts (' ' :: ((writeList texts).toList ++ rest)) = .ok (texts, rest) := by
  cases texts with
  | nil =>
    simp [writeList, readTexts, readElements, nextElement, endArray, Json.isSpace, bind,
      Except.bind, pure, Except.pure]
  | cons text texts =>
    have written : (writeList (text :: texts)).toList =
        '[' :: (lead true ++ textRow text ++ (laterTexts texts).toList) := by
      simp [writeList, laterTexts, lead, textRow]
    have few := length_le_laterTexts texts
    -- The text is longer than the list: there is fuel for every element.
    obtain ⟨fuel, enough⟩ : ∃ fuel, (lead true ++ textRow text ++
        ((laterTexts texts).toList ++ rest)).length = texts.length + 1 + fuel := by
      refine Nat.exists_eq_add_of_le ?_
      simp only [List.length_append, textRow, Json.toList_writeString, List.length_cons]
      omega
    rw [written, readTexts, Json.skipSpace_cons_blank (by decide), List.cons_append,
      Json.skipSpace_cons_token (by decide), List.append_assoc]
    simp only [enough]
    exact readElements_cons true text (readElements_later texts rest fuel)

/-- A member of an object: its field, the text of its value and what reading the value does to a
    configuration. -/
structure Member where
  field : Field
  value : String
  set : Config → Config
  reads : ∀ config rest,
    readField config field (' ' :: (value.toList ++ rest)) = .ok (set config, rest)

namespace Member

/-- The line of a member without its lead. -/
def row (member : Member) : List Char :=
  (writeField (member.field.key, member.value)).toList

/-- The members after the first one, and the end of the object. -/
def later (members : List Member) : List Char :=
  members.foldr (fun member text => lead false ++ member.row ++ text) "\n\x7d".toList

theorem row_eq (member : Member) :
    member.row = "  \"".toList ++ (member.field.key.toList.flatMap Json.writtenChar ++
      '"' :: ':' :: ' ' :: member.value.toList) := by
  -- The keys hold nothing that is escaped.
  have plain : member.field.key.toList.flatMap Json.writtenChar = member.field.key.toList := by
    cases member.field <;> decide
  simp [row, writeField, plain]

@[simp] theorem ofKey?_key (field : Field) : Field.ofKey? field.key = some field := by
  cases field <;> decide

/-- A member is read back, with its lead. -/
theorem readMembers_cons (member : Member) (first : Bool) {seen : List Field}
    (new : member.field ∉ seen) (fuel : Nat) (config : Config) (cs : List Char) :
    readMembers (fuel + 1) config seen first (lead first ++ member.row ++ cs) =
      readMembers fuel (member.set config) (member.field :: seen) false cs := by
  have next : nextKey first (lead first ++ member.row ++ cs) =
      .ok (some (member.field.key.toList.flatMap Json.writtenChar ++
        '"' :: ':' :: ' ' :: (member.value.toList ++ cs))) := by
    rw [row_eq]
    cases first with
    | true => simp [lead, nextKey, Json.isSpace]
    | false => simp [lead, nextKey, Json.isSpace]
  have behind : colon (':' :: ' ' :: (member.value.toList ++ cs)) =
      .ok (' ' :: (member.value.toList ++ cs)) := by
    simp [colon, Json.isSpace]
  simp only [readMembers, next, bind, Except.bind, Json.string_written, ofKey?_key, new, if_false,
    behind, member.reads]

theorem readMembers_later (members : List Member) (fuel : Nat) (rest : List Char) :
    ∀ config seen, (members.map Member.field ++ seen).Nodup →
      readMembers (members.length + 1 + fuel) config seen false (later members ++ rest) =
        .ok (members.foldl (fun config member => member.set config) config, rest) := by
  induction members with
  | nil =>
    intro config seen _
    rw [List.length_nil, Nat.zero_add, Nat.add_comm]
    simp [later, readMembers, nextKey, Json.isSpace, bind, Except.bind, pure, Except.pure]
  | cons member members ih =>
    intro config seen distinct
    have fuels : (member :: members).length + 1 + fuel = members.length + 1 + fuel + 1 := by
      rw [List.length_cons]
      omega
    rw [List.map_cons, List.cons_append, List.nodup_cons, List.mem_append, not_or] at distinct
    obtain ⟨⟨once, new⟩, distinct⟩ := distinct
    have others : (members.map Member.field ++ member.field :: seen).Nodup :=
      List.nodup_middle.mpr (List.nodup_cons.mpr ⟨by simp [once, new], distinct⟩)
    rw [fuels, later, List.foldr_cons, List.append_assoc, readMembers_cons member false new]
    exact ih _ _ others

theorem length_le_later (members : List Member) : members.length ≤ (later members).length := by
  induction members with
  | nil => simp
  | cons member members ih =>
    rw [later, List.foldr_cons, ← later]
    simp only [List.length_append, List.length_cons, row_eq]
    omega

/-- An object with members for different fields is read as what the members make of the default. -/
theorem readConfig_object (member : Member) (members : List Member) (rest : List Char)
    (distinct : ((member :: members).map Member.field).Nodup) :
    readConfig ('\x7b' :: (lead true ++ member.row ++ later members ++ rest)) =
      .ok ((member :: members).foldl (fun config member => member.set config) default, rest) := by
  have few := length_le_later members
  -- The text is longer than the list of members: there is fuel for each of them.
  obtain ⟨fuel, enough⟩ : ∃ fuel, (lead true ++ member.row ++ later members ++ rest).length =
      members.length + 1 + fuel := by
    refine Nat.exists_eq_add_of_le ?_
    simp only [List.length_append, row_eq, List.length_cons]
    omega
  have others : (members.map Member.field ++ [member.field]).Nodup :=
    List.nodup_middle.mpr (by simpa using distinct)
  have first := readMembers_cons member true List.not_mem_nil (members.length + 1 + fuel)
    default (later members ++ rest)
  rw [readMembers_later members fuel rest _ _ others, ← List.append_assoc] at first
  rw [readConfig, Json.skipSpace_cons_token (by decide)]
  simp only [enough]
  exact first

end Member

/-- The members of the object that a configuration is written as. -/
def members (config : Config) : List Member :=
  (config.table.map fun table =>
    { field := .table, value := Json.writeString table, set := ({ · with table := some table }),
      reads := fun _ _ => by rw [readField, readOptional_writeString]; rfl }).toList ++
  (config.sourceRoot.map fun root =>
    { field := .sourceRoot, value := Json.writeString root,
      set := ({ · with sourceRoot := some root }),
      reads := fun _ _ => by rw [readField, readOptional_writeString]; rfl }).toList ++
  [{ field := .outputDir, value := Json.writeString config.outputDir,
     set := ({ · with outputDir := config.outputDir }),
     reads := fun _ _ => by rw [readField, readText_blank_writeString]; rfl },
   { field := .catalogFile, value := Json.writeString config.catalogFile,
     set := ({ · with catalogFile := config.catalogFile }),
     reads := fun _ _ => by rw [readField, readText_blank_writeString]; rfl },
   { field := .locale, value := Json.writeString config.locale,
     set := ({ · with locale := config.locale }),
     reads := fun _ _ => by rw [readField, readText_blank_writeString]; rfl },
   { field := .ignores, value := writeList config.ignores,
     set := ({ · with ignores := config.ignores }),
     reads := fun _ _ => by rw [readField, readTexts_writeList]; rfl },
   { field := .extensions, value := writeList config.extensions,
     set := ({ · with extensions := config.extensions }),
     reads := fun _ _ => by rw [readField, readTexts_writeList]; rfl }]

theorem writtenFields_eq (config : Config) :
    config.writtenFields = config.members.map fun member => (member.field.key, member.value) := by
  simp only [writtenFields, members, List.map_append, Option.toList_map, List.map_map]
  rfl

/-- Each field is written once at most. -/
theorem nodup_members (config : Config) : (config.members.map Member.field).Nodup := by
  cases htable : config.table <;> cases hroot : config.sourceRoot <;>
    simp [members, htable, hroot]

/-- The members set every field that does not have its default value. -/
theorem foldl_members (config : Config) :
    config.members.foldl (fun config member => member.set config) default = config := by
  cases config with
  | mk table sourceRoot outputDir catalogFile locale ignores extensions =>
    cases table <;> cases sourceRoot <;> rfl

theorem toList_render {config : Config} {member : Member} {members : List Member}
    (h : config.members = member :: members) :
    config.render.toList = '\x7b' :: (lead true ++ member.row ++ Member.later members) := by
  have rows : ∀ members : List Member,
      ((members.map fun member => (member.field.key, member.value)).foldr
        (fun field text => ",\n" ++ writeField field ++ text) "\n\x7d").toList =
        Member.later members := by
    intro members
    induction members with
    | nil => rfl
    | cons member members ih =>
      rw [List.map_cons, List.foldr_cons, String.toList_append, ih]
      simp [Member.later, Member.row, lead]
  rw [render, writtenFields_eq, h, List.map_cons]
  simp [rows, lead, Member.row]

/-- A configuration that has been written is read back. -/
theorem readConfig_render (config : Config) (rest : List Char) :
    readConfig (config.render.toList ++ rest) = .ok (config, rest) := by
  have distinct := config.nodup_members
  have set := config.foldl_members
  cases h : config.members with
  | nil => simp [members] at h
  | cons member members =>
    rw [h] at distinct set
    rw [toList_render h, List.cons_append, Member.readConfig_object member members rest distinct,
      set]

end Config

/-- Configuration files are faithful: the text of any configuration is read as that configuration,
    and what any text is read as, be it an array, with fields missing or with unknown ones, is the
    same when it is written and read again. -/
theorem parse_render :
    (∀ config : Config, Config.parse config.render = .ok config) ∧
    ∀ text : String, ((Config.parse text).bind fun config => Config.parse config.render) =
      Config.parse text := by
  have reads : ∀ config : Config, Config.parse config.render = .ok config := by
    intro config
    have whole := config.readConfig_render []
    rw [List.append_nil] at whole
    simp [Config.parse, whole, Json.skipSpace, bind, Except.bind, pure, Except.pure]
  refine ⟨reads, fun text => ?_⟩
  cases h : Config.parse text with
  | error e => rfl
  | ok config => exact reads config

/-- Two halves of a character are read as one, which is not escaped when it is written. -/
example :
    Config.parse "[null, \"\\ud83d\\ude00\\u0001\"]" =
        .ok { Config.default with sourceRoot := some "😀\x01" } ∧
      Json.writeString "😀\x01" = "\"😀\\u0001\"" := by
  decide

end Phrasebook
