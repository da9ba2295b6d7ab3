import Phrasebook.Proofs.LookupCall

/-!
# Table names as expressions

The grammar of the expressions that a table name is written into: names, fields of tables and calls
of methods. Main statement: the check accepts the identifiers with dots between them, and of these
the ones without reserved words are the names before which `.Lang` and `:GetLang` make expressions.
-/

namespace Phrasebook

namespace Lua

/-- The letters, and the underscore. -/
def IsLetter (c : Char) : Prop :=
  'A' ≤ c ∧ c ≤ 'Z' ∨ 'a' ≤ c ∧ c ≤ 'z' ∨ c = '_'

/-- The digits. -/
def IsDigit (c : Char) : Prop :=
  '0' ≤ c ∧ c ≤ '9'

instance : DecidablePred IsLetter := fun c =>
  inferInstanceAs (Decidable ('A' ≤ c ∧ c ≤ 'Z' ∨ 'a' ≤ c ∧ c ≤ 'z' ∨ c = '_'))

instance : DecidablePred IsDigit := fun c => inferInstanceAs (Decidable ('0' ≤ c ∧ c ≤ '9'))

/-- A letter, and then letters and digits. -/
def IsIdentifier : List Char → Prop
  | [] => False
  | c :: cs => IsLetter c ∧ ∀ d ∈ cs, IsLetter d ∨ IsDigit d

instance : DecidablePred IsIdentifier
  | [] => inferInstanceAs (Decidable False)
  -- The second part is decided along the list, and not for all characters there are.
  | c :: cs => @instDecidableAnd (IsLetter c) (∀ d ∈ cs, IsLetter d ∨ IsDigit d) inferInstance
      (List.decidableBAll _ cs)

/-- The identifiers that have a meaning of their own. -/
def reserved : List String :=
  ["and", "break", "do", "else", "elseif", "end", "false", "for", "function", "if", "in", "local",
    "nil", "not", "or", "repeat", "return", "then", "true", "until", "while"]

/-- An identifier that is free to be used. -/
structure IsName (word : List Char) : Prop where
  identifier : IsIdentifier word
  free : String.ofList word ∉ reserved

instance : DecidablePred IsName := fun word =>
  decidable_of_iff (IsIdentifier word ∧ String.ofList word ∉ reserved)
    ⟨fun ⟨identifier, free⟩ => ⟨identifier, free⟩, fun h => ⟨h.identifier, h.free⟩⟩

/-- The expression for a variable: a name, or a field of a table. -/
inductive Variable : List Char → Prop where
  | name {word : List Char} : IsName word → Variable word
  | field {table word : List Char} : Variable table → IsName word → Variable (table ++ '.' :: word)

/-- The call of a method of a table with a number. -/
inductive MethodCall : List Char → Prop where
  | call {table method number : List Char} : Variable table → IsName method → number ≠ [] →
      (∀ c ∈ number, IsDigit c) →
      MethodCall (table ++ ':' :: (method ++ '(' :: (number ++ [')'])))

/-- The text is one word or more with dots between them. -/
def Dotted (IsWord : List Char → Prop) (text : List Char) : Prop :=
  ∃ words, words ≠ [] ∧ (∀ word ∈ words, IsWord word) ∧ text = ['.'].intercalate words

theorem IsIdentifier.mem {word : List Char} (h : IsIdentifier word) {c : Char} (hc : c ∈ word) :
    IsLetter c ∨ IsDigit c := by
  cases word with
  | nil => exact h.elim
  | cons d word =>
    rcases List.mem_cons.mp hc with rfl | later
    · exact .inl h.1
    · exact h.2 c later

theorem IsIdentifier.not_mem {word : List Char} (h : IsIdentifier word) {c : Char}
    (hc : ¬ (IsLetter c ∨ IsDigit c)) : c ∉ word :=
  fun hmem => hc (h.mem hmem)

/-- Words without dots can be read off the text. -/
theorem dotted_iff {IsWord : List Char → Prop} (noDot : ∀ word, IsWord word → '.' ∉ word)
    {text : List Char} : Dotted IsWord text ↔ ∀ word ∈ text.splitOn '.', IsWord word := by
  constructor
  · rintro ⟨words, nonempty, hwords, rfl⟩
    rw [List.splitOn_intercalate _ (fun word hmem => noDot word (hwords word hmem)) nonempty]
    exact hwords
  · intro hwords
    exact ⟨text.splitOn '.', List.splitOn_ne_nil _ _, hwords, (List.intercalate_splitOn _).symm⟩

theorem IsName.noDot {word : List Char} (h : IsName word) : '.' ∉ word :=
  h.identifier.not_mem (by decide)

/-- The fields that follow a table one after another make a variable. -/
theorem Variable.intercalate {words : List (List Char)} (hwords : ∀ word ∈ words, IsName word)
    {table : List Char} (htable : Variable table) :
    Variable (['.'].intercalate (table :: words)) := by
  induction words generalizing table with
  | nil => simpa using htable
  | cons word words ih =>
    obtain ⟨hword, later⟩ := List.forall_mem_cons.mp hwords
    have joined : ['.'].intercalate (table :: word :: words) =
        ['.'].intercalate ((table ++ '.' :: word) :: words) := by
      cases words <;> simp [List.intercalate_cons_cons]
    rw [joined]
    exact ih later (.field htable hword)

/-- Variables are names with dots between them. -/
theorem variable_iff {text : List Char} :
    Variable text ↔ ∀ word ∈ text.splitOn '.', IsName word := by
  constructor
  · intro h
    induction h with
    | name hword => simpa [List.splitOn_eq_singleton hword.noDot] using hword
    | field _ hword ih =>
      rw [List.splitOn_append_cons_self, List.splitOn_eq_singleton hword.noDot,
        List.forall_mem_append]
      exact ⟨ih, by simpa using hword⟩
  · intro hwords
    obtain ⟨first, rest, split⟩ := List.exists_cons_of_ne_nil (List.splitOn_ne_nil '.' text)
    have whole : ['.'].intercalate (text.splitOn '.') = text := List.intercalate_splitOn '.'
    rw [split] at whole hwords
    rw [← whole]
    obtain ⟨hfirst, hrest⟩ := List.forall_mem_cons.mp hwords
    exact .intercalate hrest (.name hfirst)

/-- A colon is in no variable. -/
theorem Variable.noColon {text : List Char} (h : Variable text) : ':' ∉ text := by
  induction h with
  | name hword => exact hword.identifier.not_mem (by decide)
  | field _ hword ih => simp [ih, hword.identifier.not_mem (c := ':') (by decide)]

end Lua

namespace Config

open Lua

theorem startsIdentifier_iff {c : Char} : startsIdentifier c = true ↔ IsLetter c := by
  have alphabetic : c.isAlpha =
      (decide ('A' ≤ c ∧ c ≤ 'Z') || decide ('a' ≤ c) && decide (c ≤ 'z')) := rfl
  simp [startsIdentifier, IsLetter, alphabetic, or_assoc]

theorem continuesIdentifier_iff {c : Char} :
    continuesIdentifier c = true ↔ IsLetter c ∨ IsDigit c := by
  have split : continuesIdentifier c =
      (c.isAlpha || decide ('0' ≤ c) && decide (c ≤ '9') || c == '_') := rfl
  rw [split, ← startsIdentifier_iff]
  simp only [startsIdentifier, IsDigit, Bool.or_eq_true, Bool.and_eq_true, decide_eq_true_eq]
  tauto

/-- The check goes through the words between the dots. It may start inside of the first one. -/
theorem isDotted_iff {text first : List Char} {rest : List (List Char)}
    (h : text.splitOn '.' = first :: rest) (fresh : Bool) :
    isDotted fresh text = true ↔
      (if fresh then IsIdentifier first else ∀ c ∈ first, IsLetter c ∨ IsDigit c) ∧
        ∀ word ∈ rest, IsIdentifier word := by
  induction text generalizing fresh first rest with
  | nil =>
    obtain ⟨rfl, rfl⟩ : [] = first ∧ [] = rest := by simpa [List.splitOn_nil] using h
    cases fresh <;> simp [isDotted, IsIdentifier]
  | cons c text ih =>
    obtain ⟨next, later, split⟩ := List.exists_cons_of_ne_nil (List.splitOn_ne_nil '.' text)
    rw [List.splitOn_cons_eq_if_modifyHead, split] at h
    by_cases dot : c = '.'
    · obtain ⟨rfl, rfl⟩ : [] = first ∧ next :: later = rest := by simpa [dot] using h
      have noStart : startsIdentifier '.' = false := by decide
      cases fresh <;> simp [isDotted, dot, noStart, IsIdentifier, ih split]
    · obtain ⟨rfl, rfl⟩ : c :: next = first ∧ later = rest := by simpa [dot] using h
      cases fresh <;>
        simp [isDotted, dot, IsIdentifier, ih split, startsIdentifier_iff, continuesIdentifier_iff,
          and_assoc]

/-- The check accepts identifiers with dots between them. -/
theorem checkTable_iff_words {name : String} :
    checkTable name = .ok () ↔ ∀ word ∈ name.toList.splitOn '.', IsIdentifier word := by
  obtain ⟨first, rest, split⟩ := List.exists_cons_of_ne_nil (List.splitOn_ne_nil '.' name.toList)
  have accepted : checkTable name = .ok () ↔ isTableName name = true :=
    ⟨isTableName_of_checkTable, fun h => if_pos h⟩
  rw [accepted, isTableName, isDotted_iff split true, split, List.forall_mem_cons]
  rfl

end Config

namespace Lua

/-- The names of variables are the accepted ones without reserved words. -/
theorem variable_iff_checkTable {name : String} :
    Variable name.toList ↔ Config.checkTable name = .ok () ∧
      ∀ word ∈ name.toList.splitOn '.', String.ofList word ∉ reserved := by
  rw [variable_iff, Config.checkTable_iff_words, ← forall₂_and]
  constructor
  · intro h word hmem
    exact ⟨(h word hmem).identifier, (h word hmem).free⟩
  · intro h word hmem
    exact ⟨(h word hmem).1, (h word hmem).2⟩

theorem variable_field_iff {table word : List Char} (hword : IsName word) :
    Variable (table ++ '.' :: word) ↔ Variable table := by
  rw [variable_iff, variable_iff, List.splitOn_append_cons_self,
    List.splitOn_eq_singleton hword.noDot, List.forall_mem_append]
  simp [hword]

/-- A lookup is the call of a method if the table is a variable. -/
theorem methodCall_lookupCall_iff {table : String} {index : Nat} :
    MethodCall (lookupCall table index).toList ↔ Variable table.toList := by
  rw [toList_lookupCall]
  constructor
  · intro h
    generalize written : table.toList ++
      ':' :: ("GetLang(".toList ++ Nat.toDigits 10 index ++ [')']) = text at h
    cases h with
    | @call object method number hobject hmethod _ hnumber =>
      -- Behind the table there is one colon on both sides, so the table is the object.
      have inTail : ':' ∉ "GetLang(".toList ++ Nat.toDigits 10 index ++ [')'] := by
        have inDigits := not_mem_toDigits (c := ':') (by decide) index
        simp [inDigits]
      have inRest : ':' ∉ method ++ '(' :: (number ++ [')']) := by
        have inMethod := hmethod.identifier.not_mem (c := ':') (by decide)
        have inNumber : ':' ∉ number := fun hmem => absurd (hnumber _ hmem) (by decide)
        simp [inMethod, inNumber]
      have parts := congrArg (List.splitOn ':') written
      rw [List.splitOn_append_cons_self, List.splitOn_append_cons_self,
        List.splitOn_eq_singleton inTail, List.splitOn_eq_singleton inRest,
        List.splitOn_eq_singleton hobject.noColon] at parts
      have same : table.toList.splitOn ':' = [object] := List.append_inj_left' parts rfl
      have whole : [':'].intercalate (table.toList.splitOn ':') = table.toList :=
        List.intercalate_splitOn ':'
      rw [same, List.intercalate_singleton] at whole
      rwa [← whole]
  · intro h
    have digits : ∀ c ∈ Nat.toDigits 10 index, IsDigit c := by
      intro c hmem
      have := Nat.isDigit_of_mem_toDigits (by omega) (by omega) hmem
      simpa [Char.isDigit, IsDigit, Char.le_def] using this
    have method : IsName "GetLang".toList := by decide
    exact .call h method Nat.toDigits_ne_nil digits

end Lua

/-- Table names are checked as identifiers with dots between them. With such a name the two
    expressions for the catalog are well formed if no word of the name is reserved, which is not
    checked. -/
theorem checkTable_dotted (name : String) :
    (Config.checkTable name = .ok () ↔ Lua.Dotted Lua.IsIdentifier name.toList) ∧
    (Lua.Variable (name ++ ".Lang").toList ↔
      Config.checkTable name = .ok () ∧
        ∀ word ∈ name.toList.splitOn '.', String.ofList word ∉ Lua.reserved) ∧
    ∀ index, Lua.MethodCall (lookupCall name index).toList ↔
      Config.checkTable name = .ok () ∧
        ∀ word ∈ name.toList.splitOn '.', String.ofList word ∉ Lua.reserved := by
  refine ⟨?_, ?_, fun index => ?_⟩
  · rw [Config.checkTable_iff_words, Lua.dotted_iff fun word h => h.not_mem (by decide)]
  · have field : (name ++ ".Lang").toList = name.toList ++ '.' :: "Lang".toList := by simp
    rw [field, Lua.variable_field_iff (by decide), Lua.variable_iff_checkTable]
  · rw [Lua.methodCall_lookupCall_iff, Lua.variable_iff_checkTable]

/-- Reserved words are accepted as table names, alone and in a field. -/
theorem checkTable_reserved :
    (Config.checkTable "end" = .ok () ∧ ¬ Lua.Dotted Lua.IsName "end".toList) ∧
      Config.checkTable "GM.end" = .ok () ∧ ¬ Lua.Dotted Lua.IsName "GM.end".toList := by
  have noDot : ∀ word, Lua.IsName word → '.' ∉ word := fun _ h => h.noDot
  rw [Lua.dotted_iff noDot, Lua.dotted_iff noDot]
  decide

end Phrasebook
