import Mathlib.Data.List.Infix
import Phrasebook.Text.Replace

/-!
# Laws of replacing

Equations for `Text.replace` that say what happens at an occurrence and away from one, without the
count of held characters. Main statement: a character that is not in the pattern cuts a text into two
parts in which the pattern is replaced on its own.
-/

namespace Phrasebook.Text

/-- Two texts that end at the first occurrence of a character are equal when one starts the other. -/
theorem eq_of_append_prefix {d : Char} {x y rest : List Char} (hx : d ∉ x) (hy : d ∉ y)
    (h : x ++ [d] <+: y ++ d :: rest) : x = y := by
  induction x generalizing y with
  | nil =>
    cases y with
    | nil => rfl
    | cons b y =>
      have : d = b := by simpa using h
      simp [this] at hy
  | cons a x ih =>
    cases y with
    | nil =>
      have : a = d := (List.cons_prefix_cons.mp h).1
      simp [this] at hx
    | cons b y =>
      obtain ⟨rfl, tails⟩ := List.cons_prefix_cons.mp h
      simp only [List.mem_cons, not_or] at hx hy
      rw [ih hx.2 hy.2 tails]

variable {pattern new : List Char}

/-- Characters that are held are dropped. -/
theorem replaceFrom_held (dropped rest : List Char) :
    replaceFrom pattern new dropped.length (dropped ++ rest) =
      replaceFrom pattern new 0 rest := by
  induction dropped with
  | nil => rfl
  | cons c dropped ih => simpa [replaceFrom] using ih

/-- An occurrence at the start of the text is replaced. -/
theorem replaceFrom_pattern (hne : pattern ≠ []) (rest : List Char) :
    replaceFrom pattern new 0 (pattern ++ rest) =
      (new ++ (replaceFrom pattern new 0 rest).1, (replaceFrom pattern new 0 rest).2 + 1) := by
  obtain ⟨c, tail, rfl⟩ := List.exists_cons_of_ne_nil hne
  have found : (c :: tail).isPrefixOf (c :: (tail ++ rest)) = true := by simp
  rw [List.cons_append, replaceFrom, if_pos found]
  simp only [List.length_cons, Nat.add_sub_cancel, replaceFrom_held]

/-- A character at which no occurrence starts stays. -/
theorem replaceFrom_cons {c : Char} {rest : List Char} (hno : ¬ pattern <+: c :: rest) :
    replaceFrom pattern new 0 (c :: rest) =
      (c :: (replaceFrom pattern new 0 rest).1, (replaceFrom pattern new 0 rest).2) := by
  have absent : pattern.isPrefixOf (c :: rest) = false := by
    rw [Bool.eq_false_iff]
    simpa using hno
  simp [replaceFrom, absent]

/-- A stretch of the text in which no occurrence starts stays. -/
theorem replaceFrom_append (stay rest : List Char)
    (hno : ∀ a b, stay = a ++ b → b ≠ [] → ¬ pattern <+: b ++ rest) :
    replaceFrom pattern new 0 (stay ++ rest) =
      (stay ++ (replaceFrom pattern new 0 rest).1, (replaceFrom pattern new 0 rest).2) := by
  induction stay with
  | nil => rfl
  | cons c stay ih =>
    have here : ¬ pattern <+: c :: (stay ++ rest) := hno [] (c :: stay) rfl (by simp)
    have later : ∀ a b, stay = a ++ b → b ≠ [] → ¬ pattern <+: b ++ rest := by
      intro a b split hb
      exact hno (c :: a) b (by simp [split]) hb
    rw [List.cons_append, replaceFrom_cons here, ih later]
    rfl

/-- What holds of a text if it holds of the empty text, at an occurrence of the pattern and at any
    other character. -/
theorem replace_induction (hne : pattern ≠ []) {motive : List Char → Prop} (nil : motive [])
    (occurrence : ∀ rest, motive rest → motive (pattern ++ rest))
    (cons : ∀ c rest, ¬ pattern <+: c :: rest → motive rest → motive (c :: rest))
    (text : List Char) : motive text := by
  induction h : text.length using Nat.strongRecOn generalizing text with
  | ind n ih =>
    by_cases found : pattern <+: text
    · obtain ⟨rest, rfl⟩ := found
      apply occurrence
      apply ih rest.length ?_ rest rfl
      have := List.length_pos_iff.mpr hne
      simp only [List.length_append] at h
      omega
    · cases text with
      | nil => exact nil
      | cons c rest =>
        apply cons c rest found
        apply ih rest.length ?_ rest rfl
        simp only [List.length_cons] at h
        omega

/-- If nothing is replaced, the pattern does not occur. -/
theorem not_infix_of_replace (hne : pattern ≠ []) {text : List Char}
    (h : (replace pattern new text).2 = 0) : ¬ pattern <:+: text := by
  have nonempty : pattern.isEmpty = false := by simpa using hne
  rw [replace, nonempty, if_neg (by simp)] at h
  induction text with
  | nil => simpa using hne
  | cons c text ih =>
    by_cases here : pattern <+: c :: text
    · obtain ⟨rest, split⟩ := here
      rw [← split, replaceFrom_pattern hne] at h
      simp at h
    · rw [replaceFrom_cons here] at h
      rw [List.infix_cons_iff, not_or]
      exact ⟨here, ih h⟩

/-- Nothing is replaced in a stretch that does not hold the first character of the pattern. -/
theorem replaceFrom_append_of_not_mem {c : Char} (hhead : pattern.head? = some c)
    (stay rest : List Char) (hc : c ∉ stay) :
    replaceFrom pattern new 0 (stay ++ rest) =
      (stay ++ (replaceFrom pattern new 0 rest).1, (replaceFrom pattern new 0 rest).2) := by
  apply replaceFrom_append
  intro a b split hb found
  obtain ⟨d, b, rfl⟩ := List.exists_cons_of_ne_nil hb
  obtain ⟨tail, rfl⟩ := List.head?_eq_some_iff.mp hhead
  have same : c = d := (List.cons_prefix_cons.mp (by simpa using found)).1
  apply hc
  simp [split, same]

/-- A pattern that starts a text lies before a character that it does not hold. -/
theorem prefix_of_prefix_append_cons {d : Char} (hd : d ∉ pattern) {before after : List Char}
    (h : pattern <+: before ++ d :: after) : pattern <+: before := by
  rcases List.prefix_or_prefix_of_prefix h (List.prefix_append before _) with inside | ⟨more, rfl⟩
  · exact inside
  · cases more with
    | nil => simp
    | cons e more =>
      have tail : e :: more <+: d :: after := (List.prefix_append_right_inj before).mp h
      obtain ⟨rfl, -⟩ := List.cons_prefix_cons.mp tail
      simp at hd

/-- A character that is not in the pattern cuts a text in two parts. -/
theorem replaceFrom_append_cons {d : Char} (hne : pattern ≠ []) (hd : d ∉ pattern)
    (before after : List Char) :
    replaceFrom pattern new 0 (before ++ d :: after) =
      ((replaceFrom pattern new 0 before).1 ++ d :: (replaceFrom pattern new 0 after).1,
        (replaceFrom pattern new 0 before).2 + (replaceFrom pattern new 0 after).2) := by
  induction before using replace_induction hne with
  | nil =>
    have here : ¬ pattern <+: d :: after := by
      intro found
      rw [← List.nil_append (d :: after)] at found
      have inside := prefix_of_prefix_append_cons hd found
      exact hne (List.prefix_nil.mp inside)
    rw [List.nil_append, replaceFrom_cons here]
    simp [replaceFrom]
  | occurrence rest ih =>
    rw [List.append_assoc, replaceFrom_pattern hne, replaceFrom_pattern hne, ih]
    simp only [List.append_assoc, Prod.mk.injEq, true_and]
    omega
  | cons c rest hno ih =>
    have here : ¬ pattern <+: c :: (rest ++ d :: after) := by
      intro found
      rw [← List.cons_append] at found
      exact hno (prefix_of_prefix_append_cons hd found)
    rw [List.cons_append, replaceFrom_cons here, replaceFrom_cons hno, ih]
    rfl

/-- Every character is one of the text or of what has been put in. -/
theorem mem_replaceFrom (hne : pattern ≠ []) {c : Char} {text : List Char}
    (h : c ∈ (replaceFrom pattern new 0 text).1) : c ∈ text ∨ c ∈ new := by
  induction text using replace_induction hne with
  | nil => exact .inl h
  | occurrence rest ih =>
    rw [replaceFrom_pattern hne] at h
    rcases List.mem_append.mp h with inNew | later
    · exact .inr inNew
    · exact (ih later).imp_left (List.mem_append_right _)
  | cons d rest hno ih =>
    rw [replaceFrom_cons hno] at h
    rcases List.mem_cons.mp h with rfl | later
    · exact .inl List.mem_cons_self
    · exact (ih later).imp_left (List.mem_cons_of_mem _)

/-- The first character is that of the text or that of what has been put in. -/
theorem head?_replaceFrom (hne : pattern ≠ []) (hnew : new ≠ []) (text : List Char) :
    (replaceFrom pattern new 0 text).1.head? = text.head? ∨
      (replaceFrom pattern new 0 text).1.head? = new.head? := by
  induction text using replace_induction hne with
  | nil => exact .inl rfl
  | occurrence rest ih =>
    right
    rw [replaceFrom_pattern hne, List.head?_append_of_ne_nil _ hnew]
  | cons c rest hno ih =>
    left
    rw [replaceFrom_cons hno]
    rfl

end Phrasebook.Text
