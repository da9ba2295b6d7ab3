import Mathlib.Data.List.Infix
import Phrasebook.Text.Lines

/-!
# Lines and columns

`splitLines` gives the lines of a text one by one. Main statement: the line around a place in the
text is the one whose number is the count of the line breaks before the place.
-/

namespace Phrasebook.Text

/-- No character ends a line. -/
def Unbroken (cs : List Char) : Prop :=
  ∀ c ∈ cs, isBreak c = false

@[simp] theorem unbroken_nil : Unbroken [] := by simp [Unbroken]

@[simp] theorem unbroken_cons {c : Char} {cs : List Char} :
    Unbroken (c :: cs) ↔ isBreak c = false ∧ Unbroken cs :=
  List.forall_mem_cons

@[simp] theorem unbroken_append {cs ds : List Char} :
    Unbroken (cs ++ ds) ↔ Unbroken cs ∧ Unbroken ds :=
  List.forall_mem_append

theorem endsLine_eq_false {c : Char} (h : isBreak c = false) (rest : List Char) :
    endsLine c rest = false := by
  simp only [isBreak, Bool.or_eq_false_iff] at h
  simp [endsLine, h.1, h.2]

theorem isBreak_of_endsLine {c : Char} {rest : List Char} (h : endsLine c rest = true) :
    isBreak c = true := by
  cases hc : isBreak c with
  | true => rfl
  | false => simp [endsLine_eq_false hc] at h

/-- A line goes on at a character that is no break, and at the first half of `\r\n`. -/
theorem isBreak_cases {c : Char} {rest : List Char} (h : endsLine c rest = false) :
    isBreak c = false ∨ c = '\r' ∧ ∃ rest', rest = '\n' :: rest' := by
  by_cases hc : isBreak c
  · right
    have notFeed : c ≠ '\n' := by
      rintro rfl
      simp [endsLine] at h
    have return' : c = '\r' := by simpa [isBreak, notFeed] using hc
    subst return'
    have feed : rest.head? = some '\n' := by simpa [endsLine] using h
    exact ⟨rfl, List.head?_eq_some_iff.mp feed⟩
  · left
    simpa using hc

@[simp] theorem countBreaks_nil : countBreaks [] = 0 := rfl

theorem countBreaks_cons (c : Char) (cs : List Char) :
    countBreaks (c :: cs) = (if endsLine c cs then 1 else 0) + countBreaks cs := rfl

theorem endsLine_append (c : Char) (before : List Char) {after : List Char}
    (h : after.head? ≠ some '\n') : endsLine c (before ++ after) = endsLine c before := by
  cases before with
  | nil =>
    have alone : ([] : List Char).head? != some '\n' := rfl
    rw [List.nil_append, endsLine, endsLine, bne_iff_ne.mpr h, alone]
  | cons d before => simp [endsLine]

/-- Line breaks add up at a cut that is not inside of `\r\n`. -/
theorem countBreaks_append (before : List Char) {after : List Char}
    (h : after.head? ≠ some '\n') :
    countBreaks (before ++ after) = countBreaks before + countBreaks after := by
  induction before with
  | nil => simp
  | cons c before ih =>
    rw [List.cons_append, countBreaks_cons, countBreaks_cons, endsLine_append c before h, ih,
      Nat.add_assoc]

theorem countBreaks_append_unbroken {row : List Char} (h : Unbroken row) (after : List Char) :
    countBreaks (row ++ after) = countBreaks after := by
  induction row with
  | nil => rfl
  | cons c row ih =>
    obtain ⟨notBreak, unbroken⟩ := unbroken_cons.mp h
    rw [List.cons_append, countBreaks_cons, endsLine_eq_false notBreak, ih unbroken]
    simp

theorem countBreaks_eq_zero_iff {cs : List Char} : countBreaks cs = 0 ↔ Unbroken cs := by
  induction cs with
  | nil => simp
  | cons c cs ih =>
    rw [countBreaks_cons, unbroken_cons, ← ih]
    by_cases hends : endsLine c cs
    · simp [hends, isBreak_of_endsLine hends]
    · rcases isBreak_cases (by simpa using hends) with notBreak | ⟨rfl, rest, rfl⟩
      · simp [hends, notBreak]
      · simp [countBreaks_cons, endsLine, isBreak]

/-- Behind a stretch without line breaks the last line is as much longer. -/
theorem lastLine_append_unbroken (before : List Char) {row : List Char} (h : Unbroken row) :
    lastLine (before ++ row) = lastLine before ++ row := by
  have stays : ∀ c ∈ row.reverse, (! isBreak c) = true := by
    intro c hmem
    simpa using h c (List.mem_reverse.mp hmem)
  unfold lastLine
  rw [List.reverse_append, List.takeWhile_append_of_pos stays, List.reverse_append,
    List.reverse_reverse]

/-- What stands before the end of a line is not part of the last line. -/
theorem lastLine_append_break (before : List Char) {c : Char} (h : isBreak c = true)
    (after : List Char) : lastLine (before ++ c :: after) = lastLine after := by
  have ends : ∀ cs : List Char,
      (cs ++ c :: before.reverse).takeWhile (! isBreak ·) = cs.takeWhile (! isBreak ·) := by
    intro cs
    induction cs with
    | nil => simp [h]
    | cons d cs ih => simp [List.takeWhile_cons, ih]
  unfold lastLine
  rw [List.reverse_append, List.reverse_cons, List.append_assoc, List.singleton_append, ends]

/-- A character in front is part of the last line if that is the only one. -/
theorem lastLine_cons {c : Char} (h : isBreak c = false) (cs : List Char) :
    lastLine (c :: cs) = if countBreaks cs = 0 then c :: lastLine cs else lastLine cs := by
  by_cases hcs : Unbroken cs
  · have whole : ∀ {row : List Char}, Unbroken row → lastLine row = row := fun hrow =>
      lastLine_append_unbroken [] hrow
    rw [if_pos (countBreaks_eq_zero_iff.mpr hcs), whole hcs, whole (unbroken_cons.mpr ⟨h, hcs⟩)]
  · rw [if_neg (fun none => hcs (countBreaks_eq_zero_iff.mp none))]
    simp only [Unbroken, not_forall, Bool.not_eq_false] at hcs
    obtain ⟨d, hmem, broken⟩ := hcs
    obtain ⟨before, after, rfl⟩ := List.append_of_mem hmem
    rw [← List.cons_append, lastLine_append_break _ broken, lastLine_append_break _ broken]

/-- The lines of a text, which is cut at every `\r\n`, lone `\r` and lone `\n`. -/
def splitLines : List Char → List (List Char)
  | [] => [[]]
  | '\r' :: '\n' :: cs => [] :: splitLines cs
  | c :: cs => if isBreak c then [] :: splitLines cs else (splitLines cs).modifyHead (c :: ·)

example : splitLines "a\r\nb\rc\n\nd".toList = [['a'], ['b'], ['c'], [], ['d']] := by
  decide +kernel

theorem splitLines_return_feed (cs : List Char) :
    splitLines ('\r' :: '\n' :: cs) = [] :: splitLines cs := by
  rw [splitLines]

theorem splitLines_of_endsLine {c : Char} {cs : List Char} (h : endsLine c cs = true) :
    splitLines (c :: cs) = [] :: splitLines cs := by
  rw [splitLines, if_pos (isBreak_of_endsLine h)]
  rintro rest rfl rfl
  simp [endsLine] at h

theorem splitLines_of_not_isBreak {c : Char} (h : isBreak c = false) (cs : List Char) :
    splitLines (c :: cs) = (splitLines cs).modifyHead (c :: ·) := by
  rw [splitLines, if_neg (by simp [h])]
  rintro rest rfl
  simp [isBreak] at h

/-- The first line ends at the first character that ends a line. -/
theorem getElem?_zero_splitLines (cs : List Char) :
    (splitLines cs)[0]? = some (cs.takeWhile (! isBreak ·)) := by
  fun_induction splitLines cs with
  | case1 => rfl
  | case2 cs => simp [isBreak]
  | case3 c cs _ hc => simp [hc]
  | case4 c cs _ hc ih => simp [hc, ih, List.getElem?_modifyHead]

/-- The line around a cut that is not inside of `\r\n` has as many line breaks before it as there are
    before the cut. -/
theorem getElem?_splitLines (before : List Char) {after : List Char}
    (h : after.head? ≠ some '\n') :
    (splitLines (before ++ after))[countBreaks before]? = some (lineAround before after) := by
  induction hlen : before.length using Nat.strongRecOn generalizing before with
  | ind n ih =>
    cases before with
    | nil => exact getElem?_zero_splitLines after
    | cons c before =>
      have shorter : before.length < n := by simp [← hlen]
      have later := ih _ shorter before rfl
      rw [List.cons_append, countBreaks_cons]
      by_cases hends : endsLine c before
      · -- The first line ends here, and the cut is on a later one.
        have ends : endsLine c (before ++ after) = true := by
          rw [endsLine_append c before h, hends]
        have drops : lastLine (c :: before) = lastLine before :=
          lastLine_append_break [] (isBreak_of_endsLine hends) before
        rw [splitLines_of_endsLine ends, if_pos hends, Nat.add_comm, List.getElem?_cons_succ,
          later, lineAround, lineAround, drops]
      · rcases isBreak_cases (by simpa using hends) with notBreak | ⟨rfl, before, rfl⟩
        · rw [splitLines_of_not_isBreak notBreak, if_neg hends, Nat.zero_add,
            List.getElem?_modifyHead, later, lineAround, lineAround, lastLine_cons notBreak]
          split <;> rfl
        · have twoShorter : before.length < n := by
            simp only [List.length_cons] at shorter
            omega
          have drops : lastLine ('\r' :: '\n' :: before) = lastLine before :=
            lastLine_append_break ['\r'] rfl before
          rw [List.cons_append, splitLines_return_feed, if_neg hends, countBreaks_cons,
            if_pos (by simp [endsLine]), Nat.zero_add, Nat.add_comm, List.getElem?_cons_succ,
            ih _ twoShorter before rfl, lineAround, lineAround, drops]

/-- What ends a line before the rest of a text: `\r\n`, `\n`, or an `\r` that no `\n` follows. -/
def EndsBefore (ending rest : List Char) : Prop :=
  ending = ['\n'] ∨ ending = ['\r', '\n'] ∨ ending = ['\r'] ∧ rest.head? ≠ some '\n'

/-- What holds of a text if it holds of one line, and of a line, its end and any rest of which it
    holds. -/
theorem lines_induction {motive : List Char → Prop} (last : ∀ row, Unbroken row → motive row)
    (line : ∀ row ending rest, Unbroken row → EndsBefore ending rest → motive rest →
      motive (row ++ (ending ++ rest)))
    (cs : List Char) : motive cs := by
  -- The characters of the first line are moved in front one by one.
  have behind : ∀ row, Unbroken row → motive (row ++ cs) := by
    fun_induction splitLines cs with
    | case1 =>
      intro row unbroken
      rw [List.append_nil]
      exact last row unbroken
    | case2 cs ih =>
      intro row unbroken
      exact line row ['\r', '\n'] cs unbroken (.inr (.inl rfl)) (ih [] unbroken_nil)
    | case3 c cs alone broken ih =>
      intro row unbroken
      refine line row [c] cs unbroken ?_ (ih [] unbroken_nil)
      by_cases feed : c = '\n'
      · exact .inl (by rw [feed])
      · obtain rfl : c = '\r' := by simpa [isBreak, feed] using broken
        refine .inr (.inr ⟨rfl, fun followed => ?_⟩)
        obtain ⟨rest, rfl⟩ := List.head?_eq_some_iff.mp followed
        exact alone rest rfl rfl
    | case4 c cs _ notBreak ih =>
      intro row unbroken
      rw [← List.singleton_append, ← List.append_assoc]
      apply ih
      rw [unbroken_append, unbroken_cons]
      exact ⟨unbroken, by simpa using notBreak, unbroken_nil⟩
  exact behind [] unbroken_nil

theorem splitLines_unbroken {row : List Char} (h : Unbroken row) : splitLines row = [row] := by
  induction row with
  | nil => rfl
  | cons c row ih =>
    obtain ⟨notBreak, unbroken⟩ := unbroken_cons.mp h
    rw [splitLines_of_not_isBreak notBreak, ih unbroken]
    rfl

/-- A line that is ended is the first of the lines. -/
theorem splitLines_line {row ending rest : List Char} (hrow : Unbroken row)
    (hending : EndsBefore ending rest) :
    splitLines (row ++ (ending ++ rest)) = row :: splitLines rest := by
  induction row with
  | nil =>
    rcases hending with rfl | rfl | ⟨rfl, alone⟩
    · exact splitLines_of_endsLine rfl
    · exact splitLines_return_feed rest
    · exact splitLines_of_endsLine (by simpa [endsLine] using alone)
  | cons c row ih =>
    obtain ⟨notBreak, unbroken⟩ := unbroken_cons.mp hrow
    rw [List.cons_append, splitLines_of_not_isBreak notBreak, ih unbroken]
    rfl

end Phrasebook.Text
