import Phrasebook.Proofs.Conversation
import Phrasebook.Proofs.Independence
import Phrasebook.Proofs.Survey

/-!
# Answers that are piped in

Settling a run and carrying it out read one input line by line: first an answer to each question that
is open, then one to each request. Main statement: no line is lost, read twice or taken for the answer
to something else, and what a line says decides the request it belongs to.
-/

namespace Phrasebook

namespace Console

/-- The lines of an input, each with its line feed. What comes after the last line feed is a line too,
    if there is anything. -/
def lines : List UInt8 → List (List UInt8)
  | [] => []
  | b :: bs =>
    if b = lineFeed then
      [b] :: lines bs
    else
      match lines bs with
      | [] => [[b]]
      | line :: rest => (b :: line) :: rest

/-- What is left of an input after some of its lines. -/
def dropLines (count : Nat) (input : List UInt8) : List UInt8 :=
  ((lines input).drop count).flatten

theorem flatten_lines (input : List UInt8) : (lines input).flatten = input := by
  induction input with
  | nil => rfl
  | cons b bs ih =>
    rw [lines]
    split
    · rw [List.flatten_cons, ih, List.singleton_append]
    · split
      · next none =>
        rw [none] at ih
        rw [← ih]
        rfl
      · next line rest some =>
        rw [some] at ih
        rw [← ih]
        rfl

theorem not_nil_mem_lines (input : List UInt8) : [] ∉ lines input := by
  induction input with
  | nil => simp [lines]
  | cons b bs ih =>
    rw [lines]
    split
    · simp [ih]
    · split
      · simp
      · next line rest some =>
        rw [some, List.mem_cons, not_or] at ih
        simp [ih.2]

/-- Splitting off a line takes the first of the lines. -/
theorem splitLine_eq (input : List UInt8) :
    (splitLine input).1 = (lines input).head?.getD [] ∧
      lines (splitLine input).2 = (lines input).tail := by
  induction input with
  | nil => exact ⟨rfl, rfl⟩
  | cons b bs ih =>
    rw [splitLine, lines]
    split
    · exact ⟨rfl, rfl⟩
    · simp only
      split
      · next none =>
        rw [none] at ih
        exact ⟨by rw [ih.1]; rfl, ih.2⟩
      · next line rest some =>
        rw [some] at ih
        exact ⟨by rw [ih.1]; rfl, ih.2⟩

theorem dropLines_zero (input : List UInt8) : dropLines 0 input = input :=
  flatten_lines input

theorem splitLine_snd (input : List UInt8) : (splitLine input).2 = dropLines 1 input := by
  rw [dropLines, List.drop_one, ← (splitLine_eq input).2, flatten_lines]

theorem lines_dropLines (count : Nat) (input : List UInt8) :
    lines (dropLines count input) = (lines input).drop count := by
  induction count generalizing input with
  | zero => rw [dropLines_zero, List.drop_zero]
  | succ count ih =>
    have next := ih (dropLines 1 input)
    rw [← splitLine_snd, dropLines, (splitLine_eq input).2] at next
    rw [dropLines, ← List.drop_tail, next]

theorem dropLines_add (count more : Nat) (input : List UInt8) :
    dropLines more (dropLines count input) = dropLines (count + more) input := by
  rw [dropLines, lines_dropLines, List.drop_drop, dropLines]

/-- The text of a line of input, if there is such a line. -/
def textOf : Option (List UInt8) → Except InputError (Option String)
  | none => .ok none
  | some line =>
    match String.fromUTF8? ⟨line.toArray⟩ with
    | some text => .ok (some text)
    | none => .error .notUtf8

/-- Reading takes the first line off the input. -/
theorem readLine_eq (world : World) :
    (readLine : StateM World _) world =
      (textOf (lines world.input)[0]?, { world with input := dropLines 1 world.input }) := by
  have decoded : decodeLine (splitLine world.input).1 = textOf (lines world.input)[0]? := by
    have notEmpty := not_nil_mem_lines world.input
    rw [(splitLine_eq world.input).1, ← List.head?_eq_getElem?]
    cases hlines : lines world.input with
    | nil => rfl
    | cons line rest =>
      rw [hlines] at notEmpty
      cases line with
      | nil => simp at notEmpty
      | cons b bs => rfl
  rw [← decoded, ← splitLine_snd]
  rfl

end Console

/-! ## Settling -/

namespace World

open Console

variable {α β : Type}

/-- A question as it is shown. -/
def questionText (theme : Theme) (question : String) : String :=
  theme.paint .bold .default question ++ " "

/-- Questions as they are shown, one after the other. -/
def questionsText (theme : Theme) (questions : List String) : String :=
  questions.foldr (questionText theme · ++ ·) ""

theorem questionsText_append (theme : Theme) (questions more : List String) :
    questionsText theme (questions ++ more) =
      questionsText theme questions ++ questionsText theme more := by
  induction questions with
  | nil => simp [questionsText]
  | cons question questions ih =>
    rw [questionsText] at ih ⊢
    rw [List.cons_append, List.foldr_cons, ih, ← String.append_assoc]
    rfl

/-- If the program succeeds, it has shown the questions and read a line of input for each. -/
def Asks (theme : Theme) (questions : List String) (program : ExceptT Failure (StateM World) α) :
    Prop :=
  ∀ world value world', program.run world = (.ok value, world') →
    questions.length ≤ (lines world.input).length ∧
      world'.input = dropLines questions.length world.input ∧
      world'.output = world.output ++ questionsText theme questions

theorem Asks.bind {theme : Theme} {questions more : List String}
    {program : ExceptT Failure (StateM World) α} {next : α → ExceptT Failure (StateM World) β}
    (h : Asks theme questions program) (hnext : ∀ value, Asks theme more (next value)) :
    Asks theme (questions ++ more) (program >>= next) := by
  intro world value world' ran
  have parts : (program >>= next).run world =
      (ExceptT.bindCont next (program.run world).1 : StateM World _) (program.run world).2 := rfl
  rw [parts] at ran
  cases first : program.run world with
  | mk outcome between =>
    rw [first] at ran
    cases outcome with
    | error e => cases congrArg Prod.fst ran
    | ok answer =>
      obtain ⟨enough, input, output⟩ := h world answer between first
      obtain ⟨enough', input', output'⟩ := hnext answer between value world' ran
      rw [input, lines_dropLines, List.length_drop] at enough'
      refine ⟨by rw [List.length_append]; omega, ?_, ?_⟩
      · rw [input', input, dropLines_add, List.length_append]
      · rw [output', output, questionsText_append, String.append_assoc]

/-- What asks nothing does not count. -/
theorem Asks.quiet_bind {theme : Theme} {more : List String}
    {program : ExceptT Failure (StateM World) α} {next : α → ExceptT Failure (StateM World) β}
    (h : Asks theme [] program) (hnext : ∀ value, Asks theme more (next value)) :
    Asks theme more (program >>= next) :=
  h.bind hnext

/-- A program that only reads the disk asks nothing. -/
theorem asks_of_reads (theme : Theme) {program : StateM World (Except Failure α)}
    (h : ∀ disk, ∃ result, Reads disk program result) : Asks theme [] (ExceptT.mk program) := by
  intro world value world' ran
  obtain ⟨result, reads⟩ := h world.disk
  obtain ⟨same, -⟩ := reads world rfl
  have run : program world = (.ok value, world') := ran
  rw [run] at same
  subst same
  exact ⟨Nat.zero_le _, (dropLines_zero _).symm, by simp [questionsText]⟩

theorem asks_pure (theme : Theme) (result : Except Failure α) :
    Asks theme [] (ExceptT.mk (pure result)) :=
  asks_of_reads theme fun _ => ⟨fun _ => True, reads_pure trivial⟩

/-- A question is answered by the first line of the input. -/
theorem askLine_eq (theme : Theme) (question : String) (world : World) :
    (Prompt.askLine theme question : StateM World (Except Failure String)) world =
      (match textOf (lines world.input)[0]? with
        | .error e => .error (.inputUnreadable e)
        | .ok none => .error (.noAnswer question)
        | .ok (some line) => .ok (String.ofList (Text.trim (Prompt.dropLineEnd line.toList))),
      { world with
        input := dropLines 1 world.input
        output := world.output ++ questionText theme question }) := by
  rw [Prompt.askLine, run_bind, run_bind, readLine_eq]
  have shown : ((Console.print (questionText theme question) : StateM World Unit) world).2 =
      { world with output := world.output ++ questionText theme question } := rfl
  rw [questionText] at shown ⊢
  rw [shown]
  simp only
  rcases textOf (lines world.input)[0]? with e | _ | line <;> rfl

theorem asks_askLine (theme : Theme) (question : String) :
    Asks theme [question] (ExceptT.mk (Prompt.askLine theme question)) := by
  intro world value world' ran
  have ran : (Prompt.askLine theme question : StateM World (Except Failure String)) world =
      (.ok value, world') := ran
  rw [askLine_eq] at ran
  obtain ⟨answered, rfl⟩ := Prod.mk.inj ran
  refine ⟨?_, rfl, by simp [questionsText]⟩
  cases hlines : lines world.input with
  | nil => simp [hlines, textOf] at answered
  | cons line rest => simp

end World

namespace Plan

open World

/-- The question that is left open if there is no value. -/
def openQuestion (question : String) : Option String → List String
  | some _ => []
  | none => [question]

/-- The questions that options and a configuration leave open. -/
def questions (options : CommandLine.RunOptions) (config : Config) : List String :=
  openQuestion tableQuestion (options.table <|> config.table) ++
    openQuestion pathQuestion (options.path.map (·.text) <|> config.sourceRoot)

theorem asks_orAsk (theme : Theme) (question : String) (value : Option String) :
    Asks theme (openQuestion question value) (ExceptT.mk (orAsk theme question value)) := by
  cases value with
  | none => exact asks_askLine theme question
  | some value => exact asks_pure theme (.ok value)

/-- Settling asks the questions that are open. -/
theorem asks_settle (theme : Theme) (options : CommandLine.RunOptions) (config : Config) :
    Asks theme (questions options config) (settle theme options config) := by
  rw [settle, questions]
  refine (asks_orAsk theme _ _).bind fun table => (asks_pure theme _).quiet_bind fun _ => ?_
  rw [← List.append_nil (openQuestion pathQuestion _)]
  refine (asks_orAsk theme _ _).bind fun source => ?_
  refine (asks_of_reads theme fun _ => ⟨_, reads_openFolder _⟩).quiet_bind fun sourceRoot => ?_
  refine (asks_pure theme _).quiet_bind fun _ => ?_
  refine (asks_of_reads theme fun _ => ⟨_, reads_checkOutput _ _ _⟩).quiet_bind fun output => ?_
  refine (asks_of_reads theme fun _ => ⟨_, reads_checkCatalog _ _⟩).quiet_bind fun catalog => ?_
  split
  · exact asks_pure theme (.error _)
  · exact asks_pure theme (.ok _)

end Plan

/-! ## Confirming -/

namespace Prompt

/-- The line is text and says yes: it holds `y` or nothing, before the characters that end it. -/
def Approves (line : List UInt8) : Prop :=
  ∃ text ending, String.fromUTF8? ⟨line.toArray⟩ = some text ∧
    (text.toList = 'y' :: ending ∨ text.toList = ending) ∧ ∀ c ∈ ending, c = '\r' ∨ c = '\n'

/-- The line is no text. -/
def Garbled (line : List UInt8) : Prop :=
  String.fromUTF8? ⟨line.toArray⟩ = none

/-- The line decides the answer. If there is no line, the answer is no. -/
inductive Decides : Option (List UInt8) → Except Failure Bool → Prop where
  | approved {line} : Approves line → Decides (some line) (.ok true)
  | rejected {line} : ¬ Approves line → ¬ Garbled line → Decides (some line) (.ok false)
  | garbled {line} : Garbled line → Decides (some line) (.error (.inputUnreadable .notUtf8))
  | missing : Decides none (.ok false)

theorem isLineEnd_iff {c : Char} : isLineEnd c = true ↔ c = '\r' ∨ c = '\n' := by
  simp [isLineEnd]

/-- What is left of a line and what ends it. -/
theorem exists_dropLineEnd (line : List Char) :
    ∃ ending, line = dropLineEnd line ++ ending ∧ ∀ c ∈ ending, c = '\r' ∨ c = '\n' := by
  refine ⟨(line.reverse.takeWhile isLineEnd).reverse, ?_, fun c hmem => ?_⟩
  · rw [dropLineEnd, Text.dropEnd, ← List.reverse_append, List.takeWhile_append_dropWhile,
      List.reverse_reverse]
  · have ends := List.all_eq_true.mp (List.all_takeWhile (p := isLineEnd) (l := line.reverse))
    exact isLineEnd_iff.mp (ends c (List.mem_reverse.mp hmem))

theorem dropLineEnd_append {line ending : List Char} (hending : ∀ c ∈ ending, c = '\r' ∨ c = '\n') :
    dropLineEnd (line ++ ending) = dropLineEnd line := by
  have ends : ∀ c ∈ ending.reverse, isLineEnd c = true := fun c hmem =>
    isLineEnd_iff.mpr (hending c (List.mem_reverse.mp hmem))
  rw [dropLineEnd, dropLineEnd, Text.dropEnd, Text.dropEnd, List.reverse_append,
    List.dropWhile_append_of_pos ends]

theorem lineApproves_iff {text : String} :
    lineApproves text = true ↔
      ∃ ending, (text.toList = 'y' :: ending ∨ text.toList = ending) ∧
        ∀ c ∈ ending, c = '\r' ∨ c = '\n' := by
  rw [lineApproves]
  simp only [Bool.or_eq_true, beq_iff_eq]
  constructor
  · intro typed
    obtain ⟨ending, line, ends⟩ := exists_dropLineEnd text.toList
    refine ⟨ending, ?_, ends⟩
    rcases typed with yes | nothing
    · exact .inl (by rw [line, yes]; rfl)
    · exact .inr (by rw [line, nothing]; rfl)
  · rintro ⟨ending, yes | nothing, ends⟩
    · have typed : dropLineEnd (['y'] ++ ending) = dropLineEnd ['y'] := dropLineEnd_append ends
      exact .inl (by rw [yes]; exact typed)
    · have typed : dropLineEnd ([] ++ ending) = dropLineEnd [] := dropLineEnd_append ends
      exact .inr (by rw [nothing]; exact typed)

/-- The answer to a request, by a line of input. -/
def answerOf (line : Option (List UInt8)) : Except Failure Bool :=
  match Console.textOf line with
  | .error e => .error (.inputUnreadable e)
  | .ok text => .ok (text.any lineApproves)

theorem decides_answerOf (line : Option (List UInt8)) : Decides line (answerOf line) := by
  cases line with
  | none => exact .missing
  | some line =>
    rw [answerOf, Console.textOf]
    cases htext : String.fromUTF8? ⟨line.toArray⟩ with
    | none => exact .garbled htext
    | some text =>
      have iff : Approves line ↔ lineApproves text = true := by
        rw [lineApproves_iff]
        constructor
        · rintro ⟨text', ending, same, holds⟩
          obtain rfl := Option.some.inj (htext.symm.trans same)
          exact ⟨ending, holds⟩
        · rintro ⟨ending, holds⟩
          exact ⟨text, ending, htext, holds⟩
      simp only [Option.any_some]
      cases happroves : lineApproves text with
      | true => exact .approved (iff.mpr happroves)
      | false =>
        refine .rejected (fun yes => ?_) (by simp [Garbled, htext])
        simp [iff.mp yes] at happroves

/-- A request is answered by the first line of the input. -/
theorem confirmByLine_eq (theme : Theme) (request : Request) (world : World) :
    ∃ output, (confirmByLine theme request : StateM World (Except Failure Bool)) world =
      (answerOf (Console.lines world.input)[0]?,
        { world with input := Console.dropLines 1 world.input, output }) := by
  rw [confirmByLine, World.run_bind, World.run_bind, Console.readLine_eq, answerOf]
  have shown : ((Console.print (requestText theme request) : StateM World Unit) world).2 =
      { world with output := world.output ++ requestText theme request } := rfl
  rw [shown]
  simp only
  cases Console.textOf (Console.lines world.input)[0]? with
  | error e => exact ⟨_, rfl⟩
  | ok line => exact ⟨_, rfl⟩

/-- Confirming is the same beside a state that it does not look at. -/
theorem lift_confirmByLine {σ : Type} (theme : Theme) (request : Request) :
    (StateT.lift (confirmByLine theme request : StateM World _) : Session σ _) =
      confirmByLine theme request := by
  rw [confirmByLine, confirmByLine]
  let beside := Translation.lift σ (StateM World)
  refine beside.map_bind rfl fun shown => beside.map_bind rfl fun line => ?_
  cases line <;> rfl

/-- Each exchange is decided by its own line, counted from the beginning of the input, and what comes
    after these lines is left. -/
def Follows (input : List UInt8) (exchanges : List (Exchange Failure)) (rest : List UInt8) : Prop :=
  (∀ (index : Nat) (exchange : Exchange Failure), exchanges[index]? = some exchange →
    Decides (Console.lines input)[index]? exchange.answer) ∧
  rest = Console.dropLines exchanges.length input

theorem follows_nil (input : List UInt8) : Follows input [] input :=
  ⟨by simp, (Console.dropLines_zero input).symm⟩

/-- One more exchange takes one more line. -/
theorem Follows.ask {input rest : List UInt8} {exchanges : List (Exchange Failure)}
    (h : Follows input exchanges rest) (request : Request) :
    Follows input (exchanges ++ [⟨request, answerOf (Console.lines rest)[0]?⟩])
      (Console.dropLines 1 rest) := by
  obtain ⟨decided, rfl⟩ := h
  refine ⟨fun index exchange found => ?_, ?_⟩
  · rcases Nat.lt_trichotomy index exchanges.length with before | rfl | after
    · rw [List.getElem?_append_left before] at found
      exact decided index exchange found
    · rw [List.getElem?_concat_length] at found
      obtain rfl := Option.some.inj found
      rw [Console.lines_dropLines, List.getElem?_drop, Nat.add_zero]
      exact decides_answerOf _
    · rw [List.getElem?_eq_none (by rw [List.length_append, List.length_singleton]; omega)] at found
      cases found
  · rw [Console.dropLines_add, List.length_append, List.length_singleton]

end Prompt

/-! ## Runs -/

namespace Session

variable {σ : Type}

theorem exec_confirmByLine (theme : Theme) (request : Request) (state : State σ) :
    ∃ output, exec (Prompt.confirmByLine theme request) state =
      (Prompt.answerOf (Console.lines state.2.input)[0]?,
        (state.1, { state.2 with input := Console.dropLines 1 state.2.input, output })) := by
  obtain ⟨output, confirmed⟩ := Prompt.confirmByLine_eq theme request state.2
  refine ⟨output, ?_⟩
  rw [← Prompt.lift_confirmByLine, exec_lift, confirmed]

theorem disk_confirmByLine (theme : Theme) (request : Request) (state : State σ) :
    (exec (Prompt.confirmByLine theme request) state).2.disk = state.disk := by
  obtain ⟨output, confirmed⟩ := exec_confirmByLine theme request state
  rw [confirmed]
  rfl

/-- In a review each request is decided by its own line. -/
theorem follows_reviewTree (theme : Theme) (root : Path) (filter : Filter) (asked : Asked)
    (state : State σ) :
    let ran := exec
      (recorded (reviewTree (noted (Prompt.confirmByLine theme)) root filter asked)) state
    Prompt.Follows state.2.input ran.1.2 ran.2.2.input := by
  refine (triples (σ × List (Exchange Failure))).reviewTree_keeps
    (fun now => Prompt.Follows state.2.input now.1.2 now.2.input) ?_ root filter asked
    ((state.1, []), state.2) (Prompt.follows_nil _)
  rintro request ⟨⟨own, notes⟩, world⟩ follows
  obtain ⟨output, confirmed⟩ := exec_confirmByLine theme request (own, world)
  rw [exec_noted, confirmed]
  exact follows.ask request

/-- What a run does after the review reads no input. -/
theorem input_finish {ε : Type} (lift : Failure → ε) (plan : Plan) (reviewed : Except ε Reviewed)
    (state : State σ) :
    (exec (Command.finish lift plan reviewed) state).2.2.input = state.2.input := by
  rw [← (Threaded.alone σ).map_finish]
  rfl

/-- In a run each request is decided by its own line. -/
theorem follows_carryOut (theme : Theme) (plan : Plan) (state : State σ) :
    let ran := exec
      (recorded (Command.carryOut id (noted (Prompt.confirmByLine theme)) plan)) state
    Prompt.Follows state.2.input ran.1.2 ran.2.2.input := by
  intro ran
  have parts : ran = _ := exec_recorded_carryOut id (Prompt.confirmByLine theme) plan state
  rw [parts]
  simp only [input_finish]
  exact follows_reviewTree theme plan.sourceRoot plan.filter .empty state

/-- A run by lines does not look at the state beside it. -/
theorem exec_carryOut_byLine (theme : Theme) (plan : Plan) (state : State σ) :
    exec (Command.carryOut id (Prompt.confirmByLine theme) plan) state =
      (let ended := (Command.carryOut id (Prompt.confirmByLine theme) plan : StateM World _) state.2
      (ended.1, (state.1, ended.2))) := by
  have same : (fun request => StateT.lift (Prompt.confirmByLine theme request)) =
      (Prompt.confirmByLine theme : Request → Session σ _) :=
    funext fun request => Prompt.lift_confirmByLine theme request
  rw [← same, ← exec_lift]
  exact congrArg (exec · state)
    ((Translation.lift σ (StateM World)).map_carryOut id (Prompt.confirmByLine theme) plan).symm

end Session

/-- Settling a run that can be carried out shows each question that is open, reads the first lines of
    the input for their answers and leaves the others. A run from there, with the exchanges noted
    down, takes one line for each request, in order: the line says yes, or no, or it is no text and
    ends the run at that request. Once there are no lines left, every answer is no. -/
theorem answers_by_line (theme : Theme) (options : CommandLine.RunOptions) (config : Config)
    (world world' : World) (plan : Plan)
    (hsettle : ((Plan.settle theme options config).run : StateM World (Except Failure Plan)) world =
      (.ok plan, world')) :
    let lines := Console.lines world.input
    let questions := Plan.questions options config
    (questions.length ≤ lines.length ∧
      world'.input = Console.dropLines questions.length world.input ∧
      world'.output = world.output ++ World.questionsText theme questions) ∧
    (∃ later, later.input = world'.input ∧
      (Command.run theme options config : StateM World (Except Failure Outcome)) world =
        (Command.carryOut id (Prompt.confirmByLine theme) plan : StateM World _) later) ∧
    ∀ later, later.input = world'.input →
      let ran := Session.exec (Session.recorded
        (Command.carryOut id (Session.noted (Prompt.confirmByLine theme)) plan)) ((), later)
      (Command.carryOut id (Prompt.confirmByLine theme) plan : StateM World _) later =
        (ran.1.1, ran.2.2) ∧
      (∀ (index : Nat) (exchange : Exchange Failure), ran.1.2[index]? = some exchange →
        Prompt.Decides lines[questions.length + index]? exchange.answer) ∧
      (∀ request e, ⟨request, .error e⟩ ∈ ran.1.2 →
        ran.1.1 = .error e ∧ Review.Concludes ran.1.2 ran.1.1) ∧
      ran.2.2.input = Console.dropLines (questions.length + ran.1.2.length) world.input := by
  intro lines questions
  have asked := Plan.asks_settle theme options config world plan world' hsettle
  refine ⟨asked, ?_, ?_⟩
  · rw [Command.run, World.run_bind, hsettle]
    cases options.verbose with
    | false => exact ⟨world', rfl, rfl⟩
    | true =>
      simp only [if_true, World.run_bind]
      refine ⟨_, ?_, rfl⟩
      rfl
  · intro later same ran
    obtain ⟨decided, left⟩ := Session.follows_carryOut theme plan ((), later)
    rw [same, asked.2.1] at decided left
    refine ⟨?_, fun index exchange found => ?_, ?_, ?_⟩
    · have noted := Session.exec_carryOut_noted (Prompt.confirmByLine theme) ((), later) id plan
      rw [Session.exec_carryOut_byLine] at noted
      exact congrArg (fun ended => (ended.1, ended.2.2)) noted
    · have decides := decided index exchange found
      rwa [Console.lines_dropLines, List.getElem?_drop] at decides
    · intro request e failed
      obtain ⟨exchanges, between, concluded, -, same⟩ :=
        Session.exec_recorded_carryOut_failed (Session.disk_confirmByLine theme) id plan failed
      have same : ran = _ := same
      rw [same]
      exact ⟨rfl, concluded⟩
    · rwa [Console.dropLines_add] at left

/-- Options that leave the table and the source folder open. -/
def CommandLine.RunOptions.unsaid : CommandLine.RunOptions :=
  ⟨none, false, none, some ⟨"/out"⟩, some ⟨"/lang.lua"⟩, none, false⟩

/-- A world with five lines of input, of which the last one is no text and has no line feed. -/
def World.piped : World :=
  World.ofDisk .refrain ("T
/src
y
no
".toUTF8.data.toList ++ [255])

/-- Settles a run with these options. -/
def World.settled (world : World) : Except Failure Plan × World :=
  ((Plan.settle ⟨false⟩ .unsaid .default).run : StateM World (Except Failure Plan)) world

/-- Carries it out by lines, with the exchanges noted down. -/
def World.answered (world : World) (plan : Plan) :
    (Except Failure Outcome × List (Exchange Failure)) × Session.State Unit :=
  Session.exec (Session.recorded
    (Command.carryOut id (Session.noted (Prompt.confirmByLine ⟨false⟩)) plan)) ((), world)

/-- Two lines answer the questions, one line says yes, one says no, and the last one ends the run. -/
theorem answers_by_line_piped :
    World.piped.settled.1 = .ok (.sample "/out" "/lang.lua") ∧
      (World.piped.settled.2.answered (.sample "/out" "/lang.lua")).1.2.map (·.answer) =
        [.ok true, .ok false, .error (.inputUnreadable .notUtf8)] ∧
      (World.piped.settled.2.answered (.sample "/out" "/lang.lua")).1.1 =
        .error (.inputUnreadable .notUtf8) ∧
      (World.piped.settled.2.answered (.sample "/out" "/lang.lua")).2.2.input =
        Console.dropLines 5 World.piped.input := by
  -- Stated for every world and plan, so that nothing is computed here.
  have ends : ∀ (world : World) (plan : Plan) (before : List (Except Failure Bool)) (e : Failure),
      world.settled.1 = .ok plan →
      (world.settled.2.answered plan).1.2.map (·.answer) = before ++ [.error e] →
        (world.settled.2.answered plan).1.1 = .error e ∧
          (world.settled.2.answered plan).2.2.input =
            Console.dropLines (2 + (before.length + 1)) world.input := by
    intro world plan before e settled exchanged
    obtain ⟨-, -, runs⟩ := answers_by_line ⟨false⟩ .unsaid .default world world.settled.2 plan
      (Prod.ext settled rfl)
    obtain ⟨-, -, stops, left⟩ := runs world.settled.2 rfl
    have count := congrArg List.length exchanged
    rw [List.length_map, List.length_append, List.length_singleton] at count
    have failed : .error e ∈ (world.settled.2.answered plan).1.2.map (·.answer) := by
      rw [exchanged]
      exact List.mem_append_right _ (List.mem_singleton_self _)
    obtain ⟨⟨request, answer⟩, hmem, rfl⟩ := List.mem_map.mp failed
    exact ⟨(stops request e hmem).1, count ▸ left⟩
  have settled : World.piped.settled.1 = .ok (.sample "/out" "/lang.lua") := by
    decide +kernel
  have exchanged :
      (World.piped.settled.2.answered (.sample "/out" "/lang.lua")).1.2.map (·.answer) =
        [.ok true, .ok false, .error (.inputUnreadable .notUtf8)] := by
    decide +kernel
  exact ⟨settled, exchanged, ends _ _ [.ok true, .ok false] _ settled exchanged⟩

end Phrasebook
