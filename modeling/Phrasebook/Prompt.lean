import Phrasebook.Console
import Phrasebook.Failure
import Phrasebook.Review
import Phrasebook.Style
import Phrasebook.Text.Blank

/-!
# Prompts

Questions to the operator on a console, and what counts as a yes: the key `y` or Enter without any
modifier, or a line that is empty or holds just `y`.
-/

namespace Phrasebook

namespace Prompt

/-- The characters that end a typed line. -/
def isLineEnd (c : Char) : Bool :=
  c == '\r' || c == '\n'

/-- A typed line without the characters that end it. -/
def dropLineEnd (line : List Char) : List Char :=
  Text.dropEnd isLineEnd line

/-- The line approves. -/
def lineApproves (line : String) : Bool :=
  let typed := dropLineEnd line.toList
  typed == ['y'] || typed == []

/-- Keys that can be pressed. -/
inductive Key where
  | char (c : Char)
  | enter
  | other
  deriving DecidableEq, Repr

/-- Keys held down with another one. -/
inductive Modifier where
  | shift
  | control
  | alt
  | superKey
  | hyper
  | metaKey
  deriving DecidableEq, Repr

/-- The key press approves. -/
def keyApproves (key : Key) (modifiers : List Modifier) : Bool :=
  modifiers.isEmpty && (key == .char 'y' || key == .enter)

/-- The line between requests. -/
def separator : String :=
  String.ofList (List.replicate 80 '-')

/-- A request as it is shown. -/
def requestText (theme : Theme) (request : Request) : String :=
  theme.ink .cyan separator ++ "\n" ++
  theme.ink .cyan "File:" ++ " " ++ request.file ++ " " ++
  theme.ink .cyan ("[Line " ++ toString request.line ++ "]") ++ "\n" ++
  theme.ink .magenta "Sentence:" ++ " " ++ request.content ++ "\n" ++
  theme.ink .yellow "Add this sentence to the catalog?" ++
  " (" ++ theme.ink .green "Y" ++ "/" ++ theme.ink .red "n" ++
  " - default: " ++ theme.ink .green "yes" ++ ") "

/-- The answer as it is echoed. -/
def answerText (theme : Theme) (approved : Bool) : String :=
  (if approved then theme.ink .green "yes" else theme.ink .red "no") ++ "\n"

variable {m : Type → Type} [Monad m] [Console m]

/-- Asks a question and returns the line typed in answer, without the blanks around it. -/
def askLine (theme : Theme) (question : String) : m (Except Failure String) := do
  Console.print (theme.paint .bold .default question ++ " ")
  match ← Console.readLine with
  | .error e => return .error (.inputUnreadable e)
  | .ok none => return .error (.noAnswer question)
  | .ok (some line) => return .ok (String.ofList (Text.trim (dropLineEnd line.toList)))

/-- Shows a request and takes the next line of input for the answer. At the end of the input
    everything is rejected. -/
def confirmByLine (theme : Theme) (request : Request) : m (Except Failure Bool) := do
  Console.print (requestText theme request)
  match ← Console.readLine with
  | .error e => return .error (.inputUnreadable e)
  | .ok line =>
    let approved := line.any lineApproves
    Console.print (answerText theme approved)
    return .ok approved

end Prompt

end Phrasebook
