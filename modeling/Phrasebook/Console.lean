/-!
# Consoles

Lines of input and written text, as an interface that any monad can offer.
-/

namespace Phrasebook

/-- Why a line of input could not be read. -/
inductive InputError where
  | notUtf8
  | other (text : String)
  deriving DecidableEq, Repr

/-- The wording of a failure. -/
def InputError.message : InputError → String
  | notUtf8 => "stream did not contain valid UTF-8"
  | other text => text

/-- Input and output as a monad offers them. -/
class Console (m : Type → Type) where
  /-- Writes to the standard output. -/
  print : String → m Unit
  /-- Writes to the standard error output. -/
  printError : String → m Unit
  /-- The next line with its line feed, or nothing at the end of the input. A line that cannot be
      decoded is used up. -/
  readLine : m (Except InputError (Option String))

namespace Console

/-- The byte that ends a line. -/
def lineFeed : UInt8 := 10

/-- The input up to and including its first line feed, and the rest. -/
def splitLine : List UInt8 → List UInt8 × List UInt8
  | [] => ([], [])
  | b :: bs =>
    if b = lineFeed then
      ([b], bs)
    else
      let (line, rest) := splitLine bs
      (b :: line, rest)

/-- The text of a line. A line without bytes is the end of the input. -/
def decodeLine (line : List UInt8) : Except InputError (Option String) :=
  if line.isEmpty then
    .ok none
  else
    match String.fromUTF8? ⟨line.toArray⟩ with
    | some text => .ok (some text)
    | none => .error .notUtf8

end Console

/-- A state on top of a console leaves it as it is. -/
instance {σ : Type} {m : Type → Type} [Monad m] [Console m] : Console (StateT σ m) where
  print text := StateT.lift (Console.print text)
  printError text := StateT.lift (Console.printError text)
  readLine := StateT.lift Console.readLine

end Phrasebook
