import Phrasebook.Command.Init
import Phrasebook.Command.Run
import Phrasebook.CommandLine.Help
import Phrasebook.Config.Discovery

/-!
# The program

Every command starts from the configuration for the working directory. What a command has done is
reported at its end; where the report is broken off, the program ends there.
-/

namespace Phrasebook

namespace Program

variable {m : Type → Type} [Monad m] [Storage m] [Console m]

/-- Carries out a command in a directory. -/
def dispatch (theme : Theme) (config : Config) (directory : Path) :
    CommandLine.Command → m (Except Failure Outcome)
  | .run options => Command.run theme options config
  | .scan options => Command.scan options config
  | .init => Command.init directory

/-- The note that there is no configuration file. -/
def defaultsNote (theme : Theme) : String :=
  theme.paint .bold .cyan "note:" ++ " no " ++ Config.fileName ++ " found, using defaults\n"

/-- Carries out a command in the working directory and reports what it has done. Without a command
    the help is shown. -/
def runCommand (measure : Report.Measure) (theme : Theme) :
    Option CommandLine.Command → m (Except Failure ExitStatus)
  | none => do
    Console.print (CommandLine.Topic.helpText .program)
    return .ok .success
  | some command => do
    let directory ← Storage.workingDirectory
    match ← Config.load directory with
    | .error failure => return .error failure
    | .ok loaded =>
      if command.verbose && !loaded.fromFile then
        Console.printError (defaultsNote theme)
      match ← dispatch theme loaded.config directory command with
      | .error failure => return .error failure
      | .ok outcome =>
        let output := Report.output measure theme command.verbose outcome
        Console.print output.text
        if output.complete then
          Console.printError (Report.errors theme outcome)
          return .ok outcome.status
        else
          return .ok .aborted

/-- What is said about arguments that cannot be read. -/
def refusalText : CommandLine.Refusal → String
  | .unknownArgument => "error: unexpected argument found\n"
  | .invalidSubcommand => "error: unrecognized subcommand\n"
  | .invalidValue => "error: a value is required but none was supplied\n"
  | .argumentConflict => "error: an argument cannot be used multiple times\n"
  | .tooManyValues => "error: unexpected value for an argument\n"
  | .displayHelp topic => topic.helpText
  | .displayVersion => CommandLine.versionText

/-- The whole program, from its arguments to its exit status. -/
def run (measure : Report.Measure) (theme : Theme) (arguments : List String) : m ExitStatus := do
  match CommandLine.read arguments with
  | .error (.displayHelp topic) =>
    Console.print topic.helpText
    return .success
  | .error .displayVersion =>
    Console.print CommandLine.versionText
    return .success
  | .error refusal =>
    Console.printError (refusalText refusal)
    return .failure
  | .ok command =>
    match ← runCommand measure theme command with
    | .ok status => return status
    | .error failure =>
      Console.printError ("Error: " ++ failure.message ++ "\n")
      return .failure

end Program

end Phrasebook
