import Phrasebook.Command.Scan
import Phrasebook.Localization
import Phrasebook.Prompt
import Phrasebook.TreeCopy

/-!
# The command `run`

A run first settles all it needs to know and refuses what cannot be done, and only then writes
anything: it collects sentences from the source folder, copies the folder to the output directory,
localizes the copy and writes the catalog.
-/

namespace Phrasebook

/-- All that a run needs to know. -/
structure Plan where
  table : String
  /-- The canonical path of the source folder. -/
  sourceRoot : Path
  outputDir : Path
  catalogFile : Path
  locale : String
  filter : Filter
  deriving DecidableEq, Repr

namespace Plan

/-- The question for a table. -/
def tableQuestion : String := "Please enter the name of the table (XXX.Lang) to use:"

/-- The question for a source folder. -/
def pathQuestion : String := "Please enter the folder path to fetch sentences from:"

variable {m : Type → Type} [Monad m] [Storage m]

/-- The first of the paths that leads to something. -/
def firstPresent : List Path → m (Option Path)
  | [] => pure none
  | path :: rest => do
    if ← Storage.isPresent path then return some path else firstPresent rest

/-- The absolute form of a path, without links as far as it leads to something. -/
def resolvePath (path : Path) : m (Except Failure Path) := do
  if path.isEmpty then
    return .error .emptyPath
  let whole := path.absolute (← Storage.workingDirectory)
  match ← firstPresent whole.ancestors with
  | none => return .ok whole
  | some ancestor =>
    match ← Storage.canonical ancestor with
    | .error e => return .error (.unresolved ancestor e)
    | .ok root =>
      match whole.relativeTo? ancestor with
      | some rest => return .ok (if rest.isEmpty then root else root.join rest)
      | none => return .ok root

/-- The output directory, which must lie apart from the source folder and be empty, unless `force` is
    set. -/
def checkOutput (source output : Path) (force : Bool) : m (Except Failure Path) := do
  match ← resolvePath output with
  | .error failure => return .error failure
  | .ok directory =>
    if directory.startsWith source then
      return .error (.outputInsideSource output source)
    if source.startsWith directory then
      return .error (.outputAroundSource output source)
    match ← Storage.kind directory with
    | .error _ => return .ok directory
    | .ok .directory =>
      match ← Storage.list directory with
      | .error e => return .error (.outputUnreadable output e)
      | .ok names =>
        if names.isEmpty || force then return .ok directory
        else return .error (.outputNotEmpty output)
    | .ok _ => return .error (.outputNotDirectory output)

/-- The catalog file, which must not lie in the source folder or be a directory. -/
def checkCatalog (source catalog : Path) : m (Except Failure Path) := do
  match ← resolvePath catalog with
  | .error failure => return .error failure
  | .ok file =>
    if file.startsWith source then
      return .error (.catalogInsideSource catalog source)
    if ← Storage.isDirectory file then
      return .error (.catalogIsDirectory catalog)
    return .ok file

variable [Console m]

/-- A value that is given, or else the answer to a question. -/
def orAsk (theme : Theme) (question : String) : Option String → m (Except Failure String)
  | some value => pure (.ok value)
  | none => Prompt.askLine theme question

/-- Settles what a run needs to know: options come before the configuration, and what both leave
    open is asked for. -/
def settle (theme : Theme) (options : CommandLine.RunOptions) (config : Config) :
    ExceptT Failure m Plan := do
  let table ← ExceptT.mk (orAsk theme tableQuestion (options.table <|> config.table))
  ExceptT.mk (pure (Config.checkTable table))
  let source ←
    ExceptT.mk (orAsk theme pathQuestion (options.path.map (·.text) <|> config.sourceRoot))
  let sourceRoot ← ExceptT.mk (Command.openFolder ⟨source⟩)
  let locale := options.locale.getD config.locale
  ExceptT.mk (pure (Config.checkLocale locale))
  let outputDir ←
    ExceptT.mk (checkOutput sourceRoot (options.output.getD ⟨config.outputDir⟩) options.force)
  let catalogFile ←
    ExceptT.mk (checkCatalog sourceRoot (options.catalog.getD ⟨config.catalogFile⟩))
  match Filter.ofLists config.ignores config.extensions with
  | .error bad => throw (.badIgnore bad)
  | .ok filter => return ⟨table, sourceRoot, outputDir, catalogFile, locale, filter⟩

end Plan

namespace Command

variable {m : Type → Type} [Monad m] [Storage m]

/-- Writes the catalog, making the directories it needs. -/
def writeCatalog (plan : Plan) (catalog : Catalog) : m (Except Failure Unit) := do
  if let some parent := plan.catalogFile.parent? then
    if let .error e ← Storage.makeDirectories parent then
      return .error (.directoryNotMade parent e)
  match ← Storage.write plan.catalogFile (catalog.toLua plan.table plan.locale).toUTF8 with
  | .ok () => return .ok ()
  | .error e => return .error (.catalogUnwritable plan.catalogFile e)

/-- Carries out a run. If the operator fails, the source folder is still copied, but the copy is not
    localized and no catalog is written. -/
def carryOut {ε : Type} (lift : Failure → ε) (confirm : Request → m (Except ε Bool)) (plan : Plan) :
    m (Except ε Outcome) := do
  let (_, reviewed) ← reviewTree confirm plan.sourceRoot plan.filter .empty
  let copied ← copyTree plan.sourceRoot plan.outputDir
  match reviewed with
  | .error e => return .error e
  | .ok reviewed =>
    let catalog : Catalog := ⟨reviewed.sentences⟩
    let localized ← localizeTree plan.outputDir catalog plan.table
    match ← writeCatalog plan catalog with
    | .error failure => return .error (lift failure)
    | .ok () =>
      let summary : RunSummary :=
        { catalog
          catalogFile := plan.catalogFile
          outputDir := plan.outputDir
          prompts := reviewed.prompts
          filesScanned := reviewed.tally.filesScanned
          filesCopied := copied.filesCopied
          filesChanged := localized.filesChanged
          replacements := localized.replacements
          binarySkipped := reviewed.tally.binarySkipped + localized.binarySkipped }
      return .ok
        ⟨.run summary, reviewed.tally.issues ++ copied.issues ++ localized.issues, .success⟩

variable [Console m]

/-- Settles a run and carries it out, lines of input being the operator's answers. -/
def run (theme : Theme) (options : CommandLine.RunOptions) (config : Config) :
    m (Except Failure Outcome) := do
  match ← (Plan.settle theme options config).run with
  | .error failure => return .error failure
  | .ok plan =>
    if options.verbose then
      Console.printError
        ("Note: scanning " ++ plan.sourceRoot.text ++ ", writing to " ++ plan.outputDir.text ++ "\n")
    carryOut id (Prompt.confirmByLine theme) plan

end Command

end Phrasebook
