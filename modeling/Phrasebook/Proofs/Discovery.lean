import Phrasebook.Program
import Phrasebook.Proofs.Disk.Intake
import Phrasebook.Proofs.Parents
import Phrasebook.Proofs.Settlement

/-!
# Which configuration is found

The configuration of a directory comes from the nearest configuration file, if there is one before
the end of the repository. Main statements: the search goes through the directory and its parents
one by one and finds that file, whose configuration is loaded or whose defect is reported, with no
second choice; and `init` in a directory with a configuration file changes nothing and says either
that the file is there or what is wrong with it.
-/

namespace Phrasebook

/-- The path leads to something. -/
def Disk.Present (disk : Disk) (path : Path) : Prop :=
  ∃ found, disk.find .target path = .ok found

theorem World.Reads.mono {α : Type} {disk : Disk} {program : StateM World α}
    {result result' : α → Prop} (h : Reads disk program result)
    (weaken : ∀ value, result value → result' value) : Reads disk program result' := by
  intro world hworld
  obtain ⟨same, hvalue⟩ := h world hworld
  exact ⟨same, weaken _ hvalue⟩

namespace Config

open World

variable {disk : Disk} {file directory : Path} {directories : List Path}

/-- The file is that of the first of the directories that holds a configuration file, and none of
    the directories before it holds a repository. -/
def Nearest (disk : Disk) (directories : List Path) (file : Path) : Prop :=
  ∃ (k : Nat) (directory : Path), directories[k]? = some directory ∧
    file = directory.child fileName ∧ disk.Present file ∧
    ∀ j < k, ∀ nearer : Path, directories[j]? = some nearer →
      ¬ disk.Present (nearer.child fileName) ∧ ¬ disk.Present (nearer.child ".git")

theorem not_nearest_nil : ¬ Nearest disk [] file := by
  rintro ⟨k, directory, found, -⟩
  simp at found

theorem nearest_cons :
    Nearest disk (directory :: directories) file ↔
      disk.Present (directory.child fileName) ∧ file = directory.child fileName ∨
        (¬ disk.Present (directory.child fileName) ∧ ¬ disk.Present (directory.child ".git")) ∧
          Nearest disk directories file := by
  constructor
  · rintro ⟨k, found, hfound, rfl, holds, before⟩
    cases k with
    | zero =>
      obtain rfl : directory = found := by simpa using hfound
      exact .inl ⟨holds, rfl⟩
    | succ k =>
      refine .inr ⟨before 0 (by omega) directory rfl, k, found, hfound, rfl, holds, ?_⟩
      exact fun j hj => before (j + 1) (by omega)
  · rintro (⟨holds, rfl⟩ | ⟨passed, k, found, hfound, rfl, holds, before⟩)
    · exact ⟨0, directory, rfl, rfl, holds, by simp⟩
    · refine ⟨k + 1, found, hfound, rfl, holds, ?_⟩
      intro j hj nearer hnearer
      cases j with
      | zero =>
        obtain rfl : directory = nearer := by simpa using hnearer
        exact passed
      | succ j => exact before j (by omega) nearer hnearer

theorem reads_isPresent (path : Path) :
    Reads disk (Storage.isPresent path) (· = true ↔ disk.Present path) := by
  refine (reads_inspect (·.kind path)).bind fun kind hkind => reads_pure ?_
  rw [hkind, Disk.kind, Disk.Present]
  cases disk.find .target path <;> simp [Except.map]

/-- The search stops at the first directory that holds a configuration file or a repository. -/
theorem reads_findIn (directories : List Path) :
    Reads disk (findIn directories) fun found =>
      ∀ file, found = some file ↔ Nearest disk directories file := by
  induction directories with
  | nil => exact reads_pure fun file => by simp [not_nearest_nil]
  | cons directory directories ih =>
    rw [findIn]
    refine (reads_isPresent (directory.child fileName)).bind fun present hpresent => ?_
    split
    · next yes =>
      have holds := hpresent.mp yes
      refine reads_pure fun file => ?_
      simp [nearest_cons, holds, eq_comm]
    next no =>
    have holdsNot : ¬ disk.Present (directory.child fileName) :=
      fun holds => no (hpresent.mpr holds)
    refine (reads_isPresent (directory.child ".git")).bind fun inRepository hrepository => ?_
    split
    · next yes =>
      have repository := hrepository.mp yes
      refine reads_pure fun file => ?_
      simp [nearest_cons, holdsNot, repository]
    next no =>
    have repositoryNot : ¬ disk.Present (directory.child ".git") :=
      fun holds => no (hrepository.mpr holds)
    simpa [nearest_cons, holdsNot, repositoryNot] using ih

/-- The bytes of the file are the text. -/
def HoldsText (disk : Disk) (file : Path) (text : String) : Prop :=
  ∃ bytes, disk.read file = .ok bytes ∧ String.fromUTF8? bytes = some text

/-- The file has been read as the configuration, which can be used. -/
def StoredIn (disk : Disk) (file : Path) (config : Config) : Prop :=
  ∃ text, HoldsText disk file text ∧ parse text = .ok config ∧ config.check = .ok ()

/-- What is wrong with a configuration file. -/
inductive Defect (disk : Disk) (file : Path) : Failure → Prop where
  | unreadable {e : OsError} : disk.read file = .error e →
      Defect disk file (.configUnreadable file (.os e))
  | notText {bytes : ByteArray} : disk.read file = .ok bytes → String.fromUTF8? bytes = none →
      Defect disk file (.configUnreadable file .notUtf8)
  | malformed {text : String} {e : Json.Error} : HoldsText disk file text → parse text = .error e →
      Defect disk file (.configMalformed file e)
  | unusable {text : String} {config : Config} {failure : Failure} : HoldsText disk file text →
      parse text = .ok config → config.check = .error failure → Defect disk file failure

/-- Every file is of use or not. -/
theorem storedIn_or_defect (disk : Disk) (file : Path) :
    (∃ config, StoredIn disk file config) ∨ ∃ failure, Defect disk file failure := by
  cases hread : disk.read file with
  | error e => exact .inr ⟨_, .unreadable hread⟩
  | ok bytes =>
    cases htext : String.fromUTF8? bytes with
    | none => exact .inr ⟨_, .notText hread htext⟩
    | some text =>
      have holds : HoldsText disk file text := ⟨bytes, hread, htext⟩
      cases hparse : parse text with
      | error e => exact .inr ⟨_, .malformed holds hparse⟩
      | ok config =>
        cases hcheck : config.check with
        | error failure => exact .inr ⟨_, .unusable holds hparse hcheck⟩
        | ok => exact .inl ⟨config, text, holds, hparse, hcheck⟩

theorem reads_readTextFile (file : Path) :
    Reads disk (readTextFile file) (· = match disk.read file with
      | .error e => .error (.os e)
      | .ok bytes =>
        match String.fromUTF8? bytes with
        | some text => .ok text
        | none => .error .notUtf8) := by
  refine (reads_inspect (·.read file)).bind fun read same => ?_
  rw [same]
  cases disk.read file with
  | error e => exact reads_pure rfl
  | ok bytes =>
    dsimp only
    cases String.fromUTF8? bytes with
    | none => exact reads_pure rfl
    | some text => exact reads_pure rfl

theorem reads_loadFile_of_holdsText {text : String} (h : HoldsText disk file text) :
    Reads disk (loadFile file) (· = match parse text with
      | .error e => .error (.configMalformed file e)
      | .ok config => config.check.map fun _ => config) := by
  obtain ⟨bytes, hread, htext⟩ := h
  refine (reads_readTextFile file).bind fun read same => ?_
  simp only [same, hread, htext]
  cases parse text with
  | error e => exact reads_pure rfl
  | ok config => exact reads_pure rfl

theorem reads_loadFile_of_storedIn {config : Config} (h : StoredIn disk file config) :
    Reads disk (loadFile file) (· = .ok config) := by
  obtain ⟨text, holds, hparse, hcheck⟩ := h
  have loads := reads_loadFile_of_holdsText holds
  simp only [hparse, hcheck] at loads
  exact loads

theorem reads_loadFile_of_defect {failure : Failure} (h : Defect disk file failure) :
    Reads disk (loadFile file) (· = .error failure) := by
  cases h with
  | unreadable hread =>
    refine (reads_readTextFile file).bind fun read same => ?_
    simp only [same, hread]
    exact reads_pure rfl
  | notText hread htext =>
    refine (reads_readTextFile file).bind fun read same => ?_
    simp only [same, hread, htext]
    exact reads_pure rfl
  | malformed holds hparse =>
    have loads := reads_loadFile_of_holdsText holds
    rwa [hparse] at loads
  | unusable holds hparse hcheck =>
    have loads := reads_loadFile_of_holdsText holds
    simp only [hparse, hcheck] at loads
    exact loads

/-- Where there is a nearest file, its result is that of the directory. -/
theorem reads_load_of_nearest {start : Path} {result : Except Failure Config}
    (nearest : Nearest disk start.ancestors file) (h : Reads disk (loadFile file) (· = result)) :
    Reads disk (load start) (· = result.map (⟨·, true⟩)) := by
  refine (reads_findIn start.ancestors).bind fun found hfound => ?_
  rw [(hfound file).mpr nearest]
  refine h.bind fun loaded same => ?_
  rw [same]
  exact reads_pure rfl

theorem reads_load_of_not_nearest {start : Path}
    (none : ∀ file, ¬ Nearest disk start.ancestors file) :
    Reads disk (load start) (· = .ok ⟨default, false⟩) := by
  refine (reads_findIn start.ancestors).bind fun found hfound => ?_
  cases found with
  | none => exact reads_pure rfl
  | some file => exact absurd ((hfound file).mp rfl) (none file)

end Config

/-- The search for a configuration goes up from the directory, parent by parent, to the root or to
    the empty path. It finds the nearest file before the end of a repository. Loading gives the
    default if there is no such file, and otherwise the configuration in that file or what is wrong
    with the file, and never anything else. -/
theorem load_nearest (disk : Disk) (start : Path) :
    ∃ directories, start.Parents directories ∧
      (∃ top, directories.getLast? = some top ∧
        if start.isAbsolute then top.components = [.root] else top.text = "") ∧
      World.Reads disk (Config.find start)
        (fun found => ∀ file, found = some file ↔ Config.Nearest disk directories file) ∧
      World.Reads disk (Config.load start) fun loaded =>
        (∀ file, ¬ Config.Nearest disk directories file) ∧ loaded = .ok ⟨.default, false⟩ ∨
        ∃ file, Config.Nearest disk directories file ∧
          ((∃ config, Config.StoredIn disk file config ∧ loaded = .ok ⟨config, true⟩) ∨
            ∃ failure, Config.Defect disk file failure ∧ loaded = .error failure) := by
  have parents := start.parents_ancestors
  refine ⟨start.ancestors, parents, parents.top, Config.reads_findIn _, ?_⟩
  by_cases nearest : ∃ file, Config.Nearest disk start.ancestors file
  · obtain ⟨file, hfile⟩ := nearest
    rcases Config.storedIn_or_defect disk file with ⟨config, stored⟩ | ⟨failure, defect⟩
    · have loads := Config.reads_load_of_nearest hfile (Config.reads_loadFile_of_storedIn stored)
      exact loads.mono fun _ result => .inr ⟨file, hfile, .inl ⟨config, stored, result⟩⟩
    · have loads := Config.reads_load_of_nearest hfile (Config.reads_loadFile_of_defect defect)
      exact loads.mono fun _ result => .inr ⟨file, hfile, .inr ⟨failure, defect, result⟩⟩
  · have none : ∀ file, ¬ Config.Nearest disk start.ancestors file := not_exists.mp nearest
    exact (Config.reads_load_of_not_nearest none).mono fun _ result => .inl ⟨none, result⟩

namespace World

variable {disk : Disk}

theorem Reads.run_eq {α : Type} {program : StateM World α} {value : α} {world : World}
    (h : Reads world.disk program (· = value)) : program world = (value, world) :=
  Prod.ext (h world rfl).2 (h world rfl).1

theorem run_workingDirectory (world : World) :
    (Storage.workingDirectory : StateM World Path) world = (world.disk.here.path, world) := rfl

theorem reads_init {directory : Path}
    (present : disk.Present (directory.child Config.fileName)) :
    Reads disk (Command.init directory) (· = .ok ⟨.init false, [], .refusal⟩) := by
  refine (Config.reads_isPresent (directory.child Config.fileName)).bind fun yes hyes => ?_
  rw [if_pos (hyes.mpr present)]
  exact reads_pure rfl

end World

namespace Program

variable (measure : Report.Measure) (theme : Theme)

/-- Every command ends with what is wrong with the configuration. -/
theorem runCommand_of_load_error (command : CommandLine.Command) {world : World} {failure : Failure}
    (h : World.Reads world.disk (Config.load world.disk.here.path) (· = .error failure)) :
    (runCommand measure theme (some command) : StateM World _) world = (.error failure, world) := by
  rw [runCommand, World.run_bind, World.run_workingDirectory, World.run_bind, h.run_eq]
  rfl

/-- With a configuration `init` is carried out and its outcome is reported. -/
theorem runCommand_init_of_load {world : World} {loaded : Config.Loaded} {outcome : Outcome}
    (h : World.Reads world.disk (Config.load world.disk.here.path) (· = .ok loaded))
    (hinit : World.Reads world.disk (Command.init world.disk.here.path) (· = .ok outcome))
    (complete : (Report.output measure theme false outcome).complete = true) :
    (runCommand measure theme (some .init) : StateM World _) world =
      (.ok outcome.status,
        { world with
          output := world.output ++ (Report.output measure theme false outcome).text
          errors := world.errors ++ Report.errors theme outcome }) := by
  have dispatches : (dispatch theme loaded.config world.disk.here.path .init : StateM World _)
      world = (.ok outcome, world) := hinit.run_eq
  rw [runCommand, World.run_bind, World.run_workingDirectory, World.run_bind, h.run_eq]
  simp only [CommandLine.Command.verbose, Bool.false_and, Bool.false_eq_true, if_false]
  rw [World.run_bind, dispatches]
  simp only [complete, if_true]
  rfl

end Program

namespace World

/-- The configuration file of the working directory. -/
def ownConfig (world : World) : Path :=
  world.disk.here.path.child Config.fileName

variable {world : World} (measure : Report.Measure) (theme : Theme)

/-- The configuration file of the working directory is the nearest one. -/
theorem nearest_ownConfig (present : world.disk.Present world.ownConfig) :
    Config.Nearest world.disk world.disk.here.path.ancestors world.ownConfig :=
  ⟨0, _, (Path.parents_ancestors _).first, rfl, present, by simp⟩

theorem runCommand_init_of_storedIn {config : Config}
    (present : world.disk.Present world.ownConfig)
    (stored : Config.StoredIn world.disk world.ownConfig config) :
    (Program.runCommand measure theme (some .init) : StateM World _) world =
      (.ok .refusal, { world with errors := world.errors ++ Report.alreadyThere }) := by
  have loads := Config.reads_load_of_nearest (nearest_ownConfig present)
    (Config.reads_loadFile_of_storedIn stored)
  have runs := Program.runCommand_init_of_load measure theme loads (reads_init present) rfl
  simpa [Report.output, Report.Written.whole, Report.errors, Report.issues] using runs

theorem runCommand_init_of_defect {failure : Failure}
    (present : world.disk.Present world.ownConfig)
    (defect : Config.Defect world.disk world.ownConfig failure) :
    (Program.runCommand measure theme (some .init) : StateM World _) world =
      (.error failure, world) :=
  Program.runCommand_of_load_error measure theme .init
    (Config.reads_load_of_nearest (nearest_ownConfig present)
      (Config.reads_loadFile_of_defect defect))

end World

/-- In a directory with a configuration file `init` leaves the disk as it is. If the file holds a
    configuration that can be used, `init` refuses and says that the file is there. Otherwise the
    program ends with what is wrong with the file, as it does for every command. -/
theorem init_over_existing (measure : Report.Measure) (theme : Theme) (world : World)
    (present : world.disk.Present world.ownConfig) :
    (∀ config, Config.StoredIn world.disk world.ownConfig config →
      (Program.runCommand measure theme (some .init) : StateM World _) world =
        (.ok .refusal, { world with errors := world.errors ++ Report.alreadyThere })) ∧
    (∀ failure, Config.Defect world.disk world.ownConfig failure →
      (Program.runCommand measure theme (some .init) : StateM World _) world =
        (.error failure, world)) ∧
    ((∃ config, Config.StoredIn world.disk world.ownConfig config) ∨
      ∃ failure, Config.Defect world.disk world.ownConfig failure) :=
  ⟨fun _ => World.runCommand_init_of_storedIn measure theme present,
    fun _ => World.runCommand_init_of_defect measure theme present,
    Config.storedIn_or_defect world.disk world.ownConfig⟩

/-- A world whose working directory is the root and holds a configuration file with the text. -/
def World.configured (text : String) : World :=
  .ofDisk ⟨[([Config.fileName], .file text.toUTF8 .full), ([], .directory .full)], []⟩ []

theorem World.find_configured (text : String) :
    (configured text).disk.find .target (configured text).ownConfig =
      .ok ([Config.fileName], .file text.toUTF8 .full) := by
  have names : Path.AreNames [Config.fileName] := by decide
  have reaches : (configured text).disk.reaches [Config.fileName] = true :=
    Disk.reaches_cons.mpr ⟨by decide, ⟨.full, rfl, rfl⟩, rfl⟩
  have there : (configured text).disk.locate .target (Location.path [Config.fileName]) =
      .ok (.occupied [Config.fileName] (.file text.toUTF8 .full)) :=
    Disk.locate_there names (by decide) (by decide +kernel) reaches rfl (by simp)
  have own : (configured text).ownConfig = Location.path [Config.fileName] :=
    (Location.path_cons names).symm
  rw [Disk.find, own, there]

theorem World.present_configured (text : String) :
    (configured text).disk.Present (configured text).ownConfig :=
  ⟨_, find_configured text⟩

theorem World.holdsText_configured (text : String) :
    Config.HoldsText (configured text).disk (configured text).ownConfig text := by
  refine ⟨text.toUTF8, ?_, dif_pos text.isValidUTF8⟩
  rw [Disk.read, find_configured]
  rfl

theorem init_over_existing_empty :
    (Program.runCommand List.length ⟨false⟩ (some .init) : StateM World _)
        (.configured "\x7b\x7d") =
      (.ok .refusal,
        { World.configured "\x7b\x7d" with
          errors := "Error: .langsweeprc.json already exists\n" }) :=
  (init_over_existing List.length ⟨false⟩ (.configured "\x7b\x7d")
    (World.present_configured _)).1 .default ⟨_, World.holdsText_configured _, by decide, by decide⟩

/-- A file that is no configuration keeps `init` from saying that it is there. -/
theorem init_over_malformed :
    (World.configured "\x7b").disk.Present (World.configured "\x7b").ownConfig ∧
    (Program.runCommand List.length ⟨false⟩ (some .init) : StateM World _) (.configured "\x7b") =
      (.error (.configMalformed ⟨"/.langsweeprc.json"⟩ .truncated), .configured "\x7b") :=
  ⟨World.present_configured _, World.runCommand_init_of_defect _ _ (World.present_configured _)
    (.malformed (World.holdsText_configured _) (by decide))⟩

end Phrasebook
