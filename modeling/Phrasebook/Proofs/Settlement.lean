import Phrasebook.Command.Run
import Phrasebook.Proofs.Disk.Leads
import Phrasebook.World

/-!
# What settling a run establishes

Main statement: settling leaves the disk as it is, and in a plan that has been settled the source
folder is a directory by its location, the output directory and the catalog file are absolute paths,
and by their components neither directory lies in the other and the catalog file not in the source
folder.
-/

namespace Phrasebook

namespace World

variable {α β : Type} {disk : Disk}

theorem run_bind (program : StateM World α) (next : α → StateM World β) (world : World) :
    (program >>= next) world = next (program world).1 (program world).2 := rfl

/-- In worlds with the disk, the program keeps the disk and its result is as said. -/
def Keeps (disk : Disk) (program : StateM World α) (result : α → Prop) : Prop :=
  ∀ world, world.disk = disk → (program world).2.disk = disk ∧ result (program world).1

theorem keeps_pure {value : α} {result : α → Prop} (h : result value) :
    Keeps disk (pure value) result :=
  fun _ hworld => ⟨hworld, h⟩

theorem Keeps.bind {program : StateM World α} {next : α → StateM World β} {result : α → Prop}
    {result' : β → Prop} (h : Keeps disk program result)
    (hnext : ∀ value, result value → Keeps disk (next value) result') :
    Keeps disk (program >>= next) result' := by
  intro world hworld
  obtain ⟨same, hvalue⟩ := h world hworld
  exact hnext _ hvalue _ same

/-- In worlds with the disk, the program leaves all as it is and its result is as said. -/
def Reads (disk : Disk) (program : StateM World α) (result : α → Prop) : Prop :=
  ∀ world, world.disk = disk → (program world).2 = world ∧ result (program world).1

theorem Reads.keeps {program : StateM World α} {result : α → Prop} (h : Reads disk program result) :
    Keeps disk program result := by
  intro world hworld
  obtain ⟨same, hvalue⟩ := h world hworld
  exact ⟨same.symm ▸ hworld, hvalue⟩

theorem reads_pure {value : α} {result : α → Prop} (h : result value) :
    Reads disk (pure value) result :=
  fun _ _ => ⟨rfl, h⟩

theorem Reads.bind {program : StateM World α} {next : α → StateM World β} {result : α → Prop}
    {result' : β → Prop} (h : Reads disk program result)
    (hnext : ∀ value, result value → Reads disk (next value) result') :
    Reads disk (program >>= next) result' := by
  intro world hworld
  obtain ⟨same, hvalue⟩ := h world hworld
  obtain ⟨same', hvalue'⟩ := hnext _ hvalue _ (same.symm ▸ hworld)
  exact ⟨same'.trans same, hvalue'⟩

theorem reads_inspect (look : Disk → α) : Reads disk (inspect look) (· = look disk) := by
  rintro world rfl
  exact ⟨rfl, rfl⟩

theorem keeps_askLine (theme : Theme) (question : String) :
    Keeps disk (Prompt.askLine theme question) fun _ => True := by
  rw [Prompt.askLine]
  have print : ∀ text, Keeps disk (Console.print text : StateM World Unit) fun _ => True :=
    fun _ _ hworld => ⟨hworld, trivial⟩
  have readLine : Keeps disk (Console.readLine : StateM World _) fun _ => True :=
    fun _ hworld => ⟨hworld, trivial⟩
  refine (print _).bind fun _ _ => readLine.bind fun line _ => ?_
  split <;> exact keeps_pure trivial

theorem reads_isDirectory (path : Path) :
    Reads disk (Storage.isDirectory path) fun yes => yes = true →
      disk.kind path = .ok .directory := by
  refine (reads_inspect (·.kind path)).bind fun kind hkind => reads_pure ?_
  rw [← hkind]
  intro yes
  split at yes <;> simp_all

/-- As `Keeps`, for programs that may fail. -/
def KeepsOk (disk : Disk) (program : ExceptT Failure (StateM World) α) (result : α → Prop) : Prop :=
  Keeps disk program.run fun outcome => ∀ value, outcome = .ok value → result value

theorem KeepsOk.bind {program : ExceptT Failure (StateM World) α}
    {next : α → ExceptT Failure (StateM World) β} {result : α → Prop} {result' : β → Prop}
    (h : KeepsOk disk program result)
    (hnext : ∀ value, result value → KeepsOk disk (next value) result') :
    KeepsOk disk (program >>= next) result' := by
  rw [KeepsOk, ExceptT.run_bind]
  refine Keeps.bind h fun outcome houtcome => ?_
  cases outcome with
  | ok value => exact hnext value (houtcome value rfl)
  | error e => exact keeps_pure (by simp)

theorem keepsOk_pure {value : α} {result : α → Prop} (h : result value) :
    KeepsOk disk (pure value) result :=
  keeps_pure fun _ same => Except.ok.inj same ▸ h

end World

namespace Path

theorem isAbsolute_join {path : Path} (other : Path) (h : path.isAbsolute = true) :
    (path.join other).isAbsolute = true := by
  have nonempty : path.text.toList ≠ [] := by
    intro empty
    simp [isAbsolute, empty] at h
  unfold join
  split
  · assumption
  · split <;> simpa [isAbsolute, List.head?_append_of_ne_nil _ nonempty] using h

theorem isAbsolute_absolute (path : Path) {base : Path} (h : base.isAbsolute = true) :
    (path.absolute base).isAbsolute = true := by
  have steps : ∀ (components : List Component) (start : Path), start.isAbsolute = true →
      (components.foldl (fun whole c => whole.child c.text) start).isAbsolute = true := by
    intro components
    induction components with
    | nil => exact fun _ h => h
    | cons component components ih =>
      intro start hstart
      exact ih _ (isAbsolute_join _ hstart)
  have start : (if path.isAbsolute then
        if (path.text.toList.takeWhile (· == '/')).length = 2 then ⟨"//"⟩ else ⟨"/"⟩
      else base : Path).isAbsolute = true := by
    split
    · split <;> rfl
    · exact h
  unfold absolute
  simp only
  split
  · exact isAbsolute_join _ (steps _ _ start)
  · exact steps _ _ start

end Path

theorem Location.isAbsolute_path (location : Location) : location.path.isAbsolute = true :=
  Path.isAbsolute_slash _

namespace Plan

open World

variable {disk : Disk}

theorem isAbsolute_of_canonical {path root : Path} (h : disk.canonical path = .ok root) :
    root.isAbsolute = true := by
  unfold Disk.canonical at h
  cases hfind : disk.find .target path with
  | error e => simp [hfind, Except.map] at h
  | ok found =>
    obtain rfl : found.1.path = root := by simpa [hfind, Except.map] using h
    exact found.1.isAbsolute_path

theorem reads_firstPresent (candidates : List Path) :
    Reads disk (firstPresent candidates) fun _ => True := by
  induction candidates with
  | nil => exact reads_pure trivial
  | cons path rest ih =>
    rw [firstPresent]
    have present : Reads disk (Storage.isPresent path : StateM World _) fun _ => True :=
      (reads_inspect (·.kind path)).bind fun _ _ => reads_pure trivial
    refine present.bind fun isPresent _ => ?_
    split
    · exact reads_pure trivial
    · exact ih

/-- A path is resolved to an absolute one. -/
theorem reads_resolvePath (path : Path) :
    Reads disk (resolvePath path)
      fun result => ∀ whole, result = .ok whole → whole.isAbsolute = true := by
  rw [resolvePath]
  split
  · exact reads_pure (by simp)
  refine (reads_inspect (·.here.path)).bind fun base hbase => ?_
  have hwhole : (path.absolute base).isAbsolute = true :=
    Path.isAbsolute_absolute path (hbase ▸ Location.isAbsolute_path _)
  refine (reads_firstPresent _).bind fun present _ => ?_
  split
  · exact reads_pure fun _ same => Except.ok.inj same ▸ hwhole
  refine (reads_inspect (·.canonical _)).bind fun root hroot => ?_
  split
  · exact reads_pure (by simp)
  · next root' =>
    have absolute := isAbsolute_of_canonical hroot.symm
    split
    · refine reads_pure fun whole same => Except.ok.inj same ▸ ?_
      split
      · exact absolute
      · exact Path.isAbsolute_join _ absolute
    · exact reads_pure fun whole same => Except.ok.inj same ▸ absolute

/-- The directory that is accepted is the resolved path. By components it lies apart from the source,
    and without `force` it leads to nothing or to an empty directory. -/
theorem reads_checkOutput_of {resolves : Path → Prop} (source : Path) {output : Path} (force : Bool)
    (hresolve : Reads disk (resolvePath output)
      fun result => ∀ directory, result = .ok directory → resolves directory) :
    Reads disk (checkOutput source output force) fun result => ∀ directory, result = .ok directory →
      resolves directory ∧ directory.startsWith source = false ∧
        source.startsWith directory = false ∧
        (force = false → ∀ place node, disk.find .target directory = .ok (place, node) →
          disk.names place = []) := by
  rw [checkOutput]
  refine hresolve.bind fun resolved hresolved => ?_
  split
  · exact reads_pure (by simp)
  next directory =>
  split
  · exact reads_pure (by simp)
  next notInside =>
  split
  · exact reads_pure (by simp)
  next notAround =>
  have good : (force = false → ∀ place node, disk.find .target directory = .ok (place, node) →
      disk.names place = []) → ∀ directory', (.ok directory : Except Failure Path) = .ok directory' →
      resolves directory' ∧ directory'.startsWith source = false ∧
        source.startsWith directory' = false ∧
        (force = false → ∀ place node, disk.find .target directory' = .ok (place, node) →
          disk.names place = []) := by
    intro free directory' same
    obtain rfl := Except.ok.inj same
    exact ⟨hresolved directory rfl, by simpa using notInside, by simpa using notAround, free⟩
  refine (reads_inspect (·.kind directory)).bind fun kind hkind => ?_
  split
  · refine reads_pure (good fun _ place node found => ?_)
    simp [Disk.kind, found, Except.map] at hkind
  · refine (reads_inspect (·.list directory)).bind fun listed hlisted => ?_
    split
    · exact reads_pure (by simp)
    next names =>
    split
    · next empty =>
      refine reads_pure (good fun notForced place node found => ?_)
      obtain rfl : names = [] := by simpa [notForced] using empty
      rw [Disk.list, found] at hlisted
      split at hlisted
      · simp at hlisted
      · next place' access same =>
        obtain ⟨rfl, -⟩ := Prod.mk.inj (Except.ok.inj same)
        split at hlisted
        · exact (Except.ok.inj hlisted).symm
        · simp at hlisted
      · simp at hlisted
    · exact reads_pure (by simp)
  · exact reads_pure (by simp)

theorem reads_checkOutput (source output : Path) (force : Bool) :
    Reads disk (checkOutput source output force) fun result => ∀ directory, result = .ok directory →
      directory.isAbsolute = true ∧ directory.startsWith source = false ∧
        source.startsWith directory = false := by
  intro world hworld
  obtain ⟨same, accepted⟩ := reads_checkOutput_of source force (reads_resolvePath output) world hworld
  exact ⟨same, fun directory result =>
    ⟨(accepted directory result).1, (accepted directory result).2.1,
      (accepted directory result).2.2.1⟩⟩

theorem reads_checkCatalog (source catalog : Path) :
    Reads disk (checkCatalog source catalog) fun result => ∀ file, result = .ok file →
      file.isAbsolute = true ∧ file.startsWith source = false := by
  rw [checkCatalog]
  refine (reads_resolvePath catalog).bind fun resolved hresolved => ?_
  split
  · exact reads_pure (by simp)
  next file =>
  have absolute := hresolved file rfl
  split
  · exact reads_pure (by simp)
  next notInside =>
  refine (reads_isDirectory file).bind fun isDirectory _ => ?_
  split
  · exact reads_pure (by simp)
  · refine reads_pure fun file' same => ?_
    obtain rfl := Except.ok.inj same
    exact ⟨absolute, by simpa using notInside⟩

/-- A folder is opened by the location of its directory. -/
theorem reads_openFolder (path : Path) :
    Reads disk (Command.openFolder path) fun result => ∀ root, result = .ok root →
      ∃ location, root = location.path ∧ disk.Holds location := by
  rw [Command.openFolder]
  refine (reads_isDirectory path).bind fun isDirectory hdirectory => ?_
  split
  · exact reads_pure (by simp)
  next accepted =>
  refine (reads_inspect (·.canonical path)).bind fun canonical hcanonical => ?_
  split
  · next root =>
    refine reads_pure fun root' same => ?_
    obtain rfl := Except.ok.inj same
    have isDirectory : disk.kind path = .ok .directory := hdirectory (by simp_all)
    cases hfind : disk.find .target path with
    | error e => simp [Disk.kind, hfind, Except.map] at isDirectory
    | ok found =>
      obtain ⟨location, node⟩ := found
      simp only [Disk.kind, Disk.canonical, hfind, Except.map, Except.ok.injEq,
        Node.kind_eq_directory] at isDirectory hcanonical
      obtain ⟨access, rfl⟩ := isDirectory
      exact ⟨location, hcanonical, access, Disk.get?_of_find hfind⟩
  · exact reads_pure (by simp)

/-- What is known of a plan that has been settled on a disk. -/
structure Settled (disk : Disk) (plan : Plan) : Prop where
  source : ∃ location, plan.sourceRoot = location.path ∧ disk.Holds location
  outputAbsolute : plan.outputDir.isAbsolute = true
  outputNotInside : plan.outputDir.startsWith plan.sourceRoot = false
  outputNotAround : plan.sourceRoot.startsWith plan.outputDir = false
  catalogAbsolute : plan.catalogFile.isAbsolute = true
  catalogNotInside : plan.catalogFile.startsWith plan.sourceRoot = false

/-- Settling keeps the disk and gives a plan that is settled. -/
theorem keepsOk_settle (theme : Theme) (options : CommandLine.RunOptions) (config : Config) :
    KeepsOk disk (settle theme options config) (Settled disk) := by
  have ask : ∀ question value, KeepsOk disk
      (ExceptT.mk (orAsk theme question value : StateM World (Except Failure String)))
      fun _ => True := by
    intro question value
    cases value with
    | some value => exact keeps_pure fun _ _ => trivial
    | none =>
      exact fun world hworld => ⟨(keeps_askLine theme question world hworld).1, fun _ _ => trivial⟩
  have check : ∀ result : Except Failure Unit, KeepsOk disk
      (ExceptT.mk (pure result : StateM World (Except Failure Unit))) fun _ => True :=
    fun _ => keeps_pure fun _ _ => trivial
  rw [settle]
  refine (ask _ _).bind fun table _ => (check _).bind fun _ _ => (ask _ _).bind fun source _ => ?_
  refine KeepsOk.bind (reads_openFolder ⟨source⟩).keeps fun sourceRoot hsource => ?_
  refine (check _).bind fun _ _ => ?_
  refine KeepsOk.bind (reads_checkOutput sourceRoot _ _).keeps fun outputDir houtput => ?_
  refine KeepsOk.bind (reads_checkCatalog sourceRoot _).keeps fun catalogFile hcatalog => ?_
  split
  · exact keeps_pure (by simp)
  · exact keepsOk_pure ⟨hsource, houtput.1, houtput.2.1, houtput.2.2, hcatalog.1, hcatalog.2⟩

end Plan

end Phrasebook
