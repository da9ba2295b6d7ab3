import Phrasebook.Proofs.Localization

/-!
# What a run delivers

Main statement: a run that ends well and without issues leaves a localized copy of every file that a
walk through the source folder finds, and no other file, in the output directory, and the catalog in
the catalog file. The copy and the catalog number the sentences in the same way.
-/

namespace Phrasebook

namespace Disk

variable {disk now later : Disk}

/-- The bytes that a path leads to, none if they cannot be read. -/
def bytesOf (disk : Disk) (path : Path) : ByteArray :=
  match disk.read path with
  | .ok bytes => bytes
  | .error _ => .empty

theorem bytesOf_eq {path : Path} {bytes : ByteArray} (h : disk.read path = .ok bytes) :
    disk.bytesOf path = bytes := by
  rw [bytesOf, h]

/-- What is written to a direct path without links stands where its names say, unless there is a
    device, which keeps nothing. -/
theorem write_direct (hdisk : disk.WellFormed) {path : Path} (hdirect : path.IsDirect)
    (hfree : disk.LinkFree [] path.location) {bytes : ByteArray}
    (h : disk.write path bytes = .ok later) :
    (disk.get? path.location = some .device ∧ later = disk) ∨
      ∃ access, later = disk.insert path.location (.file bytes access) := by
  have placeOf : ∀ {other : Disk} {place node}, other.LinkFree [] path.location →
      other.find .target path = .ok (place, node) → place = path.location :=
    fun free found => place_eq_of_locate (find_eq_ok_iff.mp found) hdirect free
  have grown : disk.Grows (fun _ _ => True) later := grows_of_write (fun _ _ => trivial) hdisk h
  rcases store_eq_ok hdisk (fun _ => by simp) h with
    ⟨place, node, found, notFile, notDirectory, rfl⟩ | ⟨place, absent, places, rfl⟩ |
    ⟨place, content, access, there, places, rfl⟩
  · left
    obtain rfl := placeOf hfree found
    have there := get?_of_find found
    have notLink := hfree _ List.nil_suffix (List.suffix_refl _) node there
    refine ⟨?_, rfl⟩
    cases node with
    | device => exact there
    | file content access => simp at notFile
    | directory access => simp at notDirectory
    | link target => simp at notLink
  · obtain rfl := placeOf (grown.linkFree hfree) places.found
    exact .inr ⟨_, rfl⟩
  · obtain rfl := placeOf (grown.linkFree hfree) places.found
    exact .inr ⟨_, rfl⟩

end Disk

namespace Session

variable {σ ε : Type}

theorem disk_reviewTree {confirm : Request → Session σ (Except ε Bool)}
    (hconfirm : ∀ request state, (exec (confirm request) state).2.disk = state.disk) (root : Path)
    (filter : Filter) (asked : Asked) {state : State σ} (hdisk : state.disk.WellFormed) :
    (exec (reviewTree confirm root filter asked) state).2.disk = state.disk :=
  (within_reviewTree hconfirm root filter asked state hdisk).1.eq

theorem write_of_write_catalog {plan : Plan} {bytes : ByteArray} {state state' : State σ}
    (hexec : exec (do
      match ← Storage.write plan.catalogFile bytes with
      | .ok () => pure (.ok ())
      | .error e => pure (.error (.catalogUnwritable plan.catalogFile e)) :
      Session σ (Except Failure Unit)) state = (.ok (), state')) :
    state.disk.write plan.catalogFile bytes = .ok state'.disk := by
  rw [exec_bind, exec_write] at hexec
  cases hwrite : state.disk.write plan.catalogFile bytes with
  | error e =>
    rw [hwrite] at hexec
    cases (Prod.mk.inj hexec).1
  | ok later =>
    rw [hwrite] at hexec
    rw [← (Prod.mk.inj hexec).2]
    rfl

/-- Before the catalog is written, directories are made. -/
theorem write_of_writeCatalog {plan : Plan} {catalog : Catalog} {state state' : State σ}
    (hdisk : state.disk.WellFormed)
    (hexec : exec (Command.writeCatalog plan catalog) state = (.ok (), state')) :
    ∃ between, state.disk.Grows (fun _ node => node = .directory .full) between ∧
      between.write plan.catalogFile (catalog.toLua plan.table plan.locale).toUTF8 =
        .ok state'.disk := by
  rw [Command.writeCatalog] at hexec
  split at hexec
  · next parent _ =>
    rw [exec_bind] at hexec
    have grows : state.disk.Grows (fun _ node => node = .directory .full)
        (exec (Storage.makeDirectories parent) state).2.disk := by
      refine (within_makeDirectories ?_ state hdisk).1
      exact fun _ _ => rfl
    generalize exec (Storage.makeDirectories parent) state = made at hexec grows
    obtain ⟨made | made, between⟩ := made
    · cases (Prod.mk.inj hexec).1
    · exact ⟨between.disk, grows, write_of_write_catalog hexec⟩
  · exact ⟨state.disk, .refl, write_of_write_catalog hexec⟩

/-- The catalog is written: it stands in its file, unless a device does, and no other file has
    changed. -/
theorem catalog_of_writeCatalog {plan : Plan} {catalog : Catalog} {state state' : State σ}
    (hdisk : state.disk.WellFormed) (hdirect : plan.catalogFile.IsDirect)
    (hfree : state.disk.LinkFree [] plan.catalogFile.location)
    (hexec : exec (Command.writeCatalog plan catalog) state = (.ok (), state')) :
    (state.disk.get? plan.catalogFile.location = some .device ∨
      ∃ access, state'.disk.get? plan.catalogFile.location =
        some (.file (catalog.toLua plan.table plan.locale).toUTF8 access)) ∧
    ∀ place, place ≠ plan.catalogFile.location → ∀ content access,
      state'.disk.get? place = some (.file content access) ↔
        state.disk.get? place = some (.file content access) := by
  obtain ⟨between, grows, written⟩ := write_of_writeCatalog hdisk hexec
  have kept : ∀ {place content access}, between.get? place = some (.file content access) ↔
      state.disk.get? place = some (.file content access) :=
    grows.get?_file_iff fun _ _ same => same ▸ by simp
  rcases Disk.write_direct (grows.wellFormed hdisk) hdirect (grows.linkFree hfree) written with
    ⟨device, same⟩ | ⟨access, same⟩
  · refine ⟨.inl ?_, fun place _ content access => by rw [same, kept]⟩
    by_contra changed
    obtain ⟨path, node, rfl, found⟩ := grows.footprint (fun same => changed (same ▸ device))
    rw [Disk.get?_of_find found] at device
    cases device
  · refine ⟨.inr ⟨access, by rw [same, Disk.get?_insert_self]⟩, fun place hne content access' => ?_⟩
    rw [same, Disk.get?_insert_of_ne _ _ hne, kept]

/-- The stages of a run that ends well, and what its summary and its issues are made of. -/
theorem stages_of_carryOut {lift : Failure → ε} {confirm : Request → Session σ (Except ε Bool)}
    {plan : Plan} {state state' : State σ} {outcome : Outcome}
    (hexec : exec (Command.carryOut lift confirm plan) state = (.ok outcome, state')) :
    ∃ asked reviewed reviewEnd copied copyEnd localized localEnd,
      exec (reviewTree confirm plan.sourceRoot plan.filter .empty) state =
        ((asked, .ok reviewed), reviewEnd) ∧
      exec (copyTree plan.sourceRoot plan.outputDir) reviewEnd = (copied, copyEnd) ∧
      exec (localizeTree plan.outputDir ⟨reviewed.sentences⟩ plan.table) copyEnd =
        (localized, localEnd) ∧
      exec (Command.writeCatalog plan ⟨reviewed.sentences⟩) localEnd = (.ok (), state') ∧
      outcome =
        ⟨.run
          { catalog := ⟨reviewed.sentences⟩
            catalogFile := plan.catalogFile
            outputDir := plan.outputDir
            prompts := reviewed.prompts
            filesScanned := reviewed.tally.filesScanned
            filesCopied := copied.filesCopied
            filesChanged := localized.filesChanged
            replacements := localized.replacements
            binarySkipped := reviewed.tally.binarySkipped + localized.binarySkipped },
          reviewed.tally.issues ++ copied.issues ++ localized.issues, .success⟩ := by
  rw [Command.carryOut, exec_bind] at hexec
  generalize exec (reviewTree confirm plan.sourceRoot plan.filter .empty) state = reviewed
    at hexec ⊢
  obtain ⟨⟨asked, reviewed⟩, reviewEnd⟩ := reviewed
  simp only [exec_bind] at hexec
  generalize hcopy : exec (copyTree plan.sourceRoot plan.outputDir) reviewEnd = copied at hexec
  obtain ⟨copied, copyEnd⟩ := copied
  cases reviewed with
  | error e => cases (Prod.mk.inj hexec).1
  | ok reviewed =>
    simp only [exec_bind] at hexec
    generalize hlocalize : exec (localizeTree plan.outputDir ⟨reviewed.sentences⟩ plan.table)
      copyEnd = localized at hexec
    obtain ⟨localized, localEnd⟩ := localized
    simp only at hexec
    generalize hwrite : exec (Command.writeCatalog plan ⟨reviewed.sentences⟩) localEnd = written
      at hexec
    obtain ⟨written | written, writeEnd⟩ := written
    · cases (Prod.mk.inj hexec).1
    · obtain ⟨same, rfl⟩ := Prod.mk.inj hexec
      exact ⟨asked, reviewed, reviewEnd, copied, copyEnd, localized, localEnd, rfl, hcopy, hlocalize,
        hwrite, (Except.ok.inj same).symm⟩

/-- The parts of a run that ends well and without issues. -/
theorem parts_of_carryOut {lift : Failure → ε} {confirm : Request → Session σ (Except ε Bool)}
    {plan : Plan} {state state' : State σ} {summary : RunSummary} {status : ExitStatus}
    (hexec : exec (Command.carryOut lift confirm plan) state =
      (.ok ⟨.run summary, [], status⟩, state')) :
    ∃ copied localized copyEnd localEnd,
      exec (copyTree plan.sourceRoot plan.outputDir)
          (exec (reviewTree confirm plan.sourceRoot plan.filter .empty) state).2 =
        (copied, copyEnd) ∧
      copied.issues = [] ∧ summary.filesCopied = copied.filesCopied ∧
      exec (localizeTree plan.outputDir summary.catalog plan.table) copyEnd = (localized, localEnd) ∧
      localized.issues = [] ∧ summary.filesChanged = localized.filesChanged ∧
      summary.replacements = localized.replacements ∧
      exec (Command.writeCatalog plan summary.catalog) localEnd = (.ok (), state') := by
  obtain ⟨asked, reviewed, reviewEnd, copied, copyEnd, localized, localEnd, hreview, hcopy, hlocalize,
    hwrite, same⟩ := stages_of_carryOut hexec
  simp only [Outcome.mk.injEq, Summary.run.injEq, List.nil_eq, List.append_eq_nil_iff] at same
  obtain ⟨rfl, ⟨⟨-, copyQuiet⟩, localQuiet⟩, -⟩ := same
  rw [hreview]
  exact ⟨copied, localized, copyEnd, localEnd, hcopy, copyQuiet, rfl, hlocalize, localQuiet, rfl,
    rfl, hwrite⟩

end Session

namespace Plan

/-- The output directory has a canonical path at which nothing stands, or an empty directory, and the
    source folder keeps apart from it. The path of the catalog file is absolute, without `..` and
    links. -/
structure Clear (plan : Plan) (disk : Disk) (output : Location) : Prop where
  areNames : Path.AreNames output
  outputDir : plan.outputDir = output.path
  noLink : disk.LinkFree [] output
  empty : disk.get? output = none ∨ (disk.Holds output ∧ disk.names output = [])
  apart : disk.Apart plan.sourceRoot output
  catalogFile : plan.catalogFile.IsDirect
  catalogNoLink : disk.LinkFree [] plan.catalogFile.location

theorem Clear.isSite {plan : Plan} {disk : Disk} {output : Location} (h : plan.Clear disk output)
    (hdisk : disk.WellFormed) : disk.IsSite output where
  areNames := h.areNames
  noLink := h.noLink
  directory := h.empty.imp_right And.left
  empty := by
    rintro place ⟨more, rfl⟩ hne
    by_contra there
    obtain ⟨node, found⟩ := Option.ne_none_iff_exists'.mp there
    have nonempty : more ≠ [] := fun none => hne (by simp [none])
    obtain ⟨init, name, rfl⟩ := List.eq_nil_or_concat' more |>.resolve_left nonempty
    have onWay : name :: output <:+ init ++ [name] ++ output := ⟨init, by simp⟩
    obtain ⟨entry, inside⟩ : ∃ entry, disk.get? (name :: output) = some entry := by
      rcases hdisk.get?_of_suffix found onWay with same | ⟨access, directory⟩
      · exact ⟨node, same ▸ found⟩
      · exact ⟨_, directory⟩
    rcases h.empty with absent | ⟨-, none⟩
    · obtain ⟨access, directory⟩ := hdisk.parent inside
      simp [absent] at directory
    · have := hdisk.mem_names.mpr ⟨entry, inside, rfl⟩
      simp [none] at this

/-- The location of an entry of the copy. -/
def placeOf (plan : Plan) (names : List String) : Location :=
  (plan.outputDir.descend names).location

/-- A run has delivered what it should: outside of the catalog file, the files in the output directory
    are those that a walk through the source folder finds, and each holds the localized bytes of its
    source. The catalog file holds the catalog, unless a device stands there, which keeps nothing.
    The numbers of the summary are those of the files that were found, of those among them in which
    something is replaced, and of all that is replaced. -/
structure Delivered (plan : Plan) (before after : Disk) (summary : RunSummary) : Prop where
  files : ∀ names, Path.AreNames names → plan.placeOf names ≠ plan.catalogFile.location →
    ((∃ content access, after.get? (plan.placeOf names) = some (.file content access)) ↔
      .entry ⟨plan.sourceRoot.descend names, .file⟩ ∈ Walk.events before true plan.sourceRoot)
  contents : ∀ names, Path.AreNames names → plan.placeOf names ≠ plan.catalogFile.location →
    ∀ content access, after.get? (plan.placeOf names) = some (.file content access) →
      ∃ bytes, before.read (plan.sourceRoot.descend names) = .ok bytes ∧
        content = localizedBytes (Replacement.ofCatalog summary.catalog plan.table) bytes
  catalog : before.get? plan.catalogFile.location = some .device ∨
    ∃ access, after.get? plan.catalogFile.location =
      some (.file (summary.catalog.toLua plan.table plan.locale).toUTF8 access)
  filesCopied : summary.filesCopied =
    (Walk.files (Walk.events before true plan.sourceRoot)).length
  filesChanged : summary.filesChanged =
    (Walk.files (Walk.events before true plan.sourceRoot)).countP fun path =>
      replacedIn (Replacement.ofCatalog summary.catalog plan.table) (before.bytesOf path) ≠ 0
  replacements : summary.replacements =
    ((Walk.files (Walk.events before true plan.sourceRoot)).map fun path =>
      replacedIn (Replacement.ofCatalog summary.catalog plan.table) (before.bytesOf path)).sum

end Plan

/-- A run that returns without issues, with an operator who does not touch the disk, has delivered
    what it should. -/
theorem delivered_of_carryOut {σ ε : Type} (lift : Failure → ε)
    (confirm : Request → Session σ (Except ε Bool))
    (hconfirm : ∀ request state, (Session.exec (confirm request) state).2.disk = state.disk)
    (plan : Plan) (output : Location) (state : Session.State σ) (hdisk : state.disk.WellFormed)
    (hclear : plan.Clear state.disk output) (summary : RunSummary) (status : ExitStatus)
    (hrun : (Session.exec (Command.carryOut lift confirm plan) state).1 =
      .ok ⟨.run summary, [], status⟩) :
    plan.Delivered state.disk (Session.exec (Command.carryOut lift confirm plan) state).2.disk
      summary := by
  generalize hexec : Session.exec (Command.carryOut lift confirm plan) state = ended at hrun ⊢
  obtain ⟨result, state'⟩ := ended
  obtain rfl : result = .ok ⟨.run summary, [], status⟩ := hrun
  obtain ⟨copied, localized, copyEnd, localEnd, hcopy, copyQuiet, filesCopied, hlocalize, localQuiet,
    filesChanged, replaced, hwrite⟩ := Session.parts_of_carryOut hexec
  have site := hclear.isSite hdisk
  have reviewed := Session.disk_reviewTree hconfirm plan.sourceRoot plan.filter .empty hdisk
  rw [hclear.outputDir] at hcopy hlocalize
  obtain ⟨number, stocked⟩ :=
    Session.stocked_copyTree hdisk site hclear.apart reviewed hcopy copyQuiet
  obtain ⟨found, nodup, members, built, rewrites⟩ := Session.rewrites_localizeTree site stocked.built
    (fun names content access hnames there => (Disk.bytesOf_eq (stocked.read_eq hnames there)).symm)
    hlocalize localQuiet
  obtain ⟨catalog, kept⟩ := Session.catalog_of_writeCatalog built.wellFormed hclear.catalogFile
    (built.linkFree hclear.catalogNoLink) hwrite
  have place : ∀ {names}, Path.AreNames names → plan.placeOf names = names.reverse ++ output := by
    intro names hnames
    rw [Plan.placeOf, hclear.outputDir, site.location_descend hnames]
  have inSource : ∀ {names}, Path.AreNames names → (names ∈ found ↔
      plan.sourceRoot.descend names ∈
        Walk.files (Walk.events state.disk true plan.sourceRoot)) := by
    intro names hnames
    rw [members names, ← stocked.isFile_iff hnames]
    exact and_iff_right hnames
  -- The files that were localized are those that were found in the source.
  have perm := stocked.perm (Walk.nodup_files hdisk true _)
    (fun path hmem => Walk.below_of_mem_events hdisk (Walk.mem_files.mp hmem)) nodup members
  have holds : ∀ {names}, Path.AreNames names → plan.placeOf names ≠ plan.catalogFile.location →
      ∀ content, (∃ access, state'.disk.get? (plan.placeOf names) = some (.file content access)) ↔
        names ∈ found ∧ content = localizedBytes (Replacement.ofCatalog summary.catalog plan.table)
          (state.disk.bytesOf (plan.sourceRoot.descend names)) := by
    intro names hnames outside content
    simp only [kept _ outside]
    rw [place hnames]
    exact rewrites.get?_file_iff fun content access there =>
      (members names).mpr ⟨hnames, _, there, by simp⟩
  refine ⟨?_, ?_, ?_, ?_, ?_, ?_⟩
  · intro names hnames outside
    rw [← Walk.mem_files, ← inSource hnames]
    simp only [holds hnames outside]
    exact ⟨fun ⟨_, inFound, _⟩ => inFound, fun inFound => ⟨_, inFound, rfl⟩⟩
  · intro names hnames outside content access there
    obtain ⟨inFound, same⟩ := (holds hnames outside content).mp ⟨access, there⟩
    obtain ⟨bytes, -, hread, -⟩ := stocked.copied names hnames ((inSource hnames).mp inFound)
    rw [Disk.bytesOf_eq hread] at same
    exact ⟨bytes, hread, same⟩
  · exact catalog.imp_left fun device =>
      built.get?_of_not_plain device (by simp) (by simp)
  · rw [filesCopied, number]
  · rw [filesChanged, rewrites.filesChanged, ← perm.countP_eq, List.countP_map]
    exact Nat.zero_add _
  · rw [replaced, rewrites.replaced, ← (perm.map _).sum_nat, List.map_map]
    exact Nat.zero_add _

/-- A disk with a source folder that holds a text and something that is none. -/
def Disk.sources : Disk :=
  ((Disk.empty.insert ["src"] (.directory .full)).insert ["a.lua", "src"]
    (.file "print(\"Hello world\")\n".toUTF8 .full)).insert ["b.lua", "src"] (.file ⟨#[255]⟩ .full)

/-- The same disk with a device on it. -/
def Disk.greeting : Disk :=
  (Disk.sources.insert ["dev"] (.directory .full)).insert ["null", "dev"] .device

theorem Disk.wellFormed_sources : Disk.sources.WellFormed := by
  have folder : (Disk.empty.insert ["src"] (.directory .full)).WellFormed :=
    Disk.wellFormed_empty.insert rfl (by decide) (by intro access h; cases h)
  have file : ((Disk.empty.insert ["src"] (.directory .full)).insert ["a.lua", "src"]
      (.file "print(\"Hello world\")\n".toUTF8 .full)).WellFormed :=
    folder.insert rfl (by decide) (by intro access h; cases h)
  exact file.insert rfl (by decide) (by intro access h; cases h)

theorem Disk.wellFormed_greeting : Disk.greeting.WellFormed := by
  have folder : (Disk.sources.insert ["dev"] (.directory .full)).WellFormed :=
    Disk.wellFormed_sources.insert rfl (by decide) (by intro access h; cases h)
  exact folder.insert rfl (by decide) (by intro access h; cases h)

/-- The plan of a run on that disk. -/
def Plan.greeting (catalog : String) : Plan :=
  ⟨"T", ⟨"/src"⟩, ⟨"/out"⟩, ⟨catalog⟩, "en", ⟨[], []⟩⟩

/-- What the run returns. -/
def RunSummary.greeting (catalog : String) : RunSummary :=
  ⟨⟨[⟨"Hello world", ⟨"a.lua", 1⟩⟩]⟩, ⟨catalog⟩, ⟨"/out"⟩, 1, 1, 2, 1, 1, 2⟩

/-- Carries out such a run with an operator who approves of every sentence. -/
def Session.greeting (catalog : String) : Except Failure Outcome × Session.State Unit :=
  Session.exec (Command.carryOut id (fun _ => pure (.ok true)) (.greeting catalog))
    ((), World.ofDisk .greeting [])

theorem Plan.clear_greeting {catalog : String} (hdirect : (Path.mk catalog).IsDirect) :
    (Plan.greeting catalog).Clear .greeting ["out"] := by
  have noLinks : ∀ item ∈ Disk.greeting.nodes, item.2.kind ≠ .link := by decide +kernel
  have noLink : ∀ place node, Disk.greeting.get? place = some node → ¬ node.IsLink :=
    fun place node found isLink =>
      noLinks _ (Disk.wellFormed_greeting.mem_nodes_iff.mpr found) (Node.kind_eq_link.mpr isLink)
  have apart : Disk.greeting.Apart (Location.path ["src"]) ["out"] :=
    Disk.apart_of_linkFree Disk.wellFormed_greeting ⟨.full, rfl⟩
      (fun place node _ => noLink place node) (by decide) (by decide)
  exact ⟨by decide, rfl, fun place _ _ => noLink place, .inl rfl, apart, hdirect,
    fun place _ _ => noLink place⟩

/-- A run delivers the text and the other file to a new directory. -/
theorem delivered_greeting :
    (Session.greeting "/lang.lua").1 = .ok ⟨.run (.greeting "/lang.lua"), [], .success⟩ ∧
      (Plan.greeting "/lang.lua").Delivered .greeting (Session.greeting "/lang.lua").2.disk
        (.greeting "/lang.lua") := by
  have ran : (Session.greeting "/lang.lua").1 =
      .ok ⟨.run (.greeting "/lang.lua"), [], .success⟩ := by
    decide +kernel
  exact ⟨ran, delivered_of_carryOut id (fun _ => pure (.ok true)) (fun _ _ => rfl)
    (.greeting "/lang.lua") ["out"] ((), World.ofDisk .greeting []) Disk.wellFormed_greeting
    (Plan.clear_greeting ⟨by decide +kernel, by decide +kernel⟩) _ _ ran⟩

/-- A run that ends well and without issues has left no catalog in its file if that is a device. -/
theorem catalog_lost_in_device :
    (Plan.greeting "/dev/null").Clear .greeting ["out"] ∧
      (Plan.greeting "/dev/null").catalogFile.startsWith
        (Plan.greeting "/dev/null").sourceRoot = false ∧
      (Session.greeting "/dev/null").1 = .ok ⟨.run (.greeting "/dev/null"), [], .success⟩ ∧
      ¬ ∃ access, (Session.greeting "/dev/null").2.disk.get?
          (Plan.greeting "/dev/null").catalogFile.location =
        some (.file ((RunSummary.greeting "/dev/null").catalog.toLua "T" "en").toUTF8 access) := by
  refine ⟨Plan.clear_greeting ⟨by decide +kernel, by decide +kernel⟩, by decide +kernel,
    by decide +kernel, ?_⟩
  rintro ⟨access, found⟩
  have isDevice : ((Session.greeting "/dev/null").2.disk.get?
      (Plan.greeting "/dev/null").catalogFile.location).map Node.kind = some .special := by
    decide +kernel
  rw [found] at isDevice
  cases isDevice

end Phrasebook
