import Phrasebook.Proofs.Naturality
import Phrasebook.Proofs.SourceKept
import Phrasebook.Proofs.ThreadedWalk

/-!
# A copy beside those who look at the source

While a tree is copied, someone else may look at it, step by step and in any order. Main statement: if
paths below the source look at nothing that the copy adds or replaces, then whatever the order, the
copy makes only what a walk of the source reports in the beginning, and both threads end as they end
alone.
-/

namespace Phrasebook

namespace Plan

variable {plan : Plan} {disk now : Disk}

/-- A copy belongs at the place: a directory on the way to the output directory, or what a walk of the
    source reports at the same names. -/
inductive Target (plan : Plan) (disk : Disk) : Location → EntryKind → Prop where
  | way {place} : place <:+ plan.outputDir.location → Target plan disk place .directory
  | entry {names kind} : Path.AreNames names → kind = .directory ∨ kind = .file →
      .entry ⟨plan.sourceRoot.descend names, kind⟩ ∈ Walk.events disk true plan.sourceRoot →
      Target plan disk (names.reverse ++ plan.outputDir.location) kind

/-- What belongs somewhere belongs into directories. -/
theorem Target.above (hdisk : disk.WellFormed) {place above : Location} {kind : EntryKind}
    (h : plan.Target disk place kind) (habove : above <:+ place) :
    above = place ∨ plan.Target disk above .directory := by
  cases h with
  | way onWay => exact .inr (.way (habove.trans onWay))
  | @entry names _ hnames _ reported =>
    rcases List.suffix_or_suffix_of_suffix habove (List.suffix_append _ _) with onWay | further
    · exact .inr (.way onWay)
    · obtain ⟨more, rfl⟩ := further
      -- The names on the way are a first part of all names.
      obtain ⟨rest, hrest⟩ := habove
      rw [← List.append_assoc, List.append_left_inj] at hrest
      have hsplit : names = more.reverse ++ rest.reverse := by
        rw [← List.reverse_append, hrest, List.reverse_reverse]
      by_cases hne : rest = []
      · subst hne
        exact .inl (by rw [← hrest, List.nil_append])
      · refine .inr ?_
        rw [hsplit] at hnames reported
        have directory := Walk.directory_of_mem_events hdisk hnames (by simpa using hne) reported
        have target := Target.entry (Path.areNames_append.mp hnames).1 (.inl rfl) directory
        rwa [List.reverse_reverse] at target

/-- At the place something is added or a file is replaced by a copy. -/
def Fills (plan : Plan) (disk : Disk) (place : Location) : Prop :=
  ∃ kind, plan.Target disk place kind ∧
    (disk.get? place = none ∨
      kind = .file ∧ ∃ node, disk.get? place = some node ∧ node.IsFile)

/-- The source keeps clear of its copy: neither `..` nor a link is on the paths where the copy
    belongs, and no path below the source looks at something that the copy adds or replaces. -/
structure Detached (plan : Plan) (disk : Disk) : Prop where
  output : .up ∉ plan.outputDir.components
  noLink : ∀ place kind, plan.Target disk place kind → ∀ node, disk.get? place = some node →
    ¬ node.IsLink
  unseen : ∀ place, disk.Sees plan.sourceRoot place → ¬ plan.Fills disk place

/-- What a copy of the source may write: the directories that a walk of it reports, with those above
    them, and the files. -/
def Copies (plan : Plan) (disk : Disk) (path : Path) (node : Node) : Prop :=
  ∃ names, Path.AreNames names ∧
    ((.entry ⟨plan.sourceRoot.descend names, .directory⟩ ∈
          Walk.events disk true plan.sourceRoot ∧
        Path.Above path (plan.outputDir.descend names) ∧ node = .directory .full) ∨
      (.entry ⟨plan.sourceRoot.descend names, .file⟩ ∈ Walk.events disk true plan.sourceRoot ∧
        path = plan.outputDir.descend names ∧ node.IsFile))

/-- What is written belongs where its path says. -/
theorem Copies.target (hdisk : disk.WellFormed) (houtput : plan.outputDir.IsDirect) {path : Path}
    {node : Node} (h : plan.Copies disk path node) :
    path.IsDirect ∧ plan.Target disk path.location node.kind := by
  obtain ⟨names, hnames, ⟨reported, above, rfl⟩ | ⟨reported, rfl, isFile⟩⟩ := h
  · obtain ⟨direct, onWay⟩ := above.isDirect (houtput.descend hnames)
    rw [Path.location_descend _ hnames] at onWay
    have target := Target.entry hnames (.inl rfl) reported
    refine ⟨direct, ?_⟩
    rcases target.above hdisk onWay with same | directory
    · exact same ▸ target
    · exact directory
  · rw [Path.location_descend _ hnames, Node.kind_eq_file.mpr isFile]
    exact ⟨houtput.descend hnames, .entry hnames (.inr rfl) reported⟩

section

variable (hdisk : disk.WellFormed) (houtput : plan.outputDir.IsDirect)
  (hdetached : plan.Detached disk)

include hdisk houtput hdetached

theorem Copies.linkFree {path : Path} {node : Node} (h : plan.Copies disk path node) :
    disk.LinkFree [] path.location := by
  obtain ⟨-, target⟩ := h.target hdisk houtput
  intro place _ onWay node found
  rcases target.above hdisk onWay with rfl | directory
  · exact hdetached.noLink _ _ target node found
  · exact hdetached.noLink _ _ directory node found

/-- While the copy is made, what changes belongs there. -/
theorem target_of_grows (hgrows : disk.Grows (plan.Copies disk) now) {place : Location}
    (hchanged : now.get? place ≠ disk.get? place) :
    ∃ node, now.get? place = some node ∧ plan.Target disk place node.kind := by
  obtain ⟨path, node, copies, rfl, found⟩ := hgrows.location_eq
    (fun path node copies => ⟨(copies.target hdisk houtput).1,
      copies.linkFree hdisk houtput hdetached⟩) hchanged
  exact ⟨node, found, (copies.target hdisk houtput).2⟩

/-- While the copy is made, nothing changes where paths below the source look. -/
theorem agreesBelow_of_grows (hgrows : disk.Grows (plan.Copies disk) now) :
    disk.AgreesBelow plan.sourceRoot now := by
  refine ⟨hgrows.extends.here, fun place hsees => ?_⟩
  by_contra changed
  obtain ⟨node, found, target⟩ := target_of_grows hdisk houtput hdetached hgrows changed
  refine hdetached.unseen place hsees ⟨node.kind, target, ?_⟩
  -- A growing disk changes what stands somewhere only by putting a file in place of a file.
  cases before : disk.get? place with
  | none => exact .inl rfl
  | some old =>
    rcases hgrows.extends.kept place old before with same | ⟨oldFile, node', found', isFile⟩
    · exact absurd (same.trans before.symm) changed
    · obtain rfl := Option.some.inj (found.symm.trans found')
      exact .inr ⟨Node.kind_eq_file.mpr isFile, old, rfl, oldFile⟩

/-- While the copy is made, the source looks to a walk as it did in the beginning. -/
theorem looks_of_grows {may : Disk → Disk → Prop}
    (hstay : ∀ now, disk.Grows (plan.Copies disk) now → may now now) :
    Threaded.Looks (disk.Grows (plan.Copies disk)) may plan.sourceRoot disk where
  wellFormed := hdisk
  stay := hstay
  alike _ hgrows :=
    (agreesBelow_of_grows hdisk houtput hdetached hgrows).alike hdisk (hgrows.wellFormed hdisk)

end

end Plan

namespace Threaded

variable {σ α β : Type} {plan : Plan} {disk : Disk}

/-- The jobs are to copy files that a walk of the source reports. -/
def AreJobs (plan : Plan) (disk : Disk) (state : TreeCopy.State) : Prop :=
  ∀ job ∈ state.jobs, ∃ names, Path.AreNames names ∧
    .entry ⟨plan.sourceRoot.descend names, .file⟩ ∈ Walk.events disk true plan.sourceRoot ∧
    job.target = plan.outputDir.descend names

section

variable (hdisk : disk.WellFormed) (houtput : plan.outputDir.IsDirect)
  (hdetached : plan.Detached disk)

include hdisk

/-- At an event a copy makes the directory that is reported, or notes the file. -/
theorem does_onEvent_copy {event : Walk.Event}
    (hevent : event ∈ Walk.events disk true plan.sourceRoot) {state : TreeCopy.State}
    (hjobs : AreJobs plan disk state) :
    Does (disk.Grows (plan.Copies disk)) (Disk.Grows (plan.Copies disk))
      (TreeCopy.onEvent plan.sourceRoot plan.outputDir state event : Threaded σ _)
      fun visited => AreJobs plan disk visited.1 := by
  cases event with
  | trouble trouble => exact does_pure hjobs
  | entry entry =>
    obtain ⟨names, hnames, hpath⟩ := Walk.below_of_mem_events hdisk hevent
    have reported : ∀ kind, entry.kind = kind → .entry ⟨plan.sourceRoot.descend names, kind⟩ ∈
        Walk.events disk true plan.sourceRoot := by
      rintro kind rfl
      exact hpath ▸ hevent
    have hmake : entry.kind = .directory → ∀ above,
        Path.Above above (plan.outputDir.descend names) →
        Does (disk.Grows (plan.Copies disk)) (Disk.Grows (plan.Copies disk))
          (Storage.makeDirectory above : Threaded σ _) fun _ => True :=
      fun isDirectory above habove => does_change (fun _ _ => .refl) fun _ _ _ made =>
        Disk.grows_of_makeDirectory
          ⟨names, hnames, .inl ⟨reported .directory isDirectory, habove, rfl⟩⟩ made
    have visited := (rules σ _ _).onEvent_copy
      (fun path => does_inspect (·.kind path) fun _ _ => .refl) hnames hpath hmake state
    intro own
    refine (visited own).mono fun ended hended job hmem => ?_
    rcases hended job hmem with before | ⟨isFile, -, same⟩
    · exact hjobs job before
    · exact ⟨names, hnames, reported .file isFile, same⟩

include houtput hdetached

/-- Beside others who leave the disk alone, a copy writes only what a walk of the source reports in
    the beginning. -/
theorem does_copyTree :
    Does (disk.Grows (plan.Copies disk)) (Disk.Grows (plan.Copies disk))
      (copyTree plan.sourceRoot plan.outputDir : Threaded σ _) fun _ => True := by
  have looks : Looks (disk.Grows (plan.Copies disk)) (Disk.Grows (plan.Copies disk))
      plan.sourceRoot disk := Plan.looks_of_grows hdisk houtput hdetached fun _ _ => .refl
  have walked : Does (disk.Grows (plan.Copies disk)) (Disk.Grows (plan.Copies disk))
      (Walk.walk true plan.sourceRoot (TreeCopy.onEvent plan.sourceRoot plan.outputDir)
        ⟨⟨0, 0, []⟩, [], []⟩ : Threaded σ _) fun progress => AreJobs plan disk progress.state :=
    does_walk looks true (fun _ _ hevent hjobs => does_onEvent_copy hdisk hevent hjobs)
      (fun _ hmem => by simp at hmem)
  rw [copyTree]
  refine walked.bind fun progress hjobs => ?_
  refine (rules σ _ _).copyAll (fun job hmem => ?_) progress.state.done
  obtain ⟨names, hnames, reported, same⟩ := hjobs job hmem
  refine does_change (fun _ _ => .refl) fun now later hgrows copied => ?_
  exact Disk.grows_of_copy (fun node isFile => ⟨names, hnames, .inr ⟨reported, same, isFile⟩⟩)
    (hgrows.wellFormed hdisk) copied

end

/-- The result of a program that runs beside nobody else, and the world it leaves. -/
def runAlone (program : Threaded σ α) : Session σ α := fun own world =>
  let ended := (program own).run world.disk
  (ended.1, { world with disk := ended.2 })

theorem runAlone_bind (program : Threaded σ α) (next : α → Threaded σ β) :
    runAlone (program >>= next) = runAlone program >>= fun value => runAlone (next value) := by
  funext own world
  have parts : ((program >>= next) own).run world.disk = _ :=
    Thread.run_bind (program own) (fun ended => next ended.1 ended.2) world.disk
  rw [runAlone, parts]
  rfl

theorem runAlone_change (f : Disk → Except OsError Disk) :
    runAlone (StateT.lift (Thread.change f) : Threaded σ _) = StateT.lift (World.change f) := by
  funext own world
  have lifted : (StateT.lift (World.change f) : Session σ _) own world =
      (((World.change f world).1, own), (World.change f world).2) := rfl
  have changed : ((StateT.lift (Thread.change f) : Threaded σ _) own).run world.disk =
      (((f world.disk).map fun _ => (), own), (f world.disk).toOption.getD world.disk) := rfl
  rw [lifted, runAlone, changed, World.change]
  cases f world.disk <;> rfl

/-- Programs that run beside nobody else do the same operations in a session. -/
def alone (σ : Type) : Translation (Threaded σ) (Session σ) where
  map := runAlone
  pure _ := rfl
  bind := runAlone_bind
  kind _ := rfl
  entryKind _ := rfl
  list _ := rfl
  identify _ := rfl
  read _ := rfl
  write path bytes := runAlone_change (·.write path bytes)
  copy source target := runAlone_change (·.copy source target)
  makeDirectory path := runAlone_change (·.makeDirectory path)

theorem run_copyTree (source destination : Path) (own : σ) (world : World) :
    ((copyTree source destination : Threaded σ _) own).run world.disk =
      (let copied := Session.exec (copyTree source destination) (own, world)
      ((copied.1, copied.2.1), copied.2.disk)) := by
  rw [← (alone σ).map_copyTree]
  rfl

end Threaded

namespace Plan

open Thread.Pair

variable {σ α : Type}

/-- A copy of the source and another thread on one disk. -/
def beside (plan : Plan) (disk : Disk) (looker : Thread α) : Thread.Pair (TreeCopied × Unit) α :=
  ⟨disk, (copyTree plan.sourceRoot plan.outputDir : Threaded Unit _) (), looker⟩

/-- A copy of the source and a program that runs beside it come to an end in whatever order they take
    steps. At every moment, what has changed on the disk is what a walk of the source reports in the
    beginning, and stands where its copy belongs. In the end both results and the disk are as if each
    of them had run alone. -/
structure Independent (plan : Plan) (world : World) (own : σ) (looker : Threaded σ α)
    (alone : Session σ α) : Prop where
  ends : Acc (fun later now => Step now later) (plan.beside world.disk (looker own))
  made : ∀ later, Reaches (plan.beside world.disk (looker own)) later →
    ∀ place, later.disk.get? place ≠ world.disk.get? place →
      ∃ node, later.disk.get? place = some node ∧ plan.Target world.disk place node.kind
  same : ∀ later, Reaches (plan.beside world.disk (looker own)) later →
    (∀ next, ¬ Step later next) →
      let copied := Session.exec (copyTree plan.sourceRoot plan.outputDir) ((), world)
      let looked := Session.exec alone (own, world)
      later = ⟨copied.2.disk, .done (copied.1, ()), .done (looked.1, looked.2.1)⟩

/-- A program that leaves the disk alone and ends in the same way wherever the copy stands is
    independent of it. -/
theorem independent_of_settles {plan : Plan} {world : World} (hdisk : world.disk.WellFormed)
    (houtput : plan.outputDir.IsDirect) (hdetached : plan.Detached world.disk)
    {looker : Threaded σ α} {alone : Session σ α}
    (hlooker : Threaded.Settles (world.disk.Grows (plan.Copies world.disk))
      (fun disk later => later = disk) looker fun _ => True)
    (halone : (Threaded.alone σ).map looker = alone) (own : σ) :
    plan.Independent world own looker alone := by
  subst halone
  have keeps : ∀ disk later, world.disk.Grows (plan.Copies world.disk) disk →
      disk.Grows (plan.Copies world.disk) later →
      world.disk.Grows (plan.Copies world.disk) later := fun _ _ => .trans
  have compatible : Compatible (world.disk.Grows (plan.Copies world.disk))
      (Disk.Grows (plan.Copies world.disk)) (fun _ => True)
      (· = ((looker own).run world.disk).1) (plan.beside world.disk (looker own)) :=
    ⟨.refl, Threaded.does_copyTree hdisk houtput hdetached (),
      hlooker.eq_run own (fun _ _ sofar same => same ▸ sofar) .refl⟩
  refine ⟨acc_step _, fun later reaches place changed => ?_, fun later reaches stuck => ?_⟩
  · obtain ⟨⟨grows, -, -⟩, -⟩ := compatible.reaches keeps reaches
    exact target_of_grows hdisk houtput hdetached grows changed
  · -- Steps of the looker leave the disk alone, so the copy has still to do what it does alone.
    obtain ⟨⟨-, -, looked⟩, copied⟩ := compatible.reaches keeps reaches
    obtain ⟨disk, first, second⟩ := later
    obtain ⟨result, result', rfl, rfl⟩ := done_of_no_step stuck
    have copying : ((copyTree plan.sourceRoot plan.outputDir : Threaded Unit _) ()).run world.disk =
        (result, disk) := copied.symm
    rw [Threaded.run_copyTree] at copying
    obtain ⟨rfl, rfl⟩ := Prod.mk.inj copying
    obtain rfl : result' = ((looker own).run world.disk).1 := looked
    rfl

/-- Without `..` in the output directory and without links at the source, at the output directory, on
    the way to them and below them, the source keeps clear of its copy. -/
theorem Settled.detached {plan : Plan} {disk : Disk} (h : plan.Settled disk)
    (hdisk : disk.WellFormed) (houtput : .up ∉ plan.outputDir.components)
    (hlink : ∀ place node, Disk.Along plan.sourceRoot.location place ∨
      Disk.Along plan.outputDir.location place → disk.get? place = some node → ¬ node.IsLink) :
    plan.Detached disk := by
  have along : ∀ place kind, plan.Target disk place kind →
      Disk.Along plan.outputDir.location place := by
    intro place kind target
    cases target with
    | way onWay => exact .inl onWay
    | entry => exact .inr (List.suffix_append _ _)
  obtain ⟨source, hsource, hholds⟩ := h.source
  obtain ⟨access, found⟩ := hholds
  have location : plan.sourceRoot.location = source := by
    rw [hsource, Location.location_path (hdisk.areNames found)]
  obtain ⟨notInside, notAround⟩ := h.outside hdisk ⟨h.outputAbsolute, houtput⟩
  rw [location] at notInside notAround hlink
  refine ⟨houtput, fun place kind target node => hlink place node (.inr (along _ _ target)), ?_⟩
  rintro place sees ⟨kind, target, fills⟩
  rw [hsource] at sees
  obtain ⟨access', holds⟩ := Disk.holds_of_sees hdisk ⟨access, found⟩
    (fun place node onWay => hlink place node (.inl onWay)) notInside notAround sees
    (along _ _ target)
  rcases fills with absent | ⟨-, node, there, isFile⟩
  · simp [holds] at absent
  · obtain rfl := Option.some.inj (holds.symm.trans there)
    simp at isFile

end Plan

/-- After a run has been settled, the source folder may be copied while its texts are visited or its
    sentences are put to an operator, by someone who goes by a state of their own: if the source
    keeps clear of its copy, the two are independent. That is the case if no `..` is on the path of
    the output directory and no link on the way to it, below it or in the source folder. -/
theorem copy_independent (theme : Theme) (options : CommandLine.RunOptions) (config : Config)
    (world world' : World) (plan : Plan) (hdisk : world.disk.WellFormed)
    (hsettle : ((Plan.settle theme options config).run : StateM World (Except Failure Plan)) world =
      (.ok plan, world')) :
    (plan.Detached world.disk →
      (∀ {σ τ ε : Type} (visit : τ → String → String → σ → (τ × Option ε) × σ) (kept : τ) (own : σ),
        plan.Independent world' own
          (survey plan.sourceRoot plan.filter
            (fun kept file text => modifyGet (visit kept file text)) kept)
          (survey plan.sourceRoot plan.filter
            (fun kept file text => modifyGet (visit kept file text)) kept)) ∧
      (∀ {σ ε : Type} (confirm : Request → σ → Except ε Bool × σ) (asked : Asked) (own : σ),
        plan.Independent world' own
          (reviewTree (fun request => modifyGet (confirm request)) plan.sourceRoot plan.filter asked)
          (reviewTree (fun request => modifyGet (confirm request)) plan.sourceRoot plan.filter
            asked))) ∧
    (.up ∉ plan.outputDir.components →
      (∀ place node, Disk.Along plan.sourceRoot.location place ∨
        Disk.Along plan.outputDir.location place → world.disk.get? place = some node →
          ¬ node.IsLink) →
      plan.Detached world.disk) := by
  have kept := Plan.keepsOk_settle theme options config world rfl
  rw [hsettle] at kept
  have settled : plan.Settled world.disk := kept.2 plan rfl
  have same : world'.disk = world.disk := kept.1
  refine ⟨fun detached => ?_, fun noUp noLink => settled.detached hdisk noUp noLink⟩
  rw [← same] at hdisk detached
  have output : plan.outputDir.IsDirect := ⟨settled.outputAbsolute, detached.output⟩
  have looks : Threaded.Looks (world'.disk.Grows (plan.Copies world'.disk))
      (fun disk later => later = disk) plan.sourceRoot world'.disk :=
    Plan.looks_of_grows hdisk output detached fun _ _ => rfl
  have hread : ∀ now, world'.disk.Grows (plan.Copies world'.disk) now →
      ∀ path, Walk.Below plan.sourceRoot path → now.read path = world'.disk.read path := by
    rintro now grows path ⟨names, hnames, rfl⟩
    exact (Plan.agreesBelow_of_grows hdisk output detached grows).read_eq hnames
  constructor
  · intro σ τ ε visit kept own
    refine Plan.independent_of_settles hdisk output detached
      (Threaded.settles_survey looks hread (fun kept file text => ?_) plan.filter kept)
      ((Threaded.alone σ).map_survey ..) own
    exact Threaded.settles_modifyGet (visit kept file text)
  · intro σ ε confirm asked own
    refine Plan.independent_of_settles hdisk output detached
      (Threaded.settles_reviewTree looks hread (fun request => ?_) plan.filter asked)
      ((Threaded.alone σ).map_reviewTree ..) own
    exact Threaded.settles_modifyGet (confirm request)

/-- Approves a request and notes it. -/
def Request.approve (request : Request) (log : List Request) : Except Failure Bool × List Request :=
  (.ok true, log ++ [request])

/-- The disk of the sample with a sentence in a second file of the folder. -/
def Disk.spoken : Disk :=
  Disk.sample.insert ["b.lua", "src"] (.file "print(\"Hello world\")\n".toUTF8 .full)

theorem Disk.wellFormed_spoken : Disk.spoken.WellFormed :=
  Disk.wellFormed_sample.insert rfl (by decide) (by intro access h; cases h)

/-- The requests that a review of the source puts to an operator who approves everything. -/
def Plan.requests (plan : Plan) (world : World) : List Request :=
  (Session.exec (reviewTree (fun request => modifyGet request.approve) plan.sourceRoot plan.filter
    .empty) ([], world)).2.1

/-- A folder may be copied into a new directory beside it while the sentence it holds is put to an
    operator. -/
theorem copy_independent_beside :
    (Plan.settleOn .spoken (.sample "/out" "/lang.lua" false)).1 =
        .ok (.sample "/out" "/lang.lua") ∧
      ((Plan.sample "/out" "/lang.lua").requests
        (Plan.settleOn .spoken (.sample "/out" "/lang.lua" false)).2).map (·.content) =
          ["Hello world"] ∧
      (Plan.sample "/out" "/lang.lua").Independent
        (Plan.settleOn .spoken (.sample "/out" "/lang.lua" false)).2 []
        (reviewTree (fun request => modifyGet request.approve) ⟨"/src"⟩ ⟨[], []⟩ .empty)
        (reviewTree (fun request => modifyGet request.approve) ⟨"/src"⟩ ⟨[], []⟩ .empty) := by
  have settled : (Plan.settleOn .spoken (.sample "/out" "/lang.lua" false)).1 =
      .ok (.sample "/out" "/lang.lua") := by
    decide +kernel
  have both : Plan.settleOn .spoken (.sample "/out" "/lang.lua" false) =
      (.ok (.sample "/out" "/lang.lua"),
        (Plan.settleOn .spoken (.sample "/out" "/lang.lua" false)).2) := by
    rw [← settled]
  have noLinks : ∀ item ∈ Disk.spoken.nodes, item.2.kind ≠ .link := by decide +kernel
  obtain ⟨independent, detached⟩ := copy_independent ⟨false⟩ (.sample "/out" "/lang.lua" false)
    .default (World.ofDisk .spoken []) _ _ Disk.wellFormed_spoken both
  refine ⟨settled, by decide +kernel,
    (independent (detached (by decide +kernel) ?_)).2 Request.approve .empty []⟩
  intro place node _ found isLink
  exact noLinks _ (Disk.wellFormed_spoken.mem_nodes_iff.mpr found) (Node.kind_eq_link.mpr isLink)

/-- A disk with a source folder that holds a file in a directory, and a link to an empty directory
    outside. -/
def Disk.looped : Disk :=
  ((((Disk.empty.insert ["src"] (.directory .full)).insert ["d", "src"] (.directory .full)).insert
    ["a.lua", "d", "src"] (.file "print(1)\n".toUTF8 .full)).insert
    ["l", "src"] (.link "../out")).insert ["out"] (.directory .full)

/-- What a survey of the source hands to its visitor. -/
def Plan.visits (plan : Plan) (world : World) : List (String × String) :=
  (Session.exec (survey plan.sourceRoot plan.filter
    (fun kept file text => modifyGet fun log => ((kept, (none : Option Empty)), log ++ [(file, text)]))
    ()) ([], world)).2.1

/-- The world after the source has been copied. -/
def Plan.copied (plan : Plan) (world : World) : World :=
  (Session.exec (copyTree plan.sourceRoot plan.outputDir) ((), world)).2.2

/-- A link in the source folder to the output directory makes the copy feed on itself: it makes a
    directory that no walk of the source has reported in the beginning, and the files that a survey
    visits after the copy are not those that it visits before. -/
theorem copy_feeds_on_itself :
    ∃ plan, (Plan.settleOn .looped (.sample "/out" "/lang.lua" false)).1 = .ok plan ∧
      (let world := (Plan.settleOn .looped (.sample "/out" "/lang.lua" false)).2
      (∃ place, (plan.copied world).disk.get? place ≠ world.disk.get? place ∧
        ∀ kind, ¬ plan.Target world.disk place kind) ∧
      plan.visits (plan.copied world) ≠ plan.visits world) := by
  refine ⟨.sample "/out" "/lang.lua", by decide +kernel, ⟨["d", "l", "out"], ?_, ?_⟩, ?_⟩
  · intro same
    have := congrArg (Option.map Node.kind) same
    revert this
    decide +kernel
  · intro kind target
    generalize hplace : ["d", "l", "out"] = place at target
    cases target with
    | way onWay =>
      subst hplace
      revert onWay
      decide +kernel
    | @entry names _ _ _ reported =>
      have output : (Plan.sample "/out" "/lang.lua").outputDir.location = ["out"] := by
        decide +kernel
      rw [output] at hplace
      obtain rfl : names = ["l", "d"] := by
        have := @List.append_cancel_right _ ["d", "l"] ["out"] names.reverse hplace
        rw [← List.reverse_reverse names, ← this]
        rfl
      have among : (Path.mk "/src").descend ["l", "d"] ∈
          (Walk.entries (Walk.events Disk.looped true ⟨"/src"⟩)).map (·.path) :=
        List.mem_map_of_mem (Walk.mem_entries.mpr reported)
      revert among
      decide +kernel
  · decide +kernel

end Phrasebook
