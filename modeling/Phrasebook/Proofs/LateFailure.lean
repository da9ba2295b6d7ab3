import Phrasebook.Proofs.Disk.Intake
import Phrasebook.Proofs.SourceKept
import Phrasebook.Proofs.Survey

/-!
# Runs that fail late

A run with an operator who never fails can fail only at the catalog, which is written last, when the
copy is there already. Main statement: it fails exactly if the disk with the copy does not take the
catalog file, and away from the output directory that can be told before anything is written.
-/

namespace Phrasebook

namespace Session

variable {σ ε : Type}

/-! ## Making directories -/

theorem exec_makeTopmost_there {location : Location} (hnames : Path.AreNames location)
    (hshort : location.path.text.utf8ByteSize < Disk.pathLimit) {state : State σ}
    (hreaches : state.disk.reaches location = true) (hholds : state.disk.Holds location) :
    exec (Storage.makeTopmost (location.tails.map Location.path)) state = (.ok [], state) := by
  cases location with
  | nil => rfl
  | cons name parent =>
    obtain ⟨made, directory⟩ :=
      Disk.makeDirectory_there hnames (by simp) hshort hreaches hholds
    rw [List.tails_cons, List.map_cons, Storage.makeTopmost, Location.isEmpty_path,
      Location.parent?_path_cons hnames]
    simp only [Option.isNone_some, Bool.or_false, Bool.false_eq_true, if_false]
    rw [exec_bind, exec_makeDirectory, made]
    simp only [attempt]
    rw [Storage.isDirectory, exec_bind, exec_bind, exec_kind, directory]
    rfl

theorem exec_makeEach_append (first rest : List Path) {state between : State σ}
    (h : exec (Storage.makeEach first) state = (.ok (), between)) :
    exec (Storage.makeEach (first ++ rest)) state = exec (Storage.makeEach rest) between := by
  induction first generalizing state with
  | nil =>
    obtain rfl := (Prod.mk.inj h).2
    rfl
  | cons path first ih =>
    rw [List.cons_append, Storage.makeEach, exec_bind]
    rw [Storage.makeEach, exec_bind] at h
    generalize exec (Storage.makeDirectory path) state = made at h ⊢
    obtain ⟨made | made, state'⟩ := made
    · cases made with
      | alreadyThere =>
        simp only at h ⊢
        rw [exec_bind] at h ⊢
        split at h
        · next isDirectory =>
          rw [if_pos isDirectory]
          exact ih h
        · cases (Prod.mk.inj h).1
      | noEntry | denied | notDirectory | isDirectory | tooManyLinks | nameTooLong | other =>
        cases (Prod.mk.inj h).1
    · exact ih h

/-- The directories that are missing on the way are made one after the other. -/
theorem exec_makeTopmost_missing {location : Location} (hnames : Path.AreNames location)
    (hshort : location.path.text.utf8ByteSize < Disk.pathLimit) {state : State σ}
    (absent : state.disk.get? location = none) (hadmits : state.disk.admits location = true) :
    ∃ missing between after,
      exec (Storage.makeTopmost (location.tails.map Location.path)) state =
        (.ok missing, between) ∧
      exec (Storage.makeEach missing.reverse) between = (.ok (), after) ∧
      after.disk.get? location = some (.directory .full) ∧ after.disk.reaches location = true ∧
      ∀ place, ¬ place <:+ location → after.disk.get? place = state.disk.get? place := by
  induction location with
  | nil => simp [Disk.admits] at hadmits
  | cons name parent ih =>
    obtain ⟨hname, hparent⟩ := Path.areNames_cons.mp hnames
    obtain ⟨short, isOpen | ⟨missing, above⟩⟩ := Disk.admits_cons.mp hadmits
    all_goals
      rw [List.tails_cons, List.map_cons, Storage.makeTopmost, Location.isEmpty_path,
        Location.parent?_path_cons hnames]
      simp only [Option.isNone_some, Bool.or_false, Bool.false_eq_true, if_false]
      rw [exec_bind, exec_makeDirectory]
    · rw [Disk.makeDirectory_vacant hnames hshort short isOpen absent]
      refine ⟨[], _, _, rfl, rfl, Disk.get?_insert_self .., ?_, fun place hne => ?_⟩
      · exact (Disk.extends_insert (.inl absent)).reaches
          (Disk.reaches_cons.mpr ⟨short, isOpen.enters, isOpen.reaches⟩)
      · refine Disk.get?_insert_of_ne _ _ ?_
        rintro rfl
        exact hne (List.suffix_refl _)
    · obtain ⟨paths, between, after, topmost, each, made, reached, kept⟩ :=
        ih hparent (Nat.lt_of_le_of_lt (Location.size_path_le hnames) hshort) missing above
      have absent' : after.disk.get? (name :: parent) = none :=
        (kept _ (Location.not_cons_suffix name parent)).trans absent
      have isOpen : after.disk.Open parent := ⟨⟨.full, made, rfl⟩, ⟨.full, made, rfl⟩, reached⟩
      have last : exec (Storage.makeEach [Location.path (name :: parent)]) after =
          (.ok (), after.setDisk (after.disk.insert (name :: parent) (.directory .full))) := by
        rw [Storage.makeEach, exec_bind, exec_makeDirectory,
          Disk.makeDirectory_vacant hnames hshort short isOpen absent']
        rfl
      rw [Disk.makeDirectory_missing hnames hshort missing above]
      simp only [attempt]
      rw [exec_bind, topmost]
      refine ⟨Location.path (name :: parent) :: paths, between,
        after.setDisk (after.disk.insert (name :: parent) (.directory .full)), rfl, ?_,
        Disk.get?_insert_self .., ?_, fun place hne => ?_⟩
      · rw [List.reverse_cons, exec_makeEach_append _ _ each, last]
      · exact (Disk.extends_insert (.inl absent')).reaches
          (Disk.reaches_cons.mpr ⟨short, isOpen.enters, isOpen.reaches⟩)
      · have other : place ≠ name :: parent := by
          rintro rfl
          exact hne (List.suffix_refl _)
        rw [State.disk_setDisk, Disk.get?_insert_of_ne _ _ other]
        exact kept place fun suffix => hne (suffix.trans (List.suffix_cons _ _))

/-- A directory that is there, or that can be put there, is there after it has been made. -/
theorem exec_makeDirectories {location : Location} (hnames : Path.AreNames location)
    (hshort : location.path.text.utf8ByteSize < Disk.pathLimit) {state : State σ}
    (h : (state.disk.Holds location ∧ state.disk.reaches location = true) ∨
      (state.disk.get? location = none ∧ state.disk.admits location = true)) :
    ∃ after, exec (Storage.makeDirectories location.path) state = (.ok (), after) ∧
      after.disk.Holds location := by
  rw [Storage.makeDirectories, exec_bind, Location.ancestors_path hnames]
  rcases h with ⟨holds, reached⟩ | ⟨absent, admitted⟩
  · rw [exec_makeTopmost_there hnames hshort reached holds]
    exact ⟨state, rfl, holds⟩
  · obtain ⟨missing, between, after, topmost, each, made, -, -⟩ :=
      exec_makeTopmost_missing hnames hshort absent admitted
    rw [topmost]
    exact ⟨after, each, .full, made⟩

/-! ## Writing the catalog -/

/-- The bytes of the catalog file. -/
def catalogBytes (plan : Plan) (catalog : Catalog) : ByteArray :=
  (catalog.toLua plan.table plan.locale).toUTF8

/-- Writes the catalog where its directory is. -/
def putCatalog (plan : Plan) (catalog : Catalog) : Session σ (Except Failure Unit) := do
  match ← Storage.write plan.catalogFile (catalogBytes plan catalog) with
  | .ok () => return .ok ()
  | .error e => return .error (.catalogUnwritable plan.catalogFile e)

theorem exec_putCatalog (plan : Plan) (catalog : Catalog) (state : State σ) :
    exec (putCatalog plan catalog) state =
      match state.disk.write plan.catalogFile (catalogBytes plan catalog) with
      | .ok later => (.ok (), state.setDisk later)
      | .error e => (.error (.catalogUnwritable plan.catalogFile e), state) := by
  rw [putCatalog, exec_bind, exec_write]
  cases state.disk.write plan.catalogFile (catalogBytes plan catalog) <;> rfl

theorem exec_writeCatalog {plan : Plan} {parent : Path} (hparent : plan.catalogFile.parent? = some parent)
    (catalog : Catalog) (state : State σ) :
    exec (Command.writeCatalog plan catalog) state =
      match exec (Storage.makeDirectories parent) state with
      | (.ok (), between) => exec (putCatalog plan catalog) between
      | (.error e, between) => (.error (.directoryNotMade parent e), between) := by
  rw [Command.writeCatalog, hparent]
  simp only
  rw [exec_bind]
  generalize exec (Storage.makeDirectories parent) state = made
  obtain ⟨made | made, between⟩ := made <;> rfl

/-- Making the directory of a file paves the way to it, so that the disk takes the file as before. -/
theorem takes_makeDirectories {name : String} {parent : Location}
    (hnames : Path.AreNames (name :: parent)) {state : State σ} (hdisk : state.disk.WellFormed)
    (hfree : state.disk.LinkFree [] (name :: parent)) :
    let between := (exec (Storage.makeDirectories parent.path) state).2.disk
    between.takes (name :: parent) = state.disk.takes (name :: parent) ∧
      between.LinkFree [] (name :: parent) := by
  intro between
  have hparent := (Path.areNames_cons.mp hnames).2
  have grows : state.disk.Grows (fun path node => Path.Above path parent.path ∧
      node = .directory .full) between :=
    (within_makeDirectories (fun above habove => ⟨habove, rfl⟩) state hdisk).1
  have onWay : ∀ path, Path.Above path parent.path → path.IsDirect ∧ path.location <:+ parent := by
    intro path above
    obtain ⟨isDirect, suffix⟩ := above.isDirect (Location.isDirect_path hparent)
    exact ⟨isDirect, Location.location_path hparent ▸ suffix⟩
  have noLink : ∀ (path : Path) (node : Node), Path.Above path parent.path ∧
      node = .directory .full → path.IsDirect ∧ state.disk.LinkFree [] path.location := by
    intro path node ⟨above, _⟩
    obtain ⟨isDirect, suffix⟩ := onWay path above
    refine ⟨isDirect, fun other above' below => hfree other above' ?_⟩
    exact below.trans (suffix.trans (List.suffix_cons _ _))
  have same : between.get? (name :: parent) = state.disk.get? (name :: parent) := by
    by_contra changed
    obtain ⟨path, node, ⟨above, -⟩, there, -⟩ := grows.location_eq noLink changed
    exact Location.not_cons_suffix name parent (there ▸ (onWay path above).2)
  have paved : Disk.Paved (name :: parent) state.disk between :=
    grows.paved noLink fun _ _ allowed _ => allowed.2
  exact ⟨paved.takes_eq hdisk same, grows.linkFree hfree⟩

theorem writeCatalog_ok_iff_cons {plan : Plan} {name : String} {parent : Location}
    (hnames : Path.AreNames (name :: parent))
    (hfile : plan.catalogFile = Location.path (name :: parent)) (catalog : Catalog)
    {state : State σ} (hdisk : state.disk.WellFormed)
    (hfree : state.disk.LinkFree [] (name :: parent)) :
    (exec (Command.writeCatalog plan catalog) state).1 = .ok () ↔
      state.disk.takes (name :: parent) = true := by
  have up : plan.catalogFile.parent? = some parent.path := by
    rw [hfile, Location.parent?_path_cons hnames]
  obtain ⟨taken, free⟩ := takes_makeDirectories hnames hdisk hfree
  constructor
  · intro succeeded
    rw [exec_writeCatalog up] at succeeded
    generalize exec (Storage.makeDirectories parent.path) state = made at succeeded taken free
    obtain ⟨made | made, between⟩ := made
    · cases succeeded
    · simp only [exec_putCatalog, hfile] at succeeded
      cases written : between.disk.write (Location.path (name :: parent)) (catalogBytes plan catalog)
        with
      | error e =>
        rw [written] at succeeded
        cases succeeded
      | ok later =>
        rw [← taken]
        exact ((Disk.write_eq_ok_iff hnames free _).mp ⟨later, written⟩).2
  · intro takes
    obtain ⟨short, above⟩ := Disk.parent_of_takes takes
    obtain ⟨between, made, holds⟩ := exec_makeDirectories (Path.areNames_cons.mp hnames).2
      (Nat.lt_of_le_of_lt (Location.size_path_le hnames) short) above
    rw [made] at taken free
    obtain ⟨later, written⟩ := (Disk.write_eq_ok_iff hnames free (catalogBytes plan catalog)).mpr
      ⟨holds, taken.trans takes⟩
    rw [exec_writeCatalog up, made]
    simp only [exec_putCatalog, hfile, written]

/-- The catalog is written if and only if the disk takes it. -/
theorem writeCatalog_ok_iff {plan : Plan} {location : Location} (hnames : Path.AreNames location)
    (hfile : plan.catalogFile = location.path) (catalog : Catalog) {state : State σ}
    (hdisk : state.disk.WellFormed) (hfree : state.disk.LinkFree [] location) :
    (exec (Command.writeCatalog plan catalog) state).1 = .ok () ↔
      state.disk.takes location = true := by
  cases location with
  | nil =>
    -- The path of the root has no parent, and a directory stands there.
    obtain ⟨node, root, access, rfl⟩ := hdisk.root
    have up : plan.catalogFile.parent? = none := by rw [hfile, Location.parent?_path_nil]
    have put : Command.writeCatalog plan catalog = (putCatalog plan catalog : Session σ _) := by
      rw [Command.writeCatalog, up]
      rfl
    rw [put, exec_putCatalog, hfile, Disk.write_root hdisk, Disk.takes, root]
    simp
  | cons name parent => exact writeCatalog_ok_iff_cons hnames hfile catalog hdisk hfree

/-- The failure is one of making the directory of the catalog file or of writing the file. -/
def AtCatalog (plan : Plan) (failure : Failure) : Prop :=
  (∃ parent e, plan.catalogFile.parent? = some parent ∧ failure = .directoryNotMade parent e) ∨
    ∃ e, failure = .catalogUnwritable plan.catalogFile e

/-- If the catalog is not written, only directories above it have been made. -/
theorem grows_of_writeCatalog_error {plan : Plan} {catalog : Catalog} {state state' : State σ}
    {failure : Failure} (hdisk : state.disk.WellFormed)
    (hexec : exec (Command.writeCatalog plan catalog) state = (.error failure, state')) :
    AtCatalog plan failure ∧
      state.disk.Grows (fun path node => Path.Above path plan.catalogFile ∧ node = .directory .full)
        state'.disk := by
  have put : ∀ {between : State σ},
      exec (putCatalog plan catalog) between = (.error failure, state') →
        AtCatalog plan failure ∧ state' = between := by
    intro between hput
    rw [exec_putCatalog] at hput
    split at hput
    · cases (Prod.mk.inj hput).1
    · next e _ =>
      obtain ⟨same, rfl⟩ := Prod.mk.inj hput
      exact ⟨.inr ⟨e, (Except.error.inj same).symm⟩, rfl⟩
  cases hparent : plan.catalogFile.parent? with
  | none =>
    rw [Command.writeCatalog, hparent] at hexec
    obtain ⟨atCatalog, rfl⟩ := put hexec
    exact ⟨atCatalog, .refl⟩
  | some parent =>
    have grows : state.disk.Grows
        (fun path node => Path.Above path plan.catalogFile ∧ node = .directory .full)
        (exec (Storage.makeDirectories parent) state).2.disk :=
      (within_makeDirectories (fun above habove => ⟨.parent hparent habove, rfl⟩) state hdisk).1
    rw [exec_writeCatalog hparent] at hexec
    generalize exec (Storage.makeDirectories parent) state = made at hexec grows
    obtain ⟨made | made, between⟩ := made
    · obtain ⟨same, rfl⟩ := Prod.mk.inj hexec
      exact ⟨.inl ⟨parent, made, hparent, (Except.error.inj same).symm⟩, grows⟩
    · obtain ⟨atCatalog, rfl⟩ := put hexec
      exact ⟨atCatalog, grows⟩

/-! ## The part of a run before that -/

/-- All that a run does before it writes the catalog. -/
def fill (confirm : Request → Session σ (Except ε Bool)) (plan : Plan) :
    Session σ (Except ε Catalog) := do
  let (_, reviewed) ← reviewTree confirm plan.sourceRoot plan.filter .empty
  let _ ← copyTree plan.sourceRoot plan.outputDir
  match reviewed with
  | .error e => return .error e
  | .ok reviewed =>
    let _ ← localizeTree plan.outputDir ⟨reviewed.sentences⟩ plan.table
    return .ok ⟨reviewed.sentences⟩

/-- If the operator never fails, a run fails exactly if the catalog is not written. -/
theorem exec_carryOut (lift : Failure → ε) {confirm : Request → Session σ (Except ε Bool)}
    (hconfirm : Steady confirm) (plan : Plan) {state : State σ} (hdisk : state.disk.WellFormed) :
    ∃ catalog,
      let written := exec (Command.writeCatalog plan catalog) (exec (fill confirm plan) state).2
      (∃ failure, written.1 = .error failure ∧
        exec (Command.carryOut lift confirm plan) state = (.error (lift failure), written.2)) ∨
      (∃ outcome, written.1 = .ok () ∧
        exec (Command.carryOut lift confirm plan) state = (.ok outcome, written.2)) := by
  obtain ⟨-, after, approved, reviewEnd, -, reviewed, -⟩ :=
    @Steady.exec_reviewTree _ _ plan.sourceRoot plan.filter _ hconfirm .empty state hdisk
  refine ⟨⟨approved⟩, ?_⟩
  rw [fill, Command.carryOut]
  simp only [exec_bind, reviewed]
  generalize exec (copyTree plan.sourceRoot plan.outputDir) reviewEnd = copied
  obtain ⟨copied, copyEnd⟩ := copied
  generalize exec (localizeTree plan.outputDir ⟨approved⟩ plan.table) copyEnd = localized
  obtain ⟨localized, localEnd⟩ := localized
  simp only [exec_pure]
  generalize exec (Command.writeCatalog plan ⟨approved⟩) localEnd = written
  obtain ⟨written | written, writeEnd⟩ := written
  · exact .inl ⟨written, rfl, rfl⟩
  · exact .inr ⟨_, rfl, rfl⟩

theorem within_fill {confirm : Request → Session σ (Except ε Bool)} (hconfirm : Steady confirm)
    {plan : Plan} {allowed : Path → Node → Prop}
    (hpaths : ∀ names, Path.AreNames names →
      ∀ above, Path.Above above (plan.outputDir.descend names) → allowed above (.directory .full))
    (hfiles : ∀ names, Path.AreNames names →
      ∀ node, node.IsFile → allowed (plan.outputDir.descend names) node) :
    Within allowed (fill confirm plan) fun _ => True := by
  rw [fill]
  refine (within_reviewTree hconfirm.keeps _ _ _).bind fun reviewed _ => ?_
  obtain ⟨asked, reviewed⟩ := reviewed
  refine (within_copyTree hpaths hfiles).bind fun copied _ => ?_
  cases reviewed with
  | error e => exact within_pure trivial
  | ok reviewed =>
    exact (within_localizeTree _ _ hfiles).bind fun localized _ => within_pure trivial

/-- Before the catalog is written, directories are made on the way to the output directory and below
    it, and files are written below it. -/
theorem within_fill_direct {confirm : Request → Session σ (Except ε Bool)}
    (hconfirm : Steady confirm) {plan : Plan} (hdirect : plan.outputDir.IsDirect) :
    Within (Disk.IsSite.Allowed plan.outputDir.location) (fill confirm plan) fun _ => True := by
  refine within_fill hconfirm (fun names hnames above habove => ?_)
    fun names hnames node isFile => ?_
  · obtain ⟨direct, suffix⟩ := habove.isDirect (hdirect.descend hnames)
    rw [Path.location_descend _ hnames] at suffix
    exact ⟨direct, .inl ⟨Disk.along_of_suffix_append suffix, rfl⟩⟩
  · refine ⟨hdirect.descend hnames, .inr ⟨?_, isFile⟩⟩
    rw [Path.location_descend _ hnames]
    exact List.suffix_append _ _

end Session

/-- A run that has been settled, with an operator who never fails, can fail only at the catalog. Then
    all that it does before stays, and no more than directories above the catalog file has been made
    after that. If no `..` and no link is on the paths that are written to, the run fails exactly if
    the disk with the copy does not take the catalog file, and unless the file lies on the way to the
    output directory or in it, that is if the disk did not take it from the start. -/
theorem failed_iff_not_takes {σ ε : Type} (theme : Theme) (options : CommandLine.RunOptions)
    (config : Config) (lift : Failure → ε) (confirm : Request → Session σ (Except ε Bool))
    (hconfirm : Session.Steady confirm) (own : σ) (world world' : World) (plan : Plan)
    (hdisk : world.disk.WellFormed)
    (hsettle : ((Plan.settle theme options config).run : StateM World (Except Failure Plan)) world =
      (.ok plan, world')) :
    let filled := (Session.exec (Session.fill confirm plan) (own, world')).2.disk
    let ended := Session.exec (Command.carryOut lift confirm plan) (own, world')
    (∀ e, ended.1 = .error e →
      (∃ failure, Session.AtCatalog plan failure ∧ e = lift failure) ∧
      filled.Grows (fun path node => Path.Above path plan.catalogFile ∧ node = .directory .full)
        ended.2.disk) ∧
    ∀ catalog : Location, Path.AreNames catalog → plan.catalogFile = catalog.path →
      plan.Straight world.disk →
      ((∃ e, ended.1 = .error e) ↔ filled.takes catalog = false) ∧
      (¬ Disk.Along plan.outputDir.location catalog →
        filled.takes catalog = world.disk.takes catalog) := by
  intro filled ended
  have kept := Plan.keepsOk_settle theme options config world rfl
  rw [hsettle] at kept
  have settled : plan.Settled world.disk := kept.2 plan rfl
  have start : Session.State.disk (own, world') = world.disk := kept.1
  have hdisk' : (Session.State.disk (own, world')).WellFormed := start ▸ hdisk
  have filledWell : filled.WellFormed := by
    have within : Session.Within (fun _ _ => True) (Session.fill confirm plan) fun _ => True :=
      Session.within_fill hconfirm (fun _ _ _ _ => trivial) fun _ _ _ _ => trivial
    exact (within (own, world') hdisk').1.wellFormed hdisk'
  obtain ⟨catalog, outcome⟩ := Session.exec_carryOut lift hconfirm plan hdisk'
  constructor
  · intro e failed
    rcases outcome with ⟨failure, unwritten, ran⟩ | ⟨_, _, ran⟩
    · obtain ⟨atCatalog, grows⟩ := Session.grows_of_writeCatalog_error filledWell
        (Prod.ext unwritten rfl)
      obtain rfl : lift failure = e := Except.error.inj ((congrArg Prod.fst ran).symm.trans failed)
      refine ⟨⟨failure, atCatalog, rfl⟩, ?_⟩
      have same : ended.2 = _ := congrArg Prod.snd ran
      rw [same]
      exact grows
    · cases (congrArg Prod.fst ran).symm.trans failed
  · intro location hnames hfile straight
    have place : plan.catalogFile.location = location := by
      rw [hfile, Location.location_path hnames]
    have output : plan.outputDir.IsDirect := ⟨settled.outputAbsolute, straight.output⟩
    have grows : world.disk.Grows (Disk.IsSite.Allowed plan.outputDir.location) filled := by
      rw [← start]
      exact (Session.within_fill_direct hconfirm output (own, world') hdisk').1
    have free : filled.LinkFree [] location := grows.linkFree fun other _ onWay node =>
      straight.noLink other node (.inr (.inr (place.symm ▸ onWay)))
    constructor
    · have written := Session.writeCatalog_ok_iff hnames hfile catalog filledWell free
      rw [← Bool.not_eq_true, ← written]
      rcases outcome with ⟨failure, unwritten, ran⟩ | ⟨result, succeeded, ran⟩
      · have failed : ended.1 = .error (lift failure) := congrArg Prod.fst ran
        simp [failed, unwritten]
      · have fine : ended.1 = .ok result := congrArg Prod.fst ran
        simp [fine, succeeded]
    · intro apart
      have direct : ∀ (path : Path) (node : Node),
          Disk.IsSite.Allowed plan.outputDir.location path node →
          path.IsDirect ∧ world.disk.LinkFree [] path.location := by
        intro path node allowed
        refine ⟨allowed.1, fun other _ onWay node found => ?_⟩
        rcases allowed.along with above | below
        · exact straight.noLink other node (.inl (onWay.trans above)) found
        · rcases List.suffix_or_suffix_of_suffix onWay below with above | below
          · exact straight.noLink other node (.inl above) found
          · exact straight.noLink other node (.inr (.inl below)) found
      have paved : Disk.Paved location world.disk filled := by
        refine grows.paved direct fun path node allowed onWay => ?_
        rcases allowed.2 with ⟨-, same⟩ | ⟨below, -⟩
        · exact same
        · exact absurd (.inr (below.trans onWay)) apart
      refine paved.takes_eq hdisk ?_
      by_contra changed
      obtain ⟨path, node, allowed, rfl, -⟩ := grows.location_eq direct changed
      exact apart allowed.along

/-- The disk of the sample with a file beside the folder. -/
def Disk.noted : Disk :=
  Disk.sample.insert ["notes"] (.file "x".toUTF8 .full)

theorem Disk.wellFormed_noted : Disk.noted.WellFormed := by
  obtain ⟨node, root, access, rfl⟩ := Disk.wellFormed_sample.root
  exact Disk.wellFormed_sample.insert root (by decide) (by intro access h; cases h)

/-- What a run returns in which every sentence is approved. -/
def Plan.resultOf (plan : Plan) (world : World) : Except Failure Outcome :=
  (Session.exec (Command.carryOut id (fun _ => pure (.ok true)) plan) ((), world)).1

/-- A disk does not take a catalog below a file, and the run that has been settled fails. -/
theorem failed_below_file :
    (Plan.settleOn .noted (.sample "/out" "/notes/lang.lua" false)).1 =
        .ok (.sample "/out" "/notes/lang.lua") ∧
      Disk.noted.takes ["lang.lua", "notes"] = false ∧
      ∃ e, (Plan.sample "/out" "/notes/lang.lua").resultOf
        (Plan.settleOn .noted (.sample "/out" "/notes/lang.lua" false)).2 = .error e := by
  have settled : (Plan.settleOn .noted (.sample "/out" "/notes/lang.lua" false)).1 =
      .ok (.sample "/out" "/notes/lang.lua") := by
    decide +kernel
  have both : Plan.settleOn .noted (.sample "/out" "/notes/lang.lua" false) =
      (.ok (.sample "/out" "/notes/lang.lua"),
        (Plan.settleOn .noted (.sample "/out" "/notes/lang.lua" false)).2) := by
    rw [← settled]
  have refused : Disk.noted.takes ["lang.lua", "notes"] = false := by decide +kernel
  have noLinks : ∀ item ∈ Disk.noted.nodes, item.2.kind ≠ .link := by decide +kernel
  have straight : (Plan.sample "/out" "/notes/lang.lua").Straight .noted := by
    refine ⟨by decide +kernel, by decide +kernel, fun place node _ found isLink => ?_⟩
    exact noLinks _ (Disk.wellFormed_noted.mem_nodes_iff.mpr found) (Node.kind_eq_link.mpr isLink)
  have location : (Plan.sample "/out" "/notes/lang.lua").outputDir.location = ["out"] := by
    decide +kernel
  have apart : ¬ Disk.Along (Plan.sample "/out" "/notes/lang.lua").outputDir.location
      ["lang.lua", "notes"] := by
    rw [location, Disk.Along]
    decide +kernel
  obtain ⟨fails, same⟩ := (failed_iff_not_takes ⟨false⟩ (.sample "/out" "/notes/lang.lua" false)
    .default id (fun _ => pure (.ok true)) ⟨fun _ _ => rfl, fun _ _ => ⟨true, rfl⟩⟩ ()
    (World.ofDisk .noted []) _ _ Disk.wellFormed_noted both).2 ["lang.lua", "notes"] (by decide)
    (by decide +kernel) straight
  exact ⟨settled, refused, fails.mpr ((same apart).trans refused)⟩

/-- A settled run on the disk fails and leaves something behind. -/
def Disk.Litters (disk : Disk) (options : CommandLine.RunOptions) : Prop :=
  ∃ plan e, (Plan.settleOn disk options).1 = .ok plan ∧
    plan.resultOf (Plan.settleOn disk options).2 = .error e ∧
    ∃ place, (plan.diskAfter (Plan.settleOn disk options).2).get? place ≠ disk.get? place

/-- A run leaves its copy behind if the catalog file is to lie below a file, in a directory that
    takes no new entries, at the output directory or on the way to it. -/
theorem failed_run_litters :
    Disk.noted.Litters (.sample "/out" "/notes/lang.lua" false) ∧
    (Disk.sample.insert ["locked"] (.directory ⟨true, false, true⟩)).Litters
      (.sample "/out" "/locked/lang.lua" false) ∧
    Disk.sample.Litters (.sample "/out" "/out" false) ∧
    Disk.sample.Litters (.sample "/new/out" "/new" false) := by
  refine ⟨⟨.sample "/out" "/notes/lang.lua", .directoryNotMade ⟨"/notes"⟩ .alreadyThere,
      by decide +kernel, by decide +kernel, ["a.lua", "out"], fun same => ?_⟩,
    ⟨.sample "/out" "/locked/lang.lua", .catalogUnwritable ⟨"/locked/lang.lua"⟩ .denied,
      by decide +kernel, by decide +kernel, ["a.lua", "out"], fun same => ?_⟩,
    ⟨.sample "/out" "/out", .catalogUnwritable ⟨"/out"⟩ .isDirectory,
      by decide +kernel, by decide +kernel, ["a.lua", "out"], fun same => ?_⟩,
    ⟨.sample "/new/out" "/new", .catalogUnwritable ⟨"/new"⟩ .isDirectory,
      by decide +kernel, by decide +kernel, ["a.lua", "out", "new"], fun same => ?_⟩⟩
  all_goals
    have := congrArg (Option.map Node.kind) same
    revert this
    decide +kernel

end Phrasebook
