import Phrasebook.Proofs.Disk.Site
import Phrasebook.Proofs.Footprint

/-!
# What a copy leaves behind

A tree is copied to a site from which it keeps apart. Main statement: if no issues come up, the files
at the site are then those that a walk through the tree finds, each with the bytes it was found with.
-/

namespace Phrasebook

namespace Walk

@[simp] theorem files_nil : files [] = [] := rfl

theorem files_cons (event : Event) (happened : List Event) :
    files (event :: happened) = files [event] ++ files happened := by
  cases event with
  | trouble trouble => rfl
  | entry entry =>
    by_cases isFile : entry.kind = .file
    · simp [files, isFile]
    · simp [files, isFile]

theorem files_entry (entry : Entry) :
    files [.entry entry] = if entry.kind = .file then [entry.path] else [] := by
  by_cases isFile : entry.kind = .file
  · simp [files, isFile]
  · simp [files, isFile]

@[simp] theorem files_trouble (trouble : Trouble) : files [.trouble trouble] = [] := rfl

/-- The issues that the trouble among events becomes. -/
def unlisted (root : Path) (happened : List Event) : List Issue :=
  happened.filterMap fun
    | .trouble trouble => some (.unlisted (trouble.issueText root) trouble.message)
    | .entry _ => none

@[simp] theorem unlisted_nil (root : Path) : unlisted root [] = [] := rfl

@[simp] theorem unlisted_entry (root : Path) (entry : Entry) (happened : List Event) :
    unlisted root (.entry entry :: happened) = unlisted root happened := rfl

@[simp] theorem unlisted_trouble (root : Path) (trouble : Trouble) (happened : List Event) :
    unlisted root (.trouble trouble :: happened) =
      .unlisted (trouble.issueText root) trouble.message :: unlisted root happened := rfl

theorem unlisted_append (root : Path) (before after : List Event) :
    unlisted root (before ++ after) = unlisted root before ++ unlisted root after :=
  List.filterMap_append ..

theorem rule_of_mem_unlisted {root : Path} {happened : List Event} {issue : Issue}
    (h : issue ∈ unlisted root happened) : issue.rule = .unlisted := by
  obtain ⟨event, -, same⟩ := List.mem_filterMap.mp h
  cases event with
  | entry entry => simp at same
  | trouble trouble =>
    obtain rfl := Option.some.inj same
    rfl

/-- The files that are reported can be told by their names below the root. -/
theorem exists_names_of_files {disk : Disk} (hdisk : disk.WellFormed) (follow : Bool)
    (root : Path) :
    ∃ found : List (List String), (∀ names ∈ found, Path.AreNames names) ∧
      files (events disk follow root) = found.map root.descend := by
  apply exists_names_of_below
  intro path hmem
  exact below_of_mem_events hdisk (mem_files.mp hmem)

end Walk

namespace TreeCopy

/-- The job that a file of the source becomes. -/
def jobFor (source destination path : Path) : Job :=
  ⟨path, target destination (path.relativeTo source), Path.issueText source path⟩

theorem target_descend (source destination : Path) {names : List String}
    (hnames : Path.AreNames names) :
    target destination ((source.descend names).relativeTo source) = destination.descend names := by
  rw [Path.relativeTo_descend source hnames, Path.target_joinSlashes destination hnames]

end TreeCopy

namespace Disk

/-- A disk on which nothing but directories has been built at the site. -/
structure Laid (disk : Disk) (output : Location) (now : Disk) : Prop where
  built : disk.Built output now
  bare : ∀ place node, output <:+ place → now.get? place = some node → node.IsDirectory

variable {disk now later : Disk} {output : Location} {source : Path}

namespace IsSite

variable (hsite : disk.IsSite output)
include hsite

theorem laid (hdisk : disk.WellFormed) : disk.Laid output disk where
  built := .refl hdisk
  bare := by
    intro place node below found
    have notFree : ¬ disk.Free output place := by
      rintro ⟨-, absent⟩
      simp [absent] at found
    obtain ⟨access, holds⟩ := hsite.holds_of_not_free below notFree
    obtain rfl := Option.some.inj (found.symm.trans holds)
    simp

/-- The paths above an entry of the copy may become directories. -/
theorem allowed_above {names : List String} (hnames : Path.AreNames names) {above : Path}
    (habove : Path.Above above (output.path.descend names)) :
    Allowed output above (.directory .full) := by
  obtain ⟨direct, suffix⟩ := habove.isDirect (hsite.isDirect.descend hnames)
  rw [hsite.location_descend hnames] at suffix
  exact ⟨direct, .inl ⟨along_of_suffix_append suffix, rfl⟩⟩

/-- The path of an entry of the copy may become a file. -/
theorem allowed_file {names : List String} (hnames : Path.AreNames names) {node : Node}
    (hnode : node.IsFile) : Allowed output (output.path.descend names) node := by
  refine ⟨hsite.isDirect.descend hnames, .inr ⟨?_, hnode⟩⟩
  rw [hsite.location_descend hnames]
  exact List.suffix_append _ _

/-- More directories are made at the site. -/
theorem laid_of_grows (hlaid : disk.Laid output now)
    (hgrows : now.Grows
      (fun path node => Allowed output path node ∧ node = .directory .full) later) :
    disk.Laid output later where
  built := hsite.built_of_grows hlaid.built (hgrows.mono fun _ _ => And.left)
  bare := by
    intro place node below found
    by_cases same : later.get? place = now.get? place
    · exact hlaid.bare place node below (same ▸ found)
    · obtain ⟨path, node', ⟨-, rfl⟩, -, found'⟩ := hgrows.location_eq
        (fun path node allowed => ⟨allowed.1.1, hsite.linkFree hlaid.built allowed.1.along⟩) same
      obtain rfl := Option.some.inj (found.symm.trans found')
      simp

/-- A path below the site that leads to something leads to where its names say. -/
theorem place_eq (hbuilt : disk.Built output now) {names : List String}
    (hnames : Path.AreNames names) {ending : Ending} {spot : Spot}
    (h : now.locate ending (output.path.descend names) = .ok spot) :
    spot.place = names.reverse ++ output := by
  have := place_eq_of_locate h (hsite.isDirect.descend hnames)
    (by
      rw [hsite.location_descend hnames]
      exact hsite.linkFree hbuilt (.inr (List.suffix_append _ _)))
  rwa [hsite.location_descend hnames] at this

/-- A file that is stored below the site stands where the names of its path say. -/
theorem insert_of_store (hbuilt : disk.Built output now) {names : List String}
    (hnames : Path.AreNames names) {new : Option (Location × Access) → Node}
    (hnew : ∀ old, (new old).IsFile)
    (h : now.store (output.path.descend names) new = .ok later) :
    ∃ old, later = now.insert (names.reverse ++ output) (new old) ∧
      ((old = none ∧ now.get? (names.reverse ++ output) = none) ∨
        ∃ content access, now.get? (names.reverse ++ output) = some (.file content access) ∧
          old = some (names.reverse ++ output, access)) := by
  have grown : disk.Built output later :=
    hsite.built_of_grows hbuilt
      (grows_of_store (fun old => hsite.allowed_file hnames (hnew old)) hbuilt.wellFormed hnew h)
  have placeOf : ∀ {place node},
      later.find .target (output.path.descend names) = .ok (place, node) →
      place = names.reverse ++ output :=
    fun found => hsite.place_eq grown hnames (find_eq_ok_iff.mp found)
  rcases store_eq_ok hbuilt.wellFormed hnew h with
    ⟨place, node, found, notFile, notDirectory, rfl⟩ | ⟨place, absent, places, rfl⟩ |
    ⟨place, content, access, there, places, rfl⟩
  · -- Nothing along the site would swallow what is written.
    have there := get?_of_find found
    rw [placeOf found] at there
    exact absurd (hsite.plain_below hbuilt (List.suffix_append _ _) there)
      (by simp [notFile, notDirectory])
  · obtain rfl := placeOf places.found
    exact ⟨none, rfl, .inl ⟨rfl, absent⟩⟩
  · obtain rfl := placeOf places.found
    exact ⟨_, rfl, .inr ⟨content, access, there, rfl⟩⟩

/-- A file that is copied to the site stands where the names of its path say. -/
theorem insert_of_copy (hapart : disk.Apart source output) (hbuilt : disk.Built output now)
    {names : List String} (hnames : Path.AreNames names)
    (h : now.copy (source.descend names) (output.path.descend names) = .ok later) :
    ∃ content access, disk.read (source.descend names) = .ok content ∧
      later = now.insert (names.reverse ++ output) (.file content access) := by
  obtain ⟨place, content, access, found, readable, stored⟩ := copy_eq_ok h
  rw [(hapart.agreesBelow hbuilt.agrees).find_eq hnames (by simp)] at found
  refine ⟨content, access, by simp [read, found, Node.readable, readable], ?_⟩
  obtain ⟨old, rfl, before⟩ := hsite.insert_of_store hbuilt hnames (fun _ => by simp) stored
  -- What is copied stands elsewhere, so it is not emptied before it is read.
  have elsewhere : old.any (·.1 = place) = false := by
    rcases before with ⟨rfl, -⟩ | ⟨content', access', there, rfl⟩
    · rfl
    · have : names.reverse ++ output ≠ place := by
        rintro rfl
        obtain ⟨_, holds⟩ := hsite.holds_of_not_free (List.suffix_append _ _)
          (hapart.not_free (sees_of_find hnames found))
        simp [get?_of_find found] at holds
      simpa using this
  simp [elsewhere]

end IsSite

/-- Paths of the source have been copied: at the site there is a file for each, with the bytes that
    the path had in the beginning, and there is no other file. -/
structure Stocked (disk : Disk) (source : Path) (output : Location) (paths : List Path)
    (now : Disk) : Prop where
  built : disk.Built output now
  copied : ∀ names, Path.AreNames names → source.descend names ∈ paths →
    ∃ content access, disk.read (source.descend names) = .ok content ∧
      now.get? (names.reverse ++ output) = some (.file content access)
  others : ∀ names node, Path.AreNames names → now.get? (names.reverse ++ output) = some node →
    node.IsFile → source.descend names ∈ paths

theorem Laid.stocked (h : disk.Laid output now) : disk.Stocked source output [] now where
  built := h.built
  copied := by simp
  others := by
    rintro names node - found ⟨content, access, rfl⟩
    have := h.bare _ _ (List.suffix_append _ _) found
    simp at this

/-- One more file is copied. -/
theorem Stocked.copy (hsite : disk.IsSite output) (hapart : disk.Apart source output)
    {paths : List Path} (h : disk.Stocked source output paths now) {names : List String}
    (hnames : Path.AreNames names)
    (hcopy : now.copy (source.descend names) (output.path.descend names) = .ok later) :
    disk.Stocked source output (paths ++ [source.descend names]) later := by
  have built : disk.Built output later := hsite.built_of_grows h.built
    (grows_of_copy (fun _ => hsite.allowed_file hnames) h.built.wellFormed hcopy)
  obtain ⟨content, access, bytes, rfl⟩ := hsite.insert_of_copy hapart h.built hnames hcopy
  have kept : ∀ {other : List String}, other ≠ names →
      (now.insert (names.reverse ++ output) (.file content access)).get? (other.reverse ++ output) =
        now.get? (other.reverse ++ output) :=
    fun hne => get?_insert_of_ne now _ (by simpa using hne)
  refine ⟨built, ?_, ?_⟩
  · intro other hother hmem
    by_cases same : other = names
    · subst same
      exact ⟨content, access, bytes, get?_insert_self ..⟩
    · have before : source.descend other ∈ paths := by
        rcases List.mem_append.mp hmem with before | last
        · exact before
        · exact absurd (Path.descend_injective hother hnames (List.mem_singleton.mp last)) same
      rw [kept same]
      exact h.copied other hother before
  · intro other node hother found hfile
    by_cases same : other = names
    · simp [same]
    · rw [kept same] at found
      exact List.mem_append_left _ (h.others other node hother found hfile)

/-- A file at the site has the bytes of the path it was copied from. -/
theorem Stocked.read_eq {paths : List Path} (h : disk.Stocked source output paths now)
    {names : List String} (hnames : Path.AreNames names) {content : ByteArray}
    {access : Access} (found : now.get? (names.reverse ++ output) = some (.file content access)) :
    disk.read (source.descend names) = .ok content := by
  obtain ⟨bytes, access', hread, there⟩ :=
    h.copied names hnames (h.others names _ hnames found (by simp))
  obtain ⟨rfl, -⟩ : content = bytes ∧ access = access' := by simpa [found] using there
  exact hread

/-- The files at the site are those that have been copied. -/
theorem Stocked.isFile_iff {paths : List Path} (h : disk.Stocked source output paths now)
    {names : List String} (hnames : Path.AreNames names) :
    (∃ node, now.get? (names.reverse ++ output) = some node ∧ node.IsFile) ↔
      source.descend names ∈ paths := by
  constructor
  · rintro ⟨node, found, isFile⟩
    exact h.others names node hnames found isFile
  · intro hmem
    obtain ⟨content, access, -, found⟩ := h.copied names hnames hmem
    exact ⟨_, found, by simp⟩

/-- The files at the site correspond to those that have been copied. -/
theorem Stocked.perm {paths : List Path} (h : disk.Stocked source output paths now)
    (hnodup : paths.Nodup) (hbelow : ∀ path ∈ paths, Walk.Below source path)
    {found : List (List String)} (hfound : found.Nodup)
    (hmem : ∀ names, names ∈ found ↔ Path.AreNames names ∧
      ∃ node, now.get? (names.reverse ++ output) = some node ∧ node.IsFile) :
    (found.map source.descend).Perm paths := by
  have distinct : (found.map source.descend).Nodup := hfound.map_on fun names hnames other hother =>
    Path.descend_injective ((hmem names).mp hnames).1 ((hmem other).mp hother).1
  refine (List.perm_ext_iff_of_nodup distinct hnodup).mpr fun path => ?_
  constructor
  · intro inFound
    obtain ⟨names, hnames, rfl⟩ := List.mem_map.mp inFound
    obtain ⟨areNames, there⟩ := (hmem names).mp hnames
    exact (h.isFile_iff areNames).mp there
  · intro inPaths
    obtain ⟨names, areNames, rfl⟩ := hbelow path inPaths
    exact List.mem_map_of_mem ((hmem names).mpr ⟨areNames, (h.isFile_iff areNames).mpr inPaths⟩)

end Disk

namespace Session

open Disk

variable {σ : Type} {source destination : Path}

/-- Whatever happens, the copy goes on. -/
theorem flow_onEvent_copy (kept : TreeCopy.State) (event : Walk.Event) (state : State σ) :
    (exec (TreeCopy.onEvent source destination kept event) state).1.2 = .enter := by
  cases event with
  | trouble trouble => rfl
  | entry entry =>
    rw [TreeCopy.onEvent]
    split
    · rfl
    · split
      · rw [exec_bind]
        split <;> rfl
      · rfl
      · rfl

/-- As long as there are no issues, each file becomes a job. -/
structure Noted (source destination : Path) (before : TreeCopy.State) (happened : List Walk.Event)
    (after : TreeCopy.State) : Prop where
  issues : before.done.issues = []
  failed : after.failed = []
  filesCopied : after.done.filesCopied = before.done.filesCopied
  jobs : after.jobs =
    before.jobs ++ (Walk.files happened).map (TreeCopy.jobFor source destination)

variable (source destination) in
theorem noted_onEvent {kept : TreeCopy.State} (hkept : kept.done.issues = [] → kept.failed = [])
    (event : Walk.Event) (state : State σ)
    (hquiet : (exec (TreeCopy.onEvent source destination kept event) state).1.1.done.issues = []) :
    Noted source destination kept [event]
      (exec (TreeCopy.onEvent source destination kept event) state).1.1 := by
  cases event with
  | trouble trouble => simp [TreeCopy.onEvent, exec_pure, TreeCopy.State.addIssue] at hquiet
  | entry entry =>
    obtain ⟨path, kind⟩ := entry
    rw [TreeCopy.onEvent] at hquiet ⊢
    by_cases left : kept.failed.any (path.relativeTo source).startsWith = true
    · rw [if_pos left] at hquiet
      simp [hkept hquiet] at left
    rw [if_neg left] at hquiet ⊢
    cases kind with
    | directory =>
      simp only [exec_bind] at hquiet ⊢
      generalize exec (Storage.makeDirectories _) state = made at hquiet ⊢
      obtain ⟨made | made, state'⟩ := made
      · simp [exec_pure, TreeCopy.State.addIssue] at hquiet
      · exact ⟨hquiet, hkept hquiet, rfl, by simp [Walk.files_entry, exec_pure]⟩
    | file => exact ⟨hquiet, hkept hquiet, rfl, rfl⟩
    | link | special => exact ⟨hquiet, hkept hquiet, rfl, by simp [Walk.files_entry, exec_pure]⟩

variable (source destination) in
theorem noted_relay {kept : TreeCopy.State} (hkept : kept.done.issues = [] → kept.failed = [])
    (happened : List Walk.Event) (state : State σ)
    (hquiet : (exec (relay (TreeCopy.onEvent source destination) happened kept) state).1.done.issues
      = []) :
    Noted source destination kept happened
      (exec (relay (TreeCopy.onEvent source destination) happened kept) state).1 := by
  induction happened generalizing kept state with
  | nil => exact ⟨hquiet, hkept hquiet, rfl, by simp [relay, exec_pure]⟩
  | cons event happened ih =>
    rw [exec_relay_cons] at hquiet ⊢
    have first := noted_onEvent source destination hkept event state
    have later := ih (fun quiet => (first quiet).failed) _ hquiet
    have first := first later.issues
    refine ⟨first.issues, later.failed, later.filesCopied.trans first.filesCopied, ?_⟩
    rw [later.jobs, first.jobs, Walk.files_cons event happened, List.map_append, List.append_assoc]

theorem exec_copyAll_cons (job : TreeCopy.Job) (jobs : List TreeCopy.Job) (done : TreeCopied)
    (state : State σ) :
    exec (TreeCopy.copyAll (job :: jobs) done) state =
      match state.disk.copy job.source job.target with
      | .ok later =>
        exec (TreeCopy.copyAll jobs { done with filesCopied := done.filesCopied + 1 })
          (state.setDisk later)
      | .error e =>
        exec (TreeCopy.copyAll jobs
          { done with issues := done.issues ++ [.uncopied job.shown job.target.text e.message] })
          state := by
  rw [TreeCopy.copyAll, exec_bind, exec_copy]
  cases state.disk.copy job.source job.target <;> rfl

/-- Issues are not forgotten. -/
theorem quiet_of_copyAll {jobs : List TreeCopy.Job} {done result : TreeCopied}
    {state state' : State σ} (hexec : exec (TreeCopy.copyAll jobs done) state = (result, state'))
    (hquiet : result.issues = []) : done.issues = [] := by
  induction jobs generalizing done state with
  | nil =>
    obtain ⟨rfl, -⟩ := Prod.mk.inj hexec
    exact hquiet
  | cons job jobs ih =>
    rw [exec_copyAll_cons] at hexec
    split at hexec
    · have quiet := ih hexec
      exact quiet
    · have := ih hexec
      simp at this

section

variable {disk : Disk} {output : Location} (hdisk : disk.WellFormed) (hsite : disk.IsSite output)
  (hapart : disk.Apart source output)
include hsite hapart

theorem stocked_copyAll {found : List (List String)} (hfound : ∀ names ∈ found, Path.AreNames names)
    {paths : List Path} {state state' : State σ}
    (hstocked : disk.Stocked source output paths state.disk) {done result : TreeCopied}
    (hexec : exec (TreeCopy.copyAll
      ((found.map source.descend).map (TreeCopy.jobFor source output.path)) done) state =
        (result, state'))
    (hquiet : result.issues = []) :
    result.filesCopied = done.filesCopied + found.length ∧
      disk.Stocked source output (paths ++ found.map source.descend) state'.disk := by
  induction found generalizing paths done state with
  | nil =>
    obtain ⟨rfl, rfl⟩ := Prod.mk.inj hexec
    exact ⟨rfl, by simpa using hstocked⟩
  | cons names found ih =>
    have hnames := hfound names List.mem_cons_self
    have hrest : ∀ other ∈ found, Path.AreNames other := fun other hmem =>
      hfound other (List.mem_cons_of_mem _ hmem)
    rw [List.map_cons, List.map_cons, exec_copyAll_cons, TreeCopy.jobFor,
      TreeCopy.target_descend source output.path hnames] at hexec
    split at hexec
    · next later hcopy =>
      have stocked : disk.Stocked source output (paths ++ [source.descend names])
          (state.setDisk later).disk := hstocked.copy hsite hapart hnames hcopy
      obtain ⟨copied, stocked⟩ := ih hrest stocked hexec
      refine ⟨?_, by simpa using stocked⟩
      rw [copied, List.length_cons]
      exact Nat.add_right_comm ..
    · have := quiet_of_copyAll hexec hquiet
      simp at this

omit hapart in
/-- While the walk goes on, directories are made at the site. -/
theorem laid_onEvent {state : State σ} (hlaid : disk.Laid output state.disk)
    (kept : TreeCopy.State) {event : Walk.Event} (hevent : event.Below source) :
    disk.Laid output (exec (TreeCopy.onEvent source output.path kept event) state).2.disk := by
  refine hsite.laid_of_grows hlaid (within_onEvent_copy ?_ kept hevent state
    hlaid.built.wellFormed).1
  exact fun names hnames above habove => ⟨hsite.allowed_above hnames habove, rfl⟩

include hdisk in
/-- A tree is copied to a site: the files there are those of the tree. -/
theorem stocked_copyTree {state state' : State σ} (hstate : state.disk = disk)
    {result : TreeCopied} (hexec : exec (copyTree source output.path) state = (result, state'))
    (hquiet : result.issues = []) :
    result.filesCopied = (Walk.files (Walk.events disk true source)).length ∧
      disk.Stocked source output (Walk.files (Walk.events disk true source)) state'.disk := by
  let good (state : State σ) : Prop := disk.Laid output state.disk
  have alike : ∀ state, good state → Walk.Alike source disk state.disk := fun state hgood =>
    hgood.built.alike hdisk hapart
  have visit : ∀ kept event state, good state → event.Below source →
      good (exec (TreeCopy.onEvent source output.path kept event) state).2 ∧
        (exec (TreeCopy.onEvent source output.path kept event) state).1.2 = .enter :=
    fun kept event state hgood below =>
      ⟨laid_onEvent hsite hgood kept below, flow_onEvent_copy kept event state⟩
  have start : good state := by
    change disk.Laid output state.disk
    rw [hstate]
    exact hsite.laid hdisk
  let kept : TreeCopy.State := ⟨⟨0, 0, []⟩, [], []⟩
  have walked := exec_walk hdisk alike visit true kept start
  have laid : good (exec (relay (TreeCopy.onEvent source output.path)
      (Walk.events disk true source) kept) state).2 :=
    good_relay (fun kept event state hgood below => (visit kept event state hgood below).1)
      (fun event hmem => Walk.below_of_mem_events hdisk hmem) kept start
  rw [copyTree, exec_bind, walked] at hexec
  have noFailure : kept.done.issues = [] → kept.failed = [] := fun _ => rfl
  have noted := noted_relay source output.path noFailure _ state (quiet_of_copyAll hexec hquiet)
  obtain ⟨found, hfound, hfiles⟩ := Walk.exists_names_of_files hdisk true source
  rw [goingOn, noted.jobs, hfiles] at hexec
  obtain ⟨copied, stocked⟩ := stocked_copyAll hsite hapart hfound laid.stocked hexec hquiet
  rw [noted.filesCopied] at copied
  rw [hfiles, List.length_map]
  exact ⟨copied.trans (Nat.zero_add _), stocked⟩

end

end Session

end Phrasebook
