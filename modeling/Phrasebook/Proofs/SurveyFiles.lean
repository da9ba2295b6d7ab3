import Phrasebook.Proofs.Reached
import Phrasebook.Proofs.Survey
import Phrasebook.Proofs.Text.ByteOrder

/-!
# The files of a survey

Which files a survey handles, in which order, and what becomes of each. Main statement: if the visitor
leaves the disk alone and never fails, a survey handles each file that it can reach and that passes
the filter, as do the directories it goes through, once and in the order of names. The file is handed
to the visitor, counted for not being UTF-8, or named by an issue.
-/

namespace Phrasebook

/-- The path comes before the other one when both are compared segment by segment, by their bytes. -/
def Path.Before (path other : Path) : Prop :=
  path.segments.map Text.bytes < other.segments.map Text.bytes

/-- Names in order make paths in order. -/
theorem Path.before_of_lt {names others : List String} (hnames : AreNames names)
    (hothers : AreNames others) (hne : names ≠ []) (h : names < others) :
    Before ⟨joinSlashes names⟩ ⟨joinSlashes others⟩ := by
  have hne' : others ≠ [] := by
    rintro rfl
    exact List.not_lt_nil names h
  rw [Before, segments_joinSlashes hne fun name hmem => (hnames name hmem).noSlash,
    segments_joinSlashes hne' fun name hmem => (hothers name hmem).noSlash]
  exact Text.map_bytes_lt h

namespace Survey

variable {disk : Disk} {root : Path} {filter : Filter}

/-! ## Counting findings -/

/-- The finding is a file that is not UTF-8. -/
def Finding.isBinary : Finding → Bool
  | .binary => true
  | _ => false

/-- The issue that is found. -/
def Finding.issue? : Finding → Option Issue
  | .issue found => some found
  | _ => none

/-- The finding is about what a file holds. -/
def Finding.isOfFile : Finding → Bool
  | .nothing => false
  | .issue found => found.rule = .unread
  | .binary | .text _ _ => true

theorem foldl_add (found : List Finding) (tally : Tally) :
    found.foldl Tally.add tally =
      ⟨tally.filesScanned + (found.filterMap (·.text?)).length,
        tally.binarySkipped + found.countP (·.isBinary),
        tally.issues ++ found.filterMap (·.issue?)⟩ := by
  induction found generalizing tally with
  | nil => simp
  | cons finding found ih =>
    rw [List.foldl_cons, ih]
    cases finding with
    | nothing => rfl
    | issue issue => simp [Tally.add, Finding.text?, Finding.isBinary, Finding.issue?]
    | binary =>
      simp [Tally.add, Finding.text?, Finding.isBinary, Finding.issue?]
      omega
    | text file content =>
      simp [Tally.add, Finding.text?, Finding.isBinary, Finding.issue?]
      omega

/-- The texts, the binary files and the issues about files are found among the findings about files. -/
theorem filterMap_text?_filter (found : List Finding) :
    (found.filter (·.isOfFile)).filterMap (·.text?) = found.filterMap (·.text?) := by
  rw [List.filterMap_filter]
  apply List.filterMap_congr
  intro finding _
  cases finding <;> simp [Finding.isOfFile, Finding.text?]

theorem countP_isBinary_filter (found : List Finding) :
    (found.filter (·.isOfFile)).countP (·.isBinary) = found.countP (·.isBinary) := by
  rw [List.countP_filter]
  apply List.countP_congr
  intro finding _
  cases finding <;> simp [Finding.isOfFile, Finding.isBinary]

theorem filterMap_issue?_filter (found : List Finding) :
    (found.filter (·.isOfFile)).filterMap (·.issue?) =
      (found.filterMap (·.issue?)).filter (·.rule = .unread) := by
  rw [List.filterMap_filter, List.filter_filterMap]
  apply List.filterMap_congr
  intro finding _
  cases finding <;> simp [Finding.isOfFile, Finding.issue?, Option.filter]

/-- A finding about a file is a text, a binary file or an issue. -/
theorem length_of_isOfFile {found : List Finding} (h : ∀ finding ∈ found, finding.isOfFile = true) :
    (found.filterMap (·.text?)).length + found.countP (·.isBinary) +
      (found.filterMap (·.issue?)).length = found.length := by
  induction found with
  | nil => rfl
  | cons finding found ih =>
    have rest := ih fun other hmem => h other (List.mem_cons_of_mem _ hmem)
    have here := h finding List.mem_cons_self
    unfold Finding.text? Finding.isBinary Finding.issue? at rest ⊢
    cases finding with
    | nothing => simp [Finding.isOfFile] at here
    | issue | binary | text =>
      simp only [List.filterMap_cons, List.countP_cons, List.length_cons, Bool.false_eq_true,
        if_false, if_true]
      omega

/-! ## Findings about files -/

theorem isOfFile_findingOf (relative : Path) (result : Except OsError ByteArray) :
    (findingOf relative result).isOfFile = true := by
  unfold findingOf
  split
  · rfl
  · split <;> rfl

/-- The file of a finding is the one that has been read. -/
theorem file_of_findingOf {relative : Path} {result : Except OsError ByteArray}
    {file : String × String} (h : (findingOf relative result).text? = some file) :
    file.1 = relative.text := by
  unfold findingOf at h
  split at h
  · cases h
  · split at h
    · cases h
    · cases h
      rfl

/-- The entry is a file that the filter lets through. -/
def takes (root : Path) (filter : Filter) (entry : Walk.Entry) : Bool :=
  !skips root filter entry && (entry.kind = .file && filter.accepts (entry.path.relativeTo root))

theorem findingAt_entry (entry : Walk.Entry) :
    findingAt disk root filter (.entry entry) =
      if takes root filter entry then
        findingOf (entry.path.relativeTo root) (disk.read entry.path)
      else .nothing := by
  rw [findingAt, takes]
  by_cases skipped : skips root filter entry = true
  · simp [skipped]
  · simp [skipped]

/-- The findings about files are those about the files that the filter lets through. -/
theorem filter_isOfFile_findingAt (happened : List Walk.Event) :
    (happened.map (findingAt disk root filter)).filter (·.isOfFile) =
      ((Walk.entries happened).filter (takes root filter)).map fun entry =>
        findingOf (entry.path.relativeTo root) (disk.read entry.path) := by
  induction happened with
  | nil => rfl
  | cons event happened ih =>
    rw [List.map_cons]
    cases event with
    | trouble trouble =>
      have notOfFile : (findingAt disk root filter (.trouble trouble)).isOfFile = false := rfl
      rw [List.filter_cons_of_neg (by simp [notOfFile]), ih, Walk.entries_trouble]
    | entry entry =>
      rw [Walk.entries_entry]
      by_cases taken : takes root filter entry = true
      · rw [findingAt_entry, if_pos taken, List.filter_cons_of_pos taken, List.map_cons,
          List.filter_cons_of_pos (isOfFile_findingOf _ _), ih]
      · have notOfFile : Finding.nothing.isOfFile = false := rfl
        rw [findingAt_entry, if_neg taken, List.filter_cons_of_neg taken,
          List.filter_cons_of_neg (by simp [notOfFile]), ih]

/-- What a survey finds at the file that names lead to from the root. -/
def findingAtNames (disk : Disk) (root : Path) (names : List String) : Finding :=
  findingOf ⟨Path.joinSlashes names⟩ (disk.read (root.descend names))

/-- The names lead to a file that can be reached and has an accepted extension, through nothing that
    is ignored. -/
structure Handles (disk : Disk) (root : Path) (filter : Filter) (names : List String) : Prop where
  reached : Walk.Reached disk root names .file
  kept : ∀ before after, names = before ++ after → before ≠ [] →
    filter.ignored ⟨Path.joinSlashes before⟩ = false
  accepted : filter.accepts ⟨Path.joinSlashes names⟩ = true

/-- The files that are handled, the texts that the visitor gets with their files, and the tally fit
    together: everything that is to be handled is, once and in order, and each file is visited, counted
    for not being UTF-8 or named by an issue. -/
structure Accounts (disk : Disk) (root : Path) (filter : Filter) (handled : List (List String))
    (visited : List (String × String)) (tally : Tally) : Prop where
  mem_iff : ∀ names, names ∈ handled ↔ Handles disk root filter names
  ordered : handled.Pairwise fun names others =>
    Path.Before ⟨Path.joinSlashes names⟩ ⟨Path.joinSlashes others⟩
  visits : visited = (handled.map (findingAtNames disk root)).filterMap (·.text?)
  visitsOrdered : visited.Pairwise fun file other => Path.Before ⟨file.1⟩ ⟨other.1⟩
  scanned : tally.filesScanned = visited.length
  binary : tally.binarySkipped = (handled.map (findingAtNames disk root)).countP (·.isBinary)
  unread : tally.issues.filter (·.rule = .unread) =
    (handled.map (findingAtNames disk root)).filterMap (·.issue?)
  total : tally.filesScanned + tally.binarySkipped +
    (tally.issues.filter (·.rule = .unread)).length = handled.length

theorem skips_descend {names : List String} (hnames : Path.AreNames names) (kind : EntryKind) :
    skips root filter ⟨root.descend names, kind⟩ = false ↔
      (names ≠ [] → filter.ignored ⟨Path.joinSlashes names⟩ = false) := by
  unfold skips
  rw [Path.relativeTo_descend root hnames]
  have isEmpty_iff : (Path.mk (Path.joinSlashes names)).isEmpty = true ↔ names = [] := by
    rw [← Path.joinSlashes_eq_empty hnames, Path.isEmpty_iff]
  cases empty : (Path.mk (Path.joinSlashes names)).isEmpty with
  | true => simp [isEmpty_iff.mp empty]
  | false =>
    have nonempty : names ≠ [] := by
      intro none
      rw [isEmpty_iff.mpr none] at empty
      cases empty
    simp [nonempty]

theorem takes_descend {names : List String} (hnames : Path.AreNames names) :
    takes root filter ⟨root.descend names, .file⟩ = true ↔
      skips root filter ⟨root.descend names, .file⟩ = false ∧
        filter.accepts ⟨Path.joinSlashes names⟩ = true := by
  unfold takes
  rw [Path.relativeTo_descend root hnames]
  simp

theorem kind_of_takes {entry : Walk.Entry} (h : takes root filter entry = true) :
    entry.kind = .file := by
  simp only [takes, Bool.and_eq_true, decide_eq_true_eq] at h
  exact h.2.1

/-- A survey takes the files that it is to handle. -/
theorem handles_iff (hdisk : disk.WellFormed) (hroot : disk.kind root = .ok .directory)
    {names : List String} (hnames : Path.AreNames names) :
    Handles disk root filter names ↔
      .entry ⟨root.descend names, .file⟩ ∈ Walk.pruned disk true (skips root filter) root ∧
        takes root filter ⟨root.descend names, .file⟩ = true := by
  rw [Walk.mem_pruned_iff hdisk hroot hnames (by simp), takes_descend hnames]
  have proper {before after : List String} (split : names = before ++ after) :
      Path.AreNames before := (Path.areNames_append.mp (split ▸ hnames)).1
  constructor
  · intro h
    obtain ⟨reached, kept, accepted⟩ := h
    refine ⟨⟨reached, ?_⟩, ?_, accepted⟩
    · intro before after split _
      exact (skips_descend (proper split) _).mpr (kept before after split)
    · exact (skips_descend hnames _).mpr (kept names [] (List.append_nil names).symm)
  · intro h
    obtain ⟨⟨reached, around⟩, here, accepted⟩ := h
    refine ⟨reached, ?_, accepted⟩
    intro before after split
    by_cases whole : after = []
    · rw [whole, List.append_nil] at split
      subst split
      exact (skips_descend hnames _).mp here
    · exact (skips_descend (proper split) _).mp (around before after split whole)

/-- The files that a survey takes can be told by the names that lead to them, which are those of the
    files that it is to handle, in order. -/
theorem exists_handled (filter : Filter) (hdisk : disk.WellFormed) (hroot : disk.kind root = .ok .directory) :
    ∃ handled : List (List String),
      (∀ names, names ∈ handled ↔ Handles disk root filter names) ∧
      handled.Pairwise (· < ·) ∧
      (findings disk root filter).filter (·.isOfFile) = handled.map (findingAtNames disk root) := by
  let happened := Walk.pruned disk true (skips root filter) root
  let taken := (Walk.entries happened).filter (takes root filter)
  have below : ∀ path ∈ taken.map (·.path), Walk.Below root path := by
    intro path hmem
    obtain ⟨entry, inTaken, rfl⟩ := List.mem_map.mp hmem
    have inEntries := (List.mem_filter.mp inTaken).1
    exact Walk.below_of_mem_pruned hdisk (Walk.mem_entries.mp inEntries)
  obtain ⟨handled, areNames, paths⟩ := Walk.exists_names_of_below below
  refine ⟨handled, ?_, ?_, ?_⟩
  · intro names
    constructor
    · intro hmem
      have hnames := areNames names hmem
      have inPaths : root.descend names ∈ taken.map (·.path) :=
        paths ▸ List.mem_map_of_mem hmem
      obtain ⟨⟨path, kind⟩, inTaken, same⟩ := List.mem_map.mp inPaths
      obtain ⟨inEntries, takes⟩ := List.mem_filter.mp inTaken
      obtain rfl : path = root.descend names := same
      obtain rfl : kind = .file := kind_of_takes takes
      exact (handles_iff hdisk hroot hnames).mpr ⟨Walk.mem_entries.mp inEntries, takes⟩
    · intro handles
      have hnames := handles.reached.areNames hdisk
      obtain ⟨reported, takes⟩ := (handles_iff hdisk hroot hnames).mp handles
      have inPaths : root.descend names ∈ taken.map (·.path) :=
        List.mem_map.mpr ⟨_, List.mem_filter.mpr ⟨Walk.mem_entries.mpr reported, takes⟩, rfl⟩
      rw [paths] at inPaths
      obtain ⟨others, hmem, same⟩ := List.mem_map.mp inPaths
      exact Path.descend_injective (areNames others hmem) hnames same ▸ hmem
  · have order : (taken.map (·.path)).Pairwise (Walk.Precedes root) :=
      (Walk.pairwise_pruned hdisk true (skips root filter) root).sublist (List.filter_sublist.map _)
    rw [paths, List.pairwise_map] at order
    refine order.imp_of_mem ?_
    intro names others hmem hmem' precedes
    exact (Walk.precedes_descend (areNames names hmem) (areNames others hmem')).mp precedes
  · have byPath : taken.map (fun entry =>
          findingOf (entry.path.relativeTo root) (disk.read entry.path)) =
        (taken.map (·.path)).map fun path => findingOf (path.relativeTo root) (disk.read path) := by
      rw [List.map_map]
      rfl
    rw [findings, filter_isOfFile_findingAt, byPath, paths, List.map_map]
    apply List.map_congr_left
    intro names hmem
    rw [findingAtNames, Function.comp_apply, Path.relativeTo_descend root (areNames names hmem)]

/-- What a survey finds on a disk accounts for the files that it is to handle. -/
theorem exists_accounts (hdisk : disk.WellFormed) (hroot : disk.kind root = .ok .directory) :
    ∃ handled, Accounts disk root filter handled (texts disk root filter)
      (tally disk root filter) := by
  obtain ⟨handled, mem_iff, ordered, files⟩ := exists_handled filter hdisk hroot
  have nonempty : ∀ names ∈ handled, names ≠ [] := by
    rintro names hmem rfl
    have atRoot := Walk.Reached.nil_iff.mp ((mem_iff []).mp hmem).reached
    rw [hroot] at atRoot
    cases atRoot
  have before : handled.Pairwise fun names others =>
      Path.Before ⟨Path.joinSlashes names⟩ ⟨Path.joinSlashes others⟩ := by
    refine ordered.imp_of_mem ?_
    intro names others hmem hmem' hlt
    exact Path.before_of_lt (((mem_iff names).mp hmem).reached.areNames hdisk)
      (((mem_iff others).mp hmem').reached.areNames hdisk) (nonempty names hmem) hlt
  have visits : texts disk root filter =
      (handled.map (findingAtNames disk root)).filterMap (·.text?) := by
    rw [← files, filterMap_text?_filter, texts]
  have counted : tally disk root filter =
      ⟨(texts disk root filter).length, (findings disk root filter).countP (·.isBinary),
        (findings disk root filter).filterMap (·.issue?)⟩ := by
    rw [tally, foldl_add, texts]
    simp [Tally.zero]
  have binary : (tally disk root filter).binarySkipped =
      (handled.map (findingAtNames disk root)).countP (·.isBinary) := by
    rw [counted, ← files, countP_isBinary_filter]
  have unread : (tally disk root filter).issues.filter (·.rule = .unread) =
      (handled.map (findingAtNames disk root)).filterMap (·.issue?) := by
    rw [counted, ← files, filterMap_issue?_filter]
  refine ⟨handled, mem_iff, before, visits, ?_, by rw [counted], binary, unread, ?_⟩
  · rw [visits, List.filterMap_map, List.pairwise_filterMap]
    refine before.imp ?_
    intro names others hbefore file found other found'
    rw [file_of_findingOf found, file_of_findingOf found']
    exact hbefore
  · have ofFiles : ∀ finding ∈ handled.map (findingAtNames disk root),
        finding.isOfFile = true := by
      intro finding hmem
      obtain ⟨names, -, rfl⟩ := List.mem_map.mp hmem
      exact isOfFile_findingOf _ _
    rw [binary, unread, counted, visits, length_of_isOfFile ofFiles, List.length_map]

end Survey

/-- If its visitor leaves the disk alone and never fails, a survey of a directory visits the right
    files, each once and in order, and accounts for the others. -/
theorem survey_accounts {σ τ ε : Type} (root : Path) (filter : Filter)
    (visit : τ → String → String → Session σ (τ × Option ε)) (kept : τ) (state : Session.State σ)
    (hdisk : state.disk.WellFormed) (hroot : state.disk.kind root = .ok .directory)
    (hvisit : ∀ kept file text (now : Session.State σ), now.disk = state.disk →
      (Session.exec (visit kept file text) now).2.disk = state.disk ∧
        (Session.exec (visit kept file text) now).1.2 = none) :
    ∃ handled visited tally,
      Survey.Accounts state.disk root filter handled visited tally ∧
      Session.exec (survey root filter visit kept) state =
        let ended := Session.exec (Session.handOver visit visited kept) state
        ((ended.1, .ok tally), ended.2) := by
  obtain ⟨handled, accounts⟩ := Survey.exists_accounts hdisk hroot
  exact ⟨handled, _, _, accounts, Session.exec_survey hvisit hdisk kept rfl⟩

/-- A disk with a text, a file that is not UTF-8, a file that may not be read, and a link to the
    directory that the text is in. -/
def Disk.mixed : Disk :=
  let folders :=
    (Disk.empty.insert ["src"] (.directory .full)).insert ["a", "src"] (.directory .full)
  let readable := (folders.insert ["z.lua", "a", "src"] (.file "x".toUTF8 .full)).insert
    ["a.lua", "src"] (.file ⟨#[0xff]⟩ .full)
  let files := readable.insert ["b.lua", "src"] (.file "y".toUTF8 ⟨false, true, false⟩)
  files.insert ["c", "src"] (.link "a")

theorem Disk.wellFormed_mixed : Disk.mixed.WellFormed := by
  unfold mixed
  iterate 6 refine WellFormed.insert ?_ rfl (by decide) (by intro access h; cases h)
  exact wellFormed_empty

/-- The directory comes before the file whose name goes on with a dot. -/
theorem survey_accounts_mixed :
    let visit : List String → String → String → Session Unit (List String × Option Empty) :=
      fun seen file _ => pure (seen ++ [file], none)
    let surveyed := Session.exec (survey ⟨"/src"⟩ ⟨[], ["lua"]⟩ visit []) ((), World.ofDisk .mixed [])
    surveyed.1 = (["a/z.lua", "c/z.lua"],
      .ok ⟨2, 1, [.unread "b.lua" "Permission denied (os error 13)"]⟩) ∧
    ∃ handled visited tally,
      Survey.Accounts .mixed ⟨"/src"⟩ ⟨[], ["lua"]⟩ handled visited tally ∧
      surveyed =
        let ended := Session.exec (Session.handOver visit visited []) ((), World.ofDisk .mixed [])
        ((ended.1, .ok tally), ended.2) :=
  ⟨by decide +kernel, survey_accounts ⟨"/src"⟩ ⟨[], ["lua"]⟩ _ [] ((), World.ofDisk .mixed [])
    Disk.wellFormed_mixed (by decide +kernel) fun _ _ _ _ same => ⟨same, rfl⟩⟩

end Phrasebook
