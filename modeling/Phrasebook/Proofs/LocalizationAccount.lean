import Phrasebook.Proofs.Listing
import Phrasebook.Proofs.Localization

/-!
# The account of a localization

What becomes of a listed file is settled by the disk before the localization: it is unread, not a
text, without a match, unwritten or rewritten. Main statement: in whatever order the listed files are
localized, the rewritten ones get their localized texts, nothing else on the disk changes, and the
numbers that are returned are those of the files by what becomes of them.
-/

namespace Phrasebook

namespace Disk

/-- Only the contents and permissions of files differ between the disks. -/
structure Recast (disk disk' : Disk) : Prop where
  forth : Extends disk disk'
  back : Extends disk' disk

variable {disk disk' : Disk}

theorem Recast.refl (disk : Disk) : Recast disk disk :=
  ⟨.refl disk, .refl disk⟩

theorem Recast.insert (h : Recast disk disk') {place : Location} {old node : Node}
    (found : disk'.get? place = some old) (hold : old.IsFile) (hnode : node.IsFile) :
    Recast disk (disk'.insert place node) where
  forth := h.forth.trans (extends_insert (.inr ⟨old, found, hold, hnode⟩))
  back := by
    have shrinks : Extends (disk'.insert place node) disk' := by
      refine ⟨rfl, fun location other there => ?_⟩
      rw [get?_insert] at there
      split at there
      · next same =>
        obtain rfl := Option.some.inj there
        exact .inr ⟨hnode, old, same ▸ found, hold⟩
      · exact .inl there
    exact shrinks.trans h.back

/-- Paths lead to the same place. -/
theorem Recast.find_eq_ok (h : Recast disk disk') {ending : Ending} {path : Path}
    {place : Location} {node : Node} (hfind : disk.find ending path = .ok (place, node))
    {node' : Node} (there : disk'.get? place = some node') :
    disk'.find ending path = .ok (place, node') := by
  obtain ⟨other, found⟩ := find_extend h.forth hfind
  obtain rfl := Option.some.inj (there.symm.trans (get?_of_find found))
  exact found

/-- A path that leads to nothing goes on doing so. -/
theorem Recast.find_eq_error (h : Recast disk disk') {ending : Ending} {path : Path} {e : OsError}
    (hfind : disk.find ending path = .error e) : ∃ e', disk'.find ending path = .error e' := by
  cases found : disk'.find ending path with
  | error e' => exact ⟨e', rfl⟩
  | ok reached =>
    obtain ⟨node, found'⟩ := find_extend h.back found
    simp [hfind] at found'

/-- A file that can be opened for writing keeps its permissions. -/
theorem write_of_located {path : Path} {place : Location} {content : ByteArray} {access : Access}
    (h : disk.locate .written path = .ok (.occupied place (.file content access)))
    (bytes : ByteArray) :
    disk.write path bytes =
      if access.write then .ok (disk.insert place (.file bytes access)) else .error .denied := by
  rw [write, store, h]
  simp

end Disk

namespace Localization

/-- What can become of a file. -/
inductive Fate where
  /-- It cannot be found or not be read. -/
  | unread
  /-- Its bytes are no text. -/
  | binary
  /-- Nothing is to be replaced in its text. -/
  | unmatched
  /-- Something is to be replaced, but it cannot be written. -/
  | unwritten
  | rewritten
  deriving DecidableEq, Repr

/-- What becomes of the file that a path leads to on a disk. -/
def fate (disk : Disk) (replacements : List Replacement) (path : Path) : Fate :=
  match disk.find .target path with
  | .ok (_, .file content access) =>
    if !access.read then .unread
    else
      match String.fromUTF8? content with
      | none => .binary
      | some text =>
        if (localizeText text replacements).2 = 0 then .unmatched
        else if access.write then .rewritten
        else .unwritten
  | _ => .unread

/-- How many occurrences are to be replaced in the file that a path leads to. -/
def occurrences (disk : Disk) (replacements : List Replacement) (path : Path) : Nat :=
  match disk.find .target path with
  | .ok (_, .file content _) => replacedIn replacements content
  | _ => 0

/-- The issue that a file gives rise to, without what went wrong. -/
def complaint (disk : Disk) (root : Path) (replacements : List Replacement) (path : Path) :
    Option (Rule × String) :=
  match fate disk replacements path with
  | .unread => some (.unread, (path.relativeTo root).text)
  | .unwritten => some (.unwritten, (path.relativeTo root).text)
  | _ => none

/-- Each file is in one of the numbers. -/
theorem length_eq_fates (disk : Disk) (root : Path) (replacements : List Replacement)
    (paths : List Path) :
    paths.length =
      paths.countP (fate disk replacements · = .rewritten) +
      paths.countP (fate disk replacements · = .binary) +
      (paths.filterMap (complaint disk root replacements)).length +
      paths.countP (fate disk replacements · = .unmatched) := by
  induction paths with
  | nil => rfl
  | cons path paths ih =>
    rw [List.length_cons, ih]
    cases h : fate disk replacements path <;> simp [h, complaint] <;> omega

/-- Files have been localized that were on a disk in the beginning: those to be rewritten hold their
    localized texts, nothing else has changed, and the numbers count the files by what has become of
    them. -/
structure Account (disk : Disk) (root : Path) (replacements : List Replacement)
    (paths : List Path) (before after : Disk) (start result : Localized) : Prop where
  here : after.here = before.here
  files : ∀ path ∈ paths, ∀ place content access,
    disk.find .target path = .ok (place, .file content access) →
      after.get? place = some (.file
        (if fate disk replacements path = .rewritten then localizedBytes replacements content
          else content) access)
  others : ∀ place, after.get? place ≠ before.get? place →
    ∃ path ∈ paths, fate disk replacements path = .rewritten ∧
      ∃ content access, disk.find .target path = .ok (place, .file content access)
  filesVisited : result.filesVisited = start.filesVisited
  filesChanged : result.filesChanged = start.filesChanged +
    paths.countP (fate disk replacements · = .rewritten)
  replaced : result.replacements = start.replacements +
    ((paths.filter (fate disk replacements · = .rewritten)).map
      (occurrences disk replacements)).sum
  binarySkipped : result.binarySkipped = start.binarySkipped +
    paths.countP (fate disk replacements · = .binary)
  issues : ∃ more, result.issues = start.issues ++ more ∧
    more.map (fun issue => (issue.rule, issue.path)) =
      paths.filterMap (complaint disk root replacements)

section

variable {disk : Disk} {root : Path} {replacements : List Replacement}

/-- The outcome of localizing a file tells what becomes of it. -/
def Outcome.Tells (disk : Disk) (root : Path) (replacements : List Replacement) (path : Path)
    (outcome : Outcome) : Prop :=
  match fate disk replacements path with
  | .unread => ∃ e, outcome = .failed (.unread (path.relativeTo root).text e)
  | .binary => outcome = .binary
  | .unmatched => outcome = .unchanged
  | .unwritten => ∃ e, outcome = .failed (.unwritten (path.relativeTo root).text e)
  | .rewritten => outcome = .changed (occurrences disk replacements path)

/-- The account of one file. -/
theorem account_singleton {path : Path} {before after : Disk} {outcome : Outcome}
    (htells : outcome.Tells disk root replacements path) (hhere : after.here = before.here)
    (hfile : ∀ place content access, disk.find .target path = .ok (place, .file content access) →
      after.get? place = some (.file
        (if fate disk replacements path = .rewritten then localizedBytes replacements content
          else content) access))
    (hothers : ∀ place, after.get? place ≠ before.get? place →
      fate disk replacements path = .rewritten ∧
        ∃ content access, disk.find .target path = .ok (place, .file content access))
    (start : Localized) :
    Account disk root replacements [path] before after start (addOutcome start outcome) := by
  unfold Outcome.Tells at htells
  cases hfate : fate disk replacements path with
  | unread | unwritten =>
    simp only [hfate] at htells
    obtain ⟨e, rfl⟩ := htells
    refine ⟨hhere, by simpa using hfile, by simpa using hothers, ?_, ?_, ?_, ?_, ?_⟩
    all_goals simp [addOutcome, hfate, complaint, Issue.rule, Issue.path]
  | binary | unmatched | rewritten =>
    simp only [hfate] at htells
    subst htells
    refine ⟨hhere, by simpa using hfile, by simpa using hothers, ?_, ?_, ?_, ?_, ?_⟩
    all_goals simp [addOutcome, hfate, complaint]

/-- A file that gives rise to an issue could not be read or not be written. -/
theorem rule_of_complaint {path : Path} {rule : Rule} {text : String}
    (h : complaint disk root replacements path = some (rule, text)) :
    rule = .unread ∨ rule = .unwritten := by
  unfold complaint at h
  cases hfate : fate disk replacements path with
  | unread | unwritten => simp_all
  | binary | unmatched | rewritten => simp [hfate] at h

/-- Each file that was to be localized is in one of the numbers. -/
theorem Account.length_eq {paths : List Path} {before after : Disk} {start result : Localized}
    (h : Account disk root replacements paths before after start result)
    (hstart : ∀ issue ∈ start.issues, issue.rule = .unlisted) :
    start.filesChanged + start.binarySkipped + paths.length =
      result.filesChanged + result.binarySkipped +
      result.issues.countP (fun issue => issue.rule = .unread ∨ issue.rule = .unwritten) +
      paths.countP (fate disk replacements · = .unmatched) := by
  obtain ⟨more, issues, complaints⟩ := h.issues
  have none : start.issues.countP
      (fun issue => issue.rule = .unread ∨ issue.rule = .unwritten) = 0 :=
    List.countP_eq_zero.mpr fun issue hmem => by simp [hstart issue hmem]
  have all : more.countP
      (fun issue => issue.rule = .unread ∨ issue.rule = .unwritten) = more.length := by
    refine List.countP_eq_length.mpr fun issue hmem => ?_
    have inComplaints : (issue.rule, issue.path) ∈
        paths.filterMap (complaint disk root replacements) := by
      rw [← complaints]
      exact List.mem_map.mpr ⟨issue, hmem, rfl⟩
    obtain ⟨path, -, complained⟩ := List.mem_filterMap.mp inComplaints
    simpa using rule_of_complaint complained
  have number : more.length = (paths.filterMap (complaint disk root replacements)).length := by
    rw [← complaints, List.length_map]
  have total := length_eq_fates disk root replacements paths
  rw [issues, List.countP_append, none, all, number, h.filesChanged, h.binarySkipped]
  omega

theorem Account.append {paths more : List Path} {before between after : Disk}
    {start middle result : Localized}
    (h : Account disk root replacements paths before between start middle)
    (h' : Account disk root replacements more between after middle result)
    (hapart : ∀ path ∈ paths, ∀ other ∈ more, ∀ place node node',
      disk.find .target path = .ok (place, node) → disk.find .target other ≠ .ok (place, node')) :
    Account disk root replacements (paths ++ more) before after start result where
  here := h'.here.trans h.here
  files := by
    intro path hmem place content access hfind
    rcases List.mem_append.mp hmem with first | later
    · rw [← h.files path first place content access hfind]
      by_contra changed
      obtain ⟨other, hother, -, content', access', hfind'⟩ := h'.others place changed
      exact hapart path first other hother place _ _ hfind hfind'
    · exact h'.files path later place content access hfind
  others := by
    intro place changed
    by_cases same : after.get? place = between.get? place
    · rw [same] at changed
      obtain ⟨path, hmem, rest⟩ := h.others place changed
      exact ⟨path, List.mem_append_left _ hmem, rest⟩
    · obtain ⟨path, hmem, rest⟩ := h'.others place same
      exact ⟨path, List.mem_append_right _ hmem, rest⟩
  filesVisited := h'.filesVisited.trans h.filesVisited
  filesChanged := by rw [h'.filesChanged, h.filesChanged, List.countP_append, Nat.add_assoc]
  replaced := by
    rw [h'.replaced, h.replaced, List.filter_append, List.map_append, List.sum_append,
      Nat.add_assoc]
  binarySkipped := by rw [h'.binarySkipped, h.binarySkipped, List.countP_append, Nat.add_assoc]
  issues := by
    obtain ⟨first, same, complaints⟩ := h.issues
    obtain ⟨later, same', complaints'⟩ := h'.issues
    refine ⟨first ++ later, ?_, ?_⟩
    · rw [same', same, List.append_assoc]
    · rw [List.map_append, complaints, complaints', List.filterMap_append]

end

end Localization

namespace Session

open Disk Walk Phrasebook.Localization

variable {σ : Type} {disk : Disk} {root : Path} {replacements : List Replacement}

/-- What is found at a path is a file, which can be opened for writing if its permissions allow. -/
def LeadsToFile (disk : Disk) (path : Path) : Prop :=
  ∀ place node, disk.find .target path = .ok (place, node) →
    node.IsFile ∧ disk.locate .written path = .ok (.occupied place node)

section

variable {state : State σ} {path : Path}

theorem exec_localizeFile_unread {e : OsError} (h : state.disk.read path = .error e) :
    exec (localizeFile root replacements path) state =
      (.failed (.unread (path.relativeTo root).text e.message), state) := by
  rw [localizeFile, exec_bind, exec_read, h]
  rfl

theorem exec_localizeFile_binary {content : ByteArray} (h : state.disk.read path = .ok content)
    (decoded : String.fromUTF8? content = none) :
    exec (localizeFile root replacements path) state = (.binary, state) := by
  rw [localizeFile, exec_bind, exec_read, h]
  simp only [decoded]
  rfl

theorem exec_localizeFile_unmatched {content : ByteArray} {text : String}
    (h : state.disk.read path = .ok content) (decoded : String.fromUTF8? content = some text)
    (hnone : (localizeText text replacements).2 = 0) :
    exec (localizeFile root replacements path) state = (.unchanged, state) := by
  rw [localizeFile, exec_bind, exec_read, h]
  simp only [decoded]
  generalize localizeText text replacements = localized at hnone
  obtain ⟨localized, count⟩ := localized
  subst hnone
  rfl

theorem exec_localizeFile_written {content : ByteArray} {text : String}
    (h : state.disk.read path = .ok content) (decoded : String.fromUTF8? content = some text)
    (hsome : (localizeText text replacements).2 ≠ 0) :
    exec (localizeFile root replacements path) state =
      match state.disk.write path (localizeText text replacements).1.toUTF8 with
      | .ok after => (.changed (localizeText text replacements).2, state.setDisk after)
      | .error e => (.failed (.unwritten (path.relativeTo root).text e.message), state) := by
  rw [localizeFile, exec_bind, exec_read, h]
  simp only [decoded]
  generalize localizeText text replacements = localized at hsome ⊢
  obtain ⟨localized, _ | count⟩ := localized
  · simp at hsome
  · simp only [exec_bind, exec_write]
    cases state.disk.write path localized.toUTF8 with
    | ok after => rfl
    | error e => rfl

end

/-- Localizing the file at a path makes of it, and of nothing else, what the first disk says. -/
def Localizes (disk : Disk) (root : Path) (replacements : List Replacement) (path : Path)
    (state : State σ) : Prop :=
  ∃ outcome after,
    exec (localizeFile root replacements path) state = (outcome, state.setDisk after) ∧
    Recast disk after ∧
    ∀ start, Account disk root replacements [path] state.disk after start
      (addOutcome start outcome)

section

variable {state : State σ} {path : Path} (hrecast : Recast disk state.disk)
include hrecast

theorem localizes_kept {outcome : Localization.Outcome}
    (hthere : ∀ place content access, disk.find .target path = .ok (place, .file content access) →
      state.disk.get? place = some (.file content access))
    (hexec : exec (localizeFile root replacements path) state = (outcome, state))
    (hfate : fate disk replacements path ≠ .rewritten)
    (htells : outcome.Tells disk root replacements path) :
    Localizes disk root replacements path state := by
  refine ⟨outcome, state.disk, hexec, hrecast, account_singleton htells rfl ?_ (by simp)⟩
  intro place content access hfind
  rw [if_neg hfate]
  exact hthere place content access hfind

theorem localizes_rewritten {place : Location} {content : ByteArray} {access : Access}
    (hfind : disk.find .target path = .ok (place, .file content access))
    (hthere : state.disk.get? place = some (.file content access))
    (hexec : exec (localizeFile root replacements path) state =
      (.changed (replacedIn replacements content),
        state.setDisk (state.disk.insert place (.file (localizedBytes replacements content) access))))
    (hfate : fate disk replacements path = .rewritten) :
    Localizes disk root replacements path state := by
  refine ⟨_, _, hexec, hrecast.insert hthere (by simp) (by simp), account_singleton ?_ rfl ?_ ?_⟩
  · rw [Outcome.Tells, hfate]
    simp [occurrences, hfind]
  · intro place' content' access' hfind'
    obtain ⟨rfl, same⟩ := Prod.mk.inj (Except.ok.inj (hfind.symm.trans hfind'))
    obtain ⟨rfl, rfl⟩ := Node.file.inj same
    rw [get?_insert_self, if_pos hfate]
  · intro place' changed
    by_cases same : place' = place
    · exact ⟨hfate, content, access, same ▸ hfind⟩
    · exact absurd (get?_insert_of_ne _ _ same) changed

variable (root replacements) in
/-- One file is localized, others being rewritten before or not. -/
theorem localizes (hfile : LeadsToFile disk path)
    (hthere : ∀ place content access, disk.find .target path = .ok (place, .file content access) →
      state.disk.get? place = some (.file content access)) :
    Localizes disk root replacements path state := by
  have unread : ∀ e, state.disk.read path = .error e → fate disk replacements path = .unread →
      Localizes disk root replacements path state := by
    intro e hread hfate
    refine localizes_kept hrecast hthere (exec_localizeFile_unread hread) (by simp [hfate]) ?_
    rw [Outcome.Tells, hfate]
    exact ⟨_, rfl⟩
  cases hfind : disk.find .target path with
  | error e =>
    obtain ⟨e', hfind'⟩ := hrecast.find_eq_error hfind
    exact unread e' (by rw [Disk.read, hfind']) (by rw [fate, hfind])
  | ok reached =>
    obtain ⟨place, node⟩ := reached
    obtain ⟨⟨content, access, rfl⟩, located⟩ := hfile place node hfind
    have there := hthere place content access hfind
    have hfind' := hrecast.find_eq_ok hfind there
    by_cases readable : access.read = true
    case neg =>
      refine unread .denied ?_ ?_
      · rw [Disk.read, hfind']
        simp [Node.readable, readable]
      · rw [fate, hfind]
        simp [readable]
    have hread : state.disk.read path = .ok content := by
      rw [Disk.read, hfind']
      simp [Node.readable, readable]
    cases decoded : String.fromUTF8? content with
    | none =>
      have hfate : fate disk replacements path = .binary := by
        rw [fate, hfind]
        simp [readable, decoded]
      exact localizes_kept hrecast hthere (exec_localizeFile_binary hread decoded)
        (by simp [hfate]) (by rw [Outcome.Tells, hfate])
    | some text =>
      by_cases unmatched : (localizeText text replacements).2 = 0
      · have hfate : fate disk replacements path = .unmatched := by
          rw [fate, hfind]
          simp [readable, decoded, unmatched]
        exact localizes_kept hrecast hthere (exec_localizeFile_unmatched hread decoded unmatched)
          (by simp [hfate]) (by rw [Outcome.Tells, hfate])
      have located' : state.disk.locate .written path =
          .ok (.occupied place (.file content access)) :=
        find_eq_ok_iff.mp (hrecast.find_eq_ok (find_eq_ok_iff.mpr located) there)
      have written : exec (localizeFile root replacements path) state = _ :=
        exec_localizeFile_written hread decoded unmatched
      rw [write_of_located located'] at written
      by_cases writable : access.write = true
      · have hfate : fate disk replacements path = .rewritten := by
          rw [fate, hfind]
          simp [readable, decoded, unmatched, writable]
        rw [if_pos writable] at written
        refine localizes_rewritten hrecast hfind there ?_ hfate
        rw [written, replacedIn, localizedBytes, decoded]
      · have hfate : fate disk replacements path = .unwritten := by
          rw [fate, hfind]
          simp [readable, decoded, unmatched, writable]
        rw [if_neg writable] at written
        refine localizes_kept hrecast hthere written (by simp [hfate]) ?_
        rw [Outcome.Tells, hfate]
        exact ⟨_, rfl⟩

end

variable (root replacements) in
/-- Files are localized one after the other. -/
theorem exec_localizeAll {paths : List Path} (hfiles : ∀ path ∈ paths, LeadsToFile disk path)
    (hapart : paths.Pairwise fun path other => ∀ place node node',
      disk.find .target path = .ok (place, node) → disk.find .target other ≠ .ok (place, node'))
    {state : State σ} (hrecast : Recast disk state.disk)
    (hthere : ∀ path ∈ paths, ∀ place content access,
      disk.find .target path = .ok (place, .file content access) →
        state.disk.get? place = some (.file content access)) (start : Localized) :
    ∃ result after,
      exec (localizeAll root replacements paths start) state = (result, state.setDisk after) ∧
      Account disk root replacements paths state.disk after start result := by
  induction paths generalizing state start with
  | nil =>
    refine ⟨start, state.disk, rfl, ?_⟩
    exact ⟨rfl, by simp, by simp, rfl, rfl, rfl, rfl, [], by simp, rfl⟩
  | cons path paths ih =>
    obtain ⟨apart, hapart⟩ := List.pairwise_cons.mp hapart
    obtain ⟨outcome, between, hexec, recast, first⟩ := localizes root replacements hrecast
      (hfiles path List.mem_cons_self) (hthere path List.mem_cons_self)
    have recast : Recast disk (state.setDisk between).disk := recast
    have still : ∀ other ∈ paths, ∀ place content access,
        disk.find .target other = .ok (place, .file content access) →
          (state.setDisk between).disk.get? place = some (.file content access) := by
      intro other hmem place content access hfind
      rw [← hthere other (List.mem_cons_of_mem _ hmem) place content access hfind]
      by_contra changed
      obtain ⟨path', hmem', -, content', access', hfind'⟩ := (first start).others place changed
      obtain rfl := List.mem_singleton.mp hmem'
      exact apart other hmem place _ _ hfind' hfind
    obtain ⟨result, after, rest, later⟩ := ih
      (fun other hmem => hfiles other (List.mem_cons_of_mem _ hmem)) hapart recast still
      (addOutcome start outcome)
    refine ⟨result, after, ?_, (first start).append later ?_⟩
    · rw [localizeAll, exec_bind, hexec, rest]
      rfl
    · simpa using apart

/-! ## The listed files -/

/-- The regular files below a directory that are reached without following links: where they stand,
    and where their paths lead, if they lead anywhere. -/
structure Listing (disk : Disk) (root : Path) (top : Location) (listed : List Path) : Prop where
  nodup : listed.Nodup
  mem_iff : ∀ path, path ∈ listed ↔
    ∃ names, Path.AreNames names ∧ names ≠ [] ∧ path = root.descend names ∧
      Stands disk (names.reverse ++ top) .file ∧ OpenAlong disk root names
  place : ∀ names, Path.AreNames names → root.descend names ∈ listed → ∀ place node,
    disk.find .target (root.descend names) = .ok (place, node) → place = names.reverse ++ top

section

variable (hdisk : disk.WellFormed) {top : Location} (hroot : disk.Opens root top)
include hdisk hroot

omit hroot in
theorem linkFree_of_stands {names : List String}
    (hstands : Stands disk (names.reverse ++ top) .file) :
    disk.LinkFree top (names.reverse ++ top) := by
  obtain ⟨node, found, kind⟩ := hstands
  obtain ⟨content, access, rfl⟩ := Node.kind_eq_file.mp kind
  exact hdisk.linkFree_of_get? found (by simp)

theorem listing_files (hkind : disk.kind root = .ok .directory) :
    Listing disk root top (files (events disk false root)) where
  nodup := nodup_files hdisk false root
  mem_iff _ := mem_files_iff hdisk hroot hkind
  place := by
    intro names hnames hmem place node hfind
    obtain ⟨others, hothers, hne, same, stands, -⟩ := (mem_files_iff hdisk hroot hkind).mp hmem
    obtain rfl := Path.descend_injective hnames hothers same
    exact hroot.place_eq hnames hne (linkFree_of_stands hdisk stands)
      (find_eq_ok_iff.mp hfind)

variable {listed : List Path} (hlisting : Listing disk root top listed)
include hlisting

theorem leadsToFile_of_listing {path : Path} (hmem : path ∈ listed) : LeadsToFile disk path := by
  intro place node hfind
  obtain ⟨names, hnames, hne, rfl, stands, -⟩ := (hlisting.mem_iff path).mp hmem
  have free := linkFree_of_stands hdisk stands
  obtain rfl := hlisting.place names hnames hmem place node hfind
  obtain ⟨node', found, kind⟩ := stands
  obtain rfl := Option.some.inj ((get?_of_find hfind).symm.trans found)
  exact ⟨Node.kind_eq_file.mp kind, hroot.locate_eq_ok hnames hne free (find_eq_ok_iff.mp hfind)⟩

omit hdisk hroot in
/-- No two of the listed files are the same. -/
theorem pairwise_of_listing {order : List Path} (hperm : order.Perm listed) :
    order.Pairwise fun path other => ∀ place node node',
      disk.find .target path = .ok (place, node) →
        disk.find .target other ≠ .ok (place, node') := by
  refine (hperm.nodup_iff.mpr hlisting.nodup).imp_of_mem ?_
  intro path other hpath hother hne place node node' hfind hfind'
  have hpath := hperm.mem_iff.mp hpath
  have hother := hperm.mem_iff.mp hother
  obtain ⟨names, hnames, -, rfl, -⟩ := (hlisting.mem_iff path).mp hpath
  obtain ⟨others, hothers, -, rfl, -⟩ := (hlisting.mem_iff other).mp hother
  have same := hlisting.place names hnames hpath place node hfind
  have same' := hlisting.place others hothers hother place node' hfind'
  have : names = others := by simpa using same.symm.trans same'
  exact hne (congrArg root.descend this)

end

variable (root) in
/-- With an empty catalog the files are only listed. -/
theorem exec_localizeTree_of_empty {state : State σ} (hdisk : state.disk.WellFormed)
    {catalog : Catalog} (hcatalog : catalog.sentences = []) (table : String) :
    exec (localizeTree root catalog table) state =
      (⟨(files (events state.disk false root)).length, 0, 0, 0,
        unlisted root (events state.disk false root)⟩, state) := by
  rw [localizeTree, exec_bind, exec_walk_localize root hdisk]
  simp only [List.isEmpty_iff, hcatalog, if_true]
  rfl

variable (root) in
/-- With any other catalog the listed files are localized one after the other. -/
theorem exec_localizeTree {state : State σ} (hdisk : state.disk.WellFormed) {catalog : Catalog}
    (hcatalog : catalog.sentences ≠ []) (table : String) :
    exec (localizeTree root catalog table) state =
      exec (localizeAll root (Replacement.ofCatalog catalog table)
        (files (events state.disk false root))
        ⟨(files (events state.disk false root)).length, 0, 0, 0,
          unlisted root (events state.disk false root)⟩) state := by
  rw [localizeTree, exec_bind, exec_walk_localize root hdisk]
  simp only [List.isEmpty_iff, hcatalog, if_false]

variable (replacements) in
/-- In whatever order the listed files are localized, they are accounted for. -/
theorem exec_localizeAll_of_perm {state : State σ} (hdisk : state.disk.WellFormed)
    (hroot : state.disk.kind root = .ok .directory) {order : List Path}
    (hperm : order.Perm (files (events state.disk false root))) (start : Localized) :
    ∃ result after,
      exec (localizeAll root replacements order start) state = (result, state.setDisk after) ∧
      Account state.disk root replacements order state.disk after start result := by
  obtain ⟨top, opens⟩ := opens_of_kind hroot
  have listing := listing_files hdisk opens hroot
  exact exec_localizeAll root replacements
    (fun path hmem => leadsToFile_of_listing hdisk opens listing (hperm.mem_iff.mp hmem))
    (pairwise_of_listing listing hperm) (.refl state.disk)
    (fun path _ place content access hfind => get?_of_find hfind) start

end Session

/-- The account of a localization: whatever the order in which the listed files are taken, those that
    are to be rewritten get their localized texts and nothing else on the disk changes, and each
    listed file is counted once as rewritten, skipped, reported or without a match. -/
theorem account_localizeAll {σ : Type} (state : Session.State σ) (hdisk : state.disk.WellFormed)
    (root : Path) (hroot : state.disk.kind root = .ok .directory) (catalog : Catalog)
    (hcatalog : catalog.sentences ≠ []) (table : String) :
    let disk := state.disk
    let listed := Walk.files (Walk.events disk false root)
    let replacements := Replacement.ofCatalog catalog table
    ∃ top issues, disk.Opens root top ∧ Session.Listing disk root top listed ∧
      (∀ issue ∈ issues, issue.rule = .unlisted) ∧
      let start : Localized := ⟨listed.length, 0, 0, 0, issues⟩
      Session.exec (localizeTree root catalog table) state =
          Session.exec (Localization.localizeAll root replacements listed start) state ∧
      ∀ order : List Path, order.Perm listed → ∃ result after,
        Session.exec (Localization.localizeAll root replacements order start) state =
          (result, state.setDisk after) ∧
        Localization.Account disk root replacements order disk after start result ∧
        result.filesVisited = result.filesChanged + result.binarySkipped +
          result.issues.countP (fun issue => issue.rule = .unread ∨ issue.rule = .unwritten) +
          order.countP (Localization.fate disk replacements · = .unmatched) := by
  intro disk listed replacements
  obtain ⟨top, opens⟩ := Disk.opens_of_kind hroot
  have listing := Session.listing_files hdisk opens hroot
  let issues := Walk.unlisted root (Walk.events disk false root)
  have rules : ∀ issue ∈ issues, issue.rule = .unlisted := fun _ => Walk.rule_of_mem_unlisted
  refine ⟨top, issues, opens, listing, rules, ?_, fun order hperm => ?_⟩
  · exact Session.exec_localizeTree root hdisk hcatalog table
  · obtain ⟨result, after, hexec, account⟩ :=
      Session.exec_localizeAll_of_perm replacements hdisk hroot hperm ⟨listed.length, 0, 0, 0, issues⟩
    refine ⟨result, after, hexec, account, ?_⟩
    have total := account.length_eq rules
    rw [account.filesVisited, ← hperm.length_eq]
    simpa using total

/-- A folder with a file for each fate, beside a link to a file outside. -/
def Disk.shelf : Disk :=
  let text := "print(\"Hello world\")\n".toUTF8
  Disk.empty.insert ["t"] (.directory .full)
    |>.insert ["a.lua", "t"] (.file text .full)
    |>.insert ["b.lua", "t"] (.file ⟨#[255]⟩ .full)
    |>.insert ["c.lua", "t"] (.file text ⟨true, false, false⟩)
    |>.insert ["d.lua", "t"] (.file "return 1".toUTF8 .full)
    |>.insert ["e.lua", "t"] (.file text ⟨false, true, false⟩)
    |>.insert ["f.lua", "t"] (.link "../o.lua")
    |>.insert ["o.lua"] (.file text .full)

theorem Disk.wellFormed_shelf : Disk.shelf.WellFormed := by
  unfold shelf
  iterate 8 refine WellFormed.insert ?_ rfl (by decide) (by intro access h; cases h)
  exact wellFormed_empty

/-- The catalog of one sentence. -/
def Catalog.greeting : Catalog :=
  ⟨[⟨"Hello world", ⟨"a.lua", 1⟩⟩]⟩

/-- Five files are listed; one is rewritten, and the one behind the link is left alone. -/
theorem account_shelf :
    ∃ result after,
      Session.exec (localizeTree ⟨"/t"⟩ .greeting "T") ((), World.ofDisk .shelf []) =
        (result, Session.State.setDisk ((), World.ofDisk .shelf []) after) ∧
      result.filesVisited = 5 ∧ result.filesChanged = 1 ∧ result.binarySkipped = 1 ∧
      result.issues.countP (fun issue => issue.rule = .unread ∨ issue.rule = .unwritten) = 2 ∧
      after.get? ["o.lua"] = Disk.shelf.get? ["o.lua"] := by
  obtain ⟨top, issues, -, -, -, tree, orders⟩ :=
    account_localizeAll ((), World.ofDisk .shelf []) Disk.wellFormed_shelf ⟨"/t"⟩
      (by decide +kernel) .greeting (by decide) "T"
  obtain ⟨result, after, hexec, account, total⟩ := orders _ (.refl _)
  let listed := Walk.files (Walk.events Disk.shelf false ⟨"/t"⟩)
  have five : listed.length = 5 := by decide +kernel
  have once : ∀ which ∈ [Localization.Fate.rewritten, .binary, .unmatched], listed.countP
      (Localization.fate .shelf (Replacement.ofCatalog .greeting "T") · = which) = 1 := by
    decide +kernel
  have visited : result.filesVisited = 5 := account.filesVisited.trans five
  have changed : result.filesChanged = 1 :=
    account.filesChanged.trans ((Nat.zero_add _).trans (once .rewritten (by simp)))
  have skipped : result.binarySkipped = 1 :=
    account.binarySkipped.trans ((Nat.zero_add _).trans (once .binary (by simp)))
  refine ⟨result, after, tree.trans hexec, visited, changed, skipped, ?_, ?_⟩
  · have sum := total.trans (congrArg (_ + ·) (once .unmatched (by simp)))
    omega
  · by_contra differs
    obtain ⟨path, hmem, -, content, access, hfind⟩ := account.others _ differs
    have elsewhere : ∀ path ∈ Walk.files (Walk.events Disk.shelf false ⟨"/t"⟩),
        (Disk.shelf.find .target path).map Prod.fst ≠ .ok ["o.lua"] := by
      decide +kernel
    exact elsewhere path hmem (congrArg (Except.map Prod.fst) hfind)

end Phrasebook
