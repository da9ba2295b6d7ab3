import Mathlib.Data.List.Perm.Subperm
import Phrasebook.Proofs.Delivery
import Phrasebook.Proofs.LocalizationAccount
import Phrasebook.Proofs.SurveyFiles

/-!
# How many files a run skips

A run passes over files that are not UTF-8 in its review and again when it localizes the copy, and its
summary adds up both. Main statement: the number is that of the files which the filter lets through,
once more that of all files unless the catalog is empty, so it is the number of skipped files only if
those are the same or none.
-/

namespace Phrasebook

/-- The path leads to bytes that are not UTF-8. -/
def Disk.isBinary (disk : Disk) (path : Path) : Bool :=
  match disk.read path with
  | .ok bytes => (String.fromUTF8? bytes).isNone
  | .error _ => false

theorem Disk.isBinary_of_read {disk : Disk} {path : Path} {bytes : ByteArray}
    (h : disk.read path = .ok bytes) : disk.isBinary path = (String.fromUTF8? bytes).isNone := by
  rw [isBinary, h]

/-! ## The two counts -/

theorem Survey.isBinary_findingAtNames (disk : Disk) (root : Path) (names : List String) :
    (findingAtNames disk root names).isBinary = disk.isBinary (root.descend names) := by
  rw [findingAtNames, Disk.isBinary]
  cases disk.read (root.descend names) with
  | error e => rfl
  | ok bytes =>
    simp only [findingOf]
    cases String.fromUTF8? bytes with
    | none => rfl
    | some text => rfl

namespace Localization

variable {disk : Disk} {replacements : List Replacement} {path : Path}

/-- A file whose bytes are read is left for being binary if they are not UTF-8. -/
theorem fate_eq_binary_iff : fate disk replacements path = .binary ↔ disk.isBinary path = true := by
  have textOfNothing : String.fromUTF8? .empty = some "" := by decide
  rw [fate, Disk.isBinary, Disk.read]
  cases disk.find .target path with
  | error e => simp
  | ok reached =>
    obtain ⟨place, node⟩ := reached
    cases node with
    | directory access => cases readable : access.read <;> simp [Node.readable, readable]
    | link target => simp [Node.readable, textOfNothing]
    | device => simp [Node.readable, textOfNothing]
    | file content access =>
      cases readable : access.read with
      | false => simp [Node.readable, readable]
      | true =>
        cases decoded : String.fromUTF8? content with
        | none => simp [Node.readable, readable, decoded]
        | some text =>
          simp only [Node.readable, readable, decoded, Bool.not_true, Bool.false_eq_true, if_false,
            Option.isNone_some, iff_false]
          split
          · simp
          · split <;> simp

theorem read_of_fate (h : fate disk replacements path ≠ .unread) :
    ∃ bytes, disk.read path = .ok bytes := by
  rw [fate] at h
  rw [Disk.read]
  split at h
  · next place content access found =>
    rw [found]
    cases readable : access.read with
    | false => simp [readable] at h
    | true => exact ⟨content, by simp [Node.readable, readable]⟩
  · simp at h

/-- If no issues come up, every file has been read. -/
theorem Account.read_of_quiet {root : Path} {paths : List Path} {before after : Disk}
    {start result : Localized}
    (h : Account disk root replacements paths before after start result)
    (hquiet : result.issues = []) (hmem : path ∈ paths) :
    ∃ bytes, disk.read path = .ok bytes := by
  obtain ⟨more, issues, complaints⟩ := h.issues
  rw [hquiet] at issues
  obtain rfl : more = [] := (List.append_eq_nil_iff.mp issues.symm).2
  have none := List.filterMap_eq_nil_iff.mp complaints.symm path hmem
  have notUnread : fate disk replacements path ≠ .unread := by
    intro unread
    simp [complaint, unread] at none
  exact read_of_fate notUnread

end Localization

namespace Disk

open Walk

/-- If a tree that is no single file has been copied to a site, a walk which meets with no trouble
    finds a directory there. -/
theorem Stocked.kind_output {disk now : Disk} {source : Path} {output : Location}
    (h : disk.Stocked source output (files (events disk true source)) now)
    (hdisk : disk.WellFormed) (hsite : disk.IsSite output)
    (hsource : disk.kind source = .ok .directory)
    (hsmooth : Smooth (events now false output.path)) :
    now.kind output.path = .ok .directory := by
  cases there : now.find .entry output.path with
  | error e =>
    rw [events, entryKind, there] at hsmooth
    exact absurd List.mem_cons_self (hsmooth _)
  | ok reached =>
    obtain ⟨place, node⟩ := reached
    have same : place = output :=
      hsite.place_eq h.built Path.areNames_nil (find_eq_ok_iff.mp there)
    have found : now.get? output = some node := same ▸ get?_of_find there
    rcases hsite.plain_below h.built (List.suffix_refl _) found with ⟨access, rfl⟩ | isFile
    · -- The walk has listed the directory, so its path leads there.
      rw [events, entryKind, there] at hsmooth
      change Smooth (eventsFrom now false (4095 + 1) [] output.path .directory) at hsmooth
      rw [eventsFrom_of_directory] at hsmooth
      cases listed : now.list output.path with
      | error e =>
        rw [listed] at hsmooth
        exact absurd (List.mem_cons_of_mem _ List.mem_cons_self) (hsmooth _)
      | ok items =>
        obtain ⟨place', access', leads, -⟩ := list_eq_ok listed
        rw [kind, leads]
        rfl
    · -- A file would be a copy of the root.
      have reported := mem_files.mp
        (h.others [] node Path.areNames_nil (by simpa using found) isFile)
      rw [← pruned_none] at reported
      have atRoot := Reached.nil_iff.mp
        ((mem_pruned_iff hdisk hsource Path.areNames_nil (by simp)).mp reported).1
      rw [hsource] at atRoot
      cases atRoot

end Disk

/-! ## Skipped files -/

/-- The files below a source folder that are not UTF-8, and those among them that a survey handles. -/
structure Skipped (disk : Disk) (root : Path) (filter : Filter)
    (binaries surveyed : List (List String)) : Prop where
  distinct : binaries.Nodup
  mem_binaries : ∀ names, names ∈ binaries ↔
    Walk.Reached disk root names .file ∧ disk.isBinary (root.descend names) = true
  surveyedDistinct : surveyed.Nodup
  mem_surveyed : ∀ names, names ∈ surveyed ↔
    Survey.Handles disk root filter names ∧ disk.isBinary (root.descend names) = true

namespace Skipped

variable {disk : Disk} {root : Path} {filter : Filter} {binaries surveyed : List (List String)}
  (h : Skipped disk root filter binaries surveyed)
include h

theorem subset : surveyed ⊆ binaries := by
  intro names hmem
  obtain ⟨handles, isBinary⟩ := (h.mem_surveyed names).mp hmem
  exact (h.mem_binaries names).mpr ⟨handles.reached, isBinary⟩

/-- There are as many files with accepted paths as there are files exactly if all are accepted. -/
theorem length_eq_iff : surveyed.length = binaries.length ↔ binaries ⊆ surveyed := by
  have subperm := List.subperm_of_subset h.surveyedDistinct h.subset
  constructor
  · intro same
    exact (subperm.perm_of_length_le same.ge).symm.subset
  · intro subset
    exact le_antisymm subperm.length_le (List.subperm_of_subset h.distinct subset).length_le

end Skipped

section

open Walk

variable {disk : Disk} {root : Path} (hdisk : disk.WellFormed)
  (hroot : disk.kind root = .ok .directory)
include hdisk hroot

/-- The files that are found in a source folder, and those that its survey counts. -/
theorem exists_skipped (filter : Filter) :
    ∃ binaries surveyed, Skipped disk root filter binaries surveyed ∧
      (files (events disk true root)).countP disk.isBinary = binaries.length ∧
      (Survey.tally disk root filter).binarySkipped = surveyed.length := by
  obtain ⟨found, hfound, hfiles⟩ := exists_names_of_files hdisk true root
  obtain ⟨handled, accounts⟩ := @Survey.exists_accounts disk root filter hdisk hroot
  have nodup : found.Nodup := by
    have := nodup_files hdisk true root
    rw [hfiles] at this
    exact this.of_map
  have mem_found (names : List String) : names ∈ found ↔ Reached disk root names .file := by
    have reported {names} (hnames : Path.AreNames names) :
        root.descend names ∈ files (events disk true root) ↔ Reached disk root names .file := by
      rw [mem_files, ← pruned_none, mem_pruned_iff hdisk hroot hnames (by simp)]
      simp
    constructor
    · intro hmem
      exact (reported (hfound names hmem)).mp (hfiles ▸ List.mem_map_of_mem hmem)
    · intro reached
      have inFiles := (reported (reached.areNames hdisk)).mpr reached
      rw [hfiles] at inFiles
      obtain ⟨other, hother, same⟩ := List.mem_map.mp inFiles
      exact Path.descend_injective (hfound other hother) (reached.areNames hdisk) same ▸ hother
  have irrefl : ∀ path, ¬ Path.Before path path := fun path => List.lt_irrefl _
  refine ⟨found.filter fun names => disk.isBinary (root.descend names),
    handled.filter fun names => disk.isBinary (root.descend names), ⟨?_, ?_, ?_, ?_⟩, ?_, ?_⟩
  · exact nodup.filter _
  · intro names
    rw [List.mem_filter, mem_found]
  · refine (accounts.ordered.imp ?_).filter _
    rintro names _ before rfl
    exact irrefl _ before
  · intro names
    rw [List.mem_filter, accounts.mem_iff]
  · rw [hfiles, List.countP_map, List.countP_eq_length_filter]
    rfl
  · rw [accounts.binary, List.countP_map, List.countP_eq_length_filter]
    congr 2
    funext names
    exact Survey.isBinary_findingAtNames disk root names

end

namespace Session

open Disk Walk

/-- In a copy that is localized without issues, the files are counted that are not UTF-8 in the
    source. -/
theorem binarySkipped_localizeTree {σ : Type} {disk : Disk} {source : Path} {output : Location}
    (hdisk : disk.WellFormed) (hsite : disk.IsSite output)
    (hsource : disk.kind source = .ok .directory) {state state' : State σ}
    (hstocked : disk.Stocked source output (files (events disk true source)) state.disk)
    {catalog : Catalog} {table : String} {result : Localized}
    (hexec : exec (localizeTree output.path catalog table) state = (result, state'))
    (hquiet : result.issues = []) :
    result.binarySkipped =
      if catalog.sentences = [] then 0
      else (files (events disk true source)).countP disk.isBinary := by
  have hnow := hstocked.built.wellFormed
  split
  · next empty =>
    rw [exec_localizeTree_of_empty output.path hnow empty] at hexec
    rw [← (Prod.mk.inj hexec).1]
  · next nonempty =>
    rw [exec_localizeTree output.path hnow nonempty] at hexec
    have smooth := smooth_of_unlisted (quiet_of_localizeAll hexec hquiet)
    have directory := hstocked.kind_output hdisk hsite hsource smooth
    obtain ⟨found, hfound, hfiles⟩ := exists_names_of_files hnow false output.path
    have members := hsite.mem_found_iff hstocked.built smooth hfound hfiles
    have nodup : found.Nodup := by
      have := nodup_files hnow false output.path
      rw [hfiles] at this
      exact this.of_map
    have perm := hstocked.perm (nodup_files hdisk true source)
      (fun path hmem => below_of_mem_events hdisk (mem_files.mp hmem)) nodup members
    obtain ⟨_, after, hexec', account⟩ :=
      exec_localizeAll_of_perm (Replacement.ofCatalog catalog table) hnow directory (.refl _)
        ⟨(files (events state.disk false output.path)).length, 0, 0, 0,
          Walk.unlisted output.path (events state.disk false output.path)⟩
    obtain ⟨rfl, rfl⟩ := Prod.mk.inj (hexec'.symm.trans hexec)
    have count := account.binarySkipped
    simp only [Localization.fate_eq_binary_iff, Bool.decide_eq_true] at count
    rw [count, Nat.zero_add, hfiles, List.countP_map, ← perm.countP_eq, List.countP_map]
    refine List.countP_congr fun names hmem => ?_
    obtain ⟨hnames, node, there, content, access, rfl⟩ := (members names).mp hmem
    obtain ⟨bytes, hread⟩ := account.read_of_quiet hquiet (hfiles ▸ List.mem_map_of_mem hmem)
    obtain rfl := hsite.read_eq hstocked.built hnames there hread
    simp only [Function.comp_apply, isBinary_of_read hread,
      isBinary_of_read (hstocked.read_eq hnames there)]

end Session

/-- The number of skipped files in the summary of a run without issues: a file that is not UTF-8 is
    counted in the review if its path passes the filter, and again in the copy unless no sentence was
    approved. It is the number of such files exactly if they all pass the filter and no sentence was
    approved, or none does and some sentence was. -/
theorem binarySkipped_of_carryOut (disk : Disk) (hdisk : disk.WellFormed) (plan : Plan)
    (hroot : disk.kind plan.sourceRoot = .ok .directory) (output : Location)
    (houtput : plan.outputDir = output.path) (hsite : disk.IsSite output)
    (hapart : disk.Apart plan.sourceRoot output) :
    ∃ binaries surveyed, Skipped disk plan.sourceRoot plan.filter binaries surveyed ∧
      ∀ {σ ε : Type} (lift : Failure → ε) (confirm : Request → Session σ (Except ε Bool)),
        Session.Steady confirm → ∀ (state : Session.State σ), state.disk = disk →
        ∀ summary status, (Session.exec (Command.carryOut lift confirm plan) state).1 =
            .ok ⟨.run summary, [], status⟩ →
          summary.binarySkipped =
              surveyed.length + (if summary.catalog.sentences = [] then 0 else binaries.length) ∧
            (summary.binarySkipped = binaries.length ↔
              if summary.catalog.sentences = [] then binaries ⊆ surveyed else surveyed = []) := by
  obtain ⟨binaries, surveyed, skipped, inCopy, inReview⟩ :=
    exists_skipped hdisk hroot plan.filter
  refine ⟨binaries, surveyed, skipped, ?_⟩
  intro σ ε lift confirm hconfirm state hstate summary status hrun
  subst hstate
  generalize hexec : Session.exec (Command.carryOut lift confirm plan) state = ended at hrun
  obtain ⟨result, state'⟩ := ended
  obtain rfl : result = .ok ⟨.run summary, [], status⟩ := hrun
  obtain ⟨asked, reviewed, reviewEnd, copied, copyEnd, localized, localEnd, hreview, hcopy, hlocalize,
    -, same⟩ := Session.stages_of_carryOut hexec
  simp only [Outcome.mk.injEq, Summary.run.injEq, List.nil_eq, List.append_eq_nil_iff] at same
  obtain ⟨rfl, ⟨⟨-, copyQuiet⟩, localQuiet⟩, -⟩ := same
  have reviewKeeps : reviewEnd.disk = state.disk := by
    have := Session.disk_reviewTree hconfirm.keeps plan.sourceRoot plan.filter .empty hdisk
    rwa [hreview] at this
  have tally : reviewed.tally = Survey.tally state.disk plan.sourceRoot plan.filter := by
    obtain ⟨-, after, approved, reviewEnd', -, plain, -⟩ :=
      @Session.Steady.exec_reviewTree _ _ plan.sourceRoot plan.filter _ hconfirm .empty state hdisk
    have results := (Prod.mk.inj (hreview.symm.trans plain)).1
    rw [Except.ok.inj (Prod.mk.inj results).2]
  rw [houtput] at hcopy hlocalize
  obtain ⟨-, stocked⟩ := Session.stocked_copyTree hdisk hsite hapart reviewKeeps hcopy copyQuiet
  have inLocalized := Session.binarySkipped_localizeTree hdisk hsite hroot stocked hlocalize localQuiet
  have number : reviewed.tally.binarySkipped + localized.binarySkipped =
      surveyed.length + if reviewed.sentences = [] then 0 else binaries.length := by
    rw [tally, inReview, inLocalized, inCopy]
  refine ⟨number, ?_⟩
  simp only [number]
  split
  · exact skipped.length_eq_iff
  · rw [← List.length_eq_zero_iff]
    omega

/-- Carries out the run on the disk with one file that is not UTF-8, with an operator who approves of
    every sentence or of none. -/
def Session.verdict (approves : Bool) : Except Failure Outcome :=
  (Session.exec (Command.carryOut id (fun _ => pure (.ok approves)) (.greeting "/lang.lua"))
    ((), World.ofDisk .greeting [])).1

/-- What the run returns if no sentence is approved. -/
def RunSummary.silence : RunSummary :=
  ⟨⟨[]⟩, ⟨"/lang.lua"⟩, ⟨"/out"⟩, 1, 1, 2, 0, 0, 1⟩

theorem Session.verdict_eq (approves : Bool) :
    Session.verdict approves =
      .ok ⟨.run (if approves then .greeting "/lang.lua" else .silence), [], .success⟩ := by
  cases approves <;> decide +kernel

/-- One file is not UTF-8. If something is approved, it is counted twice. -/
theorem binarySkipped_greeting :
    Session.verdict true = .ok ⟨.run (.greeting "/lang.lua"), [], .success⟩ ∧
      Session.verdict false = .ok ⟨.run .silence, [], .success⟩ ∧
      ∃ binaries surveyed,
        Skipped .greeting ⟨"/src"⟩ ⟨[], []⟩ binaries surveyed ∧
          surveyed.length = 1 ∧ binaries.length = 1 := by
  have ran := Session.verdict_eq true
  have ran' := Session.verdict_eq false
  have clear : (Plan.greeting "/lang.lua").Clear .greeting ["out"] :=
    Plan.clear_greeting ⟨by decide +kernel, by decide +kernel⟩
  have steady (approves : Bool) : Session.Steady
      (fun _ => pure (.ok approves) : Request → Session Unit (Except Failure Bool)) :=
    ⟨fun _ _ => rfl, fun _ _ => ⟨approves, rfl⟩⟩
  obtain ⟨binaries, surveyed, skipped, counts⟩ := binarySkipped_of_carryOut .greeting
    Disk.wellFormed_greeting (.greeting "/lang.lua") (by decide +kernel) ["out"] rfl
    (clear.isSite Disk.wellFormed_greeting) clear.apart
  have twice := (counts id _ (steady true) _ rfl _ _ ran).1
  have once := (counts id _ (steady false) _ rfl _ _ ran').1
  have one : surveyed.length = 1 := once.symm
  refine ⟨ran, ran', binaries, surveyed, skipped, one, ?_⟩
  have : 2 = surveyed.length + binaries.length := twice
  omega

/-- The number of skipped files is no fact about the tree: where one file is not UTF-8, it is two or
    one, as the operator answers. -/
theorem binarySkipped_varies :
    (∃ names, ∀ other, other = names ↔ Walk.Reached .greeting ⟨"/src"⟩ other .file ∧
      Disk.greeting.isBinary (Path.descend ⟨"/src"⟩ other) = true) ∧
    ∃ summary summary',
      Session.verdict true = .ok ⟨.run summary, [], .success⟩ ∧ summary.binarySkipped = 2 ∧
      Session.verdict false = .ok ⟨.run summary', [], .success⟩ ∧ summary'.binarySkipped = 1 := by
  obtain ⟨binaries, surveyed, skipped, inSource, -⟩ :=
    @exists_skipped .greeting ⟨"/src"⟩ Disk.wellFormed_greeting (by decide +kernel) ⟨[], []⟩
  have one : (Walk.files (Walk.events .greeting true ⟨"/src"⟩)).countP Disk.greeting.isBinary = 1 := by
    decide +kernel
  obtain ⟨names, rfl⟩ := List.length_eq_one_iff.mp (inSource.symm.trans one)
  refine ⟨⟨names, fun other => ?_⟩, _, _, Session.verdict_eq true, rfl, Session.verdict_eq false, rfl⟩
  rw [← skipped.mem_binaries, List.mem_singleton]

end Phrasebook
