import Phrasebook.Proofs.Containment
import Phrasebook.Proofs.CopyLog
import Phrasebook.Proofs.Disk.Filling
import Phrasebook.Proofs.Lookout

/-!
# Failures of a copy stay where they are

A tree is copied to a location that the walk through the tree does not look into, and in which there
are no links. Main statement: each directory and each file outside of all directories that could not be
made is either made or copied, and counted, or it is reported once; below a directory that could not be
made nothing happens; and the rest of the disk is as before, but for missing directories above the
destination.
-/

namespace Phrasebook

namespace Session

open Disk TreeCopy

variable {σ : Type} {start state later : State σ} {source destination path : Path}
  {output : Location}

/-! ## Making one directory -/

/-- A directory whose parent is there is made alone, or is there already, or nothing changes. -/
theorem exec_makeDirectories_inner (hempty : path.isEmpty = false) (hparent : path.parent? ≠ none)
    (hentry : state.disk.makeDirectory path ≠ .error .noEntry) :
    (∃ disk, state.disk.makeDirectory path = .ok disk ∧
      exec (Storage.makeDirectories path) state = (.ok (), state.setDisk disk)) ∨
    (state.disk.kind path = .ok .directory ∧
      exec (Storage.makeDirectories path) state = (.ok (), state)) ∨
    ∃ e, exec (Storage.makeDirectories path) state = (.error e, state) := by
  obtain ⟨parents, ancestors⟩ := path.exists_ancestors
  have goesOn : (path.isEmpty || path.parent?.isNone) = false := by
    simp [hempty, Option.isSome_iff_ne_none, hparent]
  rw [Storage.makeDirectories, ancestors, exec_bind, Storage.makeTopmost,
    if_neg (by simp [goesOn]), exec_bind, exec_makeDirectory]
  cases made : state.disk.makeDirectory path with
  | ok disk => exact .inl ⟨disk, rfl, rfl⟩
  | error e =>
    right
    cases e with
    | noEntry => exact absurd made hentry
    | alreadyThere =>
      simp only [attempt, exec_bind]
      by_cases there : (exec (Storage.isDirectory path) state).1 = true
      · refine .inl ⟨kind_of_isDirectory there, ?_⟩
        rw [there]
        rfl
      · refine .inr ⟨.alreadyThere, ?_⟩
        rw [Bool.not_eq_true] at there
        rw [there]
        rfl
    | denied | notDirectory | isDirectory | tooManyLinks | nameTooLong | other =>
      exact .inr ⟨_, rfl⟩

/-! ## Where a copy goes -/

/-- The disk after it has been tried to make a directory. -/
def diskMade (start : State σ) (path : Path) : Disk :=
  (exec (Storage.makeDirectories path) start).2.disk

/-- A copy goes to a location that is aside from what is copied: it holds no links, and the walk through
    the source does not get there. -/
structure Aside (start : State σ) (source destination : Path) (output : Location) : Prop where
  /-- A directory is copied to where the destination leads once it has been made. -/
  directory : .entry ⟨source, .directory⟩ ∈ Walk.events start.disk true source →
    (exec (Storage.makeDirectories destination) start).1 = .ok () →
    (diskMade start destination).Opens destination output
  /-- A file is copied to where the destination is written. -/
  file : .entry ⟨source, .file⟩ ∈ Walk.events start.disk true source →
    ∀ spot, start.disk.locate .written destination = .ok spot → spot.place = output
  noLink : ∀ place node, output <:+ place → start.disk.get? place = some node → ¬ node.IsLink
  /-- Of the location and what is below it the walk looks at directories at most. -/
  unseen : ∀ seen, Walk.LooksAt start.disk source seen → output <:+ seen → start.disk.Holds seen
  /-- The directories that have to be made for the destination are none that the walk looks for. -/
  unchanged : ∀ seen, Walk.LooksAt start.disk source seen →
    (diskMade start destination).get? seen = start.disk.get? seen

section

variable (hdisk : start.disk.WellFormed)
include hdisk

theorem grows_diskMade (destination : Path) :
    start.disk.Grows (fun path node => Path.Above path destination ∧ node = .directory .full)
      (diskMade start destination) :=
  (within_makeDirectories (fun _ above => ⟨above, rfl⟩) start hdisk).1

/-- What has changed after a directory has been made was missing and is a directory above it. -/
theorem changed_diskMade {place : Location}
    (hchanged : (diskMade start destination).get? place ≠ start.disk.get? place) :
    start.disk.get? place = none ∧ ∃ above, Path.Above above destination ∧
      (diskMade start destination).find .target above = .ok (place, .directory .full) := by
  have grows := @grows_diskMade σ start hdisk destination
  obtain ⟨above, node, ⟨isAbove, rfl⟩, found⟩ := grows.footprint hchanged
  refine ⟨?_, above, isAbove, found⟩
  by_contra there
  obtain ⟨old, before⟩ := Option.ne_none_iff_exists'.mp there
  rcases grows.extends.kept place old before with same | ⟨-, node, found', isFile⟩
  · exact hchanged (same.trans before.symm)
  · obtain rfl := Option.some.inj (found'.symm.trans (get?_of_find found))
    simp at isFile

end

/-- The disk on which the copy fills the location: if directories were to be made, the root was the
    first of them. -/
def ground (start : State σ) (destination : Path) (dirs : List Attempt) : Disk :=
  if dirs = [] then start.disk else diskMade start destination

theorem ground_eq (start : State σ) (destination : Path) (dirs : List Attempt) :
    ground start destination dirs = start.disk ∨
      ground start destination dirs = diskMade start destination := by
  rw [ground]
  split
  · exact .inl rfl
  · exact .inr rfl

namespace Aside

variable (haside : Aside start source destination output) (hdisk : start.disk.WellFormed)
  {dirs : List Attempt} {done : List String → Prop} {now : Disk}

include haside hdisk in
theorem fills_diskMade (done : List String → Prop) :
    (diskMade start destination).Fills output done (diskMade start destination) := by
  have grows := @grows_diskMade σ start hdisk destination
  refine .refl (grows.wellFormed hdisk) ?_ done
  intro place node below found isLink
  exact haside.noLink place node below (grows.link found isLink) isLink

variable (hfills : (ground start destination dirs).Fills output done now)
include haside hdisk hfills

omit hdisk in
/-- What the walk looks at is as it was in the beginning. -/
theorem get?_eq {seen : Location} (hseen : Walk.LooksAt start.disk source seen) :
    now.get? seen = start.disk.get? seen := by
  have same : (ground start destination dirs).get? seen = start.disk.get? seen := by
    rcases ground_eq start destination dirs with h | h
    · rw [h]
    · rw [h, haside.unchanged seen hseen]
  by_cases below : output <:+ seen
  · have holds : (ground start destination dirs).Holds seen := by
      obtain ⟨access, found⟩ := haside.unseen seen hseen below
      exact ⟨access, same.trans found⟩
    rw [hfills.get?_of_holds holds, same]
  · rw [hfills.get?_of_not_below below, same]

omit haside in
theorem extends_now : Extends start.disk now := by
  refine Extends.trans ?_ hfills.extended
  rcases ground_eq start destination dirs with h | h
  · rw [h]
    exact .refl _
  · rw [h]
    exact (grows_diskMade hdisk destination).extends

/-- What the walk reports leads to what it led to in the beginning. -/
theorem find_eq {names : List String} (hnames : Path.AreNames names) {kind : EntryKind}
    (hreported : .entry ⟨source.descend names, kind⟩ ∈ Walk.events start.disk true source) :
    now.find .target (source.descend names) = start.disk.find .target (source.descend names) :=
  (Walk.asksAbout_of_mem_events hdisk hnames hreported).find_eq (extends_now hdisk hfills).here
    (fun _ hseen => haside.get?_eq hfills hseen) .target (by simp)

/-- A file that the walk reports stands elsewhere. -/
theorem elsewhere {names : List String} (hnames : Path.AreNames names) {kind : EntryKind}
    (hreported : .entry ⟨source.descend names, kind⟩ ∈ Walk.events start.disk true source)
    {place : Location} {content : ByteArray} {access : Access}
    (hfound : now.find .target (source.descend names) = .ok (place, .file content access)) :
    ¬ output <:+ place := by
  rw [haside.find_eq hdisk hfills hnames hreported] at hfound
  intro below
  have asks := Walk.asksAbout_of_mem_events hdisk hnames hreported
  obtain ⟨_, holds⟩ := haside.unseen place ⟨names, asks, meets_of_find hnames hfound⟩ below
  simp [get?_of_find hfound] at holds

end Aside

/-! ## Directories -/

/-- At some time in the course of the copy the operation failed like this. -/
def Refuses (start : State σ) (after : Disk) (program : Session σ (Except OsError Unit))
    (e : OsError) : Prop :=
  ∃ between, Extends start.disk between ∧ Extends between after ∧
    (exec program (start.setDisk between)).1 = .error e

theorem Refuses.extend {now after : Disk} {program : Session σ (Except OsError Unit)} {e : OsError}
    (h : Refuses start now program e) (hextends : Extends now after) :
    Refuses start after program e := by
  obtain ⟨between, before, extends', failed⟩ := h
  exact ⟨between, before, extends'.trans hextends, failed⟩

/-- Where the session stands when the directories have been made as far as they could be. -/
structure Grounded (start : State σ) (destination : Path) (output : Location) (dirs : List Attempt)
    (state : State σ) : Prop where
  kept : state = start.setDisk state.disk
  fills : (ground start destination dirs).Fills output (fun names => (names, none) ∈ dirs) state.disk
  idle : dirs = [] → state.disk = start.disk
  opens : ∀ names, (names, none) ∈ dirs → (diskMade start destination).Opens destination output
  holds : ∀ names, (names, none) ∈ dirs → state.disk.Holds (names.reverse ++ output)
  refused : ∀ names e, (names, some e) ∈ dirs →
    Refuses start state.disk (Storage.makeDirectories (destination.descend names)) e

/-- The root is made, or it is refused. -/
theorem grounded_root (haside : Aside start source destination output)
    (hdisk : start.disk.WellFormed)
    (hroot : .entry ⟨source, .directory⟩ ∈ Walk.events start.disk true source)
    {result : Except OsError Unit}
    (htried : exec (Storage.makeDirectories destination) start = (result, later)) :
    Grounded start destination output [([], failure? result)] later := by
  have made : diskMade start destination = later.disk := by rw [diskMade, htried]
  have kept := setDisk_makeDirectories destination start
  rw [htried] at kept
  have opens {names : List String} (hmem : (names, none) ∈ [([], failure? result)]) :
      names = [] ∧ (diskMade start destination).Opens destination output := by
    obtain ⟨rfl, succeeded⟩ := Prod.mk.inj (List.mem_singleton.mp hmem)
    refine ⟨rfl, haside.directory hroot ?_⟩
    rw [htried, failure?_eq_none.mp succeeded.symm]
  refine ⟨kept, ?_, by simp, fun names hmem => (opens hmem).2, ?_, ?_⟩
  · rw [ground, if_neg (by simp), ← made]
    exact haside.fills_diskMade hdisk _
  · intro names hmem
    obtain ⟨rfl, there⟩ := opens hmem
    exact made ▸ there.holds
  · intro names e hmem
    obtain ⟨rfl, failed⟩ := Prod.mk.inj (List.mem_singleton.mp hmem)
    refine ⟨start.disk, .refl _, made ▸ (grows_diskMade hdisk destination).extends, ?_⟩
    have same : exec (Storage.makeDirectories destination) (start.setDisk start.disk) =
        (result, later) := htried
    rw [Path.descend_nil, same, failure?_eq_some.mp failed.symm]

namespace Grounded

variable {dirs : List Attempt} (h : Grounded start destination output dirs state)
include h

/-- Below the root one more directory is made or refused. -/
theorem snoc {names : List String} {outcome : Option OsError}
    (hkept : later = start.setDisk later.disk) (hextends : Extends state.disk later.disk)
    (hopens : (diskMade start destination).Opens destination output)
    (hfills : (diskMade start destination).Fills output
      (fun other => (other, none) ∈ dirs ∨ (other = names ∧ outcome = none)) later.disk)
    (hholds : outcome = none → later.disk.Holds (names.reverse ++ output))
    (hrefused : ∀ e, outcome = some e →
      Refuses start later.disk (Storage.makeDirectories (destination.descend names)) e) :
    Grounded start destination output (dirs ++ [(names, outcome)]) later := by
  refine ⟨hkept, ?_, by simp, fun _ _ => hopens, ?_, ?_⟩
  · rw [ground, if_neg (by simp)]
    exact hfills.mono fun other done => by simpa [eq_comm] using done
  · intro other hmem
    rcases List.mem_append.mp hmem with before | last
    · exact hextends.holds (h.holds other before)
    · obtain ⟨rfl, succeeded⟩ := Prod.mk.inj (List.mem_singleton.mp last)
      exact hholds succeeded.symm
  · intro other e hmem
    rcases List.mem_append.mp hmem with before | last
    · exact (h.refused other e before).extend hextends
    · obtain ⟨rfl, failed⟩ := Prod.mk.inj (List.mem_singleton.mp last)
      exact hrefused e failed.symm

/-- A directory whose parent has been made needs no other directory. -/
theorem inner (hdisk : start.disk.WellFormed) {init : List String} {last : String}
    (hnames : Path.AreNames (init ++ [last])) (hparent : (init, none) ∈ dirs)
    {result : Except OsError Unit}
    (htried : exec (Storage.makeDirectories (destination.descend (init ++ [last]))) state =
      (result, later)) :
    Grounded start destination output (dirs ++ [(init ++ [last], failure? result)]) later := by
  have hne : dirs ≠ [] := List.ne_nil_of_mem hparent
  have opens := h.opens init hparent
  have before : Extends start.disk state.disk := Aside.extends_now hdisk h.fills
  have fills := h.fills
  rw [ground, if_neg hne] at fills
  have nonempty : (destination.descend (init ++ [last])).isEmpty = false := by
    rw [Path.descend_append]
    exact Path.isEmpty_child _ (hnames last (by simp))
  have entry := fills.makeDirectory_ne_noEntry opens hnames (h.holds init hparent)
  rcases exec_makeDirectories_inner nonempty
      (Path.parent?_descend_ne_none destination hnames (by simp)) entry with
    ⟨disk, made, same⟩ | ⟨there, same⟩ | ⟨e, same⟩
  · obtain ⟨rfl, rfl⟩ := Prod.mk.inj (htried.symm.trans same)
    have grown : state.disk.Grows (fun _ _ => True) disk := grows_of_makeDirectory trivial made
    obtain ⟨fills', holds⟩ := fills.makeDirectory opens hnames (by simp) made
    refine h.snoc ?_ grown.extends opens (fills'.mono ?_) (fun _ => holds) (by simp [failure?])
    · rw [h.kept]
      rfl
    · exact fun other done => done.imp_right fun same => ⟨same, rfl⟩
  · obtain ⟨rfl, rfl⟩ := Prod.mk.inj (htried.symm.trans same)
    exact h.snoc h.kept (.refl _) opens (fills.mono fun _ => .inl)
      (fun _ => fills.holds_of_kind opens hnames (by simp) there) (by simp [failure?])
  · obtain ⟨rfl, rfl⟩ := Prod.mk.inj (htried.symm.trans same)
    refine h.snoc h.kept (.refl _) opens (fills.mono fun _ => .inl) (by simp [failure?]) ?_
    intro e' failed
    refine ⟨_, before, .refl _, ?_⟩
    rw [← h.kept, same, failure?_eq_some.mp failed]

/-- An event of the walk leaves the session on the same ground. -/
theorem step (haside : Aside start source destination output) (hdisk : start.disk.WellFormed)
    {before after : List Walk.Event} {log log' : Log} (hdirs : log.dirs = dirs)
    (hrecorded : Recorded source destination before log) {event : Walk.Event}
    (hsplit : Walk.events start.disk true source = before ++ event :: after)
    (hstep : CopyStep source destination log state event log' later) :
    Grounded start destination output log'.dirs later := by
  subst hdirs
  cases hstep with
  | trouble => exact h
  | left => exact h
  | passed => exact h
  | noted => exact h
  | @tried names result _ hnames outside htried =>
    have reported : .entry ⟨source.descend names, .directory⟩ ∈
        Walk.events start.disk true source := by simp [hsplit]
    rcases List.eq_nil_or_concat' names with rfl | ⟨init, last, rfl⟩
    · -- The root comes first, so nothing has been tried before.
      have none : log.dirs = [] := List.eq_nil_iff_forall_not_mem.mpr fun attempt hmem =>
        List.not_lt_nil _ (hrecorded.lt_next hdisk hsplit hnames hmem)
      obtain rfl : state = start := by
        rw [h.kept, h.idle none]
        rfl
      simp only [none, List.nil_append]
      exact grounded_root haside hdisk reported htried
    · have hinit := (Path.areNames_append.mp hnames).1
      have parent := Walk.directory_of_mem_events hdisk hnames (by simp) reported
      have made := hrecorded.mem_made hinit
        (Walk.mem_before_of_lt hdisk hsplit hnames hinit (lt_snoc init last) parent)
        (outside.above (List.prefix_append _ _))
      exact h.inner hdisk hnames made htried

end Grounded

/-- A file of the source stands in its place with the bytes it had in the beginning, unless a device
    was there, which keeps none. -/
def Arrived (before : Disk) (source : Path) (output : Location) (names : List String)
    (after : Disk) : Prop :=
  ∃ content, before.read (source.descend names) = .ok content ∧
    ((∃ access, after.get? (names.reverse ++ output) = some (.file content access)) ∨
      (before.get? (names.reverse ++ output) = some .device ∧
        after.get? (names.reverse ++ output) = some .device))

/-- The files have been copied as far as they could be. -/
structure Stored (start : State σ) (source destination : Path) (output : Location)
    (dirs files : List Attempt) (now : Disk) : Prop where
  fills : (ground start destination dirs).Fills output (fun names => (names, none) ∈ dirs ++ files)
    now
  arrived : ∀ names, (names, none) ∈ files → Arrived start.disk source output names now
  refused : ∀ names e, (names, some e) ∈ files →
    Refuses start now (Storage.copy (source.descend names) (destination.descend names)) e

/-- A device has been there from the start. -/
theorem device_of_ground (hdisk : start.disk.WellFormed) {dirs : List Attempt} {place : Location}
    (h : (ground start destination dirs).get? place = some .device) :
    start.disk.get? place = some .device := by
  rcases ground_eq start destination dirs with same | same
  · rwa [same] at h
  · rw [same] at h
    by_contra other
    obtain ⟨-, above, -, found⟩ := changed_diskMade hdisk fun kept => other (kept.symm.trans h)
    simp [get?_of_find found] at h

namespace Stored

variable {dirs files : List Attempt} {now after : Disk} {names : List String}
  (h : Stored start source destination output dirs files now)
include h

theorem copy (haside : Aside start source destination output) (hdisk : start.disk.WellFormed)
    (hnames : Path.AreNames names)
    (hreported : .entry ⟨source.descend names, .file⟩ ∈ Walk.events start.disk true source)
    (hfresh : names ∉ files.map (·.1))
    (hplace : ∀ spot, now.locate .written (destination.descend names) = .ok spot →
      spot.place = names.reverse ++ output)
    (hcopy : now.copy (source.descend names) (destination.descend names) = .ok after) :
    Extends now after ∧
      Stored start source destination output dirs (files ++ [(names, none)]) after := by
  have grown : now.Grows (fun _ _ => True) after :=
    grows_of_copy (fun _ _ => trivial) h.fills.wellFormed hcopy
  obtain ⟨fills, content, access, bytes, stands⟩ := h.fills.copy hplace
    (fun _ _ _ found => haside.elsewhere hdisk h.fills hnames hreported found) hcopy
  have bytes' : start.disk.read (source.descend names) = .ok content := by
    rw [← bytes, Disk.read, Disk.read, haside.find_eq hdisk h.fills hnames hreported]
  refine ⟨grown.extends, fills.mono ?_, ?_, ?_⟩
  · intro other done
    simpa [or_assoc] using done
  · intro other hmem
    rcases List.mem_append.mp hmem with before | last
    · have differs : other ≠ names := by
        rintro rfl
        exact hfresh (List.mem_map.mpr ⟨_, before, rfl⟩)
      have same : after.get? (other.reverse ++ output) = now.get? (other.reverse ++ output) := by
        rcases stands with ⟨-, rfl⟩ | rfl
        · rfl
        · exact get?_insert_of_ne now _ (by simpa using differs)
      have arrived := h.arrived other before
      rwa [Arrived, ← same] at arrived
    · obtain ⟨rfl, -⟩ := Prod.mk.inj (List.mem_singleton.mp last)
      refine ⟨content, bytes', ?_⟩
      rcases stands with ⟨device, rfl⟩ | rfl
      · exact .inr ⟨device_of_ground hdisk (h.fills.device _ device), device⟩
      · exact .inl ⟨access, get?_insert_self ..⟩
  · intro other e hmem
    exact (h.refused other e (by simpa using hmem)).extend grown.extends

end Stored

theorem Stored.outside {dirs files : List Attempt} {after : Disk} (hdisk : start.disk.WellFormed)
    (h : Stored start source destination output dirs files after) {place : Location}
    (hchanged : after.get? place ≠ start.disk.get? place) :
    (∃ names, (names, none) ∈ dirs ++ files ∧ place = names.reverse ++ output) ∨
      (start.disk.get? place = none ∧ ∃ above, Path.Above above destination ∧
        after.find .target above = .ok (place, .directory .full)) := by
  by_cases same : after.get? place = (ground start destination dirs).get? place
  · right
    rcases ground_eq start destination dirs with onStart | onMade
    · exact absurd (onStart ▸ same) hchanged
    · rw [onMade] at same
      obtain ⟨absent, above, isAbove, found⟩ := changed_diskMade hdisk (same ▸ hchanged)
      have extended := h.fills.extended
      rw [onMade] at extended
      obtain ⟨node, found'⟩ := find_extend extended found
      obtain rfl : node = .directory .full := Option.some.inj
        ((get?_of_find found').symm.trans (extended.directory (get?_of_find found)))
      exact ⟨absent, above, isAbove, found'⟩
  · exact .inl (h.fills.only place same)

end Session

end Phrasebook
