import Phrasebook.Proofs.Thread
import Phrasebook.Proofs.Walk
import Phrasebook.Survey

/-!
# Walks beside other threads

A walk in steps, on a disk that others change only where the walk does not look. Main statements: the
walk hands its visitor no other events than those of the disk it relies on, and surveys and reviews
end in the same way whatever the others do.
-/

namespace Phrasebook

namespace Threaded

open Walk

variable {α σ τ ε : Type} {rely : Disk → Prop} {may : Disk → Disk → Prop} {root : Path}
  {disk : Disk}

/-- The disks that a program relies on look alike to a walk, and leaving one as it is is allowed. -/
structure Looks (rely : Disk → Prop) (may : Disk → Disk → Prop) (root : Path) (disk : Disk) :
    Prop where
  wellFormed : disk.WellFormed
  stay : ∀ now, rely now → may now now
  alike : ∀ now, rely now → Alike root disk now

section

variable (h : Looks rely may root disk)
include h

theorem gives_inspect {f : Disk → α} {value : α} (hvalue : ∀ now, rely now → f now = value) :
    Gives rely may (StateT.lift (Thread.inspect f) : Threaded σ α) value := by
  intro own now hnow
  refine ⟨h.stay now hnow, ?_⟩
  rw [← hvalue now hnow]
  rfl

theorem gives_kind {path : Path} (hpath : Below root path) :
    Gives rely may (Storage.kind path : Threaded σ _) (disk.kind path) :=
  gives_inspect h fun now hnow => (h.alike now hnow).kind path hpath

theorem gives_entryKind {path : Path} (hpath : Below root path) :
    Gives rely may (Storage.entryKind path : Threaded σ _) (disk.entryKind path) :=
  gives_inspect h fun now hnow => (h.alike now hnow).entryKind path hpath

theorem gives_identify {path : Path} (hpath : Below root path) :
    Gives rely may (Storage.identify path : Threaded σ _) (disk.identify path) :=
  gives_inspect h fun now hnow => (h.alike now hnow).identify path hpath

/-- The names in a directory may come in another order. -/
theorem does_list {path : Path} (hpath : Below root path) :
    Does rely may (Storage.list path : Threaded σ _)
      fun listed => listed.map sortByName = (disk.list path).map sortByName :=
  fun _ now hnow => ⟨h.stay now hnow, (h.alike now hnow).list path hpath⟩

/-- A program that goes by the order of names in no directory settles. -/
theorem settles_list_bind {path : Path} (hpath : Below root path)
    {next : Except OsError (List (String × EntryKind)) → Threaded σ α}
    (hnext : ∀ listed, listed.map sortByName = (disk.list path).map sortByName →
      next listed = next (disk.list path))
    {result : α → Prop} (hsettles : Settles rely may (next (disk.list path)) result) :
    Settles rely may (Storage.list path >>= next) result := by
  intro own
  obtain ⟨ended, settled, hended⟩ := hsettles own
  refine ⟨ended, fun now hnow => ⟨h.stay now hnow, ?_⟩, hended⟩
  rw [← hnext (now.list path) ((h.alike now hnow).list path hpath)] at settled
  exact settled

theorem gives_sameDirectory (target : Path) {ancestors : List Path}
    (hancestors : ∀ path ∈ ancestors, Below root path) :
    Gives rely may (sameDirectory target ancestors : Threaded σ _)
      (sameDirectoryOn disk target ancestors) := by
  induction ancestors with
  | nil => exact gives_pure _
  | cons ancestor ancestors ih =>
    have ih := ih fun path hmem => hancestors path (List.mem_cons_of_mem _ hmem)
    rw [sameDirectory, sameDirectoryOn]
    refine (gives_identify h (hancestors ancestor List.mem_cons_self)).bind ?_
    cases disk.identify ancestor with
    | error e => exact gives_pure _
    | ok found =>
      simp only
      split
      · exact gives_pure _
      · exact ih

theorem gives_followLink {ancestors : List Path} (hancestors : ∀ path ∈ ancestors, Below root path)
    {link : Path} (hlink : Below root link) :
    Gives rely may (followLink ancestors link : Threaded σ _)
      (followLinkOn disk ancestors link) := by
  rw [followLink, followLinkOn]
  refine (gives_kind h hlink).bind ?_
  cases disk.kind link with
  | error e => exact gives_pure _
  | ok kind =>
    cases kind with
    | file | link | special => exact gives_pure _
    | directory =>
      simp only
      refine (gives_identify h hlink).bind ?_
      cases disk.identify link with
      | error e => exact gives_pure _
      | ok target =>
        simp only
        refine (gives_sameDirectory h target hancestors).bind ?_
        cases sameDirectoryOn disk target ancestors with
        | error e => exact gives_pure _
        | ok ancestor => cases ancestor <;> exact gives_pure _

theorem gives_resolveKind (follow : Bool) {ancestors : List Path}
    (hancestors : ∀ path ∈ ancestors, Below root path) {path : Path} (hpath : Below root path)
    (kind : EntryKind) :
    Gives rely may (resolveKind follow ancestors path kind : Threaded σ _)
      (resolveKindOn disk follow ancestors path kind) := by
  rw [resolveKind, resolveKindOn]
  split
  · exact gives_followLink h hancestors hpath
  · exact gives_pure _

theorem gives_goesInto (ancestors : List Path) {path : Path} (hpath : Below root path)
    (kind : EntryKind) :
    Gives rely may (goesInto ancestors path kind : Threaded σ _)
      (goesIntoOn disk ancestors path kind) := by
  rw [goesInto, goesIntoOn]
  split
  · exact gives_pure _
  · split
    · exact (gives_kind h hpath).bind (gives_pure _)
    · exact gives_pure _

end

/-! ## Visitors that settle -/

section

variable {visit : τ → Event → Threaded σ (τ × Flow)}
  (hvisit : ∀ kept event, event.Below root → Settles rely may (visit kept event) fun _ => True)

include hvisit

theorem settles_report {event : Event} (hevent : event.Below root) (kept : τ) :
    Settles rely may (report visit event kept) fun _ => True :=
  (settling σ rely may).report (fun _ => True) (hvisit kept event hevent)

/-- A walk settles if its visitor does. -/
theorem settles_walkEntry (h : Looks rely may root disk) (follow : Bool) (depth : Nat)
    {ancestors : List Path} (hancestors : ∀ path ∈ ancestors, Below root path) {path : Path}
    (hpath : Below root path) (kind : EntryKind) (kept : τ) :
    Settles rely may (walkEntry follow visit depth ancestors path kind kept) fun _ => True := by
  induction depth generalizing ancestors path kind kept with
  | zero => exact settles_report hvisit (by simp) kept
  | succ depth ih =>
    rw [walkEntry]
    refine (gives_resolveKind h follow hancestors hpath kind).settles_bind ?_
    cases resolveKindOn disk follow ancestors path kind with
    | error trouble => exact settles_report hvisit (by simp) kept
    | ok kind =>
      refine (gives_goesInto h ancestors hpath kind).settles_bind ?_
      have entry : (Event.entry ⟨path, kind⟩).Below root := hpath
      cases goesIntoOn disk ancestors path kind with
      | error e => exact settles_report hvisit (by simp) kept
      | ok inside =>
        cases inside with
        | false => exact settles_report hvisit entry kept
        | true =>
          refine settles_list_bind h hpath (fun listed same => ?_) ?_
          · -- What comes after goes by the sorted names only.
            refine congrArg (visit kept _ >>= ·) (funext fun visited => ?_)
            obtain ⟨kept', flow⟩ := visited
            cases flow with
            | stop | skip => rfl
            | enter =>
              cases listed with
              | error e => cases found : disk.list path <;> simp_all [Except.map]
              | ok names => cases found : disk.list path <;> simp_all [Except.map]
          · refine (hvisit kept _ entry).bind fun visited _ => ?_
            obtain ⟨kept', flow⟩ := visited
            cases flow with
            | stop | skip => exact settles_pure trivial
            | enter =>
              cases found : disk.list path with
              | error e => exact settles_report hvisit (by simp) kept'
              | ok names =>
                refine (settling σ rely may).inTurn (fun _ => True) (fun item hmem kept _ => ?_) trivial
                have hname := h.wellFormed.isName_of_list found (mem_sortByName.mp hmem)
                exact ih (by simpa using ⟨hpath, hancestors⟩) (hpath.child hname) item.2 kept

theorem settles_walk (h : Looks rely may root disk) (follow : Bool) (kept : τ) :
    Settles rely may (walk follow root visit kept) fun _ => True := by
  rw [walk]
  refine (gives_entryKind h (below_root root)).settles_bind ?_
  cases disk.entryKind root with
  | error e => exact settles_report hvisit (by simp) kept
  | ok kind =>
    exact settles_walkEntry hvisit h follow depthLimit (by simp) (below_root root) kind kept

end

/-! ## Visitors that change the disk -/

section

variable {visit : τ → Event → Threaded σ (τ × Flow)} {keeps : τ → Prop}

/-- A walk hands its visitor only events of the disk it relies on. -/
theorem does_walkEntry (h : Looks rely may root disk) (follow : Bool) (depth : Nat)
    {ancestors : List Path} (hancestors : ∀ path ∈ ancestors, Below root path) {path : Path}
    (hpath : Below root path) (kind : EntryKind)
    (hvisit : ∀ kept, ∀ event ∈ eventsFrom disk follow depth ancestors path kind, keeps kept →
      Does rely may (visit kept event) fun visited => keeps visited.1)
    {kept : τ} (hkept : keeps kept) :
    Does rely may (walkEntry follow visit depth ancestors path kind kept)
      fun progress => keeps progress.state := by
  induction depth generalizing ancestors path kind kept with
  | zero => exact (rules σ rely may).report keeps (hvisit kept _ (by simp [eventsFrom]) hkept)
  | succ depth ih =>
    rw [eventsFrom] at hvisit
    rw [walkEntry]
    refine (gives_resolveKind h follow hancestors hpath kind).does.bind ?_
    rintro _ rfl
    cases hresolve : resolveKindOn disk follow ancestors path kind with
    | error trouble =>
      rw [hresolve] at hvisit
      exact (rules σ rely may).report keeps (hvisit kept _ (by simp) hkept)
    | ok kind =>
      rw [hresolve] at hvisit
      refine (gives_goesInto h ancestors hpath kind).does.bind ?_
      rintro _ rfl
      simp only at hvisit
      cases hinside : goesIntoOn disk ancestors path kind with
      | error e =>
        rw [hinside] at hvisit
        exact (rules σ rely may).report keeps (hvisit kept _ (by simp) hkept)
      | ok inside =>
        rw [hinside] at hvisit
        cases inside with
        | false => exact (rules σ rely may).report keeps (hvisit kept _ (by simp) hkept)
        | true =>
          refine (does_list h hpath).bind fun listed same => ?_
          refine (hvisit kept _ List.mem_cons_self hkept).bind fun visited hvisited => ?_
          obtain ⟨kept', flow⟩ := visited
          cases flow with
          | stop | skip => exact does_pure hvisited
          | enter =>
            cases found : disk.list path with
            | error e =>
              rw [found] at hvisit same
              cases listed with
              | error e' =>
                obtain rfl : e' = e := by simpa [Except.map] using same
                exact (rules σ rely may).report keeps (hvisit kept' _ (by simp) hvisited)
              | ok names => simp [Except.map] at same
            | ok names =>
              rw [found] at hvisit same
              cases listed with
              | error e => simp [Except.map] at same
              | ok names' =>
                have sorted : sortByName names' = sortByName names := by
                  simpa [Except.map] using same
                simp only
                rw [sorted]
                refine (rules σ rely may).inTurn keeps (fun item hmem kept hkept => ?_) hvisited
                have hname := h.wellFormed.isName_of_list found (mem_sortByName.mp hmem)
                refine ih (by simpa using ⟨hpath, hancestors⟩) (hpath.child hname) item.2
                  (fun kept event hevent => hvisit kept event ?_) hkept
                exact List.mem_cons_of_mem _ (List.mem_flatMap.mpr ⟨item, hmem, hevent⟩)

theorem does_walk (h : Looks rely may root disk) (follow : Bool)
    (hvisit : ∀ kept, ∀ event ∈ events disk follow root, keeps kept →
      Does rely may (visit kept event) fun visited => keeps visited.1)
    {kept : τ} (hkept : keeps kept) :
    Does rely may (walk follow root visit kept) fun progress => keeps progress.state := by
  rw [walk]
  refine (gives_entryKind h (below_root root)).does.bind ?_
  rintro _ rfl
  rw [events] at hvisit
  cases hkind : disk.entryKind root with
  | error e =>
    rw [hkind] at hvisit
    exact (rules σ rely may).report keeps (hvisit kept _ (by simp) hkept)
  | ok kind =>
    rw [hkind] at hvisit
    exact does_walkEntry h follow depthLimit (by simp) (below_root root) kind hvisit hkept

end

/-! ## Surveys and reviews -/

section

variable (h : Looks rely may root disk)
  (hread : ∀ now, rely now → ∀ path, Below root path → now.read path = disk.read path)

include h hread

/-- A survey settles if its visitor does. -/
theorem settles_survey {visit : τ → String → String → Threaded σ (τ × Option ε)}
    (hvisit : ∀ kept file text, Settles rely may (visit kept file text) fun _ => True)
    (filter : Filter) (kept : τ) :
    Settles rely may (survey root filter visit kept) fun _ => True := by
  refine (settling σ rely may).survey (fun state => settles_walk (fun state event hevent => ?_) h
    true state) kept
  refine (settling σ rely may).onEvent_survey hvisit ?_ root filter state
  rintro entry rfl
  have bytes : Gives rely may (Storage.read entry.path : Threaded σ _) (disk.read entry.path) :=
    gives_inspect h fun now hnow => hread now hnow entry.path hevent
  exact bytes.settles

/-- A review settles if its operator does. -/
theorem settles_reviewTree {confirm : Request → Threaded σ (Except ε Bool)}
    (hconfirm : ∀ request, Settles rely may (confirm request) fun _ => True) (filter : Filter)
    (asked : Asked) :
    Settles rely may (reviewTree confirm root filter asked) fun _ => True :=
  (settling σ rely may).reviewTree hconfirm
    (fun _ kept hvisit => settles_survey h hread hvisit filter kept) asked

end

end Threaded

end Phrasebook
