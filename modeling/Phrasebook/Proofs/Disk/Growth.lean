import Mathlib.Logic.Relation
import Phrasebook.Proofs.Disk.Leads

/-!
# Growing disks

Making directories and storing files puts nodes at places that paths lead to, and takes nothing
away. Main statement: what has changed on a disk after any number of such steps stands where one of
the paths leads in the end.
-/

namespace Phrasebook

namespace Disk

/-- Writing to the path puts the node at the place: into a directory that takes new entries, where
    nothing stands, or in place of a file. -/
structure Places (disk : Disk) (path : Path) (place : Location) (node : Node) : Prop where
  found : (disk.insert place node).find .target path = .ok (place, node)
  parent : ∃ name parent access, place = name :: parent ∧ Path.IsName name ∧
    disk.get? parent = some (.directory access)
  fits : (disk.get? place = none ∧ (node.IsDirectory ∨ node.IsFile)) ∨
    ∃ old, disk.get? place = some old ∧ old.IsFile ∧ node.IsFile
  opened : disk.get? place = none → ∃ access,
    disk.get? place.tail = some (.directory access) ∧ access.write = true

variable {disk disk' : Disk}

theorem Places.wellFormed {path : Path} {place : Location} {node : Node}
    (h : disk.Places path place node) (hdisk : disk.WellFormed) :
    (disk.insert place node).WellFormed := by
  obtain ⟨name, parent, access, rfl, hname, hparent⟩ := h.parent
  refine hdisk.insert hparent hname fun access' directory => ?_
  rcases h.fits with ⟨absent, -⟩ | ⟨old, found, ⟨content, oldAccess, rfl⟩, -⟩
  · simp [absent] at directory
  · simp [found] at directory

theorem Places.not_isLink {path : Path} {place : Location} {node : Node}
    (h : disk.Places path place node) : ¬ node.IsLink := by
  rcases h.fits with ⟨-, ⟨access, rfl⟩ | ⟨content, access, rfl⟩⟩ | ⟨-, -, -, content, access, rfl⟩
  all_goals simp

theorem extends_insert {place : Location} {node : Node}
    (hfits : disk.get? place = none ∨ ∃ old, disk.get? place = some old ∧ old.IsFile ∧ node.IsFile) :
    Extends disk (disk.insert place node) := by
  refine ⟨rfl, fun location node' found => ?_⟩
  by_cases same : location = place
  · subst same
    rcases hfits with absent | ⟨old, found', oldFile, isFile⟩
    · simp [absent] at found
    · obtain rfl := Option.some.inj (found.symm.trans found')
      exact .inr ⟨oldFile, node, get?_insert_self .., isFile⟩
  · exact .inl (by rw [get?_insert_of_ne _ _ same, found])

theorem Places.extends {path : Path} {place : Location} {node : Node}
    (h : disk.Places path place node) : Extends disk (disk.insert place node) :=
  extends_insert (h.fits.imp_left And.left)

/-- A path to a vacant name leads to what is put there. -/
theorem find_insert_of_vacant {ending : Ending} {path : Path} {parent : Location} {name : String}
    {node : Node} (h : disk.locate ending path = .ok (.vacant parent name))
    (hnode : (ending = .made ∧ node.IsDirectory) ∨ (ending = .written ∧ node.IsFile)) :
    (disk.insert (name :: parent) node).find .target path = .ok (name :: parent, node) := by
  obtain ⟨usable, leads⟩ := locate_eq_ok_iff.mp h
  have absent := leads.vacant_spot.2.2
  have grown : Extends disk (disk.insert (name :: parent) node) := extends_insert (.inl absent)
  have notLink : ¬ node.IsLink := by
    rcases hnode with ⟨-, access, rfl⟩ | ⟨-, content, access, rfl⟩ <;> simp
  rw [find_eq_ok_iff, locate_eq_ok_iff]
  refine ⟨usable, ?_⟩
  have same : (disk.insert (name :: parent) node).start path = disk.start path := rfl
  rw [same]
  rcases hnode with ⟨rfl, directory⟩ | ⟨rfl, -⟩
  · -- Making a directory drops the slash at the end of a path, which a directory can bear.
    have hmore : (if path.endsInSlash then [""] else []) = [] ∨
        ((if path.endsInSlash then [""] else []) = [""] ∧ node.IsDirectory) := by
      split
      · exact .inr ⟨rfl, directory⟩
      · exact .inl rfl
    exact leads.arrive grown (get?_insert_self ..) notLink hmore
  · have arrived := leads.arrive grown (get?_insert_self ..) notLink (.inl rfl)
    rw [List.append_nil] at arrived
    exact arrived

theorem addEntry_eq_ok {parent : Location} {name : String} {node : Node}
    (h : disk.addEntry parent name node = .ok disk') :
    (∃ access, disk.get? parent = some (.directory access) ∧ access.write = true) ∧
      disk' = disk.insert (name :: parent) node := by
  unfold addEntry at h
  split at h
  · next access found =>
    split at h
    · next writable => exact ⟨⟨access, found, writable⟩, (Except.ok.inj h).symm⟩
    · simp at h
  · simp at h

theorem places_of_vacant {ending : Ending} {path : Path} {parent : Location} {name : String}
    {node : Node} (h : disk.locate ending path = .ok (.vacant parent name))
    (hparent : ∃ access, disk.get? parent = some (.directory access) ∧ access.write = true)
    (hnode : (ending = .made ∧ node.IsDirectory) ∨ (ending = .written ∧ node.IsFile)) :
    disk.Places path (name :: parent) node where
  found := find_insert_of_vacant h hnode
  parent := by
    obtain ⟨access, found, -⟩ := hparent
    have leads := (locate_eq_ok_iff.mp h).2
    exact ⟨name, parent, access, rfl, leads.isName fun _ hmem => slash_not_mem_steps hmem, found⟩
  fits := .inl ⟨(locate_eq_ok_iff.mp h).2.vacant_spot.2.2, hnode.imp And.right And.right⟩
  opened _ := hparent

/-- A directory is made where nothing stood. -/
theorem makeDirectory_eq_ok {path : Path} (h : disk.makeDirectory path = .ok disk') :
    ∃ place, disk.get? place = none ∧ disk.Places path place (.directory .full) ∧
      disk' = disk.insert place (.directory .full) := by
  unfold makeDirectory at h
  split at h
  · simp at h
  · simp at h
  · next parent name located =>
    obtain ⟨hparent, rfl⟩ := addEntry_eq_ok h
    exact ⟨name :: parent, (locate_eq_ok_iff.mp located).2.vacant_spot.2.2,
      places_of_vacant located hparent (.inl ⟨rfl, by simp⟩), rfl⟩

/-- A file is stored where nothing stood or in place of another, unless there is something that
    takes what is written to it and keeps nothing. -/
theorem store_eq_ok {path : Path} {new : Option (Location × Access) → Node}
    (hdisk : disk.WellFormed) (hnew : ∀ old, (new old).IsFile)
    (h : disk.store path new = .ok disk') :
    (∃ place node, disk.find .target path = .ok (place, node) ∧ ¬ node.IsFile ∧
      ¬ node.IsDirectory ∧ disk' = disk) ∨
    (∃ place, disk.get? place = none ∧ disk.Places path place (new none) ∧
      disk' = disk.insert place (new none)) ∨
    ∃ place content access, disk.get? place = some (.file content access) ∧
      disk.Places path place (new (some (place, access))) ∧
      disk' = disk.insert place (new (some (place, access))) := by
  unfold store at h
  split at h
  · simp at h
  · next parent name located =>
    obtain ⟨hparent, rfl⟩ := addEntry_eq_ok h
    exact .inr (.inl ⟨name :: parent, (locate_eq_ok_iff.mp located).2.vacant_spot.2.2,
      places_of_vacant located hparent (.inr ⟨rfl, hnew none⟩), rfl⟩)
  · simp at h
  · next place content access located =>
    split at h
    · obtain rfl := Except.ok.inj h
      obtain ⟨usable, leads⟩ := locate_eq_ok_iff.mp located
      have found := leads.get?
      refine .inr (.inr ⟨place, content, access, found, ⟨?_, ?_, ?_, ?_⟩, rfl⟩)
      · have grown : Extends disk (disk.insert place (new (some (place, access)))) :=
          extends_insert (.inr ⟨_, found, by simp, hnew _⟩)
        obtain ⟨node', found'⟩ := find_extend grown
          (find_eq_ok_iff.mpr (locate_eq_ok_iff.mpr ⟨usable, leads.target_of_written⟩))
        have : node' = new (some (place, access)) := by
          simpa using (get?_of_find found').symm
        rw [found', this]
      · cases place with
        | nil =>
          obtain ⟨node, atRoot, isDirectory⟩ := hdisk.root
          obtain rfl := Option.some.inj (found.symm.trans atRoot)
          simp at isDirectory
        | cons name parent =>
          obtain ⟨up, directory⟩ := hdisk.parent found
          exact ⟨name, parent, up, rfl, hdisk.isName found, directory⟩
      · exact .inr ⟨_, found, by simp, hnew _⟩
      · simp [found]
    · simp at h
  · next place node notDirectory notFile located =>
    obtain rfl := Except.ok.inj h
    obtain ⟨usable, leads⟩ := locate_eq_ok_iff.mp located
    refine .inl ⟨place, node,
      find_eq_ok_iff.mpr (locate_eq_ok_iff.mpr ⟨usable, leads.target_of_written⟩), ?_, ?_, rfl⟩
    · rintro ⟨content, access, rfl⟩
      exact notFile _ _ rfl
    · rintro ⟨access, rfl⟩
      exact notDirectory _ rfl

/-! ## Growth -/

/-- A node that may be written to a path is put where the path leads. -/
inductive Writes (allowed : Path → Node → Prop) (disk : Disk) : Disk → Prop where
  | place {path : Path} {place : Location} {node : Node} : allowed path node →
      disk.Places path place node → Writes allowed disk (disk.insert place node)

/-- Nodes are put, one after the other, where paths lead that they may be written to. -/
def Grows (allowed : Path → Node → Prop) : Disk → Disk → Prop :=
  Relation.ReflTransGen (Writes allowed)

variable {allowed : Path → Node → Prop}

theorem Grows.mono {allowed' : Path → Node → Prop}
    (himp : ∀ path node, allowed path node → allowed' path node) (h : Grows allowed disk disk') :
    Grows allowed' disk disk' := by
  induction h with
  | refl => exact .refl
  | tail _ step ih =>
    obtain ⟨hpath, places⟩ := step
    exact ih.tail (.place (himp _ _ hpath) places)

/-- A disk that may not grow stays as it is. -/
theorem Grows.eq (h : Grows (fun _ _ => False) disk disk') : disk' = disk := by
  induction h with
  | refl => rfl
  | tail _ step _ =>
    obtain ⟨never, -⟩ := step
    exact never.elim

theorem grows_of_makeDirectory {path : Path} (hpath : allowed path (.directory .full))
    (h : disk.makeDirectory path = .ok disk') : Grows allowed disk disk' := by
  obtain ⟨place, -, places, rfl⟩ := makeDirectory_eq_ok h
  exact .single (.place hpath places)

theorem grows_of_store {path : Path} {new : Option (Location × Access) → Node}
    (hpath : ∀ old, allowed path (new old)) (hdisk : disk.WellFormed)
    (hnew : ∀ old, (new old).IsFile) (h : disk.store path new = .ok disk') :
    Grows allowed disk disk' := by
  rcases store_eq_ok hdisk hnew h with ⟨_, _, _, _, _, rfl⟩ | ⟨place, _, places, rfl⟩ |
    ⟨place, _, _, _, places, rfl⟩
  · exact .refl
  · exact .single (.place (hpath _) places)
  · exact .single (.place (hpath _) places)

theorem grows_of_write {path : Path} (hpath : ∀ node, node.IsFile → allowed path node)
    (hdisk : disk.WellFormed) {bytes : ByteArray} (h : disk.write path bytes = .ok disk') :
    Grows allowed disk disk' :=
  grows_of_store (fun _ => hpath _ (by simp)) hdisk (fun _ => by simp) h

/-- A copy stores the content of a readable file. -/
theorem copy_eq_ok {source target : Path} (h : disk.copy source target = .ok disk') :
    ∃ place content access, disk.find .target source = .ok (place, .file content access) ∧
      access.read = true ∧
      disk.store target (fun old =>
        .file (if old.any (·.1 = place) then .empty else content) access) = .ok disk' := by
  unfold copy at h
  split at h
  · simp at h
  · next place node found =>
    split at h
    · simp at h
    · next readable =>
      cases node with
      | file content access =>
        exact ⟨place, content, access, found, by simpa [Node.readable] using readable, h⟩
      | directory | link | device => simp at h

theorem grows_of_copy {source target : Path} (htarget : ∀ node, node.IsFile → allowed target node)
    (hdisk : disk.WellFormed) (h : disk.copy source target = .ok disk') :
    Grows allowed disk disk' := by
  obtain ⟨place, content, access, -, -, stored⟩ := copy_eq_ok h
  exact grows_of_store (fun _ => htarget _ (by simp)) hdisk (fun _ => by simp) stored

theorem Grows.wellFormed (h : Grows allowed disk disk') (hdisk : disk.WellFormed) :
    disk'.WellFormed := by
  induction h with
  | refl => exact hdisk
  | tail _ step ih =>
    obtain ⟨-, places⟩ := step
    exact places.wellFormed ih

theorem Grows.extends (h : Grows allowed disk disk') : Extends disk disk' := by
  induction h with
  | refl => exact .refl disk
  | tail _ step ih =>
    obtain ⟨-, places⟩ := step
    exact ih.trans places.extends

/-- No links are made. -/
theorem Grows.link (h : Grows allowed disk disk') {location : Location} {node : Node}
    (found : disk'.get? location = some node) (hlink : node.IsLink) :
    disk.get? location = some node := by
  induction h with
  | refl => exact found
  | tail _ step ih =>
    obtain ⟨-, places⟩ := step
    rw [get?_insert] at found
    split at found
    · obtain rfl := Option.some.inj found
      exact absurd hlink places.not_isLink
    · exact ih found

theorem Grows.linkFree (h : Grows allowed disk disk') {above below : Location}
    (hfree : disk.LinkFree above below) : disk'.LinkFree above below := by
  intro location habove hbelow node found hlink
  exact hfree location habove hbelow node (h.link found hlink) hlink

/-- What has changed is something that may be written to a path and stands where the path leads. -/
theorem Grows.footprint (h : Grows allowed disk disk') {location : Location}
    (hchanged : disk'.get? location ≠ disk.get? location) :
    ∃ path node, allowed path node ∧ disk'.find .target path = .ok (location, node) := by
  induction h with
  | refl => exact absurd rfl hchanged
  | @tail before after _ step ih =>
    obtain @⟨path, place, node, hpath, places⟩ := step
    by_cases same : location = place
    · subst same
      exact ⟨path, node, hpath, places.found⟩
    · have kept := get?_insert_of_ne before node same
      rw [kept] at hchanged
      obtain ⟨path', node', hpath', found⟩ := ih hchanged
      obtain ⟨node'', found'⟩ := find_extend places.extends found
      have : node' = node'' := by
        have := get?_of_find found'
        rw [kept, get?_of_find found] at this
        exact Option.some.inj this
      exact ⟨path', node', hpath', this ▸ found'⟩

/-- What is new has been put into a directory that takes new entries. -/
theorem Grows.opened (h : Grows allowed disk disk') {location : Location}
    (absent : disk.get? location = none) (there : disk'.get? location ≠ none) :
    ∃ access, disk'.get? location.tail = some (.directory access) ∧ access.write = true := by
  induction h with
  | refl => exact absurd absent there
  | @tail before after _ step ih =>
    obtain @⟨path, place, node, hpath, places⟩ := step
    by_cases sofar : before.get? location = none
    · by_cases same : location = place
      · subst same
        obtain ⟨access, found, writable⟩ := places.opened sofar
        exact ⟨access, places.extends.directory found, writable⟩
      · rw [get?_insert_of_ne _ _ same] at there
        exact absurd sofar there
    · obtain ⟨access, found, writable⟩ := ih sofar
      exact ⟨access, places.extends.directory found, writable⟩

/-- If only directories are made, the files stay the same. -/
theorem Grows.get?_file_iff (h : Grows allowed disk disk')
    (hdirectory : ∀ path node, allowed path node → node.IsDirectory) {location : Location}
    {content : ByteArray} {access : Access} :
    disk'.get? location = some (.file content access) ↔
      disk.get? location = some (.file content access) := by
  by_cases same : disk'.get? location = disk.get? location
  · rw [same]
  · obtain ⟨path, node, hpath, found⟩ := h.footprint same
    obtain ⟨access', rfl⟩ := hdirectory path node hpath
    constructor
    · intro there
      simp [get?_of_find found] at there
    · intro there
      rcases h.extends.kept _ _ there with kept | ⟨-, node', found', isFile⟩
      · exact absurd (kept.trans there.symm) same
      · rw [get?_of_find found] at found'
        obtain rfl := Option.some.inj found'
        simp at isFile

/-- What has changed stands where the names of a path say, if links and `..` are on none of them. -/
theorem Grows.location_eq (h : Grows allowed disk disk')
    (hdirect : ∀ path node, allowed path node →
      path.IsDirect ∧ disk.LinkFree [] path.location)
    {location : Location} (hchanged : disk'.get? location ≠ disk.get? location) :
    ∃ path node, allowed path node ∧ location = path.location ∧
      disk'.get? location = some node := by
  obtain ⟨path, node, hpath, found⟩ := h.footprint hchanged
  obtain ⟨direct, free⟩ := hdirect path node hpath
  exact ⟨path, node, hpath, place_eq_of_locate (find_eq_ok_iff.mp found) direct (h.linkFree free),
    get?_of_find found⟩

end Disk

end Phrasebook
