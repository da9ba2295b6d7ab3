import Phrasebook.Proofs.Disk.Growth
import Phrasebook.Proofs.Disk.Onward

/-!
# Filling a directory

Directories are made and files copied below a directory that a path leads to and in which there are no
links. Main statements: what is made or copied stands where its names say, and as long as the parent is
there, making a directory never meets with something that is missing.
-/

namespace Phrasebook

namespace Disk

variable {disk disk' base now later : Disk} {ending : Ending} {path : Path} {place output : Location}

theorem Opens.extend (h : disk.Opens path place) (hextends : Extends disk disk') :
    disk'.Opens path place := by
  obtain ⟨access, leads⟩ := h
  obtain ⟨node, leads'⟩ := leads.extend hextends
  obtain rfl : node = .directory access :=
    Option.some.inj (leads'.get?.symm.trans (hextends.directory leads.get?))
  have same : disk'.start path = disk.start path := by simp [start, hextends.here]
  exact ⟨access, same ▸ leads'⟩

/-- Proper names of which all but the last lead to directories never meet with something missing. -/
theorem pursue_ne_noEntry (hdisk : disk.WellFormed) {links : Nat} {location : Location}
    {init : List String} {name : String} (hnames : Path.AreNames (init ++ [name]))
    (hholds : disk.Holds (init.reverse ++ location)) :
    disk.pursue .made links location (init ++ [name]) ≠ .error .noEntry := by
  rw [pursue_eq_trace]
  induction init generalizing location with
  | nil =>
    obtain ⟨access, found⟩ := hholds
    have hname : Path.IsName name := by simpa using hnames
    rw [List.reverse_nil, List.nil_append] at found
    rw [List.nil_append, trace, found]
    simp only [hname.notEmpty, hname.notHere, hname.notUp, if_false]
    split
    · simp
    split
    · simp
    split
    · simp
    split
    · simp
    · simp [Ending.keepsLink]
    · next node _ there => simp [trace, there]
  | cons first init ih =>
    obtain ⟨hfirst, hrest⟩ := Path.areNames_cons.mp hnames
    obtain ⟨access, found⟩ := hholds
    have split : (first :: init).reverse ++ location = init.reverse ++ first :: location := by simp
    rw [split] at found
    obtain ⟨access', inner⟩ : disk.Holds (first :: location) := by
      rcases hdisk.get?_of_suffix found (List.suffix_append _ _) with same | directory
      · exact same ▸ ⟨access, found⟩
      · exact directory
    obtain ⟨access'', outer⟩ := hdisk.parent inner
    rw [List.cons_append, trace, outer]
    simp only [hfirst.notEmpty, hfirst.notHere, hfirst.notUp, if_false]
    split
    · simp
    split
    · simp
    split
    · simp
    rw [inner]
    exact ih hrest ⟨access, found⟩

/-- A directory is made where the path leads. -/
theorem insert_of_makeDirectory
    (hplace : ∀ spot, disk.locate .made path = .ok spot → spot.place = place)
    (h : disk.makeDirectory path = .ok later) :
    disk.get? place = none ∧ later = disk.insert place (.directory .full) := by
  unfold makeDirectory at h
  split at h
  · simp at h
  · simp at h
  · next parent name located =>
    obtain ⟨-, rfl⟩ := addEntry_eq_ok h
    obtain rfl := hplace _ located
    exact ⟨(locate_eq_ok_iff.mp located).2.vacant_spot.2.2, rfl⟩

/-- A file is stored where the path leads, unless something stands there that keeps nothing. -/
theorem insert_of_store {new : Option (Location × Access) → Node}
    (hplace : ∀ spot, disk.locate .written path = .ok spot → spot.place = place)
    (hlink : ∀ node, disk.get? place = some node → ¬ node.IsLink)
    (h : disk.store path new = .ok later) :
    (disk.get? place = some .device ∧ later = disk) ∨
      ∃ old, later = disk.insert place (new old) ∧ ∀ known access, old = some (known, access) →
        known = place := by
  unfold store at h
  split at h
  · simp at h
  · next parent name located =>
    obtain ⟨-, rfl⟩ := addEntry_eq_ok h
    obtain rfl := hplace _ located
    exact .inr ⟨none, rfl, by simp⟩
  · simp at h
  · next known content access located =>
    split at h
    · obtain rfl := Except.ok.inj h
      obtain rfl : known = place := hplace _ located
      exact .inr ⟨_, rfl, by simp⟩
    · simp at h
  · next known node notDirectory notFile located =>
    obtain rfl : known = place := hplace _ located
    have there := (locate_eq_ok_iff.mp located).2.get?
    refine .inl ⟨?_, (Except.ok.inj h).symm⟩
    cases node with
    | directory access => exact absurd rfl (notDirectory access)
    | file content access => exact absurd rfl (notFile content access)
    | link target => exact absurd (Node.isLink_link target) (hlink _ there)
    | device => exact there

/-- A file from elsewhere is copied to where the path leads, unless something stands there that keeps
    nothing. -/
theorem insert_of_copy {source : Path}
    (hplace : ∀ spot, disk.locate .written path = .ok spot → spot.place = place)
    (hlink : ∀ node, disk.get? place = some node → ¬ node.IsLink)
    (helsewhere : ∀ content access, disk.find .target source ≠ .ok (place, .file content access))
    (h : disk.copy source path = .ok later) :
    ∃ content access, disk.read source = .ok content ∧
      ((disk.get? place = some .device ∧ later = disk) ∨
        later = disk.insert place (.file content access)) := by
  obtain ⟨known, content, access, found, readable, stored⟩ := copy_eq_ok h
  refine ⟨content, access, by simp [read, found, Node.readable, readable], ?_⟩
  refine (insert_of_store hplace hlink stored).imp_right ?_
  rintro ⟨old, rfl, atPlace⟩
  have kept : old.any (·.1 = known) = false := by
    cases old with
    | none => rfl
    | some before =>
      obtain rfl : before.1 = place := atPlace before.1 before.2 rfl
      have : before.1 ≠ known := by
        rintro rfl
        exact helsewhere content access found
      simpa using this
  simp [kept]

/-- Below a location directories and files have been put in the places of some names, links are not
    among what stands there, and otherwise the disk is as before. -/
structure Fills (base : Disk) (output : Location) (done : List String → Prop) (now : Disk) :
    Prop where
  wellFormed : now.WellFormed
  extended : Extends base now
  noLink : ∀ place node, output <:+ place → now.get? place = some node → ¬ node.IsLink
  device : ∀ place, now.get? place = some .device → base.get? place = some .device
  only : ∀ place, now.get? place ≠ base.get? place →
    ∃ names, done names ∧ place = names.reverse ++ output

namespace Fills

theorem refl (hbase : base.WellFormed)
    (hlink : ∀ place node, output <:+ place → base.get? place = some node → ¬ node.IsLink)
    (done : List String → Prop) : base.Fills output done base :=
  ⟨hbase, .refl base, hlink, fun _ => id, fun _ changed => absurd rfl changed⟩

variable {done : List String → Prop} (h : base.Fills output done now)
include h

theorem mono {more : List String → Prop} (himp : ∀ names, done names → more names) :
    base.Fills output more now where
  wellFormed := h.wellFormed
  extended := h.extended
  noLink := h.noLink
  device := h.device
  only place changed := by
    obtain ⟨names, hdone, same⟩ := h.only place changed
    exact ⟨names, himp names hdone, same⟩

/-- One more directory or file is put in its place. -/
theorem insert {names : List String} {node : Node} (hnode : node.IsDirectory ∨ node.IsFile)
    (hlater : (now.insert (names.reverse ++ output) node).WellFormed)
    (hextends : Extends now (now.insert (names.reverse ++ output) node)) :
    base.Fills output (fun other => done other ∨ other = names)
      (now.insert (names.reverse ++ output) node) where
  wellFormed := hlater
  extended := h.extended.trans hextends
  noLink := by
    intro place other below found
    rw [get?_insert] at found
    split at found
    · obtain rfl := Option.some.inj found
      rcases hnode with ⟨access, rfl⟩ | ⟨content, access, rfl⟩ <;> simp
    · exact h.noLink place other below found
  device := by
    intro place found
    rw [get?_insert] at found
    split at found
    · obtain rfl := Option.some.inj found
      simp at hnode
    · exact h.device place found
  only := by
    intro place changed
    by_cases same : place = names.reverse ++ output
    · exact ⟨names, .inr rfl, same⟩
    · rw [get?_insert_of_ne _ _ same] at changed
      obtain ⟨others, hdone, same'⟩ := h.only place changed
      exact ⟨others, .inl hdone, same'⟩

theorem linkFree (names : List String) : now.LinkFree output (names.reverse ++ output) :=
  fun location below _ node found => h.noLink location node below found

/-- Names lead to where they say. -/
theorem place_eq {target : Path} (hopens : base.Opens target output) {names : List String}
    (hnames : Path.AreNames names) (hne : names ≠ []) {spot : Spot}
    (hspot : now.locate ending (target.descend names) = .ok spot) :
    spot.place = names.reverse ++ output :=
  (hopens.extend h.extended).place_eq hnames hne (h.linkFree names) hspot

/-- What stands outside of the location is as before. -/
theorem get?_of_not_below (houtside : ¬ output <:+ place) : now.get? place = base.get? place := by
  by_contra changed
  obtain ⟨names, -, rfl⟩ := h.only place changed
  exact houtside (List.suffix_append _ _)

theorem get?_of_holds (hholds : base.Holds place) : now.get? place = base.get? place := by
  obtain ⟨access, found⟩ := hholds
  rw [found, h.extended.directory found]

/-- A directory whose parent is there can be made without making others. -/
theorem makeDirectory_ne_noEntry {target : Path} (hopens : base.Opens target output)
    {init : List String} {name : String} (hnames : Path.AreNames (init ++ [name]))
    (hparent : now.Holds (init.reverse ++ output)) :
    now.makeDirectory (target.descend (init ++ [name])) ≠ .error .noEntry := by
  obtain ⟨links, onward⟩ := (hopens.extend h.extended).locate_descend
  have located := onward .made _ hnames (by simp)
  unfold Disk.makeDirectory
  split
  · next e failed =>
    rw [located] at failed
    split at failed
    · obtain rfl := Except.error.inj failed
      simp
    · intro same
      obtain rfl := Except.error.inj same
      exact pursue_ne_noEntry h.wellFormed hnames hparent failed
  · simp
  · unfold addEntry
    split
    · split <;> simp
    · simp

/-- A directory is made in the place of its names. -/
theorem makeDirectory {target : Path} (hopens : base.Opens target output) {names : List String}
    (hnames : Path.AreNames names) (hne : names ≠ [])
    (hmade : now.makeDirectory (target.descend names) = .ok later) :
    base.Fills output (fun other => done other ∨ other = names) later ∧
      later.Holds (names.reverse ++ output) := by
  have grown : now.Grows (fun _ _ => True) later := grows_of_makeDirectory trivial hmade
  obtain ⟨-, rfl⟩ := insert_of_makeDirectory (fun spot => h.place_eq hopens hnames hne) hmade
  exact ⟨h.insert (.inl (by simp)) (grown.wellFormed h.wellFormed) grown.extends,
    .full, get?_insert_self ..⟩

/-- A directory that names lead to stands in their place. -/
theorem holds_of_kind {target : Path} (hopens : base.Opens target output) {names : List String}
    (hnames : Path.AreNames names) (hne : names ≠ [])
    (hkind : now.kind (target.descend names) = .ok .directory) :
    now.Holds (names.reverse ++ output) := by
  obtain ⟨place, access, found⟩ := find_of_kind hkind
  obtain rfl : place = names.reverse ++ output :=
    h.place_eq hopens hnames hne (find_eq_ok_iff.mp found)
  exact ⟨access, get?_of_find found⟩

/-- A file from elsewhere is copied to the place of its names, unless a device stands there. -/
theorem copy {target source : Path} {names : List String}
    (hplace : ∀ spot, now.locate .written target = .ok spot →
      spot.place = names.reverse ++ output)
    (helsewhere : ∀ place content access,
      now.find .target source = .ok (place, .file content access) → ¬ output <:+ place)
    (hcopy : now.copy source target = .ok later) :
    base.Fills output (fun other => done other ∨ other = names) later ∧
      ∃ content access, now.read source = .ok content ∧
        ((now.get? (names.reverse ++ output) = some .device ∧ later = now) ∨
          later = now.insert (names.reverse ++ output) (.file content access)) := by
  have below : output <:+ names.reverse ++ output := List.suffix_append _ _
  obtain ⟨content, access, hread, stands⟩ := insert_of_copy hplace
    (fun node found => h.noLink _ node below found)
    (fun content access found => helsewhere _ content access found below) hcopy
  refine ⟨?_, content, access, hread, stands⟩
  have grown : now.Grows (fun _ _ => True) later :=
    grows_of_copy (fun _ _ => trivial) h.wellFormed hcopy
  rcases stands with ⟨-, rfl⟩ | rfl
  · exact h.mono fun _ => .inl
  · exact h.insert (.inr (by simp)) (grown.wellFormed h.wellFormed) grown.extends

end Fills

end Disk

end Phrasebook
