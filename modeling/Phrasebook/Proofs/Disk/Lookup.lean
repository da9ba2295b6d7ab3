import Mathlib.Data.List.Nodup
import Phrasebook.Disk
import Phrasebook.Proofs.Path

/-!
# Nodes of a disk

What is found at a location after a node has been put somewhere, and which disks are file systems:
every node has its own location, stands in a directory and has a proper name.
-/

namespace Phrasebook

namespace Node

/-- The node is a symbolic link. -/
def IsLink (node : Node) : Prop :=
  ∃ target, node = link target

/-- The node is a regular file. -/
def IsFile (node : Node) : Prop :=
  ∃ content access, node = file content access

/-- The node is a directory. -/
def IsDirectory (node : Node) : Prop :=
  ∃ access, node = directory access

@[simp] theorem isFile_file (content : ByteArray) (access : Access) :
    (file content access).IsFile := ⟨content, access, rfl⟩

@[simp] theorem isDirectory_directory (access : Access) : (directory access).IsDirectory :=
  ⟨access, rfl⟩

@[simp] theorem isLink_link (target : String) : (link target).IsLink := ⟨target, rfl⟩

@[simp] theorem not_isLink_file (content : ByteArray) (access : Access) :
    ¬ (file content access).IsLink := by
  simp [IsLink]

@[simp] theorem not_isLink_directory (access : Access) : ¬ (directory access).IsLink := by
  simp [IsLink]

@[simp] theorem not_isLink_device : ¬ device.IsLink := by
  simp [IsLink]

@[simp] theorem not_isFile_directory (access : Access) : ¬ (directory access).IsFile := by
  simp [IsFile]

@[simp] theorem not_isFile_link (target : String) : ¬ (link target).IsFile := by
  simp [IsFile]

@[simp] theorem not_isFile_device : ¬ device.IsFile := by
  simp [IsFile]

@[simp] theorem not_isDirectory_file (content : ByteArray) (access : Access) :
    ¬ (file content access).IsDirectory := by
  simp [IsDirectory]

@[simp] theorem not_isDirectory_link (target : String) : ¬ (link target).IsDirectory := by
  simp [IsDirectory]

@[simp] theorem not_isDirectory_device : ¬ device.IsDirectory := by
  simp [IsDirectory]

@[simp] theorem kind_eq_file {node : Node} : node.kind = .file ↔ node.IsFile := by
  cases node <;> simp [kind]

@[simp] theorem kind_eq_directory {node : Node} : node.kind = .directory ↔ node.IsDirectory := by
  cases node <;> simp [kind, IsDirectory]

@[simp] theorem kind_eq_link {node : Node} : node.kind = .link ↔ node.IsLink := by
  cases node <;> simp [kind]

end Node

namespace Disk

theorem lookup_filter_ne {location other : Location} (nodes : List (Location × Node))
    (h : other ≠ location) :
    (nodes.filter (·.1 != location)).lookup other = nodes.lookup other := by
  induction nodes with
  | nil => rfl
  | cons entry nodes ih =>
    obtain ⟨place, node⟩ := entry
    by_cases same : place = location
    · have : (other == place) = false := by simpa [same] using h
      rw [List.filter_cons_of_neg (by simp [same]), ih, List.lookup_cons, this]
    · rw [List.filter_cons_of_pos (by simp [same]), List.lookup_cons, List.lookup_cons, ih]

@[simp] theorem get?_insert_self (disk : Disk) (location : Location) (node : Node) :
    (disk.insert location node).get? location = some node := by
  simp [get?, insert]

theorem get?_insert_of_ne (disk : Disk) {location other : Location} (node : Node)
    (h : other ≠ location) : (disk.insert location node).get? other = disk.get? other := by
  have : (other == location) = false := by simpa using h
  rw [get?, insert, List.lookup_cons, this]
  exact lookup_filter_ne disk.nodes h

@[simp] theorem here_insert (disk : Disk) (location : Location) (node : Node) :
    (disk.insert location node).here = disk.here := rfl

theorem get?_insert (disk : Disk) (location other : Location) (node : Node) :
    (disk.insert location node).get? other =
      if other = location then some node else disk.get? other := by
  split
  · next same => simp [same]
  · next other_ne => exact get?_insert_of_ne disk node other_ne

/-- The disk is a file system: each location is taken once, the root is a directory, and every other
    node has a proper name and stands in a directory. -/
structure WellFormed (disk : Disk) : Prop where
  unique : (disk.nodes.map (·.1)).Nodup
  root : ∃ node, disk.get? [] = some node ∧ node.IsDirectory
  parent : ∀ {name location node}, disk.get? (name :: location) = some node →
    ∃ access, disk.get? location = some (.directory access)
  isName : ∀ {name location node}, disk.get? (name :: location) = some node → Path.IsName name

/-- The disk with nothing but a root is a file system. -/
theorem wellFormed_empty : empty.WellFormed where
  unique := by simp [empty]
  root := ⟨.directory .full, rfl, by simp⟩
  parent h := by simp [get?, empty, List.lookup_cons] at h
  isName h := by simp [get?, empty, List.lookup_cons] at h

theorem lookup_eq_some_iff {nodes : List (Location × Node)} (h : (nodes.map (·.1)).Nodup)
    {location : Location} {node : Node} :
    nodes.lookup location = some node ↔ (location, node) ∈ nodes := by
  induction nodes with
  | nil => simp
  | cons entry nodes ih =>
    obtain ⟨place, other⟩ := entry
    rw [List.map_cons, List.nodup_cons] at h
    rw [List.lookup_cons]
    by_cases same : location = place
    · subst same
      have absent : (location, node) ∉ nodes := fun hmem =>
        h.1 (List.mem_map.mpr ⟨_, hmem, rfl⟩)
      simp [absent, eq_comm]
    · have : (location == place) = false := by simpa using same
      simp [this, ih h.2, same]

namespace WellFormed

variable {disk : Disk} (h : disk.WellFormed)
include h

theorem mem_nodes_iff {location : Location} {node : Node} :
    (location, node) ∈ disk.nodes ↔ disk.get? location = some node :=
  (lookup_eq_some_iff h.unique).symm

/-- The names in a directory are those of the nodes that stand in it. -/
theorem mem_names {location : Location} {name : String} {kind : EntryKind} :
    (name, kind) ∈ disk.names location ↔
      ∃ node, disk.get? (name :: location) = some node ∧ node.kind = kind := by
  simp only [names, List.mem_filterMap]
  constructor
  · rintro ⟨⟨place, node⟩, hmem, found⟩
    cases place with
    | nil => simp at found
    | cons first parent =>
      simp only [Option.ite_none_right_eq_some, Option.some.injEq, Prod.mk.injEq] at found
      obtain ⟨rfl, rfl, rfl⟩ := found
      exact ⟨node, h.mem_nodes_iff.mp hmem, rfl⟩
  · rintro ⟨node, found, rfl⟩
    exact ⟨(name :: location, node), h.mem_nodes_iff.mpr found, by simp⟩

/-- A directory holds each name once. -/
theorem nodup_names (location : Location) : ((disk.names location).map (·.1)).Nodup := by
  have distinct := h.unique
  rw [names, List.map_filterMap]
  generalize disk.nodes = nodes at distinct
  induction nodes with
  | nil => simp
  | cons entry nodes ih =>
    obtain ⟨place, node⟩ := entry
    rw [List.map_cons, List.nodup_cons] at distinct
    have rest := ih distinct.2
    cases place with
    | nil => simpa using rest
    | cons name parent =>
      by_cases same : parent = location
      · subst same
        simp only [List.filterMap_cons, if_true, Option.map_some, List.nodup_cons]
        refine ⟨?_, rest⟩
        intro hmem
        simp only [List.mem_filterMap, Option.map_eq_some_iff] at hmem
        obtain ⟨⟨place, other⟩, hplace, ⟨name', kind⟩, found, rfl⟩ := hmem
        cases place with
        | nil => simp at found
        | cons first parent' =>
          simp only [Option.ite_none_right_eq_some, Option.some.injEq, Prod.mk.injEq] at found
          obtain ⟨rfl, rfl, -⟩ := found
          exact distinct.1 (List.mem_map.mpr ⟨_, hplace, rfl⟩)
      · simpa [same] using rest

/-- Every location that is taken consists of proper names. -/
theorem areNames {location : Location} {node : Node} (found : disk.get? location = some node) :
    Path.AreNames location := by
  induction location generalizing node with
  | nil => simp
  | cons name location ih =>
    obtain ⟨access, up⟩ := h.parent found
    exact Path.areNames_cons.mpr ⟨h.isName found, ih up⟩

/-- Above a taken location there are directories. -/
theorem get?_of_suffix {location above : Location} {node : Node}
    (found : disk.get? location = some node) (hsuffix : above <:+ location) :
    above = location ∨ ∃ access, disk.get? above = some (.directory access) := by
  induction location generalizing node with
  | nil => exact .inl (List.suffix_nil.mp hsuffix)
  | cons name location ih =>
    obtain ⟨access, up⟩ := h.parent found
    rcases List.suffix_cons_iff.mp hsuffix with rfl | further
    · exact .inl rfl
    · rcases ih up further with rfl | directory
      · exact .inr ⟨access, up⟩
      · exact .inr directory

/-- Nothing stands below a file. -/
theorem eq_nil_of_file {location : Location} {file node : Node} {more : List String}
    (hfile : disk.get? location = some file) (isFile : file.IsFile)
    (found : disk.get? (more ++ location) = some node) : more = [] := by
  obtain ⟨content, access, rfl⟩ := isFile
  rcases h.get?_of_suffix found (List.suffix_append more location) with same | ⟨access', directory⟩
  · simpa using same.symm
  · simp [hfile] at directory

/-- A node may be put into a directory where nothing stands or where it takes the place of something
    that is no directory. -/
theorem insert {parent : Location} {access : Access} {name : String} {node : Node}
    (hparent : disk.get? parent = some (.directory access)) (hname : Path.IsName name)
    (hold : ∀ access, disk.get? (name :: parent) ≠ some (.directory access)) :
    (disk.insert (name :: parent) node).WellFormed where
  unique := by
    simp only [Disk.insert, List.map_cons, List.nodup_cons]
    constructor
    · simp
    · exact (h.unique.sublist (List.filter_sublist.map _))
  root := by
    rw [get?_insert_of_ne _ _ (by simp)]
    exact h.root
  parent := by
    intro name' location node' found
    have above : location ≠ name :: parent := by
      rintro rfl
      rw [get?_insert_of_ne _ _ (by simp)] at found
      obtain ⟨access', up⟩ := h.parent found
      exact hold access' up
    rw [get?_insert_of_ne _ _ above]
    rw [get?_insert] at found
    split at found
    · next same =>
      obtain ⟨rfl, rfl⟩ := List.cons_eq_cons.mp same
      exact ⟨access, hparent⟩
    · exact h.parent found
  isName := by
    intro name' location node' found
    rw [get?_insert] at found
    split at found
    · next same =>
      obtain ⟨rfl, rfl⟩ := List.cons_eq_cons.mp same
      exact hname
    · exact h.isName found

end WellFormed

end Disk

end Phrasebook
