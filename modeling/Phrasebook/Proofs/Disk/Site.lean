import Phrasebook.Proofs.Disk.Apart
import Phrasebook.Proofs.Disk.Growth
import Phrasebook.Proofs.Walk

/-!
# Sites

The site of a copy is a location where nothing stands, or an empty directory, and from which the tree
to be copied keeps apart. Main statement: while directories and files are added at the site, the tree
looks to a walk as it did in the beginning.
-/

namespace Phrasebook

/-- The components of a location's path are the root and its names. -/
theorem Location.components_path {location : Location} (h : Path.AreNames location) :
    location.path.components = .root :: location.reverse.map .name := by
  rw [Location.path, Path.components_slash_join fun segment hmem =>
    (h segment (List.mem_reverse.mp hmem)).noSlash, (Path.areNames_reverse.mpr h).filterMap]

theorem Location.location_path {location : Location} (h : Path.AreNames location) :
    location.path.location = location := by
  rw [Path.location, Path.names, components_path h]
  simp [List.filterMap_map]

theorem Location.isDirect_path {location : Location} (h : Path.AreNames location) :
    location.path.IsDirect :=
  ⟨Path.isAbsolute_slash _, by simp [components_path h]⟩

theorem Location.path_eq_descend {location : Location} (h : Path.AreNames location) :
    location.path = (Path.mk "/").descend location.reverse := by
  have names := Path.areNames_reverse.mpr h
  rw [Location.path]
  cases hrev : location.reverse with
  | nil => rfl
  | cons name rest =>
    rw [hrev] at names
    have relative := @Path.isAbsolute_joinSlashes name rest (Path.areNames_cons.mp names).1
    rw [← Path.join_joinSlashes _ names, Path.join_eq relative]
    rfl

namespace Disk

variable {disk now later : Disk} {output : Location}

/-- At the location nothing stands, or an empty directory, and no link is on the way to it. -/
structure IsSite (disk : Disk) (output : Location) : Prop where
  areNames : Path.AreNames output
  noLink : disk.LinkFree [] output
  directory : disk.get? output = none ∨ disk.Holds output
  empty : ∀ place, output <:+ place → place ≠ output → disk.get? place = none

/-- A disk on which something is built at the site. -/
structure Built (disk : Disk) (output : Location) (now : Disk) : Prop where
  wellFormed : now.WellFormed
  agrees : Agrees output disk now
  plain : ∀ place node, disk.Free output place → now.get? place = some node →
    node.IsDirectory ∨ node.IsFile

/-- In the beginning nothing is built. -/
theorem Built.refl (hdisk : disk.WellFormed) : disk.Built output disk where
  wellFormed := hdisk
  agrees := ⟨rfl, fun _ _ => rfl⟩
  plain := by
    rintro place node ⟨-, absent⟩ found
    simp [absent] at found

/-- What is neither a directory nor a file has been there from the start. -/
theorem Built.get?_of_not_plain (h : disk.Built output now) {place : Location} {node : Node}
    (found : now.get? place = some node) (hdirectory : ¬ node.IsDirectory) (hfile : ¬ node.IsFile) :
    disk.get? place = some node := by
  have notFree : ¬ disk.Free output place := fun free =>
    (h.plain place node free found).elim hdirectory hfile
  rw [← h.agrees.same place notFree, found]

theorem Built.linkFree (h : disk.Built output now) {above below : Location}
    (hfree : disk.LinkFree above below) : now.LinkFree above below := by
  intro place habove hbelow node found isLink
  obtain ⟨target, rfl⟩ := isLink
  have before := h.get?_of_not_plain found (by simp) (by simp)
  exact hfree place habove hbelow _ before (by simp)

namespace IsSite

variable (hsite : disk.IsSite output)
include hsite

theorem isDirect : output.path.IsDirect :=
  Location.isDirect_path hsite.areNames

theorem location_descend {names : List String} (hnames : Path.AreNames names) :
    (output.path.descend names).location = names.reverse ++ output := by
  rw [Path.location_descend _ hnames, Location.location_path hsite.areNames]

/-- What stands at the location from the start is a directory, and nothing stands below. -/
theorem holds_of_not_free {place : Location} (hbelow : output <:+ place)
    (hfree : ¬ disk.Free output place) : disk.Holds place := by
  have there : disk.get? place ≠ none := fun absent => hfree ⟨.inr hbelow, absent⟩
  by_cases same : place = output
  · exact same ▸ hsite.directory.resolve_left (same ▸ there)
  · exact absurd (hsite.empty place hbelow same) there

/-- At and below the site there are neither links nor devices. -/
theorem plain_below (hbuilt : disk.Built output now) {place : Location} (hbelow : output <:+ place)
    {node : Node} (found : now.get? place = some node) : node.IsDirectory ∨ node.IsFile := by
  by_cases free : disk.Free output place
  · exact hbuilt.plain place node free found
  · obtain ⟨access, holds⟩ := hsite.holds_of_not_free hbelow free
    rw [hbuilt.agrees.same place free, holds] at found
    obtain rfl := Option.some.inj found
    exact .inl (by simp)

theorem linkFree (hbuilt : disk.Built output now) {place : Location} (halong : Along output place) :
    now.LinkFree [] place := by
  refine hbuilt.linkFree fun other _ onWay node found => ?_
  rcases halong with above | below
  · exact hsite.noLink other List.nil_suffix (onWay.trans above) node found
  · rcases List.suffix_or_suffix_of_suffix onWay below with above | below
    · exact hsite.noLink other List.nil_suffix above node found
    · by_cases same : other = output
      · exact hsite.noLink other List.nil_suffix (same ▸ List.suffix_refl _) node found
      · simp [hsite.empty other below same] at found

/-- What may be written at the site: directories on the way and below, files below. -/
def Allowed (output : Location) (path : Path) (node : Node) : Prop :=
  path.IsDirect ∧
    ((Along output path.location ∧ node = .directory .full) ∨
      (output <:+ path.location ∧ node.IsFile))

omit hsite in
theorem Allowed.along {path : Path} {node : Node} (h : Allowed output path node) :
    Along output path.location :=
  h.2.elim And.left fun file => .inr file.1

/-- The site is built on. -/
theorem built_of_grows (hbuilt : disk.Built output now) (hgrows : now.Grows (Allowed output) later) :
    disk.Built output later := by
  have changed : ∀ place, later.get? place ≠ now.get? place →
      disk.Free output place ∧
        ∃ node, later.get? place = some node ∧ (node.IsDirectory ∨ node.IsFile) := by
    intro place hne
    obtain ⟨path, node, allowed, rfl, found⟩ := hgrows.location_eq
      (fun path node allowed => ⟨allowed.1, hsite.linkFree hbuilt allowed.along⟩) hne
    refine ⟨?_, node, found, ?_⟩
    · by_contra notFree
      -- What has been there from the start is still the same.
      have there : disk.get? path.location ≠ none := fun absent => notFree ⟨allowed.along, absent⟩
      obtain ⟨old, before⟩ := Option.ne_none_iff_exists'.mp there
      have sofar := (hbuilt.agrees.same _ notFree).trans before
      rcases hgrows.extends.kept _ old sofar with same | ⟨isFile, node', found', isFile'⟩
      · exact hne (same.trans sofar.symm)
      · obtain rfl := Option.some.inj (found.symm.trans found')
        rcases allowed.2 with ⟨-, rfl⟩ | ⟨below, -⟩
        · simp at isFile'
        · obtain ⟨access, holds⟩ := hsite.holds_of_not_free below notFree
          obtain rfl := Option.some.inj (before.symm.trans holds)
          simp at isFile
    · rcases allowed.2 with ⟨-, rfl⟩ | ⟨-, file⟩
      · exact .inl (by simp)
      · exact .inr file
  refine ⟨hgrows.wellFormed hbuilt.wellFormed, ⟨?_, ?_⟩, ?_⟩
  · rw [hgrows.extends.here, hbuilt.agrees.here]
  · intro place notFree
    by_cases same : later.get? place = now.get? place
    · rw [same, hbuilt.agrees.same place notFree]
    · exact absurd (changed place same).1 notFree
  · intro place node free found
    by_cases same : later.get? place = now.get? place
    · exact hbuilt.plain place node free (same ▸ found)
    · obtain ⟨-, node', found', kind⟩ := changed place same
      obtain rfl := Option.some.inj (found.symm.trans found')
      exact kind

end IsSite

/-- A path lists the same, by name, if it leads to the same and no entry of a directory that can be
    listed has changed. -/
theorem sortByName_list_congr (hdisk : disk.WellFormed) (hnow : now.WellFormed) {path : Path}
    (hfind : now.find .target path = disk.find .target path)
    (hentries : ∀ place access, disk.find .target path = .ok (place, .directory access) →
      access.read = true → ∀ name, Path.IsName name →
        now.get? (name :: place) = disk.get? (name :: place)) :
    (now.list path).map Walk.sortByName = (disk.list path).map Walk.sortByName := by
  rw [list, list, hfind]
  cases found : disk.find .target path with
  | error e => rfl
  | ok reached =>
    obtain ⟨place, node⟩ := reached
    cases node with
    | file | link | device => rfl
    | directory access =>
      simp only
      split
      · next readable =>
        have entries : ∀ item, item ∈ now.names place ↔ item ∈ disk.names place := by
          rintro ⟨name, kind⟩
          rw [hnow.mem_names, hdisk.mem_names]
          by_cases hname : Path.IsName name
          · rw [hentries place access found readable name hname]
          · constructor
            · rintro ⟨node, there, -⟩
              exact absurd (hnow.isName there) hname
            · rintro ⟨node, there, -⟩
              exact absurd (hdisk.isName there) hname
        have perm : (now.names place).Perm (disk.names place) :=
          (List.perm_ext_iff_of_nodup (hnow.nodup_names place).of_map
            (hdisk.nodup_names place).of_map).mpr entries
        simp only [Except.map]
        rw [Walk.sortByName_eq_of_perm perm (hnow.nodup_names place)]
      · rfl

/-- A tree looks to a walk as before if nothing has changed where its paths look. -/
theorem AgreesBelow.alike {root : Path} (h : AgreesBelow root disk now) (hdisk : disk.WellFormed)
    (hnow : now.WellFormed) : Walk.Alike root disk now where
  kind := by
    rintro path ⟨names, hnames, rfl⟩
    exact h.kind_eq hnames
  entryKind := by
    rintro path ⟨names, hnames, rfl⟩
    exact h.entryKind_eq hnames
  identify := by
    rintro path ⟨names, hnames, rfl⟩
    exact h.identify_eq hnames
  list := by
    rintro path ⟨names, hnames, rfl⟩
    exact sortByName_list_congr hdisk hnow (h.find_eq hnames (by simp))
      fun place access found _ name hname => h.same _ (sees_entry hnames found hname)

/-- A tree that keeps apart from the site looks to a walk as it did in the beginning. -/
theorem Built.alike (hbuilt : disk.Built output now) (hdisk : disk.WellFormed) {root : Path}
    (hapart : disk.Apart root output) : Walk.Alike root disk now :=
  (hapart.agreesBelow hbuilt.agrees).alike hdisk hbuilt.wellFormed

/-- On a tree without links, all that its paths look at of what is neither inside nor around it are
    directories. -/
theorem holds_of_sees {source seen : Location} (hdisk : disk.WellFormed)
    (hholds : disk.Holds source)
    (hfree : ∀ place node, Along source place → disk.get? place = some node → ¬ node.IsLink)
    (hinside : ¬ source <:+ output) (haround : ¬ output <:+ source)
    (hsees : disk.Sees source.path seen) (halong : Along output seen) : disk.Holds seen := by
  obtain ⟨names, hnames, meets⟩ := hsees
  obtain ⟨access, found⟩ := hholds
  have hsource := Path.areNames_reverse.mpr (hdisk.areNames found)
  have nonempty : source.reverse ≠ [] := by
    intro none
    exact hinside (by simp [List.reverse_eq_nil_iff.mp none])
  have root : disk.start source.path = [] := by
    simp [start, (Location.isDirect_path (hdisk.areNames found)).absolute]
  have way : route source.path = source.reverse := by
    rw [Location.path_eq_descend (hdisk.areNames found), route_descend hsource nonempty]
    rfl
  rw [root, way] at meets
  have onWay := meets.suffix (by simp [hsource, hnames]) fun place _ below node there =>
    hfree place node (along_of_suffix_append (by simpa using below)) there
  rw [List.append_nil, List.reverse_append, List.reverse_reverse] at onWay
  rcases along_of_suffix_append onWay with above | below
  · rcases hdisk.get?_of_suffix found above with same | directory
    · exact same ▸ ⟨access, found⟩
    · exact directory
  · rcases halong with above | further
    · exact absurd (below.trans above) hinside
    · rcases List.suffix_or_suffix_of_suffix further below with h | h
      · exact absurd h haround
      · exact absurd h hinside

/-- A tree on which there are no links keeps apart from what is neither inside nor around it. -/
theorem apart_of_linkFree {source : Location} (hdisk : disk.WellFormed) (hholds : disk.Holds source)
    (hfree : ∀ place node, Along source place → disk.get? place = some node → ¬ node.IsLink)
    (hinside : ¬ source <:+ output) (haround : ¬ output <:+ source) :
    disk.Apart source.path output := by
  rintro names hnames seen meets ⟨along, absent⟩
  obtain ⟨access, found⟩ :=
    holds_of_sees hdisk hholds hfree hinside haround ⟨names, hnames, meets⟩ along
  simp [found] at absent

end Disk

end Phrasebook
