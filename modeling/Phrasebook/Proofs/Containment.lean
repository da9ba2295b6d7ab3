import Phrasebook.Proofs.Naturality
import Phrasebook.Proofs.SourceKept

/-!
# Where an accepted output directory is made

An output directory is accepted or refused by the components of its path, and made later by following
that path. Main statement: what has been accepted and made lies apart from the source folder, and is
new or was empty unless it is forced, as long as neither `..` nor a link is left on the path. None is
left if the path led to something before.
-/

namespace Phrasebook

namespace Path

/-- Of the absolute paths only the root has no parent. -/
theorem components_of_parent?_eq_none {path : Path} (h : path.isAbsolute = true)
    (hparent : path.parent? = none) : path.components = [.root] := by
  have hparts : path.parts = (.root, path.segments.tail) := by simp [parts, h]
  have idle : dropIdleEnd path.segments.tail = [] := by
    by_contra some
    obtain ⟨first, rest, hbody⟩ := List.exists_cons_of_ne_nil some
    simp [parent?, hparts, hbody] at hparent
  rw [components_of_isAbsolute h, ← filterMap_dropIdleEnd, idle, List.filterMap_nil]

theorem exists_ancestors (path : Path) : ∃ rest, path.ancestors = path :: rest := by
  unfold ancestors
  cases path.components.length with
  | zero => exact ⟨[], rfl⟩
  | succ n =>
    rw [ancestorsUpTo]
    cases path.parent? with
    | none => exact ⟨[], rfl⟩
    | some parent => exact ⟨_, rfl⟩

end Path

namespace Disk

variable {disk disk' : Disk}

/-- Neither `..` nor a link is on the absolute path. -/
structure Straight (disk : Disk) (path : Path) : Prop where
  isDirect : path.IsDirect
  linkFree : disk.LinkFree [] path.location

/-- Following a path to its end never stops at a link. -/
theorem Leads.not_isLink (hdisk : disk.WellFormed) {links : Nat} {location place : Location}
    {names : List String} {node : Node}
    (h : Leads disk .target links location names (.occupied place node))
    (hstart : ∀ node, disk.get? location = some node → ¬ node.IsLink) : ¬ node.IsLink := by
  have holds : ∀ {location}, disk.Holds location →
      ∀ node, disk.get? location = some node → ¬ node.IsLink := by
    intro location holds node found
    obtain ⟨access, directory⟩ := holds
    obtain rfl := Option.some.inj (found.symm.trans directory)
    simp
  have root : disk.Holds [] := by
    obtain ⟨node, found, access, rfl⟩ := hdisk.root
    exact ⟨access, found⟩
  generalize hspot : Spot.occupied place node = spot at h
  induction h with
  | stop found =>
    obtain ⟨rfl, rfl⟩ := Spot.occupied.inj hspot
    exact hstart node found
  | vacant => simp at hspot
  | kept _ _ _ keeps => simp [Ending.keepsLink] at keeps
  | slash _ _ ih | dot _ _ ih => exact ih hstart hspot
  | @up links location rest spot enters _ ih =>
    refine ih (holds ?_) hspot
    cases location with
    | nil => exact root
    | cons name parent =>
      obtain ⟨access, found, -⟩ := enters
      exact hdisk.parent found
  | @follow links location name rest target spot enters _ _ _ _ ih =>
    refine ih (holds ?_) hspot
    unfold linkStart
    split
    · exact root
    · obtain ⟨access, found, -⟩ := enters
      exact ⟨access, found⟩
  | down _ _ present notLink _ ih =>
    refine ih (fun node found => ?_) hspot
    obtain rfl := Option.some.inj (found.symm.trans present)
    exact notLink

/-- The canonical path of what a path leads to is straight. -/
theorem straight_of_find (hdisk : disk.WellFormed) {path : Path} (habsolute : path.isAbsolute = true)
    {place : Location} {node : Node} (h : disk.find .target path = .ok (place, node)) :
    disk.Straight place.path := by
  obtain ⟨-, leads⟩ := locate_eq_ok_iff.mp (find_eq_ok_iff.mp h)
  have found := get?_of_find h
  have names := hdisk.areNames found
  refine ⟨Location.isDirect_path names, ?_⟩
  rw [Location.location_path names]
  intro above _ onWay other there
  rcases hdisk.get?_of_suffix found onWay with rfl | ⟨access, directory⟩
  · obtain rfl := Option.some.inj (there.symm.trans found)
    refine leads.not_isLink hdisk fun root atRoot => ?_
    obtain ⟨node, found, access, rfl⟩ := hdisk.root
    have start : disk.start path = [] := by simp [start, habsolute]
    rw [start] at atRoot
    obtain rfl := Option.some.inj (atRoot.symm.trans found)
    simp
  · obtain rfl := Option.some.inj (there.symm.trans directory)
    simp

/-- A way without `..` and links to something that was there before was there before. -/
theorem Leads.before {links : Nat} {location place : Location} {names : List String} {node : Node}
    (h : Leads disk' .target links location names (.occupied place node))
    (hplace : place = (names.filter (! Path.isIdle ·)).reverse ++ location) (hup : ".." ∉ names)
    (hsame : ∀ above, above <:+ place → disk'.get? above = disk.get? above)
    (hfree : ∀ above, above <:+ place → ∀ node, disk.get? above = some node → ¬ node.IsLink) :
    Leads disk .target links location names (.occupied place node) := by
  have idleEmpty : Path.isIdle "" = true := rfl
  have idleHere : Path.isIdle "." = true := rfl
  generalize hspot : Spot.occupied place node = spot at h
  induction h with
  | stop found =>
    obtain ⟨rfl, rfl⟩ := Spot.occupied.inj hspot
    exact .stop (by rw [← hsame place (List.suffix_refl _), found])
  | vacant => simp at hspot
  | kept _ _ _ keeps => simp [Ending.keepsLink] at keeps
  | up => simp at hup
  | @slash links location rest spot holds _ ih =>
    rw [List.filter_cons_of_neg (by simp [idleEmpty])] at hplace
    obtain ⟨access, found⟩ := holds
    rw [hsame location (hplace ▸ List.suffix_append _ _)] at found
    exact .slash ⟨access, found⟩ (ih hplace (fun hmem => hup (List.mem_cons_of_mem _ hmem)) hspot)
  | @dot links location rest spot enters _ ih =>
    rw [List.filter_cons_of_neg (by simp [idleHere])] at hplace
    obtain ⟨access, found, enter⟩ := enters
    rw [hsame location (hplace ▸ List.suffix_append _ _)] at found
    exact .dot ⟨access, found, enter⟩
      (ih hplace (fun hmem => hup (List.mem_cons_of_mem _ hmem)) hspot)
  | @follow links location name rest target spot _ fits link _ _ _ =>
    have notIdle := fits.isIdle
    rw [List.filter_cons_of_pos (by simp [notIdle]), List.reverse_cons, List.append_assoc,
      List.singleton_append] at hplace
    have onWay : name :: location <:+ place := hplace ▸ List.suffix_append _ _
    rw [hsame _ onWay] at link
    exact absurd (Node.isLink_link target) (hfree _ onWay _ link)
  | @down links location name rest between spot enters fits present notLink _ ih =>
    have notIdle := fits.isIdle
    rw [List.filter_cons_of_pos (by simp [notIdle]), List.reverse_cons, List.append_assoc,
      List.singleton_append] at hplace
    have onWay : name :: location <:+ place := hplace ▸ List.suffix_append _ _
    obtain ⟨access, found, enter⟩ := enters
    rw [hsame location ((List.suffix_cons _ _).trans onWay)] at found
    rw [hsame _ onWay] at present
    exact .down ⟨access, found, enter⟩ fits present notLink
      (ih hplace (fun hmem => hup (List.mem_cons_of_mem _ hmem)) hspot)

/-- A straight path that leads to a directory led there before, if something was there before. -/
theorem find_before (hdisk : disk.WellFormed) (hextends : Extends disk disk') {path : Path}
    (hstraight : disk.Straight path) (hfree : disk'.LinkFree [] path.location) {place : Location}
    {access : Access} (h : disk'.find .target path = .ok (place, .directory access)) {node : Node}
    (hnode : disk.get? place = some node) :
    disk.find .target path = .ok (place, .directory access) := by
  have located := find_eq_ok_iff.mp h
  obtain ⟨usable, leads⟩ := locate_eq_ok_iff.mp located
  have same : place = path.location := place_eq_of_locate located hstraight.isDirect hfree
  have target : disk.get? place = some (.directory access) := by
    rcases hextends.kept place node hnode with kept | ⟨-, node', found, isFile⟩
    · rw [hnode, ← kept, get?_of_find h]
    · obtain rfl := Option.some.inj (found.symm.trans (get?_of_find h))
      simp at isFile
  have agree : ∀ above, above <:+ place → disk'.get? above = disk.get? above := by
    intro above onWay
    rcases hdisk.get?_of_suffix target onWay with rfl | ⟨access', directory⟩
    · rw [target, get?_of_find h]
    · rw [directory, hextends.directory directory]
  have root : disk'.start path = disk.start path := by simp [start, hextends.here]
  have start : disk.start path = [] := by simp [Disk.start, hstraight.isDirect.absolute]
  rw [find_eq_ok_iff, locate_eq_ok_iff]
  refine ⟨usable, ?_⟩
  rw [root] at leads
  refine leads.before ?_ (up_not_mem_steps hstraight.isDirect) agree fun above onWay => ?_
  · rw [start, List.append_nil, filter_steps, ← hstraight.isDirect.names_eq]
    exact same
  · exact hstraight.linkFree above List.nil_suffix (same ▸ onWay)

end Disk

namespace Session

variable {σ : Type}

theorem exec_isDirectory (path : Path) (state : State σ) :
    exec (Storage.isDirectory path) state =
      (state.disk.kind path matches .ok .directory, state) := rfl

theorem kind_of_isDirectory {path : Path} {state : State σ}
    (h : (exec (Storage.isDirectory path) state).1 = true) :
    state.disk.kind path = .ok .directory := by
  rw [exec_isDirectory] at h
  simp only at h
  split at h
  · assumption
  · simp at h

theorem kind_of_makeDirectory {path : Path} {state after : State σ}
    (h : exec (Storage.makeDirectory path) state = (.ok (), after)) :
    after.disk.kind path = .ok .directory := by
  rw [exec_makeDirectory] at h
  cases hmade : state.disk.makeDirectory path with
  | error e => simp [hmade, attempt] at h
  | ok disk =>
    obtain ⟨place, -, places, rfl⟩ := Disk.makeDirectory_eq_ok hmade
    rw [hmade] at h
    obtain rfl := (Prod.mk.inj h).2
    rw [State.disk_setDisk, Disk.kind, places.found]
    rfl

/-- The first of several directories is there before the others are made. -/
theorem makeEach_cons_eq_ok {path : Path} {rest : List Path} {state after : State σ}
    (h : exec (Storage.makeEach (path :: rest)) state = (.ok (), after)) :
    ∃ between : State σ, between.disk.kind path = .ok .directory ∧
      exec (Storage.makeEach rest) between = (.ok (), after) := by
  rw [Storage.makeEach, exec_bind] at h
  cases hmade : exec (Storage.makeDirectory path) state with
  | mk made between =>
    rw [hmade] at h
    cases made with
    | ok => exact ⟨between, kind_of_makeDirectory hmade, h⟩
    | error e =>
      cases e with
      | alreadyThere =>
        simp only [exec_bind] at h
        split at h
        · next isDirectory => exact ⟨between, kind_of_isDirectory isDirectory, h⟩
        · cases (Prod.mk.inj h).1
      | noEntry | denied | notDirectory | isDirectory | tooManyLinks | nameTooLong | other =>
        cases (Prod.mk.inj h).1

/-- After each of the directories has been made, the last one is there. -/
theorem kind_of_makeEach (missing : List Path) {path : Path} {state after : State σ}
    (h : exec (Storage.makeEach (missing ++ [path])) state = (.ok (), after)) :
    after.disk.kind path = .ok .directory := by
  induction missing generalizing state with
  | nil =>
    obtain ⟨between, there, rest⟩ := makeEach_cons_eq_ok h
    obtain rfl : between = after := (Prod.mk.inj rest).2
    exact there
  | cons other missing ih =>
    obtain ⟨between, -, rest⟩ := makeEach_cons_eq_ok h
    exact ih rest

/-- A directory is there at once, or it is the last of those that have still to be made. -/
theorem makeTopmost_cons_eq_ok {path : Path} {parents missing : List Path} {state after : State σ}
    (hempty : path.isEmpty = false) (hparent : path.parent? ≠ none)
    (h : exec (Storage.makeTopmost (path :: parents)) state = (.ok missing, after)) :
    (missing = [] ∧ after.disk.kind path = .ok .directory) ∨ ∃ rest, missing = path :: rest := by
  have goesOn : (path.isEmpty || path.parent?.isNone) = false := by
    simp [hempty, Option.isSome_iff_ne_none, hparent]
  rw [Storage.makeTopmost, if_neg (by simp [goesOn]), exec_bind] at h
  cases hmade : exec (Storage.makeDirectory path) state with
  | mk made between =>
    rw [hmade] at h
    cases made with
    | ok =>
      obtain ⟨same, rfl⟩ := Prod.mk.inj h
      exact .inl ⟨(Except.ok.inj same).symm, kind_of_makeDirectory hmade⟩
    | error e =>
      cases e with
      | alreadyThere =>
        simp only [exec_bind] at h
        split at h
        · next isDirectory =>
          obtain ⟨same, rfl⟩ := Prod.mk.inj h
          exact .inl ⟨(Except.ok.inj same).symm, kind_of_isDirectory isDirectory⟩
        · cases (Prod.mk.inj h).1
      | noEntry =>
        simp only [exec_bind, exec_pure] at h
        cases hrest : (exec (Storage.makeTopmost parents) between).1 with
        | error e => simp [hrest, Except.map] at h
        | ok rest =>
          rw [hrest] at h
          exact .inr ⟨rest, (Except.ok.inj (Prod.mk.inj h).1).symm⟩
      | denied | notDirectory | isDirectory | tooManyLinks | nameTooLong | other =>
        cases (Prod.mk.inj h).1

/-- A directory that has been made with its parents is there. -/
theorem kind_of_makeDirectories {path : Path} {state after : State σ}
    (hempty : path.isEmpty = false) (hparent : path.parent? ≠ none)
    (h : exec (Storage.makeDirectories path) state = (.ok (), after)) :
    after.disk.kind path = .ok .directory := by
  obtain ⟨parents, ancestors⟩ := path.exists_ancestors
  rw [Storage.makeDirectories, ancestors, exec_bind] at h
  cases htop : exec (Storage.makeTopmost (path :: parents)) state with
  | mk made between =>
    rw [htop] at h
    cases made with
    | error e => cases (Prod.mk.inj h).1
    | ok missing =>
      rcases makeTopmost_cons_eq_ok hempty hparent htop with ⟨rfl, there⟩ | ⟨rest, rfl⟩
      · obtain rfl : between = after := (Prod.mk.inj h).2
        exact there
      · simp only [List.reverse_cons] at h
        exact kind_of_makeEach _ h

end Session

namespace Plan

open World

variable {disk : Disk}

/-- A path that leads to something is resolved to where it leads. -/
theorem reads_resolvePath_present {path : Path} {place : Location} {node : Node}
    (hfind : disk.find .target (path.absolute disk.here.path) = .ok (place, node)) :
    Reads disk (resolvePath path)
      fun result => ∀ whole, result = .ok whole → whole = place.path := by
  rw [resolvePath]
  split
  · exact reads_pure (by simp)
  refine (reads_inspect (·.here.path)).bind fun base hbase => ?_
  subst hbase
  generalize hwhole : path.absolute disk.here.path = whole at hfind
  obtain ⟨parents, ancestors⟩ := whole.exists_ancestors
  have isPresent : Reads disk (Storage.isPresent whole : StateM World _) (· = true) := by
    refine (reads_inspect (·.kind whole)).bind fun kind hkind => reads_pure ?_
    simp [hkind, Disk.kind, hfind, Except.map]
  have present : Reads disk (firstPresent whole.ancestors : StateM World _) (· = some whole) := by
    rw [ancestors, firstPresent]
    refine isPresent.bind fun there hthere => ?_
    subst hthere
    exact reads_pure rfl
  refine present.bind fun found hfound => ?_
  subst hfound
  refine (reads_inspect (·.canonical whole)).bind fun root hroot => ?_
  obtain rfl : root = .ok place.path := by simp [hroot, Disk.canonical, hfind, Except.map]
  simp only
  have nothing := Path.relativeTo_descend whole Path.areNames_nil
  rw [Path.descend_nil, Path.relativeTo] at nothing
  split
  · next rest hrest =>
    refine reads_pure fun result same => ?_
    rw [hrest, Option.getD_some] at nothing
    subst nothing
    exact (Except.ok.inj same).symm
  · exact reads_pure fun result same => (Except.ok.inj same).symm

end Plan

/-- A directory that has been made with its parents is found, on a disk that has only grown. -/
theorem World.find_of_makeDirectories {world later : World} (hdisk : world.disk.WellFormed)
    {path : Path} (hempty : path.isEmpty = false) (hparent : path.parent? ≠ none)
    (h : (Storage.makeDirectories path : StateM World _) world = (.ok (), later)) :
    world.disk.Grows (fun _ _ => True) later.disk ∧
      ∃ place access, later.disk.find .target path = .ok (place, .directory access) := by
  have made : Session.exec (Storage.makeDirectories path : Session Unit _) ((), world) =
      (.ok (), ((), later)) := by
    rw [← (Translation.lift Unit (StateM World)).map_makeDirectories path]
    simp only [Translation.lift, Session.exec_lift, h]
  have grows := (@Session.within_makeDirectories Unit (fun _ _ => True) path fun _ _ => trivial)
    ((), world) hdisk
  rw [made] at grows
  have there := Session.kind_of_makeDirectories hempty hparent made
  exact ⟨grows.1, Disk.find_of_kind there⟩

namespace Disk

variable {disk later : Disk} {allowed : Path → Node → Prop} (hgrows : disk.Grows allowed later)
  {path : Path} {place : Location} {node : Node}
include hgrows

/-- On a disk that has grown since, a straight path leads where its names say. -/
theorem Straight.place_eq (h : disk.Straight path)
    (hfind : later.find .target path = .ok (place, node)) : place = path.location :=
  Disk.place_eq_of_locate (Disk.find_eq_ok_iff.mp hfind) h.isDirect (hgrows.linkFree h.linkFree)

/-- On a disk that has grown since, a path to a directory is the path of the place exactly if it is
    straight. -/
theorem components_eq_iff_straight (hdisk : disk.WellFormed) (habsolute : path.isAbsolute = true)
    {access : Access} (hfind : later.find .target path = .ok (place, .directory access)) :
    path.components = place.path.components ↔ disk.Straight path := by
  have grown := hgrows.wellFormed hdisk
  have standing := Disk.get?_of_find hfind
  have names := grown.areNames standing
  constructor
  · intro same
    have direct : path.IsDirect := ⟨habsolute, same ▸ (Location.isDirect_path names).noUp⟩
    have location : path.location = place := by
      rw [← Location.location_path names, Path.location, Path.location, Path.names, Path.names, same]
    -- A link on the way would still be there, but the way to the place consists of directories.
    refine ⟨direct, fun above _ onWay node link isLink => ?_⟩
    obtain ⟨target, rfl⟩ := isLink
    have later := hgrows.extends.link link
    rcases grown.get?_of_suffix standing (location ▸ onWay) with rfl | ⟨access, directory⟩
    · simp [standing] at later
    · simp [directory] at later
  · intro straight
    rw [straight.isDirect.components_eq, Location.components_path names,
      straight.place_eq hgrows hfind, Path.location, List.reverse_reverse]

end Disk

/-- The locations do not lie in each other. -/
def Location.Outside (source place : Location) : Prop :=
  ¬ source <:+ place ∧ ¬ place <:+ source

/-- Direct paths that do not start with each other belong to locations outside each other. -/
theorem Path.IsDirect.outside {source path : Path} (hsource : source.IsDirect)
    (hpath : path.IsDirect) (hinside : path.startsWith source = false)
    (haround : source.startsWith path = false) :
    Location.Outside source.location path.location := by
  rw [Location.Outside, ← Path.startsWith_iff_suffix hpath hsource,
    ← Path.startsWith_iff_suffix hsource hpath, hinside, haround]
  simp

/-- Nothing stands at the location, or an empty directory. -/
def Disk.IsFree (disk : Disk) (place : Location) : Prop :=
  disk.get? place = none ∨ (disk.Holds place ∧ disk.names place = [])

/-- An output directory that has been accepted and then made is a directory at some place. Its path
    is that of the place, component by component, if and only if neither `..` nor a link is on it,
    which is so whenever the path led to something before. If it is so, the place lies neither inside
    nor around the source folder, and unless it was forced it was free. -/
theorem checkOutput_outside (source : Location) (output : Path) (force : Bool) (out : Path)
    (world world' world'' : World) (hdisk : world.disk.WellFormed) (hsource : world.disk.Holds source)
    (hcheck : (Plan.checkOutput source.path output force : StateM World (Except Failure Path)) world =
      (.ok out, world'))
    (hmade : (Storage.makeDirectories out : StateM World (Except OsError Unit)) world' =
      (.ok (), world'')) :
    ∃ place, world''.disk.canonical out = .ok place.path ∧ world''.disk.Holds place ∧
      (out.components = place.path.components ↔ world.disk.Straight out) ∧
      ((world.disk.kind (output.absolute world.disk.here.path)).isOk = true →
        world.disk.Straight out) ∧
      (world.disk.Straight out →
        Location.Outside source place ∧ (force = false → world.disk.IsFree place)) := by
  have accepted := Plan.reads_checkOutput_of source.path force
    (Plan.reads_resolvePath output) world rfl
  rw [hcheck] at accepted
  obtain ⟨rfl, accepted⟩ := accepted
  obtain ⟨absolute, notInside, notAround, free⟩ := accepted out rfl
  obtain ⟨access, hsource⟩ := hsource
  have sourceNames := hdisk.areNames hsource
  have sourceDirect := Location.isDirect_path sourceNames
  -- The root lies around every folder, so what has been accepted is not the root.
  have notRoot : out.parent? ≠ none := by
    intro none
    rw [Path.startsWith, Path.components_of_parent?_eq_none absolute none,
      sourceDirect.components_eq] at notAround
    simp at notAround
  have notEmpty : out.isEmpty = false := by
    by_contra empty
    rw [Bool.not_eq_false, Path.isEmpty_iff] at empty
    simp [Path.isAbsolute, empty] at absolute
  obtain ⟨grows, place, access', found⟩ := World.find_of_makeDirectories hdisk notEmpty notRoot hmade
  refine ⟨place, by simp [Disk.canonical, found, Except.map], ⟨access', Disk.get?_of_find found⟩,
    Disk.components_eq_iff_straight grows hdisk absolute found, ?_, ?_⟩
  · intro present
    cases hfind : world'.disk.find .target (output.absolute world'.disk.here.path) with
    | error e => simp [Disk.kind, hfind, Except.map, Except.isOk, Except.toBool] at present
    | ok found =>
      have resolved := Plan.reads_checkOutput_of source.path force
        (Plan.reads_resolvePath_present hfind) world' rfl
      rw [hcheck] at resolved
      rw [(resolved.2 out rfl).1]
      exact Disk.straight_of_find hdisk
        (Path.isAbsolute_absolute _ (Location.isAbsolute_path _)) hfind
  · intro straight
    have outside := sourceDirect.outside straight.isDirect notInside notAround
    rw [Location.location_path sourceNames, ← straight.place_eq grows found] at outside
    refine ⟨outside, fun notForced => ?_⟩
    cases before : world'.disk.get? place with
    | none => exact .inl before
    | some node =>
      have found' := Disk.find_before hdisk grows.extends straight
        (grows.linkFree straight.linkFree) found before
      exact .inr ⟨⟨access', Disk.get?_of_find found'⟩, free notForced place _ found'⟩

/-- Accepts or refuses an output directory for the folder `/src`. -/
def Plan.checkOn (disk : Disk) (output : String) (force : Bool) : Except Failure Path × World :=
  (Plan.checkOutput (Location.path ["src"]) ⟨output⟩ force : StateM World (Except Failure Path))
    (World.ofDisk disk [])

/-- Makes a directory with its parents. -/
def Storage.makeOn (world : World) (path : String) : Except OsError Unit × World :=
  (Storage.makeDirectories ⟨path⟩ : StateM World (Except OsError Unit)) world

/-- A new directory that is reached from the source folder through `..` lies beside the folder. -/
theorem checkOutput_outside_beside :
    (Plan.checkOn .sample "/src/../out/x" false).1 = .ok ⟨"/out/x"⟩ ∧
      ∃ place,
        (Storage.makeOn (Plan.checkOn .sample "/src/../out/x" false).2 "/out/x").2.disk.canonical
            ⟨"/out/x"⟩ = .ok place.path ∧
          Location.Outside ["src"] place ∧ Disk.sample.IsFree place := by
  -- Stated for every disk, so that nothing is computed here.
  have apart : ∀ (disk : Disk) (output out : String), disk.WellFormed → disk.Holds ["src"] →
      (Plan.checkOn disk output false).1 = .ok ⟨out⟩ →
      (Storage.makeOn (Plan.checkOn disk output false).2 out).1 = .ok () → disk.Straight ⟨out⟩ →
      ∃ place, (Storage.makeOn (Plan.checkOn disk output false).2 out).2.disk.canonical ⟨out⟩ =
          .ok place.path ∧ Location.Outside ["src"] place ∧ disk.IsFree place := by
    intro disk output out hdisk hsource accepted made straight
    obtain ⟨place, canonical, -, -, -, apart⟩ := checkOutput_outside ["src"] ⟨output⟩ false ⟨out⟩
      (World.ofDisk disk []) (Plan.checkOn disk output false).2
      (Storage.makeOn (Plan.checkOn disk output false).2 out).2 hdisk hsource
      (Prod.ext accepted rfl) (Prod.ext made rfl)
    exact ⟨place, canonical, (apart straight).1, (apart straight).2 rfl⟩
  have accepted : (Plan.checkOn .sample "/src/../out/x" false).1 = .ok ⟨"/out/x"⟩ := by
    decide +kernel
  have made : (Storage.makeOn (Plan.checkOn .sample "/src/../out/x" false).2 "/out/x").1 =
      .ok () := by
    decide +kernel
  have noLinks : ∀ item ∈ Disk.sample.nodes, item.2.kind ≠ .link := by decide +kernel
  have straight : Disk.sample.Straight ⟨"/out/x"⟩ := by
    refine ⟨⟨by decide +kernel, by decide +kernel⟩, fun place _ _ node found isLink => ?_⟩
    exact noLinks _ (Disk.wellFormed_sample.mem_nodes_iff.mpr found) (Node.kind_eq_link.mpr isLink)
  exact ⟨accepted, apart _ _ _ Disk.wellFormed_sample ⟨.full, rfl⟩ accepted made straight⟩

/-- An output directory is accepted for the folder `/src` and made at a place that lies in the folder
    or around it, or that was not free although nothing was forced. -/
def Disk.Strays (disk : Disk) (output out : String) (place : Location) : Prop :=
  (Plan.checkOn disk output false).1 = .ok ⟨out⟩ ∧
    (Storage.makeOn (Plan.checkOn disk output false).2 out).1 = .ok () ∧
    (Storage.makeOn (Plan.checkOn disk output false).2 out).2.disk.canonical ⟨out⟩ =
      .ok place.path ∧
    ¬ (Location.Outside ["src"] place ∧ disk.IsFree place)

/-- A disk with a link of which forty links have to be followed, and one to the source folder. -/
def Disk.tangled : Disk :=
  ((Disk.sample.insert ["dot"] (.link ".")).insert ["dots"]
    (.link (Path.joinSlashes (List.replicate 39 "dot")))).insert ["trap"] (.link "src")

/-- An output directory is made at the source folder, in it, around it, or where something is, if its
    path leads back through `..` from a directory that is not there yet; and also in the folder if so
    many links are on the path that its end is not seen to be another link. -/
theorem checkOutput_strays :
    Disk.sample.Strays "/new/../src" "/new/../src" ["src"] ∧
    Disk.sample.Strays "/new/../src/x" "/new/../src/x" ["x", "src"] ∧
    Disk.sample.Strays "/new/.." "/new/.." [] ∧
    ((Disk.sample.insert ["out"] (.directory .full)).insert ["a.lua", "out"]
      (.file .empty .full)).Strays "/new/../out" "/new/../out" ["out"] ∧
    Disk.tangled.Strays "/dots/trap/x" "/trap/x" ["x", "src"] := by
  have inside : ∀ {disk : Disk} {place : Location}, ["src"].isSuffixOf place = true →
      ¬ (Location.Outside ["src"] place ∧ disk.IsFree place) := fun suffix outside =>
    outside.1.1 (List.isSuffixOf_iff_suffix.mp suffix)
  have tangled : (Plan.checkOn .tangled "/dots/trap/x" false).1 = .ok ⟨"/trap/x"⟩ ∧
      (Storage.makeOn (Plan.checkOn .tangled "/dots/trap/x" false).2 "/trap/x").1 = .ok () ∧
      (Storage.makeOn (Plan.checkOn .tangled "/dots/trap/x" false).2 "/trap/x").2.disk.canonical
        ⟨"/trap/x"⟩ = .ok (Location.path ["x", "src"]) := by
    decide +kernel
  refine ⟨⟨by decide +kernel, by decide +kernel, by decide +kernel, inside (by decide)⟩,
    ⟨by decide +kernel, by decide +kernel, by decide +kernel, inside (by decide)⟩,
    ⟨by decide +kernel, by decide +kernel, by decide +kernel, fun outside => ?_⟩,
    ⟨by decide +kernel, by decide +kernel, by decide +kernel, fun outside => ?_⟩,
    ⟨tangled.1, tangled.2.1, tangled.2.2, inside (by decide)⟩⟩
  · exact outside.1.2 List.nil_suffix
  · rcases outside.2 with absent | ⟨-, empty⟩
    · simp [Disk.get?_insert] at absent
    · revert empty
      decide +kernel

end Phrasebook
