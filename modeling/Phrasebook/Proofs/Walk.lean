import Phrasebook.Proofs.Session
import Phrasebook.Walk

/-!
# What a walk reports

On a disk that a visitor leaves alone, as far as the walk looks, the events of a walk are a function
of the disk. Main statements: the entries come in the order of the names that lead to them; and a walk
whose visitor always goes on hands it these events one after the other, even while the visitor changes
other parts of the disk. Of what the visitor skips it hands it only the entry itself.
-/

namespace Phrasebook

namespace Walk

/-! ## Entries by name -/

theorem mem_insertByName {item other : String × EntryKind} {items : List (String × EntryKind)} :
    item ∈ insertByName other items ↔ item = other ∨ item ∈ items := by
  fun_induction insertByName other items with
  | case1 => simp
  | case2 => simp
  | case3 first rest _ ih => simp [ih, or_left_comm]

theorem insertByName_perm (item : String × EntryKind) (items : List (String × EntryKind)) :
    insertByName item items |>.Perm (item :: items) := by
  fun_induction insertByName item items with
  | case1 => exact .refl _
  | case2 => exact .refl _
  | case3 first rest _ ih => exact (ih.cons first).trans (.swap item first rest)

theorem sortByName_perm (items : List (String × EntryKind)) : (sortByName items).Perm items := by
  induction items with
  | nil => exact .refl _
  | cons item items ih => exact (insertByName_perm item _).trans (ih.cons item)

theorem mem_sortByName {item : String × EntryKind} {items : List (String × EntryKind)} :
    item ∈ sortByName items ↔ item ∈ items :=
  (sortByName_perm items).mem_iff

theorem pairwise_insertByName {item : String × EntryKind} {items : List (String × EntryKind)}
    (h : items.Pairwise (·.1 ≤ ·.1)) : (insertByName item items).Pairwise (·.1 ≤ ·.1) := by
  fun_induction insertByName item items with
  | case1 => simp
  | case2 other rest hlt =>
    have before : item.1 ≤ other.1 := String.not_lt.mp fun hgt =>
      String.lt_irrefl _ (String.lt_trans hlt hgt)
    refine .cons (fun later hmem => ?_) h
    rcases List.mem_cons.mp hmem with rfl | inRest
    · exact before
    · exact String.le_trans before (List.rel_of_pairwise_cons h inRest)
  | case3 other rest hlt ih =>
    refine .cons (fun later hmem => ?_) (ih h.of_cons)
    rcases mem_insertByName.mp hmem with rfl | inRest
    · exact String.not_lt.mp hlt
    · exact List.rel_of_pairwise_cons h inRest

theorem pairwise_sortByName (items : List (String × EntryKind)) :
    (sortByName items).Pairwise (·.1 ≤ ·.1) := by
  induction items with
  | nil => exact .nil
  | cons item items ih => exact pairwise_insertByName ih

/-- By name, the same entries come in the same order. -/
theorem sortByName_eq_of_perm {items items' : List (String × EntryKind)} (h : items.Perm items')
    (hnodup : (items.map (·.1)).Nodup) : sortByName items = sortByName items' := by
  refine List.Perm.eq_of_pairwise (fun item other hmem hmem' hle hge => ?_)
    (pairwise_sortByName items) (pairwise_sortByName items')
    ((sortByName_perm items).trans (h.trans (sortByName_perm items').symm))
  exact List.inj_on_of_nodup_map hnodup (mem_sortByName.mp hmem)
    (h.mem_iff.mpr (mem_sortByName.mp hmem')) (String.le_antisymm hle hge)

/-! ## Events -/

/-- The path is that of the root or of something below it. -/
def Below (root path : Path) : Prop :=
  ∃ names, Path.AreNames names ∧ path = root.descend names

theorem below_root (root : Path) : Below root root :=
  ⟨[], by simp, rfl⟩

theorem Below.child {root path : Path} (h : Below root path) {name : String}
    (hname : Path.IsName name) : Below root (path.child name) := by
  obtain ⟨names, hnames, rfl⟩ := h
  exact ⟨names ++ [name], by simp [hnames, hname], by rw [Path.descend_append]; rfl⟩

/-- Paths below the root can be told by the names that lead to them. -/
theorem exists_names_of_below {root : Path} {paths : List Path}
    (h : ∀ path ∈ paths, Below root path) :
    ∃ found : List (List String), (∀ names ∈ found, Path.AreNames names) ∧
      paths = found.map root.descend := by
  induction paths with
  | nil => exact ⟨[], by simp, rfl⟩
  | cons path paths ih =>
    obtain ⟨names, hnames, rfl⟩ := h path List.mem_cons_self
    obtain ⟨found, hfound, rfl⟩ := ih fun other hmem => h other (List.mem_cons_of_mem _ hmem)
    exact ⟨names :: found, by simpa using ⟨hnames, hfound⟩, rfl⟩

/-- An entry that is reported stands at or below the root. -/
def Event.Below (root : Path) : Event → Prop
  | .entry found => Walk.Below root found.path
  | .trouble _ => True

@[simp] theorem Event.below_trouble (root : Path) (trouble : Trouble) :
    (Event.trouble trouble).Below root := trivial

/-- The first of the directories that is the one called `target` on a disk. -/
def sameDirectoryOn (disk : Disk) (target : Path) : List Path → Except OsError (Option Path)
  | [] => .ok none
  | ancestor :: rest =>
    match disk.identify ancestor with
    | .error e => .error e
    | .ok found => if found = target then .ok (some ancestor) else sameDirectoryOn disk target rest

/-- What a link leads to on a disk, unless that is one of the directories around it. -/
def followLinkOn (disk : Disk) (ancestors : List Path) (link : Path) : Except Trouble EntryKind :=
  match disk.kind link with
  | .error e => .error (.failed link e)
  | .ok .directory =>
    match disk.identify link with
    | .error e => .error (.unopened e)
    | .ok target =>
      match sameDirectoryOn disk target ancestors with
      | .error e => .error (.unopened e)
      | .ok (some ancestor) => .error (.loop link ancestor)
      | .ok none => .ok .directory
  | .ok kind => .ok kind

/-- What a walk on a disk takes an entry for. -/
def resolveKindOn (disk : Disk) (follow : Bool) (ancestors : List Path) (path : Path)
    (kind : EntryKind) : Except Trouble EntryKind :=
  if follow && kind = .link then followLinkOn disk ancestors path else .ok kind

/-- A walk on a disk goes into what stands at a path. -/
def goesIntoOn (disk : Disk) (ancestors : List Path) (path : Path) (kind : EntryKind) :
    Except OsError Bool :=
  if kind = .directory then .ok true
  else if kind = .link && ancestors.isEmpty then (disk.kind path).map (· == .directory)
  else .ok false

/-- The events of a walk on a disk through what stands at a path. -/
def eventsFrom (disk : Disk) (follow : Bool) : Nat → List Path → Path → EntryKind → List Event
  | 0, _, path, _ => [.trouble (.failed path .nameTooLong)]
  | depth + 1, ancestors, path, kind =>
    match resolveKindOn disk follow ancestors path kind with
    | .error trouble => [.trouble trouble]
    | .ok kind =>
      match goesIntoOn disk ancestors path kind with
      | .error e => [.trouble (.failed path e)]
      | .ok false => [.entry ⟨path, kind⟩]
      | .ok true =>
        .entry ⟨path, kind⟩ ::
          match disk.list path with
          | .error e => [.trouble (.failed path e)]
          | .ok names =>
            (sortByName names).flatMap fun (name, kind) =>
              eventsFrom disk follow depth (path :: ancestors) (path.child name) kind

theorem eventsFrom_of_directory (disk : Disk) (depth : Nat) (ancestors : List Path) (path : Path) :
    eventsFrom disk false (depth + 1) ancestors path .directory =
      .entry ⟨path, .directory⟩ ::
        match disk.list path with
        | .error e => [.trouble (.failed path e)]
        | .ok names =>
          (sortByName names).flatMap fun item =>
            eventsFrom disk false depth (path :: ancestors) (path.child item.1) item.2 := rfl

/-- The events of a walk on a disk. -/
def events (disk : Disk) (follow : Bool) (root : Path) : List Event :=
  match disk.entryKind root with
  | .error e => [.trouble (.failed root e)]
  | .ok kind => eventsFrom disk follow depthLimit [] root kind

theorem Below.trans {root path other : Path} (h : Below root path) (h' : Below path other) :
    Below root other := by
  obtain ⟨names, hnames, rfl⟩ := h
  obtain ⟨more, hmore, rfl⟩ := h'
  exact ⟨names ++ more, by simp [hnames, hmore], (Path.descend_append ..).symm⟩

theorem Event.Below.of_below {root path : Path} {event : Event} (h : event.Below path)
    (hpath : Walk.Below root path) : event.Below root := by
  cases event with
  | trouble trouble => trivial
  | entry entry => exact hpath.trans h

/-- How a visitor goes on that leaves out what the entries hold which it skips. -/
def Event.flow (skips : Entry → Bool) : Event → Flow
  | .entry found => if skips found then .skip else .enter
  | .trouble _ => .enter

theorem Event.flow_ne_stop (skips : Entry → Bool) (event : Event) : event.flow skips ≠ .stop := by
  cases event with
  | trouble trouble => simp [flow]
  | entry entry =>
    rw [flow]
    split <;> simp

theorem Event.flow_none (event : Event) : event.flow (fun _ => false) = .enter := by
  cases event <;> rfl

/-- The events of a walk on a disk through what stands at a path, without those below the entries
    that are skipped. -/
def prunedFrom (disk : Disk) (follow : Bool) (skips : Entry → Bool) :
    Nat → List Path → Path → EntryKind → List Event
  | 0, _, path, _ => [.trouble (.failed path .nameTooLong)]
  | depth + 1, ancestors, path, kind =>
    match resolveKindOn disk follow ancestors path kind with
    | .error trouble => [.trouble trouble]
    | .ok kind =>
      match goesIntoOn disk ancestors path kind with
      | .error e => [.trouble (.failed path e)]
      | .ok false => [.entry ⟨path, kind⟩]
      | .ok true =>
        .entry ⟨path, kind⟩ ::
          if skips ⟨path, kind⟩ then []
          else
            match disk.list path with
            | .error e => [.trouble (.failed path e)]
            | .ok names =>
              (sortByName names).flatMap fun (name, kind) =>
                prunedFrom disk follow skips depth (path :: ancestors) (path.child name) kind

/-- The events of a walk on a disk, without those below the entries that are skipped. -/
def pruned (disk : Disk) (follow : Bool) (skips : Entry → Bool) (root : Path) : List Event :=
  match disk.entryKind root with
  | .error e => [.trouble (.failed root e)]
  | .ok kind => prunedFrom disk follow skips depthLimit [] root kind

/-- If nothing is skipped, all events are left. -/
theorem prunedFrom_none (disk : Disk) (follow : Bool) (depth : Nat) (ancestors : List Path)
    (path : Path) (kind : EntryKind) :
    prunedFrom disk follow (fun _ => false) depth ancestors path kind =
      eventsFrom disk follow depth ancestors path kind := by
  induction depth generalizing ancestors path kind with
  | zero => rfl
  | succ depth ih =>
    rw [prunedFrom, eventsFrom]
    simp only [ih, Bool.false_eq_true, if_false]

theorem pruned_none (disk : Disk) (follow : Bool) (root : Path) :
    pruned disk follow (fun _ => false) root = events disk follow root := by
  rw [pruned, events]
  simp only [prunedFrom_none]

/-- The entries that are reported stand at or below the path that is walked through. -/
theorem below_of_mem_prunedFrom {disk : Disk} (hdisk : disk.WellFormed) {follow : Bool}
    {skips : Entry → Bool} {depth : Nat} {ancestors : List Path} {path : Path} {kind : EntryKind}
    {event : Event} (h : event ∈ prunedFrom disk follow skips depth ancestors path kind) :
    event.Below path := by
  induction depth generalizing ancestors path kind with
  | zero =>
    obtain rfl := List.mem_singleton.mp h
    trivial
  | succ depth ih =>
    rw [prunedFrom] at h
    split at h
    · obtain rfl := List.mem_singleton.mp h
      trivial
    split at h
    · obtain rfl := List.mem_singleton.mp h
      trivial
    · obtain rfl := List.mem_singleton.mp h
      exact below_root path
    rcases List.mem_cons.mp h with rfl | later
    · exact below_root path
    split at later
    · simp at later
    split at later
    · obtain rfl := List.mem_singleton.mp later
      trivial
    · next names listed =>
      obtain ⟨item, hitem, hevent⟩ := List.mem_flatMap.mp later
      have hname := hdisk.isName_of_list listed (mem_sortByName.mp hitem)
      exact (ih hevent).of_below ((below_root path).child hname)

theorem below_of_mem_eventsFrom {disk : Disk} (hdisk : disk.WellFormed) {follow : Bool}
    {depth : Nat} {ancestors : List Path} {path : Path} {kind : EntryKind} {event : Event}
    (h : event ∈ eventsFrom disk follow depth ancestors path kind) : event.Below path :=
  below_of_mem_prunedFrom hdisk ((prunedFrom_none ..).symm ▸ h)

/-- The entries among events. -/
def entries (happened : List Event) : List Entry :=
  happened.filterMap fun
    | .entry found => some found
    | .trouble _ => none

/-- The paths of the regular files among events. -/
def files (happened : List Event) : List Path :=
  ((entries happened).filter (·.kind = .file)).map (·.path)

@[simp] theorem entries_nil : entries [] = [] := rfl

@[simp] theorem entries_entry (entry : Entry) (happened : List Event) :
    entries (.entry entry :: happened) = entry :: entries happened := rfl

@[simp] theorem entries_trouble (trouble : Trouble) (happened : List Event) :
    entries (.trouble trouble :: happened) = entries happened := rfl

theorem mem_entries {entry : Entry} {happened : List Event} :
    entry ∈ entries happened ↔ .entry entry ∈ happened := by
  rw [entries, List.mem_filterMap]
  constructor
  · rintro ⟨event, hmem, same⟩
    cases event with
    | entry found => exact Option.some.inj same ▸ hmem
    | trouble trouble => simp at same
  · exact fun hmem => ⟨_, hmem, rfl⟩

theorem mem_files {path : Path} {happened : List Event} :
    path ∈ files happened ↔ .entry ⟨path, .file⟩ ∈ happened := by
  rw [files, List.mem_map, ← mem_entries]
  constructor
  · rintro ⟨⟨place, kind⟩, hmem, rfl⟩
    obtain ⟨inEntries, isFile⟩ := List.mem_filter.mp hmem
    obtain rfl : kind = .file := by simpa using isFile
    exact inEntries
  · exact fun hmem => ⟨_, List.mem_filter.mpr ⟨hmem, by simp⟩, rfl⟩

theorem entries_flatMap {α : Type} (items : List α) (eventsOf : α → List Event) :
    entries (items.flatMap eventsOf) = items.flatMap fun item => entries (eventsOf item) := by
  simp [entries, List.filterMap_flatMap]

theorem ne_child_of_below {path other : Path} {name : String} (hname : Path.IsName name)
    (h : Below (path.child name) other) : other ≠ path := by
  obtain ⟨names, hnames, rfl⟩ := h
  intro same
  have := @Path.descend_injective path (name :: names) []
    (by simp [hname, hnames]) (by simp) same
  simp at this

theorem eq_of_below_child {path other : Path} {name name' : String} (hname : Path.IsName name)
    (hname' : Path.IsName name') (h : Below (path.child name) other)
    (h' : Below (path.child name') other) : name = name' := by
  obtain ⟨names, hnames, rfl⟩ := h
  obtain ⟨names', hnames', same⟩ := h'
  have := @Path.descend_injective path (name :: names) (name' :: names')
    (by simp [hname, hnames]) (by simp [hname', hnames']) same
  exact (List.cons_eq_cons.mp this).1

/-- Both paths are below the root, and the names that lead to the first one come before those that
    lead to the other one. -/
def Precedes (root path other : Path) : Prop :=
  ∃ names names', Path.AreNames names ∧ Path.AreNames names' ∧ path = root.descend names ∧
    other = root.descend names' ∧ names < names'

theorem Precedes.ne {root path other : Path} (h : Precedes root path other) : path ≠ other := by
  obtain ⟨names, names', hnames, hnames', rfl, rfl, before⟩ := h
  intro same
  rw [Path.descend_injective hnames hnames' same] at before
  exact List.lt_irrefl names' before

theorem precedes_descend {root : Path} {names others : List String}
    (hnames : Path.AreNames names) (hothers : Path.AreNames others) :
    Precedes root (root.descend names) (root.descend others) ↔ names < others := by
  constructor
  · intro h
    obtain ⟨names', others', hnames', hothers', same, same', before⟩ := h
    rwa [Path.descend_injective hnames hnames' same, Path.descend_injective hothers hothers' same']
  · intro before
    exact ⟨names, others, hnames, hothers, rfl, rfl, before⟩

theorem Precedes.of_child {root path other : Path} {name : String} (hname : Path.IsName name)
    (h : Precedes (root.child name) path other) : Precedes root path other := by
  obtain ⟨names, names', hnames, hnames', rfl, rfl, before⟩ := h
  refine ⟨name :: names, name :: names', ?_, ?_, rfl, rfl, ?_⟩
  · exact Path.areNames_cons.mpr ⟨hname, hnames⟩
  · exact Path.areNames_cons.mpr ⟨hname, hnames'⟩
  · exact List.cons_lt_cons_iff.mpr (.inr ⟨rfl, before⟩)

/-- A directory comes before what it holds. -/
theorem precedes_of_below_child {root path : Path} {name : String} (hname : Path.IsName name)
    (h : Below (root.child name) path) : Precedes root root path := by
  obtain ⟨names, hnames, rfl⟩ := h
  refine ⟨[], name :: names, Path.areNames_nil, ?_, rfl, rfl, List.nil_lt_cons _ _⟩
  exact Path.areNames_cons.mpr ⟨hname, hnames⟩

/-- What stands below a smaller name comes first. -/
theorem precedes_of_name_lt {root path other : Path} {name name' : String}
    (hname : Path.IsName name) (hname' : Path.IsName name') (hlt : name < name')
    (h : Below (root.child name) path) (h' : Below (root.child name') other) :
    Precedes root path other := by
  obtain ⟨names, hnames, rfl⟩ := h
  obtain ⟨names', hnames', rfl⟩ := h'
  refine ⟨name :: names, name' :: names', ?_, ?_, rfl, rfl, ?_⟩
  · exact Path.areNames_cons.mpr ⟨hname, hnames⟩
  · exact Path.areNames_cons.mpr ⟨hname', hnames'⟩
  · exact List.cons_lt_cons_iff.mpr (.inl hlt)

/-- The entries of a directory are sorted strictly, as no two of them share a name. -/
theorem pairwise_lt_sortByName {items : List (String × EntryKind)}
    (hnodup : (items.map (·.1)).Nodup) : (sortByName items).Pairwise (·.1 < ·.1) := by
  have distinct : (sortByName items).Pairwise (·.1 ≠ ·.1) :=
    List.pairwise_map.mp (((sortByName_perm items).map _).nodup_iff.mpr hnodup)
  refine ((pairwise_sortByName items).and distinct).imp ?_
  intro item other h
  exact Std.lt_of_le_of_ne h.1 h.2

/-- The entries are reported in the order of their names, each of them once. -/
theorem pairwise_prunedFrom {disk : Disk} (hdisk : disk.WellFormed) (follow : Bool)
    (skips : Entry → Bool) (depth : Nat) (ancestors : List Path) (path : Path) (kind : EntryKind) :
    ((entries (prunedFrom disk follow skips depth ancestors path kind)).map (·.path)).Pairwise
      (Precedes path) := by
  induction depth generalizing ancestors path kind with
  | zero => simp [prunedFrom]
  | succ depth ih =>
    rw [prunedFrom]
    split
    · simp
    split
    · simp
    · simp
    rw [entries_entry, List.map_cons]
    split
    · simp
    split
    · simp
    · next names listed =>
      have isName : ∀ item ∈ sortByName names, Path.IsName item.1 := fun item hmem =>
        hdisk.isName_of_list listed (mem_sortByName.mp hmem)
      have below : ∀ item ∈ sortByName names, ∀ other,
          other ∈ (entries (prunedFrom disk follow skips depth (path :: ancestors)
            (path.child item.1) item.2)).map (·.path) → Below (path.child item.1) other := by
        intro item hmem other hother
        obtain ⟨entry, hentry, rfl⟩ := List.mem_map.mp hother
        exact below_of_mem_prunedFrom hdisk (mem_entries.mp hentry)
      rw [entries_flatMap, List.map_flatMap]
      constructor
      · intro other hmem
        obtain ⟨item, hitem, hother⟩ := List.mem_flatMap.mp hmem
        exact precedes_of_below_child (isName item hitem) (below item hitem other hother)
      · refine List.pairwise_flatMap.mpr ⟨?_, ?_⟩
        · intro item hitem
          exact (ih _ _ _).imp (Precedes.of_child (isName item hitem))
        · refine (pairwise_lt_sortByName (hdisk.nodup_of_list listed)).imp_of_mem ?_
          intro item other hitem hother hlt place hplace place' hplace'
          exact precedes_of_name_lt (isName item hitem) (isName other hother) hlt
            (below item hitem place hplace) (below other hother place' hplace')

theorem pairwise_pruned {disk : Disk} (hdisk : disk.WellFormed) (follow : Bool)
    (skips : Entry → Bool) (root : Path) :
    ((entries (pruned disk follow skips root)).map (·.path)).Pairwise (Precedes root) := by
  rw [pruned]
  split
  · simp
  · exact pairwise_prunedFrom hdisk follow skips _ _ _ _

/-- No file is reported twice. -/
theorem nodup_files {disk : Disk} (hdisk : disk.WellFormed) (follow : Bool) (root : Path) :
    (files (events disk follow root)).Nodup := by
  rw [← pruned_none]
  exact ((pairwise_pruned hdisk follow _ root).imp Precedes.ne).sublist (List.filter_sublist.map _)

theorem below_of_mem_pruned {disk : Disk} (hdisk : disk.WellFormed) {follow : Bool}
    {skips : Entry → Bool} {root : Path} {event : Event}
    (h : event ∈ pruned disk follow skips root) : event.Below root := by
  rw [pruned] at h
  split at h
  · obtain rfl := List.mem_singleton.mp h
    trivial
  · exact below_of_mem_prunedFrom hdisk h

theorem below_of_mem_events {disk : Disk} (hdisk : disk.WellFormed) {follow : Bool} {root : Path}
    {event : Event} (h : event ∈ events disk follow root) : event.Below root :=
  below_of_mem_pruned hdisk ((pruned_none ..).symm ▸ h)

theorem sameDirectoryOn_eq_none_iff {disk : Disk} {target : Path} {ancestors : List Path} :
    sameDirectoryOn disk target ancestors = .ok none ↔
      ∀ ancestor ∈ ancestors, ∃ found, disk.identify ancestor = .ok found ∧ found ≠ target := by
  induction ancestors with
  | nil => simp [sameDirectoryOn]
  | cons ancestor ancestors ih =>
    rw [sameDirectoryOn, List.forall_mem_cons, ← ih]
    cases disk.identify ancestor with
    | error e => simp
    | ok found =>
      by_cases same : found = target
      · simp [same]
      · simp [same]

/-- A walk that follows links takes a link for what it leads to. If that is a directory, it must be
    one that can be opened, and none that the link lies in. -/
theorem followLinkOn_eq_ok_iff {disk : Disk} {ancestors : List Path} {link : Path}
    {kind : EntryKind} :
    followLinkOn disk ancestors link = .ok kind ↔
      disk.kind link = .ok kind ∧
        (kind = .directory → ∃ target, disk.identify link = .ok target ∧
          sameDirectoryOn disk target ancestors = .ok none) := by
  constructor
  · intro h
    unfold followLinkOn at h
    split at h
    · cases h
    · next found =>
      split at h
      · cases h
      · next target opened =>
        split at h
        · cases h
        · cases h
        · next apart =>
          cases h
          exact ⟨found, fun _ => ⟨target, opened, apart⟩⟩
    · next other notDirectory found =>
      cases h
      exact ⟨found, fun isDirectory => absurd isDirectory notDirectory⟩
  · intro h
    obtain ⟨found, opens⟩ := h
    unfold followLinkOn
    rw [found]
    cases kind with
    | directory =>
      obtain ⟨target, opened, apart⟩ := opens rfl
      simp only [opened, apart]
    | file | link | special => rfl

/-- A walk that follows links goes into directories, and into nothing else. -/
theorem goesIntoOn_of_resolve {disk : Disk} {ancestors : List Path} {path : Path}
    {kind kind' : EntryKind} (h : resolveKindOn disk true ancestors path kind = .ok kind') :
    goesIntoOn disk ancestors path kind' = .ok (kind' == .directory) := by
  unfold goesIntoOn
  by_cases isDirectory : kind' = .directory
  · simp [isDirectory]
  rw [if_neg isDirectory]
  split
  · next isLink =>
    -- A link that is left as one has been found to lead to no directory.
    obtain ⟨rfl, -⟩ : kind' = .link ∧ ancestors.isEmpty = true := by simpa using isLink
    have found : disk.kind path = .ok .link := by
      unfold resolveKindOn at h
      split at h
      · exact (followLinkOn_eq_ok_iff.mp h).1
      · next notLink =>
        cases h
        simp at notLink
    rw [found]
    rfl
  · simp [isDirectory]

section

variable {disk : Disk} {skips : Entry → Bool}

/-- What a walk that follows links reports of an entry: first the entry, and then, if it is a
    directory that is not skipped, what it holds. -/
theorem prunedFrom_of_resolve {depth : Nat} {ancestors : List Path} {path : Path}
    {kind kind' : EntryKind} (h : resolveKindOn disk true ancestors path kind = .ok kind') :
    prunedFrom disk true skips (depth + 1) ancestors path kind =
      .entry ⟨path, kind'⟩ ::
        if kind' = .directory ∧ skips ⟨path, kind'⟩ = false then
          match disk.list path with
          | .error e => [.trouble (.failed path e)]
          | .ok names =>
            (sortByName names).flatMap fun item =>
              prunedFrom disk true skips depth (path :: ancestors) (path.child item.1) item.2
        else [] := by
  rw [prunedFrom, h]
  simp only [goesIntoOn_of_resolve h]
  by_cases isDirectory : kind' = .directory
  · subst isDirectory
    cases skips ⟨path, .directory⟩ with
    | false => rfl
    | true => rfl
  · have notInto : (kind' == .directory) = false := by simpa using isDirectory
    simp [notInto, isDirectory]

/-- A walk reports what it takes an entry for. -/
theorem mem_prunedFrom_self (hdisk : disk.WellFormed) {depth : Nat} {ancestors : List Path} {path : Path}
    {kind kind' : EntryKind} :
    .entry ⟨path, kind'⟩ ∈ prunedFrom disk true skips (depth + 1) ancestors path kind ↔
      resolveKindOn disk true ancestors path kind = .ok kind' := by
  cases resolve : resolveKindOn disk true ancestors path kind with
  | error trouble => simp [prunedFrom, resolve]
  | ok resolved =>
    have inside : .entry ⟨path, kind'⟩ ∉
        (prunedFrom disk true skips (depth + 1) ancestors path kind).tail := by
      have order := pairwise_prunedFrom hdisk true skips (depth + 1) ancestors path kind
      rw [prunedFrom_of_resolve resolve] at order ⊢
      intro later
      rw [List.tail_cons] at later
      rw [entries_entry, List.map_cons, List.pairwise_cons] at order
      exact (order.1 path (List.mem_map.mpr ⟨_, mem_entries.mpr later, rfl⟩)).ne rfl
    rw [prunedFrom_of_resolve resolve, List.tail_cons] at inside
    rw [prunedFrom_of_resolve resolve, List.mem_cons, or_iff_left inside]
    simp [eq_comm]

/-- A walk reports below a directory what it reports of the entries that the directory lists. -/
theorem mem_prunedFrom_child (hdisk : disk.WellFormed) {depth : Nat} {ancestors : List Path}
    {path : Path}
    {kind kind' : EntryKind} {name : String} {names : List String} (hname : Path.IsName name)
    (hnames : Path.AreNames names) :
    .entry ⟨(path.child name).descend names, kind'⟩ ∈
        prunedFrom disk true skips (depth + 1) ancestors path kind ↔
      resolveKindOn disk true ancestors path kind = .ok .directory ∧
      skips ⟨path, .directory⟩ = false ∧
      ∃ listed inner, disk.list path = .ok listed ∧ (name, inner) ∈ listed ∧
        .entry ⟨(path.child name).descend names, kind'⟩ ∈
          prunedFrom disk true skips depth (path :: ancestors) (path.child name) inner := by
  have below : Below (path.child name) ((path.child name).descend names) := ⟨names, hnames, rfl⟩
  have elsewhere := ne_child_of_below hname below
  cases resolve : resolveKindOn disk true ancestors path kind with
  | error trouble => simp [prunedFrom, resolve]
  | ok resolved =>
    rw [prunedFrom_of_resolve resolve, List.mem_cons]
    constructor
    · intro h
      rcases h with same | later
      · simp [elsewhere] at same
      split at later
      · next into =>
        obtain ⟨rfl, kept⟩ := into
        refine ⟨rfl, kept, ?_⟩
        split at later
        · simp at later
        · next listed found =>
          obtain ⟨item, hitem, later⟩ := List.mem_flatMap.mp later
          rw [mem_sortByName] at hitem
          have hitemName := hdisk.isName_of_list found hitem
          obtain rfl : item.1 = name :=
            eq_of_below_child hitemName hname (below_of_mem_prunedFrom hdisk later) below
          exact ⟨listed, item.2, found, hitem, later⟩
      · simp at later
    · intro h
      obtain ⟨isDirectory, kept, listed, inner, found, hitem, later⟩ := h
      obtain rfl := Except.ok.inj isDirectory
      right
      rw [if_pos ⟨rfl, kept⟩, found]
      exact List.mem_flatMap.mpr ⟨(name, inner), mem_sortByName.mpr hitem, later⟩

/-- What a walk that follows links reports below a path stands in directories that it reports. -/
theorem directory_of_mem_prunedFrom (hdisk : disk.WellFormed) {depth : Nat}
    {ancestors : List Path} {path : Path} {kind kind' : EntryKind} {before after : List String}
    (hnames : Path.AreNames (before ++ after)) (hne : after ≠ [])
    (h : .entry ⟨path.descend (before ++ after), kind'⟩ ∈
      prunedFrom disk true skips depth ancestors path kind) :
    .entry ⟨path.descend before, .directory⟩ ∈
      prunedFrom disk true skips depth ancestors path kind := by
  induction depth generalizing ancestors path kind before with
  | zero => simp [prunedFrom] at h
  | succ depth ih =>
    cases before with
    | nil =>
      obtain ⟨name, after, rfl⟩ := List.exists_cons_of_ne_nil hne
      obtain ⟨hname, hafter⟩ := Path.areNames_cons.mp hnames
      exact (mem_prunedFrom_self hdisk).mpr ((mem_prunedFrom_child hdisk hname hafter).mp h).1
    | cons name before =>
      obtain ⟨hname, hnames⟩ := Path.areNames_cons.mp hnames
      obtain ⟨hbefore, -⟩ := Path.areNames_append.mp hnames
      obtain ⟨resolve, kept, listed, inner, found, inListed, later⟩ :=
        (mem_prunedFrom_child hdisk hname hnames).mp h
      exact (mem_prunedFrom_child hdisk hname hbefore).mpr
        ⟨resolve, kept, listed, inner, found, inListed, ih hnames later⟩

theorem directory_of_mem_events (hdisk : disk.WellFormed) {root : Path} {kind : EntryKind}
    {before after : List String} (hnames : Path.AreNames (before ++ after)) (hne : after ≠ [])
    (h : .entry ⟨root.descend (before ++ after), kind⟩ ∈ events disk true root) :
    .entry ⟨root.descend before, .directory⟩ ∈ events disk true root := by
  rw [← pruned_none, pruned] at h ⊢
  split at h
  · simp at h
  · exact directory_of_mem_prunedFrom hdisk hnames hne h

end

/-- Below a root, both disks look alike to a walk. -/
structure Alike (root : Path) (disk disk' : Disk) : Prop where
  kind : ∀ path, Below root path → disk'.kind path = disk.kind path
  entryKind : ∀ path, Below root path → disk'.entryKind path = disk.entryKind path
  identify : ∀ path, Below root path → disk'.identify path = disk.identify path
  list : ∀ path, Below root path →
    (disk'.list path).map sortByName = (disk.list path).map sortByName

theorem Alike.refl (root : Path) (disk : Disk) : Alike root disk disk :=
  ⟨fun _ _ => rfl, fun _ _ => rfl, fun _ _ => rfl, fun _ _ => rfl⟩

/-- A walk with these events asks about the path: it is that of the root, or of something that is
    listed in an entry which is reported. -/
inductive Consulted (disk : Disk) (root : Path) (happened : List Event) : Path → Prop where
  | root : Consulted disk root happened root
  | child {entry : Entry} {listed : List (String × EntryKind)} {item : String × EntryKind} :
      .entry entry ∈ happened → disk.list entry.path = .ok listed → item ∈ listed →
      Consulted disk root happened (entry.path.child item.1)

/-- Both disks look alike to a walk with these events. -/
structure AlikeAlong (root : Path) (happened : List Event) (disk disk' : Disk) : Prop where
  kind : ∀ path, Consulted disk root happened path → disk'.kind path = disk.kind path
  entryKind : disk'.entryKind root = disk.entryKind root
  identify : ∀ path, Consulted disk root happened path → disk'.identify path = disk.identify path
  list : ∀ entry, .entry entry ∈ happened →
    (disk'.list entry.path).map sortByName = (disk.list entry.path).map sortByName

theorem Consulted.below {disk : Disk} (hdisk : disk.WellFormed) {root path : Path}
    {happened : List Event} (hevents : ∀ event ∈ happened, event.Below root)
    (h : Consulted disk root happened path) : Below root path := by
  cases h with
  | root => exact below_root root
  | child reported listed hmem =>
    exact Below.child (hevents _ reported) (hdisk.isName_of_list listed hmem)

theorem Alike.along {disk disk' : Disk} {root : Path} (h : Alike root disk disk')
    (hdisk : disk.WellFormed) {happened : List Event}
    (hevents : ∀ event ∈ happened, event.Below root) : AlikeAlong root happened disk disk' where
  kind path consulted := h.kind path (consulted.below hdisk hevents)
  entryKind := h.entryKind root (below_root root)
  identify path consulted := h.identify path (consulted.below hdisk hevents)
  list entry reported := h.list entry.path (hevents _ reported)

end Walk

namespace Session

open Walk

variable {σ τ : Type} {root : Path} {disk : Disk} {happened : List Event}

theorem exec_sameDirectory (target : Path) (ancestors : List Path) {state : State σ}
    (halike : AlikeAlong root happened disk state.disk)
    (hancestors : ∀ path ∈ ancestors, Consulted disk root happened path) :
    exec (sameDirectory target ancestors) state =
      (sameDirectoryOn disk target ancestors, state) := by
  induction ancestors with
  | nil => rfl
  | cons ancestor ancestors ih =>
    have ih := ih fun path hmem => hancestors path (List.mem_cons_of_mem _ hmem)
    rw [sameDirectory, exec_bind, exec_identify, sameDirectoryOn,
      halike.identify ancestor (hancestors ancestor List.mem_cons_self)]
    cases disk.identify ancestor with
    | error e => rfl
    | ok found =>
      simp only
      split
      · rfl
      · exact ih

theorem exec_followLink {ancestors : List Path} {link : Path} {state : State σ}
    (halike : AlikeAlong root happened disk state.disk)
    (hancestors : ∀ path ∈ ancestors, Consulted disk root happened path)
    (hlink : Consulted disk root happened link) :
    exec (followLink ancestors link) state = (followLinkOn disk ancestors link, state) := by
  rw [followLink, exec_bind, exec_kind, followLinkOn, halike.kind link hlink]
  cases disk.kind link with
  | error e => rfl
  | ok kind =>
    cases kind with
    | file | link | special => rfl
    | directory =>
      simp only
      rw [exec_bind, exec_identify, halike.identify link hlink]
      cases disk.identify link with
      | error e => rfl
      | ok target =>
        simp only
        rw [exec_bind, exec_sameDirectory target ancestors halike hancestors]
        cases sameDirectoryOn disk target ancestors with
        | error e => rfl
        | ok ancestor => cases ancestor <;> rfl

theorem exec_resolveKind {follow : Bool} {ancestors : List Path} {path : Path} {kind : EntryKind}
    {state : State σ} (halike : AlikeAlong root happened disk state.disk)
    (hancestors : ∀ path ∈ ancestors, Consulted disk root happened path)
    (hpath : Consulted disk root happened path) :
    exec (resolveKind follow ancestors path kind) state =
      (resolveKindOn disk follow ancestors path kind, state) := by
  rw [resolveKind, resolveKindOn]
  split
  · exact exec_followLink halike hancestors hpath
  · rfl

theorem exec_goesInto {ancestors : List Path} {path : Path} {kind : EntryKind} {state : State σ}
    (halike : AlikeAlong root happened disk state.disk) (hpath : Consulted disk root happened path) :
    exec (goesInto ancestors path kind) state = (goesIntoOn disk ancestors path kind, state) := by
  rw [goesInto, goesIntoOn]
  split
  · rfl
  · split
    · rw [exec_bind, exec_kind, halike.kind path hpath]
      rfl
    · rfl

/-- Hands events to a visitor one after the other. -/
def relay (visit : τ → Event → Session σ (τ × Flow)) : List Event → τ → Session σ τ
  | [], kept => pure kept
  | event :: rest, kept => do
    let (kept, _) ← visit kept event
    relay visit rest kept

theorem exec_relay_cons (visit : τ → Event → Session σ (τ × Flow)) (event : Event)
    (rest : List Event) (kept : τ) (state : State σ) :
    exec (relay visit (event :: rest) kept) state =
      exec (relay visit rest (exec (visit kept event) state).1.1)
        (exec (visit kept event) state).2 := rfl

theorem exec_relay_append (visit : τ → Event → Session σ (τ × Flow)) (before after : List Event)
    (kept : τ) (state : State σ) :
    exec (relay visit (before ++ after) kept) state =
      exec (relay visit after (exec (relay visit before kept) state).1)
        (exec (relay visit before kept) state).2 := by
  induction before generalizing kept state with
  | nil => rfl
  | cons event before ih => rw [List.cons_append, exec_relay_cons, ih, exec_relay_cons]

/-- The progress of a walk that goes on. -/
def goingOn (reached : τ × State σ) : Progress τ × State σ :=
  (⟨reached.1, true⟩, reached.2)

section

/- What a visitor can rely on may depend on what has happened before, and need only be kept by the
   events that the walk does report. -/
variable {visit : τ → Event → Session σ (τ × Flow)} {good : List Event → τ → State σ → Prop}
  {skips : Entry → Bool}
  (hgood : ∀ before kept state, good before kept state →
    AlikeAlong root happened disk state.disk)
  (hvisit : ∀ before event after kept state, happened = before ++ event :: after →
    good before kept state →
      good (before ++ [event]) (exec (visit kept event) state).1.1
        (exec (visit kept event) state).2 ∧
      (exec (visit kept event) state).1.2 = event.flow skips)
include hvisit

theorem good_relay_along {before during after : List Event}
    (hsplit : happened = before ++ during ++ after) (kept : τ) {state : State σ}
    (hstate : good before kept state) :
    good (before ++ during) (exec (relay visit during kept) state).1
      (exec (relay visit during kept) state).2 := by
  induction during generalizing before kept state with
  | nil =>
    rw [List.append_nil]
    exact hstate
  | cons event during ih =>
    have next := (hvisit before event (during ++ after) kept state (by simp [hsplit]) hstate).1
    rw [exec_relay_cons, List.append_cons]
    exact ih (by simp [hsplit]) _ next

theorem exec_report {before after : List Event} {event : Event}
    (hsplit : happened = before ++ [event] ++ after) (kept : τ) {state : State σ}
    (hstate : good before kept state) :
    exec (report visit event kept) state = goingOn (exec (relay visit [event] kept) state) := by
  have flow := (hvisit before event after kept state (by simp [hsplit]) hstate).2
  have going : (event.flow skips != .stop) = true := by simpa using event.flow_ne_stop skips
  rw [report, exec_bind]
  simp only [exec_pure, flow, going]
  rfl

theorem exec_inTurn {α : Type} {visitItem : τ → α → Session σ (Progress τ)}
    {eventsOf : α → List Event} {items : List α}
    (hitem : ∀ item ∈ items, ∀ before after kept state,
      happened = before ++ eventsOf item ++ after → good before kept state →
        exec (visitItem kept item) state = goingOn (exec (relay visit (eventsOf item) kept) state))
    {before after : List Event} (hsplit : happened = before ++ items.flatMap eventsOf ++ after)
    (kept : τ) {state : State σ} (hstate : good before kept state) :
    exec (inTurn visitItem items kept) state =
      goingOn (exec (relay visit (items.flatMap eventsOf) kept) state) := by
  induction items generalizing before kept state with
  | nil => rfl
  | cons item items ih =>
    rw [List.flatMap_cons] at hsplit
    have here : happened = before ++ eventsOf item ++ (items.flatMap eventsOf ++ after) := by
      simp [hsplit]
    have first := hitem item List.mem_cons_self before _ kept state here hstate
    have later := good_relay_along hvisit here kept hstate
    have rest := ih (fun other hmem => hitem other (List.mem_cons_of_mem _ hmem))
      (by simp [hsplit]) (exec (relay visit (eventsOf item) kept) state).1 later
    rw [inTurn, exec_bind, first, List.flatMap_cons, exec_relay_append, ← rest]
    rfl

include hgood in
/-- A walk hands the events of the disk to its visitor. -/
theorem exec_walkEntry (follow : Bool) (depth : Nat) {ancestors : List Path}
    (hancestors : ∀ path ∈ ancestors, Consulted disk root happened path) {path : Path}
    (hpath : Consulted disk root happened path) (kind : EntryKind) {before after : List Event}
    (hsplit : happened =
      before ++ prunedFrom disk follow skips depth ancestors path kind ++ after)
    (kept : τ) {state : State σ} (hstate : good before kept state) :
    exec (walkEntry follow visit depth ancestors path kind kept) state =
      goingOn (exec (relay visit (prunedFrom disk follow skips depth ancestors path kind) kept)
        state) := by
  induction depth generalizing ancestors path kind before after kept state with
  | zero => exact exec_report hvisit hsplit kept hstate
  | succ depth ih =>
    have alike := hgood before kept state hstate
    rw [prunedFrom] at hsplit
    rw [walkEntry, exec_bind, exec_resolveKind alike hancestors hpath, prunedFrom]
    cases resolve : resolveKindOn disk follow ancestors path kind with
    | error trouble =>
      rw [resolve] at hsplit
      exact exec_report hvisit hsplit kept hstate
    | ok kind =>
      rw [resolve] at hsplit
      simp only at hsplit ⊢
      rw [exec_bind, exec_goesInto alike hpath]
      cases into : goesIntoOn disk ancestors path kind with
      | error e =>
        rw [into] at hsplit
        exact exec_report hvisit hsplit kept hstate
      | ok inside =>
        rw [into] at hsplit
        cases inside with
        | false => exact exec_report hvisit hsplit kept hstate
        | true =>
          have reported : .entry ⟨path, kind⟩ ∈ happened := by simp [hsplit]
          obtain ⟨good', flow⟩ := hvisit before _ _ kept state
            (by rw [hsplit, List.append_assoc, List.cons_append]) hstate
          simp only at hsplit ⊢
          rw [exec_bind, exec_list, exec_bind, exec_relay_cons]
          generalize exec (visit kept (.entry ⟨path, kind⟩)) state = visited at flow good' ⊢
          obtain ⟨⟨kept', flow'⟩, state'⟩ := visited
          obtain rfl : flow' = Event.flow skips (.entry ⟨path, kind⟩) := flow
          by_cases skipped : skips ⟨path, kind⟩ = true
          · simp only [Event.flow, if_pos skipped]
            rfl
          simp only [Event.flow, if_neg skipped]
          rw [if_neg skipped] at hsplit
          have listed := alike.list ⟨path, kind⟩ reported
          simp only at listed
          cases found : disk.list path with
          | error e =>
            rw [found] at listed hsplit
            cases found' : state.disk.list path with
            | error e' =>
              obtain rfl : e' = e := by simpa [found', Except.map] using listed
              have rest : happened = before ++ [.entry ⟨path, kind⟩] ++
                  [.trouble (.failed path e')] ++ after := by simp [hsplit]
              exact exec_report hvisit rest kept' good'
            | ok names => simp [found', Except.map] at listed
          | ok names =>
            rw [found] at listed hsplit
            cases found' : state.disk.list path with
            | error e => simp [found', Except.map] at listed
            | ok names' =>
              have same : sortByName names' = sortByName names := by
                simpa [found', Except.map] using listed
              have rest : happened = before ++ [.entry ⟨path, kind⟩] ++
                  ((sortByName names).flatMap fun item =>
                    prunedFrom disk follow skips depth (path :: ancestors) (path.child item.1)
                      item.2) ++ after := by simp [hsplit]
              simp only
              rw [same]
              refine exec_inTurn hvisit (fun item hmem before after kept state hsplit hstate => ?_)
                rest kept' good'
              exact ih (by simpa using ⟨hpath, hancestors⟩)
                (.child reported found (mem_sortByName.mp hmem)) item.2 hsplit kept hstate

end

theorem exec_walk_along {visit : τ → Event → Session σ (τ × Flow)}
    {good : List Event → τ → State σ → Prop} {skips : Entry → Bool} {follow : Bool}
    (hgood : ∀ before kept state, good before kept state →
      AlikeAlong root (pruned disk follow skips root) disk state.disk)
    (hvisit : ∀ before event after kept state,
      pruned disk follow skips root = before ++ event :: after → good before kept state →
        good (before ++ [event]) (exec (visit kept event) state).1.1
          (exec (visit kept event) state).2 ∧
        (exec (visit kept event) state).1.2 = event.flow skips)
    (kept : τ) {state : State σ} (hstate : good [] kept state) :
    exec (walk follow root visit kept) state =
      goingOn (exec (relay visit (pruned disk follow skips root) kept) state) := by
  have alike := hgood [] kept state hstate
  generalize hhappened : pruned disk follow skips root = happened at hgood hvisit alike ⊢
  rw [walk, exec_bind, exec_entryKind, alike.entryKind, ← hhappened, pruned]
  rw [pruned] at hhappened
  cases found : disk.entryKind root with
  | error e =>
    have all : happened = [] ++ [.trouble (.failed root e)] ++ [] := by simp [← hhappened, found]
    exact exec_report hvisit all kept hstate
  | ok kind =>
    have all : happened = [] ++ prunedFrom disk follow skips depthLimit [] root kind ++ [] := by
      simp [← hhappened, found]
    exact exec_walkEntry hgood hvisit follow depthLimit (by simp) .root kind all kept hstate

section

variable {visit : τ → Event → Session σ (τ × Flow)} {good : State σ → Prop}

theorem good_relay
    (hvisit : ∀ kept event state, good state → event.Below root →
      good (exec (visit kept event) state).2)
    {happened : List Event} (hevents : ∀ event ∈ happened, event.Below root) (kept : τ)
    {state : State σ} (hstate : good state) :
    good (exec (relay visit happened kept) state).2 := by
  induction happened generalizing kept state with
  | nil => exact hstate
  | cons event happened ih =>
    rw [exec_relay_cons]
    exact ih (fun other hmem => hevents other (List.mem_cons_of_mem _ hmem)) _
      (hvisit kept event state hstate (hevents event List.mem_cons_self))

theorem exec_walk_pruned {skips : Entry → Bool} (hdisk : disk.WellFormed)
    (hgood : ∀ state, good state → Alike root disk state.disk)
    (hvisit : ∀ kept event state, good state → event.Below root →
      good (exec (visit kept event) state).2 ∧
        (exec (visit kept event) state).1.2 = event.flow skips)
    (follow : Bool) (kept : τ) {state : State σ} (hstate : good state) :
    exec (walk follow root visit kept) state =
      goingOn (exec (relay visit (pruned disk follow skips root) kept) state) := by
  have hevents : ∀ event ∈ pruned disk follow skips root, event.Below root := fun event hmem =>
    below_of_mem_pruned hdisk hmem
  let goodAlong (_ : List Event) (_ : τ) (state : State σ) : Prop := good state
  have alike : ∀ before kept state, goodAlong before kept state →
      AlikeAlong root (pruned disk follow skips root) disk state.disk :=
    fun _ _ state hstate => (hgood state hstate).along hdisk hevents
  refine exec_walk_along alike ?_ kept hstate
  intro before event after kept state hsplit hstate
  exact hvisit kept event state hstate (hevents event (by simp [hsplit]))

end

/-- A walk whose visitor always goes on hands it all events of the disk. -/
theorem exec_walk {visit : τ → Event → Session σ (τ × Flow)} {good : State σ → Prop}
    (hdisk : disk.WellFormed) (hgood : ∀ state, good state → Alike root disk state.disk)
    (hvisit : ∀ kept event state, good state → event.Below root →
      good (exec (visit kept event) state).2 ∧ (exec (visit kept event) state).1.2 = .enter)
    (follow : Bool) (kept : τ) {state : State σ} (hstate : good state) :
    exec (walk follow root visit kept) state =
      goingOn (exec (relay visit (events disk follow root) kept) state) := by
  rw [← pruned_none]
  refine exec_walk_pruned hdisk hgood (fun kept event state hstate hevent => ?_) follow kept hstate
  rw [event.flow_none]
  exact hvisit kept event state hstate hevent

end Session

end Phrasebook
