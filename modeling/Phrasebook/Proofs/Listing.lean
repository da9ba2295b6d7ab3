import Phrasebook.Proofs.Disk.Onward
import Phrasebook.Proofs.Reached

/-!
# What a walk lists

A walk that leaves links alone stays on the tree of the directory that its root leads to. Main
statement: below the root it reports what stands there under names whose directories can all be
listed, each as what it is.
-/

namespace Phrasebook

namespace Disk

/-- In a file system names lead to what is there and no link, or to nothing. -/
theorem WellFormed.linkFree_of_get? {disk : Disk} (hdisk : disk.WellFormed) {place above : Location}
    {node : Node} (found : disk.get? place = some node) (hlink : ¬ node.IsLink) :
    disk.LinkFree above place := by
  intro location _ below other there isLink
  rcases hdisk.get?_of_suffix found below with rfl | ⟨access, directory⟩
  · obtain rfl := Option.some.inj (found.symm.trans there)
    exact hlink isLink
  · obtain rfl := Option.some.inj (directory.symm.trans there)
    simp at isLink

theorem suffix_reverse_append (names more : List String) (top : Location) :
    names.reverse ++ top <:+ (names ++ more).reverse ++ top := by
  rw [List.reverse_append, List.append_assoc]
  exact List.suffix_append _ _

/-- What has more names stands in directories. -/
theorem WellFormed.holds_of_append {disk : Disk} (hdisk : disk.WellFormed)
    {names more : List String} {top : Location} {node : Node}
    (found : disk.get? ((names ++ more).reverse ++ top) = some node) (hne : more ≠ []) :
    disk.Holds (names.reverse ++ top) := by
  rcases hdisk.get?_of_suffix found (suffix_reverse_append names more top) with same | directory
  · have lengths := congrArg List.length same
    have := List.length_pos_iff.mpr hne
    simp only [List.length_append, List.length_reverse] at lengths
    omega
  · exact directory

end Disk

namespace Walk

/-- Something of the kind stands at the place. -/
def Stands (disk : Disk) (place : Location) (kind : EntryKind) : Prop :=
  ∃ node, disk.get? place = some node ∧ node.kind = kind

/-- Following the names from a path, every directory can be listed in which a name is looked up. -/
def OpenAlong (disk : Disk) (path : Path) (names : List String) : Prop :=
  ∀ before after, names = before ++ after → after ≠ [] →
    ∃ items, disk.list (path.descend before) = .ok items

@[simp] theorem openAlong_nil (disk : Disk) (path : Path) : OpenAlong disk path [] := by
  intro before after hsplit hafter
  exact absurd (List.append_eq_nil_iff.mp hsplit.symm).2 hafter

theorem openAlong_cons {disk : Disk} {path : Path} {name : String} {names : List String} :
    OpenAlong disk path (name :: names) ↔
      (∃ items, disk.list path = .ok items) ∧ OpenAlong disk (path.child name) names := by
  constructor
  · intro h
    refine ⟨h [] (name :: names) rfl (by simp), fun before after hsplit hafter => ?_⟩
    exact h (name :: before) after (by rw [hsplit]; rfl) hafter
  · intro h before after hsplit hafter
    cases before with
    | nil => exact h.1
    | cons first before =>
      obtain ⟨rfl, inNames⟩ := List.cons_eq_cons.mp hsplit
      exact h.2 before after inNames hafter

/-- What a walk that leaves links alone reports below a directory. -/
def inside (disk : Disk) (depth : Nat) (ancestors : List Path) (path : Path) : List Event :=
  match disk.list path with
  | .error e => [.trouble (.failed path e)]
  | .ok items =>
    (sortByName items).flatMap fun item =>
      eventsFrom disk false depth (path :: ancestors) (path.child item.1) item.2

variable {disk : Disk}

/-- Below its root a walk that leaves links alone goes into directories only. -/
theorem eventsFrom_inside {depth : Nat} {ancestors : List Path} (hne : ancestors ≠ [])
    {path : Path} {kind : EntryKind} (hkind : kind ≠ .directory) :
    eventsFrom disk false (depth + 1) ancestors path kind = [.entry ⟨path, kind⟩] := by
  have resolve : resolveKindOn disk false ancestors path kind = .ok kind := rfl
  have stays : goesIntoOn disk ancestors path kind = .ok false := by
    simp [goesIntoOn, hkind, hne]
  rw [eventsFrom, resolve]
  simp only [stays]

theorem eventsFrom_directory (disk : Disk) (depth : Nat) (ancestors : List Path) (path : Path) :
    eventsFrom disk false (depth + 1) ancestors path .directory =
      .entry ⟨path, .directory⟩ :: inside disk depth ancestors path := rfl

/-- Of a root that leads to a directory a walk reports what is there, and what is below. -/
theorem exists_events_eq {root : Path} (hkind : disk.kind root = .ok .directory) :
    ∃ kind, (kind = .directory ∨ kind = .link) ∧ events disk false root =
      .entry ⟨root, kind⟩ :: inside disk (depthLimit - 1) [] root := by
  obtain ⟨kind, entry, isRoot⟩ : ∃ kind, disk.entryKind root = .ok kind ∧
      (kind = .directory ∨ kind = .link) := by
    rcases Disk.entryKind_of_kind hkind with direct | link
    · exact ⟨_, direct, .inl rfl⟩
    · exact ⟨_, link, .inr rfl⟩
  have goesInto : goesIntoOn disk [] root kind = .ok true := by
    rcases isRoot with rfl | rfl
    · rfl
    · simp [goesIntoOn, hkind, Except.map]
  have resolve : resolveKindOn disk false [] root kind = .ok kind := rfl
  have deep : depthLimit = (depthLimit - 1) + 1 := rfl
  refine ⟨kind, isRoot, ?_⟩
  rw [events, entry]
  simp only
  rw [deep, eventsFrom, resolve]
  simp only [goesInto]
  rfl

variable (hdisk : disk.WellFormed)
include hdisk

/-- Below a directory a walk reports what it reports of the entries that the directory lists. -/
theorem mem_inside {depth : Nat} {ancestors : List Path} {path : Path} {kind : EntryKind}
    {name : String} {names : List String} (hname : Path.IsName name) (hnames : Path.AreNames names) :
    .entry ⟨path.descend (name :: names), kind⟩ ∈ inside disk depth ancestors path ↔
      ∃ items inner, disk.list path = .ok items ∧ (name, inner) ∈ items ∧
        .entry ⟨path.descend (name :: names), kind⟩ ∈
          eventsFrom disk false depth (path :: ancestors) (path.child name) inner := by
  rw [inside]
  cases hlist : disk.list path with
  | error e => simp
  | ok items =>
    constructor
    · intro h
      obtain ⟨item, hitem, reported⟩ := List.mem_flatMap.mp h
      rw [mem_sortByName] at hitem
      obtain rfl : item.1 = name :=
        eq_of_below_child (hdisk.isName_of_list hlist hitem) hname
          (below_of_mem_eventsFrom hdisk reported) ⟨names, hnames, rfl⟩
      exact ⟨items, item.2, rfl, hitem, reported⟩
    · intro h
      obtain ⟨_, inner, same, hitem, reported⟩ := h
      obtain rfl := Except.ok.inj same
      exact List.mem_flatMap.mpr ⟨(name, inner), mem_sortByName.mpr hitem, reported⟩

/-- What a walk reports below a directory is not the directory itself. -/
theorem not_mem_inside {depth : Nat} {ancestors : List Path} {path : Path} {kind : EntryKind} :
    .entry ⟨path, kind⟩ ∉ inside disk depth ancestors path := by
  rw [inside]
  cases hlist : disk.list path with
  | error e => simp
  | ok items =>
    intro h
    obtain ⟨item, hitem, reported⟩ := List.mem_flatMap.mp h
    have hname := hdisk.isName_of_list hlist (mem_sortByName.mp hitem)
    exact ne_child_of_below hname (below_of_mem_eventsFrom hdisk reported) rfl

section

variable {root : Path} {top : Location} (hroot : disk.Opens root top)
include hroot

/-- A directory of the tree that can be listed is the one that its names say. -/
theorem names_of_list {names : List String} (hnames : Path.AreNames names)
    (hholds : disk.Holds (names.reverse ++ top)) {items : List (String × EntryKind)}
    (hlist : disk.list (root.descend names) = .ok items) :
    items = disk.names (names.reverse ++ top) := by
  obtain ⟨place, access, leads, rfl⟩ := Disk.list_eq_ok hlist
  by_cases here : names = []
  · subst here
    rw [(Disk.opens_of_find leads).unique hroot, List.reverse_nil, List.nil_append]
  · obtain ⟨access', found⟩ := hholds
    have free : disk.LinkFree top (names.reverse ++ top) :=
      hdisk.linkFree_of_get? found (by simp)
    have same : place = names.reverse ++ top :=
      hroot.place_eq hnames here free (Disk.find_eq_ok_iff.mp leads)
    rw [same]

/-- What a directory of the tree lists stands in it. -/
theorem mem_items_iff {names : List String} (hnames : Path.AreNames names)
    (hholds : disk.Holds (names.reverse ++ top)) {items : List (String × EntryKind)}
    (hlist : disk.list (root.descend names) = .ok items) {name : String} {kind : EntryKind} :
    (name, kind) ∈ items ↔ Stands disk ((names ++ [name]).reverse ++ top) kind := by
  rw [names_of_list hdisk hroot hnames hholds hlist, hdisk.mem_names]
  simp [Stands]

/-- What a walk reports below a directory of the tree, if it is known what it reports at and below
    an entry of the directory. -/
theorem mem_inside_iff {depth : Nat} {ancestors : List Path} {names more : List String}
    {name : String} (hnames : Path.AreNames names) (hholds : disk.Holds (names.reverse ++ top))
    (hname : Path.IsName name) (hmore : Path.AreNames more) {kind : EntryKind}
    (hentry : ∀ node, disk.get? ((names ++ [name]).reverse ++ top) = some node →
      (.entry ⟨root.descend (names ++ name :: more), kind⟩ ∈
          eventsFrom disk false depth (root.descend names :: ancestors)
            (root.descend (names ++ [name])) node.kind ↔
        Stands disk ((names ++ name :: more).reverse ++ top) kind ∧
          OpenAlong disk (root.descend (names ++ [name])) more ∧ more.length < depth)) :
    .entry ⟨root.descend (names ++ name :: more), kind⟩ ∈
        inside disk depth ancestors (root.descend names) ↔
      Stands disk ((names ++ name :: more).reverse ++ top) kind ∧
        OpenAlong disk (root.descend names) (name :: more) ∧ more.length < depth := by
  have child : (root.descend names).child name = root.descend (names ++ [name]) := by
    rw [Path.descend_append]
    rfl
  rw [openAlong_cons, Path.descend_append, mem_inside hdisk hname hmore, ← Path.descend_append,
    child]
  constructor
  · intro h
    obtain ⟨items, inner, hlist, hitem, reported⟩ := h
    obtain ⟨node, there, rfl⟩ := (mem_items_iff hdisk hroot hnames hholds hlist).mp hitem
    obtain ⟨stands, opened, short⟩ := (hentry node there).mp reported
    exact ⟨stands, ⟨⟨items, hlist⟩, opened⟩, short⟩
  · intro h
    obtain ⟨⟨node, found, same⟩, ⟨⟨items, hlist⟩, opened⟩, short⟩ := h
    obtain ⟨first, there⟩ : ∃ first,
        disk.get? ((names ++ [name]).reverse ++ top) = some first := by
      by_cases last : more = []
      · subst last
        exact ⟨node, found⟩
      · rw [List.append_cons] at found
        obtain ⟨access, holds⟩ := hdisk.holds_of_append found last
        exact ⟨_, holds⟩
    refine ⟨items, first.kind, hlist, ?_,
      (hentry first there).mpr ⟨⟨node, found, same⟩, opened, short⟩⟩
    exact (mem_items_iff hdisk hroot hnames hholds hlist).mpr ⟨first, there, rfl⟩

/-- What a walk reports at and below an entry of the tree. -/
theorem mem_eventsFrom_iff {depth : Nat} {ancestors : List Path} (hancestors : ancestors ≠ [])
    {names more : List String} (hnames : Path.AreNames names) (hmore : Path.AreNames more)
    {node : Node} (found : disk.get? (names.reverse ++ top) = some node) {kind : EntryKind} :
    .entry ⟨root.descend (names ++ more), kind⟩ ∈
        eventsFrom disk false depth ancestors (root.descend names) node.kind ↔
      Stands disk ((names ++ more).reverse ++ top) kind ∧
        OpenAlong disk (root.descend names) more ∧ more.length < depth := by
  induction depth generalizing more ancestors names node with
  | zero => simp [eventsFrom]
  | succ depth ih =>
    cases more with
    | nil =>
      have reported : .entry ⟨root.descend names, kind⟩ ∈
          eventsFrom disk false (depth + 1) ancestors (root.descend names) node.kind ↔
            kind = node.kind := by
        by_cases directory : node.kind = .directory
        · rw [directory, eventsFrom_directory, List.mem_cons, or_iff_left (not_mem_inside hdisk)]
          simp
        · rw [eventsFrom_inside hancestors directory]
          simp
      rw [List.append_nil, reported]
      simp [Stands, found, eq_comm]
    | cons name more =>
      obtain ⟨hname, hmore⟩ := Path.areNames_cons.mp hmore
      have elsewhere : root.descend (names ++ name :: more) ≠ root.descend names := by
        rw [Path.descend_append]
        exact ne_child_of_below hname ⟨more, hmore, rfl⟩
      rw [List.length_cons, Nat.add_lt_add_iff_right]
      by_cases directory : node.IsDirectory
      · obtain ⟨access, rfl⟩ := directory
        rw [Node.kind, eventsFrom_directory, List.mem_cons, or_iff_right (by simp [elsewhere])]
        apply mem_inside_iff hdisk hroot hnames ⟨access, found⟩ hname hmore
        intro first there
        rw [List.append_cons names name more]
        exact ih (List.cons_ne_nil _ _) (by simp [hnames, hname]) hmore there
      · have notKind : node.kind ≠ .directory := by simpa using directory
        rw [eventsFrom_inside hancestors notKind, List.mem_singleton]
        refine iff_of_false (by simp [elsewhere]) fun h => ?_
        obtain ⟨⟨node', found', -⟩, -⟩ := h
        -- Nothing stands below what is no directory.
        obtain ⟨access, there⟩ := hdisk.holds_of_append found' (List.cons_ne_nil name more)
        obtain rfl := Option.some.inj (found.symm.trans there)
        simp at directory

omit hdisk hroot in
/-- Where all directories can be listed, a walk is deep enough. -/
theorem OpenAlong.length_lt (hkind : disk.kind root = .ok .directory) {name : String}
    {names : List String} (hnames : Path.AreNames (name :: names))
    (h : OpenAlong disk root (name :: names)) : names.length < depthLimit - 1 := by
  rcases List.eq_nil_or_concat' names with rfl | ⟨init, last, rfl⟩
  · decide
  · obtain ⟨items, hlist⟩ := h (name :: init) [last] rfl (by simp)
    rw [← List.cons_append, Path.areNames_append] at hnames
    have short := length_lt_depthLimit hnames.1 hkind hlist
    simp only [List.length_cons, List.length_append, List.length_nil] at short ⊢
    omega

/-- Below a root that leads to a directory, a walk that leaves links alone reports what stands there
    under names whose directories can all be listed. -/
theorem mem_events_iff (hkind : disk.kind root = .ok .directory) {names : List String}
    (hnames : Path.AreNames names) (hne : names ≠ []) {kind : EntryKind} :
    .entry ⟨root.descend names, kind⟩ ∈ events disk false root ↔
      Stands disk (names.reverse ++ top) kind ∧ OpenAlong disk root names := by
  obtain ⟨name, more, rfl⟩ := List.exists_cons_of_ne_nil hne
  obtain ⟨hname, hmore⟩ := Path.areNames_cons.mp hnames
  have elsewhere : root.descend (name :: more) ≠ root :=
    ne_child_of_below hname ⟨more, hmore, rfl⟩
  obtain ⟨rootKind, -, start⟩ := exists_events_eq hkind
  have below : .entry ⟨root.descend (name :: more), kind⟩ ∈ inside disk (depthLimit - 1) [] root ↔
      Stands disk ((name :: more).reverse ++ top) kind ∧
        OpenAlong disk root (name :: more) ∧ more.length < depthLimit - 1 :=
    mem_inside_iff hdisk hroot Path.areNames_nil hroot.holds hname hmore fun first there =>
      mem_eventsFrom_iff hdisk hroot (List.cons_ne_nil _ _) (by simp [hname]) hmore there
  have notRoot : Event.entry ⟨root.descend (name :: more), kind⟩ ≠ .entry ⟨root, rootKind⟩ := by
    intro same
    exact elsewhere (Entry.mk.inj (Event.entry.inj same)).1
  rw [start, List.mem_cons, or_iff_right notRoot, below]
  exact and_congr_right fun _ => and_iff_left_of_imp fun opened => opened.length_lt hkind hnames

/-- The files that a walk lists below a directory are the regular files there whose directories can
    all be listed. -/
theorem mem_files_iff (hkind : disk.kind root = .ok .directory) {path : Path} :
    path ∈ files (events disk false root) ↔
      ∃ names, Path.AreNames names ∧ names ≠ [] ∧ path = root.descend names ∧
        Stands disk (names.reverse ++ top) .file ∧ OpenAlong disk root names := by
  rw [mem_files]
  constructor
  · intro reported
    obtain ⟨names, hnames, rfl⟩ := below_of_mem_events hdisk reported
    have hne : names ≠ [] := by
      rintro rfl
      obtain ⟨kind, isRoot, start⟩ := exists_events_eq hkind
      rw [Path.descend_nil, start, List.mem_cons, or_iff_left (not_mem_inside hdisk)] at reported
      obtain rfl := (Entry.mk.inj (Event.entry.inj reported)).2
      simp at isRoot
    exact ⟨names, hnames, hne, rfl, (mem_events_iff hdisk hroot hkind hnames hne).mp reported⟩
  · intro h
    obtain ⟨names, hnames, hne, rfl, listed⟩ := h
    exact (mem_events_iff hdisk hroot hkind hnames hne).mpr listed

end

end Walk

end Phrasebook
