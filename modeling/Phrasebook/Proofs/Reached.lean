import Phrasebook.Proofs.Disk.Leads
import Phrasebook.Proofs.Walk

/-!
# What a walk reaches

A walk that follows links goes from a directory to what it lists, and through a link to what the link
leads to, unless that is a directory which the link lies in. Main statement: the entries that a walk
reports below its root are those which can be reached so without going into what is skipped.
-/

namespace Phrasebook

namespace Path

theorem size_child {path : Path} {name : String} (hname : IsName name) :
    path.text.utf8ByteSize < (path.child name).text.utf8ByteSize := by
  have nonempty : name.utf8ByteSize ≠ 0 := by
    simpa using hname.notEmpty
  rw [child_eq hname]
  simp only [String.utf8ByteSize_append]
  omega

/-- Every name makes a path longer. -/
theorem length_add_size_le {path : Path} {names : List String} (hnames : AreNames names) :
    names.length + path.text.utf8ByteSize ≤ (path.descend names).text.utf8ByteSize := by
  induction names generalizing path with
  | nil => simp
  | cons name names ih =>
    obtain ⟨hname, hnames⟩ := areNames_cons.mp hnames
    have longer : path.text.utf8ByteSize < (path.child name).text.utf8ByteSize := size_child hname
    have rest : names.length + (path.child name).text.utf8ByteSize ≤
        ((path.child name).descend names).text.utf8ByteSize := ih hnames
    rw [descend_cons, List.length_cons]
    omega

end Path

namespace Walk

/-- What a walk that follows links can get to on a disk, by the names that lead there from its root.
    A directory behind a link must be one that can be opened, and none that the link lies in. -/
inductive Reached (disk : Disk) (root : Path) : List String → EntryKind → Prop where
  | root {kind} : disk.kind root = .ok kind → Reached disk root [] kind
  | entry {names name kind listed} : Reached disk root names .directory →
      disk.list (root.descend names) = .ok listed → (name, kind) ∈ listed → kind ≠ .link →
      Reached disk root (names ++ [name]) kind
  | link {names name kind listed} : Reached disk root names .directory →
      disk.list (root.descend names) = .ok listed → (name, .link) ∈ listed →
      disk.kind (root.descend (names ++ [name])) = .ok kind → kind ≠ .directory →
      Reached disk root (names ++ [name]) kind
  | linkedDirectory {names name target listed} : Reached disk root names .directory →
      disk.list (root.descend names) = .ok listed → (name, .link) ∈ listed →
      disk.kind (root.descend (names ++ [name])) = .ok .directory →
      disk.identify (root.descend (names ++ [name])) = .ok target →
      (∀ before after, names = before ++ after →
        disk.identify (root.descend before) ≠ .ok target) →
      Reached disk root (names ++ [name]) .directory

variable {disk : Disk} {root : Path}

theorem resolveKindOn_eq_ok_iff {ancestors : List Path} {path : Path} {listed kind : EntryKind} :
    resolveKindOn disk true ancestors path listed = .ok kind ↔
      (listed ≠ .link ∧ kind = listed) ∨
        (listed = .link ∧ followLinkOn disk ancestors path = .ok kind) := by
  unfold resolveKindOn
  by_cases isLink : listed = .link
  · simp [isLink]
  · simp [isLink, eq_comm]

/-- The directories that a walk is inside of, innermost first, when it has followed names from a
    path. -/
def around (ancestors : List Path) (path : Path) : List String → List Path
  | [] => path :: ancestors
  | name :: names => around (path :: ancestors) (path.child name) names

theorem mem_around {ancestors : List Path} {path place : Path} {names : List String} :
    place ∈ around ancestors path names ↔
      place ∈ ancestors ∨
        ∃ before after, names = before ++ after ∧ place = path.descend before := by
  induction names generalizing ancestors path with
  | nil => simp [around, or_comm]
  | cons name names ih =>
    rw [around, ih, List.mem_cons]
    constructor
    · rintro ((rfl | outside) | ⟨before, after, rfl, rfl⟩)
      · exact .inr ⟨[], name :: names, rfl, rfl⟩
      · exact .inl outside
      · exact .inr ⟨name :: before, after, rfl, rfl⟩
    · rintro (outside | ⟨before, after, split, rfl⟩)
      · exact .inl (.inr outside)
      · cases before with
        | nil => exact .inl (.inl rfl)
        | cons first before =>
          obtain ⟨rfl, rfl⟩ := List.cons_eq_cons.mp split
          exact .inr ⟨before, after, rfl, rfl⟩

/-! ## Reached step by step -/

namespace Reached

theorem nil_iff {kind : EntryKind} : Reached disk root [] kind ↔ disk.kind root = .ok kind := by
  constructor
  · intro h
    generalize hnone : [] = names at h
    cases h with
    | root found => exact found
    | entry | link | linkedDirectory => simp at hnone
  · exact .root

/-- What is reached has proper names. -/
theorem areNames (hdisk : disk.WellFormed) {names : List String} {kind : EntryKind}
    (h : Reached disk root names kind) : Path.AreNames names := by
  induction h with
  | root => exact Path.areNames_nil
  | entry _ found inListed _ ih | link _ found inListed _ _ ih
  | linkedDirectory _ found inListed _ _ _ ih =>
    have hname := hdisk.isName_of_list found inListed
    exact Path.areNames_append.mpr ⟨ih, by simpa using hname⟩

/-- What is reached stands in directories that can be listed. -/
theorem list_before {names : List String} {kind : EntryKind} (h : Reached disk root names kind)
    {before after : List String} (hsplit : names = before ++ after) (hafter : after ≠ []) :
    ∃ listed, disk.list (root.descend before) = .ok listed := by
  induction h generalizing before after with
  | root => simp_all
  | entry inside found _ _ ih | link inside found _ _ _ ih | linkedDirectory inside found _ _ _ _ ih =>
    obtain ⟨init, last, rfl⟩ := (List.eq_nil_or_concat' after).resolve_left hafter
    rw [← List.append_assoc] at hsplit
    obtain ⟨rfl, -⟩ := List.append_inj' hsplit rfl
    by_cases here : init = []
    · subst here
      rw [List.append_nil] at found
      exact ⟨_, found⟩
    · exact ih rfl here

/-- The directories around what is reached can be told from others. -/
theorem identify_around {names : List String} {listed : List (String × EntryKind)}
    (h : Reached disk root names .directory) (hlist : disk.list (root.descend names) = .ok listed)
    {ancestor : Path} (hancestor : ancestor ∈ around [] root names) :
    ∃ target, disk.identify ancestor = .ok target := by
  rcases mem_around.mp hancestor with outside | ⟨before, after, split, rfl⟩
  · simp at outside
  · by_cases here : after = []
    · subst here
      rw [List.append_nil] at split
      exact Disk.identify_of_list (split ▸ hlist)
    · obtain ⟨listed', found⟩ := h.list_before split here
      exact Disk.identify_of_list found

/-- One more name leads to what a directory lists under it, as the walk takes it. -/
theorem snoc_iff {names : List String} {name : String} {kind : EntryKind} :
    Reached disk root (names ++ [name]) kind ↔
      Reached disk root names .directory ∧ ∃ listed inner,
        disk.list (root.descend names) = .ok listed ∧ (name, inner) ∈ listed ∧
        resolveKindOn disk true (around [] root names) (root.descend (names ++ [name])) inner =
          .ok kind := by
  constructor
  · intro h
    generalize hsplit : names ++ [name] = whole at h
    cases h with
    | root => simp at hsplit
    | @entry names' name' _ listed inside found inListed notLink =>
      obtain ⟨rfl, same⟩ := List.append_inj' hsplit rfl
      obtain rfl : name = name' := by simpa using same
      exact ⟨inside, listed, kind, found, inListed,
        resolveKindOn_eq_ok_iff.mpr (.inl ⟨notLink, rfl⟩)⟩
    | @link names' name' _ listed inside found inListed leads notDirectory =>
      obtain ⟨rfl, same⟩ := List.append_inj' hsplit rfl
      obtain rfl : name = name' := by simpa using same
      refine ⟨inside, listed, .link, found, inListed, resolveKindOn_eq_ok_iff.mpr (.inr ⟨rfl, ?_⟩)⟩
      exact followLinkOn_eq_ok_iff.mpr ⟨leads, fun isDirectory => absurd isDirectory notDirectory⟩
    | @linkedDirectory names' name' target listed inside found inListed leads opened apart =>
      obtain ⟨rfl, same⟩ := List.append_inj' hsplit rfl
      obtain rfl : name = name' := by simpa using same
      refine ⟨inside, listed, .link, found, inListed, resolveKindOn_eq_ok_iff.mpr (.inr ⟨rfl, ?_⟩)⟩
      refine followLinkOn_eq_ok_iff.mpr ⟨leads, fun _ => ⟨target, opened, ?_⟩⟩
      rw [sameDirectoryOn_eq_none_iff]
      intro ancestor hancestor
      obtain ⟨other, identified⟩ := inside.identify_around found hancestor
      refine ⟨other, identified, ?_⟩
      rintro rfl
      rcases mem_around.mp hancestor with outside | ⟨before, after, split, rfl⟩
      · simp at outside
      · exact apart before after split identified
  · intro h
    obtain ⟨inside, listed, inner, found, inListed, resolve⟩ := h
    rcases resolveKindOn_eq_ok_iff.mp resolve with ⟨notLink, rfl⟩ | ⟨rfl, follow⟩
    · exact .entry inside found inListed notLink
    obtain ⟨leads, opens⟩ := followLinkOn_eq_ok_iff.mp follow
    by_cases isDirectory : kind = .directory
    · subst isDirectory
      obtain ⟨target, opened, apart⟩ := opens rfl
      rw [sameDirectoryOn_eq_none_iff] at apart
      refine .linkedDirectory inside found inListed leads opened ?_
      intro before after split identified
      obtain ⟨other, identified', differs⟩ :=
        apart (root.descend before) (mem_around.mpr (.inr ⟨before, after, split, rfl⟩))
      exact differs (Except.ok.inj (identified'.symm.trans identified))
    · exact .link inside found inListed leads isDirectory

end Reached

/-! ## Reported step by step -/

variable {skips : Entry → Bool}

variable (hdisk : disk.WellFormed)
include hdisk

/-- What a walk of a given depth reports stands fewer names below its start. -/
theorem length_lt_of_mem_prunedFrom {depth : Nat} {ancestors : List Path} {path : Path}
    {kind kind' : EntryKind} {names : List String} (hnames : Path.AreNames names)
    (h : .entry ⟨path.descend names, kind'⟩ ∈
      prunedFrom disk true skips depth ancestors path kind) :
    names.length < depth := by
  induction depth generalizing ancestors path kind names with
  | zero => simp [prunedFrom] at h
  | succ depth ih =>
    cases names with
    | nil => simp
    | cons name names =>
      obtain ⟨hname, hnames⟩ := Path.areNames_cons.mp hnames
      obtain ⟨-, -, listed, inner, -, -, later⟩ := (mem_prunedFrom_child hdisk hname hnames).mp h
      have := ih hnames later
      rw [List.length_cons]
      omega

/-- A walk reports what a directory lists under a name if it reports the directory, which it must not
    skip. -/
theorem mem_prunedFrom_snoc {depth : Nat} {ancestors : List Path} {path : Path}
    {kind kind' : EntryKind} {names : List String} {name : String} (hnames : Path.AreNames names)
    (hname : Path.IsName name) (hdepth : names.length + 1 < depth) :
    .entry ⟨path.descend (names ++ [name]), kind'⟩ ∈
        prunedFrom disk true skips depth ancestors path kind ↔
      .entry ⟨path.descend names, .directory⟩ ∈
        prunedFrom disk true skips depth ancestors path kind ∧
      skips ⟨path.descend names, .directory⟩ = false ∧
      ∃ listed inner, disk.list (path.descend names) = .ok listed ∧ (name, inner) ∈ listed ∧
        resolveKindOn disk true (around ancestors path names) (path.descend (names ++ [name]))
          inner = .ok kind' := by
  obtain ⟨depth, rfl⟩ : ∃ fewer, depth = fewer + 1 := ⟨depth - 1, by omega⟩
  induction names generalizing depth ancestors path kind with
  | nil =>
    obtain ⟨depth, rfl⟩ : ∃ fewer, depth = fewer + 1 := ⟨depth - 1, by simp at hdepth; omega⟩
    rw [List.nil_append, Path.descend_cons, mem_prunedFrom_child hdisk hname Path.areNames_nil,
      Path.descend_nil, Path.descend_nil, mem_prunedFrom_self hdisk, around]
    simp only [mem_prunedFrom_self hdisk]
  | cons first names ih =>
    obtain ⟨hfirst, hnames⟩ := Path.areNames_cons.mp hnames
    have hlast : Path.AreNames (names ++ [name]) := by simp [hnames, hname]
    obtain ⟨depth, rfl⟩ : ∃ fewer, depth = fewer + 1 := ⟨depth - 1, by simp at hdepth; omega⟩
    have hdepth : names.length + 1 < depth + 1 := by simpa using hdepth
    rw [List.cons_append, Path.descend_cons, Path.descend_cons,
      mem_prunedFrom_child hdisk hfirst hlast, mem_prunedFrom_child hdisk hfirst hnames, around]
    simp only [ih hnames depth hdepth]
    constructor
    · intro h
      obtain ⟨resolve, kept, listed, inner, found, inListed, inside, last⟩ := h
      exact ⟨⟨resolve, kept, listed, inner, found, inListed, inside⟩, last⟩
    · intro h
      obtain ⟨⟨resolve, kept, listed, inner, found, inListed, inside⟩, last⟩ := h
      exact ⟨resolve, kept, listed, inner, found, inListed, inside, last⟩

/-! ## Reported and reached -/

omit hdisk in
/-- A directory that can be listed is not as deep as a walk can go. -/
theorem length_lt_depthLimit {names : List String} (hnames : Path.AreNames names)
    {kind : EntryKind} (hroot : disk.kind root = .ok kind) {listed : List (String × EntryKind)}
    (hlist : disk.list (root.descend names) = .ok listed) : names.length + 1 < depthLimit := by
  obtain ⟨place, access, found, -⟩ := Disk.list_eq_ok hlist
  obtain ⟨⟨-, short⟩, -⟩ := Disk.locate_eq_ok_iff.mp (Disk.find_eq_ok_iff.mp found)
  have nonempty : root.text.utf8ByteSize ≠ 0 := by
    intro empty
    have isEmpty : root.isEmpty = true := by simpa [Path.isEmpty] using empty
    simp [Disk.kind, Disk.find, Disk.locate, isEmpty, Except.map] at hroot
  have longer : names.length + root.text.utf8ByteSize ≤ (root.descend names).text.utf8ByteSize :=
    Path.length_add_size_le hnames
  unfold depthLimit
  unfold Disk.pathLimit at short
  omega

/-- A walk that follows links reports what can be reached without going into what is skipped. -/
theorem mem_pruned_iff (hroot : disk.kind root = .ok .directory) {names : List String}
    {kind : EntryKind} (hnames : Path.AreNames names)
    (hopen : names = [] → kind = .directory → ∃ listed, disk.list root = .ok listed) :
    .entry ⟨root.descend names, kind⟩ ∈ pruned disk true skips root ↔
      Reached disk root names kind ∧
      ∀ before after, names = before ++ after → after ≠ [] →
        skips ⟨root.descend before, .directory⟩ = false := by
  obtain ⟨rootKind, entry, isRoot⟩ : ∃ rootKind, disk.entryKind root = .ok rootKind ∧
      (rootKind = .directory ∨ rootKind = .link) := by
    rcases Disk.entryKind_of_kind hroot with direct | link
    · exact ⟨_, direct, .inl rfl⟩
    · exact ⟨_, link, .inr rfl⟩
  have start : pruned disk true skips root =
      prunedFrom disk true skips depthLimit [] root rootKind := by
    rw [pruned, entry]
  rw [start]
  induction names using List.reverseRecOn generalizing kind with
  | nil =>
    have resolve_iff : resolveKindOn disk true [] root rootKind = .ok kind ↔
        disk.kind root = .ok kind := by
      rcases isRoot with rfl | rfl
      · have stays : resolveKindOn disk true [] root .directory = .ok .directory := rfl
        simp [stays, hroot]
      · have follow : resolveKindOn disk true [] root .link = followLinkOn disk [] root := rfl
        rw [follow, followLinkOn_eq_ok_iff]
        apply and_iff_left
        intro isDirectory
        obtain ⟨listed, found⟩ := hopen rfl isDirectory
        obtain ⟨target, opened⟩ := Disk.identify_of_list found
        exact ⟨target, opened, rfl⟩
    have reported_iff : .entry ⟨root, kind⟩ ∈
        prunedFrom disk true skips depthLimit [] root rootKind ↔
          resolveKindOn disk true [] root rootKind = .ok kind := mem_prunedFrom_self hdisk
    rw [Path.descend_nil, reported_iff, Reached.nil_iff, resolve_iff]
    refine (and_iff_left ?_).symm
    intro before after split hafter
    exact absurd (List.append_eq_nil_iff.mp split.symm).2 hafter
  | append_singleton names name ih =>
    obtain ⟨hnames, hname⟩ := Path.areNames_append.mp hnames
    have hname : Path.IsName name := by simpa using hname
    -- In both directions, the directory that lists the name is an open one.
    have inner {listed : List (String × EntryKind)}
        (found : disk.list (root.descend names) = .ok listed) :
        .entry ⟨root.descend names, .directory⟩ ∈
            prunedFrom disk true skips depthLimit [] root rootKind ↔
          Reached disk root names .directory ∧
          ∀ before after, names = before ++ after → after ≠ [] →
            skips ⟨root.descend before, .directory⟩ = false := by
      apply ih hnames
      intro here _
      exact ⟨listed, by simpa [here] using found⟩
    constructor
    · intro h
      have short : names.length + 1 < depthLimit := by
        simpa using length_lt_of_mem_prunedFrom hdisk (by simp [hnames, hname]) h
      obtain ⟨inside, kept, listed, item, found, inListed, resolve⟩ :=
        (mem_prunedFrom_snoc hdisk hnames hname short).mp h
      obtain ⟨reached, unskipped⟩ := (inner found).mp inside
      refine ⟨Reached.snoc_iff.mpr ⟨reached, listed, item, found, inListed, resolve⟩, ?_⟩
      intro before after split hafter
      obtain ⟨init, last, rfl⟩ := (List.eq_nil_or_concat' after).resolve_left hafter
      rw [← List.append_assoc] at split
      obtain ⟨split, -⟩ := List.append_inj' split rfl
      by_cases here : init = []
      · rw [here, List.append_nil] at split
        exact split ▸ kept
      · exact unskipped before init split here
    · intro h
      obtain ⟨reached, unskipped⟩ := h
      obtain ⟨reached, listed, item, found, inListed, resolve⟩ := Reached.snoc_iff.mp reached
      have short := length_lt_depthLimit hnames hroot found
      have kept := unskipped names [name] rfl (by simp)
      have inside := (inner found).mpr ⟨reached, fun before after split hafter =>
        unskipped before (after ++ [name]) (by rw [split, List.append_assoc]) (by simp)⟩
      exact (mem_prunedFrom_snoc hdisk hnames hname short).mpr
        ⟨inside, kept, listed, item, found, inListed, resolve⟩

end Walk

end Phrasebook
