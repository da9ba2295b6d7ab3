import Phrasebook.Proofs.Disk.Site

/-!
# What a disk takes in

Whether a file can be written at a location, with the directories above it made as they are needed,
can be told from the disk. Main statements: what a disk takes it still takes after directories have
been made on the way, and where the directory is there, a file is written if and only if the disk
takes it.
-/

namespace Phrasebook

namespace Location

theorem path_cons {name : String} {location : Location} (h : Path.AreNames (name :: location)) :
    Location.path (name :: location) = location.path.child name := by
  rw [path_eq_descend h, path_eq_descend (Path.areNames_cons.mp h).2, List.reverse_cons,
    Path.descend_append]
  rfl

theorem parent?_path_nil : Path.parent? (Location.path []) = none := by
  decide +kernel

theorem parent?_path_cons {name : String} {location : Location}
    (h : Path.AreNames (name :: location)) :
    (Location.path (name :: location)).parent? = some location.path := by
  have names := Path.areNames_reverse.mpr h
  have parts : (Location.path (name :: location)).parts = (.root, (name :: location).reverse) := by
    rw [Path.parts, Location.path, Path.isAbsolute_slash,
      Path.segments_slash_join fun segment hmem => (names segment hmem).noSlash]
    simp
  have split : (name :: location).reverse = location.reverse ++ [name] := by simp
  have above := Path.areNames_reverse.mpr (Path.areNames_cons.mp h).2
  rw [Path.parent?, parts]
  simp only [Path.dropIdleEnd_of_areNames names]
  rw [split]
  obtain ⟨first, rest, hcons⟩ := List.exists_cons_of_ne_nil
    (List.append_ne_nil_of_right_ne_nil location.reverse (List.cons_ne_nil name []))
  rw [hcons]
  simp only [← hcons, List.dropLast_concat, Path.dropIdleEnd_of_areNames above]
  rfl

/-- The ancestors of a location's path are the paths of the locations above it. -/
theorem ancestors_path {location : Location} (h : Path.AreNames location) :
    location.path.ancestors = location.tails.map Location.path := by
  have upTo : ∀ n, location.length ≤ n →
      Path.ancestorsUpTo n location.path = location.tails.map Location.path := by
    induction location with
    | nil =>
      intro n _
      cases n with
      | zero => rfl
      | succ n => rw [Path.ancestorsUpTo, parent?_path_nil]; rfl
    | cons name location ih =>
      intro n hn
      cases n with
      | zero => simp at hn
      | succ n =>
        rw [Path.ancestorsUpTo, parent?_path_cons h]
        simp only [List.tails_cons, List.map_cons]
        rw [ih (Path.areNames_cons.mp h).2 n (by simpa using hn)]
  refine upTo _ ?_
  rw [components_path h]
  simp

theorem isEmpty_path (location : Location) : location.path.isEmpty = false := by
  rw [Bool.eq_false_iff, Ne, Path.isEmpty_iff]
  intro empty
  have := congrArg String.toList empty
  simp [Location.path] at this

theorem not_cons_suffix (name : String) (location : Location) : ¬ name :: location <:+ location := by
  intro suffix
  have := suffix.length_le
  rw [List.length_cons] at this
  omega

theorem size_path_le {name : String} {location : Location}
    (h : Path.AreNames (name :: location)) :
    location.path.text.utf8ByteSize ≤ (Location.path (name :: location)).text.utf8ByteSize := by
  rw [path_cons h, Path.child_eq (Path.areNames_cons.mp h).1]
  simp only [String.utf8ByteSize_append]
  omega

end Location

namespace Disk

/-! ## Ways to a location -/

/-- The directories above a location may be entered, and no name on the way is too long. -/
def reaches (disk : Disk) : Location → Bool
  | [] => true
  | name :: parent =>
    decide (name.utf8ByteSize ≤ nameLimit) &&
      (match disk.get? parent with
      | some (.directory access) => access.enter
      | _ => false) && disk.reaches parent

variable {disk disk' : Disk} {ending : Ending}

theorem reaches_cons {name : String} {parent : Location} :
    disk.reaches (name :: parent) = true ↔
      name.utf8ByteSize ≤ nameLimit ∧ disk.Enters parent ∧ disk.reaches parent = true := by
  rw [reaches, Bool.and_eq_true, Bool.and_eq_true, decide_eq_true_iff, and_assoc, Enters]
  cases disk.get? parent with
  | none => simp
  | some node => cases node <;> simp

theorem Extends.reaches (h : Extends disk disk') {location : Location}
    (hreaches : disk.reaches location = true) : disk'.reaches location = true := by
  induction location with
  | nil => rfl
  | cons name parent ih =>
    obtain ⟨short, enters, above⟩ := reaches_cons.mp hreaches
    exact reaches_cons.mpr ⟨short, h.enters enters, ih above⟩

/-- Names without links are followed down to a location that is there. -/
theorem trace_reverse {follow : Location → List String → Except OsError Spot} {location : Location}
    {node : Node} (hnames : Path.AreNames location) (hreaches : disk.reaches location = true)
    (found : disk.get? location = some node) (hlink : ¬ node.IsLink) {rest : List String}
    (hrest : "" ∉ rest) :
    disk.trace ending follow [] (location.reverse ++ rest) =
      disk.trace ending follow location rest := by
  induction location generalizing rest node with
  | nil => rfl
  | cons name parent ih =>
    obtain ⟨hname, hparent⟩ := Path.areNames_cons.mp hnames
    obtain ⟨short, ⟨access, up, enter⟩, above⟩ := reaches_cons.mp hreaches
    have onward : "" ∉ name :: rest := by simpa using ⟨hname.notEmpty, hrest⟩
    have notAsked : ¬ (ending = .written ∧ rest = [""]) := fun h => hrest (by simp [h.2])
    rw [List.reverse_cons, List.append_assoc, List.singleton_append,
      ih hparent above up (by simp) onward, trace, up]
    simp only [hname.notEmpty, hname.notHere, hname.notUp, enter, notAsked, Nat.not_lt_of_le short,
      if_false, found, Bool.not_true, Bool.false_eq_true]
    cases node with
    | link target => simp at hlink
    | file | directory | device => rfl

/-- Names are followed no further than to what is missing in a directory. -/
theorem trace_vacant {follow : Location → List String → Except OsError Spot} {name : String}
    {parent : Location} (hnames : Path.AreNames (name :: parent))
    (hreaches : disk.reaches (name :: parent) = true) (absent : disk.get? (name :: parent) = none)
    {rest : List String} (hrest : "" ∉ rest) :
    disk.trace ending follow [] ((name :: parent).reverse ++ rest) =
      if rest.isEmpty then .ok (.vacant parent name) else .error .noEntry := by
  obtain ⟨hname, hparent⟩ := Path.areNames_cons.mp hnames
  obtain ⟨short, ⟨access, up, enter⟩, above⟩ := reaches_cons.mp hreaches
  have onward : "" ∉ name :: rest := by simpa using ⟨hname.notEmpty, hrest⟩
  have notAsked : ¬ (ending = .written ∧ rest = [""]) := fun h => hrest (by simp [h.2])
  rw [List.reverse_cons, List.append_assoc, List.singleton_append,
    trace_reverse hparent above up (by simp) onward, trace, up]
  simp only [hname.notEmpty, hname.notHere, hname.notUp, enter, notAsked, Nat.not_lt_of_le short,
    if_false, absent, Bool.not_true, Bool.false_eq_true]

theorem locate_path {location : Location} (hnames : Path.AreNames location) (hne : location ≠ [])
    (hshort : location.path.text.utf8ByteSize < pathLimit) :
    disk.locate ending location.path = disk.pursue ending linkLimit [] location.reverse := by
  have names := Path.areNames_reverse.mpr hnames
  have nonempty : location.reverse ≠ [] := by simpa using hne
  have way : steps ending location.path = location.reverse := by
    have root : (Path.mk "/").segments.filter (· != "") = [] := by decide +kernel
    have made : location.path.segments.filter (· != "") = location.reverse := by
      rw [Location.path_eq_descend hnames, filter_segments_descend _ names, root, List.nil_append]
    cases ending with
    | made => exact made
    | target | entry | written =>
      rw [steps, Location.path_eq_descend hnames, route_descend names nonempty, root, List.nil_append]
      simp
  have atRoot : disk.start location.path = [] := by
    simp [start, (Location.isDirect_path hnames).absolute]
  rw [locate_eq_pursue, Location.isEmpty_path, if_neg (by simp), if_neg (Nat.not_le_of_lt hshort),
    atRoot, way]

theorem locate_there {location : Location} {node : Node} (hnames : Path.AreNames location)
    (hne : location ≠ []) (hshort : location.path.text.utf8ByteSize < pathLimit)
    (hreaches : disk.reaches location = true) (found : disk.get? location = some node)
    (hlink : ¬ node.IsLink) :
    disk.locate ending location.path = .ok (.occupied location node) := by
  have := @trace_reverse disk ending (disk.handLink ending linkLimit) location node hnames hreaches
    found hlink [] (by simp)
  rw [List.append_nil] at this
  rw [locate_path hnames hne hshort, pursue_eq_trace, this, trace, found]

theorem locate_vacant {name : String} {parent : Location} (hnames : Path.AreNames (name :: parent))
    (hshort : (Location.path (name :: parent)).text.utf8ByteSize < pathLimit)
    (hreaches : disk.reaches (name :: parent) = true)
    (absent : disk.get? (name :: parent) = none) :
    disk.locate ending (Location.path (name :: parent)) = .ok (.vacant parent name) := by
  have := @trace_vacant disk ending (disk.handLink ending linkLimit) name parent hnames hreaches
    absent [] (by simp)
  rw [List.append_nil] at this
  rw [locate_path hnames (by simp) hshort, pursue_eq_trace, this]
  rfl

/-- What a direct path leads to is reached along its names. -/
theorem Leads.reaches {links : Nat} {location : Location} {names : List String} {spot : Spot}
    (h : Leads disk ending links location names spot) (hup : ".." ∉ names)
    (hfree : disk.LinkFree location ((names.filter (! Path.isIdle ·)).reverse ++ location))
    (hreaches : disk.reaches location = true) :
    disk.reaches ((names.filter (! Path.isIdle ·)).reverse ++ location) = true := by
  have idleEmpty : Path.isIdle "" = true := rfl
  have idleHere : Path.isIdle "." = true := rfl
  have notIdle : ∀ {name rest}, Fits ending name rest → Path.isIdle name = false := by
    intro name rest fits
    simp [Path.isIdle, Component.ofSegment?, fits.notEmpty, fits.notHere, fits.notUp]
  induction h with
  | stop => exact hreaches
  | vacant enters fits | kept enters fits =>
    rw [List.filter_cons_of_pos (by simp [notIdle fits])]
    exact reaches_cons.mpr ⟨fits.short, enters, hreaches⟩
  | slash _ _ ih =>
    rw [List.filter_cons_of_neg (by simp [idleEmpty])] at hfree ⊢
    exact ih (fun hmem => hup (List.mem_cons_of_mem _ hmem)) hfree hreaches
  | dot _ _ ih =>
    rw [List.filter_cons_of_neg (by simp [idleHere])] at hfree ⊢
    exact ih (fun hmem => hup (List.mem_cons_of_mem _ hmem)) hfree hreaches
  | up => simp at hup
  | follow _ fits link _ _ _ =>
    rw [List.filter_cons_of_pos (by simp [notIdle fits]), List.reverse_cons, List.append_assoc,
      List.singleton_append] at hfree
    exact absurd (Node.isLink_link _) (hfree _ (List.suffix_cons _ _) (List.suffix_append _ _) _ link)
  | down enters fits _ _ _ ih =>
    rw [List.filter_cons_of_pos (by simp [notIdle fits]), List.reverse_cons, List.append_assoc,
      List.singleton_append] at hfree ⊢
    exact ih (fun hmem => hup (List.mem_cons_of_mem _ hmem))
      (fun above hbelow => hfree above ((List.suffix_cons _ _).trans hbelow))
      (reaches_cons.mpr ⟨fits.short, enters, hreaches⟩)

theorem reaches_of_locate {path : Path} {spot : Spot} (h : disk.locate ending path = .ok spot)
    (hdirect : path.IsDirect) (hfree : disk.LinkFree [] path.location) :
    disk.reaches path.location = true := by
  obtain ⟨-, leads⟩ := locate_eq_ok_iff.mp h
  have same : ((steps ending path).filter (! Path.isIdle ·)).reverse = path.location := by
    rw [filter_steps, ← hdirect.names_eq, Path.location]
  have root : disk.start path = [] := by simp [start, hdirect.absolute]
  rw [root] at leads
  have := leads.reaches (up_not_mem_steps hdirect)
    (by rw [same, List.append_nil]; exact hfree) rfl
  rwa [same, List.append_nil] at this

/-! ## Taking in a file -/

/-- Something new can be put at a location, with the directories above it made: the lowest directory
    on the way can be reached and takes new entries, and no name is too long. -/
def admits (disk : Disk) : Location → Bool
  | [] => false
  | name :: parent =>
    decide (name.utf8ByteSize ≤ nameLimit) &&
      match disk.get? parent with
      | some (.directory access) => access.enter && access.write && disk.reaches parent
      | some _ => false
      | none => disk.admits parent

/-- The directory takes new entries and can be reached. -/
structure Open (disk : Disk) (location : Location) : Prop where
  enters : disk.Enters location
  writable : ∃ access, disk.get? location = some (.directory access) ∧ access.write = true
  reaches : disk.reaches location = true

theorem admits_cons {name : String} {parent : Location} :
    disk.admits (name :: parent) = true ↔ name.utf8ByteSize ≤ nameLimit ∧
      (disk.Open parent ∨ (disk.get? parent = none ∧ disk.admits parent = true)) := by
  rw [admits, Bool.and_eq_true, decide_eq_true_iff]
  refine and_congr_right fun _ => ?_
  cases found : disk.get? parent with
  | none =>
    have closed : ¬ disk.Open parent := fun ⟨⟨access, there, _⟩, _, _⟩ => by simp [found] at there
    simp [closed]
  | some node =>
    constructor
    · intro h
      cases node with
      | directory access =>
        simp only [Bool.and_eq_true] at h
        exact .inl ⟨⟨access, found, h.1.1⟩, ⟨access, found, h.1.2⟩, h.2⟩
      | file | link | device => simp at h
    · rintro (⟨⟨access, there, enter⟩, ⟨access', there', write⟩, reached⟩ | ⟨absent, -⟩)
      · obtain rfl := Option.some.inj (found.symm.trans there)
        obtain ⟨rfl⟩ := Node.directory.inj (Option.some.inj (there.symm.trans there'))
        simp [enter, write, reached]
      · simp at absent

/-- A file can be written at a location, with the directories above it made as they are needed. -/
def takes (disk : Disk) (location : Location) : Bool :=
  decide (location.path.text.utf8ByteSize < pathLimit) &&
    match disk.get? location with
    | none => disk.admits location
    | some (.file _ access) => access.write && disk.reaches location
    | some .device => disk.reaches location
    | some _ => false

/-- Below what is missing nothing is found. -/
theorem trace_missing {follow : Location → List String → Except OsError Spot} {location : Location}
    (hnames : Path.AreNames location) (absent : disk.get? location = none)
    (hadmits : disk.admits location = true) {rest : List String} (hne : rest ≠ [])
    (hrest : "" ∉ rest) :
    disk.trace ending follow [] (location.reverse ++ rest) = .error .noEntry := by
  induction location generalizing rest with
  | nil => simp [admits] at hadmits
  | cons name parent ih =>
    obtain ⟨hname, hparent⟩ := Path.areNames_cons.mp hnames
    obtain ⟨short, isOpen | ⟨missing, above⟩⟩ := admits_cons.mp hadmits
    · rw [trace_vacant hnames (reaches_cons.mpr ⟨short, isOpen.enters, isOpen.reaches⟩) absent hrest]
      cases rest with
      | nil => exact absurd rfl hne
      | cons first rest => rfl
    · rw [List.reverse_cons, List.append_assoc, List.singleton_append]
      exact ih hparent missing above (by simp) (by simpa using ⟨hname.notEmpty, hrest⟩)

theorem makeDirectory_there {location : Location} (hnames : Path.AreNames location)
    (hne : location ≠ []) (hshort : location.path.text.utf8ByteSize < pathLimit)
    (hreaches : disk.reaches location = true) (hholds : disk.Holds location) :
    disk.makeDirectory location.path = .error .alreadyThere ∧
      disk.kind location.path = .ok .directory := by
  obtain ⟨access, found⟩ := hholds
  constructor
  · rw [makeDirectory, locate_there hnames hne hshort hreaches found (by simp)]
  · rw [kind, find, locate_there hnames hne hshort hreaches found (by simp)]
    rfl

theorem makeDirectory_vacant {name : String} {parent : Location}
    (hnames : Path.AreNames (name :: parent))
    (hshort : (Location.path (name :: parent)).text.utf8ByteSize < pathLimit)
    (hname : name.utf8ByteSize ≤ nameLimit) (hopen : disk.Open parent)
    (absent : disk.get? (name :: parent) = none) :
    disk.makeDirectory (Location.path (name :: parent)) =
      .ok (disk.insert (name :: parent) (.directory .full)) := by
  have reached := reaches_cons.mpr ⟨hname, hopen.enters, hopen.reaches⟩
  obtain ⟨access, up, writable⟩ := hopen.writable
  rw [makeDirectory, locate_vacant hnames hshort reached absent]
  simp [addEntry, up, writable]

theorem makeDirectory_missing {name : String} {parent : Location}
    (hnames : Path.AreNames (name :: parent))
    (hshort : (Location.path (name :: parent)).text.utf8ByteSize < pathLimit)
    (absent : disk.get? parent = none) (hadmits : disk.admits parent = true) :
    disk.makeDirectory (Location.path (name :: parent)) = .error .noEntry := by
  obtain ⟨hname, hparent⟩ := Path.areNames_cons.mp hnames
  rw [makeDirectory, locate_path hnames (by simp) hshort, pursue_eq_trace, List.reverse_cons,
    trace_missing hparent absent hadmits (by simp) (by simpa using hname.notEmpty.symm)]

/-- A location that holds nothing in a directory that is there takes a file exactly if the directory
    takes new entries. -/
theorem admits_of_holds {name : String} {parent : Location} (hholds : disk.Holds parent) :
    disk.admits (name :: parent) = true ↔ disk.reaches (name :: parent) = true ∧
      ∃ access, disk.get? parent = some (.directory access) ∧ access.write = true := by
  obtain ⟨access, found⟩ := hholds
  rw [admits_cons, reaches_cons]
  constructor
  · rintro ⟨short, isOpen | ⟨absent, -⟩⟩
    · exact ⟨⟨short, isOpen.enters, isOpen.reaches⟩, isOpen.writable⟩
    · simp [found] at absent
  · rintro ⟨⟨short, enters, reached⟩, writable⟩
    exact ⟨short, .inl ⟨enters, writable, reached⟩⟩

/-- Above a location that takes a file there is a directory, or one can be made. -/
theorem parent_of_takes {name : String} {parent : Location}
    (h : disk.takes (name :: parent) = true) :
    (Location.path (name :: parent)).text.utf8ByteSize < pathLimit ∧
      ((disk.Holds parent ∧ disk.reaches parent = true) ∨
        (disk.get? parent = none ∧ disk.admits parent = true)) := by
  rw [takes, Bool.and_eq_true, decide_eq_true_iff] at h
  obtain ⟨short, taken⟩ := h
  refine ⟨short, ?_⟩
  have reached : disk.reaches (name :: parent) = true →
      disk.Holds parent ∧ disk.reaches parent = true := by
    intro reached
    obtain ⟨-, enters, above⟩ := reaches_cons.mp reached
    exact ⟨enters.holds, above⟩
  cases found : disk.get? (name :: parent) with
  | none =>
    rw [found] at taken
    obtain ⟨-, isOpen | missing⟩ := admits_cons.mp taken
    · exact .inl ⟨isOpen.enters.holds, isOpen.reaches⟩
    · exact .inr missing
  | some node =>
    rw [found] at taken
    cases node with
    | file content access => exact .inl (reached (Bool.and_eq_true_iff.mp taken).2)
    | device => exact .inl (reached taken)
    | directory | link => simp at taken

/-- In a directory that is there, a file is written if and only if the disk takes it. -/
theorem write_eq_ok_iff {name : String} {parent : Location}
    (hnames : Path.AreNames (name :: parent)) (hfree : disk.LinkFree [] (name :: parent))
    (bytes : ByteArray) :
    (∃ later, disk.write (Location.path (name :: parent)) bytes = .ok later) ↔
      disk.Holds parent ∧ disk.takes (name :: parent) = true := by
  have noLink : ∀ node, disk.get? (name :: parent) = some node → ¬ node.IsLink :=
    hfree _ List.nil_suffix (List.suffix_refl _)
  constructor
  · rintro ⟨later, written⟩
    have direct := Location.isDirect_path hnames
    have place := Location.location_path hnames
    unfold write store at written
    cases located : disk.locate .written (Location.path (name :: parent)) with
    | error e => simp [located] at written
    | ok spot =>
      have short := (locate_eq_ok_iff.mp located).1.2
      have reached : disk.reaches (name :: parent) = true := by
        have := reaches_of_locate located direct (by rwa [place])
        rwa [place] at this
      have holds : disk.Holds parent := (reaches_cons.mp reached).2.1.holds
      have there := place_eq_of_locate located direct (by rwa [place])
      rw [place] at there
      refine ⟨holds, ?_⟩
      rw [takes, decide_eq_true short, Bool.true_and]
      rw [located] at written
      cases spot with
      | vacant parent' name' =>
        obtain ⟨rfl, rfl⟩ := List.cons_eq_cons.mp there
        have absent := (locate_eq_ok_iff.mp located).2.vacant_spot.2.2
        obtain ⟨writable, -⟩ := addEntry_eq_ok written
        rw [absent]
        exact (admits_of_holds holds).mpr ⟨reached, writable⟩
      | occupied place' node =>
        obtain rfl : place' = name :: parent := there
        have found := (locate_eq_ok_iff.mp located).2.get?
        rw [found]
        cases node with
        | file content access =>
          simp only at written ⊢
          split at written
          · next writable => rw [writable, reached]; rfl
          · simp at written
        | directory access => simp at written
        | link target => exact absurd (Node.isLink_link target) (noLink _ found)
        | device => exact reached
  · rintro ⟨holds, taken⟩
    rw [takes, Bool.and_eq_true, decide_eq_true_iff] at taken
    obtain ⟨short, taken⟩ := taken
    unfold write store
    cases found : disk.get? (name :: parent) with
    | none =>
      rw [found] at taken
      obtain ⟨reached, access, up, writable⟩ := (admits_of_holds holds).mp taken
      rw [locate_vacant hnames short reached found]
      simp [addEntry, up, writable]
    | some node =>
      rw [found] at taken
      cases node with
      | file content access =>
        obtain ⟨writable, reached⟩ := Bool.and_eq_true_iff.mp taken
        rw [locate_there hnames (by simp) short reached found (by simp)]
        simp [writable]
      | directory access => simp at taken
      | link target => simp at taken
      | device =>
        rw [locate_there hnames (by simp) short taken found (by simp)]
        exact ⟨disk, rfl⟩

/-- Nothing is written in place of the root. -/
theorem write_root (hdisk : disk.WellFormed) (bytes : ByteArray) :
    disk.write (Location.path []) bytes = .error .isDirectory := by
  obtain ⟨node, root, access, rfl⟩ := hdisk.root
  have way : steps .written (Location.path []) = [""] := by decide +kernel
  have atRoot : disk.start (Location.path []) = [] := by simp [start, Path.isAbsolute, Location.path]
  have located : disk.locate .written (Location.path []) = .ok (.occupied [] (.directory access)) := by
    rw [locate_eq_ok_iff, way, atRoot]
    exact ⟨⟨by decide +kernel, by decide +kernel⟩, .slash ⟨access, root⟩ (.stop root)⟩
  rw [write, store, located]

/-! ## Directories on the way -/

/-- On the way to a location, the disks differ only in directories that have been made, each in a
    directory that takes new entries and can be reached. -/
structure Paved (target : Location) (disk disk' : Disk) : Prop where
  same : ∀ place, place <:+ target → disk'.get? place = disk.get? place ∨
    (disk.get? place = none ∧ disk'.get? place = some (.directory .full))
  reached : ∀ place, place <:+ target → disk.get? place = none → disk'.get? place ≠ none →
    disk'.reaches place = true
  opened : ∀ place, place <:+ target → disk.get? place = none → disk'.get? place ≠ none →
    ∃ access, disk'.get? place.tail = some (.directory access) ∧ access.write = true

/-- Directories that are made along direct paths pave the way. -/
theorem Grows.paved {allowed : Path → Node → Prop} {target : Location}
    (h : Grows allowed disk disk')
    (hdirect : ∀ path node, allowed path node → path.IsDirect ∧ disk.LinkFree [] path.location)
    (hdirectory : ∀ path node, allowed path node → path.location <:+ target →
      node = .directory .full) : Paved target disk disk' := by
  have changed : ∀ place, place <:+ target → disk'.get? place ≠ disk.get? place →
      disk'.get? place = some (.directory .full) ∧ disk'.reaches place = true := by
    intro place onWay hne
    obtain ⟨path, node, hpath, found⟩ := h.footprint hne
    obtain ⟨direct, free⟩ := hdirect path node hpath
    have located := find_eq_ok_iff.mp found
    have there : place = path.location := place_eq_of_locate located direct (h.linkFree free)
    obtain rfl := hdirectory path node hpath (there ▸ onWay)
    refine ⟨get?_of_find found, ?_⟩
    rw [there]
    exact reaches_of_locate located direct (h.linkFree free)
  have isNew : ∀ place, disk.get? place = none → disk'.get? place ≠ none →
      disk'.get? place ≠ disk.get? place := by
    intro place absent there same
    exact there (same.trans absent)
  refine ⟨fun place onWay => ?_, fun place onWay absent there => ?_,
    fun place _ absent there => h.opened absent there⟩
  · by_cases same : disk'.get? place = disk.get? place
    · exact .inl same
    · obtain ⟨directory, -⟩ := changed place onWay same
      refine .inr ⟨?_, directory⟩
      -- Something that was there before would have stayed, or be a file still.
      cases before : disk.get? place with
      | none => rfl
      | some old =>
        rcases h.extends.kept place old before with kept | ⟨-, node, found, isFile⟩
        · exact absurd (kept.trans before.symm) same
        · rw [directory] at found
          obtain rfl := Option.some.inj found
          simp at isFile
  · exact (changed place onWay (isNew place absent there)).2

namespace Paved

variable {target : Location} (h : Paved target disk disk')
include h

theorem get?_of_there {place : Location} (hplace : place <:+ target)
    (there : disk.get? place ≠ none) : disk'.get? place = disk.get? place :=
  (h.same place hplace).resolve_right fun ⟨absent, _⟩ => there absent

theorem enters_iff {place : Location} (hplace : place <:+ target) (hholds : disk.Holds place) :
    disk'.Enters place ↔ disk.Enters place := by
  obtain ⟨access, found⟩ := hholds
  rw [Enters, Enters, h.get?_of_there hplace (by simp [found])]

/-- What was there before is reached as before. -/
theorem reaches_iff (hdisk : disk.WellFormed) {place : Location} (hplace : place <:+ target)
    {node : Node} (found : disk.get? place = some node) :
    disk'.reaches place = true ↔ disk.reaches place = true := by
  induction place generalizing node with
  | nil => exact Iff.rfl
  | cons name parent ih =>
    have above : parent <:+ target := (List.suffix_cons name parent).trans hplace
    obtain ⟨access, up⟩ := hdisk.parent found
    rw [reaches_cons, reaches_cons, h.enters_iff above ⟨access, up⟩, ih above up]

theorem open_iff (hdisk : disk.WellFormed) {place : Location} (hplace : place <:+ target)
    (hholds : disk.Holds place) : disk'.Open place ↔ disk.Open place := by
  obtain ⟨access, found⟩ := hholds
  have same := h.get?_of_there hplace (by simp [found])
  have reaches := h.reaches_iff hdisk hplace found
  have enters := h.enters_iff hplace ⟨access, found⟩
  constructor
  · rintro ⟨entered, writable, reached⟩
    exact ⟨enters.mp entered, same ▸ writable, reaches.mp reached⟩
  · rintro ⟨entered, writable, reached⟩
    exact ⟨enters.mpr entered, same.symm ▸ writable, reaches.mpr reached⟩

/-- A directory that has been made could be made. -/
theorem admits_of_new (hdisk : disk.WellFormed) {place : Location} (hplace : place <:+ target)
    (absent : disk.get? place = none) (there : disk'.get? place ≠ none) :
    disk.admits place = true := by
  induction place with
  | nil =>
    obtain ⟨node, root, -⟩ := hdisk.root
    simp [absent] at root
  | cons name parent ih =>
    have above : parent <:+ target := (List.suffix_cons name parent).trans hplace
    obtain ⟨short, enters, reached⟩ := reaches_cons.mp (h.reached _ hplace absent there)
    have writable := h.opened _ hplace absent there
    have isOpen : disk'.Open parent := ⟨enters, writable, reached⟩
    refine admits_cons.mpr ⟨short, ?_⟩
    cases before : disk.get? parent with
    | none =>
      obtain ⟨access, found⟩ := enters.holds
      exact .inr ⟨rfl, ih above before (by simp [found])⟩
    | some node =>
      have holds : disk.Holds parent := by
        obtain ⟨access, found⟩ := enters.holds
        exact ⟨access, (h.get?_of_there above (by simp [before])).symm.trans found⟩
      exact .inl ((h.open_iff hdisk above holds).mp isOpen)

/-- Where nothing stands yet, something can be put as before. -/
theorem admits_iff (hdisk : disk.WellFormed) {place : Location} (hplace : place <:+ target)
    (absent : disk'.get? place = none) :
    disk'.admits place = true ↔ disk.admits place = true := by
  induction place with
  | nil => simp [admits]
  | cons name parent ih =>
    have above : parent <:+ target := (List.suffix_cons name parent).trans hplace
    rw [admits_cons, admits_cons]
    refine and_congr_right fun _ => ?_
    cases before : disk.get? parent with
    | some node =>
      have same := h.get?_of_there above (by simp [before])
      have missing : ∀ {P : Prop}, ¬ (disk'.get? parent = none ∧ P) := by
        rintro P ⟨none, -⟩
        simp [same, before] at none
      by_cases holds : disk.Holds parent
      · rw [h.open_iff hdisk above holds]
        simp [missing]
      · have closed : ¬ disk.Open parent := fun isOpen => holds isOpen.enters.holds
        have closed' : ¬ disk'.Open parent := fun isOpen => by
          obtain ⟨access, found⟩ := isOpen.enters.holds
          exact holds ⟨access, same.symm.trans found⟩
        simp [closed, closed', missing]
    | none =>
      have closed : ¬ disk.Open parent := fun isOpen => by
        obtain ⟨access, found⟩ := isOpen.enters.holds
        simp [before] at found
      rcases h.same parent above with same | ⟨-, made⟩
      · have missing := same.trans before
        have closed' : ¬ disk'.Open parent := fun isOpen => by
          obtain ⟨access, found⟩ := isOpen.enters.holds
          simp [missing] at found
        simp [closed, closed', missing, ih above missing]
      · -- The directory has been made, so it is open, and it could be made.
        have there : disk'.get? parent ≠ none := by simp [made]
        have isOpen : disk'.Open parent := ⟨⟨.full, made, rfl⟩, ⟨.full, made, rfl⟩,
          h.reached parent above before there⟩
        simp [isOpen, closed, h.admits_of_new hdisk above before there]

/-- Directories on the way do not change whether a file can be written. -/
theorem takes_eq (hdisk : disk.WellFormed) (same : disk'.get? target = disk.get? target) :
    disk'.takes target = disk.takes target := by
  rw [Bool.eq_iff_iff, takes, takes, Bool.and_eq_true, Bool.and_eq_true, same]
  refine and_congr_right fun _ => ?_
  cases found : disk.get? target with
  | none => exact h.admits_iff hdisk (List.suffix_refl _) (same.trans found)
  | some node =>
    have reaches := h.reaches_iff hdisk (List.suffix_refl _) found
    cases node with
    | file content access => simp only [Bool.and_eq_true, reaches]
    | device => exact reaches
    | directory | link => exact Iff.rfl

end Paved

end Disk

end Phrasebook
