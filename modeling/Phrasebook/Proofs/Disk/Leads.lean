import Phrasebook.Proofs.Disk.Lookup

/-!
# Where paths lead

The ways along which a disk can be followed, as a relation: one rule for each kind of name. Main
statements: the relation holds exactly of what `Disk.pursue` finds; what it finds is found again
after files and directories have been added; and without links and `..` it is found where the names
say.
-/

namespace Phrasebook

/-- The location a path leads to, be something there or not. -/
def Spot.place : Spot → Location
  | occupied location _ => location
  | vacant parent name => name :: parent

namespace Disk

/-- A directory stands at the location. -/
def Holds (disk : Disk) (location : Location) : Prop :=
  ∃ access, disk.get? location = some (.directory access)

/-- A directory that may be entered stands at the location. -/
def Enters (disk : Disk) (location : Location) : Prop :=
  ∃ access, disk.get? location = some (.directory access) ∧ access.enter = true

/-- The name is looked up in a directory: it is no dot, not too long, and not asked to be a directory
    that is written to. -/
structure Fits (ending : Ending) (name : String) (rest : List String) : Prop where
  notEmpty : name ≠ ""
  notHere : name ≠ "."
  notUp : name ≠ ".."
  notAsked : ¬ (ending = .written ∧ rest = [""])
  short : name.utf8ByteSize ≤ nameLimit

/-- The directory that the target of a link is followed from. -/
def linkStart (location : Location) (target : String) : Location :=
  if (Path.mk target).isAbsolute then [] else location

/-- Following names from a location, and at most the given number of links, leads to a spot. -/
inductive Leads (disk : Disk) (ending : Ending) : Nat → Location → List String → Spot → Prop where
  | stop {links location node} : disk.get? location = some node →
      Leads disk ending links location [] (.occupied location node)
  | slash {links location rest spot} : disk.Holds location →
      Leads disk ending links location rest spot → Leads disk ending links location ("" :: rest) spot
  | dot {links location rest spot} : disk.Enters location →
      Leads disk ending links location rest spot →
      Leads disk ending links location ("." :: rest) spot
  | up {links location rest spot} : disk.Enters location →
      Leads disk ending links location.tail rest spot →
      Leads disk ending links location (".." :: rest) spot
  | vacant {links location name} : disk.Enters location → Fits ending name [] →
      disk.get? (name :: location) = none →
      Leads disk ending links location [name] (.vacant location name)
  | kept {links location name target} : disk.Enters location → Fits ending name [] →
      disk.get? (name :: location) = some (.link target) → ending.keepsLink = true →
      Leads disk ending links location [name] (.occupied (name :: location) (.link target))
  | follow {links location name rest target spot} : disk.Enters location → Fits ending name rest →
      disk.get? (name :: location) = some (.link target) →
      ¬ (ending.keepsLink = true ∧ rest = []) →
      Leads disk ending links (linkStart location target) (route ⟨target⟩ ++ rest) spot →
      Leads disk ending (links + 1) location (name :: rest) spot
  | down {links location name rest node spot} : disk.Enters location → Fits ending name rest →
      disk.get? (name :: location) = some node → ¬ node.IsLink →
      Leads disk ending links (name :: location) rest spot →
      Leads disk ending links location (name :: rest) spot

variable {disk : Disk} {ending : Ending}

/-- What a link is handed to. -/
def handLink (disk : Disk) (ending : Ending) : Nat → Location → List String → Except OsError Spot
  | 0 => fun _ _ => .error .tooManyLinks
  | links + 1 => disk.pursue ending links

theorem pursue_eq_trace (disk : Disk) (ending : Ending) (links : Nat) :
    disk.pursue ending links = disk.trace ending (disk.handLink ending links) := by
  cases links <;> rfl

theorem leads_of_trace {links : Nat}
    (hlink : ∀ location names spot, disk.handLink ending links location names = .ok spot →
      ∃ fewer, links = fewer + 1 ∧ Leads disk ending fewer location names spot)
    {location : Location} {names : List String} {spot : Spot}
    (h : disk.trace ending (disk.handLink ending links) location names = .ok spot) :
    Leads disk ending links location names spot := by
  induction names generalizing location with
  | nil =>
    rw [trace] at h
    split at h
    · next node found =>
      obtain rfl := Except.ok.inj h
      exact .stop found
    · simp at h
  | cons name rest ih =>
    rw [trace] at h
    split at h
    · simp at h
    · next access found =>
      split at h
      · next empty =>
        subst empty
        exact .slash ⟨access, found⟩ (ih h)
      · next notEmpty =>
      split at h
      · simp at h
      · next enter =>
      have enters : disk.Enters location := ⟨access, found, by simpa using enter⟩
      split at h
      · next here =>
        subst here
        exact .dot enters (ih h)
      · next notHere =>
      split at h
      · next up =>
        subst up
        exact .up enters (ih h)
      · next notUp =>
      split at h
      · simp at h
      · next notAsked =>
      split at h
      · simp at h
      · next short =>
      have fits : Fits ending name rest :=
        ⟨notEmpty, notHere, notUp, notAsked, Nat.le_of_not_lt short⟩
      split at h
      · next absent =>
        split at h
        · next last =>
          obtain rfl := List.isEmpty_iff.mp last
          obtain rfl := Except.ok.inj h
          exact .vacant enters fits absent
        · simp at h
      · next target link =>
        split at h
        · next kept =>
          simp only [Bool.and_eq_true, List.isEmpty_iff] at kept
          obtain ⟨keeps, rfl⟩ := kept
          obtain rfl := Except.ok.inj h
          exact .kept enters fits link keeps
        · next notKept =>
          obtain ⟨fewer, rfl, leads⟩ := hlink _ _ _ h
          exact .follow enters fits link (by simpa using notKept) leads
      · next node notLink found =>
        exact .down enters fits found (fun ⟨target, same⟩ => notLink target same) (ih h)
    · simp at h

/-- The rules say where names lead. -/
theorem pursue_eq_ok_iff {links : Nat} {location : Location} {names : List String} {spot : Spot} :
    disk.pursue ending links location names = .ok spot ↔
      Leads disk ending links location names spot := by
  constructor
  · induction links generalizing location names spot with
    | zero =>
      intro h
      rw [pursue_eq_trace] at h
      exact leads_of_trace (by simp [handLink]) h
    | succ links ih =>
      intro h
      rw [pursue_eq_trace] at h
      exact leads_of_trace (fun _ _ _ found => ⟨links, rfl, ih found⟩) h
  · intro h
    induction h with
    | stop found => simp [pursue_eq_trace, trace, found]
    | slash holds _ ih =>
      obtain ⟨access, found⟩ := holds
      rw [pursue_eq_trace] at ih ⊢
      simpa [trace, found] using ih
    | dot enters _ ih =>
      obtain ⟨access, found, enter⟩ := enters
      rw [pursue_eq_trace] at ih ⊢
      simpa [trace, found, enter] using ih
    | up enters _ ih =>
      obtain ⟨access, found, enter⟩ := enters
      rw [pursue_eq_trace] at ih ⊢
      simpa [trace, found, enter] using ih
    | vacant enters fits absent =>
      obtain ⟨access, found, enter⟩ := enters
      obtain ⟨notEmpty, notHere, notUp, notAsked, short⟩ := fits
      simp [pursue_eq_trace, trace, found, enter, notEmpty, notHere, notUp,
        Nat.not_lt_of_le short, absent]
    | kept enters fits link keeps =>
      obtain ⟨access, found, enter⟩ := enters
      obtain ⟨notEmpty, notHere, notUp, notAsked, short⟩ := fits
      simp [pursue_eq_trace, trace, found, enter, notEmpty, notHere, notUp,
        Nat.not_lt_of_le short, link, keeps]
    | follow enters fits link notKept _ ih =>
      obtain ⟨access, found, enter⟩ := enters
      obtain ⟨notEmpty, notHere, notUp, notAsked, short⟩ := fits
      rw [linkStart] at ih
      simpa [pursue, trace, found, enter, notEmpty, notHere, notUp, notAsked,
        Nat.not_lt_of_le short, link, notKept] using ih
    | @down _ _ _ _ node _ enters fits present notLink _ ih =>
      obtain ⟨access, found, enter⟩ := enters
      obtain ⟨notEmpty, notHere, notUp, notAsked, short⟩ := fits
      rw [pursue_eq_trace] at ih ⊢
      cases node with
      | link target => simp at notLink
      | file | directory | device =>
        simpa [trace, found, enter, notEmpty, notHere, notUp, notAsked, Nat.not_lt_of_le short,
          present] using ih

/-! ## What is found -/

/-- What a path leads to stands there. -/
theorem Leads.get? {links : Nat} {location place : Location} {names : List String} {node : Node}
    (h : Leads disk ending links location names (.occupied place node)) :
    disk.get? place = some node := by
  generalize hspot : Spot.occupied place node = spot at h
  induction h with
  | stop found =>
    obtain ⟨rfl, rfl⟩ := Spot.occupied.inj hspot
    exact found
  | vacant => simp at hspot
  | kept _ _ link _ =>
    obtain ⟨rfl, rfl⟩ := Spot.occupied.inj hspot
    exact link
  | slash _ _ ih | dot _ _ ih | up _ _ ih | follow _ _ _ _ _ ih | down _ _ _ _ _ ih =>
    exact ih hspot

/-- A vacant name is missing in a directory that may be entered. -/
theorem Leads.vacant_spot {links : Nat} {location parent : Location} {names : List String}
    {name : String} (h : Leads disk ending links location names (.vacant parent name)) :
    disk.Enters parent ∧ Fits ending name [] ∧ disk.get? (name :: parent) = none := by
  generalize hspot : Spot.vacant parent name = spot at h
  induction h with
  | stop => simp at hspot
  | kept => simp at hspot
  | vacant enters fits absent =>
    obtain ⟨rfl, rfl⟩ := Spot.vacant.inj hspot
    exact ⟨enters, fits, absent⟩
  | slash _ _ ih | dot _ _ ih | up _ _ ih | follow _ _ _ _ _ ih | down _ _ _ _ _ ih =>
    exact ih hspot

theorem slash_not_mem_route {path : Path} {segment : String} (h : segment ∈ route path) :
    '/' ∉ segment.toList := by
  rcases List.mem_append.mp h with inPath | atEnd
  · exact Path.slash_not_mem_segments (List.mem_filter.mp inPath).1
  · split at atEnd <;> simp_all

/-- A vacant name is a proper one, as no slash is in the names that are followed. -/
theorem Leads.isName {links : Nat} {location parent : Location} {names : List String}
    {name : String} (h : Leads disk ending links location names (.vacant parent name))
    (hnames : ∀ segment ∈ names, '/' ∉ segment.toList) : Path.IsName name := by
  generalize hspot : Spot.vacant parent name = spot at h
  induction h with
  | stop => simp at hspot
  | kept => simp at hspot
  | vacant _ fits _ =>
    obtain ⟨rfl, rfl⟩ := Spot.vacant.inj hspot
    exact ⟨fits.notEmpty, fits.notHere, fits.notUp, hnames _ List.mem_cons_self⟩
  | slash _ _ ih | dot _ _ ih | up _ _ ih | down _ _ _ _ _ ih =>
    exact ih (fun segment hmem => hnames segment (List.mem_cons_of_mem _ hmem)) hspot
  | follow _ _ _ _ _ ih =>
    refine ih (fun segment hmem => ?_) hspot
    rcases List.mem_append.mp hmem with inTarget | inRest
    · exact slash_not_mem_route inTarget
    · exact hnames segment (List.mem_cons_of_mem _ inRest)

/-! ## Adding files and directories -/

/-- Nothing has gone: everything but the contents and permissions of files is as before. -/
structure Extends (disk disk' : Disk) : Prop where
  here : disk'.here = disk.here
  kept : ∀ location node, disk.get? location = some node →
    disk'.get? location = some node ∨
      (node.IsFile ∧ ∃ node', disk'.get? location = some node' ∧ node'.IsFile)

theorem Extends.refl (disk : Disk) : Extends disk disk :=
  ⟨rfl, fun _ _ found => .inl found⟩

theorem Extends.trans {disk disk' disk'' : Disk} (h : Extends disk disk')
    (h' : Extends disk' disk'') : Extends disk disk'' := by
  refine ⟨h'.here.trans h.here, fun location node found => ?_⟩
  rcases h.kept location node found with same | ⟨isFile, node', found', isFile'⟩
  · exact h'.kept location node same
  · right
    rcases h'.kept location node' found' with same | ⟨-, later⟩
    · exact ⟨isFile, node', same, isFile'⟩
    · exact ⟨isFile, later⟩

theorem Extends.directory {disk disk' : Disk} (h : Extends disk disk') {location : Location}
    {access : Access} (found : disk.get? location = some (.directory access)) :
    disk'.get? location = some (.directory access) :=
  (h.kept location _ found).resolve_right (by simp)

theorem Extends.link {disk disk' : Disk} (h : Extends disk disk') {location : Location}
    {target : String} (found : disk.get? location = some (.link target)) :
    disk'.get? location = some (.link target) :=
  (h.kept location _ found).resolve_right (by simp)

theorem Extends.holds {disk disk' : Disk} (h : Extends disk disk') {location : Location}
    (hholds : disk.Holds location) : disk'.Holds location :=
  let ⟨access, found⟩ := hholds
  ⟨access, h.directory found⟩

theorem Extends.enters {disk disk' : Disk} (h : Extends disk disk') {location : Location}
    (henters : disk.Enters location) : disk'.Enters location :=
  let ⟨access, found, enter⟩ := henters
  ⟨access, h.directory found, enter⟩

theorem Extends.not_isLink {disk disk' : Disk} (h : Extends disk disk') {location : Location}
    {node : Node} (found : disk.get? location = some node) (hlink : ¬ node.IsLink) :
    ∃ node', disk'.get? location = some node' ∧ ¬ node'.IsLink := by
  rcases h.kept location node found with same | ⟨-, node', found', content, access, rfl⟩
  · exact ⟨node, same, hlink⟩
  · exact ⟨_, found', by simp⟩

/-- A path goes on leading where it led. -/
theorem Leads.extend {disk' : Disk} (hextends : Extends disk disk') {links : Nat}
    {location place : Location} {names : List String} {node : Node}
    (h : Leads disk ending links location names (.occupied place node)) :
    ∃ node', Leads disk' ending links location names (.occupied place node') := by
  generalize hspot : Spot.occupied place node = spot at h
  induction h with
  | vacant => simp at hspot
  | stop found =>
    obtain ⟨rfl, rfl⟩ := Spot.occupied.inj hspot
    rcases hextends.kept _ _ found with same | ⟨-, node', found', -⟩
    · exact ⟨_, .stop same⟩
    · exact ⟨_, .stop found'⟩
  | kept enters fits link keeps =>
    obtain ⟨rfl, rfl⟩ := Spot.occupied.inj hspot
    exact ⟨_, .kept (hextends.enters enters) fits (hextends.link link) keeps⟩
  | slash holds _ ih =>
    obtain ⟨node', leads⟩ := ih hspot
    exact ⟨node', .slash (hextends.holds holds) leads⟩
  | dot enters _ ih =>
    obtain ⟨node', leads⟩ := ih hspot
    exact ⟨node', .dot (hextends.enters enters) leads⟩
  | up enters _ ih =>
    obtain ⟨node', leads⟩ := ih hspot
    exact ⟨node', .up (hextends.enters enters) leads⟩
  | follow enters fits link notKept _ ih =>
    obtain ⟨node', leads⟩ := ih hspot
    exact ⟨node', .follow (hextends.enters enters) fits (hextends.link link) notKept leads⟩
  | down enters fits present notLink _ ih =>
    obtain ⟨node', leads⟩ := ih hspot
    obtain ⟨between, found, notLink'⟩ := hextends.not_isLink present notLink
    exact ⟨node', .down (hextends.enters enters) fits found notLink' leads⟩

theorem Fits.target {name : String} {rest more : List String} (h : Fits ending name rest) :
    Fits .target name more :=
  ⟨h.notEmpty, h.notHere, h.notUp, by simp, h.short⟩

/-- A path that led to a vacant name leads to what stands there later. -/
theorem Leads.arrive {disk' : Disk} (hextends : Extends disk disk') {links : Nat}
    {location parent : Location} {names more : List String} {name : String} {node : Node}
    (h : Leads disk ending links location names (.vacant parent name))
    (found : disk'.get? (name :: parent) = some node) (hlink : ¬ node.IsLink)
    (hmore : more = [] ∨ (more = [""] ∧ node.IsDirectory)) :
    Leads disk' .target links location (names ++ more) (.occupied (name :: parent) node) := by
  generalize hspot : Spot.vacant parent name = spot at h
  induction h with
  | stop => simp at hspot
  | kept => simp at hspot
  | vacant enters fits absent =>
    obtain ⟨rfl, rfl⟩ := Spot.vacant.inj hspot
    refine .down (hextends.enters enters) fits.target found hlink ?_
    rcases hmore with rfl | ⟨rfl, access, rfl⟩
    · exact .stop found
    · exact .slash ⟨access, found⟩ (.stop found)
  | slash holds _ ih => exact .slash (hextends.holds holds) (ih hspot)
  | dot enters _ ih => exact .dot (hextends.enters enters) (ih hspot)
  | up enters _ ih => exact .up (hextends.enters enters) (ih hspot)
  | follow enters fits link _ _ ih =>
    have later := ih hspot
    rw [List.append_assoc] at later
    exact .follow (hextends.enters enters) fits.target (hextends.link link)
      (by simp [Ending.keepsLink]) later
  | down enters fits present notLink _ ih =>
    obtain ⟨between, found', notLink'⟩ := hextends.not_isLink present notLink
    exact .down (hextends.enters enters) fits.target found' notLink' (ih hspot)

/-- What can be written to can be looked at. -/
theorem Leads.target_of_written {links : Nat} {location : Location} {names : List String}
    {spot : Spot} (h : Leads disk .written links location names spot) :
    Leads disk .target links location names spot := by
  induction h with
  | stop found => exact .stop found
  | vacant enters fits absent => exact .vacant enters fits.target absent
  | kept _ _ _ keeps => simp [Ending.keepsLink] at keeps
  | slash holds _ ih => exact .slash holds ih
  | dot enters _ ih => exact .dot enters ih
  | up enters _ ih => exact .up enters ih
  | follow enters fits link _ _ ih =>
    exact .follow enters fits.target link (by simp [Ending.keepsLink]) ih
  | down enters fits present notLink _ ih => exact .down enters fits.target present notLink ih

/-- Where a path leads somewhere, there is an entry: what the path leads to, or a link. -/
theorem Leads.entry_of_target {links : Nat} {location place : Location} {names : List String}
    {node : Node} (h : Leads disk .target links location names (.occupied place node)) :
    ∃ place' node', Leads disk .entry links location names (.occupied place' node') ∧
      (node' = node ∨ node'.IsLink) := by
  have fits {name : String} {rest : List String} (h : Fits .target name rest) :
      Fits .entry name rest := ⟨h.notEmpty, h.notHere, h.notUp, by simp, h.short⟩
  generalize hspot : Spot.occupied place node = spot at h
  induction h with
  | stop found =>
    obtain ⟨rfl, rfl⟩ := Spot.occupied.inj hspot
    exact ⟨place, node, .stop found, .inl rfl⟩
  | vacant => simp at hspot
  | kept _ _ _ keeps => simp [Ending.keepsLink] at keeps
  | slash holds _ ih =>
    obtain ⟨place', node', leads, same⟩ := ih hspot
    exact ⟨place', node', .slash holds leads, same⟩
  | dot enters _ ih =>
    obtain ⟨place', node', leads, same⟩ := ih hspot
    exact ⟨place', node', .dot enters leads, same⟩
  | up enters _ ih =>
    obtain ⟨place', node', leads, same⟩ := ih hspot
    exact ⟨place', node', .up enters leads, same⟩
  | @follow _ location name rest target _ enters named link _ _ ih =>
    by_cases last : rest = []
    · subst last
      exact ⟨_, _, .kept enters (fits named) link rfl, .inr (Node.isLink_link target)⟩
    · obtain ⟨place', node', leads, same⟩ := ih hspot
      exact ⟨place', node', .follow enters (fits named) link (by simp [last]) leads, same⟩
  | down enters named present notLink _ ih =>
    obtain ⟨place', node', leads, same⟩ := ih hspot
    exact ⟨place', node', .down enters (fits named) present notLink leads, same⟩

/-! ## Ways without links -/

/-- None of the locations from one down to another holds a link. -/
def LinkFree (disk : Disk) (above below : Location) : Prop :=
  ∀ location, above <:+ location → location <:+ below →
    ∀ node, disk.get? location = some node → ¬ node.IsLink

theorem Fits.isIdle {name : String} {rest : List String}
    (h : Fits ending name rest) : Path.isIdle name = false := by
  simp [Path.isIdle, Component.ofSegment?, h.notEmpty, h.notHere, h.notUp]

/-- Without links and `..` names lead where they say. -/
theorem Leads.place_eq {links : Nat} {location : Location} {names : List String} {spot : Spot}
    (h : Leads disk ending links location names spot) (hup : ".." ∉ names)
    (hfree : disk.LinkFree location ((names.filter (! Path.isIdle ·)).reverse ++ location)) :
    spot.place = (names.filter (! Path.isIdle ·)).reverse ++ location := by
  have idleEmpty : Path.isIdle "" = true := rfl
  have idleHere : Path.isIdle "." = true := rfl
  induction h with
  | stop => simp [Spot.place]
  | vacant _ fits _ => simp [Spot.place, fits.isIdle]
  | kept _ fits _ _ => simp [Spot.place, fits.isIdle]
  | slash _ _ ih =>
    rw [List.filter_cons_of_neg (by simp [idleEmpty])] at hfree ⊢
    exact ih (fun hmem => hup (List.mem_cons_of_mem _ hmem)) hfree
  | dot _ _ ih =>
    rw [List.filter_cons_of_neg (by simp [idleHere])] at hfree ⊢
    exact ih (fun hmem => hup (List.mem_cons_of_mem _ hmem)) hfree
  | up => simp at hup
  | follow _ fits link _ _ _ =>
    rw [List.filter_cons_of_pos (by simp [fits.isIdle]), List.reverse_cons, List.append_assoc,
      List.singleton_append] at hfree
    exact absurd (Node.isLink_link _) (hfree _ (List.suffix_cons _ _) (List.suffix_append _ _) _ link)
  | down _ fits _ _ _ ih =>
    rw [List.filter_cons_of_pos (by simp [fits.isIdle]), List.reverse_cons, List.append_assoc,
      List.singleton_append] at hfree ⊢
    exact ih (fun hmem => hup (List.mem_cons_of_mem _ hmem))
      fun above hbelow => hfree above ((List.suffix_cons _ _).trans hbelow)

/-! ## Paths -/

/-- The location that a path is followed from. -/
def start (disk : Disk) (path : Path) : Location :=
  if path.isAbsolute then [] else disk.here

/-- The names that are followed along a path. -/
def steps (ending : Ending) (path : Path) : List String :=
  match ending with
  | .made => path.segments.filter (· != "")
  | _ => route path

/-- The path is neither empty nor too long. -/
def Usable (path : Path) : Prop :=
  path.isEmpty = false ∧ path.text.utf8ByteSize < pathLimit

theorem locate_eq_ok_iff {path : Path} {spot : Spot} :
    disk.locate ending path = .ok spot ↔
      Usable path ∧ Leads disk ending linkLimit (disk.start path) (steps ending path) spot := by
  rw [← pursue_eq_ok_iff]
  unfold locate Usable
  by_cases empty : path.isEmpty = true
  · simp [empty]
  · by_cases long : pathLimit ≤ path.text.utf8ByteSize
    · simp [empty, long, Nat.not_lt_of_le long]
    · simp only [empty, long, if_false, Nat.lt_of_not_le long, and_self, true_and]
      rfl

theorem find_eq_ok_iff {path : Path} {place : Location} {node : Node} :
    disk.find ending path = .ok (place, node) ↔
      disk.locate ending path = .ok (.occupied place node) := by
  unfold find
  split <;> simp_all

/-- What is found is what stands there. -/
theorem get?_of_find {path : Path} {place : Location} {node : Node}
    (h : disk.find ending path = .ok (place, node)) : disk.get? place = some node :=
  (locate_eq_ok_iff.mp (find_eq_ok_iff.mp h)).2.get?

theorem slash_not_mem_steps {path : Path} {segment : String} (h : segment ∈ steps ending path) :
    '/' ∉ segment.toList := by
  cases ending with
  | made => exact Path.slash_not_mem_segments (List.mem_filter.mp h).1
  | target | entry | written => exact slash_not_mem_route h

/-- A path goes on leading where it led. -/
theorem find_extend {disk' : Disk} (hextends : Extends disk disk') {path : Path} {place : Location}
    {node : Node} (h : disk.find ending path = .ok (place, node)) :
    ∃ node', disk'.find ending path = .ok (place, node') := by
  obtain ⟨usable, leads⟩ := locate_eq_ok_iff.mp (find_eq_ok_iff.mp h)
  obtain ⟨node', leads'⟩ := leads.extend hextends
  have same : disk'.start path = disk.start path := by simp [start, hextends.here]
  exact ⟨node', find_eq_ok_iff.mpr (locate_eq_ok_iff.mpr ⟨usable, same ▸ leads'⟩)⟩

theorem filter_steps {path : Path} :
    (steps ending path).filter (! Path.isIdle ·) = path.segments.filter (! Path.isIdle ·) := by
  have idleEmpty : Path.isIdle "" = true := rfl
  have inner : (path.segments.filter (· != "")).filter (! Path.isIdle ·) =
      path.segments.filter (! Path.isIdle ·) := by
    rw [List.filter_filter]
    apply List.filter_congr
    intro segment _
    by_cases empty : segment = "" <;> simp [empty, idleEmpty]
  cases ending with
  | made => exact inner
  | target | entry | written =>
    rw [steps, route, List.filter_append, inner]
    · split <;> simp [idleEmpty]
    · simp

theorem up_not_mem_steps {path : Path} (h : path.IsDirect) : ".." ∉ steps ending path := by
  have inSegments := h.up_not_mem_segments
  intro hmem
  cases ending with
  | made => exact inSegments (List.mem_filter.mp hmem).1
  | target | entry | written =>
    rcases List.mem_append.mp hmem with inPath | atEnd
    · exact inSegments (List.mem_filter.mp inPath).1
    · split at atEnd <;> simp at atEnd

/-- A direct path without links on the way leads to the location that its names say. -/
theorem place_eq_of_locate {path : Path} {spot : Spot} (h : disk.locate ending path = .ok spot)
    (hdirect : path.IsDirect) (hfree : disk.LinkFree [] path.location) :
    spot.place = path.location := by
  obtain ⟨-, leads⟩ := locate_eq_ok_iff.mp h
  have same : ((steps ending path).filter (! Path.isIdle ·)).reverse = path.location := by
    rw [filter_steps, ← hdirect.names_eq, Path.location]
  have root : disk.start path = [] := by simp [start, hdirect.absolute]
  rw [root] at leads
  have := leads.place_eq (up_not_mem_steps hdirect)
    (by rw [same, List.append_nil]; exact hfree)
  rwa [same, List.append_nil] at this

theorem find_of_kind {path : Path} (h : disk.kind path = .ok .directory) :
    ∃ place access, disk.find .target path = .ok (place, .directory access) := by
  cases hfind : disk.find .target path with
  | error e => simp [kind, hfind, Except.map] at h
  | ok found =>
    obtain ⟨place, node⟩ := found
    simp only [kind, hfind, Except.map, Except.ok.injEq, Node.kind_eq_directory] at h
    obtain ⟨access, rfl⟩ := h
    exact ⟨place, access, rfl⟩

/-- The entry at a path is of the kind of what the path leads to, or it is a link. -/
theorem entryKind_of_kind {path : Path} {kind : EntryKind} (h : disk.kind path = .ok kind) :
    disk.entryKind path = .ok kind ∨ disk.entryKind path = .ok .link := by
  unfold Disk.kind at h
  cases found : disk.find .target path with
  | error e => simp [found, Except.map] at h
  | ok reached =>
    obtain ⟨place, node⟩ := reached
    obtain rfl : node.kind = kind := by simpa [found, Except.map] using h
    obtain ⟨usable, leads⟩ := locate_eq_ok_iff.mp (find_eq_ok_iff.mp found)
    obtain ⟨place', node', leads', same⟩ := leads.entry_of_target
    have entry : disk.find .entry path = .ok (place', node') :=
      find_eq_ok_iff.mpr (locate_eq_ok_iff.mpr ⟨usable, leads'⟩)
    rw [entryKind, entry]
    rcases same with rfl | isLink
    · exact .inl rfl
    · exact .inr (congrArg Except.ok (Node.kind_eq_link.mpr isLink))

theorem list_eq_ok {path : Path} {names : List (String × EntryKind)}
    (h : disk.list path = .ok names) :
    ∃ place access, disk.find .target path = .ok (place, .directory access) ∧
      names = disk.names place := by
  unfold list at h
  split at h
  · simp at h
  · next place access found =>
    split at h
    · exact ⟨place, access, found, (Except.ok.inj h).symm⟩
    · simp at h
  · simp at h

/-- A directory that can be listed can be told from others. -/
theorem identify_of_list {path : Path} {names : List (String × EntryKind)}
    (h : disk.list path = .ok names) : ∃ target, disk.identify path = .ok target := by
  unfold list at h
  split at h
  · simp at h
  · next place access found =>
    split at h
    · next readable =>
      refine ⟨place.path, ?_⟩
      rw [identify, found]
      simp [Node.readable, readable]
    · simp at h
  · simp at h

/-- A directory of a file system lists proper names. -/
theorem WellFormed.isName_of_list (hdisk : disk.WellFormed) {path : Path}
    {names : List (String × EntryKind)} (h : disk.list path = .ok names) {item : String × EntryKind}
    (hmem : item ∈ names) : Path.IsName item.1 := by
  obtain ⟨place, access, -, rfl⟩ := list_eq_ok h
  obtain ⟨node, found, -⟩ := hdisk.mem_names.mp hmem
  exact hdisk.isName found

theorem WellFormed.nodup_of_list (hdisk : disk.WellFormed) {path : Path}
    {names : List (String × EntryKind)} (h : disk.list path = .ok names) :
    (names.map (·.1)).Nodup := by
  obtain ⟨place, access, -, rfl⟩ := list_eq_ok h
  exact hdisk.nodup_names place

end Disk

end Phrasebook
