import Phrasebook.Proofs.Disk.Leads

/-!
# Trees that keep apart

While a path is followed, locations are looked at. Main statement: a tree whose paths look at nothing
that a copy to some location may take reads the same before, during and after the copy.
-/

namespace Phrasebook

namespace Disk

/-- Following names from a location, links included, the other location is looked at. -/
inductive Meets (disk : Disk) : Location → List String → Location → Prop where
  | here {location names} : Meets disk location names location
  | entry {location name rest} : Meets disk location (name :: rest) (name :: location)
  | idle {location name rest seen} : Path.isIdle name = true → Meets disk location rest seen →
      Meets disk location (name :: rest) seen
  | up {location rest seen} : Meets disk location.tail rest seen →
      Meets disk location (".." :: rest) seen
  | down {location name rest seen} : disk.Holds (name :: location) →
      Meets disk (name :: location) rest seen → Meets disk location (name :: rest) seen
  | link {location name rest target seen} : disk.get? (name :: location) = some (.link target) →
      Meets disk (linkStart location target) (route ⟨target⟩ ++ rest) seen →
      Meets disk location (name :: rest) seen

/-- A place on the way to or below the location. -/
def Along (output place : Location) : Prop :=
  place <:+ output ∨ output <:+ place

theorem along_of_suffix_append {place output : Location} {more : List String}
    (h : place <:+ more ++ output) : Along output place :=
  List.suffix_or_suffix_of_suffix h (List.suffix_append more output)

/-- The place is free to be taken by a copy to `output`: nothing stands there, and it is on the way
    to `output` or below it. -/
def Free (disk : Disk) (output place : Location) : Prop :=
  Along output place ∧ disk.get? place = none

/-- The tree at a path keeps apart from a location: wherever names lead from there, links included,
    the way never asks for something that is missing on the way to the location or below it. -/
def Apart (disk : Disk) (root : Path) (output : Location) : Prop :=
  ∀ names, Path.AreNames names → ∀ seen,
    disk.Meets (disk.start root) (route root ++ names) seen → ¬ disk.Free output seen

/-- Both disks have the same nodes but for the places that are free for a copy to `output`. -/
structure Agrees (output : Location) (disk disk' : Disk) : Prop where
  here : disk'.here = disk.here
  same : ∀ place, ¬ disk.Free output place → disk'.get? place = disk.get? place

variable {disk disk' : Disk} {ending : Ending}

theorem trace_of_not_holds {follow : Location → List String → Except OsError Spot}
    {location : Location} {node : Node} {names : List String}
    (found : disk.get? location = some node) (hnot : ¬ node.IsDirectory) :
    disk.trace ending follow location names =
      if names = [] then .ok (.occupied location node) else .error .notDirectory := by
  cases names with
  | nil => rw [trace, found, if_pos rfl]
  | cons name rest =>
    rw [trace, found, if_neg (List.cons_ne_nil name rest)]
    cases node with
    | directory access => simp at hnot
    | file | link | device => rfl

theorem trace_congr {follow follow' : Location → List String → Except OsError Spot}
    (hfollow : ∀ location names, (∀ seen, disk.Meets location names seen →
      disk'.get? seen = disk.get? seen) → follow' location names = follow location names)
    {location : Location} {names : List String}
    (h : ∀ seen, disk.Meets location names seen → disk'.get? seen = disk.get? seen) :
    disk'.trace ending follow' location names = disk.trace ending follow location names := by
  induction names generalizing location with
  | nil => rw [trace, trace, h location .here]
  | cons name rest ih =>
    have here := h location .here
    have entry := h (name :: location) .entry
    have idle : Path.isIdle name = true →
        disk'.trace ending follow' location rest = disk.trace ending follow location rest :=
      fun hidle => ih fun seen meets => h seen (.idle hidle meets)
    cases found : disk.get? location with
    | none => rw [trace, trace, here, found]
    | some node =>
      by_cases directory : node.IsDirectory
      · obtain ⟨access, rfl⟩ := directory
        rw [trace, trace, here, found]
        simp only
        refine ite_congr rfl (fun empty => idle ?_) fun _ => ?_
        · simp [empty, Path.isIdle, Path.ofSegment?_empty]
        refine ite_congr rfl (fun _ => rfl) fun _ => ?_
        refine ite_congr rfl (fun dot => idle ?_) fun _ => ?_
        · subst dot
          rfl
        refine ite_congr rfl (fun up => ?_) fun _ => ?_
        · subst up
          exact ih fun seen meets => h seen (.up meets)
        refine ite_congr rfl (fun _ => rfl) fun _ => ?_
        refine ite_congr rfl (fun _ => rfl) fun _ => ?_
        rw [entry]
        cases there : disk.get? (name :: location) with
        | none => rfl
        | some between =>
          cases between with
          | link target =>
            simp only
            split
            · rfl
            · exact hfollow _ _ fun seen meets => h seen (.link there meets)
          | directory access' =>
            exact ih fun seen meets => h seen (.down ⟨access', there⟩ meets)
          | file content access' =>
            simp only
            rw [trace_of_not_holds (entry.trans there) (by simp),
              trace_of_not_holds there (by simp)]
          | device =>
            simp only
            rw [trace_of_not_holds (entry.trans there) (by simp),
              trace_of_not_holds there (by simp)]
      · rw [trace_of_not_holds (here.trans found) directory, trace_of_not_holds found directory]

/-- Names lead to the same on disks that agree on all that is looked at. -/
theorem pursue_congr {links : Nat} {location : Location} {names : List String}
    (h : ∀ seen, disk.Meets location names seen → disk'.get? seen = disk.get? seen) :
    disk'.pursue ending links location names = disk.pursue ending links location names := by
  induction links generalizing location names with
  | zero => exact trace_congr (fun _ _ _ => rfl) h
  | succ links ih => exact trace_congr (fun _ _ agree => ih agree) h

theorem Enters.holds {location : Location} (h : disk.Enters location) : disk.Holds location :=
  let ⟨access, found, _⟩ := h
  ⟨access, found⟩

/-- Names are followed from a directory. -/
theorem Leads.holds_of_ne_nil {links : Nat} {location : Location} {names : List String}
    {spot : Spot} (h : Leads disk ending links location names spot) (hne : names ≠ []) :
    disk.Holds location := by
  cases h with
  | stop => exact absurd rfl hne
  | slash holds _ => exact holds
  | dot enters | up enters | vacant enters | kept enters | follow enters | down enters =>
    exact enters.holds

/-- Names that lead to a directory start from one. -/
theorem Leads.holds {links : Nat} {location place : Location} {names : List String} {node : Node}
    (h : Leads disk ending links location names (.occupied place node)) (hnode : node.IsDirectory) :
    disk.Holds location := by
  by_cases hne : names = []
  · subst hne
    obtain ⟨access, rfl⟩ := hnode
    cases h with
    | stop found => exact ⟨access, found⟩
  · exact h.holds_of_ne_nil hne

/-- The place that names lead to is looked at. -/
theorem Leads.meets_place {links : Nat} {location : Location} {names : List String} {spot : Spot}
    (h : Leads disk ending links location names spot) : disk.Meets location names spot.place := by
  induction h with
  | stop => exact .here
  | vacant => exact .entry
  | kept => exact .entry
  | slash _ _ ih => exact .idle rfl ih
  | dot _ _ ih => exact .idle rfl ih
  | up _ _ ih => exact .up ih
  | follow _ _ link _ _ ih => exact .link link ih
  | @down _ _ _ rest _ _ _ _ _ _ leads ih =>
    by_cases hne : rest = []
    · subst hne
      cases leads with
      | stop => exact .entry
    · exact .down (leads.holds_of_ne_nil hne) ih

/-- What is looked at from a directory that names lead to is looked at when the names go on. -/
theorem Leads.meets {links : Nat} {location place : Location} {names more : List String}
    {node : Node} {seen : Location}
    (h : Leads disk .target links location names (.occupied place node)) (hnode : node.IsDirectory)
    (hmeets : disk.Meets place more seen) : disk.Meets location (names ++ more) seen := by
  generalize hspot : Spot.occupied place node = spot at h
  induction h with
  | stop =>
    obtain ⟨rfl, rfl⟩ := Spot.occupied.inj hspot
    exact hmeets
  | vacant => simp at hspot
  | kept _ _ _ keeps => simp [Ending.keepsLink] at keeps
  | slash _ _ ih => exact .idle rfl (ih hspot)
  | dot _ _ ih => exact .idle rfl (ih hspot)
  | up _ _ ih => exact .up (ih hspot)
  | follow _ _ link _ _ ih =>
    have later := ih hspot
    rw [List.append_assoc] at later
    exact .link link later
  | down _ _ _ _ leads ih =>
    subst hspot
    exact .down (leads.holds hnode) (ih rfl)

/-- An empty name among the names that are followed hides nothing. -/
theorem Meets.pad {location seen : Location} {before after : List String}
    (h : disk.Meets location (before ++ after) seen) :
    disk.Meets location (before ++ "" :: after) seen := by
  generalize hnames : before ++ after = names at h
  induction h generalizing before with
  | here => exact .here
  | @entry location name rest =>
    cases before with
    | nil =>
      rw [List.nil_append] at hnames ⊢
      exact hnames ▸ .idle rfl .entry
    | cons first before =>
      obtain ⟨rfl, -⟩ := List.cons_eq_cons.mp hnames
      exact .entry
  | idle hidle meets ih =>
    cases before with
    | nil =>
      rw [List.nil_append] at hnames ⊢
      exact hnames ▸ .idle rfl (.idle hidle meets)
    | cons first before =>
      obtain ⟨rfl, tails⟩ := List.cons_eq_cons.mp hnames
      exact .idle hidle (ih tails)
  | up meets ih =>
    cases before with
    | nil =>
      rw [List.nil_append] at hnames ⊢
      exact hnames ▸ .idle rfl (.up meets)
    | cons first before =>
      obtain ⟨rfl, tails⟩ := List.cons_eq_cons.mp hnames
      exact .up (ih tails)
  | down holds meets ih =>
    cases before with
    | nil =>
      rw [List.nil_append] at hnames ⊢
      exact hnames ▸ .idle rfl (.down holds meets)
    | cons first before =>
      obtain ⟨rfl, tails⟩ := List.cons_eq_cons.mp hnames
      exact .down holds (ih tails)
  | @link _ _ rest target _ found meets ih =>
    cases before with
    | nil =>
      rw [List.nil_append] at hnames ⊢
      exact hnames ▸ .idle rfl (.link found meets)
    | cons first before =>
      obtain ⟨rfl, rfl⟩ := List.cons_eq_cons.mp hnames
      have later := @ih (route ⟨target⟩ ++ before) (List.append_assoc ..)
      rw [List.append_assoc] at later
      exact .link found later

theorem filter_segments_descend (root : Path) {names : List String}
    (hnames : Path.AreNames names) :
    (root.descend names).segments.filter (· != "") = root.segments.filter (· != "") ++ names := by
  induction names generalizing root with
  | nil => simp
  | cons name names ih =>
    obtain ⟨hname, hnames⟩ := Path.areNames_cons.mp hnames
    obtain ⟨stem, hchild, hsegments, -⟩ := Path.exists_segments_child root
    have : root.segments.filter (· != "") = stem.filter (· != "") := by
      rcases hsegments with same | same <;> simp [same]
    rw [Path.descend_cons, ih _ hnames, hchild name hname, this]
    simp [hname.notEmpty]

theorem endsInSlash_descend {root : Path} {names : List String} (hnames : Path.AreNames names)
    (hne : names ≠ []) : (root.descend names).endsInSlash = false := by
  rcases List.eq_nil_or_concat' names with rfl | ⟨init, last, rfl⟩
  · exact absurd rfl hne
  · rw [Path.descend_append]
    exact Path.endsInSlash_child (hnames last (by simp))

theorem route_descend {root : Path} {names : List String} (hnames : Path.AreNames names)
    (hne : names ≠ []) :
    route (root.descend names) = root.segments.filter (· != "") ++ names := by
  rw [route, filter_segments_descend root hnames, endsInSlash_descend hnames hne]
  simp

/-- What is looked at along the path of an entry is looked at along the path of the root and then
    the names. -/
theorem meets_route_descend {root : Path} {names more : List String} {location seen : Location}
    (hnames : Path.AreNames names)
    (h : disk.Meets location (route (root.descend names) ++ more) seen) :
    disk.Meets location (route root ++ (names ++ more)) seen := by
  by_cases hne : names = []
  · subst hne
    exact h
  · rw [route_descend hnames hne, List.append_assoc] at h
    rw [route]
    split
    · rw [List.append_assoc]
      exact h.pad
    · simpa using h

theorem locate_eq_pursue (disk : Disk) (ending : Ending) (path : Path) :
    disk.locate ending path =
      if path.isEmpty then .error .noEntry
      else if pathLimit ≤ path.text.utf8ByteSize then .error .nameTooLong
      else disk.pursue ending linkLimit (disk.start path) (steps ending path) := rfl

theorem start_descend (disk : Disk) (root : Path) {names : List String}
    (hnames : Path.AreNames names) : disk.start (root.descend names) = disk.start root := by
  rw [start, start, Path.isAbsolute_descend root hnames]

/-- A path below the root leads to the same on disks that agree on all that it looks at. -/
theorem locate_descend_congr {root : Path} {names : List String} (hnames : Path.AreNames names)
    (hhere : disk'.here = disk.here)
    (hsame : ∀ seen, disk.Meets (disk.start root) (route root ++ names) seen →
      disk'.get? seen = disk.get? seen) (hending : ending ≠ .made) :
    disk'.locate ending (root.descend names) = disk.locate ending (root.descend names) := by
  have agree : ∀ seen, disk.Meets (disk.start root) (route (root.descend names)) seen →
      disk'.get? seen = disk.get? seen := by
    intro seen meets
    refine hsame seen ?_
    have := @meets_route_descend disk root names [] _ seen hnames (by rwa [List.append_nil])
    rwa [List.append_nil] at this
  have start' : disk'.start (root.descend names) = disk.start root := by
    rw [start, hhere, ← start_descend disk root hnames, start]
  have steps' : steps ending (root.descend names) = route (root.descend names) := by
    cases ending with
    | made => exact absurd rfl hending
    | target | entry | written => rfl
  rw [locate_eq_pursue, locate_eq_pursue, start', start_descend disk root hnames, steps',
    pursue_congr agree]

/-- Some path at or below the root looks at the location. -/
def Sees (disk : Disk) (root : Path) (seen : Location) : Prop :=
  ∃ names, Path.AreNames names ∧ disk.Meets (disk.start root) (route root ++ names) seen

/-- What a path at or below the root leads to is looked at. -/
theorem meets_of_find {root : Path} {names : List String} (hnames : Path.AreNames names)
    {place : Location} {node : Node} (h : disk.find .target (root.descend names) = .ok (place, node)) :
    disk.Meets (disk.start root) (route root ++ names) place := by
  obtain ⟨-, leads⟩ := locate_eq_ok_iff.mp (find_eq_ok_iff.mp h)
  rw [start_descend disk root hnames] at leads
  have meets : disk.Meets (disk.start root) (route (root.descend names) ++ []) place := by
    rw [List.append_nil]
    exact leads.meets_place
  have := meets_route_descend hnames meets
  rwa [List.append_nil] at this

theorem sees_of_find {root : Path} {names : List String} (hnames : Path.AreNames names)
    {place : Location} {node : Node} (h : disk.find .target (root.descend names) = .ok (place, node)) :
    disk.Sees root place :=
  ⟨names, hnames, meets_of_find hnames h⟩

/-- What has a name in a directory below the root is looked at. -/
theorem meets_entry {root : Path} {names : List String} (hnames : Path.AreNames names)
    {place : Location} {access : Access}
    (h : disk.find .target (root.descend names) = .ok (place, .directory access)) (name : String) :
    disk.Meets (disk.start root) (route root ++ (names ++ [name])) (name :: place) := by
  obtain ⟨-, leads⟩ := locate_eq_ok_iff.mp (find_eq_ok_iff.mp h)
  rw [start_descend disk root hnames] at leads
  have entry : disk.Meets place [name] (name :: place) := .entry
  exact meets_route_descend hnames (leads.meets (by simp) entry)

/-- The entries of a directory below the root are looked at. -/
theorem sees_entry {root : Path} {names : List String} (hnames : Path.AreNames names)
    {place : Location} {access : Access}
    (h : disk.find .target (root.descend names) = .ok (place, .directory access)) {name : String}
    (hname : Path.IsName name) : disk.Sees root (name :: place) :=
  ⟨names ++ [name], by simp [hnames, hname], meets_entry hnames h name⟩

/-- Both disks have the same nodes wherever paths at and below the root look. -/
structure AgreesBelow (root : Path) (disk disk' : Disk) : Prop where
  here : disk'.here = disk.here
  same : ∀ seen, disk.Sees root seen → disk'.get? seen = disk.get? seen

namespace AgreesBelow

variable {root : Path} (h : AgreesBelow root disk disk') {names : List String}
  (hnames : Path.AreNames names)
include h hnames

theorem locate_eq (hending : ending ≠ .made) :
    disk'.locate ending (root.descend names) = disk.locate ending (root.descend names) :=
  locate_descend_congr hnames h.here (fun seen meets => h.same seen ⟨names, hnames, meets⟩) hending

theorem find_eq (hending : ending ≠ .made) :
    disk'.find ending (root.descend names) = disk.find ending (root.descend names) := by
  rw [find, find, h.locate_eq hnames hending]

theorem kind_eq : disk'.kind (root.descend names) = disk.kind (root.descend names) := by
  rw [kind, kind, h.find_eq hnames (by simp)]

theorem entryKind_eq :
    disk'.entryKind (root.descend names) = disk.entryKind (root.descend names) := by
  rw [entryKind, entryKind, h.find_eq hnames (by simp)]

theorem identify_eq :
    disk'.identify (root.descend names) = disk.identify (root.descend names) := by
  rw [identify, identify, h.find_eq hnames (by simp)]

theorem read_eq : disk'.read (root.descend names) = disk.read (root.descend names) := by
  rw [read, read, h.find_eq hnames (by simp)]

end AgreesBelow

section

variable {root : Path} {output : Location} (hapart : disk.Apart root output)
include hapart

/-- Nothing that paths below the root look at is free. -/
theorem Apart.not_free {place : Location} (h : disk.Sees root place) : ¬ disk.Free output place := by
  obtain ⟨names, hnames, meets⟩ := h
  exact hapart names hnames place meets

theorem Apart.agreesBelow (hagrees : Agrees output disk disk') : AgreesBelow root disk disk' :=
  ⟨hagrees.here, fun seen hseen => hagrees.same seen (hapart.not_free hseen)⟩

end

/-- As long as no link is on the way, proper names lead straight down. -/
theorem Meets.suffix {location seen : Location} {names : List String}
    (h : disk.Meets location names seen) (hnames : Path.AreNames names)
    (hfree : disk.LinkFree location (names.reverse ++ location)) :
    seen <:+ names.reverse ++ location := by
  induction h with
  | here => exact List.suffix_append _ _
  | entry => simp
  | idle idle => simp [(Path.areNames_cons.mp hnames).1.isIdle] at idle
  | up => exact absurd rfl (Path.areNames_cons.mp hnames).1.notUp
  | @down location name rest seen _ _ ih =>
    have split : (name :: rest).reverse ++ location = rest.reverse ++ name :: location := by simp
    rw [split] at hfree ⊢
    exact ih (Path.areNames_cons.mp hnames).2 fun place above below =>
      hfree place ((List.suffix_cons _ _).trans above) below
  | @link location name rest target seen found _ _ =>
    have onWay : name :: location <:+ (name :: rest).reverse ++ location := by simp
    exact absurd (Node.isLink_link target) (hfree _ (List.suffix_cons _ _) onWay _ found)

end Disk

end Phrasebook
