import Phrasebook.Proofs.Disk.Apart

/-!
# Going on from a directory

A path that leads to a directory can be gone on with names. Main statement: wherever the path came
along, the names are then followed from the directory it leads to, and as long as they meet with no
link they lead to where they say.
-/

namespace Phrasebook

namespace Disk

variable {disk : Disk} {ending : Ending}

/-- What names lead to behind a directory is what they lead to from there. -/
theorem Leads.pursue_append {links : Nat} {location place : Location} {before : List String}
    {node : Node} (h : Leads disk .target links location before (.occupied place node)) :
    ∃ fewer, ∀ ending more, more ≠ [] → ¬ (ending = .written ∧ more = [""]) →
      disk.pursue ending links location (before ++ more) =
        disk.pursue ending fewer place more := by
  generalize hspot : Spot.occupied place node = spot at h
  induction h with
  | stop =>
    obtain ⟨rfl, rfl⟩ := Spot.occupied.inj hspot
    exact ⟨_, fun _ _ _ _ => rfl⟩
  | vacant => simp at hspot
  | kept _ _ _ keeps => simp [Ending.keepsLink] at keeps
  | slash holds _ ih =>
    obtain ⟨fewer, later⟩ := ih hspot
    obtain ⟨access, found⟩ := holds
    refine ⟨fewer, fun ending more hne asked => ?_⟩
    rw [← later ending more hne asked, pursue_eq_trace]
    simp [trace, found]
  | dot enters _ ih =>
    obtain ⟨fewer, later⟩ := ih hspot
    obtain ⟨access, found, enter⟩ := enters
    refine ⟨fewer, fun ending more hne asked => ?_⟩
    rw [← later ending more hne asked, pursue_eq_trace]
    simp [trace, found, enter]
  | up enters _ ih =>
    obtain ⟨fewer, later⟩ := ih hspot
    obtain ⟨access, found, enter⟩ := enters
    refine ⟨fewer, fun ending more hne asked => ?_⟩
    rw [← later ending more hne asked, pursue_eq_trace]
    simp [trace, found, enter]
  | @follow links location name rest target spot enters fits link _ _ ih =>
    obtain ⟨fewer, later⟩ := ih hspot
    obtain ⟨access, found, enter⟩ := enters
    obtain ⟨notEmpty, notHere, notUp, -, short⟩ := fits
    refine ⟨fewer, fun ending more hne asked => ?_⟩
    have goesOn : rest ++ more ≠ [] := by simp [hne]
    have notAsked : ¬ (ending = .written ∧ rest ++ more = [""]) := by
      rintro ⟨written, same⟩
      rcases List.append_eq_singleton_iff.mp same with ⟨-, last⟩ | ⟨-, none⟩
      · exact asked ⟨written, last⟩
      · exact hne none
    rw [← later ending more hne asked, List.append_assoc, linkStart]
    simp [pursue, trace, found, enter, notEmpty, notHere, notUp, notAsked,
      Nat.not_lt_of_le short, link, goesOn]
  | @down links location name rest node spot enters fits present notLink _ ih =>
    obtain ⟨fewer, later⟩ := ih hspot
    obtain ⟨access, found, enter⟩ := enters
    obtain ⟨notEmpty, notHere, notUp, -, short⟩ := fits
    refine ⟨fewer, fun ending more hne asked => ?_⟩
    have notAsked : ¬ (ending = .written ∧ rest ++ more = [""]) := by
      rintro ⟨written, same⟩
      rcases List.append_eq_singleton_iff.mp same with ⟨-, last⟩ | ⟨-, none⟩
      · exact asked ⟨written, last⟩
      · exact hne none
    rw [← later ending more hne asked, pursue_eq_trace]
    cases node with
    | link target => simp at notLink
    | file | directory | device =>
      simp [trace, found, enter, notEmpty, notHere, notUp, notAsked, Nat.not_lt_of_le short,
        present]

/-- A slash at the end of a way asks for a directory and nothing else. -/
theorem Leads.of_slash {links : Nat} {location place : Location} {names : List String} {node : Node}
    (h : Leads disk .target links location (names ++ [""]) (.occupied place node)) :
    Leads disk .target links location names (.occupied place node) := by
  generalize hwhole : names ++ [""] = whole at h
  generalize hspot : Spot.occupied place node = spot at h ⊢
  induction h generalizing names with
  | stop => simp at hwhole
  | vacant => simp at hspot
  | kept _ _ _ keeps => simp [Ending.keepsLink] at keeps
  | slash holds leads ih =>
    cases names with
    | nil =>
      obtain ⟨-, rfl⟩ := List.cons_eq_cons.mp hwhole
      exact leads
    | cons name names =>
      obtain ⟨rfl, rest⟩ := List.cons_eq_cons.mp hwhole
      exact .slash holds (ih rest hspot)
  | dot enters _ ih =>
    cases names with
    | nil => simp at hwhole
    | cons name names =>
      obtain ⟨rfl, rest⟩ := List.cons_eq_cons.mp hwhole
      exact .dot enters (ih rest hspot)
  | up enters _ ih =>
    cases names with
    | nil => simp at hwhole
    | cons name names =>
      obtain ⟨rfl, rest⟩ := List.cons_eq_cons.mp hwhole
      exact .up enters (ih rest hspot)
  | follow enters fits link notKept leads ih =>
    cases names with
    | nil =>
      obtain ⟨same, -⟩ := List.cons_eq_cons.mp hwhole
      exact absurd same.symm fits.notEmpty
    | cons name names =>
      obtain ⟨rfl, rfl⟩ := List.cons_eq_cons.mp hwhole
      exact .follow enters fits.target link (by simp [Ending.keepsLink])
        (ih (List.append_assoc ..) hspot)
  | down enters fits present notLink _ ih =>
    cases names with
    | nil =>
      obtain ⟨same, -⟩ := List.cons_eq_cons.mp hwhole
      exact absurd same.symm fits.notEmpty
    | cons name names =>
      obtain ⟨rfl, rest⟩ := List.cons_eq_cons.mp hwhole
      exact .down enters fits.target present notLink (ih rest hspot)

/-- The path leads to the directory at a place. -/
def Opens (disk : Disk) (path : Path) (place : Location) : Prop :=
  ∃ access, Leads disk .target linkLimit (disk.start path) (path.segments.filter (· != ""))
    (.occupied place (.directory access))

theorem opens_of_find {path : Path} {place : Location} {access : Access}
    (h : disk.find .target path = .ok (place, .directory access)) : disk.Opens path place := by
  obtain ⟨-, leads⟩ := locate_eq_ok_iff.mp (find_eq_ok_iff.mp h)
  rw [steps, route] at leads
  split at leads
  · exact ⟨access, leads.of_slash⟩
  · rw [List.append_nil] at leads
    exact ⟨access, leads⟩
  · simp

theorem opens_of_kind {path : Path} (h : disk.kind path = .ok .directory) :
    ∃ place, disk.Opens path place := by
  obtain ⟨place, access, found⟩ := find_of_kind h
  exact ⟨place, opens_of_find found⟩

/-- A path leads to one directory at most. -/
theorem Opens.unique {path : Path} {place place' : Location} (h : disk.Opens path place)
    (h' : disk.Opens path place') : place = place' := by
  obtain ⟨access, leads⟩ := h
  obtain ⟨access', leads'⟩ := h'
  have same := (pursue_eq_ok_iff.mpr leads).symm.trans (pursue_eq_ok_iff.mpr leads')
  exact (Spot.occupied.inj (Except.ok.inj same)).1

theorem Opens.holds {path : Path} {place : Location} (h : disk.Opens path place) :
    disk.Holds place := by
  obtain ⟨access, leads⟩ := h
  exact ⟨access, leads.get?⟩

/-- The way to something below a directory that a path leads to goes on from the directory. -/
theorem Opens.locate_descend {root : Path} {top : Location} (h : disk.Opens root top) :
    ∃ links, ∀ ending names, Path.AreNames names → names ≠ [] →
      disk.locate ending (root.descend names) =
        if pathLimit ≤ (root.descend names).text.utf8ByteSize then .error .nameTooLong
        else disk.pursue ending links top names := by
  obtain ⟨access, leads⟩ := h
  obtain ⟨links, onward⟩ := leads.pursue_append
  refine ⟨links, fun ending names hnames hne => ?_⟩
  have way : steps ending (root.descend names) = root.segments.filter (· != "") ++ names := by
    cases ending with
    | made => exact filter_segments_descend root hnames
    | target | entry | written => exact route_descend hnames hne
  have nonempty : (root.descend names).isEmpty = false := by
    obtain ⟨init, last, rfl⟩ := (List.eq_nil_or_concat' names).resolve_left hne
    rw [Path.descend_append]
    exact Path.isEmpty_child _ (hnames last (by simp))
  have notAsked : ¬ (ending = .written ∧ names = [""]) := by
    rintro ⟨-, rfl⟩
    exact (Path.areNames_cons.mp hnames).1.notEmpty rfl
  rw [locate_eq_pursue, nonempty, start_descend disk root hnames, way, onward ending names hne
    notAsked]
  simp

/-- Proper names without links are followed in the same way whatever is wanted of the last one. -/
theorem Leads.straight {ending' : Ending} {links links' : Nat} {location : Location}
    {names : List String} {spot : Spot} (h : Leads disk ending links location names spot)
    (hnames : Path.AreNames names) (hfree : disk.LinkFree location (names.reverse ++ location)) :
    Leads disk ending' links' location names spot := by
  have refit {name : String} {rest : List String} (fits : Fits ending name rest)
      (hrest : Path.AreNames rest) : Fits ending' name rest := by
    refine ⟨fits.notEmpty, fits.notHere, fits.notUp, ?_, fits.short⟩
    rintro ⟨-, rfl⟩
    exact (Path.areNames_cons.mp hrest).1.notEmpty rfl
  have noLink {location : Location} {name : String} {rest : List String} {target : String}
      (hfree : disk.LinkFree location ((name :: rest).reverse ++ location))
      (link : disk.get? (name :: location) = some (.link target)) : False :=
    hfree (name :: location) (List.suffix_cons _ _) (by simp) _ link (Node.isLink_link target)
  induction h with
  | stop found => exact .stop found
  | vacant enters fits absent => exact .vacant enters (refit fits Path.areNames_nil) absent
  | kept _ _ link _ => exact (noLink hfree link).elim
  | slash => exact absurd rfl (Path.areNames_cons.mp hnames).1.notEmpty
  | dot => exact absurd rfl (Path.areNames_cons.mp hnames).1.notHere
  | up => exact absurd rfl (Path.areNames_cons.mp hnames).1.notUp
  | follow _ _ link _ _ _ => exact (noLink hfree link).elim
  | @down _ location name rest _ _ enters fits present notLink _ ih =>
    have hrest := (Path.areNames_cons.mp hnames).2
    have split : (name :: rest).reverse ++ location = rest.reverse ++ name :: location := by simp
    rw [split] at hfree
    refine .down enters (refit fits hrest) present notLink (ih hrest ?_)
    exact fun place above below => hfree place ((List.suffix_cons _ _).trans above) below

section

variable {root : Path} {top : Location} (h : disk.Opens root top) {names : List String}
  (hnames : Path.AreNames names) (hne : names ≠ [])
  (hfree : disk.LinkFree top (names.reverse ++ top))
include h hnames hne hfree

/-- Below a directory that a path leads to, names lead to where they say, unless they meet with a
    link. -/
theorem Opens.place_eq {spot : Spot} (hspot : disk.locate ending (root.descend names) = .ok spot) :
    spot.place = names.reverse ++ top := by
  obtain ⟨links, onward⟩ := h.locate_descend
  have notIdle : names.filter (! Path.isIdle ·) = names :=
    List.filter_eq_self.mpr fun name hmem => by simp [(hnames name hmem).isIdle]
  rw [onward ending names hnames hne] at hspot
  split at hspot
  · simp at hspot
  · have leads := pursue_eq_ok_iff.mp hspot
    have place := leads.place_eq (fun up => (hnames _ up).notUp rfl) (by rwa [notIdle])
    rwa [notIdle] at place

/-- Unless they meet with a link, it does not matter what is wanted of the last of the names. -/
theorem Opens.locate_eq_ok {ending' : Ending} {spot : Spot}
    (hspot : disk.locate ending (root.descend names) = .ok spot) :
    disk.locate ending' (root.descend names) = .ok spot := by
  obtain ⟨links, onward⟩ := h.locate_descend
  rw [onward ending names hnames hne] at hspot
  rw [onward ending' names hnames hne]
  split at hspot
  · simp at hspot
  · next short =>
    rw [if_neg short]
    exact pursue_eq_ok_iff.mpr ((pursue_eq_ok_iff.mp hspot).straight hnames hfree)

end

end Disk

end Phrasebook
