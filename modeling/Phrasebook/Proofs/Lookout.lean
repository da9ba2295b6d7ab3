import Phrasebook.Proofs.Disk.Site
import Phrasebook.Proofs.Reached

/-!
# What a walk looks at

A walk that follows links asks about its root and about what is listed in the directories it reports,
and on the way to each of them it looks at locations. Main statement: to a walk that looks at nothing
which has changed, the tree looks as before.
-/

namespace Phrasebook

namespace Walk

/-- A walk asks about what these names lead to from the root: there are none, or but for the last one
    they lead to something that is reported and can be listed. -/
inductive AsksAbout (disk : Disk) (root : Path) : List String → Prop where
  | root : AsksAbout disk root []
  | child {names name kind listed} : Path.AreNames (names ++ [name]) →
      .entry ⟨root.descend names, kind⟩ ∈ events disk true root →
      disk.list (root.descend names) = .ok listed → AsksAbout disk root (names ++ [name])

/-- The walk looks at the location while it goes through the tree. -/
def LooksAt (disk : Disk) (root : Path) (seen : Location) : Prop :=
  ∃ names, AsksAbout disk root names ∧
    disk.Meets (disk.start root) (Disk.route root ++ names) seen

variable {disk now : Disk} {root : Path} {names : List String}

theorem AsksAbout.areNames (h : AsksAbout disk root names) : Path.AreNames names := by
  cases h with
  | root => exact Path.areNames_nil
  | child hnames => exact hnames

theorem LooksAt.sees {seen : Location} (h : LooksAt disk root seen) : disk.Sees root seen := by
  obtain ⟨names, asks, meets⟩ := h
  exact ⟨names, asks.areNames, meets⟩

/-- A walk asks about what it reports. -/
theorem asksAbout_of_mem_events (hdisk : disk.WellFormed) (hnames : Path.AreNames names)
    {kind : EntryKind} (h : .entry ⟨root.descend names, kind⟩ ∈ events disk true root) :
    AsksAbout disk root names := by
  rcases List.eq_nil_or_concat' names with rfl | ⟨init, last, rfl⟩
  · exact .root
  · obtain ⟨hinit, hlast⟩ := Path.areNames_append.mp hnames
    have inside := directory_of_mem_events hdisk hnames (by simp) h
    rw [← pruned_none, pruned] at h
    split at h
    · simp at h
    · have short := length_lt_of_mem_prunedFrom hdisk hnames h
      obtain ⟨-, -, listed, -, found, -⟩ := (mem_prunedFrom_snoc hdisk hinit
        (by simpa using hlast) (by simpa using short)).mp h
      exact .child hnames inside found

section

variable (hdisk : disk.WellFormed) (hnow : now.WellFormed) (hhere : now.here = disk.here)
  (hsame : ∀ seen, LooksAt disk root seen → now.get? seen = disk.get? seen)
include hhere hsame

/-- What the walk asks about leads to the same. -/
theorem AsksAbout.find_eq (h : AsksAbout disk root names) (ending : Ending)
    (hending : ending ≠ .made) :
    now.find ending (root.descend names) = disk.find ending (root.descend names) := by
  have located := Disk.locate_descend_congr h.areNames hhere
    (fun seen meets => hsame seen ⟨names, h, meets⟩) hending
  rw [Disk.find, Disk.find, located]

end

end Walk

end Phrasebook
