import Phrasebook.Command.Run
import Phrasebook.Proofs.Walk

/-!
# What a run writes

A run writes to the output directory and what is below it, to the catalog file, and to the
directories above both. Main statement: whatever the disk, the plan and the operator, a run grows the
disk along those paths only.
-/

namespace Phrasebook

namespace Session

variable {σ τ ε : Type} {allowed : Path → Node → Prop}

/-! ## Walks -/

theorem within_sameDirectory (target : Path) (ancestors : List Path) :
    Within allowed (Walk.sameDirectory target ancestors : Session σ _) fun _ => True := by
  induction ancestors with
  | nil => exact within_pure trivial
  | cons ancestor ancestors ih =>
    rw [Walk.sameDirectory]
    refine (within_identify ancestor).bind fun found _ => ?_
    split
    · exact within_pure trivial
    · split
      · exact within_pure trivial
      · exact ih

theorem within_followLink (ancestors : List Path) (link : Path) :
    Within allowed (Walk.followLink ancestors link : Session σ _) fun _ => True := by
  rw [Walk.followLink]
  refine (within_kind link).bind fun kind _ => ?_
  split
  · exact within_pure trivial
  · refine (within_identify link).bind fun identity _ => ?_
    split
    · exact within_pure trivial
    · refine (within_sameDirectory _ ancestors).bind fun same _ => ?_
      split <;> exact within_pure trivial
  · exact within_pure trivial

theorem within_resolveKind (follow : Bool) (ancestors : List Path) (path : Path)
    (kind : EntryKind) :
    Within allowed (Walk.resolveKind follow ancestors path kind : Session σ _) fun _ => True := by
  rw [Walk.resolveKind]
  split
  · exact within_followLink ancestors path
  · exact within_pure trivial

theorem within_goesInto (ancestors : List Path) (path : Path) (kind : EntryKind) :
    Within allowed (Walk.goesInto ancestors path kind : Session σ _) fun _ => True := by
  rw [Walk.goesInto]
  split
  · exact within_pure trivial
  · split
    · exact (within_kind path).bind fun _ _ => within_pure trivial
    · exact within_pure trivial

section

variable {root : Path} {visit : τ → Walk.Event → Session σ (τ × Walk.Flow)} {keeps : τ → Prop}
  (hvisit : ∀ state event, keeps state → event.Below root →
    Within allowed (visit state event) fun result => keeps result.1)
include hvisit

theorem within_report {event : Walk.Event} (hevent : event.Below root) {state : τ}
    (hstate : keeps state) :
    Within allowed (Walk.report visit event state) fun progress => keeps progress.state :=
  (rules σ allowed).report keeps (hvisit state event hstate hevent)

/-- A walk does to the disk what its visitor does. -/
theorem within_walkEntry (follow : Bool) (depth : Nat) (ancestors : List Path)
    {names : List String} (hnames : Path.AreNames names) (kind : EntryKind) {state : τ}
    (hstate : keeps state) :
    Within allowed (Walk.walkEntry follow visit depth ancestors (root.descend names) kind state)
      fun progress => keeps progress.state := by
  induction depth generalizing ancestors names kind state with
  | zero => exact within_report hvisit (by simp) hstate
  | succ depth ih =>
    have entry : ∀ kind, (Walk.Event.entry ⟨root.descend names, kind⟩).Below root :=
      fun _ => ⟨names, hnames, rfl⟩
    rw [Walk.walkEntry]
    refine (within_resolveKind follow ancestors _ kind).bind fun resolved _ => ?_
    split
    · exact within_report hvisit (by simp) hstate
    refine (within_goesInto ancestors _ _).bind fun inside _ => ?_
    split
    · exact within_report hvisit (by simp) hstate
    · exact within_report hvisit (entry _) hstate
    refine (within_list _).bind fun listed hlisted => ?_
    refine (hvisit state _ hstate (entry _)).bind fun visited hvisited => ?_
    obtain ⟨state', flow⟩ := visited
    simp only
    split
    · exact within_pure hvisited
    · exact within_pure hvisited
    · exact within_report hvisit (by simp) hvisited
    · next items =>
      refine (rules σ allowed).inTurn keeps (fun item hmem other hother => ?_) hvisited
      have hname := hlisted items rfl item (Walk.mem_sortByName.mp hmem)
      have hnames' : Path.AreNames (names ++ [item.1]) := by simp [hnames, hname]
      have := ih (root.descend names :: ancestors) hnames' item.2 hother
      rwa [Path.descend_append] at this

variable (keeps) in
theorem within_walk (follow : Bool) {state : τ} (hstate : keeps state) :
    Within allowed (Walk.walk follow root visit state) fun progress => keeps progress.state := by
  rw [Walk.walk]
  refine (within_entryKind root).bind fun kind _ => ?_
  split
  · exact within_report hvisit (by simp) hstate
  · exact within_walkEntry hvisit follow _ [] Path.areNames_nil _ hstate

end

/-! ## The parts of a run -/

/-- The job is to copy an entry below the source to where it belongs in the copy. -/
def IsJob (source destination : Path) (job : TreeCopy.Job) : Prop :=
  ∃ names, Path.AreNames names ∧ job.source = source.descend names ∧
    job.target = destination.descend names

theorem within_onEvent_copy {source destination : Path}
    (hpaths : ∀ names, Path.AreNames names →
      ∀ above, Path.Above above (destination.descend names) → allowed above (.directory .full))
    (state : TreeCopy.State) {event : Walk.Event} (hevent : event.Below source) :
    Within allowed (TreeCopy.onEvent source destination state event : Session σ _)
      fun result => ∀ job ∈ result.1.jobs, job ∈ state.jobs ∨ IsJob source destination job := by
  cases event with
  | trouble trouble => exact within_pure fun _ => .inl
  | entry entry =>
    obtain ⟨names, hnames, hpath⟩ := hevent
    have jobs := (rules σ allowed).onEvent_copy within_kind hnames hpath
      (fun _ above habove => within_makeDirectory (hpaths names hnames above habove)) state
    intro now hdisk
    obtain ⟨grows, hjobs⟩ := jobs now hdisk
    refine ⟨grows, fun job hmem => ?_⟩
    exact (hjobs job hmem).imp_right fun ⟨_, source, target⟩ => ⟨names, hnames, source, target⟩

theorem within_copyTree {source destination : Path}
    (hpaths : ∀ names, Path.AreNames names →
      ∀ above, Path.Above above (destination.descend names) → allowed above (.directory .full))
    (hfiles : ∀ names, Path.AreNames names →
      ∀ node, node.IsFile → allowed (destination.descend names) node) :
    Within allowed (copyTree source destination : Session σ _) fun _ => True := by
  rw [copyTree]
  refine (within_walk (fun state => ∀ job ∈ state.jobs, IsJob source destination job)
    (fun state event hstate hevent => (within_onEvent_copy hpaths state hevent).mono
      fun _ hjobs job hmem => (hjobs job hmem).elim (hstate job) id) true
    (by simp)).bind fun progress hjobs => ?_
  refine (rules σ allowed).copyAll (fun job hmem => within_copy job.source ?_) _
  obtain ⟨names, hnames, -, htarget⟩ := hjobs job hmem
  exact htarget ▸ hfiles names hnames

theorem within_localizeAll {root : Path} {replacements : List Replacement} {files : List Path}
    (hfiles : ∀ path ∈ files, ∀ node, node.IsFile → allowed path node) (done : Localized) :
    Within allowed (Localization.localizeAll root replacements files done : Session σ _)
      fun _ => True := by
  induction files generalizing done with
  | nil => exact within_pure trivial
  | cons path files ih =>
    have ih := ih fun other hmem => hfiles other (List.mem_cons_of_mem _ hmem)
    have one : Within allowed (Localization.localizeFile root replacements path : Session σ _)
        fun _ => True := by
      rw [Localization.localizeFile]
      refine (within_read path).bind fun bytes _ => ?_
      split
      · exact within_pure trivial
      split
      · exact within_pure trivial
      split
      · exact within_pure trivial
      · refine (within_write (hfiles path List.mem_cons_self) _).bind fun written _ => ?_
        split <;> exact within_pure trivial
    rw [Localization.localizeAll]
    exact one.bind fun outcome _ => ih _

theorem within_localizeTree {root : Path} (catalog : Catalog) (table : String)
    (hfiles : ∀ names, Path.AreNames names →
      ∀ node, node.IsFile → allowed (root.descend names) node) :
    Within allowed (localizeTree root catalog table : Session σ _) fun _ => True := by
  have hvisit : ∀ found event, (∀ path ∈ found.files, ∀ node, node.IsFile → allowed path node) →
      event.Below root →
      Within allowed (Localization.onEvent root found event : Session σ _)
        fun result => ∀ path ∈ result.1.files, ∀ node, node.IsFile → allowed path node := by
    intro found event hfound hevent
    cases event with
    | trouble trouble => exact within_pure hfound
    | entry entry =>
      obtain ⟨names, hnames, hpath⟩ := hevent
      rw [Localization.onEvent]
      split
      · refine within_pure fun path hmem => ?_
        rcases List.mem_append.mp hmem with before | last
        · exact hfound path before
        · obtain rfl := List.mem_singleton.mp last
          exact hpath ▸ hfiles names hnames
      · exact within_pure hfound
  rw [localizeTree]
  refine (within_walk (fun found => ∀ path ∈ found.files, ∀ node, node.IsFile → allowed path node)
    hvisit false (by simp)).bind fun progress hfound => ?_
  simp only
  split
  · exact within_pure trivial
  · exact within_localizeAll hfound _

theorem within_write_catalog (plan : Plan) (bytes : ByteArray)
    (hfile : ∀ node, node.IsFile → allowed plan.catalogFile node) :
    Within allowed (do
      match ← Storage.write plan.catalogFile bytes with
      | .ok () => pure (.ok ())
      | .error e => pure (.error (.catalogUnwritable plan.catalogFile e)) :
      Session σ (Except Failure Unit)) fun _ => True := by
  refine (within_write hfile bytes).bind fun result _ => ?_
  split <;> exact within_pure trivial

theorem within_writeCatalog (plan : Plan) (catalog : Catalog)
    (hpaths : ∀ above, Path.Above above plan.catalogFile → ∀ node, allowed above node) :
    Within allowed (Command.writeCatalog plan catalog : Session σ _) fun _ => True := by
  have written := @within_write_catalog σ allowed plan
    (catalog.toLua plan.table plan.locale).toUTF8 fun node _ => hpaths _ .refl node
  rw [Command.writeCatalog]
  split
  · next parent hparent =>
    refine (within_makeDirectories fun above habove =>
      hpaths above (.parent hparent habove) _).bind fun made _ => ?_
    split
    · exact within_pure trivial
    · exact written
  · exact written

theorem within_survey {visit : τ → String → String → Session σ (τ × Option ε)}
    (hvisit : ∀ kept file text, Within allowed (visit kept file text) fun _ => True) (root : Path)
    (filter : Filter) (kept : τ) :
    Within allowed (survey root filter visit kept) fun _ => True := by
  refine (rules σ allowed).survey (fun state => within_walk (fun _ => True) ?_ true trivial) kept
  intro state event _ _
  exact (rules σ allowed).onEvent_survey hvisit (fun entry _ => within_read entry.path) root filter
    state

section

variable {confirm : Request → Session σ (Except ε Bool)}
  (hconfirm : ∀ request state, (exec (confirm request) state).2.disk = state.disk)
include hconfirm

theorem within_reviewTree (root : Path) (filter : Filter) (asked : Asked) :
    Within allowed (reviewTree confirm root filter asked) fun _ => True :=
  (rules σ allowed).reviewTree (fun request => within_of_keeps (hconfirm request))
    (fun _ kept hvisit => within_survey hvisit root filter kept) asked

end

end Session

/-- The paths that a run writes to: those of the output directory and of what is below it, that of
    the catalog file, and those above them. -/
def Plan.Writes (plan : Plan) (path : Path) : Prop :=
  (∃ names, Path.AreNames names ∧ Path.Above path (plan.outputDir.descend names)) ∨
    Path.Above path plan.catalogFile

/-- A run grows the disk along the paths it writes to. -/
theorem Session.within_carryOut {σ ε : Type} {confirm : Request → Session σ (Except ε Bool)}
    (hconfirm : ∀ request state, (exec (confirm request) state).2.disk = state.disk)
    (lift : Failure → ε) (plan : Plan) :
    Within (fun path _ => plan.Writes path) (Command.carryOut lift confirm plan)
      fun _ => True := by
  rw [Command.carryOut]
  refine (within_reviewTree hconfirm _ _ _).bind fun reviewed _ => ?_
  obtain ⟨asked, reviewed⟩ := reviewed
  refine (within_copyTree (fun names hnames above habove => .inl ⟨names, hnames, habove⟩)
    fun names hnames _ _ => .inl ⟨names, hnames, .refl⟩).bind fun copied _ => ?_
  cases reviewed with
  | error e => exact within_pure trivial
  | ok reviewed =>
    refine (within_localizeTree _ _ fun names hnames _ _ =>
      .inl ⟨names, hnames, .refl⟩).bind fun localized _ => ?_
    refine (within_writeCatalog plan _ fun above habove _ => .inr habove).bind
      fun written _ => ?_
    split <;> exact within_pure trivial

end Phrasebook
