import Phrasebook.Proofs.TreeCopy

/-!
# The log of a copy

While a tree is walked through for a copy, directories are made or refused and files are noted. Here
it is said once what an event can do to the log of that. Main statement: after any part of the walk the
log holds each directory and each file that has been reported outside of all refused directories, and
none of them twice.
-/

namespace Phrasebook

/-! ## The order of a walk -/

namespace Walk

variable {disk : Disk} {follow : Bool} {root : Path} {before after : List Event}
  {names others : List String} {kind kind' : EntryKind}

/-- What has been reported before an entry comes before it in the order of names. -/
theorem lt_of_mem_before (hdisk : disk.WellFormed)
    (hsplit : events disk follow root = before ++ .entry ⟨root.descend names, kind⟩ :: after)
    (hnames : Path.AreNames names) (hothers : Path.AreNames others)
    (hmem : .entry ⟨root.descend others, kind'⟩ ∈ before) : others < names := by
  have order := pairwise_pruned hdisk follow (fun _ => false) root
  rw [pruned_none, hsplit, entries, List.filterMap_append, List.map_append,
    List.pairwise_append] at order
  refine (precedes_descend hothers hnames).mp (order.2.2 _ ?_ _ ?_)
  · exact List.mem_map.mpr ⟨_, mem_entries.mpr hmem, rfl⟩
  · exact List.mem_map.mpr ⟨_, mem_entries.mpr List.mem_cons_self, rfl⟩

/-- What comes before an entry in the order of names has been reported before it. -/
theorem mem_before_of_lt (hdisk : disk.WellFormed)
    (hsplit : events disk follow root = before ++ .entry ⟨root.descend names, kind⟩ :: after)
    (hnames : Path.AreNames names) (hothers : Path.AreNames others) (hlt : others < names)
    (hmem : .entry ⟨root.descend others, kind'⟩ ∈ events disk follow root) :
    .entry ⟨root.descend others, kind'⟩ ∈ before := by
  have hsplit' : events disk follow root =
      (before ++ [.entry ⟨root.descend names, kind⟩]) ++ after := by simp [hsplit]
  rw [hsplit'] at hmem
  rcases List.mem_append.mp hmem with hmem | later
  · rcases List.mem_append.mp hmem with earlier | last
    · exact earlier
    · have same : root.descend others = root.descend names := by
        have := List.mem_singleton.mp last
        simp only [Event.entry.injEq, Entry.mk.injEq] at this
        exact this.1
      rw [Path.descend_injective hothers hnames same] at hlt
      exact absurd hlt (List.lt_irrefl names)
  · obtain ⟨inner, rest, rfl⟩ := List.append_of_mem later
    have hsplit'' : events disk follow root =
        (before ++ .entry ⟨root.descend names, kind⟩ :: inner) ++
          .entry ⟨root.descend others, kind'⟩ :: rest := by simp [hsplit]
    have inside : .entry ⟨root.descend names, kind⟩ ∈
        before ++ .entry ⟨root.descend names, kind⟩ :: inner := by simp
    have reversed := lt_of_mem_before hdisk hsplit'' hothers hnames inside
    exact absurd (List.lt_trans hlt reversed) (List.lt_irrefl others)

end Walk

theorem not_lt_of_isPrefix {names others : List String} (h : names <+: others) : ¬ others < names := by
  obtain ⟨more, rfl⟩ := h
  exact List.not_lt.mpr List.le_append_left

theorem lt_snoc (init : List String) (last : String) : init < init ++ [last] := by
  induction init with
  | nil => exact List.nil_lt_cons _ _
  | cons name init ih => exact List.cons_lt_cons_iff.mpr (.inr ⟨rfl, ih⟩)

namespace TreeCopy

/-- A directory that was to be made or a file that was to be copied, by the names that lead to it from
    the root, and why that failed if it did. -/
abbrev Attempt := List String × Option OsError

/-- Why an operation failed, if it did. -/
def failure? : Except OsError Unit → Option OsError
  | .ok () => none
  | .error e => some e

theorem failure?_eq_none {result : Except OsError Unit} :
    failure? result = none ↔ result = .ok () := by
  cases result <;> simp [failure?]

theorem failure?_eq_some {result : Except OsError Unit} {e : OsError} :
    failure? result = some e ↔ result = .error e := by
  cases result <;> simp [failure?]

/-- The issue that a failed attempt becomes. -/
def Attempt.issue? (source destination : Path) : Attempt → Option Issue
  | (names, some e) => some (.uncopied (Path.issueText source (source.descend names))
      (destination.descend names).text e.message)
  | (_, none) => none

/-- The names lead to something below a directory that could not be made. -/
def CutOff (dirs : List Attempt) (names : List String) : Prop :=
  ∃ failed e, (failed, some e) ∈ dirs ∧ failed <+: names ∧ failed ≠ names

/-- The names lead neither to a directory that could not be made nor below one. -/
def Outside (dirs : List Attempt) (names : List String) : Prop :=
  ∀ failed e, (failed, some e) ∈ dirs → ¬ failed <+: names

/-- What a walk has brought so far: the directories that were to be made, the files to be copied, and
    the issues. -/
structure Log where
  dirs : List Attempt
  files : List (List String)
  issues : List Issue

/-- The log as the state of the walk. -/
def Log.state (source destination : Path) (log : Log) : State where
  done := ⟨0, log.dirs.countP (·.2.isNone), log.issues⟩
  failed := log.dirs.filterMap fun attempt => attempt.2.map fun _ => ⟨Path.joinSlashes attempt.1⟩
  jobs := log.files.map fun names => jobFor source destination (source.descend names)

section

variable (source destination : Path) (attempts : List Attempt)

end

variable {dirs : List Attempt} {names : List String}

theorem Outside.not_cutOff (h : Outside dirs names) : ¬ CutOff dirs names := by
  rintro ⟨failed, e, hmem, above, -⟩
  exact h failed e hmem above

theorem Outside.above {others : List String} (h : Outside dirs names) (habove : others <+: names) :
    Outside dirs others :=
  fun failed e hmem above => h failed e hmem (above.trans habove)

/-- What comes before a directory in the order of names is not cut off by it. -/
theorem cutOff_snoc {tried : List String} (outcome : Option OsError)
    (hle : names = tried ∨ names < tried) :
    CutOff (dirs ++ [(tried, outcome)]) names ↔ CutOff dirs names := by
  constructor
  · rintro ⟨failed, e, hmem, above, hne⟩
    rcases List.mem_append.mp hmem with before | last
    · exact ⟨failed, e, before, above, hne⟩
    · obtain ⟨rfl, -⟩ := Prod.mk.inj (List.mem_singleton.mp last)
      rcases hle with rfl | hlt
      · exact absurd rfl hne
      · exact absurd hlt (not_lt_of_isPrefix above)
  · rintro ⟨failed, e, hmem, rest⟩
    exact ⟨failed, e, List.mem_append_left _ hmem, rest⟩

end TreeCopy

/-! ## What an event does -/

namespace Session

open TreeCopy

variable {σ : Type} {source destination : Path}

/-- What an event can do to the log and to where the session stands. -/
inductive CopyStep (source destination : Path) (log : Log) (state : State σ) :
    Walk.Event → Log → State σ → Prop where
  | trouble {trouble : Walk.Trouble} :
      CopyStep source destination log state (.trouble trouble)
        { log with issues := log.issues ++ [.unlisted (trouble.issueText source) trouble.message] }
        state
  | left {names : List String} {kind : EntryKind} {failed : List String} {e : OsError} :
      Path.AreNames names → (failed, some e) ∈ log.dirs → failed <+: names →
      CopyStep source destination log state (.entry ⟨source.descend names, kind⟩) log state
  | passed {names : List String} {kind : EntryKind} : Path.AreNames names → kind ≠ .directory →
      kind ≠ .file →
      CopyStep source destination log state (.entry ⟨source.descend names, kind⟩) log state
  | noted {names : List String} : Path.AreNames names → Outside log.dirs names →
      CopyStep source destination log state (.entry ⟨source.descend names, .file⟩)
        { log with files := log.files ++ [names] } state
  | tried {names : List String} {result : Except OsError Unit} {later : State σ} :
      Path.AreNames names → Outside log.dirs names →
      exec (Storage.makeDirectories (destination.descend names)) state = (result, later) →
      CopyStep source destination log state (.entry ⟨source.descend names, .directory⟩)
        { log with
          dirs := log.dirs ++ [(names, failure? result)]
          issues := log.issues ++
            (Attempt.issue? source destination (names, failure? result)).toList } later

end Session

/-! ## What the log holds -/

namespace TreeCopy

open Session

/-- The names are those of the entries of a kind that have been reported and are not cut off, each of
    them once. -/
structure Collected (source : Path) (kind : EntryKind) (dirs : List Attempt)
    (happened : List Walk.Event) (found : List (List String)) : Prop where
  nodup : found.Nodup
  mem_iff : ∀ names, names ∈ found ↔ Path.AreNames names ∧
    .entry ⟨source.descend names, kind⟩ ∈ happened ∧ ¬ CutOff dirs names

namespace Collected

variable {source : Path} {kind : EntryKind} {dirs : List Attempt} {happened : List Walk.Event}
  {found : List (List String)} (h : Collected source kind dirs happened found)
include h

/-- An entry that is cut off and an event of another kind add nothing. -/
theorem skip {event : Walk.Event}
    (hevent : ∀ names, Path.AreNames names → event = .entry ⟨source.descend names, kind⟩ →
      CutOff dirs names) : Collected source kind dirs (happened ++ [event]) found where
  nodup := h.nodup
  mem_iff names := by
    rw [h.mem_iff, List.mem_append, List.mem_singleton]
    constructor
    · intro ⟨hnames, reported, kept⟩
      exact ⟨hnames, .inl reported, kept⟩
    · intro ⟨hnames, reported, kept⟩
      rcases reported with before | last
      · exact ⟨hnames, before, kept⟩
      · exact absurd (hevent names hnames last.symm) kept

/-- An entry that is not cut off is one more. -/
theorem add {names : List String} (hnames : Path.AreNames names) (hkept : ¬ CutOff dirs names)
    (hnew : .entry ⟨source.descend names, kind⟩ ∉ happened) :
    Collected source kind dirs (happened ++ [.entry ⟨source.descend names, kind⟩])
      (found ++ [names]) where
  nodup := by
    have absent : names ∉ found := fun hmem => hnew ((h.mem_iff names).mp hmem).2.1
    rw [List.nodup_append_comm, List.singleton_append, List.nodup_cons]
    exact ⟨absent, h.nodup⟩
  mem_iff others := by
    rw [List.mem_append, h.mem_iff, List.mem_singleton, List.mem_append, List.mem_singleton]
    constructor
    · intro hmem
      rcases hmem with ⟨hothers, reported, kept⟩ | rfl
      · exact ⟨hothers, .inl reported, kept⟩
      · exact ⟨hnames, .inr rfl, hkept⟩
    · intro ⟨hothers, reported, kept⟩
      rcases reported with before | last
      · exact .inl ⟨hothers, before, kept⟩
      · simp only [Walk.Event.entry.injEq, Walk.Entry.mk.injEq, and_true] at last
        exact .inr (Path.descend_injective hothers hnames last)

/-- It matters only which of the entries that have been reported are cut off. -/
theorem congr {dirs' : List Attempt}
    (hcut : ∀ names, Path.AreNames names → .entry ⟨source.descend names, kind⟩ ∈ happened →
      (CutOff dirs' names ↔ CutOff dirs names)) : Collected source kind dirs' happened found where
  nodup := h.nodup
  mem_iff names := by
    rw [h.mem_iff]
    constructor
    · intro ⟨hnames, reported, kept⟩
      exact ⟨hnames, reported, fun cut => kept ((hcut names hnames reported).mp cut)⟩
    · intro ⟨hnames, reported, kept⟩
      exact ⟨hnames, reported, fun cut => kept ((hcut names hnames reported).mpr cut)⟩

end Collected

/-- The log holds what has happened. -/
structure Recorded (source destination : Path) (happened : List Walk.Event) (log : Log) : Prop where
  dirs : Collected source .directory log.dirs happened (log.dirs.map (·.1))
  files : Collected source .file log.dirs happened log.files
  uncopied : log.issues.filter (·.rule = .uncopied) =
    log.dirs.filterMap (Attempt.issue? source destination)
  unlisted : log.issues.filter (·.rule ≠ .uncopied) = Walk.unlisted source happened

variable {σ : Type} {source destination : Path} {happened before after : List Walk.Event}
  {log log' : Log} {disk : Disk}

namespace Recorded

section

variable (h : Recorded source destination happened log)
include h

theorem areNames : ∀ attempt ∈ log.dirs, Path.AreNames attempt.1 :=
  fun attempt hmem => ((h.dirs.mem_iff attempt.1).mp (List.mem_map.mpr ⟨attempt, hmem, rfl⟩)).1

/-- A directory that has been reported outside of all refused ones has been made. -/
theorem mem_made {names : List String} (hnames : Path.AreNames names)
    (hreported : .entry ⟨source.descend names, .directory⟩ ∈ happened)
    (houtside : Outside log.dirs names) : (names, none) ∈ log.dirs := by
  have tried := (h.dirs.mem_iff names).mpr ⟨hnames, hreported, houtside.not_cutOff⟩
  obtain ⟨⟨_, outcome⟩, hmem, rfl⟩ := List.mem_map.mp tried
  cases outcome with
  | none => exact hmem
  | some e => exact absurd (List.prefix_refl _) (houtside _ e hmem)

end

/-- A directory that was to be made comes before what is reported next. -/
theorem lt_next (h : Recorded source destination before log) (hdisk : disk.WellFormed)
    {names : List String} {kind : EntryKind}
    (hsplit : Walk.events disk true source =
      before ++ .entry ⟨source.descend names, kind⟩ :: after) (hnames : Path.AreNames names)
    {attempt : Attempt} (hmem : attempt ∈ log.dirs) : attempt.1 < names := by
  obtain ⟨hothers, reported, -⟩ :=
    (h.dirs.mem_iff attempt.1).mp (List.mem_map.mpr ⟨attempt, hmem, rfl⟩)
  exact Walk.lt_of_mem_before hdisk hsplit hnames hothers reported

/-- The log keeps up with the events of the walk. -/
theorem step (h : Recorded source destination before log) (hdisk : disk.WellFormed)
    {event : Walk.Event} (hsplit : Walk.events disk true source = before ++ event :: after)
    {state state' : Session.State σ} (hstep : CopyStep source destination log state event log' state') :
    Recorded source destination (before ++ [event]) log' := by
  -- What is reported now has not been reported before, and comes last in the order of names.
  have fresh {names : List String} {kind : EntryKind} (hnames : Path.AreNames names)
      (same : event = .entry ⟨source.descend names, kind⟩) :
      .entry ⟨source.descend names, kind⟩ ∉ before := fun hmem =>
    List.lt_irrefl names (Walk.lt_of_mem_before hdisk (same ▸ hsplit) hnames hnames hmem)
  have quiet (entry : Walk.Entry) :
      Walk.unlisted source (before ++ [.entry entry]) = Walk.unlisted source before := by
    rw [Walk.unlisted_append]
    exact List.append_nil _
  cases hstep with
  | trouble =>
    refine ⟨h.dirs.skip (by simp), h.files.skip (by simp), ?_, ?_⟩
    · rw [List.filter_append, h.uncopied]
      exact List.append_nil _
    · rw [List.filter_append, h.unlisted, Walk.unlisted_append]
      rfl
  | @left names kind failed e hnames hmem above =>
    have cut : CutOff log.dirs names := by
      refine ⟨failed, e, hmem, above, ?_⟩
      rintro rfl
      exact List.lt_irrefl _ (h.lt_next hdisk hsplit hnames hmem)
    have skipped (kind' : EntryKind) (others : List String) (hothers : Path.AreNames others)
        (same : (.entry ⟨source.descend names, kind⟩ : Walk.Event) =
          .entry ⟨source.descend others, kind'⟩) : CutOff log.dirs others := by
      simp only [Walk.Event.entry.injEq, Walk.Entry.mk.injEq] at same
      exact Path.descend_injective hnames hothers same.1 ▸ cut
    exact ⟨h.dirs.skip (skipped _), h.files.skip (skipped _), h.uncopied,
      h.unlisted.trans (quiet _).symm⟩
  | passed hnames notDirectory notFile =>
    exact ⟨h.dirs.skip (by simp [notDirectory]), h.files.skip (by simp [notFile]), h.uncopied,
      h.unlisted.trans (quiet _).symm⟩
  | noted hnames outside =>
    exact ⟨h.dirs.skip (by simp), h.files.add hnames outside.not_cutOff (fresh hnames rfl),
      h.uncopied, h.unlisted.trans (quiet _).symm⟩
  | @tried names result _ hnames outside =>
    have dirs := h.dirs.add hnames outside.not_cutOff (fresh hnames rfl)
    have files : Collected source .file log.dirs
        (before ++ [.entry ⟨source.descend names, .directory⟩]) log.files := h.files.skip (by simp)
    have uncut {kind : EntryKind} (others : List String) (hothers : Path.AreNames others)
        (reported : .entry ⟨source.descend others, kind⟩ ∈
          before ++ [.entry ⟨source.descend names, .directory⟩]) :
        CutOff (log.dirs ++ [(names, failure? result)]) others ↔ CutOff log.dirs others := by
      refine cutOff_snoc _ ?_
      rcases List.mem_append.mp reported with earlier | last
      · exact .inr (Walk.lt_of_mem_before hdisk hsplit hnames hothers earlier)
      · simp only [List.mem_singleton, Walk.Event.entry.injEq, Walk.Entry.mk.injEq] at last
        exact .inl (Path.descend_injective hothers hnames last.1)
    refine ⟨?_, files.congr uncut, ?_, ?_⟩
    · simpa using dirs.congr uncut
    · rw [List.filter_append, h.uncopied, List.filterMap_append]
      cases result <;> rfl
    · rw [List.filter_append, h.unlisted, quiet]
      cases result <;> exact List.append_nil _

end Recorded

end TreeCopy

end Phrasebook
