import Phrasebook.Proofs.Path
import Phrasebook.Survey
import Phrasebook.TreeCopy

/-!
# Rules for programs

What can be said of a program part by part, whatever the monad it runs in: a predicate of programs
and their results that goes along with `pure` and `bind`. Making directories, copying files and putting
sentences to an operator is gone through here once, for every such predicate.
-/

namespace Phrasebook

namespace Path

theorem target_joinSlashes (destination : Path) {names : List String} (hnames : AreNames names) :
    TreeCopy.target destination ⟨joinSlashes names⟩ = destination.descend names := by
  cases names with
  | nil => rfl
  | cons name names =>
    have nonempty : (Path.mk (joinSlashes (name :: names))).isEmpty = false := by
      have := joinSlashes_eq_empty hnames
      simp only [isEmpty, Bool.eq_false_iff]
      simpa using this
    rw [TreeCopy.target, nonempty, if_neg (by simp), join_joinSlashes destination hnames]

end Path

/-- A predicate of programs and what holds of their results, with a rule for each way a program goes
    on. -/
structure Rules (m : Type → Type) [Monad m] where
  Sat : ∀ {α : Type}, m α → (α → Prop) → Prop
  ret : ∀ {α : Type} {value : α} {result : α → Prop}, result value → Sat (pure value) result
  bind : ∀ {α β : Type} {program : m α} {next : α → m β} {result : α → Prop} {result' : β → Prop},
    Sat program result → (∀ value, result value → Sat (next value) result') →
      Sat (program >>= next) result'

namespace Rules

variable {m : Type → Type} [Monad m] [Storage m] (rules : Rules m)
  (hkind : ∀ path, rules.Sat (Storage.kind path) fun _ => True)

section

include hkind

theorem isDirectory (path : Path) : rules.Sat (Storage.isDirectory path) fun _ => True :=
  rules.bind (hkind path) fun _ _ => rules.ret trivial

/-- What is still to be made is among what was asked for. -/
theorem makeTopmost {above : List Path}
    (hmake : ∀ path ∈ above, rules.Sat (Storage.makeDirectory path) fun _ => True) :
    rules.Sat (Storage.makeTopmost above)
      fun made => ∀ missing, made = .ok missing → ∀ path ∈ missing, path ∈ above := by
  induction above with
  | nil => exact rules.ret (by rintro missing same path hmem; cases same; simp at hmem)
  | cons path above ih =>
    have nothing : ∀ missing, (.ok [] : Except OsError (List Path)) = .ok missing →
        ∀ other ∈ missing, other ∈ path :: above := by
      rintro missing same other hmem
      cases same
      simp at hmem
    have failed : ∀ e : OsError, ∀ missing, (.error e : Except OsError (List Path)) = .ok missing →
        ∀ other ∈ missing, other ∈ path :: above := by
      rintro e missing same
      cases same
    rw [Storage.makeTopmost]
    split
    · exact rules.ret nothing
    · refine rules.bind (hmake path List.mem_cons_self) fun made _ => ?_
      split
      · exact rules.ret nothing
      · refine rules.bind (ih fun other hmem => hmake other (List.mem_cons_of_mem _ hmem))
          fun made hmade => rules.ret ?_
        intro missing same other hmem
        cases made with
        | error e => simp [Except.map] at same
        | ok rest =>
          obtain rfl : path :: rest = missing := by simpa [Except.map] using same
          rcases List.mem_cons.mp hmem with rfl | later
          · exact List.mem_cons_self
          · exact List.mem_cons_of_mem _ (hmade rest rfl other later)
      · refine rules.bind (rules.isDirectory hkind path) fun isDirectory _ => ?_
        split
        · exact rules.ret nothing
        · exact rules.ret (failed _)
      · exact rules.ret (failed _)

theorem makeEach {missing : List Path}
    (hmake : ∀ path ∈ missing, rules.Sat (Storage.makeDirectory path) fun _ => True) :
    rules.Sat (Storage.makeEach missing) fun _ => True := by
  induction missing with
  | nil => exact rules.ret trivial
  | cons path missing ih =>
    have ih := ih fun other hmem => hmake other (List.mem_cons_of_mem _ hmem)
    rw [Storage.makeEach]
    refine rules.bind (hmake path List.mem_cons_self) fun made _ => ?_
    split
    · exact ih
    · refine rules.bind (rules.isDirectory hkind path) fun isDirectory _ => ?_
      split
      · exact ih
      · exact rules.ret trivial
    · exact rules.ret trivial

/-- A directory is made by making it and the paths above it. -/
theorem makeDirectories {path : Path}
    (hmake : ∀ above, Path.Above above path →
      rules.Sat (Storage.makeDirectory above) fun _ => True) :
    rules.Sat (Storage.makeDirectories path) fun _ => True := by
  have above : ∀ other ∈ path.ancestors, rules.Sat (Storage.makeDirectory other) fun _ => True :=
    fun other hmem => hmake other (Path.above_of_mem_ancestorsUpTo hmem)
  rw [Storage.makeDirectories]
  refine rules.bind (rules.makeTopmost hkind above) fun made hmade => ?_
  split
  · exact rules.ret trivial
  · next missing =>
    exact rules.makeEach hkind fun other hmem =>
      above other (hmade missing rfl other (List.mem_reverse.mp hmem))

/-- At an entry a copy makes the directory where it belongs, or notes the file as a job. -/
theorem onEvent_copy {source destination : Path} {names : List String}
    (hnames : Path.AreNames names) {entry : Walk.Entry} (hpath : entry.path = source.descend names)
    (hmake : entry.kind = .directory → ∀ above, Path.Above above (destination.descend names) →
      rules.Sat (Storage.makeDirectory above) fun _ => True) (state : TreeCopy.State) :
    rules.Sat (TreeCopy.onEvent source destination state (.entry entry))
      fun result => ∀ job ∈ result.1.jobs, job ∈ state.jobs ∨
        (entry.kind = .file ∧ job.source = source.descend names ∧
          job.target = destination.descend names) := by
  have copied : TreeCopy.target destination (entry.path.relativeTo source) =
      destination.descend names := by
    rw [hpath, Path.relativeTo_descend source hnames, Path.target_joinSlashes _ hnames]
  simp only [TreeCopy.onEvent, copied]
  split
  · exact rules.ret fun _ => .inl
  · split
    · next isDirectory =>
      refine rules.bind (rules.makeDirectories hkind (hmake isDirectory)) fun made _ => ?_
      split <;> exact rules.ret fun _ => .inl
    · next isFile =>
      refine rules.ret fun job hmem => ?_
      rcases List.mem_append.mp hmem with before | last
      · exact .inl before
      · obtain rfl := List.mem_singleton.mp last
        exact .inr ⟨isFile, hpath, rfl⟩
    · exact rules.ret fun _ => .inl

end

theorem copyAll {jobs : List TreeCopy.Job}
    (hcopy : ∀ job ∈ jobs, rules.Sat (Storage.copy job.source job.target) fun _ => True)
    (done : TreeCopied) : rules.Sat (TreeCopy.copyAll jobs done) fun _ => True := by
  induction jobs generalizing done with
  | nil => exact rules.ret trivial
  | cons job jobs ih =>
    have ih := ih fun other hmem => hcopy other (List.mem_cons_of_mem _ hmem)
    rw [TreeCopy.copyAll]
    refine rules.bind (hcopy job List.mem_cons_self) fun copied _ => ?_
    split <;> exact ih _

/-! ## Walks -/

section

variable {τ ε α : Type}

omit [Storage m] in
theorem report (keeps : τ → Prop) {visit : τ → Walk.Event → m (τ × Walk.Flow)}
    {event : Walk.Event} {state : τ}
    (hvisit : rules.Sat (visit state event) fun visited => keeps visited.1) :
    rules.Sat (Walk.report visit event state) fun progress => keeps progress.state :=
  rules.bind hvisit fun _ hvisited => rules.ret hvisited

omit [Storage m] in
theorem inTurn (keeps : τ → Prop) {visit : τ → α → m (Walk.Progress τ)} {items : List α}
    (hvisit : ∀ item ∈ items, ∀ state, keeps state →
      rules.Sat (visit state item) fun progress => keeps progress.state)
    {state : τ} (hstate : keeps state) :
    rules.Sat (Walk.inTurn visit items state) fun progress => keeps progress.state := by
  induction items generalizing state with
  | nil => exact rules.ret hstate
  | cons item items ih =>
    rw [Walk.inTurn]
    refine rules.bind (hvisit item List.mem_cons_self state hstate) fun progress hprogress => ?_
    split
    · exact ih (fun other hmem => hvisit other (List.mem_cons_of_mem _ hmem)) hprogress
    · exact rules.ret hprogress

/-! ## Surveys and reviews -/

variable {visit : τ → String → String → m (τ × Option ε)}

/-- At an event a survey reads the file and hands it to the visitor, if it does anything. -/
theorem onEvent_survey
    (hvisit : ∀ kept file text, rules.Sat (visit kept file text) fun _ => True)
    {event : Walk.Event}
    (hread : ∀ entry, event = .entry entry →
      rules.Sat (Storage.read entry.path) fun _ => True)
    (root : Path) (filter : Filter) (state : Survey.State τ ε) :
    rules.Sat (Survey.onEvent root filter visit state event) fun _ => True := by
  cases event with
  | trouble trouble => exact rules.ret trivial
  | entry entry =>
    rw [Survey.onEvent]
    split
    · exact rules.ret trivial
    split
    · rw [Survey.scanFile]
      refine rules.bind (hread entry rfl) fun bytes _ => ?_
      split
      · exact rules.ret trivial
      split
      · exact rules.ret trivial
      · exact rules.bind (hvisit _ _ _) fun _ _ => rules.ret trivial
    · exact rules.ret trivial

theorem survey {root : Path} {filter : Filter}
    (hwalk : ∀ state, rules.Sat
      (Walk.walk true root (Survey.onEvent root filter visit) state) fun _ => True)
    (kept : τ) : rules.Sat (Phrasebook.survey root filter visit kept) fun _ => True := by
  rw [Phrasebook.survey]
  refine rules.bind (hwalk _) fun progress _ => ?_
  split <;> exact rules.ret trivial

section

variable {confirm : Request → m (Except ε Bool)}
  (hconfirm : ∀ request, rules.Sat (confirm request) fun _ => True)

include hconfirm

omit [Storage m] in
theorem literals (review : Review) (found : List Literal) :
    rules.Sat (review.literals confirm found) fun _ => True := by
  fun_induction Review.literals confirm review found with
  | case1 => exact rules.ret trivial
  | case2 review literal rest _ ih => exact ih
  | case3 review literal rest _ review' ih =>
    refine rules.bind (hconfirm literal.request) fun answer _ => ?_
    split
    · exact rules.ret trivial
    · exact rules.bind ih fun _ _ => rules.ret trivial

/-- A review is a survey whose visitor puts the sentences of a file to the operator. -/
theorem reviewTree {root : Path} {filter : Filter}
    (hsurvey : ∀ (visit : Review × List Approved → String → String →
        m ((Review × List Approved) × Option ε)) kept,
      (∀ kept file text, rules.Sat (visit kept file text) fun _ => True) →
        rules.Sat (Phrasebook.survey root filter visit kept) fun _ => True)
    (asked : Asked) : rules.Sat (Phrasebook.reviewTree confirm root filter asked) fun _ => True := by
  rw [Phrasebook.reviewTree]
  refine rules.bind (hsurvey _ _ fun kept file text => ?_) fun _ _ => rules.ret trivial
  obtain ⟨review, sentences⟩ := kept
  refine rules.bind (rules.literals hconfirm review _) fun result _ => ?_
  obtain ⟨review', approved⟩ := result
  cases approved <;> exact rules.ret trivial

end

end

end Rules

end Phrasebook
