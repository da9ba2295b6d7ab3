import Phrasebook.Proofs.Session
import Phrasebook.Proofs.Thread

/-!
# Triples for programs that read a storage

A triple says what holds of a state before and after a program. Walks, surveys and reviews look at the
storage without touching the state, so all they do to it is what their visitor or their operator does.
Main statement: what every answer of an operator keeps, a review keeps; and a review ends with a
failure exactly as the operator left the state when they failed.
-/

namespace Phrasebook

/-- Triples of what holds before, a program, and what holds after it, with rules for programs that go
    on and for looking at a storage, which leaves the state alone. -/
structure Triples (m : Type → Type) [Monad m] [Storage m] (S : Type) where
  Sat : ∀ {α : Type}, (S → Prop) → m α → (α → S → Prop) → Prop
  ret : ∀ {α : Type} {value : α} {before : S → Prop} {after : α → S → Prop},
    (∀ s, before s → after value s) → Sat before (pure value) after
  bind : ∀ {α β : Type} {program : m α} {next : α → m β} {before : S → Prop}
    {between : α → S → Prop} {after : β → S → Prop},
    Sat before program between → (∀ value, Sat (between value) (next value) after) →
      Sat before (program >>= next) after
  weaken : ∀ {α : Type} {program : m α} {before before' : S → Prop} {after : α → S → Prop},
    Sat before program after → (∀ s, before' s → before s) → Sat before' program after
  kind : ∀ path before, Sat before (Storage.kind path) fun _ => before
  entryKind : ∀ path before, Sat before (Storage.entryKind path) fun _ => before
  list : ∀ path before, Sat before (Storage.list path) fun _ => before
  identify : ∀ path before, Sat before (Storage.identify path) fun _ => before
  read : ∀ path before, Sat before (Storage.read path) fun _ => before

namespace Triples

variable {m : Type → Type} [Monad m] [Storage m] {S τ ε α : Type} (triples : Triples m S)

/-! ## Walks -/

theorem sameDirectory (target : Path) (ancestors : List Path) (before : S → Prop) :
    triples.Sat before (Walk.sameDirectory target ancestors) fun _ => before := by
  induction ancestors with
  | nil => exact triples.ret fun _ => id
  | cons ancestor ancestors ih =>
    rw [Walk.sameDirectory]
    refine triples.bind (triples.identify ancestor before) fun found => ?_
    split
    · exact triples.ret fun _ => id
    · split
      · exact triples.ret fun _ => id
      · exact ih

theorem followLink (ancestors : List Path) (link : Path) (before : S → Prop) :
    triples.Sat before (Walk.followLink ancestors link) fun _ => before := by
  rw [Walk.followLink]
  refine triples.bind (triples.kind link before) fun kind => ?_
  split
  · exact triples.ret fun _ => id
  · refine triples.bind (triples.identify link before) fun identity => ?_
    split
    · exact triples.ret fun _ => id
    · refine triples.bind (triples.sameDirectory _ ancestors before) fun same => ?_
      split <;> exact triples.ret fun _ => id
  · exact triples.ret fun _ => id

theorem resolveKind (follow : Bool) (ancestors : List Path) (path : Path) (kind : EntryKind)
    (before : S → Prop) :
    triples.Sat before (Walk.resolveKind follow ancestors path kind) fun _ => before := by
  rw [Walk.resolveKind]
  split
  · exact triples.followLink ancestors path before
  · exact triples.ret fun _ => id

theorem goesInto (ancestors : List Path) (path : Path) (kind : EntryKind) (before : S → Prop) :
    triples.Sat before (Walk.goesInto ancestors path kind) fun _ => before := by
  rw [Walk.goesInto]
  split
  · exact triples.ret fun _ => id
  · split
    · exact triples.bind (triples.kind path before) fun _ => triples.ret fun _ => id
    · exact triples.ret fun _ => id

/-- One thing holds while the walk goes on, another when it has been stopped. -/
def reached (going stopped : τ → S → Prop) (progress : Walk.Progress τ) : S → Prop :=
  if progress.going then going progress.state else stopped progress.state

section

variable {visit : τ → Walk.Event → m (τ × Walk.Flow)} {going stopped : τ → S → Prop}
  (hvisit : ∀ state event, triples.Sat (going state) (visit state event)
    fun visited => if visited.2 = .stop then stopped visited.1 else going visited.1)
include hvisit

theorem report (event : Walk.Event) (state : τ) :
    triples.Sat (going state) (Walk.report visit event state) (reached going stopped) := by
  rw [Walk.report]
  refine triples.bind (hvisit state event) fun visited => triples.ret fun s holds => ?_
  obtain ⟨state', flow⟩ := visited
  cases flow <;> exact holds

omit hvisit in
theorem inTurn {visit : τ → α → m (Walk.Progress τ)} {items : List α}
    (hvisit : ∀ state item, triples.Sat (going state) (visit state item) (reached going stopped))
    (state : τ) :
    triples.Sat (going state) (Walk.inTurn visit items state) (reached going stopped) := by
  induction items generalizing state with
  | nil => exact triples.ret fun _ => id
  | cons item items ih =>
    rw [Walk.inTurn]
    refine triples.bind (hvisit state item) fun progress => ?_
    obtain ⟨state', goes⟩ := progress
    cases goes with
    | true => exact ih state'
    | false => exact triples.ret fun _ => id

theorem walkEntry (follow : Bool) (depth : Nat) (ancestors : List Path) (path : Path)
    (kind : EntryKind) (state : τ) :
    triples.Sat (going state) (Walk.walkEntry follow visit depth ancestors path kind state)
      (reached going stopped) := by
  induction depth generalizing ancestors path kind state with
  | zero => exact triples.report hvisit _ state
  | succ depth ih =>
    rw [Walk.walkEntry]
    refine triples.bind (triples.resolveKind follow ancestors path kind _) fun resolved => ?_
    split
    · exact triples.report hvisit _ state
    refine triples.bind (triples.goesInto ancestors path _ _) fun inside => ?_
    split
    · exact triples.report hvisit _ state
    · exact triples.report hvisit _ state
    refine triples.bind (triples.list path _) fun names => ?_
    refine triples.bind (hvisit state _) fun visited => ?_
    obtain ⟨state', flow⟩ := visited
    cases flow with
    | stop => exact triples.ret fun _ => id
    | skip => exact triples.ret fun _ => id
    | enter =>
      cases names with
      | error e => exact triples.report hvisit _ state'
      | ok names => exact triples.inTurn (fun other item => ih _ _ _ other) state'

/-- A walk does to the state what its visitor does, and ends where the visitor stops it. -/
theorem walk (follow : Bool) (root : Path) (state : τ) :
    triples.Sat (going state) (Walk.walk follow root visit state) (reached going stopped) := by
  rw [Walk.walk]
  refine triples.bind (triples.entryKind root _) fun kind => ?_
  split
  · exact triples.report hvisit _ state
  · exact triples.walkEntry hvisit follow _ [] root _ state

end

/-! ## Surveys and reviews -/

variable {going : S → Prop} {failed : ε → S → Prop}

/-- One thing holds after a result, another after a failure. -/
def outcome (going : S → Prop) (failed : ε → S → Prop) : Except ε α → S → Prop
  | .ok _ => going
  | .error e => failed e

/-- While a survey goes on, nothing has failed. -/
def unfailed (going : S → Prop) (state : Survey.State τ ε) (s : S) : Prop :=
  state.failure = none ∧ going s

/-- A survey is stopped by a failure. -/
def stoppedBy (failed : ε → S → Prop) (state : Survey.State τ ε) (s : S) : Prop :=
  ∃ e, state.failure = some e ∧ failed e s

variable (failed) in
/-- A survey does to the state what its visitor does, and ends where the visitor fails. -/
theorem survey {visit : τ → String → String → m (τ × Option ε)}
    (hvisit : ∀ kept file text, triples.Sat going (visit kept file text)
      fun visited => visited.2.elim going failed)
    (root : Path) (filter : Filter) (kept : τ) :
    triples.Sat going (Phrasebook.survey root filter visit kept)
      fun result => outcome going failed result.2 := by
  have onEvent : ∀ state event,
      triples.Sat (unfailed going state) (Survey.onEvent root filter visit state event)
        fun visited => if visited.2 = .stop then stoppedBy failed visited.1
          else unfailed going visited.1 := by
    intro state event
    cases event with
    | trouble trouble => exact triples.ret fun _ => id
    | entry entry =>
      rw [Survey.onEvent]
      split
      · exact triples.ret fun _ => id
      split
      · rw [Survey.scanFile]
        refine triples.bind (triples.read entry.path _) fun bytes => ?_
        split
        · exact triples.ret fun _ => id
        split
        · exact triples.ret fun _ => id
        · refine triples.bind (triples.weaken (hvisit _ _ _) fun _ => And.right) fun visited => ?_
          obtain ⟨kept', failure⟩ := visited
          cases failure with
          | none => exact triples.ret fun s holds => ⟨rfl, holds⟩
          | some e => exact triples.ret fun s holds => ⟨e, rfl, holds⟩
      · exact triples.ret fun _ => id
  rw [Phrasebook.survey]
  refine triples.bind (triples.weaken (triples.walk onEvent true root _) fun _ holds =>
    ⟨rfl, holds⟩) fun progress => ?_
  obtain ⟨state, goes⟩ := progress
  split
  · next e failure =>
    refine triples.ret fun s holds => ?_
    cases goes with
    | true =>
      obtain ⟨none, -⟩ : unfailed going state s := holds
      cases failure.symm.trans none
    | false =>
      obtain ⟨e', same, holds⟩ : stoppedBy failed state s := holds
      obtain rfl := Option.some.inj (failure.symm.trans same)
      exact holds
  · next failure =>
    refine triples.ret fun s holds => ?_
    cases goes with
    | true =>
      obtain ⟨-, holds⟩ : unfailed going state s := holds
      exact holds
    | false =>
      obtain ⟨e, same, -⟩ : stoppedBy failed state s := holds
      cases failure.symm.trans same

section

variable {confirm : Request → m (Except ε Bool)}
  (hconfirm : ∀ request, triples.Sat going (confirm request) (outcome going failed))
include hconfirm

theorem literals (review : Review) (found : List Literal) :
    triples.Sat going (review.literals confirm found) fun result =>
      outcome going failed result.2 := by
  fun_induction Review.literals confirm review found with
  | case1 => exact triples.ret fun _ => id
  | case2 review literal rest _ ih => exact ih
  | case3 review literal rest _ review' ih =>
    refine triples.bind (hconfirm literal.request) fun answer => ?_
    cases answer with
    | error e => exact triples.ret fun _ => id
    | ok answer =>
      refine triples.bind ih fun result => ?_
      obtain ⟨review', approved⟩ := result
      cases approved <;> exact triples.ret fun _ => id

/-- A review keeps what every answer of the operator keeps, and ends where the operator fails. -/
theorem reviewTree (root : Path) (filter : Filter) (asked : Asked) :
    triples.Sat going (Phrasebook.reviewTree confirm root filter asked) fun result =>
      outcome going failed result.2 := by
  rw [Phrasebook.reviewTree]
  refine triples.bind (triples.survey failed (fun kept file text => ?_) root filter _) fun result => ?_
  · obtain ⟨review, sentences⟩ := kept
    refine triples.bind (triples.literals hconfirm review _) fun result => ?_
    obtain ⟨review', approved⟩ := result
    cases approved <;> exact triples.ret fun _ => id
  · obtain ⟨⟨review, sentences⟩, result⟩ := result
    cases result <;> exact triples.ret fun _ => id

end

/-- What every answer keeps, a review keeps. -/
theorem reviewTree_keeps (going : S → Prop) {confirm : Request → m (Except ε Bool)}
    (hconfirm : ∀ request, triples.Sat going (confirm request) fun _ => going) (root : Path)
    (filter : Filter) (asked : Asked) :
    triples.Sat going (Phrasebook.reviewTree confirm root filter asked) fun _ => going := by
  have either : ∀ {α : Type},
      (outcome going (fun _ => going) : Except ε α → S → Prop) = fun _ => going := by
    intro α
    funext result
    cases result <;> rfl
  have reviewed : triples.Sat going (Phrasebook.reviewTree confirm root filter asked) fun result =>
      outcome going (fun _ => going) result.2 :=
    triples.reviewTree (by rwa [either]) root filter asked
  rwa [either] at reviewed

end Triples

/-! ## Sessions and threads -/

/-- What holds of the state of a session before and after a program. -/
def Session.triples (σ : Type) : Triples (Session σ) (Session.State σ) where
  Sat before program after := ∀ state, before state →
    after (exec program state).1 (exec program state).2
  ret h state holds := h state holds
  bind h hnext state holds := hnext _ _ (h state holds)
  weaken h himp state holds := h state (himp state holds)
  kind _ _ _ holds := holds
  entryKind _ _ _ holds := holds
  list _ _ _ holds := holds
  identify _ _ _ holds := holds
  read _ _ _ holds := holds

namespace Threaded

variable {σ α β : Type}

/-- Whatever others do to the disk, the program leaves it alone, and of its own state it is known what
    holds before and after. -/
def Assures (before : σ → Prop) (program : Threaded σ α) (after : α → σ → Prop) : Prop :=
  ∀ own, before own → (program own).Holds (fun _ => True) (fun disk later => later = disk)
    fun ended => after ended.1 ended.2

theorem Assures.bind {program : Threaded σ α} {next : α → Threaded σ β} {before : σ → Prop}
    {between : α → σ → Prop} {after : β → σ → Prop} (h : Assures before program between)
    (hnext : ∀ value, Assures (between value) (next value) after) :
    Assures before (program >>= next) after := by
  intro own holds
  refine (h own holds).bind fun ended hended => ?_
  exact hnext ended.1 ended.2 hended

theorem assures_inspect (f : Disk → α) (before : σ → Prop) :
    Assures before (StateT.lift (Thread.inspect f) : Threaded σ α) fun _ => before :=
  fun _ holds _ _ => ⟨rfl, holds⟩

/-- What holds of a program's own state before and after it, whatever others do to the disk. -/
def triples (σ : Type) : Triples (Threaded σ) σ where
  Sat := Assures
  ret h := h
  bind := Assures.bind
  weaken h himp own holds := h own (himp own holds)
  kind path := assures_inspect (·.kind path)
  entryKind path := assures_inspect (·.entryKind path)
  list path := assures_inspect (·.list path)
  identify path := assures_inspect (·.identify path)
  read path := assures_inspect (·.read path)

end Threaded

end Phrasebook
