import Phrasebook.Command.Run

/-!
# Programs on two storages

A translation takes the programs of one storage to those of another, operation by operation. Main
statement: the parts of a run, written once for every storage, are translated to themselves.
-/

namespace Phrasebook

/-- Takes programs on one storage to programs on another that do the same operations. -/
structure Translation (m n : Type → Type) [Monad m] [Storage m] [Monad n] [Storage n] where
  map : ∀ {α : Type}, m α → n α
  pure : ∀ {α : Type} (value : α), map (Pure.pure value) = Pure.pure value
  bind : ∀ {α β : Type} (program : m α) (next : α → m β),
    map (program >>= next) = map program >>= fun value => map (next value)
  kind : ∀ path, map (Storage.kind path) = Storage.kind path
  entryKind : ∀ path, map (Storage.entryKind path) = Storage.entryKind path
  list : ∀ path, map (Storage.list path) = Storage.list path
  identify : ∀ path, map (Storage.identify path) = Storage.identify path
  read : ∀ path, map (Storage.read path) = Storage.read path
  write : ∀ path bytes, map (Storage.write path bytes) = Storage.write path bytes
  copy : ∀ source target, map (Storage.copy source target) = Storage.copy source target
  makeDirectory : ∀ path, map (Storage.makeDirectory path) = Storage.makeDirectory path

namespace Translation

attribute [simp] pure bind kind entryKind list identify read write copy makeDirectory

variable {m n : Type → Type} [Monad m] [Storage m] [Monad n] [Storage n] (t : Translation m n)
  {τ ε α : Type}

@[simp] theorem map_ite {p : Prop} [Decidable p] (yes no : m α) :
    t.map (if p then yes else no) = if p then t.map yes else t.map no := by
  split <;> rfl

/-- What goes on after a program is translated beside it. -/
theorem map_bind {β : Type} {program : m α} {program' : n α} {next : α → m β} {next' : α → n β}
    (h : t.map program = program') (hnext : ∀ value, t.map (next value) = next' value) :
    t.map (program >>= next) = program' >>= next' := by
  rw [bind, h]
  congr 1
  funext value
  exact hnext value

/-! ## Walks -/

section

open Walk

@[simp] theorem map_sameDirectory (target : Path) (ancestors : List Path) :
    t.map (sameDirectory target ancestors) = sameDirectory target ancestors := by
  induction ancestors with
  | nil => simp [sameDirectory]
  | cons ancestor ancestors ih =>
    simp only [sameDirectory]
    refine t.map_bind (t.identify ancestor) fun found => ?_
    cases found <;> simp [ih]

@[simp] theorem map_followLink (ancestors : List Path) (link : Path) :
    t.map (followLink ancestors link) = followLink ancestors link := by
  simp only [followLink]
  refine t.map_bind (t.kind link) fun found => ?_
  cases found with
  | error e => simp
  | ok found =>
    cases found with
    | file | link | special => simp
    | directory =>
      refine t.map_bind (t.identify link) fun target => ?_
      cases target with
      | error e => simp
      | ok target =>
        refine t.map_bind (t.map_sameDirectory target ancestors) fun same => ?_
        rcases same with _ | _ | _ <;> simp

@[simp] theorem map_resolveKind (follow : Bool) (ancestors : List Path) (path : Path)
    (kind : EntryKind) :
    t.map (resolveKind follow ancestors path kind) = resolveKind follow ancestors path kind := by
  simp [resolveKind]

@[simp] theorem map_goesInto (ancestors : List Path) (path : Path) (kind : EntryKind) :
    t.map (goesInto ancestors path kind) = goesInto ancestors path kind := by
  simp [goesInto]

theorem map_report (visit : τ → Event → m (τ × Flow)) (event : Event) (state : τ) :
    t.map (report visit event state) =
      report (fun state event => t.map (visit state event)) event state := by
  simp [report]

theorem map_inTurn (visit : τ → α → m (Progress τ)) (items : List α) (state : τ) :
    t.map (inTurn visit items state) =
      inTurn (fun state item => t.map (visit state item)) items state := by
  induction items generalizing state with
  | nil => simp [inTurn]
  | cons item items ih => simp [inTurn, ih]

theorem map_walkEntry (follow : Bool) (visit : τ → Event → m (τ × Flow)) (depth : Nat)
    (ancestors : List Path) (path : Path) (kind : EntryKind) (state : τ) :
    t.map (walkEntry follow visit depth ancestors path kind state) =
      walkEntry follow (fun state event => t.map (visit state event)) depth ancestors path kind
        state := by
  induction depth generalizing ancestors path kind state with
  | zero => simp [walkEntry, map_report]
  | succ depth ih =>
    simp only [walkEntry]
    refine t.map_bind (t.map_resolveKind follow ancestors path kind) fun resolved => ?_
    cases resolved with
    | error trouble => simp [map_report]
    | ok kind =>
      refine t.map_bind (t.map_goesInto ancestors path kind) fun inside => ?_
      rcases inside with e | inside
      · simp [map_report]
      · cases inside with
        | false => simp [map_report]
        | true =>
          refine t.map_bind (t.list path) fun names => t.map_bind rfl fun visited => ?_
          obtain ⟨state, flow⟩ := visited
          cases flow with
          | stop | skip => simp
          | enter =>
            cases names with
            | error e => simp [map_report]
            | ok names => simp [map_inTurn, ih]

theorem map_walk (follow : Bool) (root : Path) (visit : τ → Event → m (τ × Flow)) (state : τ) :
    t.map (walk follow root visit state) =
      walk follow root (fun state event => t.map (visit state event)) state := by
  simp only [walk]
  refine t.map_bind (t.entryKind root) fun found => ?_
  cases found with
  | error e => simp [map_report]
  | ok kind => simp [map_walkEntry]

end

/-! ## Surveys and reviews -/

theorem map_survey (root : Path) (filter : Filter)
    (visit : τ → String → String → m (τ × Option ε)) (kept : τ) :
    t.map (survey root filter visit kept) =
      survey root filter (fun kept file text => t.map (visit kept file text)) kept := by
  have scanFile : ∀ path relative state, t.map (Survey.scanFile visit path relative state) =
      Survey.scanFile (fun kept file text => t.map (visit kept file text)) path relative state := by
    intro path relative state
    simp only [Survey.scanFile]
    refine t.map_bind (t.read path) fun bytes => ?_
    cases bytes with
    | error e => simp
    | ok bytes =>
      simp only
      cases String.fromUTF8? bytes <;> simp
  have onEvent : ∀ state event, t.map (Survey.onEvent root filter visit state event) =
      Survey.onEvent root filter (fun kept file text => t.map (visit kept file text)) state event := by
    intro state event
    cases event <;> simp [Survey.onEvent, scanFile]
  simp only [survey, bind, map_walk, onEvent]
  congr 1
  funext progress
  cases h : progress.state.failure <;> simp

theorem map_literals (confirm : Request → m (Except ε Bool)) (review : Review)
    (literals : List Literal) :
    t.map (review.literals confirm literals) =
      review.literals (fun request => t.map (confirm request)) literals := by
  induction literals generalizing review with
  | nil => simp [Review.literals]
  | cons literal literals ih =>
    simp only [Review.literals, map_ite, bind, ih]
    congr 2
    funext answer
    cases answer <;> simp [ih]

theorem map_reviewTree (confirm : Request → m (Except ε Bool)) (root : Path) (filter : Filter)
    (asked : Asked) :
    t.map (reviewTree confirm root filter asked) =
      reviewTree (fun request => t.map (confirm request)) root filter asked := by
  simp only [reviewTree, bind, map_survey, map_literals, pure]
  congr 3
  funext kept file text
  congr 1
  funext result
  obtain ⟨review, approved⟩ := result
  cases approved <;> simp

/-! ## Copies -/

section

open Storage

@[simp] theorem map_isDirectory (path : Path) : t.map (isDirectory path) = isDirectory path := by
  simp [isDirectory]

@[simp] theorem map_makeTopmost (paths : List Path) :
    t.map (makeTopmost paths) = makeTopmost paths := by
  induction paths with
  | nil => simp [makeTopmost]
  | cons path paths ih =>
    simp only [makeTopmost, map_ite, pure, bind, makeDirectory]
    congr 2
    funext made
    rcases made with e | _
    · cases e <;> simp [ih]
    · simp

@[simp] theorem map_makeEach (paths : List Path) : t.map (makeEach paths) = makeEach paths := by
  induction paths with
  | nil => simp [makeEach]
  | cons path paths ih =>
    simp only [makeEach]
    refine t.map_bind (t.makeDirectory path) fun made => ?_
    rcases made with e | _
    · cases e <;> simp [ih]
    · simp [ih]

@[simp] theorem map_makeDirectories (path : Path) :
    t.map (makeDirectories path) = makeDirectories path := by
  simp only [makeDirectories]
  refine t.map_bind (t.map_makeTopmost path.ancestors) fun missing => ?_
  cases missing <;> simp

end

theorem map_onEvent_copy (source destination : Path) (state : TreeCopy.State) (event : Walk.Event) :
    t.map (TreeCopy.onEvent source destination state event) =
      TreeCopy.onEvent source destination state event := by
  cases event with
  | trouble trouble => simp [TreeCopy.onEvent]
  | entry entry =>
    simp only [TreeCopy.onEvent, map_ite, pure]
    congr 1
    cases entry.kind with
    | file | link | special => simp
    | directory =>
      refine t.map_bind (t.map_makeDirectories _) fun made => ?_
      cases made <;> simp

theorem map_copyTree (source destination : Path) :
    t.map (copyTree source destination) = copyTree source destination := by
  have copyAll : ∀ jobs done, t.map (TreeCopy.copyAll jobs done) = TreeCopy.copyAll jobs done := by
    intro jobs
    induction jobs with
    | nil => simp [TreeCopy.copyAll]
    | cons job jobs ih =>
      intro done
      simp only [TreeCopy.copyAll]
      refine t.map_bind (t.copy job.source job.target) fun copied => ?_
      cases copied <;> simp [ih]
  simp only [copyTree, bind, map_walk, map_onEvent_copy, copyAll]

/-! ## Runs -/

theorem map_localizeFile (root : Path) (replacements : List Replacement) (path : Path) :
    t.map (Localization.localizeFile root replacements path) =
      Localization.localizeFile root replacements path := by
  simp only [Localization.localizeFile]
  refine t.map_bind (t.read path) fun bytes => ?_
  cases bytes with
  | error e => simp
  | ok bytes =>
    simp only
    cases String.fromUTF8? bytes with
    | none => simp
    | some text =>
      simp only
      obtain ⟨localized, count⟩ := localizeText text replacements
      cases count with
      | zero => simp
      | succ count =>
        refine t.map_bind (t.write path _) fun written => ?_
        cases written <;> simp

theorem map_localizeTree (root : Path) (catalog : Catalog) (table : String) :
    t.map (localizeTree root catalog table) = localizeTree root catalog table := by
  have onEvent : ∀ found event, t.map (Localization.onEvent root found event) =
      Localization.onEvent root found event := by
    intro found event
    cases event <;> simp [Localization.onEvent]
  have localizeAll : ∀ files done,
      t.map (Localization.localizeAll root (Replacement.ofCatalog catalog table) files done) =
        Localization.localizeAll root (Replacement.ofCatalog catalog table) files done := by
    intro files
    induction files with
    | nil => simp [Localization.localizeAll]
    | cons path files ih => simp [Localization.localizeAll, map_localizeFile, ih]
  simp [localizeTree, map_walk, onEvent, localizeAll]

theorem map_writeCatalog (plan : Plan) (catalog : Catalog) :
    t.map (Command.writeCatalog plan catalog) = Command.writeCatalog plan catalog := by
  simp only [Command.writeCatalog]
  cases plan.catalogFile.parent? with
  | none =>
    refine t.map_bind (t.write _ _) fun written => ?_
    cases written <;> simp
  | some parent =>
    refine t.map_bind (t.map_makeDirectories parent) fun made => ?_
    cases made with
    | error e => simp
    | ok =>
      refine t.map_bind (t.write _ _) fun written => ?_
      cases written <;> simp

end Translation

/-- What a run does after the review. -/
def Command.finish {m : Type → Type} [Monad m] [Storage m] {ε : Type} (lift : Failure → ε)
    (plan : Plan) (reviewed : Except ε Reviewed) : m (Except ε Outcome) := do
  let copied ← copyTree plan.sourceRoot plan.outputDir
  match reviewed with
  | .error e => return .error e
  | .ok reviewed =>
    let catalog : Catalog := ⟨reviewed.sentences⟩
    let localized ← localizeTree plan.outputDir catalog plan.table
    match ← writeCatalog plan catalog with
    | .error failure => return .error (lift failure)
    | .ok () =>
      let summary : RunSummary :=
        { catalog
          catalogFile := plan.catalogFile
          outputDir := plan.outputDir
          prompts := reviewed.prompts
          filesScanned := reviewed.tally.filesScanned
          filesCopied := copied.filesCopied
          filesChanged := localized.filesChanged
          replacements := localized.replacements
          binarySkipped := reviewed.tally.binarySkipped + localized.binarySkipped }
      return .ok
        ⟨.run summary, reviewed.tally.issues ++ copied.issues ++ localized.issues, .success⟩

/-- A run is a review and what comes after it. -/
theorem Command.carryOut_eq {m : Type → Type} [Monad m] [Storage m] {ε : Type} (lift : Failure → ε)
    (confirm : Request → m (Except ε Bool)) (plan : Plan) :
    carryOut lift confirm plan = (do
      let (_, reviewed) ← reviewTree confirm plan.sourceRoot plan.filter .empty
      finish lift plan reviewed) := rfl

namespace Translation

variable {m n : Type → Type} [Monad m] [Storage m] [Monad n] [Storage n] (t : Translation m n)
  {ε : Type}

theorem map_finish (lift : Failure → ε) (plan : Plan) (reviewed : Except ε Reviewed) :
    t.map (Command.finish lift plan reviewed) = Command.finish lift plan reviewed := by
  simp only [Command.finish]
  refine t.map_bind (t.map_copyTree _ _) fun copied => ?_
  cases reviewed with
  | error e => simp
  | ok reviewed =>
    refine t.map_bind (t.map_localizeTree _ _ _) fun localized =>
      t.map_bind (t.map_writeCatalog plan _) fun written => ?_
    cases written <;> simp

theorem map_carryOut (lift : Failure → ε) (confirm : Request → m (Except ε Bool)) (plan : Plan) :
    t.map (Command.carryOut lift confirm plan) =
      Command.carryOut lift (fun request => t.map (confirm request)) plan := by
  rw [Command.carryOut_eq, Command.carryOut_eq]
  exact t.map_bind (t.map_reviewTree _ _ _ _) fun result => t.map_finish lift plan result.2

/-- Running a program beside a state that it does not look at. -/
def lift (σ : Type) (m : Type → Type) [Monad m] [LawfulMonad m] [Storage m] :
    Translation m (StateT σ m) where
  map := StateT.lift
  pure value := funext fun state => pure_bind value _
  bind program next := by
    funext state
    have parts :
        (StateT.lift program >>= fun value => StateT.lift (next value) : StateT σ m _) state =
          (program >>= fun value => Pure.pure (value, state)) >>= fun between =>
            next between.1 >>= fun value => Pure.pure (value, between.2) := rfl
    rw [parts, bind_assoc]
    simp only [pure_bind]
    exact bind_assoc _ _ _
  kind _ := rfl
  entryKind _ := rfl
  list _ := rfl
  identify _ := rfl
  read _ := rfl
  write _ _ := rfl
  copy _ _ := rfl
  makeDirectory _ := rfl

end Translation

end Phrasebook
