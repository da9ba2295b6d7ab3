import Phrasebook.Command.Scan
import Phrasebook.Proofs.Review
import Phrasebook.Proofs.Walk

/-!
# What a survey finds

What a survey counts, and which texts it hands to its visitor, is a function of the disk as long as
the visitor leaves the disk alone. So a listing of candidates and a review see the same literals.
Main statement: the requests of a review are those that a listing foretells, in its order, whatever
the operator answers.
-/

namespace Phrasebook

namespace Survey

/-- The filter leaves an entry out, with all that it holds. -/
def skips (root : Path) (filter : Filter) (entry : Walk.Entry) : Bool :=
  !(entry.path.relativeTo root).isEmpty && filter.ignored (entry.path.relativeTo root)

/-- What a survey makes of an event. -/
inductive Finding where
  | nothing
  | issue (issue : Issue)
  /-- A file that is not UTF-8. -/
  | binary
  | text (file text : String)

/-- The text that is found and its file. -/
def Finding.text? : Finding → Option (String × String)
  | .text file content => some (file, content)
  | _ => none

/-- What reading a file comes to. -/
def findingOf (relative : Path) : Except OsError ByteArray → Finding
  | .error e => .issue (.unread relative.text e.message)
  | .ok bytes =>
    match String.fromUTF8? bytes with
    | none => .binary
    | some text => .text relative.text text

/-- What a survey makes of an event on a disk. -/
def findingAt (disk : Disk) (root : Path) (filter : Filter) : Walk.Event → Finding
  | .trouble trouble => .issue (.unlisted (trouble.issueText root) trouble.message)
  | .entry entry =>
    let relative := entry.path.relativeTo root
    if skips root filter entry then .nothing
    else if entry.kind = .file && filter.accepts relative then
      findingOf relative (disk.read entry.path)
    else .nothing

/-- All that a survey finds on a disk, in order. -/
def findings (disk : Disk) (root : Path) (filter : Filter) : List Finding :=
  (Walk.pruned disk true (skips root filter) root).map (findingAt disk root filter)

/-- The texts that a survey finds on a disk, with their files. -/
def texts (disk : Disk) (root : Path) (filter : Filter) : List (String × String) :=
  (findings disk root filter).filterMap (·.text?)

end Survey

/-- Counts what a survey finds. -/
def Tally.add (tally : Tally) : Survey.Finding → Tally
  | .nothing => tally
  | .issue issue => { tally with issues := tally.issues ++ [issue] }
  | .binary => { tally with binarySkipped := tally.binarySkipped + 1 }
  | .text _ _ => { tally with filesScanned := tally.filesScanned + 1 }

/-- The tally of a survey on a disk. -/
def Survey.tally (disk : Disk) (root : Path) (filter : Filter) : Tally :=
  (findings disk root filter).foldl Tally.add .zero

namespace Session

open Survey

variable {σ τ ε : Type} {disk : Disk} {root : Path} {filter : Filter}
  {visit : τ → String → String → Session σ (τ × Option ε)}

/-- Hands texts to a visitor one after the other. -/
def handOver (visit : τ → String → String → Session σ (τ × Option ε)) :
    List (String × String) → τ → Session σ τ
  | [], kept => pure kept
  | (file, text) :: rest, kept => do
    let (kept, _) ← visit kept file text
    handOver visit rest kept

theorem exec_handOver_cons (file text : String) (rest : List (String × String)) (kept : τ)
    (state : State σ) :
    exec (handOver visit ((file, text) :: rest) kept) state =
      exec (handOver visit rest (exec (visit kept file text) state).1.1)
        (exec (visit kept file text) state).2 := rfl

/-- What a survey does at an event is to count what it finds and to hand over a text. -/
theorem exec_onEvent (survey : Survey.State τ ε) (event : Walk.Event) (state : State σ) :
    exec (Survey.onEvent root filter visit survey event) state =
      let tally := survey.tally.add (findingAt state.disk root filter event)
      match findingAt state.disk root filter event with
      | .text file text =>
        let visited := exec (visit survey.kept file text) state
        ((⟨visited.1.1, tally, visited.1.2⟩, if visited.1.2.isSome then .stop else .enter),
          visited.2)
      | _ => ((⟨survey.kept, tally, survey.failure⟩, event.flow (skips root filter)), state) := by
  cases event with
  | trouble trouble => rfl
  | entry entry =>
    rw [Survey.onEvent, findingAt, Walk.Event.flow]
    have split : (!(entry.path.relativeTo root).isEmpty &&
        filter.ignored (entry.path.relativeTo root)) = skips root filter entry := rfl
    simp only [split]
    by_cases skipped : skips root filter entry = true
    · simp only [if_pos skipped]
      rfl
    simp only [if_neg skipped]
    by_cases taken : (entry.kind = .file && filter.accepts (entry.path.relativeTo root)) = true
    · simp only [if_pos taken]
      rw [Survey.scanFile, exec_bind, exec_read]
      cases state.disk.read entry.path with
      | error e => rfl
      | ok bytes =>
        simp only [findingOf]
        cases String.fromUTF8? bytes <;> rfl
    · simp only [if_neg taken]
      rfl

section

variable
  (hvisit : ∀ kept file text state, state.disk = disk →
    (exec (visit kept file text) state).2.disk = disk ∧
      (exec (visit kept file text) state).1.2 = none)
include hvisit

/-- A visitor that leaves the disk alone and never fails lets the walk go on. -/
theorem exec_onEvent_goes_on (survey : Survey.State τ ε) (event : Walk.Event) {state : State σ}
    (hstate : state.disk = disk) :
    (exec (Survey.onEvent root filter visit survey event) state).2.disk = disk ∧
      (exec (Survey.onEvent root filter visit survey event) state).1.2 =
        event.flow (skips root filter) := by
  rw [exec_onEvent]
  cases found : findingAt state.disk root filter event with
  | nothing | issue | binary => exact ⟨hstate, rfl⟩
  | text file text =>
    obtain ⟨kept, goes⟩ := hvisit survey.kept file text state hstate
    refine ⟨kept, ?_⟩
    -- A text is found only at an entry that is not skipped.
    have enters : event.flow (skips root filter) = .enter := by
      cases event with
      | trouble trouble => rfl
      | entry entry =>
        rw [findingAt] at found
        split at found
        · cases found
        · next kept => rw [Walk.Event.flow, if_neg kept]
    simp only [goes, enters]
    rfl

/-- Over events, the texts are handed over in turn and all findings are counted. -/
theorem exec_relay_onEvent (happened : List Walk.Event) (kept : τ) (tally : Tally)
    {state : State σ} (hstate : state.disk = disk) :
    exec (relay (Survey.onEvent root filter visit) happened ⟨kept, tally, none⟩) state =
      let found := happened.map (findingAt disk root filter)
      let ended := exec (handOver visit (found.filterMap (·.text?)) kept) state
      (⟨ended.1, found.foldl Tally.add tally, none⟩, ended.2) := by
  induction happened generalizing kept tally state with
  | nil => rfl
  | cons event happened ih =>
    rw [exec_relay_cons, exec_onEvent, hstate]
    cases found : findingAt disk root filter event with
    | nothing | issue | binary =>
      rw [ih _ _ hstate]
      simp [found, Finding.text?]
    | text file text =>
      obtain ⟨later, goes⟩ := hvisit kept file text state hstate
      simp only [goes]
      rw [ih _ _ later]
      simp [found, Finding.text?, exec_handOver_cons]

/-- A survey hands the texts of the disk over in turn and returns their tally. -/
theorem exec_survey (hdisk : disk.WellFormed) (kept : τ) {state : State σ}
    (hstate : state.disk = disk) :
    exec (survey root filter visit kept) state =
      let ended := exec (handOver visit (texts disk root filter) kept) state
      ((ended.1, .ok (tally disk root filter)), ended.2) := by
  have alike : ∀ now : State σ, now.disk = disk → Walk.Alike root disk now.disk := fun now same =>
    same ▸ Walk.Alike.refl _ _
  have goesOn : ∀ survey event (now : State σ), now.disk = disk → event.Below root →
      (exec (Survey.onEvent root filter visit survey event) now).2.disk = disk ∧
        (exec (Survey.onEvent root filter visit survey event) now).1.2 =
          event.flow (skips root filter) :=
    fun survey event now same _ => exec_onEvent_goes_on hvisit survey event same
  rw [survey, exec_bind, exec_walk_pruned hdisk alike goesOn true _ hstate,
    exec_relay_onEvent hvisit _ _ _ hstate]
  rfl

end

/-! ## Listing candidates and reviewing them -/

/-- The candidates among texts. -/
def candidatesOf (found : List (String × String)) : List Candidate :=
  found.flatMap fun (file, text) => candidatesIn file text

/-- Adds the candidates of a text. -/
def listText (kept : List Candidate) (file text : String) :
    Session σ (List Candidate × Option Empty) :=
  pure (kept ++ candidatesIn file text, none)

/-- A listing is a survey that adds the candidates of each text. -/
theorem findCandidates_eq :
    (findCandidates root filter : Session σ _) = (do
      let (candidates, result) ← survey root filter listText []
      match result with
      | .ok tally => return (candidates, tally)
      | .error e => nomatch e) := rfl

theorem exec_handOver_listText (found : List (String × String)) (kept : List Candidate)
    (state : State σ) :
    exec (handOver listText found kept) state = (kept ++ candidatesOf found, state) := by
  induction found generalizing kept with
  | nil =>
    rw [candidatesOf, List.flatMap_nil, List.append_nil]
    rfl
  | cons first found ih =>
    rw [exec_handOver_cons, listText, exec_pure, ih, candidatesOf, candidatesOf, List.flatMap_cons,
      List.append_assoc]

/-- A listing returns the candidates of all texts and the tally. -/
theorem exec_findCandidates {state : State σ} (hdisk : state.disk.WellFormed) :
    exec (findCandidates root filter) state =
      ((candidatesOf (texts state.disk root filter), tally state.disk root filter), state) := by
  have keeps : ∀ kept file text (now : State σ), now.disk = state.disk →
      (exec (listText kept file text) now).2.disk = state.disk ∧
        (exec (listText kept file text) now).1.2 = none :=
    fun _ _ _ _ same => ⟨same, rfl⟩
  rw [findCandidates_eq, exec_bind, exec_survey keeps hdisk [] rfl, exec_handOver_listText]
  rfl

/-- Reviews the candidates of a text. -/
def reviewText (confirm : Request → Session σ (Except ε Bool)) :
    Review × List Approved → String → String → Session σ ((Review × List Approved) × Option ε) :=
  fun (review, sentences) file text => do
    let (review, result) ← review.literals confirm ((candidatesIn file text).map (·.literal))
    match result with
    | .ok approved => return ((review, sentences ++ approved), none)
    | .error e => return ((review, sentences), some e)

/-- A review of a tree is a survey that reviews each text. -/
theorem reviewTree_eq (confirm : Request → Session σ (Except ε Bool)) (asked : Asked) :
    reviewTree confirm root filter asked = (do
      let ((review, sentences), result) ←
        survey root filter (reviewText confirm) (Review.start asked, [])
      return (review.asked, result.map fun tally => ⟨sentences, review.prompts, tally⟩)) := rfl

/-- The operator leaves the disk alone and never fails. -/
structure Steady (confirm : Request → Session σ (Except ε Bool)) : Prop where
  keeps : ∀ request state, (exec (confirm request) state).2.disk = state.disk
  answers : ∀ request state, ∃ answer, (exec (confirm request) state).1 = .ok answer

namespace Steady

variable {confirm : Request → Session σ (Except ε Bool)} (hconfirm : Steady confirm)
include hconfirm

theorem noted : Steady (noted confirm) where
  keeps request state := hconfirm.keeps request (state.1.1, state.2)
  answers request state := hconfirm.answers request (state.1.1, state.2)

theorem exec_literals (review : Review) (literals : List Literal) (state : State σ) :
    (exec (review.literals confirm literals) state).2.disk = state.disk ∧
      ∃ approved, (exec (review.literals confirm literals) state).1.2 = .ok approved := by
  induction literals generalizing review state with
  | nil => exact ⟨rfl, [], rfl⟩
  | cons literal rest ih =>
    rw [Review.literals]
    split
    · exact ih review state
    · obtain ⟨answer, answered⟩ := hconfirm.answers literal.request state
      have kept := hconfirm.keeps literal.request state
      rw [exec_bind]
      generalize exec (confirm literal.request) state = asked at answered kept
      obtain ⟨result, state'⟩ := asked
      obtain rfl : result = .ok answer := answered
      obtain ⟨keptRest, approved, succeeded⟩ := ih (review.record literal.content) state'
      refine ⟨keptRest.trans kept, if answer then literal.approve :: approved else approved, ?_⟩
      simp only [exec_bind, exec_pure, succeeded]
      rfl

theorem exec_reviewText (kept : Review × List Approved) (file text : String) (state : State σ) :
    (exec (reviewText confirm kept file text) state).2.disk = state.disk ∧
      (exec (reviewText confirm kept file text) state).1.2 = none := by
  obtain ⟨review, sentences⟩ := kept
  rw [reviewText, exec_bind]
  obtain ⟨kept, approved, succeeded⟩ :=
    hconfirm.exec_literals review ((candidatesIn file text).map (·.literal)) state
  generalize exec (review.literals confirm _) state = ran at kept succeeded
  obtain ⟨⟨after, result⟩, state'⟩ := ran
  obtain rfl : result = .ok approved := succeeded
  exact ⟨kept, rfl⟩

/-- Text by text, the literals are put to the operator as if they were those of one call. -/
theorem exec_handOver (found : List (String × String)) (review : Review)
    (sentences : List Approved) (own : σ) (notes : List (Exchange ε)) (world : World) :
    ∃ exchanges after approved own' world',
      exec (handOver (reviewText (Session.noted confirm)) found (review, sentences))
        ((own, notes), world) =
          ((after, sentences ++ approved), ((own', notes ++ exchanges), world')) ∧
      exec (handOver (reviewText confirm) found (review, sentences)) (own, world) =
        ((after, sentences ++ approved), (own', world')) ∧
      Review.Asks review ((candidatesOf found).map (·.literal)) exchanges after (.ok approved) := by
  induction found generalizing review sentences own notes world with
  | nil =>
    refine ⟨[], review, [], own, world, ?_, ?_, .done⟩
    · rw [List.append_nil, List.append_nil]
      rfl
    · rw [List.append_nil]
      rfl
  | cons first found ih =>
    obtain ⟨file, text⟩ := first
    have succeeds := hconfirm.exec_literals review ((candidatesIn file text).map (·.literal))
      (own, world)
    obtain ⟨exchanges, between, result, own₁, world₁, ran, plain, asks⟩ :=
      Session.exec_literals confirm review ((candidatesIn file text).map (·.literal)) own notes world
    rw [plain] at succeeds
    obtain ⟨-, approved, rfl⟩ := succeeds
    obtain ⟨exchanges', after, approved', own', world', ran', plain', asks'⟩ :=
      ih between (sentences ++ approved) own₁ (notes ++ exchanges) world₁
    refine ⟨exchanges ++ exchanges', after, approved ++ approved', own', world', ?_, ?_, ?_⟩
    · rw [exec_handOver_cons, reviewText, exec_bind, ran, ← List.append_assoc, ← List.append_assoc]
      exact ran'
    · rw [exec_handOver_cons, reviewText, exec_bind, plain, ← List.append_assoc]
      exact plain'
    · rw [candidatesOf, List.flatMap_cons, List.map_append]
      exact asks.append asks'

/-- On a disk that stays as it is, a review of a tree is one call with the literals of all
    candidates. Noting the requests down changes nothing about it. -/
theorem exec_reviewTree (asked : Asked) {state : State σ} (hdisk : state.disk.WellFormed) :
    ∃ exchanges after approved state',
      exec (recorded (reviewTree (Session.noted confirm) root filter asked)) state =
        (((after.asked, .ok ⟨approved, after.prompts, tally state.disk root filter⟩), exchanges),
          state') ∧
      exec (reviewTree confirm root filter asked) state =
        ((after.asked, .ok ⟨approved, after.prompts, tally state.disk root filter⟩), state') ∧
      Review.Asks (.start asked)
        ((candidatesOf (texts state.disk root filter)).map (·.literal)) exchanges after
        (.ok approved) := by
  obtain ⟨own, world⟩ := state
  obtain ⟨exchanges, after, approved, own', world', ran, plain, asks⟩ :=
    hconfirm.exec_handOver (texts world.disk root filter) (.start asked) [] own [] world
  have steady {ς : Type} {confirm : Request → Session ς (Except ε Bool)} (h : Steady confirm) :
      ∀ kept file text (now : State ς), now.disk = world.disk →
        (exec (reviewText confirm kept file text) now).2.disk = world.disk ∧
          (exec (reviewText confirm kept file text) now).1.2 = none := by
    intro kept file text now same
    rw [← same]
    exact h.exec_reviewText kept file text now
  refine ⟨exchanges, after, approved, (own', world'), ?_, ?_, asks⟩
  · rw [exec_recorded, reviewTree_eq, exec_bind, exec_survey (steady hconfirm.noted) hdisk _ rfl, ran]
    rfl
  · rw [reviewTree_eq, exec_bind, exec_survey (steady hconfirm) hdisk _ rfl, plain]
    rfl

end Steady

end Session

namespace Survey

/-- A listing of candidates foretells a review: the operator is asked about the first candidate with
    each content, in the order of the listing, and what they approve of is returned in that order.
    The review and the listing have met with the same. -/
structure Foretells {ε : Type} (listing : List Candidate × Tally) (exchanges : List (Exchange ε))
    (reviewed : Reviewed) : Prop where
  requests : exchanges.map (·.request) =
    (Review.firsts (listing.1.map (·.literal))).map Literal.request
  prompts : reviewed.prompts = Command.distinctContents listing.1
  counted : reviewed.prompts = exchanges.length
  sentences : reviewed.sentences = Review.approvals exchanges
  distinct : (reviewed.sentences.map (·.content)).Nodup
  tally : reviewed.tally = listing.2

end Survey

/-- Whatever the operator answers, a listing of the candidates of a tree foretells its review. -/
theorem findCandidates_foretells {σ ε : Type} (confirm : Request → Session σ (Except ε Bool))
    (hconfirm : Session.Steady confirm) (root : Path) (filter : Filter) (state : Session.State σ)
    (hdisk : state.disk.WellFormed) :
    let listing := (Session.exec (findCandidates root filter) state).1
    let noted := Session.exec
      (Session.recorded (reviewTree (Session.noted confirm) root filter .empty)) state
    ∃ reviewed, noted.1.1.2 = .ok reviewed ∧
      Session.exec (reviewTree confirm root filter .empty) state = (noted.1.1, noted.2) ∧
      Survey.Foretells listing noted.1.2 reviewed := by
  intro listing noted
  obtain ⟨exchanges, after, approved, state', ran, plain, asks⟩ :=
    hconfirm.exec_reviewTree .empty hdisk
  refine ⟨⟨approved, after.prompts, Survey.tally state.disk root filter⟩, ?_, ?_, ?_⟩
  · exact congrArg (·.1.1.2) ran
  · rw [plain]
    exact congrArg (fun ended => (ended.1.1, ended.2)) ran.symm
  · have listed : listing = _ := congrArg Prod.fst (Session.exec_findCandidates hdisk)
    have notes : noted.1.2 = exchanges := congrArg (·.1.2) ran
    rw [listed, notes]
    have counted : after.prompts = exchanges.length := asks.prompts_eq.trans (Nat.zero_add _)
    have sentences := asks.approvals_of_ok
    constructor
    case requests =>
      have allNew : ∀ literals : List Literal,
          literals.filter (!(Review.start .empty).asked.contains ·.content) = literals :=
        fun literals => List.filter_eq_self.mpr fun _ _ => rfl
      rw [asks.requests_eq, allNew]
    case prompts =>
      have remembered := asks.asked_eq
      rw [asks.asked_eq_foldl, List.map_map] at remembered
      have sizes := congrArg List.length remembered
      rw [List.length_append, Review.contents, List.length_map] at sizes
      rw [counted]
      exact (sizes.trans (Nat.zero_add _)).symm
    case counted => exact counted
    case sentences => exact sentences
    case distinct =>
      rw [sentences]
      exact (Review.contents_approvals exchanges).nodup asks.nodup_contents
    case tally => rfl

/-- A disk with two files that share a sentence. -/
def Disk.refrain : Disk :=
  ((Disk.empty.insert ["src"] (.directory .full)).insert ["a.lua", "src"]
    (.file "say(\"Hello world\", \"Good night\")\n".toUTF8 .full)).insert ["b.lua", "src"]
    (.file "say('Hello world')\nsay(\"Good night\")\nsay(\"See you\")\n".toUTF8 .full)

theorem Disk.wellFormed_refrain : Disk.refrain.WellFormed := by
  have folder : (Disk.empty.insert ["src"] (.directory .full)).WellFormed :=
    Disk.wellFormed_empty.insert rfl (by decide) (by intro access h; cases h)
  have file : ((Disk.empty.insert ["src"] (.directory .full)).insert ["a.lua", "src"]
      (.file "say(\"Hello world\", \"Good night\")\n".toUTF8 .full)).WellFormed :=
    folder.insert rfl (by decide) (by intro access h; cases h)
  exact file.insert rfl (by decide) (by intro access h; cases h)

/-- An operator who approves of every other sentence. -/
def Session.everyOther (_ : Request) : Session Bool (Except Failure Bool) := fun approves world =>
  ((.ok approves, !approves), world)

/-- Five candidates with three contents foretell three requests. -/
theorem findCandidates_foretells_refrain :
    let listing := (Session.exec (findCandidates ⟨"/src"⟩ ⟨[], []⟩)
      (true, World.ofDisk .refrain [])).1
    let noted := Session.exec
      (Session.recorded (reviewTree (Session.noted Session.everyOther) ⟨"/src"⟩ ⟨[], []⟩ .empty))
      (true, World.ofDisk .refrain [])
    (listing.1.length = 5 ∧ Command.distinctContents listing.1 = 3) ∧
      ∃ reviewed, noted.1.1.2 = .ok reviewed ∧
        Session.exec (reviewTree Session.everyOther ⟨"/src"⟩ ⟨[], []⟩ .empty)
          (true, World.ofDisk .refrain []) = (noted.1.1, noted.2) ∧
        Survey.Foretells listing noted.1.2 reviewed :=
  ⟨by decide +kernel, findCandidates_foretells Session.everyOther ⟨fun _ _ => rfl, fun _ _ => ⟨_, rfl⟩⟩
    ⟨"/src"⟩ ⟨[], []⟩ (true, World.ofDisk .refrain []) Disk.wellFormed_refrain⟩

end Phrasebook
