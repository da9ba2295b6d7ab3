import Phrasebook.Proofs.Naturality
import Phrasebook.Proofs.Review
import Phrasebook.Proofs.Triples

/-!
# Conversations that are noted down

Main statements: a run goes the same way whether or not the exchanges with the operator are noted
down, and in a review only the last exchange can be one in which the operator fails, which is then
what the review returns.
-/

namespace Phrasebook

namespace Session

variable {σ ν ε α β : Type}

/-- The state without the notes. -/
def State.forget (state : State (σ × ν)) : State σ :=
  (state.1.1, state.2)

/-! ## With and without notes -/

/-- A program that keeps notes and one that does not, which otherwise do the same. -/
structure Twin (σ ν α : Type) where
  noting : Session (σ × ν) α
  plain : Session σ α
  same : ∀ state, exec plain state.forget = ((exec noting state).1, (exec noting state).2.forget)

namespace Twin

/-- An operation on the world, beside either state. -/
def lift (program : StateM World α) : Twin σ ν α where
  noting := StateT.lift program
  plain := StateT.lift program
  same _ := rfl

instance : Monad (Twin σ ν) where
  pure value := ⟨pure value, pure value, fun _ => rfl⟩
  bind program next :=
    { noting := program.noting >>= fun value => (next value).noting
      plain := program.plain >>= fun value => (next value).plain
      same := fun state => by
        rw [exec_bind, exec_bind, program.same, (next _).same] }

instance : Storage (Twin σ ν) where
  workingDirectory := lift Storage.workingDirectory
  kind path := lift (Storage.kind path)
  entryKind path := lift (Storage.entryKind path)
  list path := lift (Storage.list path)
  identify path := lift (Storage.identify path)
  canonical path := lift (Storage.canonical path)
  read path := lift (Storage.read path)
  write path bytes := lift (Storage.write path bytes)
  copy source target := lift (Storage.copy source target)
  makeDirectory path := lift (Storage.makeDirectory path)

/-- The program with notes. -/
def toNoting (σ ν : Type) : Translation (Twin σ ν) (Session (σ × ν)) where
  map := noting
  pure _ := rfl
  bind _ _ := rfl
  kind _ := rfl
  entryKind _ := rfl
  list _ := rfl
  identify _ := rfl
  read _ := rfl
  write _ _ := rfl
  copy _ _ := rfl
  makeDirectory _ := rfl

/-- The program without notes. -/
def toPlain (σ ν : Type) : Translation (Twin σ ν) (Session σ) where
  map := plain
  pure _ := rfl
  bind _ _ := rfl
  kind _ := rfl
  entryKind _ := rfl
  list _ := rfl
  identify _ := rfl
  read _ := rfl
  write _ _ := rfl
  copy _ _ := rfl
  makeDirectory _ := rfl

/-- The operator, noted down and not. -/
def ofConfirm (confirm : Request → Session σ (Except ε Bool)) (request : Request) :
    Twin σ (List (Exchange ε)) (Except ε Bool) where
  noting := noted confirm request
  plain := confirm request
  same _ := rfl

/-- A program runs as its twin does from empty notes. -/
theorem exec_recorded {twin : Twin σ (List β) α} {noting : Session (σ × List β) α}
    {plain : Session σ α} (hplain : twin.plain = plain) (hnoting : twin.noting = noting)
    (state : State σ) :
    exec plain state =
      ((exec (recorded noting) state).1.1, (exec (recorded noting) state).2) := by
  subst hplain hnoting
  exact twin.same ((state.1, []), state.2)

end Twin

section

variable (confirm : Request → Session σ (Except ε Bool)) (state : State σ)

theorem exec_reviewTree_noted (root : Path) (filter : Filter) (asked : Asked) :
    exec (reviewTree confirm root filter asked) state =
      (let ran := exec (recorded (reviewTree (noted confirm) root filter asked)) state
      (ran.1.1, ran.2)) :=
  Twin.exec_recorded
    ((Twin.toPlain σ _).map_reviewTree (Twin.ofConfirm confirm) root filter asked)
    ((Twin.toNoting σ _).map_reviewTree (Twin.ofConfirm confirm) root filter asked) state

theorem exec_carryOut_noted (lift : Failure → ε) (plan : Plan) :
    exec (Command.carryOut lift confirm plan) state =
      (let ran := exec (recorded (Command.carryOut lift (noted confirm) plan)) state
      (ran.1.1, ran.2)) :=
  Twin.exec_recorded ((Twin.toPlain σ _).map_carryOut lift (Twin.ofConfirm confirm) plan)
    ((Twin.toNoting σ _).map_carryOut lift (Twin.ofConfirm confirm) plan) state

end

/-- What a run does after the review leaves the operator and the notes alone. -/
theorem exec_finish (lift : Failure → ε) (plan : Plan) (reviewed : Except ε Reviewed)
    (state : State σ) :
    exec (Command.finish lift plan reviewed) state =
      (let ended := (Command.finish lift plan reviewed : StateM World _) state.2
      (ended.1, (state.1, ended.2))) := by
  rw [← (Translation.lift σ (StateM World)).map_finish]
  rfl

/-- All that is noted in a run is noted in its review. -/
theorem exec_recorded_carryOut (lift : Failure → ε) (confirm : Request → Session σ (Except ε Bool))
    (plan : Plan) (state : State σ) :
    exec (recorded (Command.carryOut lift (noted confirm) plan)) state =
      (let reviewed := exec
        (recorded (reviewTree (noted confirm) plan.sourceRoot plan.filter .empty)) state
      let ended := exec (Command.finish lift plan reviewed.1.1.2) reviewed.2
      ((ended.1, reviewed.1.2), ended.2)) := by
  obtain ⟨own, world⟩ := state
  rw [exec_recorded, exec_recorded, Command.carryOut_eq, exec_bind]
  simp only [exec_finish]

end Session

/-! ## Operators who fail -/

/-- The operator has answered. -/
def Exchange.Answered {ε : Type} (exchange : Exchange ε) : Prop :=
  ∃ answer, exchange.answer = .ok answer

namespace Review

variable {ε α : Type}

/-- The exchanges lead to the result: all are answered, or the operator fails at the last one and the
    result is that failure. -/
def Concludes (exchanges : List (Exchange ε)) : Except ε α → Prop
  | .ok _ => ∀ exchange ∈ exchanges, exchange.Answered
  | .error e => ∃ before request, exchanges = before ++ [⟨request, .error e⟩] ∧
      ∀ exchange ∈ before, exchange.Answered

/-- One more exchange. -/
theorem Concludes.ask {exchanges : List (Exchange ε)}
    (h : ∀ exchange ∈ exchanges, exchange.Answered) (request : Request) (answer : Except ε Bool) :
    Concludes (exchanges ++ [⟨request, answer⟩]) answer := by
  cases answer with
  | error e => exact ⟨exchanges, request, rfl, h⟩
  | ok answer =>
    intro exchange hmem
    rcases List.mem_append.mp hmem with before | last
    · exact h exchange before
    · obtain rfl := List.mem_singleton.mp last
      exact ⟨answer, rfl⟩

/-- A failure among the exchanges is what they lead to. -/
theorem Concludes.eq_error {exchanges : List (Exchange ε)} {result : Except ε α}
    (h : Concludes exchanges result) {request : Request} {e : ε}
    (hmem : ⟨request, .error e⟩ ∈ exchanges) : result = .error e := by
  have unanswered : ¬ (Exchange.mk request (.error e)).Answered := by
    rintro ⟨answer, same⟩
    cases same
  cases result with
  | ok value => exact absurd (h _ hmem) unanswered
  | error e' =>
    obtain ⟨before, request', rfl, answered⟩ := h
    rcases List.mem_append.mp hmem with earlier | last
    · exact absurd (answered _ earlier) unanswered
    · cases List.mem_singleton.mp last
      rfl

/-- There is a result exactly if the operator has not failed. -/
theorem Concludes.ok_iff {exchanges : List (Exchange ε)} {result : Except ε α}
    (h : Concludes exchanges result) :
    (∃ value, result = .ok value) ↔ ∀ exchange ∈ exchanges, exchange.Answered := by
  constructor
  · rintro ⟨value, rfl⟩
    exact h
  · intro answered
    cases result with
    | ok value => exact ⟨value, rfl⟩
    | error e =>
      obtain ⟨before, request, rfl, -⟩ := h
      obtain ⟨answer, same⟩ := answered _ (List.mem_append_right _ (List.mem_singleton_self _))
      cases same

end Review

/-- All exchanges that are noted in a state are answered, in a frame that is kept. -/
def Review.goesOn {S ε : Type} (notes : S → List (Exchange ε)) (frame : S → Prop) (s : S) : Prop :=
  (∀ exchange ∈ notes s, exchange.Answered) ∧ frame s

/-- If each exchange is noted down, the notes of a review lead to its result. -/
theorem Triples.concludes_reviewTree {m : Type → Type} [Monad m] [Storage m] {S ε : Type}
    (triples : Triples m S) (notes : S → List (Exchange ε)) (frame : S → Prop)
    {confirm : Request → m (Except ε Bool)}
    (hconfirm : ∀ request, triples.Sat (Review.goesOn notes frame) (confirm request)
      fun answer s => Review.Concludes (notes s) answer ∧ frame s)
    (root : Path) (filter : Filter) (asked : Asked) :
    triples.Sat (Review.goesOn notes frame) (Phrasebook.reviewTree confirm root filter asked)
      fun result s => Review.Concludes (notes s) result.2 ∧ frame s := by
  let failed : ε → S → Prop := fun e s =>
    Review.Concludes (notes s) (.error e : Except ε Unit) ∧ frame s
  have answers : (fun (answer : Except ε Bool) s => Review.Concludes (notes s) answer ∧ frame s) =
      outcome (Review.goesOn notes frame) failed := by
    funext answer
    cases answer <;> rfl
  have results : (fun (result : Asked × Except ε Reviewed) s =>
      Review.Concludes (notes s) result.2 ∧ frame s) =
      fun result => outcome (Review.goesOn notes frame) failed result.2 := by
    funext result
    obtain ⟨asked', reviewed⟩ := result
    cases reviewed <;> rfl
  rw [results]
  refine triples.reviewTree (fun request => ?_) root filter asked
  rw [← answers]
  exact hconfirm request

namespace Session

variable {σ ε : Type} {confirm : Request → Session σ (Except ε Bool)}

/-- What is noted in a review leads to its result, and the disk is as before. -/
theorem concludes_reviewTree
    (hconfirm : ∀ request state, (exec (confirm request) state).2.disk = state.disk) (root : Path)
    (filter : Filter) (asked : Asked) (state : State σ) :
    let ran := exec (recorded (reviewTree (noted confirm) root filter asked)) state
    Review.Concludes ran.1.2 ran.1.1.2 ∧ ran.2.disk = state.disk := by
  refine (triples (σ × List (Exchange ε))).concludes_reviewTree (fun now => now.1.2)
    (fun now => now.disk = state.disk) ?_ root filter asked ((state.1, []), state.2) ⟨by simp, rfl⟩
  rintro request ⟨⟨own, notes⟩, world⟩ ⟨answered, same⟩
  exact ⟨.ask answered request _, (hconfirm request (own, world)).trans same⟩

/-- A run that the operator interrupts returns their failure, after the copy has been made. -/
theorem exec_recorded_carryOut_failed
    (hconfirm : ∀ request state, (exec (confirm request) state).2.disk = state.disk)
    (lift : Failure → ε) (plan : Plan) {state : State σ} {request : Request} {e : ε}
    (h : ⟨request, .error e⟩ ∈
      (exec (recorded (Command.carryOut lift (noted confirm) plan)) state).1.2) :
    ∃ exchanges between, Review.Concludes exchanges (.error e : Except ε Outcome) ∧
      between.disk = state.disk ∧
      exec (recorded (Command.carryOut lift (noted confirm) plan)) state =
        ((.error e, exchanges), (exec (copyTree plan.sourceRoot plan.outputDir) between).2) := by
  obtain ⟨concluded, kept⟩ := concludes_reviewTree hconfirm plan.sourceRoot plan.filter .empty state
  rw [exec_recorded_carryOut] at h ⊢
  generalize exec (recorded (reviewTree (noted confirm) plan.sourceRoot plan.filter .empty)) state =
    reviewed at concluded kept h ⊢
  obtain ⟨⟨⟨asked, result⟩, exchanges⟩, between⟩ := reviewed
  obtain rfl : result = .error e := concluded.eq_error h
  exact ⟨exchanges, between, concluded, kept, rfl⟩

end Session

/-- An operator who goes by a state of their own, with every exchange noted down beside it. -/
def Exchange.log {σ ε : Type} (ask : Request → σ → Except ε Bool × σ) (request : Request) :
    σ × List (Exchange ε) → Except ε Bool × (σ × List (Exchange ε)) := fun (own, notes) =>
  let (answer, own) := ask request own
  (answer, (own, notes ++ [⟨request, answer⟩]))

namespace Threaded

variable {σ ε : Type}

/-- What is noted in a review leads to its result, whatever others do to the disk meanwhile. -/
theorem concludes_reviewTree (ask : Request → σ → Except ε Bool × σ) (root : Path) (filter : Filter)
    (asked : Asked) (own : σ) :
    (reviewTree (fun request => modifyGet (Exchange.log ask request)) root filter asked :
        Threaded (σ × List (Exchange ε)) _) (own, []) |>.Holds
      (fun _ => True) (fun disk later => later = disk)
      fun ended => Review.Concludes ended.2.2 ended.1.2 := by
  have asks : ∀ request, Assures
      (Review.goesOn (fun own : σ × List (Exchange ε) => own.2) fun _ => True)
      (modifyGet (Exchange.log ask request)) fun answer own =>
        Review.Concludes own.2 answer ∧ True := by
    rintro request ⟨own, notes⟩ ⟨answered, -⟩
    exact ⟨.ask answered request _, trivial⟩
  have reviewed := (triples (σ × List (Exchange ε))).concludes_reviewTree (fun own => own.2)
    (fun _ => True) asks root filter asked (own, []) ⟨by simp, trivial⟩
  exact reviewed.mono fun _ => And.left

end Threaded

end Phrasebook
