import Phrasebook.Proofs.Conversation
import Phrasebook.Proofs.Independence
import Phrasebook.Proofs.Survey

/-!
# Runs that the operator interrupts

Main statement: if the operator fails at a request, that is the last request, the run returns the
failure, and all it has written is the copy; whatever else goes wrong in a review becomes an issue.
The same holds in whatever order the review and the copy take their steps.
-/

namespace Phrasebook

namespace Thread

variable {α β : Type}

/-- Nothing has to be known of a thread that may do anything. -/
theorem holds_anything (rely : Disk → Prop) (thread : Thread α) :
    thread.Holds rely (fun _ _ => True) fun _ => True := by
  induction thread with
  | done value => trivial
  | step change next ih => exact fun disk _ => ⟨trivial, ih disk⟩

/-- Beside a thread that leaves the disk alone, another one ends as it ends alone. -/
theorem Pair.done_beside_looker {pair later : Pair α β} {result : β → Prop}
    (hlooker : pair.second.Holds (fun _ => True) (fun disk later => later = disk) result)
    (hreaches : Pair.Reaches pair later) (hstuck : ∀ next, ¬ Pair.Step later next) :
    ∃ value, result value ∧
      later = ⟨(pair.first.run pair.disk).2, .done (pair.first.run pair.disk).1, .done value⟩ := by
  have compatible : Pair.Compatible (fun _ => True) (fun _ _ => True) (fun _ => True) result pair :=
    ⟨trivial, holds_anything _ pair.first, hlooker⟩
  obtain ⟨⟨-, -, looked⟩, same⟩ := compatible.reaches (fun _ _ _ _ => trivial) hreaches
  obtain ⟨done, value, first, second⟩ := Pair.done_of_no_step hstuck
  obtain ⟨disk, laterFirst, laterSecond⟩ := later
  subst first second
  refine ⟨value, looked, ?_⟩
  rw [← same]
  rfl

end Thread

namespace Session

variable {σ : Type}

theorem exec_copyTree_lift (source destination : Path) (state : State σ) :
    exec (copyTree source destination) state =
      (let copied := (copyTree source destination : StateM World _) state.2
      (copied.1, (state.1, copied.2))) := by
  rw [← (Translation.lift σ (StateM World)).map_copyTree]
  rfl

/-- A copy is the run of one thread on the disk. -/
theorem run_copyTree (source destination : Path) (state : State σ) :
    ((copyTree source destination : Threaded Unit _) ()).run state.disk =
      (((exec (copyTree source destination) state).1, ()),
        (exec (copyTree source destination) state).2.disk) := by
  have alone := Threaded.run_copyTree source destination () state.2
  rw [exec_copyTree_lift] at alone ⊢
  exact alone

/-- What a copy leaves depends on the disk alone. -/
theorem disk_copyTree_congr (source destination : Path) {state other : State σ}
    (h : state.disk = other.disk) :
    (exec (copyTree source destination) state).2.disk =
      (exec (copyTree source destination) other).2.disk := by
  have both := run_copyTree source destination state
  rw [h, run_copyTree source destination other] at both
  exact (congrArg Prod.snd both).symm

end Session

open Thread.Pair in
/-- A run and its review, with the exchanges noted down, for any operator who leaves the disk alone.
    Noting changes nothing. If the operator fails at a request, the run returns the failure, makes no
    further request, and leaves the disk as the copy alone leaves it. A review returns a result exactly
    if the operator answers every request. While the copy and the review take steps in any order, the
    disk ends as the copy alone leaves it, and the review with a failure of the operator, if there is
    one, as its last request. -/
theorem carryOut_interrupted {σ ε : Type} (lift : Failure → ε)
    (confirm : Request → Session σ (Except ε Bool))
    (hconfirm : ∀ request state, (Session.exec (confirm request) state).2.disk = state.disk)
    (plan : Plan) (state : Session.State σ) :
    let ran := Session.exec
      (Session.recorded (Command.carryOut lift (Session.noted confirm) plan)) state
    let copied := Session.exec (copyTree plan.sourceRoot plan.outputDir) state
    (Session.exec (Command.carryOut lift confirm plan) state = (ran.1.1, ran.2) ∧
      ∀ request e, ⟨request, .error e⟩ ∈ ran.1.2 →
        ran.1.1 = .error e ∧ Review.Concludes ran.1.2 ran.1.1 ∧ ran.2.disk = copied.2.disk) ∧
    (∀ root filter asked,
      let reviewed := Session.exec
        (Session.recorded (reviewTree (Session.noted confirm) root filter asked)) state
      Session.exec (reviewTree confirm root filter asked) state = (reviewed.1.1, reviewed.2) ∧
        ((∃ found, reviewed.1.1.2 = .ok found) ↔
          ∀ exchange ∈ reviewed.1.2, exchange.Answered)) ∧
    ∀ (ask : Request → σ → Except ε Bool × σ) later,
      Reaches (plan.beside state.disk
        ((reviewTree (fun request => modifyGet (Exchange.log ask request)) plan.sourceRoot
          plan.filter .empty : Threaded (σ × List (Exchange ε)) _) (state.1, []))) later →
      (∀ next, ¬ Step later next) →
      ∃ reviewed own exchanges,
        later = ⟨copied.2.disk, .done (copied.1, ()), .done (reviewed, (own, exchanges))⟩ ∧
          Review.Concludes exchanges reviewed.2 := by
  intro ran copied
  refine ⟨⟨Session.exec_carryOut_noted confirm state lift plan, ?_⟩, ?_, ?_⟩
  · intro request e failed
    obtain ⟨exchanges, between, concluded, kept, same⟩ :=
      Session.exec_recorded_carryOut_failed hconfirm lift plan failed
    have same : ran = _ := same
    rw [same]
    exact ⟨rfl, concluded, Session.disk_copyTree_congr _ _ kept⟩
  · intro root filter asked reviewed
    have concluded := Session.concludes_reviewTree hconfirm root filter asked state
    exact ⟨Session.exec_reviewTree_noted confirm state root filter asked, concluded.1.ok_iff⟩
  · intro ask later reaches stuck
    obtain ⟨⟨reviewed, own, exchanges⟩, concluded, rfl⟩ := Thread.Pair.done_beside_looker
      (Threaded.concludes_reviewTree ask plan.sourceRoot plan.filter .empty state.1) reaches stuck
    refine ⟨reviewed, own, exchanges, ?_, concluded⟩
    have alone := Session.run_copyTree plan.sourceRoot plan.outputDir state
    simp only [Plan.beside, alone]
    rfl

/-- An operator who approves of one sentence and then breaks off. -/
def Session.breaksOff (_ : Request) : Session Bool (Except Failure Bool) := fun asked world =>
  ((if asked then .error (.inputUnreadable .notUtf8) else .ok true, true), world)

/-- A run with this operator, and what is noted of it. -/
def Plan.brokenOff (plan : Plan) (disk : Disk) :
    (Except Failure Outcome × List (Exchange Failure)) × Session.State Bool :=
  Session.exec (Session.recorded (Command.carryOut id (Session.noted Session.breaksOff) plan))
    (false, World.ofDisk disk [])

/-- The disk after the copy alone. -/
def Plan.copiedTo (plan : Plan) (disk : Disk) : Disk :=
  (Session.exec (copyTree plan.sourceRoot plan.outputDir) (false, World.ofDisk disk [])).2.disk

/-- Two requests are made where there are three sentences, and the copy is all that is written. -/
theorem carryOut_interrupted_refrain :
    ((Plan.sample "/out" "/lang.lua").brokenOff .refrain).1.2.map (·.request.content) =
        ["Hello world", "Good night"] ∧
      ((Plan.sample "/out" "/lang.lua").brokenOff .refrain).1.1 =
        .error (.inputUnreadable .notUtf8) ∧
      ((Plan.sample "/out" "/lang.lua").brokenOff .refrain).2.disk =
        (Plan.sample "/out" "/lang.lua").copiedTo .refrain := by
  -- Stated for every plan and disk, so that nothing is computed here.
  have interrupted : ∀ (plan : Plan) (disk : Disk) (e : Failure),
      .error e ∈ (plan.brokenOff disk).1.2.map (·.answer) →
        (plan.brokenOff disk).1.1 = .error e ∧
          (plan.brokenOff disk).2.disk = plan.copiedTo disk := by
    intro plan disk e failed
    obtain ⟨⟨request, answer⟩, hmem, rfl⟩ := List.mem_map.mp failed
    obtain ⟨⟨-, stops⟩, -⟩ := carryOut_interrupted id Session.breaksOff (fun _ _ => rfl) plan
      (false, World.ofDisk disk [])
    obtain ⟨result, -, same⟩ := stops request e hmem
    exact ⟨result, same⟩
  have answers : ((Plan.sample "/out" "/lang.lua").brokenOff .refrain).1.2.map (·.answer) =
      [.ok true, .error (.inputUnreadable .notUtf8)] := by
    decide +kernel
  refine ⟨by decide +kernel, interrupted _ _ _ ?_⟩
  rw [answers]
  exact List.mem_cons_of_mem _ List.mem_cons_self

end Phrasebook
