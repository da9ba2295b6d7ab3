import Phrasebook.Proofs.Session
import Phrasebook.Review

/-!
# What an operator is asked

Each call of a review goes through literals and puts those to the operator whose content is new. The
requests are noted down with their answers, so that it can be said what the operator has seen. Main
statement: however many calls there are and however the operator answers or fails, no content is
asked about twice, and what is asked, counted and approved is what the notes say.
-/

namespace Phrasebook

/-- A request that was put to an operator, and how they answered it. -/
structure Exchange (ε : Type) where
  request : Request
  answer : Except ε Bool

/-- The operator has approved. -/
def Exchange.approves {ε : Type} (exchange : Exchange ε) : Bool :=
  exchange.answer matches .ok true

/-- The sentence that an approval is about. -/
def Request.approved (request : Request) : Approved :=
  ⟨request.content, ⟨request.file, request.line⟩⟩

@[simp] theorem Literal.approved_request (literal : Literal) :
    literal.request.approved = literal.approve := rfl

namespace Session

variable {σ α β ε : Type}

/-- The operator, with every exchange noted down beside their state. -/
def noted (confirm : Request → Session σ (Except ε Bool)) (request : Request) :
    Session (σ × List (Exchange ε)) (Except ε Bool) := fun (own, notes) world =>
  let ((answer, own), world) := confirm request own world
  ((answer, (own, notes ++ [⟨request, answer⟩])), world)

/-- Runs a program from empty notes and returns them with the result. -/
def recorded (program : Session (σ × List β) α) : Session σ (α × List β) := fun own world =>
  let ((result, (own, notes)), world) := program (own, []) world
  (((result, notes), own), world)

theorem exec_noted (confirm : Request → Session σ (Except ε Bool)) (request : Request) (own : σ)
    (notes : List (Exchange ε)) (world : World) :
    exec (noted confirm request) ((own, notes), world) =
      let asked := exec (confirm request) (own, world)
      (asked.1, ((asked.2.1, notes ++ [⟨request, asked.1⟩]), asked.2.2)) := rfl

theorem exec_recorded (program : Session (σ × List β) α) (own : σ) (world : World) :
    exec (recorded program) (own, world) =
      let ended := exec program ((own, []), world)
      ((ended.1, ended.2.1.2), (ended.2.1.1, ended.2.2)) := rfl

end Session

namespace Asked

@[simp] theorem contains_iff {asked : Asked} {content : String} :
    asked.contains content = true ↔ content ∈ asked.contents := by
  simp [contains]

theorem insert_of_not_mem {asked : Asked} {content : String} (h : content ∉ asked.contents) :
    asked.insert content = ⟨asked.contents ++ [content]⟩ := by
  have absent : ¬ asked.contains content = true := fun there => h (contains_iff.mp there)
  rw [insert, if_neg absent]

end Asked

namespace Review

variable {ε : Type}

/-- What is returned when an answer comes before the rest. -/
def prepend (literal : Literal) (answer : Bool) (result : Except ε (List Approved)) :
    Except ε (List Approved) :=
  result.map fun approved => if answer then literal.approve :: approved else approved

/-- A call goes through literals with the given exchanges, after which the review stands as said and
    the call returns the result. -/
inductive Asks : Review → List Literal → List (Exchange ε) → Review → Except ε (List Approved) →
    Prop where
  | done {review} : Asks review [] [] review (.ok [])
  | known {review literal rest exchanges after result} : literal.content ∈ review.asked.contents →
      Asks review rest exchanges after result →
      Asks review (literal :: rest) exchanges after result
  | failed {review literal rest e} : literal.content ∉ review.asked.contents →
      Asks review (literal :: rest) [⟨literal.request, .error e⟩] (review.record literal.content)
        (.error e)
  | answered {review literal rest answer exchanges after result} :
      literal.content ∉ review.asked.contents →
      Asks (review.record literal.content) rest exchanges after result →
      Asks review (literal :: rest) (⟨literal.request, .ok answer⟩ :: exchanges) after
        (prepend literal answer result)

/-- The contents that were asked about. -/
def contents (exchanges : List (Exchange ε)) : List String :=
  exchanges.map (·.request.content)

@[simp] theorem contents_nil : contents ([] : List (Exchange ε)) = [] := rfl

@[simp] theorem contents_cons (exchange : Exchange ε) (exchanges : List (Exchange ε)) :
    contents (exchange :: exchanges) = exchange.request.content :: contents exchanges := rfl

@[simp] theorem contents_append (exchanges more : List (Exchange ε)) :
    contents (exchanges ++ more) = contents exchanges ++ contents more :=
  List.map_append

/-- The sentences that were approved. -/
def approvals (exchanges : List (Exchange ε)) : List Approved :=
  (exchanges.filter (·.approves)).map (·.request.approved)

theorem contents_approvals (exchanges : List (Exchange ε)) :
    ((approvals exchanges).map (·.content)).Sublist (contents exchanges) := by
  rw [approvals, List.map_map]
  exact List.filter_sublist.map _

/-- The literals up to the first with a content. -/
def upTo (content : String) : List Literal → List Literal
  | [] => []
  | literal :: rest =>
    if literal.content = content then [literal] else literal :: upTo content rest

/-- The literals that come first with their content. -/
def firsts (literals : List Literal) : List Literal :=
  literals.eraseDupsBy (·.content == ·.content)

/-- The literals that a call has gone through: all of them, or those up to the one that the operator
    failed at. -/
def handled (literals : List Literal) (exchanges : List (Exchange ε)) :
    Except ε (List Approved) → List Literal
  | .ok _ => literals
  | .error _ => upTo ((contents exchanges).getLast?.getD "") literals

theorem asked_record {review : Review} {content : String} (h : content ∉ review.asked.contents) :
    (review.record content).asked.contents = review.asked.contents ++ [content] := by
  rw [record, Asked.insert_of_not_mem h]

namespace Asks

variable {review after : Review} {literals : List Literal} {exchanges : List (Exchange ε)}
  {result : Except ε (List Approved)}

/-- What has been asked is remembered, in the order it was asked. -/
theorem asked_eq (h : Asks review literals exchanges after result) :
    after.asked.contents = review.asked.contents ++ contents exchanges := by
  induction h with
  | done => simp
  | known _ _ ih => exact ih
  | failed new => exact asked_record new
  | answered new _ ih => rw [ih, asked_record new, List.append_assoc]; rfl

theorem prompts_eq (h : Asks review literals exchanges after result) :
    after.prompts = review.prompts + exchanges.length := by
  induction h with
  | done => rfl
  | known _ _ ih => exact ih
  | failed => rfl
  | answered _ _ ih =>
    rw [ih, List.length_cons]
    exact Nat.add_right_comm ..

/-- Only new contents are asked about. -/
theorem not_mem_asked (h : Asks review literals exchanges after result) {content : String}
    (hmem : content ∈ contents exchanges) : content ∉ review.asked.contents := by
  induction h with
  | done => simp at hmem
  | known _ _ ih => exact ih hmem
  | failed new =>
    obtain rfl := List.mem_singleton.mp hmem
    exact new
  | answered new _ ih =>
    rcases List.mem_cons.mp hmem with rfl | later
    · exact new
    · have := ih later
      rw [asked_record new] at this
      exact fun there => this (List.mem_append_left _ there)

theorem nodup_contents (h : Asks review literals exchanges after result) :
    (contents exchanges).Nodup := by
  induction h with
  | done => exact .nil
  | known _ _ ih => exact ih
  | failed => exact List.nodup_singleton _
  | answered new rest ih =>
    refine List.nodup_cons.mpr ⟨fun again => ?_, ih⟩
    have := rest.not_mem_asked again
    rw [asked_record new] at this
    exact this (List.mem_append_right _ (List.mem_singleton_self _))

/-- A call that fails ends with the request that the operator failed at. -/
theorem getLast?_of_error {e : ε} (h : Asks review literals exchanges after (.error e)) :
    ∃ request, exchanges.getLast? = some ⟨request, .error e⟩ := by
  generalize hresult : Except.error e = result at h
  induction h with
  | done => cases hresult
  | known _ _ ih => exact ih hresult
  | failed =>
    cases hresult
    exact ⟨_, rfl⟩
  | @answered _ _ _ _ exchanges _ result _ _ ih =>
    cases result with
    | ok approved => cases hresult
    | error e' =>
      cases hresult
      obtain ⟨request, last⟩ := ih rfl
      refine ⟨request, ?_⟩
      cases exchanges with
      | nil => simp at last
      | cons first rest => rwa [List.getLast?_cons_cons]

/-- A call that succeeds returns what was approved. -/
theorem approvals_of_ok {approved : List Approved}
    (h : Asks review literals exchanges after (.ok approved)) : approved = approvals exchanges := by
  generalize hresult : Except.ok approved = result at h
  induction h generalizing approved with
  | done =>
    cases hresult
    rfl
  | known _ _ ih => exact ih hresult
  | failed => cases hresult
  | @answered _ literal _ answer exchanges _ result _ _ ih =>
    cases result with
    | error e => cases hresult
    | ok rest =>
      have later := ih rfl
      cases answer with
      | true =>
        obtain rfl : approved = literal.approve :: rest := Except.ok.inj hresult
        rw [later]
        rfl
      | false =>
        obtain rfl : approved = rest := Except.ok.inj hresult
        rw [later]
        rfl

/-- A failed call has gone through literals up to one that was not asked about before. -/
theorem exists_last_of_error {e : ε} (h : Asks review literals exchanges after (.error e)) :
    ∃ last, (contents exchanges).getLast? = some last ∧ last ∉ review.asked.contents := by
  obtain ⟨request, last⟩ := h.getLast?_of_error
  refine ⟨request.content, by rw [contents, List.getLast?_map, last]; rfl, ?_⟩
  exact h.not_mem_asked (List.mem_map_of_mem (List.mem_of_getLast? last))

theorem handled_known {literal : Literal} (known : literal.content ∈ review.asked.contents)
    (h : Asks review literals exchanges after result) :
    handled (literal :: literals) exchanges result =
      literal :: handled literals exchanges result := by
  cases result with
  | ok approved => rfl
  | error e =>
    obtain ⟨last, hlast, new⟩ := h.exists_last_of_error
    have other : literal.content ≠ last := fun same => new (same ▸ known)
    rw [handled, handled, hlast, Option.getD_some, upTo, if_neg other]

theorem handled_answered {literal : Literal} {answer : Bool}
    (new : literal.content ∉ review.asked.contents)
    (h : Asks (review.record literal.content) literals exchanges after result) :
    handled (literal :: literals) (⟨literal.request, .ok answer⟩ :: exchanges)
        (prepend literal answer result) =
      literal :: handled literals exchanges result := by
  cases result with
  | ok approved => rfl
  | error e =>
    obtain ⟨last, hlast, absent⟩ := h.exists_last_of_error
    have other : literal.content ≠ last := by
      rintro rfl
      exact absent (by simp [asked_record new])
    have later : (literal.request.content :: contents exchanges).getLast? = some last := by
      rw [List.getLast?_cons, hlast, Option.getD_some]
    rw [prepend, Except.map, handled, handled, contents_cons, later, hlast, Option.getD_some, upTo,
      if_neg other]

/-- Every literal that was gone through has been asked about. -/
theorem mem_asked_of_handled (h : Asks review literals exchanges after result) {literal : Literal}
    (hmem : literal ∈ handled literals exchanges result) :
    literal.content ∈ after.asked.contents := by
  induction h with
  | done => simp [handled] at hmem
  | known known rest ih =>
    rw [rest.handled_known known] at hmem
    rcases List.mem_cons.mp hmem with rfl | later
    · rw [rest.asked_eq]
      exact List.mem_append_left _ known
    · exact ih later
  | failed new =>
    obtain rfl : literal = _ := by simpa [handled, upTo, Literal.request] using hmem
    simp [asked_record new]
  | answered new rest ih =>
    rw [rest.handled_answered new] at hmem
    rcases List.mem_cons.mp hmem with rfl | later
    · rw [rest.asked_eq, asked_record new]
      simp
    · exact ih later

/-- A request is about the first literal with its content. -/
theorem find?_handled (h : Asks review literals exchanges after result) {exchange : Exchange ε}
    (hmem : exchange ∈ exchanges) :
    ((handled literals exchanges result).find?
      (·.content = exchange.request.content)).map Literal.request = some exchange.request := by
  have here : ∀ (literal : Literal) (more : List Literal),
      ((literal :: more).find? (·.content = literal.request.content)).map Literal.request =
        some literal.request := by
    intro literal more
    rw [List.find?_cons_of_pos (by simp [Literal.request]), Option.map_some]
  induction h with
  | done => simp at hmem
  | @known _ literal _ _ _ _ known rest ih =>
    have other : literal.content ≠ exchange.request.content := fun same =>
      rest.not_mem_asked (List.mem_map_of_mem hmem) (same ▸ known)
    rw [rest.handled_known known, List.find?_cons_of_neg (by simpa using other)]
    exact ih hmem
  | failed new =>
    obtain rfl := List.mem_singleton.mp hmem
    simp [handled, upTo, Literal.request]
  | @answered _ literal _ _ _ _ _ new rest ih =>
    rw [rest.handled_answered new]
    rcases List.mem_cons.mp hmem with rfl | later
    · exact here literal _
    · have other : literal.content ≠ exchange.request.content := by
        intro same
        refine rest.not_mem_asked (List.mem_map_of_mem later) ?_
        rw [asked_record new, same]
        simp
      rw [List.find?_cons_of_neg (by simpa using other)]
      exact ih later

/-- Two calls, one after the other, are one call with the literals of both. -/
theorem append {after' : Review} {more : List Literal} {exchanges' : List (Exchange ε)}
    {approved approved' : List Approved} (h : Asks review literals exchanges after (.ok approved))
    (h' : Asks after more exchanges' after' (.ok approved')) :
    Asks review (literals ++ more) (exchanges ++ exchanges') after' (.ok (approved ++ approved')) := by
  generalize hresult : Except.ok approved = result at h
  induction h generalizing approved with
  | done =>
    cases hresult
    exact h'
  | known known _ ih => exact .known known (ih h' hresult)
  | failed => cases hresult
  | @answered _ literal _ answer _ _ result new _ ih =>
    cases result with
    | error e => cases hresult
    | ok rest =>
      have later := @Asks.answered _ _ literal _ answer _ _ _ new (ih h' rfl)
      obtain rfl := Except.ok.inj hresult
      cases answer <;> exact later

/-- A call that succeeds has asked about all that it was given, or knew it before. -/
theorem asked_eq_foldl {approved : List Approved}
    (h : Asks review literals exchanges after (.ok approved)) :
    after.asked = (literals.map (·.content)).foldl Asked.insert review.asked := by
  generalize hresult : Except.ok approved = result at h
  induction h generalizing approved with
  | done => rfl
  | known known _ ih =>
    rw [ih hresult, List.map_cons, List.foldl_cons, Asked.insert, if_pos (Asked.contains_iff.mpr known)]
  | failed => cases hresult
  | @answered _ _ _ _ _ _ result _ _ ih =>
    cases result with
    | error e => cases hresult
    | ok rest => exact ih rfl

/-- The requests of a call that succeeds are about the first literals with each new content. -/
theorem requests_eq {approved : List Approved}
    (h : Asks review literals exchanges after (.ok approved)) :
    exchanges.map (·.request) =
      (firsts (literals.filter (!review.asked.contains ·.content))).map Literal.request := by
  generalize hresult : Except.ok approved = result at h
  induction h generalizing approved with
  | done => rfl
  | known known _ ih =>
    rw [ih hresult, List.filter_cons_of_neg (by simpa using known)]
  | failed => cases hresult
  | @answered review literal rest _ _ _ result new _ ih =>
    cases result with
    | error e => cases hresult
    | ok _ =>
      have others : (rest.filter (!review.asked.contains ·.content)).filter
          (fun other => decide ((other.content == literal.content) = false)) =
          rest.filter (!(review.record literal.content).asked.contains ·.content) := by
        rw [List.filter_filter]
        refine List.filter_congr fun other _ => ?_
        rw [Bool.eq_iff_iff]
        simp [asked_record new, Bool.eq_false_iff, and_comm]
      rw [List.filter_cons_of_pos (by simpa [Bool.eq_false_iff] using new), firsts,
        List.eraseDupsBy_cons, List.map_cons, List.map_cons, ih rfl, others, firsts]

end Asks

/-- One call of a review: what it was given, the exchanges it led to, where the review stood after it
    and what it returned. -/
structure Call (ε : Type) where
  literals : List Literal
  exchanges : List (Exchange ε)
  after : Review
  result : Except ε (List Approved)

namespace Call

/-- The literals that the call has gone through. -/
def handled (call : Call ε) : List Literal :=
  Review.handled call.literals call.exchanges call.result

/-- The sentences that the call has returned, none if it has failed. -/
def approved (call : Call ε) : List Approved :=
  match call.result with
  | .ok approved => approved
  | .error _ => []

/-- Each call goes on where the one before it has left off. -/
def Linked : Review → List (Call ε) → Prop
  | _, [] => True
  | review, call :: rest =>
    Asks review call.literals call.exchanges call.after call.result ∧ Linked call.after rest

namespace Linked

variable {review : Review} {calls : List (Call ε)}

theorem exists_asks (h : Linked review calls) {call : Call ε} (hmem : call ∈ calls) :
    ∃ before, Asks before call.literals call.exchanges call.after call.result := by
  induction calls generalizing review with
  | nil => simp at hmem
  | cons first rest ih =>
    rcases List.mem_cons.mp hmem with rfl | later
    · exact ⟨review, h.1⟩
    · exact ih h.2 later

/-- After each call the review remembers and counts the requests of all calls up to it. -/
theorem after_eq {before later : List (Call ε)} {call : Call ε}
    (h : Linked review (before ++ call :: later)) :
    call.after.asked.contents =
        review.asked.contents ++ contents ((before ++ [call]).flatMap (·.exchanges)) ∧
      call.after.prompts =
        review.prompts + ((before ++ [call]).flatMap (·.exchanges)).length := by
  induction before generalizing review with
  | nil =>
    obtain ⟨asks, -⟩ := h
    simpa using ⟨asks.asked_eq, asks.prompts_eq⟩
  | cons first before ih =>
    obtain ⟨asks, linked⟩ := h
    obtain ⟨asked, prompts⟩ := ih linked
    rw [asks.asked_eq] at asked
    rw [asks.prompts_eq] at prompts
    constructor
    · rw [asked]
      simp
    · rw [prompts]
      simp [Nat.add_assoc]

/-- Over all calls, only new contents are asked about, and none twice. -/
theorem nodup_contents (h : Linked review calls) :
    (contents (calls.flatMap (·.exchanges))).Nodup ∧
      ∀ content ∈ contents (calls.flatMap (·.exchanges)), content ∉ review.asked.contents := by
  induction calls generalizing review with
  | nil => simp
  | cons call rest ih =>
    obtain ⟨asks, linked⟩ := h
    obtain ⟨distinct, new⟩ := ih linked
    rw [asks.asked_eq] at new
    rw [List.flatMap_cons, contents_append]
    constructor
    · refine List.nodup_append.mpr ⟨asks.nodup_contents, distinct, ?_⟩
      rintro content inCall _ later rfl
      exact new content later (List.mem_append_right _ inCall)
    · intro content hmem
      rcases List.mem_append.mp hmem with inCall | later
      · exact asks.not_mem_asked inCall
      · exact fun there => new content later (List.mem_append_left _ there)

/-- Over all calls, a request is about the first literal with its content. -/
theorem find?_handled (h : Linked review calls) {exchange : Exchange ε}
    (hmem : exchange ∈ calls.flatMap (·.exchanges)) :
    ((calls.flatMap (·.handled)).find? (·.content = exchange.request.content)).map Literal.request =
      some exchange.request := by
  induction calls generalizing review with
  | nil => simp at hmem
  | cons call rest ih =>
    obtain ⟨asks, linked⟩ := h
    rw [List.flatMap_cons, List.find?_append]
    rw [List.flatMap_cons] at hmem
    rcases List.mem_append.mp hmem with inCall | later
    · obtain ⟨literal, found, same⟩ := Option.map_eq_some_iff.mp (asks.find?_handled inCall)
      rw [handled, found, Option.some_or, Option.map_some, same]
    · have new := linked.nodup_contents.2 _ (List.mem_map_of_mem later)
      have absent : call.handled.find? (·.content = exchange.request.content) = none := by
        rw [List.find?_eq_none]
        intro literal inCall same
        have there := asks.mem_asked_of_handled inCall
        exact new ((of_decide_eq_true same) ▸ there)
      rw [absent, Option.none_or]
      exact ih linked later

/-- What calls have returned is among what was asked about. -/
theorem sublist_approved (h : Linked review calls) :
    ((calls.flatMap (·.approved)).map (·.content)).Sublist
      (contents (calls.flatMap (·.exchanges))) := by
  induction calls generalizing review with
  | nil => exact .refl _
  | cons call rest ih =>
    obtain ⟨asks, linked⟩ := h
    rw [List.flatMap_cons, List.flatMap_cons, List.map_append, contents_append]
    refine List.Sublist.append ?_ (ih linked)
    rw [approved]
    split
    · next approved succeeded =>
      rw [succeeded] at asks
      rw [asks.approvals_of_ok]
      exact contents_approvals _
    · exact List.nil_sublist _

end Linked

end Call

/-- Over calls that started with some contents asked about, each content is asked about at most once:
    what is asked about is new and comes from the first literal with its content that was gone
    through. After each call the review remembers what it started with and what was asked since, and
    counts the requests. A call that succeeds returns what the operator approved in it, one that fails
    ends with the request that failed. -/
structure AskedOnce (asked : Asked) (calls : List (Call ε)) : Prop where
  distinct : (contents (calls.flatMap (·.exchanges))).Nodup
  new : ∀ exchange ∈ calls.flatMap (·.exchanges),
    asked.contains exchange.request.content = false
  first : ∀ exchange ∈ calls.flatMap (·.exchanges),
    ((calls.flatMap (·.handled)).find? (·.content = exchange.request.content)).map Literal.request =
      some exchange.request
  remembered : ∀ before call later, calls = before ++ call :: later → ∀ content,
    call.after.asked.contains content = true ↔
      asked.contains content = true ∨
        content ∈ contents ((before ++ [call]).flatMap (·.exchanges))
  prompts : ∀ before call later, calls = before ++ call :: later →
    call.after.prompts = ((before ++ [call]).flatMap (·.exchanges)).length ∧
      call.after.asked.size = asked.size + call.after.prompts
  complete : ∀ call ∈ calls, ∀ literal ∈ call.handled,
    call.after.asked.contains literal.content = true
  returned : ∀ call ∈ calls, ∀ approved, call.result = .ok approved →
    approved = approvals call.exchanges
  failed : ∀ call ∈ calls, ∀ e, call.result = .error e →
    ∃ request, call.exchanges.getLast? = some ⟨request, .error e⟩
  approvedOnce : ((calls.flatMap (·.approved)).map (·.content)).Nodup

end Review

namespace Session

variable {σ ε : Type}

/-- Puts literals to an operator, call by call. A call that fails does not keep the next from being
    made. -/
def calls (confirm : Request → Session σ (Except ε Bool)) :
    Review → List (List Literal) → Session σ (List (Review.Call ε))
  | _, [] => pure []
  | review, literals :: rest => do
    let ((after, result), exchanges) ← recorded (review.literals (noted confirm) literals)
    let later ← calls confirm after rest
    return ⟨literals, exchanges, after, result⟩ :: later

/-- What happens in a call is noted down, and the notes change nothing about it. -/
theorem exec_literals (confirm : Request → Session σ (Except ε Bool)) (review : Review)
    (literals : List Literal) (own : σ) (notes : List (Exchange ε)) (world : World) :
    ∃ exchanges after result own' world',
      exec (review.literals (noted confirm) literals) ((own, notes), world) =
        ((after, result), ((own', notes ++ exchanges), world')) ∧
      exec (review.literals confirm literals) (own, world) = ((after, result), (own', world')) ∧
      Review.Asks review literals exchanges after result := by
  induction literals generalizing review own notes world with
  | nil => exact ⟨[], review, .ok [], own, world, by rw [List.append_nil]; rfl, rfl, .done⟩
  | cons literal rest ih =>
    rw [Review.literals, Review.literals]
    by_cases known : review.asked.contains literal.content = true
    · obtain ⟨exchanges, after, result, own', world', ran, plain, asks⟩ := ih review own notes world
      rw [if_pos known, if_pos known]
      exact ⟨exchanges, after, result, own', world', ran, plain,
        .known (Asked.contains_iff.mp known) asks⟩
    · have new : literal.content ∉ review.asked.contents := fun there =>
        known (Asked.contains_iff.mpr there)
      rw [if_neg known, if_neg known, exec_bind, exec_bind, exec_noted]
      generalize exec (confirm literal.request) (own, world) = asked
      obtain ⟨answer | answer, own₁, world₁⟩ := asked
      · exact ⟨[⟨literal.request, .error answer⟩], _, .error answer, own₁, world₁, rfl, rfl,
          .failed new⟩
      · obtain ⟨exchanges, after, result, own', world', ran, plain, asks⟩ :=
          ih (review.record literal.content) own₁ (notes ++ [⟨literal.request, .ok answer⟩]) world₁
        refine ⟨⟨literal.request, .ok answer⟩ :: exchanges, after, Review.prepend literal answer result,
          own', world', ?_, ?_, .answered new asks⟩
        · simp only [exec_bind, ran, exec_pure, List.append_assoc, List.singleton_append]
          rfl
        · simp only [exec_bind, plain, exec_pure]
          rfl

theorem linked_calls (confirm : Request → Session σ (Except ε Bool)) (review : Review)
    (lists : List (List Literal)) (state : State σ) :
    Review.Call.Linked review (exec (calls confirm review lists) state).1 ∧
      (exec (calls confirm review lists) state).1.map (·.literals) = lists := by
  induction lists generalizing review state with
  | nil => exact ⟨trivial, rfl⟩
  | cons literals rest ih =>
    obtain ⟨own, world⟩ := state
    obtain ⟨exchanges, after, result, own', world', ran, -, asks⟩ :=
      exec_literals confirm review literals own [] world
    obtain ⟨linked, same⟩ := ih after (own', world')
    rw [calls, exec_bind, exec_recorded, ran]
    exact ⟨⟨asks, linked⟩, congrArg (literals :: ·) same⟩

end Session

/-- Whatever the operator answers or fails at, calls of a review ask about each content at most once. -/
theorem calls_askedOnce {σ ε : Type} (confirm : Request → Session σ (Except ε Bool)) (asked : Asked)
    (lists : List (List Literal)) (state : Session.State σ) :
    let calls := (Session.exec (Session.calls confirm (.start asked) lists) state).1
    calls.map (·.literals) = lists ∧ Review.AskedOnce asked calls := by
  intro calls
  obtain ⟨linked, given⟩ := Session.linked_calls confirm (.start asked) lists state
  refine ⟨given, ?_⟩
  obtain ⟨distinct, new⟩ := linked.nodup_contents
  constructor
  case distinct => exact distinct
  case new =>
    intro exchange hmem
    have := new _ (List.mem_map_of_mem hmem)
    rwa [Bool.eq_false_iff, Ne, Asked.contains_iff]
  case first => exact fun exchange hmem => linked.find?_handled hmem
  case remembered =>
    intro before call later split content
    have after : Review.Call.Linked (.start asked) (before ++ call :: later) := split ▸ linked
    rw [Asked.contains_iff, Asked.contains_iff, after.after_eq.1, List.mem_append]
    rfl
  case prompts =>
    intro before call later split
    have after : Review.Call.Linked (.start asked) (before ++ call :: later) := split ▸ linked
    obtain ⟨remembered, counted⟩ := after.after_eq
    rw [Review.start, Nat.zero_add] at counted
    refine ⟨counted, ?_⟩
    rw [counted, Asked.size, remembered, List.length_append, Review.contents, List.length_map]
    rfl
  case complete =>
    intro call hmem literal inCall
    obtain ⟨before, asks⟩ := linked.exists_asks hmem
    exact Asked.contains_iff.mpr (asks.mem_asked_of_handled inCall)
  case returned =>
    intro call hmem approved succeeded
    obtain ⟨before, asks⟩ := linked.exists_asks hmem
    exact (succeeded ▸ asks).approvals_of_ok
  case failed =>
    intro call hmem e failed
    obtain ⟨before, asks⟩ := linked.exists_asks hmem
    exact (failed ▸ asks).getLast?_of_error
  case approvedOnce => exact linked.sublist_approved.nodup distinct

end Phrasebook
