import Mathlib.Logic.Relation
import Phrasebook.Disk
import Phrasebook.Proofs.Rules

/-!
# Threads

A thread is a program taken apart into its steps, each of which is one operation of a storage. Two
threads on one disk take their steps in any order. Main statements: they always come to an end, and
if one of them leaves the disk alone and is not misled by what the other does to it, both end as they
end alone.
-/

namespace Phrasebook

/-- A program in steps. A step may change the disk, and what comes after it depends on the disk it
    has found. -/
inductive Thread (α : Type) where
  | done (result : α)
  | step (change : Disk → Disk) (next : Disk → Thread α)

namespace Thread

variable {α β σ : Type}

/-- Goes on with another thread when one is done. -/
protected def bind : Thread α → (α → Thread β) → Thread β
  | done result, after => after result
  | step change next, after => step change fun disk => (next disk).bind after

instance : Monad Thread where
  pure := done
  bind := Thread.bind

/-- Looks at the disk. -/
def inspect (f : Disk → α) : Thread α :=
  step id fun disk => done (f disk)

/-- Changes the disk, unless the change fails. -/
def change (f : Disk → Except OsError Disk) : Thread (Except OsError Unit) :=
  step (fun disk => (f disk).toOption.getD disk) fun disk => done ((f disk).map fun _ => ())

instance : Storage Thread where
  workingDirectory := inspect (·.here.path)
  kind path := inspect (·.kind path)
  entryKind path := inspect (·.entryKind path)
  list path := inspect (·.list path)
  identify path := inspect (·.identify path)
  canonical path := inspect (·.canonical path)
  read path := inspect (·.read path)
  write path bytes := change (·.write path bytes)
  copy source target := change (·.copy source target)
  makeDirectory path := change (·.makeDirectory path)

/-- The result of a thread that runs alone, and the disk it leaves. -/
def run : Thread α → Disk → α × Disk
  | done result, disk => (result, disk)
  | step change next, disk => (next disk).run (change disk)

theorem run_bind (thread : Thread α) (after : α → Thread β) (disk : Disk) :
    (thread >>= after).run disk = (after (thread.run disk).1).run (thread.run disk).2 := by
  induction thread generalizing disk with
  | done value => rfl
  | step change next ih => exact ih disk (change disk)

/-! ## What a thread does -/

/-- As long as others keep the disk such that the thread can rely on it, each step changes the disk in
    a way it may, and the result is as said. -/
def Holds (rely : Disk → Prop) (may : Disk → Disk → Prop) (result : α → Prop) : Thread α → Prop
  | done value => result value
  | step change next => ∀ disk, rely disk → may disk (change disk) ∧ (next disk).Holds rely may result

variable {rely : Disk → Prop} {may : Disk → Disk → Prop}

theorem Holds.bind {thread : Thread α} {after : α → Thread β} {result : α → Prop}
    {result' : β → Prop} (h : thread.Holds rely may result)
    (hafter : ∀ value, result value → (after value).Holds rely may result') :
    (thread >>= after).Holds rely may result' := by
  induction thread with
  | done value => exact hafter value h
  | step change next ih =>
    intro disk hdisk
    obtain ⟨allowed, rest⟩ := h disk hdisk
    exact ⟨allowed, ih disk rest⟩

theorem Holds.mono {thread : Thread α} {result result' : α → Prop}
    (h : thread.Holds rely may result) (himp : ∀ value, result value → result' value) :
    thread.Holds rely may result' := by
  induction thread with
  | done value => exact himp value h
  | step change next ih =>
    intro disk hdisk
    obtain ⟨allowed, rest⟩ := h disk hdisk
    exact ⟨allowed, ih disk rest⟩

theorem holds_change {f : Disk → Except OsError Disk} (hmay : ∀ disk, rely disk → may disk disk)
    (hchange : ∀ disk later, rely disk → f disk = .ok later → may disk later) :
    (change f).Holds rely may fun _ => True := by
  intro disk hdisk
  refine ⟨?_, trivial⟩
  simp only
  cases h : f disk with
  | error e => exact hmay disk hdisk
  | ok later => exact hchange disk later hdisk h

/-- A thread that runs alone keeps what it relies on. -/
theorem Holds.run {thread : Thread α} {result : α → Prop} (h : thread.Holds rely may result)
    (hkeeps : ∀ disk later, rely disk → may disk later → rely later) {disk : Disk}
    (hdisk : rely disk) : result (thread.run disk).1 ∧ rely (thread.run disk).2 := by
  induction thread generalizing disk with
  | done value => exact ⟨h, hdisk⟩
  | step change next ih =>
    obtain ⟨allowed, rest⟩ := h disk hdisk
    exact ih disk rest (hkeeps disk _ hdisk allowed)

/-! ## Two threads on one disk -/

/-- A disk and two threads that take steps on it. -/
structure Pair (α β : Type) where
  disk : Disk
  first : Thread α
  second : Thread β

namespace Pair

/-- One of the threads takes a step. -/
inductive Step : Pair α β → Pair α β → Prop where
  | first {disk change next second} :
      Step ⟨disk, .step change next, second⟩ ⟨change disk, next disk, second⟩
  | second {disk first change next} :
      Step ⟨disk, first, .step change next⟩ ⟨change disk, first, next disk⟩

/-- The threads take steps in some order. -/
def Reaches : Pair α β → Pair α β → Prop :=
  Relation.ReflTransGen Step

/-- Whatever the order, the threads come to an end. -/
theorem acc_step (pair : Pair α β) : Acc (fun later now => Step now later) pair := by
  obtain ⟨disk, first, second⟩ := pair
  induction first generalizing disk second with
  | done result =>
    induction second generalizing disk with
    | done result' => exact .intro _ fun later step => by cases step
    | step change next ih =>
      refine .intro _ fun later step => ?_
      cases step with
      | second => exact ih _ _
  | step change next ih =>
    induction second generalizing disk with
    | done result =>
      refine .intro _ fun later step => ?_
      cases step with
      | first => exact ih _ _ _
    | step change' next' ih' =>
      refine .intro _ fun later step => ?_
      cases step with
      | first => exact ih _ _ _
      | second => exact ih' _ _

/-- Threads that can take no step are done. -/
theorem done_of_no_step {pair : Pair α β} (h : ∀ later, ¬ Step pair later) :
    ∃ result result', pair.first = .done result ∧ pair.second = .done result' := by
  obtain ⟨disk, first, second⟩ := pair
  cases first with
  | step change next => exact absurd .first (h _)
  | done result =>
    cases second with
    | step change next => exact absurd .second (h _)
    | done result' => exact ⟨result, result', rfl, rfl⟩

variable {result : α → Prop} {result' : β → Prop}

/-- The second thread leaves the disk alone and relies on no more than the first keeps. -/
structure Compatible (rely : Disk → Prop) (may : Disk → Disk → Prop) (result : α → Prop)
    (result' : β → Prop) (pair : Pair α β) : Prop where
  disk : rely pair.disk
  first : pair.first.Holds rely may result
  second : pair.second.Holds rely (fun disk later => later = disk) result'

theorem Compatible.step {now later : Pair α β} (h : Compatible rely may result result' now)
    (hkeeps : ∀ disk later, rely disk → may disk later → rely later) (hstep : Step now later) :
    Compatible rely may result result' later ∧
      later.first.run later.disk = now.first.run now.disk := by
  obtain ⟨hdisk, hfirst, hsecond⟩ := h
  cases hstep with
  | first =>
    obtain ⟨allowed, rest⟩ := hfirst _ hdisk
    exact ⟨⟨hkeeps _ _ hdisk allowed, rest, hsecond⟩, rfl⟩
  | second =>
    obtain ⟨same, rest⟩ := hsecond _ hdisk
    simp only at same ⊢
    rw [same]
    exact ⟨⟨hdisk, hfirst, rest⟩, rfl⟩

/-- In whatever order the threads take steps, what they rely on is kept, and the first goes on as it
    would alone. -/
theorem Compatible.reaches {now later : Pair α β} (h : Compatible rely may result result' now)
    (hkeeps : ∀ disk later, rely disk → may disk later → rely later) (hreaches : Reaches now later) :
    Compatible rely may result result' later ∧
      later.first.run later.disk = now.first.run now.disk := by
  induction hreaches with
  | refl => exact ⟨h, rfl⟩
  | tail _ step ih =>
    obtain ⟨compatible, same⟩ := ih
    obtain ⟨compatible', same'⟩ := compatible.step hkeeps step
    exact ⟨compatible', same'.trans same⟩

end Pair

end Thread

/-! ## Programs beside a state of their own -/

/-- Programs in steps beside a state that only they see. -/
abbrev Threaded (σ : Type) := StateT σ Thread

namespace Threaded

variable {α β σ : Type} {rely : Disk → Prop} {may : Disk → Disk → Prop}

/-- Whatever its own state, the program does what it may, and the result is as said. -/
def Does (rely : Disk → Prop) (may : Disk → Disk → Prop) (program : Threaded σ α)
    (result : α → Prop) : Prop :=
  ∀ own, (program own).Holds rely may fun ended => result ended.1

theorem does_pure {value : α} {result : α → Prop} (h : result value) :
    Does rely may (pure value : Threaded σ α) result :=
  fun _ => h

theorem Does.bind {program : Threaded σ α} {next : α → Threaded σ β} {result : α → Prop}
    {result' : β → Prop} (h : Does rely may program result)
    (hnext : ∀ value, result value → Does rely may (next value) result') :
    Does rely may (program >>= next) result' := by
  intro own
  refine (h own).bind ?_
  rintro ⟨value, own'⟩ hvalue
  exact hnext value hvalue own'

theorem does_inspect (f : Disk → α) (hmay : ∀ disk, rely disk → may disk disk) :
    Does rely may (StateT.lift (Thread.inspect f) : Threaded σ α) fun _ => True :=
  fun _ disk hdisk => ⟨hmay disk hdisk, trivial⟩

theorem does_change {f : Disk → Except OsError Disk} (hmay : ∀ disk, rely disk → may disk disk)
    (hchange : ∀ disk later, rely disk → f disk = .ok later → may disk later) :
    Does rely may (StateT.lift (Thread.change f) : Threaded σ _) fun _ => True :=
  fun _ => (Thread.holds_change hmay hchange).bind fun _ _ => trivial

/-- The rules for what a program does. -/
def rules (σ : Type) (rely : Disk → Prop) (may : Disk → Disk → Prop) : Rules (Threaded σ) where
  Sat := Does rely may
  ret := does_pure
  bind := Does.bind

/-- The program returns the value and leaves its own state alone. -/
def Gives (rely : Disk → Prop) (may : Disk → Disk → Prop) (program : Threaded σ α) (value : α) :
    Prop :=
  ∀ own, (program own).Holds rely may (· = (value, own))

/-- Whatever others do to the disk, the program ends in the same way, and the result is as said. -/
def Settles (rely : Disk → Prop) (may : Disk → Disk → Prop) (program : Threaded σ α)
    (result : α → Prop) : Prop :=
  ∀ own, ∃ ended, (program own).Holds rely may (· = ended) ∧ result ended.1

theorem gives_pure (value : α) : Gives rely may (pure value : Threaded σ α) value :=
  fun _ => rfl

theorem Gives.bind {program : Threaded σ α} {next : α → Threaded σ β} {value : α} {value' : β}
    (h : Gives rely may program value) (hnext : Gives rely may (next value) value') :
    Gives rely may (program >>= next) value' := by
  intro own
  refine (h own).bind ?_
  rintro _ rfl
  exact hnext own

theorem Gives.does {program : Threaded σ α} {value : α} (h : Gives rely may program value) :
    Does rely may program (· = value) :=
  fun own => (h own).mono fun _ same => congrArg Prod.fst same

theorem Gives.settles {program : Threaded σ α} {value : α} (h : Gives rely may program value) :
    Settles rely may program fun _ => True :=
  fun own => ⟨(value, own), h own, trivial⟩

theorem settles_pure {value : α} {result : α → Prop} (h : result value) :
    Settles rely may (pure value : Threaded σ α) result :=
  fun own => ⟨(value, own), rfl, h⟩

/-- A program that works on its own state does not look at the disk. -/
theorem settles_modifyGet (f : σ → α × σ) :
    Settles rely may (modifyGet f : Threaded σ α) fun _ => True :=
  fun own => ⟨f own, rfl, trivial⟩

theorem Settles.bind {program : Threaded σ α} {next : α → Threaded σ β} {result : α → Prop}
    {result' : β → Prop} (h : Settles rely may program result)
    (hnext : ∀ value, result value → Settles rely may (next value) result') :
    Settles rely may (program >>= next) result' := by
  intro own
  obtain ⟨⟨value, own'⟩, settled, hvalue⟩ := h own
  obtain ⟨ended, settled', hended⟩ := hnext value hvalue own'
  refine ⟨ended, settled.bind ?_, hended⟩
  rintro _ rfl
  exact settled'

theorem Gives.settles_bind {program : Threaded σ α} {next : α → Threaded σ β} {value : α}
    {result : β → Prop} (h : Gives rely may program value)
    (hnext : Settles rely may (next value) result) :
    Settles rely may (program >>= next) result := by
  intro own
  obtain ⟨ended, settled, hended⟩ := hnext own
  refine ⟨ended, (h own).bind ?_, hended⟩
  rintro _ rfl
  exact settled

/-- The rules for ending in the same way whatever others do. -/
def settling (σ : Type) (rely : Disk → Prop) (may : Disk → Disk → Prop) : Rules (Threaded σ) where
  Sat := Settles rely may
  ret := settles_pure
  bind := Settles.bind

/-- A program that settles ends, beside others, as it ends alone. -/
theorem Settles.eq_run {program : Threaded σ α} {result : α → Prop}
    (h : Settles rely may program result) (own : σ)
    (hkeeps : ∀ disk later, rely disk → may disk later → rely later) {disk : Disk}
    (hdisk : rely disk) : (program own).Holds rely may (· = ((program own).run disk).1) := by
  obtain ⟨ended, settled, -⟩ := h own
  obtain ⟨alone, -⟩ := settled.run hkeeps hdisk
  exact settled.mono fun value same => same.trans alone.symm

end Threaded

end Phrasebook
