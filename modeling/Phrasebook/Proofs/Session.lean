import Phrasebook.Proofs.Disk.Growth
import Phrasebook.Proofs.Rules
import Phrasebook.World

/-!
# Sessions

A session is a program that runs in a world while an operator keeps a state of their own. Here it is
said what each operation of a storage does in a session, and what it means that a program grows the
disk only by what is allowed.
-/

namespace Phrasebook

/-- Programs that run in a world beside the state of an operator. -/
abbrev Session (σ : Type) := StateT σ (StateM World)

namespace Session

variable {σ α β : Type}

/-- Where a session stands: the state of the operator and the world. -/
abbrev State (σ : Type) := σ × World

/-- The disk of the world. -/
def State.disk (state : State σ) : Disk := state.2.disk

/-- The same state with another disk. -/
def State.setDisk (state : State σ) (disk : Disk) : State σ :=
  (state.1, { state.2 with disk })

@[simp] theorem State.disk_setDisk (state : State σ) (disk : Disk) :
    (state.setDisk disk).disk = disk := rfl

/-- Runs a program: its result and where the session stands then. -/
def exec (program : Session σ α) (state : State σ) : α × State σ :=
  let ((result, own), world) := program state.1 state.2
  (result, (own, world))

/-- What becomes of a change to the disk. -/
def attempt (state : State σ) : Except OsError Disk → Except OsError Unit × State σ
  | .ok disk => (.ok (), state.setDisk disk)
  | .error e => (.error e, state)

theorem exec_pure (result : α) (state : State σ) : exec (pure result) state = (result, state) := rfl

theorem exec_bind (program : Session σ α) (next : α → Session σ β) (state : State σ) :
    exec (program >>= next) state =
      exec (next (exec program state).1) (exec program state).2 := rfl

theorem exec_kind (path : Path) (state : State σ) :
    exec (Storage.kind path) state = (state.disk.kind path, state) := rfl

theorem exec_entryKind (path : Path) (state : State σ) :
    exec (Storage.entryKind path) state = (state.disk.entryKind path, state) := rfl

theorem exec_list (path : Path) (state : State σ) :
    exec (Storage.list path) state = (state.disk.list path, state) := rfl

theorem exec_identify (path : Path) (state : State σ) :
    exec (Storage.identify path) state = (state.disk.identify path, state) := rfl

theorem exec_read (path : Path) (state : State σ) :
    exec (Storage.read path) state = (state.disk.read path, state) := rfl

theorem exec_lift (program : StateM World α) (state : State σ) :
    exec (StateT.lift program) state =
      ((program state.2).1, (state.1, (program state.2).2)) := rfl

theorem exec_lift_change (change : Disk → Except OsError Disk) (state : State σ) :
    exec (StateT.lift (World.change change)) state = attempt state (change state.disk) := by
  obtain ⟨own, world⟩ := state
  have disk : State.disk (own, world) = world.disk := rfl
  rw [exec_lift, disk]
  cases h : change world.disk with
  | ok later => simp only [World.change, h, attempt, State.setDisk]
  | error e => simp only [World.change, h, attempt]

theorem exec_write (path : Path) (bytes : ByteArray) (state : State σ) :
    exec (Storage.write path bytes) state = attempt state (state.disk.write path bytes) :=
  exec_lift_change (·.write path bytes) state

theorem exec_copy (source target : Path) (state : State σ) :
    exec (Storage.copy source target) state = attempt state (state.disk.copy source target) :=
  exec_lift_change (·.copy source target) state

theorem exec_makeDirectory (path : Path) (state : State σ) :
    exec (Storage.makeDirectory path) state = attempt state (state.disk.makeDirectory path) :=
  exec_lift_change (·.makeDirectory path) state

/-! ## Programs that grow the disk -/

/-- On every file system the program grows the disk by what is allowed, and its result is as said. -/
def Within (allowed : Path → Node → Prop) (program : Session σ α) (result : α → Prop) : Prop :=
  ∀ state : State σ, state.disk.WellFormed →
    state.disk.Grows allowed (exec program state).2.disk ∧ result (exec program state).1

variable {allowed : Path → Node → Prop}

theorem within_pure {value : α} {result : α → Prop} (h : result value) :
    Within allowed (pure value : Session σ α) result :=
  fun _ _ => ⟨.refl, h⟩

theorem Within.bind {program : Session σ α} {next : α → Session σ β} {result : α → Prop}
    {result' : β → Prop} (h : Within allowed program result)
    (hnext : ∀ value, result value → Within allowed (next value) result') :
    Within allowed (program >>= next) result' := by
  intro state hdisk
  obtain ⟨grows, hvalue⟩ := h state hdisk
  obtain ⟨grows', hresult⟩ := hnext _ hvalue _ (grows.wellFormed hdisk)
  exact ⟨grows.trans grows', hresult⟩

theorem Within.mono {program : Session σ α} {result result' : α → Prop}
    (h : Within allowed program result) (himp : ∀ value, result value → result' value) :
    Within allowed program result' :=
  fun state hdisk => ⟨(h state hdisk).1, himp _ (h state hdisk).2⟩

/-- A program that keeps the disk does nothing that might not be allowed. -/
theorem within_of_keeps {program : Session σ α}
    (h : ∀ state, (exec program state).2.disk = state.disk) :
    Within allowed program fun _ => True := by
  intro state _
  rw [h state]
  exact ⟨.refl, trivial⟩

theorem within_kind (path : Path) :
    Within allowed (Storage.kind path : Session σ _) fun _ => True :=
  within_of_keeps fun _ => rfl

theorem within_entryKind (path : Path) :
    Within allowed (Storage.entryKind path : Session σ _) fun _ => True :=
  within_of_keeps fun _ => rfl

theorem within_identify (path : Path) :
    Within allowed (Storage.identify path : Session σ _) fun _ => True :=
  within_of_keeps fun _ => rfl

theorem within_read (path : Path) :
    Within allowed (Storage.read path : Session σ _) fun _ => True :=
  within_of_keeps fun _ => rfl

theorem within_list (path : Path) :
    Within allowed (Storage.list path : Session σ _)
      fun listed => ∀ names, listed = .ok names → ∀ item ∈ names, Path.IsName item.1 :=
  fun _ hdisk => ⟨.refl, fun _ listed _ hmem => hdisk.isName_of_list listed hmem⟩

theorem within_attempt {program : Session σ (Except OsError Unit)}
    {change : Disk → Except OsError Disk}
    (hprogram : ∀ state, exec program state = attempt state (change state.disk))
    (hchange : ∀ disk disk', disk.WellFormed → change disk = .ok disk' → disk.Grows allowed disk') :
    Within allowed program fun _ => True := by
  intro state hdisk
  rw [hprogram]
  cases h : change state.disk with
  | ok disk => exact ⟨hchange _ _ hdisk h, trivial⟩
  | error e => exact ⟨.refl, trivial⟩

theorem within_makeDirectory {path : Path} (hpath : allowed path (.directory .full)) :
    Within allowed (Storage.makeDirectory path : Session σ _) fun _ => True :=
  within_attempt (exec_makeDirectory path) fun _ _ _ h => Disk.grows_of_makeDirectory hpath h

theorem within_write {path : Path} (hpath : ∀ node, node.IsFile → allowed path node)
    (bytes : ByteArray) :
    Within allowed (Storage.write path bytes : Session σ _) fun _ => True :=
  within_attempt (exec_write path bytes) fun _ _ hdisk h => Disk.grows_of_write hpath hdisk h

theorem within_copy (source : Path) {target : Path}
    (htarget : ∀ node, node.IsFile → allowed target node) :
    Within allowed (Storage.copy source target : Session σ _) fun _ => True :=
  within_attempt (exec_copy source target) fun _ _ hdisk h => Disk.grows_of_copy htarget hdisk h

/-- The rules for growing the disk by what is allowed. -/
def rules (σ : Type) (allowed : Path → Node → Prop) : Rules (Session σ) where
  Sat := Within allowed
  ret := within_pure
  bind := Within.bind

/-- Making a directory with its parents grows the disk along them. -/
theorem within_makeDirectories {path : Path}
    (hpaths : ∀ above, Path.Above above path → allowed above (.directory .full)) :
    Within allowed (Storage.makeDirectories path : Session σ _) fun _ => True :=
  (rules σ allowed).makeDirectories within_kind fun above habove =>
    within_makeDirectory (hpaths above habove)

/-! ## Programs that change nothing but the disk -/

/-- The rules for programs that change nothing but the disk. -/
def onlyDisk (σ : Type) : Rules (Session σ) where
  Sat program result := ∀ state, (exec program state).2 = state.setDisk (exec program state).2.disk ∧
    result (exec program state).1
  ret h := fun _ => ⟨rfl, h⟩
  bind := by
    intro α β program next result result' h hnext state
    obtain ⟨kept, hvalue⟩ := h state
    obtain ⟨kept', hresult⟩ := hnext _ hvalue (exec program state).2
    refine ⟨?_, hresult⟩
    rw [exec_bind, kept', kept]
    rfl

theorem setDisk_makeDirectories (path : Path) (state : State σ) :
    (exec (Storage.makeDirectories path) state).2 =
      state.setDisk (exec (Storage.makeDirectories path) state).2.disk := by
  have make : ∀ above, (onlyDisk σ).Sat (Storage.makeDirectory above) fun _ => True := by
    intro above state
    rw [exec_makeDirectory]
    cases state.disk.makeDirectory above <;> exact ⟨rfl, trivial⟩
  exact ((onlyDisk σ).makeDirectories (fun _ _ => ⟨rfl, trivial⟩) (fun above _ => make above)
    state).1

end Session

end Phrasebook
