import Phrasebook.Console
import Phrasebook.Disk

/-!
# Worlds

A disk and a console together, on which the program runs as a pure function.
-/

namespace Phrasebook

/-- A disk, the input that has not been read yet, and what has been written so far. -/
structure World where
  disk : Disk
  input : List UInt8
  output : String
  errors : String

namespace World

/-- A world with a disk and some input, in which nothing has been written. -/
def ofDisk (disk : Disk) (input : List UInt8) : World := ⟨disk, input, "", ""⟩

/-- Looks at the disk. -/
def inspect {α : Type} (f : Disk → α) : StateM World α := fun world =>
  (f world.disk, world)

/-- Changes the disk, unless the change fails. -/
def change (f : Disk → Except OsError Disk) : StateM World (Except OsError Unit) := fun world =>
  match f world.disk with
  | .ok disk => (.ok (), { world with disk })
  | .error e => (.error e, world)

end World

instance : Storage (StateM World) where
  workingDirectory := World.inspect (·.here.path)
  kind path := World.inspect (·.kind path)
  entryKind path := World.inspect (·.entryKind path)
  list path := World.inspect (·.list path)
  identify path := World.inspect (·.identify path)
  canonical path := World.inspect (·.canonical path)
  read path := World.inspect (·.read path)
  write path bytes := World.change (·.write path bytes)
  copy source target := World.change (·.copy source target)
  makeDirectory path := World.change (·.makeDirectory path)

instance : Console (StateM World) where
  print text := fun world => ((), { world with output := world.output ++ text })
  printError text := fun world => ((), { world with errors := world.errors ++ text })
  readLine := fun world =>
    let (line, rest) := Console.splitLine world.input
    (Console.decodeLine line, { world with input := rest })

end Phrasebook
