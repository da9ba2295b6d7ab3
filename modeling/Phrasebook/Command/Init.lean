import Phrasebook.Command.Outcome

/-!
# The command `init`
-/

namespace Phrasebook

namespace Command

/-- Writes the default configuration into a directory, unless it holds a configuration already. -/
def init {m : Type → Type} [Monad m] [Storage m] (directory : Path) :
    m (Except Failure Outcome) := do
  let file := directory.child Config.fileName
  if ← Storage.isPresent file then
    return .ok ⟨.init false, [], .refusal⟩
  match ← Storage.write file Config.default.render.toUTF8 with
  | .ok () => return .ok ⟨.init true, [], .success⟩
  | .error e => return .error (.configUnwritable file e)

end Command

end Phrasebook
