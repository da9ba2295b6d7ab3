import Phrasebook.Catalog
import Phrasebook.Text.Replace

/-!
# Replacements

In localized sources a literal whose content is in the catalog is replaced by a call that looks its
number up. Only the literal with its double quotes is replaced, never the bare content.
-/

namespace Phrasebook

/-- A literal and the call that takes its place. -/
structure Replacement where
  quoted : String
  call : String
  deriving DecidableEq, Repr

namespace Replacement

/-- One replacement for each entry of the catalog, in order. -/
def ofCatalog (catalog : Catalog) (table : String) : List Replacement :=
  catalog.entries.map fun entry => ⟨entry.quoted, lookupCall table entry.index⟩

/-- Applies the replacements one after the other, each to the whole text the one before has left,
    and counts the occurrences replaced. -/
def applyAll : List Replacement → List Char → List Char × Nat
  | [], text => (text, 0)
  | r :: rest, text =>
    let (text', count) := Text.replace r.quoted.toList r.call.toList text
    let (text'', count') := applyAll rest text'
    (text'', count + count')

end Replacement

/-- Applies the replacements to a text and counts the occurrences replaced. -/
def localizeText (text : String) (replacements : List Replacement) : String × Nat :=
  let (chars, count) := Replacement.applyAll replacements text.toList
  (String.ofList chars, count)

end Phrasebook
