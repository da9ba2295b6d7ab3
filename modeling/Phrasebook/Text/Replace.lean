/-!
# Replacing occurrences

Occurrences are taken from left to right and never overlap.
-/

namespace Phrasebook.Text

/-- Replaces the occurrences of a non-empty `pattern`, and counts them. The first `held` characters
    belong to the occurrence that has just been replaced and are dropped. -/
def replaceFrom (pattern new : List Char) : Nat → List Char → List Char × Nat
  | _, [] => ([], 0)
  | held + 1, _ :: cs => replaceFrom pattern new held cs
  | 0, c :: cs =>
    if pattern.isPrefixOf (c :: cs) then
      let (text, count) := replaceFrom pattern new (pattern.length - 1) cs
      (new ++ text, count + 1)
    else
      let (text, count) := replaceFrom pattern new 0 cs
      (c :: text, count)

/-- Replaces every occurrence of `pattern` by `new`, and counts them. The empty pattern occurs
    before every character and at the end. -/
def replace (pattern new text : List Char) : List Char × Nat :=
  if pattern.isEmpty then
    (text.flatMap (fun c => new ++ [c]) ++ new, text.length + 1)
  else
    replaceFrom pattern new 0 text

end Phrasebook.Text
