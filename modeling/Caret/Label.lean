import Caret.Resources

/-!
# Context labels

A label names the construct in which an error was found. It is either shown
as written or looked up by key; an empty text is no label.
-/

namespace Caret

/-- **A context label.** -/
inductive Label where
  /-- A text shown as written. -/
  | literal (text : String)
  /-- The key of a text in the resource table. -/
  | resource (key : String)
  deriving DecidableEq, Repr

/-- The text of a label, if it has one that is not empty. -/
def Label.text? (table : Resources) (label : Label) : Option String :=
  let text := match label with
    | .literal text => some text
    | .resource key => table.find? key
  text.filter (· ≠ "")

end Caret
