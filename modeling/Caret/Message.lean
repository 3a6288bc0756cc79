import Caret.Phrases
import Caret.Position

/-!
# Messages

A message is a description, and where something is known of the place, the
word "near" and a context: the label, the line and the column. Without a
position the context of a label keeps the separator that would come before
it, and a context of nothing at all is empty and leaves the word "near" out.
-/

namespace Caret

/-- What a context says of a label: its text and a separator, or nothing. -/
def labelPhrase : Option String → String
  | none => ""
  | some text => if text = "" then "" else text ++ ", "

/-- What a context says of a position: its line and its column, or nothing. -/
def positionPhrase (phrases : Phrases) : Option Position → String
  | none => ""
  | some p =>
    phrases.line ++ " " ++ Text.natText p.line ++ ", " ++
      phrases.column ++ " " ++ Text.natText p.column

/-- **The context** of an error: an optional label and an optional position. -/
def contextPhrase (phrases : Phrases) (label : Option String) (position : Option Position) :
    String :=
  labelPhrase label ++ positionPhrase phrases position

/-- **The message** of an error with the given description and context. -/
def message (phrases : Phrases) (description context : String) : String :=
  if context = "" then description ++ "."
  else description ++ " " ++ phrases.near ++ " " ++ context ++ "."

end Caret
