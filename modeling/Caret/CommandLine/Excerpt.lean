import Caret.CommandLine.Style
import Caret.ContractError
import Caret.Position
import Caret.Text.Blank

/-!
# Excerpts

A line of a text, under its number, with a caret under one of its columns. The line
has a margin on its left that is as wide as the number, in the rows without the
number too, so that the caret stands under the column it means.
-/

namespace Caret.CommandLine

/-- **An excerpt.** -/
structure Excerpt where
  /-- The number of the line. -/
  number : Nat
  /-- The line. -/
  line : List Char
  /-- The characters before the column that is meant. -/
  indent : Nat
  deriving DecidableEq, Repr

namespace Excerpt

/-- The excerpt at a position of a text, if the text has a line there. Lines and columns
count from one. -/
def at? (text : String) (p : Position) : Except ContractError (Option Excerpt) := do
  let above ← subCounts p.line 1
  match (Text.segments '\n' text.toList)[above]? with
  | none => return none
  | some line => return some ⟨p.line, line, ← subCounts p.column 1⟩

/-- A text of spaces. -/
def spaces (n : Nat) : String := String.ofList (List.replicate n ' ')

/-- **The rows of an excerpt**: an empty one, the line, and the caret. -/
def text (isColored : Bool) (e : Excerpt) : String :=
  let number := Text.natText e.number
  let margin := spaces number.length
  margin ++ " |\n" ++ number ++ " | " ++ String.ofList e.line ++ "\n" ++
    margin ++ " | " ++ spaces e.indent ++ styled isColored .boldRed "^"

end Excerpt

end Caret.CommandLine
