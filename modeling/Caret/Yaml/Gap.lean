/-!
# Gaps and line folding

Between the words of a scalar lies a gap of blanks and line breaks. Blanks
within a line are kept. A single line break becomes a space; of several, the
first is dropped and the others are kept. Blanks around line breaks are
dropped. A line break that is U+2028 or U+2029 is never dropped, and one
that is escaped leaves no space.
-/

namespace Caret.Yaml

/-- **A gap** so far: the blanks before any line break, and the line breaks,
of which the first is absent if it was escaped. -/
structure Gap where
  /-- The blanks. -/
  blanks : List Char := []
  /-- The first line break and those after it. -/
  breaks : Option (Option Char × List Char) := none

namespace Gap

/-- The gap that an escaped line break opens. -/
def escaped : Gap := ⟨[], some (none, [])⟩

/-- Whether nothing has been met. -/
def isEmpty (g : Gap) : Bool := g.blanks.isEmpty && g.breaks.isNone

/-- Whether a line break has been met. -/
def hasBreak (g : Gap) : Bool := g.breaks.isSome

/-- Adds a blank. -/
def addBlank (g : Gap) (c : Char) : Gap :=
  match g.breaks with
  | none => { g with blanks := g.blanks ++ [c] }
  | some _ => g

/-- Adds a line break. -/
def addBreak (g : Gap) (c : Char) : Gap :=
  match g.breaks with
  | none => ⟨[], some (some c, [])⟩
  | some (first, more) => { g with breaks := some (first, more ++ [c]) }

/-- **What a gap folds to.** -/
def text (g : Gap) : List Char :=
  match g.breaks with
  | none => g.blanks
  | some (none, more) => more
  | some (some first, more) =>
    if first = '\n' then (if more.isEmpty then [' '] else more) else first :: more

end Gap

end Caret.Yaml
