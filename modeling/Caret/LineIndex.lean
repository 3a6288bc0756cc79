import Caret.ContractError
import Caret.Position
import Caret.Text.Blank

/-!
# Line index

Turns offsets into positions and back. The index of a text holds the
lengths of its lines, the pieces between line feeds, and the length of the
source that offsets count in. The source may be longer than the text, since
line feeds at its end may have been dropped; offsets in that tail lie on one
further line after the last.

An offset is resolved by walking the lines and taking each full line with
its line feed off the offset until the rest fits. The way back adds up the
lines before the position.
-/

namespace Caret

/-- The sum of some counts. -/
def LineIndex.total (counts : List Nat) : Nat := counts.foldr (· + ·) 0

@[simp] theorem LineIndex.total_cons (count : Nat) (counts : List Nat) :
    total (count :: counts) = count + total counts := rfl

/-- The length of a text with the given line lengths: its lines and the
line feeds between them. -/
def LineIndex.lengthOf (lineLengths : List Nat) : Nat :=
  total lineLengths + lineLengths.length - 1

/-- **A line index**: the lengths of the lines of a text, and the length of its source. -/
structure LineIndex where
  /-- The length of each line, without its line feed. -/
  lineLengths : List Nat
  /-- The greatest offset that resolves. -/
  sourceLen : Nat
  /-- A text has a line, if only an empty one. -/
  lineLengths_ne_nil : lineLengths ≠ []
  /-- The source is no shorter than the text. -/
  lengthOf_le : LineIndex.lengthOf lineLengths ≤ sourceLen
  deriving DecidableEq, Repr

namespace LineIndex

/-- The index of a text that is its own source. -/
def ofText (text : String) : LineIndex :=
  let lengths := (Text.segments '\n' text.toList).map List.length
  ⟨lengths, lengthOf lengths, by simpa [lengths] using Text.segments_ne_nil '\n' text.toList,
    Nat.le_refl _⟩

/-- The length of the indexed text. -/
def textLen (index : LineIndex) : Nat := lengthOf index.lineLengths

/-- The index of a text whose source has the given length, which must not be
below the text's own. -/
def withSourceLen (text : String) (sourceLen : Nat) : Except ContractError LineIndex :=
  let index := ofText text
  if h : index.textLen ≤ sourceLen then .ok { index with sourceLen, lengthOf_le := h }
  else .error (.sourceTooShort sourceLen index.textLen)

/-- The number of lines. -/
def lineCount (index : LineIndex) : Nat := index.lineLengths.length

/-- The length of a line, counted from zero. -/
def lineLen? (index : LineIndex) (line : Nat) : Option Nat := index.lineLengths[line]?

/-- Takes full lines off an offset while it exceeds the line at hand; gives
the number of lines taken and what is left. -/
def walk : List Nat → Nat → Nat × Nat
  | [], offset => (0, offset)
  | len :: lens, offset =>
    if len < offset then
      let (line, column) := walk lens (offset - (len + 1))
      (line + 1, column)
    else (0, offset)

/-- **The position of an offset**, which must not exceed the source length. -/
def resolve (index : LineIndex) (offset : Nat) : Except ContractError Position :=
  if offset ≤ index.sourceLen then do
    let (line, column) := walk index.lineLengths offset
    let line ← addCounts line 1
    let column ← addCounts column 1
    return ⟨line, column⟩
  else .error (.offsetPastText offset index.sourceLen)

/-- **The offset of a position**, if it has one. There is none for a line or
column of zero, for a column more than one past the end of its line, for a
line more than one past the last, and for anything past the source. -/
def offsetOf (index : LineIndex) (p : Position) : Except ContractError (Option Nat) :=
  if p.line = 0 ∨ p.column = 0 then .ok none
  else if (index.lineLen? (p.line - 1)).any (fun len => len + 1 < p.column) then .ok none
  else if index.lineCount < p.line - 1 then .ok none
  else do
    let preceding := total ((index.lineLengths.take (p.line - 1)).map (· + 1))
    let past ← addCounts preceding p.column
    return if past - 1 ≤ index.sourceLen then some (past - 1) else none

end LineIndex

/-- The position of an offset in a text that is its own source. -/
def resolve (text : String) (offset : Nat) : Except ContractError Position :=
  (LineIndex.ofText text).resolve offset

end Caret
