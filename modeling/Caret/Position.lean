import Caret.Text.Decimal

/-!
# Positions

A place in a query as a reader counts it: a line and a column, both from
one. Positions are ordered by line first.
-/

namespace Caret

/-- **A position**: a line and a column, counted from one. -/
structure Position where
  /-- The line. -/
  line : Nat
  /-- The column, in characters. -/
  column : Nat
  deriving DecidableEq, Repr, Inhabited

namespace Position

/-- The line and the column with a colon between them. -/
def text (p : Position) : String :=
  Text.natText p.line ++ ":" ++ Text.natText p.column

/-- Compares lines, then columns. -/
def compare (p q : Position) : Ordering :=
  (Ord.compare p.line q.line).then (Ord.compare p.column q.column)

instance : Ord Position := ⟨compare⟩

end Position

end Caret
