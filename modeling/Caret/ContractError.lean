import Caret.Text.Decimal

/-!
# Calls outside a contract

Offsets and source lengths come from the caller's own bookkeeping, so one
that does not fit the text is a mistake of the caller and no property of
the query. `ContractError` lists these mistakes. Counts are held in words of
64 bits, which is why two of them are a sum and a difference that leave
the range.
-/

namespace Caret

/-- The number of values of a word, `2 ^ 64`; a count is below it. -/
def wordLimit : Nat := 0x10000000000000000

/-- **A call outside its contract.** -/
inductive ContractError where
  /-- The offset is greater than the length of the indexed source. -/
  | offsetPastText (offset length : Nat)
  /-- The declared source is shorter than the text that came from it. -/
  | sourceTooShort (source length : Nat)
  /-- The offset is greater than the length of the query. -/
  | offsetPastQuery (offset length : Nat)
  /-- An error is raised without a message. -/
  | emptyMessage
  /-- A sum of two counts is no count. -/
  | overflow
  /-- A difference of two counts is no count. -/
  | underflow
  deriving DecidableEq, Repr

namespace ContractError

/-- The text that reports the mistake. -/
def message : ContractError → String
  | offsetPastText offset length =>
    "offset " ++ Text.natText offset ++ " is past the end of the text (" ++
      Text.natText length ++ " chars)"
  | sourceTooShort source length =>
    "source length " ++ Text.natText source ++ " is shorter than the normalized text (" ++
      Text.natText length ++ " chars)"
  | offsetPastQuery offset length =>
    "error offset " ++ Text.natText offset ++ " is past the end of the query text (" ++
      Text.natText length ++ " chars)"
  | emptyMessage => "query error message must not be empty"
  | overflow => "attempt to add with overflow"
  | underflow => "attempt to subtract with overflow"

end ContractError

/-- The sum of two counts, if it is a count. -/
def addCounts (a b : Nat) : Except ContractError Nat :=
  if a + b < wordLimit then .ok (a + b) else .error .overflow

/-- The difference of two counts, if it is a count. -/
def subCounts (a b : Nat) : Except ContractError Nat :=
  if b ≤ a then .ok (a - b) else .error .underflow

end Caret
