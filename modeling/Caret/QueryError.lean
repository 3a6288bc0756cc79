import Caret.ContractError
import Caret.Position

/-!
# Query errors

What is raised for a query that does not compile: the message, the parts it
was composed of, and the error that caused it. A line or column of zero
stands for no position, since positions count from one.
-/

namespace Caret

/-- **The parts of an error**: what went wrong, the context shown, and the place. -/
structure ErrorState where
  /-- What went wrong, without the place. -/
  description : String
  /-- The context as shown, or nothing. -/
  contextPhrase : String
  /-- The line, or zero. -/
  line : Nat
  /-- The column, or zero. -/
  column : Nat
  deriving DecidableEq, Repr

namespace ErrorState

/-- The parts of an error of which nothing but the message is known. -/
def unknown : ErrorState := ⟨"", "", 0, 0⟩

instance : Inhabited ErrorState := ⟨unknown⟩

/-- The position, if there is one. -/
def position? (s : ErrorState) : Option Position :=
  if s.line = 0 ∨ s.column = 0 then none else some ⟨s.line, s.column⟩

end ErrorState

/-- **What caused an error**: something with a text of its own, or a query
error without a place, which may have a cause in turn. -/
inductive Cause where
  /-- Something foreign that ends the chain. -/
  | foreign (text : String)
  /-- A query error of which only the message is known. -/
  | simple (message : String) (cause : Option Cause)
  deriving Repr

namespace Cause

/-- The text of a cause. -/
def text : Cause → String
  | foreign text => text
  | simple message _ => message

/-- The texts of a cause and of what caused it, and so on. -/
def chain : Cause → List String
  | foreign text => [text]
  | simple message none => [message]
  | simple message (some cause) => message :: cause.chain

end Cause

/-- **A query error.** -/
structure QueryError where
  /-- The message as shown. -/
  message : String
  /-- The parts it was composed of. -/
  state : ErrorState
  /-- What caused it. -/
  cause : Option Cause
  deriving Repr

namespace QueryError

/-- An error of which nothing but the message is known; there must be one. -/
def simple (message : String) (cause : Option Cause) : Except ContractError QueryError :=
  if message = "" then .error .emptyMessage else .ok ⟨message, .unknown, cause⟩

/-- The position, if there is one. -/
def position? (e : QueryError) : Option Position := e.state.position?

/-- The error as the cause of another one, which knows only its message. -/
def asCause (e : QueryError) : Cause := .simple e.message e.cause

/-- The texts of the causes, the nearest first. -/
def sources (e : QueryError) : List String :=
  match e.cause with
  | none => []
  | some cause => cause.chain

end QueryError

end Caret
