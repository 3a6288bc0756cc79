import Caret.Config
import Caret.Text.Blank
import Caret.Text.Quoted

/-!
# Validation of configurations

A configuration from a file must not set a word to a blank text, and each of
its line terminators must be one character other than the space. The
violations of a configuration are listed in a fixed order: the common
phrases, the locales by name, the line terminators in their order; within
phrases near, line, column. The first is the one reported.
-/

namespace Caret

/-- **A violation** of the rules for configurations. -/
inductive Violation where
  /-- A word is blank in the part of the configuration at `place`. -/
  | blankWord (place : String) (word : Word)
  /-- A line terminator is a space. -/
  | spaceTerminator
  /-- A line terminator is not one character. -/
  | terminatorLength (text : String)
  deriving DecidableEq, Repr

/-- The text of a violation. -/
def Violation.message : Violation → String
  | blankWord place word => "'" ++ place ++ "." ++ word.name ++ "' must not be empty"
  | spaceTerminator => "A space cannot be used as a line terminator"
  | terminatorLength text =>
    "Line terminator " ++ Text.quoted text ++ " must be exactly one character"

/-- The blank words of the phrases at `place`. -/
def PhraseOverrides.violations (p : PhraseOverrides) (place : String) : List Violation :=
  p.entries.filterMap fun e => if Text.isBlank e.2 then some (.blankWord place e.1) else none

/-- What is wrong with a line terminator. -/
def terminatorViolation? (text : String) : Option Violation :=
  match text.toList with
  | [c] => if c = ' ' then some .spaceTerminator else none
  | _ => some (.terminatorLength text)

namespace Config

/-- **The violations** of a configuration, in the order in which they are looked for. -/
def violations (c : Config) : List Violation :=
  (c.phrases.elim [] fun p => p.violations "phrases") ++
    c.locales.entries.flatMap (fun e =>
      e.2.phrases.elim [] fun p => p.violations ("locales." ++ e.1 ++ ".phrases")) ++
    (c.lineTerminators.getD []).filterMap terminatorViolation?

/-- Whether a configuration has no violation. -/
def IsValid (c : Config) : Prop := c.violations = []

instance (c : Config) : Decidable c.IsValid :=
  inferInstanceAs (Decidable (c.violations = []))

end Config

end Caret
