import Caret.Formatter

/-!
# Failures

What is reported when a command cannot be carried out: what failed, and what caused it,
the nearest cause first. Several causes are numbered. The further lines of a
cause stand under its first line.
-/

namespace Caret

/-- The texts of what caused an error. -/
def ConfigError.causes : ConfigError → List String
  | .io error => [error.message]
  | .invalid .. | .unsupportedFormat _ => []

/-- The texts of what caused an error. -/
def FormatterError.causes : FormatterError → List String
  | .config error => error.message :: error.causes
  | .unknownLocale .. | .invalidTerminator _ => []

namespace CommandLine

/-- **A failure**: what failed and the causes. -/
structure Failure where
  /-- What failed. -/
  message : String
  /-- What caused it, the nearest first. -/
  causes : List String := []
  deriving DecidableEq

/-- The lines of a text behind a mark, with the same indentation. -/
def indented (mark : String) (indent : Nat) (text : String) : String :=
  let rest := String.ofList (List.replicate indent ' ')
  let lines := (Text.segments '\n' text.toList).map String.ofList
  mark ++ ("\n" ++ rest).intercalate lines

/-- The mark of a numbered cause: the number, right-aligned in five columns. -/
def numberMark (n : Nat) : String :=
  let digits := Text.natText n
  String.ofList (List.replicate (5 - digits.length) ' ') ++ digits ++ ": "

/-- The lines that list causes. -/
def causeLines : List String → List String
  | [cause] => [indented "    " 4 cause]
  | causes => causes.zipIdx.map fun c => indented (numberMark c.2) 7 c.1

/-- **The report of a failure.** -/
def Failure.report (f : Failure) : String :=
  let causes :=
    if f.causes.isEmpty then ""
    else "\nCaused by:\n" ++ String.join ((causeLines f.causes).map (· ++ "\n"))
  "Error: " ++ f.message ++ "\n" ++ causes

end CommandLine

end Caret
