import Caret.Config.Load
import Caret.Label
import Caret.LineIndex
import Caret.Message
import Caret.Normalization
import Caret.QueryError
import Caret.Text.Quoted

/-!
# Formatters

A formatter holds what errors are shown with: the phrases, the line terminators of
the query lexer, and the resource table. It finds the line and column of an offset in
a query and composes the message. Offsets count the characters of the query as
written; the line and the column are those of its normalized form, in which they are
shown. The tail of line feeds that normalizing drops counts as one further line.
-/

namespace Caret

/-- **A formatter.** -/
structure Formatter where
  /-- The words of messages. -/
  phrases : Phrases := .english
  /-- The line breaks of queries. -/
  terminators : LineTerminators := .default
  /-- The texts for labels that are given by key. -/
  resources : Resources := .empty
  deriving DecidableEq, Inhabited

/-- **Where an error was found**: a query, an offset if one is known, and a label for the
construct around it. -/
structure Occurrence where
  /-- The query as written. -/
  query : String
  /-- The characters before the place of the error. -/
  offset : Option Nat := none
  /-- The construct around it. -/
  label : Option Label := none
  deriving DecidableEq

/-- **Why there is no formatter** for a configuration and a locale. -/
inductive FormatterError where
  /-- The configuration cannot be loaded. -/
  | config (error : ConfigError)
  /-- The configuration has no section for the locale; `available` are those it has. -/
  | unknownLocale (name : String) (available : List String)
  /-- A line terminator is not one character. -/
  | invalidTerminator (text : String)
  deriving DecidableEq, Repr

/-- The text of an error. -/
def FormatterError.message : FormatterError → String
  | .config error => "Configuration error: " ++ error.message
  | .unknownLocale name available =>
    "Unknown locale '" ++ name ++ "' (available: " ++ ", ".intercalate available ++ ")"
  | .invalidTerminator text =>
    "Invalid line terminator " ++ Text.quoted text ++ ": expected a single character"

namespace Formatter

/-! ## From configurations -/

/-- The character of a line terminator. -/
def terminatorChar (text : String) : Except FormatterError Char :=
  match text.toList with
  | [c] => .ok c
  | _ => .error (.invalidTerminator text)

/-- The line terminators of a configuration. -/
def terminatorsOf (c : Config) : Except FormatterError LineTerminators :=
  match c.lineTerminators with
  | none => .ok .default
  | some entries => return .ofList (← entries.mapM terminatorChar)

/-- **The formatter of a configuration** and a locale, which must have a section if
one is chosen. -/
def ofConfig (c : Config) (locale : Option String) : Except FormatterError Formatter :=
  match locale.filter (fun name => (c.locale? name).isNone) with
  | some name => .error (.unknownLocale name c.localeNames)
  | none => do
    let terminators ← terminatorsOf c
    let resources := c.effectiveStrings locale
    return ⟨.choose resources (c.effectivePhrases locale), terminators, resources⟩

/-- **The formatter of a configuration file** and a locale. -/
def ofFile (files : Files) (path : String) (locale : Option String) :
    Except FormatterError Formatter := do
  ofConfig (← (Config.loadFile files path).mapError .config) locale

/-! ## Errors -/

/-- The normalized form of a query. -/
def normalize (f : Formatter) (query : String) : String := Caret.normalize f.terminators query

/-- The text of a label, if it has one. -/
def labelText? (f : Formatter) (label : Label) : Option String := label.text? f.resources

/-- **The position of an offset** in a query, which must not be past its end. -/
def position (f : Formatter) (query : String) (offset : Nat) : Except ContractError Position :=
  if offset ≤ query.length then do
    let index ← LineIndex.withSourceLen (f.normalize query) query.length
    index.resolve offset
  else .error (.offsetPastQuery offset query.length)

/-- The error with a description, a position and a label. -/
def compose (f : Formatter) (description : String) (position : Option Position)
    (label : Option Label) (cause : Option Cause) : QueryError :=
  let context := contextPhrase f.phrases (label.bind f.labelText?) position
  { message := message f.phrases description context
    state :=
      { description
        contextPhrase := context
        line := position.elim 0 (·.line)
        column := position.elim 0 (·.column) }
    cause }

/-- **The error for an occurrence.** -/
def error (f : Formatter) (o : Occurrence) (description : String) (cause : Option Cause) :
    Except ContractError QueryError := do
  let position ← o.offset.mapM (f.position o.query)
  return f.compose description position o.label cause

/-! ## Description -/

/-- A formatter as it is shown to developers: its phrases and line terminators. -/
def debugText (f : Formatter) : String :=
  let chars := ", ".intercalate (f.terminators.chars.map Text.quotedSingle)
  "DiagnosticFormatter \x7b phrases: Phrases \x7b near: " ++ Text.quoted f.phrases.near ++
    ", line: " ++ Text.quoted f.phrases.line ++ ", column: " ++ Text.quoted f.phrases.column ++
    " \x7d, terminators: LineTerminators \x7b chars: [" ++ chars ++ "] \x7d, .. \x7d"

end Formatter

end Caret
