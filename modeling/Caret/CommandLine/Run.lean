import Caret.CommandLine.Arguments
import Caret.CommandLine.Excerpt
import Caret.CommandLine.Failure
import Caret.CommandLine.Style
import Caret.Config.Discovery
import Caret.Snapshot.Json

/-!
# Carrying out a command line

A run has three stages, and each of them may fail: the formatter is made from the
configuration and the locale, the input is read, and the answer is made from both.
The configuration is that of the file that is named, or the one that is found from the
working directory upwards, or else the default one. Nothing is printed but a whole answer.

A failure of a stage is reported. A call outside its contract would be no failure but a
mistake of the program, and end it on the spot.
-/

namespace Caret.CommandLine

/-- **What a run depends on** besides its arguments. -/
structure Environment where
  /-- The files. -/
  files : Files
  /-- The path of the working directory. -/
  directory : String
  /-- The bytes of the standard input. -/
  input : ByteArray
  /-- Whether answers are coloured. -/
  isColored : Bool

/-! ## The stages -/

/-- The failure that an error causes. -/
def configFailure (message : String) (e : FormatterError) : Failure :=
  ⟨message, e.message :: e.causes⟩

/-- The path of the configuration file, if there is one. -/
def configPath? (env : Environment) (config : Option String) : Option String :=
  config <|> Config.find env.files.isFile env.directory

/-- **The first stage**: the formatter. -/
def loadFormatter (env : Environment) (config locale : Option String) :
    Except Failure Formatter :=
  match configPath? env config with
  | some path => (Formatter.ofFile env.files path locale).mapError
    (configFailure ("Failed to load config " ++ path))
  | none => (Formatter.ofConfig {} locale).mapError
    (configFailure "Invalid diagnostics config")

/-- Whether a path stands for the standard input. -/
def isStandardInput (path : String) : Bool := Path.solidParts path == [['-']]

/-- **The second stage**: the text of the input. -/
def readInput (env : Environment) (path : String) : Except Failure String :=
  if isStandardInput path then
    (decodeText env.input).mapError fun e =>
      ⟨"Failed to read query from stdin", [e.message]⟩
  else
    (env.files.readText path).mapError fun e =>
      ⟨"Failed to read query file " ++ path, [e.message]⟩

/-- **Why a run ends without an answer.** -/
inductive RunError where
  /-- A stage fails. -/
  | failure (failure : Failure)
  /-- A call is outside its contract. -/
  | contract (error : ContractError)
  deriving DecidableEq

/-- An error as it is shown to people: the message, and an excerpt if there is one. -/
def humanText (isColored : Bool) (f : Formatter) (query : String) (e : QueryError) :
    Except ContractError String := do
  let head := styled isColored .red "✗" ++ " " ++ styled isColored .bold e.message
  match e.position? with
  | none => return head
  | some p => match ← Excerpt.at? (f.normalize query) p with
    | none => return head
    | some excerpt => return head ++ "\n" ++ excerpt.text isColored

/-- The failure of an offset that is past the end of a query. -/
def offsetFailure (offset length : Nat) : Failure :=
  ⟨"Offset " ++ Text.natText offset ++ " is past the end of the query (" ++
    Text.natText length ++ " chars)", []⟩

/-- The answer to a command that locates an error. -/
def locate (isColored : Bool) (f : Formatter) (options : LocateOptions) (query : String) :
    Except RunError String :=
  match options.offset.filter (query.length < ·) with
  | some offset => .error (.failure (offsetFailure offset query.length))
  | none =>
    match f.error ⟨query, options.offset, options.label⟩ options.description none with
    | .error e => .error (.contract e)
    | .ok e => match options.format with
      | .human => (humanText isColored f query e).mapError .contract
      | .json => .ok e.snapshot.toWideJson

/-- **The third stage**: the answer. -/
def answer (isColored : Bool) (f : Formatter) (command : Command) (query : String) :
    Except RunError String :=
  match command with
  | .locate options => locate isColored f options query
  | .normalize => .ok (f.normalize query)

/-- **Carries out an invocation.** -/
def Invocation.run (env : Environment) (i : Invocation) : Except RunError String := do
  let formatter ← (loadFormatter env i.config i.locale).mapError .failure
  let query ← (readInput env i.input).mapError .failure
  answer env.isColored formatter i.command query

/-! ## Outcomes -/

/-- **What a program ends with**: its exit code, what it prints, and what it reports. -/
structure Outcome where
  /-- The exit code. -/
  code : Nat
  /-- The standard output. -/
  stdout : String
  /-- The standard error output. -/
  stderr : String
  deriving DecidableEq

/-- The text that says how the program is used. -/
def usageText : String :=
  "Usage: querydiag [OPTIONS] <COMMAND>\n\n" ++
  "Commands:\n" ++
  "  locate <INPUT>     Locate an error in a query\n" ++
  "  normalize <INPUT>  Print the normalized query\n"

/-- The outcome of a command line that is refused. -/
def Refusal.outcome : Refusal → Outcome
  | .usage => ⟨2, "", usageText⟩
  | .version => ⟨0, "querydiag 0.1.1\n", ""⟩
  | .help => ⟨0, usageText, ""⟩

/-- The exit code of a program that a call outside its contract ends. -/
def contractCode : Nat := 101

/-- The outcome of a run. -/
def outcomeOf : Except RunError String → Outcome
  | .ok text => ⟨0, text ++ "\n", ""⟩
  | .error (.failure failure) => ⟨1, "", failure.report⟩
  | .error (.contract e) => ⟨contractCode, "", e.message ++ "\n"⟩

/-- **Runs a command line.** -/
def run (env : Environment) (args : List String) : Outcome :=
  match Invocation.ofArgs args with
  | .error refusal => refusal.outcome
  | .ok invocation => outcomeOf (invocation.run env)

end Caret.CommandLine
