import Caret.Config.Json
import Caret.Config.Validation
import Caret.Config.Yaml
import Caret.Files
import Caret.Path

/-!
# Loading configurations

The name of a file tells its format: YAML or JSON by the extension, and for the
bare name `.querydiagrc` YAML or, where that fails, JSON. A blank text is the default
configuration whatever its name. What is read must be valid.
-/

namespace Caret

/-- **Why a configuration cannot be loaded.** -/
inductive ConfigError where
  /-- The file cannot be read. -/
  | io (error : FileError)
  /-- The text of the file at `path` is malformed or violates a rule. -/
  | invalid (path message : String)
  /-- The name of the file tells no format. -/
  | unsupportedFormat (path : String)
  deriving DecidableEq, Repr

/-- The text of an error. -/
def ConfigError.message : ConfigError → String
  | .io error => "IO error: " ++ error.message
  | .invalid path message => "Invalid configuration at " ++ path ++ ": " ++ message
  | .unsupportedFormat path => "Unsupported config file format: " ++ path

/-- The formats of configuration files. -/
inductive ConfigFormat where
  | yaml
  | json
  /-- YAML or, where that fails, JSON. -/
  | either
  deriving DecidableEq, Repr

/-- **The format of a file** by its name. -/
def ConfigFormat.ofPath? (path : String) : Option ConfigFormat :=
  match (Path.extension? path).getD "" with
  | "yml" | "yaml" => some .yaml
  | "json" => some .json
  | "" => if Path.fileName? path = some ".querydiagrc" then some .either else none
  | _ => none

namespace Config

/-- The configuration of a YAML text, or what is reported. The reader tells no reason for what it
refuses, so the report ends where the wording of a reason would follow, behind a colon. -/
def parseYaml (text : String) : Except String Config :=
  match ofYaml? text with
  | some c => .ok c
  | none => .error "YAML parse error"

/-- The configuration of a JSON text, or what is reported. -/
def parseJson (text : String) : Except String Config :=
  (ofJson text).mapError fun e => "JSON parse error: " ++ e.message

/-- The configuration of a text in a format, or what is reported. -/
def parse (format : ConfigFormat) (text : String) : Except String Config :=
  match format with
  | .yaml => parseYaml text
  | .json => parseJson text
  | .either => match parseYaml text with
    | .ok c => .ok c
    | .error _ => parseJson text

/-- A configuration if it is valid; otherwise its first violation is reported. -/
def validated (c : Config) : Except String Config :=
  match c.violations with
  | [] => .ok c
  | v :: _ => .error v.message

/-- **Loads a configuration** from the text of the file at `path`. -/
def load (text path : String) : Except ConfigError Config :=
  if Text.isBlank text then .ok {}
  else match ConfigFormat.ofPath? path with
    | none => .error (.unsupportedFormat path)
    | some format =>
      (parse format text >>= validated).mapError fun message => .invalid path message

/-- **Loads the configuration file** that a path leads to. -/
def loadFile (files : Files) (path : String) : Except ConfigError Config :=
  match files.readText path with
  | .error e => .error (.io e)
  | .ok text => load text path

end Config

end Caret
