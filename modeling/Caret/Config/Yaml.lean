import Caret.Config.Fields
import Caret.Yaml.Reader

/-!
# YAML form of configurations

The same records as in the JSON form, as mappings. Entries without a meaning are
skipped, and no field may occur twice.
-/

namespace Caret.Yaml

/-- Adds an entry of phrase overrides. -/
def addPhraseField (s : PhraseFields) (name : String) (v : Node Nat) :
    StateT Aliases Option PhraseFields := do
  match name with
  | "near" => return { s with near := ← readField s.near (readOption readText) v }
  | "line" => return { s with line := ← readField s.line (readOption readText) v }
  | "column" => return { s with column := ← readField s.column (readOption readText) v }
  | _ => return s

/-- Reads phrase overrides. -/
def readPhrases : Reader PhraseOverrides := fun n => do
  return (← foldEntries addPhraseField {} n).overrides

/-- Adds an entry of a locale's section. -/
def addLocaleField (s : LocaleFields) (name : String) (v : Node Nat) :
    StateT Aliases Option LocaleFields := do
  match name with
  | "phrases" => return { s with phrases := ← readField s.phrases (readOption readPhrases) v }
  | "strings" => return { s with strings := ← readField s.strings (readDict readText) v }
  | _ => return s

/-- Reads a locale's section. -/
def readLocale : Reader LocaleSection := fun n => do
  return (← foldEntries addLocaleField {} n).section

/-- Adds an entry of a configuration. -/
def addConfigField (s : ConfigFields) (name : String) (v : Node Nat) :
    StateT Aliases Option ConfigFields := do
  match name with
  | "phrases" => return { s with phrases := ← readField s.phrases (readOption readPhrases) v }
  | "strings" => return { s with strings := ← readField s.strings (readDict readText) v }
  | "lineTerminators" =>
    let read := readField s.lineTerminators (readOption (readList readText))
    return { s with lineTerminators := ← read v }
  | "locales" => return { s with locales := ← readField s.locales (readDict readLocale) v }
  | _ => return s

/-- Reads a configuration. -/
def readConfig : Reader Config := fun n => do
  return (← foldEntries addConfigField {} n).config

end Caret.Yaml

namespace Caret

/-- **The configuration of a YAML text.** -/
def Config.ofYaml? (text : String) : Option Config := Yaml.readTextAs Yaml.readConfig text

end Caret
