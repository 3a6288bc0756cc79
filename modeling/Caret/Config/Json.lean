import Caret.Config.Fields
import Caret.Json.Reader
import Caret.Json.Value

/-!
# JSON form of configurations

A configuration is a record of which every field may be left out; reading an
array, the fields behind its last element count as left out. Null stands for
absent phrases, words and line terminators, but not for a table of texts or
of locales. Members without a meaning are skipped. Writing leaves out what
is absent and tables without entries.
-/

namespace Caret

open Json

/-! ## Writing -/

/-- The members for the fields that are set. -/
def setMembers (fields : List (String × Option Value)) : List (String × Value) :=
  fields.filterMap fun f => f.2.map (f.1, ·)

/-- The form of overrides. -/
def PhraseOverrides.toJson (p : PhraseOverrides) : Value :=
  .object (setMembers (Word.all.map fun w => (w.name, (p.get w).map .text)))

/-- The form of a dictionary; an empty one is left out. -/
def Dict.toJson? {α : Type} (write : α → Value) (d : Dict α) : Option Value :=
  if d.isEmpty then none else some (.object (d.entries.map fun e => (e.1, write e.2)))

/-- The form of a locale's section. -/
def LocaleSection.toJson (s : LocaleSection) : Value :=
  .object (setMembers [("phrases", s.phrases.map (·.toJson)), ("strings", s.strings.toJson? .text)])

/-- The form of a configuration. -/
def Config.toJson (c : Config) : Value :=
  .object (setMembers
    [("phrases", c.phrases.map (·.toJson)), ("strings", c.strings.toJson? .text),
      ("lineTerminators", c.lineTerminators.map fun ts => .array (ts.map .text)),
      ("locales", c.locales.toJson? (·.toJson))])

/-! ## Reading -/

/-- Overrides as records. -/
def phraseRecord : Record PhraseFields PhraseOverrides where
  expected := "struct PhrasesConfig"
  start := {}
  add s key name d :=
    match name with
    | "near" => do return { s with near := ← readField name key s.near (readOption readText) d }
    | "line" => do return { s with line := ← readField name key s.line (readOption readText) d }
    | "column" => do
      return { s with column := ← readField name key s.column (readOption readText) d }
    | _ => do
      d.skip
      return s
  complete s _ := .ok s.overrides
  ofItems? := some fun items close => do
    let expected := "struct PhrasesConfig with 3 elements"
    let (near, items) ← requireItem (readOption readText) close expected 0 items
    let (line, items) ← requireItem (readOption readText) close expected 1 items
    let (column, items) ← requireItem (readOption readText) close expected 2 items
    endItems close items
    return ⟨near, line, column⟩

/-- Reads overrides. -/
def readPhrases : Reader PhraseOverrides := readRecord phraseRecord

/-- Reads texts by key. -/
def readStrings : Reader (Dict String) := readDict readText

/-- Locales' sections as records. -/
def localeRecord : Record LocaleFields LocaleSection where
  expected := "struct LocaleConfig"
  start := {}
  add s key name d :=
    match name with
    | "phrases" => do
      return { s with phrases := ← readField name key s.phrases (readOption readPhrases) d }
    | "strings" => do return { s with strings := ← readField name key s.strings readStrings d }
    | _ => do
      d.skip
      return s
  complete s _ := .ok s.section
  ofItems? := some fun items close => do
    let (phrases, items) ← nextItem (readOption readPhrases) close items
    let (strings, items) ← nextItem readStrings close items
    endItems close items
    return LocaleFields.section { phrases, strings }

/-- Reads a locale's section. -/
def readLocale : Reader LocaleSection := readRecord localeRecord

/-- Configurations as records. -/
def configRecord : Record ConfigFields Config where
  expected := "struct DiagnosticsConfig"
  start := {}
  add s key name d :=
    match name with
    | "phrases" => do
      return { s with phrases := ← readField name key s.phrases (readOption readPhrases) d }
    | "strings" => do return { s with strings := ← readField name key s.strings readStrings d }
    | "lineTerminators" => do
      return { s with
        lineTerminators := ← readField name key s.lineTerminators (readOption (readList readText)) d }
    | "locales" => do
      return { s with locales := ← readField name key s.locales (readDict readLocale) d }
    | _ => do
      d.skip
      return s
  complete s _ := .ok s.config
  ofItems? := some fun items close => do
    let (phrases, items) ← nextItem (readOption readPhrases) close items
    let (strings, items) ← nextItem readStrings close items
    let (lineTerminators, items) ← nextItem (readOption (readList readText)) close items
    let (locales, items) ← nextItem (readDict readLocale) close items
    endItems close items
    return ConfigFields.config { phrases, strings, lineTerminators, locales }

/-- Reads a configuration. -/
def readConfig : Reader Config := readRecord configRecord

/-- **The configuration of a JSON text.** -/
def Config.ofJson (text : String) : Except Json.Error Config := readTextAs readConfig text

end Caret
