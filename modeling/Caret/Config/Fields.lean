import Caret.Config

/-!
# Fields of configurations

What has been read of a record: for each field nothing, or its value, which may
itself be the absence of one. A field that was not read has its default.
-/

namespace Caret

/-- The fields of phrase overrides. -/
structure PhraseFields where
  near : Option (Option String) := none
  line : Option (Option String) := none
  column : Option (Option String) := none

/-- The overrides that the fields make up. -/
def PhraseFields.overrides (s : PhraseFields) : PhraseOverrides :=
  ⟨s.near.join, s.line.join, s.column.join⟩

/-- The fields of a locale's section. -/
structure LocaleFields where
  phrases : Option (Option PhraseOverrides) := none
  strings : Option (Dict String) := none

/-- The section that the fields make up. -/
def LocaleFields.section (s : LocaleFields) : LocaleSection :=
  ⟨s.phrases.join, s.strings.getD .empty⟩

/-- The fields of a configuration. -/
structure ConfigFields where
  phrases : Option (Option PhraseOverrides) := none
  strings : Option (Dict String) := none
  lineTerminators : Option (Option (List String)) := none
  locales : Option (Dict LocaleSection) := none

/-- The configuration that the fields make up. -/
def ConfigFields.config (s : ConfigFields) : Config :=
  ⟨s.phrases.join, s.strings.getD .empty, s.lineTerminators.join, s.locales.getD .empty⟩

end Caret
