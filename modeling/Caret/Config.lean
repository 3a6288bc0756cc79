import Caret.Phrases

/-!
# Configurations

What a configuration says: overrides for the phrases, a resource table, the
characters that the query lexer treats as line breaks, and for each locale
overrides and texts of its own. Every part may be absent. What holds for a
locale is the common part with the locale's laid over it; a locale without
a section has no part of its own.
-/

namespace Caret

/-- **The section of a locale.** -/
structure LocaleSection where
  /-- Overrides for the phrases. -/
  phrases : Option PhraseOverrides := none
  /-- Texts by key. -/
  strings : Dict String := .empty
  deriving DecidableEq, Inhabited

/-- **A configuration.** -/
structure Config where
  /-- Overrides for the phrases. -/
  phrases : Option PhraseOverrides := none
  /-- Texts by key. -/
  strings : Dict String := .empty
  /-- The line terminators, each meant to be one character. -/
  lineTerminators : Option (List String) := none
  /-- The locales' sections by name. -/
  locales : Dict LocaleSection := .empty
  deriving DecidableEq, Inhabited

namespace Config

/-- The section of a locale. -/
def locale? (c : Config) (name : String) : Option LocaleSection := c.locales.find? name

/-- The names of the locales, ascending. -/
def localeNames (c : Config) : List String := c.locales.keys

/-- The section of a locale, if one is chosen and has a section. -/
def chosen? (c : Config) (locale : Option String) : Option LocaleSection :=
  locale.bind c.locale?

/-- The overrides that hold for a locale. -/
def effectivePhrases (c : Config) (locale : Option String) : PhraseOverrides :=
  let base := c.phrases.getD {}
  match (c.chosen? locale).bind (·.phrases) with
  | some top => base.overlay top
  | none => base

/-- The texts that hold for a locale. -/
def effectiveStrings (c : Config) (locale : Option String) : Dict String :=
  match c.chosen? locale with
  | some s => c.strings.overlay s.strings
  | none => c.strings

end Config

end Caret
