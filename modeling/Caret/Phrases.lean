import Caret.Resources
import Caret.Text.Blank

/-!
# Phrases

The three words that messages are built with. They are configured as
overrides, which may leave words unset, and used as phrases, where each word
has a value. A word's value is looked up in the resource table first; a
blank text there counts as absent. Then come the overrides, then English.
-/

namespace Caret

/-- The words of a message. -/
inductive Word where
  | near
  | line
  | column
  deriving DecidableEq, Repr

namespace Word

/-- All words, in the order in which they are checked and listed. -/
def all : List Word := [near, line, column]

/-- The name of a word in configurations. -/
def name : Word → String
  | near => "near"
  | line => "line"
  | column => "column"

/-- The key of a word in resource tables. -/
def key (w : Word) : String := "querydiag." ++ w.name

end Word

/-- **The phrases** of a message: a text for each word. -/
structure Phrases where
  /-- Stands between the description and the context. -/
  near : String
  /-- Stands before the line number. -/
  line : String
  /-- Stands before the column number. -/
  column : String
  deriving DecidableEq, Repr

namespace Phrases

/-- The English phrases. -/
def english : Phrases := ⟨"near", "line", "column"⟩

instance : Inhabited Phrases := ⟨english⟩

/-- The text of a word. -/
def get (p : Phrases) : Word → String
  | .near => p.near
  | .line => p.line
  | .column => p.column

/-- The phrases with a given text for each word. -/
def ofFunction (f : Word → String) : Phrases := ⟨f .near, f .line, f .column⟩

end Phrases

/-- **Overrides** for the phrases: a text for some of the words. -/
structure PhraseOverrides where
  near : Option String := none
  line : Option String := none
  column : Option String := none
  deriving DecidableEq, Repr, Inhabited

namespace PhraseOverrides

/-- The text set for a word. -/
def get (p : PhraseOverrides) : Word → Option String
  | .near => p.near
  | .line => p.line
  | .column => p.column

/-- The words that are set, each with its text. -/
def entries (p : PhraseOverrides) : List (Word × String) :=
  Word.all.filterMap fun w => (p.get w).map (w, ·)

/-- The overrides of `top` laid over those of `base`. -/
def overlay (base top : PhraseOverrides) : PhraseOverrides :=
  ⟨top.near <|> base.near, top.line <|> base.line, top.column <|> base.column⟩

theorem get_overlay (base top : PhraseOverrides) (w : Word) :
    (base.overlay top).get w = (top.get w <|> base.get w) := by
  cases w <;> rfl

end PhraseOverrides

/-- The text of a word in a resource table, if it is not blank. -/
def Resources.word? (table : Resources) (w : Word) : Option String :=
  (table.find? w.key).filter fun text => !Text.isBlank text

/-- The phrases that a table and overrides give together: the table wins
over the overrides, and these win over English. -/
def Phrases.choose (table : Resources) (overrides : PhraseOverrides) : Phrases :=
  .ofFunction fun w => ((table.word? w <|> overrides.get w).getD (english.get w))

/-- The phrases of a resource table. -/
def Phrases.ofResources (table : Resources) : Phrases :=
  .choose table {}

theorem Phrases.get_choose (table : Resources) (overrides : PhraseOverrides) (w : Word) :
    (Phrases.choose table overrides).get w =
      (table.word? w <|> overrides.get w).getD (Phrases.english.get w) := by
  cases w <;> rfl

end Caret
