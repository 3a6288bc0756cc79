/-!
# Glyphs

The characters of a YAML text with their places. A line break is one glyph:
a carriage return, a line feed, the two together, and U+0085 all become a
line feed, while U+2028 and U+2029 stay as they are. The last glyph marks the
end of the text; it holds U+0000, which no text contains.
-/

namespace Caret.Yaml

/-- **A glyph**: a character and its place. -/
structure Glyph where
  /-- The character. -/
  char : Char
  /-- The bytes of the text before it, in UTF-8. -/
  index : Nat
  /-- The lines before it. -/
  line : Nat
  /-- The characters of its line before it. -/
  column : Nat
  deriving Repr

/-- Whether a YAML text may contain a character. -/
def isAllowed (c : Char) : Bool :=
  let n := c.toNat
  n == 0x09 || n == 0x0A || n == 0x0D || (0x20 ≤ n && n ≤ 0x7E) || n == 0x85 ||
    (0xA0 ≤ n && n ≤ 0xD7FF) || (0xE000 ≤ n && n ≤ 0xFFFD) || 0x10000 ≤ n

/-- The form of a line break, if the character is one. -/
def break? (c : Char) : Option Char :=
  if c = '\n' ∨ c = '\r' ∨ c = '\u0085' then some '\n'
  else if c = '\u2028' ∨ c = '\u2029' then some c
  else none

/-- The glyphs of characters behind the given place. -/
def glyphsFrom (index line column : Nat) : List Char → List Glyph
  | [] => [⟨'\x00', index, line, column⟩]
  | '\r' :: '\n' :: cs => ⟨'\n', index, line, column⟩ :: glyphsFrom (index + 2) (line + 1) 0 cs
  | c :: cs => match break? c with
    | some b => ⟨b, index, line, column⟩ :: glyphsFrom (index + c.utf8Size) (line + 1) 0 cs
    | none => ⟨c, index, line, column⟩ :: glyphsFrom (index + c.utf8Size) line (column + 1) cs

/-- **The glyphs of a text**, if all its characters are allowed. -/
def glyphs? (text : List Char) : Option (List Glyph) :=
  if text.all isAllowed then some (glyphsFrom 0 0 0 text) else none

namespace Glyph

/-- Whether the glyph is a space or a tab. -/
def isBlank (g : Glyph) : Bool := g.char == ' ' || g.char == '\t'

/-- Whether the glyph is a line break. -/
def isBreak (g : Glyph) : Bool :=
  g.char == '\n' || g.char == '\u2028' || g.char == '\u2029'

/-- Whether the glyph marks the end of the text. -/
def isEnd (g : Glyph) : Bool := g.char == '\x00'

/-- Whether the glyph is a line break or the end. -/
def endsLine (g : Glyph) : Bool := g.isBreak || g.isEnd

/-- Whether the glyph separates words: a blank, a line break or the end. -/
def separates (g : Glyph) : Bool := g.isBlank || g.endsLine

/-- Whether the glyph may stand in a name: an ASCII letter or digit, a hyphen
or an underscore. -/
def isNameChar (g : Glyph) : Bool :=
  g.char.isAlphanum || g.char == '-' || g.char == '_'

end Glyph

/-- Whether the next glyph, if there is one, separates words. -/
def separated : List Glyph → Bool
  | [] => true
  | g :: _ => g.separates

/-- Whether the next glyph is one of some characters. -/
def startsWithAny (chars : List Char) : List Glyph → Bool
  | [] => false
  | g :: _ => chars.contains g.char

/-- Whether a document marker stands here: three hyphens or three points at
the start of a line, and a separator behind them. -/
def isDocumentMarker : List Glyph → Bool
  | a :: b :: c :: rest =>
    a.column == 0 && (a.char == '-' || a.char == '.') && b.char == a.char && c.char == a.char &&
      separated rest
  | _ => false

end Caret.Yaml
