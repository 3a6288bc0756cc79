import Caret.Yaml.Lexeme

/-!
# YAML tokens

The lexemes of a text with brackets around its block collections, which the
text shows by indentation alone, and with a key indicator before every key.

A block collection starts where an item, key or value is indented more than
what surrounds it, and ends before the first lexeme that is indented less. That
a lexeme was a key is known only at the colon behind it: until then it is a
possible key, and at the colon the key indicator is put before it, with the start
of a mapping if the key is indented more. Between the lexeme and its colon there
is neither a line break nor more than 1024 bytes of text.
-/

namespace Caret.Yaml

/-- **A token**: a lexeme or a bracket of a block collection. -/
inductive Token where
  | blockStart (isMapping : Bool)
  | blockEnd
  | lexeme (l : Lexeme)

/-- A place where a key may start. -/
structure PossibleKey where
  /-- The tokens before it. -/
  number : Nat
  /-- Its first glyph. -/
  start : Glyph
  /-- Whether only a key may stand there. -/
  required : Bool

/-- **The layout** that has been read: the tokens and what is open. -/
structure Layout where
  /-- The tokens, the last one first. -/
  tokens : List Token := []
  /-- The columns of the open block collections, innermost first. -/
  indents : List Nat := []
  /-- Whether a key may start at the next lexeme. -/
  keyAllowed : Bool := true
  /-- The possible key of the innermost bracket. -/
  key : Option PossibleKey := none
  /-- The possible keys of what surrounds it, one for every open bracket. -/
  outerKeys : List (Option PossibleKey) := []

namespace Layout

/-- Whether a bracket is open. -/
def inFlow (s : Layout) : Bool := !s.outerKeys.isEmpty

/-- The column of the innermost block collection, -1 outside all of them. -/
def indent (s : Layout) : Int :=
  match s.indents with
  | [] => -1
  | column :: _ => column

/-! ## Block collections -/

/-- Adds a token behind the first `number` ones. -/
def insertAt (s : Layout) (number : Nat) (t : Token) : Layout :=
  let later := s.tokens.length - number
  { s with tokens := s.tokens.take later ++ t :: s.tokens.drop later }

/-- Adds a token at the end. -/
def push (s : Layout) (t : Token) : Layout := { s with tokens := t :: s.tokens }

/-- Starts a block collection at a column, behind the first `number` tokens, if
the column is indented more and no bracket is open. -/
def openBlock (s : Layout) (isMapping : Bool) (column number : Nat) : Layout :=
  if s.inFlow || column ≤ s.indent then s
  else { s.insertAt number (.blockStart isMapping) with indents := column :: s.indents }

/-- Ends the block collections whose columns are beyond a column. -/
def closeBlocks (s : Layout) (column : Int) : Layout :=
  if s.inFlow then s
  else
    let isClosed := fun c : Nat => decide (column < c)
    { s with
      tokens := List.replicate (s.indents.takeWhile isClosed).length .blockEnd ++ s.tokens
      indents := s.indents.dropWhile isClosed }

/-! ## Possible keys -/

/-- Gives up the possible key, unless a key is required. -/
def dropKey (s : Layout) : Option Layout :=
  match s.key with
  | none => some s
  | some k => if k.required then none else some { s with key := none }

/-- Notes that a key may start here. -/
def noteKey (s : Layout) (g : Glyph) : Option Layout :=
  if s.keyAllowed then
    let required := !s.inFlow && s.indent == g.column
    s.dropKey.map ({ · with key := some ⟨s.tokens.length, g, required⟩ })
  else some s

/-- Whether no colon can follow a possible key at a glyph. -/
def isStale (k : PossibleKey) (g : Glyph) : Bool :=
  k.start.line < g.line || k.start.index + 1024 < g.index

/-- Gives up a possible key that is stale at a glyph. -/
def dropIfStale (g : Glyph) : Option PossibleKey → Option (Option PossibleKey)
  | none => some none
  | some k =>
    if !isStale k g then some (some k) else if k.required then none else some none

/-- Gives up all possible keys that are stale at a glyph. -/
def dropStale (s : Layout) (g : Glyph) : Option Layout := do
  let key ← dropIfStale g s.key
  let outerKeys ← s.outerKeys.mapM (dropIfStale g)
  return { s with key, outerKeys }

/-! ## Lexemes -/

/-- Adds a lexeme that ends a possible key and sets whether a key may follow. -/
def addPlain (s : Layout) (l : Lexeme) (keyAllowed : Bool) : Option Layout :=
  s.dropKey.map fun s => { s.push (.lexeme l) with keyAllowed }

/-- Adds a lexeme that may start a key, behind which no key may start at once. -/
def addKeyStart (s : Layout) (g : Glyph) (l : Lexeme) (keyAllowed : Bool) : Option Layout :=
  (s.noteKey g).map fun s => { s.push (.lexeme l) with keyAllowed }

/-- Starts a block collection for a lexeme that stands where a key may. -/
def openBlockFor (s : Layout) (g : Glyph) (isMapping : Bool) : Option Layout :=
  if s.inFlow then some s
  else if s.keyAllowed then some (s.openBlock isMapping g.column s.tokens.length)
  else none

/-- Adds a colon. Behind a possible key it makes that a key; otherwise the key
is missing or has been written with a question mark. -/
def addColon (s : Layout) (g : Glyph) : Option Layout :=
  match s.key with
  | some k =>
    let s := (s.insertAt k.number (.lexeme .key)).openBlock true k.start.column k.number
    some { s.push (.lexeme .value) with key := none, keyAllowed := false }
  | none => (s.openBlockFor g true).map fun s =>
    { s.push (.lexeme .value) with keyAllowed := !s.inFlow }

/-- Adds a lexeme that starts at a glyph. -/
def add (s : Layout) (g : Glyph) (l : Lexeme) : Option Layout :=
  match l with
  | .versionDirective .. | .tagDirective .. | .documentStart | .documentEnd =>
    (s.closeBlocks (-1)).addPlain l false
  | .open _ => (s.addKeyStart g l true).map fun s =>
    { s with key := none, outerKeys := s.key :: s.outerKeys }
  | .close _ => (s.addPlain l false).map fun s =>
    match s.outerKeys with
    | [] => s
    | key :: outerKeys => { s with key, outerKeys }
  | .comma => s.addPlain l true
  | .entry => (s.openBlockFor g false).bind (·.addPlain l true)
  | .key => (s.openBlockFor g true).bind fun s => s.addPlain l !s.inFlow
  | .value => s.addColon g
  | .alias _ | .anchor _ | .tag .. | .quoted _ => s.addKeyStart g l false
  | .plain _ endsLine => s.addKeyStart g l endsLine
  | .block _ => s.addPlain l true

end Layout

/-! ## The tokens of a text -/

/-- Skips blanks, comments and line breaks, and a byte order mark that starts a line,
where it takes up a column. Gives whether a key may stand behind them, which a line
break outside brackets permits. Where a key may stand, a tab outside brackets is not
skipped. -/
def skipBetween (inFlow keyAllowed inComment : Bool) : List Glyph → Bool × List Glyph
  | [] => (keyAllowed, [])
  | g :: gs =>
    if g.isBreak then skipBetween inFlow (keyAllowed || !inFlow) false gs
    else if g.isEnd then (keyAllowed, g :: gs)
    else if inComment then skipBetween inFlow keyAllowed true gs
    else if g.char = ' ' || g.char = '\t' && (inFlow || !keyAllowed) ||
        g.char = '\ufeff' && g.column = 0 then
      skipBetween inFlow keyAllowed false gs
    else if g.char = '#' then skipBetween inFlow keyAllowed true gs
    else (keyAllowed, g :: gs)

theorem length_skipBetween (inFlow keyAllowed inComment : Bool) (gs : List Glyph) :
    (skipBetween inFlow keyAllowed inComment gs).2.length ≤ gs.length := by
  fun_induction skipBetween inFlow keyAllowed inComment gs <;> grind

/-- The layout before the next lexeme: possible keys that are stale are given up,
and the blocks that the lexeme is indented less than end. -/
def Layout.before (s : Layout) (keyAllowed : Bool) (g : Glyph) : Option Layout :=
  (dropStale { s with keyAllowed } g).map fun here => here.closeBlocks g.column

/-- The tokens of a text of which a layout has been read. -/
def tokensFrom (s : Layout) (gs : List Glyph) : Option (List Token) :=
  match _hb : skipBetween s.inFlow s.keyAllowed false gs with
  | (_, []) => none
  | (keyAllowed, g :: rest) =>
    match s.before keyAllowed g with
    | none => none
    | some here =>
      if g.isEnd then (here.closeBlocks (-1)).dropKey.map (·.tokens.reverse)
      else match _hl : scanLexeme here.inFlow here.indent (g :: rest) with
        | none => none
        | some (l, behind) =>
          match here.add g l with
          | none => none
          | some next => tokensFrom next behind
termination_by gs.length
decreasing_by
  have hs := length_skipBetween s.inFlow s.keyAllowed false gs
  rw [_hb] at hs
  exact Nat.lt_of_lt_of_le (length_scanLexeme _hl) hs

/-- **The tokens of a text**, if its lexemes and its layout are well formed. -/
def tokens? (text : List Char) : Option (List Token) :=
  (glyphs? text).bind (tokensFrom {})

end Caret.Yaml
