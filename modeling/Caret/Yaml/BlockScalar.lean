import Caret.Yaml.FlowScalar

/-!
# Block scalars

Literal and folded scalars, which hold the lines that are indented more than
what surrounds them. A header may give the indentation, relative to the
surrounding one, and say what becomes of the line breaks at the end: one
is kept by default, none after a hyphen, all after a plus sign. Without an
indentation in the header, that of the first line that is not blank holds, or
of a blank line before it if that is deeper.

A literal scalar keeps its line breaks. A folded one joins lines as in the
gaps of flow scalars, except around lines that start with a blank.
-/

namespace Caret.Yaml

/-- What becomes of the line breaks at the end of a block scalar. -/
inductive Chomping where
  | strip
  | clip
  | keep
  deriving DecidableEq, Repr

/-- The header of a block scalar. -/
structure BlockHeader where
  /-- What becomes of the line breaks at the end. -/
  chomping : Chomping := .clip
  /-- The indentation over the surrounding one, if given. -/
  increment : Option Nat := none

/-- A chomping indicator. -/
def chomping? (g : Glyph) : Option Chomping :=
  if g.char = '+' then some .keep else if g.char = '-' then some .strip else none

/-- An indentation indicator, if the glyph is a digit; it must not be zero. -/
def increment? (g : Glyph) : Option Nat :=
  if g.char.isDigit then some (g.char.toNat - 48) else none

/-- The indicators of a header, in either order. -/
def scanIndicators : List Glyph → Scanned BlockHeader
  | [] => some ({}, [])
  | a :: gs => match chomping? a, increment? a with
    | some chomping, _ => match gs with
      | [] => some ({ chomping }, [])
      | b :: hs => match increment? b with
        | some 0 => none
        | some n => some ({ chomping, increment := some n }, hs)
        | none => some ({ chomping }, b :: hs)
    | none, some 0 => none
    | none, some n => match gs with
      | [] => some ({ increment := some n }, [])
      | b :: hs => match chomping? b with
        | some chomping => some ({ chomping, increment := some n }, hs)
        | none => some ({ increment := some n }, b :: hs)
    | none, none => some ({}, a :: gs)

/-- Skips blanks and a comment up to the end of the line, which is skipped too. -/
def skipLineEnd (gs : List Glyph) : Option (List Glyph) :=
  let gs := gs.dropWhile Glyph.isBlank
  let gs := if startsWithAny ['#'] gs then gs.dropWhile (!·.endsLine) else gs
  match gs with
  | [] => some []
  | g :: rest => if g.isBreak then some rest else if g.isEnd then some (g :: rest) else none

/-- Skips the indentation of blank lines and their line breaks, which are
given; `indent` is zero while the indentation is unknown. Gives the greatest
indentation met as well. A tab may not stand in the indentation. -/
def skipIndentation (indent : Nat) (deepest : Nat) : List Glyph → Scanned (List Char × Nat)
  | [] => some (([], deepest), [])
  | g :: gs =>
    let inside := indent = 0 ∨ g.column < indent
    if inside ∧ g.char = ' ' then skipIndentation indent deepest gs
    else if inside ∧ g.char = '\t' then none
    else
      let deepest := max deepest g.column
      if g.isBreak then
        (skipIndentation indent deepest gs).map fun r => ((g.char :: r.1.1, r.1.2), r.2)
      else some (([], deepest), g :: gs)

/-- Where a block scalar is being read. -/
inductive BlockPlace where
  /-- Within a line. -/
  | line
  /-- In the indentation and blank lines before a line. -/
  | indentation

/-- The line breaks before a line of a block scalar. -/
structure BlockGap where
  /-- The break that ended the line before, if there was one. -/
  first : List Char := []
  /-- The breaks of blank lines. -/
  more : List Char := []
  /-- Whether the line before starts with a blank. -/
  afterBlank : Bool := false

/-- What the breaks before a line become. -/
def BlockGap.text (gap : BlockGap) (folded : Bool) (startsBlank : Bool) : List Char :=
  if folded && gap.first == ['\n'] && !gap.afterBlank && !startsBlank then
    if gap.more.isEmpty then [' '] else gap.more
  else gap.first ++ gap.more

/-- What the breaks at the end become. -/
def BlockGap.chomp (gap : BlockGap) : Chomping → List Char
  | .strip => []
  | .clip => gap.first
  | .keep => gap.first ++ gap.more

/-- Reads the lines of a block scalar with the given indentation. -/
def blockLines (folded : Bool) (chomping : Chomping) (indent : Nat) (place : BlockPlace)
    (gap : BlockGap) : List Glyph → Scanned (List Char)
  | [] => some (gap.chomp chomping, [])
  | g :: gs =>
    match place with
    | .line =>
      if g.isBreak then
        blockLines folded chomping indent .indentation { gap with first := [g.char] } gs
      else if g.isEnd then some (gap.chomp chomping, g :: gs)
      else prependText [g.char] (blockLines folded chomping indent .line gap gs)
    | .indentation =>
      if g.column < indent ∧ g.char = ' ' then
        blockLines folded chomping indent .indentation gap gs
      else if g.column < indent ∧ g.char = '\t' then none
      else if g.isBreak then
        blockLines folded chomping indent .indentation { gap with more := gap.more ++ [g.char] } gs
      else if g.column = indent ∧ ¬ g.isEnd then
        prependText (gap.text folded g.isBlank ++ [g.char])
          (blockLines folded chomping indent .line { afterBlank := g.isBlank } gs)
      else some (gap.chomp chomping, g :: gs)

/-- **Scans a block scalar** behind its first indicator; `surrounding` is the
indentation around it, -1 at the top. -/
def blockScalar (folded : Bool) (surrounding : Int) (gs : List Glyph) : Scanned (List Char) :=
  match scanIndicators gs with
  | none => none
  | some (header, gs) =>
    match skipLineEnd gs with
    | none => none
    | some gs =>
      let given := header.increment.map ((max surrounding 0).toNat + ·)
      match skipIndentation (given.getD 0) 0 gs with
      | none => none
      | some ((breaks, deepest), gs) =>
        let indent := given.getD (max (max deepest (surrounding + 1).toNat) 1)
        blockLines folded header.chomping indent .indentation { more := breaks } gs

theorem length_scanIndicators {gs : List Glyph} {r : BlockHeader × List Glyph}
    (h : scanIndicators gs = some r) : r.2.length ≤ gs.length := by
  unfold scanIndicators at h
  grind

theorem length_skipLineEnd {gs rest : List Glyph} (h : skipLineEnd gs = some rest) :
    rest.length ≤ gs.length := by
  unfold skipLineEnd at h
  have := (List.dropWhile_sublist (l := gs) Glyph.isBlank).length_le
  have := (List.dropWhile_sublist (l := gs.dropWhile Glyph.isBlank) (!·.endsLine)).length_le
  grind

theorem length_skipIndentation {indent deepest : Nat} {gs : List Glyph}
    {r : (List Char × Nat) × List Glyph} (h : skipIndentation indent deepest gs = some r) :
    r.2.length ≤ gs.length := by
  fun_induction skipIndentation indent deepest gs generalizing r <;>
    grind [Option.map_eq_some_iff]

theorem length_blockLines {folded : Bool} {chomping : Chomping} {indent : Nat}
    {place : BlockPlace} {gap : BlockGap} {gs : List Glyph} {r : List Char × List Glyph}
    (h : blockLines folded chomping indent place gap gs = some r) :
    r.2.length ≤ gs.length := by
  fun_induction blockLines folded chomping indent place gap gs generalizing r <;>
    grind [rest_prependText]

theorem length_blockScalar {folded : Bool} {surrounding : Int} {gs : List Glyph}
    {r : List Char × List Glyph} (h : blockScalar folded surrounding gs = some r) :
    r.2.length ≤ gs.length := by
  unfold blockScalar at h
  split at h
  · simp at h
  · rename_i hi
    split at h
    · simp at h
    · rename_i he
      dsimp only at h
      split at h
      · simp at h
      · rename_i hs
        exact Nat.le_trans (length_blockLines h) (Nat.le_trans (length_skipIndentation hs)
          (Nat.le_trans (length_skipLineEnd he) (length_scanIndicators hi)))

end Caret.Yaml
