import Caret.Text.Decimal
import Caret.Yaml.Gap
import Caret.Yaml.Glyph

/-!
# Plain and quoted scalars

The scalars that are written in the flow of the text. Each scanner gives
the text of the scalar and the glyphs behind it, or nothing if the scalar is
malformed. No document marker may stand at the start of a line inside
quotation marks, and one ends a plain scalar.
-/

namespace Caret.Yaml

/-- What a scanner gives: a value and the glyphs behind what it has read. -/
abbrev Scanned (α : Type) := Option (α × List Glyph)

/-- Puts characters before a scanned text. -/
def prependText (cs : List Char) (s : Scanned (List Char)) : Scanned (List Char) :=
  s.map fun r => (cs ++ r.1, r.2)

/-- Puts the text of a gap and a character before a scanned text, if there is
such a character. -/
def prependChar (gap : Gap) (c? : Option Char) (s : Scanned (List Char)) : Scanned (List Char) :=
  match c? with
  | none => none
  | some c => prependText (gap.text ++ [c]) s

theorem rest_prependText {cs : List Char} {s : Scanned (List Char)} {r : List Char × List Glyph}
    (h : prependText cs s = some r) : ∃ t, s = some t ∧ r.2 = t.2 := by
  obtain ⟨t, ht, rfl⟩ := Option.map_eq_some_iff.1 h
  exact ⟨t, ht, rfl⟩

theorem rest_prependChar {gap : Gap} {c? : Option Char} {s : Scanned (List Char)}
    {r : List Char × List Glyph} (h : prependChar gap c? s = some r) :
    ∃ t, s = some t ∧ r.2 = t.2 := by
  cases c? with
  | none => simp [prependChar] at h
  | some c => exact rest_prependText h

/-! ## Single quotation marks -/

/-- Scans behind a single quotation mark; a mark is written twice. -/
def singleQuoted (gap : Gap) : List Glyph → Scanned (List Char)
  | [] => none
  | g :: gs =>
    if g.isBlank then singleQuoted (gap.addBlank g.char) gs
    else if g.isBreak then singleQuoted (gap.addBreak g.char) gs
    else if g.isEnd || isDocumentMarker (g :: gs) then none
    else if g.char = '\'' then
      match gs with
      | [] => some (gap.text, [])
      | h :: hs =>
        if h.char = '\'' then prependChar gap (some '\'') (singleQuoted {} hs)
        else some (gap.text, h :: hs)
    else prependChar gap (some g.char) (singleQuoted {} gs)

/-! ## Double quotation marks -/

/-- What an escape of one letter stands for. -/
def shortEscape? : Char → Option Char
  | '0' => some '\x00'
  | 'a' => some '\x07'
  | 'b' => some '\x08'
  | 't' => some '\t'
  | '\t' => some '\t'
  | 'n' => some '\n'
  | 'v' => some '\x0b'
  | 'f' => some '\x0c'
  | 'r' => some '\r'
  | 'e' => some '\x1b'
  | ' ' => some ' '
  | '"' => some '"'
  | '/' => some '/'
  | '\\' => some '\\'
  | 'N' => some '\u0085'
  | '_' => some '\u00a0'
  | 'L' => some '\u2028'
  | 'P' => some '\u2029'
  | _ => none

/-- The number that hexadecimal digits denote. -/
def hexNumber? (digits : List Glyph) : Option Nat :=
  digits.foldlM (fun n g => (Text.hexValue? g.char).map (16 * n + ·)) 0

/-- The character that an escape with hexadecimal digits stands for. -/
def hexEscape? (digits : List Glyph) : Option Char := do
  let n ← hexNumber? digits
  if n.isValidChar then some (Char.ofNat n) else none

/-- Scans behind a double quotation mark. -/
def doubleQuoted (gap : Gap) : List Glyph → Scanned (List Char)
  | [] => none
  | g :: gs =>
    if g.isBlank then doubleQuoted (gap.addBlank g.char) gs
    else if g.isBreak then doubleQuoted (gap.addBreak g.char) gs
    else if g.isEnd || isDocumentMarker (g :: gs) then none
    else if g.char = '"' then some (gap.text, gs)
    else if g.char = '\\' then
      match gs with
      | [] => none
      | h :: hs =>
        if h.isBreak then prependText gap.text (doubleQuoted .escaped hs)
        else match h.char, hs with
          | 'x', a :: b :: rest => prependChar gap (hexEscape? [a, b]) (doubleQuoted {} rest)
          | 'u', a :: b :: c :: d :: rest =>
            prependChar gap (hexEscape? [a, b, c, d]) (doubleQuoted {} rest)
          | 'U', a :: b :: c :: d :: e :: f :: i :: j :: rest =>
            prependChar gap (hexEscape? [a, b, c, d, e, f, i, j]) (doubleQuoted {} rest)
          | c, hs => prependChar gap (shortEscape? c) (doubleQuoted {} hs)
    else prependChar gap (some g.char) (doubleQuoted {} gs)

/-! ## Plain scalars -/

/-- The characters that have a meaning of their own between brackets. -/
def flowIndicators : List Char := [',', '[', ']', '\x7b', '\x7d']

/-- Scans a plain scalar. Outside brackets its further lines are indented by
`indent` columns at least. With the text comes whether a line break was met
behind the last word. -/
def plain (inFlow : Bool) (indent : Int) (gap : Gap) :
    List Glyph → Scanned (List Char × Bool)
  | [] => some (([], gap.hasBreak), [])
  | g :: gs =>
    if g.isBlank then
      if gap.hasBreak && g.char = '\t' && g.column < indent then none
      else plain inFlow indent (gap.addBlank g.char) gs
    else if g.isBreak then plain inFlow indent (gap.addBreak g.char) gs
    else
      let fresh := !gap.isEmpty
      let outdented := !inFlow && g.column < indent
      let stop := some (([], gap.hasBreak), g :: gs)
      if g.isEnd || fresh && (outdented || isDocumentMarker (g :: gs) || g.char = '#') then stop
      else if g.char = ':' && inFlow && startsWithAny ('?' :: flowIndicators) gs then none
      else if g.char = ':' && separated gs || inFlow && flowIndicators.contains g.char then stop
      else
        (plain inFlow indent {} gs).map fun r => ((gap.text ++ g.char :: r.1.1, r.1.2), r.2)

/-! ## What scanners leave -/

theorem length_singleQuoted {gap : Gap} {gs : List Glyph} {r : List Char × List Glyph}
    (h : singleQuoted gap gs = some r) : r.2.length ≤ gs.length := by
  fun_induction singleQuoted gap gs generalizing r <;> grind [rest_prependChar]

theorem length_doubleQuoted {gap : Gap} {gs : List Glyph} {r : List Char × List Glyph}
    (h : doubleQuoted gap gs = some r) : r.2.length ≤ gs.length := by
  fun_induction doubleQuoted gap gs generalizing r <;>
    simp only [List.length_cons, List.length_nil] <;>
    grind [rest_prependChar, rest_prependText]

theorem length_plain {inFlow : Bool} {indent : Int} {gap : Gap} {gs : List Glyph}
    {r : (List Char × Bool) × List Glyph}
    (h : plain inFlow indent gap gs = some r) : r.2.length ≤ gs.length := by
  fun_induction plain inFlow indent gap gs generalizing r <;>
    grind [Option.map_eq_some_iff]

end Caret.Yaml
