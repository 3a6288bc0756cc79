import Caret.Yaml.BlockScalar

/-!
# YAML lexemes

The pieces of a YAML text: directives, document markers, brackets and
indicators, anchors, aliases, tags and scalars. What a piece is depends on
its first glyphs, on whether it stands between brackets, and for scalars of
several lines on the indentation around it. Each scanner takes at least one
glyph.
-/

namespace Caret.Yaml

/-- **A lexeme.** -/
inductive Lexeme where
  /-- The version that a directive asks for. -/
  | versionDirective (major minor : Nat)
  /-- A handle and what it stands for in tags. -/
  | tagDirective (handle stem : List Char)
  | documentStart
  | documentEnd
  /-- The opening bracket of a mapping or sequence. -/
  | open (isMapping : Bool)
  /-- The closing bracket of a mapping or sequence. -/
  | close (isMapping : Bool)
  /-- The comma between brackets. -/
  | comma
  /-- The hyphen before an item. -/
  | entry
  /-- The question mark before a key. -/
  | key
  /-- The colon before a value. -/
  | value
  | alias (name : List Char)
  | anchor (name : List Char)
  /-- A tag as its handle and what follows it; the handle may be empty. -/
  | tag (handle suffix : List Char)
  /-- A plain scalar, and whether a line break was met behind it. -/
  | plain (text : List Char) (endsLine : Bool)
  /-- A scalar in quotation marks. -/
  | quoted (text : List Char)
  /-- A literal or folded scalar. -/
  | block (text : List Char)

/-- The characters of glyphs. -/
def charsOf (gs : List Glyph) : List Char := gs.map (·.char)

/-! ## Names -/

/-- Scans the name of an anchor or alias, behind its indicator. -/
def scanName (gs : List Glyph) : Scanned (List Char) :=
  let name := gs.takeWhile Glyph.isNameChar
  let rest := gs.dropWhile Glyph.isNameChar
  if name.isEmpty then none
  else if separated rest || startsWithAny ['?', ':', ',', ']', '\x7d', '%', '@', '\x60'] rest then
    some (charsOf name, rest)
  else none

/-! ## Tags -/

/-- Whether a glyph may stand in a tag; some only where the tag is given in full. -/
def isTagChar (full : Bool) (g : Glyph) : Bool :=
  g.isNameChar || [';', '/', '?', ':', '@', '&', '=', '+', '$', '.', '!', '~', '*', '\'', '(',
    ')'].contains g.char || full && [',', '[', ']'].contains g.char

/-- The number of octets of the UTF-8 sequence that an octet starts, if it starts one. -/
def sequenceLength? (octet : Nat) : Option Nat :=
  if octet < 0x80 then some 1
  else if 0xC0 ≤ octet ∧ octet < 0xE0 then some 2
  else if 0xE0 ≤ octet ∧ octet < 0xF0 then some 3
  else if 0xF0 ≤ octet ∧ octet < 0xF8 then some 4
  else none

/-- Scans the characters of a tag. Octets may be escaped by a percent sign
and two hexadecimal digits, and are kept as characters of their value;
escaped octets form whole UTF-8 sequences, of which `owed` are still to come. -/
def scanTagChars (full : Bool) (owed : Nat) : List Glyph → Scanned (List Char)
  | [] => if owed = 0 then some ([], []) else none
  | g :: gs =>
    if g.char = '%' then
      match gs with
      | a :: b :: rest =>
        match Text.hexValue? a.char, Text.hexValue? b.char with
        | some high, some low =>
          let octet := 16 * high + low
          let owed := if owed = 0 then (sequenceLength? octet).map (· - 1)
            else if 0x80 ≤ octet ∧ octet < 0xC0 then some (owed - 1) else none
          match owed with
          | some owed => prependText [Char.ofNat octet] (scanTagChars full owed rest)
          | none => none
        | _, _ => none
      | _ => none
    else if owed ≠ 0 then none
    else if isTagChar full g then prependText [g.char] (scanTagChars full 0 gs)
    else some ([], g :: gs)

/-- Scans a handle at an exclamation mark: the mark, name characters, and a
second mark if it is there. -/
def scanHandle : List Glyph → Scanned (List Char)
  | [] => none
  | g :: gs =>
    let name := gs.takeWhile Glyph.isNameChar
    let rest := gs.dropWhile Glyph.isNameChar
    if g.char ≠ '!' then none
    else match rest with
    | [] => some ('!' :: charsOf name, [])
    | h :: hs =>
      if h.char = '!' then some ('!' :: charsOf name ++ ['!'], hs)
      else some ('!' :: charsOf name, h :: hs)

/-- Whether a scanned handle is more than one mark and ends in one. -/
def isNamedHandle (handle : List Char) : Bool :=
  handle.length ≠ 1 && handle.getLast? == some '!'

/-- The part of a tag that counts: an escaped U+0000 ends it. -/
def tagText (cs : List Char) : List Char := cs.takeWhile (· ≠ '\x00')

/-- Scans a tag at its exclamation mark. A tag in angle brackets is given in
full. Otherwise it has a handle; a single mark that stands alone is the tag. -/
def scanTagParts (gs : List Glyph) : Scanned (List Char × List Char) :=
  match gs with
  | _ :: open' :: rest =>
    if open'.char = '<' then
      match scanTagChars true 0 rest with
      | some (text, close :: rest) =>
        if text.isEmpty || close.char ≠ '>' then none else some (([], tagText text), rest)
      | _ => none
    else
      match scanHandle gs with
      | none => none
      | some (handle, rest) => match scanTagChars false 0 rest with
        | none => none
        | some (text, rest) =>
          if isNamedHandle handle then
            if text.isEmpty then none else some ((handle, tagText text), rest)
          else
            let suffix := tagText (handle.drop 1 ++ text)
            if suffix.isEmpty then some (([], ['!']), rest) else some ((['!'], suffix), rest)
  | _ => none

/-- Scans a tag, behind which a separator must stand, or a comma between brackets. -/
def scanTag (inFlow : Bool) (gs : List Glyph) : Scanned Lexeme :=
  match scanTagParts gs with
  | some ((handle, suffix), rest) =>
    if separated rest || inFlow && startsWithAny [','] rest then some (.tag handle suffix, rest)
    else none
  | none => none

/-! ## Directives -/

/-- Scans a number of at most nine digits. -/
def scanVersionPart (gs : List Glyph) : Scanned Nat :=
  let isDigit := fun g : Glyph => g.char.isDigit
  let digits := gs.takeWhile isDigit
  if digits.isEmpty || 9 < digits.length then none
  else some (Text.ofDecimal (charsOf digits), gs.dropWhile isDigit)

/-- Scans a version: two numbers with a point between them. -/
def scanVersion (gs : List Glyph) : Scanned Lexeme :=
  match scanVersionPart gs with
  | some (major, point :: rest) =>
    if point.char ≠ '.' then none
    else match scanVersionPart rest with
    | some (minor, rest) => some (.versionDirective major minor, rest)
    | none => none
  | _ => none

/-- Scans a handle and what it stands for. -/
def scanTagDirective (gs : List Glyph) : Scanned Lexeme :=
  match scanHandle gs with
  | some (handle, rest) =>
    if handle ≠ ['!'] && !isNamedHandle handle then none
    else if !(startsWithAny [' ', '\t'] rest) then none
    else match scanTagChars true 0 (rest.dropWhile Glyph.isBlank) with
    | some (stem, rest) =>
      if stem.isEmpty || !separated rest then none
      else some (.tagDirective handle (tagText stem), rest)
    | none => none
  | none => none

/-- Scans a directive behind its percent sign, and the rest of its line. -/
def scanDirective (gs : List Glyph) : Scanned Lexeme :=
  let name := charsOf (gs.takeWhile Glyph.isNameChar)
  let rest := gs.dropWhile Glyph.isNameChar
  if !separated rest then none
  else
    let rest := rest.dropWhile Glyph.isBlank
    let scanned :=
      if name = ['Y', 'A', 'M', 'L'] then scanVersion rest
      else if name = ['T', 'A', 'G'] then scanTagDirective rest
      else none
    match scanned with
    | none => none
    | some (directive, rest) => (skipLineEnd rest).map (directive, ·)

/-! ## Lexemes -/

/-- The characters that start no plain scalar, at least not on their own. -/
def indicators : List Char :=
  ['-', '?', ':', ',', '[', ']', '\x7b', '\x7d', '#', '&', '*', '!', '|', '>', '\'', '"', '%',
    '@', '\x60']

/-- Whether a plain scalar starts here. A hyphen starts one if no blank
follows, and outside brackets so do a question mark and a colon. -/
def startsPlain (inFlow : Bool) (g : Glyph) (gs : List Glyph) : Bool :=
  !(g.separates || indicators.contains g.char) ||
    g.char == '-' && !startsWithAny [' ', '\t'] gs ||
    !inFlow && (g.char == '?' || g.char == ':') && !separated gs

/-- The lexeme of one glyph that stands here, if there is one. -/
def indicator? (inFlow : Bool) (g : Glyph) (gs : List Glyph) : Option Lexeme :=
  match g.char with
  | '[' => some (.open false)
  | '\x7b' => some (.open true)
  | ']' => some (.close false)
  | '\x7d' => some (.close true)
  | ',' => some .comma
  | '-' => if separated gs then some .entry else none
  | '?' => if inFlow || separated gs then some .key else none
  | ':' => if inFlow || separated gs then some .value else none
  | _ => none

/-- **Scans a lexeme**, which must be there; `indent` is the indentation around it. -/
def scanLexeme (inFlow : Bool) (indent : Int) : List Glyph → Scanned Lexeme
  | [] => none
  | g :: gs =>
    if g.column = 0 ∧ g.char = '%' then scanDirective gs
    else if isDocumentMarker (g :: gs) then
      some (if g.char = '-' then .documentStart else .documentEnd, gs.drop 2)
    else match indicator? inFlow g gs with
    | some l => some (l, gs)
    | none =>
      if g.char = '*' then (scanName gs).map fun r => (.alias r.1, r.2)
      else if g.char = '&' then (scanName gs).map fun r => (.anchor r.1, r.2)
      else if g.char = '!' then scanTag inFlow (g :: gs)
      else if g.char = '|' ∧ ¬ inFlow then
        (blockScalar false indent gs).map fun r => (.block r.1, r.2)
      else if g.char = '>' ∧ ¬ inFlow then
        (blockScalar true indent gs).map fun r => (.block r.1, r.2)
      else if g.char = '\'' then (singleQuoted {} gs).map fun r => (.quoted r.1, r.2)
      else if g.char = '"' then (doubleQuoted {} gs).map fun r => (.quoted r.1, r.2)
      else if startsPlain inFlow g gs then
        (plain inFlow (indent + 1) {} gs).map fun r => (.plain (g.char :: r.1.1) r.1.2, r.2)
      else none

/-! ## What scanners leave -/

theorem length_scanName {gs : List Glyph} {r : List Char × List Glyph}
    (h : scanName gs = some r) : r.2.length ≤ gs.length := by
  unfold scanName at h
  have := (List.dropWhile_sublist (l := gs) Glyph.isNameChar).length_le
  grind

theorem length_scanTagChars {full : Bool} {owed : Nat} {gs : List Glyph}
    {r : List Char × List Glyph} (h : scanTagChars full owed gs = some r) :
    r.2.length ≤ gs.length := by
  match gs with
  | [] =>
    unfold scanTagChars at h
    split at h
    · cases h
      exact Nat.le_refl 0
    · cases h
  | g :: gs =>
    unfold scanTagChars at h
    split at h
    · split at h
      · split at h
        · simp only at h
          generalize (if owed = 0 then _ else _ : Option Nat) = owed? at h
          cases owed? with
          | none => cases h
          | some owed =>
            obtain ⟨t, ht, hr⟩ := rest_prependText h
            have := length_scanTagChars ht
            rw [hr]
            simp only [List.length_cons]
            omega
        · cases h
      · cases h
    · split at h
      · cases h
      · split at h
        · obtain ⟨t, ht, hr⟩ := rest_prependText h
          have := length_scanTagChars ht
          rw [hr, List.length_cons]
          omega
        · cases h
          exact Nat.le_refl _

theorem length_scanHandle {gs : List Glyph} {r : List Char × List Glyph}
    (h : scanHandle gs = some r) : r.2.length < gs.length := by
  unfold scanHandle at h
  split at h
  · simp at h
  · rename_i g gs
    have := (List.dropWhile_sublist (l := gs) Glyph.isNameChar).length_le
    grind

theorem length_scanTagParts {gs : List Glyph} {r : (List Char × List Char) × List Glyph}
    (h : scanTagParts gs = some r) : r.2.length < gs.length := by
  unfold scanTagParts at h
  split at h
  · split at h
    · split at h
      · rename_i hs
        have := length_scanTagChars hs
        grind
      · simp at h
    · split at h
      · simp at h
      · rename_i hh
        have := length_scanHandle hh
        split at h
        · simp at h
        · rename_i hs
          have := length_scanTagChars hs
          grind
  · simp at h

theorem length_scanTag {inFlow : Bool} {gs : List Glyph} {r : Lexeme × List Glyph}
    (h : scanTag inFlow gs = some r) : r.2.length < gs.length := by
  unfold scanTag at h
  split at h
  · rename_i hp
    have := length_scanTagParts hp
    grind
  · simp at h

theorem length_scanVersionPart {gs : List Glyph} {r : Nat × List Glyph}
    (h : scanVersionPart gs = some r) : r.2.length ≤ gs.length := by
  unfold scanVersionPart at h
  have := (List.dropWhile_sublist (l := gs) (fun g : Glyph => g.char.isDigit)).length_le
  grind

theorem length_scanVersion {gs : List Glyph} {r : Lexeme × List Glyph}
    (h : scanVersion gs = some r) : r.2.length ≤ gs.length := by
  unfold scanVersion at h
  split at h
  · rename_i hp
    have := length_scanVersionPart hp
    split at h
    · simp at h
    · split at h
      · rename_i hq
        have := length_scanVersionPart hq
        grind
      · simp at h
  · simp at h

theorem length_scanTagDirective {gs : List Glyph} {r : Lexeme × List Glyph}
    (h : scanTagDirective gs = some r) : r.2.length ≤ gs.length := by
  unfold scanTagDirective at h
  split at h
  · rename_i handle rest hp
    have := length_scanHandle hp
    have := (List.dropWhile_sublist (l := rest) Glyph.isBlank).length_le
    split at h
    · simp at h
    · split at h
      · simp at h
      · split at h
        · rename_i hc
          have := length_scanTagChars hc
          grind
        · simp at h
  · simp at h

theorem length_scanDirective {gs : List Glyph} {r : Lexeme × List Glyph}
    (h : scanDirective gs = some r) : r.2.length ≤ gs.length := by
  unfold scanDirective at h
  have hn := (List.dropWhile_sublist (l := gs) Glyph.isNameChar).length_le
  have hb := (List.dropWhile_sublist (l := gs.dropWhile Glyph.isNameChar) Glyph.isBlank).length_le
  dsimp only at h
  split at h
  · simp at h
  · split at h
    · simp at h
    · rename_i directive rest hd
      have hd : rest.length ≤ ((gs.dropWhile Glyph.isNameChar).dropWhile Glyph.isBlank).length := by
        split at hd
        · exact length_scanVersion hd
        · split at hd
          · exact length_scanTagDirective hd
          · simp at hd
      obtain ⟨t, ht, rfl⟩ := Option.map_eq_some_iff.1 h
      exact Nat.le_trans (length_skipLineEnd ht) (Nat.le_trans hd (Nat.le_trans hb hn))

/-- Every lexeme takes a glyph. -/
theorem length_scanLexeme {inFlow : Bool} {indent : Int} {gs : List Glyph}
    {r : Lexeme × List Glyph} (h : scanLexeme inFlow indent gs = some r) :
    r.2.length < gs.length := by
  unfold scanLexeme at h
  split at h
  · simp at h
  · rename_i g gs
    have shorter {α : Type} {f : α → Lexeme} {s : Scanned α}
        (hs : ∀ t, s = some t → t.2.length ≤ gs.length)
        (h : (s.map fun t => (f t.1, t.2)) = some r) : r.2.length < (g :: gs).length := by
      obtain ⟨t, ht, rfl⟩ := Option.map_eq_some_iff.1 h
      exact Nat.lt_succ_of_le (hs t ht)
    split at h
    · exact Nat.lt_succ_of_le (length_scanDirective h)
    · split at h
      · grind
      · split at h
        · grind
        · repeat' split at h
          · exact shorter (f := .alias) (fun _ => length_scanName) h
          · exact shorter (f := .anchor) (fun _ => length_scanName) h
          · exact length_scanTag h
          · exact shorter (f := .block) (fun _ => length_blockScalar) h
          · exact shorter (f := .block) (fun _ => length_blockScalar) h
          · exact shorter (f := .quoted) (fun _ => length_singleQuoted) h
          · exact shorter (f := .quoted) (fun _ => length_doubleQuoted) h
          · exact shorter (f := fun t => .plain (g.char :: t.1) t.2) (fun _ => length_plain) h
          · simp at h

end Caret.Yaml
