import Caret.Proofs.CommandLine.Stages

/-!
# The caret stands under the offending character

An error is shown with the line that it is on and a caret below. Two things have found
that line. The position came from an index, by a walk down the lengths of the lines; the
line is looked up by the number of the position among the pieces between line feeds. And
the caret's place is settled a third time, by the widths of what is printed before it.

`LineIndex.exists_line_of_le` says where a walk ends in terms of the text itself: on a
piece of it between line feeds, as far behind the start of the piece as the offset is. So
the line that is looked up is the one the offset is on, and the column is the offset's
place on it (`Excerpt.PointsAt`). Offsets past the normalized form are on a line that
does not exist, and these are the errors without an excerpt.

What is printed before the line and before the caret is as wide in both rows,
whatever the number (`Excerpt.length_padding`). The message above them may hold line
feeds of its own, but the rows of the excerpt do not, so they are the last three.
-/

namespace Caret.CommandLine

namespace Excerpt

/-! ## Rows -/

/-- What stands before the line: its number and a bar. -/
def gutter (x : Excerpt) : List Char := Text.decimal x.number ++ [' ', '|', ' ']

/-- What stands before the row of the caret: blanks in the place of the number, and a bar. -/
def padding (x : Excerpt) : List Char :=
  List.replicate (Text.decimal x.number).length ' ' ++ [' ', '|', ' ']

/-- The line and the row of the caret start in one column. -/
theorem length_padding (x : Excerpt) : x.padding.length = x.gutter.length := by
  simp [padding, gutter]

/-- **The text of an excerpt** is three rows. -/
theorem toList_text (x : Excerpt) :
    (x.text false).toList
      = (List.replicate (Text.decimal x.number).length ' ' ++ [' ', '|']) ++ '\n' ::
        ((x.gutter ++ x.line) ++ '\n' ::
          (x.padding ++ List.replicate x.indent ' ' ++ ['^'])) := by
  simp [text, gutter, padding, spaces, styled, Text.natText, String.toList_append]

/-- No digit is a line feed. -/
theorem lineFeed_notMem_decimal (n : Nat) : '\n' ∉ Text.decimal n := fun h =>
  absurd (Text.isDigit_of_mem_decimal h) (by decide)

/-- **The rows of an excerpt** of a line. -/
theorem segments_text {x : Excerpt} (h : '\n' ∉ x.line) :
    Text.segments '\n' (x.text false).toList
      = [List.replicate (Text.decimal x.number).length ' ' ++ [' ', '|'], x.gutter ++ x.line,
        x.padding ++ List.replicate x.indent ' ' ++ ['^']] := by
  rw [toList_text, Text.segments_append_cons_self, Text.segments_append_cons_self,
    Text.segments_of_notMem, Text.segments_of_notMem, Text.segments_of_notMem]
  · rfl
  · simp [padding]
  · simp [gutter, h, lineFeed_notMem_decimal]
  · simp

/-! ## What the caret points at -/

/-- **An excerpt points at an offset of a text**: it shows the line that the offset is on, and its
caret is indented by the offset's place on the line. -/
structure PointsAt (x : Excerpt) (cs : List Char) (offset : Nat) : Prop where
  /-- The line is a piece of the text between line feeds, with as many lines before it as its
  number says, and starts as much earlier than the offset as the caret is indented. -/
  exists_isPiece : ∃ before behind, Text.IsPiece '\n' cs before x.line behind
    ∧ x.number = 1 + before.count '\n' ∧ offset = before.length + x.indent
  /-- The caret is below the line, or at its end. -/
  indent_le : x.indent ≤ x.line.length
  /-- If the offset is before a character of the line, that is the one above the caret. -/
  above : ∀ c, cs[offset]? = some c → c ≠ '\n' → x.line[x.indent]? = some c
  /-- If it is before a line feed or at the end, the caret is at the end of the line. -/
  atEnd : (∀ c ∈ cs[offset]?, c = '\n') → x.indent = x.line.length

/-- **The line of an offset, and the offset's place on it**, make an excerpt that points at it. -/
theorem pointsAt_of_isPiece {x : Excerpt} {cs before behind : List Char}
    (h : Text.IsPiece '\n' cs before x.line behind) (hnumber : x.number = 1 + before.count '\n')
    (hindent : x.indent ≤ x.line.length) : x.PointsAt cs (before.length + x.indent) where
  exists_isPiece := ⟨before, behind, h, hnumber, rfl⟩
  indent_le := hindent
  above c hc hne := by
    rw [h.getElem? hindent] at hc
    rcases Option.or_eq_some_iff.1 hc with hline | ⟨-, hbehind⟩
    · exact hline
    · exact absurd (h.head_behind c hbehind) hne
  atEnd hend := by
    refine Nat.le_antisymm hindent (Nat.not_lt.1 fun hlt => h.notMem ?_)
    rw [h.getElem? hindent, List.getElem?_eq_getElem hlt, Option.some_or] at hend
    exact hend _ rfl ▸ List.getElem_mem hlt

end Excerpt

/-! ## The excerpt of an error -/

section Locate

variable {f : Formatter} {query : String} {offset : Nat} {p : Position}

/-- An offset past the normalized form is on no line of it. -/
theorem getElem?_line_of_lt (h : f.position query offset = .ok p)
    (hpast : (f.normalize query).length < offset) :
    (Text.segments '\n' (f.normalize query).toList)[p.line - 1]? = none := by
  have hnone := LineIndex.getElem?_walk_of_lt (String.length_toList.trans_lt hpast)
  rwa [Formatter.walk_of_position h] at hnone

/-- **An offset in the normalized form is pointed at** on the line of its position. -/
theorem exists_line_of_position (h : f.position query offset = .ok p)
    (hinside : offset ≤ (f.normalize query).length) :
    ∃ line, (Text.segments '\n' (f.normalize query).toList)[p.line - 1]? = some line
      ∧ (⟨p.line, line, p.column - 1⟩ : Excerpt).PointsAt (f.normalize query).toList offset := by
  rw [← String.length_toList] at hinside
  obtain ⟨before, line, behind, hpiece, hline, hcount, hoffset, hle⟩ :=
    LineIndex.exists_line_of_le hinside
  rw [Formatter.walk_of_position h] at hline hcount hoffset hle
  have hnumber : p.line = 1 + before.count '\n' := by
    have hpos := (Formatter.one_le_of_position h).1
    rw [hcount]
    exact (Nat.add_sub_cancel' hpos).symm
  refine ⟨line, hline, ?_⟩
  rw [hoffset]
  exact Excerpt.pointsAt_of_isPiece (x := ⟨p.line, line, p.column - 1⟩) hpiece hnumber hle

/-- An error past the normalized form is shown by its message alone. -/
theorem humanText_of_lt {e : QueryError} (h : f.position query offset = .ok p)
    (hposition : e.position? = some p) (hpast : (f.normalize query).length < offset) :
    humanText false f query e = .ok ("✗ " ++ e.message) := by
  rw [humanText_of_position hposition, getElem?_line_of_lt h hpast]
  rfl

/-- **An error in the normalized form is shown with an excerpt** that points at it. -/
theorem exists_humanText_of_le {e : QueryError} (h : f.position query offset = .ok p)
    (hposition : e.position? = some p) (hinside : offset ≤ (f.normalize query).length) :
    ∃ x : Excerpt, humanText false f query e = .ok ("✗ " ++ e.message ++ "\n" ++ x.text false)
      ∧ x.number = p.line ∧ x.indent = p.column - 1
      ∧ x.PointsAt (f.normalize query).toList offset := by
  obtain ⟨line, hline, hpoints⟩ := exists_line_of_position h hinside
  refine ⟨⟨p.line, line, p.column - 1⟩, ?_, rfl, rfl, hpoints⟩
  rw [humanText_of_position hposition, hline]
  rfl

end Locate

/-- **The rows of an excerpt are the last three** of what is printed, whatever the message is. -/
theorem segments_append_excerpt (head : String) {x : Excerpt} (h : '\n' ∉ x.line) :
    Text.segments '\n' (head ++ "\n" ++ x.text false).toList
      = Text.segments '\n' head.toList
        ++ [List.replicate (Text.decimal x.number).length ' ' ++ [' ', '|'], x.gutter ++ x.line,
          x.padding ++ List.replicate x.indent ' ' ++ ['^']] := by
  rw [← Excerpt.segments_text h, ← Text.segments_append_cons_self, String.toList_append,
    String.toList_append, List.append_assoc]
  rfl

/-- **The caret stands under the offending character.** An error is located in every query with an
offset that is not past its end, and shown to people by its message, which an excerpt follows
exactly if the offset is not past the end of the normalized form. The excerpt then has the last
three rows of what is printed. In the second one a line of the normalized form stands behind a
gutter, the line that the offset is on; in the third one a caret, behind a padding of the width of
the gutter and as many blanks as the column says less one. That is its index on the line, where the
line has the character at the offset, or ends, if there is a line feed at the offset or nothing. -/
theorem caret_under_offset (f : Formatter) {query : String} {offset : Nat} (description : String)
    (label : Option Label) (hoffset : offset ≤ query.length)
    (hlimit : query.length + 1 < wordLimit) :
    ∃ e p output,
      f.error ⟨query, some offset, label⟩ description none = .ok e ∧ e.position? = some p
      ∧ locate false f ⟨some offset, description, label, .human⟩ query = .ok output
      ∧ ((∃ x : Excerpt, output = "✗ " ++ e.message ++ "\n" ++ x.text false)
        ↔ offset ≤ (f.normalize query).length)
      ∧ ((f.normalize query).length < offset → output = "✗ " ++ e.message)
      ∧ (offset ≤ (f.normalize query).length → ∃ x : Excerpt,
          output = "✗ " ++ e.message ++ "\n" ++ x.text false
          ∧ Text.segments '\n' output.toList
            = Text.segments '\n' ("✗ " ++ e.message).toList
              ++ [List.replicate (Text.decimal p.line).length ' ' ++ [' ', '|'],
                x.gutter ++ x.line, x.padding ++ List.replicate (p.column - 1) ' ' ++ ['^']]
          ∧ x.padding.length = x.gutter.length ∧ '\n' ∉ x.line
          ∧ x.number = p.line ∧ x.indent = p.column - 1
          ∧ x.PointsAt (f.normalize query).toList offset)
      ∧ ∀ env args config locale input,
          Invocation.ofArgs args
            = .ok ⟨config, locale, .locate ⟨some offset, description, label, .human⟩, input⟩ →
          env.isColored = false → loadFormatter env config locale = .ok f →
          readInput env input = .ok query → run env args = ⟨0, output ++ "\n", ""⟩ := by
  have hinside : ∀ n ∈ some offset, n ≤ query.length := by
    rintro n ⟨⟩
    exact hoffset
  obtain ⟨e, he⟩ := f.exists_error label description none hinside hlimit
  obtain ⟨p, hp, hposition⟩ := (Formatter.position?_of_error he).2 offset rfl
  obtain ⟨output, houtput⟩ := exists_humanText false f query e
  have hlocate : locate false f ⟨some offset, description, label, .human⟩ query = .ok output := by
    rw [locate_of_inside hinside]
    exact mapError_eq_ok_iff.2 (bind_eq_ok_iff.2 ⟨e, he, houtput⟩)
  have hpast : (f.normalize query).length < offset → output = "✗ " ++ e.message := fun h =>
    Except.ok.inj (houtput.symm.trans (humanText_of_lt hp hposition h))
  refine ⟨e, p, output, he, hposition, hlocate, ⟨?_, fun hle => ?_⟩, hpast, fun hle => ?_, ?_⟩
  · rintro ⟨x, hx⟩
    refine Nat.not_lt.1 fun hlt => ?_
    -- there is more than the message
    have hlength := congrArg String.length (hx.symm.trans (hpast hlt))
    simp only [String.length_append] at hlength
    have : "\n".length = 1 := rfl
    omega
  · obtain ⟨x, hx, -⟩ := exists_humanText_of_le hp hposition hle
    exact ⟨x, Except.ok.inj (houtput.symm.trans hx)⟩
  · obtain ⟨x, hx, hnumber, hindent, hpoints⟩ := exists_humanText_of_le hp hposition hle
    obtain rfl : output = _ := Except.ok.inj (houtput.symm.trans hx)
    obtain ⟨before, behind, hpiece, -⟩ := hpoints.exists_isPiece
    refine ⟨x, rfl, ?_, x.length_padding, hpiece.notMem, hnumber, hindent, hpoints⟩
    rw [segments_append_excerpt _ hpiece.notMem, hnumber, hindent]
  · intro env args config locale input hargs hcolored hload hread
    rw [run_of_stages hargs hload hread, hcolored]
    exact congrArg outcomeOf hlocate

/-- On the tenth line, behind a tab, and in the tail behind the normalized form. -/
theorem caret_under_offset_tenth_line :
    let query := "\n\n\n\n\n\n\n\n\na\tb\n\n"
    let env : Environment :=
      ⟨⟨fun _ => false, fun _ => .error .notFound⟩, "/q", query.toUTF8, false⟩
    11 ≤ query.length ∧ 13 ≤ query.length ∧ query.length + 1 < wordLimit
      ∧ run env ["locate", "-", "-o11"]
        = ⟨0, "✗ Syntax error near line 10, column 3.\n   |\n10 | a b\n   |   ^\n", ""⟩
      ∧ (∃ message, ∃ x : Excerpt, run env ["locate", "-", "-o11"]
            = ⟨0, "✗ " ++ message ++ "\n" ++ x.text false ++ "\n", ""⟩
          ∧ x.line[x.indent]? = some 'b')
      ∧ run env ["locate", "-", "-o13"]
        = ⟨0, "✗ Syntax error near line 11, column 1.\n", ""⟩ := by
  intro query env
  have hlimit : query.length + 1 < wordLimit := by decide
  have h₁₁ : 11 ≤ query.length := by decide
  have h₁₃ : 13 ≤ query.length := by decide
  have hload : loadFormatter env none none = .ok {} := loadFormatter_of_none (by decide +kernel)
  have hread : readInput env "-" = .ok query := readInput_of_input rfl
  obtain ⟨e, p, output, -, -, hlocate, -, -, hinside, hrun⟩ :=
    caret_under_offset {} "Syntax error" none h₁₁ hlimit
  obtain ⟨x, rfl, -, -, -, -, -, hpoints⟩ := hinside (by decide)
  have hrun₁₁ := hrun env ["locate", "-", "-o11"] none none "-" rfl rfl hload hread
  have hshown : locate false {} ⟨some 11, "Syntax error", none, .human⟩ query
      = .ok "✗ Syntax error near line 10, column 3.\n   |\n10 | a b\n   |   ^" :=
    eq_ok_of_toOption (by decide +kernel)
  refine ⟨h₁₁, h₁₃, hlimit, ?_, ⟨e.message, x, hrun₁₁, hpoints.above 'b' (by decide) (by decide)⟩,
    ?_⟩
  · rw [hrun₁₁, Except.ok.inj (hlocate.symm.trans hshown)]
    rfl
  · obtain ⟨e, p, output, -, -, hlocate, -, -, -, hrun⟩ :=
      caret_under_offset {} "Syntax error" none h₁₃ hlimit
    have hshown : locate false {} ⟨some 13, "Syntax error", none, .human⟩ query
        = .ok "✗ Syntax error near line 11, column 1." :=
      eq_ok_of_toOption (by decide +kernel)
    rw [hrun env _ none none "-" rfl rfl hload hread,
      Except.ok.inj (hlocate.symm.trans hshown)]
    rfl

end Caret.CommandLine
