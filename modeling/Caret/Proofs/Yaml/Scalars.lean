import Caret.Proofs.Json.Yield
import Caret.Yaml.Token
import Mathlib.Data.List.Chain

/-!
# JSON scalars as YAML scalars

JSON is meant to be a part of YAML, and so are its scalars. What is between
quotation marks is scanned by other rules, though, and gives another text where a
line is folded. JSON allows two kinds of line breaks there that YAML knows of: U+0085, which is
folded as a line feed is, and the separators U+2028 and U+2029, which are kept
but swallow the spaces around them. A text that has none of the former and no
space beside the latter is **fold-free**, and of such a text YAML scans in
quotation marks what JSON takes, or nothing (`doubleQuoted_of_skipText`). It
may scan nothing, since it allows no document marker there and no surrogates.

A number or word is a plain scalar, and ends at the comma or bracket
behind it (`plain_of_word`).
-/

namespace Caret.Yaml

open Json (IsGap isSpace)

/-! ## Classes of characters -/

section

variable {p : Char → Bool} {c : Char}

/-- A character of a class is none of those that are left out of it. -/
theorem ne_of_class (h : p c = true) {x : Char} (hx : p x = false) : c ≠ x := by
  rintro rfl
  rw [hx] at h
  cases h

/-- A class that leaves out the line breaks has none. -/
theorem break?_of_class (hbreaks : ['\n', '\r', '\u0085', '\u2028', '\u2029'].any p = false)
    (h : p c = true) : break? c = none := by
  simp only [List.any_cons, Bool.or_eq_false_iff] at hbreaks
  obtain ⟨hfeed, hreturn, hnext, hline, hparagraph, -⟩ := hbreaks
  rw [break?, if_neg, if_neg]
  · rintro (heq | heq)
    · exact ne_of_class h hline heq
    · exact ne_of_class h hparagraph heq
  · rintro (heq | heq | heq)
    · exact ne_of_class h hfeed heq
    · exact ne_of_class h hreturn heq
    · exact ne_of_class h hnext heq

/-- A class that leaves out the white space of JSON has none. -/
theorem isSpace_of_class (hspaces : [' ', '\n', '\t', '\r'].any p = false)
    (h : p c = true) : isSpace c = false := by
  simp only [List.any_cons, Bool.or_eq_false_iff] at hspaces
  obtain ⟨hspace, hfeed, htab, hreturn, -⟩ := hspaces
  rw [isSpace, beq_false_of_ne (ne_of_class h hspace), beq_false_of_ne (ne_of_class h hfeed),
    beq_false_of_ne (ne_of_class h htab), beq_false_of_ne (ne_of_class h hreturn)]
  rfl

end

/-! ## Glyphs -/

/-- Whether a character is a line break that is kept. -/
def isSeparator (c : Char) : Bool := c == '\u2028' || c == '\u2029'

section

variable (index line column : Nat)

theorem glyphsFrom_cons {c : Char} (h : break? c = none) (cs : List Char) :
    glyphsFrom index line column (c :: cs)
      = ⟨c, index, line, column⟩ :: glyphsFrom (index + c.utf8Size) line (column + 1) cs := by
  rw [glyphsFrom, h]
  rintro _ rfl
  exact absurd h (by decide)

theorem glyphsFrom_separator {c : Char} (h : isSeparator c = true) (cs : List Char) :
    glyphsFrom index line column (c :: cs)
      = ⟨c, index, line, column⟩ :: glyphsFrom (index + c.utf8Size) (line + 1) 0 cs := by
  rw [isSeparator, Bool.or_eq_true, beq_iff_eq, beq_iff_eq] at h
  obtain rfl | rfl := h
  · rfl
  · rfl

end

/-- Blanks and line breaks. -/
def IsBetween (gs : List Glyph) : Prop := ∀ g ∈ gs, g.isBlank = true ∨ g.isBreak = true

theorem glyphsFrom_space (index line column : Nat) {c : Char} (hc : isSpace c = true)
    {cs : List Char} (hcrlf : ¬ (c = '\r' ∧ cs.head? = some '\n')) :
    ∃ g i l k, (g.isBlank = true ∨ g.isBreak = true)
      ∧ glyphsFrom index line column (c :: cs) = g :: glyphsFrom i l k cs := by
  rw [isSpace, Bool.or_eq_true, Bool.or_eq_true, Bool.or_eq_true, beq_iff_eq, beq_iff_eq,
    beq_iff_eq, beq_iff_eq] at hc
  obtain ((rfl | rfl) | rfl) | rfl := hc
  · exact ⟨⟨' ', _, _, _⟩, _, _, _, .inl rfl, rfl⟩
  · exact ⟨⟨'\n', _, _, _⟩, _, _, _, .inr rfl, rfl⟩
  · exact ⟨⟨'\t', _, _, _⟩, _, _, _, .inl rfl, rfl⟩
  · refine ⟨⟨'\n', index, line, column⟩, index + 1, line + 1, 0, .inr rfl, ?_⟩
    rw [glyphsFrom]
    · rfl
    · rintro cs' - rfl
      exact hcrlf ⟨rfl, rfl⟩

/-- **The glyphs of a gap** are blanks and line breaks, in front of what is not white space. -/
theorem glyphsFrom_gap (index line column : Nat) {gap front : List Char} (hgap : IsGap gap)
    (hfront : ∀ c ∈ front.head?, isSpace c = false) :
    ∃ between i l k, IsBetween between
      ∧ glyphsFrom index line column (gap ++ front) = between ++ glyphsFrom i l k front := by
  match gap with
  | [] => exact ⟨[], index, line, column, List.forall_mem_nil _, rfl⟩
  | [c] =>
    have hcrlf : ¬ (c = '\r' ∧ front.head? = some '\n') := by
      rintro ⟨-, hn⟩
      exact absurd (hfront '\n' hn) (by decide)
    obtain ⟨g, i, l, k, hg, heq⟩ :=
      glyphsFrom_space index line column (hgap c (List.mem_singleton_self c)) hcrlf
    exact ⟨[g], i, l, k, List.forall_mem_singleton.2 hg, heq⟩
  | c :: d :: gap =>
    obtain ⟨hc, hgap'⟩ := List.forall_mem_cons.1 hgap
    by_cases hcrlf : c = '\r' ∧ d = '\n'
    · -- A carriage return and the line feed behind it are one glyph.
      obtain ⟨rfl, rfl⟩ := hcrlf
      obtain ⟨between, i, l, k, hbetween, heq⟩ :=
        glyphsFrom_gap (index + 2) (line + 1) 0 (List.forall_mem_cons.1 hgap').2 hfront
      refine ⟨⟨'\n', index, line, column⟩ :: between, i, l, k,
        List.forall_mem_cons.2 ⟨.inr rfl, hbetween⟩, ?_⟩
      rw [List.cons_append, List.cons_append, glyphsFrom, heq, List.cons_append]
    · have hcrlf' : ¬ (c = '\r' ∧ (d :: gap ++ front).head? = some '\n') :=
        fun h => hcrlf ⟨h.1, Option.some.inj h.2⟩
      obtain ⟨g, i, l, k, hg, heq⟩ := glyphsFrom_space index line column hc hcrlf'
      obtain ⟨between, i', l', k', hbetween, heq'⟩ := glyphsFrom_gap i l k hgap' hfront
      refine ⟨g :: between, i', l', k', List.forall_mem_cons.2 ⟨hg, hbetween⟩, ?_⟩
      rw [List.cons_append, heq, heq', List.cons_append]

/-! ## Fold-free texts -/

/-- Whether one character may follow another in a text of which no line is folded. -/
def MayFollow (c d : Char) : Prop :=
  ¬ (c = ' ' ∧ isSeparator d = true) ∧ ¬ (isSeparator c = true ∧ d = ' ')

instance (c d : Char) : Decidable (MayFollow c d) :=
  inferInstanceAs (Decidable (¬ (_ ∧ _) ∧ ¬ (_ ∧ _)))

/-- **A fold-free text** has no U+0085, and no space beside a separator. -/
def IsFoldFree (cs : List Char) : Prop := '\u0085' ∉ cs ∧ cs.IsChain MayFollow

instance (cs : List Char) : Decidable (IsFoldFree cs) :=
  inferInstanceAs (Decidable (_ ∧ _))

theorem IsFoldFree.tail {c : Char} {cs : List Char} (h : IsFoldFree (c :: cs)) : IsFoldFree cs :=
  ⟨fun hc => h.1 (List.mem_cons_of_mem c hc), h.2.tail⟩

/-- What is left of a fold-free text is fold-free. -/
theorem IsFoldFree.of_append {cs ds : List Char} (h : IsFoldFree (cs ++ ds)) : IsFoldFree ds := by
  induction cs with
  | nil => exact h
  | cons c cs ih => exact ih h.tail

/-- In a fold-free text, a character that may stand between quotation marks is a line break only
if it is a separator. -/
theorem IsFoldFree.break?_head {c : Char} {cs : List Char} (h : IsFoldFree (c :: cs))
    (hlow : 0x20 ≤ c.toNat) (hsep : ¬ isSeparator c = true) : break? c = none := by
  rw [break?, if_neg, if_neg]
  · rintro (rfl | rfl)
    · exact hsep rfl
    · exact hsep rfl
  · rintro (rfl | rfl | rfl)
    · exact absurd hlow (by decide)
    · exact absurd hlow (by decide)
    · exact h.1 (List.mem_cons_self ..)

/-! ## Gaps -/

/-- **A gap that is kept** in front of a fold-free text: its line breaks are separators, if there
are any, and blanks are not dropped beside them. -/
def Gap.Fits (gap : Gap) (cs : List Char) : Prop :=
  match gap.breaks with
  | none => gap.blanks ≠ [] → ∀ c ∈ cs.head?, isSeparator c = false
  | some (first, _) => (∃ c, first = some c ∧ c ≠ '\n') ∧ cs.head? ≠ some ' '

theorem Gap.fits_empty (cs : List Char) : Gap.Fits {} cs := fun h => absurd rfl h

/-- What follows a character in a fold-free text may follow it. -/
theorem IsFoldFree.mayFollow {c : Char} {cs : List Char} (h : IsFoldFree (c :: cs)) :
    ∀ d ∈ cs.head?, MayFollow c d := by
  cases cs with
  | nil => exact fun _ hd => (nomatch hd)
  | cons d cs =>
    intro x hx
    cases hx
    exact (List.isChain_cons_cons.1 h.2).1

/-- A space of a fold-free text is kept in a gap. -/
theorem Gap.Fits.addBlank {gap : Gap} {cs : List Char} (h : gap.Fits (' ' :: cs))
    (hfold : IsFoldFree (' ' :: cs)) :
    (gap.addBlank ' ').Fits cs ∧ (gap.addBlank ' ').text = gap.text ++ [' '] := by
  obtain ⟨blanks, breaks⟩ := gap
  cases breaks with
  | none =>
    refine ⟨fun _ c hc => ?_, rfl⟩
    exact Bool.eq_false_iff.2 fun hsep => (hfold.mayFollow c hc).1 ⟨rfl, hsep⟩
  | some breaks => exact absurd rfl h.2

/-- A separator of a fold-free text is kept in a gap. -/
theorem Gap.Fits.addBreak {gap : Gap} {c : Char} {cs : List Char} (hc : isSeparator c = true)
    (h : gap.Fits (c :: cs)) (hfold : IsFoldFree (c :: cs)) :
    (gap.addBreak c).Fits cs ∧ (gap.addBreak c).text = gap.text ++ [c] := by
  have hnext : cs.head? ≠ some ' ' := fun hd => (hfold.mayFollow ' ' hd).2 ⟨hc, rfl⟩
  obtain ⟨blanks, breaks⟩ := gap
  cases breaks with
  | none =>
    have hblanks : blanks = [] := by
      refine Classical.byContradiction fun hne => ?_
      rw [h hne c rfl] at hc
      cases hc
    have hne : c ≠ '\n' := by
      rintro rfl
      exact absurd hc (by decide)
    refine ⟨⟨⟨c, rfl, hne⟩, hnext⟩, ?_⟩
    rw [hblanks]
    exact if_neg hne
  | some breaks =>
    obtain ⟨first, more⟩ := breaks
    obtain ⟨⟨b, rfl, hb⟩, -⟩ := h
    refine ⟨⟨⟨b, rfl, hb⟩, hnext⟩, ?_⟩
    show (if b = '\n' then _ else _) = (if b = '\n' then _ else _) ++ [c]
    rw [if_neg hb, if_neg hb]
    rfl

/-! ## Quotation marks -/

theorem isDocumentMarker_eq_false {c : Char} (hminus : c ≠ '-') (hpoint : c ≠ '.')
    (index line column : Nat) (gs : List Glyph) :
    isDocumentMarker (⟨c, index, line, column⟩ :: gs) = false := by
  unfold isDocumentMarker
  split
  · rename_i heq
    cases heq
    rw [beq_false_of_ne hminus, beq_false_of_ne hpoint, Bool.or_false, Bool.and_false,
      Bool.false_and, Bool.false_and, Bool.false_and]
  · rfl

section

variable (gap : Gap) (index line column : Nat) (gs : List Glyph)

theorem doubleQuoted_quote :
    doubleQuoted gap (⟨'"', index, line, column⟩ :: gs) = some (gap.text, gs) := by
  have hmarker := isDocumentMarker_eq_false (c := '"') (by decide) (by decide) index line column gs
  unfold doubleQuoted
  rw [hmarker]
  rfl

theorem doubleQuoted_space :
    doubleQuoted gap (⟨' ', index, line, column⟩ :: gs) = doubleQuoted (gap.addBlank ' ') gs := by
  rw [doubleQuoted.eq_def]
  rfl

theorem doubleQuoted_separator {c : Char} (h : isSeparator c = true) :
    doubleQuoted gap (⟨c, index, line, column⟩ :: gs) = doubleQuoted (gap.addBreak c) gs := by
  rw [isSeparator, Bool.or_eq_true, beq_iff_eq, beq_iff_eq] at h
  rw [doubleQuoted.eq_def]
  obtain rfl | rfl := h
  · rfl
  · rfl

/-- Every escape of one letter is one of YAML. -/
theorem doubleQuoted_shortEscape {c e : Char} (h : Json.shortEscape? c = some e)
    (index' line' column' : Nat) :
    doubleQuoted gap (⟨'\\', index, line, column⟩ :: ⟨c, index', line', column'⟩ :: gs)
      = prependChar gap (some e) (doubleQuoted {} gs) := by
  have hmarker := isDocumentMarker_eq_false (c := '\\') (by decide) (by decide) index line column
    (⟨c, index', line', column'⟩ :: gs)
  rw [doubleQuoted.eq_def]
  dsimp only
  rw [hmarker]
  unfold Json.shortEscape? at h
  split at h
  all_goals cases h
  all_goals rfl

theorem doubleQuoted_hexEscape (h a b c d : Glyph) (hu : h.char = 'u') :
    doubleQuoted gap (⟨'\\', index, line, column⟩ :: h :: a :: b :: c :: d :: gs)
      = prependChar gap (hexEscape? [a, b, c, d]) (doubleQuoted {} gs) := by
  have hmarker := isDocumentMarker_eq_false (c := '\\') (by decide) (by decide) index line column
    (h :: a :: b :: c :: d :: gs)
  obtain ⟨_, _, _, _⟩ := h
  obtain rfl : _ = 'u' := hu
  rw [doubleQuoted.eq_def]
  dsimp only
  rw [hmarker]
  rfl

end

theorem break?_of_hexValue? {c : Char} {n : Nat} (h : Text.hexValue? c = some n) :
    break? c = none := by
  have hsome : (Text.hexValue? c).isSome = true := Option.isSome_iff_exists.2 ⟨n, h⟩
  exact break?_of_class (p := fun c => (Text.hexValue? c).isSome) (by decide) hsome

theorem break?_of_shortEscape? {c e : Char} (h : Json.shortEscape? c = some e) :
    break? c = none := by
  have hsome : (Json.shortEscape? c).isSome = true := Option.isSome_iff_exists.2 ⟨e, h⟩
  exact break?_of_class (p := fun c => (Json.shortEscape? c).isSome) (by decide) hsome

/-- The four digits of an escape denote one number. -/
theorem hexValues_of_hexUnit? {a b c d : Char} {n : Nat} (h : Json.hexUnit? a b c d = some n) :
    ∃ i j k l, Text.hexValue? a = some i ∧ Text.hexValue? b = some j ∧ Text.hexValue? c = some k
      ∧ Text.hexValue? d = some l ∧ ((i * 16 + j) * 16 + k) * 16 + l = n := by
  obtain ⟨i, ha, h⟩ := Option.bind_eq_some_iff.1 h
  obtain ⟨j, hb, h⟩ := Option.bind_eq_some_iff.1 h
  obtain ⟨k, hc, h⟩ := Option.bind_eq_some_iff.1 h
  obtain ⟨l, hd, h⟩ := Option.bind_eq_some_iff.1 h
  exact ⟨i, j, k, l, ha, hb, hc, hd, Option.some.inj h⟩

/-- A unit that YAML takes for a character is one that JSON takes, and no half of a pair. -/
theorem takeText_hexEscape {a b c d e : Char} {n : Nat} (h : Json.hexUnit? a b c d = some n)
    {gs : List Glyph} (hgs : charsOf gs = [a, b, c, d]) (hchar : hexEscape? gs = some e)
    (offset : Nat) (rest : List Char) :
    Json.takeText offset ('\\' :: 'u' :: a :: b :: c :: d :: rest)
      = (Json.takeText (offset + 6) rest).map (e :: ·) := by
  obtain ⟨i, j, k, l, ha, hb, hc, hd, hn⟩ := hexValues_of_hexUnit? h
  have hnumber : hexNumber? gs = some n := by
    have hfold : hexNumber? gs = (charsOf gs).foldlM
        (fun n c => (Text.hexValue? c).map (16 * n + ·)) 0 := by
      rw [hexNumber?, charsOf, List.foldlM_map]
    rw [hfold, hgs, List.foldlM_cons, ha, Option.map_some, Option.bind_eq_bind, Option.bind_some,
      List.foldlM_cons, hb, Option.map_some, Option.bind_eq_bind, Option.bind_some,
      List.foldlM_cons, hc, Option.map_some, Option.bind_eq_bind, Option.bind_some,
      List.foldlM_cons, hd, Option.map_some, Option.bind_eq_bind, Option.bind_some,
      List.foldlM_nil]
    refine congrArg some ?_
    omega
  rw [hexEscape?, hnumber, Option.bind_eq_bind, Option.bind_some] at hchar
  split at hchar
  · rename_i hvalid
    cases hchar
    have hlow : Json.isLowSurrogate n = false := by
      rw [Json.isLowSurrogate, Bool.and_eq_false_iff, decide_eq_false_iff_not,
        decide_eq_false_iff_not]
      rcases hvalid with hvalid | hvalid
      · omega
      · omega
    have hhigh : Json.isHighSurrogate n = false := by
      rw [Json.isHighSurrogate, Bool.and_eq_false_iff, decide_eq_false_iff_not,
        decide_eq_false_iff_not]
      rcases hvalid with hvalid | hvalid
      · omega
      · omega
    rw [Json.takeText, h]
    dsimp only
    rw [hlow, hhigh]
    rfl
  · cases hchar

/-- A text that goes on behind a character is scanned as that character and a text. -/
theorem exists_of_prependChar {gap : Gap} {e? : Option Char} {s : Scanned (List Char)}
    {text : List Char} {behind : List Glyph} (h : prependChar gap e? s = some (text, behind)) :
    ∃ e t, e? = some e ∧ s = some (t, behind) ∧ text = gap.text ++ e :: t := by
  cases e? with
  | none => cases h
  | some e =>
    obtain ⟨⟨t, _⟩, ht, heq⟩ := Option.map_eq_some_iff.1 h
    cases heq
    refine ⟨e, t, rfl, ht, ?_⟩
    rw [List.append_assoc]
    rfl

/-- What any other character is scanned as, unless it starts a document marker. -/
theorem prependChar_of_doubleQuoted {gap : Gap} {c : Char} (hlow : 0x20 ≤ c.toNat) (hspace : c ≠ ' ')
    (hsep : isSeparator c = false) (hquote : c ≠ '"') (hbackslash : c ≠ '\\')
    {index line column : Nat} {gs : List Glyph} {r : List Char × List Glyph}
    (h : doubleQuoted gap (⟨c, index, line, column⟩ :: gs) = some r) :
    prependChar gap (some c) (doubleQuoted {} gs) = some r := by
  have hne : ∀ {x : Char}, x.toNat < 0x20 → c ≠ x := fun hx heq => by
    rw [heq] at hlow
    omega
  have hblank : (⟨c, index, line, column⟩ : Glyph).isBlank = false := by
    rw [Glyph.isBlank, beq_false_of_ne hspace, beq_false_of_ne (hne (by decide)), Bool.or_false]
  have hbreak : (⟨c, index, line, column⟩ : Glyph).isBreak = false := by
    rw [Glyph.isBreak, beq_false_of_ne (hne (by decide)), Bool.false_or]
    exact hsep
  rw [doubleQuoted.eq_def] at h
  dsimp only at h
  rw [hblank, hbreak, if_neg Bool.false_ne_true, if_neg Bool.false_ne_true] at h
  split at h
  · cases h
  · exact h

/-- **A character that is no escape** is kept: a gap goes on at a space and at a separator, and
ends at any other character. -/
theorem Gap.Fits.exists_of_doubleQuoted {gap : Gap} {c : Char} {cs : List Char}
    (hgap : gap.Fits (c :: cs)) (hfold : IsFoldFree (c :: cs)) (hlow : 0x20 ≤ c.toNat)
    (hquote : c ≠ '"') (hbackslash : c ≠ '\\') {index line column : Nat} {text : List Char}
    {behind : List Glyph}
    (h : doubleQuoted gap (glyphsFrom index line column (c :: cs)) = some (text, behind)) :
    ∃ gap' i l k text', gap'.Fits cs
      ∧ doubleQuoted gap' (glyphsFrom i l k cs) = some (text', behind)
      ∧ ∀ s, text' = gap'.text ++ s → text = gap.text ++ c :: s := by
  by_cases hspace : c = ' '
  · subst hspace
    rw [glyphsFrom_cons _ _ _ (by decide), doubleQuoted_space] at h
    obtain ⟨hfits, htext⟩ := hgap.addBlank hfold
    refine ⟨_, _, _, _, text, hfits, h, fun s hs => ?_⟩
    rw [hs, htext, List.append_assoc]
    rfl
  by_cases hsep : isSeparator c = true
  · rw [glyphsFrom_separator _ _ _ hsep, doubleQuoted_separator _ _ _ _ _ hsep] at h
    obtain ⟨hfits, htext⟩ := hgap.addBreak hsep hfold
    refine ⟨_, _, _, _, text, hfits, h, fun s hs => ?_⟩
    rw [hs, htext, List.append_assoc]
    rfl
  · rw [glyphsFrom_cons _ _ _ (hfold.break?_head hlow hsep)] at h
    have hprepend :=
      prependChar_of_doubleQuoted hlow hspace (Bool.eq_false_iff.2 hsep) hquote hbackslash h
    obtain ⟨e, t, ⟨⟩, ht, rfl⟩ := exists_of_prependChar hprepend
    refine ⟨{}, _, _, _, t, Gap.fits_empty cs, ht, fun s hs => ?_⟩
    rw [hs]
    rfl

/-- **What JSON takes in quotation marks, YAML scans there**, or nothing. -/
theorem doubleQuoted_of_skipText {offset stop : Nat} {cs rest : List Char}
    (hskip : Json.skipText offset cs = .ok (stop, rest)) (hfold : IsFoldFree cs) {gap : Gap}
    (hgap : gap.Fits cs) {index line column : Nat} {text : List Char} {behind : List Glyph}
    (hscan : doubleQuoted gap (glyphsFrom index line column cs) = some (text, behind)) :
    ∃ s, Json.takeText offset cs = .ok s ∧ text = gap.text ++ s
      ∧ ∃ i l k, behind = glyphsFrom i l k rest := by
  fun_induction Json.skipText offset cs generalizing gap index line column text with
  | case1 | case4 | case5 | case7 | case8 | case9 => cases hskip
  | case2 offset cs =>
    cases hskip
    rw [glyphsFrom_cons _ _ _ (by decide), doubleQuoted_quote] at hscan
    cases hscan
    refine ⟨[], ?_, (List.append_nil _).symm, _, _, _, rfl⟩
    rw [Json.takeText]
  | case3 offset a b c d cs hunit ih =>
    obtain ⟨n, hn⟩ := Option.isSome_iff_exists.1 hunit
    obtain ⟨i, j, k, l, ha, hb, hc, hd, -⟩ := hexValues_of_hexUnit? hn
    rw [glyphsFrom_cons _ _ _ (by decide), glyphsFrom_cons _ _ _ (by decide),
      glyphsFrom_cons _ _ _ (break?_of_hexValue? ha),
      glyphsFrom_cons _ _ _ (break?_of_hexValue? hb),
      glyphsFrom_cons _ _ _ (break?_of_hexValue? hc),
      glyphsFrom_cons _ _ _ (break?_of_hexValue? hd),
      doubleQuoted_hexEscape _ _ _ _ _ _ _ _ _ _ rfl] at hscan
    obtain ⟨e, t, he, ht, rfl⟩ := exists_of_prependChar hscan
    have hfold' : IsFoldFree cs := hfold.tail.tail.tail.tail.tail.tail
    obtain ⟨s, hs, rfl, hbehind⟩ := ih hskip hfold' (Gap.fits_empty cs) ht
    refine ⟨e :: t, ?_, rfl, hbehind⟩
    rw [takeText_hexEscape hn rfl he, hs]
    rfl
  | case6 offset c cs hu hshort ih =>
    obtain ⟨e, he⟩ := Option.isSome_iff_exists.1 hshort
    rw [glyphsFrom_cons _ _ _ (by decide), glyphsFrom_cons _ _ _ (break?_of_shortEscape? he),
      doubleQuoted_shortEscape _ _ _ _ _ he] at hscan
    obtain ⟨e, t, ⟨⟩, ht, rfl⟩ := exists_of_prependChar hscan
    obtain ⟨s, hs, rfl, hbehind⟩ := ih hskip hfold.tail.tail (Gap.fits_empty cs) ht
    refine ⟨e :: t, ?_, rfl, hbehind⟩
    rw [Json.takeText, he]
    · dsimp only
      rw [hs]
      rfl
    · exact hu
  | case10 offset c cs hquote hu hletter hbackslash hlow ih =>
    obtain ⟨gap', i, l, k, text', hfits, hscan', htext⟩ :=
      hgap.exists_of_doubleQuoted hfold (Nat.not_lt.1 hlow) hquote hbackslash hscan
    obtain ⟨s, hs, htext', hbehind⟩ := ih hskip hfold.tail hfits hscan'
    refine ⟨c :: s, ?_, htext s htext', hbehind⟩
    rw [Json.takeText, if_neg hbackslash, if_neg hlow, hs]
    · rfl
    · exact hquote
    · exact hu
    · exact hletter

/-! ## Numbers and words -/

/-- Whether a character may stand in a number or word of JSON. -/
def isWordChar (c : Char) : Bool := c.isAlphanum || c == '-' || c == '+' || c == '.'

theorem break?_of_isWordChar {c : Char} (h : isWordChar c = true) : break? c = none :=
  break?_of_class (by decide) h

theorem isWordChar_of_isDigit {c : Char} (h : c.isDigit = true) : isWordChar c = true := by
  rw [isWordChar, Char.isAlphanum, h, Bool.or_true, Bool.true_or, Bool.true_or, Bool.true_or]

theorem isWordChar_of_isNumeralChar {c : Char} (h : Json.IsNumeralChar c) :
    isWordChar c = true := by
  rcases h with h | h
  · exact isWordChar_of_isDigit h
  · simp only [List.mem_cons, List.not_mem_nil, or_false] at h
    obtain rfl | rfl | rfl | rfl | rfl := h
    all_goals rfl

/-- The characters that may follow a value between brackets. -/
def isValueEnd (c : Char) : Bool := c == ',' || c == ']' || c == '\x7d'

/-- Blanks and line breaks behind a plain scalar are passed over, up to what ends the value. -/
theorem plain_between {between : List Glyph} (hbetween : IsBetween between) {c : Char}
    (hc : isValueEnd c = true) (gap : Gap) (index line column : Nat) (gs : List Glyph) :
    ∃ endsLine, plain true 0 gap (between ++ ⟨c, index, line, column⟩ :: gs)
      = some (([], endsLine), ⟨c, index, line, column⟩ :: gs) := by
  induction between generalizing gap with
  | nil =>
    refine ⟨gap.hasBreak, ?_⟩
    rw [isValueEnd, Bool.or_eq_true, Bool.or_eq_true, beq_iff_eq, beq_iff_eq, beq_iff_eq] at hc
    rw [List.nil_append, plain]
    -- What ends the value ends the scalar, whether or not it could go on behind a gap.
    obtain (rfl | rfl) | rfl := hc
    · exact ite_self _
    · exact ite_self _
    · exact ite_self _
  | cons g between ih =>
    obtain ⟨hg, hrest⟩ := List.forall_mem_cons.1 hbetween
    rw [List.cons_append, plain]
    by_cases hblank : g.isBlank = true
    · rw [if_pos hblank, if_neg]
      · exact ih hrest _
      · rw [Bool.and_eq_true, decide_eq_true_eq]
        exact fun h => absurd h.2 (Int.not_lt.2 (Int.natCast_nonneg g.column))
    · rw [if_neg hblank, if_pos (hg.resolve_left hblank)]
      exact ih hrest _

/-- A character of a word is one of the plain scalar. -/
theorem plain_cons {c : Char} (h : isWordChar c = true) (index line column : Nat)
    (gs : List Glyph) :
    plain true 0 {} (⟨c, index, line, column⟩ :: gs)
      = (plain true 0 {} gs).map fun r => ((c :: r.1.1, r.1.2), r.2) := by
  have hne : ∀ {x : Char}, isWordChar x = false → (c == x) = false :=
    fun hx => beq_false_of_ne (ne_of_class h hx)
  have hblank : (⟨c, index, line, column⟩ : Glyph).isBlank = false := by
    rw [Glyph.isBlank, hne (by decide), hne (by decide)]
    rfl
  have hbreak : (⟨c, index, line, column⟩ : Glyph).isBreak = false := by
    rw [Glyph.isBreak, hne (by decide), hne (by decide), hne (by decide)]
    rfl
  have hend : (⟨c, index, line, column⟩ : Glyph).isEnd = false := hne (by decide)
  have hcolon : decide (c = ':') = false := decide_eq_false (ne_of_class h (by decide))
  have hindicator : flowIndicators.contains c = false := by
    rw [flowIndicators, List.contains_cons, List.contains_cons, List.contains_cons,
      List.contains_cons, List.contains_cons, hne (by decide), hne (by decide), hne (by decide),
      hne (by decide), hne (by decide)]
    rfl
  rw [plain, hblank, hbreak]
  dsimp only
  rw [hend, hcolon, hindicator]
  rfl

/-- **A word is scanned as a plain scalar**, up to what ends the value. -/
theorem plain_of_word {word gap : List Char} (hword : ∀ c ∈ word, isWordChar c = true)
    (hgap : IsGap gap) {c : Char} (hc : isValueEnd c = true) (index line column : Nat)
    (rest : List Char) :
    ∃ endsLine i l k, plain true 0 {} (glyphsFrom index line column (word ++ (gap ++ c :: rest)))
      = some ((word, endsLine), glyphsFrom i l k (c :: rest)) := by
  induction word generalizing index column with
  | nil =>
    have hfront : ∀ x ∈ (c :: rest).head?, isSpace x = false := by
      intro x hx
      cases hx
      exact isSpace_of_class (by decide) hc
    have hbreak : break? c = none := break?_of_class (by decide) hc
    obtain ⟨between, i, l, k, hbetween, heq⟩ := glyphsFrom_gap index line column hgap hfront
    rw [glyphsFrom_cons _ _ _ hbreak] at heq
    obtain ⟨endsLine, hplain⟩ := plain_between hbetween hc {} i l k
      (glyphsFrom (i + c.utf8Size) l (k + 1) rest)
    refine ⟨endsLine, i, l, k, ?_⟩
    rw [List.nil_append, heq, glyphsFrom_cons _ _ _ hbreak]
    exact hplain
  | cons d word ih =>
    obtain ⟨hd, hrest⟩ := List.forall_mem_cons.1 hword
    obtain ⟨endsLine, i, l, k, heq⟩ := ih hrest (index + d.utf8Size) (column + 1)
    refine ⟨endsLine, i, l, k, ?_⟩
    rw [List.cons_append, glyphsFrom_cons _ _ _ (break?_of_isWordChar hd), plain_cons hd, heq]
    rfl

end Caret.Yaml
