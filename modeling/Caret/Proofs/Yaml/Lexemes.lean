import Caret.Proofs.Yaml.Scalars
import Caret.Yaml.Reader

/-!
# JSON lexemes as YAML lexemes

Every lexeme of JSON is scanned as one of YAML: brackets, commas and colons as
what they are, a text as what `Caret.Proofs.Yaml.Scalars` says of quotation
marks, and a number or word as a plain scalar. Of the latter, only the word
`null` stands for something absent in YAML (`IsWordOf`). A minus
is scanned as an item of a block collection unless a digit is behind it, and a
colon is none outside brackets, so the place of a lexeme matters too.

Between lexemes there is only white space. YAML passes over it as JSON does,
except that it stops at a tab where a key might start, and finds no lexeme there
(`skipBetween_between`, `scanLexeme_tab`).
-/

namespace Caret.Yaml

open Json (IsGap Begins LexemeKind)

/-! ## Between lexemes -/

/-- Whether a character may start a lexeme of JSON. -/
def isLexemeChar (c : Char) : Bool :=
  ['[', ']', '\x7b', '\x7d', ',', ':', '"'].contains c || isWordChar c

/-- A glyph at which a lexeme or the end of the text is. -/
def Glyph.StopsGap (g : Glyph) : Prop := isLexemeChar g.char = true ∨ g.isEnd = true

theorem skipBetween_of_stopsGap {g : Glyph} (h : g.StopsGap) (inFlow keyAllowed : Bool)
    (gs : List Glyph) : skipBetween inFlow keyAllowed false (g :: gs) = (keyAllowed, g :: gs) := by
  have hne : ∀ {x : Char}, isLexemeChar x = false → x ≠ '\x00' → g.char ≠ x := by
    intro x hx hend
    rcases h with h | h
    · exact ne_of_class h hx
    · rw [beq_iff_eq.1 h]
      exact hend.symm
  have hbreak : g.isBreak = false := by
    rw [Glyph.isBreak, beq_false_of_ne (hne (by decide) (by decide)),
      beq_false_of_ne (hne (by decide) (by decide)), beq_false_of_ne (hne (by decide) (by decide))]
    rfl
  have hspace := hne (x := ' ') (by decide) (by decide)
  have htab := hne (x := '\t') (by decide) (by decide)
  have hmark := hne (x := '\ufeff') (by decide) (by decide)
  have hcomment := hne (x := '#') (by decide) (by decide)
  rw [skipBetween, hbreak, decide_eq_false hspace, decide_eq_false htab, decide_eq_false hmark,
    if_neg hcomment]
  cases g.isEnd with
  | true => rfl
  | false => rfl

/-- A tab is passed over, except where a key might start outside brackets. -/
theorem skipBetween_tab (inFlow keyAllowed : Bool) {t : Glyph} (ht : t.char = '\t')
    (gs : List Glyph) :
    skipBetween inFlow keyAllowed false (t :: gs)
      = if inFlow || !keyAllowed then skipBetween inFlow keyAllowed false gs
        else (keyAllowed, t :: gs) := by
  obtain ⟨char, index, line, column⟩ := t
  obtain rfl : char = '\t' := ht
  cases inFlow with
  | true => rfl
  | false =>
    cases keyAllowed with
    | true => rfl
    | false => rfl

/-- **A gap is passed over**, or scanning stops at a tab in it, where a key might start. -/
theorem skipBetween_between (inFlow keyAllowed : Bool) {between : List Glyph}
    (hbetween : IsBetween between) {g : Glyph} (hg : g.StopsGap) (gs : List Glyph) :
    (∃ keyAllowed', (inFlow = true ∨ keyAllowed = true → keyAllowed' = keyAllowed)
        ∧ skipBetween inFlow keyAllowed false (between ++ g :: gs) = (keyAllowed', g :: gs))
      ∨ ∃ keyAllowed' t rest, t.char = '\t'
        ∧ skipBetween inFlow keyAllowed false (between ++ g :: gs) = (keyAllowed', t :: rest) := by
  induction between generalizing keyAllowed with
  | nil => exact .inl ⟨keyAllowed, fun _ => rfl, skipBetween_of_stopsGap hg inFlow keyAllowed gs⟩
  | cons b between ih =>
    obtain ⟨hb, hrest⟩ := List.forall_mem_cons.1 hbetween
    rw [List.cons_append]
    by_cases hbreak : b.isBreak = true
    · rw [skipBetween, if_pos hbreak]
      refine (ih (keyAllowed || !inFlow) hrest).imp_left ?_
      rintro ⟨keyAllowed', hallowed, heq⟩
      refine ⟨keyAllowed', fun h => ?_, heq⟩
      cases inFlow with
      | true => simpa using hallowed (.inl rfl)
      | false =>
        obtain rfl : keyAllowed = true := h.resolve_left Bool.false_ne_true
        exact hallowed (.inr rfl)
    · obtain ⟨char, index, line, column⟩ := b
      have hchar : char = ' ' ∨ char = '\t' := by
        have hblank := hb.resolve_right hbreak
        rw [Glyph.isBlank, Bool.or_eq_true, beq_iff_eq, beq_iff_eq] at hblank
        exact hblank
      obtain rfl | rfl := hchar
      · rw [skipBetween]
        exact ih keyAllowed hrest
      · rw [skipBetween_tab inFlow keyAllowed rfl]
        split
        · exact ih keyAllowed hrest
        · exact .inr ⟨keyAllowed, _, _, rfl, rfl⟩

/-! ## Punctuation and texts -/

/-- A tab is no lexeme. -/
theorem scanLexeme_tab (inFlow : Bool) (indent : Int) {g : Glyph} (hg : g.char = '\t')
    (gs : List Glyph) : scanLexeme inFlow indent (g :: gs) = none := by
  obtain ⟨char, index, line, column⟩ := g
  obtain rfl : char = '\t' := hg
  have hmarker := isDocumentMarker_eq_false (c := '\t') (by decide) (by decide) index line column gs
  have hpercent : ¬ (column = 0 ∧ '\t' = '%') := fun h => absurd h.2 (by decide)
  rw [scanLexeme, if_neg hpercent, hmarker]
  cases inFlow with
  | true => rfl
  | false => rfl

/-- The lexeme of YAML that a bracket, comma or colon of JSON is. -/
def mark? : LexemeKind → Option Lexeme
  | .openBrace => some (.open true)
  | .closeBrace => some (.close true)
  | .openBracket => some (.open false)
  | .closeBracket => some (.close false)
  | .comma => some .comma
  | .colon => some .value
  | _ => none

/-- **A bracket, comma or colon is scanned as such**, a colon only between brackets. -/
theorem scanLexeme_punctuation {c : Char} {kind : LexemeKind} {lexeme : Lexeme}
    (hc : Json.punctuation? c = some kind) (hmark : mark? kind = some lexeme) {inFlow : Bool}
    (hflow : inFlow = true ∨ kind ≠ .colon) (indent : Int) (index line column : Nat)
    (gs : List Glyph) :
    scanLexeme inFlow indent (⟨c, index, line, column⟩ :: gs) = some (lexeme, gs) := by
  have hindicator : indicator? inFlow ⟨c, index, line, column⟩ gs = some lexeme := by
    unfold Json.punctuation? at hc
    split at hc
    all_goals cases hc
    all_goals cases hmark
    -- Only a colon is not the same outside brackets.
    · rfl
    · rfl
    · rfl
    · rfl
    · rfl
    · rw [hflow.resolve_right (not_not_intro rfl)]
      rfl
  have hne : ∀ {x : Char}, Json.punctuation? x = none → c ≠ x := fun hx heq => by
    rw [heq, hx] at hc
    cases hc
  have hpercent : ¬ (column = 0 ∧ c = '%') := fun h => hne rfl h.2
  rw [scanLexeme, if_neg hpercent, isDocumentMarker_eq_false (hne rfl) (hne rfl), hindicator]
  rfl

theorem scanLexeme_quote (inFlow : Bool) (indent : Int) (index line column : Nat)
    (gs : List Glyph) :
    scanLexeme inFlow indent (⟨'"', index, line, column⟩ :: gs)
      = (doubleQuoted {} gs).map fun r => (.quoted r.1, r.2) := by
  have hpercent : ¬ (column = 0 ∧ '"' = '%') := fun h => absurd h.2 (by decide)
  rw [scanLexeme, if_neg hpercent, isDocumentMarker_eq_false (by decide) (by decide)]
  cases inFlow with
  | true => rfl
  | false => rfl

/-! ## Words -/

/-- **A word**: a letter or digit, or a minus with a digit behind it, and on from there. -/
def IsWord (cs : List Char) : Prop :=
  ∃ c rest, cs = c :: rest ∧ (∀ x ∈ rest, isWordChar x = true)
    ∧ (c.isAlphanum = true ∨ c = '-' ∧ rest.head?.any Char.isDigit = true)

/-- A plain scalar that stands for a text that is present. -/
def IsPresent (text : List Char) : Prop := (text.isEmpty || nullWords.contains text) = false

/-- **The word of a scalar** that is no text: a null word for null, and none for any other. -/
def IsWordOf (value : Json.Scalar) (text : List Char) : Prop :=
  match value with
  | .null => text = "null".toList
  | _ => IsPresent text

theorem isPresent_cons {c : Char} (htilde : c ≠ '~') (hn : c ≠ 'n') (hN : c ≠ 'N')
    (rest : List Char) : IsPresent (c :: rest) := by
  rw [IsPresent, Bool.or_eq_false_iff]
  refine ⟨rfl, ?_⟩
  rw [← Bool.not_eq_true, List.contains_iff_mem]
  intro hmem
  obtain ⟨text, htext, heq⟩ := List.mem_map.1 hmem
  simp only [List.mem_cons, List.not_mem_nil, or_false] at htext
  obtain rfl | rfl | rfl | rfl := htext
  · exact htilde (List.cons.inj heq).1.symm
  · exact hn (List.cons.inj heq).1.symm
  · exact hN (List.cons.inj heq).1.symm
  · exact hN (List.cons.inj heq).1.symm

/-- **A scalar that is no text begins with its word.** -/
theorem isWord_of_begins {value : Json.Scalar} {front rest : List Char}
    (h : Begins (.scalar value) front rest) (hvalue : ∀ r, value ≠ .text r) :
    ∃ word, front = word ++ rest ∧ IsWord word ∧ IsWordOf value word := by
  cases h with
  | punctuation hc => exact absurd hc (Json.punctuation?_ne_scalar _ _)
  | @word c letters _ _ hc =>
    refine ⟨c :: letters, rfl, ?_⟩
    unfold Json.word? at hc
    split at hc
    all_goals cases hc
    · exact ⟨⟨_, _, rfl, List.all_eq_true.1 rfl, .inl rfl⟩, rfl⟩
    · exact ⟨⟨_, _, rfl, List.all_eq_true.1 rfl, .inl rfl⟩, rfl⟩
    · exact ⟨⟨_, _, rfl, List.all_eq_true.1 rfl, .inl rfl⟩, rfl⟩
  | number hcs hfront =>
    obtain ⟨c, digits, rfl, hdigits, hc⟩ := hcs
    have hne : ∀ {x : Char}, x.isDigit = false → x ≠ '-' → c ≠ x := by
      rintro x hx hminus rfl
      rcases hc with hc | ⟨rfl, -⟩
      · rw [hx] at hc
        cases hc
      · exact hminus rfl
    refine ⟨c :: digits, hfront, ⟨c, digits, rfl, fun x hx => ?_, ?_⟩, ?_⟩
    · exact isWordChar_of_isNumeralChar (hdigits x hx)
    · refine hc.imp_left fun hc => ?_
      rw [Char.isAlphanum, hc, Bool.or_true]
    · exact isPresent_cons (hne (by decide) (by decide)) (hne (by decide) (by decide))
        (hne (by decide) (by decide)) digits
  | text => exact absurd rfl (hvalue _)
  | fault hfault => exact hfault.elim

theorem separates_of_isWordChar {g : Glyph} (h : isWordChar g.char = true) :
    g.separates = false := by
  have hne : ∀ {x : Char}, isWordChar x = false → (g.char == x) = false :=
    fun hx => beq_false_of_ne (ne_of_class h hx)
  rw [Glyph.separates, Glyph.isBlank, Glyph.endsLine, Glyph.isBreak, Glyph.isEnd, hne (by decide),
    hne (by decide), hne (by decide), hne (by decide), hne (by decide), hne (by decide)]
  rfl

theorem IsWord.break?_head {word cs rest : List Char} {c : Char} (h : IsWord word)
    (hcs : c :: cs = word ++ rest) : break? c = none := by
  obtain ⟨d, ds, rfl, -, hd⟩ := h
  obtain ⟨rfl, -⟩ := List.cons.inj hcs
  refine break?_of_isWordChar ?_
  rcases hd with hd | ⟨rfl, -⟩
  · rw [isWordChar, hd]
    rfl
  · rfl

/-- A letter or digit starts a plain scalar. -/
theorem scanLexeme_alphanum {c : Char} (h : c.isAlphanum = true) (index line column : Nat)
    (gs : List Glyph) :
    scanLexeme true (-1) (⟨c, index, line, column⟩ :: gs)
      = (plain true 0 {} gs).map fun r => (.plain (c :: r.1.1) r.1.2, r.2) := by
  have hne : ∀ {x : Char}, x.isAlphanum = false → c ≠ x := fun hx heq => by
    rw [heq, hx] at h
    cases h
  have hpercent : ¬ (column = 0 ∧ c = '%') := fun h => hne (by decide) h.2
  have hindicator : indicator? true ⟨c, index, line, column⟩ gs = none := by
    unfold indicator?
    split
    case h_9 => rfl
    all_goals rename_i heq
    all_goals exact absurd heq (hne (by decide))
  have hseparates : (⟨c, index, line, column⟩ : Glyph).separates = false := by
    refine separates_of_isWordChar ?_
    rw [isWordChar, h]
    rfl
  have hcontains : indicators.contains c = false := by
    rw [← Bool.not_eq_true, List.contains_iff_mem]
    intro hmem
    have hall : indicators.any Char.isAlphanum = false := by decide
    exact List.any_eq_false.1 hall c hmem h
  have hstarts : startsPlain true ⟨c, index, line, column⟩ gs = true := by
    rw [startsPlain, hseparates, hcontains]
    rfl
  rw [scanLexeme, if_neg hpercent, isDocumentMarker_eq_false (hne (by decide)) (hne (by decide)),
    hindicator]
  dsimp only
  rw [if_neg Bool.false_ne_true, if_neg (hne (by decide)), if_neg (hne (by decide)),
    if_neg (hne (by decide)), if_neg (fun h => hne (by decide) h.1),
    if_neg (fun h => hne (by decide) h.1), if_neg (hne (by decide)), if_neg (hne (by decide)),
    if_pos hstarts]
  rfl

/-- A minus with a digit behind it starts a plain scalar, and is neither an item nor a part of a
document marker. -/
theorem scanLexeme_minus {d : Char} (h : d.isDigit = true) (index line column i l k : Nat)
    (gs : List Glyph) :
    scanLexeme true (-1) (⟨'-', index, line, column⟩ :: ⟨d, i, l, k⟩ :: gs)
      = (plain true 0 {} (⟨d, i, l, k⟩ :: gs)).map
          fun r => (.plain ('-' :: r.1.1) r.1.2, r.2) := by
  have hword := isWordChar_of_isDigit h
  have hminus : d ≠ '-' := by
    rintro rfl
    cases h
  have hpercent : ¬ (column = 0 ∧ '-' = '%') := fun h => absurd h.2 (by decide)
  have hmarker : isDocumentMarker (⟨'-', index, line, column⟩ :: ⟨d, i, l, k⟩ :: gs) = false := by
    unfold isDocumentMarker
    split
    · rename_i heq
      cases heq
      rw [beq_false_of_ne hminus, Bool.and_false, Bool.false_and, Bool.false_and]
    · rfl
  have hseparates : separated (⟨d, i, l, k⟩ :: gs) = false := separates_of_isWordChar hword
  have hindicator : indicator? true ⟨'-', index, line, column⟩ (⟨d, i, l, k⟩ :: gs) = none := by
    show (if separated (⟨d, i, l, k⟩ :: gs) = true then some Lexeme.entry else none) = none
    rw [hseparates]
    rfl
  have hstarts : startsPlain true ⟨'-', index, line, column⟩ (⟨d, i, l, k⟩ :: gs) = true := by
    have hblank : startsWithAny [' ', '\t'] (⟨d, i, l, k⟩ :: gs) = false := by
      rw [startsWithAny, List.contains_cons, List.contains_cons,
        beq_false_of_ne (ne_of_class hword (by decide)),
        beq_false_of_ne (ne_of_class hword (by decide))]
      rfl
    rw [startsPlain, hblank]
    rfl
  rw [scanLexeme, if_neg hpercent, hmarker, hindicator]
  dsimp only
  rw [hstarts]
  rfl

/-- **A word is scanned as a plain scalar**, up to what ends the value. -/
theorem scanLexeme_word {word gap : List Char} (hword : IsWord word) (hgap : IsGap gap) {e : Char}
    (he : isValueEnd e = true) (index line column : Nat) (rest : List Char) :
    ∃ endsLine i l k,
      scanLexeme true (-1) (glyphsFrom index line column (word ++ (gap ++ e :: rest)))
        = some (.plain word endsLine, glyphsFrom i l k (e :: rest)) := by
  obtain ⟨c, cs, rfl, hcs, hc⟩ := hword
  have hchar : isWordChar c = true := by
    rcases hc with hc | ⟨rfl, -⟩
    · rw [isWordChar, hc]
      rfl
    · rfl
  obtain ⟨endsLine, i, l, k, hplain⟩ :=
    plain_of_word hcs hgap he (index + c.utf8Size) line (column + 1) rest
  refine ⟨endsLine, i, l, k, ?_⟩
  rw [List.cons_append, glyphsFrom_cons _ _ _ (break?_of_isWordChar hchar)]
  rcases hc with hc | ⟨rfl, hdigit⟩
  · rw [scanLexeme_alphanum hc, hplain]
    rfl
  · cases cs with
    | nil => cases hdigit
    | cons d cs =>
      have hd : d.isDigit = true := hdigit
      rw [List.cons_append, glyphsFrom_cons _ _ _ (break?_of_isWordChar (isWordChar_of_isDigit hd))]
        at hplain ⊢
      rw [scanLexeme_minus hd, hplain]
      rfl

/-- What may follow a value between brackets. -/
def EndsValue : LexemeKind → Prop
  | .comma | .closeBracket | .closeBrace => True
  | _ => False

theorem exists_of_endsValue {kind : LexemeKind} (hkind : EndsValue kind) {front rest : List Char}
    (h : Begins kind front rest) : ∃ e, isValueEnd e = true ∧ front = e :: rest := by
  cases h with
  | @punctuation c _ _ hc =>
    refine ⟨c, ?_, rfl⟩
    unfold Json.punctuation? at hc
    split at hc
    all_goals cases hc
    · exact hkind.elim
    · rfl
    · exact hkind.elim
    · rfl
    · rfl
    · exact hkind.elim
  | word | number | text => exact hkind.elim
  | fault hfault =>
    cases kind with
    | comma | closeBracket | closeBrace => exact hfault.elim
    | _ => exact hkind.elim

/-- **A lexeme that can be read to its end** starts with a character that starts one, and what
follows it is the end of the text. -/
theorem exists_of_begins {kind : LexemeKind} {front rest : List Char} (h : Begins kind front rest)
    (hkind : ¬ kind.IsFault) :
    ∃ c cs taken, isLexemeChar c = true ∧ front = c :: cs ∧ front = taken ++ rest := by
  cases h with
  | @punctuation c _ _ hc =>
    refine ⟨c, rest, [c], ?_, rfl, rfl⟩
    unfold Json.punctuation? at hc
    split at hc
    all_goals cases hc
    all_goals rfl
  | @word c letters value _ hc =>
    refine ⟨c, letters ++ rest, c :: letters, ?_, rfl, rfl⟩
    unfold Json.word? at hc
    split at hc
    all_goals cases hc
    all_goals rfl
  | number hcs hfront =>
    obtain ⟨c, digits, rfl, -, hc⟩ := hcs
    refine ⟨c, digits ++ rest, c :: digits, ?_, hfront, hfront⟩
    have hword : isWordChar c = true := by
      rcases hc with hc | ⟨rfl, -⟩
      · exact isWordChar_of_isDigit hc
      · rfl
    rw [isLexemeChar, hword, Bool.or_true]
  | text hskip =>
    obtain ⟨taken, rfl⟩ := Json.exists_of_skipText hskip
    exact ⟨'"', taken ++ rest, '"' :: taken, rfl, rfl, rfl⟩
  | fault hfault => exact absurd hfault hkind

end Caret.Yaml
