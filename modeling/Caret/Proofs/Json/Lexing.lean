import Caret.Json.Lexeme
import Caret.Json.Value

/-!
# Cutting what was written

The writer turns scalars into characters, and cutting a text turns
characters into lexemes. Here the two meet, one kind of scalar at a time,
and each statement leaves open what follows in the text.

A text is escaped character by character, so it is read back that way too:
`takeText_escapeChar` and `skipText_escapeChar` take one escaped character
off the front, whatever stands behind it. Skipping a text only finds its
end, but the end is what the cut needs.

A number has no mark at its end. It ends where a character follows that
cannot belong to it, which is what `NumberEnds` asks of the rest, and every
comma, bracket and white space character is such a one.
-/

namespace Caret

/-! ## Digits -/

namespace Text

theorem hexValue?_digitChar {n : Nat} (h : n < 16) : hexValue? (digitChar n) = some n := by
  have hall : ∀ m < 16, hexValue? (digitChar m) = some m := by decide
  exact hall n h

theorem digitChar_ne_zero {n : Nat} (h : 0 < n) (h' : n < 10) : digitChar n ≠ '0' := by
  have hall : ∀ m < 10, 0 < m → digitChar m ≠ '0' := by decide
  exact hall n h' h

/-- A number other than zero has no leading zero. -/
theorem head?_decimal_ne_zero {n : Nat} (h : 0 < n) : (decimal n).head? ≠ some '0' := by
  induction n using Nat.strongRecOn with
  | ind n ih =>
    rcases Nat.lt_or_ge n 10 with hlt | hge
    · rw [decimal_of_lt hlt, List.head?_cons, ne_eq, Option.some.injEq]
      exact digitChar_ne_zero h hlt
    · have hpos : 0 < n / 10 := Nat.div_pos hge (by omega)
      obtain ⟨d, ds, hd⟩ := List.exists_cons_of_ne_nil (decimal_ne_nil (n / 10))
      have hhead := ih (n / 10) (Nat.div_lt_self h (by omega)) hpos
      rw [hd, List.head?_cons] at hhead
      rw [decimal_of_le hge, hd, List.cons_append, List.head?_cons]
      exact hhead

end Text

namespace Json

/-! ## Texts -/

theorem hexUnit?_of_lt {n : Nat} (h : n < 0x20) :
    hexUnit? '0' '0' (Text.digitChar (n / 16)) (Text.digitChar (n % 16)) = some n := by
  have hzero : Text.hexValue? '0' = some 0 := rfl
  rw [hexUnit?, hzero, Text.hexValue?_digitChar (by omega), Text.hexValue?_digitChar (by omega)]
  show some (((0 * 16 + 0) * 16 + n / 16) * 16 + n % 16) = some n
  refine congrArg some ?_
  omega

/-- **How a character is written**: by a letter that stands for it, by its number, or
as it is. -/
theorem escapeChar_cases (c : Char) :
    (∃ e, shortEscape? e = some c ∧ e ≠ 'u' ∧ 0x20 ≤ e.toNat ∧ escapeChar c = ['\\', e])
      ∨ (c.toNat < 0x20 ∧ escapeChar c
          = ['\\', 'u', '0', '0', Text.digitChar (c.toNat / 16), Text.digitChar (c.toNat % 16)])
      ∨ (c ≠ '"' ∧ c ≠ '\\' ∧ 0x20 ≤ c.toNat ∧ escapeChar c = [c]) := by
  rw [escapeChar]
  by_cases hshort : c ∈ ['"', '\\', '\x08', '\x0c', '\n', '\r', '\t']
  · refine .inl ?_
    simp only [List.mem_cons, List.not_mem_nil, or_false] at hshort
    rcases hshort with rfl | rfl | rfl | rfl | rfl | rfl | rfl
    · exact ⟨'"', rfl, by decide, by decide, rfl⟩
    · exact ⟨'\\', rfl, by decide, by decide, rfl⟩
    · exact ⟨'b', rfl, by decide, by decide, rfl⟩
    · exact ⟨'f', rfl, by decide, by decide, rfl⟩
    · exact ⟨'n', rfl, by decide, by decide, rfl⟩
    · exact ⟨'r', rfl, by decide, by decide, rfl⟩
    · exact ⟨'t', rfl, by decide, by decide, rfl⟩
  simp only [List.mem_cons, List.not_mem_nil, or_false, not_or] at hshort
  obtain ⟨hquote, hbackslash, hb, hf, hn, hr, ht⟩ := hshort
  rw [if_neg hquote, if_neg hbackslash, if_neg hb, if_neg hf, if_neg hn, if_neg hr, if_neg ht]
  by_cases hlow : c.toNat < 0x20
  · rw [if_pos hlow]
    exact .inr (.inl ⟨hlow, rfl⟩)
  · rw [if_neg hlow]
    exact .inr (.inr ⟨hquote, hbackslash, Nat.not_lt.1 hlow, rfl⟩)

/-- What is written of a character lies above the control characters of the first row. -/
theorem le_of_mem_escapeChar (c : Char) : ∀ x ∈ escapeChar c, 0x20 ≤ x.toNat := by
  have hdigit : ∀ n < 0x20, 0x20 ≤ (Text.digitChar n).toNat := by decide
  obtain ⟨e, -, -, hletter, hc⟩ | ⟨hlow, hc⟩ | ⟨-, -, hlow, hc⟩ := escapeChar_cases c
  · rw [hc]
    simp only [List.forall_mem_cons]
    exact ⟨by decide, hletter, List.forall_mem_nil _⟩
  · rw [hc]
    simp only [List.forall_mem_cons]
    exact ⟨by decide, by decide, by decide, by decide, hdigit _ (by omega), hdigit _ (by omega),
      List.forall_mem_nil _⟩
  · rw [hc]
    simp only [List.forall_mem_cons]
    exact ⟨hlow, List.forall_mem_nil _⟩

/-- **Skipping takes one written character off**, whatever follows it. -/
theorem skipText_escapeChar (offset : Nat) (c : Char) (rest : List Char) :
    ∃ offset', skipText offset (escapeChar c ++ rest) = skipText offset' rest := by
  obtain ⟨e, he, hu, -, hc⟩ | ⟨hlow, hc⟩ | ⟨hquote, hbackslash, hlow, hc⟩ := escapeChar_cases c
  · refine ⟨offset + 2, ?_⟩
    rw [hc]
    show skipText offset ('\\' :: e :: rest) = _
    rw [skipText, he]
    · rfl
    · exact hu
  · refine ⟨offset + 6, ?_⟩
    rw [hc]
    show skipText offset ('\\' :: 'u' :: '0' :: '0' :: _ :: _ :: rest) = _
    rw [skipText, hexUnit?_of_lt hlow]
    rfl
  · refine ⟨offset + c.utf8Size, ?_⟩
    rw [hc]
    show skipText offset (c :: rest) = _
    rw [skipText, if_neg hbackslash, if_neg (Nat.not_lt.2 hlow)]
    · exact hquote
    · exact fun _ h => absurd h hbackslash
    · exact fun _ _ h => absurd h hbackslash

/-- **Taking gives one written character back**, in front of whatever follows it. -/
theorem takeText_escapeChar (offset : Nat) (c : Char) (rest : List Char) :
    ∃ offset', takeText offset (escapeChar c ++ rest) = (takeText offset' rest).map (c :: ·) := by
  obtain ⟨e, he, hu, -, hc⟩ | ⟨hlow, hc⟩ | ⟨hquote, hbackslash, hlow, hc⟩ := escapeChar_cases c
  · refine ⟨offset + 2, ?_⟩
    rw [hc]
    show takeText offset ('\\' :: e :: rest) = _
    rw [takeText, he]
    exact hu
  · refine ⟨offset + 6, ?_⟩
    -- A unit below U+0020 is no half of a surrogate pair, so it is the character itself.
    have hlowSurrogate : isLowSurrogate c.toNat = false := by
      rw [isLowSurrogate, decide_eq_false (by omega), Bool.false_and]
    have hhighSurrogate : isHighSurrogate c.toNat = false := by
      rw [isHighSurrogate, decide_eq_false (by omega), Bool.false_and]
    rw [hc]
    show takeText offset ('\\' :: 'u' :: '0' :: '0' :: _ :: _ :: rest) = _
    rw [takeText, hexUnit?_of_lt hlow]
    show (if isLowSurrogate c.toNat then _ else if isHighSurrogate c.toNat then _ else _) = _
    rw [hlowSurrogate, hhighSurrogate, Char.ofNat_toNat]
    rfl
  · refine ⟨offset + c.utf8Size, ?_⟩
    rw [hc]
    show takeText offset (c :: rest) = _
    rw [takeText, if_neg hbackslash, if_neg (Nat.not_lt.2 hlow)]
    · exact hquote
    · exact fun _ h => absurd h hbackslash
    · exact fun _ _ h => absurd h hbackslash

/-- The end of a written text is found. -/
theorem skipText_flatMap (offset : Nat) (cs rest : List Char) :
    ∃ stop, skipText offset (cs.flatMap escapeChar ++ '"' :: rest) = .ok (stop, rest) := by
  induction cs generalizing offset with
  | nil => exact ⟨offset + 1, by rw [List.flatMap_nil, List.nil_append, skipText]⟩
  | cons c cs ih =>
    rw [List.flatMap_cons, List.append_assoc]
    obtain ⟨offset', h⟩ := skipText_escapeChar offset c (cs.flatMap escapeChar ++ '"' :: rest)
    rw [h]
    exact ih offset'

/-- **A written text is read back.** -/
theorem takeText_flatMap (offset : Nat) (cs rest : List Char) :
    takeText offset (cs.flatMap escapeChar ++ '"' :: rest) = .ok cs := by
  induction cs generalizing offset with
  | nil => rw [List.flatMap_nil, List.nil_append, takeText]
  | cons c cs ih =>
    rw [List.flatMap_cons, List.append_assoc]
    obtain ⟨offset', h⟩ := takeText_escapeChar offset c (cs.flatMap escapeChar ++ '"' :: rest)
    rw [h, ih offset']
    rfl

/-! ## Numbers -/

/-- **A number ends** where none of its characters could follow. -/
def NumberEnds (rest : List Char) : Prop :=
  ∀ c ∈ rest.head?, c.isDigit = false ∧ c ≠ '.' ∧ c ≠ 'e' ∧ c ≠ 'E'

theorem takeWhile_isDigit_decimal (n : Nat) {rest : List Char} (h : NumberEnds rest) :
    (Text.decimal n ++ rest).takeWhile Char.isDigit = Text.decimal n := by
  rw [List.takeWhile_append_of_pos fun c => Text.isDigit_of_mem_decimal]
  cases rest with
  | nil => rw [List.takeWhile_nil, List.append_nil]
  | cons c rest =>
    rw [List.takeWhile_cons_of_neg (by rw [(h c rfl).1]; exact Bool.false_ne_true),
      List.append_nil]

theorem dropWhile_isDigit_decimal (n : Nat) {rest : List Char} (h : NumberEnds rest) :
    (Text.decimal n ++ rest).dropWhile Char.isDigit = rest := by
  rw [List.dropWhile_append_of_pos fun c => Text.isDigit_of_mem_decimal]
  cases rest with
  | nil => rfl
  | cons c rest =>
    rw [List.dropWhile_cons_of_neg (by rw [(h c rfl).1]; exact Bool.false_ne_true)]

theorem scanFraction_of_numberEnds (n : Numeral) {rest : List Char} (h : NumberEnds rest) :
    scanFraction n rest = .ok (n, rest) := by
  cases rest with
  | nil => rfl
  | cons c rest =>
    obtain ⟨-, hdot, he, hE⟩ := h c rfl
    rw [scanFraction, scanExponent, if_neg (not_or.2 ⟨he, hE⟩)]
    exact fun _ heq => absurd (List.cons.inj heq).1 hdot

/-- Further digits do not make a number smaller. -/
theorem le_foldl_digits (m : Nat) (ds : List Char) :
    m ≤ ds.foldl (fun n c => 10 * n + Text.digitValue c) m := by
  induction ds generalizing m with
  | nil => exact Nat.le_refl m
  | cons d ds ih =>
    rw [List.foldl_cons]
    exact Nat.le_trans (by omega) (ih (10 * m + Text.digitValue d))

/-- Digits are absorbed as long as they denote a word. -/
theorem absorb_of_lt {m : Nat} {ds : List Char}
    (h : ds.foldl (fun n c => 10 * n + Text.digitValue c) m < integerLimit) :
    absorb m ds = (ds.foldl (fun n c => 10 * n + Text.digitValue c) m, []) := by
  induction ds generalizing m with
  | nil => rfl
  | cons d ds ih =>
    rw [List.foldl_cons] at h ⊢
    rw [absorb, if_pos (Nat.lt_of_le_of_lt (le_foldl_digits _ ds) h)]
    exact ih h

/-- The numeral of a natural number that starts at `offset`. -/
def natNumeral (offset n : Nat) : Numeral where
  isNegative := false
  whole := Text.decimal n
  fraction := []
  isInteger := true
  lowers := false
  exponent := []
  exponentStart := 0
  stop := offset + (Text.decimal n).length

/-- **A written number that is a word has its value.** -/
theorem value_natNumeral (offset : Nat) {n : Nat} (h : n < integerLimit) :
    (natNumeral offset n).value = .ok (.unsigned n) := by
  have habsorb : absorb 0 (Text.decimal n) = (n, []) := by
    have hvalue := Text.ofDecimal_decimal n
    rw [Text.ofDecimal] at hvalue
    rw [absorb_of_lt (by rwa [hvalue]), hvalue]
  rw [Numeral.value, show (natNumeral offset n).whole = Text.decimal n from rfl, habsorb]
  rfl

theorem head?_any_isDigit {rest : List Char} (h : NumberEnds rest) :
    rest.head?.any Char.isDigit = false := by
  cases rest with
  | nil => rfl
  | cons c rest => exact (h c rfl).1

/-- **A written number is scanned to its end.** -/
theorem scanNumber_decimal (offset n : Nat) {rest : List Char} (h : NumberEnds rest) :
    scanNumber offset (Text.decimal n ++ rest) = .ok (natNumeral offset n, rest) := by
  obtain ⟨d, ds, hd⟩ := List.exists_cons_of_ne_nil (Text.decimal_ne_nil n)
  have hdigit : d.isDigit = true := Text.isDigit_of_mem_decimal (n := n) (by rw [hd]; simp)
  have hminus : d ≠ '-' := by
    rintro rfl
    cases hdigit
  have hscan : scanNumber offset (Text.decimal n ++ rest)
      = scanDigits false offset (Text.decimal n ++ rest) := by
    rw [hd, List.cons_append, scanNumber]
    exact fun _ heq => absurd (List.cons.inj heq).1 hminus
  rw [hscan]
  -- Zero is read on its own, since a leading zero ends the digits.
  rcases Nat.eq_zero_or_pos n with rfl | hpos
  · have hzero : Text.decimal 0 = ['0'] := Text.decimal_of_lt (by omega)
    rw [natNumeral, hzero]
    show scanDigits false offset ('0' :: rest) = _
    rw [scanDigits, head?_any_isDigit h]
    exact scanFraction_of_numberEnds _ h
  · have hzero : d ≠ '0' := by
      rintro rfl
      exact Text.head?_decimal_ne_zero hpos (by rw [hd]; rfl)
    have htake := takeWhile_isDigit_decimal n h
    have hdrop := dropWhile_isDigit_decimal n h
    have hne : (Text.decimal n).isEmpty = false := by
      rw [hd]
      rfl
    rw [hd, List.cons_append, scanDigits, ← List.cons_append, ← hd, htake, hdrop, hne]
    · exact scanFraction_of_numberEnds _ h
    · exact fun _ heq => absurd (List.cons.inj heq).1 hzero

/-! ## Lexemes -/

/-- **White space is passed over.** -/
theorem lexemes_gap {gap : List Char} (hgap : IsGap gap) (offset : Nat) (rest : List Char) :
    ∃ offset', lexemes offset (gap ++ rest) = lexemes offset' rest := by
  induction gap generalizing offset with
  | nil => exact ⟨offset, rfl⟩
  | cons c gap ih =>
    obtain ⟨offset', h⟩ := ih (fun x hx => hgap x (List.mem_cons_of_mem c hx)) (offset + 1)
    refine ⟨offset', ?_⟩
    rw [List.cons_append, lexemes, if_pos (hgap c (List.mem_cons_self ..)), h]

theorem lexemes_punctuation {c : Char} {kind : LexemeKind} (hkind : punctuation? c = some kind)
    (hspace : isSpace c = false) (offset : Nat) (rest : List Char) :
    lexemes offset (c :: rest) = ⟨kind, offset, offset + 1⟩ :: lexemes (offset + 1) rest := by
  rw [lexemes, hspace, hkind]
  rfl

theorem scanWord_append (offset : Nat) (letters rest : List Char) :
    scanWord offset letters (letters ++ rest) = .ok rest := by
  induction letters generalizing offset with
  | nil =>
    rw [List.nil_append]
    cases rest <;> rfl
  | cons c letters ih =>
    rw [List.cons_append, scanWord, if_pos rfl]
    exact ih (offset + 1)

theorem lexemes_word {c : Char} {letters : List Char} {value : Scalar}
    (hword : word? c = some (letters, value)) (hspace : isSpace c = false)
    (hkind : punctuation? c = none) (offset : Nat) (rest : List Char) :
    ∃ stop, lexemes offset (c :: letters ++ rest)
      = ⟨.scalar value, offset, stop⟩ :: lexemes stop rest := by
  have hscan := scanWord_append (offset + 1) letters rest
  refine ⟨offset + 1 + letters.length, ?_⟩
  rw [List.cons_append, lexemes]
  simp only [hspace, hkind, hword, Bool.false_eq_true, ↓reduceIte]
  split
  · rename_i rest' hok
    rw [hscan, Except.ok.injEq] at hok
    rw [hok]
  · rename_i f herror
    rw [hscan] at herror
    cases herror

theorem lexemes_text (offset : Nat) (s : String) (rest : List Char) :
    ∃ stop, lexemes offset (quoteText s ++ rest)
      = ⟨.scalar (.text (.ok s)), offset, stop⟩ :: lexemes stop rest := by
  obtain ⟨stop, hskip⟩ := skipText_flatMap (offset + 1) s.toList rest
  refine ⟨stop, ?_⟩
  have hquote : quoteText s ++ rest = '"' :: (s.toList.flatMap escapeChar ++ '"' :: rest) := by
    rw [quoteText, List.cons_append, List.cons_append, List.append_assoc]
    rfl
  have hspace : isSpace '"' = false := rfl
  have hkind : punctuation? '"' = none := rfl
  have hword : word? '"' = none := rfl
  rw [hquote, lexemes]
  simp only [hspace, hkind, hword, Bool.false_eq_true, ↓reduceIte]
  split
  · rename_i stop' rest' hok
    rw [hskip, Except.ok.injEq, Prod.mk.injEq] at hok
    rw [hok.1, hok.2, takeText_flatMap]
    show (⟨.scalar (.text (.ok (String.ofList s.toList))), _, _⟩ : Lexeme) :: _ = _
    rw [String.ofList_toList]
  · rename_i f herror
    rw [hskip] at herror
    cases herror

/-- A digit starts nothing but a number. -/
theorem not_other_of_isDigit {c : Char} (h : c.isDigit = true) :
    isSpace c = false ∧ punctuation? c = none ∧ word? c = none ∧ c ≠ '"' := by
  have hne : ∀ {x : Char}, x.isDigit = false → c ≠ x := fun hx heq => by
    rw [heq, hx] at h
    cases h
  refine ⟨?_, ?_, ?_, hne rfl⟩
  · rw [isSpace, beq_false_of_ne (hne rfl), beq_false_of_ne (hne rfl),
      beq_false_of_ne (hne rfl), beq_false_of_ne (hne rfl)]
    rfl
  · rw [punctuation?]
    all_goals exact hne rfl
  · rw [word?]
    all_goals exact hne rfl

theorem lexemes_number (offset : Nat) {n : Nat} (hn : n < integerLimit) {rest : List Char}
    (hrest : NumberEnds rest) :
    ∃ stop, lexemes offset (Text.decimal n ++ rest)
      = ⟨.scalar (.number (.ok (.unsigned n))), offset, stop⟩ :: lexemes stop rest := by
  refine ⟨(natNumeral offset n).stop, ?_⟩
  have hscan := scanNumber_decimal offset n hrest
  obtain ⟨d, ds, hd⟩ := List.exists_cons_of_ne_nil (Text.decimal_ne_nil n)
  have hdigit : d.isDigit = true := Text.isDigit_of_mem_decimal (n := n) (by rw [hd]; simp)
  obtain ⟨hspace, hkind, hword, hquote⟩ := not_other_of_isDigit hdigit
  rw [hd, List.cons_append] at hscan ⊢
  rw [lexemes]
  simp only [hspace, hkind, hword, hquote, hdigit, Bool.false_eq_true, or_true, ↓reduceIte]
  split
  · rename_i numeral rest' hok
    rw [hscan, Except.ok.injEq, Prod.mk.injEq] at hok
    rw [← hok.1, ← hok.2, value_natNumeral offset hn]
  · rename_i b herror
    rw [hscan] at herror
    cases herror

end Json

end Caret
