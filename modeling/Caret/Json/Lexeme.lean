import Caret.Json.Fault

/-!
# JSON lexemes

A JSON text is cut into lexemes: brackets, commas, colons, and scalars. A
scalar can be *taken*, when its value is asked for, or *skipped*, when it
belongs to a member nobody asked for. Skipping is more lenient: it does not
pair surrogates and does not evaluate numbers. The two also place some
faults differently, so a lexeme that cannot be read to its end holds both
faults, and a scalar that can holds the outcome of taking it.

Cutting stops at the first lexeme that cannot be read to its end, or at a
character that starts none; no reader gets past these.
-/

namespace Caret.Json

/-- A scalar and the outcome of taking it. -/
inductive Scalar where
  | null
  | boolean (b : Bool)
  | number (n : Except Fault Number)
  | text (s : Except Fault String)

/-- The faults of a lexeme that cannot be read to its end. -/
structure Broken where
  /-- The fault when the scalar is taken. -/
  taken : Fault
  /-- The fault when the scalar is skipped. -/
  skipped : Fault

/-- One fault for both ways of reading. -/
def Broken.both (f : Fault) : Broken := ⟨f, f⟩

/-- The kinds of lexemes. -/
inductive LexemeKind where
  | openBrace
  | closeBrace
  | openBracket
  | closeBracket
  | comma
  | colon
  | scalar (s : Scalar)
  /-- A text that does not end. -/
  | brokenText (b : Broken)
  /-- A number or word that does not end. -/
  | broken (b : Broken)
  /-- A character that starts no lexeme. -/
  | stray

/-- **A lexeme** with the bytes before it and the bytes up to its end. -/
structure Lexeme where
  /-- What it is. -/
  kind : LexemeKind
  /-- The bytes before it. -/
  start : Nat
  /-- The bytes up to its end. -/
  stop : Nat

/-- The white space between lexemes. -/
def isSpace (c : Char) : Bool :=
  c == ' ' || c == '\n' || c == '\t' || c == '\r'

/-- The bytes of the UTF-8 form of some characters. -/
def byteLength (cs : List Char) : Nat :=
  cs.foldr (fun c n => c.utf8Size + n) 0

/-! ## Texts -/

/-- The number that four hexadecimal digits denote. -/
def hexUnit? (a b c d : Char) : Option Nat := do
  let a ← Text.hexValue? a
  let b ← Text.hexValue? b
  let c ← Text.hexValue? c
  let d ← Text.hexValue? d
  return ((a * 16 + b) * 16 + c) * 16 + d

/-- The fault of an escape whose four digits are missing: all four bytes are
consumed before they are judged, and a text that has fewer left ends. -/
def hexFault (offset : Nat) (cs : List Char) : Fault :=
  if byteLength cs < 4 then ⟨.endInText, offset + byteLength cs⟩ else ⟨.invalidEscape, offset + 4⟩

/-- What an escape of one letter stands for. -/
def shortEscape? : Char → Option Char
  | '"' => some '"'
  | '\\' => some '\\'
  | '/' => some '/'
  | 'b' => some '\x08'
  | 'f' => some '\x0c'
  | 'n' => some '\n'
  | 'r' => some '\r'
  | 't' => some '\t'
  | _ => none

/-- Whether a unit is the first half of a surrogate pair. -/
def isHighSurrogate (n : Nat) : Bool := 0xD800 ≤ n && n ≤ 0xDBFF

/-- Whether a unit is the second half of a surrogate pair. -/
def isLowSurrogate (n : Nat) : Bool := 0xDC00 ≤ n && n ≤ 0xDFFF

/-- The character of a surrogate pair. -/
def pairChar (high low : Nat) : Char :=
  Char.ofNat ((high - 0xD800) * 0x400 + (low - 0xDC00) + 0x10000)

/-- Skips a text behind its opening mark; gives the bytes up to its end and
what follows. -/
def skipText (offset : Nat) : List Char → Except Fault (Nat × List Char)
  | [] => .error ⟨.endInText, offset⟩
  | '"' :: cs => .ok (offset + 1, cs)
  | '\\' :: 'u' :: cs =>
    match cs with
    | a :: b :: c :: d :: rest =>
      if (hexUnit? a b c d).isSome then skipText (offset + 6) rest
      else .error (hexFault (offset + 2) (a :: b :: c :: d :: rest))
    | _ => .error (hexFault (offset + 2) cs)
  | '\\' :: c :: cs =>
    if (shortEscape? c).isSome then skipText (offset + 2) cs
    else .error ⟨.invalidEscape, offset + 2⟩
  | c :: cs =>
    if c = '\\' then .error ⟨.endInText, offset + 1⟩
    else if c.toNat < 0x20 then .error ⟨.controlCharacter, offset⟩
    else skipText (offset + c.utf8Size) cs

/-- Takes a text behind its opening mark. -/
def takeText (offset : Nat) : List Char → Except Fault (List Char)
  | [] => .error ⟨.endInText, offset⟩
  | '"' :: _ => .ok []
  | '\\' :: 'u' :: cs =>
    match cs with
    | a :: b :: c :: d :: rest =>
      match hexUnit? a b c d with
      | none => .error (hexFault (offset + 2) (a :: b :: c :: d :: rest))
      | some unit =>
        if isLowSurrogate unit then .error ⟨.loneSurrogate, offset + 6⟩
        else if isHighSurrogate unit then
          match rest with
          | '\\' :: 'u' :: ds =>
            match ds with
            | e :: f :: g :: h :: rest' =>
              match hexUnit? e f g h with
              | none => .error (hexFault (offset + 8) (e :: f :: g :: h :: rest'))
              | some low =>
                if isLowSurrogate low then
                  (takeText (offset + 12) rest').map (pairChar unit low :: ·)
                else .error ⟨.loneSurrogate, offset + 12⟩
            | _ => .error (hexFault (offset + 8) ds)
          | ['\\'] => .error ⟨.endInText, offset + 7⟩
          | '\\' :: _ => .error ⟨.unfinishedSurrogate, offset + 8⟩
          | [] => .error ⟨.endInText, offset + 6⟩
          | _ => .error ⟨.unfinishedSurrogate, offset + 7⟩
        else (takeText (offset + 6) rest).map (Char.ofNat unit :: ·)
    | _ => .error (hexFault (offset + 2) cs)
  | '\\' :: c :: cs =>
    match shortEscape? c with
    | some e => (takeText (offset + 2) cs).map (e :: ·)
    | none => .error ⟨.invalidEscape, offset + 2⟩
  | c :: cs =>
    if c = '\\' then .error ⟨.endInText, offset + 1⟩
    else if c.toNat < 0x20 then .error ⟨.controlCharacter, offset + 1⟩
    else (takeText (offset + c.utf8Size) cs).map (c :: ·)

theorem length_skipText {offset stop : Nat} {cs rest : List Char}
    (h : skipText offset cs = .ok (stop, rest)) : rest.length < cs.length := by
  fun_induction skipText offset cs <;> simp_all <;> omega

/-! ## Numbers -/

/-- The parts of a number. -/
structure Numeral where
  /-- Whether it starts with a minus sign. -/
  isNegative : Bool
  /-- The digits before the point. -/
  whole : List Char
  /-- The digits after the point; a number without a point has none. -/
  fraction : List Char
  /-- Whether there is neither a point nor an exponent. -/
  isInteger : Bool
  /-- Whether the exponent has a minus sign. -/
  lowers : Bool
  /-- The digits of the exponent. -/
  exponent : List Char
  /-- The bytes before the digits of the exponent. -/
  exponentStart : Nat
  /-- The bytes up to the end. -/
  stop : Nat

/-- The number of natural numbers that are read as integers, `2 ^ 64`. -/
def integerLimit : Nat := 0x10000000000000000

/-- Adds digits to a number while it stays a word; gives the digits left over. -/
def absorb : Nat → List Char → Nat × List Char
  | n, [] => (n, [])
  | n, d :: ds =>
    let m := 10 * n + Text.digitValue d
    if m < integerLimit then absorb m ds else (n, d :: ds)

/-- The greatest exponent that is told apart from its successor. -/
def exponentLimit : Nat := 0x7FFFFFFF

/-- The value of an exponent's digits, after `count` digits that denote `n`; or the
count of digits read when it exceeds the limit. -/
def exponentFrom (n count : Nat) : List Char → Except Nat Nat
  | [] => .ok n
  | d :: ds =>
    let m := 10 * n + Text.digitValue d
    if exponentLimit < m then .error (count + 1) else exponentFrom m (count + 1) ds

/-- The value of an exponent's digits, or the count of digits read when it
exceeds the limit. -/
def exponentValue (digits : List Char) : Except Nat Nat := exponentFrom 0 0 digits

/-- **The value of a numeral.** As many digits as fit a word make the
significand; the digits before the point that do not fit count as zeros and
those behind it not at all. Integers that fit 64 bits stay integers, except
the negative zero; all other numbers are the significand's nearest magnitude
scaled by the exponent. -/
def Numeral.value (n : Numeral) : Except Fault Number :=
  let (lead, dropped) := absorb 0 n.whole
  let (significand, unread) := absorb lead n.fraction
  if n.isInteger && dropped.isEmpty && !n.isNegative then .ok (.unsigned significand)
  else if n.isInteger && dropped.isEmpty && 0 < significand && 2 * significand ≤ integerLimit then
    .ok (.negative significand)
  else
    let point : Int := dropped.length - (n.fraction.length - unread.length : Nat)
    match exponentValue n.exponent with
    | .error count =>
      if significand = 0 || n.lowers then .ok (.floating n.isNegative .zero)
      else .error ⟨.numberOutOfRange, n.exponentStart + count⟩
    | .ok e =>
      let scaled := (Binary64.nearest significand 1).bind fun x =>
        x.scale (if n.lowers then point - e else point + e)
      match scaled with
      | some x => .ok (.floating n.isNegative x)
      | none => .error ⟨.numberOutOfRange, n.stop⟩

/-- The faults of a number where a digit is missing. Where the text ends,
taking finds its end and skipping an invalid number; otherwise both find an
invalid number, behind the first byte of what stands there. -/
def digitMissing (offset : Nat) (cs : List Char) : Broken :=
  if cs.isEmpty then ⟨⟨.endInValue, offset⟩, ⟨.invalidNumber, offset⟩⟩
  else .both ⟨.invalidNumber, offset + 1⟩

/-- The sign of an exponent: whether it is a minus, its length, and the rest. -/
def exponentSign : List Char → Bool × Nat × List Char
  | '+' :: cs => (false, 1, cs)
  | '-' :: cs => (true, 1, cs)
  | cs => (false, 0, cs)

/-- The exponent at the front of `cs`, if it starts with one. -/
def scanExponent (n : Numeral) (cs : List Char) : Except Broken (Numeral × List Char) :=
  match cs with
  | [] => .ok (n, [])
  | c :: rest =>
    if c = 'e' ∨ c = 'E' then
      let (lowers, length, rest) := exponentSign rest
      let start := n.stop + 1 + length
      let digits := rest.takeWhile Char.isDigit
      if digits.isEmpty then .error (digitMissing start rest)
      else
        .ok ({ n with isInteger := false, lowers, exponent := digits, exponentStart := start,
                      stop := start + digits.length }, rest.dropWhile Char.isDigit)
    else .ok (n, c :: rest)

/-- The digits of the fraction at the front of `cs`, if it starts with a
point, and the exponent behind them. -/
def scanFraction (n : Numeral) (cs : List Char) : Except Broken (Numeral × List Char) :=
  match cs with
  | '.' :: rest =>
    let digits := rest.takeWhile Char.isDigit
    if digits.isEmpty then .error (digitMissing (n.stop + 1) rest)
    else
      scanExponent { n with isInteger := false, fraction := digits, stop := n.stop + 1 + digits.length }
        (rest.dropWhile Char.isDigit)
  | cs => scanExponent n cs

/-- The number at the front of `cs`, behind its sign. -/
def scanDigits (isNegative : Bool) (offset : Nat) (cs : List Char) :
    Except Broken (Numeral × List Char) :=
  let whole (ds : List Char) : Numeral :=
    { isNegative, whole := ds, fraction := [], isInteger := true, lowers := false,
      exponent := [], exponentStart := 0, stop := offset + ds.length }
  match cs with
  | '0' :: rest =>
    if rest.head?.any Char.isDigit then .error (.both ⟨.invalidNumber, offset + 2⟩)
    else scanFraction (whole ['0']) rest
  | cs =>
    let digits := cs.takeWhile Char.isDigit
    if digits.isEmpty then .error (digitMissing offset cs)
    else scanFraction (whole digits) (cs.dropWhile Char.isDigit)

/-- The number at the front of `cs`. -/
def scanNumber (offset : Nat) (cs : List Char) : Except Broken (Numeral × List Char) :=
  match cs with
  | '-' :: rest => scanDigits true (offset + 1) rest
  | cs => scanDigits false offset cs

theorem length_dropWhile_lt {p : Char → Bool} {cs : List Char}
    (h : (cs.takeWhile p).isEmpty = false) : (cs.dropWhile p).length < cs.length := by
  have := congrArg List.length (List.takeWhile_append_dropWhile (p := p) (l := cs))
  rw [List.length_append] at this
  have : 0 < (cs.takeWhile p).length := by
    rw [List.length_pos_iff]
    rintro h'
    simp [h'] at h
  omega

theorem length_exponentSign (cs : List Char) : (exponentSign cs).2.2.length ≤ cs.length := by
  unfold exponentSign
  split <;> simp

theorem length_scanExponent {n m : Numeral} {cs rest : List Char}
    (h : scanExponent n cs = .ok (m, rest)) : rest.length ≤ cs.length := by
  cases cs with
  | nil => simp_all [scanExponent]
  | cons c cs =>
    simp only [scanExponent] at h
    split at h
    · split at h
      · simp at h
      · simp only [Except.ok.injEq, Prod.mk.injEq] at h
        rw [← h.2]
        exact Nat.le_trans (List.dropWhile_sublist _).length_le
          (Nat.le_trans (length_exponentSign cs) (by simp))
    · simp_all

theorem length_scanFraction {n m : Numeral} {cs rest : List Char}
    (h : scanFraction n cs = .ok (m, rest)) : rest.length ≤ cs.length := by
  unfold scanFraction at h
  split at h
  · rename_i rest'
    simp only at h
    split at h
    · simp at h
    · have h1 := length_scanExponent h
      have h2 := (List.dropWhile_sublist (l := rest') Char.isDigit).length_le
      simp only [List.length_cons]
      omega
  · exact length_scanExponent h

theorem length_scanDigits {b : Bool} {offset : Nat} {m : Numeral} {cs rest : List Char}
    (h : scanDigits b offset cs = .ok (m, rest)) : rest.length < cs.length := by
  unfold scanDigits at h
  simp only at h
  split at h
  · split at h
    · simp at h
    · have := length_scanFraction h
      simp only [List.length_cons]
      omega
  · split at h
    · simp at h
    · rename_i hd
      have h1 := length_scanFraction h
      have h2 := length_dropWhile_lt (by simpa using hd)
      omega

theorem length_scanNumber {offset : Nat} {m : Numeral} {cs rest : List Char}
    (h : scanNumber offset cs = .ok (m, rest)) : rest.length < cs.length := by
  unfold scanNumber at h
  split at h
  · have := length_scanDigits h
    simp only [List.length_cons]
    omega
  · exact length_scanDigits h

/-! ## Words -/

/-- Takes the letters of a word off the front of `cs`; the fault is the end
of the text or the first byte of another character. -/
def scanWord (offset : Nat) : List Char → List Char → Except Fault (List Char)
  | [], cs => .ok cs
  | _ :: _, [] => .error ⟨.endInValue, offset⟩
  | w :: ws, c :: cs =>
    if c = w then scanWord (offset + 1) ws cs else .error ⟨.expectedWord, offset + 1⟩

theorem length_scanWord {offset : Nat} {ws cs rest : List Char}
    (h : scanWord offset ws cs = .ok rest) : rest.length ≤ cs.length := by
  induction ws generalizing offset cs with
  | nil => simp_all [scanWord]
  | cons w ws ih =>
    cases cs with
    | nil => simp [scanWord] at h
    | cons c cs =>
      simp only [scanWord] at h
      split at h
      · have := ih h
        simp only [List.length_cons]
        omega
      · simp at h

/-! ## The lexemes of a text -/

/-- The bracket, comma or colon that a character is. -/
def punctuation? : Char → Option LexemeKind
  | '\x7b' => some .openBrace
  | '\x7d' => some .closeBrace
  | '[' => some .openBracket
  | ']' => some .closeBracket
  | ',' => some .comma
  | ':' => some .colon
  | _ => none

/-- The word that a character starts: its further letters and its value. -/
def word? : Char → Option (List Char × Scalar)
  | 'n' => some (['u', 'l', 'l'], .null)
  | 't' => some (['r', 'u', 'e'], .boolean true)
  | 'f' => some (['a', 'l', 's', 'e'], .boolean false)
  | _ => none

/-- **The lexemes** of a text behind `offset` bytes. -/
def lexemes (offset : Nat) (cs : List Char) : List Lexeme :=
  match cs with
  | [] => []
  | c :: rest =>
    if isSpace c then lexemes (offset + 1) rest
    else match punctuation? c with
    | some kind => ⟨kind, offset, offset + 1⟩ :: lexemes (offset + 1) rest
    | none => match word? c with
      | some (letters, value) =>
        match h : scanWord (offset + 1) letters rest with
        | .ok rest' =>
          let stop := offset + 1 + letters.length
          ⟨.scalar value, offset, stop⟩ :: lexemes stop rest'
        | .error f => [⟨.broken (.both f), offset, offset⟩]
      | none =>
        if c = '"' then
          match h : skipText (offset + 1) rest with
          | .ok (stop, rest') =>
            let value := (takeText (offset + 1) rest).map String.ofList
            ⟨.scalar (.text value), offset, stop⟩ :: lexemes stop rest'
          | .error skipped =>
            let taken := match takeText (offset + 1) rest with
              | .ok _ => skipped
              | .error f => f
            [⟨.brokenText ⟨taken, skipped⟩, offset, offset⟩]
        else if c = '-' ∨ c.isDigit then
          match _hn : scanNumber offset (c :: rest) with
          | .ok (n, rest') => ⟨.scalar (.number n.value), offset, n.stop⟩ :: lexemes n.stop rest'
          | .error b => [⟨.broken b, offset, offset⟩]
        else [⟨.stray, offset, offset⟩]
termination_by cs.length
decreasing_by
  all_goals simp only [List.length_cons]
  · omega
  · omega
  · have := length_scanWord h
    omega
  · have := length_skipText h
    omega
  · have := length_scanNumber _hn
    simpa using this

end Caret.Json
