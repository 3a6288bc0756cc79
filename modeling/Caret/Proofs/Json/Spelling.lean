import Caret.Proofs.Json.Lexing

/-!
# Texts of values

A text of a value is determined by its lexemes up to the white space
between them. Here a value is first taken to the kinds of its lexemes, in
which no white space is left, and `Spells` is the relation between such kinds
and the texts that have them: any gap may stand before each lexeme and at
the end.

Two facts are all that is used of it. Cutting a text that spells some kinds
gives lexemes of these kinds (`map_kind_lexemes`), whatever the gaps are, and
a value that is written in any layout spells its kinds (`spells_write`). So a
reader of lexemes never meets a layout.

Numbers are written in full but read as words. A value all of whose numbers
are words is *in range*, and only such values are read back.
-/

namespace Caret.Json

/-! ## Gaps -/

theorem isGap_nil : IsGap [] := List.forall_mem_nil _

theorem isGap_append {gap gap' : List Char} (h : IsGap gap) (h' : IsGap gap') :
    IsGap (gap ++ gap') := by
  intro c hc
  obtain hc | hc := List.mem_append.1 hc
  · exact h c hc
  · exact h' c hc

theorem numberEnds_nil : NumberEnds [] := fun _ h => nomatch h

theorem numberEnds_cons {c : Char} {rest : List Char}
    (h : c.isDigit = false ∧ c ≠ '.' ∧ c ≠ 'e' ∧ c ≠ 'E') : NumberEnds (c :: rest) := by
  intro x hx
  rw [List.head?_cons, Option.mem_some] at hx
  rw [← hx]
  exact h

/-- A number ends at white space. -/
theorem numberEnds_gap_append {gap rest : List Char} (hgap : IsGap gap) (h : NumberEnds rest) :
    NumberEnds (gap ++ rest) := by
  cases gap with
  | nil => exact h
  | cons c gap =>
    have hspace := hgap c (List.mem_cons_self ..)
    rw [isSpace, Bool.or_eq_true, Bool.or_eq_true, Bool.or_eq_true, beq_iff_eq, beq_iff_eq,
      beq_iff_eq, beq_iff_eq] at hspace
    refine numberEnds_cons ?_
    obtain ((rfl | rfl) | rfl) | rfl := hspace
    all_goals decide

/-- A number still ends if white space is put at the end of the text. -/
theorem numberEnds_append_gap {gap rest : List Char} (hgap : IsGap gap) (h : NumberEnds rest) :
    NumberEnds (rest ++ gap) := by
  cases rest with
  | nil =>
    have hends := numberEnds_gap_append hgap numberEnds_nil
    rwa [List.append_nil] at hends
  | cons c rest => exact numberEnds_cons (h c rfl)

/-! ## Characters of lexemes -/

/-- **The characters of a lexeme**, in front of `rest`: what follows a number must end it. -/
inductive Written : LexemeKind → List Char → List Char → Prop
  | punctuation {c kind rest} (hkind : punctuation? c = some kind) (hspace : isSpace c = false) :
    Written kind [c] rest
  | word {c letters value rest} (hword : word? c = some (letters, value))
    (hspace : isSpace c = false) (hkind : punctuation? c = none) :
    Written (.scalar value) (c :: letters) rest
  | number {n rest} (hn : n < integerLimit) (hrest : NumberEnds rest) :
    Written (.scalar (.number (.ok (.unsigned n)))) (Text.decimal n) rest
  | text {s rest} : Written (.scalar (.text (.ok s))) (quoteText s) rest

/-- **The characters of a lexeme are cut off as that lexeme.** -/
theorem lexemes_written {kind : LexemeKind} {cs rest : List Char} (h : Written kind cs rest)
    (offset : Nat) :
    ∃ stop, lexemes offset (cs ++ rest) = ⟨kind, offset, stop⟩ :: lexemes stop rest := by
  cases h with
  | punctuation hkind hspace => exact ⟨offset + 1, lexemes_punctuation hkind hspace offset rest⟩
  | word hword hspace hkind => exact lexemes_word hword hspace hkind offset rest
  | number hn hrest => exact lexemes_number offset hn hrest
  | text => exact lexemes_text offset _ rest

/-- What follows a lexeme may have more white space at its end. -/
theorem Written.append_gap {kind : LexemeKind} {cs rest gap : List Char}
    (h : Written kind cs rest) (hgap : IsGap gap) : Written kind cs (rest ++ gap) := by
  cases h with
  | punctuation hkind hspace => exact .punctuation hkind hspace
  | word hword hspace hkind => exact .word hword hspace hkind
  | number hn hrest => exact .number hn (numberEnds_append_gap hgap hrest)
  | text => exact .text

/-! ## Spellings -/

/-- **A text spells kinds of lexemes**: it has lexemes of these kinds, and gaps around them. -/
inductive Spells : List LexemeKind → List Char → Prop
  | nil {gap} (hgap : IsGap gap) : Spells [] gap
  | cons {gap kind cs kinds rest} (hgap : IsGap gap) (hwritten : Written kind cs rest)
    (hrest : Spells kinds rest) : Spells (kind :: kinds) (gap ++ (cs ++ rest))

/-- **Cutting a text gives the kinds that it spells.** -/
theorem map_kind_lexemes {kinds : List LexemeKind} {cs : List Char} (h : Spells kinds cs)
    (offset : Nat) : (lexemes offset cs).map Lexeme.kind = kinds := by
  induction h generalizing offset with
  | @nil gap hgap =>
    obtain ⟨offset', heq⟩ := lexemes_gap hgap offset []
    rw [List.append_nil] at heq
    rw [heq, lexemes]
    rfl
  | cons hgap hwritten _ ih =>
    obtain ⟨start, hstart⟩ := lexemes_gap hgap offset _
    obtain ⟨stop, hstop⟩ := lexemes_written hwritten start
    rw [hstart, hstop, List.map_cons, ih stop]

namespace Spells

variable {kinds : List LexemeKind} {rest : List Char}

/-- More white space may stand in front. -/
theorem gap_append (h : Spells kinds rest) {gap : List Char} (hgap : IsGap gap) :
    Spells kinds (gap ++ rest) := by
  cases h with
  | nil hrest => exact .nil (isGap_append hgap hrest)
  | cons hgap' hwritten hrest =>
    rw [← List.append_assoc]
    exact .cons (isGap_append hgap hgap') hwritten hrest

/-- A lexeme may stand in front. -/
theorem written_append (h : Spells kinds rest) {kind : LexemeKind} {cs : List Char}
    (hwritten : Written kind cs rest) : Spells (kind :: kinds) (cs ++ rest) := by
  show Spells (kind :: kinds) ([] ++ (cs ++ rest))
  exact .cons isGap_nil hwritten h

/-- More white space may stand at the end. -/
theorem append_gap (h : Spells kinds rest) {gap : List Char} (hgap : IsGap gap) :
    Spells kinds (rest ++ gap) := by
  induction h with
  | nil hrest => exact .nil (isGap_append hrest hgap)
  | cons hgap' hwritten _ ih =>
    rw [List.append_assoc, List.append_assoc]
    exact .cons hgap' (hwritten.append_gap hgap) ih

theorem openBrace (h : Spells kinds rest) : Spells (.openBrace :: kinds) ('\x7b' :: rest) :=
  h.written_append (.punctuation rfl rfl)

theorem closeBrace (h : Spells kinds rest) : Spells (.closeBrace :: kinds) ('\x7d' :: rest) :=
  h.written_append (.punctuation rfl rfl)

theorem openBracket (h : Spells kinds rest) : Spells (.openBracket :: kinds) ('[' :: rest) :=
  h.written_append (.punctuation rfl rfl)

theorem closeBracket (h : Spells kinds rest) : Spells (.closeBracket :: kinds) (']' :: rest) :=
  h.written_append (.punctuation rfl rfl)

theorem comma (h : Spells kinds rest) : Spells (.comma :: kinds) (',' :: rest) :=
  h.written_append (.punctuation rfl rfl)

theorem colon (h : Spells kinds rest) : Spells (.colon :: kinds) (':' :: rest) :=
  h.written_append (.punctuation rfl rfl)

theorem quoteText_append (h : Spells kinds rest) (s : String) :
    Spells (.scalar (.text (.ok s)) :: kinds) (quoteText s ++ rest) :=
  h.written_append .text

end Spells

/-! ## Values -/

namespace Value

mutual

/-- **The kinds of the lexemes of a value.** -/
def kinds : Value → List LexemeKind
  | null => [.scalar .null]
  | boolean b => [.scalar (.boolean b)]
  | number n => [.scalar (.number (.ok (.unsigned n)))]
  | text s => [.scalar (.text (.ok s))]
  | array [] => [.openBracket, .closeBracket]
  | array (v :: vs) => .openBracket :: v.kinds ++ kindsItems vs ++ [.closeBracket]
  | object [] => [.openBrace, .closeBrace]
  | object ((k, v) :: ms) =>
    .openBrace :: .scalar (.text (.ok k)) :: .colon :: v.kinds ++ kindsMembers ms ++ [.closeBrace]

/-- The kinds of the lexemes of the elements after the first. -/
def kindsItems : List Value → List LexemeKind
  | [] => []
  | v :: vs => .comma :: v.kinds ++ kindsItems vs

/-- The kinds of the lexemes of the members after the first. -/
def kindsMembers : List (String × Value) → List LexemeKind
  | [] => []
  | (k, v) :: ms => .comma :: .scalar (.text (.ok k)) :: .colon :: v.kinds ++ kindsMembers ms

end

mutual

/-- **A value in range**: all of its numbers are words. -/
def InRange : Value → Prop
  | null | boolean _ | text _ => True
  | number n => n < integerLimit
  | array vs => InRangeItems vs
  | object ms => InRangeMembers ms

/-- All of the elements are in range. -/
def InRangeItems : List Value → Prop
  | [] => True
  | v :: vs => v.InRange ∧ InRangeItems vs

/-- All of the members are in range. -/
def InRangeMembers : List (String × Value) → Prop
  | [] => True
  | (_, v) :: ms => v.InRange ∧ InRangeMembers ms

end

variable (l : Layout)

theorem numberEnds_writeItems (depth : Nat) (vs : List Value) {rest : List Char}
    (h : NumberEnds rest) : NumberEnds (writeItems l depth vs ++ rest) := by
  cases vs with
  | nil => exact h
  | cons v vs =>
    rw [writeItems]
    exact numberEnds_cons (by decide)

theorem numberEnds_writeMembers (depth : Nat) (ms : List (String × Value)) {rest : List Char}
    (h : NumberEnds rest) : NumberEnds (writeMembers l depth ms ++ rest) := by
  cases ms with
  | nil => exact h
  | cons m ms =>
    rw [writeMembers]
    exact numberEnds_cons (by decide)

/-- A number ends at the end of a container that holds it. -/
theorem numberEnds_close (depth : Nat) {c : Char} (rest : List Char)
    (h : c.isDigit = false ∧ c ≠ '.' ∧ c ≠ 'e' ∧ c ≠ 'E') :
    NumberEnds (l.newline depth ++ c :: rest) :=
  numberEnds_gap_append (l.isGap_newline depth) (numberEnds_cons h)

mutual

/-- **A written value spells its kinds**, in front of whatever ends a number. -/
theorem spells_write (depth : Nat) (v : Value) (hv : v.InRange) {kinds : List LexemeKind}
    {rest : List Char} (hends : NumberEnds rest) (h : Spells kinds rest) :
    Spells (v.kinds ++ kinds) (v.write l depth ++ rest) := by
  match v with
  | null => exact h.written_append (.word rfl rfl rfl)
  | boolean false => exact h.written_append (.word rfl rfl rfl)
  | boolean true => exact h.written_append (.word rfl rfl rfl)
  | number n => exact h.written_append (.number hv hends)
  | text s => exact h.quoteText_append s
  | array [] => exact h.closeBracket.openBracket
  | array (v :: vs) =>
    -- From the end to the front, since each part is put before what follows it.
    have hend := h.closeBracket.gap_append (l.isGap_newline depth)
    have hendEnds := numberEnds_close l depth (c := ']') rest (by decide)
    have hitems := spells_writeItems (depth + 1) vs hv.2 hendEnds hend
    have hfirst := spells_write (depth + 1) v hv.1
      (numberEnds_writeItems l (depth + 1) vs hendEnds) hitems
    rw [Value.kinds, write]
    simp only [List.cons_append, List.append_assoc, List.nil_append]
    exact (hfirst.gap_append (l.isGap_newline (depth + 1))).openBracket
  | object [] => exact h.closeBrace.openBrace
  | object ((k, v) :: ms) =>
    have hend := h.closeBrace.gap_append (l.isGap_newline depth)
    have hendEnds := numberEnds_close l depth (c := '\x7d') rest (by decide)
    have hmembers := spells_writeMembers (depth + 1) ms hv.2 hendEnds hend
    have hfirst := spells_write (depth + 1) v hv.1
      (numberEnds_writeMembers l (depth + 1) ms hendEnds) hmembers
    rw [Value.kinds, write]
    simp only [List.cons_append, List.append_assoc, List.nil_append]
    exact (((hfirst.gap_append l.isGap_afterColon).colon.quoteText_append k).gap_append
      (l.isGap_newline (depth + 1))).openBrace

theorem spells_writeItems (depth : Nat) (vs : List Value) (hvs : InRangeItems vs)
    {kinds : List LexemeKind} {rest : List Char} (hends : NumberEnds rest)
    (h : Spells kinds rest) : Spells (kindsItems vs ++ kinds) (writeItems l depth vs ++ rest) := by
  match vs with
  | [] => exact h
  | v :: vs =>
    have hrest := spells_writeItems depth vs hvs.2 hends h
    have hfirst := spells_write depth v hvs.1 (numberEnds_writeItems l depth vs hends) hrest
    rw [kindsItems, writeItems]
    simp only [List.cons_append, List.append_assoc]
    exact (hfirst.gap_append (l.isGap_newline depth)).comma

theorem spells_writeMembers (depth : Nat) (ms : List (String × Value)) (hms : InRangeMembers ms)
    {kinds : List LexemeKind} {rest : List Char} (hends : NumberEnds rest)
    (h : Spells kinds rest) :
    Spells (kindsMembers ms ++ kinds) (writeMembers l depth ms ++ rest) := by
  match ms with
  | [] => exact h
  | (k, v) :: ms =>
    have hrest := spells_writeMembers depth ms hms.2 hends h
    have hfirst := spells_write depth v hms.1 (numberEnds_writeMembers l depth ms hends) hrest
    rw [kindsMembers, writeMembers]
    simp only [List.cons_append, List.append_assoc]
    exact (((hfirst.gap_append l.isGap_afterColon).colon.quoteText_append k).gap_append
      (l.isGap_newline depth)).comma

end

/-- **A written text spells its value**, in any layout. -/
theorem spells_kinds_write {v : Value} (hv : v.InRange) : Spells v.kinds (v.write l 0) := by
  have h := spells_write l 0 v hv numberEnds_nil (.nil isGap_nil)
  rwa [List.append_nil, List.append_nil] at h

theorem spells_toCompact {v : Value} (hv : v.InRange) : Spells v.kinds v.toCompact.toList := by
  rw [toCompact, String.toList_ofList]
  exact spells_kinds_write .compact hv

theorem spells_toWide {v : Value} (hv : v.InRange) : Spells v.kinds v.toWide.toList := by
  rw [toWide, String.toList_ofList]
  exact spells_kinds_write .wide hv

end Value

/-! ## Control characters

Escaping leaves no control character of the first row, and the compact layout
adds none. -/

theorem le_of_all {cs : List Char} (h : cs.all (fun c => 0x20 ≤ c.toNat) = true) :
    ∀ c ∈ cs, 0x20 ≤ c.toNat :=
  fun c hc => of_decide_eq_true (List.all_eq_true.1 h c hc)

theorem le_of_mem_quoteText (s : String) : ∀ c ∈ quoteText s, 0x20 ≤ c.toNat := by
  intro c hc
  rw [quoteText, List.cons_append, List.mem_cons, List.mem_append, List.mem_singleton,
    List.mem_flatMap] at hc
  obtain rfl | ⟨x, -, hx⟩ | rfl := hc
  · decide
  · exact le_of_mem_escapeChar x c hx
  · decide

theorem le_of_mem_decimal (n : Nat) : ∀ c ∈ Text.decimal n, 0x20 ≤ c.toNat := by
  intro c hc
  have hdigit := Text.isDigit_of_mem_decimal hc
  rw [Char.isDigit, Bool.and_eq_true, decide_eq_true_eq] at hdigit
  exact Nat.le_trans (by decide) hdigit.1

namespace Value

mutual

/-- **A compact text has no character below U+0020.** -/
theorem le_of_mem_write (depth : Nat) (v : Value) :
    ∀ c ∈ v.write .compact depth, 0x20 ≤ c.toNat := by
  match v with
  | null =>
    rw [write]
    exact le_of_all rfl
  | boolean false =>
    rw [write]
    exact le_of_all rfl
  | boolean true =>
    rw [write]
    exact le_of_all rfl
  | number n => exact le_of_mem_decimal n
  | text s => exact le_of_mem_quoteText s
  | array [] =>
    rw [write]
    exact le_of_all rfl
  | array (v :: vs) =>
    have hfirst := le_of_mem_write (depth + 1) v
    have hitems := le_of_mem_writeItems (depth + 1) vs
    rw [write]
    simp only [Layout.compact, List.cons_append, List.nil_append, List.append_assoc,
      List.forall_mem_cons, List.forall_mem_append]
    exact ⟨by decide, hfirst, hitems, by decide, List.forall_mem_nil _⟩
  | object [] =>
    rw [write]
    exact le_of_all rfl
  | object ((k, v) :: ms) =>
    have hfirst := le_of_mem_write (depth + 1) v
    have hmembers := le_of_mem_writeMembers (depth + 1) ms
    rw [write]
    simp only [Layout.compact, List.cons_append, List.nil_append, List.append_assoc,
      List.forall_mem_cons, List.forall_mem_append]
    exact ⟨by decide, le_of_mem_quoteText k, by decide, hfirst, hmembers, by decide,
      List.forall_mem_nil _⟩

theorem le_of_mem_writeItems (depth : Nat) (vs : List Value) :
    ∀ c ∈ writeItems .compact depth vs, 0x20 ≤ c.toNat := by
  match vs with
  | [] => exact List.forall_mem_nil _
  | v :: vs =>
    have hfirst := le_of_mem_write depth v
    have hitems := le_of_mem_writeItems depth vs
    rw [writeItems]
    simp only [Layout.compact, List.cons_append, List.nil_append, List.forall_mem_cons,
      List.forall_mem_append]
    exact ⟨by decide, hfirst, hitems⟩

theorem le_of_mem_writeMembers (depth : Nat) (ms : List (String × Value)) :
    ∀ c ∈ writeMembers .compact depth ms, 0x20 ≤ c.toNat := by
  match ms with
  | [] => exact List.forall_mem_nil _
  | (k, v) :: ms =>
    have hfirst := le_of_mem_write depth v
    have hmembers := le_of_mem_writeMembers depth ms
    rw [writeMembers]
    simp only [Layout.compact, List.cons_append, List.nil_append, List.append_assoc,
      List.forall_mem_cons, List.forall_mem_append]
    exact ⟨by decide, le_of_mem_quoteText k, by decide, hfirst, hmembers⟩

end

end Value

end Caret.Json
