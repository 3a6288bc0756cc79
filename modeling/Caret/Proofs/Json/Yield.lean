import Caret.Proofs.Json.Faults
import Caret.Proofs.Json.Tree
import Mathlib.Data.List.TakeWhile

/-!
# What a tree was built from

The tree of a text keeps places and no characters. Here it is taken back to the
text: the **kinds** of a document are those of the lexemes that it is made of, and
a text **has lexemes** of some kinds if it is made of such lexemes and gaps. A
text whose tree holds no fault has lexemes of the kinds of its tree
(`hasLexemes_of_ofText`), so the tree tells all there is in the text but the white
space.

This is the converse of building the tree of a written value, and goes another
way. The lexemes that have been worked off can be told at any time from the
containers that are open and from what is due (`kindsRead`). A step adds the kind
of its lexeme, or brings up a fault that no later step mends (`reads_progress`),
and that is all there is to a run (`build_kinds`).
-/

namespace Caret.Json

/-! ## Lexemes at the front of a text -/

/-- A character inside of a number, behind its first one. -/
def IsNumeralChar (c : Char) : Prop := c.isDigit = true ∨ c ∈ ['-', '+', '.', 'e', 'E']

/-- **The characters of a number**: a digit or a minus with a digit behind it, and on from there. -/
def IsNumeral (cs : List Char) : Prop :=
  ∃ c rest, cs = c :: rest ∧ (∀ x ∈ rest, IsNumeralChar x)
    ∧ (c.isDigit = true ∨ c = '-' ∧ rest.head?.any Char.isDigit = true)

/-- A lexeme that cannot be read to its end. -/
def LexemeKind.IsFault : LexemeKind → Prop
  | .brokenText _ | .broken _ | .stray => True
  | _ => False

/-- **A text begins with a lexeme** and goes on behind it. Of one that cannot be read to its end
nothing is said. -/
inductive Begins : LexemeKind → List Char → List Char → Prop
  | punctuation {c kind rest} (h : punctuation? c = some kind) : Begins kind (c :: rest) rest
  | word {c letters value rest} (h : word? c = some (letters, value)) :
    Begins (.scalar value) (c :: (letters ++ rest)) rest
  | number {n cs front rest} (h : IsNumeral cs) (hfront : front = cs ++ rest) :
    Begins (.scalar (.number n)) front rest
  | text {offset stop cs rest} (h : skipText offset cs = .ok (stop, rest)) :
    Begins (.scalar (.text ((takeText offset cs).map String.ofList))) ('"' :: cs) rest
  | fault {kind cs} (h : kind.IsFault) : Begins kind cs []

/-- **A text has lexemes** of some kinds, and gaps around them. -/
inductive HasLexemes : List LexemeKind → List Char → Prop
  | nil {gap} (hgap : IsGap gap) : HasLexemes [] gap
  | cons {gap kind front rest kinds} (hgap : IsGap gap) (hfront : Begins kind front rest)
    (hrest : HasLexemes kinds rest) : HasLexemes (kind :: kinds) (gap ++ front)

/-- A white space character may stand in front. -/
theorem HasLexemes.space_cons {kinds : List LexemeKind} {cs : List Char} (h : HasLexemes kinds cs)
    {c : Char} (hc : isSpace c = true) : HasLexemes kinds (c :: cs) := by
  cases h with
  | nil hgap => exact .nil (List.forall_mem_cons.2 ⟨hc, hgap⟩)
  | cons hgap hfront hrest => exact .cons (List.forall_mem_cons.2 ⟨hc, hgap⟩) hfront hrest

/-- A lexeme stands in front of the others without a gap. -/
theorem HasLexemes.front_cons {kind : LexemeKind} {kinds : List LexemeKind}
    {front rest : List Char} (hfront : Begins kind front rest) (hrest : HasLexemes kinds rest) :
    HasLexemes (kind :: kinds) front := by
  show HasLexemes (kind :: kinds) ([] ++ front)
  exact .cons (List.forall_mem_nil _) hfront hrest

/-- A fault ends the lexemes. -/
theorem hasLexemes_fault (kind : LexemeKind) (h : kind.IsFault) (cs : List Char) :
    HasLexemes [kind] cs :=
  .front_cons (.fault h) (.nil (List.forall_mem_nil _))

/-! ### Texts -/

theorem punctuation?_ne_scalar (c : Char) (value : Scalar) :
    punctuation? c ≠ some (.scalar value) := by
  intro h
  unfold punctuation? at h
  split at h
  all_goals cases h

theorem word?_ne_text (c : Char) (letters : List Char) (taken : Except Fault String) :
    word? c ≠ some (letters, .text taken) := by
  intro h
  unfold word? at h
  split at h
  all_goals cases h

/-- **A text begins with a quotation mark.** -/
theorem Begins.exists_of_text {taken : Except Fault String} {front rest : List Char}
    (h : Begins (.scalar (.text taken)) front rest) :
    ∃ offset stop cs, front = '"' :: cs ∧ skipText offset cs = .ok (stop, rest)
      ∧ taken = (takeText offset cs).map String.ofList := by
  cases h with
  | punctuation hc => exact absurd hc (punctuation?_ne_scalar _ _)
  | word hc => exact absurd hc (word?_ne_text _ _ _)
  | text hskip => exact ⟨_, _, _, rfl, hskip, rfl⟩
  | fault hfault => exact hfault.elim

/-- What follows a text between quotation marks is the end of it. -/
theorem exists_of_skipText {offset stop : Nat} {cs rest : List Char}
    (h : skipText offset cs = .ok (stop, rest)) : ∃ taken, cs = taken ++ rest := by
  fun_induction skipText offset cs with
  | case1 | case4 | case5 | case7 | case8 | case9 => cases h
  | case2 offset cs =>
    cases h
    exact ⟨['"'], rfl⟩
  | case3 offset a b c d cs _ ih =>
    obtain ⟨taken, rfl⟩ := ih h
    exact ⟨'\\' :: 'u' :: a :: b :: c :: d :: taken, rfl⟩
  | case6 offset c cs _ _ ih =>
    obtain ⟨taken, rfl⟩ := ih h
    exact ⟨'\\' :: c :: taken, rfl⟩
  | case10 offset c cs _ _ _ _ _ ih =>
    obtain ⟨taken, rfl⟩ := ih h
    exact ⟨c :: taken, rfl⟩

/-! ### Words and numbers -/

theorem scanWord_eq_ok {offset : Nat} {letters cs rest : List Char}
    (h : scanWord offset letters cs = .ok rest) : cs = letters ++ rest := by
  induction letters generalizing offset cs with
  | nil =>
    rw [scanWord, Except.ok.injEq] at h
    exact h
  | cons w ws ih =>
    cases cs with
    | nil => cases h
    | cons c cs =>
      rw [scanWord] at h
      split at h
      · rename_i hc
        rw [hc, ih h]
        rfl
      · cases h

theorem isNumeralChar_of_mem_takeWhile {cs : List Char} :
    ∀ c ∈ cs.takeWhile Char.isDigit, IsNumeralChar c :=
  fun _ hc => .inl (List.mem_takeWhile_imp hc)

theorem exists_of_exponentSign (cs : List Char) :
    ∃ sign, (∀ c ∈ sign, IsNumeralChar c) ∧ cs = sign ++ (exponentSign cs).2.2 := by
  unfold exponentSign
  split
  · exact ⟨['+'], List.forall_mem_singleton.2 (.inr (by decide)), rfl⟩
  · exact ⟨['-'], List.forall_mem_singleton.2 (.inr (by decide)), rfl⟩
  · exact ⟨[], List.forall_mem_nil _, rfl⟩

theorem exists_of_scanExponent {n m : Numeral} {cs rest : List Char}
    (h : scanExponent n cs = .ok (m, rest)) :
    ∃ taken, (∀ c ∈ taken, IsNumeralChar c) ∧ cs = taken ++ rest := by
  cases cs with
  | nil =>
    cases h
    exact ⟨[], List.forall_mem_nil _, rfl⟩
  | cons c cs =>
    rw [scanExponent] at h
    split at h
    · rename_i hc
      dsimp only at h
      split at h
      · cases h
      · cases h
        obtain ⟨sign, hsign, hcs⟩ := exists_of_exponentSign cs
        refine ⟨c :: (sign ++ (exponentSign cs).2.2.takeWhile Char.isDigit), ?_, ?_⟩
        · refine List.forall_mem_cons.2 ⟨?_, List.forall_mem_append.2
            ⟨hsign, isNumeralChar_of_mem_takeWhile⟩⟩
          rcases hc with rfl | rfl
          · exact .inr (by decide)
          · exact .inr (by decide)
        · rw [List.cons_append, List.append_assoc, List.takeWhile_append_dropWhile, ← hcs]
    · cases h
      exact ⟨[], List.forall_mem_nil _, rfl⟩

theorem exists_of_scanFraction {n m : Numeral} {cs rest : List Char}
    (h : scanFraction n cs = .ok (m, rest)) :
    ∃ taken, (∀ c ∈ taken, IsNumeralChar c) ∧ cs = taken ++ rest := by
  unfold scanFraction at h
  split at h
  · rename_i cs'
    dsimp only at h
    split at h
    · cases h
    · obtain ⟨taken, htaken, hrest⟩ := exists_of_scanExponent h
      refine ⟨'.' :: (cs'.takeWhile Char.isDigit ++ taken), ?_, ?_⟩
      · exact List.forall_mem_cons.2 ⟨.inr (by decide), List.forall_mem_append.2
          ⟨isNumeralChar_of_mem_takeWhile, htaken⟩⟩
      · rw [List.cons_append, List.append_assoc, ← hrest, List.takeWhile_append_dropWhile]
  · exact exists_of_scanExponent h

theorem exists_of_scanDigits {b : Bool} {offset : Nat} {m : Numeral} {cs rest : List Char}
    (h : scanDigits b offset cs = .ok (m, rest)) :
    ∃ c taken, c.isDigit = true ∧ (∀ x ∈ taken, IsNumeralChar x) ∧ cs = c :: (taken ++ rest) := by
  unfold scanDigits at h
  dsimp only at h
  split at h
  · split at h
    · cases h
    · obtain ⟨taken, htaken, hrest⟩ := exists_of_scanFraction h
      exact ⟨'0', taken, rfl, htaken, by rw [hrest]⟩
  · split at h
    · cases h
    · rename_i hdigits
      obtain ⟨taken, htaken, hrest⟩ := exists_of_scanFraction h
      have hsplit := List.takeWhile_append_dropWhile (p := Char.isDigit) (l := cs)
      have hall : ∀ c ∈ cs.takeWhile Char.isDigit, c.isDigit = true :=
        fun _ => List.mem_takeWhile_imp
      generalize cs.takeWhile Char.isDigit = digits at *
      cases digits with
      | nil => exact absurd rfl hdigits
      | cons d ds =>
        rw [List.forall_mem_cons] at hall
        refine ⟨d, ds ++ taken, hall.1, ?_, ?_⟩
        · exact List.forall_mem_append.2 ⟨fun c hc => .inl (hall.2 c hc), htaken⟩
        · rw [← hsplit, hrest, List.cons_append, List.append_assoc]

/-- **What is scanned as a number has the characters of one.** -/
theorem exists_of_scanNumber {offset : Nat} {m : Numeral} {cs rest : List Char}
    (h : scanNumber offset cs = .ok (m, rest)) : ∃ taken, IsNumeral taken ∧ cs = taken ++ rest := by
  unfold scanNumber at h
  split at h
  · obtain ⟨c, taken, hc, htaken, hrest⟩ := exists_of_scanDigits h
    refine ⟨'-' :: c :: taken, ⟨'-', c :: taken, rfl, ?_, .inr ⟨rfl, hc⟩⟩, by rw [hrest]; rfl⟩
    exact List.forall_mem_cons.2 ⟨.inl hc, htaken⟩
  · obtain ⟨c, taken, hc, htaken, hrest⟩ := exists_of_scanDigits h
    exact ⟨c :: taken, ⟨c, taken, rfl, htaken, .inl hc⟩, hrest⟩

/-! ### All lexemes -/

/-- **Cutting a text gives lexemes that it has.** -/
theorem hasLexemes_lexemes (offset : Nat) (cs : List Char) :
    HasLexemes ((lexemes offset cs).map Lexeme.kind) cs := by
  fun_induction lexemes offset cs with
  | case1 => exact .nil (List.forall_mem_nil _)
  | case2 offset c rest hspace ih => exact ih.space_cons hspace
  | case3 offset c rest _ kind hkind ih => exact .front_cons (.punctuation hkind) ih
  | case4 offset c rest _ _ letters value hword rest' hscan stop ih =>
    obtain rfl := scanWord_eq_ok hscan
    exact .front_cons (.word hword) ih
  | case5 => exact hasLexemes_fault (.broken _) trivial _
  | case6 offset rest stop rest' hskip _ _ _ _ ih => exact .front_cons (.text hskip) ih
  | case7 => exact hasLexemes_fault (.brokenText _) trivial _
  | case8 offset c rest _ _ _ _ _ n rest' hscan ih =>
    obtain ⟨taken, htaken, hcs⟩ := exists_of_scanNumber hscan
    exact .front_cons (.number htaken hcs) ih
  | case9 => exact hasLexemes_fault (.broken _) trivial _
  | case10 => exact hasLexemes_fault .stray trivial _

/-! ## The kinds of a document -/

mutual

/-- **The kinds of the lexemes of a document.** -/
def Document.kinds : Document → List LexemeKind
  | .scalar _ _ s => [.scalar s]
  | .array _ items _ => .openBracket :: ((kindsItems items).tail ++ [.closeBracket])
  | .object _ members _ => .openBrace :: ((kindsMembers members).tail ++ [.closeBrace])
  | .broken _ _ => []

/-- The kinds of the lexemes of elements, with a comma before each. -/
def kindsItems : List Document → List LexemeKind
  | [] => []
  | d :: ds => .comma :: (d.kinds ++ kindsItems ds)

/-- The kinds of the lexemes of members, with a comma before each. -/
def kindsMembers : List (Key × Document) → List LexemeKind
  | [] => []
  | (key, d) :: ms => .comma :: .scalar (.text key.text) :: .colon :: (d.kinds ++ kindsMembers ms)

end

theorem kindsItems_append (ds es : List Document) :
    kindsItems (ds ++ es) = kindsItems ds ++ kindsItems es := by
  induction ds with
  | nil => rfl
  | cons d ds ih => rw [List.cons_append, kindsItems, ih, kindsItems, List.cons_append,
      List.append_assoc]

theorem kindsMembers_append (ms ns : List (Key × Document)) :
    kindsMembers (ms ++ ns) = kindsMembers ms ++ kindsMembers ns := by
  induction ms with
  | nil => rfl
  | cons m ms ih => rw [List.cons_append, kindsMembers, ih, kindsMembers, List.cons_append,
      List.cons_append, List.cons_append, List.append_assoc]

/-! ## The kinds that have been read -/

/-- The comma that has been read behind the elements so far, if something else than a comma
is due. -/
def Due.comma : Due → List LexemeKind
  | .separator => []
  | _ => [.comma]

/-- The colon that has been read behind a key, if something else is due. -/
def Due.colonRead : Due → List LexemeKind
  | .colon => []
  | _ => [.colon]

/-- The kinds of the lexemes of an open container, when something is due in it. -/
def Open.kinds (due : Due) : Open → List LexemeKind
  | .array _ items => .openBracket :: (kindsItems items.reverse ++ due.comma).tail
  | .object _ members => .openBrace :: (kindsMembers members.reverse ++ due.comma).tail
  | .member _ members key => .openBrace ::
    (kindsMembers members.reverse ++ .comma :: .scalar (.text key.text) :: due.colonRead).tail

/-- **The kinds of the lexemes that have been worked off**, when something is due. In all
containers but the innermost one, this is the value that the next one will be. -/
def kindsRead (due : Due) : List Open → List LexemeKind
  | [] => []
  | o :: below => kindsRead .value below ++ o.kinds due

/-- What can be due in a container; a value is due in one that holds the next one. -/
def Open.Awaits : Open → Due → Prop
  | .array .., .value => True
  | .array _ items, .firstItem => items = []
  | .array _ items, .nextItem | .array _ items, .separator => items ≠ []
  | .object _ members, .firstKey => members = []
  | .object _ members, .nextKey | .object _ members, .separator => members ≠ []
  | .member .., .colon | .member .., .value => True
  | _, _ => False

/-- **The stacks that occur** when something is due. -/
def IsStack (due : Due) : List Open → Prop
  | [] => due = .value
  | o :: below => o.Awaits due ∧ ∀ o' ∈ below, o'.Awaits .value

section

variable {due : Due} {stack : List Open}

theorem isStack_value_iff : IsStack .value stack ↔ ∀ o ∈ stack, o.Awaits .value := by
  cases stack with
  | nil => exact iff_of_true rfl (List.forall_mem_nil _)
  | cons o below => exact Iff.symm List.forall_mem_cons

theorem IsStack.tail (h : IsStack due stack) : IsStack .value stack.tail := by
  cases stack with
  | nil => exact rfl
  | cons o below => exact isStack_value_iff.2 h.2

/-- Where something that leads to a value is due, the whole stack holds the value. -/
theorem IsStack.value (h : IsStack due stack) (hdue : due.AwaitsValue ∨ due = .colon) :
    IsStack .value stack := by
  cases stack with
  | nil => exact rfl
  | cons o below =>
    refine ⟨?_, h.2⟩
    cases o with
    | array | member => trivial
    | object =>
      have hawaits := h.1
      rcases hdue with hdue | rfl
      · cases due with
        | value | firstItem | nextItem => exact hawaits
        | _ => exact hdue.elim
      · exact hawaits

/-- What has been read does not depend on how a value is due. -/
theorem kindsRead_eq_value (hdue : due.AwaitsValue) :
    kindsRead due stack = kindsRead .value stack := by
  cases stack with
  | nil => rfl
  | cons o below =>
    cases due with
    | value => rfl
    | firstItem | nextItem =>
      cases o with
      | _ => rfl
    | _ => exact hdue.elim

/-! ## Faults -/

/-- **A fault stays a fault** when the containers around it are closed. -/
theorem Document.Faulty.unwind {d : Document} (h : d.Faulty) (hstack : IsStack .value stack) :
    (Json.unwind d stack).Faulty := by
  induction stack generalizing d with
  | nil => exact h
  | cons o below ih =>
    cases o with
    | array start items =>
      exact ih (.item (List.mem_reverse.2 (List.mem_cons_self ..)) h) hstack.tail
    | object => exact hstack.1.elim
    | member start members key =>
      exact ih (.member (List.mem_reverse.2 (List.mem_cons_self ..)) h) hstack.tail

/-- A container that goes wrong makes the tree faulty. -/
theorem IsStack.faulty_breakInnermost (h : IsStack due stack) (close : Close)
    (hclose : close.IsFault) : (breakInnermost close stack).Faulty := by
  cases stack with
  | nil => exact .broken
  | cons o below =>
    cases o with
    | array => exact (Document.Faulty.array hclose).unwind h.tail
    | object => exact (Document.Faulty.object hclose).unwind h.tail
    | member => exact (Document.Faulty.object hclose).unwind h.tail

/-- **A text that ends early has a faulty tree.** -/
theorem IsStack.faulty_endEarly (h : IsStack due stack) (length : Nat) :
    (endEarly length stack due).Faulty := by
  cases due with
  | value => exact Document.Faulty.broken.unwind (h.value (.inl trivial))
  | colon => exact Document.Faulty.broken.unwind (h.value (.inr rfl))
  | _ => exact h.faulty_breakInnermost (.broken _) trivial

/-! ## One lexeme -/

/-- **What has been read when a lexeme is worked off**: the tree or the open containers have the
kinds of all that has been read, unless a fault has come up. -/
def Progress.Reads (kinds : List LexemeKind) : Progress → Prop
  | .go stack due => IsStack due stack ∧ kindsRead due stack = kinds
  | .done d => d.kinds = kinds ∨ d.Faulty

theorem tail_append_cons {α : Type} (xs ys zs : List α) (y : α) :
    (xs ++ y :: ys).tail ++ zs = (xs ++ y :: (ys ++ zs)).tail := by
  cases xs with
  | nil => rfl
  | cons x xs =>
    rw [List.cons_append, List.cons_append, List.tail_cons, List.tail_cons, List.append_assoc,
      List.cons_append]

/-- **A complete value is read**, wherever a value is due. -/
theorem reads_finish (h : IsStack due stack) (hdue : due.AwaitsValue) (d : Document) :
    (finish d stack).Reads (kindsRead due stack ++ d.kinds) := by
  have hvalue := h.value (.inl hdue)
  rw [kindsRead_eq_value hdue]
  cases stack with
  | nil => exact .inl rfl
  | cons o below =>
    cases o with
    | array start items =>
      refine ⟨⟨List.cons_ne_nil d items, h.2⟩, ?_⟩
      rw [kindsRead, kindsRead, List.append_assoc]
      refine congrArg (kindsRead .value below ++ ·) ?_
      rw [Open.kinds, Open.kinds, Due.comma, Due.comma, List.cons_append, tail_append_cons,
        List.reverse_cons, kindsItems_append, List.append_nil, kindsItems, kindsItems,
        List.append_nil]
      · rfl
      · exact nofun
    | object => exact hvalue.1.elim
    | member start members key =>
      refine ⟨⟨List.cons_ne_nil (key, d) members, h.2⟩, ?_⟩
      rw [kindsRead, kindsRead, List.append_assoc]
      refine congrArg (kindsRead .value below ++ ·) ?_
      rw [Open.kinds, Open.kinds, Due.comma, Due.colonRead, List.cons_append, tail_append_cons,
        List.reverse_cons, kindsMembers_append, List.append_nil, kindsMembers, kindsMembers,
        List.append_nil]
      · rfl
      · exact nofun

/-- **A lexeme is read where a value is due.** -/
theorem reads_startValue (h : IsStack due stack) (hdue : due.AwaitsValue) (l : Lexeme) :
    (startValue l stack).Reads (kindsRead due stack ++ [l.kind]) := by
  have hvalue := h.value (.inl hdue)
  obtain ⟨kind, start, stop⟩ := l
  cases kind with
  | scalar s => exact reads_finish h hdue (.scalar start stop s)
  | openBracket =>
    rw [kindsRead_eq_value hdue]
    exact ⟨⟨rfl, isStack_value_iff.1 hvalue⟩, rfl⟩
  | openBrace =>
    rw [kindsRead_eq_value hdue]
    exact ⟨⟨rfl, isStack_value_iff.1 hvalue⟩, rfl⟩
  | _ => exact .inr (Document.Faulty.broken.unwind hvalue)

/-- A closing bracket is read where it is due. -/
theorem reads_finishContainer_array {start : Nat} {items : List Document} {below : List Open}
    (h : IsStack due (.array start items :: below)) (hdue : due = .firstItem ∨ due = .separator)
    (l : Lexeme) :
    (finishContainer l (.array start items :: below)).Reads
      (kindsRead due (.array start items :: below) ++ [.closeBracket]) := by
  have hreads := reads_finish h.tail trivial (.array start items.reverse (.closed l.stop))
  have hkinds : kindsRead due (.array start items :: below) ++ [.closeBracket]
      = kindsRead .value below ++ (Document.array start items.reverse (.closed l.stop)).kinds := by
    rw [kindsRead, Open.kinds, List.append_assoc, List.cons_append, Document.kinds]
    rcases hdue with rfl | rfl
    · rw [show items = [] from h.1]
      rfl
    · rw [Due.comma, List.append_nil]
  rw [hkinds]
  exact hreads

/-- A closing brace is read where it is due. -/
theorem reads_finishContainer_object {start : Nat} {members : List (Key × Document)}
    {below : List Open} (h : IsStack due (.object start members :: below))
    (hdue : due = .firstKey ∨ due = .separator) (l : Lexeme) :
    (finishContainer l (.object start members :: below)).Reads
      (kindsRead due (.object start members :: below) ++ [.closeBrace]) := by
  have hreads := reads_finish h.tail trivial (.object start members.reverse (.closed l.stop))
  have hkinds : kindsRead due (.object start members :: below) ++ [.closeBrace]
      = kindsRead .value below
        ++ (Document.object start members.reverse (.closed l.stop)).kinds := by
    rw [kindsRead, Open.kinds, List.append_assoc, List.cons_append, Document.kinds]
    rcases hdue with rfl | rfl
    · rw [show members = [] from h.1]
      rfl
    · rw [Due.comma, List.append_nil]
  rw [hkinds]
  exact hreads

/-- **A lexeme is read where a key is due.** -/
theorem reads_startMember {start : Nat} {members : List (Key × Document)} {below : List Open}
    (h : IsStack due (.object start members :: below)) (hdue : due.AwaitsKey) (l : Lexeme)
    (stop : Nat) (endKind : BreakKind) :
    (startMember l stop endKind (.object start members :: below)).Reads
      (kindsRead due (.object start members :: below) ++ [l.kind]) := by
  obtain ⟨kind, lStart, lStop⟩ := l
  unfold startMember
  split
  · rename_i s start members below hkind hstack
    obtain rfl : kind = .scalar (.text s) := hkind
    cases hstack
    refine ⟨⟨trivial, h.2⟩, ?_⟩
    rw [kindsRead, kindsRead, List.append_assoc]
    refine congrArg (kindsRead .value _ ++ ·) ?_
    have hcomma : due.comma = [.comma] := by
      cases due with
      | firstKey | nextKey => rfl
      | _ => exact hdue.elim
    rw [Open.kinds, Open.kinds, hcomma, List.cons_append, tail_append_cons]
    rfl
  · exact .inr (h.faulty_breakInnermost (.brokenKey _) trivial)
  · exact .inr (h.faulty_breakInnermost (.broken _) trivial)
  · exact .inr (h.faulty_breakInnermost (.broken _) trivial)

theorem kindsItems_ne_nil {items : List Document} (h : items ≠ []) :
    kindsItems items.reverse ≠ [] := by
  obtain ⟨d, ds, hd⟩ := List.exists_cons_of_ne_nil (mt List.reverse_eq_nil_iff.1 h)
  rw [hd]
  exact List.cons_ne_nil _ _

theorem kindsMembers_ne_nil {members : List (Key × Document)} (h : members ≠ []) :
    kindsMembers members.reverse ≠ [] := by
  obtain ⟨m, ms, hm⟩ := List.exists_cons_of_ne_nil (mt List.reverse_eq_nil_iff.1 h)
  rw [hm]
  exact List.cons_ne_nil _ _

/-- **A comma is read** behind an element of a container. -/
theorem kindsRead_comma {o : Open} (h : o.Awaits .separator) (below : List Open)
    (hdue : due.comma = [.comma]) :
    kindsRead due (o :: below) = kindsRead .separator (o :: below) ++ [.comma] := by
  rw [kindsRead, kindsRead, List.append_assoc]
  refine congrArg (kindsRead .value below ++ ·) ?_
  cases o with
  | array start items =>
    rw [Open.kinds, Open.kinds, hdue, Due.comma, List.append_nil,
      List.tail_append_of_ne_nil (kindsItems_ne_nil h)]
    rfl
  | object start members =>
    rw [Open.kinds, Open.kinds, hdue, Due.comma, List.append_nil,
      List.tail_append_of_ne_nil (kindsMembers_ne_nil h)]
    rfl
  | member => exact h.elim

/-- **Behind an element** a comma is read or the end of its container. -/
theorem reads_separator {o : Open} {below : List Open} (h : IsStack .separator (o :: below))
    (l : Lexeme) (stop : Nat) :
    (progress (o :: below) .separator l stop).Reads
      (kindsRead .separator (o :: below) ++ [l.kind]) := by
  unfold progress
  dsimp only
  split
  · rename_i hkind hstack
    cases hstack
    rw [hkind]
    exact ⟨h, kindsRead_comma h.1 _ rfl⟩
  · rename_i hkind hstack
    cases hstack
    rw [hkind]
    exact ⟨h, kindsRead_comma h.1 _ rfl⟩
  · rename_i hkind hstack
    cases hstack
    rw [hkind]
    exact reads_finishContainer_array h (.inr rfl) l
  · rename_i hkind hstack
    cases hstack
    rw [hkind]
    exact reads_finishContainer_object h (.inr rfl) l
  · exact .inr (h.faulty_breakInnermost (.broken _) trivial)

/-- **A step reads its lexeme** or comes upon a fault. -/
theorem reads_progress (h : IsStack due stack) (l : Lexeme) (stop : Nat) :
    (progress stack due l stop).Reads (kindsRead due stack ++ [l.kind]) := by
  -- What is due tells which container is the innermost one.
  match due, stack, h with
  | .value, stack, h => exact reads_startValue h trivial l
  | .firstItem, .array start items :: below, h =>
    rw [progress]
    split
    · rename_i hkind
      rw [hkind]
      exact reads_finishContainer_array h (.inl rfl) l
    · exact reads_startValue h trivial l
  | .nextItem, .array start items :: below, h =>
    rw [progress]
    split
    · exact .inr (h.faulty_breakInnermost (.broken _) trivial)
    · exact reads_startValue h trivial l
  | .firstKey, .object start members :: below, h =>
    rw [progress]
    split
    · rename_i hkind
      rw [hkind]
      exact reads_finishContainer_object h (.inl rfl) l
    · exact reads_startMember h trivial l stop .key
  | .nextKey, .object start members :: below, h =>
    exact reads_startMember h trivial l stop .commaThenEnd
  | .colon, .member start members key :: below, h =>
    rw [progress]
    split
    · rename_i hkind
      refine ⟨⟨trivial, h.2⟩, ?_⟩
      rw [hkind, kindsRead, kindsRead, List.append_assoc, Open.kinds, Open.kinds, List.cons_append,
        tail_append_cons]
      rfl
    · exact .inr (Document.Faulty.broken.unwind (h.value (.inr rfl)))
  | .separator, o :: below, h => exact reads_separator h l stop

/-! ## Whole texts -/

/-- **The tree has the kinds of all lexemes that were read for it**, or a fault. -/
theorem build_kinds (length : Nat) (h : IsStack due stack) (ls : List Lexeme) {d : Document}
    {rest : List Lexeme} (hbuild : build length stack due ls = (d, rest)) :
    d.kinds ++ rest.map Lexeme.kind = kindsRead due stack ++ ls.map Lexeme.kind ∨ d.Faulty := by
  induction ls generalizing due stack with
  | nil =>
    cases hbuild
    exact .inr (h.faulty_endEarly length)
  | cons l ls ih =>
    have hstep := reads_progress h l (behindKey length ls)
    rw [build_cons] at hbuild
    cases hprogress : progress stack due l (behindKey length ls) with
    | go stack' due' =>
      rw [hprogress] at hstep hbuild
      obtain ⟨hstack, hkinds⟩ := hstep
      refine (ih hstack hbuild).imp_left fun heq => ?_
      rw [heq, hkinds, List.append_assoc, List.map_cons]
      rfl
    | done d' =>
      rw [hprogress] at hstep hbuild
      cases hbuild
      refine Or.imp_left (fun heq => ?_) hstep
      rw [heq, List.append_assoc, List.map_cons]
      rfl

end

/-- **A text has the lexemes of its tree**, if the tree is not faulty and nothing follows it. -/
theorem hasLexemes_of_ofText {cs : List Char} {d : Document}
    (h : Document.ofText cs = (d, none)) (hd : ¬ d.Faulty) : HasLexemes d.kinds cs := by
  have hcut := hasLexemes_lexemes 0 cs
  rw [Document.ofText] at h
  obtain ⟨hbuild, hrest⟩ := Prod.mk.inj h
  rw [Option.map_eq_none_iff, List.head?_eq_none_iff] at hrest
  have hstack : IsStack .value [] := rfl
  have hkinds := build_kinds (byteLength cs) hstack (lexemes 0 cs) rfl
  rw [hbuild, hrest] at hkinds
  have heq := hkinds.resolve_right hd
  rw [List.map_nil, List.append_nil, kindsRead, List.nil_append] at heq
  rw [heq]
  exact hcut

end Caret.Json
