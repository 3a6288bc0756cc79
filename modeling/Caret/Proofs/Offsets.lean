import Caret.LineIndex
import Caret.Proofs.Outcomes

/-!
# Offsets and positions are two names of one place

An index turns an offset into a position by a walk that takes lines off the
offset, and a position into an offset by adding up the lines before it. The
two never look at each other, and what links them is a third thing: an
offset **lies at** a position when the line starts as many characters
earlier as the column says, and the line is long enough for that column.

`walk_eq_iff` says that the walk ends at the only such place. Everything
else is read off it: `resolve_eq_ok_iff` and `offsetOf_eq_some_iff` give
both directions the same right-hand side, and `offsetOf_resolve_inverse`
puts them together.

The line behind the last one is the odd case. It has no length, so a column
on it is bounded by nothing but the source, and a sum of counts may leave
the range of a word there. That is why the source is asked to be shorter
than the greatest word, as every text is. Positions come from outside too, and
what becomes of all of them is said last: those whose sum is no word have no
outcome, and all others are refused exactly if nothing is resolved to them.
-/

namespace Caret.LineIndex

/-! ## Where the walk ends -/

/-- **The offset at which a line starts**: the lines before it, each with its
line feed. Lines are counted from zero. -/
def lineStart (lens : List Nat) (line : Nat) : Nat :=
  total ((lens.take line).map (· + 1))

/-- A column fits a line: the line is one of the text and reaches as far, or
it is the line behind the last one, which has no end. Both count from zero. -/
def Fits (lens : List Nat) (line column : Nat) : Prop :=
  line ≤ lens.length ∧ ∀ len ∈ lens[line]?, column ≤ len

@[simp] theorem lineStart_zero (lens : List Nat) : lineStart lens 0 = 0 := by
  rw [lineStart, List.take_zero]
  rfl

@[simp] theorem lineStart_succ (len : Nat) (lens : List Nat) (line : Nat) :
    lineStart (len :: lens) (line + 1) = (len + 1) + lineStart lens line := by
  rw [lineStart, List.take_succ_cons, List.map_cons, total_cons]
  rfl

theorem fits_zero {len : Nat} {lens : List Nat} {column : Nat} :
    Fits (len :: lens) 0 column ↔ column ≤ len := by
  simp [Fits]

theorem fits_succ {len : Nat} {lens : List Nat} {line column : Nat} :
    Fits (len :: lens) (line + 1) column ↔ Fits lens line column := by
  simp [Fits]

/-- **The walk ends at the one place that fits.** -/
theorem walk_eq_iff {lens : List Nat} {offset line column : Nat} :
    walk lens offset = (line, column)
      ↔ Fits lens line column ∧ offset = lineStart lens line + column := by
  induction lens generalizing offset line with
  | nil =>
    cases line with
    | zero => simp [walk, Fits, eq_comm]
    | succ line => simp [walk, Fits]
  | cons len lens ih =>
    rw [walk]
    cases line with
    | zero =>
      rw [fits_zero, lineStart_zero, Nat.zero_add]
      split
      · -- a further line is taken, so the walk does not end here
        rename_i hlt
        rw [Prod.mk.injEq]
        omega
      · rename_i hle
        rw [Prod.mk.injEq]
        omega
    | succ line =>
      rw [fits_succ, lineStart_succ]
      split
      · rename_i hlt
        have hrest := @ih (offset - (len + 1)) line
        rw [Prod.ext_iff] at hrest
        rw [Prod.mk.injEq, Nat.add_right_cancel_iff]
        refine hrest.trans (and_congr_right fun _ => ?_)
        omega
      · rename_i hle
        rw [Prod.mk.injEq]
        omega

/-- The walk from an offset ends at a place that fits. -/
theorem fits_walk (lens : List Nat) (offset : Nat) :
    Fits lens (walk lens offset).1 (walk lens offset).2 :=
  (walk_eq_iff.1 rfl).1

/-- The walk loses nothing of the offset. -/
theorem lineStart_walk (lens : List Nat) (offset : Nat) :
    lineStart lens (walk lens offset).1 + (walk lens offset).2 = offset :=
  (walk_eq_iff.1 rfl).2.symm

/-! ## How far the lines reach -/

/-- A line starts no earlier than there are lines before it. -/
theorem le_lineStart {lens : List Nat} {line : Nat} (h : line ≤ lens.length) :
    line ≤ lineStart lens line := by
  induction lens generalizing line with
  | nil =>
    rw [Nat.eq_zero_of_le_zero h]
    exact Nat.zero_le _
  | cons len lens ih =>
    cases line with
    | zero => exact Nat.zero_le _
    | succ line =>
      have := ih (Nat.le_of_succ_le_succ h)
      rw [lineStart_succ]
      omega

/-- A line in front adds itself and its line feed. -/
theorem lengthOf_cons (len : Nat) {lens : List Nat} (h : lens ≠ []) :
    lengthOf (len :: lens) = len + 1 + lengthOf lens := by
  have hpos := List.length_pos_iff.2 h
  rw [lengthOf, lengthOf, total_cons, List.length_cons]
  omega

theorem lengthOf_succ_cons (len : Nat) (lens : List Nat) :
    lengthOf ((len + 1) :: lens) = lengthOf (len :: lens) + 1 := by
  rw [lengthOf, lengthOf, total_cons, total_cons, List.length_cons, List.length_cons]
  omega

/-- The line behind the last one starts behind the text and one more line feed. -/
theorem lineStart_length {lens : List Nat} (h : lens ≠ []) :
    lineStart lens lens.length = lengthOf lens + 1 := by
  induction lens with
  | nil => exact absurd rfl h
  | cons len lens ih =>
    rw [List.length_cons, lineStart_succ]
    by_cases hne : lens = []
    · subst hne
      rfl
    · rw [ih hne, lengthOf_cons len hne, ← Nat.add_assoc]

/-- A text has at most one line more than characters. -/
theorem length_le_textLen (index : LineIndex) :
    index.lineLengths.length ≤ index.textLen + 1 := by
  rw [textLen, ← lineStart_length index.lineLengths_ne_nil]
  exact le_lineStart (Nat.le_refl _)

/-- A line of the text ends inside the text. -/
theorem lineStart_add_le {lens : List Nat} {line len : Nat} (h : lens[line]? = some len) :
    lineStart lens line + len ≤ lengthOf lens := by
  induction lens generalizing line with
  | nil => simp at h
  | cons l lens ih =>
    cases line with
    | zero =>
      obtain rfl : l = len := by simpa using h
      rw [lineStart_zero, lengthOf, total_cons, List.length_cons]
      omega
    | succ line =>
      have hne : lens ≠ [] := by
        rintro rfl
        simp at h
      have := ih (by simpa using h)
      rw [lineStart_succ, lengthOf_cons l hne]
      omega

/-! ## The two directions -/

/-- **An offset lies at a position**: the position counts from one, its column
fits its line, and its line starts as much earlier as the column says. -/
def LiesAt (index : LineIndex) (offset : Nat) (p : Position) : Prop :=
  1 ≤ p.line ∧ 1 ≤ p.column ∧ Fits index.lineLengths (p.line - 1) (p.column - 1)
    ∧ offset = lineStart index.lineLengths (p.line - 1) + (p.column - 1)

theorem addCounts_of_lt {a b : Nat} (h : a + b < wordLimit) : addCounts a b = .ok (a + b) := by
  rw [addCounts, if_pos h]

theorem addCounts_of_le {a b : Nat} (h : wordLimit ≤ a + b) :
    addCounts a b = .error .overflow := by
  rw [addCounts, if_neg (Nat.not_lt.2 h)]

theorem addCounts_eq_ok_iff {a b s : Nat} :
    addCounts a b = .ok s ↔ a + b < wordLimit ∧ a + b = s := by
  by_cases h : a + b < wordLimit
  · rw [addCounts_of_lt h, Except.ok.injEq]
    exact (and_iff_right h).symm
  · rw [addCounts_of_le (Nat.not_lt.1 h)]
    exact ⟨fun h => (nomatch h), fun hlt => absurd hlt.1 h⟩

/-- **Resolving gives where the walk ends**, counted from one, as long as that is
a position of words. -/
theorem resolve_eq_ok_iff_walk {index : LineIndex} {offset : Nat} {p : Position} :
    index.resolve offset = .ok p
      ↔ offset ≤ index.sourceLen ∧ p.line < wordLimit ∧ p.column < wordLimit
        ∧ p = ⟨(walk index.lineLengths offset).1 + 1, (walk index.lineLengths offset).2 + 1⟩ := by
  rw [resolve]
  by_cases hle : offset ≤ index.sourceLen
  · rw [if_pos hle]
    obtain ⟨line, column⟩ := walk index.lineLengths offset
    constructor
    · intro h
      -- neither of the two counts is refused
      obtain ⟨_, hsum, h⟩ := bind_eq_ok_iff.1 h
      obtain ⟨hline, rfl⟩ := addCounts_eq_ok_iff.1 hsum
      obtain ⟨_, hsum, h⟩ := bind_eq_ok_iff.1 h
      obtain ⟨hcolumn, rfl⟩ := addCounts_eq_ok_iff.1 hsum
      cases h
      exact ⟨hle, hline, hcolumn, rfl⟩
    · rintro ⟨-, hline, hcolumn, rfl⟩
      exact bind_eq_ok_iff.2 ⟨_, addCounts_of_lt hline,
        bind_eq_ok_iff.2 ⟨_, addCounts_of_lt hcolumn, rfl⟩⟩
  · rw [if_neg hle]
    exact ⟨fun h => (nomatch h), fun h => absurd h.1 hle⟩

/-- An offset below the greatest word resolves. -/
theorem resolve_of_le {index : LineIndex} {offset : Nat} (h : offset ≤ index.sourceLen)
    (hlimit : offset + 1 < wordLimit) :
    index.resolve offset
      = .ok ⟨(walk index.lineLengths offset).1 + 1, (walk index.lineLengths offset).2 + 1⟩ := by
  have hline := le_lineStart (fits_walk index.lineLengths offset).1
  have hsum := lineStart_walk index.lineLengths offset
  refine resolve_eq_ok_iff_walk.2 ⟨h, ?_, ?_, rfl⟩
  · show _ + 1 < wordLimit
    omega
  · show _ + 1 < wordLimit
    omega

/-- **Every offset of the source resolves**, the greatest word included, if two more than the
length of the text is a word. What a walk ends with is bounded by the text, but for a column
behind a line, which is less than the offset. -/
theorem exists_resolve {index : LineIndex} {offset : Nat} (h : offset ≤ index.sourceLen)
    (htext : index.textLen + 2 < wordLimit) (hsource : index.sourceLen < wordLimit) :
    ∃ p, index.resolve offset = .ok p := by
  obtain ⟨hcount, hfits⟩ := fits_walk index.lineLengths offset
  have hsum := lineStart_walk index.lineLengths offset
  have hlines := index.length_le_textLen
  have hlen : index.textLen = lengthOf index.lineLengths := rfl
  refine ⟨_, resolve_eq_ok_iff_walk.2 ⟨h, ?_, ?_, rfl⟩⟩
  · show _ + 1 < wordLimit
    omega
  · show _ + 1 < wordLimit
    rcases Nat.eq_zero_or_pos (walk index.lineLengths offset).1 with hfirst | hbehind
    · have hget := List.getElem?_eq_getElem (List.length_pos_iff.2 index.lineLengths_ne_nil)
      have hreach := lineStart_add_le hget
      rw [hfirst] at hfits
      have hle := hfits _ hget
      omega
    · have hline := le_lineStart hcount
      omega

/-- **What does not resolve** is an offset past the source. -/
theorem resolve_eq_error_iff {index : LineIndex} {offset : Nat} {e : ContractError}
    (htext : index.textLen + 2 < wordLimit) (hsource : index.sourceLen < wordLimit) :
    index.resolve offset = .error e
      ↔ e = .offsetPastText offset index.sourceLen ∧ index.sourceLen < offset := by
  by_cases h : offset ≤ index.sourceLen
  · obtain ⟨p, hp⟩ := exists_resolve h htext hsource
    rw [hp]
    exact ⟨fun h => (nomatch h), fun hpast => absurd hpast.2 (Nat.not_lt.2 h)⟩
  · rw [resolve, if_neg h, Except.error.injEq, eq_comm]
    exact (and_iff_left (Nat.not_le.1 h)).symm

/-- A resolved offset lies at its position. -/
theorem liesAt_of_resolve {index : LineIndex} {offset : Nat} {p : Position}
    (h : index.resolve offset = .ok p) : offset ≤ index.sourceLen ∧ index.LiesAt offset p := by
  obtain ⟨hle, -, -, rfl⟩ := resolve_eq_ok_iff_walk.1 h
  exact ⟨hle, Nat.le_add_left _ _, Nat.le_add_left _ _, fits_walk _ _, (lineStart_walk _ _).symm⟩

/-- **What resolving gives**: the position the offset lies at. -/
theorem resolve_eq_ok_iff {index : LineIndex} {offset : Nat} {p : Position}
    (hlimit : offset + 1 < wordLimit) :
    index.resolve offset = .ok p ↔ offset ≤ index.sourceLen ∧ index.LiesAt offset p := by
  refine ⟨liesAt_of_resolve, ?_⟩
  rintro ⟨hle, hline, hcolumn, hplace⟩
  rw [resolve_of_le hle hlimit, walk_eq_iff.2 hplace]
  show Except.ok (⟨p.line - 1 + 1, p.column - 1 + 1⟩ : Position) = .ok p
  rw [Nat.sub_add_cancel hline, Nat.sub_add_cancel hcolumn]

/-- A resolved position counts from one. -/
theorem one_le_of_resolve {index : LineIndex} {offset : Nat} {p : Position}
    (h : index.resolve offset = .ok p) : 1 ≤ p.line ∧ 1 ≤ p.column := by
  obtain ⟨-, -, -, rfl⟩ := resolve_eq_ok_iff_walk.1 h
  exact ⟨Nat.le_add_left _ _, Nat.le_add_left _ _⟩

/-- Resolving looks at the lines, and at the source for its end alone. -/
theorem resolve_congr {a b : LineIndex} (hlines : a.lineLengths = b.lineLengths)
    {offset : Nat} (ha : offset ≤ a.sourceLen) (hb : offset ≤ b.sourceLen) :
    a.resolve offset = b.resolve offset := by
  unfold resolve
  rw [if_pos ha, if_pos hb, hlines]

/-- **No two offsets resolve to one position.** -/
theorem resolve_inj {index : LineIndex} {a b : Nat} {p : Position}
    (ha : index.resolve a = .ok p) (hb : index.resolve b = .ok p) : a = b := by
  obtain ⟨-, -, -, rfl⟩ := resolve_eq_ok_iff_walk.1 ha
  obtain ⟨-, -, -, heq⟩ := resolve_eq_ok_iff_walk.1 hb
  rw [Position.mk.injEq, Nat.add_right_cancel_iff, Nat.add_right_cancel_iff] at heq
  rw [← lineStart_walk index.lineLengths a, heq.1, heq.2, lineStart_walk]

/-- **A position is a place of the lines**: it counts from one, and its column fits its line. -/
def IsPlace (index : LineIndex) (p : Position) : Prop :=
  1 ≤ p.line ∧ 1 ≤ p.column ∧ Fits index.lineLengths (p.line - 1) (p.column - 1)

/-- **The way back refuses what is no place of the lines**, whatever the source. -/
theorem offsetOf_of_not_isPlace {index : LineIndex} {p : Position} (h : ¬ index.IsPlace p) :
    index.offsetOf p = .ok none := by
  rw [offsetOf]
  by_cases hzero : p.line = 0 ∨ p.column = 0
  · rw [if_pos hzero]
  rw [if_neg hzero]
  by_cases hcolumn : (index.lineLen? (p.line - 1)).any (fun len => len + 1 < p.column) = true
  · rw [if_pos hcolumn]
  rw [if_neg hcolumn]
  by_cases hline : index.lineCount < p.line - 1
  · rw [if_pos hline]
  -- a position that passes all three checks is a place
  refine absurd ⟨by omega, by omega, Nat.not_lt.1 hline, fun len hlen => ?_⟩ h
  have hnot : ¬ len + 1 < p.column := fun hlt =>
    hcolumn ((Option.any_eq_true _ _).2 ⟨len, hlen, decide_eq_true hlt⟩)
  omega

/-- **For a place of the lines the way back adds up what lies before it**, and looks at the
source last. -/
theorem offsetOf_of_isPlace {index : LineIndex} {p : Position} (h : index.IsPlace p) :
    index.offsetOf p = (do
      let past ← addCounts (lineStart index.lineLengths (p.line - 1)) p.column
      return if past - 1 ≤ index.sourceLen then some (past - 1) else none) := by
  obtain ⟨hline, hcolumn, hcount, hfits⟩ := h
  have hzero : ¬ (p.line = 0 ∨ p.column = 0) := by omega
  have hany : ¬ (index.lineLen? (p.line - 1)).any (fun len => len + 1 < p.column) = true := by
    intro hany
    obtain ⟨len, hlen, hlt⟩ := (Option.any_eq_true _ _).1 hany
    have := hfits len hlen
    have := of_decide_eq_true hlt
    omega
  have hline : ¬ index.lineCount < p.line - 1 := Nat.not_lt.2 hcount
  rw [offsetOf, if_neg hzero, if_neg hany, if_neg hline]
  rfl

/-- Where the sum is a word, the way back ends with the place before it or with nothing. -/
theorem offsetOf_of_lt {index : LineIndex} {p : Position} (h : index.IsPlace p)
    (hsum : lineStart index.lineLengths (p.line - 1) + p.column < wordLimit) :
    index.offsetOf p
      = .ok (if lineStart index.lineLengths (p.line - 1) + p.column - 1 ≤ index.sourceLen
          then some (lineStart index.lineLengths (p.line - 1) + p.column - 1) else none) := by
  rw [offsetOf_of_isPlace h, addCounts_of_lt hsum]
  rfl

/-- Where the sum is no word, the way back does not end with an outcome. -/
theorem offsetOf_of_le {index : LineIndex} {p : Position} (h : index.IsPlace p)
    (hsum : wordLimit ≤ lineStart index.lineLengths (p.line - 1) + p.column) :
    index.offsetOf p = .error .overflow := by
  rw [offsetOf_of_isPlace h, addCounts_of_le hsum]
  rfl

/-- **What the way back gives**: the offset that lies at the position. -/
theorem offsetOf_eq_some_iff {index : LineIndex} {offset : Nat} {p : Position}
    (hlimit : index.sourceLen + 1 < wordLimit) :
    index.offsetOf p = .ok (some offset)
      ↔ offset ≤ index.sourceLen ∧ index.LiesAt offset p := by
  by_cases hplace : index.IsPlace p
  · obtain ⟨hline, hcolumn, hfits⟩ := hplace
    rw [LiesAt]
    by_cases hsum : lineStart index.lineLengths (p.line - 1) + p.column < wordLimit
    · rw [offsetOf_of_lt ⟨hline, hcolumn, hfits⟩ hsum, Except.ok.injEq]
      split
      · rw [Option.some.injEq]
        exact ⟨fun h => ⟨by omega, hline, hcolumn, hfits, by omega⟩,
          fun ⟨_, _, _, _, h⟩ => by omega⟩
      · exact ⟨fun h => (nomatch h), fun ⟨_, _, _, _, h⟩ => by omega⟩
    · -- a sum that leaves the range of a word is past the source
      rw [offsetOf_of_le ⟨hline, hcolumn, hfits⟩ (Nat.not_lt.1 hsum)]
      exact ⟨fun h => (nomatch h), fun ⟨_, _, _, _, h⟩ => by omega⟩
  · rw [offsetOf_of_not_isPlace hplace]
    exact ⟨fun h => (nomatch h),
      fun ⟨_, hline, hcolumn, hfits, _⟩ => absurd ⟨hline, hcolumn, hfits⟩ hplace⟩

/-- **The way back undoes resolving, and only that.** -/
theorem offsetOf_eq_some_iff_resolve {index : LineIndex} {offset : Nat} {p : Position}
    (hlimit : index.sourceLen + 1 < wordLimit) (hle : offset ≤ index.sourceLen) :
    index.offsetOf p = .ok (some offset) ↔ index.resolve offset = .ok p := by
  rw [offsetOf_eq_some_iff hlimit, resolve_eq_ok_iff (by omega)]

/-! ## The positions that have an offset -/

/-- Some offset of the source lies at a position exactly if the position is on a
line of the text, at most one past its end, or on the line behind the last,
no further than the source goes on. -/
theorem exists_liesAt_iff {index : LineIndex} {p : Position} :
    (∃ offset ≤ index.sourceLen, index.LiesAt offset p)
      ↔ (1 ≤ p.line ∧ 1 ≤ p.column
          ∧ ∃ len, index.lineLen? (p.line - 1) = some len ∧ p.column ≤ len + 1)
        ∨ (p.line = index.lineCount + 1 ∧ 1 ≤ p.column
          ∧ p.column ≤ index.sourceLen - index.textLen) := by
  have hlen := index.lengthOf_le
  have hend := lineStart_length index.lineLengths_ne_nil
  show _ ↔ (_ ∧ _ ∧ ∃ len, index.lineLengths[p.line - 1]? = some len ∧ _)
    ∨ (p.line = index.lineLengths.length + 1 ∧ _
      ∧ p.column ≤ index.sourceLen - lengthOf index.lineLengths)
  constructor
  · rintro ⟨offset, hle, hline, hcolumn, ⟨hcount, hfits⟩, hsum⟩
    cases hget : index.lineLengths[p.line - 1]? with
    | some len =>
      have := hfits len hget
      exact .inl ⟨hline, hcolumn, len, rfl, by omega⟩
    | none =>
      -- only the line behind the last one has no length
      have hlast : p.line - 1 = index.lineLengths.length :=
        Nat.le_antisymm hcount (List.getElem?_eq_none_iff.1 hget)
      rw [hlast, hend] at hsum
      exact .inr ⟨by omega, hcolumn, by omega⟩
  · rintro (⟨hline, hcolumn, len, hget, hle⟩ | ⟨hline, hcolumn, hle⟩)
    · have hin := lineStart_add_le hget
      obtain ⟨hlt, -⟩ := List.getElem?_eq_some_iff.1 hget
      refine ⟨_, ?_, hline, hcolumn, ⟨Nat.le_of_lt hlt, fun l hl => ?_⟩, rfl⟩
      · omega
      · obtain rfl : len = l := Option.some.inj (hget.symm.trans hl)
        omega
    · have hlast : p.line - 1 = index.lineLengths.length := by omega
      refine ⟨_, ?_, by omega, hcolumn, ⟨Nat.le_of_eq hlast, fun l hl => ?_⟩, rfl⟩
      · rw [hlast, hend]
        omega
      · rw [hlast, List.getElem?_eq_none (Nat.le_refl _)] at hl
        cases hl

/-- **Resolving and the way back are inverse to each other**, and the positions
that have an offset are exactly those on a line of the text, at most one past
its end, and those on the line behind the last, no further than the source
goes on. -/
theorem offsetOf_resolve_inverse (index : LineIndex) (hlimit : index.sourceLen + 1 < wordLimit) :
    (∀ offset ≤ index.sourceLen,
      ∃ p, index.resolve offset = .ok p ∧ index.offsetOf p = .ok (some offset))
    ∧ (∀ p offset, index.offsetOf p = .ok (some offset) →
        offset ≤ index.sourceLen ∧ index.resolve offset = .ok p)
    ∧ ∀ p, (∃ offset, index.offsetOf p = .ok (some offset))
        ↔ (1 ≤ p.line ∧ 1 ≤ p.column
            ∧ ∃ len, index.lineLen? (p.line - 1) = some len ∧ p.column ≤ len + 1)
          ∨ (p.line = index.lineCount + 1 ∧ 1 ≤ p.column
            ∧ p.column ≤ index.sourceLen - index.textLen) := by
  refine ⟨fun offset hle => ?_, fun p offset h => ?_, fun p => ?_⟩
  · have h := resolve_of_le hle (show offset + 1 < wordLimit by omega)
    exact ⟨_, h, (offsetOf_eq_some_iff_resolve hlimit hle).2 h⟩
  · have hle := ((offsetOf_eq_some_iff hlimit).1 h).1
    exact ⟨hle, (offsetOf_eq_some_iff_resolve hlimit hle).1 h⟩
  · rw [← exists_liesAt_iff]
    exact exists_congr fun offset => offsetOf_eq_some_iff hlimit

/-- The last offset of a source that goes on behind its text. -/
theorem offsetOf_resolve_inverse_tail :
    ∃ index, withSourceLen "ab\n" 5 = .ok index ∧ index.sourceLen + 1 < wordLimit
      ∧ (∃ p, index.resolve 5 = .ok p ∧ index.offsetOf p = .ok (some 5))
      ∧ ∃ offset, index.offsetOf ⟨3, 2⟩ = .ok (some offset) := by
  refine ⟨_, rfl, by decide, ?_⟩
  obtain ⟨hforward, -, himage⟩ := offsetOf_resolve_inverse (.mk [2, 0] 5 (by decide) (by decide))
    (by decide)
  exact ⟨hforward 5 (by decide), (himage ⟨3, 2⟩).2 (.inr ⟨rfl, by decide, by decide⟩)⟩

/-! ## Sums that are no words -/

/-- On a line of the text the sum stays a word, if the text is shorter than the greatest word. -/
theorem lineStart_add_lt {index : LineIndex} (htext : index.textLen + 1 < wordLimit)
    {p : Position} (h : index.IsPlace p) (hline : p.line ≠ index.lineCount + 1) :
    lineStart index.lineLengths (p.line - 1) + p.column < wordLimit := by
  obtain ⟨hfirst, hcolumn, hcount, hfits⟩ := h
  have hlt : p.line - 1 < index.lineLengths.length := by
    have : p.line ≠ index.lineLengths.length + 1 := hline
    omega
  have hget := List.getElem?_eq_getElem hlt
  have hreach := lineStart_add_le hget
  have hle := hfits _ hget
  have hlen : lengthOf index.lineLengths + 1 < wordLimit := htext
  omega

/-- The line behind the last one starts behind the text and one more line feed. -/
theorem lineStart_behind {index : LineIndex} {p : Position} (h : p.line = index.lineCount + 1) :
    lineStart index.lineLengths (p.line - 1) = index.textLen + 1 := by
  rw [h, Nat.add_sub_cancel]
  exact lineStart_length index.lineLengths_ne_nil

/-- Every column fits the line behind the last one. -/
theorem isPlace_behind {index : LineIndex} {p : Position} (h : p.line = index.lineCount + 1)
    (hcolumn : 1 ≤ p.column) : index.IsPlace p := by
  have hnone : index.lineLengths[index.lineCount]? = none :=
    List.getElem?_eq_none (Nat.le_refl _)
  refine ⟨by omega, hcolumn, ?_, fun len hlen => ?_⟩
  · rw [h]
    exact Nat.le_refl _
  · rw [h, Nat.add_sub_cancel, hnone] at hlen
    cases hlen

/-- **The positions without an outcome** are those on the line behind the last one whose sum is
no word. -/
theorem offsetOf_eq_error_iff {index : LineIndex} (htext : index.textLen + 1 < wordLimit)
    {p : Position} {e : ContractError} :
    index.offsetOf p = .error e
      ↔ e = .overflow ∧ p.line = index.lineCount + 1
        ∧ wordLimit ≤ index.textLen + 1 + p.column := by
  constructor
  · intro h
    by_cases hplace : index.IsPlace p
    · by_cases hsum : lineStart index.lineLengths (p.line - 1) + p.column < wordLimit
      · rw [offsetOf_of_lt hplace hsum] at h
        cases h
      · rw [offsetOf_of_le hplace (Nat.not_lt.1 hsum)] at h
        cases h
        have hline : p.line = index.lineCount + 1 :=
          Decidable.byContradiction fun hne => hsum (lineStart_add_lt htext hplace hne)
        rw [lineStart_behind hline] at hsum
        exact ⟨rfl, hline, Nat.not_lt.1 hsum⟩
    · rw [offsetOf_of_not_isPlace hplace] at h
      cases h
  · rintro ⟨rfl, hline, hle⟩
    refine offsetOf_of_le (isPlace_behind hline (by omega)) ?_
    rw [lineStart_behind hline]
    exact hle

/-- **What is refused is what nothing is resolved to**, where there is an outcome. The source
may be as long as the greatest word. -/
theorem offsetOf_eq_none_iff {index : LineIndex} {p : Position} {offset? : Option Nat}
    (h : index.offsetOf p = .ok offset?) :
    offset? = none ↔ ∀ offset ≤ index.sourceLen, index.resolve offset ≠ .ok p := by
  by_cases hplace : index.IsPlace p
  · by_cases hsum : lineStart index.lineLengths (p.line - 1) + p.column < wordLimit
    · rw [offsetOf_of_lt hplace hsum, Except.ok.injEq] at h
      obtain ⟨hline, hcolumn, hfits⟩ := hplace
      subst h
      split
      · rename_i hle
        -- the offset in question is the place before the sum
        refine ⟨fun h => (nomatch h), fun h => absurd ?_ (h _ hle)⟩
        exact (resolve_eq_ok_iff (by omega)).2 ⟨hle, hline, hcolumn, hfits, by omega⟩
      · rename_i hgt
        refine ⟨fun _ offset hle hresolve => ?_, fun _ => rfl⟩
        obtain ⟨-, -, -, -, heq⟩ := liesAt_of_resolve hresolve
        omega
    · rw [offsetOf_of_le hplace (Nat.not_lt.1 hsum)] at h
      cases h
  · rw [offsetOf_of_not_isPlace hplace] at h
    cases h
    refine ⟨fun _ offset _ hresolve => ?_, fun _ => rfl⟩
    obtain ⟨-, hline, hcolumn, hfits, -⟩ := liesAt_of_resolve hresolve
    exact hplace ⟨hline, hcolumn, hfits⟩

/-- **The way back has an outcome for every position but those on the line behind the last
whose sum is no word.** Wherever it has one, it gives nothing exactly for the positions that
no offset of the source resolves to. The source may be as long as the greatest word. -/
theorem offsetOf_total_but_overflow (index : LineIndex) (htext : index.textLen + 1 < wordLimit)
    (p : Position) :
    (∀ e, index.offsetOf p = .error e
      ↔ e = .overflow ∧ p.line = index.lineCount + 1
        ∧ wordLimit ≤ index.textLen + 1 + p.column)
    ∧ ((∃ offset?, index.offsetOf p = .ok offset?) →
      (index.offsetOf p = .ok none
        ↔ ∀ offset ≤ index.sourceLen, index.resolve offset ≠ .ok p)) := by
  refine ⟨fun e => offsetOf_eq_error_iff htext, fun ⟨offset?, h⟩ => ?_⟩
  rw [← offsetOf_eq_none_iff h, h, Except.ok.injEq]

/-- A source of the greatest length, behind an empty text: the last column that is refused as
past the source, and the one that is resolved to and yet has no outcome. -/
theorem offsetOf_total_but_overflow_greatest :
    ∃ index, withSourceLen "" (wordLimit - 1) = .ok index
      ∧ index.textLen + 1 < wordLimit
      ∧ index.offsetOf ⟨3, wordLimit - 1⟩ = .ok none
      ∧ index.offsetOf ⟨2, wordLimit - 1⟩ = .error .overflow := by
  refine ⟨_, rfl, by decide, rfl, ?_⟩
  obtain ⟨herror, -⟩ := offsetOf_total_but_overflow
    (.mk [0] (wordLimit - 1) (by decide) (by decide)) (by decide) ⟨2, wordLimit - 1⟩
  exact (herror _).2 ⟨rfl, rfl, by decide⟩

/-- **A position that nothing resolves to need not be refused**: on the line behind an empty
text, the greatest column leaves the range of a word. -/
theorem offsetOf_overflows :
    ∃ index, withSourceLen "" 0 = .ok index
      ∧ (∀ offset ≤ index.sourceLen, index.resolve offset ≠ .ok ⟨2, wordLimit - 1⟩)
      ∧ 2 < wordLimit ∧ wordLimit - 1 < wordLimit
      ∧ index.offsetOf ⟨2, wordLimit - 1⟩ = .error .overflow := by
  refine ⟨.mk [0] 0 (by decide) (by decide), rfl, fun offset hle h => ?_, by decide, by decide, ?_⟩
  · obtain ⟨-, -, -, heq⟩ := resolve_eq_ok_iff_walk.1 h
    rw [Nat.le_zero.1 hle] at heq
    exact absurd (congrArg Position.line heq) (by decide)
  · exact offsetOf_of_le ⟨by decide, by decide, by decide, nofun⟩ (by decide)

end Caret.LineIndex
