import Caret.Proofs.Location
import Caret.Proofs.Outcomes

/-!
# Only offsets past an end are outside a contract

Three functions on the way to a position have a contract: the source of an index must
not be shorter than its text, an offset that is resolved must not be past the source,
and an offset in a query must not be past the query. Behind them are sums and
differences of counts, which must be words. That the contracts are exactly these
bounds, and that the sums and differences ask for nothing more, is said here.

An index resolves with plain counts but for its last two sums. What would become of it
if every step were taken in words is `LineIndex.resolveInWords`, and it is the same
(`LineIndex.resolveInWords_eq`): a line is taken off an offset that exceeds it, so that
the difference is a count, and the line with its line feed is no more than the offset,
which is a word.

A formatter never meets the inner two contracts. The normalized form is no longer than
the query, whatever the terminators, so the query can be its source; and an offset that
is not past the query is not past that source.
-/

namespace Caret

theorem subCounts_of_le {a b : Nat} (h : b ≤ a) : subCounts a b = .ok (a - b) := if_pos h

namespace LineIndex

/-! ## The search in words -/

/-- **The walk in words**: like `walk`, with `line` lines taken before, and every count on the way
formed as a word. -/
def walkInWords : List Nat → Nat → Nat → Except ContractError (Nat × Nat)
  | [], line, offset => .ok (line, offset)
  | len :: lens, line, offset =>
    if len < offset then do
      let taken ← addCounts len 1
      let rest ← subCounts offset taken
      let line ← addCounts line 1
      walkInWords lens line rest
    else .ok (line, offset)

/-- **Resolving in words.** -/
def resolveInWords (index : LineIndex) (offset : Nat) : Except ContractError Position :=
  if offset ≤ index.sourceLen then do
    let (line, column) ← walkInWords index.lineLengths 0 offset
    let line ← addCounts line 1
    let column ← addCounts column 1
    return ⟨line, column⟩
  else .error (.offsetPastText offset index.sourceLen)

/-- **The length of a text by its lines, in words.** -/
def lengthInWords (lens : List Nat) : Except ContractError Nat := do
  let sum ← lens.foldlM addCounts 0
  let past ← addCounts sum lens.length
  subCounts past 1

/-- **No count on a walk leaves the range of a word**, from an offset that is a word. -/
theorem walkInWords_eq_ok {lens : List Nat} {line offset : Nat} (hoffset : offset < wordLimit)
    (hline : line + lens.length < wordLimit) :
    walkInWords lens line offset = .ok (line + (walk lens offset).1, (walk lens offset).2) := by
  induction lens generalizing line offset with
  | nil => rfl
  | cons len lens ih =>
    rw [List.length_cons] at hline
    rw [walkInWords, walk]
    split
    · rename_i hlt
      have hrest := @ih (line + 1) (offset - (len + 1)) (by omega) (by omega)
      rw [addCounts_of_lt (Nat.lt_of_le_of_lt hlt hoffset)]
      show (subCounts offset (len + 1) >>= _) = _
      rw [subCounts_of_le hlt]
      show (addCounts line 1 >>= _) = _
      rw [addCounts_of_lt (by omega)]
      show walkInWords lens (line + 1) (offset - (len + 1)) = _
      rw [hrest, Nat.add_assoc, Nat.add_comm 1]
    · rfl

/-- **Resolving in words is resolving.** -/
theorem resolveInWords_eq {index : LineIndex} (htext : index.textLen + 2 < wordLimit)
    (hsource : index.sourceLen < wordLimit) (offset : Nat) :
    index.resolveInWords offset = index.resolve offset := by
  unfold resolveInWords resolve
  split
  · rename_i hle
    have hlines := index.length_le_textLen
    rw [walkInWords_eq_ok (Nat.lt_of_le_of_lt hle hsource) (by omega), Nat.zero_add]
    rfl
  · rfl

theorem foldlM_addCounts {lens : List Nat} {sum : Nat} (h : sum + total lens < wordLimit) :
    lens.foldlM addCounts sum = .ok (sum + total lens) := by
  induction lens generalizing sum with
  | nil => rfl
  | cons len lens ih =>
    rw [total_cons, ← Nat.add_assoc] at h ⊢
    rw [List.foldlM_cons, addCounts_of_lt (Nat.lt_of_le_of_lt (Nat.le_add_right _ _) h)]
    exact ih h

/-- **The length of a text is a word** if one more than it is. -/
theorem lengthInWords_eq_ok {lens : List Nat} (hne : lens ≠ [])
    (h : lengthOf lens + 1 < wordLimit) : lengthInWords lens = .ok (lengthOf lens) := by
  have hpos := List.length_pos_iff.2 hne
  have hsum : total lens + lens.length < wordLimit := by
    rw [lengthOf] at h
    omega
  unfold lengthInWords
  rw [foldlM_addCounts (by omega), Nat.zero_add]
  show (addCounts (total lens) lens.length >>= _) = _
  rw [addCounts_of_lt hsum]
  exact subCounts_of_le (by omega)

/-! ## The contracts of indices -/

/-- **A text has an index** for every source but those that are shorter. -/
theorem withSourceLen_eq_error_iff {text : String} {sourceLen : Nat} {e : ContractError} :
    withSourceLen text sourceLen = .error e
      ↔ e = .sourceTooShort sourceLen text.length ∧ sourceLen < text.length := by
  by_cases h : text.length ≤ sourceLen
  · obtain ⟨index, hindex, -⟩ := withSourceLen_of_le h
    rw [hindex]
    exact ⟨fun h => (nomatch h), fun hshort => absurd hshort.2 (Nat.not_lt.2 h)⟩
  · rw [withSourceLen, dif_neg (by rwa [textLen_ofText]), textLen_ofText, Except.error.injEq,
      eq_comm]
    exact (and_iff_left (Nat.not_le.1 h)).symm

/-- The index of a text has the length of the text, and the source that it is given. -/
theorem of_withSourceLen {text : String} {sourceLen : Nat} {index : LineIndex}
    (h : withSourceLen text sourceLen = .ok index) :
    index.textLen = text.length ∧ index.sourceLen = sourceLen := by
  rw [withSourceLen] at h
  split at h
  · cases h
    exact ⟨textLen_ofText text, rfl⟩
  · cases h

end LineIndex

/-! ## The contract of formatters -/

/-- **An error is made for every occurrence** but those whose offset is past the query. -/
theorem Formatter.error_eq_error_iff {f : Formatter} {o : Occurrence} {description : String}
    {cause : Option Cause} {e : ContractError} (hlimit : o.query.length + 1 < wordLimit) :
    f.error o description cause = .error e
      ↔ ∃ offset, o.offset = some offset ∧ o.query.length < offset
        ∧ e = .offsetPastQuery offset o.query.length := by
  by_cases hinside : ∀ n ∈ o.offset, n ≤ o.query.length
  · obtain ⟨error, herror⟩ := f.exists_error o.label description cause hinside hlimit
    rw [show o = ⟨o.query, o.offset, o.label⟩ from rfl, herror]
    refine ⟨fun h => (nomatch h), ?_⟩
    rintro ⟨offset, hoffset, hpast, -⟩
    exact absurd (hinside offset hoffset) (Nat.not_le.2 hpast)
  · simp only [not_forall, not_le] at hinside
    obtain ⟨offset, hoffset, hpast⟩ := hinside
    have herror : f.error o description cause
        = .error (.offsetPastQuery offset o.query.length) := by
      rw [error, show o.offset = some offset from hoffset, Option.mapM_some, position,
        if_neg (Nat.not_le.2 hpast)]
      rfl
    rw [herror, Except.error.injEq]
    constructor
    · rintro rfl
      exact ⟨offset, hoffset, hpast, rfl⟩
    · rintro ⟨other, hother, -, rfl⟩
      rw [Option.some.inj (hother.symm.trans hoffset)]

/-- **Exactly what is past an end is outside a contract.** An index is refused for a source that
is shorter than the text, and for nothing else. An index resolves all offsets up to the end of
its source, the greatest word included, and no others, and does so without a count that leaves
the range of a word. An error is made for every occurrence whose offset, if there is one, is not
past the end of its query; so the contracts of the index that it is located by are always met. -/
theorem outside_contract_iff :
    (∀ (text : String) (sourceLen : Nat), text.length + 2 < wordLimit →
      LineIndex.lengthInWords (LineIndex.ofText text).lineLengths = .ok text.length
      ∧ (∀ e, LineIndex.withSourceLen text sourceLen = .error e
          ↔ e = .sourceTooShort sourceLen text.length ∧ sourceLen < text.length)
      ∧ ∀ index, LineIndex.withSourceLen text sourceLen = .ok index → sourceLen < wordLimit →
          ∀ offset,
            index.resolveInWords offset = index.resolve offset
            ∧ ∀ e, index.resolve offset = .error e
              ↔ e = .offsetPastText offset sourceLen ∧ sourceLen < offset)
    ∧ ∀ (f : Formatter) (o : Occurrence) (description : String) (cause : Option Cause),
        o.query.length + 2 < wordLimit →
        ∀ e, f.error o description cause = .error e
          ↔ ∃ offset, o.offset = some offset ∧ o.query.length < offset
            ∧ e = .offsetPastQuery offset o.query.length := by
  constructor
  · intro text sourceLen htext
    refine ⟨?_, fun e => LineIndex.withSourceLen_eq_error_iff,
      fun index hindex hsource offset => ?_⟩
    · have hlength : LineIndex.lengthOf (LineIndex.ofText text).lineLengths = text.length :=
        LineIndex.textLen_ofText text
      rw [LineIndex.lengthInWords_eq_ok (LineIndex.ofText text).lineLengths_ne_nil (by omega),
        hlength]
    · obtain ⟨hlength, rfl⟩ := LineIndex.of_withSourceLen hindex
      rw [← hlength] at htext
      exact ⟨LineIndex.resolveInWords_eq htext hsource offset,
        fun e => LineIndex.resolve_eq_error_iff htext hsource⟩
  · intro f o description cause hlimit e
    exact Formatter.error_eq_error_iff (Nat.lt_of_succ_lt hlimit)

/-- A source as long as the greatest word, resolved at its end; a source that is shorter than its
text, and one that is resolved past its end; and a query that ends in letters which are
terminators, at its end and past it. -/
theorem outside_contract_iff_greatest :
    let f : Formatter := { terminators := .ofList ['x'] }
    (∃ index, LineIndex.withSourceLen "a\n" (wordLimit - 1) = .ok index
        ∧ ∀ e, index.resolve (wordLimit - 1) ≠ .error e)
      ∧ LineIndex.withSourceLen "a\n" 1 = .error (.sourceTooShort 1 2)
      ∧ (∃ index, LineIndex.withSourceLen "a\n" 3 = .ok index
        ∧ index.resolve 4 = .error (.offsetPastText 4 3))
      ∧ (∀ e, f.error ⟨"axx", some 3, none⟩ "unexpected end" none ≠ .error e)
      ∧ f.error ⟨"axx", some 4, none⟩ "unexpected end" none = .error (.offsetPastQuery 4 3) := by
  intro f
  obtain ⟨hindex, herror⟩ := outside_contract_iff
  refine ⟨⟨_, rfl, fun e h => ?_⟩, ?_, ⟨_, rfl, ?_⟩, fun e h => ?_, ?_⟩
  · obtain ⟨-, -, hresolve⟩ := hindex "a\n" (wordLimit - 1) (by decide)
    exact absurd (((hresolve _ rfl (by decide) _).2 e).1 h).2 (by decide)
  · obtain ⟨-, hsource, -⟩ := hindex "a\n" 1 (by decide)
    exact (hsource _).2 ⟨rfl, by decide⟩
  · obtain ⟨-, -, hresolve⟩ := hindex "a\n" 3 (by decide)
    exact ((hresolve _ rfl (by decide) _).2 _).2 ⟨rfl, by decide⟩
  · obtain ⟨offset, hoffset, hpast, -⟩ :=
      (herror f ⟨"axx", some 3, none⟩ "unexpected end" none (by decide) e).1 h
    cases hoffset
    exact absurd hpast (by decide)
  · exact (herror f ⟨"axx", some 4, none⟩ "unexpected end" none (by decide) _).2
      ⟨4, rfl, by decide, rfl⟩

end Caret
