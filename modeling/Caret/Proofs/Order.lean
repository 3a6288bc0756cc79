import Caret.Proofs.Offsets

/-!
# Later offsets have later positions

A position is read line first, and an index resolves an offset without a look at
any other offset. That of two offsets the later one has the later position is
therefore a statement about two walks, which may end on different lines, on the
same one, or behind the last.

It is read off where lines start. What is on a line lies before the start of
every further line (`lineStart_add_lt_of_fits`), so the walk from the later
offset cannot have ended on an earlier line, and on one line the columns count
what the offsets count.
-/

namespace Caret

/-- **The order of positions**: by lines, and on one line by columns. -/
theorem Position.compare_eq_lt_iff {p q : Position} :
    Ord.compare p q = .lt ↔ p.line < q.line ∨ p.line = q.line ∧ p.column < q.column := by
  show (Ord.compare p.line q.line).then (Ord.compare p.column q.column) = .lt ↔ _
  rw [Ordering.then_eq_lt, Nat.compare_eq_lt, Nat.compare_eq_eq, Nat.compare_eq_lt]

namespace LineIndex

/-- **What is on a line lies before the start of every further line.** -/
theorem lineStart_add_lt_of_fits {lens : List Nat} {line column next : Nat}
    (hfits : Fits lens line column) (hlt : line < next) (hnext : next ≤ lens.length) :
    lineStart lens line + column < lineStart lens next := by
  induction lens generalizing line next with
  | nil => exact absurd (Nat.lt_of_lt_of_le hlt hnext) (Nat.not_lt_zero line)
  | cons len lens ih =>
    obtain ⟨next, rfl⟩ := Nat.exists_eq_add_of_lt (Nat.lt_of_le_of_lt (Nat.zero_le line) hlt)
    rw [Nat.zero_add] at hlt hnext ⊢
    rw [lineStart_succ]
    cases line with
    | zero =>
      have hle := fits_zero.1 hfits
      rw [lineStart_zero]
      omega
    | succ line =>
      have := ih (fits_succ.1 hfits) (Nat.lt_of_succ_lt_succ hlt) (Nat.le_of_succ_le_succ hnext)
      rw [lineStart_succ]
      omega

/-- **The walk from a later offset ends later**: on a further line, or further on the same. -/
theorem walk_lt_walk (lens : List Nat) {a b : Nat} (h : a < b) :
    (walk lens a).1 < (walk lens b).1
      ∨ (walk lens a).1 = (walk lens b).1 ∧ (walk lens a).2 < (walk lens b).2 := by
  have ha := lineStart_walk lens a
  have hb := lineStart_walk lens b
  rcases Nat.lt_trichotomy (walk lens a).1 (walk lens b).1 with hlt | heq | hgt
  · exact .inl hlt
  · rw [heq] at ha
    exact .inr ⟨heq, by omega⟩
  · -- the later offset would be on a line that ends before the earlier one
    have hfits := fits_walk lens b
    have := lineStart_add_lt_of_fits hfits hgt (fits_walk lens a).1
    omega

/-- **Later offsets have later positions.** Of two offsets of the source, whatever the text and
however far the source goes on behind it, both resolve, and the position of the later one is on a
further line, or further on the same line. -/
theorem resolve_strictMono (index : LineIndex) {a b : Nat} (hlt : a < b)
    (hle : b ≤ index.sourceLen) :
    (index.textLen + 2 < wordLimit → index.sourceLen < wordLimit →
      ∃ p q, index.resolve a = .ok p ∧ index.resolve b = .ok q)
    ∧ ∀ p q, index.resolve a = .ok p → index.resolve b = .ok q → compare p q = .lt := by
  constructor
  · intro htext hsource
    obtain ⟨p, hp⟩ := exists_resolve (Nat.le_of_lt (Nat.lt_of_lt_of_le hlt hle)) htext hsource
    obtain ⟨q, hq⟩ := exists_resolve hle htext hsource
    exact ⟨p, q, hp, hq⟩
  · intro p q hp hq
    obtain ⟨-, -, -, rfl⟩ := resolve_eq_ok_iff_walk.1 hp
    obtain ⟨-, -, -, rfl⟩ := resolve_eq_ok_iff_walk.1 hq
    rw [Position.compare_eq_lt_iff]
    show _ + 1 < _ + 1 ∨ _ + 1 = _ + 1 ∧ _ + 1 < _ + 1
    simpa only [Nat.add_lt_add_iff_right, Nat.add_right_cancel_iff]
      using walk_lt_walk index.lineLengths hlt

/-- From the line feed at the end of an empty line into the tail behind the text, where the
source is as long as the greatest word. -/
theorem resolve_strictMono_tail :
    ∃ index, withSourceLen "a\n\nb" (wordLimit - 1) = .ok index ∧ index.textLen + 2 < wordLimit
      ∧ index.sourceLen < wordLimit
      ∧ ∃ p q, index.resolve 2 = .ok p ∧ index.resolve (wordLimit - 1) = .ok q
        ∧ compare p q = .lt := by
  refine ⟨_, rfl, by decide, by decide, ?_⟩
  obtain ⟨hexists, hlt⟩ := resolve_strictMono
    (.mk [1, 0, 1] (wordLimit - 1) (by decide) (by decide)) (show 2 < wordLimit - 1 by decide)
    (Nat.le_refl _)
  obtain ⟨p, q, hp, hq⟩ := hexists (by decide) (by decide)
  exact ⟨p, q, hp, hq, hlt p q hp hq⟩

end LineIndex

end Caret
