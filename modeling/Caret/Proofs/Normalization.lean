import Caret.Normalization
import Mathlib.Data.List.DropRight

/-!
# Normalizing what is normalized

A normalized query is made of shown characters, and what a character is shown
as is mostly shown as itself: a line feed is always a terminator, and a
character that is kept was no terminator and no other blank before. Only the
space is in question. If it is a terminator itself, then what is shown as a
space is shown as a line feed the second time, unless all that would be shown
as a space is a terminator as well (`shownChar_shownChar_iff`).

Where the space is no terminator, a normalized query is its own normalized
form, and so is one that has been printed, which has one line feed more at its
end (`normalizeChars_append_lineFeed`).
-/

namespace Caret

variable {t : LineTerminators}

/-! ## Characters -/

theorem shownChar_lineFeed (t : LineTerminators) : shownChar t '\n' = '\n' :=
  shownChar_eq_lineFeed_iff.2 t.lineFeed_mem

/-- A character that is neither a terminator nor another blank is shown as itself. -/
theorem shownChar_of_kept {c : Char} (hc : ¬ t.contains c)
    (hblank : ¬ (c ≠ '\r' ∧ (Text.isControl c || Text.isWhiteSpace c))) : shownChar t c = c := by
  unfold shownChar
  rw [if_neg hc, if_neg hblank]

/-- A blank that is no terminator is shown as a space, but for the carriage return. -/
theorem shownChar_of_blank {c : Char} (hc : ¬ t.contains c)
    (hblank : c ≠ '\r' ∧ (Text.isControl c || Text.isWhiteSpace c)) : shownChar t c = ' ' := by
  unfold shownChar
  rw [if_neg hc, if_pos hblank]

/-- The space is white space. -/
theorem shownChar_space (hspace : ' ' ∉ t.chars) : shownChar t ' ' = ' ' :=
  shownChar_of_blank (by simpa using hspace) (by decide)

/-- **What is shown is shown as itself.** -/
theorem shownChar_shownChar (hspace : ' ' ∉ t.chars) (c : Char) :
    shownChar t (shownChar t c) = shownChar t c := by
  by_cases hc : t.contains c
  · rw [show shownChar t c = '\n' from if_pos hc, shownChar_lineFeed]
  · by_cases hblank : c ≠ '\r' ∧ (Text.isControl c || Text.isWhiteSpace c)
    · rw [shownChar_of_blank hc hblank, shownChar_space hspace]
    · rw [shownChar_of_kept hc hblank, shownChar_of_kept hc hblank]

/-- **What is shown is shown as itself, for which sets it is so**: for those without the space,
and for those that leave nothing to be shown as a space. -/
theorem shownChar_shownChar_iff :
    (∀ c, shownChar t (shownChar t c) = shownChar t c)
      ↔ ' ' ∉ t.chars
        ∨ ∀ c, c ≠ '\r' → (Text.isControl c || Text.isWhiteSpace c) = true → c ∈ t.chars := by
  constructor
  · intro h
    by_cases hspace : ' ' ∈ t.chars
    · refine .inr fun c hreturn hblank => Decidable.byContradiction fun hc => ?_
      -- such a character is shown as a space, and the space as a line feed
      have htwice := h c
      rw [shownChar_of_blank (by simpa using hc) ⟨hreturn, hblank⟩,
        shownChar_eq_lineFeed_iff.2 hspace] at htwice
      exact absurd htwice (by decide)
    · exact .inl hspace
  · rintro (hspace | hall) c
    · exact shownChar_shownChar hspace c
    · by_cases hc : t.contains c
      · rw [show shownChar t c = '\n' from if_pos hc, shownChar_lineFeed]
      · have hblank : ¬ (c ≠ '\r' ∧ (Text.isControl c || Text.isWhiteSpace c)) :=
          fun ⟨hreturn, hblank⟩ => hc (by simpa using hall c hreturn hblank)
        rw [shownChar_of_kept hc hblank, shownChar_of_kept hc hblank]

/-! ## Queries -/

theorem normalizeChars_eq_rdropWhile (t : LineTerminators) (cs : List Char) :
    normalizeChars t cs = (cs.map (shownChar t)).rdropWhile (· == '\n') := rfl

/-- A normalized query is made of shown characters. -/
theorem exists_of_mem_normalizeChars {cs : List Char} {c : Char} (h : c ∈ normalizeChars t cs) :
    ∃ d ∈ cs, shownChar t d = c := by
  rw [normalizeChars_eq_rdropWhile] at h
  exact List.mem_map.1 ((List.rdropWhile_prefix _ _).subset h)

/-- The characters of a normalized query are shown as themselves if all shown ones are. -/
theorem map_shownChar_normalizeChars (h : ∀ c, shownChar t (shownChar t c) = shownChar t c)
    (cs : List Char) : (normalizeChars t cs).map (shownChar t) = normalizeChars t cs := by
  refine (List.map_congr_left fun c hc => ?_).trans (List.map_id' _)
  obtain ⟨d, -, rfl⟩ := exists_of_mem_normalizeChars hc
  exact h d

/-- **Normalizing twice is normalizing once** if showing twice is showing once, and only then. -/
theorem normalizeChars_normalizeChars_iff :
    (∀ cs, normalizeChars t (normalizeChars t cs) = normalizeChars t cs)
      ↔ ∀ c, shownChar t (shownChar t c) = shownChar t c := by
  constructor
  · intro h c
    by_cases hc : shownChar t c = '\n'
    · rw [hc, shownChar_lineFeed]
    · -- a query of this one character is shown in full, and a second time unless trimmed
      have hsingle : ∀ d, normalizeChars t [d]
          = if shownChar t d = '\n' then [] else [shownChar t d] := by
        intro d
        rw [normalizeChars_eq_rdropWhile, List.map_singleton, List.rdropWhile_singleton]
        simp only [beq_iff_eq]
      have htwice := h [c]
      rw [hsingle c, if_neg hc, hsingle (shownChar t c)] at htwice
      split at htwice
      · cases htwice
      · exact (List.cons.inj htwice).1
  · intro h cs
    calc normalizeChars t (normalizeChars t cs)
        = (normalizeChars t cs).rdropWhile (· == '\n') := by
          rw [normalizeChars_eq_rdropWhile t (normalizeChars t cs),
            map_shownChar_normalizeChars h]
      _ = normalizeChars t cs := by
          rw [normalizeChars_eq_rdropWhile, List.rdropWhile_idempotent]

/-- **A printed normalized query is normalized to itself**: the line feed behind it is dropped,
and nothing else is. -/
theorem normalizeChars_append_lineFeed (hspace : ' ' ∉ t.chars) (cs : List Char) :
    normalizeChars t (normalizeChars t cs ++ ['\n']) = normalizeChars t cs := by
  calc normalizeChars t (normalizeChars t cs ++ ['\n'])
      = (normalizeChars t cs ++ ['\n']).rdropWhile (· == '\n') := by
        rw [normalizeChars_eq_rdropWhile t (_ ++ _), List.map_append,
          map_shownChar_normalizeChars (shownChar_shownChar hspace), List.map_singleton,
          shownChar_lineFeed]
    _ = (normalizeChars t cs).rdropWhile (· == '\n') :=
        List.rdropWhile_concat_pos _ _ _ rfl
    _ = normalizeChars t cs := by
        rw [normalizeChars_eq_rdropWhile, List.rdropWhile_idempotent]

end Caret
