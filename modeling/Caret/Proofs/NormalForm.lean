import Caret.Proofs.Location
import Caret.Proofs.Normalization

/-!
# What a normalized query looks like

Offsets into a query are used as offsets into its normalized form, so what the form
holds at an offset must be what the query holds there, or what that is shown as; and
where the form has come to its end, the query must have nothing left but terminators.
`IsNormalForm` says so place by place, without a word of how the form is made.

It says enough. There is one text that meets it, and normalizing gives that text
(`isNormalForm_iff`): what it says of the places in the form leaves no choice there,
and where the form ends is the one place behind which there are only terminators and
before which there is none.

Which characters a form may hold follows from its places: blanks are the three that
are shown as themselves.
-/

namespace Caret

/-- **A normal form of a text**, place by place. -/
structure IsNormalForm (t : LineTerminators) (cs shown : List Char) : Prop where
  /-- The form is no longer than the text. -/
  length_le : shown.length ≤ cs.length
  /-- A terminator is shown as a line feed. -/
  terminator : ∀ i c, i < shown.length → cs[i]? = some c → c ∈ t.chars → shown[i]? = some '\n'
  /-- Any other control or white space character is shown as a space, but for the carriage
  return. -/
  blank : ∀ i c, i < shown.length → cs[i]? = some c → c ∉ t.chars → c ≠ '\r' →
    (Text.isControl c || Text.isWhiteSpace c) = true → shown[i]? = some ' '
  /-- All others are shown as themselves. -/
  kept : ∀ i c, i < shown.length → cs[i]? = some c → c ∉ t.chars →
    (c = '\r' ∨ (Text.isControl c || Text.isWhiteSpace c) = false) → shown[i]? = some c
  /-- Nothing but terminators is left out at the end. -/
  dropped : ∀ i c, shown.length ≤ i → cs[i]? = some c → c ∈ t.chars
  /-- No terminator is left in at the end. -/
  last : shown.getLast? ≠ some '\n'

variable {t : LineTerminators} {cs shown : List Char}

/-! ## The one normal form -/

/-- Behind the body of a query there are terminators alone. -/
theorem LineTerminators.mem_of_bodyLength_le {i : Nat} {c : Char} (hi : t.bodyLength cs ≤ i)
    (hc : cs[i]? = some c) : c ∈ t.chars := by
  have hsplit := List.rdropWhile_append_rtakeWhile (p := t.contains) (l := cs)
  rw [← hsplit, List.getElem?_append_right hi] at hc
  exact LineTerminators.contains_eq_true.1 (List.mem_rtakeWhile_imp (List.mem_of_getElem? hc))

/-- A place of the normalized form shows the place of the query. -/
theorem getElem?_normalizeChars {i : Nat} (hi : i < (normalizeChars t cs).length) :
    (normalizeChars t cs)[i]? = cs[i]?.map (shownChar t) := by
  rw [length_normalizeChars] at hi
  rw [normalizeChars_eq_map, List.getElem?_map, List.getElem?_take_of_lt hi]

/-- There is nothing to drop at the end of a text that does not end in a line feed. -/
theorem rdropWhile_lineFeed_eq_self_iff {cs : List Char} :
    cs.rdropWhile (· == '\n') = cs ↔ cs.getLast? ≠ some '\n' := by
  rw [List.rdropWhile_eq_self_iff]
  by_cases h : cs = []
  · simp [h]
  · rw [List.getLast?_eq_some_getLast h]
    simp [h]

/-- **Normalizing gives a normal form.** -/
theorem isNormalForm_normalizeChars (t : LineTerminators) (cs : List Char) :
    IsNormalForm t cs (normalizeChars t cs) where
  length_le := length_normalizeChars_le t cs
  terminator i c hi hc hmem := by
    rw [getElem?_normalizeChars hi, hc, Option.map_some, shownChar_eq_lineFeed_iff.2 hmem]
  blank i c hi hc hmem hreturn hblank := by
    rw [getElem?_normalizeChars hi, hc, Option.map_some,
      shownChar_of_blank (by simpa using hmem) ⟨hreturn, hblank⟩]
  kept i c hi hc hmem hkept := by
    rw [getElem?_normalizeChars hi, hc, Option.map_some, shownChar_of_kept (by simpa using hmem)]
    rintro ⟨hreturn, hblank⟩
    rcases hkept with rfl | hnone
    · exact hreturn rfl
    · exact absurd hblank (by rw [hnone]; decide)
  dropped i c hi hc :=
    LineTerminators.mem_of_bodyLength_le ((length_normalizeChars t cs).symm.trans_le hi) hc
  last := rdropWhile_lineFeed_eq_self_iff.1 (by
    rw [normalizeChars_eq_rdropWhile, List.rdropWhile_idempotent])

/-- A place of a normal form holds what the place of the text is shown as. -/
theorem IsNormalForm.getElem? (h : IsNormalForm t cs shown) {i : Nat} {c : Char}
    (hi : i < shown.length) (hc : cs[i]? = some c) : shown[i]? = some (shownChar t c) := by
  by_cases hmem : t.contains c
  · rw [h.terminator i c hi hc (by simpa using hmem),
      shownChar_eq_lineFeed_iff.2 (by simpa using hmem)]
  · by_cases hblank : c ≠ '\r' ∧ (Text.isControl c || Text.isWhiteSpace c)
    · rw [h.blank i c hi hc (by simpa using hmem) hblank.1 hblank.2,
        shownChar_of_blank hmem hblank]
    · rw [h.kept i c hi hc (by simpa using hmem) ?_, shownChar_of_kept hmem hblank]
      rw [not_and_or, not_not, Bool.not_eq_true] at hblank
      exact hblank

/-- **A text has one normal form.** -/
theorem IsNormalForm.eq_normalizeChars (h : IsNormalForm t cs shown) :
    shown = normalizeChars t cs := by
  have hshown : (cs.take shown.length).map (shownChar t) = shown := by
    refine List.ext_getElem? fun i => ?_
    rw [List.getElem?_map]
    by_cases hi : i < shown.length
    · have hc := List.getElem?_eq_getElem (Nat.lt_of_lt_of_le hi h.length_le)
      rw [List.getElem?_take_of_lt hi, hc, h.getElem? hi hc, Option.map_some]
    · rw [List.getElem?_eq_none (Nat.not_lt.1 hi), List.getElem?_eq_none, Option.map_none]
      exact (List.length_take_le _ _).trans (Nat.not_lt.1 hi)
  have hsplit : cs.map (shownChar t) = shown ++ (cs.drop shown.length).map (shownChar t) := by
    conv_lhs => rw [← List.take_append_drop shown.length cs, List.map_append, hshown]
  -- what the form leaves out is shown as line feeds, which are dropped, and no more than that
  have hdropped : ∀ c ∈ ((cs.drop shown.length).map (shownChar t)).reverse, (c == '\n') = true := by
    intro c hc
    obtain ⟨d, hd, rfl⟩ := List.mem_map.1 (List.mem_reverse.1 hc)
    obtain ⟨i, hi⟩ := List.getElem?_of_mem hd
    rw [List.getElem?_drop] at hi
    exact beq_iff_eq.2 (shownChar_eq_lineFeed_iff.2 (h.dropped _ d (Nat.le_add_right _ _) hi))
  calc shown = shown.rdropWhile (· == '\n') := (rdropWhile_lineFeed_eq_self_iff.2 h.last).symm
    _ = (shown ++ (cs.drop shown.length).map (shownChar t)).rdropWhile (· == '\n') := by
      rw [List.rdropWhile, List.rdropWhile, List.reverse_append,
        List.dropWhile_append_of_pos hdropped]
    _ = normalizeChars t cs := by rw [normalizeChars_eq_rdropWhile, hsplit]

/-- **The normal forms of a text** are what it is normalized to. -/
theorem isNormalForm_iff : IsNormalForm t cs shown ↔ shown = normalizeChars t cs :=
  ⟨fun h => h.eq_normalizeChars, fun h => h ▸ isNormalForm_normalizeChars t cs⟩

/-! ## The characters of a normal form -/

/-- A normalized query holds no blanks but those that are shown as themselves. -/
theorem eq_of_isBlank_of_mem {c : Char} (hc : c ∈ normalizeChars t cs)
    (hblank : (Text.isControl c || Text.isWhiteSpace c) = true) :
    c = '\n' ∨ c = '\r' ∨ c = ' ' := by
  obtain ⟨d, -, rfl⟩ := exists_of_mem_normalizeChars hc
  by_cases hmem : t.contains d
  · exact .inl (shownChar_eq_lineFeed_iff.2 (by simpa using hmem))
  · by_cases hd : d ≠ '\r' ∧ (Text.isControl d || Text.isWhiteSpace d)
    · exact .inr (.inr (shownChar_of_blank hmem hd))
    · rw [shownChar_of_kept hmem hd] at hblank ⊢
      exact .inr (.inl (Decidable.byContradiction fun hreturn => hd ⟨hreturn, hblank⟩))

/-- It holds no carriage return if that is a terminator. -/
theorem return_notMem_normalizeChars (h : '\r' ∈ t.chars) : '\r' ∉ normalizeChars t cs := by
  intro hc
  obtain ⟨d, -, hd⟩ := exists_of_mem_normalizeChars hc
  by_cases hmem : t.contains d
  · rw [shownChar_eq_lineFeed_iff.2 (by simpa using hmem)] at hd
    exact absurd hd (by decide)
  · by_cases hblank : d ≠ '\r' ∧ (Text.isControl d || Text.isWhiteSpace d)
    · rw [shownChar_of_blank hmem hblank] at hd
      exact absurd hd (by decide)
    · rw [shownChar_of_kept hmem hblank] at hd
      exact hmem (by simpa [hd] using h)

/-- **Normalizing keeps offsets, and gives the one normal form.** The form is no longer than the
query; up to its end it holds at each offset what the query holds there, or what that is shown as;
behind its end the query has nothing but terminators, and it does not end in one. No other text is
like that. Its only blanks are line feeds, spaces and carriage returns, the last of which it holds
only if they are no terminators. -/
theorem normalize_keeps_offsets (t : LineTerminators) (query : String) :
    (normalize t query).length ≤ query.length
    ∧ IsNormalForm t query.toList (normalize t query).toList
    ∧ (∀ shown : String, IsNormalForm t query.toList shown.toList → shown = normalize t query)
    ∧ (∀ c ∈ (normalize t query).toList, (Text.isControl c || Text.isWhiteSpace c) = true →
        c = '\n' ∨ c = '\r' ∨ c = ' ')
    ∧ ('\r' ∈ t.chars → '\r' ∉ (normalize t query).toList) := by
  rw [← String.length_toList, ← String.length_toList, toList_normalize]
  refine ⟨length_normalizeChars_le t query.toList, isNormalForm_iff.2 rfl, fun shown h => ?_,
    fun c hc hblank => eq_of_isBlank_of_mem hc hblank, return_notMem_normalizeChars⟩
  rw [← String.toList_inj, toList_normalize]
  exact isNormalForm_iff.1 h

/-- With the carriage return, the space and a letter for terminators too: a tab is shown as a
space, and the query goes on behind its normal form with all three. -/
theorem normalize_keeps_offsets_tail :
    let t := LineTerminators.ofList ['\r', ' ', 'é']
    let query := "a\tb\rc\u2028d \ré\n"
    normalize t query = "a b\nc d" ∧ (normalize t query).toList[1]? = some ' '
      ∧ 'é' ∈ t.chars ∧ '\r' ∈ t.chars ∧ '\r' ∉ (normalize t query).toList := by
  intro t query
  have hform : normalize t query = "a b\nc d" := by decide
  obtain ⟨-, hnormal, -, -, hreturn⟩ := normalize_keeps_offsets t query
  rw [hform] at hnormal hreturn ⊢
  refine ⟨rfl, hnormal.blank 1 '\t' (by decide) (by decide) (by decide) (by decide) (by decide),
    hnormal.dropped 9 'é' (by decide) (by decide), by decide, hreturn (by decide)⟩

end Caret
