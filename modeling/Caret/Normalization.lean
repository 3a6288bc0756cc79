import Caret.LineTerminators
import Caret.Text.Blank

/-!
# Normalized query text

Query text is simplified before it is shown. Every line terminator becomes a
line feed; every other control or white space character becomes a space,
except the carriage return, which stays; line feeds at the end are dropped.
Apart from that last step this keeps one character per character, so an
offset into the query is an offset into its normalized form.
-/

namespace Caret

open Text

/-- What one character of a query is shown as. -/
def shownChar (t : LineTerminators) (c : Char) : Char :=
  if t.contains c then '\n'
  else if c ≠ '\r' ∧ (isControl c || isWhiteSpace c) then ' '
  else c

/-- The normalized form of the characters of a query. -/
def normalizeChars (t : LineTerminators) (cs : List Char) : List Char :=
  dropTrailing (· == '\n') (cs.map (shownChar t))

/-- **The normalized form** of a query. -/
def normalize (t : LineTerminators) (query : String) : String :=
  String.ofList (normalizeChars t query.toList)

theorem toList_normalize (t : LineTerminators) (query : String) :
    (normalize t query).toList = normalizeChars t query.toList := by
  simp [normalize]

/-- A shown character is a line feed exactly if it was a terminator. -/
theorem shownChar_eq_lineFeed_iff {t : LineTerminators} {c : Char} :
    shownChar t c = '\n' ↔ c ∈ t.chars := by
  unfold shownChar
  split
  · rename_i hc
    simpa using hc
  · rename_i hc
    have hc' : c ∉ t.chars := by simpa using hc
    split
    · simp [hc']
    · exact ⟨fun he => absurd t.lineFeed_mem (he ▸ hc'), fun he => absurd he hc'⟩

theorem length_dropTrailing_le (p : Char → Bool) (cs : List Char) :
    (dropTrailing p cs).length ≤ cs.length := by
  unfold dropTrailing
  rw [List.length_reverse]
  exact Nat.le_trans (List.dropWhile_sublist p).length_le (by simp)

/-- Normalizing never lengthens a text. -/
theorem length_normalizeChars_le (t : LineTerminators) (cs : List Char) :
    (normalizeChars t cs).length ≤ cs.length := by
  unfold normalizeChars
  exact Nat.le_trans (length_dropTrailing_le _ _) (by simp)

end Caret
