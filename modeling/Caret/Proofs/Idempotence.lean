import Caret.Proofs.Config.Formatters
import Caret.Proofs.Normalization

/-!
# When normalizing twice is normalizing once

A query is normalized before it is indexed, and what is shown of it may be
normalized again. For which sets of line terminators that is harmless is settled
here. The space decides: a set without it is always
settled, and a set with it only if nothing is left over that would be shown as
a space, that is, if every other blank is a terminator too.

No set that comes from a loaded configuration holds the space, since the rules
for configurations refuse it, so all of these are settled, and so is the
default set. A set made by hand need not be.
-/

namespace Caret

/-- **Normalizing twice is normalizing once** exactly if the space is no line terminator, or if
all control and white space characters but the carriage return are. This covers the sets of all
configurations that can be loaded, and the default set. -/
theorem normalize_idempotent_iff :
    (∀ t : LineTerminators, (∀ query, normalize t (normalize t query) = normalize t query)
      ↔ ' ' ∉ t.chars
        ∨ ∀ c, c ≠ '\r' → (Text.isControl c || Text.isWhiteSpace c) = true → c ∈ t.chars)
    ∧ (∀ text path c locale f, Config.load text path = .ok c →
        Formatter.ofConfig c locale = .ok f →
        ∀ query, f.normalize (f.normalize query) = f.normalize query)
    ∧ ∀ query, normalize .default (normalize .default query) = normalize .default query := by
  have hiff : ∀ t : LineTerminators,
      (∀ query, normalize t (normalize t query) = normalize t query)
        ↔ ' ' ∉ t.chars
          ∨ ∀ c, c ≠ '\r' → (Text.isControl c || Text.isWhiteSpace c) = true → c ∈ t.chars := by
    intro t
    rw [← shownChar_shownChar_iff, ← normalizeChars_normalizeChars_iff]
    constructor
    · intro h cs
      have hquery := congrArg String.toList (h (String.ofList cs))
      rwa [toList_normalize, toList_normalize, String.toList_ofList] at hquery
    · intro h query
      rw [← String.toList_inj, toList_normalize, toList_normalize]
      exact h query.toList
  have hdefault : ' ' ∉ LineTerminators.default.chars := by decide
  refine ⟨hiff, fun text path c locale f hload hformatter => ?_, (hiff .default).2 (.inl hdefault)⟩
  have hrules := Config.followsRules_of_load hload
  exact (hiff f.terminators).2 (.inl (Formatter.of_ofConfig hrules hformatter).2)

/-- A loaded set that holds a letter and the carriage return, and a set made by hand that holds
the space and no tab. -/
theorem normalize_idempotent_iff_loaded :
    (∃ c f, Config.load "lineTerminators: [x, \"\\r\"]\n" "a.yml" = .ok c
      ∧ Formatter.ofConfig c none = .ok f ∧ f.terminators.chars = ['\n', 'x', '\r']
      ∧ f.normalize (f.normalize "\tx \r\n") = f.normalize "\tx \r\n")
    ∧ ¬ ∀ query, normalize (.ofList [' ']) (normalize (.ofList [' ']) query)
        = normalize (.ofList [' ']) query := by
  obtain ⟨hiff, hloaded, -⟩ := normalize_idempotent_iff
  constructor
  · let c : Config := { lineTerminators := some ["x", "\r"] }
    have hload : Config.load "lineTerminators: [x, \"\\r\"]\n" "a.yml" = .ok c :=
      eq_ok_of_toOption (by decide +kernel)
    exact ⟨c, _, hload, rfl, rfl, hloaded _ _ c none _ hload rfl _⟩
  · rw [hiff]
    rintro (hspace | hall)
    · exact hspace (by decide)
    · exact absurd (hall '\t' (by decide) (by decide)) (by decide)

end Caret
