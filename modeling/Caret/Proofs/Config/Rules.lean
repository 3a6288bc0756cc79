import Caret.Config.Load
import Caret.Proofs.Dict
import Caret.Proofs.Outcomes

/-!
# The rules for configurations

Validation lists what is wrong with a configuration, in the order in which it
is reported. `Config.FollowsRules` says instead what is to be right: no word is
set to a blank text, be it for all locales or for one of them, and each line
terminator is a character other than the space. The two agree
(`Config.isValid_iff`): no section is left out of the list, and nothing is on
it that breaks no rule.

What is loaded from a file always follows the rules
(`Config.followsRules_of_load`). That covers a blank file too, which is not
looked at by validation and has the default configuration.
-/

namespace Caret

/-- **None of the words that are set is blank.** -/
def PhraseOverrides.NoneBlank (p : PhraseOverrides) : Prop :=
  ∀ w text, p.get w = some text → Text.isBlank text = false

/-- **The rules for configurations.** -/
structure Config.FollowsRules (c : Config) : Prop where
  /-- No word is blank for all locales. -/
  phrases : ∀ p ∈ c.phrases, p.NoneBlank
  /-- No word is blank for a locale. -/
  locales : ∀ name s, c.locale? name = some s → ∀ p ∈ s.phrases, p.NoneBlank
  /-- Each line terminator is a character other than the space. -/
  terminators : ∀ ts ∈ c.lineTerminators, ∀ t ∈ ts, ∃ ch, t.toList = [ch] ∧ ch ≠ ' '

/-! ## Violations -/

namespace PhraseOverrides

theorem mem_entries {p : PhraseOverrides} {w : Word} {text : String} :
    (w, text) ∈ p.entries ↔ p.get w = some text := by
  have hall : w ∈ Word.all := by cases w <;> decide
  unfold entries
  simp [hall]

theorem violations_eq_nil_iff {p : PhraseOverrides} {place : String} :
    p.violations place = [] ↔ p.NoneBlank := by
  unfold violations NoneBlank
  rw [List.filterMap_eq_nil_iff]
  constructor
  · intro h w text hw
    have := h (w, text) (mem_entries.2 hw)
    simpa using this
  · rintro h ⟨w, text⟩ hmem
    simp [h w text (mem_entries.1 hmem)]

/-- Absent phrases violate nothing. -/
theorem elim_violations_eq_nil_iff {p? : Option PhraseOverrides} {place : String} :
    (p?.elim [] fun p => p.violations place) = [] ↔ ∀ p ∈ p?, p.NoneBlank := by
  cases p? with
  | none => simp
  | some p => simp [violations_eq_nil_iff]

end PhraseOverrides

theorem terminatorViolation?_eq_none_iff {text : String} :
    terminatorViolation? text = none ↔ ∃ ch, text.toList = [ch] ∧ ch ≠ ' ' := by
  unfold terminatorViolation?
  split
  · rename_i ch hch
    simp [hch]
  · rename_i hnone
    refine ⟨fun h => (nomatch h), ?_⟩
    rintro ⟨ch, hch, -⟩
    exact absurd hch (hnone ch)

namespace Config

/-- **A configuration is valid exactly if it follows the rules.** -/
theorem isValid_iff {c : Config} : c.IsValid ↔ c.FollowsRules := by
  -- the list of violations is empty if each of its three parts is
  have hsplit : c.IsValid ↔ (∀ p ∈ c.phrases, p.NoneBlank)
      ∧ (∀ e ∈ c.locales.entries, ∀ p ∈ e.2.phrases, p.NoneBlank)
      ∧ ∀ t ∈ c.lineTerminators.getD [], terminatorViolation? t = none := by
    unfold IsValid violations
    rw [List.append_eq_nil_iff, List.append_eq_nil_iff, List.flatMap_eq_nil_iff,
      List.filterMap_eq_nil_iff, PhraseOverrides.elim_violations_eq_nil_iff, and_assoc]
    simp only [PhraseOverrides.elim_violations_eq_nil_iff]
  rw [hsplit]
  constructor
  · rintro ⟨hphrases, hlocales, hterminators⟩
    refine ⟨hphrases, fun name s hs => ?_, ?_⟩
    · exact hlocales (name, s) (Dict.find?_eq_some_iff.1 hs)
    · rintro ts hts t ht
      rw [Option.mem_def.1 hts] at hterminators
      exact terminatorViolation?_eq_none_iff.1 (hterminators t ht)
  · rintro ⟨hphrases, hlocales, hterminators⟩
    refine ⟨hphrases, fun e he => ?_, ?_⟩
    · exact hlocales e.1 e.2 (Dict.find?_eq_some_iff.2 he)
    · intro t ht
      cases hts : c.lineTerminators with
      | none =>
        rw [hts] at ht
        cases ht
      | some ts =>
        rw [hts] at ht
        exact terminatorViolation?_eq_none_iff.2 (hterminators ts hts t ht)

/-! ## Loading -/

/-- A configuration that follows the rules is let through. -/
theorem validated_of_followsRules {c : Config} (h : c.FollowsRules) : c.validated = .ok c := by
  have hnil : c.violations = [] := isValid_iff.2 h
  unfold validated
  rw [hnil]

/-- Any other one is refused for the first of its violations. -/
theorem validated_of_not_followsRules {c : Config} (h : ¬ c.FollowsRules) :
    ∃ v ∈ c.violations.head?, c.validated = .error v.message := by
  have hne : c.violations ≠ [] := fun hnil => h (isValid_iff.1 hnil)
  obtain ⟨v, rest, heq⟩ := List.exists_cons_of_ne_nil hne
  refine ⟨v, by rw [heq]; rfl, ?_⟩
  unfold validated
  rw [heq]

/-- What is let through follows the rules. -/
theorem followsRules_of_validated {c d : Config} (h : c.validated = .ok d) : d.FollowsRules := by
  by_cases hc : c.FollowsRules
  · rw [validated_of_followsRules hc] at h
    cases h
    exact hc
  · obtain ⟨v, -, hv⟩ := validated_of_not_followsRules hc
    rw [hv] at h
    cases h

/-- The format of a file is told by the name at the end of its path alone. -/
theorem ofPath?_of_fileName? {path other : String}
    (h : Path.fileName? path = Path.fileName? other) :
    ConfigFormat.ofPath? path = ConfigFormat.ofPath? other := by
  rw [ConfigFormat.ofPath?, ConfigFormat.ofPath?, Path.extension?, Path.extension?, h]

/-- A text under a path with a format is blank or read in that format and validated. -/
theorem load_of_ofPath? {text path : String} {format : ConfigFormat}
    (h : ConfigFormat.ofPath? path = some format) :
    load text path = if Text.isBlank text then .ok {}
      else (parse format text >>= validated).mapError fun message => .invalid path message := by
  rw [load, h]

/-- A text that is read is loaded by validating what comes out. -/
theorem load_of_parse {text path : String} {format : ConfigFormat} {c : Config}
    (hblank : Text.isBlank text = false) (hformat : ConfigFormat.ofPath? path = some format)
    (hparse : parse format text = .ok c) :
    load text path = c.validated.mapError fun message => .invalid path message := by
  rw [load_of_ofPath? hformat, hblank]
  show (parse format text >>= validated).mapError _ = _
  rw [hparse]
  rfl

theorem followsRules_default : ({} : Config).FollowsRules :=
  isValid_iff.1 rfl

/-- **What is loaded follows the rules.** -/
theorem followsRules_of_load {text path : String} {c : Config} (h : load text path = .ok c) :
    c.FollowsRules := by
  unfold load at h
  split at h
  · cases h
    exact followsRules_default
  · split at h
    · cases h
    · obtain ⟨d, -, hd⟩ := bind_eq_ok_iff.1 (mapError_eq_ok_iff.1 h)
      exact followsRules_of_validated hd

/-- What is loaded under a path with a format follows the rules, or the text is invalid. -/
theorem load_cases {path : String} {format : ConfigFormat}
    (h : ConfigFormat.ofPath? path = some format) (text : String) :
    (∃ c, load text path = .ok c ∧ c.FollowsRules)
      ∨ ∃ message, load text path = .error (.invalid path message) := by
  cases hload : load text path with
  | ok c => exact .inl ⟨c, rfl, followsRules_of_load hload⟩
  | error e =>
    rw [load_of_ofPath? h] at hload
    split at hload
    · cases hload
    · obtain ⟨message, -, rfl⟩ := mapError_eq_error_iff.1 hload
      exact .inr ⟨message, rfl⟩

end Config

end Caret
