import Caret.Proofs.Config.Formatters

/-!
# Which text is chosen

A configuration may have up to five texts for a word: one in the table of the
locale's section, one in the common table, one among the phrases of the section, one
among the common phrases, and the English one. `Config.wordText` says which of them
is chosen, and `Config.tableText?` which text a key has.

The order in which they are asked is not the one a reader may expect. The tables go
before the phrases, so a text of the *common* table wins over a phrase of the
*locale*. And the layers do not agree on what it is to be absent. A text of the
locale's table hides the common one even if it is blank, and only then is it
dismissed for being blank; a phrase counts as soon as it is set; and a label is
absent only if its text is empty.

Other locales have no say in any of this: their sections may be changed at will, and
the formatter stays the same (`Formatter.ofConfig_withLocales`).
-/

namespace Caret

namespace Config

/-! ## The rule -/

/-- **The text of a key**: that of the locale's section if it has the key, whatever it holds, and
the common one otherwise. -/
def tableText? (c : Config) (locale : Option String) (key : String) : Option String :=
  match (c.chosen? locale).bind (·.strings.find? key) with
  | some text => some text
  | none => c.strings.find? key

/-- **The phrase of a word**: that of the locale's section if it is set, else the common one if it
is set, else the English one. -/
def phraseText (c : Config) (locale : Option String) (w : Word) : String :=
  match ((c.chosen? locale).bind (·.phrases)).bind (·.get w) with
  | some text => text
  | none => match c.phrases.bind (·.get w) with
    | some text => text
    | none => Phrases.english.get w

/-- **The text of a word**: that of its key unless it is absent or blank, and its phrase
otherwise. -/
def wordText (c : Config) (locale : Option String) (w : Word) : String :=
  match c.tableText? locale w.key with
  | some text => if Text.isBlank text then c.phraseText locale w else text
  | none => c.phraseText locale w

/-! ## The layers that hold for a locale -/

variable (c : Config) (locale : Option String)

theorem find?_effectiveStrings (key : String) :
    (c.effectiveStrings locale).find? key = c.tableText? locale key := by
  unfold effectiveStrings tableText?
  cases c.chosen? locale with
  | none => rfl
  | some s =>
    show (c.strings.overlay s.strings).find? key = match s.strings.find? key with
      | some text => some text
      | none => c.strings.find? key
    rw [Dict.find?_overlay]
    cases s.strings.find? key with
    | none => rfl
    | some text => rfl

theorem get_getD_phrases (p? : Option PhraseOverrides) (w : Word) :
    (p?.getD {}).get w = p?.bind (·.get w) := by
  cases p? with
  | none => cases w <;> rfl
  | some p => rfl

/-- Phrases that the locale's section sets win over the common ones, word by word. -/
theorem get_effectivePhrases (w : Word) :
    (c.effectivePhrases locale).get w
      = (((c.chosen? locale).bind (·.phrases)).bind (·.get w) <|> c.phrases.bind (·.get w)) := by
  unfold effectivePhrases
  cases (c.chosen? locale).bind (·.phrases) with
  | none => exact get_getD_phrases c.phrases w
  | some top =>
    show ((c.phrases.getD {}).overlay top).get w = _
    rw [PhraseOverrides.get_overlay, get_getD_phrases]
    rfl

/-- The phrases that hold for a locale, and English where they leave a word unset. -/
theorem getD_get_effectivePhrases (w : Word) :
    ((c.effectivePhrases locale).get w).getD (Phrases.english.get w) = c.phraseText locale w := by
  rw [get_effectivePhrases]
  unfold phraseText
  cases ((c.chosen? locale).bind (·.phrases)).bind (·.get w) with
  | some text => rfl
  | none => cases c.phrases.bind (·.get w) with
    | some text => rfl
    | none => rfl

/-- **What is chosen of the layers is what the rule says.** -/
theorem get_choose_effective (w : Word) :
    (Phrases.choose (c.effectiveStrings locale) (c.effectivePhrases locale)).get w
      = c.wordText locale w := by
  rw [Phrases.get_choose, Resources.word?, find?_effectiveStrings]
  unfold wordText
  cases c.tableText? locale w.key with
  | none => exact getD_get_effectivePhrases c locale w
  | some text =>
    dsimp only
    by_cases hblank : Text.isBlank text = true
    · rw [Option.filter_some_neg (by simp [hblank]), if_pos hblank]
      exact getD_get_effectivePhrases c locale w
    · rw [Option.filter_some_pos (by simpa using hblank), if_neg hblank]
      rfl

end Config

/-! ## Formatters -/

namespace Formatter

/-- **A formatter does not depend on the sections of other locales.** -/
theorem ofConfig_withLocales {c : Config} {locale : Option String} {f : Formatter}
    (h : ofConfig c locale = .ok f) {locales : Dict LocaleSection}
    (hlocales : ∀ name ∈ locale, locales.find? name = c.locale? name) :
    ofConfig { c with locales } locale = .ok f := by
  obtain ⟨hknown, t, ht, rfl⟩ := ofConfig_eq_ok_iff.1 h
  have hchosen : Config.chosen? { c with locales } locale = c.chosen? locale := by
    cases locale with
    | none => rfl
    | some name => exact hlocales name rfl
  have hphrases : Config.effectivePhrases { c with locales } locale = c.effectivePhrases locale := by
    unfold Config.effectivePhrases
    rw [hchosen]
  have hstrings : Config.effectiveStrings { c with locales } locale = c.effectiveStrings locale := by
    unfold Config.effectiveStrings
    rw [hchosen]
  refine ofConfig_eq_ok_iff.2 ⟨fun name hname => ?_, t, ht, ?_⟩
  · show locales.find? name ≠ none
    rw [hlocales name hname]
    exact hknown name hname
  · rw [hphrases, hstrings]

/-- **The texts of a formatter.** Each word is the one that the rule gives. A label that is given
by its key has the text of the key, unless that is empty: so an entry of the locale's section
hides the common one, and leaves no label if it is empty. The sections of other locales can be
anything. -/
theorem texts_of_ofConfig {c : Config} {locale : Option String} {f : Formatter}
    (h : ofConfig c locale = .ok f) :
    (∀ w, f.phrases.get w = c.wordText locale w)
      ∧ (∀ key, f.labelText? (.resource key)
        = match c.tableText? locale key with
          | some text => if text = "" then none else some text
          | none => none)
      ∧ ∀ locales : Dict LocaleSection,
        (∀ name ∈ locale, locales.find? name = c.locale? name) →
          ofConfig { c with locales } locale = .ok f := by
  refine ⟨?_, ?_, fun locales hlocales => ofConfig_withLocales h hlocales⟩
  · obtain ⟨-, t, -, rfl⟩ := ofConfig_eq_ok_iff.1 h
    exact fun w => c.get_choose_effective locale w
  · obtain ⟨-, t, -, rfl⟩ := ofConfig_eq_ok_iff.1 h
    intro key
    show ((c.effectiveStrings locale).find? key).filter (· ≠ "") = _
    rw [Config.find?_effectiveStrings]
    cases c.tableText? locale key with
    | none => rfl
    | some text =>
      dsimp only
      by_cases hempty : text = ""
      · rw [Option.filter_some_neg (by simpa using hempty), if_pos hempty]
      · rw [Option.filter_some_pos (by simpa using hempty), if_neg hempty]

/-- Each of the words comes from another layer: a blank text of the locale hides a common one and
gives way to the common phrase, a common text wins over a phrase of the locale, and a phrase of
the locale wins over a common one. -/
theorem texts_of_ofConfig_layers :
    let c : Config :=
      { phrases := some { near := "around", line := "ln", column := "col" }
        strings := ⟨[("ctx", "clause"), ("querydiag.line", "row"), ("querydiag.near", "at")],
          by decide⟩
        locales := ⟨[
          ("de",
            { phrases := some { line := "Zeile", column := "Spalte" }
              strings := ⟨[("ctx", ""), ("querydiag.near", "\u3000")], by decide⟩ }),
          ("fr", { strings := ⟨[("ctx", "clause fr"), ("querydiag.near", "vers")], by decide⟩ })],
          by decide⟩ }
    let f : Formatter := ⟨⟨"around", "row", "Spalte"⟩, .default, c.effectiveStrings (some "de")⟩
    ofConfig c (some "de") = .ok f
      ∧ (∀ w, f.phrases.get w = c.wordText (some "de") w)
      ∧ f.labelText? (.resource "ctx") = none
      ∧ ∃ locales : Dict LocaleSection, locales.find? "fr" = none
        ∧ (∀ name ∈ some "de", locales.find? name = c.locale? name)
        ∧ ofConfig { c with locales } (some "de") = .ok f := by
  intro c f
  have hf : ofConfig c (some "de") = .ok f := by rfl
  obtain ⟨hwords, hlabels, hothers⟩ := texts_of_ofConfig hf
  let locales : Dict LocaleSection := ⟨[("de",
    { phrases := some { line := "Zeile", column := "Spalte" }
      strings := ⟨[("ctx", ""), ("querydiag.near", "\u3000")], by decide⟩ })], by decide⟩
  have hlocales : ∀ name ∈ some "de", locales.find? name = c.locale? name := by
    rintro name ⟨⟩
    rfl
  exact ⟨hf, hwords, hlabels "ctx", locales, rfl, hlocales, hothers locales hlocales⟩

end Formatter

end Caret
