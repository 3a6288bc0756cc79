import Caret.Formatter
import Caret.Proofs.Config.Rules

/-!
# Formatters of loaded configurations

What a configuration says is checked twice: when it is loaded from a file, and
again where a formatter is made of it. The two checks were written apart, and
the second one looks at less: it asks of a line terminator that it is one
character and nothing else, and of words it asks nothing.

Validation is enough for both. A configuration that follows the rules has a
formatter for every locale that has a section, and for none
(`Formatter.ofConfig_of_followsRules`). No word of it is blank: a blank text in
the resource table counts as absent, the overrides are not blank by the rules,
laid over each other or not, and English is not (`Phrases.isBlank_get_choose`).

A configuration that was made by hand meets the second check alone. What the
second one lets through is the space, and nothing else (`terminatorViolation?_ne_none_iff`).
-/

namespace Caret

/-! ## Words -/

namespace PhraseOverrides

theorem noneBlank_empty : NoneBlank {} := by
  intro w text h
  cases w
  all_goals cases h

/-- Laying overrides over others sets no word that neither of them sets. -/
theorem NoneBlank.overlay {base top : PhraseOverrides} (hbase : base.NoneBlank)
    (htop : top.NoneBlank) : (base.overlay top).NoneBlank := by
  intro w text h
  rw [get_overlay] at h
  cases hw : top.get w with
  | none =>
    rw [hw] at h
    exact hbase w text h
  | some chosen =>
    rw [hw] at h
    cases h
    exact htop w text hw

end PhraseOverrides

/-- The overrides that hold for a locale follow the rules if all overrides do. -/
theorem Config.FollowsRules.noneBlank_effectivePhrases {c : Config} (h : c.FollowsRules)
    (locale : Option String) : (c.effectivePhrases locale).NoneBlank := by
  have hbase : (c.phrases.getD {}).NoneBlank := by
    cases hp : c.phrases with
    | none => exact PhraseOverrides.noneBlank_empty
    | some p => exact h.phrases p hp
  unfold effectivePhrases
  split
  · rename_i top htop
    obtain ⟨s, hs, htop⟩ := Option.bind_eq_some_iff.1 htop
    obtain ⟨name, -, hname⟩ := Option.bind_eq_some_iff.1 hs
    exact hbase.overlay (h.locales name s hname top htop)
  · exact hbase

/-- **No word is blank** that is chosen from a table and from overrides of which none is blank. -/
theorem Phrases.isBlank_get_choose {table : Resources} {overrides : PhraseOverrides}
    (h : overrides.NoneBlank) (w : Word) :
    Text.isBlank ((Phrases.choose table overrides).get w) = false := by
  rw [get_choose]
  cases htable : table.word? w with
  | some text =>
    have hfilter := (Option.filter_eq_some_iff.1 htable).2
    simpa using hfilter
  | none =>
    cases hw : overrides.get w with
    | some text => exact h w text hw
    | none =>
      show Text.isBlank (Phrases.english.get w) = false
      cases w
      all_goals decide

/-! ## Formatters -/

namespace Formatter

theorem terminatorChar_of_toList {text : String} {ch : Char} (h : text.toList = [ch]) :
    terminatorChar text = .ok ch := by
  unfold terminatorChar
  rw [h]

/-- A configuration that follows the rules has line terminators, and the space is not one. -/
theorem exists_terminatorsOf {c : Config} (h : c.FollowsRules) :
    ∃ t, terminatorsOf c = .ok t ∧ ' ' ∉ t.chars := by
  unfold terminatorsOf
  cases hts : c.lineTerminators with
  | none => exact ⟨.default, rfl, by decide⟩
  | some ts =>
    have hchars : ∀ text ∈ ts, ∃ ch, terminatorChar text = .ok ch ∧ ch ≠ ' ' := by
      intro text htext
      obtain ⟨ch, hch, hspace⟩ := h.terminators ts hts text htext
      exact ⟨ch, terminatorChar_of_toList hch, hspace⟩
    obtain ⟨cs, hcs, hspaces⟩ := exists_mapM_eq_ok hchars
    refine ⟨.ofList cs, ?_, ?_⟩
    · show (ts.mapM terminatorChar >>= fun cs => pure (LineTerminators.ofList cs)) = _
      rw [hcs]
      rfl
    · rw [LineTerminators.mem_ofList, not_or]
      exact ⟨by decide, fun hmem => hspaces ' ' hmem rfl⟩

/-- A locale without a section is the first thing that is refused. -/
theorem ofConfig_of_unknown {c : Config} {name : String} (h : c.locale? name = none) :
    ofConfig c (some name) = .error (.unknownLocale name c.localeNames) := by
  unfold ofConfig
  rw [Option.filter_some_pos (by rw [h]; rfl)]

/-- **Where the locale is known, all hangs on the line terminators.** -/
theorem ofConfig_of_known {c : Config} {locale : Option String}
    (hlocale : ∀ name ∈ locale, c.locale? name ≠ none) :
    ofConfig c locale = (do
      let t ← terminatorsOf c
      return ⟨.choose (c.effectiveStrings locale) (c.effectivePhrases locale), t,
        c.effectiveStrings locale⟩) := by
  have hknown : locale.filter (fun name => (c.locale? name).isNone) = none := by
    rw [Option.filter_eq_none_iff]
    intro name hname
    rw [Option.isNone_iff_eq_none]
    exact hlocale name hname
  unfold ofConfig
  rw [hknown]

/-- **The formatters of a configuration**: there is one where the locale is known and the line
terminators are characters, and it is this one. -/
theorem ofConfig_eq_ok_iff {c : Config} {locale : Option String} {f : Formatter} :
    ofConfig c locale = .ok f
      ↔ (∀ name ∈ locale, c.locale? name ≠ none)
        ∧ ∃ t, terminatorsOf c = .ok t
          ∧ f = ⟨.choose (c.effectiveStrings locale) (c.effectivePhrases locale), t,
              c.effectiveStrings locale⟩ := by
  by_cases hlocale : ∀ name ∈ locale, c.locale? name ≠ none
  · rw [ofConfig_of_known hlocale, and_iff_right hlocale, bind_eq_ok_iff]
    refine exists_congr fun t => and_congr_right fun _ => ?_
    show Except.ok _ = Except.ok f ↔ _
    rw [Except.ok.injEq, eq_comm]
  · refine iff_of_false (fun h => ?_) (fun h => hlocale h.1)
    simp only [not_forall, not_not] at hlocale
    obtain ⟨name, rfl, hname⟩ := hlocale
    rw [ofConfig_of_unknown hname] at h
    cases h

/-- **A configuration that follows the rules has a formatter** for no locale and for each one
that has a section. -/
theorem ofConfig_of_followsRules {c : Config} (h : c.FollowsRules) {locale : Option String}
    (hlocale : ∀ name ∈ locale, c.locale? name ≠ none) :
    ∃ t, ' ' ∉ t.chars
      ∧ ofConfig c locale
        = .ok ⟨.choose (c.effectiveStrings locale) (c.effectivePhrases locale), t,
            c.effectiveStrings locale⟩ := by
  obtain ⟨t, ht, hspace⟩ := exists_terminatorsOf h
  exact ⟨t, hspace, ofConfig_eq_ok_iff.2 ⟨hlocale, t, ht, rfl⟩⟩

/-- **What a formatter of such a configuration is like.** -/
theorem of_ofConfig {c : Config} (h : c.FollowsRules) {locale : Option String} {f : Formatter}
    (hf : ofConfig c locale = .ok f) :
    (∀ w, Text.isBlank (f.phrases.get w) = false) ∧ ' ' ∉ f.terminators.chars := by
  obtain ⟨-, t, ht, rfl⟩ := ofConfig_eq_ok_iff.1 hf
  obtain ⟨t', ht', hspace⟩ := exists_terminatorsOf h
  obtain rfl : t = t' := Except.ok.inj (ht.symm.trans ht')
  exact ⟨Phrases.isBlank_get_choose (h.noneBlank_effectivePhrases locale), hspace⟩

end Formatter

/-- **Validation is enough for a formatter.** A configuration that has been loaded has a
formatter unless a locale is asked for that it has no section for, and the reason given is
never a line terminator. No word of the formatter is blank, and its line terminators start with
the line feed, name no character twice, and do not hold the space. -/
theorem formatter_of_loaded {text path : String} {c : Config} (h : Config.load text path = .ok c)
    (locale : Option String) :
    (∀ t, Formatter.ofConfig c locale ≠ .error (.invalidTerminator t))
      ∧ (∀ e, Formatter.ofConfig c locale = .error e
          ↔ ∃ name, locale = some name ∧ c.locale? name = none
            ∧ e = .unknownLocale name c.localeNames)
      ∧ ∀ f, Formatter.ofConfig c locale = .ok f →
        (∀ w, Text.isBlank (f.phrases.get w) = false)
          ∧ f.terminators.chars.head? = some '\n' ∧ f.terminators.chars.Nodup
          ∧ ' ' ∉ f.terminators.chars := by
  have hrules := Config.followsRules_of_load h
  have herror : ∀ e, Formatter.ofConfig c locale = .error e
      ↔ ∃ name, locale = some name ∧ c.locale? name = none
        ∧ e = .unknownLocale name c.localeNames := by
    intro e
    constructor
    · intro he
      by_cases hlocale : ∀ name ∈ locale, c.locale? name ≠ none
      · obtain ⟨t, -, hok⟩ := Formatter.ofConfig_of_followsRules hrules hlocale
        rw [hok] at he
        cases he
      · simp only [not_forall, not_not] at hlocale
        obtain ⟨name, rfl, hname⟩ := hlocale
        rw [Formatter.ofConfig_of_unknown hname] at he
        cases he
        exact ⟨name, rfl, hname, rfl⟩
    · rintro ⟨name, rfl, hname, rfl⟩
      exact Formatter.ofConfig_of_unknown hname
  refine ⟨fun t ht => ?_, herror, fun f hf => ?_⟩
  · obtain ⟨name, -, -, heq⟩ := (herror _).1 ht
    cases heq
  · obtain ⟨hwords, hspace⟩ := Formatter.of_ofConfig hrules hf
    exact ⟨hwords, f.terminators.lineFeed_first, f.terminators.nodup, hspace⟩

/-- Texts of the table that are blank count as absent, and terminators may be listed twice. -/
theorem formatter_of_loaded_blank_texts :
    let text := "phrases:\n  near: bei\nstrings:\n  querydiag.line: \" \"\n" ++
      "lineTerminators: [\";\", \"\\r\", \";\"]\nlocales:\n  de:\n    phrases:\n" ++
      "      line: Zeile\n    strings:\n      querydiag.near: \"\\u3000\"\n"
    ∃ c, Config.load text "a.yml" = .ok c
      ∧ Formatter.ofConfig c (some "fr") = .error (.unknownLocale "fr" ["de"])
      ∧ ∃ f, Formatter.ofConfig c (some "de") = .ok f
        ∧ f.phrases = ⟨"bei", "Zeile", "column"⟩ ∧ f.terminators.chars = ['\n', ';', '\r']
        ∧ (∀ w, Text.isBlank (f.phrases.get w) = false) ∧ ' ' ∉ f.terminators.chars := by
  intro text
  let c : Config :=
    { phrases := some { near := "bei" }
      strings := ⟨[("querydiag.line", " ")], by decide⟩
      lineTerminators := some [";", "\r", ";"]
      locales := ⟨[("de",
        { phrases := some { line := "Zeile" }
          strings := ⟨[("querydiag.near", "\u3000")], by decide⟩ })], by decide⟩ }
  have hload : Config.load text "a.yml" = .ok c := eq_ok_of_toOption (by decide +kernel)
  obtain ⟨-, herror, -⟩ := formatter_of_loaded hload (some "fr")
  obtain ⟨-, -, hformatter⟩ := formatter_of_loaded hload (some "de")
  let f : Formatter :=
    ⟨⟨"bei", "Zeile", "column"⟩, .ofList [';', '\r', ';'], c.effectiveStrings (some "de")⟩
  have hf : Formatter.ofConfig c (some "de") = .ok f := by rfl
  obtain ⟨hwords, -, -, hspace⟩ := hformatter f hf
  exact ⟨c, hload, (herror _).2 ⟨"fr", rfl, rfl, rfl⟩, f, hf, rfl, rfl, hwords, hspace⟩

/-! ## The two checks of line terminators -/

namespace Formatter

theorem terminatorChar_eq_error_iff {text : String} {e : FormatterError} :
    terminatorChar text = .error e
      ↔ text.toList.length ≠ 1 ∧ e = .invalidTerminator text := by
  unfold terminatorChar
  split
  · rename_i ch hch
    rw [hch]
    exact ⟨fun h => (nomatch h), fun ⟨h, _⟩ => absurd rfl h⟩
  · rename_i hnone
    rw [Except.error.injEq, eq_comm, and_iff_right]
    intro hlength
    obtain ⟨ch, hch⟩ := List.length_eq_one_iff.1 hlength
    exact hnone ch hch

/-- The line terminators of a configuration are refused for one that is no character. -/
theorem terminatorsOf_eq_error {c : Config} {e : FormatterError}
    (h : terminatorsOf c = .error e) :
    ∃ t ∈ c.lineTerminators.getD [], t.toList.length ≠ 1 ∧ e = .invalidTerminator t := by
  unfold terminatorsOf at h
  split at h
  · cases h
  · rename_i ts hts
    cases hchars : ts.mapM terminatorChar with
    | ok cs =>
      rw [hchars] at h
      cases h
    | error e' =>
      rw [hchars] at h
      cases h
      obtain ⟨t, hmem, ht⟩ := exists_of_mapM_eq_error hchars
      refine ⟨t, ?_, terminatorChar_eq_error_iff.1 ht⟩
      rw [hts]
      exact hmem

/-- Where the line terminators are accepted, each of them is a character. -/
theorem length_of_terminatorsOf_eq_ok {c : Config} {t : LineTerminators}
    (h : terminatorsOf c = .ok t) :
    ∀ text ∈ c.lineTerminators.getD [], text.toList.length = 1 := by
  unfold terminatorsOf at h
  split at h
  · rename_i hnone
    rw [hnone]
    exact List.forall_mem_nil _
  · rename_i ts hts
    obtain ⟨cs, hcs, -⟩ := bind_eq_ok_iff.1 h
    intro text htext
    rw [hts] at htext
    obtain ⟨ch, hch⟩ := exists_of_mapM_eq_ok hcs text htext
    refine Decidable.byContradiction fun hlength => ?_
    rw [terminatorChar_eq_error_iff.2 ⟨hlength, rfl⟩] at hch
    cases hch

/-- **The rule for loading refuses what is no character, and the space besides.** -/
theorem terminatorViolation?_ne_none_iff {text : String} :
    terminatorViolation? text ≠ none ↔ text.toList.length ≠ 1 ∨ text = " " := by
  rw [ne_eq, terminatorViolation?_eq_none_iff]
  by_cases hlength : text.toList.length = 1
  · obtain ⟨ch, hch⟩ := List.length_eq_one_iff.1 hlength
    have hspace : text = " " ↔ ch = ' ' := by
      rw [← String.toList_inj, hch]
      show [ch] = [' '] ↔ _
      rw [List.cons.injEq, and_iff_left rfl]
    rw [hspace, hch]
    simp
  · refine iff_of_true ?_ (.inl hlength)
    rintro ⟨ch, hch, -⟩
    rw [hch] at hlength
    exact hlength rfl

/-- **A formatter refuses a line terminator exactly if it is no character.** So it refuses all
that the rule for loading refuses, except for the space. -/
theorem ofConfig_refuses_terminators_iff {c : Config} {locale : Option String}
    (hlocale : ∀ name ∈ locale, c.locale? name ≠ none) :
    ((∃ t, ofConfig c locale = .error (.invalidTerminator t))
        ↔ ∃ t ∈ c.lineTerminators.getD [], t.toList.length ≠ 1)
      ∧ ((∃ t ∈ c.lineTerminators.getD [], terminatorViolation? t ≠ none)
        ↔ (∃ t, ofConfig c locale = .error (.invalidTerminator t))
          ∨ " " ∈ c.lineTerminators.getD []) := by
  have hrefused : (∃ t, ofConfig c locale = .error (.invalidTerminator t))
      ↔ ∃ t ∈ c.lineTerminators.getD [], t.toList.length ≠ 1 := by
    rw [ofConfig_of_known hlocale]
    cases ht : terminatorsOf c with
    | ok t =>
      refine ⟨fun ⟨_, h⟩ => (nomatch h), fun ⟨text, hmem, hlength⟩ => ?_⟩
      exact absurd (length_of_terminatorsOf_eq_ok ht text hmem) hlength
    | error e =>
      obtain ⟨text, hmem, hlength, rfl⟩ := terminatorsOf_eq_error ht
      exact iff_of_true ⟨text, rfl⟩ ⟨text, hmem, hlength⟩
  refine ⟨hrefused, ?_⟩
  rw [hrefused]
  simp only [terminatorViolation?_ne_none_iff]
  constructor
  · rintro ⟨t, hmem, hlength | rfl⟩
    · exact .inl ⟨t, hmem, hlength⟩
    · exact .inr hmem
  · rintro (⟨t, hmem, hlength⟩ | hmem)
    · exact ⟨t, hmem, .inl hlength⟩
    · exact ⟨" ", hmem, .inr rfl⟩

/-- A pair of characters behind a space is refused, for a locale that has a section. -/
theorem ofConfig_refuses_terminators_pair :
    let c : Config :=
      { lineTerminators := some ["\r", " ", "\r\n"], locales := ⟨[("de", {})], by decide⟩ }
    (∀ name ∈ some "de", c.locale? name ≠ none)
      ∧ ∃ t, ofConfig c (some "de") = .error (.invalidTerminator t) := by
  intro c
  have hlocale : ∀ name ∈ some "de", c.locale? name ≠ none := by
    rintro name ⟨⟩
    decide
  obtain ⟨hrefused, -⟩ := ofConfig_refuses_terminators_iff hlocale
  exact ⟨hlocale, hrefused.2 ⟨"\r\n", by decide, by decide⟩⟩

/-- **The space is refused by one of the two checks alone**: the rule for loading names it as a
violation, and a formatter is made with it. -/
theorem space_accepted_by_ofConfig :
    let c : Config := { lineTerminators := some [" "] }
    c.violations = [.spaceTerminator]
      ∧ (∀ path, c.validated.mapError (ConfigError.invalid path)
        = .error (.invalid path "A space cannot be used as a line terminator"))
      ∧ (∀ t, ofConfig c none ≠ .error (.invalidTerminator t))
      ∧ ∃ f, ofConfig c none = .ok f ∧ f.terminators.chars = ['\n', ' '] :=
  ⟨rfl, fun _ => rfl, fun _ h => (nomatch h), _, rfl, rfl⟩

end Formatter

end Caret
