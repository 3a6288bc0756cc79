import Caret.Proofs.Config.Rules
import Caret.Proofs.Json.Faults
import Caret.Proofs.Yaml.Agreement

/-!
# Configurations in either format

A bare configuration file is read as YAML, and as JSON only if that fails. So a
configuration that is written in JSON is mostly read by the reader for the other
format. `parse_either` says that this makes no difference, as long as the text is
fold-free: what is read in YAML, if anything is, is what is read in JSON.

The two readers are compared part by part. A reader of JSON and one of YAML are
**trusted** together if the first gets past no fault, so that it tells what all of the
text is, and if the second agrees with it on nodes that are alike. Both properties
are kept by all that readers are made of, and so the readers of the three records
are trusted.

Folding is the one thing that the formats do not share, and a text that is not
fold-free may be altered by it, or refused.
-/

namespace Caret

open Json (Key Wary)
open Yaml (Agrees IsFoldFree)

/-! ## Readers that can be trusted -/

/-- **A reader of JSON and one of YAML that can be trusted together**: the first gets past no fault,
and the second reads nothing else. -/
structure Trusted {α : Type} (readJson : Json.Reader α) (readYaml : Yaml.Reader α) : Prop where
  wary : Wary readJson
  agrees : Agrees readJson readYaml

theorem trusted_text : Trusted Json.readText Yaml.readText :=
  ⟨Json.wary_text, Yaml.agrees_text⟩

namespace Trusted

variable {α β : Type} {readJson : Json.Reader α} {readYaml : Yaml.Reader α}

theorem option (h : Trusted readJson readYaml) :
    Trusted (Json.readOption readJson) (Yaml.readOption readYaml) :=
  ⟨h.wary.option, h.agrees.option⟩

theorem list (h : Trusted readJson readYaml) :
    Trusted (Json.readList readJson) (Yaml.readList readYaml) :=
  ⟨h.wary.list, h.agrees.list⟩

theorem dict (h : Trusted readJson readYaml) :
    Trusted (Json.readDict readJson) (Yaml.readDict readYaml) :=
  ⟨h.wary.dict, h.agrees.dict⟩

/-- The value of a field is added to what has been read. -/
theorem field (h : Trusted readJson readYaml) (name : String) (key : Key) (slot : Option α)
    (set : Option α → β) :
    Trusted (fun d => do return set (← Json.readField name key slot readJson d))
      (fun n => do return set (← Yaml.readField slot readYaml n)) where
  wary d b hread := by
    obtain ⟨a, ha, -⟩ := bind_eq_ok_iff.1 hread
    exact h.wary.field name key slot d a ha
  agrees d n b halike hjson aliases b' aliases' hyaml := by
    obtain ⟨a, ha, heq⟩ := bind_eq_ok_iff.1 hjson
    cases heq
    obtain ⟨a', aliases₁, ha', heq⟩ := Yaml.exists_of_run_bind hyaml
    cases heq
    rw [h.agrees.field name key slot d n a halike ha aliases a' _ ha']

/-- A member without a meaning is skipped. -/
theorem skip (s : β) : Trusted (fun d => do d.skip; return s) (fun _ => return s) where
  wary d b hread := by
    obtain ⟨_, hskip, -⟩ := bind_eq_ok_iff.1 hread
    exact fun hfaulty => hfaulty.skip_ne_ok hskip
  agrees d n b halike hjson aliases b' aliases' hyaml := by
    obtain ⟨_, -, heq⟩ := bind_eq_ok_iff.1 hjson
    cases heq
    cases hyaml
    rfl

/-- **A record can be trusted** if its members can, and the elements of an array in its place. -/
theorem record {σ : Type} {r : Json.Record σ α} {stepYaml : σ → String → Yaml.Node Nat →
      StateT Yaml.Aliases Option σ} {f : σ → α}
    (hcomplete : ∀ s stop, r.complete s stop = .ok (f s))
    (hstep : ∀ s key name, Trusted (r.add s key name) (stepYaml s name))
    (hitems : ∀ read ∈ r.ofItems?, ∀ items close a, read items close = .ok a →
      (∀ d ∈ items, ¬ d.Faulty) ∧ ¬ close.IsFault) :
    Trusted (Json.readRecord r) (fun n => do return f (← Yaml.foldEntries stepYaml r.start n)) where
  wary := Wary.record (fun s key name => (hstep s key name).wary) hitems
  agrees := Agrees.record hcomplete fun s key name => (hstep s key name).agrees

end Trusted

/-! ## Records -/

theorem trusted_phraseField (s : PhraseFields) (key : Key) (name : String) :
    Trusted (phraseRecord.add s key name) (Yaml.addPhraseField s name) := by
  have hread := trusted_text.option
  by_cases hnear : name = "near"
  · subst hnear
    exact hread.field "near" key s.near fun near => { s with near }
  by_cases hline : name = "line"
  · subst hline
    exact hread.field "line" key s.line fun line => { s with line }
  by_cases hcolumn : name = "column"
  · subst hcolumn
    exact hread.field "column" key s.column fun column => { s with column }
  have hjson : phraseRecord.add s key name = fun d => do d.skip; return s := by
    funext d
    unfold phraseRecord
    dsimp only
    split
    · contradiction
    · contradiction
    · contradiction
    · rfl
  have hyaml : Yaml.addPhraseField s name = fun _ => return s := by
    funext n
    unfold Yaml.addPhraseField
    split
    · contradiction
    · contradiction
    · contradiction
    · rfl
  rw [hjson, hyaml]
  exact Trusted.skip s

theorem trusted_phrases : Trusted readPhrases Yaml.readPhrases := by
  refine Trusted.record (fun _ _ => rfl) trusted_phraseField ?_
  rintro _ ⟨⟩ items close a h
  obtain ⟨⟨near, items₁⟩, hnear, h⟩ := bind_eq_ok_iff.1 h
  obtain ⟨⟨line, items₂⟩, hline, h⟩ := bind_eq_ok_iff.1 h
  obtain ⟨⟨column, items₃⟩, hcolumn, h⟩ := bind_eq_ok_iff.1 h
  obtain ⟨_, hend, -⟩ := bind_eq_ok_iff.1 h
  obtain ⟨hitems, hclose⟩ := Json.endItems_eq_ok hend
  have hread := trusted_text.option.wary
  refine ⟨hread.requireItem hnear (hread.requireItem hline (hread.requireItem hcolumn ?_)), hclose⟩
  rw [hitems]
  exact List.forall_mem_nil _

theorem trusted_localeField (s : LocaleFields) (key : Key) (name : String) :
    Trusted (localeRecord.add s key name) (Yaml.addLocaleField s name) := by
  by_cases hphrases : name = "phrases"
  · subst hphrases
    exact trusted_phrases.option.field "phrases" key s.phrases fun phrases => { s with phrases }
  by_cases hstrings : name = "strings"
  · subst hstrings
    exact trusted_text.dict.field "strings" key s.strings fun strings => { s with strings }
  have hjson : localeRecord.add s key name = fun d => do d.skip; return s := by
    funext d
    unfold localeRecord
    dsimp only
    split
    · contradiction
    · contradiction
    · rfl
  have hyaml : Yaml.addLocaleField s name = fun _ => return s := by
    funext n
    unfold Yaml.addLocaleField
    split
    · contradiction
    · contradiction
    · rfl
  rw [hjson, hyaml]
  exact Trusted.skip s

theorem trusted_locale : Trusted readLocale Yaml.readLocale := by
  refine Trusted.record (fun _ _ => rfl) trusted_localeField ?_
  rintro _ ⟨⟩ items close a h
  obtain ⟨⟨phrases, items₁⟩, hphrases, h⟩ := bind_eq_ok_iff.1 h
  obtain ⟨⟨strings, items₂⟩, hstrings, h⟩ := bind_eq_ok_iff.1 h
  obtain ⟨_, hend, -⟩ := bind_eq_ok_iff.1 h
  obtain ⟨hitems, hclose⟩ := Json.endItems_eq_ok hend
  refine ⟨trusted_phrases.option.wary.nextItem hphrases
    (trusted_text.dict.wary.nextItem hstrings ?_), hclose⟩
  rw [hitems]
  exact List.forall_mem_nil _

theorem trusted_configField (s : ConfigFields) (key : Key) (name : String) :
    Trusted (configRecord.add s key name) (Yaml.addConfigField s name) := by
  by_cases hphrases : name = "phrases"
  · subst hphrases
    exact trusted_phrases.option.field "phrases" key s.phrases fun phrases => { s with phrases }
  by_cases hstrings : name = "strings"
  · subst hstrings
    exact trusted_text.dict.field "strings" key s.strings fun strings => { s with strings }
  by_cases hterminators : name = "lineTerminators"
  · subst hterminators
    exact trusted_text.list.option.field "lineTerminators" key s.lineTerminators
      fun lineTerminators => { s with lineTerminators }
  by_cases hlocales : name = "locales"
  · subst hlocales
    exact trusted_locale.dict.field "locales" key s.locales fun locales => { s with locales }
  have hjson : configRecord.add s key name = fun d => do d.skip; return s := by
    funext d
    unfold configRecord
    dsimp only
    split
    · contradiction
    · contradiction
    · contradiction
    · contradiction
    · rfl
  have hyaml : Yaml.addConfigField s name = fun _ => return s := by
    funext n
    unfold Yaml.addConfigField
    split
    · contradiction
    · contradiction
    · contradiction
    · contradiction
    · rfl
  rw [hjson, hyaml]
  exact Trusted.skip s

theorem trusted_config : Trusted readConfig Yaml.readConfig := by
  refine Trusted.record (fun _ _ => rfl) trusted_configField ?_
  rintro _ ⟨⟩ items close a h
  obtain ⟨⟨phrases, items₁⟩, hphrases, h⟩ := bind_eq_ok_iff.1 h
  obtain ⟨⟨strings, items₂⟩, hstrings, h⟩ := bind_eq_ok_iff.1 h
  obtain ⟨⟨terminators, items₃⟩, hterminators, h⟩ := bind_eq_ok_iff.1 h
  obtain ⟨⟨locales, items₄⟩, hlocales, h⟩ := bind_eq_ok_iff.1 h
  obtain ⟨_, hend, -⟩ := bind_eq_ok_iff.1 h
  obtain ⟨hitems, hclose⟩ := Json.endItems_eq_ok hend
  refine ⟨trusted_phrases.option.wary.nextItem hphrases
    (trusted_text.dict.wary.nextItem hstrings
      (trusted_text.list.option.wary.nextItem hterminators
        (trusted_locale.dict.wary.nextItem hlocales ?_))), hclose⟩
  rw [hitems]
  exact List.forall_mem_nil _

/-! ## Whole texts -/

/-- **A record of JSON and one of YAML in one text are the same**, if the text is fold-free. -/
theorem eq_of_readTextAs {σ α : Type} {r : Json.Record σ α} {readYaml : Yaml.Reader α}
    (h : Trusted (Json.readRecord r) readYaml) {text : String} (hfold : IsFoldFree text.toList)
    {a b : α} (hjson : Json.readTextAs (Json.readRecord r) text = .ok a)
    (hyaml : Yaml.readTextAs readYaml text = some b) : b = a := by
  obtain ⟨d, trailing, hdocument⟩ :
      ∃ d trailing, Json.Document.ofText text.toList = (d, trailing) := ⟨_, _, rfl⟩
  unfold Json.readTextAs at hjson
  dsimp only at hjson
  rw [hdocument] at hjson
  obtain ⟨a', hread, hend⟩ := bind_eq_ok_iff.1 (mapError_eq_ok_iff.1 hjson)
  cases trailing with
  | some f => cases hend
  | none =>
    cases hend
    have hwary := h.wary d a hread
    have hcontainer : ∀ start stop value, d ≠ .scalar start stop value := by
      rintro start stop value rfl
      cases hread
    have hlexemes := Json.hasLexemes_of_ofText hdocument hwary
    obtain ⟨document, hofText, hroot⟩ := Option.bind_eq_some_iff.1 hyaml
    obtain ⟨n, hn, halike⟩ := Yaml.alike_of_ofText? hlexemes hwary hcontainer hfold hofText
    rw [hn] at hroot
    obtain ⟨⟨b', aliases⟩, hrun, rfl⟩ := Option.map_eq_some_iff.1 hroot
    exact h.agrees d n a halike hread _ b' aliases hrun

namespace Config

/-- **What is read in JSON is what is read in YAML**, if anything is, of a fold-free text. -/
theorem eq_of_ofJson {text : String} (hfold : IsFoldFree text.toList) {c c' : Config}
    (hjson : ofJson text = .ok c) (hyaml : ofYaml? text = some c') : c' = c :=
  eq_of_readTextAs trusted_config hfold hjson hyaml

/-- Where YAML is tried first, a fold-free text in JSON is still read as in JSON. -/
theorem parse_either {text : String} (hfold : IsFoldFree text.toList) {c : Config}
    (h : parse .json text = .ok c) : parse .either text = .ok c := by
  have hjson : ofJson text = .ok c := mapError_eq_ok_iff.1 h
  unfold parse parseYaml
  cases hyaml : ofYaml? text with
  | none => exact h
  | some c' => rw [eq_of_ofJson hfold hjson hyaml]

theorem ofPath?_of_querydiagrc {path : String} (h : Path.fileName? path = some ".querydiagrc") :
    ConfigFormat.ofPath? path = some .either := by
  have hself : Path.fileName? ".querydiagrc" = some ".querydiagrc" := by decide
  rw [ofPath?_of_fileName? (h.trans hself.symm)]
  decide

/-- **A configuration in JSON means the same in a bare file.** -/
theorem load_querydiagrc {text jsonPath path : String} {c : Config}
    (hjsonPath : Path.extension? jsonPath = some "json")
    (hpath : Path.fileName? path = some ".querydiagrc") (hfold : IsFoldFree text.toList)
    (h : load text jsonPath = .ok c) : load text path = .ok c := by
  have hformat : ConfigFormat.ofPath? jsonPath = some .json := by
    unfold ConfigFormat.ofPath?
    rw [hjsonPath]
    rfl
  unfold load at h ⊢
  rw [hformat] at h
  rw [ofPath?_of_querydiagrc hpath]
  split
  · rename_i hblank
    rw [if_pos hblank] at h
    exact h
  · rename_i hblank
    rw [if_neg hblank] at h
    obtain ⟨c', hparse, hvalid⟩ := bind_eq_ok_iff.1 (mapError_eq_ok_iff.1 h)
    exact mapError_eq_ok_iff.2 (bind_eq_ok_iff.2 ⟨c', parse_either hfold hparse, hvalid⟩)

/-- A text with two separators in a key and U+0085 in an escape is fold-free. -/
theorem load_querydiagrc_separators :
    let text :=
      "\x7b \"strings\": \x7b\"a\u2028\u2029b\": \"\\u0085 c\"\x7d, \"x\": [-1.5e3, null]\x7d\n"
    let c : Config := { strings := ⟨[("a\u2028\u2029b", "\u0085 c")], by decide⟩ }
    Path.extension? "conf.json" = some "json"
      ∧ Path.fileName? "conf/.querydiagrc" = some ".querydiagrc" ∧ IsFoldFree text.toList
      ∧ load text "conf.json" = .ok c ∧ load text "conf/.querydiagrc" = .ok c := by
  intro text c
  have hjsonPath : Path.extension? "conf.json" = some "json" := by decide
  have hpath : Path.fileName? "conf/.querydiagrc" = some ".querydiagrc" := by decide
  have hfold : IsFoldFree text.toList := by decide +kernel
  have hload : load text "conf.json" = .ok c := eq_ok_of_toOption (by decide +kernel)
  exact ⟨hjsonPath, hpath, hfold, hload, load_querydiagrc hjsonPath hpath hfold hload⟩

/-- **A line break between quotation marks is folded in a bare file**: U+0085 becomes a space,
which is then refused, and the space before U+2028 is lost without a word. -/
theorem load_querydiagrc_folded :
    let refused := "\x7b\"lineTerminators\":[\"\u0085\"]\x7d"
    let altered := "\x7b\"strings\":\x7b\"a\":\"b \u2028c\"\x7d\x7d"
    Path.extension? "a.json" = some "json" ∧ Path.fileName? ".querydiagrc" = some ".querydiagrc"
      ∧ load refused "a.json" = .ok { lineTerminators := some ["\u0085"] }
      ∧ load refused ".querydiagrc"
        = .error (.invalid ".querydiagrc" "A space cannot be used as a line terminator")
      ∧ load altered "a.json" = .ok { strings := ⟨[("a", "b \u2028c")], by decide⟩ }
      ∧ load altered ".querydiagrc" = .ok { strings := ⟨[("a", "b\u2028c")], by decide⟩ } := by
  intro refused altered
  refine ⟨by decide, by decide, eq_ok_of_toOption (by decide +kernel), ?_,
    eq_ok_of_toOption (by decide +kernel), eq_ok_of_toOption (by decide +kernel)⟩
  decide +kernel

end Config

end Caret
