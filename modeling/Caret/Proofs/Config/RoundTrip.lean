import Caret.Proofs.Config.Rules
import Caret.Proofs.Json.Forms

/-!
# Configurations read back

A configuration is written as records inside of records, and each field of them
is left out when there is nothing in it. Reading fills the fields that stand
there and gives the others their defaults. That the two fit is a fact about one
field (`foldMembers_field`): whether it was written or left out, reading goes on
behind it with the field as it was. A record is read back field by field.

Three things must not be confused on the way: a section that is absent, one that
is present and empty, and a table without entries. The first is left out, the
second is written as an empty object or array, and the third is left out as
well, since a table has no way to be absent (`Dict.nonempty?`).

The entries of a table stand in any order, in a locale's section and in the
configuration itself, so what is written is not one value. `Config.form` says
what it may be.
-/

namespace Caret

open Json

/-! ## What is written -/

/-- A table without entries counts as absent. -/
def Dict.nonempty? {α : Type} (d : Dict α) : Option (Dict α) :=
  if d.isEmpty then none else some d

theorem Dict.getD_nonempty? {α : Type} (d : Dict α) : d.nonempty?.getD .empty = d := by
  unfold nonempty?
  split
  · rename_i h
    have hnil : d.entries = [] := List.isEmpty_iff.1 h
    refine eq_of_perm ?_
    rw [hnil]
    exact List.Perm.refl _
  · rfl

/-- What is written of overrides. -/
def PhraseOverrides.form : Form PhraseOverrides := fun p v => v = p.toJson

theorem PhraseOverrides.form_toJson (p : PhraseOverrides) : form p p.toJson := rfl

/-- **What may be written of a locale's section.** -/
def LocaleSection.form : Form LocaleSection := fun s v =>
  ∃ strings, Option.Rel Form.text.dict s.strings.nonempty? strings
    ∧ v = .object (setMembers [("phrases", s.phrases.map (·.toJson)), ("strings", strings)])

/-- **What may be written of a configuration.** -/
def Config.form : Form Config := fun c v =>
  ∃ strings locales, Option.Rel Form.text.dict c.strings.nonempty? strings
    ∧ Option.Rel LocaleSection.form.dict c.locales.nonempty? locales
    ∧ v = .object (setMembers
      [("phrases", c.phrases.map (·.toJson)), ("strings", strings),
        ("lineTerminators", c.lineTerminators.map fun ts => .array (ts.map .text)),
        ("locales", locales)])

/-! ## Fields -/

section Fields

variable {σ β : Type}

/-- **Reading goes on behind a field** with the field as it was, be it written or left out. -/
theorem foldMembers_field (step : σ → Key → String → Document → Except Fault σ) {s : σ}
    {name : String} {read : Reader β} {form : Form β} (h : Undoes read form)
    (set : Option β → σ) (hunset : set none = s)
    (hstep : ∀ key d,
      step s key name d = readField name key none read d >>= fun b? => pure (set b?))
    {b? : Option β} {written : Option Value} (hwritten : Option.Rel form b? written)
    {fields : List (String × Option Value)} {members : List (Key × Document)}
    (hmembers : ShowsMembers members (setMembers ((name, written) :: fields))) :
    ∃ rest, ShowsMembers rest (setMembers fields)
      ∧ foldMembers step s members = foldMembers step (set b?) rest := by
  cases hwritten with
  | none =>
    rw [hunset]
    exact ⟨members, hmembers, rfl⟩
  | @some b v hb =>
    obtain ⟨key, d, rest, rfl, hkey, hd, hrest⟩ := hmembers.exists_of_cons
    refine ⟨rest, hrest, foldMembers_cons hkey ?_ rest⟩
    rw [hstep, readField_none (h.read_of_shows hb hd)]
    rfl

/-- What is written of a field is in range. -/
theorem inRange_of_rel {read : Reader β} {form : Form β} (h : Undoes read form)
    {b? : Option β} {written : Option Value} (hwritten : Option.Rel form b? written) :
    ∀ v ∈ written, v.InRange := by
  cases hwritten with
  | none => exact fun v hv => (nomatch hv)
  | some hb =>
    rintro v ⟨⟩
    exact h.inRange hb

theorem inRangeMembers_setMembers {fields : List (String × Option Value)}
    (h : ∀ f ∈ fields, ∀ v ∈ f.2, v.InRange) : Value.InRangeMembers (setMembers fields) := by
  refine Value.inRangeMembers_of_forall (fun m hm => ?_)
  obtain ⟨f, hf, hmap⟩ := List.mem_filterMap.1 hm
  obtain ⟨v, hv, rfl⟩ := Option.map_eq_some_iff.1 hmap
  exact h f hf v hv

/-- What may be absent is written if it is there. -/
theorem rel_present {α : Type} {form : Form α} {write : α → Value} (h : ∀ a, form a (write a))
    (a? : Option α) : Option.Rel form.present (a?.map some) (a?.map write) := by
  cases a? with
  | none => exact .none
  | some a => exact .some ⟨a, rfl, h a⟩

theorem join_map_some {α : Type} (a? : Option α) : (a?.map some).join = a? := by
  cases a? with
  | none => rfl
  | some a => rfl

end Fields

/-! ## Records -/

theorem undoes_optional_text : Undoes (readOption readText) Form.text.present :=
  undoes_text.present (fun _ h => nomatch h)

/-- **Overrides are read back.** -/
theorem undoes_phrases : Undoes readPhrases PhraseOverrides.form where
  inRange := by
    rintro p _ rfl
    refine inRangeMembers_setMembers ?_
    simp only [Word.all, List.map_cons, List.map_nil, List.forall_mem_cons]
    have hword : ∀ w, ∀ v ∈ (p.get w).map Value.text, v.InRange := by
      rintro w v hv
      obtain ⟨text, -, rfl⟩ := Option.map_eq_some_iff.1 hv
      exact trivial
    exact ⟨hword .near, hword .line, hword .column, List.forall_mem_nil _⟩
  read_of_shows := by
    rintro p _ d rfl hd
    obtain ⟨start, members, stop, rfl, hmembers⟩ := hd.exists_of_object
    obtain ⟨members₁, h₁, hnear⟩ := foldMembers_field phraseRecord.add
      (s := {}) undoes_optional_text (fun near => { near }) rfl (fun _ _ => rfl)
      (rel_present Form.text_self p.near) hmembers
    obtain ⟨members₂, h₂, hline⟩ := foldMembers_field phraseRecord.add
      undoes_optional_text (fun line => { near := p.near.map some, line }) rfl (fun _ _ => rfl)
      (rel_present Form.text_self p.line) h₁
    obtain ⟨members₃, h₃, hcolumn⟩ := foldMembers_field phraseRecord.add
      undoes_optional_text
      (fun column => { near := p.near.map some, line := p.line.map some, column }) rfl
      (fun _ _ => rfl) (rel_present Form.text_self p.column) h₂
    cases h₃
    have hfields : foldMembers phraseRecord.add phraseRecord.start members
        = .ok ⟨p.near.map some, p.line.map some, p.column.map some⟩ :=
      hnear.trans (hline.trans hcolumn)
    rw [readPhrases, readRecord_of_closed hfields]
    show Except.ok (PhraseFields.overrides _) = _
    unfold PhraseFields.overrides
    simp only [join_map_some]

theorem undoes_strings : Undoes readStrings Form.text.dict := undoes_text.dict

theorem undoes_optional_phrases :
    Undoes (readOption readPhrases) (Form.present PhraseOverrides.form) :=
  undoes_phrases.present (fun _ h => nomatch h)

/-- **A locale's section is read back.** -/
theorem undoes_locale : Undoes readLocale LocaleSection.form where
  inRange := by
    rintro s _ ⟨strings, hstrings, rfl⟩
    refine inRangeMembers_setMembers ?_
    simp only [List.forall_mem_cons]
    exact ⟨
      inRange_of_rel undoes_optional_phrases (rel_present PhraseOverrides.form_toJson s.phrases),
      inRange_of_rel undoes_strings hstrings, List.forall_mem_nil _⟩
  read_of_shows := by
    rintro s _ d ⟨strings, hstrings, rfl⟩ hd
    obtain ⟨start, members, stop, rfl, hmembers⟩ := hd.exists_of_object
    obtain ⟨members₁, h₁, hphrases⟩ := foldMembers_field localeRecord.add
      undoes_optional_phrases (fun phrases => { phrases }) rfl (fun _ _ => rfl)
      (rel_present PhraseOverrides.form_toJson s.phrases) hmembers
    obtain ⟨members₂, h₂, hstrings⟩ := foldMembers_field localeRecord.add
      undoes_strings (fun strings => { phrases := s.phrases.map some, strings }) rfl
      (fun _ _ => rfl) hstrings h₁
    cases h₂
    have hfields : foldMembers localeRecord.add localeRecord.start members
        = .ok ⟨s.phrases.map some, s.strings.nonempty?⟩ := hphrases.trans hstrings
    rw [readLocale, readRecord_of_closed hfields]
    show Except.ok (LocaleFields.section _) = _
    unfold LocaleFields.section
    simp only [join_map_some, Dict.getD_nonempty?]

theorem undoes_terminators :
    Undoes (readOption (readList readText)) (Form.present Form.text.list) :=
  undoes_text.list.present (fun _ ⟨_, _, h⟩ => nomatch h)

theorem list_text (ts : List String) : Form.text.list ts (.array (ts.map .text)) := by
  refine ⟨ts.map .text, ?_, rfl⟩
  rw [List.forall₂_map_right_iff]
  exact List.forall₂_same.2 (fun _ _ => rfl)

/-- **A configuration is read back.** -/
theorem undoes_config : Undoes readConfig Config.form where
  inRange := by
    rintro c _ ⟨strings, locales, hstrings, hlocales, rfl⟩
    refine inRangeMembers_setMembers ?_
    simp only [List.forall_mem_cons]
    exact ⟨
      inRange_of_rel undoes_optional_phrases (rel_present PhraseOverrides.form_toJson c.phrases),
      inRange_of_rel undoes_strings hstrings,
      inRange_of_rel undoes_terminators (rel_present list_text c.lineTerminators),
      inRange_of_rel undoes_locale.dict hlocales, List.forall_mem_nil _⟩
  read_of_shows := by
    rintro c _ d ⟨strings, locales, hstrings, hlocales, rfl⟩ hd
    obtain ⟨start, members, stop, rfl, hmembers⟩ := hd.exists_of_object
    obtain ⟨members₁, h₁, hphrases⟩ := foldMembers_field configRecord.add
      undoes_optional_phrases (fun phrases => { phrases }) rfl (fun _ _ => rfl)
      (rel_present PhraseOverrides.form_toJson c.phrases) hmembers
    obtain ⟨members₂, h₂, hstrings⟩ := foldMembers_field configRecord.add
      undoes_strings (fun strings => { phrases := c.phrases.map some, strings }) rfl
      (fun _ _ => rfl) hstrings h₁
    obtain ⟨members₃, h₃, hterminators⟩ := foldMembers_field configRecord.add
      undoes_terminators
      (fun lineTerminators =>
        { phrases := c.phrases.map some, strings := c.strings.nonempty?, lineTerminators }) rfl
      (fun _ _ => rfl) (rel_present list_text c.lineTerminators) h₂
    obtain ⟨members₄, h₄, hlocales⟩ := foldMembers_field configRecord.add
      undoes_locale.dict
      (fun locales =>
        { phrases := c.phrases.map some, strings := c.strings.nonempty?
          lineTerminators := c.lineTerminators.map some, locales }) rfl
      (fun _ _ => rfl) hlocales h₃
    cases h₄
    have hfields : foldMembers configRecord.add configRecord.start members
        = .ok ⟨c.phrases.map some, c.strings.nonempty?, c.lineTerminators.map some,
            c.locales.nonempty?⟩ :=
      hphrases.trans (hstrings.trans (hterminators.trans hlocales))
    rw [readConfig, readRecord_of_closed hfields]
    show Except.ok (ConfigFields.config _) = _
    unfold ConfigFields.config
    simp only [join_map_some, Dict.getD_nonempty?]

/-! ## What the library writes -/

/-- A table may be written with its entries in the order of their keys. -/
theorem Dict.rel_toJson? {α : Type} {form : Form α} {write : α → Value}
    (h : ∀ a, form a (write a)) (d : Dict α) :
    Option.Rel form.dict d.nonempty? (d.toJson? write) := by
  unfold nonempty? toJson?
  split
  · exact .none
  · refine .some ⟨d.entries, _, List.Perm.refl _, ?_, rfl⟩
    rw [List.forall₂_map_right_iff]
    exact List.forall₂_same.2 (fun e _ => ⟨rfl, h e.2⟩)

theorem LocaleSection.form_toJson (s : LocaleSection) : form s s.toJson :=
  ⟨_, Dict.rel_toJson? Form.text_self s.strings, rfl⟩

/-- **The form that the library writes** is one of those a configuration may be written in. -/
theorem Config.form_toJson (c : Config) : form c c.toJson :=
  ⟨_, _, Dict.rel_toJson? Form.text_self c.strings,
    Dict.rel_toJson? LocaleSection.form_toJson c.locales, rfl⟩

/-! ## Loading -/

/-- The text of an object is not blank. -/
theorem isBlank_write_object (l : Layout) (ms : List (String × Value)) :
    Text.isBlank (String.ofList ((Value.object ms).write l 0)) = false := by
  have hbrace : ∃ rest, (Value.object ms).write l 0 = '\x7b' :: rest := by
    cases ms with
    | nil => exact ⟨['\x7d'], rfl⟩
    | cons m ms =>
      rw [Value.write]
      exact ⟨_, rfl⟩
  obtain ⟨rest, hrest⟩ := hbrace
  unfold Text.isBlank
  rw [String.toList_ofList, hrest, List.all_cons]
  rfl

namespace Config

/-- A text in JSON is loaded by parsing it and validating what comes out. -/
theorem load_of_ofJson {text path : String} {c : Config} (hblank : Text.isBlank text = false)
    (hpath : Path.extension? path = some "json") (hparse : ofJson text = .ok c) :
    load text path = c.validated.mapError fun message => .invalid path message := by
  have hformat : ConfigFormat.ofPath? path = some .json := by
    unfold ConfigFormat.ofPath?
    rw [hpath]
    rfl
  have hjson : parse .json text = .ok c := by
    show parseJson text = .ok c
    unfold parseJson
    rw [hparse]
    rfl
  exact load_of_parse hblank hformat hjson

/-- What is written of a configuration is loaded by validating the configuration. -/
theorem load_write {c : Config} {v : Value} (hv : form c v) (l : Layout) {path : String}
    (hpath : Path.extension? path = some "json") :
    load (String.ofList (v.write l 0)) path
      = c.validated.mapError fun message => .invalid path message := by
  refine load_of_ofJson ?_ hpath (undoes_config.readTextAs hv l)
  obtain ⟨strings, locales, -, -, rfl⟩ := hv
  exact isBlank_write_object l _

/-- **Loading undoes writing.** Whatever is written of a configuration, with the entries of its
tables in any order and in any layout, is loaded from a JSON file as that configuration if it
follows the rules. If it does not, the first of its violations is reported, and nothing is
loaded. What the library writes is one of the forms. -/
theorem load_inverts_write (c : Config) :
    form c c.toJson
      ∧ ∀ (v : Value) (l : Layout) (path : String), form c v →
        Path.extension? path = some "json" →
        (c.FollowsRules → load (String.ofList (v.write l 0)) path = .ok c)
          ∧ (¬ c.FollowsRules → ∃ violation ∈ c.violations.head?,
              load (String.ofList (v.write l 0)) path
                = .error (.invalid path violation.message)) := by
  refine ⟨form_toJson c, fun v l path hv hpath => ⟨fun hrules => ?_, fun hrules => ?_⟩⟩
  · rw [load_write hv l hpath, validated_of_followsRules hrules]
    rfl
  · obtain ⟨violation, hfirst, hvalidated⟩ := validated_of_not_followsRules hrules
    refine ⟨violation, hfirst, ?_⟩
    rw [load_write hv l hpath, hvalidated]
    rfl

/-- Sections that are present and empty come back as such, and tables that are written from
their last entry to their first come back in order. -/
theorem load_inverts_write_shuffled :
    let strings : Dict String := ⟨[("a", ""), ("b\"\u2028", "😀\\")], by decide⟩
    let locales : Dict LocaleSection :=
      ⟨[("de", { phrases := some {}, strings }), ("fr", {})], by decide⟩
    let c : Config := { phrases := some {}, strings, lineTerminators := some [], locales }
    let members := [("b\"\u2028", Value.text "😀\\"), ("a", .text "")]
    let de := Value.object [("phrases", .object []), ("strings", .object members)]
    let v : Value := .object
      [("phrases", .object []), ("strings", .object members), ("lineTerminators", .array []),
        ("locales", .object [("fr", .object []), ("de", de)])]
    form c v ∧ Path.extension? "conf/.querydiagrc.json" = some "json" ∧ c.FollowsRules
      ∧ load v.toWide "conf/.querydiagrc.json" = .ok c := by
  intro strings locales c members de v
  have hstrings : Form.text.dict strings (.object members) :=
    ⟨[("b\"\u2028", "😀\\"), ("a", "")], members, List.Perm.swap _ _ _,
      .cons ⟨rfl, rfl⟩ (.cons ⟨rfl, rfl⟩ .nil), rfl⟩
  have hde : LocaleSection.form { phrases := some {}, strings } de :=
    ⟨some (.object members), .some hstrings, rfl⟩
  have hfr : LocaleSection.form {} (.object []) := ⟨none, .none, rfl⟩
  have hlocales : LocaleSection.form.dict locales (.object [("fr", .object []), ("de", de)]) :=
    ⟨[("fr", {}), ("de", { phrases := some {}, strings })], _, List.Perm.swap _ _ _,
      .cons ⟨rfl, hfr⟩ (.cons ⟨rfl, hde⟩ .nil), rfl⟩
  have hform : form c v := ⟨_, _, .some hstrings, .some hlocales, rfl⟩
  have hpath : Path.extension? "conf/.querydiagrc.json" = some "json" := by decide
  have hrules : c.FollowsRules := isValid_iff.1 (by decide)
  exact ⟨hform, hpath, hrules, ((load_inverts_write c).2 v .wide _ hform hpath).1 hrules⟩

end Config

end Caret
