import Caret.Proofs.Yaml.Nodes

/-!
# Readers that agree

Of a document of JSON and a node of YAML that is alike, values are read by two
readers. They **agree** if they never read different values. Whether both
read one at all is another question, and not settled by the shape of a node:
YAML gives up where too many aliases are followed, and refuses a
list in the place of a record.

Agreement is kept by everything that readers are made of, one law for each:
options, lists, dictionaries, fields and records.
-/

namespace Caret.Yaml

open Json (Key)

/-- **Two readers agree**: of a document and a node alike, they read no different values. -/
def Agrees {α : Type} (readJson : Json.Reader α) (readYaml : Reader α) : Prop :=
  ∀ d n a, Alike d n → readJson d = .ok a → ∀ aliases b aliases',
    (readYaml n).run aliases = some (b, aliases') → b = a

/-- Two stages that read on from each other. -/
theorem exists_of_run_bind {σ α β : Type} {x : StateT σ Option α} {f : α → StateT σ Option β}
    {s s' : σ} {b : β} (h : (x >>= f).run s = some (b, s')) :
    ∃ a s₁, x.run s = some (a, s₁) ∧ (f a).run s₁ = some (b, s') := by
  obtain ⟨⟨a, s₁⟩, hx, hf⟩ := Option.bind_eq_some_iff.1 h
  exact ⟨a, s₁, hx, hf⟩

theorem exists_of_run_map {σ α β : Type} {x : StateT σ Option α} {f : α → β} {s s' : σ} {b : β}
    (h : (f <$> x).run s = some (b, s')) : ∃ a, x.run s = some (a, s') ∧ f a = b := by
  obtain ⟨⟨a, s₁⟩, hx, heq⟩ := Option.bind_eq_some_iff.1 h
  cases heq
  exact ⟨a, hx, rfl⟩

/-! ## Texts, options and lists -/

theorem agrees_text : Agrees Json.readText readText := by
  intro d n a halike hjson aliases b aliases' hyaml
  cases halike with
  | @word _ _ value _ hvalue =>
    cases value with
    | text taken => exact absurd rfl (hvalue taken)
    | null => cases hjson
    | boolean => cases hjson
    | number => cases hjson
  | text =>
    cases hjson
    cases hyaml
    exact String.ofList_toList
  | array => cases hjson
  | object => cases hjson

namespace Agrees

variable {α : Type} {readJson : Json.Reader α} {readYaml : Reader α}

/-- What is not null in JSON is not taken for absent in YAML. -/
theorem readOption_of_alike {d : Json.Document} {n : Node Nat} (halike : Alike d n)
    (hnull : ∀ start stop, d ≠ .scalar start stop .null) :
    readOption readYaml n = some <$> readYaml n := by
  cases halike with
  | @word start stop value text _ htext =>
    have hpresent : IsPresent text := by
      cases value with
      | null => exact absurd rfl (hnull start stop)
      | boolean | number | text => exact htext
    show (if (text.isEmpty || nullWords.contains text) = true then _ else _) = _
    rw [hpresent]
    rfl
  | text | array | object => rfl

theorem option (h : Agrees readJson readYaml) :
    Agrees (Json.readOption readJson) (readOption readYaml) := by
  intro d n a halike hjson aliases b aliases' hyaml
  by_cases hnull : ∃ start stop, d = .scalar start stop .null
  · obtain ⟨start, stop, rfl⟩ := hnull
    cases halike with
    | word _ htext =>
      obtain rfl := htext
      cases hjson
      cases hyaml
      rfl
  · have hne : ∀ start stop, d ≠ .scalar start stop .null :=
      fun start stop heq => hnull ⟨start, stop, heq⟩
    rw [Json.readOption_of_ne_null readJson hne] at hjson
    rw [readOption_of_alike halike hne] at hyaml
    obtain ⟨a', ha', rfl⟩ := map_eq_ok_iff.1 hjson
    obtain ⟨b', hb', rfl⟩ := exists_of_run_map hyaml
    rw [h d n a' halike ha' aliases b' aliases' hb']

theorem mapM (h : Agrees readJson readYaml) {ds : List Json.Document} {ns : List (Node Nat)}
    (halike : AlikeItems ds ns) {as bs : List α} {aliases aliases' : Aliases}
    (hjson : ds.mapM readJson = .ok as)
    (hyaml : (ns.mapM readYaml).run aliases = some (bs, aliases')) : bs = as := by
  induction ds generalizing ns as bs aliases with
  | nil =>
    cases halike
    cases hjson
    cases hyaml
    rfl
  | cons d ds ih =>
    cases halike with
    | cons hfirst hrest =>
      rw [List.mapM_cons] at hjson hyaml
      obtain ⟨a, ha, hjson⟩ := bind_eq_ok_iff.1 hjson
      obtain ⟨as', has, heq⟩ := bind_eq_ok_iff.1 hjson
      cases heq
      obtain ⟨b, aliases₁, hb, hyaml⟩ := exists_of_run_bind hyaml
      obtain ⟨bs', aliases₂, hbs, heq⟩ := exists_of_run_bind hyaml
      cases heq
      rw [h d _ a hfirst ha aliases b aliases₁ hb, ih hrest has hbs]

theorem list (h : Agrees readJson readYaml) :
    Agrees (Json.readList readJson) (readList readYaml) := by
  intro d n a halike hjson aliases b aliases' hyaml
  cases halike with
  | word => cases hjson
  | text => cases hjson
  | array hitems =>
    obtain ⟨values, hvalues, hjson⟩ := bind_eq_ok_iff.1 hjson
    obtain ⟨_, -, heq⟩ := bind_eq_ok_iff.1 hjson
    cases heq
    obtain ⟨ns, aliases₁, hns, hyaml⟩ := exists_of_run_bind hyaml
    cases hns
    exact h.mapM hitems hvalues hyaml
  | object => cases hjson

/-- The value of a field is read alike, if it has not been read before. -/
theorem field (h : Agrees readJson readYaml) (name : String) (key : Key) (slot : Option α) :
    Agrees (Json.readField name key slot readJson) (readField slot readYaml) := by
  intro d n a halike hjson aliases b aliases' hyaml
  unfold Json.readField at hjson
  unfold readField at hyaml
  split at hjson
  · cases hjson
  · rename_i hslot
    rw [if_neg hslot] at hyaml
    obtain ⟨a', ha', rfl⟩ := map_eq_ok_iff.1 hjson
    obtain ⟨b', hb', rfl⟩ := exists_of_run_map hyaml
    rw [h d n a' halike ha' aliases b' aliases' hb']

end Agrees

/-! ## Members and entries -/

section

variable {σ : Type} {stepJson : σ → Key → String → Json.Document → Except Json.Fault σ}
  {stepYaml : σ → String → Node Nat → StateT Aliases Option σ}

/-- **Two steps agree**: with the value of a member and that of an entry alike, they lead to no
different states. -/
def AgreesStep (stepJson : σ → Key → String → Json.Document → Except Json.Fault σ)
    (stepYaml : σ → String → Node Nat → StateT Aliases Option σ) : Prop :=
  ∀ s key name, Agrees (stepJson s key name) (stepYaml s name)

/-- **Steps that agree lead through members and entries to no different states.** -/
theorem AgreesStep.fold (h : AgreesStep stepJson stepYaml) {s : σ}
    {members : List (Key × Json.Document)} {entries : List (Node Nat × Node Nat)}
    (halike : AlikeEntries members entries) {s₁ s₂ : σ} {aliases aliases' : Aliases}
    (hjson : Json.foldMembers stepJson s members = .ok s₁)
    (hyaml : (entries.foldlM
      (fun s (e : Node Nat × Node Nat) => do stepYaml s (← readText e.1) e.2) s).run aliases
        = some (s₂, aliases')) : s₂ = s₁ := by
  induction members generalizing entries s aliases with
  | nil =>
    cases halike
    cases hjson
    cases hyaml
    rfl
  | cons m ms ih =>
    cases halike with
    | @cons key t d _ n _ hkey hfirst hrest =>
      rw [Json.foldMembers, List.foldlM_cons] at hjson
      rw [List.foldlM_cons] at hyaml
      obtain ⟨s₃, hstepJson, hjson⟩ := bind_eq_ok_iff.1 hjson
      obtain ⟨name, hname, hstepJson⟩ := bind_eq_ok_iff.1 hstepJson
      obtain ⟨s₄, aliases₁, hstepYaml, hyaml⟩ := exists_of_run_bind hyaml
      obtain ⟨name', aliases₂, hname', hstepYaml⟩ := exists_of_run_bind hstepYaml
      -- The key of the entry is a scalar with the text of the member's.
      cases hname'
      rw [String.ofList_toList] at hstepYaml
      obtain rfl : t = name := Except.ok.inj (hkey.symm.trans hname)
      obtain rfl := h s key t d n s₃ hfirst hstepJson _ s₄ _ hstepYaml
      exact ih hrest hjson hyaml

theorem Agrees.dict {α : Type} {readJson : Json.Reader α} {readYaml : Reader α}
    (h : Agrees readJson readYaml) : Agrees (Json.readDict readJson) (readDict readYaml) := by
  have hstep : AgreesStep
      (fun (d : Dict α) (_ : Key) name v => return d.insert name (← readJson v))
      (fun d name v => return d.insert name (← readYaml v)) := by
    intro s key name d n s' halike hjson aliases b aliases' hyaml
    obtain ⟨a, ha, heq⟩ := bind_eq_ok_iff.1 hjson
    cases heq
    obtain ⟨b, aliases₁, hb, heq⟩ := exists_of_run_bind hyaml
    cases heq
    rw [h d n a halike ha aliases b _ hb]
  intro d n a halike hjson aliases b aliases' hyaml
  cases halike with
  | word => cases hjson
  | text => cases hjson
  | array => cases hjson
  | object hmembers =>
    obtain ⟨entries, hentries, hjson⟩ := bind_eq_ok_iff.1 hjson
    obtain ⟨_, -, heq⟩ := bind_eq_ok_iff.1 hjson
    cases heq
    exact hstep.fold hmembers hentries hyaml

/-- **Records are read alike** if their members are and nothing else is asked of them. In YAML a
list is no record. -/
theorem Agrees.record {α : Type} {r : Json.Record σ α} {f : σ → α}
    (hcomplete : ∀ s stop, r.complete s stop = .ok (f s)) (h : AgreesStep r.add stepYaml) :
    Agrees (Json.readRecord r) (fun n => do return f (← foldEntries stepYaml r.start n)) := by
  intro d n a halike hjson aliases b aliases' hyaml
  obtain ⟨s, aliases₁, hs, heq⟩ := exists_of_run_bind hyaml
  cases heq
  cases halike with
  | word => cases hjson
  | text => cases hjson
  | array => cases hs
  | object hmembers =>
    obtain ⟨s', hs', hjson⟩ := bind_eq_ok_iff.1 hjson
    obtain ⟨stop, -, hjson⟩ := bind_eq_ok_iff.1 hjson
    rw [hcomplete] at hjson
    cases hjson
    rw [h.fold hmembers hs' hs]

end

end Caret.Yaml
