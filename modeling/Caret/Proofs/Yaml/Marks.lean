import Caret.Proofs.Yaml.Layout

/-!
# The tokens of a JSON text

A document of JSON **marks** tokens if these are what YAML makes of its lexemes.
They follow the document in shape, with a bracket for each end of a container and a
comma between elements. Two things are left open, as the text decides them and the
tree does not: whether a key is marked as one, and whether a line ends behind a
plain scalar.

If a fold-free text of a document has tokens at all, then the document marks them
(`marks_of_tokens?`). This is shown along the document, for a value, for the elements
of an array and for the members of an object at once, from any layout midway in
a text: what is left of the text may be anything that ends a value.
-/

namespace Caret.Yaml

open Json (HasLexemes LexemeKind Key kindsItems kindsMembers)

/-! ## Tokens of documents -/

/-- The comma before an element; there is none before the first one. -/
def commaUnless (isFirst : Bool) : List Token :=
  if isFirst then [] else [.lexeme .comma]

mutual

/-- **A document marks tokens**: these are what YAML makes of its lexemes. -/
inductive Marks : Json.Document → List Token → Prop
  | word {start stop value text endsLine} (hvalue : ∀ r, value ≠ .text r)
    (htext : IsWordOf value text) :
    Marks (.scalar start stop value) [.lexeme (.plain text endsLine)]
  | text {start stop t} :
    Marks (.scalar start stop (.text (.ok t))) [.lexeme (.quoted t.toList)]
  | array {start items close ts} (hitems : MarksItems true items ts) :
    Marks (.array start items close) (.lexeme (.open false) :: ts)
  | object {start members close ts} (hmembers : MarksMembers true members ts) :
    Marks (.object start members close) (.lexeme (.open true) :: ts)

/-- Elements mark tokens, up to the end of their array. -/
inductive MarksItems : Bool → List Json.Document → List Token → Prop
  | nil {isFirst} : MarksItems isFirst [] [.lexeme (.close false)]
  | cons {isFirst d ds ts rest} (hfirst : Marks d ts) (hrest : MarksItems false ds rest) :
    MarksItems isFirst (d :: ds) (commaUnless isFirst ++ (ts ++ rest))

/-- Members mark tokens, up to the end of their object. A key may or may not be marked as one. -/
inductive MarksMembers : Bool → List (Key × Json.Document) → List Token → Prop
  | nil {isFirst} : MarksMembers isFirst [] [.lexeme (.close true)]
  | cons {isFirst key t d ms mark ts rest} (hkey : key.text = .ok t)
    (hmark : mark = [] ∨ mark = [.lexeme .key]) (hfirst : Marks d ts)
    (hrest : MarksMembers false ms rest) :
    MarksMembers isFirst ((key, d) :: ms) (commaUnless isFirst
      ++ (mark ++ .lexeme (.quoted t.toList) :: .lexeme .value :: (ts ++ rest)))

end

/-! ## Runs -/

/-- What follows a value between brackets ends it. -/
def FollowsValue (kinds : List LexemeKind) : Prop :=
  ∃ kind rest, kinds = kind :: rest ∧ EndsValue kind

theorem followsValue_items (items : List Json.Document) (kinds : List LexemeKind) :
    FollowsValue (kindsItems items ++ .closeBracket :: kinds) := by
  cases items with
  | nil => exact ⟨_, _, rfl, trivial⟩
  | cons d ds => exact ⟨_, _, rfl, trivial⟩

theorem followsValue_members (members : List (Key × Json.Document)) (kinds : List LexemeKind) :
    FollowsValue (kindsMembers members ++ .closeBrace :: kinds) := by
  cases members with
  | nil => exact ⟨_, _, rfl, trivial⟩
  | cons m ms => exact ⟨_, _, rfl, trivial⟩

/-- The kinds of elements, of which the first has no comma before it. -/
def kindsFrom (isFirst : Bool) (kinds : List LexemeKind) : List LexemeKind :=
  if isFirst then kinds.tail else kinds

theorem kindsFrom_nil (isFirst : Bool) : kindsFrom isFirst [] = [] := by
  cases isFirst with
  | true => rfl
  | false => rfl

theorem kindsFrom_cons_append (isFirst : Bool) (kind : LexemeKind)
    (kinds kinds' : List LexemeKind) :
    kindsFrom isFirst (kind :: kinds) ++ kinds'
      = kindsFrom isFirst (kind :: (kinds ++ kinds')) := by
  cases isFirst with
  | true => rfl
  | false => rfl

namespace Midway

variable {ts tokens : List Token} {depth : Nat} {kinds : List LexemeKind} {s : Layout}

/-- The comma before an element is read, if there is one. -/
theorem lead {isFirst : Bool}
    (h : Midway ts tokens (depth + 1) (kindsFrom isFirst (.comma :: kinds)) s)
    (hallowed : isFirst = true → s.keyAllowed = true) :
    ∃ next, Midway ts ((commaUnless isFirst).reverse ++ tokens) (depth + 1) kinds next
      ∧ next.keyAllowed = true := by
  cases isFirst with
  | true => exact ⟨s, h, hallowed rfl⟩
  | false => exact h.comma

/-- A scalar that is no text is read. -/
theorem scalar {start stop : Nat} {value : Json.Scalar} (hvalue : ∀ r, value ≠ .text r)
    (h : Midway ts tokens (depth + 1) (.scalar value :: kinds) s) (hkinds : FollowsValue kinds) :
    ∃ added next, Marks (.scalar start stop value) added
      ∧ Midway ts (added.reverse ++ tokens) (depth + 1) kinds next := by
  obtain ⟨kind, rest, rfl, hkind⟩ := hkinds
  obtain ⟨text, endsLine, next, htext, hnext⟩ := h.word hvalue hkind
  exact ⟨_, next, .word hvalue htext, hnext⟩

mutual

/-- **A value is read** up to what follows it. It is one between brackets, or a container. -/
theorem value (d : Json.Document) (hd : ¬ d.Faulty) {tokens : List Token} {depth : Nat}
    {kinds : List LexemeKind} {s : Layout} (h : Midway ts tokens depth (d.kinds ++ kinds) s)
    (hplace : depth ≠ 0 ∧ FollowsValue kinds
      ∨ s.keyAllowed = true ∧ ∀ start stop value, d ≠ .scalar start stop value) :
    ∃ added next, Marks d added ∧ Midway ts (added.reverse ++ tokens) depth kinds next := by
  have hallowed := hplace.imp And.left And.left
  match d with
  | .scalar start stop value =>
    obtain ⟨hdepth, hkinds⟩ := hplace.resolve_right fun hplace => hplace.2 start stop value rfl
    obtain ⟨depth, rfl⟩ := Nat.exists_eq_succ_of_ne_zero hdepth
    cases value with
    | text taken =>
      obtain ⟨t, next, rfl, hnext, -⟩ := h.text
      exact ⟨_, next, .text, hnext⟩
    | null => exact scalar nofun h hkinds
    | boolean b => exact scalar nofun h hkinds
    | number n => exact scalar nofun h hkinds
  | .array start items close =>
    have hitems : ∀ d ∈ items, ¬ d.Faulty := fun d hmem hfaulty => hd (.item hmem hfaulty)
    have hmark : mark? .openBracket = some (.open false) := rfl
    rw [Json.Document.kinds, List.cons_append, List.append_assoc] at h
    obtain ⟨s₁, hopen, hallowed₁⟩ := h.openBracket hmark hallowed
    obtain ⟨added, next, hadded, hnext⟩ := elements items hitems true hopen fun _ => hallowed₁
    refine ⟨_, next, .array hadded, ?_⟩
    rw [List.reverse_cons, List.append_assoc]
    exact hnext
  | .object start members close =>
    have hmembers : ∀ m ∈ members, ¬ m.2.Faulty := fun m hmem hfaulty => hd (.member hmem hfaulty)
    have hmark : mark? .openBrace = some (.open true) := rfl
    rw [Json.Document.kinds, List.cons_append, List.append_assoc] at h
    obtain ⟨s₁, hopen, hallowed₁⟩ := h.openBracket hmark hallowed
    obtain ⟨added, next, hadded, hnext⟩ := entries members hmembers true hopen fun _ => hallowed₁
    refine ⟨_, next, .object hadded, ?_⟩
    rw [List.reverse_cons, List.append_assoc]
    exact hnext
  | .broken start b => exact absurd .broken hd

/-- **The elements of an array are read**, and its end. -/
theorem elements (ds : List Json.Document) (hds : ∀ d ∈ ds, ¬ d.Faulty) (isFirst : Bool)
    {tokens : List Token} {depth : Nat} {kinds : List LexemeKind} {s : Layout}
    (h : Midway ts tokens (depth + 1)
      (kindsFrom isFirst (kindsItems ds) ++ .closeBracket :: kinds) s)
    (hallowed : isFirst = true → s.keyAllowed = true) :
    ∃ added next, MarksItems isFirst ds added
      ∧ Midway ts (added.reverse ++ tokens) depth kinds next := by
  match ds with
  | [] =>
    have hmark : mark? .closeBracket = some (.close false) := rfl
    rw [kindsItems, kindsFrom_nil] at h
    obtain ⟨next, hnext, -⟩ := h.close hmark
    exact ⟨_, next, .nil, hnext⟩
  | d :: ds =>
    obtain ⟨hd, hds'⟩ := List.forall_mem_cons.1 hds
    rw [kindsItems, kindsFrom_cons_append, List.append_assoc] at h
    obtain ⟨s₁, hcomma, -⟩ := h.lead hallowed
    have hfollows := followsValue_items ds kinds
    obtain ⟨first, s₂, hfirst, hvalue⟩ :=
      value d hd hcomma (.inl ⟨Nat.succ_ne_zero depth, hfollows⟩)
    obtain ⟨rest, next, hrest, hnext⟩ := elements ds hds' false hvalue nofun
    refine ⟨_, next, .cons hfirst hrest, ?_⟩
    rw [List.reverse_append, List.reverse_append, List.append_assoc, List.append_assoc]
    exact hnext

/-- **The members of an object are read**, and its end. A key may start at the first one, and
behind every comma. -/
theorem entries (ms : List (Key × Json.Document)) (hms : ∀ m ∈ ms, ¬ m.2.Faulty) (isFirst : Bool)
    {tokens : List Token} {depth : Nat} {kinds : List LexemeKind} {s : Layout}
    (h : Midway ts tokens (depth + 1)
      (kindsFrom isFirst (kindsMembers ms) ++ .closeBrace :: kinds) s)
    (hallowed : isFirst = true → s.keyAllowed = true) :
    ∃ added next, MarksMembers isFirst ms added
      ∧ Midway ts (added.reverse ++ tokens) depth kinds next := by
  match ms with
  | [] =>
    have hmark : mark? .closeBrace = some (.close true) := rfl
    rw [kindsMembers, kindsFrom_nil] at h
    obtain ⟨next, hnext, -⟩ := h.close hmark
    exact ⟨_, next, .nil, hnext⟩
  | (key, d) :: ms =>
    obtain ⟨hd, hms'⟩ := List.forall_mem_cons.1 hms
    rw [kindsMembers, kindsFrom_cons_append, List.cons_append, List.cons_append,
      List.append_assoc] at h
    obtain ⟨s₁, hcomma, hallowed₁⟩ := h.lead hallowed
    obtain ⟨t, s₂, hkey, htext, hnumber⟩ := hcomma.text
    obtain ⟨mark, s₃, hmark, hcolon⟩ := htext.colon (hnumber hallowed₁)
    have hfollows := followsValue_members ms kinds
    obtain ⟨first, s₄, hfirst, hvalue⟩ :=
      value d hd hcolon (.inl ⟨Nat.succ_ne_zero depth, hfollows⟩)
    obtain ⟨rest, next, hrest, hnext⟩ := entries ms hms' false hvalue nofun
    refine ⟨_, next, .cons hkey hmark hfirst hrest, ?_⟩
    have hreverse : mark.reverse = mark := by
      rcases hmark with rfl | rfl
      · rfl
      · rfl
    simp only [List.reverse_append, List.reverse_cons, hreverse, List.append_assoc,
      List.singleton_append]
    exact hnext

end

end Midway

/-! ## Whole texts -/

/-- **A document marks the tokens of its text**, if it is a container and the text is fold-free
and has tokens. -/
theorem marks_of_tokens? {text : List Char} {d : Json.Document} (hlexemes : HasLexemes d.kinds text)
    (hd : ¬ d.Faulty) (hcontainer : ∀ start stop value, d ≠ .scalar start stop value)
    (hfold : IsFoldFree text) {ts : List Token} (h : tokens? text = some ts) : Marks d ts := by
  have hstart : Midway ts [] 0 (d.kinds ++ []) {} := by
    obtain ⟨gs, hgs, htokens⟩ := Option.bind_eq_some_iff.1 h
    rw [glyphs?] at hgs
    rw [List.append_nil]
    split at hgs
    · cases hgs
      exact ⟨⟨rfl, rfl, rfl⟩, text, 0, 0, 0, hlexemes, hfold, htokens⟩
    · cases hgs
  obtain ⟨added, next, hadded, hnext⟩ := hstart.value d hd (.inr ⟨rfl, hcontainer⟩)
  rw [hnext.tokens_eq, List.append_nil, List.reverse_reverse]
  exact hadded

end Caret.Yaml
