import Caret.Json.Document
import Caret.Proofs.Json.Spelling

/-!
# Trees of texts

The tree of a text is built by working off lexemes against a stack of open
containers. What is shown here is that the tree of a text which spells a
value *shows* that value: it has the same shape, each scalar of it can be
taken, and each container is closed. The places inside the tree stay
unnamed, as they depend on the layout and no value depends on them.

The statement for a whole text does not go through by itself, since the
values inside of a container meet a stack that is not empty. So
`build_value` says what becomes of *any* stack on which a value is due: once
the lexemes of the value are worked off, the work is resumed as if a tree
that shows the value had been placed. `build_items` and `build_members` say
the same of the elements that are left of a container and its end.
-/

namespace Caret.Json

/-! ## Documents and values -/

mutual

/-- **A document shows a value**: it has the shape of the value and holds no fault. -/
inductive Shows : Document → Value → Prop
  | null {start stop} : Shows (.scalar start stop .null) .null
  | boolean {start stop b} : Shows (.scalar start stop (.boolean b)) (.boolean b)
  | number {start stop n} : Shows (.scalar start stop (.number (.ok (.unsigned n)))) (.number n)
  | text {start stop s} : Shows (.scalar start stop (.text (.ok s))) (.text s)
  | array {start items stop vs} (hitems : ShowsItems items vs) :
    Shows (.array start items (.closed stop)) (.array vs)
  | object {start members stop ms} (hmembers : ShowsMembers members ms) :
    Shows (.object start members (.closed stop)) (.object ms)

/-- The elements of an array show values. -/
inductive ShowsItems : List Document → List Value → Prop
  | nil : ShowsItems [] []
  | cons {d ds v vs} (hfirst : Shows d v) (hrest : ShowsItems ds vs) :
    ShowsItems (d :: ds) (v :: vs)

/-- The members of an object show keys and values. -/
inductive ShowsMembers : List (Key × Document) → List (String × Value) → Prop
  | nil : ShowsMembers [] []
  | cons {key d members k v ms} (hkey : key.text = .ok k) (hfirst : Shows d v)
    (hrest : ShowsMembers members ms) : ShowsMembers ((key, d) :: members) ((k, v) :: ms)

end

/-- A document that shows an object is one, and is closed. -/
theorem Shows.exists_of_object {d : Document} {ms : List (String × Value)}
    (h : Shows d (.object ms)) :
    ∃ start members stop, d = .object start members (.closed stop) ∧ ShowsMembers members ms := by
  cases h with
  | object hmembers => exact ⟨_, _, _, rfl, hmembers⟩

/-- Members that show a member and others start with one that shows it. -/
theorem ShowsMembers.exists_of_cons {members : List (Key × Document)} {k : String} {v : Value}
    {ms : List (String × Value)} (h : ShowsMembers members ((k, v) :: ms)) :
    ∃ key d rest, members = (key, d) :: rest ∧ key.text = .ok k ∧ Shows d v
      ∧ ShowsMembers rest ms := by
  cases h with
  | cons hkey hfirst hrest => exact ⟨_, _, _, rfl, hkey, hfirst, hrest⟩

/-! ## One lexeme -/

variable (length : Nat)

/-- The work that is left when a lexeme is worked off. -/
def resume (rest : List Lexeme) : Progress → Document × List Lexeme
  | .go stack due => build length stack due rest
  | .done d => (d, rest)

theorem build_cons (stack : List Open) (due : Due) (l : Lexeme) (rest : List Lexeme) :
    build length stack due (l :: rest)
      = resume length rest (progress stack due l (behindKey length rest)) := by
  rw [build]
  cases progress stack due l (behindKey length rest) with
  | go stack due => rfl
  | done d => rfl

/-- A value may come next. -/
def Due.AwaitsValue : Due → Prop
  | .value | .firstItem | .nextItem => True
  | _ => False

/-- A key may come next. -/
def Due.AwaitsKey : Due → Prop
  | .firstKey | .nextKey => True
  | _ => False

/-- Where a value may come next, any lexeme but a closing bracket is taken for its start. -/
theorem progress_of_awaitsValue {due : Due} (hdue : due.AwaitsValue) {l : Lexeme}
    (hl : l.kind ≠ .closeBracket) (stack : List Open) (stop : Nat) :
    progress stack due l stop = startValue l stack := by
  cases due with
  | value => rfl
  | firstItem =>
    rw [progress]
    split
    · contradiction
    · rfl
  | nextItem =>
    rw [progress]
    split
    · contradiction
    · rfl
  | _ => exact hdue.elim

variable {ls : List Lexeme} {kinds : List LexemeKind}

/-- A scalar is placed where a value is due. -/
theorem build_scalar {s : Scalar} (h : ls.map Lexeme.kind = .scalar s :: kinds) {due : Due}
    (hdue : due.AwaitsValue) (stack : List Open) :
    ∃ start stop rest, rest.map Lexeme.kind = kinds
      ∧ build length stack due ls = resume length rest (finish (.scalar start stop s) stack) := by
  obtain ⟨⟨_, start, stop⟩, rest, rfl, rfl, hrest⟩ := List.map_eq_cons_iff.1 h
  refine ⟨start, stop, rest, hrest, ?_⟩
  rw [build_cons, progress_of_awaitsValue hdue]
  · rfl
  · exact nofun

/-- A bracket opens an array where a value is due. -/
theorem build_openBracket (h : ls.map Lexeme.kind = .openBracket :: kinds) {due : Due}
    (hdue : due.AwaitsValue) (stack : List Open) :
    ∃ start rest, rest.map Lexeme.kind = kinds
      ∧ build length stack due ls = build length (.array start [] :: stack) .firstItem rest := by
  obtain ⟨⟨_, start, stop⟩, rest, rfl, rfl, hrest⟩ := List.map_eq_cons_iff.1 h
  refine ⟨start, rest, hrest, ?_⟩
  rw [build_cons, progress_of_awaitsValue hdue]
  · rfl
  · exact nofun

/-- A brace opens an object where a value is due. -/
theorem build_openBrace (h : ls.map Lexeme.kind = .openBrace :: kinds) {due : Due}
    (hdue : due.AwaitsValue) (stack : List Open) :
    ∃ start rest, rest.map Lexeme.kind = kinds
      ∧ build length stack due ls = build length (.object start [] :: stack) .firstKey rest := by
  obtain ⟨⟨_, start, stop⟩, rest, rfl, rfl, hrest⟩ := List.map_eq_cons_iff.1 h
  refine ⟨start, rest, hrest, ?_⟩
  rw [build_cons, progress_of_awaitsValue hdue]
  · rfl
  · exact nofun

variable {start : Nat} {items : List Document} {members : List (Key × Document)}
  {below : List Open}

/-- A bracket closes an array that is empty or has just got an element. -/
theorem build_closeBracket (h : ls.map Lexeme.kind = .closeBracket :: kinds) {due : Due}
    (hdue : due = .firstItem ∨ due = .separator) :
    ∃ stop rest, rest.map Lexeme.kind = kinds
      ∧ build length (.array start items :: below) due ls
        = resume length rest (finish (.array start items.reverse (.closed stop)) below) := by
  obtain ⟨⟨_, _, stop⟩, rest, rfl, rfl, hrest⟩ := List.map_eq_cons_iff.1 h
  refine ⟨stop, rest, hrest, ?_⟩
  rw [build_cons]
  obtain rfl | rfl := hdue
  · rfl
  · rfl

/-- A brace closes an object that is empty or has just got a member. -/
theorem build_closeBrace (h : ls.map Lexeme.kind = .closeBrace :: kinds) {due : Due}
    (hdue : due = .firstKey ∨ due = .separator) :
    ∃ stop rest, rest.map Lexeme.kind = kinds
      ∧ build length (.object start members :: below) due ls
        = resume length rest (finish (.object start members.reverse (.closed stop)) below) := by
  obtain ⟨⟨_, _, stop⟩, rest, rfl, rfl, hrest⟩ := List.map_eq_cons_iff.1 h
  refine ⟨stop, rest, hrest, ?_⟩
  rw [build_cons]
  obtain rfl | rfl := hdue
  · rfl
  · rfl

/-- A comma makes a value due in an array. -/
theorem build_comma_array (h : ls.map Lexeme.kind = .comma :: kinds) :
    ∃ rest, rest.map Lexeme.kind = kinds
      ∧ build length (.array start items :: below) .separator ls
        = build length (.array start items :: below) .nextItem rest := by
  obtain ⟨⟨_, _, _⟩, rest, rfl, rfl, hrest⟩ := List.map_eq_cons_iff.1 h
  exact ⟨rest, hrest, rfl⟩

/-- A comma makes a key due in an object. -/
theorem build_comma_object (h : ls.map Lexeme.kind = .comma :: kinds) :
    ∃ rest, rest.map Lexeme.kind = kinds
      ∧ build length (.object start members :: below) .separator ls
        = build length (.object start members :: below) .nextKey rest := by
  obtain ⟨⟨_, _, _⟩, rest, rfl, rfl, hrest⟩ := List.map_eq_cons_iff.1 h
  exact ⟨rest, hrest, rfl⟩

/-- A text and a colon make a value due where a key was. -/
theorem build_key {k : String}
    (h : ls.map Lexeme.kind = .scalar (.text (.ok k)) :: .colon :: kinds) {due : Due}
    (hdue : due.AwaitsKey) :
    ∃ key rest, key.text = .ok k ∧ rest.map Lexeme.kind = kinds
      ∧ build length (.object start members :: below) due ls
        = build length (.member start members key :: below) .value rest := by
  obtain ⟨⟨_, _, _⟩, ls, rfl, rfl, hls⟩ := List.map_eq_cons_iff.1 h
  obtain ⟨⟨_, colonStart, colonStop⟩, rest, rfl, rfl, hrest⟩ := List.map_eq_cons_iff.1 hls
  -- What is placed behind the key is the start of the colon, which is no brace.
  refine ⟨⟨.ok k, colonStart⟩, rest, rfl, hrest, ?_⟩
  cases due with
  | firstKey => rfl
  | nextKey => rfl
  | _ => exact hdue.elim

/-! ## One value -/

mutual

/-- **The lexemes of a value are worked off to a tree that shows it**, on any stack on
which a value is due. -/
theorem build_value (v : Value) {ls : List Lexeme} {kinds : List LexemeKind}
    (h : ls.map Lexeme.kind = v.kinds ++ kinds) {due : Due} (hdue : due.AwaitsValue)
    (stack : List Open) :
    ∃ d rest, Shows d v ∧ rest.map Lexeme.kind = kinds
      ∧ build length stack due ls = resume length rest (finish d stack) := by
  match v with
  | .null =>
    obtain ⟨start, stop, rest, hrest, hbuild⟩ := build_scalar length h hdue stack
    exact ⟨_, rest, .null, hrest, hbuild⟩
  | .boolean b =>
    obtain ⟨start, stop, rest, hrest, hbuild⟩ := build_scalar length h hdue stack
    exact ⟨_, rest, .boolean, hrest, hbuild⟩
  | .number n =>
    obtain ⟨start, stop, rest, hrest, hbuild⟩ := build_scalar length h hdue stack
    exact ⟨_, rest, .number, hrest, hbuild⟩
  | .text s =>
    obtain ⟨start, stop, rest, hrest, hbuild⟩ := build_scalar length h hdue stack
    exact ⟨_, rest, .text, hrest, hbuild⟩
  | .array [] =>
    obtain ⟨start, ls₁, h₁, hopen⟩ := build_openBracket length h hdue stack
    obtain ⟨stop, rest, hrest, hclose⟩ := build_closeBracket length h₁ (.inl rfl)
    exact ⟨_, rest, .array .nil, hrest, hopen.trans hclose⟩
  | .array (v :: vs) =>
    rw [Value.kinds] at h
    simp only [List.cons_append, List.append_assoc] at h
    obtain ⟨start, ls₁, h₁, hopen⟩ := build_openBracket length h hdue stack
    -- The first element meets the array that has just been opened, on top of the stack.
    have hdue₁ : Due.firstItem.AwaitsValue := trivial
    obtain ⟨d, ls₂, hd, h₂, hfirst⟩ := build_value v h₁ hdue₁ (.array start [] :: stack)
    obtain ⟨ds, stop, rest, hds, hrest, hitems⟩ := build_items vs h₂ start [d] stack
    exact ⟨_, rest, .array (.cons hd hds), hrest, hopen.trans (hfirst.trans hitems)⟩
  | .object [] =>
    obtain ⟨start, ls₁, h₁, hopen⟩ := build_openBrace length h hdue stack
    obtain ⟨stop, rest, hrest, hclose⟩ := build_closeBrace length h₁ (.inl rfl)
    exact ⟨_, rest, .object .nil, hrest, hopen.trans hclose⟩
  | .object ((k, v) :: ms) =>
    rw [Value.kinds] at h
    simp only [List.cons_append, List.append_assoc] at h
    obtain ⟨start, ls₁, h₁, hopen⟩ := build_openBrace length h hdue stack
    have hdue₁ : Due.firstKey.AwaitsKey := trivial
    obtain ⟨key, ls₂, hkey, h₂, hcolon⟩ := build_key length h₁ hdue₁
    have hdue₂ : Due.value.AwaitsValue := trivial
    obtain ⟨d, ls₃, hd, h₃, hfirst⟩ := build_value v h₂ hdue₂ (.member start [] key :: stack)
    obtain ⟨ds, stop, rest, hds, hrest, hmembers⟩ := build_members ms h₃ start [(key, d)] stack
    exact ⟨_, rest, .object (.cons hkey hd hds), hrest,
      hopen.trans (hcolon.trans (hfirst.trans hmembers))⟩

/-- The elements that are left of an array are worked off, and its end. -/
theorem build_items (vs : List Value) {ls : List Lexeme} {kinds : List LexemeKind}
    (h : ls.map Lexeme.kind = Value.kindsItems vs ++ .closeBracket :: kinds) (start : Nat)
    (items : List Document) (below : List Open) :
    ∃ ds stop rest, ShowsItems ds vs ∧ rest.map Lexeme.kind = kinds
      ∧ build length (.array start items :: below) .separator ls
        = resume length rest
          (finish (.array start (items.reverse ++ ds) (.closed stop)) below) := by
  match vs with
  | [] =>
    obtain ⟨stop, rest, hrest, hclose⟩ := build_closeBracket length h (.inr rfl)
    refine ⟨[], stop, rest, .nil, hrest, ?_⟩
    rw [List.append_nil]
    exact hclose
  | v :: vs =>
    rw [Value.kindsItems] at h
    simp only [List.cons_append, List.append_assoc] at h
    obtain ⟨ls₁, h₁, hcomma⟩ := build_comma_array length h
    have hdue₁ : Due.nextItem.AwaitsValue := trivial
    obtain ⟨d, ls₂, hd, h₂, hfirst⟩ := build_value v h₁ hdue₁ (.array start items :: below)
    obtain ⟨ds, stop, rest, hds, hrest, hitems⟩ := build_items vs h₂ start (d :: items) below
    refine ⟨d :: ds, stop, rest, .cons hd hds, hrest, ?_⟩
    -- The stack holds the elements in reverse, so the one just placed comes before `ds`.
    rw [List.reverse_cons, List.append_assoc] at hitems
    exact hcomma.trans (hfirst.trans hitems)

/-- The members that are left of an object are worked off, and its end. -/
theorem build_members (ms : List (String × Value)) {ls : List Lexeme} {kinds : List LexemeKind}
    (h : ls.map Lexeme.kind = Value.kindsMembers ms ++ .closeBrace :: kinds) (start : Nat)
    (members : List (Key × Document)) (below : List Open) :
    ∃ ds stop rest, ShowsMembers ds ms ∧ rest.map Lexeme.kind = kinds
      ∧ build length (.object start members :: below) .separator ls
        = resume length rest
          (finish (.object start (members.reverse ++ ds) (.closed stop)) below) := by
  match ms with
  | [] =>
    obtain ⟨stop, rest, hrest, hclose⟩ := build_closeBrace length h (.inr rfl)
    refine ⟨[], stop, rest, .nil, hrest, ?_⟩
    rw [List.append_nil]
    exact hclose
  | (k, v) :: ms =>
    rw [Value.kindsMembers] at h
    simp only [List.cons_append, List.append_assoc] at h
    obtain ⟨ls₁, h₁, hcomma⟩ := build_comma_object length h
    have hdue₁ : Due.nextKey.AwaitsKey := trivial
    obtain ⟨key, ls₂, hkey, h₂, hcolon⟩ := build_key length h₁ hdue₁
    have hdue₂ : Due.value.AwaitsValue := trivial
    obtain ⟨d, ls₃, hd, h₃, hfirst⟩ := build_value v h₂ hdue₂
      (.member start members key :: below)
    obtain ⟨ds, stop, rest, hds, hrest, hmembers⟩ :=
      build_members ms h₃ start ((key, d) :: members) below
    refine ⟨(key, d) :: ds, stop, rest, .cons hkey hd hds, hrest, ?_⟩
    rw [List.reverse_cons, List.append_assoc] at hmembers
    exact hcomma.trans (hcolon.trans (hfirst.trans hmembers))

end

/-! ## Whole texts -/

/-- **The document of a text shows the value that the text spells**, and nothing follows it. -/
theorem ofText_of_spells {v : Value} {cs : List Char} (h : Spells v.kinds cs) :
    ∃ d, Shows d v ∧ Document.ofText cs = (d, none) := by
  have hkinds : (lexemes 0 cs).map Lexeme.kind = v.kinds ++ [] := by
    rw [map_kind_lexemes h, List.append_nil]
  have hdue : Due.value.AwaitsValue := trivial
  obtain ⟨d, rest, hd, hrest, hbuild⟩ := build_value (byteLength cs) v hkinds hdue []
  rw [List.map_eq_nil_iff.1 hrest] at hbuild
  refine ⟨d, hd, ?_⟩
  rw [Document.ofText, hbuild]
  rfl

end Caret.Json
