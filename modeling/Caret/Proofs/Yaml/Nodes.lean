import Caret.Proofs.Yaml.Marks

/-!
# The node of a JSON text

The grammar of YAML is run here on tokens that a document of JSON marks. It
gives a node that is **alike**: a collection for each container, what is
written between quotation marks for each text, and a plain scalar for each
number or word. Neither anchors nor tags come up.

A key that is not marked as one is where the two part ways. YAML then takes the
text for a key without a value, and fails at the colon. So nothing is left
open by the tokens any more: if YAML reads the text of a document at all, its node is alike
(`alike_of_ofText?`).
-/

namespace Caret.Yaml

open Json (HasLexemes Key)

/-! ## Nodes alike -/

section

variable {α : Type}

mutual

/-- **A node is alike a document**: it has the same shape, and the same texts in quotation marks. -/
inductive Alike : Json.Document → Node α → Prop
  | word {start stop value text} (hvalue : ∀ r, value ≠ .text r) (htext : IsWordOf value text) :
    Alike (.scalar start stop value) (.scalar none none true text)
  | text {start stop t} :
    Alike (.scalar start stop (.text (.ok t))) (.scalar none none false t.toList)
  | array {start items close ns} (hitems : AlikeItems items ns) :
    Alike (.array start items close) (.sequence none ns)
  | object {start members close es} (hmembers : AlikeEntries members es) :
    Alike (.object start members close) (.mapping none es)

/-- Items are alike elements. -/
inductive AlikeItems : List Json.Document → List (Node α) → Prop
  | nil : AlikeItems [] []
  | cons {d ds n ns} (hfirst : Alike d n) (hrest : AlikeItems ds ns) :
    AlikeItems (d :: ds) (n :: ns)

/-- Entries are alike members. -/
inductive AlikeEntries : List (Key × Json.Document) → List (Node α × Node α) → Prop
  | nil : AlikeEntries [] []
  | cons {key t d ms n es} (hkey : key.text = .ok t) (hfirst : Alike d n)
    (hrest : AlikeEntries ms es) :
    AlikeEntries ((key, d) :: ms) ((.scalar none none false t.toList, n) :: es)

end

end

/-! ## The grammar -/

/-- A token that starts a scalar or a collection between brackets. -/
def Token.StartsNode : Token → Prop
  | .lexeme (.plain ..) | .lexeme (.quoted _) | .lexeme (.open _) => True
  | _ => False

theorem Marks.exists_cons {d : Json.Document} {ts : List Token} (h : Marks d ts) :
    ∃ t rest, ts = t :: rest ∧ t.StartsNode := by
  cases h with
  | word | text | array | object => exact ⟨_, _, rfl, trivial⟩

section

variable (handles : Handles) (slot : Slot) (isFirst : Bool) {depth : Nat} {ts : List Token}

theorem node_plain {text : List Char} {endsLine : Bool} {r : NamedNode × List Token}
    (h : node handles slot depth (.lexeme (.plain text endsLine) :: ts) = some r) :
    r = (.scalar none none true text, ts) := by
  cases depth with
  | zero => cases h
  | succ depth => exact (Option.some.inj h).symm

theorem node_quoted {text : List Char} {r : NamedNode × List Token}
    (h : node handles slot depth (.lexeme (.quoted text) :: ts) = some r) :
    r = (.scalar none none false text, ts) := by
  cases depth with
  | zero => cases h
  | succ depth => exact (Option.some.inj h).symm

theorem exists_of_node_sequence {n : NamedNode} {rest : List Token}
    (h : node handles slot depth (.lexeme (.open false) :: ts) = some (n, rest)) :
    ∃ depth' ns, flowItems handles true depth' ts = some (ns, rest) ∧ n = .sequence none ns := by
  cases depth with
  | zero => cases h
  | succ depth =>
    obtain ⟨⟨ns, rest'⟩, hitems, heq⟩ := Option.bind_eq_some_iff.1 h
    cases heq
    exact ⟨depth, ns, hitems, rfl⟩

theorem exists_of_node_mapping {n : NamedNode} {rest : List Token}
    (h : node handles slot depth (.lexeme (.open true) :: ts) = some (n, rest)) :
    ∃ depth' es, flowEntries handles true depth' ts = some (es, rest) ∧ n = .mapping none es := by
  cases depth with
  | zero => cases h
  | succ depth =>
    obtain ⟨⟨es, rest'⟩, hentries, heq⟩ := Option.bind_eq_some_iff.1 h
    cases heq
    exact ⟨depth, es, hentries, rfl⟩

theorem exists_of_flowItems {t : Token} (ht : t.StartsNode) {ns : List NamedNode}
    {rest : List Token}
    (h : flowItems handles isFirst depth (commaUnless isFirst ++ t :: ts) = some (ns, rest)) :
    ∃ depth' n behind ns', node handles .flow depth' (t :: ts) = some (n, behind)
      ∧ flowItems handles false depth' behind = some (ns', rest) ∧ ns = n :: ns' := by
  cases depth with
  | zero => cases h
  | succ depth =>
    have heq : flowItems handles isFirst (depth + 1) (commaUnless isFirst ++ t :: ts)
        = (node handles .flow depth (t :: ts)).bind fun r =>
          (flowItems handles false depth r.2).bind fun r' => some (r.1 :: r'.1, r'.2) := by
      match t, ht with
      | .lexeme (.plain ..), _ | .lexeme (.quoted _), _ | .lexeme (.open _), _ =>
        cases isFirst with
        | true => rfl
        | false => rfl
    rw [heq] at h
    obtain ⟨⟨n, behind⟩, hnode, h⟩ := Option.bind_eq_some_iff.1 h
    obtain ⟨⟨ns', rest'⟩, hitems, h⟩ := Option.bind_eq_some_iff.1 h
    cases h
    exact ⟨depth, n, behind, ns', hnode, hitems, rfl⟩

theorem flowItems_close {r : List NamedNode × List Token}
    (h : flowItems handles isFirst depth (.lexeme (.close false) :: ts) = some r) :
    r = ([], ts) := by
  cases depth with
  | zero => cases h
  | succ depth => exact (Option.some.inj h).symm

theorem flowEntries_close {r : List (NamedNode × NamedNode) × List Token}
    (h : flowEntries handles isFirst depth (.lexeme (.close true) :: ts) = some r) :
    r = ([], ts) := by
  cases depth with
  | zero => cases h
  | succ depth => exact (Option.some.inj h).symm

/-- A node that starts is not absent. -/
theorem node_of_nodeUnless {isMapping : Bool} {t : Token} (ht : t.StartsNode)
    {r : NamedNode × List Token}
    (h : nodeUnless handles (endsFlow isMapping) slot depth (t :: ts) = some r) :
    ∃ depth', node handles slot depth' (t :: ts) = some r := by
  cases depth with
  | zero => cases h
  | succ depth =>
    match t, ht with
    | .lexeme (.plain ..), _ | .lexeme (.quoted _), _ | .lexeme (.open _), _ => exact ⟨depth, h⟩

/-- **An entry whose key is marked** is read as its key and its value. -/
theorem exists_of_flowEntries_marked {key : List Char} {t : Token} (ht : t.StartsNode)
    {es : List (NamedNode × NamedNode)} {rest : List Token}
    (h : flowEntries handles isFirst depth (commaUnless isFirst
      ++ .lexeme .key :: .lexeme (.quoted key) :: .lexeme .value :: t :: ts) = some (es, rest)) :
    ∃ depth₁ depth₂ n behind es', node handles .flow depth₁ (t :: ts) = some (n, behind)
      ∧ flowEntries handles false depth₂ behind = some (es', rest)
      ∧ es = (.scalar none none false key, n) :: es' := by
  cases depth with
  | zero => cases h
  | succ depth =>
    have heq : flowEntries handles isFirst (depth + 1) (commaUnless isFirst
          ++ .lexeme .key :: .lexeme (.quoted key) :: .lexeme .value :: t :: ts)
        = (nodeUnless handles (endsFlowKey true) .flow depth
            (.lexeme (.quoted key) :: .lexeme .value :: t :: ts)).bind fun r =>
          (entryValue handles (endsFlow true) .flow depth r.2).bind fun r' =>
          (flowEntries handles false depth r'.2).bind fun r'' =>
            some ((r.1, r'.1) :: r''.1, r''.2) := by
      cases isFirst with
      | true => rfl
      | false => rfl
    rw [heq] at h
    obtain ⟨⟨k, behind₁⟩, hkey, h⟩ := Option.bind_eq_some_iff.1 h
    obtain ⟨⟨n, behind⟩, hvalue, h⟩ := Option.bind_eq_some_iff.1 h
    obtain ⟨⟨es', rest'⟩, hentries, h⟩ := Option.bind_eq_some_iff.1 h
    cases h
    cases depth with
    | zero => cases hkey
    | succ depth =>
      cases node_quoted handles .flow hkey
      obtain ⟨depth', hnode⟩ := node_of_nodeUnless handles .flow ht hvalue
      exact ⟨depth', depth + 1, n, behind, es', hnode, hentries, rfl⟩

/-- **An entry whose key is not marked** is not read. -/
theorem flowEntries_unmarked (key : List Char) :
    flowEntries handles isFirst depth (commaUnless isFirst
      ++ .lexeme (.quoted key) :: .lexeme .value :: ts) = none := by
  cases depth with
  | zero => rfl
  | succ depth =>
    have heq : flowEntries handles isFirst (depth + 1) (commaUnless isFirst
          ++ .lexeme (.quoted key) :: .lexeme .value :: ts)
        = (node handles .flow depth (.lexeme (.quoted key) :: .lexeme .value :: ts)).bind fun r =>
          (flowEntries handles false depth r.2).bind fun r' =>
            some ((r.1, .absent) :: r'.1, r'.2) := by
      cases isFirst with
      | true => rfl
      | false => rfl
    rw [heq]
    cases depth with
    | zero => rfl
    | succ depth => rfl

end

mutual

/-- **The node of tokens that a document marks is alike**, and nothing behind them is read. -/
theorem alike_of_node (handles : Handles) (d : Json.Document) {slot : Slot} {depth : Nat}
    {ts rest rest' : List Token} {n : NamedNode} (h : Marks d ts)
    (hread : node handles slot depth (ts ++ rest) = some (n, rest')) :
    Alike d n ∧ rest' = rest := by
  match d with
  | .scalar .. =>
    cases h with
    | word hvalue htext =>
      cases node_plain handles slot hread
      exact ⟨.word hvalue htext, rfl⟩
    | text =>
      cases node_quoted handles slot hread
      exact ⟨.text, rfl⟩
  | .array start items close =>
    cases h with
    | array hitems =>
      obtain ⟨depth', ns, hread', rfl⟩ := exists_of_node_sequence handles slot hread
      obtain ⟨halike, hrest⟩ := alike_of_flowItems handles items hitems hread'
      exact ⟨.array halike, hrest⟩
  | .object start members close =>
    cases h with
    | object hmembers =>
      obtain ⟨depth', es, hread', rfl⟩ := exists_of_node_mapping handles slot hread
      obtain ⟨halike, hrest⟩ := alike_of_flowEntries handles members hmembers hread'
      exact ⟨.object halike, hrest⟩
  | .broken .. => cases h

/-- The items of tokens that elements mark are alike. -/
theorem alike_of_flowItems (handles : Handles) (ds : List Json.Document) {isFirst : Bool}
    {depth : Nat} {ts rest rest' : List Token} {ns : List NamedNode} (h : MarksItems isFirst ds ts)
    (hread : flowItems handles isFirst depth (ts ++ rest) = some (ns, rest')) :
    AlikeItems ds ns ∧ rest' = rest := by
  match ds with
  | [] =>
    cases h with
    | nil =>
      cases flowItems_close handles isFirst hread
      exact ⟨.nil, rfl⟩
  | d :: ds =>
    cases h with
    | @cons _ _ _ first more hfirst hrest =>
      obtain ⟨t, tail, rfl, ht⟩ := hfirst.exists_cons
      rw [List.append_assoc, List.append_assoc, List.cons_append] at hread
      obtain ⟨depth', n, behind, ns', hnode, hitems, rfl⟩ :=
        exists_of_flowItems handles isFirst ht hread
      obtain ⟨halike, rfl⟩ := alike_of_node handles d hfirst hnode
      obtain ⟨halike', hbehind⟩ := alike_of_flowItems handles ds hrest hitems
      exact ⟨.cons halike halike', hbehind⟩

/-- The entries of tokens that members mark are alike. -/
theorem alike_of_flowEntries (handles : Handles) (ms : List (Key × Json.Document)) {isFirst : Bool}
    {depth : Nat} {ts rest rest' : List Token} {es : List (NamedNode × NamedNode)}
    (h : MarksMembers isFirst ms ts)
    (hread : flowEntries handles isFirst depth (ts ++ rest) = some (es, rest')) :
    AlikeEntries ms es ∧ rest' = rest := by
  match ms with
  | [] =>
    cases h with
    | nil =>
      cases flowEntries_close handles isFirst hread
      exact ⟨.nil, rfl⟩
  | (key, d) :: ms =>
    cases h with
    | @cons _ _ t _ _ mark first more hkey hmark hfirst hrest =>
      obtain ⟨u, tail, rfl, hu⟩ := hfirst.exists_cons
      rcases hmark with rfl | rfl
      · rw [List.append_assoc, List.nil_append, List.cons_append, List.cons_append,
          flowEntries_unmarked] at hread
        cases hread
      · simp only [List.append_assoc, List.cons_append, List.nil_append] at hread
        obtain ⟨depth₁, depth₂, n, behind, es', hnode, hentries, rfl⟩ :=
          exists_of_flowEntries_marked handles isFirst hu hread
        obtain ⟨halike, rfl⟩ := alike_of_node handles d hfirst hnode
        obtain ⟨halike', hbehind⟩ := alike_of_flowEntries handles ms hrest hentries
        exact ⟨.cons hkey halike halike', hbehind⟩

end

/-! ## Numbered anchors -/

mutual

/-- **Numbering anchors keeps a node alike**, as there are none. -/
theorem Alike.numbered {d : Json.Document} {n : NamedNode} (h : Alike d n)
    {names names' : AnchorNames} {n' : Node Nat}
    (hn : n.numbered.run names = some (n', names')) : Alike d n' := by
  match d with
  | .scalar .. =>
    cases h with
    | word hvalue htext =>
      cases hn
      exact .word hvalue htext
    | text =>
      cases hn
      exact .text
  | .array start items close =>
    cases h with
    | array hitems =>
      obtain ⟨⟨ns, names₁⟩, hns, heq⟩ := Option.bind_eq_some_iff.1 hn
      cases heq
      exact .array (AlikeItems.numbered hitems hns)
  | .object start members close =>
    cases h with
    | object hmembers =>
      obtain ⟨⟨es, names₁⟩, hes, heq⟩ := Option.bind_eq_some_iff.1 hn
      cases heq
      exact .object (AlikeEntries.numbered hmembers hes)
  | .broken .. => cases h

theorem AlikeItems.numbered {ds : List Json.Document} {ns : List NamedNode} (h : AlikeItems ds ns)
    {names names' : AnchorNames} {ns' : List (Node Nat)}
    (hn : (numberedItems ns).run names = some (ns', names')) : AlikeItems ds ns' := by
  match ds with
  | [] =>
    cases h with
    | nil =>
      cases hn
      exact .nil
  | d :: ds =>
    cases h with
    | cons hfirst hrest =>
      obtain ⟨⟨n, names₁⟩, hn₁, hn⟩ := Option.bind_eq_some_iff.1 hn
      obtain ⟨⟨ns, names₂⟩, hn₂, heq⟩ := Option.bind_eq_some_iff.1 hn
      cases heq
      exact .cons (Alike.numbered hfirst hn₁) (AlikeItems.numbered hrest hn₂)

theorem AlikeEntries.numbered {ms : List (Key × Json.Document)} {es : List (NamedNode × NamedNode)}
    (h : AlikeEntries ms es) {names names' : AnchorNames} {es' : List (Node Nat × Node Nat)}
    (hn : (numberedEntries es).run names = some (es', names')) : AlikeEntries ms es' := by
  match ms with
  | [] =>
    cases h with
    | nil =>
      cases hn
      exact .nil
  | (key, d) :: ms =>
    cases h with
    | cons hkey hfirst hrest =>
      -- Numbering the key, a scalar without an anchor, leaves it and the names as they are.
      obtain ⟨⟨n, names₁⟩, hn₁, hn⟩ := Option.bind_eq_some_iff.1 hn
      obtain ⟨⟨es₁, names₂⟩, hn₂, heq⟩ := Option.bind_eq_some_iff.1 hn
      cases heq
      exact .cons hkey (Alike.numbered hfirst hn₁) (AlikeEntries.numbered hrest hn₂)

end

/-! ## Whole texts -/

/-- Tokens that a document marks have no directives before them and no marker. -/
theorem exists_of_readDocument {d : Json.Document} {ts behind : List Token} (h : Marks d ts)
    {root : Option NamedNode} (hread : readDocument ts = some (root, behind)) :
    ∃ n, Node.ofTokens defaultHandles ts = some (n, behind) ∧ root = some n := by
  obtain ⟨t, rest, rfl, ht⟩ := h.exists_cons
  have heq : readDocument (t :: rest)
      = (Node.ofTokens defaultHandles (t :: rest)).bind fun r => some (some r.1, r.2) := by
    match t, ht with
    | .lexeme (.plain ..), _ | .lexeme (.quoted _), _ | .lexeme (.open _), _ => rfl
  rw [heq] at hread
  obtain ⟨⟨n, behind'⟩, hn, hread⟩ := Option.bind_eq_some_iff.1 hread
  cases hread
  exact ⟨n, hn, rfl⟩

/-- **The node of a JSON text is alike its document**, if the text is fold-free and a container,
and YAML reads it at all. -/
theorem alike_of_ofText? {text : List Char} {d : Json.Document} (hlexemes : HasLexemes d.kinds text)
    (hd : ¬ d.Faulty) (hcontainer : ∀ start stop value, d ≠ .scalar start stop value)
    (hfold : IsFoldFree text) {document : Document}
    (h : Document.ofText? text = some document) : ∃ n, document.root = some n ∧ Alike d n := by
  obtain ⟨ts, hts, h⟩ := Option.bind_eq_some_iff.1 h
  obtain ⟨⟨root, behind⟩, hread, h⟩ := Option.bind_eq_some_iff.1 h
  have hmarks := marks_of_tokens? hlexemes hd hcontainer hfold hts
  obtain ⟨n, hn, rfl⟩ := exists_of_readDocument hmarks hread
  have hn' : node defaultHandles .block (4 * (ts.length + 1)) (ts ++ []) = some (n, behind) := by
    rw [List.append_nil]
    exact hn
  obtain ⟨halike, rfl⟩ := alike_of_node defaultHandles d hmarks hn'
  obtain ⟨⟨n', names⟩, hnumbered, heq⟩ := Option.bind_eq_some_iff.1 h
  cases heq
  exact ⟨n', rfl, halike.numbered hnumbered⟩

end Caret.Yaml
