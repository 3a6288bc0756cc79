import Caret.Yaml.Grammar

/-!
# YAML documents

A text holds at most one document. Directives may come before it if it is started
by a marker; they name a version of YAML, at most once, and handles for tags.

Every anchor has a number: how many different names were anchored before it in
the text. An alias has the number of the last anchor of its name before it, and
stands for the last node in the document whose anchor has that number. So where a
name is anchored again, the new node may give way to that of the next new name.
-/

namespace Caret.Yaml

/-! ## Anchors -/

/-- The names that have been anchored, with their numbers. -/
abbrev AnchorNames := List (List Char × Nat)

/-- Numbers an anchor, if there is one. -/
def numberAnchor : Option (List Char) → StateT AnchorNames Option (Option Nat)
  | none => return none
  | some name => do
    let names ← get
    set ((name, names.length) :: names.filter (·.1 ≠ name))
    return some names.length

/-- The number of an anchored name. -/
def numberOf (name : List Char) : StateT AnchorNames Option Nat := do
  (← get).lookup name

mutual

/-- Numbers the anchors of a node. -/
def Node.numbered : Node (List Char) → StateT AnchorNames Option (Node Nat)
  | .alias name => do return .alias (← numberOf name)
  | .scalar anchor tag isPlain text => do
    return .scalar (← numberAnchor anchor) tag isPlain text
  | .sequence anchor items => do
    let anchor ← numberAnchor anchor
    return .sequence anchor (← numberedItems items)
  | .mapping anchor entries => do
    let anchor ← numberAnchor anchor
    return .mapping anchor (← numberedEntries entries)

/-- Numbers the anchors of items. -/
def numberedItems : List (Node (List Char)) → StateT AnchorNames Option (List (Node Nat))
  | [] => return []
  | n :: ns => do
    let item ← n.numbered
    return item :: (← numberedItems ns)

/-- Numbers the anchors of entries. -/
def numberedEntries : List (Node (List Char) × Node (List Char)) →
    StateT AnchorNames Option (List (Node Nat × Node Nat))
  | [] => return []
  | (key, value) :: es => do
    let key ← key.numbered
    let value ← value.numbered
    return (key, value) :: (← numberedEntries es)

end

/-! ## Directives -/

/-- What handles stand for without a directive. -/
def defaultHandles : Handles :=
  [(['!'], ['!']), (['!', '!'], "tag:yaml.org,2002:".toList)]

/-- Whether a token is a directive. -/
def isDirective : Token → Bool
  | .lexeme (.versionDirective ..) | .lexeme (.tagDirective ..) => true
  | _ => false

/-- Whether a token is the marker before a document. -/
def isDocumentStart : Token → Bool
  | .lexeme .documentStart => true
  | _ => false

/-- Whether a token is the marker behind a document. -/
def isDocumentEnd : Token → Bool
  | .lexeme .documentEnd => true
  | _ => false

/-- Reads directives. A handle has one directive at most; only versions 1.1 and 1.2
are read. -/
def readDirectives (hasVersion : Bool) (handles : Handles) :
    List Token → Option (Handles × List Token)
  | .lexeme (.versionDirective major minor) :: ts =>
    if hasVersion || major ≠ 1 || minor ≠ 1 && minor ≠ 2 then none
    else readDirectives true handles ts
  | .lexeme (.tagDirective handle stem) :: ts =>
    if (handles.lookup handle).isSome then none
    else readDirectives hasVersion ((handle, stem) :: handles) ts
  | ts => some (handles, ts)

/-! ## Documents -/

/-- **A document**: its node, if the text is not empty, and the nodes with anchors,
the last one first. -/
structure Document where
  /-- The node. -/
  root : Option (Node Nat)
  /-- The nodes with anchors and the numbers of these. -/
  anchored : List (Nat × Node Nat)

/-- The node of a document and the tokens behind it. -/
def readDocument (ts : List Token) : Option (Option NamedNode × List Token) :=
  if ts.isEmpty then some (none, [])
  else if nextIs (fun t => isDirective t || isDocumentStart t) ts then do
    let (handles, ts) ← readDirectives false [] ts
    if !nextIs isDocumentStart ts then none
    else
      let ts := ts.drop 1
      if ts.isEmpty || nextIs (fun t => isDirective t || isDocumentStart t || isDocumentEnd t) ts
      then return (some .absent, ts)
      else
        let (root, ts) ← Node.ofTokens (handles ++ defaultHandles) ts
        return (some root, ts)
  else do
    let (root, ts) ← Node.ofTokens defaultHandles ts
    return (some root, ts)

/-- **The document of a text**, if the text is well formed. -/
def Document.ofText? (text : List Char) : Option Document := do
  let (root, behind) ← readDocument (← tokens? text)
  if !(behind.all isDocumentEnd) then none
  else match root with
    | none => return ⟨none, []⟩
    | some root =>
      let (root, _) ← root.numbered.run []
      return ⟨some root, root.anchored.reverse⟩

end Caret.Yaml
