import Caret.Yaml.Node
import Caret.Yaml.Token

/-!
# The grammar of YAML nodes

How tokens make up nodes. A node is an alias, or a scalar or collection with an
anchor and a tag in front of it, in either order; both may also stand alone
before an absent scalar. A slot that is left empty holds an absent scalar as well.

Block collections stand only in slots outside brackets. A sequence without a
start of its own, whose items are not indented more than what surrounds them,
stands only in the slots of a block mapping.
-/

namespace Caret.Yaml

/-- What handles stand for in tags. -/
abbrev Handles := List (List Char × List Char)

/-- The kinds of slots for nodes. -/
inductive Slot where
  /-- A slot between brackets. -/
  | flow
  /-- A slot where block collections may stand. -/
  | block
  /-- A slot of a block mapping. -/
  | entry
  deriving DecidableEq

/-- A node whose anchors are names. -/
abbrev NamedNode := Node (List Char)

/-! ## Anchors and tags -/

/-- The tag with a handle; one without a handle is in full. -/
def resolveTag (handles : Handles) (handle suffix : List Char) : Option (List Char) :=
  if handle.isEmpty then some suffix else (handles.lookup handle).map (· ++ suffix)

/-- What may stand before a scalar or a collection. -/
structure Properties where
  anchor : Option (List Char) := none
  tag : Option (List Char) := none

/-- Whether there is an anchor or a tag. -/
def Properties.isPresent (p : Properties) : Bool := p.anchor.isSome || p.tag.isSome

/-- A tag and the tokens behind it, if it comes next. -/
def readTag (handles : Handles) : List Token → Option (Option (List Char) × List Token)
  | .lexeme (.tag handle suffix) :: ts => (resolveTag handles handle suffix).map fun t => (some t, ts)
  | ts => some (none, ts)

/-- An anchor and the tokens behind it, if it comes next. -/
def readAnchor : List Token → Option (List Char) × List Token
  | .lexeme (.anchor name) :: ts => (some name, ts)
  | ts => (none, ts)

/-- Reads the properties that come next: an anchor and a tag in either order. -/
def readProperties (handles : Handles) (ts : List Token) : Option (Properties × List Token) :=
  match readAnchor ts with
  | (some anchor, ts) => (readTag handles ts).map fun r => (⟨some anchor, r.1⟩, r.2)
  | (none, ts) => (readTag handles ts).map fun r =>
    match r with
    | (none, ts) => ({}, ts)
    | (some tag, ts) => (⟨(readAnchor ts).1, some tag⟩, (readAnchor ts).2)

/-- A scalar with its properties. -/
def Properties.scalar (p : Properties) (isPlain : Bool) (text : List Char) : NamedNode :=
  .scalar p.anchor p.tag isPlain text

/-! ## Absent nodes -/

/-- Whether an item of a block sequence is absent before a token. -/
def endsItem : Token → Bool
  | .lexeme .entry | .blockEnd => true
  | _ => false

/-- Whether a key or value of a block mapping is absent before a token. -/
def endsEntry : Token → Bool
  | .lexeme .key | .lexeme .value | .blockEnd => true
  | _ => false

/-- Whether an item of a sequence without a start is absent before a token. -/
def endsInnerItem (t : Token) : Bool := endsItem t || endsEntry t

/-- Whether a value between brackets is absent before a token. -/
def endsFlow (isMapping : Bool) : Token → Bool
  | .lexeme .comma => true
  | .lexeme (.close m) => m == isMapping
  | _ => false

/-- Whether a key between brackets is absent before a token. -/
def endsFlowKey (isMapping : Bool) : Token → Bool
  | .lexeme .value => true
  | t => endsFlow isMapping t

/-- Whether the next token satisfies a condition. -/
def nextIs (p : Token → Bool) : List Token → Bool
  | [] => false
  | t :: _ => p t

/-- Skips the comma before an item; there is none before the first item. -/
def skipComma (isFirst : Bool) (ts : List Token) : Option (List Token) :=
  if isFirst then some ts
  else match ts with
    | .lexeme .comma :: ts => some ts
    | _ => none

/-! ## Nodes -/

/-- The scalar that properties stand before if nothing else follows them. -/
def Properties.absent (p : Properties) (ts : List Token) : Option (NamedNode × List Token) :=
  if p.isPresent then some (p.scalar true [], ts) else none

/-! The number before the tokens bounds how far the rules are nested. There is a
token in every third one at the latest. -/

mutual

/-- Reads a node. -/
def node (handles : Handles) (slot : Slot) : Nat → List Token → Option (NamedNode × List Token)
  | 0, _ => none
  | _ + 1, .lexeme (.alias name) :: ts => some (.alias name, ts)
  | depth + 1, ts => do
    let (p, ts) ← readProperties handles ts
    match ts with
    | .lexeme (.plain text _) :: rest => return (p.scalar true text, rest)
    | .lexeme (.quoted text) :: rest => return (p.scalar false text, rest)
    | .lexeme (.block text) :: rest => return (p.scalar false text, rest)
    | .lexeme (.open true) :: rest =>
      let (entries, ts) ← flowEntries handles true depth rest
      return (.mapping p.anchor entries, ts)
    | .lexeme (.open false) :: rest =>
      let (items, ts) ← flowItems handles true depth rest
      return (.sequence p.anchor items, ts)
    | .blockStart true :: rest =>
      if slot = .flow then p.absent ts
      else
        let (entries, ts) ← blockEntries handles depth rest
        return (.mapping p.anchor entries, ts)
    | .blockStart false :: rest =>
      if slot = .flow then p.absent ts
      else
        let (items, ts) ← blockItems handles depth rest
        return (.sequence p.anchor items, ts)
    | .lexeme .entry :: _ =>
      if slot = .entry then
        let (items, ts) ← innerItems handles depth ts
        return (.sequence p.anchor items, ts)
      else p.absent ts
    | ts => p.absent ts

/-- Reads a node that is absent before some tokens. -/
def nodeUnless (handles : Handles) (isAbsent : Token → Bool) (slot : Slot) :
    Nat → List Token → Option (NamedNode × List Token)
  | 0, _ => none
  | depth + 1, ts => if nextIs isAbsent ts then some (.absent, ts) else node handles slot depth ts

/-- Reads the items of a block sequence. -/
def blockItems (handles : Handles) : Nat → List Token → Option (List NamedNode × List Token)
  | 0, _ => none
  | depth + 1, .lexeme .entry :: ts => do
    let (item, ts) ← nodeUnless handles endsItem .block depth ts
    let (items, ts) ← blockItems handles depth ts
    return (item :: items, ts)
  | _ + 1, .blockEnd :: ts => some ([], ts)
  | _ + 1, _ => none

/-- Reads the items of a sequence without a start. -/
def innerItems (handles : Handles) : Nat → List Token → Option (List NamedNode × List Token)
  | 0, _ => none
  | depth + 1, .lexeme .entry :: ts => do
    let (item, ts) ← nodeUnless handles endsInnerItem .block depth ts
    let (items, ts) ← innerItems handles depth ts
    return (item :: items, ts)
  | _ + 1, ts => some ([], ts)

/-- Reads the entries of a block mapping. -/
def blockEntries (handles : Handles) :
    Nat → List Token → Option (List (NamedNode × NamedNode) × List Token)
  | 0, _ => none
  | depth + 1, .lexeme .key :: ts => do
    let (key, ts) ← nodeUnless handles endsEntry .entry depth ts
    let (value, ts) ← entryValue handles endsEntry .entry depth ts
    let (entries, ts) ← blockEntries handles depth ts
    return ((key, value) :: entries, ts)
  | _ + 1, .blockEnd :: ts => some ([], ts)
  | _ + 1, _ => none

/-- Reads the value of an entry, which is absent if there is no colon. -/
def entryValue (handles : Handles) (isAbsent : Token → Bool) (slot : Slot) :
    Nat → List Token → Option (NamedNode × List Token)
  | 0, _ => none
  | depth + 1, .lexeme .value :: ts => nodeUnless handles isAbsent slot depth ts
  | _ + 1, ts => some (.absent, ts)

/-- Reads the items of a sequence between brackets. One that is marked as a key is
a mapping of one entry; if the key is absent, the token behind it goes with it. -/
def flowItems (handles : Handles) (isFirst : Bool) :
    Nat → List Token → Option (List NamedNode × List Token)
  | 0, _ => none
  | _ + 1, .lexeme (.close false) :: ts => some ([], ts)
  | depth + 1, ts => do
    let ts ← skipComma isFirst ts
    match ts with
    | .lexeme (.close false) :: ts => some ([], ts)
    | .lexeme .key :: ts =>
      let (key, ts) ← if nextIs (endsFlowKey false) ts then some (.absent, ts.drop 1)
        else node handles .flow depth ts
      let (value, ts) ← entryValue handles (endsFlow false) .flow depth ts
      let (items, ts) ← flowItems handles false depth ts
      return (.mapping none [(key, value)] :: items, ts)
    | ts =>
      let (item, ts) ← node handles .flow depth ts
      let (items, ts) ← flowItems handles false depth ts
      return (item :: items, ts)

/-- Reads the entries of a mapping between brackets. What is not marked as a key is
one without a value. -/
def flowEntries (handles : Handles) (isFirst : Bool) :
    Nat → List Token → Option (List (NamedNode × NamedNode) × List Token)
  | 0, _ => none
  | _ + 1, .lexeme (.close true) :: ts => some ([], ts)
  | depth + 1, ts => do
    let ts ← skipComma isFirst ts
    match ts with
    | .lexeme (.close true) :: ts => some ([], ts)
    | .lexeme .key :: ts =>
      let (key, ts) ← nodeUnless handles (endsFlowKey true) .flow depth ts
      let (value, ts) ← entryValue handles (endsFlow true) .flow depth ts
      let (entries, ts) ← flowEntries handles false depth ts
      return ((key, value) :: entries, ts)
    | ts =>
      let (key, ts) ← node handles .flow depth ts
      let (entries, ts) ← flowEntries handles false depth ts
      return ((key, .absent) :: entries, ts)

end

/-- **Reads a node** that stands alone. -/
def Node.ofTokens (handles : Handles) (ts : List Token) : Option (NamedNode × List Token) :=
  node handles .block (4 * (ts.length + 1)) ts

end Caret.Yaml
