/-!
# YAML nodes

What a YAML document holds. Collections may contain aliases, which stand for
the nodes that bear an anchor; the type of anchors is a parameter, names in the
text and numbers once it is known which node each alias stands for.
-/

namespace Caret.Yaml

/-- **A node**, with anchors of a type. The tags of collections are left out. -/
inductive Node (α : Type) where
  /-- What stands for the node with an anchor. -/
  | alias (target : α)
  /-- A text; only a plain one may be taken for another value. -/
  | scalar (anchor : Option α) (tag : Option (List Char)) (isPlain : Bool) (text : List Char)
  | sequence (anchor : Option α) (items : List (Node α))
  | mapping (anchor : Option α) (entries : List (Node α × Node α))
  deriving Repr

namespace Node

variable {α : Type}

/-- The scalar that stands where nothing is written. -/
def absent : Node α := .scalar none none true []

/-! ## Anchored nodes -/

mutual

/-- **The nodes with an anchor**, in the order in which they start. -/
def anchored : Node α → List (α × Node α)
  | .alias _ => []
  | .scalar anchor tag isPlain text => match anchor with
    | none => []
    | some a => [(a, .scalar anchor tag isPlain text)]
  | .sequence anchor items => match anchor with
    | none => anchoredItems items
    | some a => (a, .sequence anchor items) :: anchoredItems items
  | .mapping anchor entries => match anchor with
    | none => anchoredEntries entries
    | some a => (a, .mapping anchor entries) :: anchoredEntries entries

/-- The nodes with an anchor among items. -/
def anchoredItems : List (Node α) → List (α × Node α)
  | [] => []
  | n :: ns => n.anchored ++ anchoredItems ns

/-- The nodes with an anchor among entries. -/
def anchoredEntries : List (Node α × Node α) → List (α × Node α)
  | [] => []
  | (key, value) :: es => key.anchored ++ (value.anchored ++ anchoredEntries es)

end

/-! ## Extent -/

mutual

/-- The extent of a node: one for what holds no other node, and two for a
collection besides what it holds. -/
def extent : Node α → Nat
  | .alias _ => 1
  | .scalar .. => 1
  | .sequence _ items => 2 + extentItems items
  | .mapping _ entries => 2 + extentEntries entries

/-- The extent of items. -/
def extentItems : List (Node α) → Nat
  | [] => 0
  | n :: ns => n.extent + extentItems ns

/-- The extent of entries. -/
def extentEntries : List (Node α × Node α) → Nat
  | [] => 0
  | (key, value) :: es => key.extent + value.extent + extentEntries es

end

end Node

end Caret.Yaml
