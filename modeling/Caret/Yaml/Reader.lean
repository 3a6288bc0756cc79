import Caret.Dict
import Caret.Yaml.Document

/-!
# Reading values from YAML nodes

A reader makes a value of a node, or nothing if the node has the wrong form. Every
scalar is a text. Collections may also be written as a plain scalar without text,
and absent values as one of the null words.

Reading follows aliases, for each node of the document at most a hundred times
on average, so that a small text cannot ask for unbounded work.
-/

namespace Caret.Yaml

/-- What reading follows: the nodes with anchors, the last one first, and how many
aliases may still be followed. -/
structure Aliases where
  anchored : List (Nat × Node Nat)
  left : Nat

/-- **A reader** of a type of values. -/
abbrev Reader (α : Type) := Node Nat → StateT Aliases Option α

/-- The node that is meant: that of an alias, or the node itself. -/
def follow : Node Nat → StateT Aliases Option (Node Nat)
  | .alias target => do
    let aliases ← get
    if aliases.left = 0 then failure
    else
      set { aliases with left := aliases.left - 1 }
      aliases.anchored.lookup target
  | n => return n

/-! ## Scalars and lists -/

/-- Reads a text. -/
def readText : Reader String := fun n => do
  match ← follow n with
  | .scalar _ _ _ text => return String.ofList text
  | _ => failure

/-- The words for an absent value. -/
def nullWords : List (List Char) := ["~", "null", "Null", "NULL"].map (·.toList)

/-- The tag of an absent value. -/
def nullTag : List Char := "tag:yaml.org,2002:null".toList

/-- Reads a null word as nothing and leaves all else to another reader. Null words
are plain. With the tag of an absent value, one is demanded; another tag says that
the value is present. -/
def readOption {α : Type} (read : Reader α) : Reader (Option α) := fun n => do
  let n ← follow n
  match n with
  | .scalar _ tag true text =>
    match tag with
    | none => if text.isEmpty || nullWords.contains text then return none else some <$> read n
    | some tag =>
      if tag ≠ nullTag then some <$> read n
      else if nullWords.contains text then return none
      else failure
  | n => some <$> read n

/-- The items of a sequence. -/
def itemsOf : Reader (List (Node Nat)) := fun n => do
  match ← follow n with
  | .sequence _ items => return items
  | .scalar _ _ true [] => return []
  | _ => failure

/-- The entries of a mapping. -/
def entriesOf : Reader (List (Node Nat × Node Nat)) := fun n => do
  match ← follow n with
  | .mapping _ entries => return entries
  | .scalar _ _ true [] => return []
  | _ => failure

/-- Reads a list. -/
def readList {α : Type} (read : Reader α) : Reader (List α) := fun n => do
  (← itemsOf n).mapM read

/-! ## Dictionaries and records -/

/-- Goes through the entries of a mapping. -/
def foldEntries {σ : Type} (step : σ → String → Node Nat → StateT Aliases Option σ) (s : σ)
    (n : Node Nat) : StateT Aliases Option σ := do
  (← entriesOf n).foldlM (fun s e => do step s (← readText e.1) e.2) s

/-- Reads a dictionary; the last of several entries with one key counts. -/
def readDict {α : Type} (read : Reader α) : Reader (Dict α) :=
  foldEntries (fun d key v => return d.insert key (← read v)) .empty

/-- Reads the value of a field that must not have been read before. -/
def readField {α : Type} (slot : Option α) (read : Reader α) : Reader (Option α) := fun n =>
  if slot.isSome then failure else some <$> read n

/-! ## Texts -/

/-- **Reads a whole text.** A text without a document is read as a scalar without text. -/
def readTextAs {α : Type} (read : Reader α) (text : String) : Option α := do
  let d ← Document.ofText? text.toList
  let root := d.root.getD .absent
  (read root).run' ⟨d.anchored, 100 * root.extent⟩

end Caret.Yaml
