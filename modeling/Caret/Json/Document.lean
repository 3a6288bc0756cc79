import Caret.Json.Lexeme

/-!
# JSON documents

The tree of a JSON text, built for reading a typed value out of it. A reader
goes through the text once, from left to right, and reports the first fault
it meets, be it of the text or of a type. So the tree of a faulty text is
not refused: it reaches as far as the text can be read and holds the fault
as its last node, and the places of all nodes are kept, since a fault of
a type is reported there.

How a container goes wrong depends on how it is read. `Reading` tells the
three ways apart, and `Break.fault` words each break for each of them.
-/

namespace Caret.Json

/-- How a part of a text is read. -/
inductive Reading where
  /-- Its value is asked for. -/
  | taken
  /-- Nobody asks for it. -/
  | skipped
  /-- All elements that were asked for have been read, and its end is due. -/
  | ended

/-- How a container goes wrong behind one of its elements, or at its start.
The offset is that of the character at which it does, or the end of the text. -/
inductive BreakKind where
  /-- The text ends where a comma or the end was due. -/
  | cut
  /-- Something other than a comma or the end follows an element. -/
  | separator
  /-- A comma is followed by the end. -/
  | commaThenEnd
  /-- The text ends behind a comma. -/
  | cutAfterComma
  /-- Something other than a text stands where a key is due. -/
  | key
  deriving DecidableEq, Repr

/-- A break of a container. -/
structure Break where
  /-- How. -/
  kind : BreakKind
  /-- The bytes before the character at fault. -/
  offset : Nat

/-- The fault of a broken array. -/
def Break.arrayFault (b : Break) : Reading → Fault
  | .taken => match b.kind with
    | .cut => ⟨.endInList, b.offset⟩
    | .commaThenEnd => ⟨.trailingComma, b.offset + 1⟩
    | .cutAfterComma => ⟨.endInValue, b.offset⟩
    | _ => ⟨.expectedCommaOrBracket, b.offset + 1⟩
  | .skipped => match b.kind with
    | .cut => ⟨.endInList, b.offset⟩
    | .commaThenEnd => ⟨.expectedValue, b.offset + 1⟩
    | .cutAfterComma => ⟨.endInValue, b.offset⟩
    | _ => ⟨.expectedCommaOrBracket, b.offset + 1⟩
  | .ended => match b.kind with
    | .cut => ⟨.endInList, b.offset⟩
    | .commaThenEnd => ⟨.trailingComma, b.offset + 1⟩
    | .cutAfterComma => ⟨.trailingCharacters, b.offset⟩
    | _ => ⟨.trailingCharacters, b.offset + 1⟩

/-- The fault of a broken object. -/
def Break.objectFault (b : Break) : Reading → Fault
  | .skipped => match b.kind with
    | .cut => ⟨.endInObject, b.offset⟩
    | .cutAfterComma => ⟨.endInObject, b.offset⟩
    | .separator => ⟨.expectedCommaOrBrace, b.offset + 1⟩
    | _ => ⟨.keyNotText, b.offset + 1⟩
  | _ => match b.kind with
    | .cut => ⟨.endInObject, b.offset⟩
    | .cutAfterComma => ⟨.endInValue, b.offset⟩
    | .separator => ⟨.expectedCommaOrBrace, b.offset + 1⟩
    | .commaThenEnd => ⟨.trailingComma, b.offset + 1⟩
    | .key => ⟨.keyNotText, b.offset + 1⟩

/-- How a container ends. -/
inductive Close where
  /-- With its bracket; the bytes up to there. -/
  | closed (stop : Nat)
  /-- With a break. -/
  | broken (b : Break)
  /-- With a key that cannot be read to its end. -/
  | brokenKey (b : Broken)
  /-- Its last element holds the fault of the text. -/
  | unreached

/-- A key of an object. -/
structure Key where
  /-- The outcome of taking it. -/
  text : Except Fault String
  /-- The bytes up to the end of the closing brace if that comes next, and up
  to what comes next otherwise; a fault of the key itself lies there. -/
  behind : Nat

/-- **A document**: the tree of a text. -/
inductive Document where
  /-- A scalar from `start` to `stop`. -/
  | scalar (start stop : Nat) (s : Scalar)
  /-- An array whose bracket stands at `start`. -/
  | array (start : Nat) (items : List Document) (close : Close)
  /-- An object whose bracket stands at `start`. -/
  | object (start : Nat) (members : List (Key × Document)) (close : Close)
  /-- The end of what can be read, where a value was due at `start`. -/
  | broken (start : Nat) (b : Broken)

/-- The bytes before a node. -/
def Document.start : Document → Nat
  | scalar start _ _ => start
  | array start _ _ => start
  | object start _ _ => start
  | broken start _ => start

/-! ## Building the tree

The lexemes are worked off one by one. The stack holds the containers that
are open, innermost first, each with its elements so far in reverse, and
`Due` says what may come next. -/

/-- A container that is open. -/
inductive Open where
  /-- An array with its elements so far, last first. -/
  | array (start : Nat) (items : List Document)
  /-- An object with its members so far, last first. -/
  | object (start : Nat) (members : List (Key × Document))
  /-- An object with its members so far and a key whose value is due. -/
  | member (start : Nat) (members : List (Key × Document)) (key : Key)

/-- What is due. -/
inductive Due where
  /-- A value. -/
  | value
  /-- A value or the end of an array. -/
  | firstItem
  /-- The value behind a comma in an array. -/
  | nextItem
  /-- A key or the end of an object. -/
  | firstKey
  /-- The key behind a comma in an object. -/
  | nextKey
  /-- The colon behind a key. -/
  | colon
  /-- A comma or the end of the innermost container. -/
  | separator

/-- Closes all containers around a node that holds the fault of the text. -/
def unwind (d : Document) : List Open → Document
  | [] => d
  | .array start items :: below => unwind (.array start (d :: items).reverse .unreached) below
  | .object start members :: below => unwind (.object start members.reverse .unreached) below
  | .member start members key :: below =>
    unwind (.object start ((key, d) :: members).reverse .unreached) below

/-- The stack after a value is complete; nothing is left if it was the whole text. -/
def place (d : Document) : List Open → Option (List Open)
  | [] => none
  | .array start items :: below => some (.array start (d :: items) :: below)
  | .object start members :: below => some (.object start members :: below)
  | .member start members key :: below => some (.object start ((key, d) :: members) :: below)

/-- The innermost container, ended in the given way, and those around it. -/
def endInnermost (close : Close) : List Open → Option (Document × List Open)
  | [] => none
  | .array start items :: below => some (.array start items.reverse close, below)
  | .object start members :: below => some (.object start members.reverse close, below)
  | .member start members _ :: below => some (.object start members.reverse close, below)

/-- The tree when the innermost container goes wrong. -/
def breakInnermost (close : Close) (stack : List Open) : Document :=
  match endInnermost close stack with
  | some (d, below) => unwind d below
  | none => .broken 0 (.both ⟨.expectedValue, 0⟩)

/-- What is placed behind a key: the brace that closes its object, if that
comes next, counts as read. -/
def behindKey (length : Nat) : List Lexeme → Nat
  | [] => length
  | l :: _ => match l.kind with
    | .closeBrace => l.stop
    | _ => l.start

/-- What comes of a lexeme. -/
inductive Progress where
  /-- The containers that are open now, and what is due. -/
  | go (stack : List Open) (due : Due)
  /-- The tree is complete. -/
  | done (d : Document)

/-- What comes of a complete value. -/
def finish (d : Document) (stack : List Open) : Progress :=
  match place d stack with
  | none => .done d
  | some stack => .go stack .separator

/-- What comes of a closing bracket or brace that is due. -/
def finishContainer (l : Lexeme) (stack : List Open) : Progress :=
  match endInnermost (.closed l.stop) stack with
  | some (d, below) => finish d below
  | none => .done (.broken l.start (.both ⟨.expectedValue, l.start + 1⟩))

/-- What comes of a lexeme where a value is due. -/
def startValue (l : Lexeme) (stack : List Open) : Progress :=
  match l.kind with
  | .scalar s => finish (.scalar l.start l.stop s) stack
  | .openBracket => .go (.array l.start [] :: stack) .firstItem
  | .openBrace => .go (.object l.start [] :: stack) .firstKey
  | .brokenText b => .done (unwind (.broken l.start b) stack)
  | .broken b => .done (unwind (.broken l.start b) stack)
  | _ => .done (unwind (.broken l.start (.both ⟨.expectedValue, l.start + 1⟩)) stack)

/-- What comes of a lexeme where a key is due; `stop` is what is placed behind it,
and `endKind` is wrong with a brace. -/
def startMember (l : Lexeme) (stop : Nat) (endKind : BreakKind) (stack : List Open) : Progress :=
  match l.kind, stack with
  | .scalar (.text s), .object start members :: below =>
    .go (.member start members ⟨s, stop⟩ :: below) .colon
  | .brokenText b, _ => .done (breakInnermost (.brokenKey b) stack)
  | .closeBrace, _ => .done (breakInnermost (.broken ⟨endKind, l.start⟩) stack)
  | _, _ => .done (breakInnermost (.broken ⟨.key, l.start⟩) stack)

/-- What comes of a lexeme; `stop` is what would be placed behind it if it is a key. -/
def progress (stack : List Open) (due : Due) (l : Lexeme) (stop : Nat) : Progress :=
  match due with
  | .value => startValue l stack
  | .firstItem => match l.kind with
    | .closeBracket => finishContainer l stack
    | _ => startValue l stack
  | .nextItem => match l.kind with
    | .closeBracket => .done (breakInnermost (.broken ⟨.commaThenEnd, l.start⟩) stack)
    | _ => startValue l stack
  | .firstKey => match l.kind with
    | .closeBrace => finishContainer l stack
    | _ => startMember l stop .key stack
  | .nextKey => startMember l stop .commaThenEnd stack
  | .colon => match l.kind with
    | .colon => .go stack .value
    | _ => .done (unwind (.broken l.start (.both ⟨.expectedColon, l.start + 1⟩)) stack)
  | .separator => match l.kind, stack with
    | .comma, .array _ _ :: _ => .go stack .nextItem
    | .comma, .object _ _ :: _ => .go stack .nextKey
    | .closeBracket, .array _ _ :: _ => finishContainer l stack
    | .closeBrace, .object _ _ :: _ => finishContainer l stack
    | _, _ => .done (breakInnermost (.broken ⟨.separator, l.start⟩) stack)

/-- The tree of a text that ends where something is due. -/
def endEarly (length : Nat) (stack : List Open) (due : Due) : Document :=
  match due with
  | .value => unwind (.broken length (.both ⟨.endInValue, length⟩)) stack
  | .firstItem => breakInnermost (.broken ⟨.cut, length⟩) stack
  | .nextItem => breakInnermost (.broken ⟨.cutAfterComma, length⟩) stack
  | .firstKey => breakInnermost (.broken ⟨.cut, length⟩) stack
  | .nextKey => breakInnermost (.broken ⟨.cutAfterComma, length⟩) stack
  | .colon => unwind (.broken length (.both ⟨.endInObject, length⟩)) stack
  | .separator => breakInnermost (.broken ⟨.cut, length⟩) stack

/-- **The tree of lexemes**, and those that follow it. The text has `length` bytes. -/
def build (length : Nat) (stack : List Open) (due : Due) : List Lexeme → Document × List Lexeme
  | [] => (endEarly length stack due, [])
  | l :: ls =>
    match progress stack due l (behindKey length ls) with
    | .go stack due => build length stack due ls
    | .done d => (d, ls)

/-- **The document of a text**, and the fault of anything but white space behind it. -/
def Document.ofText (text : List Char) : Document × Option Fault :=
  let (d, rest) := build (byteLength text) [] .value (lexemes 0 text)
  (d, rest.head?.map fun l => ⟨.trailingCharacters, l.start + 1⟩)

end Caret.Json
