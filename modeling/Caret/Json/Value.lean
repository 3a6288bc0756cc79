import Caret.Json.Lexeme
import Caret.Text.Decimal

/-!
# JSON values and their texts

The values that are written, and the layouts they are written in. A layout
says what white space stands before each element and before the end of a
container, and behind each colon; empty containers stay closed up. The
compact layout has no white space at all. The wide layout puts each element
on a line of its own, two spaces further in than its container, and a space
after each colon. Object members are written in the given order.
-/

namespace Caret.Json

/-- **A JSON value** as it is written. -/
inductive Value where
  | null
  | boolean (b : Bool)
  | number (n : Nat)
  | text (s : String)
  | array (items : List Value)
  | object (members : List (String × Value))

/-- A character inside quotation marks. The mark and the backslash are
escaped, control characters below U+0020 by a letter where there is one and
by four small hexadecimal digits otherwise. -/
def escapeChar (c : Char) : List Char :=
  if c = '"' then ['\\', '"']
  else if c = '\\' then ['\\', '\\']
  else if c = '\x08' then ['\\', 'b']
  else if c = '\x0c' then ['\\', 'f']
  else if c = '\n' then ['\\', 'n']
  else if c = '\r' then ['\\', 'r']
  else if c = '\t' then ['\\', 't']
  else if c.toNat < 0x20 then
    ['\\', 'u', '0', '0', Text.digitChar (c.toNat / 16), Text.digitChar (c.toNat % 16)]
  else [c]

/-- A text between quotation marks. -/
def quoteText (s : String) : List Char :=
  '"' :: s.toList.flatMap escapeChar ++ ['"']

/-- **A gap** holds nothing but white space. -/
def IsGap (cs : List Char) : Prop := ∀ c ∈ cs, isSpace c = true

/-- **A layout**: the white space between the parts of containers. -/
structure Layout where
  /-- What stands before an element or an end that belongs to a depth. -/
  newline : Nat → List Char
  /-- What stands behind a colon. -/
  afterColon : List Char
  isGap_newline : ∀ depth, IsGap (newline depth)
  isGap_afterColon : IsGap afterColon

namespace Layout

/-- **The compact layout**, without white space. -/
def compact : Layout where
  newline _ := []
  afterColon := []
  isGap_newline _ := List.forall_mem_nil _
  isGap_afterColon := List.forall_mem_nil _

/-- **The wide layout**, with a line feed and the spaces of the depth. -/
def wide : Layout where
  newline depth := '\n' :: List.replicate (2 * depth) ' '
  afterColon := [' ']
  isGap_newline depth c h := by
    obtain rfl | h := List.mem_cons.1 h
    · rfl
    · rw [List.eq_of_mem_replicate h]
      rfl
  isGap_afterColon c h := by
    rw [List.mem_singleton.1 h]
    rfl

end Layout

namespace Value

/-- The word of a boolean. -/
def word : Bool → List Char
  | true => ['t', 'r', 'u', 'e']
  | false => ['f', 'a', 'l', 's', 'e']

mutual

/-- **The characters of a value** at a depth. -/
def write (l : Layout) (depth : Nat) : Value → List Char
  | null => ['n', 'u', 'l', 'l']
  | boolean b => word b
  | number n => Text.decimal n
  | text s => quoteText s
  | array [] => ['[', ']']
  | array (v :: vs) =>
    '[' :: l.newline (depth + 1) ++ v.write l (depth + 1) ++ writeItems l (depth + 1) vs ++
      l.newline depth ++ [']']
  | object [] => ['\x7b', '\x7d']
  | object ((k, v) :: ms) =>
    '\x7b' :: l.newline (depth + 1) ++ quoteText k ++ ':' :: l.afterColon ++
      v.write l (depth + 1) ++ writeMembers l (depth + 1) ms ++ l.newline depth ++ ['\x7d']

/-- The elements after the first. -/
def writeItems (l : Layout) (depth : Nat) : List Value → List Char
  | [] => []
  | v :: vs => ',' :: l.newline depth ++ v.write l depth ++ writeItems l depth vs

/-- The members after the first. -/
def writeMembers (l : Layout) (depth : Nat) : List (String × Value) → List Char
  | [] => []
  | (k, v) :: ms =>
    ',' :: l.newline depth ++ quoteText k ++ ':' :: l.afterColon ++ v.write l depth ++
      writeMembers l depth ms

end

/-- The compact text of a value. -/
def toCompact (v : Value) : String := String.ofList (v.write .compact 0)

/-- The wide text of a value. -/
def toWide (v : Value) : String := String.ofList (v.write .wide 0)

end Value

end Caret.Json
