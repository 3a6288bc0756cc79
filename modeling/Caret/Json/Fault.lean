import Caret.Binary64
import Caret.Text.Quoted

/-!
# Faults of JSON texts

What can be wrong with a JSON text, as a text or as the value that was
asked for, and where. Places are counts of bytes of the UTF-8 form of the
text. A fault about a character that was only looked at lies behind the first
byte of that character, or at the end of the text if there is none; any other
fault lies behind what was consumed.
-/

namespace Caret.Json

/-- A number as JSON texts give it: integers of 64 bits, and binary64
magnitudes with a sign for all others. -/
inductive Number where
  /-- A natural number. -/
  | unsigned (n : Nat)
  /-- The negation of a positive number. -/
  | negative (n : Nat)
  /-- A floating point number. -/
  | floating (isNegative : Bool) (magnitude : Binary64)
  deriving DecidableEq, Repr

/-- What was found where something else was asked for. -/
inductive Found where
  | null
  | boolean (b : Bool)
  | number (n : Number)
  | string (s : String)
  | sequence
  | map
  deriving DecidableEq, Repr

/-- **The reason of a fault.** -/
inductive Reason where
  | endInValue
  | endInList
  | endInObject
  | endInText
  | expectedValue
  | expectedWord
  | expectedColon
  | expectedCommaOrBracket
  | expectedCommaOrBrace
  | keyNotText
  | trailingComma
  | trailingCharacters
  | invalidNumber
  | numberOutOfRange
  | invalidEscape
  | unfinishedSurrogate
  | loneSurrogate
  | controlCharacter
  | tooDeep
  /-- A value of another type than the expected one. -/
  | wrongType (found : Found) (expected : String)
  /-- A number of the expected type that lies outside its range. -/
  | wrongValue (found : Found) (expected : String)
  /-- A list with too few elements. -/
  | wrongLength (length : Nat) (expected : String)
  | missingField (name : String)
  | duplicateField (name : String)
  deriving DecidableEq, Repr

/-- **A fault**: a reason and the number of bytes before it. -/
structure Fault where
  /-- What is wrong. -/
  reason : Reason
  /-- The bytes before the fault. -/
  offset : Nat
  deriving DecidableEq, Repr

/-- The text of a number in a report. -/
def Number.text : Number → String
  | .unsigned n => "integer `" ++ Text.natText n ++ "`"
  | .negative n => "integer `-" ++ Text.natText n ++ "`"
  | .floating isNegative magnitude =>
    "floating point `" ++ (if isNegative then "-" else "") ++ String.ofList magnitude.text ++ "`"

/-- The text of a found value in a report. -/
def Found.text : Found → String
  | .null => "null"
  | .boolean true => "boolean `true`"
  | .boolean false => "boolean `false`"
  | .number n => n.text
  | .string s => "string " ++ Text.quoted s
  | .sequence => "sequence"
  | .map => "map"

/-- The text of a reason. -/
def Reason.text : Reason → String
  | .endInValue => "EOF while parsing a value"
  | .endInList => "EOF while parsing a list"
  | .endInObject => "EOF while parsing an object"
  | .endInText => "EOF while parsing a string"
  | .expectedValue => "expected value"
  | .expectedWord => "expected ident"
  | .expectedColon => "expected `:`"
  | .expectedCommaOrBracket => "expected `,` or `]`"
  | .expectedCommaOrBrace => "expected `,` or `\x7d`"
  | .keyNotText => "key must be a string"
  | .trailingComma => "trailing comma"
  | .trailingCharacters => "trailing characters"
  | .invalidNumber => "invalid number"
  | .numberOutOfRange => "number out of range"
  | .invalidEscape => "invalid escape"
  | .unfinishedSurrogate => "unexpected end of hex escape"
  | .loneSurrogate => "lone leading surrogate in hex escape"
  | .controlCharacter => "control character (\\u0000-\\u001F) found while parsing a string"
  | .tooDeep => "recursion limit exceeded"
  | .wrongType found expected => "invalid type: " ++ found.text ++ ", expected " ++ expected
  | .wrongValue found expected => "invalid value: " ++ found.text ++ ", expected " ++ expected
  | .wrongLength length expected =>
    "invalid length " ++ Text.natText length ++ ", expected " ++ expected
  | .missingField name => "missing field `" ++ name ++ "`"
  | .duplicateField name => "duplicate field `" ++ name ++ "`"

/-- The place of a fault as a reader counts it: lines from one, and bytes
since the last line feed. -/
structure Place where
  /-- The line. -/
  line : Nat
  /-- The bytes of the line before the place. -/
  column : Nat
  deriving DecidableEq, Repr

/-- The place behind `left` bytes more of a text; a character that ends behind it
gives its bytes. -/
def Place.forward (place : Place) (left : Nat) : List Char → Place
  | [] => ⟨place.line, place.column + left⟩
  | c :: cs =>
    if left < c.utf8Size then ⟨place.line, place.column + left⟩
    else if c = '\n' then forward ⟨place.line + 1, 0⟩ (left - 1) cs
    else forward ⟨place.line, place.column + c.utf8Size⟩ (left - c.utf8Size) cs

/-- The place behind the first `offset` bytes of a text. -/
def Place.ofOffset (text : List Char) (offset : Nat) : Place :=
  forward ⟨1, 0⟩ offset text

/-- **A JSON error**: the reason of a fault and its place in the text. -/
structure Error where
  /-- What is wrong. -/
  reason : Reason
  /-- Where. -/
  place : Place
  deriving DecidableEq, Repr

/-- The text of an error. -/
def Error.message (e : Error) : String :=
  e.reason.text ++ " at line " ++ Text.natText e.place.line ++ " column " ++
    Text.natText e.place.column

/-- A fault as an error of the text it was found in. -/
def Fault.inText (text : List Char) (f : Fault) : Error :=
  ⟨f.reason, .ofOffset text f.offset⟩

end Caret.Json
