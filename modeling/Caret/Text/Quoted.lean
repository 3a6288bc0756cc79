import Caret.Text.Decimal
import Caret.Text.Hidden

/-!
# Quoted text

The form in which error texts quote what they complain about. Between the
quotation marks, NUL, tab, line feed, carriage return and the backslash are
written with a backslash and one letter, the mark itself with a backslash,
and a hidden character as its hexadecimal code point in braces. All other
characters stand for themselves.
-/

namespace Caret.Text

/-- A code point written as `u` and its hexadecimal digits in braces, after a backslash. -/
def codePointEscape (c : Char) : List Char :=
  ['\\', 'u', '\x7b'] ++ hexadecimal c.toNat ++ ['\x7d']

/-- A character as it stands between two `mark`s. -/
def quotedChar (mark : Char) (c : Char) : List Char :=
  if c = '\x00' then ['\\', '0']
  else if c = '\t' then ['\\', 't']
  else if c = '\n' then ['\\', 'n']
  else if c = '\r' then ['\\', 'r']
  else if c = '\\' then ['\\', '\\']
  else if c = mark then ['\\', mark]
  else if isHidden c then codePointEscape c
  else [c]

/-- A text between double quotation marks. -/
def quoted (s : String) : String :=
  String.ofList ('"' :: s.toList.flatMap (quotedChar '"') ++ ['"'])

/-- A character between single quotation marks. -/
def quotedSingle (c : Char) : String :=
  String.ofList ('\'' :: quotedChar '\'' c ++ ['\''])

end Caret.Text
