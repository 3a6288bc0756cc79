/-!
# Styles

Styled text for terminals: a code that sets the style, the text, and a code that
resets it. Where the text resets the style itself, it is set again.
-/

namespace Caret.CommandLine

/-- The styles of text. -/
inductive Style where
  | red
  | bold
  | boldRed
  deriving DecidableEq, Repr

/-- The code that sets a style. -/
def Style.code : Style → List Char
  | .red => "\x1b[31m".toList
  | .bold => "\x1b[1m".toList
  | .boldRed => "\x1b[1;31m".toList

/-- The code that resets the style. -/
def resetCode : List Char := "\x1b[0m".toList

/-- Puts a code behind every reset code. -/
def setAgain (code : List Char) : List Char → List Char
  | '\x1b' :: '[' :: '0' :: 'm' :: cs => resetCode ++ code ++ setAgain code cs
  | c :: cs => c :: setAgain code cs
  | [] => []

/-- **A text in a style**, if styles are shown. -/
def styled (isShown : Bool) (style : Style) (text : String) : String :=
  if isShown then
    String.ofList (style.code ++ setAgain style.code text.toList ++ resetCode)
  else text

end Caret.CommandLine
