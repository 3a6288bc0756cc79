/-!
# Files

What a program asks of a file system: whether a path leads to a file, and what the
file holds. Text files are in UTF-8.
-/

namespace Caret

/-- **Why a file cannot be read.** -/
inductive FileError where
  /-- There is no such entry. -/
  | notFound
  /-- A path leads through a file. -/
  | notADirectory
  /-- What should be read is a directory. -/
  | isADirectory
  /-- A name or the path has too many bytes. -/
  | nameTooLong
  /-- The path holds U+0000. -/
  | nulInPath
  /-- The contents are not UTF-8. -/
  | notUtf8
  /-- Any other reason, as the system gives it. -/
  | other (text : String)
  deriving DecidableEq, Repr

/-- The text of an error. -/
def FileError.message : FileError → String
  | .notFound => "No such file or directory (os error 2)"
  | .notADirectory => "Not a directory (os error 20)"
  | .isADirectory => "Is a directory (os error 21)"
  | .nameTooLong => "File name too long (os error 36)"
  | .nulInPath => "file name contained an unexpected NUL byte"
  | .notUtf8 => "stream did not contain valid UTF-8"
  | .other text => text

/-- The text of bytes in UTF-8. -/
def decodeText (bytes : ByteArray) : Except FileError String :=
  match String.fromUTF8? bytes with
  | some text => .ok text
  | none => .error .notUtf8

/-- **The files** that paths lead to. -/
structure Files where
  /-- Whether a path leads to a file. -/
  isFile : String → Bool
  /-- The bytes of the file that a path leads to. -/
  read : String → Except FileError ByteArray

/-- The text of the file that a path leads to. -/
def Files.readText (files : Files) (path : String) : Except FileError String := do
  decodeText (← files.read path)

end Caret
