import Caret.Files
import Caret.Path

/-!
# File trees

A file system without links: directories of named entries, and files of bytes. A
place is the list of names on the way to it from the root. A path leads from a
directory to a place, part by part; every part but the last must be a directory, and
the last one too if a slash is behind it.
-/

namespace Caret

/-- **A file tree.** -/
inductive FileTree where
  | file (contents : ByteArray)
  | directory (entries : List (String × FileTree))

/-- The names on the way from the root. -/
abbrev Place := List String

/-- The absolute path of a place. -/
def Place.path (place : Place) : String := "/" ++ "/".intercalate place

namespace FileTree

/-- The entry of a name; a file has none. -/
def entry? : FileTree → String → Option FileTree
  | .file _, _ => none
  | .directory entries, name => entries.lookup name

/-- What is at a place. -/
def at? (t : FileTree) (place : Place) : Option FileTree := place.foldlM entry? t

/-- The entries of a directory; a file has none. -/
def entries : FileTree → List (String × FileTree)
  | .file _ => []
  | .directory entries => entries

/-- Puts a tree at a place, with the directories on the way there. A directory keeps
its entries if an empty one is put there. -/
def insert (t : FileTree) : Place → FileTree → FileTree
  | [], new => match t, new with
    | .directory entries, .directory [] => .directory entries
    | _, _ => new
  | name :: place, new =>
    let inner := ((t.entry? name).getD (.directory [])).insert place new
    .directory ((name, inner) :: t.entries.filter (·.1 ≠ name))

/-! ## Paths -/

/-- The most bytes that a name may have. -/
def nameLimit : Nat := 255

/-- The number of bytes that a path has fewer than. -/
def pathLimit : Nat := 4096

/-- The place that a part leads to from a place. -/
def step (t : FileTree) (place : Place) (part : String) : Except FileError Place :=
  match t.at? place with
  | none => .error .notFound
  | some (.file _) => .error .notADirectory
  | some (.directory entries) =>
    if part = "" ∨ part = "." then .ok place
    else if part = ".." then .ok place.dropLast
    else if nameLimit < part.utf8ByteSize then .error .nameTooLong
    else if (entries.lookup part).isSome then .ok (place ++ [part])
    else .error .notFound

/-- **The place that a path leads to** from a place. -/
def locate (t : FileTree) (start : Place) (path : String) : Except FileError Place :=
  if path.toList.contains '\x00' then .error .nulInPath
  else if path.isEmpty then .error .notFound
  else if pathLimit ≤ path.utf8ByteSize then .error .nameTooLong
  else
    let start := if path.toList.head? == some '/' then [] else start
    ((Path.parts path).map String.ofList).foldlM t.step start

/-- **Whether a path leads to a file.** -/
def isFile (t : FileTree) (start : Place) (path : String) : Bool :=
  match t.locate start path with
  | .error _ => false
  | .ok place => match t.at? place with
    | some (.file _) => true
    | _ => false

/-- **The bytes of the file** that a path leads to. -/
def read (t : FileTree) (start : Place) (path : String) : Except FileError ByteArray := do
  let place ← t.locate start path
  match t.at? place with
  | some (.file contents) => .ok contents
  | some (.directory _) => .error .isADirectory
  | none => .error .notFound

/-- The files of a tree, with paths that lead from a place. -/
def files (t : FileTree) (start : Place) : Files := ⟨t.isFile start, t.read start⟩

end FileTree

end Caret
