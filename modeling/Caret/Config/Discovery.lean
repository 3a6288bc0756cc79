import Caret.Path

/-!
# Discovery of configuration files

The configuration of a directory is the nearest one: in the directory itself or in
the first of the paths above it that has one. Among several in one directory the
names have a fixed rank. Paths are climbed as they are written.
-/

namespace Caret.Config

/-- **The names of configuration files**, the first one preferred. -/
def fileNames : List String :=
  [".querydiagrc.yml", ".querydiagrc.yaml", ".querydiagrc.json", ".querydiagrc",
    "querydiag.config.yml", "querydiag.config.yaml", "querydiag.config.json"]

/-- The configuration file in a directory. -/
def findIn (isFile : String → Bool) (directory : String) : Option String :=
  (fileNames.map (Path.join directory)).find? isFile

/-- **The configuration file for a path.** -/
def find (isFile : String → Bool) (start : String) : Option String :=
  (Path.ancestors start).findSome? (findIn isFile)

end Caret.Config
