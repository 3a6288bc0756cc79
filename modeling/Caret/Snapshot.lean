import Caret.Json.Fault
import Caret.QueryError

/-!
# Snapshots

A plain copy of an error, to be kept or sent elsewhere. It has the version
of its layout, the message and the parts of the error; the cause is not
kept. Only the current version can be restored.
-/

namespace Caret

/-- **A snapshot** of an error. -/
structure Snapshot where
  /-- The version of the layout. -/
  version : Nat
  /-- The message as shown. -/
  message : String
  /-- The parts of the error. -/
  state : ErrorState
  deriving DecidableEq, Repr

/-- Why a snapshot cannot be restored. -/
inductive SnapshotError where
  /-- It has a layout of another version. -/
  | unsupportedVersion (found : Nat)
  /-- Its text is no snapshot. -/
  | json (e : Json.Error)
  deriving DecidableEq, Repr

namespace Snapshot

/-- The version of the layout that is written and read. -/
def currentVersion : Nat := 1

/-- Refuses a snapshot of another version. -/
def checkVersion (s : Snapshot) : Except SnapshotError Unit :=
  if s.version = currentVersion then .ok () else .error (.unsupportedVersion s.version)

end Snapshot

/-- The text of the reason. -/
def SnapshotError.message : SnapshotError → String
  | unsupportedVersion found =>
    "Unsupported snapshot version " ++ Text.natText found ++ " (supported: " ++
      Text.natText Snapshot.currentVersion ++ ")"
  | json e => "Snapshot JSON error: " ++ e.message

namespace QueryError

/-- The snapshot of an error. -/
def snapshot (e : QueryError) : Snapshot := ⟨Snapshot.currentVersion, e.message, e.state⟩

/-- The error of a snapshot; it has no cause. -/
def ofSnapshot (s : Snapshot) : Except SnapshotError QueryError := do
  s.checkVersion
  return ⟨s.message, s.state, none⟩

end QueryError

end Caret
