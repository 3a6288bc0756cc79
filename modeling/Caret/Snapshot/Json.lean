import Caret.Json.Reader
import Caret.Json.Value
import Caret.Snapshot

/-!
# JSON forms of positions, error parts and snapshots

Positions and the parts of an error are records, written as objects and read
from objects or arrays. A snapshot is an object in which the parts of the
error stand beside the version and the message. Reading it takes the version
and the message where they stand and every other member as it is; the parts
are then read out of those members, in their order of appearance, once the
object is complete.
-/

namespace Caret

open Json

/-! ## Positions -/

/-- The form of a position. -/
def Position.toJson (p : Position) : Value :=
  .object [("line", .number p.line), ("column", .number p.column)]

/-- Reads a line, a column or any other count. -/
def readCount : Reader Nat := readNat wordLimit "usize"

/-- The fields of a position read so far. -/
structure PositionFields where
  line : Option Nat := none
  column : Option Nat := none

/-- Positions as records. -/
def positionRecord : Record PositionFields Position where
  expected := "struct Position"
  start := {}
  add s key name d :=
    match name with
    | "line" => do return { s with line := ← readField name key s.line readCount d }
    | "column" => do return { s with column := ← readField name key s.column readCount d }
    | _ => do
      d.skip
      return s
  complete s stop := do
    return ⟨← requireField "line" s.line stop, ← requireField "column" s.column stop⟩
  ofItems? := some fun items close => do
    let expected := "struct Position with 2 elements"
    let (line, items) ← requireItem readCount close expected 0 items
    let (column, items) ← requireItem readCount close expected 1 items
    endItems close items
    return ⟨line, column⟩

/-- The position of a text. -/
def Position.ofJson (text : String) : Except Json.Error Position :=
  readTextAs (readRecord positionRecord) text

/-! ## The parts of an error -/

/-- The members of the parts of an error. -/
def ErrorState.members (s : ErrorState) : List (String × Value) :=
  [("description", .text s.description), ("contextPhrase", .text s.contextPhrase),
    ("line", .number s.line), ("column", .number s.column)]

/-- The form of the parts of an error. -/
def ErrorState.toJson (s : ErrorState) : Value := .object s.members

/-- The fields of the parts of an error read so far. -/
structure ErrorStateFields where
  description : Option String := none
  contextPhrase : Option String := none
  line : Option Nat := none
  column : Option Nat := none

namespace ErrorStateFields

/-- Adds a member, if it is a field. -/
def add? (s : ErrorStateFields) (key : Key) (name : String) (d : Document) :
    Option (Except Fault ErrorStateFields) :=
  match name with
  | "description" => some do
    return { s with description := ← readField name key s.description readText d }
  | "contextPhrase" => some do
    return { s with contextPhrase := ← readField name key s.contextPhrase readText d }
  | "line" => some do return { s with line := ← readField name key s.line readCount d }
  | "column" => some do return { s with column := ← readField name key s.column readCount d }
  | _ => none

/-- Completes the parts of an error. -/
def complete (s : ErrorStateFields) (stop : Nat) : Except Fault ErrorState := do
  return ⟨← requireField "description" s.description stop,
    ← requireField "contextPhrase" s.contextPhrase stop,
    ← requireField "line" s.line stop, ← requireField "column" s.column stop⟩

end ErrorStateFields

/-- The parts of an error as records. -/
def errorStateRecord : Record ErrorStateFields ErrorState where
  expected := "struct DiagnosticState"
  start := {}
  add s key name d :=
    match s.add? key name d with
    | some outcome => outcome
    | none => do
      d.skip
      return s
  complete := ErrorStateFields.complete
  ofItems? := some fun items close => do
    let expected := "struct DiagnosticState with 4 elements"
    let (description, items) ← requireItem readText close expected 0 items
    let (contextPhrase, items) ← requireItem readText close expected 1 items
    let (line, items) ← requireItem readCount close expected 2 items
    let (column, items) ← requireItem readCount close expected 3 items
    endItems close items
    return ⟨description, contextPhrase, line, column⟩

/-- The parts of an error of a text. -/
def ErrorState.ofJson (text : String) : Except Json.Error ErrorState :=
  readTextAs (readRecord errorStateRecord) text

/-! ## Snapshots -/

/-- The form of a snapshot. -/
def Snapshot.toValue (s : Snapshot) : Value :=
  .object (("version", .number s.version) :: ("message", .text s.message) :: s.state.members)

/-- The compact text of a snapshot. -/
def Snapshot.toJson (s : Snapshot) : String := s.toValue.toCompact

/-- The text of a snapshot laid out over several lines. -/
def Snapshot.toWideJson (s : Snapshot) : String := s.toValue.toWide

/-- The members of a snapshot read so far. -/
structure SnapshotFields where
  version : Option Nat := none
  message : Option String := none
  /-- The members that are neither, last first. -/
  others : List (Key × String × Document) := []

/-- The number of values of a version, `2 ^ 32`. -/
def versionLimit : Nat := 0x100000000

/-- How deep containers may be nested inside a snapshot, itself included. -/
def snapshotDepth : Nat := 128

/-- Adds a member to the parts of an error, if it is one; its faults lie at `stop`. -/
def addStateMember (stop : Nat) (s : ErrorStateFields) (m : Key × String × Document) :
    Except Fault ErrorStateFields :=
  match s.add? m.1 m.2.1 m.2.2 with
  | some outcome => outcome.mapError fun f => { f with offset := stop }
  | none => .ok s

/-- The parts of an error among some members; their faults lie at `stop`. -/
def readStateMembers (members : List (Key × String × Document)) (stop : Nat) :
    Except Fault ErrorState := do
  let fields ← members.foldlM (addStateMember stop) {}
  fields.complete stop

/-- Snapshots as records. -/
def snapshotRecord : Record SnapshotFields Snapshot where
  expected := "struct DiagnosticSnapshot"
  start := {}
  add s key name d :=
    match name with
    | "version" => do
      return { s with version := ← readField name key s.version (readNat versionLimit "u32") d }
    | "message" => do return { s with message := ← readField name key s.message readText d }
    | _ => do
      d.take (snapshotDepth - 1)
      return { s with others := (key, name, d) :: s.others }
  complete s stop := do
    let version ← requireField "version" s.version stop
    let message ← requireField "message" s.message stop
    return ⟨version, message, ← readStateMembers s.others.reverse stop⟩
  ofItems? := none

/-- The snapshot of a text, of whatever version. -/
def Snapshot.read (text : String) : Except Json.Error Snapshot :=
  readTextAs (readRecord snapshotRecord) text

/-- **The snapshot of a text**, which must be of the current version. -/
def Snapshot.ofJson (text : String) : Except SnapshotError Snapshot :=
  match Snapshot.read text with
  | .error e => .error (.json e)
  | .ok s => do
    s.checkVersion
    return s

end Caret
