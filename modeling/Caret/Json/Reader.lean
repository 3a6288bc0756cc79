import Caret.Dict
import Caret.Json.Document

/-!
# Reading typed values

A reader takes a document to a value of some type or to the first fault it
meets. Readers for records accept an object with named fields or an array
with the fields in order. Members of an object that no field names are
skipped.

A fault of a type lies behind a scalar and before a container. A fault that
only shows when a record is complete, such as a missing field, lies behind
its closing bracket.
-/

namespace Caret.Json

/-- **A reader** of values. -/
abbrev Reader (α : Type) := Document → Except Fault α

/-- The fault of a document where something else was expected; a scalar that
cannot be taken has its own. -/
def Document.mismatch (expected : String) : Document → Fault
  | scalar _ stop .null => ⟨.wrongType .null expected, stop⟩
  | scalar _ stop (.boolean b) => ⟨.wrongType (.boolean b) expected, stop⟩
  | scalar _ stop (.number (.ok n)) => ⟨.wrongType (.number n) expected, stop⟩
  | scalar _ _ (.number (.error f)) => f
  | scalar _ stop (.text (.ok s)) => ⟨.wrongType (.string s) expected, stop⟩
  | scalar _ _ (.text (.error f)) => f
  | array start _ _ => ⟨.wrongType .sequence expected, start⟩
  | object start _ _ => ⟨.wrongType .map expected, start⟩
  | broken _ b => b.taken

namespace Close

/-- The end of an array: the bytes up to there, or its fault. -/
def endArray (reading : Reading) : Close → Except Fault Nat
  | closed stop => .ok stop
  | broken b => .error (b.arrayFault reading)
  | brokenKey b => .error b.taken
  | unreached => .ok 0

/-- The end of an object: the bytes up to there, or its fault. -/
def endObject (reading : Reading) : Close → Except Fault Nat
  | closed stop => .ok stop
  | broken b => .error (b.objectFault reading)
  | brokenKey b => match reading with
    | .skipped => .error b.skipped
    | _ => .error b.taken
  | unreached => .ok 0

end Close

/-! ## Values nobody asks for, and values of any type -/

mutual

/-- Skips a document. -/
def Document.skip : Document → Except Fault Unit
  | .scalar _ _ _ => .ok ()
  | .array _ items close => do
    skipItems items
    discard <| close.endArray .skipped
  | .object _ members close => do
    skipMembers members
    discard <| close.endObject .skipped
  | .broken _ b => .error b.skipped

/-- Skips the elements of an array. -/
def skipItems : List Document → Except Fault Unit
  | [] => .ok ()
  | d :: ds => do
    d.skip
    skipItems ds

/-- Skips the members of an object. -/
def skipMembers : List (Key × Document) → Except Fault Unit
  | [] => .ok ()
  | (_, d) :: ms => do
    d.skip
    skipMembers ms

end

mutual

/-- Takes a document whatever its type, as long as containers are nested
less than `depth` deep. -/
def Document.take (depth : Nat) : Document → Except Fault Unit
  | .scalar _ _ (.number n) => discard n
  | .scalar _ _ (.text s) => discard s
  | .scalar _ _ _ => .ok ()
  | .array start items close =>
    if depth ≤ 1 then .error ⟨.tooDeep, start + 1⟩
    else do
      takeItems (depth - 1) items
      discard <| close.endArray .taken
  | .object start members close =>
    if depth ≤ 1 then .error ⟨.tooDeep, start + 1⟩
    else do
      takeMembers (depth - 1) members
      discard <| close.endObject .taken
  | .broken _ b => .error b.taken

/-- Takes the elements of an array. -/
def takeItems (depth : Nat) : List Document → Except Fault Unit
  | [] => .ok ()
  | d :: ds => do
    d.take depth
    takeItems depth ds

/-- Takes the members of an object. -/
def takeMembers (depth : Nat) : List (Key × Document) → Except Fault Unit
  | [] => .ok ()
  | (k, d) :: ms => do
    discard k.text
    d.take depth
    takeMembers depth ms

end

/-! ## Scalars, lists and dictionaries -/

/-- Reads a text. -/
def readText : Reader String
  | .scalar _ _ (.text s) => s
  | d => .error (d.mismatch "a string")

/-- Reads a natural number below `limit`. -/
def readNat (limit : Nat) (expected : String) : Reader Nat
  | .scalar start stop (.number (.ok n)) => match n with
    | .unsigned m =>
      if m < limit then .ok m else .error ⟨.wrongValue (.number n) expected, stop⟩
    | .negative _ => .error ⟨.wrongValue (.number n) expected, stop⟩
    | .floating _ _ => .error ((Document.scalar start stop (.number (.ok n))).mismatch expected)
  | d => .error (d.mismatch expected)

/-- Reads a null as nothing and leaves all else to another reader. -/
def readOption {α : Type} (read : Reader α) : Reader (Option α)
  | .scalar _ _ .null => .ok none
  | d => some <$> read d

/-- Reads a list. -/
def readList {α : Type} (read : Reader α) : Reader (List α)
  | .array _ items close => do
    let values ← items.mapM read
    discard <| close.endArray .taken
    return values
  | d => .error (d.mismatch "a sequence")

/-- Goes through the members of an object. -/
def foldMembers {σ : Type} (step : σ → Key → String → Document → Except Fault σ) (s : σ)
    (members : List (Key × Document)) : Except Fault σ :=
  members.foldlM (fun s m => do step s m.1 (← m.1.text) m.2) s

/-- Reads a dictionary; the last of several members with one key counts. -/
def readDict {α : Type} (read : Reader α) : Reader (Dict α)
  | .object _ members close => do
    let entries ← foldMembers (fun d _ name v => return d.insert name (← read v)) .empty members
    discard <| close.endObject .taken
    return entries
  | d => .error (d.mismatch "a map")

/-! ## Records -/

/-- **A record type**: its description in faults, how a member with a given
name is added to the fields read so far, how an object is completed at its
end, and how an array of fields is read. -/
structure Record (σ α : Type) where
  /-- What was expected, in faults. -/
  expected : String
  /-- The fields before any is read. -/
  start : σ
  /-- Adds a member. -/
  add : σ → Key → String → Document → Except Fault σ
  /-- Completes an object that ends behind the given bytes. -/
  complete : σ → Nat → Except Fault α
  /-- Reads the elements of an array, if arrays are accepted. -/
  ofItems? : Option (List Document → Close → Except Fault α)

/-- Reads a record. -/
def readRecord {σ α : Type} (r : Record σ α) : Reader α
  | .object _ members close => do
    let fields ← foldMembers r.add r.start members
    r.complete fields (← close.endObject .taken)
  | .array start items close => match r.ofItems? with
    | some read => read items close
    | none => .error ((Document.array start items close).mismatch r.expected)
  | d => .error (d.mismatch r.expected)

/-- Reads the value of a field that must not have been read before. -/
def readField {α : Type} (name : String) (key : Key) (slot : Option α) (read : Reader α) :
    Reader (Option α) := fun d =>
  if slot.isSome then .error ⟨.duplicateField name, key.behind⟩ else some <$> read d

/-- The value of a field that a record of `stop` bytes must have. -/
def requireField {α : Type} (name : String) (slot : Option α) (stop : Nat) : Except Fault α :=
  match slot with
  | some v => .ok v
  | none => .error ⟨.missingField name, stop⟩

/-- The next element of an array, if there is one, and the rest. -/
def nextItem {α : Type} (read : Reader α) (close : Close) :
    List Document → Except Fault (Option α × List Document)
  | [] => do
    discard <| close.endArray .taken
    return (none, [])
  | d :: ds => do return (some (← read d), ds)

/-- The next element of an array that must have it as its element number `index`. -/
def requireItem {α : Type} (read : Reader α) (close : Close) (expected : String) (index : Nat) :
    List Document → Except Fault (α × List Document)
  | [] => do
    let stop ← close.endArray .taken
    .error ⟨.wrongLength index expected, stop⟩
  | d :: ds => do return (← read d, ds)

/-- The end of an array, behind the elements that were asked for. -/
def endItems (close : Close) : List Document → Except Fault Unit
  | [] => discard <| close.endArray .ended
  | d :: _ => .error ⟨.trailingCharacters, d.start + 1⟩

/-! ## Texts -/

/-- **Reads a whole text.** Nothing but white space may follow the value. -/
def readTextAs {α : Type} (read : Reader α) (text : String) : Except Error α :=
  let cs := text.toList
  let (d, trailing) := Document.ofText cs
  let outcome := do
    let v ← read d
    match trailing with
    | some f => .error f
    | none => return v
  outcome.mapError (·.inText cs)

end Caret.Json
