import SelectorIndex.Json.Reader

/-!
# Records

A record is read from an object, by the names of its fields, or in JSON from an
array that holds its fields in the order of their declaration. Unknown fields of an
object are skipped unread, a field may be absent if it has a default, and the
first fault in reading order is reported; absent fields come after all others.
-/

namespace SelectorIndex

/-- A field of a record: how its value changes the record read so far. -/
structure Field (α : Type) where
  name : String
  required : Bool
  read : Reading → Written → α → Except DecodeError α

namespace Field

variable {α β : Type}

/-- A field that keeps its default where it is absent. -/
def of (name : String) (read : Reader β) (set : β → α → α) : Field α :=
  ⟨name, false, fun r w a => do return set (← read r w) a⟩

/-- A field that has to be there. -/
def needed (name : String) (read : Reader β) (set : β → α → α) : Field α :=
  { of name read set with required := true }

end Field

/-- A record that is read field by field, starting from its defaults. -/
structure Record (α : Type) where
  name : String
  fields : List (Field α)
  default : α

namespace Record

variable {α : Type}

/-- The fields of an object read in turn. `seen` are the names read before. -/
def readFields (record : Record α) (r : Reading) (seen : List String) (a : α) :
    List (Option String × Written) → Except DecodeError α
  | [] =>
    match record.fields.find? fun f => f.required && !seen.contains f.name with
    | some f => .error (.missingField f.name)
    | none => .ok a
  | (none, _) :: _ => .error .invalidText
  | (some key, w) :: rest =>
    match record.fields.find? fun f => f.name == key with
    | some f =>
      if seen.contains key then .error (.repeatedField key)
      else do readFields record r (key :: seen) (← f.read r w a) rest
    | none => readFields record r seen a rest

/-- The items of an array of `length` items read into the fields that are left. -/
def readItems (record : Record α) (r : Reading) (length : Nat) :
    List (Field α) → List Written → α → Except DecodeError α
  | [], [], a => .ok a
  | [], _ :: _, _ => .error (.tooLong length)
  | f :: fs, [], a =>
    if f.required then
      .error (.tooShort (record.fields.length - fs.length - 1) record.name record.fields.length)
    else readItems record r length fs [] a
  | f :: fs, w :: ws, a => do readItems record r length fs ws (← f.read r w a)

def reader (record : Record α) : Reader α
  | r, .object fields => do
    let inner ← r.enter
    record.readFields inner [] record.default fields
  | r, .array items =>
    if r.format = .json then do
      let inner ← r.enter
      record.readItems inner items.length record.fields items record.default
    else Reader.mismatch (.array items) (.record record.name)
  | _, found => Reader.mismatch found (.record record.name)

end Record

end SelectorIndex
