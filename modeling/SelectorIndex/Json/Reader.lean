import SelectorIndex.Json.Format
import SelectorIndex.Json.Written
import SelectorIndex.Number.Decimal
import SelectorIndex.Number.Shortest
import SelectorIndex.Text.Quoted

/-!
# Readers of written values

A reader takes a written value for what it wants, or says what it found
instead. What counts as a string or a number, whether a record may be an array,
and how deep containers may nest, differs between the formats of texts; one
reader serves both. Only what is read is looked at: what a reader skips may be
as deep and as odd as it likes.
-/

namespace SelectorIndex

/-- What a reader accepts. -/
inductive Shape where
  | string
  | map
  | sequence
  | boolean
  /-- A natural number of 64 bits, under the name of its type. -/
  | natural (type : String)
  | unit
  | record (name : String)
  deriving DecidableEq, Repr

def Shape.text : Shape → String
  | string => "a string"
  | map => "a map"
  | sequence => "a sequence"
  | boolean => "a boolean"
  | natural type => type
  | unit => "unit"
  | record name => "struct " ++ name

/-- A written value as reports name it. -/
def Written.describe : Written → String
  | plain s =>
    if s = "null" then s
    else if s = "true" ∨ s = "false" then "boolean `" ++ s ++ "`"
    else if ((Decimal.ofSpelling? s.toList).bind Decimal.integer?).isSome then
      "integer `" ++ s ++ "`"
    else "floating point `" ++ s ++ "`"
  | double x => "floating point `" ++ x.plainText ++ "`"
  | quoted content => "string " ++ Text.quoted (content.getD "")
  | array _ => "sequence"
  | object _ => "map"

inductive DecodeError where
  | invalidType (found : String) (wanted : Shape)
  | invalidValue (found : String) (wanted : Shape)
  | missingField (name : String)
  | repeatedField (name : String)
  /-- An array with more items than the record has fields. -/
  | tooLong (length : Nat)
  /-- An array that ends at or before the place of a field without default. -/
  | tooShort (place : Nat) (record : String) (fields : Nat)
  | tooDeep
  /-- A string with an escape that names no character. -/
  | invalidText
  /-- A number that no number of 64 bits stands for. -/
  | invalidNumber (spelling : String)
  deriving DecidableEq, Repr

def DecodeError.message : DecodeError → String
  | invalidType found wanted => "invalid type: " ++ found ++ ", expected " ++ wanted.text
  | invalidValue found wanted => "invalid value: " ++ found ++ ", expected " ++ wanted.text
  | missingField name => "missing field `" ++ name ++ "`"
  | repeatedField name => "duplicate field `" ++ name ++ "`"
  | tooLong length => "invalid length " ++ toString length ++ ", expected fewer elements in array"
  | tooShort place record fields =>
    "invalid length " ++ toString place ++ ", expected struct " ++ record ++ " with "
      ++ toString fields ++ (if fields = 1 then " element" else " elements")
  | tooDeep => "recursion limit exceeded"
  | invalidText => "escape that names no character"
  | invalidNumber spelling => "number out of range: " ++ spelling

/-- The rules under which values are read. -/
structure Reading where
  format : Format
  /-- The number of containers that may be within one another. -/
  levels : Nat
  deriving DecidableEq, Repr

def Reading.enter (r : Reading) : Except DecodeError Reading :=
  match r.levels with
  | 0 => .error .tooDeep
  | levels + 1 => .ok { r with levels }

abbrev Reader (α : Type) := Reading → Written → Except DecodeError α

namespace Reader

variable {α : Type}

def mismatch (found : Written) (wanted : Shape) : Except DecodeError α :=
  .error (.invalidType found.describe wanted)

/-! ## Scalars -/

def content : Option String → Except DecodeError String
  | some s => .ok s
  | none => .error .invalidText

/-- In YAML a scalar without quotes is a string as well, as it is spelled. -/
def string : Reader String
  | _, .quoted s => content s
  | r, .plain s => if r.format = .yaml then .ok s else mismatch (.plain s) .string
  | _, found => mismatch found .string

def boolean : Reader Bool
  | _, .plain s =>
    if s = "true" then .ok true
    else if s = "false" then .ok false
    else mismatch (.plain s) .boolean
  | _, found => mismatch found .boolean

def natural (type : String) : Reader Nat
  | _, .plain s =>
    match Decimal.ofSpelling? s.toList with
    | some d =>
      match d.integer? with
      | some n =>
        if d.negative then .error (.invalidValue (Written.plain s).describe (.natural type))
        else if n < UInt64.size then .ok n.toNat
        else .error (.invalidNumber s)
      | none => mismatch (.plain s) (.natural type)
    | none => mismatch (.plain s) (.natural type)
  | _, found => mismatch found (.natural type)

def isNull : Written → Bool
  | .plain s => s == "null"
  | _ => false

def unit : Reader Unit
  | _, found => if isNull found then .ok () else mismatch found .unit

/-- Null is no value. -/
def optional (read : Reader α) : Reader (Option α)
  | r, found => if isNull found then .ok none else some <$> read r found

/-! ## Containers -/

def list (read : Reader α) : Reader (List α)
  | r, .array items => do
    let inner ← r.enter
    items.mapM (read inner)
  | _, found => mismatch found .sequence

/-- The fields of an object in written order. -/
def map (read : Reader α) : Reader (List (String × α))
  | r, .object fields => do
    let inner ← r.enter
    fields.mapM fun (key, w) => do return (← content key, ← read inner w)
  | _, found => mismatch found .map

/-! ## Whole values -/

/-- An integer of 64 bits, with a sign or without. -/
def isWord (n : Int) : Bool := Int64.minValue.toInt ≤ n && n < UInt64.size

def isDoubleWord (n : Int) : Bool :=
  Int64.minValue.toInt * UInt64.size ≤ n && n < UInt64.size * UInt64.size

/-- The number that a spelling stands for in JSON: an integer of 64 bits is one, minus zero is not,
and of all others the digits are rounded before the power of ten. -/
def jsonNumber (d : Decimal) : Option Json :=
  match d.integer? with
  | some n =>
    if isWord n && !(d.negative && n == 0) then some (.int n) else d.stepwise?.map .double
  | none => d.stepwise?.map .double

/-- The number that a spelling stands for in YAML: an integer of 64 bits is one, one of 128 bits is
refused, and all others are the nearest number. A number that is too large is a string. -/
def yamlNumber (s : String) (d : Decimal) : Option Json :=
  match d.integer? with
  | some n =>
    if isWord n then some (.int n)
    else if isDoubleWord n then none
    else some (d.nearest?.elim (.string s) .double)
  | none => some (d.nearest?.elim (.string s) .double)

def number (format : Format) (s : String) (d : Decimal) : Option Json :=
  match format with
  | .json => jsonNumber d
  | .yaml => yamlNumber s d

def scalar (format : Format) (s : String) : Except DecodeError Json :=
  if s = "null" then .ok .null
  else if s = "true" then .ok (.bool true)
  else if s = "false" then .ok (.bool false)
  else match (Decimal.ofSpelling? s.toList).bind (number format s) with
    | some j => .ok j
    | none => .error (.invalidNumber s)

mutual

/-- The normal form of a written value of at most `levels` containers within one another. -/
def valueWithin (format : Format) (levels : Nat) : Written → Except DecodeError Json
  | .plain s => scalar format s
  | .double x => .ok (.double x)
  | .quoted s => .string <$> content s
  | .array items =>
    match levels with
    | 0 => .error .tooDeep
    | inner + 1 => .array <$> itemsWithin format inner items
  | .object fields =>
    match levels with
    | 0 => .error .tooDeep
    | inner + 1 => .object <$> fieldsWithin format inner [] fields

def itemsWithin (format : Format) (levels : Nat) : List Written → Except DecodeError (List Json)
  | [] => .ok []
  | w :: rest => do
    let j ← valueWithin format levels w
    let js ← itemsWithin format levels rest
    return j :: js

/-- The fields added in turn to `sorted`. -/
def fieldsWithin (format : Format) (levels : Nat) (sorted : List (String × Json)) :
    List (Option String × Written) → Except DecodeError (List (String × Json))
  | [] => .ok sorted
  | (key, w) :: rest => do
    let name ← content key
    let j ← valueWithin format levels w
    fieldsWithin format levels (Json.putField name j sorted) rest

end

def value : Reader Json
  | r, w => valueWithin r.format r.levels w

end Reader

end SelectorIndex
