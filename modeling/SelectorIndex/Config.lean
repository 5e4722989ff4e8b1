import SelectorIndex.Json.Text
import SelectorIndex.Host
import SelectorIndex.RuleSet

/-!
# Rules from JSON

A list of rules to be added to a set. The selector of an entry may be any
value; an entry whose selector is no string is passed over when the list is
loaded, so that one malformed entry does not spoil the others.
-/

namespace SelectorIndex

class Payload (δ : Type) where
  /-- The payload of an entry that names none. -/
  absent : δ
  reader : Reader δ

instance : Payload Json := ⟨.null, Reader.value⟩

instance : Payload String := ⟨"", Reader.string⟩

instance : Payload UInt64 := ⟨0, fun r w => Nat.toUInt64 <$> Reader.natural "u64" r w⟩

instance : Payload Unit := ⟨(), Reader.unit⟩

structure Config.Entry (δ : Type) where
  selector : Json
  data : δ
  deriving DecidableEq, Repr

structure Config (δ : Type) where
  rules : List (Config.Entry δ) := []
  deriving DecidableEq, Repr

namespace Config

variable {δ : Type}

def entryRecord [Payload δ] : Record (Entry δ) where
  name := "RuleConfig"
  default := ⟨.null, Payload.absent⟩
  fields := [
    .of "selector" Reader.value fun selector entry => { entry with selector },
    .of "data" Payload.reader fun data entry => { entry with data }]

def entriesReader [Payload δ] : Reader (List (Entry δ)) := .list entryRecord.reader

def record [Payload δ] : Record (Config δ) where
  name := "RuleSetConfig"
  default := {}
  fields := [.of "rules" entriesReader fun rules _ => { rules }]

def ofText [Payload δ] (s : String) : Except Failure (Config δ) :=
  (Format.json.readText record.reader s).mapError fun cause => .invalidConfig cause.message

def ofJson [Payload δ] (j : Json) : Except Failure (Config δ) :=
  (Json.readValue record.reader j).mapError fun cause => .invalidConfig cause.message

end Config

namespace RuleSet

variable {δ : Type}

/-- The entries with a string for a selector added in turn, and their ids. -/
def addEntries (set : RuleSet δ) : List (Config.Entry δ) → List RuleId × RuleSet δ
  | [] => ([], set)
  | entry :: rest =>
    match entry.selector with
    | .string selector =>
      let (id, set) := set.add selector entry.data
      let (ids, set) := addEntries set rest
      (id :: ids, set)
    | _ => addEntries set rest

def extend (set : RuleSet δ) (config : Config δ) : List RuleId × RuleSet δ :=
  set.addEntries config.rules

end RuleSet

end SelectorIndex
