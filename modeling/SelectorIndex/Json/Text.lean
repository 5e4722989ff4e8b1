import SelectorIndex.Json.Record
import SelectorIndex.Json.AsYaml

/-!
# Reading texts of JSON and values

A text of JSON is read under the rules of either format, its fields in their
written order. A value that was not written as a text is read under the rules of
JSON at any depth, its fields in ascending order.
-/

namespace SelectorIndex

inductive ReadError where
  | text (cause : Json.SyntaxError)
  | value (cause : DecodeError)
  deriving DecidableEq, Repr

def ReadError.message : ReadError → String
  | text cause => cause.message
  | value cause => cause.message

namespace Format

variable {α : Type}

/-- The values that a text of JSON holds: one, or any number of them where it is read as YAML. -/
def parse (format : Format) (cs : List Char) : Except Json.SyntaxError (List Written) :=
  match format with
  | .json => (Json.parse cs).map ([·])
  | .yaml => Json.AsYaml.parse cs

def readTexts (format : Format) (read : Reader α) (s : String) : Except ReadError (List α) := do
  let ws ← (format.parse s.toList).mapError .text
  ws.mapM fun w => (read ⟨format, format.levels⟩ w).mapError .value

def readText (format : Format) (read : Reader α) (s : String) : Except ReadError α := do
  match ← format.readTexts read s with
  | [a] => return a
  | _ => throw (.text .unexpectedToken)

end Format

def Json.readValue {α : Type} (read : Reader α) (j : Json) : Except DecodeError α :=
  let w := Written.ofJson j.normal
  read ⟨.json, w.depth⟩ w

end SelectorIndex
