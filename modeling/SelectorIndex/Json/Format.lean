/-!
# Formats of texts

A text is read as JSON or as YAML. A text of JSON may be read as either: the
formats agree on where its values begin and end, but not on what a scalar
without quotes may stand for, nor on how deep containers may nest.
-/

namespace SelectorIndex

inductive Format where
  | json
  | yaml
  deriving DecidableEq, Repr

namespace Format

def name : Format → String
  | json => "JSON"
  | yaml => "YAML"

/-- The number of containers that may be within one another. -/
def levels : Format → Nat
  | json => 127
  | yaml => 128

end Format

end SelectorIndex
