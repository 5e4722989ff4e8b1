import SelectorIndex.Json.Token

/-!
# Reading JSON texts

The tokens of a text are taken one by one. The containers that are open wait on
a stack, the innermost first, each with what it holds so far; a value that is
complete goes to the innermost one. So a text may nest as deep as it likes.
-/

namespace SelectorIndex.Json

/-- A container that is not closed yet, its parts in reverse. -/
inductive Frame where
  | array (items : List Written)
  | object (fields : List (Option String × Written))
  /-- An object with the name of the field that is being read. -/
  | field (fields : List (Option String × Written)) (key : Option String)

/-- What may come next. -/
inductive Expected where
  | value
  /-- A value, or the end of an empty array. -/
  | item
  /-- The name of a field. -/
  | key
  /-- The name of a field, or the end of an empty object. -/
  | field
  | colon
  /-- A comma, or the end of the container. -/
  | separator
  /-- Nothing after this value. -/
  | done (w : Written)

/-- Where the reader of a text is. -/
structure Progress where
  stack : List Frame := []
  expected : Expected := .value

namespace Progress

/-- A complete value, taken into the innermost container. -/
def complete (w : Written) : List Frame → Except SyntaxError Progress
  | [] => .ok ⟨[], .done w⟩
  | .array items :: stack => .ok ⟨.array (w :: items) :: stack, .separator⟩
  | .field fields key :: stack => .ok ⟨.object ((key, w) :: fields) :: stack, .separator⟩
  | .object _ :: _ => .error .unexpectedToken

/-- The end of the innermost container. -/
def close (token : Token) : List Frame → Except SyntaxError Progress
  | .array items :: stack =>
    if token = .closeArray then complete (.array items.reverse) stack
    else .error .unexpectedToken
  | .object fields :: stack =>
    if token = .closeObject then complete (.object fields.reverse) stack
    else .error .unexpectedToken
  | _ => .error .unexpectedToken

/-- The start of a value, or a whole scalar. -/
def value (stack : List Frame) : Token → Except SyntaxError Progress
  | .plain spelling => complete (.plain spelling) stack
  | .quoted content => complete (.quoted content) stack
  | .openArray => .ok ⟨.array [] :: stack, .item⟩
  | .openObject => .ok ⟨.object [] :: stack, .field⟩
  | _ => .error .unexpectedToken

def key : List Frame → Token → Except SyntaxError Progress
  | .object fields :: stack, .quoted name => .ok ⟨.field fields name :: stack, .colon⟩
  | _, _ => .error .unexpectedToken

def comma : List Frame → Except SyntaxError Progress
  | .array items :: stack => .ok ⟨.array items :: stack, .value⟩
  | .object fields :: stack => .ok ⟨.object fields :: stack, .key⟩
  | _ => .error .unexpectedToken

def step (p : Progress) (token : Token) : Except SyntaxError Progress :=
  match p.expected with
  | .value => value p.stack token
  | .item => if token = .closeArray then close token p.stack else value p.stack token
  | .key => key p.stack token
  | .field => if token = .closeObject then close token p.stack else key p.stack token
  | .colon => if token = .colon then .ok ⟨p.stack, .value⟩ else .error .unexpectedToken
  | .separator => if token = .comma then comma p.stack else close token p.stack
  | .done _ => .error .unexpectedToken

def finish (p : Progress) : Except SyntaxError Written :=
  match p.expected with
  | .done w => .ok w
  | _ => .error .unexpectedEnd

end Progress

/-- The value that a text holds, and nothing but spaces around it. -/
def parse (cs : List Char) : Except SyntaxError Written := do
  let tokens ← Token.scan cs
  (← tokens.foldlM Progress.step {}).finish

end SelectorIndex.Json
