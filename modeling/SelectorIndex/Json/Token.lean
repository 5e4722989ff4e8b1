import SelectorIndex.Json.Written
import SelectorIndex.Number.Decimal
import SelectorIndex.Text.Hex

/-!
# Tokens of JSON texts

A text is cut into brackets, separators, strings and scalars without quotes.
Numbers have no leading zeros, strings hold no control characters, and a run of
other characters that is no scalar is refused. An escaped surrogate is a
character only together with its other half.
-/

namespace SelectorIndex.Json

open SelectorIndex.Text

inductive Token where
  | openArray
  | closeArray
  | openObject
  | closeObject
  | comma
  | colon
  | plain (spelling : String)
  | quoted (content : Option String)
  deriving DecidableEq, Repr

inductive SyntaxError where
  | unexpectedEnd
  | unexpectedCharacter (c : Char)
  | unexpectedToken
  | invalidScalar (spelling : String)
  | invalidEscape
  | controlCharacter
  /-- A text with characters that its format does not admit. -/
  | notAdmitted
  deriving DecidableEq, Repr

def SyntaxError.message : SyntaxError → String
  | unexpectedEnd => "unexpected end of text"
  | unexpectedCharacter c => "unexpected character " ++ String.singleton c
  | unexpectedToken => "unexpected value or separator"
  | invalidScalar spelling => "invalid value " ++ spelling
  | invalidEscape => "invalid escape"
  | controlCharacter => "control character in a string"
  | notAdmitted => "character that the format does not admit"

namespace Token

def isSpace (c : Char) : Bool := c == ' ' || c == '\t' || c == '\n' || c == '\r'

/-! ## Scalars -/

def isPlainChar (c : Char) : Bool := c.isAlphanum || c == '-' || c == '+' || c == '.'

def isScalar (cs : List Char) : Bool :=
  cs == "null".toList || cs == "true".toList || cs == "false".toList
    || (Decimal.ofSpelling? cs).isSome

/-! ## Strings -/

def code (cs : List Char) : Except SyntaxError (Nat × List Char) :=
  match takeHex 4 cs with
  | ([a, b, c, d], rest) => .ok (ofHex [a, b, c, d], rest)
  | _ => .error .invalidEscape

/-- The character that two codes name as the halves of a pair. -/
def pair? (high low : Nat) : Option Char :=
  if 0xd800 ≤ high ∧ high < 0xdc00 ∧ 0xdc00 ≤ low ∧ low < 0xe000 then
    some (Char.ofNat (0x10000 + (high - 0xd800) * 0x400 + (low - 0xdc00)))
  else none

/-- The character that an escape with this code and the text after it start with. -/
def paired (high : Nat) (cs : List Char) : Option Char × List Char :=
  match cs with
  | '\\' :: 'u' :: rest =>
    match code rest with
    | .ok (low, tail) =>
      match pair? high low with
      | some c => (some c, tail)
      | none => (none, cs)
    | .error _ => (none, cs)
  | _ => (none, cs)

/-- The character of an escape, from the text after the backslash. -/
def escape : List Char → Except SyntaxError (Option Char × List Char)
  | [] => .error .unexpectedEnd
  | c :: cs => match c with
    | '"' | '\\' | '/' => .ok (some c, cs)
    | 'b' => .ok (some '\x08', cs)
    | 'f' => .ok (some '\x0c', cs)
    | 'n' => .ok (some '\n', cs)
    | 'r' => .ok (some '\r', cs)
    | 't' => .ok (some '\t', cs)
    | 'u' => do
      let (n, rest) ← code cs
      if n.isValidChar then .ok (some (Char.ofNat n), rest) else .ok (paired n rest)
    | _ => .error .invalidEscape

/-- The rest of a string up to its closing quote, after the characters `read`. The bound is the
length of the text. -/
def stringRest (read : Option (List Char)) :
    Nat → List Char → Except SyntaxError (Option String × List Char)
  | 0, _ => .error .unexpectedEnd
  | _ + 1, [] => .error .unexpectedEnd
  | bound + 1, c :: cs =>
    if c = '"' then .ok (read.map fun r => String.ofList r.reverse, cs)
    else if c = '\\' then do
      let (d?, rest) ← escape cs
      stringRest (read.bind fun r => d?.map (· :: r)) bound rest
    else if c.toNat < 0x20 then .error .controlCharacter
    else stringRest (read.map (c :: ·)) bound cs

/-! ## Texts -/

def ofChar? : Char → Option Token
  | '[' => some openArray
  | ']' => some closeArray
  | '\x7b' => some openObject
  | '\x7d' => some closeObject
  | ',' => some comma
  | ':' => some colon
  | _ => none

/-- The first token of a text that does not start with a space, and what follows it. The text after
its first character is no longer than the bound. -/
def next (bound : Nat) (c : Char) (cs : List Char) : Except SyntaxError (Token × List Char) :=
  match ofChar? c with
  | some token => .ok (token, cs)
  | none =>
    if c = '"' then do
      let (content, rest) ← stringRest (some []) (bound + 1) cs
      .ok (quoted content, rest)
    else
      let run := (c :: cs).takeWhile isPlainChar
      if run.isEmpty then .error (.unexpectedCharacter c)
      else if isScalar run then
        .ok (plain (String.ofList run), (c :: cs).dropWhile isPlainChar)
      else .error (.invalidScalar (String.ofList run))

/-- The tokens of a text after those in `read`. The bound is the length of the text. -/
def scanRest (read : List Token) : Nat → List Char → Except SyntaxError (List Token)
  | _, [] => .ok read.reverse
  | 0, _ :: _ => .error .unexpectedEnd
  | bound + 1, c :: cs =>
    if isSpace c then scanRest read bound cs
    else do
      let (token, rest) ← next bound c cs
      scanRest (token :: read) bound rest

def scan (cs : List Char) : Except SyntaxError (List Token) := scanRest [] cs.length cs

end Token

end SelectorIndex.Json
