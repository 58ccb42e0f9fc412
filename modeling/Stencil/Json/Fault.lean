import Stencil.Text.Basic

/-!
# What can be wrong with JSON text

* `Json.Cause`            what was found or missed, with its wording in `Json.Cause.message`;
* `Json.Stop`             a cause together with the text at which reading stopped;
* `Json.Position`         line from one, and bytes read since the last line break;
* `Json.Position.after`   the position a number of bytes into a text;
* `Json.Fault`            a cause with its position, worded by `Json.Fault.message`.
-/

namespace Stencil.Json

/-- what was found or missed -/
inductive Cause
  | endInValue
  | endInList
  | endInObject
  | endInString
  | expectedValue
  | expectedListComma
  | expectedObjectComma
  | expectedColon
  | expectedWord
  | keyNotText
  | trailingComma
  | trailingText
  | invalidNumber
  | numberOutOfRange
  | invalidEscape
  | endOfEscapePair
  | loneSurrogate
  | controlCharacter
  | tooDeep
deriving DecidableEq, Repr

def Cause.message : Cause → String
  | endInValue => "EOF while parsing a value"
  | endInList => "EOF while parsing a list"
  | endInObject => "EOF while parsing an object"
  | endInString => "EOF while parsing a string"
  | expectedValue => "expected value"
  | expectedListComma => "expected `,` or `]`"
  | expectedObjectComma => "expected `,` or `\x7d`"
  | expectedColon => "expected `:`"
  | expectedWord => "expected ident"
  | keyNotText => "key must be a string"
  | trailingComma => "trailing comma"
  | trailingText => "trailing characters"
  | invalidNumber => "invalid number"
  | numberOutOfRange => "number out of range"
  | invalidEscape => "invalid escape"
  | endOfEscapePair => "unexpected end of hex escape"
  | loneSurrogate => "lone leading surrogate in hex escape"
  | controlCharacter => "control character (\\u0000-\\u001F) found while parsing a string"
  | tooDeep => "recursion limit exceeded"

/-- reading stopped `past` bytes into `rest`, the text that was left -/
structure Stop where
  cause : Cause
  rest : Text
  past : Nat
deriving DecidableEq, Repr

/-- a place in a text: the line, from one, and the bytes since the last line break -/
structure Position where
  line : Nat
  column : Nat
deriving DecidableEq, Repr

/-- the position a number of bytes after another one, at most at the end of the text -/
def Position.after (p : Position) : Text → Nat → Position
  | [], _ => p
  | c :: t, n =>
    if n = 0 then p
    else if c = '\n' then after ⟨p.line + 1, 0⟩ t (n - 1)
    else if n < c.utf8Size then ⟨p.line, p.column + n⟩
    else after ⟨p.line, p.column + c.utf8Size⟩ t (n - c.utf8Size)

/-- what is wrong with a text, and where -/
structure Fault where
  cause : Cause
  position : Position
deriving DecidableEq, Repr

def Fault.message (f : Fault) : String :=
  s!"{f.cause.message} at line {f.position.line} column {f.position.column}"

/-- where in the whole text reading stopped -/
def Stop.fault (s : Stop) (whole : Text) : Fault :=
  ⟨s.cause, Position.after ⟨1, 0⟩ whole (whole.utf8Size - s.rest.utf8Size + s.past)⟩

end Stencil.Json
