import Stencil.Value.Basic

/-!
# Writing JSON

The compact form, without blanks.

* `Json.escapeChar`, `Json.quote`   a text between quotation marks;
* `Json.decimal`                    a decimal with a point, or with an exponent if it is far from
                                    the point;
* `Json.number`                     a number; what is not finite has no JSON form and is `null`;
* `Value.toJson`                    a value; callables have no JSON form and are `null`.
-/

namespace Stencil

namespace Json

/-! ## texts -/

def hexDigit (n : Nat) : Char := if n < 10 then Char.ofNat (n + 48) else Char.ofNat (n + 87)

/-- how a character stands in a quoted text -/
def escapeChar (c : Char) : Text :=
  if c = '\"' then "\\\"".toList
  else if c = '\\' then "\\\\".toList
  else if c = '\x08' then "\\b".toList
  else if c = '\x0c' then "\\f".toList
  else if c = '\n' then "\\n".toList
  else if c = '\r' then "\\r".toList
  else if c = '\t' then "\\t".toList
  else if c.toNat < 0x20 then "\\u00".toList ++ [hexDigit (c.toNat / 16), hexDigit (c.toNat % 16)]
  else [c]

def quote (t : Text) : Text := '\"' :: t.flatMap escapeChar ++ ['\"']

/-! ## numbers -/

/-- a decimal: positional with a digit after the point if it is at least `0.00001` and below
`10000000000000000`, else one digit before the point and a signed exponent -/
def decimal (d : Decimal) : Text :=
  let ds := natDigits d.digits
  let point := ds.length + d.exponent
  if -5 < point ∧ point ≤ 16 then
    if 0 ≤ d.exponent then d.positional ++ ".0".toList else d.positional
  else
    let exponent := point - 1
    let power := 'e' :: (if exponent < 0 then [] else ['+']) ++ intDigits exponent
    match ds with
    | c :: r => if r = [] then c :: power else c :: '.' :: r ++ power
    | [] => power

/-- whole numbers below this size are written without a point -/
def wholeBound : Nat := 9000000000000000

def rational (q : Rat) : Text :=
  if q.den = 1 ∧ q.num.natAbs < wholeBound then intDigits q.num
  else if q < 0 then '-' :: decimal (Decimal.shortest .even (-q))
  else decimal (Decimal.shortest .even q)

/-- a number; what is not finite is written as null -/
def number (n : Number) : Text :=
  match n.toRat? with
  | some q => rational q
  | none => "null".toList

end Json

/-! ## values -/

mutual

def Value.toJson : Value → Text
  | .null => "null".toList
  | .bool b => if b then "true".toList else "false".toList
  | .number n => Json.number n
  | .string t => Json.quote t
  | .list items => '[' :: Text.join [','] (Value.itemsToJson items) ++ [']']
  | .map entries => '\x7b' :: Text.join [','] (Value.entriesToJson entries) ++ ['\x7d']
  | .callable _ => "null".toList

def Value.itemsToJson : List Value → List Text
  | [] => []
  | v :: vs => v.toJson :: Value.itemsToJson vs

def Value.entriesToJson : List (Text × Value) → List Text
  | [] => []
  | (k, v) :: es => (Json.quote k ++ ':' :: v.toJson) :: Value.entriesToJson es

end

end Stencil
