import Stencil.Number.Nearest
import Stencil.Text.Basic

/-!
# Reading numbers

A number is written with an optional sign, digits with an optional point, and an optional
exponent; or as one of the words `inf`, `infinity`, `nan` in any case.

* `digitsValue`        the number that a run of decimal digits stands for;
* `digitCount`         how many decimal digits a number has;
* `Number.ofDecimal`   the number nearest to `m * 10 ^ e`;
* `Number.read?`       the number that a whole text is written form of, if it is one.
-/

namespace Stencil

def digitValue (c : Char) : Nat := c.toNat - '0'.toNat

def digitsValue (ds : Text) : Nat := ds.foldl (fun n c => 10 * n + digitValue c) 0

def natDigits (n : Nat) : Text := Nat.toDigits 10 n

def digitCount (n : Nat) : Nat := (natDigits n).length

def intDigits (n : Int) : Text :=
  if n < 0 then '-' :: natDigits n.natAbs else natDigits n.natAbs

namespace Number

/-- the number nearest to `m * 10 ^ e`; a power far out of range is decided by its size alone -/
def ofDecimal (m : Nat) (e : Int) : Number :=
  if m = 0 then zero
  else if 310 < digitCount m + e then .infinity false
  else if digitCount m + e < -330 then zero
  else nearest (m * powInt 10 e)

def readExponent? : Text → Option Int
  | [] => some 0
  | c :: r =>
    if c = 'e' ∨ c = 'E' then
      match r with
      | '-' :: ds => if ds ≠ [] ∧ ds.all Char.isDigit then some (-(digitsValue ds : Int)) else none
      | '+' :: ds => if ds ≠ [] ∧ ds.all Char.isDigit then some (digitsValue ds) else none
      | ds => if ds ≠ [] ∧ ds.all Char.isDigit then some (digitsValue ds) else none
    else none

/-- digits with an optional point and an optional exponent -/
def readDecimal? (t : Text) : Option Number :=
  let whole := t.takeWhile Char.isDigit
  let afterWhole := t.dropWhile Char.isDigit
  let (part, rest) := match afterWhole with
    | '.' :: r => (r.takeWhile Char.isDigit, r.dropWhile Char.isDigit)
    | r => ([], r)
  if whole = [] ∧ part = [] then none
  else (readExponent? rest).map fun e =>
    ofDecimal (digitsValue (whole ++ part)) (e - part.length)

/-- a number without a sign: one of three words, or a decimal -/
def readUnsigned? (t : Text) : Option Number :=
  let word := t.map Char.toLower
  if word = "inf".toList ∨ word = "infinity".toList then some (.infinity false)
  else if word = "nan".toList then some (.nan false)
  else readDecimal? t

def read? : Text → Option Number
  | '-' :: t => (readUnsigned? t).map neg
  | '+' :: t => readUnsigned? t
  | t => readUnsigned? t

end Number

end Stencil
