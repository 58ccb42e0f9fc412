import Stencil.Number.Decimal

/-!
# Writing numbers with the fewest digits

The rationals that round to a number form an interval around it, with its ends if the last binary
place of the number is even. The written form has the fewest decimal digits of all points of the
interval, and among those with that many it is the nearest to the number.

* `Decimal`            `digits * 10 ^ exponent`;
* `Tie`                which of two equally near decimals is taken;
* `neighbourhood`      the interval of rationals that round to a positive number;
* `Decimal.shortest`   the decimal with the fewest digits in that interval;
* `Decimal.positional` a decimal written without an exponent;
* `Number.display`     the written form of a number: never an exponent, no point in whole numbers.
-/

namespace Stencil

/-- a decimal: `digits * 10 ^ exponent` -/
structure Decimal where
  digits : Nat
  exponent : Int
deriving DecidableEq, Repr

/-- which of two equally near decimals is taken: the larger one, or the one with an even digit -/
inductive Tie
  | up
  | even
deriving DecidableEq, Repr

/-- an interval of rationals, with its ends if `closed` -/
structure Interval where
  low : Rat
  high : Rat
  closed : Bool

namespace Interval

def has (i : Interval) (x : Rat) : Bool :=
  (i.low < x && x < i.high) || (i.closed && (x = i.low || x = i.high))

end Interval

/-- the rationals that round to a positive number; the gap below a power of two is narrower -/
def neighbourhood (q : Rat) : Interval :=
  let e := unitExponent q
  let unit := powInt 2 e
  let m := (q * powInt 2 (-e)).floor
  let below := if m = Nat.pow 2 52 ∧ -1074 < e then unit / 4 else unit / 2
  ⟨q - below, q + unit / 2, m % 2 = 0⟩

def floorLog10 (q : Rat) : Int :=
  if 1 ≤ q then (digitCount q.floor.toNat : Int) - 1
  else
    let d := digitCount (1 / q).floor.toNat
    if q * powInt 10 (d - 1) = 1 then 1 - (d : Int) else -(d : Int)

namespace Decimal

def toRat (d : Decimal) : Rat := d.digits * powInt 10 d.exponent

/-- the nearest point of the interval on the grid of multiples of `10 ^ k`, if there is one; only
the two neighbours of `q` on the grid have to be looked at -/
def onGrid? (tie : Tie) (q : Rat) (i : Interval) (k : Int) : Option Decimal :=
  let s := q * powInt 10 (-k)
  let below : Decimal := ⟨s.floor.toNat, k⟩
  let above : Decimal := ⟨s.floor.toNat + 1, k⟩
  match i.has below.toRat, i.has above.toRat with
  | false, false => none
  | true, false => some below
  | false, true => some above
  | true, true =>
    let down := s - below.digits
    if down < 1 / 2 then some below
    else if 1 / 2 < down then some above
    else match tie with
      | .up => some above
      | .even => some (if below.digits % 2 = 0 then below else above)

def trimZeros (d : Decimal) : Decimal :=
  if d.digits ≠ 0 ∧ d.digits % 10 = 0 then trimZeros ⟨d.digits / 10, d.exponent + 1⟩ else d
termination_by d.digits
decreasing_by omega

/-- the decimal with the fewest digits that rounds to a positive number; seventeen digits are
enough -/
def shortest (tie : Tie) (q : Rat) : Decimal :=
  let i := neighbourhood q
  let top := floorLog10 q
  let found := (List.range 17).findSome? fun (n : Nat) => onGrid? tie q i (top - n)
  trimZeros (found.getD ⟨(q * powInt 10 (16 - top)).floor.toNat, top - 16⟩)

def positional (d : Decimal) : Text :=
  let ds := natDigits d.digits
  if 0 ≤ d.exponent then ds ++ List.replicate d.exponent.toNat '0'
  else
    let places := (-d.exponent).toNat
    if places < ds.length then ds.take (ds.length - places) ++ '.' :: ds.drop (ds.length - places)
    else "0.".toList ++ List.replicate (places - ds.length) '0' ++ ds

end Decimal

namespace Number

def displayPositive (q : Rat) : Text :=
  if q.den = 1 ∧ q.num.natAbs < exactBound then natDigits q.num.natAbs
  else (Decimal.shortest .up q).positional

def display : Number → Text
  | .nan _ => "NaN".toList
  | .infinity negative => if negative then "-inf".toList else "inf".toList
  | .negZero => "-0".toList
  | .rational q => if q < 0 then '-' :: displayPositive (-q) else displayPositive q

end Number

end Stencil
