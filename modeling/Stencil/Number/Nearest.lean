import Stencil.Number.Basic

/-!
# Rounding to the nearest number

* `powInt b e`        `b` to a whole power, as a rational;
* `roundHalfEven q`   the nearest whole number, halves to the even one;
* `unitExponent q`    the exponent of the last binary place of `q` at 53 places, which is never
                      below that of the smallest number;
* `Number.nearest`    the number nearest to a rational, halves to the even one; what is out of
                      range becomes infinite;
* `Number.add`        the sum, rounded;
* `Number.scale`      the product with a positive rational, rounded.
-/

namespace Stencil

def powInt (b : Nat) (e : Int) : Rat :=
  if 0 ≤ e then (Nat.pow b e.toNat : Nat) else 1 / (Nat.pow b (-e).toNat : Nat)

def roundHalfEven (q : Rat) : Int :=
  let f := q.floor
  let r := q - f
  if r < 1 / 2 then f
  else if 1 / 2 < r then f + 1
  else if f % 2 = 0 then f else f + 1

/-- the exponent of the largest power of two that is not above a positive rational -/
def floorLog2 (q : Rat) : Int :=
  let e : Int := (Nat.log2 q.num.natAbs : Int) - (Nat.log2 q.den : Int)
  if powInt 2 e ≤ q then e else e - 1

/-- the exponent of the last of 53 binary places of a positive rational, at least that of the
smallest number -/
def unitExponent (q : Rat) : Int := max (floorLog2 q - 52) (-1074)

/-- the least power of two that is out of range -/
def overflowBound : Rat := (Nat.pow 2 1024 : Nat)

/-- up to this size every whole number is a number -/
def exactBound : Nat := 9007199254740992

namespace Number

def nearest (q : Rat) : Number :=
  if q.den = 1 ∧ q.num.natAbs ≤ exactBound then .rational q
  else
    let e := unitExponent (if q < 0 then -q else q)
    let m := roundHalfEven (q * powInt 2 (-e))
    let v := m * powInt 2 e
    if m = 0 then (if q < 0 then .negZero else .rational 0)
    else if overflowBound ≤ v then .infinity false
    else if v ≤ -overflowBound then .infinity true
    else .rational v

theorem nearest_intCast {n : Int} (h : n.natAbs ≤ exactBound) : nearest n = ofInt n := by
  simp [nearest, h, ofInt]

def add : Number → Number → Number
  | .nan s, _ => .nan s
  | _, .nan s => .nan s
  | .infinity s, .infinity t => if s = t then .infinity s else .nan false
  | .infinity s, _ => .infinity s
  | _, .infinity s => .infinity s
  | .negZero, n => n
  | n, .negZero => n
  | .rational p, .rational q => nearest (p + q)

theorem add_ofInt {a b : Int} (h : (a + b).natAbs ≤ exactBound) :
    add (ofInt a) (ofInt b) = ofInt (a + b) := by
  simp only [add, ofInt, ← Rat.intCast_add]
  exact nearest_intCast h

def scale (n : Number) (p : Rat) : Number :=
  match n with
  | .rational q => nearest (q * p)
  | m => m

end Number

end Stencil
