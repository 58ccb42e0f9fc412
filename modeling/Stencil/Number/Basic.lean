/-!
# Numbers

Template numbers are the numbers of binary64 arithmetic. A finite number is kept as the rational
it stands for, so that comparing and adding are exact until `Number.nearest` rounds.

* `Number`             not-a-number and infinity with a sign, negative zero, and the rationals;
* `Number.ofInt`       a whole number;
* `Number.neg`         the number with the other sign;
* `Number.compare?`    the order of numbers; not-a-number is comparable with nothing;
* `Number.eq`          equality of numbers: both zeros are equal, not-a-number differs from all;
* `Number.totalLe`     the total order, from negative not-a-number up to positive not-a-number,
                       with negative zero just below zero;
* `Number.roundAway`   the nearest whole number, halves away from zero.
-/

namespace Stencil

/-- a binary64 number; a finite one is the rational it stands for -/
inductive Number
  | nan (negative : Bool)
  | infinity (negative : Bool)
  | negZero
  | rational (q : Rat)
deriving DecidableEq, Repr

namespace Number

def zero : Number := .rational 0

def one : Number := .rational 1

def ofInt (n : Int) : Number := .rational n

instance : Inhabited Number := ⟨zero⟩

def neg : Number → Number
  | .nan s => .nan !s
  | .infinity s => .infinity !s
  | .negZero => .rational 0
  | .rational q => if q = 0 then .negZero else .rational (-q)

def isNaN : Number → Bool
  | .nan _ => true
  | _ => false

def toRat? : Number → Option Rat
  | .nan _ => none
  | .infinity _ => none
  | .negZero => some 0
  | .rational q => some q

def isFinite (n : Number) : Bool := n.toRat?.isSome

def isZero (n : Number) : Bool := n.toRat? = some 0

/-! ## order -/

/-- where a number stands with respect to the finite ones -/
def level : Number → Int
  | .nan negative => if negative then -2 else 2
  | .infinity negative => if negative then -1 else 1
  | .negZero => 0
  | .rational _ => 0

/-- the rational of a finite number, and zero for all others -/
def finitePart (n : Number) : Rat := n.toRat?.getD 0

/-- the order of numbers; nothing is known about not-a-number -/
def compare? (a b : Number) : Option Ordering :=
  if a.isNaN || b.isNaN then none
  else if a.level < b.level then some .lt
  else if b.level < a.level then some .gt
  else if a.finitePart < b.finitePart then some .lt
  else if b.finitePart < a.finitePart then some .gt
  else some .eq

/-- equality of numbers: zero is negative zero, and not-a-number is not itself -/
def eq (a b : Number) : Bool := a.compare? b = some .eq

/-- the total order, in which negative zero is below zero and not-a-number at the two ends -/
def totalLe (a b : Number) : Bool :=
  if a.level < b.level then true
  else if b.level < a.level then false
  else if a.finitePart < b.finitePart then true
  else if b.finitePart < a.finitePart then false
  else a = .negZero || b ≠ .negZero

/-! ## whole numbers -/

/-- the whole number that a finite number is, if it is one -/
def toInt? (n : Number) : Option Int :=
  match n.toRat? with
  | none => none
  | some q => if q.den = 1 then some q.num else none

theorem toInt?_ofInt (n : Int) : (ofInt n).toInt? = some n := by
  simp [ofInt, toInt?, toRat?]

/-- the nearest whole number, halves away from zero; what rounds up to zero is negative zero -/
def roundAway : Number → Number
  | .rational q =>
    if q < 0 then
      let m := (-q + 1 / 2).floor
      if m = 0 then .negZero else ofInt (-m)
    else ofInt (q + 1 / 2).floor
  | n => n

end Number

end Stencil
