import Stencil.Number.Shortest
import Stencil.Table
import Stencil.Text.Blank

/-!
# Values

What a template variable can hold.

* `Callable`            a host function, known by an identity; two are equal if it is the same one;
* `Value`               null, booleans, numbers, texts, lists, maps and callables;
* `Value.typeName`      the name of the kind of a value, for messages;
* `Value.isTruthy`      whether a condition holds: null, false, zero, not-a-number and the empty
                        text do not;
* `Value.toNumber?`     the number that a value can be used as;
* `Value.eq`            equality, with the numbers compared as numbers.
-/

namespace Stencil

structure Callable where
  arity : Nat
  id : Nat
deriving DecidableEq, Repr

/-- what a variable can hold -/
inductive Value
  | null
  | bool (b : Bool)
  | number (n : Number)
  | string (t : Text)
  | list (items : List Value)
  | map (entries : List (Text × Value))
  | callable (f : Callable)

namespace Value

instance : Inhabited Value := ⟨null⟩

def typeName : Value → String
  | null => "null"
  | bool _ => "boolean"
  | number _ => "number"
  | string _ => "string"
  | list _ => "list"
  | map _ => "object"
  | callable _ => "function"

def isNull : Value → Bool
  | null => true
  | _ => false

/-- whether a value counts as true in a condition -/
def isTruthy : Value → Bool
  | null => false
  | bool b => b
  | number n => !n.isZero && !n.isNaN
  | string t => t ≠ []
  | list _ => true
  | map _ => true
  | callable _ => true

/-- the number that a value can be used as; a text is read without the white space around it -/
def toNumber? : Value → Option Number
  | bool b => some (if b then .one else .zero)
  | number n => some n
  | string t => Number.read? t.trim
  | _ => none

/-! ## equality -/

mutual

/-- equality of values: zero is negative zero, and not-a-number differs from itself -/
def eq : Value → Value → Bool
  | null, null => true
  | bool a, bool b => a == b
  | number a, number b => a.eq b
  | string a, string b => a == b
  | list a, list b => eqItems a b
  | map a, map b => eqEntries a b
  | callable a, callable b => a.id == b.id
  | _, _ => false

def eqItems : List Value → List Value → Bool
  | [], [] => true
  | a :: s, b :: t => eq a b && eqItems s t
  | _, _ => false

def eqEntries : List (Text × Value) → List (Text × Value) → Bool
  | [], [] => true
  | (k, a) :: s, (l, b) :: t => k == l && eq a b && eqEntries s t
  | _, _ => false

end

end Value

end Stencil
