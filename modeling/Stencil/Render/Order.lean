import Stencil.Run
import Stencil.Value.Display

/-!
# Orders of an iteration

* `Order.requested`       the orders among some modifiers, each once, the ones that go first in
                          front;
* `Value.displayLe`       the order of values by the texts that stand for them;
* `Value.numericLe`       numbers first, in rising or falling order, then all other values;
* `Order.rearrange`       a list in another order.
-/

namespace Stencil

/-- the orders among some modifiers, each once, in the order of `Order.all` -/
def Order.requested (ms : List Modifier) : List Order :=
  Order.all.filter fun o => .order o ∈ ms

/-- a value with the key it is sorted by -/
def Value.withKey {κ : Type} (key : Value → κ) (v : Value) : κ × Value := (key v, v)

def Value.displayLe (a b : Text × Value) : Bool := Text.compare a.1 b.1 != .gt

/-- numbers in their total order, from the top if `falling`, then all that cannot be used as
numbers -/
def Value.numericLe (falling : Bool) (a b : Option Number × Value) : Bool :=
  match a.1, b.1 with
  | some x, some y => if falling then y.totalLe x else x.totalLe y
  | some _, none => true
  | none, some _ => false
  | none, none => true

/-- a list sorted by the texts that stand for its items; equal ones keep their order -/
def Value.sortByDisplay (items : List Value) : List Value :=
  ((items.map (Value.withKey Value.display)).mergeSort Value.displayLe).map (·.2)

def Value.sortByNumber (falling : Bool) (items : List Value) : List Value :=
  ((items.map (Value.withKey Value.toNumber?)).mergeSort (Value.numericLe falling)).map (·.2)

def Order.rearrange {σ : Type} (o : Order) (items : List Value) : Run σ (List Value) :=
  match o with
  | .reversed => pure items.reverse
  | .alphabetical => pure (Value.sortByDisplay items)
  | .alphareversed => pure (Value.sortByDisplay items).reverse
  | .increasing => pure (Value.sortByNumber false items)
  | .decreasing => pure (Value.sortByNumber true items)
  | .randomized => .shuffle items

end Stencil
