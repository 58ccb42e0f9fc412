import Stencil.Value.Basic

/-!
# Random orders

Lists are put in random orders by a generator.  Nothing is assumed of a generator but that it gives
the items of a list in some order, and that what it gives depends on the list and on its state; so
everything that is said of a generator here and later holds of any of them.

* `Generator`               a way to shuffle lists, and the state it is in;
* `Generator.shuffle`       a list in another order, and the generator after that;
* `Seeding`                 where generators come from;
* `Seeding.generator`       the generator for a seed, or the one that is drawn without a seed;
* `Generator.congruence`    a generator to run things with, whose state is a number.
-/

namespace Stencil

/-- a generator of random orders: `order` gives the items of a list in some order, and the next
state -/
structure Generator where
  State : Type
  order : List Value → State → List Value × State
  order_perm : ∀ items s, (order items s).1.Perm items
  state : State

namespace Generator

def shuffle (g : Generator) (items : List Value) : List Value × Generator :=
  let r := g.order items g.state
  (r.1, { g with state := r.2 })

theorem shuffle_perm (g : Generator) (items : List Value) : (g.shuffle items).1.Perm items :=
  g.order_perm items g.state

end Generator

/-- where generators come from: every seed has its own, and one is drawn if there is no seed -/
structure Seeding where
  ofSeed : Nat → Generator
  drawn : Generator

def Seeding.generator (s : Seeding) : Option Nat → Generator
  | some seed => s.ofSeed seed
  | none => s.drawn

/-! ## a generator to run things with -/

namespace Congruence

def next (s : Nat) : Nat :=
  (s * 6364136223846793005 + 1442695040888963407) % 18446744073709551616

/-- each item is put at some place among the shuffled later ones, as the upper half of the next
state says -/
def order : List Value → Nat → List Value × Nat
  | [], s => ([], s)
  | x :: xs, s =>
    let r := order xs s
    let k := (next r.2 / 4294967296) % (r.1.length + 1)
    (r.1.take k ++ x :: r.1.drop k, next r.2)

theorem order_perm (items : List Value) (s : Nat) : (order items s).1.Perm items := by
  induction items with
  | nil => exact List.Perm.refl _
  | cons x xs ih =>
    simp only [order]
    refine List.Perm.trans List.perm_middle (List.Perm.cons x ?_)
    rw [List.take_append_drop]
    exact ih

end Congruence

def Generator.congruence (seed : Nat) : Generator :=
  ⟨Nat, Congruence.order, Congruence.order_perm, seed⟩

/-- the seeding of these generators; which one is drawn is of no importance -/
def Seeding.congruence : Seeding := ⟨.congruence, .congruence 0⟩

end Stencil
