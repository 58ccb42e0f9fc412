import Stencil.Value.Basic

/-!
# Comparing values

* `Comparison`            the five comparisons of a loop condition;
* `Comparison.ofText?`    the comparison that a text spells;
* `Comparison.admits`     whether an ordering satisfies a comparison;
* `Comparison.holds`      whether two values satisfy a comparison.
-/

namespace Stencil

/-- the comparisons of a loop condition -/
inductive Comparison
  | eq
  | lt
  | le
  | gt
  | ge
deriving DecidableEq, Repr

namespace Comparison

def all : List Comparison := [eq, lt, le, gt, ge]

def symbol : Comparison → Text
  | eq => "==".toList
  | lt => "<".toList
  | le => "<=".toList
  | gt => ">".toList
  | ge => ">=".toList

def ofText? (t : Text) : Option Comparison := all.find? (·.symbol = t)

def admits : Comparison → Ordering → Bool
  | eq, o => o == .eq
  | lt, o => o == .lt
  | le, o => o != .gt
  | gt, o => o == .gt
  | ge, o => o != .lt

/-- whether two values satisfy a comparison: as numbers if both can be used as numbers, else as
texts if both are texts; values of other kinds can only be equal, and null satisfies nothing -/
def holds (c : Comparison) (l r : Value) : Bool :=
  if l.isNull || r.isNull then false
  else
    match l.toNumber?, r.toNumber? with
    | some a, some b =>
      match a.compare? b with
      | some o => c.admits o
      | none => false
    | _, _ =>
      match l, r with
      | .string s, .string t => c.admits (Text.compare s t)
      | _, _ => c == eq && l.eq r

end Comparison

end Stencil
