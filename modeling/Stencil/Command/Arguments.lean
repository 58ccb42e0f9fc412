import Stencil.Reference.Unit

/-!
# Arguments of a command

The head of a command is split at blanks, but a reference and a group in matching parentheses are
never split.

* `argumentUnits`    the units of a head: references, groups, escapes and single characters;
* `splitArguments`   the arguments of a head.
-/

namespace Stencil

/-- the units of a head; a `#` that starts no reference is a single character -/
def argumentUnits (t : Text) : List Text :=
  match t with
  | [] => []
  | c :: t =>
    if c = '#' then
      match _ : walk t with
      | some (us, r) => (c :: us.flatten ++ ['#']) :: argumentUnits r
      | none => [c] :: argumentUnits t
    else (nextUnit c t).1 :: argumentUnits (nextUnit c t).2
termination_by t.length
decreasing_by
  · rename_i h
    have hl := length_of_walk h
    simp only [List.length_cons]
    omega
  · simp only [List.length_cons]
    omega
  · exact Nat.lt_succ_of_le (length_nextUnit c t)

def splitArguments (head : Text) : List Text := words (argumentUnits head)

theorem flatten_argumentUnits (t : Text) : (argumentUnits t).flatten = t := by
  fun_induction argumentUnits t with
  | case1 => rfl
  | case2 t us r h ih =>
    rw [List.flatten_cons, ih, ← append_of_walk h]
    simp
  | case3 t h ih => rw [List.flatten_cons, ih]; rfl
  | case4 c t h ih => rw [List.flatten_cons, ih, nextUnit_append]

end Stencil
