import Stencil.Text.Basic

/-!
# Escapes

A backslash makes a `#` or a backslash after it an ordinary character; before any other character
it is itself an ordinary character.

* `escape`     a text with a backslash before each `#` and each backslash;
* `unescape`   a text with the escapes resolved;
* `unescape_escape`   escaping is undone by resolving.
-/

namespace Stencil

def needsEscape (c : Char) : Bool := c == '#' || c == '\\'

def escape : Text → Text
  | [] => []
  | c :: t => if needsEscape c then '\\' :: c :: escape t else c :: escape t

/-- a text with the escapes resolved; other backslashes stay as they are -/
def unescape : Text → Text
  | [] => []
  | [c] => [c]
  | c :: d :: t =>
    if c = '\\' ∧ needsEscape d then d :: unescape t else c :: unescape (d :: t)

theorem unescape_cons_of_ne {c : Char} (t : Text) (h : c ≠ '\\') :
    unescape (c :: t) = c :: unescape t := by
  cases t with
  | nil => rfl
  | cons d t => simp [unescape, h]

theorem unescape_pair {d : Char} (t : Text) (h : needsEscape d) :
    unescape ('\\' :: d :: t) = d :: unescape t := by
  simp [unescape, h]

theorem unescape_escape (t : Text) : unescape (escape t) = t := by
  induction t with
  | nil => rfl
  | cons c t ih =>
    simp only [escape]
    split
    · rename_i h
      rw [unescape_pair _ h, ih]
    · rename_i h
      have hc : c ≠ '\\' := by
        rintro rfl
        exact h rfl
      rw [unescape_cons_of_ne _ hc, ih]

theorem length_unescape_le (t : Text) : (unescape t).length ≤ t.length := by
  fun_induction unescape t with
  | case1 => exact Nat.le_refl _
  | case2 c => exact Nat.le_refl _
  | case3 c d t _ ih =>
    simp only [List.length_cons]
    omega
  | case4 c d t _ ih =>
    simp only [List.length_cons] at ih ⊢
    omega

end Stencil
