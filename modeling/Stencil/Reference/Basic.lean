import Stencil.Reference.Unit

/-!
# References

A reference is written `#name specifier …#`.

* `Reference`           a name and the specifiers after it;
* `Reference.ofUnits?`  the reference that the units between the two `#` spell;
* `Reference.read?`     the reference that a whole text is, if it is one;
* `Reference.write`     a reference as text.
-/

namespace Stencil

/-- a name and the specifiers after it -/
structure Reference where
  name : Text
  specifiers : List Text
deriving DecidableEq, Repr

namespace Reference

/-- the reference that the units between the two `#` spell; none if there is no word -/
def ofUnits? (us : List Text) : Option Reference :=
  match (words us).map unescape with
  | [] => none
  | name :: specifiers => some ⟨name, specifiers⟩

/-- the reference that a text is, white space around it left aside -/
def read? (t : Text) : Option Reference :=
  match t.trim with
  | [] => none
  | c :: r =>
    if c = '#' then
      match walk r with
      | some (us, []) => ofUnits? us
      | _ => none
    else none

def write (r : Reference) : Text :=
  '#' :: Text.joinWords ((r.name :: r.specifiers).map escape) ++ ['#']

def size (r : Reference) : Nat := spacedLength r.specifiers

theorem spacedLength_map_unescape (ts : List Text) :
    spacedLength (ts.map unescape) ≤ spacedLength ts := by
  induction ts with
  | nil => simp
  | cons t ts ih =>
    have h := length_unescape_le t
    simp only [List.map_cons, spacedLength_cons]
    omega

theorem size_of_ofUnits? {us : List Text} {r : Reference} (h : ofUnits? us = some r) :
    r.size ≤ us.flatten.length := by
  unfold ofUnits? at h
  split at h
  · simp at h
  · rename_i name specifiers hw
    simp only [Option.some.injEq] at h
    have hu := spacedLength_map_unescape (words us)
    rw [hw, spacedLength_cons] at hu
    have ht := spacedLength_words us
    subst h
    show spacedLength specifiers ≤ us.flatten.length
    omega

theorem size_of_read? {t : Text} {r : Reference} (h : read? t = some r) :
    r.size + 2 ≤ t.length := by
  have ht := Text.length_trim_le t
  unfold read? at h
  split at h
  · simp at h
  · rename_i c s hs
    split at h
    · split at h
      · rename_i us hw
        have hl := length_of_walk hw
        have ho := size_of_ofUnits? h
        rw [hs, List.length_cons] at ht
        omega
      · simp at h
    · simp at h

end Reference

end Stencil
