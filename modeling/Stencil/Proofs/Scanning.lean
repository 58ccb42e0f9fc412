import Stencil.Reference.Segment

/-!
# What scanning reads first

The first segment of a line, by the way the line starts: with a `#` whose reference ends or does not
end, or with a literal text written out with its escapes.

* `Segment.scan_of_walk`, `Segment.scan_of_unended`   a `#` with an end and without one;
* `Segment.scan_escape_append`   a text with its escapes, whatever stands behind it;
* `Segment.writeAll`             several segments as text.
-/

namespace Stencil

theorem escape_append (s t : Text) : escape (s ++ t) = escape s ++ escape t := by
  induction s with
  | nil => rfl
  | cons c s ih =>
    rw [List.cons_append, escape, escape, ih]
    split <;> rfl

namespace Segment

theorem scan_nil : scan [] = [] := by rw [scan]

theorem scan_of_unended {t : Text} (h : walk t = none) : scan ('#' :: t) = [.unclosed t] := by
  rw [scan.eq_def]
  simp only [if_true]
  split
  · rfl
  · rename_i hw
    rw [h] at hw
    cases hw

theorem scan_of_walk {t r : Text} {us : List Text} (h : walk t = some (us, r)) :
    scan ('#' :: t) = ofUnits us :: scan r := by
  rw [scan.eq_def]
  simp only [if_true]
  split
  · rename_i hw
    rw [h] at hw
    cases hw
  · rename_i us' r' hw
    rw [h] at hw
    obtain ⟨rfl, rfl⟩ := Prod.mk.inj (Option.some.inj hw)
    rfl

theorem scan_escape_cons (d : Char) (h : needsEscape d = true) (t : Text) :
    scan ('\\' :: d :: t) = consLiteral d (scan t) := by
  have hne : ('\\' : Char) ≠ '#' := by decide
  rw [scan, if_neg hne]
  exact if_pos ⟨rfl, h⟩

theorem scan_cons {c : Char} (h : needsEscape c = false) (t : Text) :
    scan (c :: t) = consLiteral c (scan t) := by
  have hhash : c ≠ '#' := by
    rintro rfl
    cases h
  have hback : c ≠ '\\' := by
    rintro rfl
    cases h
  cases t with
  | nil =>
    rw [scan_nil, scan, if_neg hhash]
    rfl
  | cons d r =>
    rw [scan, if_neg hhash]
    exact if_neg fun hc => hback hc.1

/-- a text written with its escapes is read as it was, whatever stands behind it -/
theorem scan_escape_append (t rest : Text) :
    scan (escape t ++ rest) = t.foldr consLiteral (scan rest) := by
  induction t with
  | nil => rfl
  | cons c t ih =>
    rw [escape, List.foldr_cons, ← ih]
    split
    · rename_i h
      exact scan_escape_cons c h _
    · rename_i h
      exact scan_cons (Bool.not_eq_true _ ▸ h) _

theorem scan_append_of_noEscape {t : Text} (h : ∀ c ∈ t, needsEscape c = false) (rest : Text) :
    scan (t ++ rest) = t.foldr consLiteral (scan rest) := by
  induction t with
  | nil => rfl
  | cons c t ih =>
    obtain ⟨hc, ht⟩ := List.forall_mem_cons.mp h
    rw [List.cons_append, scan_cons hc, ih ht, List.foldr_cons]

def writeAll (ss : List Segment) : Text := ss.flatMap write

theorem writeAll_cons (s : Segment) (ss : List Segment) :
    writeAll (s :: ss) = s.write ++ writeAll ss := List.flatMap_cons

theorem writeAll_consLiteral (c : Char) (ss : List Segment) :
    writeAll (consLiteral c ss) = escape [c] ++ writeAll ss := by
  unfold consLiteral
  split
  · rename_i t ss
    rw [writeAll_cons, writeAll_cons, ← List.append_assoc]
    show escape ([c] ++ t) ++ _ = _
    rw [escape_append]
    rfl
  · rw [writeAll_cons]
    rfl

end Segment

end Stencil
