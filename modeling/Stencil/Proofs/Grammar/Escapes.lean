import Stencil.Proofs.Grammar.References

/-!
# Escapes in literal text

Escapes are resolved in two places: by the rule for a text while it is scanned, and all at once in
the words of a reference.  Both pair the backslashes of a run from its left, and so a text is one
literal piece exactly if each `#` in it has an odd number of backslashes in front of it.

* `Text.HashesEscaped`           the number of backslashes in front of each `#` is odd;
* `literalUpTo_iff`              by counting, and by reading unit by unit, no `#` is left over;
* `Segment.scan_eq_literal_iff`  the texts that are one literal piece;
* `Segment.scans_unescape_iff`   their piece is the text with its escapes resolved.
-/

namespace Stencil

/-! ## runs of backslashes -/

/-- each `#` has an odd number of backslashes directly in front of it -/
def Text.HashesEscaped (t : Text) : Prop :=
  ∀ (p r : Text) (n : Nat), t = p ++ (List.replicate n '\\' ++ '#' :: r) →
    p.getLast? ≠ some '\\' → n % 2 = 1

theorem getLast?_cons_ne_iff {c d : Char} {p : Text} :
    (c :: p).getLast? ≠ some d ↔ (p = [] → c ≠ d) ∧ p.getLast? ≠ some d := by
  cases p with
  | nil => simp
  | cons e p => simp

/-- with a `#` behind it a run of backslashes, even an empty one, starts with a character that can be
escaped -/
theorem exists_run_eq_cons (n : Nat) (r : Text) :
    ∃ d v, List.replicate n '\\' ++ '#' :: r = d :: v ∧ needsEscape d = true := by
  cases n with
  | zero => exact ⟨'#', r, rfl, rfl⟩
  | succ n => exact ⟨'\\', List.replicate n '\\' ++ '#' :: r, rfl, rfl⟩

theorem LiteralUpTo.odd {s t : Text} (h : LiteralUpTo s t) {p r : Text} {n : Nat}
    (hs : s = p ++ (List.replicate n '\\' ++ '#' :: r)) (hp : p.getLast? ≠ some '\\') :
    n % 2 = 1 := by
  induction h generalizing p n with
  | nil => simp at hs
  | @escape d s t hd _ ih =>
    cases p with
    | nil =>
      -- the escape takes two backslashes of the run, or its last one and the `#`
      cases n with
      | zero => cases hs
      | succ n =>
        cases n with
        | zero => rfl
        | succ n =>
          have hrest := ih (p := []) (List.cons.inj (List.cons.inj hs).2).2 hp
          omega
    | cons c p =>
      obtain ⟨hc, htail⟩ := List.cons.inj hs
      obtain ⟨halone, hlast⟩ := getLast?_cons_ne_iff.mp hp
      cases p with
      | nil => exact absurd hc.symm (halone rfl)
      | cons e p => exact ih (List.cons.inj htail).2 (getLast?_cons_ne_iff.mp hlast).2
  | @single c s t hc he _ ih =>
    cases p with
    | nil =>
      cases n with
      | zero => exact absurd (List.cons.inj hs).1 hc
      | succ n =>
        obtain ⟨hback, htail⟩ := List.cons.inj hs
        obtain ⟨d, v, hrun, hn⟩ := exists_run_eq_cons n r
        obtain rfl : s = d :: v := htail.trans hrun
        rw [he hback d rfl] at hn
        cases hn
    | cons d p => exact ih (List.cons.inj hs).2 (getLast?_cons_ne_iff.mp hp).2

namespace Text.HashesEscaped

variable {t : Text}

theorem of_escape {d : Char} (h : HashesEscaped ('\\' :: d :: t)) (hd : needsEscape d = true) :
    t.HashesEscaped := by
  rintro p r n rfl hp
  by_cases hrun : p = [] ∧ d = '\\'
  · obtain ⟨rfl, rfl⟩ := hrun
    have hlonger := h [] r (n + 2) rfl hp
    omega
  · apply h ('\\' :: d :: p) r n rfl
    rw [getLast?_cons_ne_iff, getLast?_cons_ne_iff]
    exact ⟨fun hnil => absurd hnil (List.cons_ne_nil d p), fun hnil he => hrun ⟨hnil, he⟩, hp⟩

theorem of_single {c : Char} (h : HashesEscaped (c :: t))
    (he : c = '\\' → ∀ d ∈ t.head?, needsEscape d = false) : t.HashesEscaped := by
  rintro p r n rfl hp
  apply h (c :: p) r n rfl
  rw [getLast?_cons_ne_iff]
  refine ⟨?_, hp⟩
  rintro rfl hback
  obtain ⟨d, v, hrun, hn⟩ := exists_run_eq_cons n r
  rw [List.nil_append, hrun] at he
  rw [he hback d rfl] at hn
  cases hn

theorem literalUpTo (h : t.HashesEscaped) : LiteralUpTo t [] := by
  -- an escape is passed over as a whole
  induction hn : t.length using Nat.strong_induction_on generalizing t with
  | h n ih =>
    subst hn
    cases Grammar.starts t with
    | atEnd => exact .nil
    | hash r => exact absurd (h [] r 0 rfl (by simp)) (by decide)
    | escape r hd => exact .escape hd (ih r.length (by simp) (h.of_escape hd) rfl)
    | @literal c r hc he =>
      refine .single hc ?_ (ih r.length (by simp) (h.of_single he) rfl)
      rwa [List.append_nil]

end Text.HashesEscaped

/-- read unit by unit no `#` is left over if each one has an odd number of backslashes -/
theorem literalUpTo_iff {t : Text} : LiteralUpTo t [] ↔ t.HashesEscaped := by
  constructor
  · intro h p r n ht hp
    exact h.odd ht hp
  · exact Text.HashesEscaped.literalUpTo

/-! ## literal pieces -/

namespace Segment

theorem scan_eq_literal_iff {t x : Text} :
    scan t = [.literal x] ↔ t ≠ [] ∧ LiteralUpTo t [] ∧ x = unescape t := by
  constructor
  · intro h
    have hscanned := scanned_scan t
    rw [h] at hscanned
    cases hscanned with
    | literal hs hl ht hrest =>
      cases hrest with
      | done =>
        rw [List.append_nil]
        exact ⟨hs, hl, rfl⟩
  · rintro ⟨hne, hl, rfl⟩
    have hpiece := Scanned.literal hne hl (by simp) .done
    rw [List.append_nil] at hpiece
    exact scanned_iff.mp hpiece

/-- **The two readings of escapes agree.**  By the grammar and by scanning alike, a text is one
literal piece, which is the text with its escapes resolved, exactly if no `#` is left over in it when
it is read from its left with each escape as one unit; that is to say that each `#` has an odd number
of backslashes in front of it.  And resolving the escapes takes back what escaping has done. -/
theorem scans_unescape_iff (t : Text) :
    (Scans t [.literal (unescape t)] ↔ t ≠ [] ∧ LiteralUpTo t []) ∧
      (scan t = [.literal (unescape t)] ↔ t ≠ [] ∧ LiteralUpTo t []) ∧
      (LiteralUpTo t [] ↔ t.HashesEscaped) ∧ unescape (escape t) = t := by
  have hscan : scan t = [.literal (unescape t)] ↔ t ≠ [] ∧ LiteralUpTo t [] := by
    rw [scan_eq_literal_iff]
    simp only [and_true]
  exact ⟨scans_iff.trans hscan, hscan, literalUpTo_iff, unescape_escape t⟩

end Segment

end Stencil
