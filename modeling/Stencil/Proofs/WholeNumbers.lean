import Stencil.Proofs.Paths
import Stencil.Value.Comparison

/-!
# Whole numbers

The decimal digits of a whole number that is small enough to be exact are read as this number, and
they are what it is displayed as.  Whole numbers are compared as such, and the nearest number to
a rational that is not negative is not negative either.

* `Number.isName_of_read?`       what is read as a number stands for itself everywhere;
* `Number.read?_intDigits`, `Number.display_ofInt`   whole numbers in digits, and back;
* `Number.compare?_ofInt`        their order;
* `Number.IsNonneg`              infinity, and the finite numbers that are not negative.
-/

namespace Stencil

namespace Number

/-! ## digits -/

theorem isName_of_read? {t : Text} {n : Number} (h : read? t = some n) : t.IsName := by
  have hne : t ≠ [] := by
    rintro rfl
    cases h
  refine ⟨hne, fun c hc => ?_⟩
  have hchar := isNumeralChar_of_read? h c hc
  rw [Text.isNumeralChar, Bool.or_eq_true] at hchar
  rcases hchar with hchar | hchar
  · exact Text.isNameChar_of_isAlphanum hchar
  · have hsigns : ∀ d ∈ ['+', '-', '.'], Text.isNameChar d = true := List.all_eq_true.mp rfl
    exact hsigns c (of_decide_eq_true hchar)

theorem neg_ofInt {n : Int} (h : n ≠ 0) : (ofInt n).neg = ofInt (-n) := by
  have hzero : (n : Rat) ≠ 0 := by exact_mod_cast h
  rw [ofInt, ofInt, neg, if_neg hzero, Rat.intCast_neg]

theorem ofDecimal_natCast {i : Nat} (h : i ≤ exactBound) : ofDecimal i 0 = ofInt i := by
  rcases ofDecimal_zero i with ⟨-, heq⟩ | ⟨hlarge, -⟩
  · exact heq
  · exact absurd h (Nat.not_le_of_lt hlarge)

theorem read?_intDigits {n : Int} (h : n.natAbs ≤ exactBound) :
    read? (intDigits n) = some (ofInt n) := by
  rw [intDigits]
  split
  · rename_i hneg
    have habs : n = -(n.natAbs : Int) := by omega
    have hread : (readUnsigned? (natDigits n.natAbs)).map neg = some (ofInt n) := by
      rw [readUnsigned?_natDigits, ofDecimal_natCast h, Option.map_some, neg_ofInt (by omega),
        ← habs]
    exact hread
  · rename_i hneg
    have habs : n = (n.natAbs : Int) := by omega
    rw [read?_natDigits, ofDecimal_natCast h, ← habs]

theorem displayPositive_natCast {i : Nat} (h : i ≤ exactBound) :
    displayPositive (i : Rat) = natDigits i := by
  rcases Nat.lt_or_eq_of_le h with hlt | rfl
  · have hshort : (i : Rat).den = 1 ∧ (i : Rat).num.natAbs < exactBound := ⟨rfl, hlt⟩
    rw [displayPositive, if_pos hshort]
    rfl
  · -- the largest exact number is displayed like those that are not exact
    have hlong : ¬((exactBound : Rat).den = 1 ∧ (exactBound : Rat).num.natAbs < exactBound) := by
      decide +kernel
    have hshortest : Decimal.shortest .up exactBound = ⟨exactBound, 0⟩ := by decide +kernel
    rw [displayPositive, if_neg hlong, hshortest]
    exact List.append_nil _

/-- a whole number is displayed in digits, up to the largest exact one -/
theorem display_ofInt {n : Int} (h : n.natAbs ≤ exactBound) : (ofInt n).display = intDigits n := by
  rw [intDigits, ofInt, display]
  by_cases hneg : n < 0
  · have hcast : (n : Rat) < 0 := by exact_mod_cast hneg
    have habs : -(n : Rat) = ((n.natAbs : Int) : Rat) := by
      rw [← Rat.intCast_neg]
      exact congrArg _ (by omega)
    rw [if_pos hneg, if_pos hcast, habs, Rat.intCast_natCast, displayPositive_natCast h]
  · have hcast : ¬(n : Rat) < 0 := by exact_mod_cast hneg
    have habs : (n : Rat) = ((n.natAbs : Int) : Rat) := congrArg _ (by omega)
    rw [if_neg hneg, if_neg hcast, habs, Rat.intCast_natCast, displayPositive_natCast h]

/-! ## order -/

theorem compare?_ofInt (m n : Int) : (ofInt m).compare? (ofInt n) = some (compare m n) := by
  have hlt (a b : Int) : (ofInt a).finitePart < (ofInt b).finitePart ↔ a < b :=
    Rat.intCast_lt_intCast
  have hcompare : (ofInt m).compare? (ofInt n) =
      if (ofInt m).finitePart < (ofInt n).finitePart then some .lt
      else if (ofInt n).finitePart < (ofInt m).finitePart then some .gt else some .eq := rfl
  simp only [hcompare, hlt]
  rcases lt_trichotomy m n with h | rfl | h
  · rw [if_pos h, compare_lt_iff_lt.mpr h]
  · rw [if_neg (lt_irrefl m), if_neg (lt_irrefl m), compare_eq_iff_eq.mpr rfl]
  · rw [if_neg h.not_gt, if_pos h, compare_gt_iff_gt.mpr h]

/-- infinity, or a finite number that is not negative -/
def IsNonneg (n : Number) : Prop := n = .infinity false ∨ ∃ q : Rat, 0 ≤ q ∧ n = .rational q

theorem isNonneg_nearest {q : Rat} (h : 0 ≤ q) : (nearest q).IsNonneg := by
  have hpow (e : Int) : 0 ≤ powInt 2 e := by
    rw [powInt]
    split
    · exact Nat.cast_nonneg _
    · positivity
  rw [nearest]
  split
  · exact .inr ⟨q, h, rfl⟩
  have hneg : ¬q < 0 := not_lt.mpr h
  simp only [if_neg hneg]
  have hround : 0 ≤ roundHalfEven (q * powInt 2 (-unitExponent q)) :=
    le_roundHalfEven (by simpa using mul_nonneg h (hpow _))
  split
  · exact .inr ⟨0, le_rfl, rfl⟩
  have hvalue : (0 : Rat) ≤ roundHalfEven (q * powInt 2 (-unitExponent q)) *
      powInt 2 (unitExponent q) := mul_nonneg (by exact_mod_cast hround) (hpow _)
  split
  · exact .inl rfl
  split
  · rename_i hover hbelow
    have hbound : (0 : Rat) < overflowBound := by decide +kernel
    linarith
  · exact .inr ⟨_, hvalue, rfl⟩

theorem compare?_of_isNonneg {n : Number} (h : n.IsNonneg) {b : Int} (hb : b < 0) :
    n.compare? (ofInt b) = some .gt := by
  have hcast : (b : Rat) < 0 := by exact_mod_cast hb
  rcases h with rfl | ⟨q, hq, rfl⟩
  · rfl
  · have hcompare : (rational q).compare? (ofInt b) =
        if q < b then some .lt else if b < q then some .gt else some .eq := rfl
    rw [hcompare, if_neg (by linarith), if_pos (by linarith)]

end Number

end Stencil
