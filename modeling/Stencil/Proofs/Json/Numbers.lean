import Stencil.Json.Number
import Stencil.Json.Writer

/-!
# Whole numbers read back

A whole number that is written without a point is read as it was, if what stands behind it is not
read as a part of it: its digits fit into the significand, which needs no scaling then and no
rounding.

* `Json.NumberEnds`            a text that does not go on with a number;
* `Json.absorb_digits`         digits that fit below a bound are collected, all of them;
* `head_natDigits`             the digits of a number do not start with a needless zero;
* `Json.readFraction_ended`    a number without a point and an exponent is its significand;
* `Json.readNumber_intDigits`  a whole number, with such a text behind it;
* `Number.isShortWhole`        a number that is written as a whole number (`Json.number_eq`);
* `Number.unsignZero`          what it is read back as.
-/

namespace Stencil

/-! ## digits -/

theorem isDigit_of_mem_natDigits {n : Nat} {c : Char} (h : c ∈ natDigits n) : c.isDigit = true :=
  Nat.isDigit_of_mem_toDigits (by decide) (by decide) h

theorem natDigits_ne_nil (n : Nat) : natDigits n ≠ [] := Nat.toDigits_ne_nil

theorem exists_digit_natDigits (n : Nat) (t : Text) :
    ∃ c r, natDigits n ++ t = c :: r ∧ c.isDigit = true := by
  obtain ⟨c, ds, hds⟩ := List.exists_cons_of_ne_nil (natDigits_ne_nil n)
  refine ⟨c, ds ++ t, by rw [hds]; rfl, ?_⟩
  exact isDigit_of_mem_natDigits (hds ▸ List.mem_cons_self)

theorem digitsValue_natDigits (n : Nat) : digitsValue (natDigits n) = n :=
  Nat.ofDigitChars_ten_toDigits

theorem head_natDigits {n : Nat} (h : 0 < n) {c : Char} {ds : Text} (hn : natDigits n = c :: ds) :
    c ≠ '0' := by
  induction n using Nat.strongRecOn generalizing ds with
  | ind n ih =>
    by_cases hlt : n < 10
    · have hone : natDigits n = [n.digitChar] := Nat.toDigits_of_lt_base hlt
      have hdigit : ∀ d < 10, 0 < d → d.digitChar ≠ '0' := by decide
      obtain ⟨rfl, -⟩ := List.cons.inj (hone.symm.trans hn)
      exact hdigit n hlt h
    · have hsplit : natDigits n = natDigits (n / 10) ++ [(n % 10).digitChar] :=
        Nat.toDigits_of_base_le (by decide) (Nat.le_of_not_lt hlt)
      obtain ⟨d, es, hd⟩ := List.exists_cons_of_ne_nil (natDigits_ne_nil (n / 10))
      rw [hsplit, hd] at hn
      obtain ⟨rfl, -⟩ := List.cons.inj hn
      exact ih (n / 10) (by omega) (by omega) hd

namespace Json

def valueBehind (n : Nat) (ds : Text) : Nat := ds.foldl (fun n c => 10 * n + digitValue c) n

theorem le_valueBehind (n : Nat) (ds : Text) : n ≤ valueBehind n ds := by
  induction ds generalizing n with
  | nil => exact Nat.le_refl n
  | cons c ds ih =>
    have hrest := ih (10 * n + digitValue c)
    show n ≤ valueBehind (10 * n + digitValue c) ds
    omega

/-- digits are collected as long as they fit, and the first character that is none ends them -/
theorem absorb_digits {bound n : Nat} {ds rest : Text} (hd : ∀ c ∈ ds, c.isDigit = true)
    (hb : valueBehind n ds ≤ bound) (hr : startsDigit rest = false) :
    absorb bound n (ds ++ rest) = ⟨valueBehind n ds, ds.length, rest⟩ := by
  induction ds generalizing n with
  | nil =>
    cases rest with
    | nil => rfl
    | cons c rest =>
      have hc : ¬(c.isDigit ∧ 10 * n + digitValue c ≤ bound) := fun h => by
        rw [show c.isDigit = false from hr] at h
        exact absurd h.1 (by decide)
      exact if_neg hc
  | cons c ds ih =>
    have hle : 10 * n + digitValue c ≤ bound :=
      Nat.le_trans (le_valueBehind _ ds) hb
    rw [List.cons_append, absorb, if_pos ⟨hd c List.mem_cons_self, hle⟩,
      ih (fun d hm => hd d (List.mem_cons_of_mem c hm)) hb]
    rfl

/-! ## numbers -/

theorem takeWhile_of_notDigit {t : Text} (h : startsDigit t = false) :
    t.takeWhile Char.isDigit = [] ∧ t.dropWhile Char.isDigit = t := by
  cases t with
  | nil => exact ⟨rfl, rfl⟩
  | cons c t =>
    have hc : ¬c.isDigit = true := by
      rw [show c.isDigit = false from h]
      decide
    exact ⟨List.takeWhile_cons_of_neg hc, List.dropWhile_cons_of_neg hc⟩

/-- a text that is not read as a part of a whole number in front of it -/
structure NumberEnds (t : Text) : Prop where
  notDigit : startsDigit t = false
  notMark : ∀ c ∈ t.head?, c ≠ '.' ∧ c ≠ 'e' ∧ c ≠ 'E'

theorem numberEnds_nil : NumberEnds [] := ⟨rfl, fun c hc => by cases hc⟩

theorem numberEnds_cons {c : Char} (h : c.isDigit = false) (hp : c ≠ '.') (he : c ≠ 'e')
    (hE : c ≠ 'E') (t : Text) : NumberEnds (c :: t) := by
  refine ⟨h, fun d hd => ?_⟩
  obtain rfl : c = d := Option.some.inj hd
  exact ⟨hp, he, hE⟩

section
variable {m : Nat} (hm : m < wholeBound)
include hm

theorem finishNumber_zero (t : Text) : finishNumber m 0 t = .ok (Number.ofInt m, t) := by
  have hexact : (m : Int).natAbs ≤ exactBound := by
    unfold wholeBound at hm
    unfold exactBound
    omega
  have hnearest : Number.nearest (m : Rat) = Number.ofInt m := Number.nearest_intCast hexact
  have hpower : powerOfTen 0 = 1 := by decide +kernel
  have hscale : (Number.ofInt m).scale (powerOfTen 0) = Number.ofInt m := by
    rw [hpower]
    show Number.nearest ((m : Int) * 1) = _
    rw [Rat.mul_one]
    exact Number.nearest_intCast hexact
  have hpow : scaleByPower? (Number.ofInt m) 0 = some (Number.ofInt m) := by
    rw [scaleByPower?, if_pos (by decide), if_pos (by decide)]
    show (if ((Number.ofInt m).scale (powerOfTen 0)).isFinite then
      some ((Number.ofInt m).scale (powerOfTen 0)) else none) = _
    rw [hscale]
    rfl
  rw [finishNumber, hnearest, hpow]

theorem readFraction_ended {t : Text} (h : NumberEnds t) :
    readFraction m 0 t = .ok (Number.ofInt m, t) := by
  have hexponent : readExponent m 0 t = .ok (Number.ofInt m, t) := by
    cases t with
    | nil => exact finishNumber_zero hm []
    | cons c t =>
      obtain ⟨-, he, hE⟩ := h.notMark c rfl
      exact (if_neg (not_or.mpr ⟨he, hE⟩)).trans (finishNumber_zero hm (c :: t))
  rw [readFraction]
  · exact hexponent
  · rintro r rfl
    exact (h.notMark '.' rfl).1 rfl

theorem readUnsigned_natDigits {t : Text} (h : NumberEnds t) :
    readUnsigned (natDigits m ++ t) = .ok (Number.ofInt m, t) := by
  obtain ⟨c, ds, hds⟩ := List.exists_cons_of_ne_nil (natDigits_ne_nil m)
  have hdigits : ∀ d ∈ c :: ds, d.isDigit = true := fun d hd =>
    isDigit_of_mem_natDigits (hds ▸ hd)
  have hvalue : valueBehind (digitValue c) ds = m := by
    have hm := digitsValue_natDigits m
    rw [hds, digitsValue, List.foldl_cons, Nat.mul_zero, Nat.zero_add] at hm
    exact hm
  have hfits : valueBehind (digitValue c) ds ≤ significandBound := by
    unfold wholeBound at hm
    unfold significandBound
    omega
  have habsorb := absorb_digits (fun d hd => hdigits d (List.mem_cons_of_mem c hd)) hfits h.notDigit
  rw [hds, List.cons_append, readUnsigned]
  by_cases hzero : m = 0
  · subst hzero
    obtain ⟨rfl, rfl⟩ : '0' = c ∧ [] = ds := List.cons.inj (hds : ['0'] = c :: ds)
    rw [if_pos rfl]
    show (if startsDigit t then _ else readFraction 0 0 t) = _
    rw [h.notDigit]
    exact readFraction_ended hm h
  · have hpos : 0 < m := Nat.pos_of_ne_zero hzero
    rw [if_neg (head_natDigits hpos hds), if_pos (hdigits c List.mem_cons_self)]
    obtain ⟨htake, hdrop⟩ := takeWhile_of_notDigit h.notDigit
    simp only [habsorb, hvalue, htake, hdrop]
    exact readFraction_ended hm h

end

/-- **A whole number is read back as it was**, with anything behind it that ends it -/
theorem readNumber_intDigits {n : Int} (hn : n.natAbs < wholeBound) {t : Text} (h : NumberEnds t) :
    readNumber (intDigits n ++ t) = .ok (Number.ofInt n, t) := by
  have hread := readUnsigned_natDigits hn h
  unfold intDigits
  by_cases hneg : n < 0
  · have habs : -(n.natAbs : Int) = n := by omega
    have hzero : ((n.natAbs : Int) : Rat) ≠ 0 := by
      intro h0
      have hint : (n.natAbs : Int) = 0 := by exact_mod_cast h0
      omega
    have hflip : (Number.ofInt n.natAbs).neg = Number.ofInt n := by
      show (if ((n.natAbs : Int) : Rat) = 0 then Number.negZero
        else .rational (-(n.natAbs : Int))) = _
      rw [if_neg hzero, ← Rat.intCast_neg, habs]
      rfl
    rw [if_pos hneg, List.cons_append, readNumber, hread]
    show Except.ok ((Number.ofInt n.natAbs).neg, t) = _
    rw [hflip]
  · have habs : (n.natAbs : Int) = n := by omega
    rw [if_neg hneg, readNumber, hread, habs]
    intro r hr
    obtain ⟨c, s, hs, hc⟩ := exists_digit_natDigits n.natAbs t
    obtain ⟨rfl, -⟩ := List.cons.inj (hs.symm.trans hr)
    cases hc

theorem exists_start_intDigits (n : Int) (t : Text) :
    ∃ c r, intDigits n ++ t = c :: r ∧ (c = '-' ∨ c.isDigit = true) := by
  unfold intDigits
  split
  · exact ⟨'-', natDigits n.natAbs ++ t, rfl, .inl rfl⟩
  · obtain ⟨c, r, hr, hc⟩ := exists_digit_natDigits n.natAbs t
    exact ⟨c, r, hr, .inr hc⟩

end Json

/-! ## numbers that are written as whole numbers -/

namespace Number

def isShortWhole (n : Number) : Bool :=
  match n.toInt? with
  | some k => k.natAbs < Json.wholeBound
  | none => false

/-- the number with a zero that has no sign -/
def unsignZero : Number → Number
  | .negZero => .zero
  | n => n

theorem exists_of_isShortWhole {n : Number} (h : n.isShortWhole = true) :
    ∃ k : Int, k.natAbs < Json.wholeBound ∧ n.toRat? = some (k : Rat) := by
  unfold isShortWhole toInt? at h
  cases hq : n.toRat? with
  | none =>
    rw [hq] at h
    cases h
  | some q =>
    simp only [hq] at h
    by_cases hd : q.den = 1
    · rw [if_pos hd] at h
      have hnum : (q.num : Rat) = q := Rat.ext rfl hd.symm
      exact ⟨q.num, of_decide_eq_true h, congrArg some hnum.symm⟩
    · rw [if_neg hd] at h
      cases h

theorem unsignZero_eq {n : Number} {k : Int} (h : n.toRat? = some (k : Rat)) :
    n.unsignZero = ofInt k := by
  cases n with
  | nan s => cases h
  | infinity s => cases h
  | negZero =>
    have hk : (0 : Rat) = k := Option.some.inj h
    show rational 0 = rational k
    rw [hk]
  | rational q => exact congrArg rational (Option.some.inj h)

theorem toRat?_unsignZero (n : Number) : n.unsignZero.toRat? = n.toRat? := by
  cases n with
  | negZero => rfl
  | _ => rfl

end Number

theorem Json.number_eq {n : Number} {k : Int} (hk : k.natAbs < wholeBound)
    (hq : n.toRat? = some (k : Rat)) : number n = intDigits k := by
  rw [number, hq]
  exact if_pos ⟨Rat.den_intCast k, by rwa [Rat.num_intCast]⟩

end Stencil
