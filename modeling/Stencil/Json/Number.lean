import Stencil.Json.Fault
import Stencil.Number.Decimal

/-!
# Numbers in JSON text

The digits are collected into a 64-bit significand, digits that do not fit only count as powers of
ten, and the significand is then scaled by a power of ten, with one rounding for each step.

* `Json.absorb`          collect digits as long as they fit below a bound;
* `Json.scaleByPower?`   a number times a power of ten; none if it is out of range;
* `Json.readNumber`      the number at the start of a text, and the text after it.
-/

namespace Stencil.Json

/-- what a reader gives: its result and the text after it, or why it stopped -/
abbrev Read (α : Type) := Except Stop (α × Text)

def significandBound : Nat := 18446744073709551615

/-- the largest exponent that is written out -/
def exponentBound : Nat := 2147483647

/-- digits that were collected: the number they spell, how many there are, and the text after
them -/
structure Absorbed where
  value : Nat
  count : Nat
  rest : Text
deriving DecidableEq, Repr

/-- collect digits behind `n` as long as the number they spell is at most `bound` -/
def absorb (bound n : Nat) : Text → Absorbed
  | [] => ⟨n, 0, []⟩
  | c :: t =>
    if c.isDigit ∧ 10 * n + digitValue c ≤ bound then
      let a := absorb bound (10 * n + digitValue c) t
      ⟨a.value, a.count + 1, a.rest⟩
    else ⟨n, 0, c :: t⟩

theorem length_absorb (bound n : Nat) (t : Text) :
    (absorb bound n t).count + (absorb bound n t).rest.length = t.length := by
  induction t generalizing n with
  | nil => rfl
  | cons c t ih =>
    simp only [absorb]
    split
    · have h := ih (10 * n + digitValue c)
      simp only [List.length_cons]
      omega
    · simp

def startsDigit : Text → Bool
  | [] => false
  | c :: _ => c.isDigit

/-! ## scaling -/

/-- the number nearest to a power of ten, as a rational -/
def powerOfTen (k : Nat) : Rat := (Number.nearest (powInt 10 k)).finitePart

/-- the largest power of ten that is a number -/
def powerBound : Nat := 308

/-- a number times a power of ten, rounded; far below the range in several steps; none if the
result is out of range -/
def scaleByPower? (n : Number) (e : Int) : Option Number :=
  if e.natAbs ≤ powerBound then
    if 0 ≤ e then
      let m := n.scale (powerOfTen e.natAbs)
      if m.isFinite then some m else none
    else some (n.scale (1 / powerOfTen e.natAbs))
  else if n.isZero then some n
  else if 0 ≤ e then none
  else scaleByPower? (n.scale (1 / powerOfTen powerBound)) (e + powerBound)
termination_by e.natAbs
decreasing_by
  unfold powerBound at *
  omega

/-! ## reading -/

def finishNumber (significand : Nat) (e : Int) (t : Text) : Read Number :=
  match scaleByPower? (Number.nearest significand) e with
  | some n => .ok (n, t)
  | none => .error ⟨.numberOutOfRange, t, 0⟩

/-- the digits of an exponent, after its sign -/
def readPower (significand : Nat) (e : Int) (down : Bool) (t : Text) : Read Number :=
  if t = [] then .error ⟨.endInValue, [], 0⟩
  else if !startsDigit t then .error ⟨.invalidNumber, t, 1⟩
  else
    let a := absorb exponentBound 0 t
    if startsDigit a.rest then
      if significand ≠ 0 ∧ !down then .error ⟨.numberOutOfRange, a.rest, 1⟩
      else .ok (.zero, a.rest.dropWhile Char.isDigit)
    else finishNumber significand (if down then e - a.value else e + a.value) a.rest

def readExponent (significand : Nat) (e : Int) : Text → Read Number
  | [] => finishNumber significand e []
  | c :: r =>
    if c = 'e' ∨ c = 'E' then
      match r with
      | '-' :: r' => readPower significand e true r'
      | '+' :: r' => readPower significand e false r'
      | r' => readPower significand e false r'
    else finishNumber significand e (c :: r)

/-- the digits after the point, if there is one, and the exponent -/
def readFraction (significand : Nat) (e : Int) : Text → Read Number
  | '.' :: r =>
    let a := absorb significandBound significand r
    if a.count = 0 ∧ !startsDigit a.rest then
      if a.rest = [] then .error ⟨.endInValue, [], 0⟩ else .error ⟨.invalidNumber, a.rest, 1⟩
    else readExponent a.value (e - a.count) (a.rest.dropWhile Char.isDigit)
  | r => readExponent significand e r

/-- a number without a sign; its digits do not start with a needless zero -/
def readUnsigned : Text → Read Number
  | [] => .error ⟨.endInValue, [], 0⟩
  | c :: r =>
    if c = '0' then
      if startsDigit r then .error ⟨.invalidNumber, r, 1⟩ else readFraction 0 0 r
    else if c.isDigit then
      let a := absorb significandBound (digitValue c) r
      readFraction a.value (a.rest.takeWhile Char.isDigit).length
        (a.rest.dropWhile Char.isDigit)
    else .error ⟨.invalidNumber, c :: r, 1⟩

def readNumber : Text → Read Number
  | '-' :: r => (readUnsigned r).map fun (n, t) => (n.neg, t)
  | r => readUnsigned r

/-! ## what is left is shorter -/

theorem rest_of_finishNumber {m : Nat} {e : Int} {t r : Text} {n : Number}
    (h : finishNumber m e t = .ok (n, r)) : r = t := by
  unfold finishNumber at h
  split at h
  · simp only [Except.ok.injEq, Prod.mk.injEq] at h
    exact h.2.symm
  · simp at h

theorem length_readPower {m : Nat} {e : Int} {down : Bool} {t r : Text} {n : Number}
    (h : readPower m e down t = .ok (n, r)) : r.length ≤ t.length := by
  have ha := length_absorb exponentBound 0 t
  simp only [readPower] at h
  split at h
  · simp at h
  split at h
  · simp at h
  split at h
  · split at h
    · simp at h
    · simp only [Except.ok.injEq, Prod.mk.injEq] at h
      have hd := (List.dropWhile_sublist (l := (absorb exponentBound 0 t).rest)
        Char.isDigit).length_le
      rw [← h.2]
      omega
  · rw [rest_of_finishNumber h]
    omega

theorem length_readExponent {m : Nat} {e : Int} {t r : Text} {n : Number}
    (h : readExponent m e t = .ok (n, r)) : r.length ≤ t.length := by
  cases t with
  | nil => exact Nat.le_of_eq (congrArg List.length (rest_of_finishNumber h))
  | cons c t =>
    simp only [readExponent] at h
    split at h
    · split at h <;> have hp := length_readPower h <;> simp only [List.length_cons] at hp ⊢ <;>
        omega
    · exact Nat.le_of_eq (congrArg List.length (rest_of_finishNumber h))

theorem length_readFraction {m : Nat} {e : Int} {t r : Text} {n : Number}
    (h : readFraction m e t = .ok (n, r)) : r.length ≤ t.length := by
  unfold readFraction at h
  split at h
  · rename_i s
    have ha := length_absorb significandBound m s
    simp only at h
    split at h
    · split at h <;> simp at h
    · have hd := (List.dropWhile_sublist (l := (absorb significandBound m s).rest)
        Char.isDigit).length_le
      have he := length_readExponent h
      simp only [List.length_cons]
      omega
  · exact length_readExponent h

theorem length_readUnsigned {t r : Text} {n : Number} (h : readUnsigned t = .ok (n, r)) :
    r.length < t.length := by
  cases t with
  | nil => simp [readUnsigned] at h
  | cons c t =>
    simp only [readUnsigned] at h
    split at h
    · split at h
      · simp at h
      · have hf := length_readFraction h
        simp only [List.length_cons]
        omega
    · split at h
      · have ha := length_absorb significandBound (digitValue c) t
        have hd := (List.dropWhile_sublist (l := (absorb significandBound (digitValue c) t).rest)
          Char.isDigit).length_le
        have hf := length_readFraction h
        simp only [List.length_cons]
        omega
      · simp at h

theorem length_readNumber {t r : Text} {n : Number} (h : readNumber t = .ok (n, r)) :
    r.length < t.length := by
  unfold readNumber at h
  split at h
  · rename_i s
    cases hs : readUnsigned s with
    | error e => simp [hs, Except.map] at h
    | ok x =>
      simp only [hs, Except.map, Except.ok.injEq, Prod.mk.injEq] at h
      have hu := length_readUnsigned (n := x.1) (r := x.2) hs
      rw [← h.2]
      simp only [List.length_cons]
      omega
  · exact length_readUnsigned h

end Stencil.Json
