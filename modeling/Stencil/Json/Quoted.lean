import Stencil.Json.Number

/-!
# Quoted texts in JSON

* `Json.readHex`      four digits in base sixteen;
* `Json.readEscape`   the character that an escape spells, after its backslash;
* `Json.readQuoted`   the text up to the closing quotation mark.
-/

namespace Stencil.Json

def hexValue? (c : Char) : Option Nat :=
  if '0' ≤ c ∧ c ≤ '9' then some (c.toNat - 48)
  else if 'a' ≤ c ∧ c ≤ 'f' then some (c.toNat - 87)
  else if 'A' ≤ c ∧ c ≤ 'F' then some (c.toNat - 55)
  else none

def hexFour? (a b c d : Char) : Option Nat := do
  let w ← hexValue? a
  let x ← hexValue? b
  let y ← hexValue? c
  let z ← hexValue? d
  return ((w * 16 + x) * 16 + y) * 16 + z

def hexStop (t : Text) : Stop :=
  if t.utf8Size < 4 then ⟨.endInString, [], 0⟩ else ⟨.invalidEscape, t, 4⟩

def readHex (t : Text) : Read Nat :=
  match t with
  | a :: b :: c :: d :: r =>
    match hexFour? a b c d with
    | some n => .ok (n, r)
    | none => .error (hexStop t)
  | _ => .error (hexStop t)

/-- the second half of a character that takes two escapes, `high` being the first half -/
def readLowHalf (high : Nat) : Text → Read Char
  | [] => .error ⟨.endInString, [], 0⟩
  | '\\' :: r =>
    match r with
    | [] => .error ⟨.endInString, [], 0⟩
    | 'u' :: r' =>
      match readHex r' with
      | .error s => .error s
      | .ok (low, t) =>
        if low < 0xdc00 ∨ 0xdfff < low then .error ⟨.loneSurrogate, t, 0⟩
        else .ok (Char.ofNat (0x10000 + (high - 0xd800) * 0x400 + (low - 0xdc00)), t)
    | _ :: _ => .error ⟨.endOfEscapePair, r, 1⟩
  | t => .error ⟨.endOfEscapePair, t, 1⟩

/-- the character that an escape with digits spells -/
def readCodePoint (t : Text) : Read Char :=
  match readHex t with
  | .error s => .error s
  | .ok (n, r) =>
    if 0xdc00 ≤ n ∧ n ≤ 0xdfff then .error ⟨.loneSurrogate, r, 0⟩
    else if 0xd800 ≤ n ∧ n ≤ 0xdbff then readLowHalf n r
    else .ok (Char.ofNat n, r)

def readEscape : Text → Read Char
  | [] => .error ⟨.endInString, [], 0⟩
  | c :: r =>
    if c = '\"' ∨ c = '\\' ∨ c = '/' then .ok (c, r)
    else if c = 'b' then .ok ('\x08', r)
    else if c = 'f' then .ok ('\x0c', r)
    else if c = 'n' then .ok ('\n', r)
    else if c = 'r' then .ok ('\r', r)
    else if c = 't' then .ok ('\t', r)
    else if c = 'u' then readCodePoint r
    else .error ⟨.invalidEscape, c :: r, 1⟩

/-! ## what is left is shorter -/

theorem length_readHex {t r : Text} {n : Nat} (h : readHex t = .ok (n, r)) :
    r.length < t.length := by
  unfold readHex at h
  split at h
  · split at h
    · simp only [Except.ok.injEq, Prod.mk.injEq] at h
      rw [← h.2]
      simp only [List.length_cons]
      omega
    · simp at h
  · simp at h

theorem length_readLowHalf {high : Nat} {t r : Text} {c : Char}
    (h : readLowHalf high t = .ok (c, r)) : r.length < t.length := by
  unfold readLowHalf at h
  split at h
  · simp at h
  · split at h
    · simp at h
    · split at h
      · simp at h
      · rename_i hx
        split at h
        · simp at h
        · simp only [Except.ok.injEq, Prod.mk.injEq] at h
          have hl := length_readHex hx
          rw [← h.2]
          simp only [List.length_cons]
          omega
    · simp at h
  · simp at h

theorem length_readCodePoint {t r : Text} {c : Char} (h : readCodePoint t = .ok (c, r)) :
    r.length < t.length := by
  unfold readCodePoint at h
  split at h
  · simp at h
  · rename_i hx
    have hl := length_readHex hx
    split at h
    · simp at h
    · split at h
      · exact Nat.lt_trans (length_readLowHalf h) hl
      · simp only [Except.ok.injEq, Prod.mk.injEq] at h
        rw [← h.2]
        exact hl

theorem length_readEscape {t r : Text} {c : Char} (h : readEscape t = .ok (c, r)) :
    r.length < t.length := by
  cases t with
  | nil => simp [readEscape] at h
  | cons d t =>
    simp only [readEscape] at h
    repeat' split at h
    all_goals first
      | (simp only [Except.ok.injEq, Prod.mk.injEq] at h; rw [← h.2]; simp)
      | (have hl := length_readCodePoint h; simp only [List.length_cons]; omega)
      | simp at h

/-! ## the whole text -/

/-- the text up to the closing quotation mark, the opening one being read already -/
def readQuoted (t : Text) : Read Text :=
  match t with
  | [] => .error ⟨.endInString, [], 0⟩
  | '\"' :: r => .ok ([], r)
  | '\\' :: r =>
    match _ : readEscape r with
    | .error s => .error s
    | .ok (c, r') => (readQuoted r').map fun (s, u) => (c :: s, u)
  | c :: r =>
    if c.toNat < 0x20 then .error ⟨.controlCharacter, c :: r, 1⟩
    else (readQuoted r).map fun (s, u) => (c :: s, u)
termination_by t.length
decreasing_by
  · rename_i h
    have hl := length_readEscape h
    simp only [List.length_cons]
    omega
  · simp only [List.length_cons]
    omega

theorem length_readQuoted {t r s : Text} (h : readQuoted t = .ok (s, r)) :
    r.length < t.length := by
  fun_induction readQuoted t generalizing s with
  | case1 => simp at h
  | case2 u =>
    simp only [Except.ok.injEq, Prod.mk.injEq] at h
    rw [← h.2]
    simp
  | case3 => simp at h
  | case4 u c u' he ih =>
    cases hq : readQuoted u' with
    | error e => simp [hq, Except.map] at h
    | ok x =>
      simp only [hq, Except.map, Except.ok.injEq, Prod.mk.injEq] at h
      have hi := ih (s := x.1) (by rw [hq, ← h.2])
      have hl := length_readEscape he
      simp only [List.length_cons]
      omega
  | case5 => simp at h
  | case6 c u _ _ _ ih =>
    cases hq : readQuoted u with
    | error e => simp [hq, Except.map] at h
    | ok x =>
      simp only [hq, Except.map, Except.ok.injEq, Prod.mk.injEq] at h
      have hi := ih (s := x.1) (by rw [hq, ← h.2])
      simp only [List.length_cons]
      omega

end Stencil.Json
