import Stencil.Json.Quoted
import Stencil.Json.Writer

/-!
# Quoted texts read back

A text between quotation marks is read as it was before it was written, whatever characters are in
it: quotation marks, backslashes and control characters are written as escapes, and all others as
they are.

* `Json.hexValue?_hexDigit`     a digit in base sixteen;
* `Json.readEscape_control`     a control character as an escape with four digits;
* `Json.Escaped`                the three ways in which a character is written;
* `Json.escaped_escapeChar`     each character is written in one of them;
* `Json.readQuoted_append`      a character in front of what is quoted;
* `Json.readQuoted_quote`       a quoted text, with anything behind it.
-/

namespace Stencil.Json

/-! ## escapes -/

theorem hexValue?_hexDigit : ∀ n < 16, hexValue? (hexDigit n) = some n := by
  decide

/-- a character below `0x20` as an escape with four digits -/
theorem readEscape_control {c : Char} (h : c.toNat < 0x20) (t : Text) :
    readEscape ('u' :: '0' :: '0' :: hexDigit (c.toNat / 16) :: hexDigit (c.toNat % 16) :: t) =
      .ok (c, t) := by
  have hzero : hexValue? '0' = some 0 := by decide
  have hhigh := hexValue?_hexDigit (c.toNat / 16) (by omega)
  have hlow := hexValue?_hexDigit (c.toNat % 16) (by omega)
  have hfour : hexFour? '0' '0' (hexDigit (c.toNat / 16)) (hexDigit (c.toNat % 16)) =
      some c.toNat := by
    have hsum : (((0 * 16 + 0) * 16 + c.toNat / 16) * 16 + c.toNat % 16) = c.toNat := by omega
    rw [hexFour?, hzero, hhigh, hlow]
    exact congrArg some hsum
  have hread : readHex ('0' :: '0' :: hexDigit (c.toNat / 16) :: hexDigit (c.toNat % 16) :: t) =
      .ok (c.toNat, t) := by
    rw [readHex, hfour]
  have hno : ¬(0xdc00 ≤ c.toNat ∧ c.toNat ≤ 0xdfff) := by omega
  have hhalf : ¬(0xd800 ≤ c.toNat ∧ c.toNat ≤ 0xdbff) := by omega
  show readCodePoint ('0' :: '0' :: _) = _
  rw [readCodePoint, hread]
  simp only [if_neg hno, if_neg hhalf, Char.ofNat_toNat]

/-- how a character is written: as itself, or behind a backslash as something that is read back -/
inductive Escaped (c : Char) : Text → Prop
  | plain (hq : c ≠ '\"') (hb : c ≠ '\\') (hc : ¬c.toNat < 0x20) : Escaped c [c]
  | escape {w : Text} (h : ∀ t, readEscape (w ++ t) = .ok (c, t)) : Escaped c ('\\' :: w)

theorem escaped_escapeChar (c : Char) : Escaped c (escapeChar c) := by
  have hshort (d e : Char) (h : ∀ t, readEscape (d :: t) = .ok (e, t)) :
      Escaped e ['\\', d] := .escape h
  unfold escapeChar
  split
  · rename_i h
    exact h ▸ hshort '\"' _ fun _ => rfl
  split
  · rename_i h
    exact h ▸ hshort '\\' _ fun _ => rfl
  split
  · rename_i h
    exact h ▸ hshort 'b' _ fun _ => rfl
  split
  · rename_i h
    exact h ▸ hshort 'f' _ fun _ => rfl
  split
  · rename_i h
    exact h ▸ hshort 'n' _ fun _ => rfl
  split
  · rename_i h
    exact h ▸ hshort 'r' _ fun _ => rfl
  split
  · rename_i h
    exact h ▸ hshort 't' _ fun _ => rfl
  split
  · rename_i h
    exact .escape (readEscape_control h)
  · rename_i hq hb _ _ _ _ _ hc
    exact .plain hq hb hc

/-! ## quoted texts -/

theorem readQuoted_close (t : Text) : readQuoted ('\"' :: t) = .ok ([], t) := by
  rw [readQuoted]

theorem readQuoted_escape {c : Char} {t r : Text} (h : readEscape t = .ok (c, r)) :
    readQuoted ('\\' :: t) = (readQuoted r).map fun (s, u) => (c :: s, u) := by
  rw [readQuoted]
  split
  · rename_i he
    rw [h] at he
    cases he
  · rename_i he
    rw [h] at he
    obtain ⟨rfl, rfl⟩ := Prod.mk.inj (Except.ok.inj he)
    rfl

theorem readQuoted_plain {c : Char} (hq : c ≠ '\"') (hb : c ≠ '\\') (hc : ¬c.toNat < 0x20)
    (t : Text) : readQuoted (c :: t) = (readQuoted t).map fun (s, u) => (c :: s, u) := by
  rw [readQuoted, if_neg hc]
  · exact hq
  · exact hb

theorem readQuoted_append (c : Char) (t : Text) :
    readQuoted (escapeChar c ++ t) = (readQuoted t).map fun (s, u) => (c :: s, u) := by
  have hc := escaped_escapeChar c
  generalize escapeChar c = w at hc
  cases hc with
  | plain hq hb hc => exact readQuoted_plain hq hb hc t
  | escape h => exact readQuoted_escape (h t)

/-- **A quoted text is read back as it was**, with anything behind it -/
theorem readQuoted_quote (s t : Text) :
    readQuoted (s.flatMap escapeChar ++ '\"' :: t) = .ok (s, t) := by
  induction s with
  | nil => exact readQuoted_close t
  | cons c s ih =>
    rw [List.flatMap_cons, List.append_assoc, readQuoted_append, ih]
    rfl

end Stencil.Json
