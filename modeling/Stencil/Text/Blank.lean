import Stencil.Text.Basic

/-!
# White space

* `Text.isSpace`   the characters with the Unicode property White_Space;
* `Text.trim`      a text without the white space at its two ends;
* `Text.isBlank`   the two characters that separate the words of a line, space and tab;
* `Text.exists_eq_append_trim`, `Text.trim_trim`   trimming takes away white space, and all of it.
-/

namespace Stencil.Text

def isSpace (c : Char) : Bool :=
  let n := c.toNat
  (0x9 ≤ n && n ≤ 0xd) || n == 0x20 || n == 0x85 || n == 0xa0 || n == 0x1680
    || (0x2000 ≤ n && n ≤ 0x200a) || n == 0x2028 || n == 0x2029 || n == 0x202f || n == 0x205f
    || n == 0x3000

def trimStart (t : Text) : Text := t.dropWhile isSpace

def trimEnd (t : Text) : Text := (t.reverse.dropWhile isSpace).reverse

def trim (t : Text) : Text := trimEnd (trimStart t)

theorem length_trimStart_le (t : Text) : (trimStart t).length ≤ t.length :=
  (List.dropWhile_sublist isSpace).length_le

theorem length_trimEnd_le (t : Text) : (trimEnd t).length ≤ t.length := by
  simpa [trimEnd] using (List.dropWhile_sublist (l := t.reverse) isSpace).length_le

theorem length_trim_le (t : Text) : (trim t).length ≤ t.length :=
  Nat.le_trans (length_trimEnd_le _) (length_trimStart_le t)

theorem trim_of_ends {t : Text} (hs : ∀ c ∈ t.head?, isSpace c = false)
    (he : ∀ c ∈ t.getLast?, isSpace c = false) : trim t = t := by
  have hstart : trimStart t = t := by
    cases t with
    | nil => rfl
    | cons c t =>
      have hc : ¬isSpace c = true := by
        rw [hs c rfl]
        decide
      exact List.dropWhile_cons_of_neg hc
  have hend : trimEnd t = t := by
    rcases List.eq_nil_or_concat t with rfl | ⟨s, c, rfl⟩
    · rfl
    · have hc : ¬isSpace c = true := by
        rw [he c (by simp)]
        decide
      rw [trimEnd, List.concat_eq_append, List.reverse_concat, List.dropWhile_cons_of_neg hc,
        List.reverse_cons, List.reverse_reverse]
  rw [trim, hstart, hend]

/-- the two ends of a text whose first and last characters are given -/
theorem ends_concat {P : Char → Prop} {c d : Char} (hc : P c) (hd : P d) (s : Text) :
    (∀ x ∈ (c :: (s ++ [d])).head?, P x) ∧ ∀ x ∈ (c :: (s ++ [d])).getLast?, P x := by
  constructor
  · intro x hx
    exact Option.some.inj hx ▸ hc
  · intro x hx
    rw [← List.cons_append, List.getLast?_concat] at hx
    exact Option.some.inj hx ▸ hd

theorem trim_concat {c d : Char} (hc : isSpace c = false) (hd : isSpace d = false) (s : Text) :
    trim (c :: (s ++ [d])) = c :: (s ++ [d]) :=
  trim_of_ends (ends_concat hc hd s).1 (ends_concat hc hd s).2

theorem trim_of_noSpace {t : Text} (h : ∀ c ∈ t, isSpace c = false) : trim t = t :=
  trim_of_ends (fun c hc => h c (List.mem_of_mem_head? hc))
    fun c hc => h c (List.mem_of_mem_getLast? hc)

theorem infix_trim (t : Text) : t.trim <:+: t := by
  have hs : t.trimStart <:+: t := (List.dropWhile_suffix isSpace).isInfix
  have he : t.trimStart.trimEnd <:+: t.trimStart := by
    unfold trimEnd
    rw [← List.reverse_infix, List.reverse_reverse]
    exact (List.dropWhile_suffix isSpace).isInfix
  exact he.trans hs

theorem mem_trim {c : Char} {t : Text} (hc : c ∈ t) (hs : isSpace c = false) : c ∈ trim t := by
  have hkept (s : Text) (hm : c ∈ s) : c ∈ s.dropWhile isSpace := by
    rw [← List.takeWhile_append_dropWhile (p := isSpace) (l := s), List.mem_append] at hm
    refine hm.resolve_left fun htaken => ?_
    rw [List.all_eq_true.mp List.all_takeWhile c htaken] at hs
    cases hs
  exact List.mem_reverse.mpr (hkept _ (List.mem_reverse.mpr (hkept t hc)))

/-- what trimming takes away is white space -/
theorem exists_eq_append_trim (t : Text) : ∃ p q, t = p ++ trim t ++ q ∧
    (∀ c ∈ p, isSpace c = true) ∧ ∀ c ∈ q, isSpace c = true := by
  have htaken (s : Text) (c : Char) (hc : c ∈ s.takeWhile isSpace) : isSpace c = true :=
    List.all_eq_true.mp List.all_takeWhile c hc
  have hend (s : Text) : s = trimEnd s ++ (s.reverse.takeWhile isSpace).reverse := by
    rw [trimEnd, ← List.reverse_append, List.takeWhile_append_dropWhile, List.reverse_reverse]
  refine ⟨t.takeWhile isSpace, (t.trimStart.reverse.takeWhile isSpace).reverse, ?_, htaken t,
    fun c hc => htaken _ c (List.mem_reverse.mp hc)⟩
  rw [List.append_assoc, trim, ← hend, trimStart, List.takeWhile_append_dropWhile]

section
variable {s : Text} (h : ∀ c ∈ s, isSpace c = true)
include h

theorem trim_space_append (t : Text) : trim (s ++ t) = trim t :=
  congrArg trimEnd (List.dropWhile_append_of_pos h)

theorem trimEnd_append_space (t : Text) : trimEnd (t ++ s) = trimEnd t := by
  have hreverse : ∀ c ∈ s.reverse, isSpace c = true := fun c hc => h c (List.mem_reverse.mp hc)
  rw [trimEnd, List.reverse_append, List.dropWhile_append_of_pos hreverse]
  rfl

theorem trim_append_space (t : Text) : trim (t ++ s) = trim t := by
  rw [trim, trim, trimStart, trimStart, List.dropWhile_append]
  split
  · rename_i ht
    have hs : (s ++ []).dropWhile isSpace = [] := List.dropWhile_append_of_pos h
    rw [List.append_nil] at hs
    rw [hs, List.isEmpty_iff.mp ht]
  · exact trimEnd_append_space h _

end

theorem trim_trim (t : Text) : trim (trim t) = trim t := by
  obtain ⟨p, q, ht, hp, hq⟩ := exists_eq_append_trim t
  have htrim := congrArg trim ht
  rw [trim_append_space hq, trim_space_append hp] at htrim
  exact htrim.symm

/-- a space or a tab: what separates the words of a line -/
def isBlank (c : Char) : Bool := c == ' ' || c == '\t'

end Stencil.Text
