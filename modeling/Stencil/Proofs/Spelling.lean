import Stencil.Modifier

/-!
# How modifiers are spelled

Reading, keywords and display go together.  A modifier that can be read is read again from its
display; the other texts that spell it are those with more white space just inside the outer
parentheses, whatever stands between them.  A text is refused as unknown for what stands in front of
its first parenthesis, and as a bad argument for what follows that.

* `Modifier.wordOf`              the text in front of the first parenthesis (`Modifier.fst_split`);
* `Modifier.IsKeyword`           the words that are keywords (`Modifier.builder?_eq_none_iff`);
* `Modifier.Trimmed`             the modifiers that can be read (`Modifier.read_display_self_iff`);
* `Modifier.Padded`              white space just inside the outer parentheses;
* `Modifier.display_of_read`     what was read, from what it is displayed as;
* `Modifier.Padded.read_eq_ok`   white space inside the parentheses makes no difference;
* `Modifier.read_display_iff`    which texts spell a modifier, and why the others do not.
-/

namespace Stencil

namespace Text

theorem takeWhile_ne_eq (c : Char) (t : Text) :
    t.takeWhile (· ≠ c) = (cutAt c t).elim t Prod.fst := by
  induction t with
  | nil => rfl
  | cons a t ih =>
    by_cases ha : a = c
    · rw [cutAt, if_pos ha, List.takeWhile_cons_of_neg (by simp [ha])]
      rfl
    · rw [cutAt, if_neg ha, List.takeWhile_cons_of_pos (by simp [ha]), ih]
      cases cutAt c t <;> rfl

end Text

namespace Modifier

/-! ## keywords -/

/-- the text in front of the first parenthesis, all of it if there is none -/
def wordOf (spec : Text) : Text := spec.takeWhile (· ≠ '(')

/-- the word of a modifier -/
def IsKeyword (w : Text) : Prop := ∃ m : Modifier, m.keyword = w

theorem fst_split (spec : Text) : (split spec).1 = wordOf spec := by
  rw [wordOf, Text.takeWhile_ne_eq]
  unfold split
  split
  · rename_i hc
    rw [hc]
    rfl
  · rename_i name rest hc
    rw [hc]
    split <;> rfl

theorem wordOf_argument {w : Text} (h : '(' ∉ w) (a : Text) :
    wordOf (w ++ '(' :: a ++ [')']) = w := by
  rw [← fst_split, split_argument h]

theorem notMem_keyword (m : Modifier) : '(' ∉ m.keyword := by
  cases m with
  | index expr => show '(' ∉ "at".toList; decide
  | parse f => show '(' ∉ "parse".toList; decide
  | load f => show '(' ∉ "load".toList; decide
  | order o => cases o <;> decide
  | _ => decide

theorem wordOf_keyword (m : Modifier) : wordOf m.keyword = m.keyword := by
  rw [wordOf, Text.takeWhile_ne_eq, Text.cutAt_of_notMem (notMem_keyword m)]
  rfl

/-- a modifier can be built from the keywords and from no other word -/
theorem builder?_eq_none_iff {w : Text} : builder? w = none ↔ ¬IsKeyword w := by
  constructor
  · rintro hnone ⟨m, rfl⟩
    have hsome : (builder? m.keyword).isSome = true := by
      cases m with
      | order o => cases o <;> rfl
      | _ => rfl
    rw [hnone] at hsome
    cases hsome
  · intro h
    cases hb : builder? w with
    | none => rfl
    | some make =>
      refine absurd ?_ h
      rcases builder?_cases hb with ⟨hw, -⟩ | ⟨hw, -⟩ | ⟨hw, -⟩ | ⟨m, -, hw, -⟩
      · exact ⟨index [], hw.symm⟩
      · exact ⟨parse .text, hw.symm⟩
      · exact ⟨load .text, hw.symm⟩
      · exact ⟨m, hw⟩

/-! ## white space inside the parentheses -/

/-- the first text is the second with more white space, or no more, just inside its outer
parentheses -/
inductive Padded : Text → Text → Prop
  | same (t : Text) : Padded t t
  | inside {w p a q : Text} (hw : '(' ∉ w) (hp : ∀ c ∈ p, Text.isSpace c = true)
      (hq : ∀ c ∈ q, Text.isSpace c = true) :
      Padded (w ++ '(' :: (p ++ a ++ q) ++ [')']) (w ++ '(' :: a ++ [')'])

theorem builder?_trim {w : Text} {make : Tail → Option Modifier} (h : builder? w = some make)
    (a : Text) : make (.argument a.trim) = make (.argument a) := by
  rcases builder?_cases h with ⟨-, rfl⟩ | ⟨-, rfl⟩ | ⟨-, rfl⟩ | ⟨m, -, -, rfl⟩
  · rw [withIndex?, withIndex?, Text.trim_trim]
  · rw [withFormat?, withFormat?, Text.trim_trim]
  · rw [withFormat?, withFormat?, Text.trim_trim]
  · rfl

theorem read_trim {w : Text} (h : '(' ∉ w) (a : Text) {m : Modifier} :
    read (w ++ '(' :: a.trim ++ [')']) = .ok m ↔ read (w ++ '(' :: a ++ [')']) = .ok m := by
  rw [read_eq_ok_iff, read_eq_ok_iff, split_argument h, split_argument h]
  constructor
  · rintro ⟨make, hb, hm⟩
    exact ⟨make, hb, builder?_trim hb a ▸ hm⟩
  · rintro ⟨make, hb, hm⟩
    exact ⟨make, hb, (builder?_trim hb a).symm ▸ hm⟩

theorem Padded.read_eq_ok {spec shown : Text} (h : Padded spec shown) {m : Modifier}
    (hm : read shown = .ok m) : read spec = .ok m := by
  cases h with
  | same => exact hm
  | inside hw hp hq =>
    rw [← read_trim hw, Text.trim_append_space hq, Text.trim_space_append hp, read_trim hw]
    exact hm

theorem padded_trim {w : Text} (h : '(' ∉ w) (a : Text) :
    Padded (w ++ '(' :: a ++ [')']) (w ++ '(' :: a.trim ++ [')']) := by
  obtain ⟨p, q, ha, hp, hq⟩ := Text.exists_eq_append_trim a
  have hpadded := Padded.inside (a := a.trim) h hp hq
  rwa [← ha] at hpadded

/-! ## display -/

/-- an index is not empty and has no white space at its ends; any other modifier will do -/
def Trimmed : Modifier → Prop
  | index expr => expr ≠ [] ∧ expr.trim = expr
  | _ => True

theorem trimmed_of_read {spec : Text} {m : Modifier} (h : read spec = .ok m) : m.Trimmed := by
  rcases read_cases h with ⟨hm, -⟩ | ⟨a, -, hne, rfl⟩ | ⟨a, f, -, -, rfl⟩ | ⟨a, f, -, -, rfl⟩
  · have hbare := argument?_of_mem_bare hm
    cases m with
    | index expr => cases hbare
    | _ => trivial
  · exact ⟨hne, Text.trim_trim a⟩
  · trivial
  · trivial

theorem read_display_self_iff {m : Modifier} : read m.display = .ok m ↔ m.Trimmed := by
  constructor
  · exact trimmed_of_read
  · intro h
    cases m with
    | index expr => exact read_index h.1 h.2
    | parse f => cases f <;> rfl
    | load f => cases f <;> rfl
    | order o => cases o <;> rfl
    | _ => rfl

/-- a modifier is displayed as it was read but for white space around its argument -/
theorem display_of_read {spec : Text} {m : Modifier} (h : read spec = .ok m) :
    (spec = m.keyword ∧ m.display = spec) ∨ ∃ a : Text, spec = m.keyword ++ '(' :: a ++ [')'] ∧
      m.display = m.keyword ++ '(' :: a.trim ++ [')'] := by
  rcases read_cases h with ⟨hm, hs⟩ | ⟨a, hs, -, rfl⟩ | ⟨a, f, hs, hf, rfl⟩ | ⟨a, f, hs, hf, rfl⟩
  · refine .inl ⟨hs, ?_⟩
    rw [display, argument?_of_mem_bare hm, hs]
  · exact .inr ⟨a, hs, rfl⟩
  · refine .inr ⟨a, hs, ?_⟩
    rw [← Format.ofKeyword?_eq_some_iff.mp hf]
    rfl
  · refine .inr ⟨a, hs, ?_⟩
    rw [← Format.ofKeyword?_eq_some_iff.mp hf]
    rfl

theorem read_display {spec : Text} {m : Modifier} (h : read spec = .ok m) :
    read m.display = .ok m ∧ wordOf spec = m.keyword ∧ Padded spec m.display := by
  refine ⟨read_display_self_iff.mpr (trimmed_of_read h), ?_⟩
  rcases display_of_read h with ⟨hs, hd⟩ | ⟨a, rfl, hd⟩
  · rw [hd]
    refine ⟨?_, .same spec⟩
    rw [hs, wordOf_keyword]
  · have hword := notMem_keyword m
    rw [hd]
    exact ⟨wordOf_argument hword a, padded_trim hword a⟩

/-! ## refusals -/

theorem read_eq_unknown_iff_word {spec : Text} :
    read spec = .error .unknown ↔ ¬IsKeyword (wordOf spec) := by
  rw [read_eq_unknown_iff, fst_split, builder?_eq_none_iff]

theorem read_eq_badArgument_iff {spec t : Text} : read spec = .error (.badArgument t) ↔
    t = spec ∧ IsKeyword (wordOf spec) ∧ ∀ m, read spec ≠ .ok m := by
  constructor
  · intro h
    refine ⟨eq_of_read_badArgument h, ?_, ?_⟩
    · apply Classical.byContradiction
      intro hword
      rw [read_eq_unknown_iff_word.mpr hword] at h
      cases h
    · intro m hm
      rw [hm] at h
      cases h
  · rintro ⟨rfl, hword, hnone⟩
    cases hr : read t with
    | ok m => exact absurd hr (hnone m)
    | error e =>
      cases e with
      | unknown => exact absurd hword (read_eq_unknown_iff_word.mp hr)
      | badArgument s => rw [eq_of_read_badArgument hr]

/-- **The spelling of modifiers.**  The texts that spell a modifier have its keyword in front of
their first parenthesis and are its display but for white space just inside the outer parentheses;
the display is one of them, as long as an index is not empty and nothing can be trimmed from it.  A
text is unknown if it has no keyword there, and any other text that spells nothing is reported as a
bad argument. -/
theorem read_display_iff (spec : Text) :
    (∀ m, read spec = .ok m ↔
      read m.display = .ok m ∧ wordOf spec = m.keyword ∧ Padded spec m.display) ∧
    (∀ m, read m.display = .ok m ↔ m.Trimmed) ∧
    (read spec = .error .unknown ↔ ¬IsKeyword (wordOf spec)) ∧
    ∀ t, read spec = .error (.badArgument t) ↔
      t = spec ∧ IsKeyword (wordOf spec) ∧ ∀ m, read spec ≠ .ok m := by
  refine ⟨?_, fun _ => read_display_self_iff, read_eq_unknown_iff_word,
    fun _ => read_eq_badArgument_iff⟩
  intro m
  constructor
  · exact read_display
  · rintro ⟨hshown, -, hpadded⟩
    exact hpadded.read_eq_ok hshown

/-- the argument may hold parentheses itself, and any white space may stand around it -/
example : read "at(\u3000#a (b\u00a0) )".toList = .ok (index "#a (b\u00a0)".toList) := rfl

end Modifier

end Stencil
