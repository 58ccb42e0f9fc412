import Stencil.Proofs.Grammar.Rules
import Stencil.Proofs.Units

/-!
# The units of the grammar

What the rules for groups and for escapes read is the first unit of a text.

* `Closes.splitGroup_succ`, `FirstUnit.splitGroup_eq`   a group is closed behind the units in it;
* `Grammar.readsInside`     what stands in a group is read up to where the group is closed;
* `Grammar.reads_unitOr`    a group, an escape or another character is the first unit of a text;
* `Grammar.reads_referenceSpan`, `Grammar.noReferenceSpan`   a reference in a head.
-/

namespace Stencil

/-! ## behind a group -/

/-- behind the end of a group that stands in another one, we are in the other one -/
theorem Closes.splitGroup_succ {depth : Nat} {g : Text} (h : Closes depth g) (more : Text) :
    splitGroup (depth + 1) (g ++ more) = (splitGroup 0 more).map fun (g', r) => (g ++ g', r) := by
  induction h with
  | last => rfl
  | down _ ih =>
    rw [List.cons_append, splitGroup_down, ih, Option.map_map]
    rfl
  | up _ ih =>
    rw [List.cons_append, splitGroup_up, ih, Option.map_map]
    rfl
  | other hc _ ih =>
    rw [List.cons_append, splitGroup_other hc, ih, Option.map_map]
    rfl

/-- where one group is not closed, two are not closed either -/
theorem splitGroup_succ_eq_none {depth : Nat} {t : Text} (h : splitGroup depth t = none) :
    splitGroup (depth + 1) t = none := by
  induction t generalizing depth with
  | nil => rfl
  | cons c t ih =>
    cases hc : isBracket c with
    | false =>
      rw [splitGroup_other hc, Option.map_eq_none_iff] at h ⊢
      exact ih h
    | true =>
      simp only [isBracket, Bool.or_eq_true, beq_iff_eq] at hc
      rcases hc with rfl | rfl
      · rw [splitGroup_up, Option.map_eq_none_iff] at h ⊢
        exact ih h
      · cases depth with
        | zero => cases h
        | succ depth =>
          rw [splitGroup_down, Option.map_eq_none_iff] at h ⊢
          exact ih h

theorem FirstUnit.splitGroup_eq {c : Char} {t u r : Text} (h : FirstUnit c t u r) (hc : c ≠ ')') :
    splitGroup 0 (c :: t) = (splitGroup 0 r).map fun (g, r') => (u ++ g, r') := by
  cases h with
  | group h =>
    have hclose := (closes_of_splitGroup h).splitGroup_succ r
    rw [append_of_splitGroup h] at hclose
    rw [splitGroup_up, hclose, Option.map_map]
    rfl
  | opening h =>
    rw [splitGroup_up, splitGroup_succ_eq_none h, h]
    rfl
  | escape h =>
    have hback : isBracket '\\' = false := rfl
    rw [splitGroup_other hback, splitGroup_other (isBracket_of_needsEscape h), Option.map_map]
    rfl
  | backslash h =>
    have hback : isBracket '\\' = false := rfl
    rw [splitGroup_other hback]
    rfl
  | plain ho hb =>
    have hbracket : isBracket c = false := by simp [isBracket, ho, hc]
    rw [splitGroup_other hbracket]
    rfl

namespace Grammar

open Expression Rule Reads

/-! ## escapes and groups -/

section
variable {t r : Text}

theorem reads_escapedPair {d : Char} (h : needsEscape d = true) :
    template.Reads escapedPair ('\\' :: d :: r) (some ⟨['\\', d], [], r⟩) := by
  simp only [needsEscape, Bool.or_eq_true, beq_iff_eq] at h
  rcases h with rfl | rfl
  · exact .seq .char (.left .char)
  · exact .seq .char (.right (.noChar (by simp)) .char)

theorem noEscapedPair (h : t.head? ≠ some '\\') : template.Reads escapedPair t none :=
  .noFirst (.noChar h)

theorem noEscapedPair_backslash (h : ∀ d ∈ t.head?, needsEscape d = false) :
    template.Reads escapedPair ('\\' :: t) none := by
  have hnone {d : Char} (hd : needsEscape d = true) : t.head? ≠ some d := by
    intro ht
    rw [h d ht] at hd
    cases hd
  exact .noSecond .char (.right (.noChar (hnone rfl)) (.noChar (hnone rfl)))

theorem reads_escaped {d : Char} (h : needsEscape d = true) :
    template.Reads (.rule .escaped) ('\\' :: d :: r) (some ⟨['\\', d], [], r⟩) :=
  .silent rfl (reads_escapedPair h)

theorem noEscaped (h : template.Reads escapedPair t none) :
    template.Reads (.rule .escaped) t none := .noRule h

theorem noGroup_of_head? (h : t.head? ≠ some '(') : template.Reads (.rule .group) t none :=
  .noRule (.noFirst (.noChar h))

theorem unitOr_of_none {e : Expression Rule} {o : Option (Parsed Rule)} (ho : t.head? ≠ some '(')
    (he : template.Reads escapedPair t none) (h : template.Reads e t o) :
    template.Reads (unitOr e) t o := .right (noGroup_of_head? ho) (.right (noEscaped he) h)

/-- what the rule for a group makes of a text behind a `(`, by what closes the group -/
structure ReadsGroup (t : Text) : Prop where
  closed : ∀ g r, splitGroup 0 t = some (g, r) →
    template.Reads (.rule .group) ('(' :: t) (some ⟨'(' :: g, [], r⟩)
  unclosed : splitGroup 0 t = none → template.Reads (.rule .group) ('(' :: t) none

/-- the first unit of a text, if `e` reads a character that is a unit of its own -/
theorem ReadsGroup.unitOr {c : Char} {u : Text} {e : Expression Rule} (hg : ReadsGroup t)
    (h : FirstUnit c t u r) (he : u = [c] → r = t → template.Reads escapedPair (c :: t) none →
      template.Reads e (c :: t) (some ⟨u, [], r⟩)) :
    template.Reads (unitOr e) (c :: t) (some ⟨u, [], r⟩) := by
  cases h with
  | group h => exact .left (hg.closed _ _ h)
  | opening h =>
    have hnone : template.Reads escapedPair ('(' :: t) none := noEscapedPair (by simp)
    apply Reads.right (hg.unclosed h)
    apply Reads.right (noEscaped hnone)
    exact he rfl rfl hnone
  | escape h => exact .right (noGroup_of_head? (by simp)) (.left (reads_escaped h))
  | backslash h =>
    have hnone := noEscapedPair_backslash h
    exact unitOr_of_none (by simp) hnone (he rfl rfl hnone)
  | plain ho hb =>
    have hnone : template.Reads escapedPair (c :: t) none := noEscapedPair (by simp [hb])
    exact unitOr_of_none (by simp [ho]) hnone (he rfl rfl hnone)

theorem ReadsGroup.unit {c d : Char} {u : Text} (hg : ReadsGroup t) (h : FirstUnit c t u r)
    (hc : c ≠ d) :
    template.Reads (Rule.unitOr (butNot (char d))) (c :: t) (some ⟨u, [], r⟩) := by
  refine hg.unitOr h fun hu hr _ => ?_
  rw [hu, hr]
  exact .butNot (.noChar (by simp [hc]))

end

/-- the units in a group, up to the parenthesis that closes it -/
structure ReadsInside (t : Text) : Prop where
  closed : ∀ g r, splitGroup 0 t = some (g, r) → ∃ s, g = s ++ [')'] ∧
    template.Reads (many (unitOr (butNot (char ')')))) t (some ⟨s, [], ')' :: r⟩)
  unclosed : splitGroup 0 t = none →
    template.Reads (many (unitOr (butNot (char ')')))) t (some ⟨t, [], []⟩)

theorem ReadsInside.group {t : Text} (h : ReadsInside t) : ReadsGroup t := by
  constructor
  · intro g r hg
    obtain ⟨s, rfl, hs⟩ := h.closed g r hg
    exact .silent rfl (.seq .char (.seq hs .char))
  · intro hg
    apply Reads.noRule
    apply Reads.noSecond .char
    apply Reads.noSecond (h.unclosed hg)
    exact .noChar (by simp)

/-- at the character that ends the units, or at the end of the text, no further unit is read -/
theorem stop_unitOr {d : Char} {t : Text} (ho : d ≠ '(') (hb : d ≠ '\\')
    (h : ∀ c ∈ t.head?, c = d) :
    template.Reads (many (unitOr (butNot (char d)))) t (some ⟨[], [], t⟩) := by
  have hne {c : Char} (hc : d ≠ c) : t.head? ≠ some c := fun ht => hc (h c ht).symm
  have hnone : template.Reads (butNot (char d)) t none := by
    cases t with
    | nil => exact .butNot_nil (.noChar (by simp))
    | cons c t =>
      obtain rfl := h c rfl
      exact .noButNot .char
  exact .stop (unitOr_of_none (hne ho) (noEscapedPair (hne hb)) hnone)

theorem ReadsInside.nil : ReadsInside [] := by
  constructor
  · intro g r h
    cases h
  · intro _
    exact stop_unitOr (by decide) (by decide) (by simp)

theorem ReadsInside.close (t : Text) : ReadsInside (')' :: t) := by
  constructor
  · intro g r h
    obtain ⟨rfl, rfl⟩ := Prod.mk.inj (Option.some.inj h)
    exact ⟨[], rfl, stop_unitOr (by decide) (by decide) (by simp)⟩
  · intro h
    cases h

theorem ReadsInside.cons {c : Char} {t u r : Text} (hrest : ReadsInside r) (hgroup : ReadsGroup t)
    (h : FirstUnit c t u r) (hc : c ≠ ')') : ReadsInside (c :: t) := by
  have hunit := hgroup.unit h hc
  have hsplit := h.splitGroup_eq hc
  constructor
  · intro g r' hg
    rw [hsplit] at hg
    obtain ⟨⟨g', r''⟩, hg', he⟩ := Option.map_eq_some_iff.mp hg
    obtain ⟨rfl, rfl⟩ := Prod.mk.inj he
    obtain ⟨s, rfl, hs⟩ := hrest.closed g' r'' hg'
    exact ⟨u ++ s, (List.append_assoc u s [')']).symm, .more hunit hs⟩
  · intro hg
    rw [hsplit, Option.map_eq_none_iff] at hg
    have hmore := hunit.more (hrest.unclosed hg)
    rwa [show u ++ r = c :: t from hunit.append] at hmore

theorem readsInside (t : Text) : ReadsInside t := by
  -- a unit that is a group is read by its own rule, which is known for shorter texts
  induction hn : t.length using Nat.strong_induction_on generalizing t with
  | h n ih =>
    subst hn
    cases t with
    | nil => exact .nil
    | cons c t =>
      by_cases hc : c = ')'
      · rw [hc]
        exact .close t
      · have hgroup : ReadsGroup t := (ih _ (Nat.lt_succ_self _) t rfl).group
        have hrest := ih _ (Nat.lt_succ_of_le (length_nextUnit c t)) (nextUnit c t).2 rfl
        exact hrest.cons hgroup (firstUnit_nextUnit c t) hc

/-- a group, an escape or else a character that `e` reads is the first unit of a text -/
theorem reads_unitOr {c : Char} {t u r : Text} {e : Expression Rule} (h : FirstUnit c t u r)
    (he : u = [c] → r = t → template.Reads escapedPair (c :: t) none →
      template.Reads e (c :: t) (some ⟨u, [], r⟩)) :
    template.Reads (unitOr e) (c :: t) (some ⟨u, [], r⟩) := (readsInside t).group.unitOr h he

/-! ## references in a head -/

theorem reads_span {t r : Text} {us : List Text} (h : walk t = some (us, r)) :
    template.Reads (many (unitOr (butNot (char '#')))) t (some ⟨us.flatten, [], '#' :: r⟩) := by
  fun_induction walk t generalizing us with
  | case1 => cases h
  | case2 t =>
    obtain ⟨rfl, rfl⟩ := Prod.mk.inj (Option.some.inj h)
    exact stop_unitOr (by decide) (by decide) (by simp)
  | case3 c t hc ih =>
    obtain ⟨⟨us', r'⟩, hw, he⟩ := Option.map_eq_some_iff.mp h
    obtain ⟨rfl, rfl⟩ := Prod.mk.inj he
    have hunit := (readsInside t).group.unit (firstUnit_nextUnit c t) hc
    exact hunit.more (ih hw)

theorem reads_span_of_none {t : Text} (h : walk t = none) :
    template.Reads (many (unitOr (butNot (char '#')))) t (some ⟨t, [], []⟩) := by
  fun_induction walk t with
  | case1 => exact stop_unitOr (by decide) (by decide) (by simp)
  | case2 t => cases h
  | case3 c t hc ih =>
    have hunit := (readsInside t).group.unit (firstUnit_nextUnit c t) hc
    have hmore := hunit.more (ih (Option.map_eq_none_iff.mp h))
    rwa [nextUnit_append] at hmore

theorem reads_referenceSpan {t r : Text} {us : List Text} (h : walk t = some (us, r)) :
    template.Reads (.rule .referenceSpan) ('#' :: t) (some ⟨'#' :: us.flatten ++ ['#'], [], r⟩) :=
  .silent rfl (.seq .char (.seq (reads_span h) .char))

theorem noReferenceSpan {t : Text} (h : walk t = none) :
    template.Reads (.rule .referenceSpan) ('#' :: t) none := by
  apply Reads.noRule
  apply Reads.noSecond .char
  apply Reads.noSecond (reads_span_of_none h)
  exact .noChar (by simp)

end Grammar

end Stencil
