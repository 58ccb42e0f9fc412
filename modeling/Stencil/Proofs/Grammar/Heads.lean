import Stencil.Proofs.Arguments
import Stencil.Proofs.Grammar.Words
import Stencil.Proofs.Splitting

/-!
# Heads by the grammar

The rule for the arguments of a head reads its units, and the words between the blanks are its
arguments.

* `Grammar.unitByUnit_argumentUnits`   an argument is read unit by unit;
* `Head.splits_iff`                    the arguments of a head by the grammar are its arguments.
-/

namespace Stencil

namespace Grammar

open Expression Rule Reads

/-! ## the end of a text -/

theorem reads_endOfInput :
    template.Reads (.rule .endOfInput) [] (some ⟨[], [.mk .endOfInput [] []], []⟩) :=
  .pair rfl (.notAhead .noAny)

theorem noEndOfInput (c : Char) (t : Text) : template.Reads (.rule .endOfInput) (c :: t) none :=
  .noRule (.ahead .any)

/-! ## arguments -/

def argumentUnit : Expression Rule :=
  alt (rule referenceSpan) (unitOr (alt (rule argChar) (char '#')))

theorem noReferenceSpan_of_head? {t : Text} (h : t.head? ≠ some '#') :
    template.Reads (.rule .referenceSpan) t none := .noRule (.noFirst (.noChar h))

theorem reads_argChar {c : Char} (hb : Text.isBlank c = false) (hc : c ≠ '#') (t : Text) :
    template.Reads (.rule .argChar) (c :: t) (some ⟨[c], [], t⟩) :=
  .silent rfl (.butNot (.right (noBlank_cons hb t) (.noChar (by simp [hc]))))

theorem isBlankUnit_singleton (c : Char) : isBlankUnit [c] = Text.isBlank c := by
  simp [isBlankUnit, Text.isBlank]

theorem wordRule_argument : WordRule .argument argumentUnit := by
  refine ⟨rfl, rfl, fun c t h => ?_⟩
  have hchar : template.Reads (.rule .argChar) (c :: t) none :=
    .noRule (.noButNot (.left (reads_blank h t)))
  apply Reads.right (noReferenceSpan_of_head? (head?_ne_of_isBlank h rfl t))
  apply unitOr_of_none (head?_ne_of_isBlank h rfl t)
  · exact noEscapedPair (head?_ne_of_isBlank h rfl t)
  · exact .right hchar (.noChar (head?_ne_of_isBlank h rfl t))

theorem unitByUnit_argumentUnits (t : Text) : UnitByUnit argumentUnit [] (argumentUnits t) := by
  have hrest (t : Text) : (argumentUnits t).flatten ++ [] = t := by
    rw [List.append_nil, flatten_argumentUnits]
  fun_induction argumentUnits t with
  | case1 =>
    have hchar : template.Reads (.rule .argChar) [] none :=
      .noRule (.butNot_nil (.right (noBlank (by simp)) (.noChar (by simp))))
    apply UnitByUnit.nil
    apply Reads.right (noReferenceSpan_of_head? (by simp))
    exact unitOr_of_none (by simp) (noEscapedPair (by simp)) (.right hchar (.noChar (by simp)))
  | case2 t us r h ih =>
    refine .cons (fun _ => ?_) ih
    have htext : '#' :: us.flatten ++ ['#'] ++ r = '#' :: t := by
      rw [← append_of_walk h]
      simp
    rw [hrest, htext]
    exact .left (reads_referenceSpan h)
  | case3 t h ih =>
    refine .cons (fun _ => ?_) ih
    have hfirst : FirstUnit '#' t ['#'] t := .plain (by decide) (by decide)
    have hchar : template.Reads (.rule .argChar) ('#' :: t) none :=
      .noRule (.noButNot (.right (noBlank_cons rfl t) .char))
    rw [hrest]
    exact .right (noReferenceSpan h) (reads_unitOr hfirst fun _ _ _ => .right hchar .char)
  | case4 c t hc ih =>
    refine .cons (fun hblank => ?_) ih
    rw [hrest, nextUnit_append]
    refine .right (noReferenceSpan_of_head? (by simp [hc]))
      (reads_unitOr (firstUnit_nextUnit c t) fun hu hr _ => .left ?_)
    rw [hu, isBlankUnit_singleton] at hblank
    rw [hu, hr]
    exact reads_argChar hblank hc t

theorem reads_arguments {t : Text} {ws : List (List Text)} (h : Spaced (argumentUnits t) ws) :
    template.Reads (.rule .arguments) t
      (some ⟨t, [.mk .arguments t (wordPairs .argument ws ++ [.mk .endOfInput [] []])], []⟩) := by
  have hread := reads_spacedOut h wordRule_argument (unitByUnit_argumentUnits t) (by simp)
    reads_endOfInput
  simp only [flatten_argumentUnits, Option.map_some, Parsed.after, List.append_nil] at hread
  exact .pair rfl hread

end Grammar

/-- **The arguments of a head by the grammar** are what splitting it gives, and no others -/
theorem Head.splits_iff {t : Text} {args : List Text} : Splits t args ↔ splitArguments t = args := by
  obtain ⟨ws, hws⟩ := exists_spaced (argumentUnits t)
  have hread := Grammar.reads_arguments hws
  have htexts : Pair.textsOf .argument (Grammar.wordPairs .argument ws ++ [.mk .endOfInput [] []]) =
      splitArguments t := by
    rw [splitArguments, hws.words_eq (nil_notMem_argumentUnits t), Pair.textsOf_append,
      Grammar.textsOf_wordPairs]
    exact List.append_nil _
  constructor
  · rintro ⟨s, ps, r, h, rfl⟩
    cases h.unique hread
    exact htexts.symm
  · rintro rfl
    exact ⟨_, _, _, hread, htexts⟩

/-- a parenthesis without a partner and a `#` without an end hold nothing together -/
example : Head.Splits "a #b c# (d e) (f #g".toList
    ["a".toList, "#b c#".toList, "(d e)".toList, "(f".toList, "#g".toList] :=
  Head.splits_iff.mpr (by decide +kernel)

end Stencil
