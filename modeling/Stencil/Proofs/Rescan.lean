import Stencil.Proofs.Excerpt
import Stencil.Proofs.Plain

/-!
# Scanning what was written

The segments of a line, written as text and scanned again, are the same segments.  What is written
has one blank between the words of a reference and its escapes in their place, and so it differs from
the line, but it has the same parentheses in the same order (`Segment.brackets_writeAll_scan`): a
group that was closed further on is closed still, and one that was not is not.

* `rewritten`                 some units with their blanks and escapes written anew
                              (`rewritten_eq_words`);
* `walk_rewritten`, `walk_words`   the units of what was written anew;
* `Segment.scan_writeAll_scan`   scanning what was written.
-/

namespace Stencil

/-! ## parentheses of words -/

theorem brackets_of_isBlankUnit {u : Text} (h : isBlankUnit u = true) : brackets u = [] := by
  simp only [isBlankUnit, Bool.or_eq_true, beq_iff_eq] at h
  rcases h with rfl | rfl <;> rfl

theorem brackets_joinWords (ws : List Text) :
    brackets (Text.joinWords ws) = ws.flatMap brackets := by
  induction ws with
  | nil => rfl
  | cons w ws ih =>
    cases ws with
    | nil => rw [Text.joinWords_singleton, List.flatMap_singleton]
    | cons v ws =>
      rw [Text.joinWords_cons_cons, brackets_append, brackets_cons rfl, ih]
      rfl

theorem flatMap_brackets_consWord (w : Text) (ws : List Text) :
    (consWord w ws).flatMap brackets = brackets w ++ ws.flatMap brackets := by
  unfold consWord
  split
  · rename_i h
    rw [h]
    rfl
  · exact List.flatMap_cons

theorem flatMap_brackets_wordsFrom (us : List Text) :
    brackets (wordsFrom us).1 ++ (wordsFrom us).2.flatMap brackets = brackets us.flatten := by
  induction us with
  | nil => rfl
  | cons u us ih =>
    rw [List.flatten_cons, brackets_append, ← ih]
    cases h : isBlankUnit u with
    | true =>
      rw [wordsFrom, if_pos h, brackets_of_isBlankUnit h, flatMap_brackets_consWord]
      rfl
    | false => rw [wordsFrom_cons h, brackets_append, List.append_assoc]

theorem flatMap_brackets_reescape (ws : List Text) :
    (ws.map reescape).flatMap brackets = ws.flatMap brackets := by
  rw [List.flatMap_map]
  exact congrArg (ws.flatMap ·) (funext brackets_reescape)

/-! ## units written anew -/

/-- some units with one blank between their words, and every escape written anew -/
def rewritten (us : List Text) : Text :=
  Text.joinWords (((wordsFrom us).1 :: (wordsFrom us).2).map reescape)

theorem brackets_rewritten (us : List Text) : brackets (rewritten us) = brackets us.flatten := by
  rw [rewritten, brackets_joinWords, flatMap_brackets_reescape, List.flatMap_cons,
    flatMap_brackets_wordsFrom]

theorem rewritten_blank {u : Text} (h : isBlankUnit u = true) (us : List Text) :
    rewritten (u :: us) = if (wordsFrom us).1 = [] then rewritten us else ' ' :: rewritten us := by
  rw [rewritten, wordsFrom, if_pos h]
  unfold consWord
  split
  · rename_i hw
    rw [rewritten, hw]
  · rw [List.map_cons, List.map_cons]
    exact Text.joinWords_cons_cons _ _ _

theorem rewritten_cons {c : Char} {t u r : Text} (h : FirstUnit c t u r)
    (hu : isBlankUnit u = false) {us : List Text} (hw : (wordsFrom us).1 <+: r) :
    rewritten (u :: us) = reescape u ++ rewritten us := by
  rw [rewritten, wordsFrom_cons hu, List.map_cons, h.reescape_append hw, Text.joinWords_append_cons]
  rfl

theorem rewritten_eq_words (us : List Text) :
    rewritten us = Text.joinWords ((words us).map reescape) ∨
      rewritten us = ' ' :: Text.joinWords ((words us).map reescape) := by
  unfold rewritten words
  cases (wordsFrom us).1 with
  | cons c w =>
    rw [consWord_of_ne_nil (List.cons_ne_nil c w)]
    exact .inl rfl
  | nil =>
    cases (wordsFrom us).2 with
    | nil => exact .inl rfl
    | cons v ws => exact .inr (Text.joinWords_cons_cons [] _ _)

theorem map_consWord_reescape (w : Text) (ws : List Text) :
    (consWord w ws).map reescape = consWord (reescape w) (ws.map reescape) := by
  unfold consWord
  split
  · rename_i h
    subst h
    exact (if_pos rfl).symm
  · rename_i h
    exact (if_neg fun hw => h (eq_nil_of_reescape hw)).symm

theorem FirstUnit.isBlankUnit_eq {c : Char} {t u r : Text} (h : FirstUnit c t u r) :
    isBlankUnit u = Text.isBlank c := by
  cases h with
  | group h => rfl
  | opening h => rfl
  | escape h => rfl
  | backslash h => rfl
  | plain ho hb => simp [isBlankUnit, Text.isBlank]

/-- units written anew are walked unit by unit in front of a text with the parentheses that were
there before -/
theorem walk_rewritten {t r : Text} {us : List Text} (h : walk t = some (us, r)) {more : Text}
    (hm : brackets more = brackets r) :
    ∃ vs, walk (rewritten us ++ '#' :: more) = some (vs, more) ∧
      wordsFrom vs = (reescape (wordsFrom us).1, (wordsFrom us).2.map reescape) := by
  fun_induction walk t generalizing us with
  | case1 => cases h
  | case2 t =>
    obtain ⟨rfl, rfl⟩ := Prod.mk.inj (Option.some.inj h)
    refine ⟨[], ?_, rfl⟩
    show walk ('#' :: more) = _
    rw [walk, if_pos rfl]
  | case3 c t hc ih =>
    obtain ⟨⟨us', r'⟩, hw, he⟩ := Option.map_eq_some_iff.mp h
    obtain ⟨rfl, rfl⟩ := Prod.mk.inj he
    obtain ⟨vs, hvs, hwords⟩ := ih hw
    have hfirst := firstUnit_nextUnit c t
    revert hfirst hw
    generalize (nextUnit c t).1 = u, (nextUnit c t).2 = rest
    intro hw hfirst
    cases hu : isBlankUnit u with
    | true =>
      -- of some blanks the last one is kept, as it stands in front of a word
      rw [rewritten_blank hu, wordsFrom, if_pos hu, map_consWord_reescape]
      by_cases hnil : (wordsFrom us').1 = []
      · rw [if_pos hnil]
        refine ⟨vs, hvs, ?_⟩
        rw [hwords, hnil]
        rfl
      · rw [if_neg hnil]
        refine ⟨[' '] :: vs, ?_, ?_⟩
        · rw [List.cons_append, walk_blank, hvs]
          rfl
        · rw [wordsFrom_blank, words, hwords]
          rfl
    | false =>
      have hrest : us'.flatten ++ '#' :: r' = rest := append_of_walk hw
      -- what follows the unit has the parentheses that followed it before, so it ends where it did
      have hbrackets : brackets (rewritten us' ++ '#' :: more) = brackets rest := by
        rw [← hrest, brackets_append, brackets_append, brackets_rewritten, brackets_cons rfl,
          brackets_cons rfl, hm]
      have hword : (wordsFrom us').1 <+: rest := by
        rw [← hrest]
        exact (infix_wordsFrom us').1.trans (List.prefix_append _ _)
      obtain ⟨v, hv, hnext⟩ := hfirst.reescape hc hbrackets
      have hblank : isBlankUnit (c :: v) = false := by
        rw [hnext.isBlankUnit_eq, ← hfirst.isBlankUnit_eq, hu]
      have hrewritten : rewritten (u :: us') = c :: v ++ rewritten us' := by
        rw [rewritten_cons hfirst hu hword, hv]
      refine ⟨(c :: v) :: vs, ?_, ?_⟩
      · rw [hrewritten, List.append_assoc, List.cons_append, walk_cons hc, hnext.nextUnit_eq, hvs]
        rfl
      · rw [wordsFrom_cons hblank, hwords, wordsFrom_cons hu, hfirst.reescape_append hword, hv]

theorem walk_words {t r : Text} {us : List Text} (h : walk t = some (us, r)) {more : Text}
    (hm : brackets more = brackets r) :
    ∃ vs, walk (Text.joinWords ((words us).map reescape) ++ '#' :: more) = some (vs, more) ∧
      words vs = (words us).map reescape := by
  obtain ⟨vs, hvs, hwords⟩ := walk_rewritten h hm
  have hmap : words vs = (words us).map reescape := by
    rw [words, words, map_consWord_reescape, hwords]
  rcases rewritten_eq_words us with hwritten | hwritten
  · exact ⟨vs, hwritten ▸ hvs, hmap⟩
  · -- the blank in front is a unit, and no part of a word
    rw [hwritten, List.cons_append, walk_blank] at hvs
    obtain ⟨⟨vs', r'⟩, hvs', he⟩ := Option.map_eq_some_iff.mp hvs
    obtain ⟨rfl, rfl⟩ := Prod.mk.inj he
    refine ⟨vs', hvs', ?_⟩
    rw [← hmap, words, words, wordsFrom_blank]
    rfl

/-! ## segments -/

namespace Segment

theorem write_ofUnits (us : List Text) :
    (ofUnits us).write = '#' :: (Text.joinWords ((words us).map reescape) ++ ['#']) := by
  unfold ofUnits Reference.ofUnits?
  cases words us with
  | nil => rfl
  | cons w ws =>
    show '#' :: Text.joinWords ((unescape w :: ws.map unescape).map escape) ++ ['#'] = _
    rw [List.map_cons, List.map_map]
    rfl

/-- units with the same words but for their escapes are the same segment -/
theorem ofUnits_congr {us vs : List Text} (h : words vs = (words us).map reescape) :
    ofUnits vs = ofUnits us := by
  have hwords : (words vs).map unescape = (words us).map unescape := by
    rw [h, List.map_map]
    exact congrArg (List.map · (words us)) (funext unescape_reescape)
  rw [ofUnits, ofUnits, Reference.ofUnits?, Reference.ofUnits?, hwords]

theorem write_ofUnits_append (us : List Text) (t : Text) : (ofUnits us).write ++ t =
    '#' :: (Text.joinWords ((words us).map reescape) ++ '#' :: t) := by
  rw [write_ofUnits, List.cons_append, List.append_assoc]
  rfl

theorem brackets_writeAll_consLiteral (c : Char) (ss : List Segment) :
    brackets (writeAll (consLiteral c ss)) = brackets [c] ++ brackets (writeAll ss) := by
  rw [writeAll_consLiteral, brackets_append, brackets_escape]

theorem scan_writeAll_consLiteral (c : Char) (ss : List Segment) :
    scan (writeAll (consLiteral c ss)) = consLiteral c (scan (writeAll ss)) := by
  rw [writeAll_consLiteral, scan_escape_append]
  rfl

theorem writeAll_unclosed (t : Text) : writeAll [.unclosed t] = '#' :: t := List.append_nil _

/-- writing the segments of a line moves no parenthesis -/
theorem brackets_writeAll_scan (t : Text) : brackets (writeAll (scan t)) = brackets t := by
  fun_induction scan t with
  | case1 => rfl
  | case2 t hw => rw [writeAll_unclosed]
  | case3 t us r hw ih =>
    have hwords : ((words us).map reescape).flatMap brackets = brackets us.flatten := by
      rw [flatMap_brackets_reescape, words, flatMap_brackets_consWord, flatMap_brackets_wordsFrom]
    have hhash : isBracket '#' = false := rfl
    rw [writeAll_cons, write_ofUnits_append, brackets_cons hhash, brackets_append,
      brackets_joinWords, hwords, brackets_cons hhash, ih, ← append_of_walk hw,
      brackets_cons hhash, brackets_append, brackets_cons hhash]
  | case4 c hc =>
    show brackets (escape [c] ++ []) = _
    rw [List.append_nil, brackets_escape]
  | case5 c hc d r h ih =>
    have hback : isBracket c = false := by
      rw [h.1]
      rfl
    rw [brackets_writeAll_consLiteral, ih, ← brackets_append, brackets_cons hback]
    rfl
  | case6 c hc d r h ih =>
    rw [brackets_writeAll_consLiteral, ih, ← brackets_append]
    rfl

end Segment

/-- **Scanning is a normal form**: a line whose segments are written out is scanned to the segments
that it was written from. -/
theorem Segment.scan_writeAll_scan (t : Text) : scan (writeAll (scan t)) = scan t := by
  fun_induction scan t with
  | case1 => exact scan_nil
  | case2 t hw => rw [writeAll_unclosed, scan_of_unended hw]
  | case3 t us r hw ih =>
    obtain ⟨vs, hvs, hwords⟩ := walk_words hw (brackets_writeAll_scan r)
    rw [writeAll_cons, write_ofUnits_append, scan_of_walk hvs, ofUnits_congr hwords, ih]
  | case4 c hc =>
    have halone : scan (writeAll (consLiteral c [])) = consLiteral c (scan []) :=
      scan_writeAll_consLiteral c []
    rwa [scan_nil] at halone
  | case5 c hc d r h ih =>
    rw [scan_writeAll_consLiteral, ih]
  | case6 c hc d r h ih =>
    rw [scan_writeAll_consLiteral, ih]

end Stencil
