import Stencil.Proofs.Grammar.Heads
import Stencil.Proofs.ReferenceEnds

/-!
# References and texts by the grammar

The rule for a reference reads the units up to the `#` that is reached first, and fails if none is
reached; the rule for a text reads references, escapes and literal text in between.

* `Grammar.reads_reference`, `Grammar.noReference`   the rule for a reference;
* `Reference.refers_iff`     the reference that a text is by the grammar;
* `Grammar.reads_text`       the parts of a text spell the segments that scanning gives;
* `Segment.scans_iff`        the segments of a text by the grammar;
* `Segment.scan_agrees`      where a reference ends, by the grammar and by scanning.
-/

namespace Stencil

namespace Grammar

open Expression Rule Reads

/-! ## references -/

def referenceUnit : Expression Rule := unitOr (rule specChar)

theorem wordRule_specifier : WordRule .specifier referenceUnit := by
  refine ⟨rfl, rfl, fun c t h => ?_⟩
  apply unitOr_of_none (head?_ne_of_isBlank h rfl t)
  · exact noEscapedPair (head?_ne_of_isBlank h rfl t)
  · exact .noRule (.noButNot (.left (reads_blank h t)))

theorem noReferenceUnit {t : Text} (h : ∀ c ∈ t.head?, c = '#') :
    template.Reads referenceUnit t none := by
  have hne {c : Char} (hc : '#' ≠ c) : t.head? ≠ some c := fun ht => hc (h c ht).symm
  have hblank : template.Reads (.rule .blank) t none :=
    noBlank fun c hc => by rw [h c hc]; rfl
  refine unitOr_of_none (hne (by decide)) (noEscapedPair (hne (by decide))) (.noRule ?_)
  cases t with
  | nil =>
    have hescaped := noEscaped (noEscapedPair (t := []) (by simp))
    exact .butNot_nil (.right hblank (.right (.noChar (by simp)) hescaped))
  | cons c t =>
    obtain rfl := h c rfl
    exact .noButNot (.right hblank (.left .char))

theorem reads_referenceUnit {c : Char} {t u r : Text} (h : FirstUnit c t u r) (hc : c ≠ '#')
    (hu : isBlankUnit u = false) :
    template.Reads referenceUnit (c :: t) (some ⟨u, [], r⟩) := by
  refine reads_unitOr h fun hchar hr hesc => ?_
  rw [hchar, isBlankUnit_singleton] at hu
  have hnone : template.Reads (.alt (.char '#') (.rule .escaped)) (c :: t) none :=
    .right (.noChar (by simp [hc])) (noEscaped hesc)
  rw [hchar, hr]
  exact .silent rfl (.butNot (.right (noBlank_cons hu t) hnone))

theorem unitByUnit_walk {t r : Text} {us : List Text} (h : walk t = some (us, r)) :
    UnitByUnit referenceUnit ('#' :: r) us := by
  fun_induction walk t generalizing us with
  | case1 => cases h
  | case2 t =>
    obtain ⟨rfl, rfl⟩ := Prod.mk.inj (Option.some.inj h)
    exact .nil (noReferenceUnit (by simp))
  | case3 c t hc ih =>
    obtain ⟨⟨us', r'⟩, hw, he⟩ := Option.map_eq_some_iff.mp h
    obtain ⟨rfl, rfl⟩ := Prod.mk.inj he
    refine .cons (fun hu => ?_) (ih hw)
    rw [append_of_walk hw, nextUnit_append]
    exact reads_referenceUnit (firstUnit_nextUnit c t) hc hu

/-- a text in which no `#` is reached has the units of a head -/
theorem unitByUnit_of_walk_eq_none {t : Text} (h : walk t = none) :
    UnitByUnit referenceUnit [] (argumentUnits t) := by
  fun_induction walk t with
  | case1 =>
    rw [argumentUnits]
    exact .nil (noReferenceUnit (by simp))
  | case2 t => cases h
  | case3 c t hc ih =>
    rw [argumentUnits_cons hc]
    refine .cons (fun hu => ?_) (ih (Option.map_eq_none_iff.mp h))
    rw [List.append_nil, flatten_argumentUnits, nextUnit_append]
    exact reads_referenceUnit (firstUnit_nextUnit c t) hc hu

theorem reads_reference {t r : Text} {us : List Text} {ws : List (List Text)}
    (h : walk t = some (us, r)) (hw : Spaced us ws) :
    template.Reads (.rule .reference) ('#' :: t)
      (some ⟨'#' :: (us.flatten ++ ['#']),
        [.mk .reference ('#' :: (us.flatten ++ ['#'])) (wordPairs .specifier ws)], r⟩) := by
  have hclose : template.Reads (.char '#') ('#' :: r) (some ⟨['#'], [], r⟩) := .char
  have hread := reads_spacedOut hw wordRule_specifier (unitByUnit_walk h) (by simp [Text.isBlank])
    hclose
  simp only [append_of_walk h, Option.map_some, Parsed.after, List.append_nil] at hread
  exact .pair rfl (.seq .char hread)

theorem noReference {t : Text} (h : walk t = none) :
    template.Reads (.rule .reference) ('#' :: t) none := by
  obtain ⟨ws, hws⟩ := exists_spaced (argumentUnits t)
  have hclose : template.Reads (.char '#') [] none := .noChar (by simp)
  have hread := reads_spacedOut hws wordRule_specifier (unitByUnit_of_walk_eq_none h) (by simp)
    hclose
  rw [List.append_nil, flatten_argumentUnits] at hread
  exact .noRule (.noSecond .char hread)

theorem noReference_of_head? {t : Text} (h : t.head? ≠ some '#') :
    template.Reads (.rule .reference) t none := .noRule (.noFirst (.noChar h))

end Grammar

namespace Reference

theorem ofPairs?_wordPairs {t r : Text} {us : List Text} {ws : List (List Text)}
    (h : walk t = some (us, r)) (hw : Spaced us ws) :
    ofPairs? (Grammar.wordPairs .specifier ws) = ofUnits? us := by
  have htexts : Pair.textsOf .specifier (Grammar.wordPairs .specifier ws) = words us := by
    rw [Grammar.textsOf_wordPairs, hw.words_eq (nil_notMem_of_walk h)]
  cases hs : (words us).map unescape with
  | nil => simp only [ofPairs?, ofUnits?, htexts, hs]
  | cons name specifiers => simp only [ofPairs?, ofUnits?, htexts, hs]

theorem exists_reads (t : Text) : ∃ o, Grammar.template.Reads (.rule .singleReference) t.trim o ∧
    ofParsed? o = read? t := by
  unfold read?
  cases t.trim with
  | nil => exact ⟨none, .noRule (.noFirst (Grammar.noReference_of_head? (by simp))), rfl⟩
  | cons c r =>
    by_cases hc : c = '#'
    · subst hc
      cases hw : walk r with
      | none => exact ⟨none, .noRule (.noFirst (Grammar.noReference hw)), by simp [ofParsed?, hw]⟩
      | some p =>
        obtain ⟨us, rest⟩ := p
        obtain ⟨ws, hws⟩ := exists_spaced us
        have hread := Grammar.reads_reference hw hws
        cases rest with
        | nil =>
          refine ⟨_, .pair rfl (.seq hread Grammar.reads_endOfInput), ?_⟩
          simpa [ofParsed?, hw] using ofPairs?_wordPairs hw hws
        | cons d rest =>
          exact ⟨none, .noRule (.noSecond hread (Grammar.noEndOfInput d rest)),
            by simp [ofParsed?, hw]⟩
    · exact ⟨none, .noRule (.noFirst (Grammar.noReference_of_head? (by simp [hc]))),
        by simp [ofParsed?, hc]⟩

/-- **The reference that a text is by the grammar** is what is read from it, and no other -/
theorem refers_iff {t : Text} {r? : Option Reference} : Refers t r? ↔ read? t = r? := by
  obtain ⟨o, ho, hr⟩ := exists_reads t
  constructor
  · rintro ⟨o', ho', rfl⟩
    rw [ho'.unique ho, hr]
  · rintro rfl
    exact ⟨o, ho, hr⟩

end Reference

/-! ## texts -/

namespace Segment

theorem joinLiteral_singleton (c : Char) (ss : List Segment) :
    joinLiteral [c] ss = consLiteral c ss := by
  cases ss with
  | nil => rfl
  | cons s ss => cases s <;> rfl

theorem joinLiteral_cons (c : Char) (t : Text) (ss : List Segment) :
    joinLiteral (c :: t) ss = consLiteral c (joinLiteral t ss) := by
  cases ss with
  | nil => rfl
  | cons s ss => cases s <;> rfl

theorem joinLiteral_eq_foldr {t : Text} (h : t ≠ []) (ss : List Segment) :
    joinLiteral t ss = t.foldr consLiteral ss := by
  induction t with
  | nil => exact absurd rfl h
  | cons c t ih =>
    cases t with
    | nil => exact joinLiteral_singleton c ss
    | cons d t =>
      have hrest := ih (List.cons_ne_nil d t)
      exact (joinLiteral_cons c (d :: t) ss).trans (congrArg (consLiteral c) hrest)

theorem ofUnits_eq_elim (us : List Text) :
    ofUnits us = (Reference.ofUnits? us).elim empty reference := by
  unfold ofUnits
  cases Reference.ofUnits? us with
  | none => rfl
  | some r => rfl

end Segment

namespace Grammar

open Expression Rule Reads

def textPart : Expression Rule :=
  .alt (.rule .escape) (.alt (.rule .reference) (.alt (.rule .unclosed) (.rule .literal)))

def literalChar : Expression Rule := butNot (.alt (.char '#') (.rule .escaped))

/-- how a text starts, by the rule that reads it there -/
inductive Starts : Text → Prop
  | atEnd : Starts []
  | hash (r : Text) : Starts ('#' :: r)
  | escape {d : Char} (r : Text) (h : needsEscape d = true) : Starts ('\\' :: d :: r)
  | literal {c : Char} {r : Text} (hc : c ≠ '#')
      (he : c = '\\' → ∀ d ∈ r.head?, needsEscape d = false) : Starts (c :: r)

theorem starts (t : Text) : Starts t := by
  cases t with
  | nil => exact .atEnd
  | cons c r =>
    by_cases hc : c = '#'
    · exact hc ▸ .hash r
    · by_cases he : c = '\\' → ∀ d ∈ r.head?, needsEscape d = false
      · exact .literal hc he
      · simp only [not_forall, Bool.not_eq_false] at he
        obtain ⟨rfl, d, hd, hn⟩ := he
        obtain ⟨r, rfl⟩ := List.head?_eq_some_iff.mp hd
        exact .escape r hn

section
variable {c : Char} {t : Text} (hc : c ≠ '#')
  (he : c = '\\' → ∀ d ∈ t.head?, needsEscape d = false)
include hc he

theorem noEscapedPair_of_starts : template.Reads escapedPair (c :: t) none := by
  by_cases hb : c = '\\'
  · subst hb
    exact noEscapedPair_backslash (he rfl)
  · exact noEscapedPair (by simp [hb])

theorem reads_literalChar : template.Reads literalChar (c :: t) (some ⟨[c], [], t⟩) :=
  .butNot (.right (.noChar (by simp [hc])) (noEscaped (noEscapedPair_of_starts hc he)))

end

theorem reads_literals (t : Text) : ∃ s r : Text, t = s ++ r ∧
    template.Reads (.many literalChar) t (some ⟨s, [], r⟩) ∧
    Segment.scan t = s.foldr Segment.consLiteral (Segment.scan r) := by
  induction t with
  | nil =>
    have hescaped := noEscaped (noEscapedPair (t := []) (by simp))
    exact ⟨[], [], rfl, .stop (.butNot_nil (.right (.noChar (by simp)) hescaped)), rfl⟩
  | cons c t ih =>
    obtain ⟨s, r, htext, hread, hscan⟩ := ih
    cases starts (c :: t) with
    | hash => exact ⟨[], _, rfl, .stop (.noButNot (.left .char)), rfl⟩
    | escape r h =>
      exact ⟨[], _, rfl, .stop (.noButNot (.right (.noChar (by simp)) (reads_escaped h))), rfl⟩
    | literal hc he =>
      refine ⟨c :: s, r, congrArg (c :: ·) htext, (reads_literalChar hc he).more hread, ?_⟩
      rw [Segment.scan_single hc he, hscan]
      rfl

theorem reads_any (t : Text) : template.Reads (.many .any) t (some ⟨t, [], []⟩) := by
  induction t with
  | nil => exact .stop .noAny
  | cons c t ih => exact Reads.any.more ih

/-- the parts of a text spell the segments that scanning gives -/
def Spells (t : Text) : Prop :=
  ∃ ps, template.Reads (.many textPart) t (some ⟨t, ps, []⟩) ∧ Segment.ofPairs ps = Segment.scan t

theorem spells_nil : Spells [] := by
  have hescape : template.Reads (.rule .escape) [] none := .noRule (noEscapedPair (by simp))
  have hunclosed : template.Reads (.rule .unclosed) [] none :=
    .noRule (.noFirst (.noChar (by simp)))
  have hescaped := noEscaped (noEscapedPair (t := []) (by simp))
  have hliteral : template.Reads (.rule .literal) [] none :=
    .noRule (.noFirst (.butNot_nil (.right (.noChar (by simp)) hescaped)))
  have hpart : template.Reads textPart [] none :=
    .right hescape (.right (noReference_of_head? (by simp)) (.right hunclosed hliteral))
  refine ⟨[], .stop hpart, ?_⟩
  rw [Segment.scan_nil]
  rfl

theorem Spells.more {t s r : Text} {p : Pair Rule} (h : Spells r)
    (hpart : template.Reads textPart t (some ⟨s, [p], r⟩))
    (hscan : ∀ ps, Segment.ofPairs ps = Segment.scan r →
      Segment.ofPairs (p :: ps) = Segment.scan t) : Spells t := by
  obtain ⟨ps, hps, hs⟩ := h
  have hmore := hpart.more hps
  rw [show s ++ r = t from hpart.append] at hmore
  exact ⟨p :: ps, hmore, hscan ps hs⟩

theorem spells_hash {r : Text} (ih : ∀ s : Text, s.length ≤ r.length → Spells s) :
    Spells ('#' :: r) := by
  have hescape : template.Reads (.rule .escape) ('#' :: r) none :=
    .noRule (noEscapedPair (by simp))
  cases hw : walk r with
  | none =>
    have hunclosed := Reads.pair (n := .unclosed) (G := template) rfl (.seq .char (reads_any r))
    have hpart : template.Reads textPart ('#' :: r) _ :=
      .right hescape (.right (noReference hw) (.left hunclosed))
    refine spells_nil.more hpart fun ps hps => ?_
    rw [Segment.scan_of_unended hw]
    show .unclosed r :: Segment.ofPairs ps = _
    rw [hps, Segment.scan_nil]
  | some p =>
    obtain ⟨us, rest⟩ := p
    obtain ⟨ws, hws⟩ := exists_spaced us
    have hlength := length_of_walk hw
    have hrest := ih rest (by omega)
    refine hrest.more (.right hescape (.left (reads_reference hw hws))) fun ps hps => ?_
    rw [Segment.scan_of_walk hw, ← hps, Segment.ofUnits_eq_elim,
      ← Reference.ofPairs?_wordPairs hw hws]
    rfl

theorem spells_literal {c : Char} {r : Text} (ih : ∀ s : Text, s.length ≤ r.length → Spells s)
    (hc : c ≠ '#') (he : c = '\\' → ∀ d ∈ r.head?, needsEscape d = false) : Spells (c :: r) := by
  obtain ⟨s, rest, htext, hread, hscan⟩ := reads_literals r
  have hescape : template.Reads (.rule .escape) (c :: r) none :=
    .noRule (noEscapedPair_of_starts hc he)
  have hunclosed : template.Reads (.rule .unclosed) (c :: r) none :=
    .noRule (.noFirst (.noChar (by simp [hc])))
  have hliteral := Reads.pair (n := .literal) (G := template) rfl
    (.seq (reads_literalChar hc he) hread)
  have hpart : template.Reads textPart (c :: r) _ :=
    .right hescape (.right (noReference_of_head? (by simp [hc])) (.right hunclosed hliteral))
  refine (ih rest (by simp [htext])).more hpart fun ps hps => ?_
  rw [Segment.scan_single hc he, hscan, ← hps]
  exact Segment.joinLiteral_eq_foldr (List.cons_ne_nil c s) _

theorem spells (t : Text) : Spells t := by
  -- a reference and a piece of literal text are passed over as a whole
  induction hn : t.length using Nat.strong_induction_on generalizing t with
  | h n ih =>
    subst hn
    cases starts t with
    | atEnd => exact spells_nil
    | hash r => exact spells_hash fun s hs => ih _ (Nat.lt_succ_of_le hs) s rfl
    | escape r h =>
      have hpair := Reads.pair (n := .escape) (G := template) rfl (reads_escapedPair (r := r) h)
      have hrest := ih r.length (by simp) r rfl
      refine hrest.more (.left hpair) fun ps hps => ?_
      rw [Segment.scan_escape_cons _ h, ← hps]
      exact Segment.joinLiteral_singleton _ _
    | literal hc he => exact spells_literal (fun s hs => ih _ (Nat.lt_succ_of_le hs) s rfl) hc he

theorem reads_text (t : Text) : ∃ ps, template.Reads (.rule .text) t
    (some ⟨t, [.mk .text t (ps ++ [.mk .endOfInput [] []])], []⟩) ∧
      Segment.ofPairs ps = Segment.scan t := by
  obtain ⟨ps, hps, hscan⟩ := spells t
  have hread := hps.seq reads_endOfInput
  rw [List.append_nil] at hread
  exact ⟨ps, .pair rfl hread, hscan⟩

end Grammar

namespace Segment

theorem ofPairs_concat_endOfInput (ps : List (Pair Rule)) :
    ofPairs (ps ++ [.mk .endOfInput [] []]) = ofPairs ps := by
  induction ps with
  | nil => rfl
  | cons p ps ih =>
    cases p with
    | mk n t inner => cases n <;> simp only [List.cons_append, ofPairs, ih]

/-- **The segments of a text by the grammar** are what scanning gives, and no others -/
theorem scans_iff {t : Text} {ss : List Segment} : Scans t ss ↔ scan t = ss := by
  obtain ⟨ps, hread, hscan⟩ := Grammar.reads_text t
  have hsegments := (ofPairs_concat_endOfInput ps).trans hscan
  constructor
  · rintro ⟨o, ho, rfl⟩
    rw [ho.unique hread]
    exact hsegments.symm
  · rintro rfl
    exact ⟨_, hread, hsegments⟩

/-- a parenthesis without a partner hides no `#`, one with a partner does -/
example : Scans "#a(#b#(#)".toList
    [.reference ⟨"a(".toList, []⟩, .literal "b".toList, .unclosed "(#)".toList] :=
  scans_iff.mpr (by decide +kernel)

/-- **Where a reference ends**: by the grammar and by scanning alike, a reference goes up to the `#`
that is reached first, the runs between its blanks are its words, and all that stands between
references is literal -/
theorem scan_agrees (t : Text) (ss : List Segment) :
    (Scans t ss ↔ Scanned t ss) ∧ (scan t = ss ↔ Scanned t ss) :=
  ⟨scans_iff.trans scanned_iff.symm, scanned_iff.symm⟩

end Segment

end Stencil
