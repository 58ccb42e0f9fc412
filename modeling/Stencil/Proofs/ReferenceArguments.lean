import Stencil.Proofs.Grammar.References

/-!
# References as arguments

A reference is read in three places: in a line of text, in the head of a command, where it is an
argument or a part of one, and alone, as the operand of a command.  It is the same reference in each,
whatever stands next to it, as long as its parentheses match one another.

* `Text.IsReference`     a text that is one reference, with matching parentheses;
* `Text.IsBareWord`      a word without parentheses and without `#`;
* `Text.StandsAlone`     a text whose units do not depend on what stands behind it;
* `Reference.read?_of_scan`        a reference read alone;
* `splitArguments_references`      references and bare words as the arguments of a head.
-/

namespace Stencil

/-- a text that is one reference, and whose parentheses match one another -/
def Text.IsReference (t : Text) : Prop := (∃ r, Segment.scan t = [.reference r]) ∧ t.Nested

/-- a word without blanks, without parentheses and without `#` -/
def Text.IsBareWord (t : Text) : Prop :=
  t ≠ [] ∧ ∀ c ∈ t, Text.isBlank c = false ∧ c ≠ '#' ∧ c ≠ '(' ∧ c ≠ ')'

instance (t : Text) : Decidable t.IsBareWord :=
  @instDecidableAnd _ _ inferInstance (List.decidableBAll _ t)

/-! ## a reference alone -/

theorem Segment.exists_walk_of_scan {t : Text} {r : Reference} (h : scan t = [.reference r]) :
    ∃ s us, t = '#' :: s ∧ walk s = some (us, []) ∧ Reference.ofUnits? us = some r := by
  have hscanned := scanned_iff.mpr h
  generalize hss : [Segment.reference r] = ss at hscanned
  cases hscanned with
  | done => cases hss
  | literal => cases hss
  | unclosed => cases hss
  | empty => cases hss
  | @reference s rest us name specifiers ss hr hw hrest =>
    obtain ⟨hfirst, hnil⟩ := List.cons.inj hss
    rw [← hnil] at hrest
    have hwalk := reaches_iff.mp hr
    obtain rfl : rest = [] := by
      generalize hnil' : ([] : List Segment) = ss' at hrest
      cases hrest with
      | done => rfl
      | _ => cases hnil'
    refine ⟨s, us, rfl, hwalk, ?_⟩
    rw [Reference.ofUnits?, hw.words_eq (nil_notMem_of_walk hwalk), List.map_map, List.map_cons]
    rw [Segment.reference.inj hfirst]
    rfl

theorem Reference.read?_of_scan {t : Text} {r : Reference} (h : Segment.scan t = [.reference r]) :
    read? t = some r := by
  obtain ⟨s, us, rfl, hw, hr⟩ := Segment.exists_walk_of_scan h
  have hends : Text.trim ('#' :: s) = '#' :: s := by
    rw [← append_of_walk hw]
    exact Text.trim_concat (by decide) (by decide) us.flatten
  unfold read?
  rw [hends]
  simp only [hw, hr, if_true]

/-! ## in front of another text -/

/-- a text, its units no blanks, whose units do not depend on what stands behind it -/
structure Text.StandsAlone (t : Text) : Prop where
  ne_nil : t ≠ []
  noBlank : ∀ u ∈ argumentUnits t, isBlankUnit u = false
  append : ∀ more : Text, (∀ d ∈ more.head?, needsEscape d = false) →
    argumentUnits (t ++ more) = argumentUnits t ++ argumentUnits more

theorem Text.IsBareWord.standsAlone {t : Text} (h : t.IsBareWord) : t.StandsAlone := by
  refine ⟨h.1, fun u hu => ?_, fun more hm => ?_⟩
  · refine Bool.eq_false_iff.mpr fun hblank => ?_
    obtain ⟨c, rfl, hc⟩ := isBlankUnit_iff.mp hblank
    have hmem : c ∈ (argumentUnits t).flatten := List.mem_flatten.mpr ⟨[c], hu, by simp⟩
    rw [flatten_argumentUnits] at hmem
    rw [(h.2 c hmem).1] at hc
    cases hc
  · have hchars := h.2
    clear h
    fun_induction argumentUnits t with
    | case1 => rfl
    | case2 t us r hw ih => exact absurd rfl (hchars '#' List.mem_cons_self).2.1
    | case3 t hw ih => exact absurd rfl (hchars '#' List.mem_cons_self).2.1
    | case4 c t hc ih =>
      have htext := nextUnit_append c t
      have hfirst := firstUnit_nextUnit c t
      generalize (nextUnit c t).1 = u, (nextUnit c t).2 = r at htext hfirst ih
      have hopen : u = ['('] → splitGroup 0 r = none → splitGroup 0 (r ++ more) = none := by
        rintro rfl
        obtain ⟨rfl, -⟩ := List.cons.inj htext
        exact absurd rfl (hchars '(' List.mem_cons_self).2.2.1
      have hrest : ∀ d ∈ r, Text.isBlank d = false ∧ d ≠ '#' ∧ d ≠ '(' ∧ d ≠ ')' := by
        intro d hd
        exact hchars d (htext ▸ List.mem_append_right u hd)
      rw [List.cons_append, argumentUnits_cons hc, (hfirst.append_behind hopen hm).nextUnit_eq,
        ih hrest]
      rfl

/-- a reference with matching parentheses ends at its `#` whatever stands behind it -/
theorem walk_append_of_nested {t : Text} {us : List Text} (h : walk t = some (us, []))
    (ht : Text.Nested ('#' :: t)) (more : Text) : walk (t ++ more) = some (us, more) := by
  have htext := append_of_walk h
  rw [← htext, List.append_assoc]
  refine walk_exchange h fun s ⟨p, hp⟩ hnone => ?_
  -- each parenthesis has a partner in front of the last `#`
  have hsuffix : Text.Nested (('#' :: p) ++ '(' :: (s ++ ['#'])) := by
    rw [← htext, ← hp] at ht
    simpa using ht
  obtain ⟨depth, hdepth⟩ := Text.NestedIn.of_append hsuffix
  have hsome : (splitGroup 0 (s ++ ['#'])).isSome :=
    isSome_splitGroup_of_nestedIn (Text.nestedIn_open.mp hdepth)
  rw [hnone] at hsome
  cases hsome

theorem Text.IsReference.standsAlone {t : Text} (h : t.IsReference) : t.StandsAlone := by
  obtain ⟨⟨r, hr⟩, hnested⟩ := h
  obtain ⟨s, us, rfl, hw, -⟩ := Segment.exists_walk_of_scan hr
  have htext : '#' :: us.flatten ++ ['#'] = '#' :: s := by
    rw [← append_of_walk hw]
    rfl
  have hunits (more : Text) : argumentUnits ('#' :: s ++ more) = ('#' :: s) :: argumentUnits more := by
    rw [List.cons_append, argumentUnits_reference (walk_append_of_nested hw hnested more), htext]
  have halone : argumentUnits ('#' :: s) = ['#' :: s] := by
    have hnil := hunits []
    rwa [List.append_nil, argumentUnits] at hnil
  refine ⟨List.cons_ne_nil _ _, ?_, fun more _ => ?_⟩
  · rw [halone]
    exact List.forall_mem_singleton.mpr (by simp [isBlankUnit])
  · rw [hunits, halone]
    rfl

/-! ## arguments -/

theorem argumentUnits_respaced_standsAlone {as : List Text} (h : ∀ a ∈ as, a.StandsAlone) :
    argumentUnits (respaced (as.map argumentUnits)).flatten = respaced (as.map argumentUnits) := by
  induction as with
  | nil =>
    show argumentUnits [] = []
    rw [argumentUnits]
  | cons a as ih =>
    have hfirst : ∀ d ∈ (respaced (as.map argumentUnits)).flatten.head?, needsEscape d = false :=
      fun d hd => head?_flatten_respaced _ d hd ▸ rfl
    rw [List.map_cons, respaced_cons, List.flatten_cons, List.flatten_append,
      flatten_argumentUnits]
    have hrest := (h a List.mem_cons_self).append _ hfirst
    rw [ih fun b hb => h b (List.mem_cons_of_mem a hb)] at hrest
    exact (argumentUnits_blank _).trans (congrArg _ hrest)

theorem splitArguments_standsAlone {as : List Text} (h : ∀ a ∈ as, a.StandsAlone) :
    splitArguments (Text.joinWords as) = as := by
  have hflat : (as.map argumentUnits).map List.flatten = as := by
    rw [List.map_map]
    exact (List.map_congr_left fun a _ => flatten_argumentUnits a).trans (List.map_id as)
  have hwords : ∀ w ∈ as.map argumentUnits,
      w.flatten ≠ [] ∧ ∀ u ∈ w, isBlankUnit u = false := by
    intro w hw
    obtain ⟨a, ha, rfl⟩ := List.mem_map.mp hw
    rw [flatten_argumentUnits]
    exact ⟨(h a ha).ne_nil, (h a ha).noBlank⟩
  have hsplit := splitArguments_joinWords_of_respaced hwords (argumentUnits_respaced_standsAlone h)
  rwa [hflat] at hsplit

/-- **The readers of references agree**: references with matching parentheses and bare words, with one
blank between neighbours, are split into themselves, and a text that is one reference in a line is
read as the same reference alone; and so it is by the three rules of the grammar. -/
theorem splitArguments_references {as : List Text} (h : ∀ a ∈ as, a.IsReference ∨ a.IsBareWord) :
    (splitArguments (Text.joinWords as) = as ∧
      ∀ a ∈ as, ∀ r, Segment.scan a = [.reference r] → Reference.read? a = some r) ∧
    Head.Splits (Text.joinWords as) as ∧
      ∀ a ∈ as, ∀ r, Segment.Scans a [.reference r] → Reference.Refers a (some r) := by
  have hsplit : splitArguments (Text.joinWords as) = as := by
    refine splitArguments_standsAlone fun a ha => ?_
    rcases h a ha with h | h
    · exact h.standsAlone
    · exact h.standsAlone
  refine ⟨⟨hsplit, fun a _ r hr => Reference.read?_of_scan hr⟩, Head.splits_iff.mpr hsplit, ?_⟩
  intro a _ r hr
  exact Reference.refers_iff.mpr (Reference.read?_of_scan (Segment.scans_iff.mp hr))

/-- a reference with a reference, blanks and an escape in it, between words with backslashes -/
theorem splitArguments_references_nested :
    Segment.scan "#items at( #i# )\\##".toList =
        [.reference ⟨"items".toList, ["at( #i# )#".toList]⟩] ∧
      Text.Nested "#items at( #i# )\\##".toList ∧ Text.IsBareWord "\\".toList ∧
      splitArguments "\\ #items at( #i# )\\## \\".toList =
        ["\\".toList, "#items at( #i# )\\##".toList, "\\".toList] ∧
      Reference.read? "#items at( #i# )\\##".toList =
        some ⟨"items".toList, ["at( #i# )#".toList]⟩ := by
  have hscan : Segment.scan "#items at( #i# )\\##".toList =
      [.reference ⟨"items".toList, ["at( #i# )#".toList]⟩] := by decide +kernel
  have hnested : Text.Nested "#items at( #i# )\\##".toList := by decide +kernel
  have hword : Text.IsBareWord "\\".toList := by decide
  have hargs : ∀ a ∈ ["\\".toList, "#items at( #i# )\\##".toList, "\\".toList],
      Text.IsReference a ∨ Text.IsBareWord a := by
    simp only [List.forall_mem_cons]
    exact ⟨.inr hword, .inl ⟨⟨_, hscan⟩, hnested⟩, .inr hword, List.forall_mem_nil _⟩
  obtain ⟨⟨hsplit, hread⟩, -⟩ := splitArguments_references hargs
  exact ⟨hscan, hnested, hword, hsplit, hread _ (by simp) _ hscan⟩

end Stencil
