import Stencil.Proofs.ReferenceArguments

/-!
# References that can be written

Between two `#`, texts with one blank between neighbours are the words of a reference, if each of them
is walked in units that do not depend on what stands behind it.  Written with its escapes, a text is
such a word if its parentheses match one another and its blanks stand inside them.

* `Text.Solid`            a text that is a part of one word, whatever stands behind it;
* `walk_joinWords`, `Segment.scan_joinWords`   such texts between two `#`;
* `Text.BlanksInside`     a text with blanks inside parentheses only;
* `Text.solid_escape`     such a text written with its escapes;
* `Text.Writable`         what can be a word of a reference;
* `Reference.read_written`   a reference written as text and read.
-/

namespace Stencil

/-! ## texts in one piece -/

/-- a text that is walked in units that are no blanks, and in the same ones whatever stands behind -/
def Text.Solid (t : Text) : Prop :=
  ∃ us : List Text, us.flatten = t ∧ (∀ u ∈ us, isBlankUnit u = false) ∧
    ∀ more, walk (t ++ more) = (walk more).map fun (vs, r) => (us ++ vs, r)

theorem flatten_characters (t : Text) : (characters t).flatten = t := by
  induction t with
  | nil => rfl
  | cons c t ih => rw [characters_cons, List.flatten_cons, ih]; rfl

namespace Text

theorem Solid.append {s t : Text} (hs : s.Solid) (ht : t.Solid) : (s ++ t).Solid := by
  obtain ⟨us, rfl, hus, hwalk⟩ := hs
  obtain ⟨vs, rfl, hvs, hwalk'⟩ := ht
  refine ⟨us ++ vs, List.flatten_append, List.forall_mem_append.mpr ⟨hus, hvs⟩, fun more => ?_⟩
  rw [List.append_assoc, hwalk, hwalk', Option.map_map]
  simp only [Function.comp_def, List.append_assoc]

theorem solid_of_chars {t : Text} (h : ∀ c ∈ t, isSpecial c = false) : t.Solid := by
  refine ⟨characters t, flatten_characters t, fun u hu => ?_, walk_plain_append h⟩
  obtain ⟨c, hc, rfl⟩ := List.mem_map.mp hu
  exact isBlankUnit_of_isSpecial (h c hc)

/-- what is one unit in front of every text is solid, if it is no blank -/
theorem solid_of_firstUnit {c : Char} {v : Text} (hc : c ≠ '#')
    (hu : isBlankUnit (c :: v) = false) (h : ∀ more, FirstUnit c (v ++ more) (c :: v) more) :
    Solid (c :: v) := by
  refine ⟨[c :: v], List.append_nil _, List.forall_mem_singleton.mpr hu, fun more => ?_⟩
  rw [List.cons_append, walk_cons hc, (h more).nextUnit_eq]
  rfl

theorem solid_pair {d : Char} (h : needsEscape d = true) : Solid ['\\', d] :=
  solid_of_firstUnit (by decide) rfl fun _ => .escape h

theorem solid_group {g : Text} (h : Closes 0 g) : Solid ('(' :: g) :=
  solid_of_firstUnit (by decide) rfl fun more => .group (h.splitGroup_append more)

end Text

/-! ## words between two `#` -/

theorem walk_joinWords {ws : List Text} (h : ∀ w ∈ ws, w ≠ [] ∧ w.Solid) (more : Text) :
    ∃ us, walk (Text.joinWords ws ++ '#' :: more) = some (us, more) ∧ words us = ws := by
  induction ws with
  | nil => exact ⟨[], by show walk ('#' :: more) = _; rw [walk, if_pos rfl], rfl⟩
  | cons w ws ih =>
    obtain ⟨hw, us, rfl, hus, hwalk⟩ := h w List.mem_cons_self
    obtain ⟨vs, hvs, hwords⟩ := ih fun v hv => h v (List.mem_cons_of_mem _ hv)
    cases ws with
    | nil =>
      refine ⟨us ++ [], ?_, words_append hw hus fun u hu => absurd hu (by simp)⟩
      rw [Text.joinWords_singleton, hwalk, walk, if_pos rfl]
      rfl
    | cons v ws =>
      refine ⟨us ++ [' '] :: vs, ?_, ?_⟩
      · rw [Text.joinWords_cons_cons, List.append_assoc, hwalk, List.cons_append, walk_blank, hvs]
        rfl
      · have hblank : ∀ u ∈ ([' '] :: vs).head?, isBlankUnit u = true :=
          fun u hu => Option.some.inj hu ▸ rfl
        rw [words_append hw hus hblank, words_cons_blank rfl, hwords]

/-- a reference whose words are solid texts, with its escapes resolved, in front of any text -/
theorem Segment.scan_joinWords_append {name : Text} {specifiers : List Text}
    (h : ∀ w ∈ name :: specifiers, w ≠ [] ∧ w.Solid) (more : Text) :
    scan ('#' :: (Text.joinWords (name :: specifiers) ++ '#' :: more)) =
      .reference ⟨unescape name, specifiers.map unescape⟩ :: scan more := by
  obtain ⟨us, hwalk, hwords⟩ := walk_joinWords h more
  rw [scan_of_walk hwalk, ofUnits, Reference.ofUnits?, hwords]
  rfl

theorem Segment.scan_joinWords {name : Text} {specifiers : List Text}
    (h : ∀ w ∈ name :: specifiers, w ≠ [] ∧ w.Solid) :
    scan ('#' :: (Text.joinWords (name :: specifiers) ++ ['#'])) =
      [.reference ⟨unescape name, specifiers.map unescape⟩] := by
  rw [scan_joinWords_append h, scan_nil]

/-! ## texts written with their escapes -/

namespace Text

/-- a text each blank of which stands inside parentheses -/
def BlanksInside (t : Text) : Prop :=
  ∀ p, p <+: t → ∀ c ∈ p.getLast?, isBlank c = true → p.count ')' < p.count '('

instance (t : Text) : Decidable t.BlanksInside :=
  decidable_of_iff (∀ p ∈ t.inits, p.getLast?.any isBlank = true → p.count ')' < p.count '(') <| by
    refine forall_congr' fun p => ?_
    rw [List.mem_inits, Option.any_eq_true]
    exact forall_congr' fun _ => ⟨fun h c hc hb => h ⟨c, hc, hb⟩, fun h ⟨c, hc, hb⟩ => h c hc hb⟩

theorem BlanksInside.of_append {s t : Text} (hs : s.Nested) (h : (s ++ t).BlanksInside) :
    t.BlanksInside := by
  intro p hp c hc hblank
  have hne : p ≠ [] := by
    rintro rfl
    cases hc
  have hlast : c ∈ (s ++ p).getLast? := by rwa [List.getLast?_append_of_ne_nil _ hne]
  have hcount := h (s ++ p) ((List.prefix_append_right_inj s).mpr hp) c hlast hblank
  have hlevel := hs.level
  rw [List.count_append, List.count_append] at hcount
  omega

theorem not_blanksInside_cons {c : Char} {t : Text} (hc : isBlank c = true) :
    ¬BlanksInside (c :: t) := by
  intro h
  have hcount := h [c] (List.prefix_append [c] t) c rfl hc
  simp only [isBlank, Bool.or_eq_true, beq_iff_eq] at hc
  rcases hc with rfl | rfl <;> exact absurd hcount (by decide)

theorem nested_singleton {c : Char} (h : isBracket c = false) : Nested [c] :=
  nested_of_chars (List.forall_mem_singleton.mpr h)

theorem nested_group {g : Text} (h : Closes 0 g) : Nested ('(' :: g) := by
  obtain ⟨s, rfl, hs⟩ := h.exists_nestedIn
  refine nestedIn_open.mpr ((nestedIn_append hs).mpr ?_)
  exact nestedIn_close.mpr (nestedIn_nil.mpr rfl)

/-- **Written with its escapes, a text is in one piece**, if its parentheses match one another and
its blanks stand inside them; by induction on its length, as a group goes in one step -/
theorem solid_escape {t : Text} (hn : t.Nested) (hb : t.BlanksInside) : (escape t).Solid := by
  induction h : t.length using Nat.strongRecOn generalizing t with
  | ind n ih =>
    have behind {s r : Text} (ht : t = s ++ r) (hne : s ≠ []) (hs : s.Nested) :
        (escape r).Solid := by
      subst ht
      have hlength := List.length_pos_iff.mpr hne
      rw [List.length_append] at h
      exact ih r.length (by omega) ((nestedIn_append hs).mp hn) (hb.of_append hs) rfl
    cases t with
    | nil => exact solid_of_chars fun c hc => absurd hc List.not_mem_nil
    | cons c r =>
      by_cases he : needsEscape c = true
      · have hr := behind (s := [c]) rfl (List.cons_ne_nil _ _)
          (nested_singleton (isBracket_of_needsEscape he))
        rw [escape, if_pos he]
        exact (solid_pair he).append hr
      by_cases ho : c = '('
      · subst ho
        have hsome : (splitGroup 0 r).isSome :=
          isSome_splitGroup_of_nestedIn (nestedIn_open.mp hn)
        obtain ⟨⟨g, r'⟩, hg⟩ := Option.isSome_iff_exists.mp hsome
        obtain rfl := append_of_splitGroup hg
        have hr := behind (s := '(' :: g) rfl (List.cons_ne_nil _ _)
          (nested_group (closes_of_splitGroup hg))
        rw [escape, if_neg he, escape_append]
        exact (solid_group (closes_of_splitGroup hg).escape).append hr
      by_cases hc : c = ')'
      · subst hc
        exact absurd hn not_nested_close
      by_cases hblank : isBlank c = true
      · exact absurd hb (not_blanksInside_cons hblank)
      · have hr := behind (s := [c]) rfl (List.cons_ne_nil _ _)
          (nested_singleton (by simp [isBracket, ho, hc]))
        rw [escape, if_neg he]
        refine (solid_of_chars (t := [c]) (List.forall_mem_singleton.mpr ?_)).append hr
        simp [isSpecial, hblank, he, ho, hc]

/-- a text that can be a word of a reference: it is not empty, its parentheses match one another, and
its blanks stand inside them -/
structure Writable (t : Text) : Prop where
  ne_nil : t ≠ []
  nested : t.Nested
  blanks : t.BlanksInside

instance (t : Text) : Decidable t.Writable :=
  decidable_of_iff (t ≠ [] ∧ t.Nested ∧ t.BlanksInside)
    ⟨fun h => ⟨h.1, h.2.1, h.2.2⟩, fun h => ⟨h.ne_nil, h.nested, h.blanks⟩⟩

theorem escape_ne_nil {t : Text} (h : t ≠ []) : escape t ≠ [] := by
  cases t with
  | nil => exact absurd rfl h
  | cons c t =>
    rw [escape]
    split <;> exact List.cons_ne_nil _ _

theorem Writable.escape_word {t : Text} (h : t.Writable) : escape t ≠ [] ∧ (escape t).Solid :=
  ⟨escape_ne_nil h.ne_nil, solid_escape h.nested h.blanks⟩

end Text

/-! ## references -/

namespace Reference

theorem scan_write {r : Reference} (h : ∀ w ∈ r.name :: r.specifiers, w.Writable) :
    Segment.scan r.write = [.reference r] := by
  have hwords : ∀ w ∈ escape r.name :: r.specifiers.map escape, w ≠ [] ∧ w.Solid := by
    rw [← List.map_cons, List.forall_mem_map]
    exact fun w hw => (h w hw).escape_word
  have hmap : (r.specifiers.map escape).map unescape = r.specifiers := by
    rw [List.map_map]
    exact (List.map_congr_left fun w _ => unescape_escape w).trans (List.map_id _)
  have hscan := Segment.scan_joinWords hwords
  rwa [unescape_escape, hmap] at hscan

/-- **Every reference can be written**: a reference whose words have matching parentheses, and blanks
inside them only, is read back from its text, alone as well as in a line; and so it is by the rules
of the grammar. -/
theorem read_written {r : Reference} (h : ∀ w ∈ r.name :: r.specifiers, w.Writable) :
    (read? r.write = some r ∧ Segment.scan r.write = [.reference r]) ∧
      Refers r.write (some r) ∧ Segment.Scans r.write [.reference r] := by
  have hscan := scan_write h
  have hread := read?_of_scan hscan
  exact ⟨⟨hread, hscan⟩, refers_iff.mpr hread, Segment.scans_iff.mpr hscan⟩

/-- a name with backslashes in front of parentheses, `#` and the blank, a specifier with blanks and
a `#` in nested groups, and one of a tab in parentheses -/
def tangled : Reference := ⟨"\\\\(\\# \\)\\".toList, ["at(\"a (#)\" )".toList, "(\t)'".toList]⟩

theorem read_written_tangled :
    (∀ w ∈ tangled.name :: tangled.specifiers, w.Writable) ∧
      tangled.write = "#\\\\\\\\(\\\\\\# \\\\)\\\\ at(\"a (\\#)\" ) (\t)'#".toList ∧
      read? tangled.write = some tangled ∧ Segment.scan tangled.write = [.reference tangled] := by
  have h : ∀ w ∈ tangled.name :: tangled.specifiers, w.Writable := by decide +kernel
  have hread := (read_written h).1
  exact ⟨h, by decide +kernel, hread.1, hread.2⟩

end Reference

end Stencil
