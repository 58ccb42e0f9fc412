import Stencil.Proofs.Excerpt
import Stencil.Render.Loop

/-!
# Properties that go down to excerpts

Whatever the evaluator reads of a template it has cut out of the template, resolving escapes on the
way.  A property of texts that survives both holds of all that is read from a text it holds of.

* `Text.Hereditary P`          a text without `P` neither stands in one that has `P` nor comes of
                               resolving its escapes;
* `Reference.Over P r`         `P` holds of the name and of the specifiers of `r`;
* `Text.Hereditary.of_read?`, `Text.Hereditary.of_mem_scan`   references that are read;
* `Text.Hereditary.of_mem_entriesOf`, `Text.Hereditary.of_mem_incrementsOf`   the parts of a loop.
-/

namespace Stencil

structure Text.Hereditary (P : Text → Prop) : Prop where
  mono : ∀ {s t : Text}, P t → s <:+: t → P s
  unescape : ∀ {t : Text}, P t → P (unescape t)

def Reference.Over (P : Text → Prop) (r : Reference) : Prop :=
  P r.name ∧ ∀ s ∈ r.specifiers, P s

theorem Segment.reference_mem_consLiteral {c : Char} {ss : List Segment} {r : Reference}
    (h : .reference r ∈ consLiteral c ss) : .reference r ∈ ss := by
  unfold consLiteral at h
  split at h
  · rcases List.mem_cons.mp h with h | h
    · simp at h
    · exact List.mem_cons_of_mem _ h
  · rcases List.mem_cons.mp h with h | h
    · simp at h
    · exact h

/-- the keyword and the parenthesis of a modifier with an argument stand in the text it is read of -/
theorem Modifier.infix_of_read {spec : Text} {m : Modifier} (h : read spec = .ok m)
    (ha : m.argument?.isSome = true) : m.keyword ++ ['('] <:+: spec := by
  have hopening : ∀ k a : Text, k ++ ['('] <:+: k ++ '(' :: a ++ [')'] :=
    fun k a => ⟨[], a ++ [')'], by simp⟩
  rcases read_cases h with ⟨hm, -⟩ | ⟨a, rfl, -, rfl⟩ | ⟨a, f, rfl, -, rfl⟩ | ⟨a, f, rfl, -, rfl⟩
  · rw [argument?_of_mem_bare hm] at ha
    cases ha
  · exact hopening _ a
  · exact hopening _ a
  · exact hopening _ a

namespace Text.Hereditary

/-- not to contain a text without `#` and `\` is such a property -/
theorem without {x : Text} (hx : '#' ∉ x) (hb : '\\' ∉ x) :
    Hereditary fun t => ¬x <:+: t where
  mono := fun h hs hx => h (hx.trans hs)
  unescape := fun h hu => h (infix_of_infix_unescape hx hb hu)

theorem and {P Q : Text → Prop} (hP : Hereditary P) (hQ : Hereditary Q) :
    Hereditary fun t => P t ∧ Q t where
  mono := fun h hs => ⟨hP.mono h.1 hs, hQ.mono h.2 hs⟩
  unescape := fun h => ⟨hP.unescape h.1, hQ.unescape h.2⟩

variable {P : Text → Prop} (hP : Hereditary P)
include hP

theorem trim {t : Text} (h : P t) : P t.trim := hP.mono h (infix_trim t)

/-! ## references -/

theorem of_ofUnits? {us : List Text} {r : Reference} (h : P us.flatten)
    (hr : Reference.ofUnits? us = some r) : r.Over P := by
  have hw : ∀ w ∈ (words us).map Stencil.unescape, P w := by
    intro w hw
    obtain ⟨v, hv, rfl⟩ := List.mem_map.mp hw
    exact hP.unescape (hP.mono h (infix_of_mem_words hv))
  unfold Reference.ofUnits? at hr
  split at hr
  · simp at hr
  · rename_i name specifiers hws
    rw [hws] at hw
    simp only [Option.some.injEq] at hr
    subst hr
    exact ⟨hw name List.mem_cons_self, fun s hs => hw s (List.mem_cons_of_mem _ hs)⟩

theorem of_read? {t : Text} {r : Reference} (h : P t) (hr : Reference.read? t = some r) :
    r.Over P := by
  have ht := hP.trim h
  unfold Reference.read? at hr
  split at hr
  · simp at hr
  · rename_i c s hs
    split at hr
    · split at hr
      · rename_i us hw
        rw [hs] at ht
        exact hP.of_ofUnits? (hP.mono ht (List.infix_cons (infix_of_walk hw).1)) hr
      · simp at hr
    · simp at hr

theorem of_mem_scan {line : Text} (h : P line) {r : Reference}
    (hr : .reference r ∈ Segment.scan line) : r.Over P := by
  fun_induction Segment.scan line with
  | case1 => simp at hr
  | case2 t => simp at hr
  | case3 t us rest hw ih =>
    obtain ⟨hus, hrest⟩ := infix_of_walk hw
    rcases List.mem_cons.mp hr with hr | hr
    · unfold Segment.ofUnits at hr
      split at hr
      · rename_i r' hu
        simp only [Segment.reference.injEq] at hr
        subst hr
        exact hP.of_ofUnits? (hP.mono h (List.infix_cons hus)) hu
      · simp at hr
    · exact ih (hP.mono h (List.infix_cons hrest)) hr
  | case4 c hc => simp at hr
  | case5 c hc d rest he ih =>
    exact ih (hP.mono h (List.infix_cons (List.infix_cons List.infix_rfl)))
      (Segment.reference_mem_consLiteral hr)
  | case6 c hc d rest he ih =>
    exact ih (hP.mono h (List.infix_cons List.infix_rfl)) (Segment.reference_mem_consLiteral hr)

/-- the index of a modifier stands in the text that spells the modifier -/
theorem of_read_index {spec expr : Text} (h : P spec)
    (hr : Modifier.read spec = .ok (.index expr)) : P expr := by
  rcases Modifier.read_cases hr with ⟨hm, -⟩ | ⟨a, rfl, -, he⟩ | ⟨_, _, -, -, he⟩ | ⟨_, _, -, -, he⟩
  · cases Modifier.argument?_of_mem_bare hm
  · cases he
    exact hP.trim (hP.mono h ⟨"at(".toList, [')'], by simp⟩)
  · cases he
  · cases he

/-! ## the parts of a loop -/

theorem of_mem_entriesOf {t e : Text} (h : P t) (he : e ∈ entriesOf t) : P e :=
  hP.mono h (infix_of_mem_splitOn (List.mem_filter.mp he).1)

theorem of_mem_incrementsOf {t : Text} {i : Increment} (h : P t) (hi : i ∈ incrementsOf t) :
    P i.name ∧ P i.delta := by
  obtain ⟨e, he, hie⟩ := List.mem_filterMap.mp hi
  have hx := hP.of_mem_entriesOf h he
  unfold Increment.ofEntry? at hie
  split at hie
  · rename_i name delta hc
    obtain ⟨hn, hd⟩ := infix_of_cutAtPair hc
    split at hie
    · simp at hie
    · simp only [Option.some.injEq] at hie
      subst hie
      exact ⟨hP.trim (hP.mono hx hn), hP.trim (hP.mono hx hd)⟩
  · simp at hie

end Text.Hereditary

end Stencil
