import Stencil.Proofs.Plain

/-!
# Words between blanks

Units with blanks among them are words with blanks around them: each word is a run of units that are
no blanks, from a blank or the start up to a blank or the end.

* `Spaced`             some units as words between blanks (`exists_spaced`);
* `Spaced.words_eq`    reading the words of the units gives these words;
* `Text.Blanks`        a text of blanks only;
* `Spaced.exists_parts`   the text of the units, cut into its words and the blanks behind each.
-/

namespace Stencil

/-- the units are the words with blanks around them, and each word is a whole run -/
inductive Spaced : List Text → List (List Text) → Prop
  | blanks {bs : List Text} (h : ∀ b ∈ bs, isBlankUnit b = true) : Spaced bs []
  | word {bs w us : List Text} {ws : List (List Text)} (hb : ∀ b ∈ bs, isBlankUnit b = true)
      (hw : w ≠ []) (hn : ∀ u ∈ w, isBlankUnit u = false)
      (hu : ∀ u ∈ us.head?, isBlankUnit u = true) (h : Spaced us ws) :
      Spaced (bs ++ w ++ us) (w :: ws)

theorem Spaced.cons_blank {b : Text} (hb : isBlankUnit b = true) {us : List Text}
    {ws : List (List Text)} (h : Spaced us ws) : Spaced (b :: us) ws := by
  cases h with
  | blanks h => exact .blanks (List.forall_mem_cons.mpr ⟨hb, h⟩)
  | word hbs hw hn hu h => exact .word (List.forall_mem_cons.mpr ⟨hb, hbs⟩) hw hn hu h

/-- a unit that is no blank makes the first word longer, or is a word in front of a blank -/
theorem Spaced.cons_unit {u : Text} (hu : isBlankUnit u = false) {us : List Text}
    {ws : List (List Text)} (h : Spaced us ws) : ∃ ws', Spaced (u :: us) ws' := by
  have alone {us : List Text} {ws : List (List Text)} (h : Spaced us ws)
      (hus : ∀ v ∈ us.head?, isBlankUnit v = true) : ∃ ws', Spaced (u :: us) ws' := by
    have hnone : ∀ b ∈ ([] : List Text), isBlankUnit b = true := List.forall_mem_nil _
    exact ⟨[u] :: ws,
      .word hnone (List.cons_ne_nil u []) (List.forall_mem_singleton.mpr hu) hus h⟩
  cases h with
  | blanks h => exact alone (.blanks h) fun v hv => h v (List.mem_of_mem_head? hv)
  | word hb hw hn hv h =>
    rename_i bs w us ws
    cases bs with
    | nil =>
      have hlonger := Spaced.word hb (List.cons_ne_nil u w) (List.forall_mem_cons.mpr ⟨hu, hn⟩) hv h
      exact ⟨(u :: w) :: ws, hlonger⟩
    | cons b bs =>
      refine alone (.word hb hw hn hv h) fun v hv => ?_
      obtain rfl : b = v := Option.some.inj hv
      exact hb b List.mem_cons_self

theorem exists_spaced (us : List Text) : ∃ ws, Spaced us ws := by
  induction us with
  | nil => exact ⟨[], .blanks fun b hb => absurd hb List.not_mem_nil⟩
  | cons u us ih =>
    obtain ⟨ws, h⟩ := ih
    cases hu : isBlankUnit u with
    | true => exact ⟨ws, h.cons_blank hu⟩
    | false => exact h.cons_unit hu

/-! ## the words that are read -/

theorem words_cons_blank {b : Text} (h : isBlankUnit b = true) (us : List Text) :
    words (b :: us) = words us := by
  rw [words, wordsFrom, if_pos h]
  rfl

theorem words_append_blanks {bs : List Text} (h : ∀ b ∈ bs, isBlankUnit b = true)
    (us : List Text) : words (bs ++ us) = words us := by
  induction bs with
  | nil => rfl
  | cons b bs ih =>
    rw [List.cons_append, words_cons_blank (h b List.mem_cons_self),
      ih fun c hc => h c (List.mem_cons_of_mem b hc)]

theorem wordsFrom_append {w : List Text} (h : ∀ u ∈ w, isBlankUnit u = false) (us : List Text) :
    wordsFrom (w ++ us) = (w.flatten ++ (wordsFrom us).1, (wordsFrom us).2) := by
  induction w with
  | nil => rfl
  | cons u w ih =>
    rw [List.cons_append, wordsFrom_cons (h u List.mem_cons_self),
      ih fun v hv => h v (List.mem_cons_of_mem u hv), List.flatten_cons, List.append_assoc]

theorem wordsFrom_eq_words {us : List Text} (h : ∀ u ∈ us.head?, isBlankUnit u = true) :
    wordsFrom us = ([], words us) := by
  cases us with
  | nil => rfl
  | cons u us =>
    have hu := h u rfl
    rw [words_cons_blank hu, wordsFrom, if_pos hu]
    rfl

/-- a word in front of a blank or of the end -/
theorem words_append {w us : List Text} (hw : w.flatten ≠ [])
    (hn : ∀ u ∈ w, isBlankUnit u = false) (hu : ∀ u ∈ us.head?, isBlankUnit u = true) :
    words (w ++ us) = w.flatten :: words us := by
  rw [words, wordsFrom_append hn, wordsFrom_eq_words hu, List.append_nil, consWord_of_ne_nil hw]

theorem flatten_ne_nil {w : List Text} (hw : w ≠ []) (h : [] ∉ w) : w.flatten ≠ [] := by
  obtain ⟨u, hu⟩ := List.exists_mem_of_ne_nil w hw
  intro hnil
  exact h (List.flatten_eq_nil_iff.mp hnil u hu ▸ hu)

theorem Spaced.words_eq {us : List Text} {ws : List (List Text)} (h : Spaced us ws)
    (hne : [] ∉ us) : words us = ws.map List.flatten := by
  induction h with
  | blanks h =>
    have hb := words_append_blanks h []
    rwa [List.append_nil] at hb
  | word hb hw hn hu h ih =>
    simp only [List.mem_append, not_or] at hne
    rw [List.append_assoc, words_append_blanks hb, words_append (flatten_ne_nil hw hne.1.2) hn hu,
      ih hne.2]
    rfl

/-! ## the text of the units -/

/-- a text of blanks only -/
def Text.Blanks (t : Text) : Prop := ∀ c ∈ t, Text.isBlank c = true

theorem isBlankUnit_iff {u : Text} :
    isBlankUnit u = true ↔ ∃ c, u = [c] ∧ Text.isBlank c = true := by
  simp only [isBlankUnit, Text.isBlank, Bool.or_eq_true, beq_iff_eq]
  constructor
  · rintro (rfl | rfl)
    · exact ⟨' ', rfl, .inl rfl⟩
    · exact ⟨'\t', rfl, .inr rfl⟩
  · rintro ⟨c, rfl, rfl | rfl⟩
    · exact .inl rfl
    · exact .inr rfl

theorem blanks_flatten {bs : List Text} (h : ∀ b ∈ bs, isBlankUnit b = true) :
    Text.Blanks bs.flatten := by
  intro c hc
  obtain ⟨b, hb, hcb⟩ := List.mem_flatten.mp hc
  obtain ⟨d, rfl, hd⟩ := isBlankUnit_iff.mp (h b hb)
  rwa [List.mem_singleton.mp hcb]

/-- a word that does not come first stands behind blanks, as it starts with none -/
theorem flatten_blanks_ne_nil {bs w us : List Text} (hb : ∀ b ∈ bs, isBlankUnit b = true)
    (hw : w ≠ []) (hn : ∀ u ∈ w, isBlankUnit u = false)
    (hhead : ∀ u ∈ (bs ++ w ++ us).head?, isBlankUnit u = true) : bs.flatten ≠ [] := by
  obtain ⟨u, w, rfl⟩ := List.exists_cons_of_ne_nil hw
  cases bs with
  | nil =>
    have hblank := hhead u rfl
    rw [hn u List.mem_cons_self] at hblank
    cases hblank
  | cons b bs =>
    refine flatten_ne_nil (List.cons_ne_nil b bs) fun hnil => ?_
    cases hb [] hnil

/-- **Nothing is lost between the words**: what stands in front of the first word, and behind each
word, are blanks, and behind each but the last one at least one -/
theorem Spaced.exists_parts {us : List Text} {ws : List (List Text)} (h : Spaced us ws) :
    ∃ (front : Text) (parts : List (Text × Text)),
      us.flatten = front ++ parts.flatMap (fun p => p.1 ++ p.2) ∧
      parts.map Prod.fst = ws.map List.flatten ∧ front.Blanks ∧ (∀ p ∈ parts, p.2.Blanks) ∧
      (∀ p ∈ parts.dropLast, p.2 ≠ []) ∧
      ((∀ u ∈ us.head?, isBlankUnit u = true) → parts ≠ [] → front ≠ []) := by
  induction h with
  | @blanks bs h =>
    refine ⟨bs.flatten, [], (List.append_nil _).symm, rfl, blanks_flatten h, ?_, ?_, ?_⟩
    · exact fun p hp => absurd hp List.not_mem_nil
    · exact fun p hp => absurd hp List.not_mem_nil
    · exact fun _ hp => absurd rfl hp
  | @word bs w us ws hb hw hn hu _ ih =>
    obtain ⟨front, parts, htext, hwords, hfront, hparts, hlast, hgap⟩ := ih
    refine ⟨bs.flatten, (w.flatten, front) :: parts, ?_, ?_, blanks_flatten hb, ?_, ?_, ?_⟩
    · rw [List.flatten_append, List.flatten_append, htext, List.flatMap_cons]
      simp only [List.append_assoc]
    · rw [List.map_cons, hwords, List.map_cons]
    · exact List.forall_mem_cons.mpr ⟨hfront, hparts⟩
    · intro p hp
      cases parts with
      | nil => exact absurd hp List.not_mem_nil
      | cons q parts =>
        rw [List.dropLast_cons_cons] at hp
        rcases List.mem_cons.mp hp with rfl | hp
        · exact hgap hu (List.cons_ne_nil q parts)
        · exact hlast p hp
    · exact fun hhead _ => flatten_blanks_ne_nil hb hw hn hhead

end Stencil
