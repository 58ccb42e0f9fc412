import Stencil.Proofs.Exchange
import Stencil.Proofs.ReferenceEnds

/-!
# A head and its arguments

Splitting a head loses nothing but blanks, and the arguments, put together with one blank between
neighbours, are split into themselves: what looks further than the next character, a parenthesis or a
`#`, sees no blanks.

* `Text.Piece`            what may hold blanks inside an argument: groups and references
                          (`piece_of_mem_argumentUnits`);
* `respaced`              words with one blank in front of each (`argumentUnits_respaced`);
* `splitArguments_eq_map`  the arguments of a head by its units;
* `splitArguments_parts`  a head, its arguments, and the arguments put together again.
-/

namespace Stencil

/-! ## pieces of an argument -/

/-- a part of an argument: characters other than blanks, a group in matching parentheses, or a
reference from its `#` to the `#` that ends it -/
def Text.Piece (p : Text) : Prop :=
  (∀ c ∈ p, Text.isBlank c = false) ∨ (∃ g : Text, g.Nested ∧ p = '(' :: (g ++ [')'])) ∨
    ∃ t us, p = '#' :: t ∧ Reaches t us []

theorem FirstUnit.piece {c : Char} {t u r : Text} (h : FirstUnit c t u r)
    (hu : isBlankUnit u = false) : u.Piece := by
  cases h with
  | group h =>
    obtain ⟨s, hs, rfl, rfl⟩ := splitGroup_eq_some_iff.mp h
    exact .inr (.inl ⟨s, hs, rfl⟩)
  | opening h => exact .inl (List.forall_mem_singleton.mpr rfl)
  | escape h =>
    simp only [needsEscape, Bool.or_eq_true, beq_iff_eq] at h
    refine .inl (List.forall_mem_cons.mpr ⟨rfl, List.forall_mem_singleton.mpr ?_⟩)
    rcases h with rfl | rfl <;> rfl
  | backslash h => exact .inl (List.forall_mem_singleton.mpr rfl)
  | plain ho hb =>
    refine .inl (List.forall_mem_singleton.mpr (Bool.eq_false_iff.mpr fun hc => ?_))
    rw [isBlankUnit_iff.mpr ⟨_, rfl, hc⟩] at hu
    cases hu

theorem piece_of_mem_argumentUnits {t u : Text} (h : u ∈ argumentUnits t)
    (hu : isBlankUnit u = false) : u ≠ [] ∧ u.Piece := by
  fun_induction argumentUnits t with
  | case1 => exact absurd h List.not_mem_nil
  | case2 t us r hw ih =>
    rcases List.mem_cons.mp h with rfl | h
    · exact ⟨List.cons_ne_nil _ _, .inr (.inr ⟨_, us, rfl, reaches_iff.mpr (walk_alone hw)⟩)⟩
    · exact ih h
  | case3 t hw ih =>
    rcases List.mem_cons.mp h with rfl | h
    · exact ⟨List.cons_ne_nil _ _, .inl (List.forall_mem_singleton.mpr rfl)⟩
    · exact ih h
  | case4 c t hc ih =>
    rcases List.mem_cons.mp h with rfl | h
    · exact ⟨nextUnit_ne_nil c t, (firstUnit_nextUnit c t).piece hu⟩
    · exact ih h

theorem nil_notMem_argumentUnits (t : Text) : [] ∉ argumentUnits t :=
  fun h => (piece_of_mem_argumentUnits h rfl).1 rfl

theorem Text.Piece.ends {p : Text} (h : p.Piece) :
    (∀ c ∈ p.head?, isBlank c = false) ∧ ∀ c ∈ p.getLast?, isBlank c = false := by
  rcases h with h | ⟨g, -, rfl⟩ | ⟨t, us, rfl, hr⟩
  · exact ⟨fun c hc => h c (List.mem_of_mem_head? hc), fun c hc => h c (List.mem_of_mem_getLast? hc)⟩
  · exact ends_concat (P := (isBlank · = false)) rfl rfl g
  · rw [← append_of_walk (reaches_iff.mp hr)]
    exact ends_concat (P := (isBlank · = false)) rfl rfl us.flatten

theorem ends_flatten {w : List Text} (h : ∀ p ∈ w, p ≠ [] ∧ p.Piece) :
    (∀ c ∈ w.flatten.head?, Text.isBlank c = false) ∧
      ∀ c ∈ w.flatten.getLast?, Text.isBlank c = false := by
  constructor
  · cases w with
    | nil => exact fun c hc => absurd hc (by simp)
    | cons p w =>
      obtain ⟨hne, hp⟩ := h p List.mem_cons_self
      rw [List.flatten_cons, List.head?_append_of_ne_nil _ hne]
      exact hp.ends.1
  · rcases List.eq_nil_or_concat w with rfl | ⟨w, p, rfl⟩
    · exact fun c hc => absurd hc (by simp)
    · obtain ⟨hne, hp⟩ := h p (by simp)
      rw [List.concat_eq_append, List.flatten_append, List.flatten_singleton,
        List.getLast?_append_of_ne_nil _ hne]
      exact hp.ends.2

/-! ## one blank in front of each word -/

/-- words with one blank in front of each -/
def respaced (ws : List (List Text)) : List Text := ws.flatMap fun w => [' '] :: w

theorem respaced_cons (w : List Text) (ws : List (List Text)) :
    respaced (w :: ws) = [' '] :: (w ++ respaced ws) := List.flatMap_cons

theorem flatten_respaced_cons (w : List Text) (ws : List (List Text)) :
    (respaced (w :: ws)).flatten = ' ' :: Text.joinWords ((w :: ws).map List.flatten) := by
  induction ws generalizing w with
  | nil =>
    rw [respaced_cons, List.map_singleton, Text.joinWords_singleton, List.flatten_cons,
      List.flatten_append]
    show [' '] ++ (w.flatten ++ []) = _
    rw [List.append_nil]
    rfl
  | cons v ws ih =>
    rw [respaced_cons, List.flatten_cons, List.flatten_append, ih, List.map_cons]
    exact congrArg (' ' :: ·) (Text.joinWords_cons_cons _ _ _).symm

theorem head?_flatten_respaced (ws : List (List Text)) :
    ∀ d ∈ (respaced ws).flatten.head?, d = ' ' := by
  cases ws with
  | nil => exact fun d hd => absurd hd (by simp [respaced])
  | cons w ws =>
    rw [flatten_respaced_cons]
    exact fun d hd => (Option.some.inj hd).symm

theorem argumentUnits_of_cons {u : Text} {us : List Text} {t : Text}
    (h : argumentUnits t = u :: us) : argumentUnits us.flatten = us := by
  fun_cases argumentUnits t with
  | case1 =>
    rw [argumentUnits] at h
    cases h
  | case2 t vs r hw =>
    rw [argumentUnits_reference hw] at h
    obtain ⟨-, hr⟩ := List.cons.inj h
    rw [← hr, flatten_argumentUnits]
  | case3 t hw =>
    rw [argumentUnits_unended hw] at h
    obtain ⟨-, hr⟩ := List.cons.inj h
    rw [← hr, flatten_argumentUnits]
  | case4 c t hc =>
    rw [argumentUnits_cons hc] at h
    obtain ⟨-, hr⟩ := List.cons.inj h
    rw [← hr, flatten_argumentUnits]

theorem argumentUnits_of_append {us vs : List Text} {t : Text}
    (h : argumentUnits t = us ++ vs) : argumentUnits vs.flatten = vs := by
  induction us generalizing t with
  | nil =>
    rw [List.nil_append] at h
    rw [← h, flatten_argumentUnits]
  | cons u us ih => exact ih (argumentUnits_of_cons h)

theorem Text.Blanks.brackets_eq {t : Text} (h : t.Blanks) : brackets t = [] := by
  refine List.filter_eq_nil_iff.mpr fun c hc => ?_
  have hblank := h c hc
  simp only [Text.isBlank, Bool.or_eq_true, beq_iff_eq] at hblank
  rcases hblank with rfl | rfl <;> decide

theorem head?_ne_hash_of_isBlankUnit {u : Text} (h : isBlankUnit u = true) :
    u.head? ≠ some '#' := by
  obtain ⟨c, rfl, hc⟩ := isBlankUnit_iff.mp h
  intro he
  obtain rfl := Option.some.inj he
  cases hc

/-- one blank in front of each word, and none behind the last, leaves the units of the words as they
are, and what looks into them from in front sees no difference -/
theorem argumentUnits_respaced {us : List Text} {ws : List (List Text)} (h : Spaced us ws)
    (hu : argumentUnits us.flatten = us) :
    argumentUnits (respaced ws).flatten = respaced ws ∧
      Text.Alike us.flatten (respaced ws).flatten := by
  have first (r : Text) (ws : List (List Text)) :
      ∀ d ∈ (respaced ws).flatten.head?, needsEscape d = true → d ∈ r.head? := by
    intro d hd hn
    rw [head?_flatten_respaced ws d hd] at hn
    cases hn
  induction h with
  | @blanks bs h =>
    have hnil : argumentUnits [] = [] := by rw [argumentUnits]
    refine ⟨hnil, (blanks_flatten h).brackets_eq, ?_, first _ _⟩
    rw [walk_eq_none_iff_units, walk_eq_none_iff_units, hu]
    show _ ↔ ∀ u ∈ argumentUnits [], _
    rw [hnil]
    exact ⟨fun _ u hu => absurd hu List.not_mem_nil,
      fun _ u hu => head?_ne_hash_of_isBlankUnit (h u hu)⟩
  | @word bs w us ws hb hw hn hus _ ih =>
    rw [List.append_assoc] at hu ⊢
    have hword : argumentUnits (w ++ us).flatten = w ++ us := argumentUnits_of_append hu
    obtain ⟨hunits, halike⟩ := ih (argumentUnits_of_append hword)
    have hbehind : argumentUnits (w.flatten ++ (respaced ws).flatten) = w ++ respaced ws := by
      refine (argumentUnits_exchange ?_ halike).trans (congrArg (w ++ ·) hunits)
      rw [← List.flatten_append, hword, argumentUnits_of_append hword]
    have hrespaced : argumentUnits (respaced (w :: ws)).flatten = respaced (w :: ws) := by
      rw [respaced_cons, List.flatten_cons, List.flatten_append]
      exact (argumentUnits_blank _).trans (congrArg _ hbehind)
    refine ⟨hrespaced, ?_, ?_, first _ _⟩
    · have hblank : brackets (' ' :: (w.flatten ++ (respaced ws).flatten)) =
          brackets (w.flatten ++ (respaced ws).flatten) := brackets_cons rfl _
      rw [respaced_cons, List.flatten_cons, List.flatten_append, List.flatten_append,
        brackets_append, (blanks_flatten hb).brackets_eq, List.nil_append, List.flatten_append]
      refine Eq.trans ?_ hblank.symm
      rw [brackets_append, brackets_append, halike.brackets]
    · have hash := halike.hash
      rw [walk_eq_none_iff_units, walk_eq_none_iff_units, hunits,
        argumentUnits_of_append hword] at hash
      rw [walk_eq_none_iff_units, walk_eq_none_iff_units, hu, hrespaced, respaced_cons,
        List.forall_mem_append, List.forall_mem_append, List.forall_mem_cons,
        List.forall_mem_append, hash]
      have hblank : ([' '] : Text).head? ≠ some '#' := by decide
      exact ⟨fun h => ⟨hblank, h.2⟩,
        fun h => ⟨fun b hb' => head?_ne_hash_of_isBlankUnit (hb b hb'), h.2⟩⟩

theorem words_respaced {ws : List (List Text)}
    (h : ∀ w ∈ ws, w.flatten ≠ [] ∧ ∀ u ∈ w, isBlankUnit u = false) :
    words (respaced ws) = ws.map List.flatten := by
  induction ws with
  | nil => rfl
  | cons w ws ih =>
    have hhead : ∀ u ∈ (respaced ws).head?, isBlankUnit u = true := by
      cases ws with
      | nil => exact fun u hu => absurd hu (by simp [respaced])
      | cons v ws => exact fun u hu => Option.some.inj hu ▸ rfl
    obtain ⟨hne, hn⟩ := h w List.mem_cons_self
    rw [respaced_cons, words_cons_blank rfl, words_append hne hn hhead,
      ih fun v hv => h v (List.mem_cons_of_mem w hv), List.map_cons]

/-- words whose units are read as they are, one blank between neighbours, are the arguments -/
theorem splitArguments_joinWords_of_respaced {ws : List (List Text)}
    (h : ∀ w ∈ ws, w.flatten ≠ [] ∧ ∀ u ∈ w, isBlankUnit u = false)
    (hu : argumentUnits (respaced ws).flatten = respaced ws) :
    splitArguments (Text.joinWords (ws.map List.flatten)) = ws.map List.flatten := by
  cases ws with
  | nil =>
    show words (argumentUnits []) = []
    rw [argumentUnits]
    rfl
  | cons w ws =>
    have hwords := words_respaced h
    rw [← hu, flatten_respaced_cons, argumentUnits_blank, words_cons_blank rfl] at hwords
    exact hwords

/-! ## a head -/

theorem Spaced.mem {us : List Text} {ws : List (List Text)} (h : Spaced us ws) {w : List Text}
    (hw : w ∈ ws) : w ≠ [] ∧ ∀ u ∈ w, isBlankUnit u = false ∧ u ∈ us := by
  induction h with
  | blanks => exact absurd hw List.not_mem_nil
  | @word bs v us ws hb hv hn hus _ ih =>
    rcases List.mem_cons.mp hw with rfl | hw
    · exact ⟨hv, fun u hu => ⟨hn u hu, by simp [hu]⟩⟩
    · obtain ⟨hne, hall⟩ := ih hw
      exact ⟨hne, fun u hu => ⟨(hall u hu).1, by simp [(hall u hu).2]⟩⟩

theorem splitArguments_eq_map {head : Text} {ws : List (List Text)}
    (h : Spaced (argumentUnits head) ws) : splitArguments head = ws.map List.flatten :=
  h.words_eq (nil_notMem_argumentUnits head)

/-- **A head is its arguments with blanks around them**, at least one between neighbours; an argument
starts and ends with no blank and holds blanks inside groups and references only; and the arguments
with one blank between neighbours are a head with the same arguments. -/
theorem splitArguments_parts (head : Text) :
    (∃ (front : Text) (parts : List (Text × Text)),
      head = front ++ parts.flatMap (fun p => p.1 ++ p.2) ∧
      parts.map Prod.fst = splitArguments head ∧ front.Blanks ∧ (∀ p ∈ parts, p.2.Blanks) ∧
      ∀ p ∈ parts.dropLast, p.2 ≠ []) ∧
    (∀ a ∈ splitArguments head, a ≠ [] ∧ (∀ c ∈ a.head?, Text.isBlank c = false) ∧
      (∀ c ∈ a.getLast?, Text.isBlank c = false) ∧
      ∃ pieces : List Text, a = pieces.flatten ∧ ∀ p ∈ pieces, p.Piece) ∧
    splitArguments (Text.joinWords (splitArguments head)) = splitArguments head := by
  obtain ⟨ws, hws⟩ := exists_spaced (argumentUnits head)
  have hself : argumentUnits (argumentUnits head).flatten = argumentUnits head := by
    rw [flatten_argumentUnits]
  have hpieces : ∀ w ∈ ws, ∀ u ∈ w, u ≠ [] ∧ u.Piece := by
    intro w hw u hu
    obtain ⟨hblank, hmem⟩ := (hws.mem hw).2 u hu
    exact piece_of_mem_argumentUnits hmem hblank
  have hne : ∀ w ∈ ws, w.flatten ≠ [] := by
    intro w hw
    exact flatten_ne_nil (hws.mem hw).1 fun hnil => (hpieces w hw [] hnil).1 rfl
  rw [splitArguments_eq_map hws]
  refine ⟨?_, ?_, ?_⟩
  · obtain ⟨front, parts, htext, hwords, hfront, hparts, hlast, -⟩ := hws.exists_parts
    rw [flatten_argumentUnits] at htext
    exact ⟨front, parts, htext, hwords, hfront, hparts, hlast⟩
  · intro a ha
    obtain ⟨w, hw, rfl⟩ := List.mem_map.mp ha
    obtain ⟨hhead, hlast⟩ := ends_flatten (hpieces w hw)
    exact ⟨hne w hw, hhead, hlast, w, rfl, fun p hp => (hpieces w hw p hp).2⟩
  · exact splitArguments_joinWords_of_respaced
      (fun w hw => ⟨hne w hw, fun u hu => ((hws.mem hw).2 u hu).1⟩)
      (argumentUnits_respaced hws hself).1

end Stencil
