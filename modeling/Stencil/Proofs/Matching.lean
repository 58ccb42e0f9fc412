import Stencil.Proofs.Units
import Mathlib.Data.List.Infix

/-!
# Matching parentheses

Which parenthesis closes a group, told by counting: the first one behind which as many are closed as
were opened.

* `Text.NestedIn`   a text that closes what it opens and what is open in front of it;
* `Text.Nested`     the same with nothing open in front of it;
* `Closes.exists_nestedIn`, `Text.NestedIn.closes`   what closes a group, by counting;
* `splitGroup_eq_some_iff`, `splitGroup_eq_none_iff`   the end of a group, by counting.
-/

namespace Stencil

namespace Text

/-- with `depth` groups open in front of the text, each parenthesis that closes closes one that was
opened before it, and at the end of the text none is open -/
structure NestedIn (depth : Nat) (t : Text) : Prop where
  before : ∀ p, p <+: t → p.count ')' ≤ depth + p.count '('
  level : t.count ')' = depth + t.count '('

def Nested (t : Text) : Prop := t.NestedIn 0

instance (depth : Nat) (t : Text) : Decidable (t.NestedIn depth) :=
  decidable_of_iff ((∀ p ∈ t.inits, p.count ')' ≤ depth + p.count '(') ∧
      t.count ')' = depth + t.count '(')
    ⟨fun h => ⟨fun p hp => h.1 p ((List.mem_inits p t).mpr hp), h.2⟩,
      fun h => ⟨fun p hp => h.before p ((List.mem_inits p t).mp hp), h.level⟩⟩

instance (t : Text) : Decidable t.Nested := inferInstanceAs (Decidable (t.NestedIn 0))

/-! ## character by character -/

theorem forall_prefix_cons {P : Text → Prop} {c : Char} {t : Text} :
    (∀ p, p <+: c :: t → P p) ↔ P [] ∧ ∀ p, p <+: t → P (c :: p) := by
  constructor
  · intro h
    exact ⟨h [] List.nil_prefix, fun p hp => h (c :: p) (List.cons_prefix_cons.mpr ⟨rfl, hp⟩)⟩
  · rintro ⟨hnil, hcons⟩ p hp
    rcases List.prefix_cons_iff.mp hp with rfl | ⟨q, rfl, hq⟩
    · exact hnil
    · exact hcons q hq

section
variable {depth : Nat} {t : Text}

theorem nestedIn_nil : NestedIn depth [] ↔ depth = 0 := by
  constructor
  · intro h
    exact h.level.symm
  · rintro rfl
    exact ⟨fun p hp => List.prefix_nil.mp hp ▸ Nat.le_refl _, rfl⟩

/-- one step of the counting, for a character that closes `down` groups and opens `up` -/
theorem nestedIn_cons {c : Char} {up down : Nat} (hup : [c].count '(' = up)
    (hdown : [c].count ')' = down) (hd : down ≤ depth + up) :
    NestedIn depth (c :: t) ↔ NestedIn (depth + up - down) t := by
  have ho (p : Text) : (c :: p).count '(' = up + p.count '(' := by
    rw [← hup, ← List.count_append]
    rfl
  have hc (p : Text) : (c :: p).count ')' = down + p.count ')' := by
    rw [← hdown, ← List.count_append]
    rfl
  constructor
  · rintro ⟨hbefore, hlevel⟩
    have hb := (forall_prefix_cons.mp hbefore).2
    simp only [ho, hc] at hb hlevel
    refine ⟨fun p hp => ?_, ?_⟩
    · have := hb p hp
      omega
    · omega
  · rintro ⟨hbefore, hlevel⟩
    refine ⟨forall_prefix_cons.mpr ⟨Nat.zero_le _, fun p hp => ?_⟩, ?_⟩
    · have := hbefore p hp
      rw [ho, hc]
      omega
    · rw [ho, hc]
      omega

theorem nestedIn_open : NestedIn depth ('(' :: t) ↔ NestedIn (depth + 1) t :=
  nestedIn_cons rfl rfl (Nat.zero_le _)

theorem nestedIn_close : NestedIn (depth + 1) (')' :: t) ↔ NestedIn depth t :=
  nestedIn_cons rfl rfl (Nat.le_add_left 1 depth)

theorem nestedIn_other {c : Char} (h : isBracket c = false) :
    NestedIn depth (c :: t) ↔ NestedIn depth t := by
  simp only [isBracket, Bool.or_eq_false_iff, beq_eq_false_iff_ne] at h
  have hup : [c].count '(' = 0 :=
    List.count_eq_zero.mpr fun hm => h.1 (List.mem_singleton.mp hm).symm
  have hdown : [c].count ')' = 0 :=
    List.count_eq_zero.mpr fun hm => h.2 (List.mem_singleton.mp hm).symm
  exact nestedIn_cons hup hdown (Nat.zero_le _)

theorem nested_of_chars (h : ∀ c ∈ t, isBracket c = false) : t.Nested := by
  induction t with
  | nil => exact nestedIn_nil.mpr rfl
  | cons c t ih =>
    rw [List.forall_mem_cons] at h
    exact (nestedIn_other h.1).mpr (ih h.2)

theorem not_nested_close : ¬Nested (')' :: t) := by
  intro h
  have hone := h.before [')'] (List.prefix_append [')'] t)
  exact absurd hone (by decide)

end

/-- a part up to the end closes what it opens and what is open in front of it -/
theorem NestedIn.of_append {depth : Nat} {s t : Text} (h : NestedIn depth (s ++ t)) :
    ∃ depth', NestedIn depth' t := by
  have hs := h.before s (List.prefix_append s t)
  have hlevel := h.level
  refine ⟨depth + s.count '(' - s.count ')', fun p hp => ?_, ?_⟩
  · have := h.before (s ++ p) ((List.prefix_append_right_inj s).mpr hp)
    simp only [List.count_append] at this
    omega
  · simp only [List.count_append] at hlevel
    omega

/-- behind a nested part as much is open as in front of it -/
theorem nestedIn_append {depth : Nat} {s t : Text} (hs : s.Nested) :
    NestedIn depth (s ++ t) ↔ NestedIn depth t := by
  have hlevel := hs.level
  constructor
  · rintro ⟨hbefore, hall⟩
    refine ⟨fun p hp => ?_, ?_⟩
    · have := hbefore (s ++ p) ((List.prefix_append_right_inj s).mpr hp)
      simp only [List.count_append] at this
      omega
    · simp only [List.count_append] at hall
      omega
  · rintro ⟨hbefore, hall⟩
    refine ⟨fun p hp => ?_, ?_⟩
    · rcases List.prefix_or_prefix_of_prefix hp (List.prefix_append s t) with hs' | ⟨q, rfl⟩
      · have := hs.before p hs'
        omega
      · have := hbefore q ((List.prefix_append_right_inj s).mp hp)
        simp only [List.count_append]
        omega
    · simp only [List.count_append]
      omega

end Text

/-! ## groups -/

theorem Text.NestedIn.closes {depth : Nat} {s : Text} (h : s.NestedIn depth) :
    Closes depth (s ++ [')']) := by
  induction s generalizing depth with
  | nil =>
    obtain rfl := nestedIn_nil.mp h
    exact .last
  | cons c s ih =>
    cases hc : isBracket c with
    | false => exact .other hc (ih ((nestedIn_other hc).mp h))
    | true =>
      simp only [isBracket, Bool.or_eq_true, beq_iff_eq] at hc
      rcases hc with rfl | rfl
      · exact .up (ih (nestedIn_open.mp h))
      · cases depth with
        | zero => exact absurd h not_nested_close
        | succ depth => exact .down (ih (nestedIn_close.mp h))

theorem Closes.exists_nestedIn {depth : Nat} {g : Text} (h : Closes depth g) :
    ∃ s, g = s ++ [')'] ∧ s.NestedIn depth := by
  induction h with
  | last => exact ⟨[], rfl, Text.nestedIn_nil.mpr rfl⟩
  | down _ ih =>
    obtain ⟨s, rfl, hs⟩ := ih
    exact ⟨')' :: s, rfl, Text.nestedIn_close.mpr hs⟩
  | up _ ih =>
    obtain ⟨s, rfl, hs⟩ := ih
    exact ⟨'(' :: s, rfl, Text.nestedIn_open.mpr hs⟩
  | other hc _ ih =>
    obtain ⟨s, rfl, hs⟩ := ih
    exact ⟨_ :: s, rfl, (Text.nestedIn_other hc).mpr hs⟩

theorem isSome_splitGroup_of_nestedIn {depth above : Nat} {t : Text}
    (h : t.NestedIn (above + 1 + depth)) : (splitGroup depth t).isSome := by
  induction t generalizing depth with
  | nil =>
    have hlevel := Text.nestedIn_nil.mp h
    omega
  | cons c t ih =>
    cases hc : isBracket c with
    | false =>
      rw [splitGroup_other hc, Option.isSome_map]
      exact ih ((Text.nestedIn_other hc).mp h)
    | true =>
      simp only [isBracket, Bool.or_eq_true, beq_iff_eq] at hc
      rcases hc with rfl | rfl
      · rw [splitGroup_up, Option.isSome_map]
        exact ih (Text.nestedIn_open.mp h)
      · cases depth with
        | zero => rfl
        | succ depth =>
          rw [splitGroup_down, Option.isSome_map]
          exact ih (Text.nestedIn_close.mp h)

/-- the group that a parenthesis opens ends where what stands in between is nested -/
theorem splitGroup_eq_some_iff {t g r : Text} :
    splitGroup 0 t = some (g, r) ↔ ∃ s, s.Nested ∧ g = s ++ [')'] ∧ t = s ++ ')' :: r := by
  constructor
  · intro h
    obtain ⟨s, rfl, hs⟩ := (closes_of_splitGroup h).exists_nestedIn
    exact ⟨s, hs, rfl, by rw [← append_of_splitGroup h, List.append_assoc]; rfl⟩
  · rintro ⟨s, hs, rfl, rfl⟩
    have hclose := (Text.NestedIn.closes hs).splitGroup_append r
    rwa [List.append_assoc] at hclose

theorem splitGroup_eq_none_iff {t : Text} :
    splitGroup 0 t = none ↔ ¬∃ s r, s.Nested ∧ t = s ++ ')' :: r := by
  rw [Option.eq_none_iff_forall_ne_some]
  constructor
  · rintro h ⟨s, r, hs, ht⟩
    exact h (s ++ [')'], r) (splitGroup_eq_some_iff.mpr ⟨s, hs, rfl, ht⟩)
  · rintro h ⟨g, r⟩ hg
    obtain ⟨s, hs, -, ht⟩ := splitGroup_eq_some_iff.mp hg
    exact h ⟨s, r, hs, ht⟩

end Stencil
