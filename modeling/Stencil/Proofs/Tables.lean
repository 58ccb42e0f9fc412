import Stencil.Table

/-!
# Tables in order

A table that is built entry by entry has its keys in order, each of them once.

* `Text.compare_swap`, `Text.compare_trans`   the order of texts;
* `Table.Ascending`           the keys of a table are in order;
* `Table.insert_last`         an entry behind all others;
* `Table.mem_of_get?`, `Table.eq_or_mem_of_mem_insert`   the entries of a table;
* `Table.ascending_insert`    an entry put into a table in order;
* `Table.ascending_ofList`    a table put together from any entries is in order.
-/

namespace Stencil

namespace Text

theorem compare_swap (s t : Text) : (compare s t).swap = compare t s := by
  induction s generalizing t with
  | nil => cases t <;> rfl
  | cons a s ih =>
    cases t with
    | nil => rfl
    | cons b t =>
      rw [compare, compare]
      by_cases hab : a = b
      · rw [if_pos hab, if_pos hab.symm]
        exact ih t
      · rw [if_neg hab, if_neg (Ne.symm hab)]
        rcases Nat.lt_trichotomy a.toNat b.toNat with h | h | h
        · have hlt : a < b := h
          have hnot : ¬b < a := Nat.lt_asymm h
          rw [if_pos hlt, if_neg hnot]
          rfl
        · exact absurd (Char.toNat_inj.mp h) hab
        · have hlt : b < a := h
          have hnot : ¬a < b := Nat.lt_asymm h
          rw [if_pos hlt, if_neg hnot]
          rfl

theorem compare_cons_lt {a b : Char} {s t : Text} :
    compare (a :: s) (b :: t) = .lt ↔ a < b ∨ a = b ∧ compare s t = .lt := by
  rw [compare]
  by_cases hab : a = b
  · simp [hab]
  · simp [hab]

theorem compare_trans {s t u : Text} (hst : compare s t = .lt) (htu : compare t u = .lt) :
    compare s u = .lt := by
  induction s generalizing t u with
  | nil =>
    cases u with
    | nil => cases t <;> cases htu
    | cons c u => rfl
  | cons a s ih =>
    cases t with
    | nil => cases hst
    | cons b t =>
      cases u with
      | nil => cases htu
      | cons c u =>
        rw [compare_cons_lt] at hst htu ⊢
        rcases hst with hab | ⟨rfl, hst⟩
        · rcases htu with hbc | ⟨rfl, -⟩
          · exact .inl (Nat.lt_trans hab hbc)
          · exact .inl hab
        · rcases htu with hbc | ⟨rfl, htu⟩
          · exact .inl hbc
          · exact .inr ⟨rfl, ih hst htu⟩

theorem compare_lt_of_ne {s t : Text} (hne : s ≠ t) (h : compare s t ≠ .lt) :
    compare t s = .lt := by
  rw [← compare_swap]
  cases hc : compare s t with
  | lt => exact absurd hc h
  | eq => exact absurd (eq_of_compare_eq hc) hne
  | gt => rfl

end Text

namespace Table

variable {α : Type}

/-- the keys of a table are in order, and so each of them stands there once -/
def Ascending (t : Table α) : Prop := (t.map Prod.fst).Pairwise fun k l => Text.compare k l = .lt

instance (t : Table α) : Decidable t.Ascending := inferInstanceAs (Decidable (List.Pairwise _ _))

theorem ascending_cons (e : Text × α) (t : Table α) : Ascending (e :: t) ↔
    (∀ f ∈ t, Text.compare e.1 f.1 = .lt) ∧ t.Ascending := by
  rw [Ascending, List.map_cons, List.pairwise_cons, List.forall_mem_map]
  rfl

theorem lt_of_ascending_append {t u : Table α} {e : Text × α} (h : Ascending (t ++ e :: u)) :
    ∀ f ∈ t, Text.compare f.1 e.1 = .lt := by
  rw [Ascending, List.map_append, List.map_cons, List.pairwise_append] at h
  intro f hf
  exact h.2.2 f.1 (List.mem_map_of_mem hf) e.1 List.mem_cons_self

theorem insert_last {t : Table α} {k : Text} (h : ∀ e ∈ t, Text.compare e.1 k = .lt) (a : α) :
    t.insert k a = t ++ [(k, a)] := by
  induction t with
  | nil => rfl
  | cons e t ih =>
    obtain ⟨l, b⟩ := e
    have hlt : Text.compare l k = .lt := h (l, b) List.mem_cons_self
    have hne : l ≠ k := by
      rintro rfl
      rw [Text.compare_self] at hlt
      cases hlt
    have hnot : Text.compare k l ≠ .lt := by
      rw [← Text.compare_swap, hlt]
      decide
    rw [insert, if_neg hne, if_neg hnot, ih fun f hf => h f (List.mem_cons_of_mem _ hf)]
    rfl

theorem mem_of_get? {t : Table α} {x : Text} {a : α} (h : t.get? x = some a) : (x, a) ∈ t := by
  induction t with
  | nil => cases h
  | cons e t ih =>
    obtain ⟨k, v⟩ := e
    by_cases hk : k = x
    · rw [get?, if_pos hk] at h
      cases h
      rw [hk]
      exact List.mem_cons_self
    · rw [get?, if_neg hk] at h
      exact List.mem_cons_of_mem _ (ih h)

theorem eq_or_mem_of_mem_insert {t : Table α} {k : Text} {a : α} {e : Text × α}
    (h : e ∈ t.insert k a) : e = (k, a) ∨ e ∈ t := by
  induction t with
  | nil => exact .inl (List.mem_singleton.mp h)
  | cons f t ih =>
    obtain ⟨l, b⟩ := f
    rw [insert] at h
    split at h
    · rcases List.mem_cons.mp h with rfl | h
      · exact .inl rfl
      · exact .inr (List.mem_cons_of_mem _ h)
    split at h
    · rcases List.mem_cons.mp h with rfl | h
      · exact .inl rfl
      · exact .inr h
    · rcases List.mem_cons.mp h with rfl | h
      · exact .inr List.mem_cons_self
      · exact (ih h).imp id (List.mem_cons_of_mem _)

theorem ascending_insert {t : Table α} (h : t.Ascending) (k : Text) (a : α) :
    (t.insert k a).Ascending := by
  induction t with
  | nil => exact List.pairwise_singleton _ _
  | cons e t ih =>
    obtain ⟨l, b⟩ := e
    obtain ⟨hl, ht⟩ := (ascending_cons _ _).mp h
    rw [insert]
    split
    · rename_i hk
      exact (ascending_cons _ _).mpr ⟨fun f hf => hk ▸ hl f hf, ht⟩
    split
    · rename_i hlt
      refine (ascending_cons _ _).mpr ⟨fun f hf => ?_, h⟩
      rcases List.mem_cons.mp hf with rfl | hf
      · exact hlt
      · exact Text.compare_trans hlt (hl f hf)
    · rename_i hne hnot
      refine (ascending_cons _ _).mpr ⟨fun f hf => ?_, ih ht⟩
      rcases eq_or_mem_of_mem_insert hf with rfl | hf
      · exact Text.compare_lt_of_ne (Ne.symm hne) hnot
      · exact hl f hf

/-- **A table put together entry by entry is in order** -/
theorem ascending_ofList (es : List (Text × α)) : (ofList es).Ascending := by
  have hfold (t : Table α) (h : t.Ascending) :
      (es.foldl (fun t e => insert t e.1 e.2) t).Ascending := by
    induction es generalizing t with
    | nil => exact h
    | cons e es ih => exact ih _ (ascending_insert h e.1 e.2)
  exact hfold [] List.Pairwise.nil

end Table

end Stencil
