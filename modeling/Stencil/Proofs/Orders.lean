import Mathlib.Algebra.Order.Field.Rat
import Stencil.Proofs.Tables
import Stencil.Render.Order

/-!
# Lists in order

What the orders of an iteration make of a list.

* `Text.Le`, `Text.compare_ne_gt_iff`   the order of texts by code points;
* `Number.Le`, `Number.totalLe_iff`   the total order of numbers;
* `StablySorted`             a list sorted by a key, items with the same key in the order they had;
* `stablySorted_mergeSort`, `StablySorted.unique`   sorting by a key is stable, and there is one way
                             to do it;
* `NumbersFirst`             the numbers sorted, and all other values behind them as they were;
* `Order.Arranges`           what a list may become in an order;
* `Order.Arranges.unique`    all orders but the random one leave no choice;
* `Order.rearrange_arranges`   what it becomes.
-/

namespace Stencil

/-! ## texts -/

namespace Text

/-- texts in the order of the code points of their characters -/
def Le (s t : Text) : Prop := s = t ∨ List.Lex (fun a b : Char => a.toNat < b.toNat) s t

theorem compare_eq_lt_iff {s t : Text} :
    compare s t = .lt ↔ List.Lex (fun a b : Char => a.toNat < b.toNat) s t := by
  induction s generalizing t with
  | nil =>
    cases t with
    | nil => exact ⟨nofun, nofun⟩
    | cons b t => exact ⟨fun _ => .nil, fun _ => rfl⟩
  | cons a s ih =>
    cases t with
    | nil => exact ⟨nofun, nofun⟩
    | cons b t =>
      rw [compare_cons_lt]
      constructor
      · rintro (hlt | ⟨rfl, hrest⟩)
        · exact .rel hlt
        · exact .cons (ih.mp hrest)
      · rintro (- | hlt | hrest)
        · exact .inl hlt
        · exact .inr ⟨rfl, ih.mpr hrest⟩

theorem compare_ne_gt_iff {s t : Text} : compare s t ≠ .gt ↔ s.Le t := by
  rw [Le, ← compare_eq_lt_iff]
  cases h : compare s t with
  | lt => exact ⟨fun _ => .inr rfl, fun _ => by decide⟩
  | eq => exact ⟨fun _ => .inl (eq_of_compare_eq h), fun _ => by decide⟩
  | gt =>
    refine ⟨fun hne => absurd rfl hne, ?_⟩
    rintro (rfl | hlt)
    · rw [compare_self] at h
      cases h
    · cases hlt

theorem Le.trans {s t u : Text} (hst : s.Le t) (htu : t.Le u) : s.Le u := by
  rcases hst with rfl | hst
  · exact htu
  rcases htu with rfl | htu
  · exact .inr hst
  · exact .inr (compare_eq_lt_iff.mp
      (compare_trans (compare_eq_lt_iff.mpr hst) (compare_eq_lt_iff.mpr htu)))

theorem Le.total (s t : Text) : s.Le t ∨ t.Le s := by
  rw [← compare_ne_gt_iff, ← compare_ne_gt_iff, ← compare_swap s t]
  cases compare s t with
  | lt => exact .inl (by decide)
  | eq => exact .inl (by decide)
  | gt => exact .inr (by decide)

theorem Le.antisymm {s t : Text} (hst : s.Le t) (hts : t.Le s) : s = t := by
  rw [← compare_ne_gt_iff] at hst hts
  rw [← compare_swap s t] at hts
  cases h : compare s t with
  | lt => rw [h] at hts; exact absurd rfl hts
  | eq => exact eq_of_compare_eq h
  | gt => exact absurd h hst

end Text

/-! ## numbers -/

namespace Number

/-- the total order of numbers: what is no number at the two ends, by its sign, then the infinities,
and between them the finite numbers, negative zero just below zero -/
def Le : Number → Number → Prop
  | .nan true, _ => True
  | _, .nan false => True
  | .nan false, _ => False
  | _, .nan true => False
  | .infinity true, _ => True
  | _, .infinity false => True
  | .infinity false, _ => False
  | _, .infinity true => False
  | .negZero, .negZero => True
  | .negZero, .rational q => 0 ≤ q
  | .rational p, .negZero => p < 0
  | .rational p, .rational q => p ≤ q

/-- the order is told by the kinds of the two numbers, and by their sizes if both are finite -/
theorem le_iff {m n : Number} : m.Le n ↔ m.level < n.level ∨
    m.level = n.level ∧ (m.finitePart < n.finitePart ∨
      m.finitePart = n.finitePart ∧ (m = .negZero ∨ n ≠ .negZero)) := by
  cases m with
  | nan s =>
    cases s <;> rcases n with (_ | _) | (_ | _) | _ | q <;> simp [Le, level, finitePart, toRat?]
  | infinity s =>
    cases s <;> rcases n with (_ | _) | (_ | _) | _ | q <;> simp [Le, level, finitePart, toRat?]
  | negZero =>
    rcases n with (_ | _) | (_ | _) | _ | q <;>
      simp [Le, level, finitePart, toRat?, le_iff_lt_or_eq]
  | rational p =>
    rcases n with (_ | _) | (_ | _) | _ | q <;>
      simp [Le, level, finitePart, toRat?, le_iff_lt_or_eq]

theorem totalLe_iff {m n : Number} : m.totalLe n = true ↔ m.Le n := by
  rw [le_iff, totalLe]
  rcases lt_trichotomy m.level n.level with hl | hl | hl
  · simp [hl]
  · rcases lt_trichotomy m.finitePart n.finitePart with hf | hf | hf
    · simp [hl, hf]
    · simp [hl, hf]
    · simp [hl, hf, hf.not_gt, hf.ne']
  · simp [hl, hl.not_gt, hl.ne']

theorem Le.trans {l m n : Number} (hlm : l.Le m) (hmn : m.Le n) : l.Le n := by
  rw [le_iff] at hlm hmn ⊢
  rcases hlm with hlm | ⟨hl, hlm⟩
  · rcases hmn with hmn | ⟨hl', -⟩
    · exact .inl (hlm.trans hmn)
    · exact .inl (hl' ▸ hlm)
  rw [hl]
  rcases hmn with hmn | ⟨hl', hmn⟩
  · exact .inl hmn
  refine .inr ⟨hl', ?_⟩
  rcases hlm with hlm | ⟨hf, hlm⟩
  · rcases hmn with hmn | ⟨hf', -⟩
    · exact .inl (hlm.trans hmn)
    · exact .inl (hf' ▸ hlm)
  rw [hf]
  rcases hmn with hmn | ⟨hf', hmn⟩
  · exact .inl hmn
  refine .inr ⟨hf', ?_⟩
  rcases hmn with rfl | hmn
  · exact .inl (hlm.resolve_right (absurd rfl))
  · exact .inr hmn

theorem Le.total (m n : Number) : m.Le n ∨ n.Le m := by
  rw [le_iff, le_iff]
  rcases lt_trichotomy m.level n.level with hl | hl | hl
  · exact .inl (.inl hl)
  · rcases lt_trichotomy m.finitePart n.finitePart with hf | hf | hf
    · exact .inl (.inr ⟨hl, .inl hf⟩)
    · by_cases hm : m = .negZero
      · exact .inl (.inr ⟨hl, .inr ⟨hf, .inl hm⟩⟩)
      · exact .inr (.inr ⟨hl.symm, .inr ⟨hf.symm, .inr hm⟩⟩)
    · exact .inr (.inr ⟨hl.symm, .inl hf⟩)
  · exact .inr (.inl hl)

theorem Le.antisymm {m n : Number} (hmn : m.Le n) (hnm : n.Le m) : m = n := by
  -- of two different numbers that are not both finite, one is not below the other by definition
  cases m with
  | nan s =>
    cases s <;> rcases n with (_ | _) | (_ | _) | _ | q <;>
      first | rfl | exact hmn.elim | exact hnm.elim
  | infinity s =>
    cases s <;> rcases n with (_ | _) | (_ | _) | _ | q <;>
      first | rfl | exact hmn.elim | exact hnm.elim
  | negZero =>
    cases n with
    | nan s => cases s <;> first | exact hmn.elim | exact hnm.elim
    | infinity s => cases s <;> first | exact hmn.elim | exact hnm.elim
    | negZero => rfl
    | rational q => exact absurd hnm (not_lt.mpr hmn)
  | rational p =>
    cases n with
    | nan s => cases s <;> first | exact hmn.elim | exact hnm.elim
    | infinity s => cases s <;> first | exact hmn.elim | exact hnm.elim
    | negZero => exact absurd hmn (not_lt.mpr hnm)
    | rational q => exact congrArg rational (le_antisymm hmn hnm)

end Number

/-! ## sorting by a key -/

/-- the items `xs` sorted by a key; items with the same key stay in the order that they had -/
structure StablySorted {κ : Type} [DecidableEq κ] (key : Value → κ) (le : κ → κ → Prop)
    (xs ys : List Value) : Prop where
  perm : ys.Perm xs
  sorted : ys.Pairwise fun v w => le (key v) (key w)
  stable : ∀ k, (ys.filter fun v => key v = k) = xs.filter fun v => key v = k

/-- two lists sorted by a key in which the items with each key stand in the same order -/
theorem eq_of_sorted_of_stable {κ : Type} [DecidableEq κ] {key : Value → κ} {le : κ → κ → Prop}
    {ys zs : List Value} (hy : ys.Pairwise fun v w => le (key v) (key w))
    (hz : zs.Pairwise fun v w => le (key v) (key w))
    (hanti : ∀ v ∈ ys, ∀ w ∈ ys, le (key v) (key w) → le (key w) (key v) → key v = key w)
    (hclass : ∀ k, (ys.filter fun v => key v = k) = zs.filter fun v => key v = k) : ys = zs := by
  have hmem (us vs : List Value)
      (h : ∀ k, (us.filter fun v => key v = k) = vs.filter fun v => key v = k) :
      ∀ v ∈ us, v ∈ vs := by
    intro v hv
    have hin : v ∈ us.filter fun u => key u = key v :=
      List.mem_filter.mpr ⟨hv, decide_eq_true rfl⟩
    rw [h] at hin
    exact (List.mem_filter.mp hin).1
  induction ys generalizing zs with
  | nil => exact (List.eq_nil_iff_forall_not_mem.mpr fun v hv =>
      absurd (hmem zs [] (fun k => (hclass k).symm) v hv) List.not_mem_nil).symm
  | cons y ys ih =>
    cases zs with
    | nil => exact absurd (hmem _ _ hclass y List.mem_cons_self) List.not_mem_nil
    | cons z zs =>
      obtain ⟨hyle, hys⟩ := List.pairwise_cons.mp hy
      obtain ⟨hzle, hzs⟩ := List.pairwise_cons.mp hz
      have hzmem := hmem _ _ (fun k => (hclass k).symm) z List.mem_cons_self
      have hymem := hmem _ _ hclass y List.mem_cons_self
      -- the first items have the least keys, so they have the same key
      have hkey : key y = key z := by
        rcases List.mem_cons.mp hzmem with rfl | hzys
        · rfl
        rcases List.mem_cons.mp hymem with rfl | hyzs
        · rfl
        · exact hanti y List.mem_cons_self z hzmem (hyle z hzys) (hzle y hyzs)
      have hfirst := hclass (key y)
      rw [List.filter_cons, List.filter_cons, if_pos (decide_eq_true rfl),
        if_pos (decide_eq_true hkey.symm)] at hfirst
      obtain ⟨rfl, -⟩ := List.cons.inj hfirst
      refine congrArg (y :: ·) (ih hys hzs (fun v hv w hw => ?_) fun k => ?_)
      · exact hanti v (List.mem_cons_of_mem y hv) w (List.mem_cons_of_mem y hw)
      · have hk := hclass k
        rw [List.filter_cons, List.filter_cons] at hk
        split at hk
        · exact (List.cons.inj hk).2
        · exact hk

/-- there is one way to sort a list so -/
theorem StablySorted.unique {κ : Type} [DecidableEq κ] {key : Value → κ} {le : κ → κ → Prop}
    {xs ys zs : List Value}
    (hanti : ∀ v ∈ xs, ∀ w ∈ xs, le (key v) (key w) → le (key w) (key v) → key v = key w)
    (hy : StablySorted key le xs ys) (hz : StablySorted key le xs zs) : ys = zs := by
  refine eq_of_sorted_of_stable hy.sorted hz.sorted (fun v hv w hw => ?_) fun k => ?_
  · exact hanti v (hy.perm.mem_iff.mp hv) w (hy.perm.mem_iff.mp hw)
  · rw [hy.stable k, hz.stable k]

section
variable {κ : Type} [DecidableEq κ] (key : Value → κ) (le : κ → κ → Prop)
  {test : κ × Value → κ × Value → Bool} (htest : ∀ e f, test e f = true ↔ le e.1 f.1)
  (htrans : ∀ a b c, le a b → le b c → le a c) (htotal : ∀ a b, le a b ∨ le b a)
include htest htrans htotal

theorem stablySorted_mergeSort (xs : List Value) :
    StablySorted key le xs (((xs.map (Value.withKey key)).mergeSort test).map (·.2)) := by
  generalize hentries : xs.map (Value.withKey key) = es
  have htestTrans (e f g : κ × Value) (hef : test e f = true) (hfg : test f g = true) :
      test e g = true :=
    (htest e g).mpr (htrans _ _ _ ((htest e f).mp hef) ((htest f g).mp hfg))
  have htestTotal (e f : κ × Value) : (test e f || test f e) = true := by
    rw [Bool.or_eq_true, htest, htest]
    exact htotal e.1 f.1
  have hkey (e : κ × Value) (he : e ∈ es) : e.1 = key e.2 := by
    obtain ⟨v, -, rfl⟩ := List.mem_map.mp (hentries ▸ he)
    rfl
  have hitems : es.map (·.2) = xs := by
    rw [← hentries, List.map_map]
    exact List.map_id xs
  have hperm := List.mergeSort_perm es test
  refine ⟨hitems ▸ hperm.map _, ?_, fun k => ?_⟩
  · rw [List.pairwise_map]
    refine (List.pairwise_mergeSort htestTrans htestTotal es).imp_of_mem fun he hf hef => ?_
    rw [← hkey _ (hperm.mem_iff.mp he), ← hkey _ (hperm.mem_iff.mp hf)]
    exact (htest _ _).mp hef
  · -- the items with one key are sorted as they stand, and sorting keeps a sorted sublist
    have hclass : (es.filter fun e => key e.2 = k).Pairwise fun e f => test e f = true := by
      refine List.pairwise_of_forall_mem_list fun e he f hf => (htest e f).mpr ?_
      rw [List.mem_filter, decide_eq_true_eq] at he hf
      rw [hkey e he.1, hkey f hf.1, he.2, hf.2]
      exact (htotal k k).elim id id
    have hsub := (List.sublist_mergeSort htestTrans htestTotal hclass List.filter_sublist).filter
      fun e => decide (key e.2 = k)
    rw [List.filter_filter] at hsub
    simp only [Bool.and_self] at hsub
    have hsame := hsub.eq_of_length (hperm.filter _).length_eq.symm
    rw [← hitems, List.filter_map, List.filter_map]
    exact congrArg (List.map (·.2)) hsame.symm

end

/-! ## numbers first -/

/-- the numbers among the items `xs`, sorted, and behind them all other items as they stand -/
def NumbersFirst (le : Number → Number → Prop) (xs ys : List Value) : Prop :=
  ∃ nums, ys = nums ++ xs.filter (fun v => v.toNumber?.isNone) ∧
    StablySorted Value.toNumber? (fun a b => ∀ m ∈ a, ∀ n ∈ b, le m n)
      (xs.filter fun v => v.toNumber?.isSome) nums

/-- numbers in their order, and in front of what is no number -/
def numbersBefore (le : Number → Number → Prop) : Option Number → Option Number → Prop
  | some m, some n => le m n
  | none, some _ => False
  | _, none => True

section
variable {le : Number → Number → Prop}

theorem numbersBefore_trans (h : ∀ l m n, le l m → le m n → le l n) (a b c : Option Number)
    (hab : numbersBefore le a b) (hbc : numbersBefore le b c) : numbersBefore le a c := by
  cases a with
  | none =>
    cases b with
    | none => exact hbc
    | some m => exact hab.elim
  | some l =>
    cases c with
    | none => trivial
    | some n =>
      cases b with
      | none => exact hbc.elim
      | some m => exact h l m n hab hbc

theorem numbersBefore_total (h : ∀ m n, le m n ∨ le n m) (a b : Option Number) :
    numbersBefore le a b ∨ numbersBefore le b a := by
  cases a with
  | none => exact .inr (by cases b <;> trivial)
  | some m =>
    cases b with
    | none => exact .inl trivial
    | some n => exact h m n

theorem eq_filter_append_filter {α : Type} {p q : α → Bool} (hq : ∀ v, q v = !p v) {ys : List α}
    (h : ys.Pairwise fun v w => p w = true → p v = true) : ys = ys.filter p ++ ys.filter q := by
  induction ys with
  | nil => rfl
  | cons y ys ih =>
    obtain ⟨hy, hys⟩ := List.pairwise_cons.mp h
    cases hp : p y with
    | true =>
      have hqy : ¬q y = true := by simp [hq, hp]
      rw [List.filter_cons_of_pos hp, List.filter_cons_of_neg hqy, List.cons_append]
      exact congrArg (y :: ·) (ih hys)
    | false =>
      have hall : ∀ w ∈ y :: ys, p w = false := by
        refine List.forall_mem_cons.mpr ⟨hp, fun w hw => Bool.eq_false_iff.mpr fun hpw => ?_⟩
        rw [hy w hw hpw] at hp
        cases hp
      have hnone : (y :: ys).filter p = [] :=
        List.filter_eq_nil_iff.mpr fun w hw => by simp [hall w hw]
      have hevery : (y :: ys).filter q = y :: ys :=
        List.filter_eq_self.mpr fun w hw => by simp [hq, hall w hw]
      rw [hnone, hevery, List.nil_append]

theorem StablySorted.numbersFirst {xs ys : List Value}
    (h : StablySorted Value.toNumber? (numbersBefore le) xs ys) : NumbersFirst le xs ys := by
  have hparts : ys = ys.filter (fun v => v.toNumber?.isSome) ++
      ys.filter fun v => v.toNumber?.isNone := by
    refine eq_filter_append_filter (fun v => by simp) (h.sorted.imp fun {v w} hvw hw => ?_)
    cases hv : v.toNumber? with
    | some m => rfl
    | none =>
      obtain ⟨n, hn⟩ := Option.isSome_iff_exists.mp hw
      rw [hv, hn] at hvw
      exact hvw.elim
  have hothers : ys.filter (fun v => v.toNumber?.isNone) =
      xs.filter fun v => v.toNumber?.isNone := by
    have hstable := h.stable none
    simpa only [← Option.isNone_iff_eq_none, Bool.decide_eq_true] using hstable
  refine ⟨ys.filter fun v => v.toNumber?.isSome, hothers ▸ hparts, h.perm.filter _, ?_, fun k => ?_⟩
  · refine (h.sorted.filter _).imp fun {v w} hvw m hm n hn => ?_
    rw [Option.mem_def.mp hm, Option.mem_def.mp hn] at hvw
    exact hvw
  · have hswap (zs : List Value) : ((zs.filter fun v => v.toNumber?.isSome).filter
        fun v => v.toNumber? = k) = (zs.filter fun v => v.toNumber? = k).filter
          fun v => v.toNumber?.isSome := by
      rw [List.filter_filter, List.filter_filter]
      exact List.filter_congr fun v _ => Bool.and_comm _ _
    rw [hswap, hswap, h.stable k]

end

/-! ## the orders -/

/-- what the items `xs` may become in an order, or without any -/
def Order.Arranges (xs ys : List Value) : Option Order → Prop
  | none => ys = xs
  | some .reversed => ys = xs.reverse
  | some .alphabetical => StablySorted Value.display Text.Le xs ys
  | some .alphareversed => StablySorted Value.display Text.Le xs ys.reverse
  | some .increasing => NumbersFirst (fun m n => m.Le n) xs ys
  | some .decreasing => NumbersFirst (fun m n => n.Le m) xs ys
  | some .randomized => ys.Perm xs

theorem stablySorted_sortByDisplay (xs : List Value) :
    StablySorted Value.display Text.Le xs (Value.sortByDisplay xs) := by
  refine stablySorted_mergeSort Value.display Text.Le (fun e f => ?_) (fun _ _ _ => Text.Le.trans)
    Text.Le.total xs
  rw [Value.displayLe, bne_iff_ne, Text.compare_ne_gt_iff]

theorem stablySorted_sortByNumber (falling : Bool) (xs : List Value) :
    StablySorted Value.toNumber? (numbersBefore fun m n => if falling then n.Le m else m.Le n) xs
      (Value.sortByNumber falling xs) := by
  refine stablySorted_mergeSort Value.toNumber? (numbersBefore _) (fun e f => ?_)
    (numbersBefore_trans ?_) (numbersBefore_total ?_) xs
  · rw [Value.numericLe]
    cases e.1 with
    | none => cases f.1 <;> simp [numbersBefore]
    | some m =>
      cases f.1 with
      | none => simp [numbersBefore]
      | some n => cases falling <;> exact Number.totalLe_iff
  · intro l m n
    cases falling with
    | false => exact Number.Le.trans
    | true => exact fun hlm hmn => Number.Le.trans hmn hlm
  · intro m n
    cases falling with
    | false => exact Number.Le.total m n
    | true => exact Number.Le.total n m

theorem NumbersFirst.perm {le : Number → Number → Prop} {xs ys : List Value}
    (h : NumbersFirst le xs ys) : ys.Perm xs := by
  obtain ⟨nums, rfl, hnums⟩ := h
  have hothers (v : Value) : v.toNumber?.isNone = !v.toNumber?.isSome := by
    cases v.toNumber? <;> rfl
  simp only [hothers] at hnums ⊢
  exact (hnums.perm.append_right _).trans (List.filter_append_perm _ xs)

theorem NumbersFirst.unique {le : Number → Number → Prop}
    (hanti : ∀ m n, le m n → le n m → m = n) {xs ys zs : List Value}
    (hy : NumbersFirst le xs ys) (hz : NumbersFirst le xs zs) : ys = zs := by
  obtain ⟨nums, rfl, hnums⟩ := hy
  obtain ⟨nums', rfl, hnums'⟩ := hz
  refine congrArg (· ++ _) (hnums.unique (fun v hv w hw hvw hwv => ?_) hnums')
  obtain ⟨m, hm⟩ := Option.isSome_iff_exists.mp (List.mem_filter.mp hv).2
  obtain ⟨n, hn⟩ := Option.isSome_iff_exists.mp (List.mem_filter.mp hw).2
  rw [hm, hn, hanti m n (hvw m hm n hn) (hwv n hn m hm)]

/-- every order but the random one leaves no choice -/
theorem Order.Arranges.unique {xs ys zs : List Value} {o : Option Order}
    (ho : o ≠ some .randomized) (hy : Arranges xs ys o) (hz : Arranges xs zs o) : ys = zs := by
  have hdisplay {us vs : List Value} (hu : StablySorted Value.display Text.Le xs us)
      (hv : StablySorted Value.display Text.Le xs vs) : us = vs :=
    hu.unique (fun _ _ _ _ => Text.Le.antisymm) hv
  cases o with
  | none => exact Eq.trans hy (Eq.symm hz)
  | some o =>
    cases o with
    | reversed => exact Eq.trans hy (Eq.symm hz)
    | alphabetical => exact hdisplay hy hz
    | alphareversed => exact List.reverse_inj.mp (hdisplay hy hz)
    | increasing => exact NumbersFirst.unique (fun _ _ => Number.Le.antisymm) hy hz
    | decreasing => exact NumbersFirst.unique (fun _ _ h h' => Number.Le.antisymm h' h) hy hz
    | randomized => exact absurd rfl ho

/-- in every order all items are there -/
theorem Order.Arranges.perm {xs ys : List Value} {o : Option Order} (h : Arranges xs ys o) :
    ys.Perm xs := by
  cases o with
  | none => exact List.Perm.of_eq h
  | some o =>
    cases o with
    | reversed => exact (List.Perm.of_eq h).trans (List.reverse_perm xs)
    | alphabetical => exact StablySorted.perm h
    | alphareversed => exact (List.reverse_perm ys).symm.trans (StablySorted.perm h)
    | increasing => exact NumbersFirst.perm h
    | decreasing => exact NumbersFirst.perm h
    | randomized => exact h

/-- **Putting a list in an order** notes nothing and leaves the host as it is.  The generator is
left as well unless the order is random, which is then the one that the generator gives. -/
theorem Order.rearrange_arranges {σ : Type} (o : Order) (xs : List Value) (w : World σ) :
    ∃ (ys : List Value) (w' : World σ), o.rearrange xs w = ⟨ys, [], w'⟩ ∧ Arranges xs ys (some o) ∧
      w'.host = w.host ∧ (o ≠ .randomized → w' = w) ∧
      (o = .randomized → w.generator.shuffle xs = (ys, w'.generator)) := by
  cases o with
  | reversed => exact ⟨_, w, rfl, rfl, rfl, fun _ => rfl, nofun⟩
  | alphabetical => exact ⟨_, w, rfl, stablySorted_sortByDisplay xs, rfl, fun _ => rfl, nofun⟩
  | alphareversed =>
    refine ⟨_, w, rfl, ?_, rfl, fun _ => rfl, nofun⟩
    rw [Arranges, List.reverse_reverse]
    exact stablySorted_sortByDisplay xs
  | increasing =>
    exact ⟨_, w, rfl, (stablySorted_sortByNumber false xs).numbersFirst, rfl, fun _ => rfl, nofun⟩
  | decreasing =>
    exact ⟨_, w, rfl, (stablySorted_sortByNumber true xs).numbersFirst, rfl, fun _ => rfl, nofun⟩
  | randomized =>
    exact ⟨_, _, rfl, w.generator.shuffle_perm xs, rfl, fun h => absurd rfl h, fun _ => rfl⟩

end Stencil
