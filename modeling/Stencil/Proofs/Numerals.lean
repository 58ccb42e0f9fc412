import Mathlib.Algebra.Order.Field.Rat
import Mathlib.Tactic.Linarith
import Mathlib.Tactic.Positivity
import Stencil.Proofs.Json.Numbers

/-!
# Numerals

What is read as a number: decimal literals and three words.  A whole number in decimal digits is read
as itself if it is small enough to be exact, and else as a whole number that is not small either, or
as infinity.

* `Text.Signed`                 a property of what stands behind an optional sign;
* `Text.IsDecimal`, `Text.IsNumberWord`   decimal literals, and the words for other numbers;
* `Number.isSome_read?_iff`     nothing else is a number;
* `Number.isNumeralChar_of_read?`   the characters of a number;
* `Number.nearest_natCast`      the number nearest to a large whole one;
* `Number.read?_natDigits`, `Number.ofDecimal_zero`   decimal digits as a number.
-/

namespace Stencil

/-! ## literals -/

namespace Text

def Digits (t : Text) : Prop := ∀ c ∈ t, c.isDigit = true

def signs : List Text := [[], ['+'], ['-']]

/-- digits with an optional point in front of them, behind them or between them -/
inductive Mantissa : Text → Prop
  | whole {ds : Text} (hd : ds.Digits) (hne : ds ≠ []) : Mantissa ds
  | pointed {ds es : Text} (hd : ds.Digits) (he : es.Digits) (hne : ¬(ds = [] ∧ es = [])) :
      Mantissa (ds ++ '.' :: es)

/-- nothing, or an `e` with an optional sign and digits behind it -/
inductive Exponent : Text → Prop
  | absent : Exponent []
  | marked {c : Char} {s ds : Text} (hc : c = 'e' ∨ c = 'E') (hs : s ∈ signs)
      (hd : ds.Digits) (hne : ds ≠ []) : Exponent (c :: (s ++ ds))

def Signed (P : Text → Prop) (t : Text) : Prop := ∃ s ∈ signs, ∃ r, t = s ++ r ∧ P r

/-- a decimal number literal without a sign: digits with an optional point, and an optional
exponent -/
def UnsignedDecimal (t : Text) : Prop := ∃ m x, t = m ++ x ∧ Mantissa m ∧ Exponent x

/-- a word for what is no decimal number, in any case -/
def UnsignedWord (t : Text) : Prop :=
  (t.map Char.toLower = "inf".toList ∨ t.map Char.toLower = "infinity".toList) ∨
    t.map Char.toLower = "nan".toList

/-- a decimal number literal -/
def IsDecimal (t : Text) : Prop := t.Signed UnsignedDecimal

/-- a word for a number that is no decimal, with an optional sign -/
def IsNumberWord (t : Text) : Prop := t.Signed UnsignedWord

theorem mem_signs {s : Text} : s ∈ signs ↔ s = [] ∨ s = ['+'] ∨ s = ['-'] := by
  simp only [signs, List.mem_cons, List.not_mem_nil, or_false]

theorem signed_or {P Q : Text → Prop} {t : Text} :
    t.Signed (fun r => P r ∨ Q r) ↔ t.Signed P ∨ t.Signed Q := by
  simp only [Signed, and_or_left, exists_or]

instance (P : Text → Prop) [DecidablePred P] (t : Text) : Decidable (t.Signed P) :=
  decidable_of_iff (∃ s ∈ signs, s <+: t ∧ P (t.drop s.length)) <| by
    refine exists_congr fun s => and_congr_right fun _ => ?_
    constructor
    · rintro ⟨⟨r, rfl⟩, hr⟩
      rw [List.drop_left] at hr
      exact ⟨r, rfl, hr⟩
    · rintro ⟨r, rfl, hr⟩
      rw [List.drop_left]
      exact ⟨List.prefix_append s r, hr⟩

theorem digits_iff_all {t : Text} : t.Digits ↔ t.all Char.isDigit = true :=
  List.all_eq_true.symm

theorem Digits.head_ne {c d : Char} {t : Text} (h : Digits (c :: t)) (hd : d.isDigit = false) :
    c ≠ d := by
  rintro rfl
  rw [h c List.mem_cons_self] at hd
  cases hd

theorem Digits.span {ds t : Text} (hd : ds.Digits) (ht : ∀ c ∈ t.head?, c.isDigit = false) :
    (ds ++ t).takeWhile Char.isDigit = ds ∧ (ds ++ t).dropWhile Char.isDigit = t := by
  rw [List.takeWhile_append_of_pos hd, List.dropWhile_append_of_pos hd]
  cases t with
  | nil => exact ⟨List.append_nil ds, rfl⟩
  | cons c t =>
    have hc : ¬c.isDigit = true := Bool.eq_false_iff.mp (ht c rfl)
    rw [List.takeWhile_cons_of_neg hc, List.dropWhile_cons_of_neg hc]
    exact ⟨List.append_nil ds, rfl⟩

theorem digits_takeWhile (t : Text) : Digits (t.takeWhile Char.isDigit) := by
  rw [digits_iff_all]
  exact List.all_takeWhile

theorem Exponent.head {t : Text} (h : Exponent t) :
    ∀ c ∈ t.head?, c.isDigit = false ∧ c ≠ '.' := by
  cases h with
  | absent => exact fun c hc => absurd hc (by simp)
  | marked hc =>
    intro d hd
    obtain rfl := Option.some.inj hd
    rcases hc with rfl | rfl <;> decide

/-! ### characters -/

theorem isAlphanum_of_toLower {c : Char} (h : c.toLower.isAlphanum = true) :
    c.isAlphanum = true := by
  by_cases hu : c.isUpper = true
  · show ((c.isUpper || c.isLower) || c.isDigit) = true
    rw [hu]
    rfl
  · have hlower : c.toLower = c := dif_neg fun hrange => hu (decide_eq_true hrange)
    rwa [hlower] at h

/-- whether a character can stand in a number: a letter, a digit, a sign or the point -/
def isNumeralChar (c : Char) : Bool := c.isAlphanum || c ∈ ['+', '-', '.']

theorem isNumeralChar_of_isAlphanum {c : Char} (h : c.isAlphanum = true) :
    isNumeralChar c = true := by
  rw [isNumeralChar, h]
  rfl

theorem isNumeralChar_of_mem_signs {s : Text} (h : s ∈ signs) : ∀ c ∈ s, isNumeralChar c = true := by
  rcases mem_signs.mp h with rfl | rfl | rfl <;> exact List.all_eq_true.mp rfl

theorem Digits.isNumeralChar {t : Text} (h : t.Digits) : ∀ c ∈ t, isNumeralChar c = true := by
  intro c hc
  refine isNumeralChar_of_isAlphanum ?_
  show (c.isAlpha || c.isDigit) = true
  rw [h c hc, Bool.or_true]

theorem Mantissa.isNumeralChar {t : Text} (h : Mantissa t) : ∀ c ∈ t, isNumeralChar c = true := by
  cases h with
  | whole hd => exact hd.isNumeralChar
  | pointed hd he =>
    refine List.forall_mem_append.mpr ⟨hd.isNumeralChar, ?_⟩
    exact List.forall_mem_cons.mpr ⟨by decide, he.isNumeralChar⟩

theorem Exponent.isNumeralChar {t : Text} (h : Exponent t) : ∀ c ∈ t, isNumeralChar c = true := by
  cases h with
  | absent => exact fun c hc => absurd hc List.not_mem_nil
  | marked hc hs hd =>
    refine List.forall_mem_cons.mpr ⟨?_, ?_⟩
    · rcases hc with rfl | rfl <;> decide
    · exact List.forall_mem_append.mpr ⟨isNumeralChar_of_mem_signs hs, hd.isNumeralChar⟩

theorem UnsignedWord.isNumeralChar {t : Text} (h : UnsignedWord t) :
    ∀ c ∈ t, isNumeralChar c = true := by
  have hof (w : Text) (hw : ∀ d ∈ w, d.isAlphanum = true) (hword : t.map Char.toLower = w) :
      ∀ c ∈ t, Text.isNumeralChar c = true := by
    intro c hc
    have hmem : c.toLower ∈ w := hword ▸ List.mem_map_of_mem hc
    exact isNumeralChar_of_isAlphanum (isAlphanum_of_toLower (hw _ hmem))
  rcases h with (h | h) | h
  · exact hof _ (List.all_eq_true.mp rfl) h
  · exact hof _ (List.all_eq_true.mp rfl) h
  · exact hof _ (List.all_eq_true.mp rfl) h

end Text

/-! ## reading -/

namespace Number

theorem isSome_readExponent?_iff {t : Text} :
    (readExponent? t).isSome = true ↔ t.Exponent := by
  have hdigits (ds : Text) (e : Int) : (if ds ≠ [] ∧ ds.all Char.isDigit then some e
      else none).isSome = true ↔ ds.Digits ∧ ds ≠ [] := by
    rw [Text.digits_iff_all]
    by_cases h : ds ≠ [] ∧ ds.all Char.isDigit = true
    · simp only [if_pos h, Option.isSome_some, true_iff]
      exact h.symm
    · simp only [if_neg h, Option.isSome_none, Bool.false_eq_true, false_iff]
      exact fun h' => h h'.symm
  constructor
  · intro h
    unfold readExponent? at h
    split at h
    · exact .absent
    split at h
    · rename_i hc
      split at h
      · obtain ⟨hd, hne⟩ := (hdigits _ _).mp h
        exact .marked (s := ['-']) hc (by decide) hd hne
      · obtain ⟨hd, hne⟩ := (hdigits _ _).mp h
        exact .marked (s := ['+']) hc (by decide) hd hne
      · obtain ⟨hd, hne⟩ := (hdigits _ _).mp h
        exact .marked (s := []) hc (by decide) hd hne
    · cases h
  · intro h
    cases h with
    | absent => rfl
    | @marked c s ds hc hs hd hne =>
      unfold readExponent?
      dsimp only
      rw [if_pos hc]
      rcases Text.mem_signs.mp hs with rfl | rfl | rfl
      · split
        · rename_i h
          obtain rfl : ds = '-' :: _ := h
          exact absurd rfl (hd.head_ne rfl)
        · rename_i h
          obtain rfl : ds = '+' :: _ := h
          exact absurd rfl (hd.head_ne rfl)
        · exact (hdigits _ _).mpr ⟨hd, hne⟩
      · exact (hdigits _ _).mpr ⟨hd, hne⟩
      · exact (hdigits _ _).mpr ⟨hd, hne⟩

theorem isSome_readDecimal?_iff {t : Text} :
    (readDecimal? t).isSome = true ↔ t.UnsignedDecimal := by
  constructor
  · intro h
    have htext : t.takeWhile Char.isDigit ++ t.dropWhile Char.isDigit = t :=
      List.takeWhile_append_dropWhile
    have hwhole := Text.digits_takeWhile t
    unfold readDecimal? at h
    revert h htext hwhole
    generalize t.takeWhile Char.isDigit = whole, t.dropWhile Char.isDigit = rest
    intro h htext hwhole
    dsimp only at h
    split at h
    · rename_i r
      split at h
      · cases h
      rename_i hne
      rw [Option.isSome_map] at h
      refine ⟨_, _, ?_, .pointed hwhole (Text.digits_takeWhile r) hne, isSome_readExponent?_iff.mp h⟩
      rw [← htext, List.append_assoc, List.cons_append, List.takeWhile_append_dropWhile]
    · split at h
      · cases h
      rename_i hne
      rw [Option.isSome_map] at h
      exact ⟨whole, rest, htext.symm, .whole hwhole fun hnil => hne ⟨hnil, rfl⟩,
        isSome_readExponent?_iff.mp h⟩
  · rintro ⟨m, x, rfl, hm, hx⟩
    have hread := isSome_readExponent?_iff.mpr hx
    cases hm with
    | whole hd hne =>
      obtain ⟨htake, hdrop⟩ := hd.span fun c hc => (hx.head c hc).1
      unfold readDecimal?
      rw [htake, hdrop]
      dsimp only
      split
      · exact absurd rfl (hx.head '.' rfl).2
      · rw [if_neg fun h => hne h.1, Option.isSome_map]
        exact hread
    | @pointed ds es hd he hne =>
      have hbehind : ∀ c ∈ ('.' :: (es ++ x)).head?, c.isDigit = false :=
        fun c hc => Option.some.inj hc ▸ rfl
      obtain ⟨htake, hdrop⟩ := hd.span hbehind
      obtain ⟨htake', hdrop'⟩ := he.span fun c hc => (hx.head c hc).1
      unfold readDecimal?
      rw [List.append_assoc, List.cons_append, htake, hdrop]
      simp only [htake', hdrop', if_neg hne, Option.isSome_map]
      exact hread

theorem isSome_readUnsigned?_iff {t : Text} :
    (readUnsigned? t).isSome = true ↔ t.UnsignedDecimal ∨ t.UnsignedWord := by
  rw [← isSome_readDecimal?_iff, readUnsigned?]
  split
  · rename_i hinf
    exact ⟨fun _ => .inr (.inl hinf), fun _ => rfl⟩
  split
  · rename_i hnan
    exact ⟨fun _ => .inr (.inr hnan), fun _ => rfl⟩
  · rename_i hinf hnan
    exact (or_iff_left (not_or.mpr ⟨hinf, hnan⟩)).symm

/-- what a number without a sign starts with -/
theorem head_of_isSome_readUnsigned? {c : Char} {t : Text}
    (h : (readUnsigned? (c :: t)).isSome = true) :
    c.isDigit = true ∨ c = '.' ∨ c.toLower = 'i' ∨ c.toLower = 'n' := by
  rcases isSome_readUnsigned?_iff.mp h with ⟨m, x, htext, hm, -⟩ | hword
  · cases hm with
    | @whole ds hd hne =>
      obtain ⟨d, ds, rfl⟩ := List.exists_cons_of_ne_nil hne
      obtain ⟨rfl, -⟩ := List.cons.inj htext
      exact .inl (hd c List.mem_cons_self)
    | @pointed ds es hd he hne =>
      cases ds with
      | nil =>
        obtain ⟨rfl, -⟩ := List.cons.inj htext
        exact .inr (.inl rfl)
      | cons d ds =>
        obtain ⟨rfl, -⟩ := List.cons.inj htext
        exact .inl (hd c List.mem_cons_self)
  · rcases hword with (hword | hword) | hword
    · exact .inr (.inr (.inl (List.cons.inj hword).1))
    · exact .inr (.inr (.inl (List.cons.inj hword).1))
    · exact .inr (.inr (.inr (List.cons.inj hword).1))

theorem readUnsigned?_of_digit {c : Char} (hc : c.isDigit = true) (t : Text) :
    readUnsigned? (c :: t) = readDecimal? (c :: t) := by
  have hlower : c.toLower = c := by
    have hnine : c.val ≤ '9'.val := by
      simp only [Char.isDigit, Bool.and_eq_true, decide_eq_true_eq] at hc
      exact hc.2
    have hletter : ¬ 'A'.val ≤ '9'.val := by decide
    exact dif_neg fun h => hletter (UInt32.le_trans h.1 hnine)
  have hword (d : Char) (w : Text) (hd : d.isDigit = false) :
      ¬(c :: t).map Char.toLower = d :: w := by
    rw [List.map_cons, hlower]
    intro h
    rw [(List.cons.inj h).1, hd] at hc
    cases hc
  have hinf := hword 'i' "nf".toList rfl
  have hinfinity := hword 'i' "nfinity".toList rfl
  exact (if_neg (not_or.mpr ⟨hinf, hinfinity⟩)).trans (if_neg (hword 'n' "an".toList rfl))

/-- a text that starts with no sign is read as a number without a sign -/
theorem read?_unsigned {c : Char} (hm : c ≠ '-') (hp : c ≠ '+') (t : Text) :
    read? (c :: t) = readUnsigned? (c :: t) := by
  unfold read?
  split
  · rename_i h
    exact absurd (List.cons.inj h).1 hm
  · rename_i h
    exact absurd (List.cons.inj h).1 hp
  · rfl

theorem read?_of_isSome_readUnsigned? {t : Text} (h : (readUnsigned? t).isSome = true) :
    read? t = readUnsigned? t := by
  cases t with
  | nil => rfl
  | cons c t =>
    have hhead := head_of_isSome_readUnsigned? h
    have hne (d : Char) (hd : ¬(d.isDigit = true ∨ d = '.' ∨ d.toLower = 'i' ∨ d.toLower = 'n')) :
        c ≠ d := by
      rintro rfl
      exact hd hhead
    exact read?_unsigned (hne '-' (by decide)) (hne '+' (by decide)) t

theorem isSome_read?_iff_signed {t : Text} :
    (read? t).isSome = true ↔ t.Signed fun r => (readUnsigned? r).isSome = true := by
  constructor
  · intro h
    unfold read? at h
    split at h
    · rw [Option.isSome_map] at h
      exact ⟨['-'], by decide, _, rfl, h⟩
    · exact ⟨['+'], by decide, _, rfl, h⟩
    · exact ⟨[], by decide, _, rfl, h⟩
  · rintro ⟨s, hs, r, rfl, hr⟩
    rcases Text.mem_signs.mp hs with rfl | rfl | rfl
    · rwa [List.nil_append, read?_of_isSome_readUnsigned? hr]
    · exact hr
    · show (Option.map neg (readUnsigned? r)).isSome = true
      rw [Option.isSome_map]
      exact hr

/-- **What is read as a number**: decimal literals and three words -/
theorem isSome_read?_iff {t : Text} :
    (read? t).isSome = true ↔ t.IsDecimal ∨ t.IsNumberWord := by
  rw [isSome_read?_iff_signed, Text.IsDecimal, Text.IsNumberWord, ← Text.signed_or]
  simp only [isSome_readUnsigned?_iff]

theorem isNumeralChar_of_read? {t : Text} {n : Number} (h : read? t = some n) :
    ∀ c ∈ t, Text.isNumeralChar c = true := by
  rcases isSome_read?_iff.mp (Option.isSome_of_eq_some h) with hdecimal | hword
  · obtain ⟨s, hs, r, rfl, m, x, rfl, hm, hx⟩ := hdecimal
    exact List.forall_mem_append.mpr ⟨Text.isNumeralChar_of_mem_signs hs,
      List.forall_mem_append.mpr ⟨hm.isNumeralChar, hx.isNumeralChar⟩⟩
  · obtain ⟨s, hs, r, rfl, hr⟩ := hword
    exact List.forall_mem_append.mpr ⟨Text.isNumeralChar_of_mem_signs hs, hr.isNumeralChar⟩

instance : DecidablePred Text.UnsignedDecimal := fun _ => decidable_of_iff _ isSome_readDecimal?_iff

instance : DecidablePred Text.UnsignedWord := fun _ => inferInstanceAs (Decidable ((_ ∨ _) ∨ _))

instance (t : Text) : Decidable t.IsDecimal := inferInstanceAs (Decidable (t.Signed _))

instance (t : Text) : Decidable t.IsNumberWord := inferInstanceAs (Decidable (t.Signed _))

theorem toRat?_neg {n : Number} (h : n.toRat? = none) : n.neg.toRat? = none := by
  cases n with
  | nan s => rfl
  | infinity s => rfl
  | negZero => cases h
  | rational q => cases h

theorem readUnsigned?_of_word {t : Text} (h : t.UnsignedWord) :
    ∃ n, readUnsigned? t = some n ∧ n.toRat? = none := by
  rw [readUnsigned?]
  split
  · exact ⟨_, rfl, rfl⟩
  split
  · exact ⟨_, rfl, rfl⟩
  · rename_i hinf hnan
    exact absurd h (not_or.mpr ⟨hinf, hnan⟩)

theorem read?_of_isNumberWord {t : Text} (h : t.IsNumberWord) :
    ∃ n, read? t = some n ∧ n.toRat? = none := by
  obtain ⟨s, hs, w, rfl, hw⟩ := h
  obtain ⟨n, hread, hrat⟩ := readUnsigned?_of_word hw
  rcases Text.mem_signs.mp hs with rfl | rfl | rfl
  · have hsome : (readUnsigned? w).isSome = true := Option.isSome_of_eq_some hread
    exact ⟨n, (read?_of_isSome_readUnsigned? hsome).trans hread, hrat⟩
  · exact ⟨n, hread, hrat⟩
  · exact ⟨n.neg, congrArg (Option.map neg) hread, toRat?_neg hrat⟩

theorem read?_quoted (t : Text) : read? ('\"' :: t) = none := by
  rw [read?_unsigned (by decide) (by decide), ← Option.not_isSome_iff_eq_none]
  intro h
  have hhead := head_of_isSome_readUnsigned? h
  revert hhead
  decide

/-! ## whole numbers -/

theorem powInt_natCast (b e : Nat) : powInt b e = ((b ^ e : Nat) : Rat) := by
  rw [powInt, if_pos (Int.natCast_nonneg e), Int.toNat_natCast]
  rfl

theorem powInt_neg_natCast (b e : Nat) : powInt b (-e) = 1 / ((b ^ e : Nat) : Rat) := by
  by_cases h : e = 0
  · subst h
    simp [powInt]
  · rw [powInt, if_neg (by omega), Int.neg_neg, Int.toNat_natCast]
    rfl

theorem floorLog2_natCast {i : Nat} (h : i ≠ 0) : floorLog2 i = Nat.log2 i := by
  have hone : Nat.log2 1 = 0 := by decide
  have hle : powInt 2 (Nat.log2 i) ≤ (i : Rat) := by
    rw [powInt_natCast]
    exact_mod_cast Nat.log2_self_le h
  unfold floorLog2
  rw [Rat.num_natCast, Rat.den_natCast, Int.natAbs_natCast, hone, Int.natCast_zero, Int.sub_zero]
  exact if_pos hle

theorem le_roundHalfEven {q : Rat} {k : Int} (h : (k : Rat) ≤ q) : k ≤ roundHalfEven q := by
  have hfloor : k ≤ q.floor := Rat.le_floor_iff.mpr h
  unfold roundHalfEven
  dsimp only
  split
  · exact hfloor
  split
  · omega
  split
  · exact hfloor
  · omega

/-- a whole number that is too large to be exact is rounded to a multiple of a power of two, which is
as large as an exact number can be -/
theorem exists_rounded_natCast {i : Nat} (h : exactBound < i) :
    ∃ d m : Nat, unitExponent i = d ∧ roundHalfEven (i * powInt 2 (-d)) = m ∧
      exactBound ≤ m * 2 ^ d := by
  have hbound : exactBound = 2 ^ 53 := rfl
  have hpos : i ≠ 0 := by omega
  have hlog : 53 ≤ i.log2 := (Nat.le_log2 hpos).mpr (hbound ▸ h.le)
  obtain ⟨d, hd⟩ : ∃ d, i.log2 = 52 + d := ⟨i.log2 - 52, by omega⟩
  have hunit : unitExponent i = d := by
    rw [unitExponent, floorLog2_natCast hpos]
    omega
  have hscaled : ((2 ^ 52 : Int) : Rat) ≤ i * powInt 2 (-d) := by
    have hpow : 2 ^ 52 * 2 ^ d ≤ i := by
      rw [← pow_add, ← hd]
      exact Nat.log2_self_le hpos
    rw [powInt_neg_natCast, mul_one_div, le_div_iff₀ (by positivity)]
    exact_mod_cast hpow
  have hround := le_roundHalfEven hscaled
  obtain ⟨m, hm⟩ := Int.eq_ofNat_of_zero_le (le_trans (by decide) hround)
  rw [hm] at hround
  refine ⟨d, m, hunit, hm, ?_⟩
  have htwo : 2 ≤ 2 ^ d := Nat.le_self_pow (by omega) 2
  calc 2 ^ 53 = 2 ^ 52 * 2 := by norm_num
    _ ≤ m * 2 ^ d := Nat.mul_le_mul (by exact_mod_cast hround) htwo

/-- **The nearest number to a whole one** that is too large to be exact is whole and as large as an
exact one can be, or infinite -/
theorem nearest_natCast {i : Nat} (h : exactBound < i) :
    nearest i = .infinity false ∨ ∃ k : Nat, exactBound ≤ k ∧ nearest i = ofInt k := by
  obtain ⟨d, m, hunit, hm, hvalue⟩ := exists_rounded_natCast h
  have hsize : 0 < m * 2 ^ d := lt_of_lt_of_le (by decide) hvalue
  have hexact : ¬((i : Rat).den = 1 ∧ (i : Rat).num.natAbs ≤ exactBound) := by
    rw [Rat.num_natCast, Int.natAbs_natCast]
    omega
  have hnonneg : ¬(i : Rat) < 0 := not_lt.mpr (Nat.cast_nonneg i)
  have hzero : ((m : Nat) : Int) ≠ 0 := by
    rintro hzero
    obtain rfl : m = 0 := by exact_mod_cast hzero
    omega
  have hmul : (((m : Nat) : Int) : Rat) * powInt 2 d = ((m * 2 ^ d : Nat) : Rat) := by
    rw [powInt_natCast]
    push_cast
    rfl
  have hbelow : ¬((m * 2 ^ d : Nat) : Rat) ≤ -overflowBound := by
    have hover : 0 ≤ overflowBound := Nat.cast_nonneg _
    have hcast : (0 : Rat) < (m * 2 ^ d : Nat) := Nat.cast_pos.mpr hsize
    linarith
  rw [nearest, if_neg hexact, if_neg hnonneg, hunit]
  dsimp only
  rw [hm, if_neg hzero, hmul]
  by_cases hover : overflowBound ≤ ((m * 2 ^ d : Nat) : Rat)
  · exact .inl (if_pos hover)
  · rw [if_neg hover, if_neg hbelow]
    exact .inr ⟨m * 2 ^ d, hvalue, rfl⟩

theorem roundAway_natCast (k : Nat) : (ofInt k).roundAway = ofInt k := by
  have hnonneg : ¬((k : Int) : Rat) < 0 := not_lt.mpr (by positivity)
  have hfloor : (((k : Int) : Rat) + 1 / 2).floor = k := by
    refine le_antisymm (Int.lt_add_one_iff.mp (Rat.floor_lt_iff.mpr ?_)) (Rat.le_floor_iff.mpr ?_)
    · push_cast
      linarith
    · linarith
  rw [ofInt, roundAway, if_neg hnonneg, hfloor]
  rfl

theorem eq_ofInt (k : Int) : (ofInt k).eq (ofInt k) = true := by
  simp [eq, compare?, isNaN, ofInt]

/-- a whole number that is read: itself, or if it is too large, one as large as an exact one can be -/
theorem ofDecimal_zero (i : Nat) : (i ≤ exactBound ∧ ofDecimal i 0 = ofInt i) ∨
    exactBound < i ∧ (ofDecimal i 0 = .infinity false ∨
      ∃ k : Nat, exactBound ≤ k ∧ ofDecimal i 0 = ofInt k) := by
  have hpow : (i : Rat) * powInt 10 0 = i := by
    have hone : powInt 10 0 = 1 := by decide +kernel
    rw [hone, mul_one]
  have hfew : ¬(digitCount i : Int) + 0 < -330 := by omega
  rw [ofDecimal, hpow, if_neg hfew]
  by_cases hzero : i = 0
  · subst hzero
    exact .inl ⟨Nat.zero_le _, rfl⟩
  rw [if_neg hzero]
  by_cases hexact : i ≤ exactBound
  · have hlt : i < 10 ^ 16 := hexact.trans_lt (by decide)
    have hdigits : digitCount i ≤ 16 := (Nat.length_toDigits_le_iff (by decide) (by decide)).mpr hlt
    rw [if_neg (by omega)]
    exact .inl ⟨hexact, nearest_intCast hexact⟩
  · refine .inr ⟨not_le.mp hexact, ?_⟩
    split
    · exact .inl rfl
    · exact nearest_natCast (not_le.mp hexact)

theorem readUnsigned?_of_digits {ds : Text} (hd : ds.Digits) (hne : ds ≠ []) :
    readUnsigned? ds = some (ofDecimal (digitsValue ds) 0) := by
  have hdecimal : readDecimal? ds = some (ofDecimal (digitsValue ds) 0) := by
    obtain ⟨htake, hdrop⟩ := hd.span (t := []) fun c hc => absurd hc (by simp)
    rw [List.append_nil] at htake hdrop
    unfold readDecimal?
    rw [htake, hdrop]
    dsimp only
    rw [if_neg fun h => hne h.1, List.append_nil]
    rfl
  obtain ⟨c, ds, rfl⟩ := List.exists_cons_of_ne_nil hne
  rw [readUnsigned?_of_digit (hd c List.mem_cons_self), hdecimal]

theorem readUnsigned?_natDigits (i : Nat) :
    readUnsigned? (natDigits i) = some (ofDecimal i 0) := by
  rw [readUnsigned?_of_digits (fun _ hc => isDigit_of_mem_natDigits hc) (natDigits_ne_nil i),
    digitsValue_natDigits]

/-- digits are read as the number that they spell -/
theorem read?_natDigits (i : Nat) : read? (natDigits i) = some (ofDecimal i 0) := by
  have hread := readUnsigned?_natDigits i
  rw [read?_of_isSome_readUnsigned? (Option.isSome_of_eq_some hread), hread]

end Number

end Stencil
