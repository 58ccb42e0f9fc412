import Stencil.Proofs.Paths

/-!
# Keys without quotation marks

An index that is no number, no reference and not in quotation marks is the key of an entry as it is
written.  The words for infinity and for what is no number are numbers, though, and the key is then
how these are displayed: `inf`, `-inf` or `NaN`.

* `Text.BareKey`                  a key that no quotation marks seem to be needed for;
* `numberWords`                   how the numbers that are no rationals are displayed;
* `Text.BareKey.display_literalIndex_iff`   which of these keys are looked up as they are written;
* `Setting.evaluates_bareKey`     the entry of such a key.
-/

namespace Stencil

/-! ## what a bare word stands for -/

def numberWords : List Text := ["inf".toList, "-inf".toList, "NaN".toList]

theorem Number.display_mem_numberWords {n : Number} (h : n.toRat? = none) :
    n.display ∈ numberWords := by
  cases n with
  | nan s => exact List.mem_of_getElem? (i := 2) rfl
  | infinity s =>
    cases s with
    | false => exact List.mem_cons_self
    | true => exact List.mem_cons_of_mem _ List.mem_cons_self
  | negZero => cases h
  | rational q => cases h

namespace Text

/-- whether a character can stand in a key without quotation marks -/
def isKeyChar (c : Char) : Bool := !(isSpace c || isSpecial c || c == '\"' || c == '\'')

/-- a word of such characters that is no decimal number -/
structure BareKey (k : Text) : Prop where
  ne_nil : k ≠ []
  chars : ∀ c ∈ k, isKeyChar c = true
  not_decimal : ¬k.IsDecimal

instance (k : Text) : Decidable k.BareKey :=
  decidable_of_iff (k ≠ [] ∧ k.all isKeyChar = true ∧ ¬k.IsDecimal)
    ⟨fun h => ⟨h.1, List.all_eq_true.mp h.2.1, h.2.2⟩,
      fun h => ⟨h.ne_nil, List.all_eq_true.mpr h.chars, h.not_decimal⟩⟩

namespace BareKey

variable {k : Text} (h : k.BareKey)
include h

theorem of_mem {c : Char} (hc : c ∈ k) :
    isSpace c = false ∧ isSpecial c = false ∧ ¬(c = '\"' ∨ c = '\'') := by
  have hkey := h.chars c hc
  simp only [isKeyChar, Bool.not_eq_true', Bool.or_eq_false_iff, beq_eq_false_iff_ne] at hkey
  exact ⟨hkey.1.1.1, hkey.1.1.2, not_or.mpr ⟨hkey.1.2, hkey.2⟩⟩

theorem bare : k.Bare where
  ne_nil := h.ne_nil
  chars := fun _ hc => (h.of_mem hc).2.1
  not_space := fun _ hc => (h.of_mem hc).1

theorem unquote_eq : unquote k = k := by
  cases k with
  | nil => rfl
  | cons c r => exact if_neg (h.of_mem List.mem_cons_self).2.2

/-- a bare key stands for itself, unless it is one of the words that are read as a number and is not
how that number is displayed -/
theorem display_literalIndex_iff :
    (literalIndex k).display = k ↔ (k.IsNumberWord → k ∈ numberWords) := by
  by_cases hword : k.IsNumberWord
  · obtain ⟨n, hread, hrat⟩ := Number.read?_of_isNumberWord hword
    have hvalue : (literalIndex k).display = n.display := by
      rw [literalIndex, hread]
      rfl
    constructor
    · intro hsame _
      rw [← hsame, hvalue]
      exact Number.display_mem_numberWords hrat
    · intro hmem
      have hdisplayed : ∀ w ∈ numberWords, (literalIndex w).display = w := by decide
      exact hdisplayed k (hmem hword)
  · have hread : Number.read? k = none := by
      rw [← Option.not_isSome_iff_eq_none, Number.isSome_read?_iff]
      exact not_or.mpr ⟨h.not_decimal, hword⟩
    have hvalue : (literalIndex k).display = k := by
      rw [literalIndex, hread]
      exact h.unquote_eq
    exact iff_of_true hvalue fun hw => absurd hw hword

end BareKey

end Text

/-! ## entries -/

namespace Setting

variable {σ : Type} (set : Setting σ) {scope : Scope}

variable {n : Text} (hn : n.Writable) {entries : Table Value}
  (hv : scope.get? n = some (.map entries))
include hn hv

theorem evaluates_entry {i j : Text} (hi : i.Nested) (hj : unescape i = j) (hindex : j.IsIndex)
    (hs : startsReference j = false) :
    set.Evaluates (referenceTo n [i]) scope
      (pickEntry (.reference n) entries (literalIndex j)) := by
  subst hj
  have hmap := set.evaluates_index hn hv rfl hi hindex
  rw [set.indexOf_literal hindex hs] at hmap
  exact hmap

theorem evaluates_bare {k : Text} (hk : k.Bare) :
    set.Evaluates (referenceTo n [k]) scope
      (pickEntry (.reference n) entries (literalIndex k)) :=
  set.evaluates_entry hn hv hk.nested (unescape_of_plain hk.chars) hk.isIndex hk.startsReference

/-- **Bare keys.**  An entry is found under its key as it is written, if that is a bare word and no
number, or the word that a number is displayed with; and it is found under the same key in quotation
marks. -/
theorem evaluates_bareKey {k : Text} (hk : k.BareKey) (hword : k.IsNumberWord → k ∈ numberWords)
    {v : Value} (hget : entries.get? k = some v) :
    set.Evaluates (referenceTo n [k]) scope (pure v) ∧
      set.Evaluates (referenceTo n ['\"' :: (k ++ ['\"'])]) scope (pure v) := by
  have hfound (x : Value) (hx : x.display = k) :
      (pickEntry (.reference n) entries x : Run σ Value) = pure v := by
    rw [pickEntry, hx, hget]
  constructor
  · have hbare := set.evaluates_bare hn hv hk.bare
    rwa [hfound _ (hk.display_literalIndex_iff.mpr hword)] at hbare
  · have hwritten : (Step.entry k).written = '\"' :: (k ++ ['\"']) := by
      rw [Step.written, escape_of_plain hk.bare.chars]
    have hquoted := set.evaluates_entry hn hv (Step.nested_written (s := .entry k) hk.bare.nested)
      (Step.unescape_written _) (Step.isIndex_index _) (Step.startsReference_index _)
    rwa [hwritten, Step.index, literalIndex_quoted, hfound _ rfl] at hquoted

end Setting

/-- a key that starts as a number does, and one that is the word of a number -/
theorem evaluates_bareKey_nearly :
    let set := (Engine.new {} Host.bare () .congruence).setting
    let entries : Table Value := [("-1e+".toList, .bool true), ("inf".toList, .bool false)]
    let scope : Scope := [("m".toList, .map entries)]
    referenceTo "m".toList ["-1e+".toList] = "#m at(-1e+)#".toList ∧
      set.Evaluates (referenceTo "m".toList ["-1e+".toList]) scope (pure (.bool true)) ∧
      set.Evaluates (referenceTo "m".toList ["inf".toList]) scope (pure (.bool false)) := by
  intro set entries scope
  have hname : Text.Writable "m".toList := by decide
  have hentries : scope.get? "m".toList = some (.map entries) := rfl
  have hkeys : Text.BareKey "-1e+".toList ∧ Text.BareKey "inf".toList := by decide +kernel
  have hplain : ¬Text.IsNumberWord "-1e+".toList := by decide +kernel
  have hword : "inf".toList ∈ numberWords := by decide
  refine ⟨rfl, ?_, ?_⟩
  · exact (set.evaluates_bareKey hname hentries hkeys.1 (fun h => absurd h hplain) rfl).1
  · exact (set.evaluates_bareKey hname hentries hkeys.2 (fun _ => hword) rfl).1

/-- the word `infinity` is read as a number, and what is looked up is how that is displayed -/
theorem bareKey_infinity :
    let set := (Engine.new {} Host.bare () .congruence).setting
    let entries : Table Value := [("infinity".toList, .string "x".toList)]
    let scope : Scope := [("m".toList, .map entries)]
    let k : Text := "infinity".toList
    referenceTo "m".toList [k] = "#m at(infinity)#".toList ∧ k.BareKey ∧
      entries.get? k = some (.string "x".toList) ∧
      set.Evaluates (referenceTo "m".toList [k]) scope (do
        .note (.noKey (.reference "m".toList) "inf".toList)
        pure .null) ∧
      ¬set.Evaluates (referenceTo "m".toList [k]) scope (pure (.string "x".toList)) := by
  intro set entries scope k
  have hname : Text.Writable "m".toList := by decide
  have hentries : scope.get? "m".toList = some (.map entries) := rfl
  have hkey : k.BareKey := by decide +kernel
  have hmissed : set.Evaluates (referenceTo "m".toList [k]) scope (do
      .note (.noKey (.reference "m".toList) "inf".toList)
      pure .null) := set.evaluates_bare hname hentries hkey.bare
  refine ⟨rfl, hkey, rfl, hmissed, fun hfound => ?_⟩
  have hruns := hmissed.alone.symm.trans hfound.alone
  have hproblems :=
    congrArg (fun x : Run Unit Value => (x ⟨(), .congruence 0⟩).problems.length) hruns
  exact absurd hproblems (by decide)

end Stencil
