import Stencil.Proofs.Definition
import Stencil.Proofs.Excerpt
import Stencil.Proofs.Scoping
import Stencil.Proofs.WholeNumbers
import Stencil.Render.Template

/-!
# The lists of a counting loop

`for` starts its variables and increments them by two lists of entries.  A list is cut at its commas,
before anything else is made of it, so that an entry is read as it was written unless its reference
holds a comma.

* `Amount`, `Entry`            what an entry gives its variable, and an entry;
* `Entry.list`                 entries as a list;
* `Entry.entriesOf_list`       a list is cut into its entries;
* `Entry.incrementsOf_list_iff`   the increments that a list spells are its entries, unless there is
                               a comma in one of them;
* `Beginning`, `Beginnings`    a variable that is started, and several one after the other;
* `Setting.startAll_written`   the scope with the variables of some entries started;
* `Setting.entries_read`       both lists.
-/

namespace Stencil

/-! ## entries -/

/-- a word that can stand in front of the `=` or `+=` of an entry -/
def Text.IsEntryName (t : Text) : Prop :=
  t ≠ [] ∧ ∀ c ∈ t, Text.isSpace c = false ∧ c ∉ [',', '=', '+', '#']

instance (t : Text) : Decidable t.IsEntryName :=
  @instDecidableAnd _ _ inferInstance (List.decidableBAll _ t)

/-- what an entry gives its variable: a text that is a number, or one that is a reference -/
inductive Amount
  | literal (t : Text) (n : Number) (hn : Number.read? t = some n)
  | reference (t : Text) (r : Reference) (hr : Segment.scan t = [.reference r])

namespace Amount

def text : Amount → Text
  | literal t _ _ => t
  | reference t _ _ => t

/-- the number that is spelled, or the value of the reference -/
def value {σ : Type} (set : Setting σ) (scope : Scope) : Amount → Run σ Value
  | literal _ n _ => pure (.number n)
  | reference _ r _ => set.evaluate r scope

/-- whether a list is not cut inside of it -/
def IsWhole : Amount → Prop
  | literal _ _ _ => True
  | reference t _ _ => ',' ∉ t

instance : DecidablePred IsWhole
  | literal _ _ _ => .isTrue trivial
  | reference t _ _ => inferInstanceAs (Decidable (',' ∉ t))

theorem isWhole_iff (a : Amount) : a.IsWhole ↔ ',' ∉ a.text := by
  cases a with
  | literal t n hn =>
    refine iff_of_true trivial fun hm => ?_
    have hchar := Number.isNumeralChar_of_read? hn ',' hm
    cases hchar
  | reference t r hr => exact Iff.rfl

theorem trim_text (a : Amount) : a.text.trim = a.text := by
  cases a with
  | literal t n hn =>
    exact (Number.isName_of_read? hn).trim_eq
  | reference t r hr =>
    obtain ⟨s, us, rfl, hw, -⟩ := Segment.exists_walk_of_scan hr
    rw [text, ← append_of_walk hw]
    exact Text.trim_concat (by decide) (by decide) us.flatten

theorem startValue_text {σ : Type} (set : Setting σ) (a : Amount) (scope : Scope) (w : World σ) :
    let r := set.startValue a.text scope w
    let r' := a.value set scope w
    r.value.toNumber? = r'.value.toNumber? ∧ r.problems = r'.problems ∧ r.world = r'.world := by
  cases a with
  | literal t n hn =>
    have hplain : startsReference t = false := (Number.isName_of_read? hn).bare.startsReference
    have hnumber : (Value.string t).toNumber? = some n := by
      have htrim : t.trim = t := (literal t n hn).trim_text
      rw [Value.toNumber?, htrim]
      exact hn
    rw [text, Setting.startValue, hplain]
    exact ⟨hnumber, rfl, rfl⟩
  | reference t r hr =>
    obtain ⟨s, us, rfl, -, -⟩ := Segment.exists_walk_of_scan hr
    rw [text, Setting.startValue, startsReference, if_pos (by rfl), set.resolve_of_scan hr]
    exact ⟨rfl, rfl, rfl⟩

end Amount

/-- an entry: a name and an amount -/
structure Entry where
  name : Text
  amount : Amount
  named : name.IsEntryName

namespace Entry

def written (sep : Text) (e : Entry) : Text := e.name ++ (sep ++ e.amount.text)

def list (sep : Text) (es : List Entry) : Text := Text.join [','] (es.map (written sep))

def increment (e : Entry) : Increment := ⟨e.name, e.amount.text⟩

variable (e : Entry)

theorem notMem_name {c : Char} (hc : c ∈ [',', '=', '+', '#']) : c ∉ e.name :=
  fun hm => (e.named.2 c hm).2 hc

theorem trim_name : e.name.trim = e.name := Text.trim_of_noSpace fun c hc => (e.named.2 c hc).1

theorem trim_written_ne_nil (sep : Text) : (e.written sep).trim ≠ [] := by
  obtain ⟨c, cs, hname⟩ := List.exists_cons_of_ne_nil e.named.1
  have hc : c ∈ e.name := hname ▸ List.mem_cons_self
  exact List.ne_nil_of_mem (Text.mem_trim (List.mem_append_left _ hc) (e.named.2 c hc).1)

theorem ofEntry?_written : Increment.ofEntry? (e.written "+=".toList) = some e.increment := by
  have hcut : Text.cutAtPair '+' '=' (e.written "+=".toList) = some (e.name, e.amount.text) :=
    Text.cutAtPair_append (e.notMem_name (by decide)) e.amount.text
  rw [Increment.ofEntry?, hcut]
  dsimp only
  rw [e.trim_name, e.amount.trim_text, if_neg e.named.1]
  rfl

theorem entriesOf_list {sep : Text} (hsep : ',' ∉ sep) {es : List Entry}
    (h : ∀ e ∈ es, e.amount.IsWhole) : entriesOf (list sep es) = es.map (written sep) := by
  have hcut : ∀ t ∈ es.map (written sep), ',' ∉ t := by
    refine List.forall_mem_map.mpr fun e he => ?_
    rw [written, List.mem_append, List.mem_append, not_or, not_or]
    exact ⟨e.notMem_name (by decide), hsep, e.amount.isWhole_iff.mp (h e he)⟩
  cases es with
  | nil => rfl
  | cons e es =>
    have hne : (e :: es).map (written sep) ≠ [] := List.cons_ne_nil _ _
    rw [entriesOf, list, Text.join, List.splitOn_intercalate _ hcut hne, List.filter_eq_self]
    refine List.forall_mem_map.mpr fun e _ => decide_eq_true ?_
    exact e.trim_written_ne_nil sep

theorem notMem_delta {t : Text} {i : Increment} (h : i ∈ incrementsOf t) : ',' ∉ i.delta := by
  obtain ⟨entry, hentry, hread⟩ := List.mem_filterMap.mp h
  have hpiece : ',' ∉ entry := Text.notMem_of_mem_splitOn (List.mem_filter.mp hentry).1
  rw [Increment.ofEntry?] at hread
  split at hread
  · rename_i name delta hcut
    split at hread
    · cases hread
    · obtain rfl := Option.some.inj hread
      refine fun hm => hpiece ?_
      rw [Text.eq_of_cutAtPair hcut]
      have hdelta := (Text.infix_trim delta).subset hm
      exact List.mem_append_right _ (List.mem_cons_of_mem _ (List.mem_cons_of_mem _ hdelta))
  · cases hread

/-- the increments that a list spells are its entries exactly if none of them is cut -/
theorem incrementsOf_list_iff (es : List Entry) :
    (incrementsOf (list "+=".toList es) = es.map increment ∧
      incrementProblems (list "+=".toList es) = []) ↔ ∀ e ∈ es, e.amount.IsWhole := by
  constructor
  · rintro ⟨hread, -⟩ e he
    rw [e.amount.isWhole_iff]
    have hmem : e.increment ∈ incrementsOf (list "+=".toList es) := by
      rw [hread]
      exact List.mem_map_of_mem he
    exact notMem_delta hmem
  · intro h
    have hentries : entriesOf (list "+=".toList es) = es.map (written "+=".toList) :=
      entriesOf_list (by decide) h
    constructor
    · rw [incrementsOf, hentries, List.filterMap_map, ← List.filterMap_eq_map]
      exact List.filterMap_congr fun e _ => e.ofEntry?_written
    · rw [incrementProblems, hentries, List.map_eq_nil_iff, List.filter_eq_nil_iff]
      refine List.forall_mem_map.mpr fun e _ => ?_
      rw [e.ofEntry?_written]
      exact Bool.false_ne_true

end Entry

/-! ## numbers -/

theorem Setting.operand_of_read? {σ : Type} (set : Setting σ) {t : Text} {n : Number}
    (h : Number.read? t = some n) (scope : Scope) : set.operand t scope = pure (.number n) := by
  have hname := Number.isName_of_read? h
  rw [operand, hname.trim_eq, hname.bare.startsReference, h]
  rfl

/-! ## starting variables -/

theorem Scope.get?_bindAll {scope : Scope} {bs : List (Text × Value)} {x : Text}
    (h : ∀ b ∈ bs, b.1 ≠ x) : (scope.bindAll bs).get? x = scope.get? x := by
  induction bs generalizing scope with
  | nil => rfl
  | cons b bs ih =>
    obtain ⟨hb, hbs⟩ := List.forall_mem_cons.mp h
    have hfirst : (scope.insert b.1 b.2).get? x = scope.get? x := by
      rw [Table.get?_insert, if_neg hb]
    exact (ih hbs).trans hfirst

/-- an entry whose variable is started, with the scope and the world in front of it -/
structure Beginning (σ : Type) where
  entry : Entry
  scope : Scope
  world : World σ

section
variable {σ : Type} (set : Setting σ)

namespace Beginning

/-- what evaluating the amount gives -/
def given (b : Beginning σ) : Result σ Value := b.entry.amount.value set b.scope b.world

def number (b : Beginning σ) : Number := ((b.given set).value.toNumber?).getD .zero

def problems (b : Beginning σ) : List Problem :=
  (b.given set).problems ++ if (b.given set).value.toNumber?.isNone then
    [.startNotNumber b.entry.name b.entry.amount.text] else []

def binding (b : Beginning σ) : Text × Value := (b.entry.name, .number (b.number set))

def after (b : Beginning σ) : Scope := b.scope.insert b.entry.name (.number (b.number set))

theorem start_written (b : Beginning σ) :
    set.start (b.entry.written "=".toList) b.scope b.world =
      ⟨b.after set, b.problems set, (b.given set).world⟩ := by
  have hcut : Text.cutAt '=' (b.entry.written "=".toList) =
      some (b.entry.name, b.entry.amount.text) :=
    Text.cutAt_append (b.entry.notMem_name (by decide)) b.entry.amount.text
  obtain ⟨hnumber, hproblems, hworld⟩ := b.entry.amount.startValue_text set b.scope b.world
  rw [Setting.start, hcut]
  dsimp only
  rw [b.entry.trim_name, b.entry.amount.trim_text, Run.bind_apply, hnumber, hproblems, hworld]
  rw [after, problems, number, given]
  cases (b.entry.amount.value set b.scope b.world).value.toNumber? with
  | some n => rfl
  | none => rfl

end Beginning

/-- variables that are started one after the other, from a scope and a world on -/
inductive Beginnings : Scope → World σ → List (Beginning σ) → Scope → World σ → Prop
  | done (scope : Scope) (w : World σ) : Beginnings scope w [] scope w
  | next {b : Beginning σ} {bs : List (Beginning σ)} {scope : Scope} {w : World σ}
      (hrest : Beginnings (b.after set) (b.given set).world bs scope w) :
      Beginnings b.scope b.world (b :: bs) scope w

theorem Beginnings.bindAll_eq {scope after : Scope} {w stop : World σ} {bs : List (Beginning σ)}
    (h : Beginnings set scope w bs after stop) :
    after = scope.bindAll (bs.map (Beginning.binding set)) := by
  induction h with
  | done => rfl
  | next _ ih => exact ih

theorem Setting.startAll_written (es : List Entry) (scope : Scope) (w : World σ) :
    ∃ (bs : List (Beginning σ)) (after : Scope) (stop : World σ), bs.map Beginning.entry = es ∧
      Beginnings set scope w bs after stop ∧
      set.startAll (es.map (Entry.written "=".toList)) scope w =
        ⟨after, bs.flatMap (Beginning.problems set), stop⟩ := by
  induction es generalizing scope w with
  | nil => exact ⟨[], scope, w, rfl, .done scope w, rfl⟩
  | cons e es ih =>
    let b : Beginning σ := ⟨e, scope, w⟩
    obtain ⟨bs, after, stop, hentries, hbs, hrun⟩ := ih (b.after set) (b.given set).world
    refine ⟨b :: bs, after, stop, congrArg (e :: ·) hentries, .next (b := b) hbs, ?_⟩
    rw [List.map_cons, Setting.startAll, Run.bind_apply, b.start_written set, hrun]
    rfl

/-- **The lists of `for`.**  Let a list be written of entries, each a name with a number or with a
reference.  Its increments are its entries, and nothing is noted about them, exactly if no reference
in it holds a comma.  If none does, the variables of a list are started one after the
other, each at the number that its own amount evaluates to where it stands, or at zero, and then one
problem more is noted; and no other variable is touched. -/
theorem Setting.entries_read (es : List Entry) (scope : Scope) (w : World σ) :
    ((incrementsOf (Entry.list "+=".toList es) = es.map Entry.increment ∧
      incrementProblems (Entry.list "+=".toList es) = []) ↔ ∀ e ∈ es, e.amount.IsWhole) ∧
    ((∀ e ∈ es, e.amount.IsWhole) →
      ∃ (bs : List (Beginning σ)) (after : Scope) (stop : World σ),
        bs.map Beginning.entry = es ∧ Beginnings set scope w bs after stop ∧
        set.startAll (entriesOf (Entry.list "=".toList es)) scope w =
          ⟨after, bs.flatMap (Beginning.problems set), stop⟩ ∧
        after = scope.bindAll (bs.map (Beginning.binding set)) ∧
        ∀ x, (∀ e ∈ es, e.name ≠ x) → after.get? x = scope.get? x) := by
  refine ⟨Entry.incrementsOf_list_iff es, fun h => ?_⟩
  obtain ⟨bs, after, stop, hentries, hbs, hrun⟩ := set.startAll_written es scope w
  have hafter := hbs.bindAll_eq
  refine ⟨bs, after, stop, hentries, hbs, ?_, hafter, fun x hx => ?_⟩
  · rw [Entry.entriesOf_list (by decide) h, hrun]
  · subst hentries
    rw [hafter]
    refine Scope.get?_bindAll (List.forall_mem_map.mpr fun b hb => ?_)
    exact hx b.entry (List.mem_map_of_mem hb)

end

/-- a number and two references, one of them to what the entry in front of it started -/
def Entry.mixed : List Entry :=
  [⟨"i".toList, .literal "1e0".toList .one (by decide +kernel), by decide⟩,
    ⟨"j".toList, .reference "#m at(\"a+=b\")#".toList ⟨"m".toList, ["at(\"a+=b\")".toList]⟩
      (by decide +kernel), by decide⟩,
    ⟨"k".toList, .reference "#i trim#".toList ⟨"i".toList, ["trim".toList]⟩ (by decide +kernel),
      by decide⟩]

theorem entries_read_mixed :
    let set := Setting.top {} Host.bare []
    let scope : Scope := [("m".toList, .map [("a+=b".toList, .string "2".toList)])]
    let w : World Unit := ⟨(), .congruence 0⟩
    let started := set.startAll (entriesOf (Entry.list "=".toList Entry.mixed)) scope w
    Entry.list "+=".toList Entry.mixed = "i+=1e0,j+=#m at(\"a+=b\")#,k+=#i trim#".toList ∧
      (∀ e ∈ Entry.mixed, e.amount.IsWhole) ∧
      incrementsOf (Entry.list "+=".toList Entry.mixed) = Entry.mixed.map Entry.increment ∧
      incrementProblems (Entry.list "+=".toList Entry.mixed) = [] ∧
      started.value.get? "m".toList = scope.get? "m".toList ∧
      (started.value.get? "j".toList).bind Value.toNumber? = some (.rational 2) := by
  intro set scope w started
  have hwhole : ∀ e ∈ Entry.mixed, e.amount.IsWhole := by decide
  obtain ⟨hincrements, hstart⟩ := set.entries_read Entry.mixed scope w
  obtain ⟨hread, hnoted⟩ := hincrements.mpr hwhole
  obtain ⟨bs, after, stop, -, -, hrun, -, hothers⟩ := hstart hwhole
  have hkept : started.value.get? "m".toList = scope.get? "m".toList := by
    show (set.startAll _ scope w).value.get? _ = _
    rw [hrun]
    exact hothers _ (by decide)
  exact ⟨rfl, hwhole, hread, hnoted, hkept, by decide +kernel⟩

/-- a list is cut at the comma in a key, although the reference is one: the increment is another one,
and two variables are started, neither of them at the number -/
theorem entries_cut_at_comma :
    let set := Setting.top {} Host.bare []
    let scope : Scope := [("m".toList, .map [("a,b".toList, .number .one)])]
    let w : World Unit := ⟨(), .congruence 0⟩
    let amount : Amount := .reference "#m at(\"a,b\")#".toList ⟨"m".toList, ["at(\"a,b\")".toList]⟩
      (by decide +kernel)
    let e : Entry := ⟨"x".toList, amount, by decide⟩
    let started := set.startAll (entriesOf (Entry.list "=".toList [e])) scope w
    Entry.list "=".toList [e] = "x=#m at(\"a,b\")#".toList ∧ amount.text.Nested ∧
      (amount.value set scope w).value.toNumber? = some .one ∧
      (amount.value set scope w).problems = [] ∧
      incrementsOf (Entry.list "+=".toList [e]) = [⟨"x".toList, "#m at(\"a".toList⟩] ∧
      incrementProblems (Entry.list "+=".toList [e]) = [.malformedIncrement "b\")#".toList] ∧
      (started.value.get? "x".toList).bind Value.toNumber? = some .zero ∧
      (started.value.get? "b\")#".toList).bind Value.toNumber? = some .zero ∧
      started.problems = [.malformedReference "#m at(\"a".toList,
        .startNotNumber "x".toList "#m at(\"a".toList] := by
  decide +kernel

end Stencil
