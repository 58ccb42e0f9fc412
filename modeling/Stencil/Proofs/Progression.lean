import Stencil.Proofs.Counting
import Stencil.Proofs.Entries
import Stencil.Proofs.Transparent

/-!
# Loops that count up

A loop that starts its variable at a whole number, adds a positive one behind each round, and goes
on as long as the variable is below a bound, or at most the bound, goes through the terms of an
arithmetic progression.  Each of them is exact if the bound is, alone and with the step added; only
the step itself need not be, and then the first sum is already past the bound.

* `Template.counting`         such a loop around a line with its variable;
* `Number.Shows`              what a number is to a loop: a whole number, as seen from the bound;
* `Number.shows_add`          the sum with a step;
* `Turn.Stands`               a loop that stands at a term;
* `CountLoop.check_up`, `CountLoop.round_up`, `CountLoop.result_up`   a check, a round, all rounds;
* `Engine.render_counting`    the template.
-/

namespace Stencil

/-! ## the template -/

def stepText (s : Int) : Text := "x+=".toList ++ intDigits s

theorem isName_x : Text.IsName "x".toList := Text.isName_of_isAlphanum (by decide) (by decide)

/-- the arguments of a loop in which `x` starts at `a` and goes up in steps of `s` -/
def countArguments (a : Int) (c : Comparison) (b s : Int) : List Text :=
  ["x=".toList ++ intDigits a, "x".toList, c.symbol, intDigits b, stepText s]

def countHead (a : Int) (c : Comparison) (b s : Int) : Text :=
  Text.joinWords ("for".toList :: countArguments a c b s)

def Head.counting (a : Int) (c : Comparison) (b s : Int) : Head :=
  ⟨"for".toList, countArguments a c b s, false, commandLine (countHead a c b s)⟩

def Template.counting (a : Int) (c : Comparison) (b s : Int) : Text :=
  Text.joinLines [commandLine (countHead a c b s), referenceLine "x".toList, endLine]

/-! ## numbers of a loop -/

namespace Number

/-- what a number is to a loop: it is compared with the bound as a whole number is, and it is that
number unless it is past the bound -/
structure Shows (b m : Int) (n : Number) : Prop where
  compare?_eq : n.compare? (ofInt b) = some (compare m b)
  eq_ofInt : m ≤ b → n = ofInt m

theorem shows_ofInt (b m : Int) : (ofInt m).Shows b m := ⟨compare?_ofInt m b, fun _ => rfl⟩

/-- a positive whole number is read, as it is or, if it is too large, as a large one -/
theorem exists_read?_step {s : Int} (hs : 1 ≤ s) : ∃ d, read? (intDigits s) = some d ∧
    (s ≤ exactBound ∧ d = ofInt s ∨
      exactBound < s ∧ (d = .infinity false ∨ ∃ k : Nat, exactBound ≤ k ∧ d = ofInt k)) := by
  obtain ⟨i, rfl⟩ := Int.eq_ofNat_of_zero_le (show 0 ≤ s by omega)
  have hdigits : intDigits i = natDigits i := if_neg (Int.not_lt.mpr (Int.natCast_nonneg i))
  refine ⟨ofDecimal i 0, by rw [hdigits, read?_natDigits], ?_⟩
  rcases ofDecimal_zero i with ⟨hle, heq⟩ | ⟨hlt, hlarge⟩
  · exact .inl ⟨Int.ofNat_le.mpr hle, heq⟩
  · exact .inr ⟨Int.ofNat_lt.mpr hlt, hlarge⟩

theorem shows_add {b m s : Int} {d : Number} (hd : read? (intDigits s) = some d) (hs : 1 ≤ s)
    (hm : -exactBound ≤ m) (hb : m ≤ b) (hbs : b + s ≤ exactBound) :
    ((ofInt m).add d).Shows b (m + s) := by
  obtain ⟨d', hread, hd'⟩ := exists_read?_step hs
  obtain rfl := Option.some.inj (hd.symm.trans hread)
  rcases hd' with ⟨hle, rfl⟩ | ⟨hlt, hlarge⟩
  · rw [add_ofInt (by omega)]
    exact shows_ofInt b (m + s)
  · -- the step is past every exact number, so that the bound is negative and the sum is not
    have hpast : b < m + s := by omega
    have hsum : ((ofInt m).add d).IsNonneg := by
      rcases hlarge with rfl | ⟨k, hk, rfl⟩
      · exact .inl rfl
      · have hnonneg : (0 : Rat) ≤ (m : Rat) + ((k : Int) : Rat) := by
          have hint : 0 ≤ m + (k : Int) := by omega
          exact_mod_cast hint
        exact isNonneg_nearest hnonneg
    refine ⟨?_, fun h => absurd h (by omega)⟩
    rw [compare?_of_isNonneg hsum (by omega), compare_gt_iff_gt.mpr hpast]

end Number

/-- so many terms of a progression are below a bound -/
theorem exists_count_below (a b : Int) {s : Int} (hs : 1 ≤ s) :
    ∃ count : Nat, ∀ i : Nat, a + i * s < b ↔ i < count := by
  refine ⟨(-((a - b) / s)).toNat, fun i => ?_⟩
  have hdiv : (a - b) / s < -i ↔ a - b < -i * s := Int.ediv_lt_iff_lt_mul (by omega)
  rw [Int.lt_toNat]
  rw [Int.neg_mul] at hdiv
  omega

/-! ## the loop -/

section
variable {σ : Type} (set : Setting σ)

theorem Comparison.holds_number {m n : Number} {o : Ordering} (h : m.compare? n = some o)
    (c : Comparison) : c.holds (.number m) (.number n) = c.admits o := by
  simp [holds, Value.isNull, Value.toNumber?, h]

theorem incrementsOf_stepText {s : Int} {d : Number} (h : Number.read? (intDigits s) = some d) :
    incrementsOf (stepText s) = [⟨"x".toList, intDigits s⟩] ∧
      incrementProblems (stepText s) = [] := by
  let e : Entry := ⟨"x".toList, .literal (intDigits s) d h, by decide⟩
  have hlist : stepText s = Entry.list "+=".toList [e] := (List.append_nil _).symm
  rw [hlist]
  exact (Entry.incrementsOf_list_iff [e]).mpr (List.forall_mem_singleton.mpr trivial)

theorem Setting.startAll_at {a : Int} {n : Number} (h : Number.read? (intDigits a) = some n)
    (scope : Scope) (w : World σ) :
    set.startAll (entriesOf ("x=".toList ++ intDigits a)) scope w =
      ⟨scope.insert "x".toList (.number n), [], w⟩ := by
  let e : Entry := ⟨"x".toList, .literal (intDigits a) n h, by decide⟩
  have hlist : "x=".toList ++ intDigits a = Entry.list "=".toList [e] :=
    (List.append_nil _).symm
  have hentries : entriesOf (Entry.list "=".toList [e]) = [e.written "=".toList] :=
    Entry.entriesOf_list (by decide) (List.forall_mem_singleton.mpr trivial)
  have hstart := Beginning.start_written set ⟨e, scope, w⟩
  rw [hlist, hentries, startAll, Run.bind_apply, hstart, startAll]
  rfl

theorem Setting.incrementAll_stepText {s : Int} {d n : Number}
    (hd : Number.read? (intDigits s) = some d) {scope : Scope}
    (hx : scope.get? "x".toList = some (.number n)) :
    set.incrementAll (incrementsOf (stepText s)) scope =
      pure (scope.insert "x".toList (.number (n.add d))) := by
  have hnumber : (scope.get? "x".toList).bind Value.toNumber? = some n := by
    rw [hx]
    rfl
  have hincrement : set.increment ⟨"x".toList, intDigits s⟩ scope =
      pure (scope.insert "x".toList (.number (n.add d))) := by
    rw [increment, set.operand_of_read? hd, pure_bind]
    simp only [Value.toNumber?, hnumber]
  rw [(incrementsOf_stepText hd).1, incrementAll, hincrement, pure_bind]
  rfl

end

/-- a loop stands at a term of the progression -/
def Turn.Stands {σ : Type} (w : World σ) (b m : Int) (t : Turn σ) : Prop :=
  t.world = w ∧ ∃ n : Number, t.scope.get? "x".toList = some (.number n) ∧ n.Shows b m

namespace CountLoop

variable {σ : Type} (set : Setting σ)

def up (c : Comparison) (b s : Int) : CountLoop σ :=
  ⟨set, "x".toList, c, intDigits b, incrementsOf (stepText s),
    set.renderNodes [.text (referenceLine "x".toList)]⟩

section
variable {w : World σ} {c : Comparison} {b s : Int} (hb : b.natAbs ≤ exactBound)
include hb

/-- the check compares the term with the bound -/
theorem check_up {m : Int} {t : Turn σ} (ht : t.Stands w b m) :
    (up set c b s).check t = ⟨c.admits (compare m b), [], w⟩ := by
  obtain ⟨rfl, n, hn, hshows⟩ := ht
  have hbound := set.operand_of_read? (Number.read?_intDigits hb) t.scope
  have hcheck : set.conditionHolds "x".toList c (intDigits b) t.scope =
      pure (c.holds (.number n) (.number (.ofInt b))) := by
    rw [Setting.conditionHolds, Setting.lookup_of_get? hn, pure_bind, hbound, pure_bind]
  show set.conditionHolds "x".toList c (intDigits b) t.scope t.world = _
  rw [hcheck, Comparison.holds_number hshows.compare?_eq]
  rfl

variable (hs : 1 ≤ s) (hbs : b + s ≤ exactBound)
include hs hbs

/-- a round at a term that is not past the bound: the term is written, and the loop goes on to the
next one -/
theorem round_up {m : Int} {t : Turn σ} (ht : t.Stands w b m) (hm : -exactBound ≤ m)
    (hmb : m ≤ b) :
    let loop := up set c b s
    loop.pieces t = [intDigits m] ∧ loop.problems t = [] ∧ (loop.next t).Stands w b (m + s) := by
  intro loop
  have hsize : m.natAbs ≤ exactBound := by omega
  have hcheck : loop.check t = ⟨c.admits (compare m b), [], w⟩ := check_up set hb ht
  obtain ⟨-, n, hn, hshows⟩ := ht
  obtain rfl := hshows.eq_ofInt hmb
  obtain ⟨d, hd, -⟩ := Number.exists_read?_step hs
  have hdisplay : (Value.number (.ofInt m)).display = intDigits m := Number.display_ofInt hsize
  have hbody : loop.body t.scope = pure ([intDigits m], t.scope) := by
    show set.renderNodes [.text (referenceLine "x".toList)] t.scope = _
    rw [set.renderNodes_line, set.substitute_referenceLine isName_x t.scope hn, hdisplay, pure_bind]
  have hrendered : loop.rendered t = ⟨([intDigits m], t.scope), [], w⟩ := by
    rw [rendered, hcheck, hbody]
    rfl
  have hincremented : loop.incremented t =
      ⟨t.scope.insert "x".toList (.number ((Number.ofInt m).add d)), [], w⟩ := by
    rw [incremented, hrendered]
    show set.incrementAll (incrementsOf (stepText s)) t.scope w = _
    rw [set.incrementAll_stepText hd hn]
    rfl
  refine ⟨?_, ?_, ?_, _, ?_, Number.shows_add hd hs hm hmb hbs⟩
  · rw [pieces, hrendered, joinPieces_singleton]
    rfl
  · rw [problems, hcheck, hrendered, hincremented]
    rfl
  · rw [next, hincremented]
  · rw [next, hincremented, Table.get?_insert, if_pos rfl]

variable {a : Int} {count : Nat} {first : Turn σ} (ha : -exactBound ≤ a)
include ha

/-- the loop stands at the terms in their order, as long as those in front are not past the bound -/
theorem stands_turn (hcount : ∀ i < count, a + i * s ≤ b) (hfirst : first.Stands w b a) :
    ∀ i ≤ count, ((up set c b s).turn first i).Stands w b (a + i * s) := by
  intro i
  induction i with
  | zero =>
    intro _
    rw [Int.natCast_zero, Int.zero_mul, Int.add_zero]
    exact hfirst
  | succ i ih =>
    intro hi
    have hlow : 0 ≤ (i : Int) * s := Int.mul_nonneg (Int.natCast_nonneg i) (by omega)
    have hterm : a + (i + 1 : Nat) * s = a + i * s + s := by
      rw [Int.natCast_succ, Int.add_mul, Int.one_mul, Int.add_assoc]
    rw [turn_succ, hterm]
    exact (round_up set hb hs hbs (ih (Nat.le_of_lt hi)) (by omega) (hcount i hi)).2.2

/-- **The rounds of a loop that counts up**: one for each term that the check lets through, which is
written in digits -/
theorem result_up (hbound : ∀ m, c.admits (compare m b) = true → m ≤ b)
    (hcount : ∀ i : Nat, c.admits (compare (a + i * s) b) = true ↔ i < count)
    (hfirst : first.Stands w b a) :
    let loop := up set c b s
    loop.EndsAfter first count ∧ ∃ after, loop.result first count [] =
      ⟨((List.range count).map fun i : Nat => intDigits (a + i * s), after), [], w⟩ := by
  intro loop
  have hterms : ∀ i < count, a + i * s ≤ b := fun i hi => hbound _ ((hcount i).mpr hi)
  have hstands : ∀ i ≤ count, (loop.turn first i).Stands w b (a + i * s) :=
    stands_turn set hb hs hbs ha hterms hfirst
  have hcheck (i : Nat) (hi : i ≤ count) : loop.check (loop.turn first i) =
      ⟨c.admits (compare (a + i * s) b), [], w⟩ := check_up set hb (hstands i hi)
  have hround (i : Nat) (hi : i ∈ List.range count) :
      loop.pieces (loop.turn first i) = [intDigits (a + i * s)] ∧
        loop.problems (loop.turn first i) = [] := by
    rw [List.mem_range] at hi
    have hlow : 0 ≤ (i : Int) * s := Int.mul_nonneg (Int.natCast_nonneg i) (by omega)
    obtain ⟨hpieces, hproblems, -⟩ :=
      round_up set (c := c) hb hs hbs (hstands i (Nat.le_of_lt hi)) (by omega) (hterms i hi)
    exact ⟨hpieces, hproblems⟩
  have hpieces : ((List.range count).map (loop.turn first)).flatMap loop.pieces =
      (List.range count).map fun i : Nat => intDigits (a + i * s) := by
    rw [List.flatMap_map, List.map_eq_flatMap]
    exact List.flatMap_congr fun i hi => (hround i hi).1
  have hproblems : ((List.range count).map (loop.turn first)).flatMap loop.problems = [] := by
    rw [List.flatMap_map, List.flatMap_eq_nil_iff]
    exact fun i hi => (hround i hi).2
  refine ⟨⟨fun i hi => ?_, ?_⟩, (loop.turn first count).scope, ?_⟩
  · rw [hcheck i (Nat.le_of_lt hi)]
    exact (hcount i).mpr hi
  · rw [hcheck count (Nat.le_refl count)]
    exact Bool.eq_false_iff.mpr fun h => Nat.lt_irrefl count ((hcount count).mp h)
  · rw [result, hcheck count (Nat.le_refl count)]
    simp only [hpieces, hproblems, List.append_nil]

end

end CountLoop

/-! ## the template -/

section
variable {a b s : Int} (ha : a.natAbs ≤ exactBound) (hb : b.natAbs ≤ exactBound) (hs : 1 ≤ s)
include ha hb hs

theorem isName_of_mem_countHead (c : Comparison) :
    ∀ n ∈ "for".toList :: countArguments a c b s, Text.IsName n := by
  have hname {n : Text} (hne : n ≠ []) (h : n.all Text.isNameChar = true) : n.IsName :=
    ⟨hne, List.all_eq_true.mp h⟩
  have hsymbol : c.symbol.IsName := by
    cases c <;> exact hname (by decide) rfl
  obtain ⟨d, hd, -⟩ := Number.exists_read?_step hs
  have hstart := Number.isName_of_read? (Number.read?_intDigits ha)
  have hbound := Number.isName_of_read? (Number.read?_intDigits hb)
  have hstep := Number.isName_of_read? hd
  simp only [countArguments, List.forall_mem_cons, List.not_mem_nil, false_implies, implies_true,
    and_true]
  exact ⟨hname (by decide) rfl, (hname (n := "x=".toList) (by decide) rfl).append hstart, isName_x,
    hsymbol, hbound, (hname (n := "x+=".toList) (by decide) rfl).append hstep⟩

/-- the line with the variable is the body of the loop -/
theorem Template.read_counting (c : Comparison) : ∃ rawBody, read (counting a c b s) =
    ⟨[.command (.counting a c b s) rawBody [.text (referenceLine "x".toList)]], []⟩ := by
  have hnames := isName_of_mem_countHead ha hb hs c
  have hsplit : splitArguments (countHead a c b s) = "for".toList :: countArguments a c b s :=
    splitArguments_joinWords fun n hn => (hnames n hn).plain
  have hdollar : '$' ∉ countHead a c b s :=
    Text.notMem_joinWords (by decide) fun n hn => (hnames n hn).dollar_notMem
  have hbreak : '\n' ∉ countHead a c b s :=
    Text.notMem_joinWords (by decide) fun n hn => (hnames n hn).newline_notMem
  have hline : '\n' ∉ referenceLine "x".toList := by decide
  have hfence : ¬(referenceLine "x".toList).Fenced := referenceLine_notFenced isName_x
  have hbody := read_line hline hfence
  refine ⟨Text.joinLines (reading (referenceLine "x".toList)).outer.lines, ?_⟩
  rw [counting, read_block hdollar hsplit (by decide) (balanced_line hline hfence) hbreak
    (List.forall_mem_nil _), hbody, Levels.ofLines_nil]
  rfl

/-- a loop whose check lets so many terms through, none of them past the bound, and that may take as
many rounds -/
theorem Setting.renderNode_counting {σ : Type} (set : Setting σ) (rawBody : Text) (scope : Scope)
    (w : World σ) (hbs : b + s ≤ exactBound) {c : Comparison} {count : Nat}
    (hbound : ∀ m, c.admits (compare m b) = true → m ≤ b)
    (hcount : ∀ i : Nat, c.admits (compare (a + i * s) b) = true ↔ i < count)
    (hmost : count ≤ set.options.maxRounds) :
    set.renderNode (.command (.counting a c b s) rawBody [.text (referenceLine "x".toList)]) scope
        w =
      ⟨⟨joinPieces ((List.range count).map fun i : Nat => intDigits (a + i * s)), none, scope⟩, [],
        w⟩ := by
  obtain ⟨d, hd, -⟩ := Number.exists_read?_step hs
  let first : Turn σ := ⟨scope.insert "x".toList (.number (.ofInt a)), w⟩
  have hfirst : first.Stands w b a :=
    ⟨rfl, .ofInt a, by rw [Table.get?_insert, if_pos rfl], Number.shows_ofInt b a⟩
  obtain ⟨hends, after, hresult⟩ :=
    CountLoop.result_up set hb hs hbs (by omega) hbound hcount hfirst
  have hrun := (CountLoop.up set c b s).run_of_endsAfter
    (.loopStopped "x".toList set.options.maxRounds) hmost hends
  have hstart := set.startAll_at (Number.read?_intDigits ha) scope w
  have hop : Comparison.ofText? c.symbol = some c := by
    cases c <;> decide
  have hname : (Head.counting a c b s).name = "for".toList := rfl
  have hparams : (Head.counting a c b s).params = countArguments a c b s := rfl
  have hcommand := set.command_for_of_run scope w rawBody hname hparams hop hstart hrun
  rw [renderNode]
  refine hcommand.trans ?_
  show (⟨⟨joinPieces ((CountLoop.up set c b s).result first count []).value.1, none, scope⟩,
    incrementProblems (stepText s) ++ ((CountLoop.up set c b s).result first count []).problems,
    ((CountLoop.up set c b s).result first count []).world⟩ : Result σ Outcome) = _
  rw [hresult, (incrementsOf_stepText hd).2]
  rfl

theorem Engine.render_counting_of_admits {σ : Type} (e : Engine σ) (scope : Scope)
    (hbs : b + s ≤ exactBound) {c : Comparison} {count : Nat}
    (hbound : ∀ m, c.admits (compare m b) = true → m ≤ b)
    (hcount : ∀ i : Nat, c.admits (compare (a + i * s) b) = true ↔ i < count)
    (hmost : count ≤ e.options.maxRounds) :
    e.render (Template.counting a c b s) scope =
      ((Text.joinLines ((List.range count).map fun i : Nat => intDigits (a + i * s)), scope),
        e) := by
  obtain ⟨rawBody, hread⟩ := Template.read_counting ha hb hs c
  exact e.render_node hread
    (e.setting.renderNode_counting ha hb hs rawBody scope e.world hbs hbound hcount hmost)

end

/-- **A loop that counts up** goes through the terms of an arithmetic progression below its bound,
or at most its bound: if there are no more of them than the rounds that are allowed, the output is
their digits, one term a line, and nothing else is changed, so that nothing is noted. -/
theorem Engine.render_counting {σ : Type} (e : Engine σ) (scope : Scope) {a b s : Int} (hs : 1 ≤ s)
    (ha : a.natAbs ≤ exactBound) (hb : b.natAbs ≤ exactBound) (hbs : (b + s).natAbs ≤ exactBound) :
    let terms (count : Nat) := (List.range count).map fun i : Nat => intDigits (a + i * s)
    (∃ count : Nat, (∀ i : Nat, a + i * s < b ↔ i < count) ∧
      (count ≤ e.options.maxRounds → e.render (Template.counting a .lt b s) scope =
        ((Text.joinLines (terms count), scope), e))) ∧
    ∃ count : Nat, (∀ i : Nat, a + i * s ≤ b ↔ i < count) ∧
      (count ≤ e.options.maxRounds → e.render (Template.counting a .le b s) scope =
        ((Text.joinLines (terms count), scope), e)) := by
  intro terms
  have hlt (m : Int) : Comparison.lt.admits (compare m b) = true ↔ m < b := by
    rw [← compare_lt_iff_lt]
    exact beq_iff_eq
  have hle (m : Int) : Comparison.le.admits (compare m b) = true ↔ m ≤ b := by
    rw [← compare_le_iff_le]
    exact bne_iff_ne
  obtain ⟨below, hbelow⟩ := exists_count_below a b hs
  obtain ⟨upTo, hupTo⟩ := exists_count_below a (b + 1) hs
  have hupTo' (i : Nat) : a + i * s ≤ b ↔ i < upTo := Int.lt_add_one_iff.symm.trans (hupTo i)
  refine ⟨⟨below, hbelow, ?_⟩, upTo, hupTo', ?_⟩
  · exact e.render_counting_of_admits ha hb hs scope (by omega) (fun m h => ((hlt m).mp h).le)
      fun i => (hlt _).trans (hbelow i)
  · exact e.render_counting_of_admits ha hb hs scope (by omega) (fun m h => (hle m).mp h)
      fun i => (hle _).trans (hupTo' i)

/-- a last term on the bound, as many rounds as there are terms, and a step that is not exact -/
theorem render_counting_to_five :
    let e := Engine.new ⟨100, 3, none⟩ Host.bare () .congruence
    let scope : Scope := [("x".toList, .null)]
    (e.render "$for x=-3 x < 5 x+=4$\n#x#\n$end$".toList scope = (("-3\n1".toList, scope), e) ∧
      e.render "$for x=-3 x <= 5 x+=4$\n#x#\n$end$".toList scope =
        (("-3\n1\n5".toList, scope), e)) ∧
    (1 : Int) ≤ 9007199254740993 ∧ (-1 + 9007199254740993 : Int).natAbs ≤ exactBound ∧
      e.render "$for x=-9007199254740992 x < -1 x+=9007199254740993$\n#x#\n$end$".toList scope =
        (("-9007199254740992".toList, scope), e) := by
  intro e scope
  obtain ⟨⟨below, hbelow, hlt⟩, upTo, hupTo, hle⟩ := e.render_counting scope
    (a := -3) (b := 5) (s := 4) (by decide) (by decide) (by decide) (by decide)
  obtain ⟨⟨single, hsingle, hlarge⟩, -⟩ := e.render_counting scope (a := -9007199254740992)
    (b := -1) (s := 9007199254740993) (by decide) (by decide) (by decide) (by decide)
  have htwo : below = 2 := by
    have h1 := hbelow 1
    have h2 := hbelow 2
    omega
  have hthree : upTo = 3 := by
    have h2 := hupTo 2
    have h3 := hupTo 3
    omega
  have hone : single = 1 := by
    have h0 := hsingle 0
    have h1 := hsingle 1
    omega
  subst htwo hthree hone
  exact ⟨⟨hlt (by decide), hle (by decide)⟩, by decide, by decide, hlarge (by decide)⟩

end Stencil
