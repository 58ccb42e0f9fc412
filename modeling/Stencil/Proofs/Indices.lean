import Stencil.Engine
import Stencil.Proofs.Definition
import Stencil.Proofs.Document
import Stencil.Proofs.Writing

/-!
# References with indices

`#name at(i) at(j)…#` takes an item of a list or an entry of a map, and goes on inside it.  An index
that is a reference itself is read twice, as a part of the reference around it and then alone, and
its escapes are resolved both times.  So it has the value that it has outside if there are none in it,
and in any case if it is written with its escapes.

* `referenceTo`                 a name with some indices behind it, as text;
* `Segment.scan_referenceTo`    what is scanned from it;
* `Text.Bare`                   a word that is an index as it is written;
* `Setting.Evaluates`           what evaluating a text does, alone and as a line;
* `Setting.evaluates_referenceTo`, `Setting.evaluates_index`   the indices are applied one after the
                                other, and a single one;
* `Setting.evaluates_innerReference`   a list with a reference as its index.
-/

namespace Stencil

/-! ## texts -/

def atIndex (i : Text) : Text := "at(".toList ++ (i ++ [')'])

/-- a name, written with its escapes, and some indices behind it: `#name at(i) at(j)…#` -/
def referenceTo (name : Text) (indices : List Text) : Text :=
  '#' :: (Text.joinWords (escape name :: indices.map atIndex) ++ ['#'])

theorem unescape_append_of_notMem {p : Text} (h : '\\' ∉ p) (t : Text) :
    unescape (p ++ t) = p ++ unescape t := by
  induction p with
  | nil => rfl
  | cons c p ih =>
    have hc : c ≠ '\\' := fun he => h (he ▸ List.mem_cons_self)
    rw [List.cons_append, unescape_cons_of_ne _ hc, ih fun hm => h (List.mem_cons_of_mem c hm)]
    rfl

theorem unescape_append_cons {d : Char} (hd : needsEscape d = false) (t s : Text) :
    unescape (t ++ d :: s) = unescape t ++ unescape (d :: s) := by
  fun_induction unescape t with
  | case1 => rfl
  | case2 c => exact if_neg fun h => Bool.eq_false_iff.mp hd h.2
  | case3 c e t h ih =>
    obtain ⟨rfl, he⟩ := h
    show unescape ('\\' :: e :: (t ++ d :: s)) = _
    rw [unescape_pair _ he, ih]
    rfl
  | case4 c e t h ih =>
    have hcons : unescape (c :: e :: t ++ d :: s) = c :: unescape (e :: t ++ d :: s) := if_neg h
    rw [hcons, ih]
    rfl

theorem unescape_atIndex (i : Text) : unescape (atIndex i) = atIndex (unescape i) := by
  have hat : '\\' ∉ "at(".toList := by decide
  rw [atIndex, unescape_append_of_notMem hat, unescape_append_cons rfl]
  rfl

theorem Text.solid_atIndex {i : Text} (h : i.Nested) : (atIndex i).Solid := by
  have hplain : Plain "at".toList := by decide
  have hat : Solid "at".toList := solid_of_chars hplain.chars
  exact hat.append (solid_group (NestedIn.closes h))

/-- a name with indices that have matching parentheses, with the escapes of the indices resolved -/
theorem Segment.scan_referenceTo {n : Text} (hn : n.Writable) {is : List Text}
    (h : ∀ i ∈ is, i.Nested) :
    scan (referenceTo n is) = [.reference ⟨n, is.map fun i => atIndex (unescape i)⟩] := by
  have hwords : ∀ w ∈ escape n :: is.map atIndex, w ≠ [] ∧ w.Solid := by
    rw [List.forall_mem_cons, List.forall_mem_map]
    exact ⟨hn.escape_word, fun i hi => ⟨List.cons_ne_nil _ _, Text.solid_atIndex (h i hi)⟩⟩
  have hmap : (is.map atIndex).map unescape = is.map fun i => atIndex (unescape i) := by
    rw [List.map_map]
    exact List.map_congr_left fun i _ => unescape_atIndex i
  rw [referenceTo, scan_joinWords hwords, unescape_escape, hmap]

/-! ## indices as modifiers -/

theorem Modifier.read_atIndex {i : Text} (hne : i ≠ []) (ht : i.trim = i) :
    read (atIndex i) = .ok (index i) := read_index hne ht

/-- an index that is applied as it is written: it is not empty, and there is no white space around it -/
structure Text.IsIndex (i : Text) : Prop where
  ne_nil : i ≠ []
  trim_eq : i.trim = i

namespace Text

theorem isIndex_concat {c d : Char} (hc : isSpace c = false) (hd : isSpace d = false)
    (s : Text) : IsIndex (c :: (s ++ [d])) := ⟨List.cons_ne_nil _ _, trim_concat hc hd s⟩

/-- a plain word without white space: an index that is written as it is applied -/
structure Bare (w : Text) : Prop extends w.Plain where
  not_space : ∀ c ∈ w, isSpace c = false

theorem IsName.bare {w : Text} (h : w.IsName) : w.Bare := ⟨h.plain, h.not_space⟩

namespace Bare

variable {w : Text} (h : w.Bare)
include h

theorem isIndex : w.IsIndex := ⟨h.ne_nil, trim_of_noSpace h.not_space⟩

theorem nested : w.Nested := by
  have hbracket (c : Char) (hc : c ∈ w) : isBracket c = false := by
    have hspecial := h.chars c hc
    simp only [isSpecial, Bool.or_eq_false_iff] at hspecial
    exact Bool.or_eq_false_iff.mpr ⟨hspecial.1.2, hspecial.2⟩
  exact nested_of_chars hbracket

theorem startsReference : startsReference w = false := by
  cases w with
  | nil => rfl
  | cons c w => exact beq_false_of_ne (ne_hash_of_isSpecial (h.chars c List.mem_cons_self))

end Bare

end Text

theorem Reference.check_indices (s : Subject) {is : List Text} (h : ∀ i ∈ is, i.IsIndex) :
    signature.check s (is.map atIndex) = ⟨[], is.map .index, true, []⟩ := by
  have hsort : signature.sortRest s 0 (is.map atIndex) = ⟨[], is.map .index, [], []⟩ := by
    induction is with
    | nil => rfl
    | cons i is ih =>
      have hi := h i List.mem_cons_self
      have hkey : (Modifier.index i).keyword ∈ signature.keywords := by
        show "at".toList ∈ signature.keywords
        decide
      rw [List.map_cons, Signature.sortRest, Modifier.read_atIndex hi.ne_nil hi.trim_eq]
      simp only [if_pos hkey, ih fun j hj => h j (List.mem_cons_of_mem i hj), List.map_cons]
  have hleast : signature.least = 0 := rfl
  rw [Signature.check, hleast, List.drop_zero, List.take_zero, hsort]
  rfl

namespace Setting

variable {σ : Type} (set : Setting σ) {scope : Scope}

/-! ## what evaluating does -/

/-- what evaluating a text does: alone it is the run `x`, and as a line it displays the value of `x`
and leaves the scope as it is -/
structure Evaluates (text : Text) (scope : Scope) (x : Run σ Value) : Prop where
  alone : set.resolve text scope = x
  asLine : set.renderNodes [.text text] scope = (do
    let v ← x
    pure ([v.display], scope))

theorem resolve_of_read? {t : Text} {r : Reference} (hs : startsReference t = true)
    (h : Reference.read? t = some r) : set.resolve t scope = set.evaluate r scope := by
  rw [resolve, if_pos hs]
  split
  · rename_i r' hr'
    rw [h] at hr'
    cases hr'
    rfl
  · rename_i hr'
    rw [h] at hr'
    cases hr'

theorem resolve_of_unread {t : Text} (hs : startsReference t = true)
    (h : Reference.read? t = none) : set.resolve t scope = (do
      .note (.malformedReference t)
      pure .null) := by
  rw [resolve, if_pos hs]
  split
  · rename_i r hr
    rw [h] at hr
    cases hr
  · rfl

theorem resolve_of_scan {t : Text} {r : Reference} (h : Segment.scan t = [.reference r]) :
    set.resolve t scope = set.evaluate r scope := by
  obtain ⟨s, us, rfl, -, -⟩ := Segment.exists_walk_of_scan h
  exact set.resolve_of_read? rfl (Reference.read?_of_scan h)

variable {set}

theorem evaluates_of_scan {t : Text} {r : Reference} (h : Segment.scan t = [.reference r])
    {x : Run σ Value} (hx : set.evaluate r scope = x) : set.Evaluates t scope x := by
  refine ⟨(set.resolve_of_scan h).trans hx, ?_⟩
  rw [set.renderNodes_reference h, hx]

variable (set)

theorem evaluate_indices (n : Text) {is : List Text} (h : ∀ i ∈ is, i.IsIndex) :
    set.evaluate ⟨n, is.map atIndex⟩ scope = (do
      let v ← lookup n scope
      set.applyAll (.reference n) (is.map .index) v scope) := by
  rw [evaluate, Reference.check_indices _ h, Run.noteAll_nil, pure_bind]
  rfl

/-- a name and indices written behind it, each of them read as another text -/
theorem evaluates_referenceTo {n : Text} (hn : n.Writable) {v : Value}
    (hv : scope.get? n = some v) {is : List Text} (h : ∀ i ∈ is, i.Nested ∧ (unescape i).IsIndex) :
    set.Evaluates (referenceTo n is) scope
      (set.applyAll (.reference n) (is.map fun i => .index (unescape i)) v scope) := by
  refine evaluates_of_scan (Segment.scan_referenceTo hn fun i hi => (h i hi).1) ?_
  have hmap : (is.map fun i => atIndex (unescape i)) = (is.map unescape).map atIndex := by
    rw [List.map_map]
    rfl
  rw [hmap, set.evaluate_indices n (List.forall_mem_map.mpr fun i hi => (h i hi).2),
    lookup_of_get? hv, pure_bind, List.map_map]
  rfl

theorem applyAll_nil (s : Subject) (v : Value) : set.applyAll s [] v scope = pure v := by
  rw [applyAll]

theorem applyAll_cons {v : Value} (hv : v.isNull = false) (s : Subject) (m : Modifier)
    (ms : List Modifier) : set.applyAll s (m :: ms) v scope = (do
      let w ← set.apply s m (set.indexOf m scope) v scope
      set.applyAll s ms w scope) := by
  rw [applyAll, hv]
  rfl

theorem evaluates_index {n : Text} (hn : n.Writable) {v : Value} (hv : scope.get? n = some v)
    (hnull : v.isNull = false) {i : Text} (hi : i.Nested) (hindex : (unescape i).IsIndex) :
    set.Evaluates (referenceTo n [i]) scope
      (set.apply (.reference n) (.index (unescape i)) (set.indexOf (.index (unescape i)) scope) v
        scope) := by
  have hall := set.evaluates_referenceTo hn hv
    (List.forall_mem_singleton.mpr ⟨hi, hindex⟩ : ∀ j ∈ [i], j.Nested ∧ (unescape j).IsIndex)
  rw [List.map_singleton, set.applyAll_cons hnull] at hall
  simpa only [applyAll_nil, bind_pure] using hall

theorem indexOf_reference {i : Text} (h : i.IsIndex) (hs : startsReference i = true) :
    set.indexOf (.index i) scope = set.resolve i scope := by
  rw [indexOf, evaluateIndex, h.trim_eq, if_pos hs]

theorem indexOf_literal {i : Text} (h : i.IsIndex) (hs : startsReference i = false) :
    set.indexOf (.index i) scope = pure (literalIndex i) := by
  rw [indexOf, evaluateIndex, h.trim_eq, hs]
  rfl

end Setting

/-! ## references inside references -/

/-- resolving the escapes of a reference leaves its last `#` where it is -/
theorem unescape_of_walk {t r : Text} {us : List Text} (h : walk t = some (us, r)) :
    unescape (us.flatten ++ ['#']) = unescape us.flatten ++ ['#'] := by
  fun_induction walk t generalizing us with
  | case1 => cases h
  | case2 t =>
    obtain ⟨rfl, rfl⟩ := Prod.mk.inj (Option.some.inj h)
    rfl
  | case3 c t hc ih =>
    obtain ⟨⟨us', r'⟩, hw, he⟩ := Option.map_eq_some_iff.mp h
    obtain ⟨rfl, rfl⟩ := Prod.mk.inj he
    have hfirst := firstUnit_nextUnit c t
    have hlong : us'.flatten ++ ['#'] <+: (nextUnit c t).2 := by
      rw [← append_of_walk hw, List.prefix_append_right_inj]
      exact List.prefix_append ['#'] r'
    rw [List.flatten_cons, List.append_assoc, hfirst.unescape_append hlong, ih hw,
      hfirst.unescape_append ((List.prefix_append _ _).trans hlong), List.append_assoc]

/-- with its escapes resolved, a reference still starts and ends with a `#` -/
theorem exists_unescape_of_scan {t : Text} {r : Reference} (h : Segment.scan t = [.reference r]) :
    ∃ s, unescape t = '#' :: (s ++ ['#']) := by
  obtain ⟨s, us, rfl, hw, -⟩ := Segment.exists_walk_of_scan h
  refine ⟨unescape us.flatten, ?_⟩
  rw [unescape_cons_of_ne _ (by decide), ← append_of_walk hw, unescape_of_walk hw]

theorem Text.Nested.escape {t : Text} (h : t.Nested) : (Stencil.escape t).Nested := by
  obtain ⟨s, hs, hnested⟩ := (NestedIn.closes h).escape.exists_nestedIn
  rw [escape_append] at hs
  rwa [List.append_cancel_right hs]

namespace Setting

variable {σ : Type} (set : Setting σ) {n : Text} (hn : n.Writable) {scope : Scope}
  {items : List Value} (hv : scope.get? n = some (.list items))
include hn hv

/-- the index of a list, if it starts and ends with `#` -/
theorem evaluates_listIndex {i s : Text} (hi : i.Nested) (hs : unescape i = '#' :: (s ++ ['#'])) :
    set.Evaluates (referenceTo n [i]) scope (do
      pickItem (.reference n) items (unescape i) (← set.resolve (unescape i) scope)) := by
  have hindex : (unescape i).IsIndex := hs ▸ Text.isIndex_concat rfl rfl s
  have hstart : startsReference (unescape i) = true := by
    rw [hs]
    rfl
  have hlist := set.evaluates_index hn hv rfl hi hindex
  rw [set.indexOf_reference hindex hstart] at hlist
  exact hlist

/-- **A reference as the index of a list.**  For every text `r` that is one reference, with matching
parentheses, `#n at(r)#` takes its index from the text that `r` is with its escapes resolved.  If
there are no escapes in `r`, or it is the same reference without them, the index is the value that
the reference has outside, with the same problems and the same effects; and so it always is if `r` is
written with its escapes. -/
theorem evaluates_innerReference {r : Text} {v : Reference}
    (hr : Segment.scan r = [.reference v]) (hnested : r.Nested) :
    set.Evaluates (referenceTo n [r]) scope (do
        pickItem (.reference n) items (unescape r) (← set.resolve (unescape r) scope)) ∧
      (unescape r = r ∨ Reference.read? (unescape r) = some v →
        set.Evaluates (referenceTo n [r]) scope (do
          pickItem (.reference n) items (unescape r) (← set.evaluate v scope))) ∧
      set.Evaluates (referenceTo n [escape r]) scope (do
        pickItem (.reference n) items r (← set.evaluate v scope)) := by
  obtain ⟨s, hs⟩ := exists_unescape_of_scan hr
  have hraw := set.evaluates_listIndex hn hv hnested hs
  refine ⟨hraw, fun hsame => ?_, ?_⟩
  · have hread : Reference.read? (unescape r) = some v := by
      rcases hsame with hplain | hread
      · rw [hplain, Reference.read?_of_scan hr]
      · exact hread
    have hstart : startsReference (unescape r) = true := by
      rw [hs]
      rfl
    rwa [set.resolve_of_read? hstart hread] at hraw
  · obtain ⟨t, us, rfl, hw, -⟩ := Segment.exists_walk_of_scan hr
    have hends : unescape (escape ('#' :: t)) = '#' :: (us.flatten ++ ['#']) := by
      rw [unescape_escape, append_of_walk hw]
    have hescaped := set.evaluates_listIndex hn hv hnested.escape hends
    rwa [unescape_escape, set.resolve_of_scan hr] at hescaped

end Setting

/-- an item of one list at the index that is an item of another, with blanks around the inner index -/
theorem evaluates_innerReference_twice :
    let set := (Engine.new {} Host.bare () .congruence).setting
    let items : List Value := [.string "p".toList, .string "q".toList]
    let scope : Scope := [("i".toList, .number .one),
      ("xs".toList, .list items), ("ys".toList, .list [.null, .number .zero])]
    let r : Text := "#ys at( #i# )#".toList
    let v : Reference := ⟨"ys".toList, ["at( #i# )".toList]⟩
    referenceTo "xs".toList [r] = "#xs at(#ys at( #i# )#)#".toList ∧
      Segment.scan r = [.reference v] ∧ r.Nested ∧ unescape r = r ∧
      (set.renderNodes [.text "#xs at(#ys at( #i# )#)#".toList] scope ⟨(), .congruence 0⟩).value.1 =
        ["p".toList] ∧
      set.Evaluates (referenceTo "xs".toList [r]) scope (do
        Setting.pickItem (.reference "xs".toList) items r (← set.evaluate v scope)) := by
  intro set items scope r v
  have hname : Text.Writable "xs".toList := by decide
  have hscan : Segment.scan r = [.reference v] := by decide +kernel
  have hnested : r.Nested := by decide +kernel
  have hplain : unescape r = r := by decide
  have hitems : scope.get? "xs".toList = some (.list items) := rfl
  have hinner := (set.evaluates_innerReference hname hitems hscan hnested).2.1 (.inl hplain)
  rw [hplain] at hinner
  exact ⟨rfl, hscan, hnested, hplain, by decide +kernel, hinner⟩

/-- an escape in an inner reference is resolved before the reference is read: with `#a\#b#` as its
index a list is not given the value of `a#b`, but a text that is no reference -/
theorem innerReference_escape_lost :
    let set := (Engine.new {} Host.bare () .congruence).setting
    let items : List Value := [.string "p".toList, .string "q".toList]
    let scope : Scope := [("a#b".toList, .number .one), ("xs".toList, .list items)]
    let r : Text := "#a\\#b#".toList
    let v : Reference := ⟨"a#b".toList, []⟩
    referenceTo "xs".toList [r] = "#xs at(#a\\#b#)#".toList ∧
      Segment.scan r = [.reference v] ∧ r.Nested ∧ set.evaluate v scope = pure (.number .one) ∧
      set.Evaluates (referenceTo "xs".toList [r]) scope (do
        .noteAll [.malformedReference "#a#b#".toList,
          .indexNotNumber "#a#b#".toList (.reference "xs".toList)]
        pure .null) ∧
      ¬set.Evaluates (referenceTo "xs".toList [r]) scope (do
        Setting.pickItem (.reference "xs".toList) items r (← set.evaluate v scope)) := by
  intro set items scope r v
  have hname : Text.Writable "xs".toList := by decide
  have hscan : Segment.scan r = [.reference v] := by decide +kernel
  have hnested : r.Nested := by decide +kernel
  have hvalue : set.evaluate v scope = pure (.number .one) := set.evaluate_name scope _
  have hunread : set.resolve "#a#b#".toList scope = (do
      .note (.malformedReference "#a#b#".toList)
      pure .null) := set.resolve_of_unread rfl (by decide +kernel)
  have hlost : set.Evaluates (referenceTo "xs".toList [r]) scope (do
      .noteAll [.malformedReference "#a#b#".toList,
        .indexNotNumber "#a#b#".toList (.reference "xs".toList)]
      pure .null) := by
    have hitems : scope.get? "xs".toList = some (.list items) := rfl
    have hends : unescape r = '#' :: ("a#b".toList ++ ['#']) := by decide
    have hresolved : unescape r = "#a#b#".toList := by decide
    have hlist := set.evaluates_listIndex hname hitems hnested hends
    rw [hresolved, hunread] at hlist
    exact hlist
  refine ⟨rfl, hscan, hnested, hvalue, hlost, fun hindex => ?_⟩
  have hruns := hlost.alone.symm.trans hindex.alone
  rw [hvalue, pure_bind] at hruns
  have hproblems :=
    congrArg (fun x : Run Unit Value => (x ⟨(), .congruence 0⟩).problems.length) hruns
  exact absurd hproblems (by decide +kernel)

end Stencil
