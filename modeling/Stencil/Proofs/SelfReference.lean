import Stencil.Proofs.Between
import Stencil.Proofs.Definition
import Stencil.Proofs.Fetched
import Stencil.Proofs.Writing

/-!
# Texts that refer to themselves

A variable that holds a reference to itself, to be interpreted as a template, between two other
texts is expanded as deep as templates may be rendered inside each other.  The one that is refused
gives nothing, so that what is left are the texts in front of the reference, once for each level,
and then those behind it.

* `Text.IsLiteral`               a text that stands for itself in a line;
* `parseLine`, `parseBetween`    the reference as a line, alone and between two such texts;
* `Setting.interpret_line`       a line that is interpreted as a template;
* `Setting.substitute_nestedAt`  the reference, with so many levels left;
* `Engine.substitute_selfReference`   the reference in an engine.
-/

namespace Stencil

/-- a text that stands for itself in a line, and makes no command of the line -/
def Text.IsLiteral (t : Text) : Prop := ∀ c ∈ t, c ∉ ['#', '\\', '$', '\n']

instance (t : Text) : Decidable t.IsLiteral := List.decidableBAll _ t

theorem Text.IsLiteral.noEscape {t : Text} (h : t.IsLiteral) : ∀ c ∈ t, needsEscape c = false := by
  intro c hc
  have hnot := h c hc
  simp only [List.mem_cons, List.not_mem_nil, or_false, not_or] at hnot
  simp [needsEscape, hnot]

theorem Text.IsLiteral.notMem {t : Text} (h : t.IsLiteral) {c : Char}
    (hc : c ∈ ['#', '\\', '$', '\n']) : c ∉ t := fun hm => h c hm hc

/-! ## a reference between two texts -/

def parseLine (n : Text) : Text := specifiedLine n (.parse .template)

/-- a text with such a line between two others -/
def parseBetween (n p q : Text) : Text := p ++ (parseLine n ++ q)

theorem notMem_parseLine {n : Text} {c : Char} (hn : c ∉ n) (hc : c ∉ "# parse(ib)".toList) :
    c ∉ parseLine n := by
  have hdisplay : (Modifier.parse .template).display = "parse(ib)".toList := rfl
  simp only [String.reduceToList, List.mem_cons, List.not_mem_nil, or_false, not_or] at hc
  rw [parseLine, specifiedLine, hdisplay]
  simp [hn, hc]

theorem notMem_parseBetween {n p q : Text} {c : Char} (hp : c ∉ p) (hq : c ∉ q)
    (hn : c ∉ parseLine n) : c ∉ parseBetween n p q := by
  rw [parseBetween, List.mem_append, List.mem_append, not_or, not_or]
  exact ⟨hp, hn, hq⟩

theorem Segment.scan_parseLine_append {n : Text} (hn : n.IsName) (more : Text) :
    scan (parseLine n ++ more) =
      .reference ⟨n, [(Modifier.parse .template).display]⟩ :: scan more := by
  have hparse : Text.Solid (Modifier.parse .template).display := by
    have hkeyword : Text.Plain "parse".toList := by decide
    have hgroup : Closes 0 "ib)".toList := closes_of_splitGroup (t := "ib)".toList) (r := []) rfl
    exact (Text.solid_of_chars hkeyword.chars).append (Text.solid_group hgroup)
  have hwords : ∀ w ∈ [n, (Modifier.parse .template).display], w ≠ [] ∧ w.Solid := by
    refine List.forall_mem_cons.mpr ⟨⟨hn.ne_nil, Text.solid_of_chars hn.plain.chars⟩, ?_⟩
    exact List.forall_mem_singleton.mpr ⟨List.cons_ne_nil _ _, hparse⟩
  have hline : parseLine n ++ more =
      '#' :: (Text.joinWords [n, (Modifier.parse .template).display] ++ '#' :: more) := by
    rw [Text.joinWords_cons_cons, Text.joinWords_singleton, parseLine, specifiedLine]
    simp
  have hunescape : unescape (Modifier.parse .template).display =
      (Modifier.parse .template).display := by decide
  rw [hline, scan_joinWords_append hwords, unescape_of_plain hn.plain.chars, List.map_singleton,
    hunescape]

namespace Setting

variable {σ : Type} {options : Options} {host : Host σ} {loading : List Text}

theorem interpret_line {t : Text} (hl : '\n' ∉ t) (hs : ¬t.Fenced) (depth : Nat) (scope : Scope) :
    let set : Setting σ := ⟨options, host, loading, nestedAt options host (depth + 1)⟩
    let inner : Setting σ := ⟨options, host, loading, nestedAt options host depth⟩
    set.interpret t .template scope = (do
      let u ← inner.substitute t scope
      pure (.string u)) := by
  intro set inner
  have hsource : inner.renderSource t scope = (do
      let u ← inner.substitute t scope
      pure (u, scope)) := by
    rw [renderSource, Template.read_line hl hs]
    simp only [Run.noteAll_nil, renderNodes_line, bind_assoc, pure_bind, Text.joinLines_singleton]
  have hnested : set.nested loading t scope = (do
      let u ← inner.substitute t scope
      pure (some u)) := by
    show (inner.renderSource t scope >>= fun r => pure (some r.1)) = _
    rw [hsource]
    simp only [bind_assoc, pure_bind]
  have hloading : set.loading = loading := rfl
  simp only [interpret, hloading, hnested, bind_assoc, pure_bind]

variable {n p q : Text} {scope : Scope} (hn : n.IsName)
include hn

theorem substitute_parseLine (set : Setting σ) {t : Text} (hv : scope.get? n = some (.string t)) :
    set.substitute (parseLine n) scope = (do
      let v ← set.interpret t .template scope
      pure v.display) := by
  have hscan := Segment.scan_parseLine_append hn []
  rw [List.append_nil, Segment.scan_nil] at hscan
  rw [substitute, hscan, renderSegments, renderSegment, set.evaluate_parse hv]
  simp only [renderSegments, bind_assoc, pure_bind, List.append_nil]

variable (hp : p.IsLiteral) (hq : q.IsLiteral)
include hp hq

theorem substitute_parseBetween (set : Setting σ) :
    set.substitute (parseBetween n p q) scope = (do
      let t ← set.substitute (parseLine n) scope
      pure (p ++ (t ++ q))) := by
  have hscan := Segment.scan_append_of_noEscape hp.noEscape (parseLine n ++ q)
  have hbehind : set.renderSegments scope (Segment.scan q) = pure q := by
    have hq' := Segment.scan_append_of_noEscape hq.noEscape []
    rw [List.append_nil] at hq'
    rw [hq', renderSegments_foldr, Segment.scan_nil, renderSegments, pure_bind, List.append_nil]
  have halone := Segment.scan_parseLine_append hn []
  rw [List.append_nil, Segment.scan_nil] at halone
  rw [parseBetween, substitute, hscan, renderSegments_foldr, Segment.scan_parseLine_append hn,
    renderSegments_cons, hbehind, substitute, halone, renderSegments_cons, renderSegments]
  simp only [bind_assoc, pure_bind, List.append_nil]

/-- with `depth` levels left the text in front stands there as often, and so does the one behind;
the level that is refused is noted, and gives nothing -/
theorem substitute_nestedAt (hme : scope.get? n = some (.string (parseBetween n p q))) (depth : Nat)
    (w : World σ) :
    let set : Setting σ := ⟨options, host, loading, nestedAt options host depth⟩
    set.substitute (parseLine n) scope w =
      ⟨(List.replicate depth p).flatten ++ (List.replicate depth q).flatten,
        [.depthExceeded options.maxDepth], w⟩ := by
  intro set
  induction depth with
  | zero =>
    rw [substitute_parseLine hn set hme]
    rfl
  | succ depth ih =>
    let inner : Setting σ := ⟨options, host, loading, nestedAt options host depth⟩
    have hinner : inner.substitute (parseBetween n p q) scope w =
        ⟨(List.replicate (depth + 1) p).flatten ++ (List.replicate (depth + 1) q).flatten,
          [.depthExceeded options.maxDepth], w⟩ := by
      rw [substitute_parseBetween hn hp hq, Run.bind_pure_apply, ih, List.replicate_succ,
        List.replicate_succ', List.flatten_append]
      simp
    have hbreak : '\n' ∉ parseBetween n p q := notMem_parseBetween (hp.notMem (by decide))
      (hq.notMem (by decide)) (notMem_parseLine hn.newline_notMem (by decide))
    have hdollar : '$' ∉ parseBetween n p q := notMem_parseBetween (hp.notMem (by decide))
      (hq.notMem (by decide)) (notMem_parseLine hn.dollar_notMem (by decide))
    rw [substitute_parseLine hn set hme,
      interpret_line hbreak (Text.notFenced_of_notMem hdollar) depth scope, bind_assoc]
    simp only [pure_bind]
    rw [Run.bind_pure_apply, hinner]
    rfl

end Setting

/-! ## in an engine -/

/-- **The depth of templates is used up exactly.**  Let a variable hold a reference to itself, to be
interpreted as a template, between two texts that stand for themselves.  With `d` for the depth that
is allowed, a line of this reference gives the text in front `d` times, and then the text behind `d`
times; one problem is noted, a warning, and nothing else is changed.  So the engine that was used
gives the same again, for the line as well as for a template of the line, and notes the same once
more. -/
theorem Engine.substitute_selfReference {σ : Type} (e : Engine σ) {n p q : Text} {scope : Scope}
    (hn : n.IsName) (hp : p.IsLiteral) (hq : q.IsLiteral)
    (hme : scope.get? n = some (.string (parseBetween n p q))) :
    let d := e.options.maxDepth
    let output := (List.replicate d p).flatten ++ (List.replicate d q).flatten
    let noted (k : Nat) : Engine σ :=
      { e with log := e.log.add (List.replicate k (.depthExceeded d)) }
    (Problem.depthExceeded d).severity = .warning ∧
      e.substitute (parseLine n) scope = (output, noted 1) ∧
      (noted 1).substitute (parseLine n) scope = (output, noted 2) ∧
      (noted 1).render (parseLine n) scope = ((output, scope), noted 2) := by
  intro d output noted
  have hline (k : Nat) : (noted k).setting.substitute (parseLine n) scope (noted k).world =
      ⟨output, [.depthExceeded d], e.world⟩ :=
    Setting.substitute_nestedAt hn hp hq hme d e.world
  have hlog (k : Nat) : (noted k).log.add [.depthExceeded d] = (noted (k + 1)).log := by
    show (⟨e.log.problems ++ List.replicate k _ ++ [_]⟩ : Log) = ⟨e.log.problems ++ _⟩
    rw [List.append_assoc, ← List.replicate_succ']
  have hsubstitute (k : Nat) :
      (noted k).substitute (parseLine n) scope = (output, noted (k + 1)) := by
    rw [substitute, run, hline, hlog]
  have hrender (k : Nat) :
      (noted k).render (parseLine n) scope = ((output, scope), noted (k + 1)) := by
    have hread := Template.read_line (notMem_parseLine hn.newline_notMem (by decide))
      (Text.notFenced_of_notMem (notMem_parseLine hn.dollar_notMem (by decide)))
    have hnodes : (noted k).setting.renderNodes [.text (parseLine n)] scope (noted k).world =
        ⟨([output], scope), [.depthExceeded d], e.world⟩ := by
      rw [Setting.renderNodes_line, Run.bind_pure_apply, hline]
    rw [render_of_read _ hread hnodes, List.nil_append, hlog, Text.joinLines_singleton]
  have hzero : noted 0 = e := by
    show { e with log := e.log.add [] } = e
    rw [Log.add_nil]
  have hfirst := hsubstitute 0
  rw [hzero] at hfirst
  exact ⟨rfl, hfirst, hsubstitute 1, hrender 1⟩

/-- three levels, and a second time none that is left over -/
theorem substitute_selfReference_me :
    let e := Engine.new ⟨3, 100, none⟩ Host.bare () .congruence
    let scope : Scope := [("me".toList, .string "<a (#me parse(ib)#>".toList)]
    let noted (k : Nat) : Engine Unit := { e with log := ⟨List.replicate k (.depthExceeded 3)⟩ }
    e.substitute "#me parse(ib)#".toList scope = ("<a (<a (<a (>>>".toList, noted 1) ∧
      (noted 1).render "#me parse(ib)#".toList scope =
        (("<a (<a (<a (>>>".toList, scope), noted 2) := by
  intro e scope noted
  have hname : Text.IsName "me".toList := Text.isName_of_isAlphanum (by decide) (by decide)
  have hme : scope.get? "me".toList =
      some (.string (parseBetween "me".toList "<a (".toList ">".toList)) := rfl
  have hself := e.substitute_selfReference hname (by decide) (by decide) hme
  exact ⟨hself.2.1, hself.2.2.2⟩

end Stencil
