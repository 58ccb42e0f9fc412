import Stencil.Host.Files
import Stencil.Proofs.Calls.Fields
import Stencil.Proofs.Document

/-!
# Texts that are fetched

`load(…)` is `parse(…)` of the text that is fetched.  While that text is interpreted its path is
being loaded, which is one more entry in the list of paths; but the list is looked at by nothing but
loading, and so the entry makes no difference unless the same path is to be loaded again.

* `Frame.SameBut p`         two frames that differ in nothing but whether `p` is being loaded;
* `Code.Returns.sameBut`    code that does not load `p` does the same in both;
* `specifiedLine`           a reference with a modifier, as a line;
* `Setting.evaluate_load`, `Setting.evaluate_parse`   references with one of the two modifiers;
* `Frame.load_eq_parse`     loading is interpreting what is fetched.
-/

namespace Stencil

/-! ## one path more or less -/

structure Frame.SameBut (p : Text) (f g : Frame) : Prop where
  depth : f.depth = g.depth
  loading : ∀ path, path ≠ p → (path ∈ f.loading ↔ path ∈ g.loading)

theorem Frame.SameBut.shift {p : Text} {f g : Frame} (h : f.SameBut p g) (s : Shift) :
    (f.shift s).SameBut p (g.shift s) := by
  cases s with
  | here => exact h
  | inTemplate => exact ⟨congrArg (· + 1) h.depth, h.loading⟩
  | inLoad path =>
    refine ⟨h.depth, fun q hq => ?_⟩
    show q ∈ path :: f.loading ↔ q ∈ path :: g.loading
    rw [List.mem_cons, List.mem_cons, h.loading q hq]

section
variable {σ : Type} {o : Options} {host : Host σ} {p : Text}

theorem Task.code_sameBut {f g : Frame} (h : f.SameBut p g) {α : Type} (t : Task α)
    (ht : ¬t.Loads p) : t.code o host g = t.code o host f := by
  cases t with
  | load path fmt scope =>
    have hany : g.loading.any (· = path) = f.loading.any (· = path) := by
      rw [Bool.eq_iff_iff, List.any_eq_true, List.any_eq_true]
      simp only [decide_eq_true_eq, exists_eq_right]
      exact (h.loading path ht).symm
    show Code.load host g path fmt scope = Code.load host f path fmt scope
    rw [Code.load, Code.load, hany]
  | template source scope =>
    show Code.template o g source scope = Code.template o f source scope
    rw [Code.template, Code.template, h.depth]
  | _ => rfl

/-- code that does not load a path does not depend on whether the path is being loaded -/
theorem Code.Returns.sameBut {α : Type} {c d : Call} {x : Code σ α} {w : World σ} {r : Result σ α}
    (hr : x.Returns o host (fun _ e => ¬e.Loads p) c w r) (h : c.frame.SameBut p d.frame) :
    x.Returns o host (fun _ e => ¬e.Loads p) d w r := by
  induction hr generalizing d with
  | ret => exact .ret
  | act _ ih => exact .act (ih h)
  | @call c α β s t next w r q hfree hr hq ihr ihq =>
    have hcode : t.code o host (d.frame.shift s) = t.code o host (c.frame.shift s) :=
      Task.code_sameBut (h.shift s) t hfree
    refine .call hfree ?_ (ihq h)
    rw [hcode]
    exact ihr (d := ⟨d.frame.shift s, t⟩) (h.shift s)

end

/-! ## references with a modifier -/

/-- a reference with a modifier, as a line -/
def specifiedLine (n : Text) (m : Modifier) : Text := '#' :: (n ++ ' ' :: (m.display ++ ['#']))

theorem Segment.scan_specifiedLine {n : Text} (hn : n.Plain) {m : Modifier}
    (hm : (walk (m.display ++ ['#'])).map (fun (us, r) => ((words us).map unescape, r)) =
      some ([m.display], [])) :
    scan (specifiedLine n m) = [.reference ⟨n, [m.display]⟩] := by
  obtain ⟨⟨us, r⟩, hwalk, hw⟩ := Option.map_eq_some_iff.mp hm
  simp only [Prod.mk.injEq] at hw
  obtain ⟨hwords, rfl⟩ := hw
  have hline : walk (n ++ ' ' :: (m.display ++ ['#'])) =
      some (characters n ++ [' '] :: us, []) := by
    rw [walk_plain_append hn.chars, walk_blank, hwalk]
    rfl
  have hall : (words (characters n ++ [' '] :: us)).map unescape = [n, m.display] := by
    rw [words, wordsFrom_characters hn.chars, wordsFrom_blank, List.append_nil,
      consWord_of_ne_nil hn.ne_nil, List.map_cons, unescape_of_plain hn.chars, hwords]
  have hunits : Reference.ofUnits? (characters n ++ [' '] :: us) = some ⟨n, [m.display]⟩ := by
    rw [Reference.ofUnits?, hall]
  rw [specifiedLine, scan_of_walk hline, scan_nil, ofUnits, hunits]

theorem Segment.scan_load {n : Text} (hn : n.Plain) (f : Format) :
    scan (specifiedLine n (.load f)) = [.reference ⟨n, [(Modifier.load f).display]⟩] := by
  refine scan_specifiedLine hn ?_
  cases f <;> decide +kernel

theorem Segment.scan_parse {n : Text} (hn : n.Plain) (f : Format) :
    scan (specifiedLine n (.parse f)) = [.reference ⟨n, [(Modifier.parse f).display]⟩] := by
  refine scan_specifiedLine hn ?_
  cases f <;> decide +kernel

namespace Setting

variable {σ : Type} (set : Setting σ) {n t : Text} {scope : Scope}
  (h : scope.get? n = some (.string t)) (f : Format)

theorem evaluate_modified {m : Modifier} {v : Value}
    (hcheck : Reference.signature.check (.reference n) [m.display] = ⟨[], [m], true, []⟩)
    (hv : v.isNull = false) (h : scope.get? n = some v) :
    set.evaluate ⟨n, [m.display]⟩ scope =
      set.apply (.reference n) m (set.indexOf m scope) v scope := by
  rw [evaluate, hcheck, Run.noteAll_nil, pure_bind]
  show (lookup n scope >>= fun v => set.applyAll (.reference n) [m] v scope) = _
  rw [lookup_of_get? h, pure_bind, applyAll, hv]
  show (set.apply (.reference n) m (set.indexOf m scope) v scope >>= fun w =>
    set.applyAll (.reference n) [] w scope) = _
  simp only [applyAll, bind_pure]

include h

theorem evaluate_load : set.evaluate ⟨n, [(Modifier.load f).display]⟩ scope = set.load t f scope :=
  set.evaluate_modified (by cases f <;> rfl) rfl h

theorem evaluate_parse :
    set.evaluate ⟨n, [(Modifier.parse f).display]⟩ scope = set.interpret t f scope :=
  set.evaluate_modified (by cases f <;> rfl) rfl h

end Setting

/-! ## texts that load nothing -/

/-- neither `parse(` nor `load(` stands in a text -/
def Text.SelfContained (t : Text) : Prop := ¬"parse(".toList <:+: t ∧ ¬"load(".toList <:+: t

theorem Text.SelfContained.hereditary : Text.Hereditary Text.SelfContained :=
  (Text.Hereditary.without (by decide) (by decide)).and (.without (by decide) (by decide))

/-! ## loading and interpreting -/

section
variable {σ : Type} (o : Options) (host : Host σ) (f : Frame) {p text : Text} (fmt : Format)
  (scope : Scope) {w : World σ} {state : σ}

/-- a path that can be fetched and is not being loaded is one more being loaded -/
theorem Frame.load_eq (hp : p ∉ f.loading) (hfetch : host.fetch p w.host = (.ok text, state)) :
    (f.setting o host).load p fmt scope w =
      (⟨f.shift (.inLoad p), .interpret text fmt scope⟩ : Call).eval o host
        { w with host := state } := by
  have hany : f.loading.any (· = p) = false := by
    rw [List.any_eq_false]
    intro path hpath
    simp only [decide_eq_true_eq]
    rintro rfl
    exact hp hpath
  have hfetched : (f.setting o host).fetch p w = ⟨.ok text, [], { w with host := state }⟩ := by
    show (⟨(host.fetch p w.host).1, [], { w with host := (host.fetch p w.host).2 }⟩ :
      Result σ (Except Failure Text)) = _
    rw [hfetch]
  rw [Setting.load, show (f.setting o host).loading = f.loading from rfl, hany]
  show ((f.setting o host).fetch p >>= _) w = _
  rw [Run.bind_apply, hfetched]
  rfl

/-- a text that is self-contained is interpreted without any path being loaded -/
theorem Call.returns_selfContained (ht : text.SelfContained) :
    ∃ r, (⟨f, .interpret text fmt scope⟩ : Call).Returns o host (fun _ d => ¬d.Loads p) w r := by
  let P : Call → Prop := fun d => d.task.Over Text.SelfContained ∧ ∀ path, ¬d.Loads path
  have hstep : ∀ d d' : Call, P d → Makes Text.SelfContained o host d d' → P d' := by
    rintro d d' ⟨hover, hloads⟩ h
    refine ⟨h.over Text.SelfContained.hereditary ?_ ?_ hover, ?_⟩
    · exact fun spec fmt hspec hread => hspec.1 (Modifier.infix_of_read hread rfl)
    · exact fun path s contents hl _ => absurd hl (hloads path)
    · cases h with
      | load hspec hread => exact absurd (Modifier.infix_of_read hread rfl) (hover.2 _ hspec).2
      | _ => exact fun _ => id
  have hcode : ∀ d : Call, P d → (d.code o host).Within d.frame P fun _ => True :=
    fun d hd => (d.within_makes Text.SelfContained.hereditary o host hd.1).mono
      (fun d' => hstep d d' hd) fun _ _ => trivial
  obtain ⟨hr, -⟩ := (Call.returns o host ⟨f, .interpret text fmt scope⟩ w).invariant hcode
    ⟨ht, fun _ => id⟩
  exact ⟨_, hr.mono fun _ d hd => hd.2.2 p⟩

/-- **`load(…)` is `parse(…)` of what is fetched.**  Let one variable hold a path that is not being
loaded, and another one the text that is fetched under it, and let interpreting the text not load
the path again.  However many templates this is inside of, the references `#a load(…)#` and
`#c parse(…)#` have the same value, the same problems are noted, and the world is left the same; and
so it is with a line that is such a reference, which leaves the scope as it is.  For the second one
the host is as the fetching leaves it: the same as for the first one, if it answers alike in both.
An engine that keeps where it stands in fields carries out the four with these results and no
others, and the fields are then as they were. -/
theorem Frame.load_eq_parse {a c : Text} (hp : p ∉ f.loading)
    (ha : scope.get? a = some (.string p)) (hc : scope.get? c = some (.string text))
    (hfetch : host.fetch p w.host = (.ok text, state))
    (hfree : ∃ r, (⟨f, .interpret text fmt scope⟩ : Call).Returns o host
      (fun _ d => ¬d.Loads p) { w with host := state } r) :
    let set := f.setting o host
    let w' : World σ := { w with host := state }
    let load : Reference := ⟨a, [(Modifier.load fmt).display]⟩
    let parse : Reference := ⟨c, [(Modifier.parse fmt).display]⟩
    let loadLine := [Node.text (specifiedLine a (.load fmt))]
    let parseLine := [Node.text (specifiedLine c (.parse fmt))]
    set.evaluate load scope w = set.evaluate parse scope w' ∧
      (Task.reference load scope).Restores o host f w (set.evaluate load scope w) ∧
      (Task.reference parse scope).Restores o host f w' (set.evaluate parse scope w') ∧
      (a.Plain → c.Plain →
        set.renderNodes loadLine scope w = set.renderNodes parseLine scope w' ∧
          (set.renderNodes loadLine scope w).value.2 = scope ∧
          (Task.nodes loadLine scope).Restores o host f w (set.renderNodes loadLine scope w) ∧
          (Task.nodes parseLine scope).Restores o host f w'
            (set.renderNodes parseLine scope w')) := by
  intro set w' load parse loadLine parseLine
  obtain ⟨r, hr⟩ := hfree
  have hsame : f.SameBut p (f.shift (.inLoad p)) :=
    ⟨rfl, fun path hne => (List.mem_cons.trans (or_iff_right hne)).symm⟩
  have hr' : (⟨f.shift (.inLoad p), .interpret text fmt scope⟩ : Call).Returns o host
      (fun _ d => ¬d.Loads p) w' r := Code.Returns.sameBut hr hsame
  have heval : set.evaluate load scope w = set.evaluate parse scope w' := by
    rw [set.evaluate_load ha, set.evaluate_parse hc, f.load_eq o host fmt scope hp hfetch, ← hr'.eq]
    exact hr.eq
  refine ⟨heval, Task.restores _ f w, Task.restores _ f w', fun hpa hpc => ?_⟩
  have hlines : set.renderNodes loadLine scope w = set.renderNodes parseLine scope w' ∧
      (set.renderNodes loadLine scope w).value.2 = scope := by
    rw [set.renderNodes_reference (Segment.scan_load hpa fmt),
      set.renderNodes_reference (Segment.scan_parse hpc fmt), Run.bind_pure_apply,
      Run.bind_pure_apply, heval]
    exact ⟨rfl, rfl⟩
  exact ⟨hlines.1, hlines.2, Task.restores _ f w, Task.restores _ f w'⟩

end

/-- a file that is a template with a reference, in two templates of which a path is being loaded -/
theorem load_eq_parse_greeting :
    let host : Host Unit :=
      { Host.bare with fetch := fun p s => (Files.fetch [("p".toList, "<#b#>".toList)] p, s) }
    let scope : Scope := [("a".toList, .string "p".toList), ("b".toList, .string "x".toList),
      ("c".toList, .string "<#b#>".toList)]
    let f : Frame := ⟨2, ["q".toList]⟩
    let w : World Unit := ⟨(), .congruence 0⟩
    let loadLine := [Node.text "#a load(ib)#".toList]
    let parseLine := [Node.text "#c parse(ib)#".toList]
    let load := (f.setting {} host).renderNodes loadLine scope w
    let parse := (f.setting {} host).renderNodes parseLine scope w
    load.value.1 = ["<x>".toList] ∧ load = parse ∧ load.value.2 = scope ∧
      (Task.nodes loadLine scope).Restores {} host f w load ∧
      (Task.nodes parseLine scope).Restores {} host f w parse := by
  intro host scope f w loadLine parseLine load parse
  have hfree : ∃ r, (⟨f, .interpret "<#b#>".toList .template scope⟩ : Call).Returns {} host
      (fun _ d => ¬d.Loads "p".toList) w r := by
    refine Call.returns_selfContained {} host _ .template scope ⟨?_, ?_⟩
    · decide +kernel
    · decide +kernel
  obtain ⟨-, -, -, hlines⟩ := Frame.load_eq_parse {} host f .template scope (w := w)
    (a := "a".toList) (c := "c".toList) (by decide) rfl rfl rfl hfree
  exact ⟨by decide +kernel, hlines (by decide) (by decide)⟩

end Stencil
