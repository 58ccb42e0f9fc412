import Stencil.Proofs.LineShapes
import Stencil.Proofs.Plain

/-!
# Documents of literal text and names

A line written from texts that stand for themselves and names that stand for their values is rendered
to those texts and values, put together.  A value is not read again, whatever stands in it.

* `Fragment`                  a literal text or the name of a variable;
* `Fragment.write`, `Fragment.fill`   how it is written, and what it stands for;
* `Fragment.Fits`             what is asked of a fragment in a scope;
* `Setting.evaluate_name`     a reference that is a name only;
* `Setting.substitute_writeLine`   the fragments of a line;
* `Engine.render_document`    a document of such lines.
-/

namespace Stencil

/-- a part of a line: a text that stands for itself, or a name that stands for a value -/
inductive Fragment
  | literal (t : Text)
  | named (name : Text)
deriving DecidableEq, Repr

namespace Fragment

def write : Fragment → Text
  | literal t => escape t
  | named name => '#' :: (name ++ ['#'])

def fill (scope : Scope) : Fragment → Text
  | literal t => t
  | named name => ((scope.get? name).getD .null).display

/-- a text in one line, or a plain name in one line that has a value -/
def Fits (scope : Scope) : Fragment → Prop
  | literal t => '\n' ∉ t
  | named name => name.Plain ∧ '\n' ∉ name ∧ (scope.get? name).isSome = true

instance (scope : Scope) (f : Fragment) : Decidable (f.Fits scope) :=
  match f with
  | literal t => inferInstanceAs (Decidable ('\n' ∉ t))
  | named name =>
    inferInstanceAs (Decidable (name.Plain ∧ '\n' ∉ name ∧ (scope.get? name).isSome = true))

def writeLine (line : List Fragment) : Text := line.flatMap write

def fillLine (scope : Scope) (line : List Fragment) : Text := line.flatMap (fill scope)

theorem writeLine_cons (f : Fragment) (line : List Fragment) :
    writeLine (f :: line) = f.write ++ writeLine line := List.flatMap_cons

theorem fillLine_cons (scope : Scope) (f : Fragment) (line : List Fragment) :
    fillLine scope (f :: line) = f.fill scope ++ fillLine scope line := List.flatMap_cons

end Fragment

/-! ## segments -/

namespace Setting

variable {σ : Type} (set : Setting σ) (scope : Scope)

theorem lookup_of_get? {scope : Scope} {name : Text} {v : Value} (h : scope.get? name = some v) :
    (lookup name scope : Run σ Value) = pure v := by
  rw [lookup, h]

theorem evaluate_name (name : Text) : set.evaluate ⟨name, []⟩ scope = lookup name scope := by
  have hcheck : Reference.signature.check (.reference name) [] = ⟨[], [], true, []⟩ := rfl
  rw [evaluate, hcheck, Run.noteAll_nil, pure_bind]
  show (lookup name scope >>= fun v => set.applyAll (.reference name) [] v scope) = _
  simp only [applyAll, bind_pure]

theorem renderSegments_cons (s : Segment) (ss : List Segment) :
    set.renderSegments scope (s :: ss) = (do
      let t ← set.renderSegment scope s
      let u ← set.renderSegments scope ss
      pure (t ++ u)) := rfl

theorem renderSegments_consLiteral (c : Char) (ss : List Segment) :
    set.renderSegments scope (Segment.consLiteral c ss) = (do
      let u ← set.renderSegments scope ss
      pure (c :: u)) := by
  unfold Segment.consLiteral
  split
  · rename_i t ss
    rw [renderSegments_cons, renderSegments_cons]
    show (pure (c :: t) >>= fun _ => _) = ((pure t >>= fun _ => _) >>= fun _ => _)
    rw [pure_bind, pure_bind, bind_assoc]
    simp only [pure_bind, List.cons_append]
  · rw [renderSegments_cons]
    show (pure [c] >>= fun _ => _) = _
    rw [pure_bind]
    rfl

theorem renderSegments_foldr (t : Text) (ss : List Segment) :
    set.renderSegments scope (t.foldr Segment.consLiteral ss) = (do
      let u ← set.renderSegments scope ss
      pure (t ++ u)) := by
  induction t with
  | nil => exact (bind_pure _).symm
  | cons c t ih =>
    rw [List.foldr_cons, renderSegments_consLiteral, ih, bind_assoc]
    simp only [pure_bind, List.cons_append]

/-! ## lines -/

theorem renderNodes_line (line : Text) (scope : Scope) :
    set.renderNodes [.text line] scope = (do
      let t ← set.substitute line scope
      pure ([t], scope)) := by
  have hnone : ∀ s, set.renderNodes [] s = pure ([], s) := fun s => by rw [renderNodes]
  rw [renderNodes, renderNode]
  simp only [hnone, bind_assoc, pure_bind]
  rfl

theorem renderNodes_reference {line : Text} {r : Reference}
    (hline : Segment.scan line = [.reference r]) (scope : Scope) :
    set.renderNodes [.text line] scope = (do
      let v ← set.evaluate r scope
      pure ([v.display], scope)) := by
  rw [renderNodes_line, substitute, hline, renderSegments, renderSegments]
  simp only [renderSegment, bind_assoc, pure_bind, List.append_nil]

variable {scope}

/-- a line of fragments gives what the fragments stand for, and nothing else happens -/
theorem substitute_writeLine {line : List Fragment} (h : ∀ f ∈ line, f.Fits scope) :
    set.substitute (Fragment.writeLine line) scope = pure (Fragment.fillLine scope line) := by
  unfold substitute
  induction line with
  | nil =>
    show set.renderSegments scope (Segment.scan []) = _
    rw [Segment.scan_nil]
    rfl
  | cons f line ih =>
    have hf := h f List.mem_cons_self
    have hline := ih fun g hg => h g (List.mem_cons_of_mem f hg)
    rw [Fragment.writeLine_cons, Fragment.fillLine_cons]
    cases f with
    | literal t =>
      show set.renderSegments scope (Segment.scan (escape t ++ _)) = _
      rw [Segment.scan_escape_append, renderSegments_foldr, hline, pure_bind]
      rfl
    | named name =>
      obtain ⟨hplain, -, hbound⟩ := hf
      obtain ⟨v, hv⟩ := Option.isSome_iff_exists.mp hbound
      have hfill : (Fragment.named name).fill scope = v.display := by
        rw [Fragment.fill, hv]
        rfl
      have hwrite : (Fragment.named name).write ++ Fragment.writeLine line =
          '#' :: (name ++ '#' :: Fragment.writeLine line) := by
        simp [Fragment.write]
      have hsegment : set.renderSegment scope (.reference ⟨name, []⟩) = pure v.display := by
        show (set.evaluate _ scope >>= fun w => pure w.display) = _
        rw [evaluate_name, lookup_of_get? hv, pure_bind]
      rw [hwrite, Segment.scan_plain hplain, renderSegments_cons, hsegment, hline, hfill, pure_bind,
        pure_bind]

theorem renderNodes_lines {lines : List (List Fragment)}
    (h : ∀ line ∈ lines, ∀ f ∈ line, f.Fits scope) :
    set.renderNodes (lines.map fun line => .text (Fragment.writeLine line)) scope =
      pure (lines.map (Fragment.fillLine scope), scope) := by
  induction lines with
  | nil =>
    show set.renderNodes [] scope = _
    rw [renderNodes]
    rfl
  | cons line lines ih =>
    have hline := set.substitute_writeLine (h line List.mem_cons_self)
    have hlines := ih fun l hl => h l (List.mem_cons_of_mem line hl)
    rw [List.map_cons, renderNodes, renderNode, hline, pure_bind, pure_bind]
    show (set.renderNodes _ scope >>= _) = _
    rw [hlines, pure_bind]
    rfl

end Setting

/-! ## documents -/

theorem notMem_escape {c : Char} {t : Text} (hc : c ≠ '\\') (h : c ∉ t) : c ∉ escape t := by
  induction t with
  | nil => exact h
  | cons d t ih =>
    have hd : c ≠ d := fun e => h (e ▸ List.mem_cons_self)
    have ht := ih fun hm => h (List.mem_cons_of_mem d hm)
    rw [escape]
    split <;> simp [hc, hd, ht]

theorem Fragment.notMem_writeLine {scope : Scope} {line : List Fragment}
    (h : ∀ f ∈ line, f.Fits scope) : '\n' ∉ writeLine line := by
  intro hm
  obtain ⟨f, hf, hm⟩ := List.mem_flatMap.mp hm
  have hfits := h f hf
  cases f with
  | literal t => exact notMem_escape (by decide) hfits hm
  | named name =>
    have hname : '\n' ∉ name := hfits.2.1
    simp [write, hname] at hm

theorem Levels.ofLines_texts {lines : List Text} (h : ∀ line ∈ lines, LineShape.of line = .text) :
    ofLines lines = ⟨⟨lines.map .text, lines⟩, [], []⟩ := by
  induction lines with
  | nil => exact ofLines_nil
  | cons line lines ih =>
    rw [ofLines_text (h line List.mem_cons_self), ih fun l hl => h l (List.mem_cons_of_mem line hl)]
    rfl

theorem Token.problemsOfLines_texts {lines : List Text}
    (h : ∀ line ∈ lines, LineShape.of line = .text) : lines.flatMap problemsOfLine = [] := by
  refine List.flatMap_eq_nil_iff.mpr fun line hm => ?_
  rw [problemsOfLine, h line hm]
  rfl

theorem Template.read_texts {lines : List Text} (hne : lines ≠ [])
    (hl : ∀ line ∈ lines, '\n' ∉ line) (h : ∀ line ∈ lines, ¬line.Fenced) :
    read (Text.joinLines lines) = ⟨lines.map .text, []⟩ := by
  have hshape : ∀ line ∈ lines, LineShape.of line = .text :=
    fun line hm => LineShape.of_notFenced (h line hm)
  rw [read_joinLines hne, Text.flatMap_splitOn hl, Levels.ofLines_texts hshape,
    Token.problemsOfLines_texts hshape]
  show (⟨lines.map .text ++ [], []⟩ : Template) = _
  rw [List.append_nil]

theorem Template.read_line {line : Text} (hl : '\n' ∉ line) (h : ¬line.Fenced) :
    read line = ⟨[.text line], []⟩ := by
  have hread := read_texts (List.cons_ne_nil line []) (List.forall_mem_singleton.mpr hl)
    (List.forall_mem_singleton.mpr h)
  rwa [Text.joinLines_singleton] at hread

namespace Engine

variable {σ : Type} (e : Engine σ) {lines : List (List Fragment)} {scope : Scope}

theorem render_document_of_ne_nil (hne : lines ≠ [])
    (h : ∀ line ∈ lines, ∀ f ∈ line, f.Fits scope)
    (hs : ∀ line ∈ lines, ¬(Fragment.writeLine line).Fenced) :
    e.render (Text.joinLines (lines.map Fragment.writeLine)) scope =
      ((Text.joinLines (lines.map (Fragment.fillLine scope)), scope), e) := by
  have hread : Template.read (Text.joinLines (lines.map Fragment.writeLine)) =
      ⟨lines.map fun line => .text (Fragment.writeLine line), []⟩ := by
    rw [Template.read_texts, List.map_map]
    · rfl
    · simpa using hne
    · intro line hm
      obtain ⟨l, hl, rfl⟩ := List.mem_map.mp hm
      exact Fragment.notMem_writeLine (h l hl)
    · intro line hm
      obtain ⟨l, hl, rfl⟩ := List.mem_map.mp hm
      exact hs l hl
  rw [render_eq, hread, e.setting.renderNodes_lines h]
  show (_, { e with world := e.world, log := e.log.add ([] ++ []) }) = _
  rw [List.append_nil, Log.add_nil]
  rfl

end Engine

/-- **A document of literal texts and names is rendered to the texts and the values of the names**,
whatever characters the values are made of; the scope and the engine stay as they were, so that no
problem is noted.  The names are plain and have values, and no line looks like a command. -/
theorem Engine.render_document {σ : Type} (e : Engine σ) {lines : List (List Fragment)}
    {scope : Scope} (h : ∀ line ∈ lines, ∀ f ∈ line, f.Fits scope)
    (hs : ∀ line ∈ lines, ¬(Fragment.writeLine line).Fenced) :
    e.render (Text.joinLines (lines.map Fragment.writeLine)) scope =
      ((Text.joinLines (lines.map (Fragment.fillLine scope)), scope), e) := by
  by_cases hne : lines = []
  · -- a document without lines is written as one that has an empty line
    subst hne
    have hfits : ∀ line ∈ [([] : List Fragment)], ∀ f ∈ line, f.Fits scope :=
      List.forall_mem_singleton.mpr fun f hf => absurd hf List.not_mem_nil
    have hfence : ∀ line ∈ [[]], ¬(Fragment.writeLine line).Fenced := by decide
    have hempty := e.render_document_of_ne_nil (List.cons_ne_nil _ _) hfits hfence
    exact hempty
  · exact e.render_document_of_ne_nil hne h hs

/-- runs of escapes next to names, and a value that looks like a command and a reference -/
def Fragment.tricky : List (List Fragment) :=
  [[.literal "#\\".toList, .named "a".toList, .named "a".toList, .literal "\\(".toList],
    [.literal "$".toList, .named "b$".toList]]

theorem render_document_tricky :
    let scope : Scope := [("a".toList, .string "#b#\n$end$".toList), ("b$".toList, .bool true)]
    (∀ line ∈ Fragment.tricky, ∀ f ∈ line, f.Fits scope) ∧
      (∀ line ∈ Fragment.tricky, ¬(Fragment.writeLine line).Fenced) ∧
      (Engine.new {} Host.bare () .congruence).render "\\#\\\\#a##a#\\\\(\n$#b$#".toList scope =
        (("#\\#b#\n$end$#b#\n$end$\\(\n$true".toList, scope),
          Engine.new {} Host.bare () .congruence) := by
  intro scope
  have hfits : ∀ line ∈ Fragment.tricky, ∀ f ∈ line, f.Fits scope := by decide
  have hfence : ∀ line ∈ Fragment.tricky, ¬(Fragment.writeLine line).Fenced := by decide
  have hwrite : Text.joinLines (Fragment.tricky.map Fragment.writeLine) =
      "\\#\\\\#a##a#\\\\(\n$#b$#".toList := by decide
  refine ⟨hfits, hfence, ?_⟩
  rw [← hwrite]
  exact (Engine.new {} Host.bare () .congruence).render_document hfits hfence

end Stencil
