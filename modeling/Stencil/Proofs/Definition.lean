import Stencil.Proofs.Block
import Stencil.Proofs.Document

/-!
# A variable defined and used

A template put into a `define`, with a reference to the variable below it, is rendered as the
template alone: what the template does to the variables stays inside, and its output is bound to the
name and then put where the reference stands.

* `Text.IsName`               a word that stands for itself in a head, in a reference and in a line;
* `Setting.command_define`    what a `define` with a name alone does;
* `Setting.renderNodes_defineThenRefer`   a definition with a reference below it, in any scope;
* `Template.read_defineThenRefer`         what is read from the two around a template;
* `Engine.render_defineThenRefer`         a template defined and used is the template alone.
-/

namespace Stencil

/-! ## names -/

namespace Text

/-- whether a character can stand in a name: one that means nothing else in a template -/
def isNameChar (c : Char) : Bool := !(isSpace c || isSpecial c || c == '$')

/-- a word of characters that mean nothing else in a template, such as letters, digits and `_` -/
structure IsName (n : Text) : Prop where
  ne_nil : n ≠ []
  chars : ∀ c ∈ n, isNameChar c = true

theorem isNameChar_of_isAlphanum {c : Char} (h : c.isAlphanum = true) : isNameChar c = true := by
  have hcode : c.val.toNat = c.toNat := rfl
  have hrange : (48 ≤ c.toNat ∧ c.toNat ≤ 57) ∨ (65 ≤ c.toNat ∧ c.toNat ≤ 90) ∨
      (97 ≤ c.toNat ∧ c.toNat ≤ 122) := by
    change ((decide (65 ≤ c.val ∧ c.val ≤ 90) ||
      decide (97 ≤ c.val) && decide (c.val ≤ 122)) ||
      decide (48 ≤ c.val) && decide (c.val ≤ 57)) = true at h
    simp only [Bool.or_eq_true, Bool.and_eq_true, decide_eq_true_eq, UInt32.le_iff_toNat_le,
      UInt32.reduceToNat, hcode] at h
    omega
  have hne : ∀ d : Char, d.toNat < 48 ∨ d.toNat = 92 → c ≠ d := by
    rintro d hd rfl
    omega
  have hspace : isSpace c = false := by
    simp only [isSpace, Bool.or_eq_false_iff, Bool.and_eq_false_iff, decide_eq_false_iff_not,
      beq_eq_false_iff_ne]
    omega
  have hspecial : isSpecial c = false := by
    simp [isSpecial, isBlank, needsEscape, hne ' ' (by decide), hne '\t' (by decide),
      hne '#' (by decide), hne '\\' (by decide), hne '(' (by decide), hne ')' (by decide)]
  have hdollar : c ≠ '$' := hne '$' (by decide)
  simp [isNameChar, hspace, hspecial, hdollar]

theorem isName_of_isAlphanum {n : Text} (hne : n ≠ [])
    (h : n.all (fun c => c.isAlphanum || c == '_') = true) : n.IsName := by
  refine ⟨hne, fun c hc => ?_⟩
  have hchar := List.all_eq_true.mp h c hc
  rw [Bool.or_eq_true, beq_iff_eq] at hchar
  rcases hchar with hchar | rfl
  · exact isNameChar_of_isAlphanum hchar
  · rfl

theorem IsName.append {n m : Text} (hn : n.IsName) (hm : m.IsName) : (n ++ m).IsName :=
  ⟨List.append_ne_nil_of_left_ne_nil hn.ne_nil m, List.forall_mem_append.mpr ⟨hn.chars, hm.chars⟩⟩

namespace IsName

variable {n : Text} (h : n.IsName)
include h

theorem not_space : ∀ c ∈ n, isSpace c = false := by
  intro c hc
  have hname := h.chars c hc
  simp only [isNameChar, Bool.not_eq_true', Bool.or_eq_false_iff] at hname
  exact hname.1.1

theorem plain : n.Plain := by
  refine ⟨h.ne_nil, fun c hc => ?_⟩
  have hname := h.chars c hc
  simp only [isNameChar, Bool.not_eq_true', Bool.or_eq_false_iff] at hname
  exact hname.1.2

theorem trim_eq : n.trim = n := trim_of_noSpace h.not_space

theorem newline_notMem : '\n' ∉ n := by
  intro hm
  have hspace := h.not_space _ hm
  cases hspace

theorem dollar_notMem : '$' ∉ n := by
  intro hm
  have hname := h.chars _ hm
  cases hname

end IsName

end Text

/-! ## the two lines -/

def defineHead (n : Text) : Text := Text.joinWords ["define".toList, n]

theorem defineHead_eq (n : Text) : defineHead n = "define".toList ++ ' ' :: n := by
  rw [defineHead, Text.joinWords_cons_cons, Text.joinWords_singleton]

def referenceLine (n : Text) : Text := '#' :: (n ++ ['#'])

section
variable {n : Text} (h : n.IsName)
include h

theorem splitArguments_defineHead : splitArguments (defineHead n) = ["define".toList, n] := by
  have hdefine : Text.Plain "define".toList := by decide
  refine splitArguments_joinWords (List.forall_mem_cons.mpr ⟨hdefine, ?_⟩)
  exact List.forall_mem_singleton.mpr h.plain

theorem referenceLine_notFenced : ¬(referenceLine n).Fenced := by
  refine Text.notFenced_of_notMem ?_
  simp [referenceLine, h.dollar_notMem]

end

namespace Setting

variable {σ : Type} (set : Setting σ) {n : Text} (h : n.IsName) (body : Body σ) (scope : Scope)
include h

theorem substitute_name : set.substitute n scope = pure n := by
  have hn : Fragment.writeLine [.literal n] = n := by
    show escape n ++ [] = n
    rw [List.append_nil, escape_of_plain h.plain.chars]
  have hfits : ∀ f ∈ [Fragment.literal n], f.Fits scope :=
    List.forall_mem_singleton.mpr h.newline_notMem
  have hline := set.substitute_writeLine hfits
  rw [hn] at hline
  rw [hline]
  exact congrArg pure (List.append_nil n)

theorem substitute_referenceLine {v : Value} (hv : scope.get? n = some v) :
    set.substitute (referenceLine n) scope = pure v.display := by
  have hbound : (scope.get? n).isSome = true := by
    rw [hv]
    rfl
  have hfits : ∀ f ∈ [Fragment.named n], f.Fits scope :=
    List.forall_mem_singleton.mpr ⟨h.plain, h.newline_notMem, hbound⟩
  have hline := set.substitute_writeLine hfits
  have hwrite : Fragment.writeLine [.named n] = referenceLine n := List.append_nil _
  have hfill : Fragment.fillLine scope [.named n] = v.display := by
    show ((scope.get? n).getD .null).display ++ [] = _
    rw [hv, List.append_nil]
    rfl
  rwa [hwrite, hfill] at hline

/-- a body that is rendered on a copy of the variables is bound to the name -/
theorem command_define (isInline : Bool) (line rawBody : Text) :
    set.command ⟨"define".toList, [n], isInline, line⟩ rawBody body scope = (do
      let r ← body scope
      pure ⟨none, some (n, .string (Text.joinLines r.1)), scope⟩) := by
  have hkind : CommandKind.ofName? "define".toList = some .define := rfl
  have hcheck : CommandKind.define.signature.check (.command "define".toList) [n] =
      ⟨[n], [], true, []⟩ := rfl
  have hdefine : set.runDefine false false n none body scope = (do
      let r ← body scope
      pure ⟨none, some (n, .string (Text.joinLines r.1)), scope⟩) := by
    rw [runDefine, set.substitute_name h, pure_bind, h.trim_eq, if_neg h.ne_nil]
    show ((body scope >>= fun r => pure (r.1, scope)) >>= _) = _
    rw [bind_assoc]
    rfl
  rw [set.command_of_valid rawBody body scope hkind (by rw [hcheck]), hcheck, Run.noteAll_nil,
    pure_bind]
  exact hdefine

theorem renderNodes_defineThenRefer (isInline : Bool) (line rawBody : Text) (nodes : List Node) :
    set.renderNodes [.command ⟨"define".toList, [n], isInline, line⟩ rawBody nodes,
        .text (referenceLine n)] scope = (do
      let r ← set.renderNodes nodes scope
      pure ([Text.joinLines r.1], scope.insert n (.string (Text.joinLines r.1)))) := by
  have hline : ∀ v : Value, set.substitute (referenceLine n) (scope.insert n v) =
      pure v.display := by
    intro v
    refine set.substitute_referenceLine h (scope.insert n v) ?_
    rw [Table.get?_insert, if_pos rfl]
  rw [renderNodes, renderNode, set.command_define h, bind_assoc]
  refine congrArg (set.renderNodes nodes scope >>= ·) (funext fun r => ?_)
  rw [pure_bind, renderNodes, renderNode]
  show (((set.substitute (referenceLine n) (scope.insert n _) >>= _) >>= _) >>= _) = _
  rw [hline, pure_bind, pure_bind, renderNodes, pure_bind, pure_bind]
  rfl

end Setting

/-- the template is the body of the definition, and the reference stands below it -/
theorem Template.read_defineThenRefer {n source : Text} (h : n.IsName) (hs : Balanced source) :
    read (Text.joinLines [commandLine (defineHead n), source, endLine, referenceLine n]) =
      ⟨[.command ⟨"define".toList, [n], false, commandLine (defineHead n)⟩
          (Text.joinLines (reading source).outer.lines) (read source).nodes,
        .text (referenceLine n)], (read source).problems⟩ := by
  have hdollar : '$' ∉ defineHead n := by
    rw [defineHead_eq]
    simp [h.dollar_notMem]
  have hnewline : '\n' ∉ defineHead n := by
    rw [defineHead_eq]
    simp [h.newline_notMem]
  have hname : ("define".toList : Text) ≠ endName := by decide
  have hbelow : ∀ line ∈ [referenceLine n], '\n' ∉ line := by
    refine List.forall_mem_singleton.mpr ?_
    simp [referenceLine, h.newline_notMem]
  have hshape : ∀ line ∈ [referenceLine n], LineShape.of line = .text :=
    List.forall_mem_singleton.mpr (LineShape.of_notFenced (referenceLine_notFenced h))
  rw [read_block hdollar (splitArguments_defineHead h) hname hs hnewline hbelow,
    Levels.ofLines_texts hshape, Token.problemsOfLines_texts hshape, List.append_nil]
  show (⟨_, (read source).problems ++ []⟩ : Template) = _
  rw [List.append_nil]
  rfl

/-- **A variable defined as the output of a template and then used gives what the template alone
gives**: the same output, the same problems in the same order and the same engine after it, and the
scope is the one before with the output under the name, whatever the template itself defines. -/
theorem Engine.render_defineThenRefer {σ : Type} (e : Engine σ) {n source : Text} (hn : n.IsName)
    (hs : Template.Balanced source) (scope : Scope) :
    let alone := e.render source scope
    e.render (Text.joinLines [commandLine (defineHead n), source, endLine, referenceLine n]) scope =
      ((alone.1.1, scope.insert n (.string alone.1.1)), alone.2) := by
  intro alone
  have halone : alone = _ := e.render_eq source scope
  rw [render_eq, Template.read_defineThenRefer hn hs, e.setting.renderNodes_defineThenRefer hn,
    halone]
  simp only [Run.bind_pure_apply, Text.joinLines_singleton]

/-- a template that defines the variable it is put into, and refers to one that has no value -/
def Template.shadowing : Text := "$define x_1$\nin\n$end$\n#y#$#x_1#".toList

theorem render_defineThenRefer_shadowing :
    let e := Engine.new {} Host.bare () .congruence
    let alone := e.render Template.shadowing [("x_1".toList, .null)]
    Text.IsName "x_1".toList ∧ Template.Balanced Template.shadowing ∧
      e.render "$define x_1$\n$define x_1$\nin\n$end$\n#y#$#x_1#\n$end$\n#x_1#".toList
          [("x_1".toList, .null)] =
        ((alone.1.1, [("x_1".toList, .string alone.1.1)]), alone.2) := by
  intro e alone
  have hname : Text.IsName "x_1".toList := Text.isName_of_isAlphanum (by decide) (by decide)
  have hclosed : Template.openAtEnd Template.shadowing = [] := by cbv
  have hnone : (Template.read Template.shadowing).problems = [] := by cbv
  have hbalanced : Template.Balanced Template.shadowing := by
    refine ⟨hclosed, ?_⟩
    rw [hnone]
    exact List.not_mem_nil
  exact ⟨hname, hbalanced, e.render_defineThenRefer hname hbalanced _⟩

end Stencil
