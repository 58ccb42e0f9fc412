import Stencil.Proofs.Calls.Steady
import Stencil.Proofs.LoadCycles

/-!
# Templates without random orders

A random order is asked for with a word behind a command.  If the word stands in no template that is
rendered on the way, no row of nodes asks for a random order; and templates come from values only by
`parse(…)`, so that without it the texts that can be fetched are all there is to look at.

* `Engine.RendersUnshuffled`   rendering a template comes upon no row that asks for a random order;
* `Text.Orderly`               the word for a random order does not stand in a text;
* `Task.Orderly`               nor in what a task renders;
* `Engine.rendersUnshuffled_of_templates`   if it stands in no template that is rendered;
* `Engine.rendersUnshuffled_of_texts`       if it stands in no text that can be fetched.
-/

namespace Stencil

variable {σ : Type}

/-- no row of nodes that comes to be rendered asks for a random order: not that of the template, and
not that of a body or of a template inside of it -/
def Engine.RendersUnshuffled (e : Engine σ) (source : Text) (scope : Scope) : Prop :=
  Node.Unshuffled (Template.read source).nodes ∧
    ∃ r, (Call.ofSource [] source scope).Returns e.options e.host (fun _ d => d.task.Unshuffled)
      e.world r

def Text.Orderly (t : Text) : Prop := ¬Order.randomized.keyword <:+: t

theorem Text.Orderly.hereditary : Text.Hereditary Text.Orderly := .without (by decide) (by decide)

/-- a template that is called for -/
def Task.AsTemplate (P : Text → Prop) {α : Type} : Task α → Prop
  | .template source _ => P source
  | _ => True

def Task.Orderly {α : Type} : Task α → Prop
  | .template source _ => source.Orderly
  | .nodes ns _ => ∀ t ∈ Node.texts ns, t.Orderly
  | .rounds c _ _ => ∀ t ∈ Node.texts c.body, t.Orderly
  | .round c _ _ => ∀ t ∈ Node.texts c.body, t.Orderly
  | _ => True

theorem Node.unshuffled_of_texts {ns : List Node} (h : ∀ t ∈ texts ns, t.Orderly) :
    Unshuffled ns := by
  intro head rawBody body hcommand hparam
  exact h _ ((mem_texts_of_command hcommand).1 _ hparam) List.infix_rfl

theorem Task.Orderly.unshuffled {α : Type} {t : Task α} (h : t.Orderly) : t.Unshuffled := by
  cases t with
  | nodes ns scope => exact Node.unshuffled_of_texts h
  | _ => trivial

theorem Template.orderly {source : Text} (h : source.Orderly) :
    ∀ t ∈ Node.texts (read source).nodes, t.Orderly :=
  fun _ ht => Text.Orderly.hereditary.mono h (infix_of_mem_texts ht)

/-- what is called for by a call without the word is without it, unless it is a template -/
theorem Makes.orderly {P : Text → Prop} {o : Options} {host : Host σ} {c d : Call}
    (h : Makes P o host c d) (hc : c.task.Orderly) (hd : d.task.AsTemplate Text.Orderly) :
    d.task.Orderly := by
  cases h with
  | index => trivial
  | parse => trivial
  | load => trivial
  | fetched => trivial
  | template => exact hd
  | inside => exact Template.orderly hc
  | mention => trivial
  | body h => exact fun t ht => hc t ((Node.mem_texts_of_command h).2 t ht)
  | loop h => exact fun t ht => hc t ((Node.mem_texts_of_command h).2 t ht)
  | condition => trivial
  | round => exact hc
  | loopBody => exact hc
  | increment => trivial
  | again => exact hc

namespace Engine

variable (e : Engine σ) {source : Text} (scope : Scope)

theorem rendersUnshuffled_of_templates (hsource : source.Orderly)
    (h : ∃ r, (Call.ofSource [] source scope).Returns e.options e.host
      (fun _ d => d.task.AsTemplate Text.Orderly) e.world r) :
    e.RendersUnshuffled source scope := by
  obtain ⟨r, hr⟩ := h
  have hstep : ∀ d : Call, d.task.Orderly → (d.code e.options e.host).Within d.frame
      (fun d' => d'.task.AsTemplate Text.Orderly → d'.task.Orderly) fun _ => True := by
    intro d hd
    have hmakes := d.within_makes Text.hereditary_true e.options e.host d.task.over_true
    exact hmakes.mono (fun d' hm => hm.orderly hd) fun _ _ => trivial
  have hnodes : (Call.ofSource [] source scope).task.Orderly := Template.orderly hsource
  obtain ⟨hall, -⟩ := Code.Returns.invariant_of_ok hstep hr (hstep _ hnodes)
  exact ⟨Node.unshuffled_of_texts hnodes, r, hall.mono fun _ _ hd => hd.2.unshuffled⟩

/-- a text that neither asks for a random order nor has values interpreted -/
theorem rendersUnshuffled_of_texts (hsource : source.Orderly ∧ source.Parseless)
    (hfetch : ∀ path s text, (e.host.fetch path s).1 = .ok text → text.Orderly ∧ text.Parseless) :
    e.RendersUnshuffled source scope := by
  let P : Text → Prop := fun t => t.Orderly ∧ t.Parseless
  have hP : Text.Hereditary P := Text.Orderly.hereditary.and Text.Parseless.hereditary
  have hparse : ∀ (spec : Text) (fmt : Format), P spec → Modifier.read spec ≠ .ok (.parse fmt) :=
    fun spec fmt hspec hread => hspec.2 (Modifier.infix_of_read hread rfl)
  have hstep : ∀ d : Call, d.task.Over P →
      (d.code e.options e.host).Within d.frame (fun d' => d'.task.Over P) fun _ => True := by
    intro d hd
    refine (d.within_makes hP e.options e.host hd).mono (fun d' hm => ?_) fun _ _ => trivial
    exact hm.over hP hparse (fun path s text _ => hfetch path s text) hd
  have hnodes : (Call.ofSource [] source scope).task.Over P :=
    fun t ht => hP.mono hsource (infix_of_mem_texts ht)
  obtain ⟨hall, -⟩ := (Call.returns e.options e.host _ e.world).invariant hstep hnodes
  refine e.rendersUnshuffled_of_templates scope hsource.1 ⟨_, hall.mono fun _ d hd => ?_⟩
  obtain ⟨-, hover⟩ := hd
  obtain ⟨f, t⟩ := d
  cases t with
  | template source scope => exact hover.1
  | _ => trivial

end Engine

end Stencil
