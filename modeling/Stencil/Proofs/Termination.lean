import Mathlib.Data.Prod.Lex
import Stencil.Engine
import Stencil.Proofs.Calls.Makes
import Stencil.Proofs.Calls.Returns

/-!
# Rendering returns

However calls are nested, each has a lower rank than the one that makes it.  What counts first is
how many templates may still be inside each other, as a template inside the template can be any text
at all; then what is evaluated, a tree coming before the trees in it; and last the length of an index,
or the rounds that a loop has left.  The two bounds of the options are all that this rests on.

* `Call.rank`               the rank of a call;
* `Makes.rank_lt`           whatever a call makes has a lower rank;
* `Call.returns`            every call returns;
* `Engine.render_returns`   so does rendering.
-/

namespace Stencil

/-! ## ranks -/

/-- a template comes below a text, a text below one that is fetched, and so on up to trees, which
are compared by their number of tokens -/
def Task.layer {α : Type} : Task α → Nat
  | .template _ _ => 0
  | .interpret _ _ _ => 1
  | .load _ _ _ => 2
  | .reference _ _ => 3
  | .nodes ns _ => 4 + (Node.flattenAll ns).length
  | .rounds c _ _ => 5 + (Node.flattenAll c.body).length
  | .round c _ _ => 5 + (Node.flattenAll c.body).length

/-- how much is left of a reference or of a loop -/
def Task.left (o : Options) {α : Type} : Task α → Nat
  | .reference r _ => r.size
  | .rounds _ taken _ => 2 * (o.maxRounds - taken) + 1
  | .round _ taken _ => 2 * (o.maxRounds - taken)
  | _ => 0

def Call.rank (o : Options) (c : Call) : ℕ ×ₗ ℕ ×ₗ ℕ :=
  toLex (o.maxDepth - c.frame.depth, toLex (c.task.layer, c.task.left o))

namespace Call

variable {o : Options} {f : Frame} {α β : Type} {s : Task α} {t : Task β}

theorem rank_lt_of_depth {g : Frame} (h : o.maxDepth - g.depth < o.maxDepth - f.depth) :
    (⟨g, t⟩ : Call).rank o < (⟨f, s⟩ : Call).rank o :=
  Prod.Lex.toLex_lt_toLex.mpr (.inl h)

theorem rank_lt_of_layer {g : Frame} (hdepth : g.depth = f.depth) (h : t.layer < s.layer) :
    (⟨g, t⟩ : Call).rank o < (⟨f, s⟩ : Call).rank o :=
  Prod.Lex.toLex_lt_toLex.mpr
    (.inr ⟨congrArg (o.maxDepth - ·) hdepth, Prod.Lex.toLex_lt_toLex.mpr (.inl h)⟩)

theorem rank_lt_of_left (hlayer : t.layer = s.layer) (h : t.left o < s.left o) :
    (⟨f, t⟩ : Call).rank o < (⟨f, s⟩ : Call).rank o :=
  Prod.Lex.toLex_lt_toLex.mpr (.inr ⟨rfl, Prod.Lex.toLex_lt_toLex.mpr (.inr ⟨hlayer, h⟩)⟩)

end Call

theorem Node.length_flattenAll_body {ns body : List Node} {head : Head} {rawBody : Text}
    (h : .command head rawBody body ∈ ns) :
    (flattenAll body).length + 2 ≤ (flattenAll ns).length := by
  induction ns with
  | nil => exact absurd h List.not_mem_nil
  | cons n ns ih =>
    rw [flattenAll_cons, List.length_append]
    rcases List.mem_cons.mp h with rfl | h
    · rw [flatten, List.length_cons, List.length_append, List.length_singleton]
      omega
    · have hn := ih h
      omega

theorem Makes.rank_lt {σ : Type} {P : Text → Prop} {o : Options} {host : Host σ} {c d : Call}
    (h : Makes P o host c d) : d.rank o < c.rank o := by
  cases h with
  | index hsize => exact Call.rank_lt_of_left rfl hsize
  | parse => exact Call.rank_lt_of_layer rfl (show 1 < 3 by decide)
  | load => exact Call.rank_lt_of_layer rfl (show 2 < 3 by decide)
  | fetched => exact Call.rank_lt_of_layer rfl (show 1 < 2 by decide)
  | template => exact Call.rank_lt_of_layer rfl (show 0 < 1 by decide)
  | @inside f source scope hdepth =>
    refine Call.rank_lt_of_depth ?_
    show o.maxDepth - (f.depth + 1) < o.maxDepth - f.depth
    omega
  | mention => exact Call.rank_lt_of_layer rfl (Nat.lt_add_right _ (show 3 < 4 by decide))
  | body h =>
    have hlength := Node.length_flattenAll_body h
    refine Call.rank_lt_of_layer rfl ?_
    simp only [Task.layer]
    omega
  | loop h =>
    have hlength := Node.length_flattenAll_body h
    refine Call.rank_lt_of_layer rfl ?_
    simp only [Task.layer]
    omega
  | condition => exact Call.rank_lt_of_layer rfl (Nat.lt_add_right _ (show 3 < 5 by decide))
  | round => exact Call.rank_lt_of_left rfl (Nat.lt_succ_self _)
  | loopBody =>
    refine Call.rank_lt_of_layer rfl ?_
    simp only [Task.layer]
    omega
  | increment => exact Call.rank_lt_of_layer rfl (Nat.lt_add_right _ (show 3 < 5 by decide))
  | again hrounds =>
    refine Call.rank_lt_of_left rfl ?_
    simp only [Task.left]
    omega

/-! ## every call returns -/

/-- a property that every text has goes down to every text -/
theorem Text.hereditary_true : Text.Hereditary fun _ => True :=
  ⟨fun _ _ => trivial, fun _ => trivial⟩

theorem Task.over_true {α : Type} (t : Task α) : t.Over fun _ => True := by
  cases t with
  | reference r scope => exact ⟨trivial, fun _ _ => trivial⟩
  | nodes ns scope => exact fun _ _ => trivial
  | rounds c taken scope => exact ⟨trivial, fun _ _ => trivial, fun _ _ => trivial⟩
  | round c taken scope => exact ⟨trivial, fun _ _ => trivial, fun _ _ => trivial⟩
  | _ => trivial

/-- **every call returns**, and each call that is made on the way has a lower rank than the one that
makes it -/
theorem Call.returns {σ : Type} (o : Options) (host : Host σ) (c : Call) (w : World σ) :
    c.Returns o host (fun c d => d.rank o < c.rank o) w (c.eval o host w) := by
  refine Call.returns_of_wellFounded (InvImage.wf (Call.rank o) wellFounded_lt) (fun d => ?_) c w
  have hmakes := d.within_makes Text.hereditary_true o host d.task.over_true
  exact hmakes.mono (fun _ => Makes.rank_lt) fun _ _ => trivial

def Call.ofSource (loading : List Text) (source : Text) (scope : Scope) : Call :=
  ⟨⟨0, loading⟩, .nodes (Template.read source).nodes scope⟩

theorem Engine.render_eq_eval {σ : Type} (e : Engine σ) (source : Text) (scope : Scope) :
    e.render source scope =
      let r := (Call.ofSource [] source scope).eval e.options e.host e.world
      ((Text.joinLines r.value.1, r.value.2),
        { e with
          world := r.world
          log := e.log.add ((Template.read source).problems ++ r.problems) }) :=
  e.render_eq source scope

/-- **Rendering returns**, for all options, whatever the host fetches and whatever its functions
give: the calls in it are carried out to the end, each with a lower rank than the one that makes it.
There is one result for them to have, and it is that of the engine. -/
theorem Engine.render_returns {σ : Type} (e : Engine σ) (source : Text) (scope : Scope) :
    ∃ r, (Call.ofSource [] source scope).Returns e.options e.host
        (fun c d => d.rank e.options < c.rank e.options) e.world r ∧
      (∀ ok r', (Call.ofSource [] source scope).Returns e.options e.host ok e.world r' → r' = r) ∧
      e.render source scope = ((Text.joinLines r.value.1, r.value.2),
        { e with
          world := r.world
          log := e.log.add ((Template.read source).problems ++ r.problems) }) := by
  refine ⟨_, Call.returns e.options e.host _ e.world, fun ok r' h => h.eq, ?_⟩
  exact e.render_eq_eval source scope

end Stencil
