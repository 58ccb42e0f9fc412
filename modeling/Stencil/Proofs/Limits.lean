import Stencil.Proofs.Termination

/-!
# Bounds that are raised

A template that is rendered within the two bounds is rendered in the same way within greater ones.
The bounds are looked at in two places only, where a template or a round is refused, and nothing
that was done depends on how far away they were.

* `Task.code_of_raised`      under greater bounds a task has the same code, unless it was refused;
* `Code.Returns.raised`      what returns without a refusal returns under greater bounds;
* `Engine.render_raised`     a template that is rendered without a refusal.
-/

namespace Stencil

variable {σ : Type} {o o' : Options} {host : Host σ}

section
variable (hdepth : o.maxDepth ≤ o'.maxDepth) (hrounds : o.maxRounds ≤ o'.maxRounds)
include hdepth hrounds

theorem Task.code_of_raised (host : Host σ) (f : Frame) {α : Type} (t : Task α) :
    t.code o' host f = t.code o host f ∨
      ∃ p a, p.isLimit = true ∧ t.code o host f = .lift (do
        .note p
        pure a) := by
  cases t with
  | template source scope =>
    by_cases h : o.maxDepth ≤ f.depth
    · exact .inr ⟨.depthExceeded o.maxDepth, none, rfl, if_pos h⟩
    · have h' : ¬o'.maxDepth ≤ f.depth := by omega
      exact .inl ((if_neg h').trans (if_neg h).symm)
  | round c taken scope =>
    by_cases h : o.maxRounds ≤ taken
    · exact .inr ⟨.loopStopped c.name o.maxRounds, ([], scope), rfl, if_pos h⟩
    · have h' : ¬o'.maxRounds ≤ taken := by omega
      exact .inl ((if_neg h').trans (if_neg h).symm)
  | _ => exact .inl rfl

namespace Code.Returns

variable {ok : Call → Call → Prop} {α : Type} {c : Call} {x : Code σ α} {w : World σ}
  {r : Result σ α}

theorem raised (h : x.Returns o host ok c w r) (hq : ∀ p ∈ r.problems, p.isLimit = false) :
    x.Returns o' host ok c w r := by
  induction h with
  | ret => exact .ret
  | act h ih => exact .act (ih fun p hp => hq p (List.mem_append_right _ hp))
  | @call c α β s t next w r q hok hr hq' ihr ihq =>
    have hquiet : ∀ p ∈ r.problems, p.isLimit = false :=
      fun p hp => hq p (List.mem_append_left _ hp)
    have hcode : t.code o' host (c.frame.shift s) = t.code o host (c.frame.shift s) := by
      refine (t.code_of_raised hdepth hrounds host (c.frame.shift s)).resolve_right ?_
      -- a call that was refused has noted a bound
      rintro ⟨p, a, hlimit, hrefused⟩
      rw [hrefused] at hr
      rw [hr.eq, denote_lift] at hquiet
      have hp : p.isLimit = false := hquiet p List.mem_cons_self
      rw [hlimit] at hp
      cases hp
    refine .call hok ?_ (ihq fun p hp => hq p (List.mem_append_right _ hp))
    rw [hcode]
    exact ihr hquiet

end Code.Returns

/-- a call that notes no bound is the same call under greater bounds -/
theorem Call.eval_raised {c : Call} {w : World σ} (hcode : c.code o' host = c.code o host)
    (hq : ∀ p ∈ (c.eval o host w).problems, p.isLimit = false) :
    c.eval o' host w = c.eval o host w := by
  have h : c.Returns o host _ w (c.eval o host w) := c.returns o host w
  have h' : (c.code o host).Returns o' host _ c w (c.eval o host w) := h.raised hdepth hrounds hq
  rw [← hcode] at h'
  exact (Call.Returns.eq h').symm

/-- greater bounds make no difference to an engine that comes upon none of its own -/
theorem Engine.render_withOptions (e : Engine σ) (ho : e.options = o) (source : Text)
    (scope : Scope) (hq : ∀ p ∈ (e.render source scope).2.log.problems, p.isLimit = false) :
    { e with options := o' }.render source scope =
      ((e.render source scope).1, { (e.render source scope).2 with options := o' }) := by
  subst ho
  have hlater : ∀ p ∈ ((Call.ofSource [] source scope).eval e.options e.host e.world).problems,
      p.isLimit = false := by
    intro p hp
    rw [render_eq_eval] at hq
    exact hq p (List.mem_append_right _ (List.mem_append_right _ hp))
  have heval : (Call.ofSource [] source scope).eval o' e.host e.world =
      (Call.ofSource [] source scope).eval e.options e.host e.world :=
    Call.eval_raised hdepth hrounds rfl hlater
  rw [render_eq_eval, render_eq_eval]
  simp only [heval]

/-- **Greater bounds change nothing but what was refused**: if a fresh engine renders a template
without noting that templates are nested too deep or that a loop was stopped, then a fresh engine
with greater bounds and the same generator gives the same output, leaves the same scope and the same
world, and notes the same problems.  Two engines have the same generator if they have the same seed
and seeds mean the same to them; without a seed it may be another one. -/
theorem Engine.render_raised (host : Host σ) (state : σ) {seeding seeding' : Seeding}
    (hgenerator : seeding'.generator o'.seed = seeding.generator o.seed)
    (source : Text) (scope : Scope)
    (hq : ∀ p ∈ ((new o host state seeding).render source scope).2.log.problems,
      p.isLimit = false) :
    let r := (new o host state seeding).render source scope
    let r' := (new o' host state seeding').render source scope
    r'.1 = r.1 ∧ r'.2.log = r.2.log ∧ r'.2.world = r.2.world := by
  intro r r'
  have hnew : new o' host state seeding' = { new o host state seeding with options := o' } := by
    rw [new, new, hgenerator]
  have hr : r' = (r.1, { r.2 with options := o' }) := by
    show (new o' host state seeding').render source scope = _
    rw [hnew]
    exact (new o host state seeding).render_withOptions hdepth hrounds rfl source scope hq
  rw [hr]
  exact ⟨rfl, rfl, rfl⟩

end

/-- a loop of two rounds, with a template inside the template in each of them -/
def Template.rounds : Text := "$for i=0 i < 2 i+=1$\n#t parse(ib)#\n$end$".toList

/-- two rounds and one template inside the template are all that the lower bounds allow; the engines
would not have drawn the same generator, but they have the same seed -/
theorem render_raised_rounds :
    let scope : Scope := [("t".toList, .string "<#i#>".toList)]
    let seeding : Seeding := .congruence
    let seeding' : Seeding := ⟨.congruence, .congruence 1⟩
    let r := (Engine.new ⟨1, 2, some 7⟩ Host.bare () seeding).render Template.rounds scope
    let r' := (Engine.new { seed := some 7 } Host.bare () seeding').render Template.rounds scope
    r.1.1 = "<0>\n<1>".toList ∧ r.2.log.problems = [] ∧
      r'.1 = r.1 ∧ r'.2.log = r.2.log ∧ r'.2.world = r.2.world := by
  intro scope seeding seeding' r r'
  have hout : r.1.1 = "<0>\n<1>".toList := by decide +kernel
  have hnone : r.2.log.problems = [] := by decide +kernel
  have hq : ∀ p ∈ r.2.log.problems, p.isLimit = false := by
    rw [hnone]
    exact fun _ hp => absurd hp List.not_mem_nil
  let o : Options := ⟨1, 2, some 7⟩
  let o' : Options := { seed := some 7 }
  have hdepth : o.maxDepth ≤ o'.maxDepth := by decide
  have hrounds : o.maxRounds ≤ o'.maxRounds := by decide
  have hgenerator : seeding'.generator (some 7) = seeding.generator (some 7) := rfl
  exact ⟨hout, hnone, Engine.render_raised hdepth hrounds Host.bare () hgenerator _ scope hq⟩

end Stencil
