import Stencil.Proofs.Calls.Bounds
import Stencil.Proofs.Hereditary

/-!
# The calls that a call makes

A call makes calls of few kinds.  What is read in a call is cut out of its own texts, with two
exceptions: the text that `parse(…)` interprets is a value, and that of `load(…)` comes from the
host.

* `Task.Over P t`         all texts that `t` can read have the property `P`;
* `Makes P o host c d`    the call `c` may make the call `d`;
* `Makes.over`            when a property of texts is handed on to all calls;
* `Code.within_reference`, `Code.within_nodes` and others   what the code of each task may call;
* `Call.within_makes`     a call makes no other calls, and notes no bound but the one it is refused
                          for.
-/

namespace Stencil

/-! ## calls -/

/-- the texts that the rounds of a loop can read have a property -/
def Counting.Over (P : Text → Prop) (c : Counting) : Prop :=
  P c.bound ∧ (∀ i ∈ c.increments, P i.delta) ∧ ∀ t ∈ Node.texts c.body, P t

def Task.Over (P : Text → Prop) {α : Type} : Task α → Prop
  | .reference r _ => r.Over P
  | .interpret text _ _ => P text
  | .load _ _ _ => True
  | .template source _ => P source
  | .nodes ns _ => ∀ t ∈ Node.texts ns, P t
  | .rounds c _ _ => c.Over P
  | .round c _ _ => c.Over P

def Task.Loads (path : Text) {α : Type} : Task α → Prop
  | .load p _ _ => p = path
  | _ => False

def Call.Loads (path : Text) (c : Call) : Prop := c.task.Loads path

inductive Makes {σ : Type} (P : Text → Prop) (o : Options) (host : Host σ) : Call → Call → Prop
  | index {f : Frame} {r s : Reference} {scope : Scope} (hsize : s.size < r.size) (h : s.Over P) :
      Makes P o host ⟨f, .reference r scope⟩ ⟨f, .reference s scope⟩
  | parse {f : Frame} {r : Reference} {spec text : Text} {fmt : Format} {scope : Scope}
      (hspec : spec ∈ r.specifiers) (hread : Modifier.read spec = .ok (.parse fmt)) :
      Makes P o host ⟨f, .reference r scope⟩ ⟨f, .interpret text fmt scope⟩
  | load {f : Frame} {r : Reference} {spec path : Text} {fmt : Format} {scope : Scope}
      (hspec : spec ∈ r.specifiers) (hread : Modifier.read spec = .ok (.load fmt)) :
      Makes P o host ⟨f, .reference r scope⟩ ⟨f, .load path fmt scope⟩
  | fetched {f : Frame} {path contents : Text} {fmt : Format} {scope : Scope} {s : σ}
      (hnew : path ∉ f.loading) (hfetch : (host.fetch path s).1 = .ok contents) :
      Makes P o host ⟨f, .load path fmt scope⟩
        ⟨f.shift (.inLoad path), .interpret contents fmt scope⟩
  | template {f : Frame} {text : Text} {fmt : Format} {scope : Scope} :
      Makes P o host ⟨f, .interpret text fmt scope⟩ ⟨f, .template text scope⟩
  | inside {f : Frame} {source : Text} {scope : Scope} (hdepth : f.depth < o.maxDepth) :
      Makes P o host ⟨f, .template source scope⟩
        ⟨f.shift .inTemplate, .nodes (Template.read source).nodes scope⟩
  | mention {f : Frame} {ns : List Node} {r : Reference} {scope scope' : Scope} (h : r.Over P) :
      Makes P o host ⟨f, .nodes ns scope⟩ ⟨f, .reference r scope'⟩
  | body {f : Frame} {ns body : List Node} {head : Head} {rawBody : Text} {scope scope' : Scope}
      (h : .command head rawBody body ∈ ns) :
      Makes P o host ⟨f, .nodes ns scope⟩ ⟨f, .nodes body scope'⟩
  | loop {f : Frame} {ns : List Node} {head : Head} {rawBody : Text} {c : Counting}
      {scope scope' : Scope} (h : .command head rawBody c.body ∈ ns) (hc : c.Over P) :
      Makes P o host ⟨f, .nodes ns scope⟩ ⟨f, .rounds c 0 scope'⟩
  | condition {f : Frame} {c : Counting} {taken : Nat} {r : Reference} {scope scope' : Scope}
      (h : r.Over P) : Makes P o host ⟨f, .rounds c taken scope⟩ ⟨f, .reference r scope'⟩
  | round {f : Frame} {c : Counting} {taken : Nat} {scope : Scope} :
      Makes P o host ⟨f, .rounds c taken scope⟩ ⟨f, .round c taken scope⟩
  | loopBody {f : Frame} {c : Counting} {taken : Nat} {scope : Scope} :
      Makes P o host ⟨f, .round c taken scope⟩ ⟨f, .nodes c.body scope⟩
  | increment {f : Frame} {c : Counting} {taken : Nat} {r : Reference} {scope scope' : Scope}
      (h : r.Over P) : Makes P o host ⟨f, .round c taken scope⟩ ⟨f, .reference r scope'⟩
  | again {f : Frame} {c : Counting} {taken : Nat} {scope scope' : Scope}
      (hrounds : taken < o.maxRounds) :
      Makes P o host ⟨f, .round c taken scope⟩ ⟨f, .rounds c (taken + 1) scope'⟩

/-! ## texts that are handed on -/

namespace Node

variable {ns : List Node}

theorem mem_texts_cons (n : Node) {t : Text} (h : t ∈ texts ns) : t ∈ texts (n :: ns) := by
  cases n with
  | text line =>
    rw [texts_cons_text]
    exact List.mem_cons_of_mem _ h
  | command head rawBody body =>
    rw [texts_cons_command]
    exact List.mem_append_right _ h

theorem mem_texts_of_text {line : Text} (h : .text line ∈ ns) : line ∈ texts ns := by
  induction ns with
  | nil => exact absurd h List.not_mem_nil
  | cons n ns ih =>
    rcases List.mem_cons.mp h with rfl | h
    · rw [texts_cons_text]
      exact List.mem_cons_self
    · exact mem_texts_cons n (ih h)

theorem mem_texts_of_command {head : Head} {rawBody : Text} {body : List Node}
    (h : .command head rawBody body ∈ ns) :
    (∀ p ∈ head.params, p ∈ texts ns) ∧ ∀ t ∈ texts body, t ∈ texts ns := by
  induction ns with
  | nil => exact absurd h List.not_mem_nil
  | cons n ns ih =>
    rcases List.mem_cons.mp h with rfl | h
    · rw [texts_cons_command]
      exact ⟨fun p hp => List.mem_append_left _ (List.mem_append_left _ hp),
        fun t ht => List.mem_append_left _ (List.mem_append_right _ ht)⟩
    · obtain ⟨hparams, hbody⟩ := ih h
      exact ⟨fun p hp => mem_texts_cons n (hparams p hp), fun t ht => mem_texts_cons n (hbody t ht)⟩

end Node

/-- a hereditary property of the texts of a call is one of the texts of the calls it makes, if no
text with it has `parse(…)` interpret a value, and what is fetched has it -/
theorem Makes.over {σ : Type} {P : Text → Prop} {o : Options} {host : Host σ} {c d : Call}
    (h : Makes P o host c d) (hP : Text.Hereditary P)
    (hparse : ∀ spec fmt, P spec → Modifier.read spec ≠ .ok (.parse fmt))
    (hfetch : ∀ path s contents, c.Loads path → (host.fetch path s).1 = .ok contents → P contents)
    (hc : c.task.Over P) : d.task.Over P := by
  cases h with
  | index _ h => exact h
  | parse hspec hread => exact absurd hread (hparse _ _ (hc.2 _ hspec))
  | load => trivial
  | fetched _ h => exact hfetch _ _ _ rfl h
  | template => exact hc
  | inside => exact fun t ht => hP.mono hc (infix_of_mem_texts ht)
  | mention h => exact h
  | body h => exact fun t ht => hc t ((Node.mem_texts_of_command h).2 t ht)
  | loop _ h => exact h
  | condition h => exact h
  | round => exact hc
  | loopBody => exact hc.2.2
  | increment h => exact h
  | again => exact hc

/-! ## what code makes -/

namespace Signature

theorem size_le_indexSize {m : Modifier} {ms : List Modifier} (h : m ∈ ms) :
    m.size ≤ indexSize ms := by
  induction ms with
  | nil => exact absurd h List.not_mem_nil
  | cons n ms ih =>
    rw [indexSize_cons]
    rcases List.mem_cons.mp h with rfl | h
    · exact Nat.le_add_right _ _
    · exact Nat.le_trans (ih h) (Nat.le_add_left _ _)

end Signature

namespace Code

variable {σ : Type} {f : Frame} {C : Call → Prop}

/-- code that makes calls with a property only, and notes no bound -/
abbrev MakesOnly {α : Type} (f : Frame) (C : Call → Prop) (x : Code σ α) : Prop :=
  x.Within f C fun p => p.isLimit = false

/-! ### references -/

theorem within_resolve {text : Text} {scope : Scope}
    (h : ∀ r, Reference.read? text = some r → C ⟨f, .reference r scope⟩) :
    (resolve text scope : Code σ Value).MakesOnly f C := by
  unfold resolve
  split
  · split
    · rename_i r hr
      exact .ask (h r hr)
    · exact .lift (.after_note rfl (.pure _))
  · exact .lift (Setting.lookup_withinLimits text scope)

theorem within_index {expr : Text} {scope : Scope}
    (h : ∀ r, Reference.read? expr.trim = some r → C ⟨f, .reference r scope⟩) :
    (index expr scope : Code σ Value).MakesOnly f C := by
  unfold index
  split
  · exact within_resolve h
  · exact .pure _

section
variable {scope : Scope} {m : Modifier} (s : Subject)
  (hparse : ∀ fmt, m = .parse fmt → ∀ text, C ⟨f, .interpret text fmt scope⟩)
  (hload : ∀ fmt, m = .load fmt → ∀ path, C ⟨f, .load path fmt scope⟩)
include hparse hload

theorem within_applyToText (t : Text) :
    (applyToText s m t scope : Code σ Value).MakesOnly f C := by
  cases m with
  | parse fmt => exact .ask (hparse fmt rfl t)
  | load fmt => exact .ask (hload fmt rfl t)
  | uppercase => exact .pure _
  | lowercase => exact .pure _
  | capitalize => exact .pure _
  | capitalizeFirst => exact .pure _
  | trim => exact .pure _
  | _ => exact .lift (Setting.leave_withinLimits _ _ _)

theorem within_apply (host : Host σ) (hindex : ∀ expr, m = .index expr → ∀ r,
      Reference.read? expr.trim = some r → C ⟨f, .reference r scope⟩) (v : Value) :
    (apply host s m v scope).MakesOnly f C := by
  unfold apply
  split
  · exact within_applyToText s hparse hload _
  · exact (within_index (hindex _ rfl)).bind fun i => .lift (Setting.pickItem_withinLimits _ _ _ i)
  · exact (within_index (hindex _ rfl)).bind fun i => .lift (Setting.pickEntry_withinLimits _ _ i)
  · split
    · exact .lift (.onHost _)
    · exact .lift (.after_note rfl (.pure _))
  · exact .lift (Setting.leave_withinLimits _ _ _)

end

theorem within_applyAll {scope : Scope} (host : Host σ) (s : Subject) (ms : List Modifier)
    (v : Value) (hparse : ∀ fmt, .parse fmt ∈ ms → ∀ text, C ⟨f, .interpret text fmt scope⟩)
    (hload : ∀ fmt, .load fmt ∈ ms → ∀ path, C ⟨f, .load path fmt scope⟩)
    (hindex : ∀ expr, .index expr ∈ ms → ∀ r,
      Reference.read? expr.trim = some r → C ⟨f, .reference r scope⟩) :
    (applyAll host s ms v scope).MakesOnly f C := by
  induction ms generalizing v with
  | nil => exact .pure _
  | cons m ms ih =>
    have hfirst : ∀ v, (apply host s m v scope).MakesOnly f C := by
      refine within_apply s (fun fmt hm => ?_) (fun fmt hm => ?_) host fun expr hm => ?_
      · exact hparse fmt (hm ▸ List.mem_cons_self)
      · exact hload fmt (hm ▸ List.mem_cons_self)
      · exact hindex expr (hm ▸ List.mem_cons_self)
    rw [applyAll]
    split
    · exact .lift (.after_note rfl (.pure _))
    · refine (hfirst v).bind fun w => ih w ?_ ?_ ?_
      · exact fun fmt hm => hparse fmt (List.mem_cons_of_mem _ hm)
      · exact fun fmt hm => hload fmt (List.mem_cons_of_mem _ hm)
      · exact fun expr hm => hindex expr (List.mem_cons_of_mem _ hm)

section
variable {P : Text → Prop} (hP : Text.Hereditary P)
include hP

theorem within_reference (o : Options) (host : Host σ) {r : Reference} (hr : r.Over P)
    (scope : Scope) :
    (reference host r scope).MakesOnly f (Makes P o host ⟨f, .reference r scope⟩) := by
  let args := Reference.signature.check (.reference r.name) r.specifiers
  have hread : ∀ m ∈ args.modifiers, ∃ spec ∈ r.specifiers, Modifier.read spec = .ok m :=
    fun m hm => Reference.signature.read_of_mem_check_modifiers _ _ hm
  refine Within.bind (.lift (.noteAll fun p hp => ?_)) fun _ => ?_
  · exact Reference.signature.isLimit_of_mem_check_problems _ _ hp
  refine Within.bind (.lift (Setting.baseValue_withinLimits _ _ _)) fun v => ?_
  refine within_applyAll host _ args.modifiers v ?_ ?_ ?_
  · intro fmt hm text
    obtain ⟨spec, hspec, hs⟩ := hread _ hm
    exact .parse hspec hs
  · intro fmt hm path
    obtain ⟨spec, hspec, hs⟩ := hread _ hm
    exact .load hspec hs
  · intro expr hm s hs
    obtain ⟨spec, hspec, he⟩ := hread _ hm
    have hexpr : P expr := hP.of_read_index (hr.2 spec hspec) he
    refine .index ?_ (hP.of_read? (hP.trim hexpr) hs)
    have hshort : s.size + 2 ≤ expr.trim.length := Reference.size_of_read? hs
    have htrim : expr.trim.length ≤ expr.length := Text.length_trim_le expr
    have hindex : expr.length + 1 ≤ Signature.indexSize args.modifiers :=
      Signature.size_le_indexSize hm
    have hall : Signature.indexSize args.modifiers ≤ r.size :=
      Reference.signature.indexSize_check _ _
    omega

/-! ### texts and templates -/

omit hP in
theorem within_interpret (o : Options) (host : Host σ) (text : Text) (fmt : Format)
    (scope : Scope) :
    (interpret host text fmt scope).MakesOnly f
      (Makes P o host ⟨f, .interpret text fmt scope⟩) := by
  have hcall : (ask .here (.template text scope) : Code σ (Option Text)).MakesOnly f
      (Makes P o host ⟨f, .interpret text fmt scope⟩) := .ask .template
  cases fmt with
  | template =>
    refine hcall.bind fun output => ?_
    cases output <;> exact .pure _
  | markdownTemplate =>
    refine hcall.bind fun output => ?_
    cases output <;> exact .pure _
  | markdown => exact .pure _
  | json =>
    rw [interpret]
    cases Value.decode? text with
    | ok v => exact .pure _
    | error e => exact .lift (.after_note rfl (.pure _))
  | text => exact .pure _

omit hP in
theorem within_load (o : Options) (host : Host σ) (path : Text) (fmt : Format) (scope : Scope) :
    (load host f path fmt scope).MakesOnly f (Makes P o host ⟨f, .load path fmt scope⟩) := by
  unfold load
  split
  · exact .lift (.after_note rfl (.pure _))
  · rename_i hnew
    have hnew : path ∉ f.loading := by
      intro hm
      exact hnew (List.any_eq_true.mpr ⟨path, hm, decide_eq_true rfl⟩)
    refine .lift_bind (.onHost _) fun w => ?_
    have hvalue : (Run.onHost (host.fetch path) w).value = (host.fetch path w.host).1 := rfl
    rw [hvalue]
    cases hfetch : (host.fetch path w.host).1 with
    | error e => exact .lift (.after_note rfl (.pure _))
    | ok contents => exact .ask (.fetched hnew hfetch)

omit hP in
/-- a template that is refused notes the bound it is refused for -/
theorem within_template (o : Options) (host : Host σ) (source : Text) (scope : Scope) :
    (template o f source scope : Code σ (Option Text)).Within f
      (Makes P o host ⟨f, .template source scope⟩) fun p => p.isLimit = true →
        (Task.template source scope).refusal? o f = some p := by
  unfold template
  split
  · rename_i hle
    refine .lift (.after_note (fun _ => ?_) (.pure _))
    rw [Task.refusal?, if_pos hle]
  · rename_i hlt
    refine Within.bind (.lift (.noteAll fun p hp hlimit => ?_)) fun _ => ?_
    · rw [Template.isLimit_of_mem_problems hp] at hlimit
      cases hlimit
    · exact Within.bind (.ask (.inside (Nat.lt_of_not_le hlt))) fun _ => .pure _

/-! ### lines -/

theorem within_substitute {line : Text} {scope : Scope} (hline : P line)
    (href : ∀ r : Reference, r.Over P → C ⟨f, .reference r scope⟩) :
    (substitute line scope : Code σ Text).MakesOnly f C := by
  have hsegment : ∀ s ∈ Segment.scan line, (segment scope s : Code σ Text).MakesOnly f C := by
    intro s hs
    cases s with
    | literal t => exact .pure _
    | reference r => exact Within.bind (.ask (href r (hP.of_mem_scan hline hs))) fun _ => .pure _
    | empty => exact .lift (.after_note rfl (.pure _))
    | unclosed rest => exact .lift (.after_note rfl (.pure _))
  unfold substitute
  generalize Segment.scan line = ss at hsegment
  induction ss with
  | nil => exact .pure _
  | cons s ss ih =>
    rw [segments]
    refine (hsegment s List.mem_cons_self).bind fun t => ?_
    exact (ih fun s hs => hsegment s (List.mem_cons_of_mem _ hs)).bind fun u => .pure _

/-! ### counting loops -/

section
variable {scope : Scope} (href : ∀ r : Reference, r.Over P → ∀ s, C ⟨f, .reference r s⟩)
include href

theorem within_operand {arg : Text} (h : P arg) (scope : Scope) :
    (operand arg scope : Code σ Value).MakesOnly f C := by
  unfold operand
  split
  · exact within_resolve fun r hr => href r (hP.of_read? (hP.trim h) hr) scope
  · split
    · exact .pure _
    · exact .lift (.after_note rfl (.pure _))

theorem within_startValue {raw : Text} (h : P raw) (scope : Scope) :
    (startValue raw scope : Code σ Value).MakesOnly f C := by
  unfold startValue
  split
  · exact within_resolve fun r hr => href r (hP.of_read? h hr) scope
  · exact .pure _

theorem within_start {entry : Text} (h : P entry) (scope : Scope) :
    (start entry scope : Code σ Scope).MakesOnly f C := by
  unfold start
  split
  · exact .pure _
  · rename_i name raw hc
    have hraw : P raw := hP.mono h (Text.infix_of_cutAt hc).2
    refine (within_startValue hP href (hP.trim hraw) scope).bind fun v => ?_
    split
    · exact .pure _
    · exact .lift (.after_note rfl (.pure _))

theorem within_startAll {es : List Text} (h : ∀ e ∈ es, P e) (scope : Scope) :
    (startAll es scope : Code σ Scope).MakesOnly f C := by
  induction es generalizing scope with
  | nil => exact .pure _
  | cons e es ih =>
    rw [startAll]
    refine (within_start hP href (h e List.mem_cons_self) scope).bind fun started => ?_
    exact ih (fun e he => h e (List.mem_cons_of_mem _ he)) started

theorem within_increment {i : Increment} (h : P i.delta) (scope : Scope) :
    (increment i scope : Code σ Scope).MakesOnly f C := by
  refine (within_operand hP href h scope).bind fun v => ?_
  split
  · exact .lift (.after_note rfl (.pure _))
  · split
    · exact .pure _
    · exact .lift (.after_note rfl (.pure _))

theorem within_incrementAll {is : List Increment} (h : ∀ i ∈ is, P i.delta) (scope : Scope) :
    (incrementAll is scope : Code σ Scope).MakesOnly f C := by
  induction is generalizing scope with
  | nil => exact .pure _
  | cons i is ih =>
    rw [incrementAll]
    refine (within_increment hP href (h i List.mem_cons_self) scope).bind fun after => ?_
    exact ih (fun i hi => h i (List.mem_cons_of_mem _ hi)) after

end

theorem within_rounds (o : Options) (host : Host σ) {c : Counting} (hc : c.Over P) (taken : Nat)
    (scope : Scope) : (rounds c taken scope : Code σ (List Text × Scope)).MakesOnly f
      (Makes P o host ⟨f, .rounds c taken scope⟩) := by
  refine Within.bind (.lift (Setting.lookup_withinLimits _ _)) fun l => ?_
  refine Within.bind (within_operand hP (fun r hr s => .condition hr) hc.1 scope) fun r => ?_
  split
  · exact .ask .round
  · exact .pure _

/-- a round that is refused notes the bound it is refused for -/
theorem within_round (o : Options) (host : Host σ) {c : Counting} (hc : c.Over P) (taken : Nat)
    (scope : Scope) : (round o c taken scope : Code σ (List Text × Scope)).Within f
      (Makes P o host ⟨f, .round c taken scope⟩) fun p => p.isLimit = true →
        (Task.round c taken scope).refusal? o f = some p := by
  unfold round
  split
  · rename_i hle
    refine .lift (.after_note (fun _ => ?_) (.pure _))
    rw [Task.refusal?, if_pos hle]
  · rename_i hlt
    refine Within.bind (.ask .loopBody) fun r => ?_
    refine Within.bind ?_ fun after => ?_
    · refine (within_incrementAll hP (fun r hr s => .increment hr) hc.2.1 r.2).mono (fun _ => id) ?_
      intro p hp hlimit
      rw [hp] at hlimit
      cases hlimit
    · exact Within.bind (.ask (.again (Nat.lt_of_not_le hlt))) fun rest => .pure _

/-! ### commands -/

omit hP in
theorem within_inScope {α : Type} (unscoped : Bool) (scope : Scope)
    {g : Scope → Code σ (α × Scope)} (hg : ∀ s, (g s).MakesOnly f C) :
    (inScope unscoped scope g).MakesOnly f C := (hg scope).bind fun _ => .pure _

section
variable {ns : List Node} (href : ∀ r : Reference, r.Over P → ∀ s, C ⟨f, .reference r s⟩)
  (hbody : ∀ s, C ⟨f, .nodes ns s⟩) (unscoped : Bool) (scope : Scope)
include href hbody

theorem within_cond {condition : Text} (hc : P condition) :
    (cond unscoped condition ns scope : Code σ Outcome).MakesOnly f C := by
  refine (within_resolve fun r hr => href r (hP.of_read? hc hr) scope).bind fun v => ?_
  split
  · exact (within_inScope unscoped scope fun s => .ask (hbody s)).bind fun r => .pure _
  · exact .pure _

omit hbody in
theorem within_count {init name op bound step : Text} (hinit : P init) (hbound : P bound)
    (hstep : P step) (hns : ∀ t ∈ Node.texts ns, P t)
    (hloop : ∀ c : Counting, c.body = ns → c.Over P → ∀ s, C ⟨f, .rounds c 0 s⟩) :
    (count unscoped init name op bound step ns scope : Code σ Outcome).MakesOnly f C := by
  unfold count
  split
  · exact .lift (.after_note rfl (.pure _))
  · rename_i c hc
    have hover : Counting.Over P ⟨name, c, bound, incrementsOf step, ns⟩ :=
      ⟨hbound, fun i hi => (hP.of_mem_incrementsOf hstep hi).2, hns⟩
    refine Within.bind (.lift (.noteAll fun p => isLimit_of_mem_incrementProblems)) fun _ => ?_
    refine (within_inScope unscoped scope fun inner => ?_).bind fun r => .pure _
    have hentries : ∀ e ∈ entriesOf init, P e := fun e => hP.of_mem_entriesOf hinit
    refine (within_startAll hP href hentries inner).bind fun started => ?_
    exact .ask (hloop _ rfl hover started)

omit hP href in
theorem within_eachRound (name : Text) (vs : List Value) (scope : Scope) :
    (eachRound name ns vs scope : Code σ (List Text × Scope)).MakesOnly f C := by
  induction vs generalizing scope with
  | nil => exact .pure _
  | cons v vs ih =>
    rw [eachRound]
    exact Within.bind (.ask (hbody _)) fun r => (ih r.2).bind fun rest => .pure _

theorem within_each (orders : List Order) (name : Text) {source : Text} (hsource : P source) :
    (each unscoped orders name source ns scope : Code σ Outcome).MakesOnly f C := by
  refine (within_resolve fun r hr => href r (hP.of_read? hsource hr) scope).bind fun v => ?_
  refine Within.bind (.lift (Setting.itemsOf_withinLimits _ _)) fun items => ?_
  refine Within.bind (.lift (Setting.inOrder_withinLimits _ _)) fun ordered => ?_
  exact (within_inScope unscoped scope (within_eachRound hbody name ordered)).bind fun r => .pure _

theorem within_define (trim : Bool) {nameText : Text} (hname : P nameText) (kind : Option Text) :
    (define unscoped trim nameText kind ns scope : Code σ Outcome).MakesOnly f C := by
  refine (within_substitute hP hname fun r hr => href r hr scope).bind fun t => ?_
  split
  · exact .lift (.after_note rfl (.pure _))
  · refine (within_inScope unscoped scope fun s => .ask (hbody s)).bind fun r => ?_
    exact Within.bind (.lift (Setting.definedValue_withinLimits _ _ _ _)) fun v => .pure _

omit hP href in
theorem within_md (host : Host σ) (verbatim : Bool) (rawBody : Text) :
    (md host unscoped verbatim rawBody ns scope).MakesOnly f C := by
  unfold md
  split
  · exact .pure _
  · exact (within_inScope unscoped scope fun s => .ask (hbody s)).bind fun r => .pure _

omit unscoped in
theorem within_command (host : Host σ) {head : Head} (hhead : ∀ p ∈ head.params, P p)
    (rawBody : Text) (hns : ∀ t ∈ Node.texts ns, P t)
    (hloop : ∀ c : Counting, c.body = ns → c.Over P → ∀ s, C ⟨f, .rounds c 0 s⟩) :
    (command host head rawBody ns scope).MakesOnly f C := by
  have hkind : ∀ (k : CommandKind) (args : Checked), (∀ p ∈ args.params, P p) →
      (kind host k args rawBody ns scope).MakesOnly f C := by
    intro k args hparams
    unfold kind
    split
    · rename_i condition rest hps
      exact within_cond hP href hbody _ scope (hparams _ (by simp [hps]))
    · rename_i init name op bound step rest hps
      exact within_count hP href _ scope (hparams _ (by simp [hps])) (hparams _ (by simp [hps]))
        (hparams _ (by simp [hps])) hns hloop
    · rename_i name source rest hps
      exact within_each hP href hbody _ scope _ name (hparams _ (by simp [hps]))
    · rename_i name rest hps
      exact within_define hP href hbody _ scope _ (hparams _ (by simp [hps])) _
    · exact within_md hbody _ scope host _ rawBody
    · exact .pure _
  unfold command
  split
  · exact .lift (.after_note rfl (.pure _))
  · rename_i k hk
    refine Within.bind (.lift (.noteAll fun p => ?_)) fun _ => ?_
    · exact k.signature.isLimit_of_mem_check_problems _ _
    · split
      · exact hkind k _ fun p hp => hhead p (k.signature.mem_of_mem_check_params _ _ hp)
      · exact .pure _

end

theorem within_nodes (o : Options) (host : Host σ) {ns : List Node}
    (hns : ∀ t ∈ Node.texts ns, P t) (scope : Scope) :
    (nodes host ns scope).MakesOnly f (Makes P o host ⟨f, .nodes ns scope⟩) := by
  have hnode : ∀ n ∈ ns, ∀ s,
      (node host n s).MakesOnly f (Makes P o host ⟨f, .nodes ns scope⟩) := by
    intro n hn s
    cases n with
    | text line =>
      have hline : P line := hns line (Node.mem_texts_of_text hn)
      exact (within_substitute hP hline fun r hr => .mention hr).bind fun t => .pure _
    | command head rawBody body =>
      obtain ⟨hparams, hbody⟩ := Node.mem_texts_of_command hn
      refine within_command hP (fun r hr _ => .mention hr) (fun _ => .body hn) s host
        (fun p hp => hns p (hparams p hp)) rawBody (fun t ht => hns t (hbody t ht)) ?_
      rintro c rfl hc s
      exact .loop hn hc
  -- the row may have been walked in part, but what it calls is called by all of it
  suffices h : ∀ (ms : List Node) (s : Scope), (∀ n ∈ ms, n ∈ ns) →
      (nodes host ms s).MakesOnly f (Makes P o host ⟨f, .nodes ns scope⟩) from
    h ns scope fun _ => id
  intro ms s hms
  induction ms generalizing s with
  | nil => exact .pure _
  | cons n ms ih =>
    rw [nodes]
    refine (hnode n (hms n List.mem_cons_self) s).bind fun o => ?_
    exact (ih o.bound fun n hn => hms n (List.mem_cons_of_mem _ hn)).bind fun rest => .pure _

end

end Code

/-- **a call makes no calls but those it may make**, and the one bound that it notes is the one it
is refused for -/
theorem Call.within_makes {σ : Type} {P : Text → Prop} (hP : Text.Hereditary P) (o : Options)
    (host : Host σ) (c : Call) (hc : c.task.Over P) :
    (c.code o host).Within c.frame (Makes P o host c) fun p => p.isLimit = true →
      c.task.refusal? o c.frame = some p := by
  obtain ⟨f, t⟩ := c
  have hquiet : ∀ p : Problem, p.isLimit = false → p.isLimit = true →
      t.refusal? o f = some p := by
    intro p hp hlimit
    rw [hp] at hlimit
    cases hlimit
  cases t with
  | reference r scope => exact (Code.within_reference hP o host hc scope).mono (fun _ => id) hquiet
  | interpret text fmt scope =>
    exact (Code.within_interpret o host text fmt scope).mono (fun _ => id) hquiet
  | load path fmt scope => exact (Code.within_load o host path fmt scope).mono (fun _ => id) hquiet
  | template source scope => exact Code.within_template o host source scope
  | nodes ns scope => exact (Code.within_nodes hP o host hc scope).mono (fun _ => id) hquiet
  | rounds c taken scope =>
    exact (Code.within_rounds hP o host hc taken scope).mono (fun _ => id) hquiet
  | round c taken scope => exact Code.within_round hP o host hc taken scope

end Stencil
