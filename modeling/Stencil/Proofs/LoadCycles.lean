import Mathlib.Data.List.Perm.Subperm
import Stencil.Host.Files
import Stencil.Proofs.Tables
import Stencil.Proofs.Termination

/-!
# Files that load each other

A template gets inside another one by `parse(…)` or by `load(…)`.  If `parse(` stands nowhere, there
is a path being loaded for each template that is inside another, all of these paths are different,
and so there are no more of them than files: a cycle is cut where it closes, and if the depth allows
for all files, no template is ever refused.

* `Text.Parseless`            `parse(` does not stand in a text;
* `Host.Holds`                a host that fetches from some files and nothing else;
* `Frame.LoadsFrom`           different paths are being loaded, all of files;
* `Call.Tracked`              what is kept from call to call: a path for each template;
* `Makes.tracked`             a call hands it on to the calls it makes;
* `Engine.render_loads`       no template is refused.
-/

namespace Stencil

variable {σ : Type}

/-! ## texts and files -/

def Text.Parseless (t : Text) : Prop := ¬"parse(".toList <:+: t

theorem Text.Parseless.hereditary : Text.Hereditary Text.Parseless :=
  .without (by decide) (by decide)

def Files.Parseless (files : Files) : Prop :=
  ∀ path text, files.get? path = some text → text.Parseless

/-- a host that gives the texts of some files, whatever it was asked before -/
def Host.Holds (host : Host σ) (files : Files) : Prop :=
  ∀ path s, (host.fetch path s).1 = files.fetch path

theorem Files.get?_of_fetch {files : Files} {path text : Text} (h : files.fetch path = .ok text) :
    files.get? path = some text := by
  unfold fetch at h
  split at h
  · rename_i t ht
    cases h
    exact ht
  · cases h

/-! ## paths being loaded -/

structure Frame.LoadsFrom (files : Files) (f : Frame) : Prop where
  distinct : f.loading.Nodup
  present : ∀ path ∈ f.loading, files.has path = true

/-- there are no more different paths than files -/
theorem Frame.LoadsFrom.length_le {files : Files} {f : Frame} (h : f.LoadsFrom files) :
    f.loading.length ≤ files.length := by
  have hsub : f.loading ⊆ files.map Prod.fst := by
    intro path hp
    obtain ⟨text, ht⟩ := Option.isSome_iff_exists.mp (h.present path hp)
    exact List.mem_map_of_mem (Table.mem_of_get? ht)
  have hlength : f.loading.length ≤ (files.map Prod.fst).length :=
    (List.subperm_of_subset h.distinct hsub).length_le
  rwa [List.length_map] at hlength

/-- whether a task is about to go into one more template -/
def Task.entering {α : Type} : Task α → Nat
  | .interpret _ _ _ => 1
  | .template _ _ => 1
  | _ => 0

structure Call.Tracked (files : Files) (c : Call) : Prop where
  frame : c.frame.LoadsFrom files
  depth : c.frame.depth + c.task.entering ≤ c.frame.loading.length
  texts : c.task.Over Text.Parseless

section
variable {files : Files} {o : Options} {host : Host σ}

theorem Makes.tracked (hhost : host.Holds files) (hfiles : files.Parseless) {c d : Call}
    (h : Makes Text.Parseless o host c d) (hc : c.Tracked files) : d.Tracked files := by
  obtain ⟨hframe, hdepth, htexts⟩ := hc
  have hfile : ∀ path s contents, (host.fetch path s).1 = .ok contents →
      files.get? path = some contents := by
    intro path s contents hfetch
    rw [hhost] at hfetch
    exact Files.get?_of_fetch hfetch
  have hparse : ∀ (spec : Text) (fmt : Format), spec.Parseless →
      Modifier.read spec ≠ .ok (.parse fmt) :=
    fun spec fmt hspec hread => hspec (Modifier.infix_of_read hread rfl)
  have hover : d.task.Over Text.Parseless := by
    refine h.over Text.Parseless.hereditary hparse (fun path s contents _ hfetch => ?_) htexts
    exact hfiles path contents (hfile path s contents hfetch)
  cases h with
  | parse hspec hread => exact absurd hread (hparse _ _ (htexts.2 _ hspec))
  | @fetched f path contents fmt scope s hnew hfetch =>
    refine ⟨⟨List.nodup_cons.mpr ⟨hnew, hframe.distinct⟩, ?_⟩, Nat.succ_le_succ hdepth, hover⟩
    refine List.forall_mem_cons.mpr ⟨?_, hframe.present⟩
    rw [Table.has, hfile path s contents hfetch]
    rfl
  | inside => exact ⟨⟨hframe.distinct, hframe.present⟩, hdepth, hover⟩
  -- no other call goes into a template or loads a path
  | _ => exact ⟨hframe, hdepth, hover⟩

/-- where the depth allows for all files, no template is refused -/
theorem Call.Tracked.refusal_ne {c : Call} (hc : c.Tracked files)
    (hdepth : files.length ≤ o.maxDepth) (n : Nat) :
    c.task.refusal? o c.frame ≠ some (.depthExceeded n) := by
  obtain ⟨f, t⟩ := c
  have hlength : f.loading.length ≤ files.length := hc.frame.length_le
  have hentering : f.depth + t.entering ≤ f.loading.length := hc.depth
  cases t with
  | template source scope =>
    have hroom : ¬o.maxDepth ≤ f.depth := by
      simp only [Task.entering] at hentering
      omega
    rw [Task.refusal?, if_neg hroom]
    intro h
    cases h
  | round c taken scope =>
    rw [Task.refusal?]
    split
    · simp
    · intro h
      cases h
  | _ =>
    intro h
    cases h

/-- **what a call that keeps track makes keeps track**, and no template is refused on the way -/
theorem Call.returns_tracked (hhost : host.Holds files) (hfiles : files.Parseless)
    (hdepth : files.length ≤ o.maxDepth) {c : Call} (hc : c.Tracked files) (w : World σ) :
    c.Returns o host (fun _ d => d.frame.LoadsFrom files) w (c.eval o host w) ∧
      ∀ p ∈ (c.eval o host w).problems, ∀ n, p ≠ .depthExceeded n := by
  have hstep : ∀ d : Call, d.Tracked files → (d.code o host).Within d.frame
      (Call.Tracked files) fun p => ∀ n, p ≠ .depthExceeded n := by
    intro d hd
    refine (d.within_makes Text.Parseless.hereditary o host hd.texts).mono ?_ ?_
    · exact fun e he => he.tracked hhost hfiles hd
    · rintro p hp n rfl
      exact hd.refusal_ne hdepth n (hp rfl)
  obtain ⟨hr, hp⟩ := (c.returns o host w).invariant hstep hc
  exact ⟨hr.mono fun _ d hd => hd.2.frame, hp⟩

theorem Setting.renderSource_tracked (hhost : host.Holds files) (hfiles : files.Parseless)
    (hdepth : files.length ≤ o.maxDepth) {loading : List Text}
    (hloading : (⟨0, loading⟩ : Frame).LoadsFrom files) {source : Text} (hs : source.Parseless)
    (scope : Scope) (w : World σ) :
    (∃ r, (Call.ofSource loading source scope).Returns o host
      (fun _ d => d.frame.LoadsFrom files) w r) ∧
      ∀ n, .depthExceeded n ∉
        ((Setting.top o host loading).renderSource source scope w).problems := by
  have htracked : (Call.ofSource loading source scope).Tracked files :=
    ⟨hloading, Nat.zero_le _,
      fun t ht => Text.Parseless.hereditary.mono hs (infix_of_mem_texts ht)⟩
  obtain ⟨hr, hp⟩ := Call.returns_tracked hhost hfiles hdepth htracked w
  refine ⟨⟨_, hr⟩, fun n hn => ?_⟩
  change _ ∈ (Template.read source).problems ++
    (((Call.ofSource loading source scope).eval o host w).problems ++ []) at hn
  rw [List.append_nil] at hn
  rcases List.mem_append.mp hn with hn | hn
  · cases Template.isLimit_of_mem_problems hn
  · exact hp _ hn n rfl

end

/-- **Where files load each other, cycles are cut before templates are refused.**  Take a host with
some files, and a depth that allows for all of them.  If `parse(` stands neither in a file nor in a
template, then in rendering the template, or one of the files, no template is refused for the depth,
and whenever a call is made on the way the paths being loaded are different and are all of files. -/
theorem Engine.render_loads (e : Engine σ) {files : Files} (hhost : e.host.Holds files)
    (hfiles : files.Parseless) (hdepth : files.length ≤ e.options.maxDepth) (scope : Scope) :
    (∀ source : Text, source.Parseless →
      (∃ r, (Call.ofSource [] source scope).Returns e.options e.host
        (fun _ d => d.frame.LoadsFrom files) e.world r) ∧
      ∃ noted, (e.render source scope).2.log = e.log.add noted ∧
        ∀ n, .depthExceeded n ∉ noted) ∧
    ∀ path source, files.get? path = some source →
      (∃ r, (Call.ofSource [path] source scope).Returns e.options e.host
        (fun _ d => d.frame.LoadsFrom files) (e.fetch path).2.world r) ∧
      ∃ noted, (e.renderFile path scope).2.log = e.log.add noted ∧
        ∀ n, .depthExceeded n ∉ noted := by
  constructor
  · intro source hs
    have hloading : (⟨0, []⟩ : Frame).LoadsFrom files :=
      ⟨List.nodup_nil, fun path hp => absurd hp List.not_mem_nil⟩
    obtain ⟨hr, hn⟩ :=
      Setting.renderSource_tracked hhost hfiles hdepth hloading hs scope e.world
    exact ⟨hr, _, rfl, hn⟩
  · intro path source hfile
    have hloading : (⟨0, [path]⟩ : Frame).LoadsFrom files := by
      refine ⟨List.pairwise_singleton _ path, List.forall_mem_singleton.mpr ?_⟩
      rw [Table.has, hfile]
      rfl
    obtain ⟨hr, hn⟩ := Setting.renderSource_tracked hhost hfiles hdepth hloading
      (hfiles path source hfile) scope (e.fetch path).2.world
    have hfetch : e.fetch path = (.ok source, (e.fetch path).2) := by
      have hvalue : (e.fetch path).1 = .ok source := by
        show (e.host.fetch path e.world.host).1 = _
        rw [hhost, Files.fetch, hfile]
      rw [← hvalue]
    refine ⟨hr, _, ?_, hn⟩
    have hlog : (e.fetch path).2.log = e.log := e.log.add_nil
    rw [renderFile, hfetch]
    show (e.fetch path).2.log.add _ = _
    rw [hlog]
    rfl

/-- two files that load each other -/
def Files.cyclic : Files :=
  [("a".toList, "(#b load(ib)#)".toList), ("b".toList, "<#a load(ib)#>".toList)]

/-- with room for both files, a third template would be refused, but the cycle is cut before it -/
theorem render_loads_cyclic :
    let host : Host Unit := { Host.bare with fetch := fun p s => (Files.cyclic.fetch p, s) }
    let e := Engine.new ⟨2, 0, none⟩ host () .congruence
    let scope : Scope := [("a".toList, .string "a".toList), ("b".toList, .string "b".toList)]
    Files.cyclic.length = e.options.maxDepth ∧
      (e.render "#a load(ib)#".toList scope).2.log.problems = [.loadCycle "a".toList] ∧
      ∃ r, (Call.ofSource [] "#a load(ib)#".toList scope).Returns e.options e.host
        (fun _ d => d.frame.LoadsFrom Files.cyclic) e.world r := by
  intro host e scope
  have hfiles : Files.cyclic.Parseless := by
    have hall : ∀ entry ∈ Files.cyclic, ¬"parse(".toList <:+: entry.2 := by
      decide +kernel
    exact fun path text ht => hall (path, text) (Table.mem_of_get? ht)
  have hhost : e.host.Holds Files.cyclic := fun _ _ => rfl
  have hdepth : Files.cyclic.length ≤ e.options.maxDepth := Nat.le_refl 2
  have hsource : Text.Parseless "#a load(ib)#".toList := by
    unfold Text.Parseless
    decide +kernel
  refine ⟨rfl, by decide +kernel, ?_⟩
  exact ((e.render_loads hhost hfiles hdepth scope).1 _ hsource).1

end Stencil
