import Shading.Engine.Group
import Shading.Proofs.Recompile

/-!
# Entry points of programs

A shader can be compiled to instructions or to groups of layers, entry point by entry point.  If
nothing fails, the terminals that are linked in the prepared graph are compiled in both cases, the
normal apart: instructions for it are made only where displacement asks for a bump, but a group is
made whenever the normal and the surface are linked.
-/

namespace Shading

open List EntryTable

variable {s : Shader} {e e' : EntryPoint}

lemma EntryPoint.mem_all (e : EntryPoint) : e ∈ all := by cases e <;> decide

/-! ## Sections -/

/-- The entry points of a program are those that have a section. -/
lemma Program.isSome_entries_ofSections {sections : EntryTable (Array Instruction)} {peak : Nat} :
    ((ofSections sections peak).entries.get? e).isSome = true ↔
      (sections.get? e).isSome = true := by
  have happend : ∀ (p : Array Instruction × EntryTable Span) e',
      ((appendSection sections p e').2.get? e).isSome = true ↔
        (e = e' ∧ (sections.get? e).isSome = true) ∨ (p.2.get? e).isSome = true := by
    intro p e'
    unfold appendSection
    cases hget : sections.get? e' with
    | none =>
      refine ⟨.inr, fun h => h.resolve_left ?_⟩
      rintro ⟨rfl, hsome⟩
      rw [hget] at hsome
      cases hsome
    | some code =>
      dsimp only [EntryTable.insert]
      rw [get?_set]
      by_cases he : e = e'
      · subst he
        simp [hget]
      · simp [he]
  have hmem : e = .displacement ∨ e = .volume ∨ e = .surface ∨ e = .bump := by cases e <;> simp
  dsimp only [ofSections, sectionOrder, foldl]
  rw [happend, happend, happend, happend, get?_empty]
  tauto

/-- Without a surface there is no bump. -/
lemma EntryTable.isSome_drop {α : Type} {t : EntryTable α} :
    ((if t.surface.isNone then t.erase .bump else t).get? e).isSome = true ↔
      (t.get? e).isSome = true ∧ (e = .bump → (t.get? .surface).isSome = true) := by
  have hsurface : t.get? .surface = t.surface := rfl
  rw [hsurface]
  cases ht : t.surface <;> cases e <;> simp [erase, ht, hsurface]

/-! ## Groups -/

namespace Shader

def groupContext (s : Shader) (background : Bool) (e : EntryPoint) : GroupContext :=
  ⟨s.graph, e, background⟩

end Shader

namespace GroupResults

variable {background : Bool} {r : GroupResults}

/-- Whether an entry point gets a group after those that have one. -/
def Admits (s : Shader) (r : GroupResults) (e : EntryPoint) : Prop :=
  s.isTerminalLinked e = true ∧ (e = .bump → (r.groups.get? .surface).isSome = true)

/-- The results with a group. -/
def addGroup (r : GroupResults) (e : EntryPoint) (group : GroupId) (t : GroupState) :
    GroupResults :=
  { r with
    host := t.host
    flags := r.flags.union (t.flags.union e.groupFlags)
    requests := r.requests.union t.requests
    groups := r.groups.insert e group }

lemma passes_iff : (!s.isTerminalLinked e || (e == .bump && r.groups.surface.isNone)) = true ↔
    ¬ r.Admits s e := by
  cases e <;> simp [Admits, get?, imp_iff_not_or]

lemma addEntry_of_not_admits (h : ¬ r.Admits s e) : r.addEntry s background e = r :=
  if_pos (passes_iff.2 h)

/-- The results with the outcome of a group. -/
def addOutcome (r : GroupResults) (e : EntryPoint) :
    EStateM.Result GroupFault GroupState GroupId → GroupResults
  | .ok group t => r.addGroup e group t
  | .error fault t => { r with host := t.host, failures := ⟨e, fault⟩ :: r.failures }

lemma addEntry_of_admits (h : r.Admits s e) : r.addEntry s background e =
    r.addOutcome e ((s.groupContext background e).build s.name { host := r.host }) := by
  unfold addEntry
  rw [if_neg fun hpass => passes_iff.1 hpass h]
  dsimp only [Shader.groupContext, EStateM.run]
  split <;> rename_i h <;> rw [h] <;> rfl

/-- What becomes of the entry points in a list, from the flags `start` on.  Those that are not passed
over have a group or a failure. -/
structure Made (s : Shader) (background : Bool) (start : ShaderFlags) (l : List EntryPoint)
    (r : GroupResults) : Prop where
  present : ∀ e, (r.groups.get? e).isSome = true ↔ e ∈ l ∧ r.Admits s e ∧
    ∀ f ∈ r.failures, f.entry ≠ e
  failures : ∀ f ∈ r.failures, f.entry ∈ l ∧ r.Admits s f.entry ∧ ∃ host t,
    (s.groupContext background f.entry).build s.name { host } = .error f.fault t
  start_le : start ≤ r.flags
  le_flags : ∀ e, (r.groups.get? e).isSome = true → ∃ host group t,
    (s.groupContext background e).build s.name { host } = .ok group t ∧
      t.flags ⊔ e.groupFlags ≤ r.flags
  flags_le : ∀ f, start ≤ f → (∀ e ∈ l, s.isTerminalLinked e = true → ∀ host group t,
    (s.groupContext background e).build s.name { host } = .ok group t →
      t.flags ⊔ e.groupFlags ≤ f) → r.flags ≤ f

variable {start : ShaderFlags} {l : List EntryPoint}

lemma Made.addGroup (h : Made s background start l r) (he : e ∉ l)
    (hfirst : e = .surface → .bump ∉ l) (hadmits : r.Admits s e) {group : GroupId} {t : GroupState}
    (hrun : (s.groupContext background e).build s.name { host := r.host } = .ok group t) :
    Made s background start (l ++ [e]) (r.addGroup e group t) := by
  have hget : ∀ e', ((r.addGroup e group t).groups.get? e').isSome = true ↔
      e' = e ∨ (r.groups.get? e').isSome = true := by
    intro e'
    dsimp only [GroupResults.addGroup, EntryTable.insert]
    rw [get?_set]
    by_cases heq : e' = e <;> simp [heq]
  -- a surface comes before the normal, so whether that is admitted does not change
  have hkeeps : ∀ e', e' ∈ l → ((r.addGroup e group t).Admits s e' ↔ r.Admits s e') := by
    intro e' hmem
    refine and_congr_right fun _ => forall_congr' fun hbump => (hget _).trans ?_
    exact or_iff_right fun hsurface => hfirst hsurface.symm (hbump ▸ hmem)
  refine ⟨fun e' => ?_, fun f hf => ?_, h.start_le.trans le_sup_left, fun e' h' => ?_,
    fun f hf hall => ?_⟩
  · rw [hget, mem_append, mem_singleton]
    by_cases heq : e' = e
    · subst heq
      exact iff_of_true (.inl rfl) ⟨.inr rfl, ⟨hadmits.1, fun hb => (hget _).2 (.inr (hadmits.2 hb))⟩,
        fun f hf hf' => he (hf' ▸ (h.failures f hf).1)⟩
    · simp only [heq, false_or, or_false, h.present]
      exact and_congr_right fun hmem => and_congr_left fun _ => (hkeeps e' hmem).symm
  · obtain ⟨hmem, hadm, hbuild⟩ := h.failures f hf
    exact ⟨mem_append_left _ hmem, (hkeeps _ hmem).2 hadm, hbuild⟩
  · obtain rfl | hold := (hget e').1 h'
    · exact ⟨_, group, t, hrun, le_sup_right⟩
    · obtain ⟨host, group', t', hrun', hle⟩ := h.le_flags e' hold
      exact ⟨host, group', t', hrun', hle.trans le_sup_left⟩
  · obtain ⟨hold, hnew⟩ := forall_mem_append.1 hall
    exact sup_le (h.flags_le f hf hold) (hnew e mem_cons_self hadmits.1 _ group t hrun)

lemma Made.addEntry (h : Made s background start l r) (he : e ∉ l)
    (hfirst : e = .surface → .bump ∉ l) :
    Made s background start (l ++ [e]) (r.addEntry s background e) := by
  have hle : ∀ {f}, start ≤ f → (∀ e' ∈ l ++ [e], s.isTerminalLinked e' = true → ∀ host group t,
      (s.groupContext background e').build s.name { host } = .ok group t →
        t.flags ⊔ e'.groupFlags ≤ f) → r.flags ≤ f :=
    fun hf hall => h.flags_le _ hf (forall_mem_append.1 hall).1
  by_cases hadmits : r.Admits s e
  · rw [addEntry_of_admits hadmits]
    cases hrun : (s.groupContext background e).build s.name { host := r.host } with
    | ok group t => exact h.addGroup he hfirst hadmits hrun
    | error error t =>
      refine ⟨fun e' => ?_, forall_mem_cons.2 ⟨⟨mem_append_right _ mem_cons_self,
        hadmits, _, t, hrun⟩, fun f hf => ?_⟩, h.start_le, h.le_flags, fun _ => hle⟩
      · dsimp only [addOutcome]
        rw [h.present, mem_append, mem_singleton, forall_mem_cons]
        by_cases heq : e' = e
        · simp [heq, he]
        · simp [heq, Ne.symm heq, Admits]
      · exact (h.failures f hf).imp_left (mem_append_left _)
  · rw [addEntry_of_not_admits hadmits]
    refine ⟨fun e' => ?_, fun f hf => (h.failures f hf).imp_left (mem_append_left _), h.start_le,
      h.le_flags, fun _ => hle⟩
    by_cases heq : e' = e
    · simp [h.present, heq, he, hadmits]
    · simp [h.present, heq]

end GroupResults

/-! ## Shaders -/

/-- An engine that has been told nothing yet, without files. -/
def EngineHost.blank : EngineHost := { settings := {}, files := {} }

namespace Shader

/-- Without a bump, preparation links no normal. -/
lemma isTerminalLinked_prepare_bump (hg : s.graph.Sound) (hf : s.graph.finalized = none)
    (hbump : s.needsBump = false) (h : s.isTerminalLinked .bump = false) :
    s.prepare.isTerminalLinked .bump = false := by
  obtain ⟨_, hop, _⟩ := hg.valid.pruned_spec hg.output
  obtain ⟨_, hweighed⟩ := hg.valid.finalize_spec hg.output s.finalizeOptions
  have hplain : s.graph.net.unweighed s.graph.output s.finalizeOptions =
      s.graph.net.pruned s.graph.output := by
    rw [Network.unweighed, finalizeOptions, hbump]
    rfl
  rw [hplain] at hweighed
  obtain ⟨node, hn, _⟩ := Network.kind?_eq_some_iff.1 hop
  rw [isTerminalLinked, prepare, Graph.net_finalize hf, Graph.output_finalize,
    hweighed.inputLinkByName? hn (Network.not_anyWeight hop rfl),
    hg.valid.inputLinkByName?_pruned_output hg.output]
  · rfl
  · exact Option.isNone_iff_eq_none.1 (Option.isSome_eq_false_iff.1 h)

variable {options : BytecodeOptions} {ids : AttributeIds} {background : Bool} {host : EngineHost}

lemma mem_bytecodeEntries {hasBump : Bool} :
    e ∈ bytecodeEntries hasBump ↔ e = .bump → hasBump = true := by
  cases hasBump <;> cases e <;> simp [bytecodeEntries]

/-- The sections of a program are the finished ones, apart from a bump without a surface. -/
lemma isSome_entries_iff_finished {start : ShaderFlags} {l : List EntryPoint}
    {finished : EntryTable SectionState} (h : SectionResults.Made options s.prepare start l finished
      (s.prepare.compileSections s.needsBump options ids)) :
    ((s.compileBytecode options ids).1.program.entries.get? e).isSome = true ↔
      (finished.get? e).isSome = true ∧ (e = .bump → (finished.get? .surface).isSome = true) := by
  refine Program.isSome_entries_ofSections.trans (isSome_drop.trans ?_)
  rw [h.sections, h.sections, Option.isSome_map, Option.isSome_map]

/-- The entry points of a program of instructions, if nothing has failed. -/
lemma isSome_entries_iff (h : (s.compileBytecode options ids).1.failures = []) :
    ((s.compileBytecode options ids).1.program.entries.get? e).isSome = true ↔
      s.prepare.isTerminalLinked e = true ∧
        (e = .bump → s.needsBump = true ∧ s.prepare.isTerminalLinked .surface = true) := by
  obtain ⟨finished, hmade⟩ := exists_made s.prepare s.needsBump options ids
  have hnone := reverse_eq_nil_iff.1 h
  rw [isSome_entries_iff_finished hmade, hmade.present, hmade.present, hnone, mem_bytecodeEntries,
    mem_bytecodeEntries]
  tauto

/-- The groups of a compilation. -/
lemma made_compileGroups (s : Shader) (background : Bool) (host : EngineHost) :
    GroupResults.Made s.prepare background { hasBump := s.needsBump, hasBssrdfBump := s.needsBump }
      EntryPoint.all (EntryPoint.all.foldl (GroupResults.addEntry s.prepare background)
        { host, flags := { hasBump := s.needsBump, hasBssrdfBump := s.needsBump } }) := by
  refine foldl_induction (R := fun x e : EntryPoint => x ≠ e ∧ (e = .surface → x ≠ .bump))
    (by decide) ?_ ?_
  · exact ⟨by simp, by simp, le_rfl, by simp, fun _ h _ => h⟩
  · exact fun l e r he h => h.addEntry (fun hmem => (he e hmem).1 rfl)
      fun hsurface hmem => (he _ hmem).2 hsurface rfl

/-- The entry points of a program of groups, if nothing has failed. -/
lemma isSome_groups_iff (h : (s.compileGroups background host).1.failures = []) :
    ((s.compileGroups background host).1.program.groups.get? e).isSome = true ↔
      s.prepare.isTerminalLinked e = true ∧
        (e = .bump → s.prepare.isTerminalLinked .surface = true) := by
  have hpresent := (s.made_compileGroups background host).present
  rw [reverse_eq_nil_iff.1 h] at hpresent
  simp only [not_mem_nil, false_implies, implies_true, and_true, EntryPoint.mem_all, true_and]
    at hpresent
  refine (hpresent e).trans (and_congr_right fun _ => forall_congr' fun _ => ?_)
  exact (hpresent .surface).trans (and_iff_left fun h => by cases h)

/-- A shader whose graph only edits have made is compiled to instructions and to groups, and nothing
fails.  Both programs have the same entry points, unless the prepared graph has a surface and a
normal that no displacement asks for: then there is a group for the normal, but no section.
Preparation does not link such a normal. -/
theorem isSome_entries_iff_isSome_groups {allowed : String → Prop} (hg : s.graph.Drawn allowed)
    (options : BytecodeOptions) (ids : AttributeIds) (background : Bool) (host : EngineHost)
    (hb : (s.compileBytecode options ids).1.failures = [])
    (he : (s.compileGroups background host).1.failures = []) :
    let sections := (s.compileBytecode options ids).1.program.entries
    let groups := (s.compileGroups background host).1.program.groups
    let extra := s.needsBump = false ∧ s.prepare.isTerminalLinked .surface = true ∧
      s.prepare.isTerminalLinked .bump = true
    (∀ e, e ≠ .bump → ((sections.get? e).isSome = true ↔ (groups.get? e).isSome = true)) ∧
      ((sections.get? .bump).isSome = true ↔ (groups.get? .bump).isSome = true ∧ ¬ extra) ∧
      ((∀ e, (sections.get? e).isSome = true ↔ (groups.get? e).isSome = true) ↔ ¬ extra) ∧
      (extra → s.isTerminalLinked .bump = true) := by
  intro sections groups extra
  have hother : ∀ e, e ≠ .bump →
      ((sections.get? e).isSome = true ↔ (groups.get? e).isSome = true) := by
    intro e hne
    rw [isSome_entries_iff hb, isSome_groups_iff he]
    simp [hne]
  have hnormal : (sections.get? .bump).isSome = true ↔
      (groups.get? .bump).isSome = true ∧ ¬ extra := by
    rw [isSome_entries_iff hb, isSome_groups_iff he]
    dsimp only [extra]
    rw [Bool.eq_false_iff]
    tauto
  have hextra : extra → (groups.get? .bump).isSome = true := by
    rintro ⟨_, hsurface, hlinked⟩
    exact (isSome_groups_iff he).2 ⟨hlinked, fun _ => hsurface⟩
  refine ⟨hother, hnormal, ⟨fun hall h => ?_, fun h e => ?_⟩, fun h => ?_⟩
  · exact (hnormal.1 ((hall .bump).2 (hextra h))).2 h
  · by_cases hne : e = .bump
    · rw [hne, hnormal]
      exact and_iff_left h
    · exact hother e hne
  · obtain ⟨hbump, _, hlinked⟩ := h
    by_contra hfree
    rw [isTerminalLinked_prepare_bump hg.sound hg.finalized_eq_none hbump
      (Bool.eq_false_of_not_eq_true hfree)] at hlinked
    cases hlinked

/-- A diffuse surface around a volume that absorbs light. -/
def filled : Shader :=
  let g := ((Graph.new.add .diffuseBsdf).2.add .absorptionVolume).2
  withGraph "" ((g.connected 1 "BSDF" 0 "Surface").connected 2 "Volume" 0 "Volume")

lemma filled_drawn : filled.graph.Drawn Graph.IsPlainName := by
  refine Graph.Drawn.connected (Graph.Drawn.connected
    (Graph.Drawn.add (Graph.Drawn.add .new _) _) ?_) ?_ <;> exact ⟨by decide, by decide⟩

/-- The surface and the volume are entry points of both programs. -/
theorem filled_entries :
    let sections := (filled.compileBytecode {} .empty).1
    let groups := (filled.compileGroups false .blank).1
    sections.failures = [] ∧ groups.failures = [] ∧
      (sections.program.entries.get? .surface).isSome = true ∧
      (sections.program.entries.get? .volume).isSome = true ∧
        ∀ e, (sections.program.entries.get? e).isSome = true ↔
          (groups.program.groups.get? e).isSome = true := by
  have hs : (filled.compileBytecode {} .empty).1.failures = [] := by decide +kernel
  have hg : (filled.compileGroups false .blank).1.failures = [] := by decide +kernel
  have hnormal : filled.prepare.isTerminalLinked .bump = false := by decide +kernel
  refine ⟨hs, hg, by decide +kernel, by decide +kernel, ?_⟩
  apply (isSome_entries_iff_isSome_groups filled_drawn {} .empty false .blank hs hg).2.2.1.2
  rw [hnormal]
  simp

end Shader

end Shading
