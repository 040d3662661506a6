import Shading.Proofs.EntryPoints
import Shading.Proofs.Requests

/-!
# Finished sections

The flags and the attributes of a compiled shader are collected from the sections that were
finished, each when it is finished, and a section that fails adds nothing.  A bump section is
dropped later if there is no surface section to run into, but what it has added stays.  Unless a
bump was asked for and is missing, the finished sections are those of the program, and the flags and
attributes are theirs (`exists_finished`).
-/

namespace Shading

open Emit SectionContext

variable {s : Shader} {options : BytecodeOptions} {ids : AttributeIds} {e : EntryPoint}
  {f : ShaderFlags}

/-! ## Sections as they are finished -/

namespace SectionContext

/-- The flags and the requests of a finished section are those of the nodes that it emitted. -/
structure Collects (ctx : SectionContext) (t : SectionState) : Prop where
  flags : ∀ f, t.flags ≤ f ↔ entryFlags ctx.entry ≤ f ∧ (∀ n ∈ t.done, ctx.valueFlags n ≤ f) ∧
    ∀ n ∈ t.closureDone, ctx.leafFlags n ≤ f
  leaves : ∀ n ∈ t.closureDone, n ∈ t.done ∨ ctx.leafFlags n = ⊥
  requests : ∀ key, key ∈ t.requests ↔ ∃ n ∈ t.done, ctx.graph.Asks ctx.background n key

lemma collects_of_compile_eq_ok {ctx : SectionContext} {root : NodeId} {o : Nat}
    (hl : ctx.net.inputLinkByName? ctx.graph.output ctx.entry.terminal = some (root, o))
    {record : Bool} {u : Unit} {t : SectionState} (h : ctx.compile (.new record ids) = .ok u t) :
    ctx.Collects t := by
  obtain ⟨nodes, visited, hgains⟩ := gained_of_compile_eq_ok (fun _ _ => .inr trivial) hl h
  -- nothing was done before
  have hdone : ∀ n, n ∈ t.done ↔ n ∈ nodes := fun n =>
    (hgains.done n).trans (or_iff_right (OrderedSet.not_mem_empty n))
  have hbegun : ∀ n, n ∈ t.closureDone ↔ n ∈ visited := fun n =>
    (hgains.begun n).trans (or_iff_right (OrderedSet.not_mem_empty n))
  refine ⟨fun f => ?_, fun n hn => ?_, fun key => ?_⟩
  · have hstart : SectionState.flags (.new record ids) ≤ f := bot_le
    rw [hgains.flags]
    simp only [ShaderFlags.union_le_iff, hstart, true_and, hdone, hbegun]
  · rw [hdone]
    exact hgains.leaves n ((hbegun n).1 hn)
  · rw [hgains.requests]
    simp only [hdone]
    exact or_iff_right (OrderedSet.not_mem_empty key)

end SectionContext

/-! ## What is left of them in a compiled shader -/

namespace Shader

variable {start : ShaderFlags} {l : List EntryPoint} {finished : EntryTable SectionState}
  {r : SectionResults} {t : SectionState}

lemma code_eq_of_finished (h : SectionResults.Made options s.prepare start l finished
      (s.prepare.compileSections s.needsBump options ids))
    (hsome : ((s.compileBytecode options ids).1.program.entries.get? e).isSome = true)
    (ht : finished.get? e = some t) :
    (s.compileBytecode options ids).1.program.code e = t.code := by
  have hcode := EntryTable.get?_of_ite_erase (Program.get?_of_entries_ofSections hsome)
  rw [h.sections, ht, Option.map_some] at hcode
  exact (Option.some.inj hcode).symm

/-- The flags that are set while sections are compiled: that of a bump if one was asked for, and for
every finished section that of its entry point and those of the nodes and closures that it has
emitted. -/
inductive Contributes (s : Shader) (options : BytecodeOptions) (asked : Bool)
    (finished : EntryTable SectionState) : ShaderFlags → Prop
  | asked : Contributes s options asked finished { hasBump := asked }
  | entry {e : EntryPoint} {t : SectionState} : finished.get? e = some t →
      Contributes s options asked finished (entryFlags e)
  | node {e : EntryPoint} {t : SectionState} {n : NodeId} : finished.get? e = some t →
      n ∈ t.done → Contributes s options asked finished ((s.sectionContext options e).valueFlags n)
  | closure {e : EntryPoint} {t : SectionState} {n : NodeId} : finished.get? e = some t →
      n ∈ t.closureDone →
        Contributes s options asked finished ((s.sectionContext options e).leafFlags n)

/-- The flags and attributes of a shader are what the finished sections set and what they ask for.
The program has these sections, apart from a bump without a surface. -/
structure Determines (s : Shader) (options : BytecodeOptions) (asked : Bool)
    (finished : EntryTable SectionState) (p : Program) (flags : ShaderFlags)
    (attributes : AttributeSet) : Prop where
  runs : ∀ {e t}, finished.get? e = some t → ∃ ids,
    (s.sectionContext options e).compile (.new options.recordTrace ids) = .ok ⟨⟩ t
  present : ∀ e, (p.entries.get? e).isSome = true ↔ (finished.get? e).isSome = true ∧
    (e = .bump → (finished.get? .surface).isSome = true)
  code : ∀ {e t}, (p.entries.get? e).isSome = true → finished.get? e = some t → p.code e = t.code
  isLUB : IsLUB {f | s.Contributes options asked finished f} flags
  asks : ∀ key, key ∈ attributes ↔
    (∃ e t n, finished.get? e = some t ∧ n ∈ t.done ∧ s.graph.Asks options.background n key) ∨
      key = .standard .positionUndisplaced ∧ (finished.get? .displacement).isSome = true ∧
        s.displacementMethod = .both
  hasBump : flags.hasBump = true ↔ asked = true ∨
    ∃ t n, finished.get? .surface = some t ∧ n ∈ t.closureDone ∧ n ∈ t.done ∧
      s.graph.hasBump n = true

/-- A finished section has collected what it emitted. -/
lemma collects_of_made (h : SectionResults.Made options s start l finished r)
    (ht : finished.get? e = some t) : (s.sectionContext options e).Collects t := by
  obtain ⟨⟨root, o⟩, hl⟩ := Option.isSome_iff_exists.1 (h.linked ht)
  obtain ⟨ids, hrun⟩ := h.runs ht
  exact collects_of_compile_eq_ok hl hrun

/-- The flags of all finished sections. -/
lemma flags_le_iff_of_made (h : SectionResults.Made options s start l finished r)
    (f : ShaderFlags) :
    r.flags ≤ f ↔ start ≤ f ∧ ∀ e t, finished.get? e = some t → entryFlags e ≤ f ∧
      (∀ n ∈ t.done, (s.sectionContext options e).valueFlags n ≤ f) ∧
        ∀ n ∈ t.closureDone, (s.sectionContext options e).leafFlags n ≤ f := by
  rw [h.flags]
  refine and_congr_right fun _ => forall_congr' fun e => forall_congr' fun t =>
    forall_congr' fun ht => ?_
  exact (collects_of_made h ht).flags f

end Shader

/-! ### Single flags -/

namespace ShaderFlags

def full : ShaderFlags :=
  ⟨true, true, true, true, true, true, true, true, true, true, true, true, true⟩

lemma le_iff_union_eq {g : ShaderFlags} : f ≤ g ↔ f.union g = g := sup_eq_right.symm

lemma le_full_iff_hasBump : f ≤ { full with hasBump := false } ↔ f.hasBump = false := by
  simp [le_iff_union_eq, union, full]

lemma le_full_iff_hasDisplacement :
    f ≤ { full with hasDisplacement := false } ↔ f.hasDisplacement = false := by
  simp [le_iff_union_eq, union, full]

end ShaderFlags

namespace SectionContext

variable {ctx : SectionContext} {n : NodeId}

lemma hasBump_valueFlags : (ctx.valueFlags n).hasBump = false := by
  rw [valueFlags]
  cases ctx.net.kind? n with
  | none => rfl
  | some k => cases ctx.entry <;> rfl

lemma hasBump_leafFlags : (ctx.leafFlags n).hasBump = true ↔
    ctx.entry = .surface ∧ ctx.graph.hasBump n = true := by
  rw [leafFlags]
  cases hk : ctx.net.kind? n with
  | none =>
    have hnone : ctx.net.node? n = none := Option.map_eq_none_iff.1 hk
    have hbump : ctx.graph.hasBump n = false := by simp [Graph.hasBump, hnone]
    simp only [Option.elim_none, hbump, Bool.false_eq_true, and_false]
    exact iff_false_intro Bool.false_ne_true
  | some k =>
    rw [Option.elim_some, closureFlags]
    split <;> simp_all

lemma hasDisplacement_valueFlags : (ctx.valueFlags n).hasDisplacement = false := by
  rw [valueFlags]
  cases ctx.net.kind? n with
  | none => rfl
  | some k => cases ctx.entry <;> rfl

lemma hasDisplacement_leafFlags : (ctx.leafFlags n).hasDisplacement = false := by
  rw [leafFlags]
  cases ctx.net.kind? n with
  | none => rfl
  | some k =>
    rw [Option.elim_some, closureFlags]
    split <;> rfl

end SectionContext

namespace Shader

variable {start : ShaderFlags} {l : List EntryPoint} {finished : EntryTable SectionState}
  {r : SectionResults}

/-- The flag of a bump is set by what the results began with, or by a closure of the surface. -/
lemma hasBump_of_made (h : SectionResults.Made options s start l finished r) :
    r.flags.hasBump = true ↔ start.hasBump = true ∨
      ∃ t n, finished.get? .surface = some t ∧ n ∈ t.closureDone ∧ n ∈ t.done ∧
        s.graph.hasBump n = true := by
  rw [← not_iff_not, Bool.not_eq_true, ← ShaderFlags.le_full_iff_hasBump, flags_le_iff_of_made h]
  simp only [ShaderFlags.le_full_iff_hasBump]
  constructor
  · rintro ⟨hstart, hall⟩ (hset | ⟨t, n, ht, hn, _, hbump⟩)
    · rw [hstart] at hset
      cases hset
    · have hleaf := (hall _ t ht).2.2 n hn
      rw [hasBump_leafFlags.2 ⟨rfl, hbump⟩] at hleaf
      cases hleaf
  · intro hno
    rw [not_or, Bool.not_eq_true] at hno
    refine ⟨hno.1, fun e t ht =>
      ⟨by cases e <;> rfl, fun _ _ => hasBump_valueFlags, fun n hn => ?_⟩⟩
    by_contra hb
    rw [Bool.not_eq_false] at hb
    obtain ⟨he, hbump⟩ := hasBump_leafFlags.1 hb
    obtain rfl : e = .surface := he
    obtain hdone | hbot := (collects_of_made h ht).leaves n hn
    · exact hno.2 ⟨t, n, ht, hn, hdone, hbump⟩
    · rw [hbot] at hb
      cases hb

/-- The flag of a displacement is set by its section. -/
lemma hasDisplacement_of_made (h : SectionResults.Made options s start l finished r)
    (hstart : start.hasDisplacement = false) :
    r.flags.hasDisplacement = true ↔ (finished.get? .displacement).isSome = true := by
  rw [← not_iff_not, Bool.not_eq_true, ← ShaderFlags.le_full_iff_hasDisplacement,
    flags_le_iff_of_made h]
  simp only [ShaderFlags.le_full_iff_hasDisplacement]
  constructor
  · rintro ⟨_, hall⟩ hsome
    obtain ⟨t, ht⟩ := Option.isSome_iff_exists.1 hsome
    cases (hall _ t ht).1
  · intro hno
    refine ⟨hstart, fun e t ht => ⟨?_, fun _ _ => hasDisplacement_valueFlags, fun _ _ =>
      hasDisplacement_leafFlags⟩⟩
    cases e with
    | displacement => simp [ht] at hno
    | surface | bump | volume => rfl

/-- A failed entry point leaves nothing behind in a shader.  Whatever its graph, its flags and its
attributes are determined by the sections that were finished: the flags are those of the nodes and
closures that the sections emitted, besides one for each section and one if a bump was asked for;
and every attribute is one that an emitted node asks for, or the positions before displacement.
Unless a bump was asked for and is missing from the program, these are the sections of the program,
and a bump is asked for only if it is among them. -/
theorem exists_finished (s : Shader) (options : BytecodeOptions) (ids : AttributeIds) :
    let compiled := s.compileBytecode options ids
    ∃ finished,
      s.prepare.Determines options s.needsBump finished compiled.1.program compiled.2.1.flags
        compiled.2.1.attributes ∧
      ((s.needsBump = true → (compiled.1.program.entries.get? .bump).isSome = true) →
        (∀ e, (compiled.1.program.entries.get? e).isSome = true ↔
          (finished.get? e).isSome = true) ∧
        (s.needsBump = true ↔ (compiled.1.program.entries.get? .bump).isSome = true)) := by
  intro compiled
  obtain ⟨finished, hmade⟩ := exists_made s.prepare s.needsBump options ids
  have hasked : (finished.get? .bump).isSome = true → s.needsBump = true :=
    fun h => mem_bytecodeEntries.1 ((hmade.present _).1 h).1 rfl
  have hpresent : ∀ e, (compiled.1.program.entries.get? e).isSome = true ↔
      (finished.get? e).isSome = true ∧ (e = .bump → (finished.get? .surface).isSome = true) :=
    fun e => isSome_entries_iff_finished hmade
  refine ⟨finished, ⟨hmade.runs, hpresent, code_eq_of_finished hmade, ⟨?_, fun f hf => ?_⟩,
    fun key => ?_, hasBump_of_made hmade⟩, fun hbump => ⟨fun e => ?_, hbump, fun hsome => ?_⟩⟩
  · obtain ⟨hstart, hall⟩ := (flags_le_iff_of_made hmade _).1 le_rfl
    rintro f (_ | ht | ⟨ht, hn⟩ | ⟨ht, hn⟩)
    · exact hstart
    · exact (hall _ _ ht).1
    · exact (hall _ _ ht).2.1 _ hn
    · exact (hall _ _ ht).2.2 _ hn
  · exact (flags_le_iff_of_made hmade f).2 ⟨hf .asked, fun e t ht => ⟨hf (.entry ht), fun n hn =>
      hf (.node ht hn), fun n hn => hf (.closure ht hn)⟩⟩
  · refine mem_updateAttributes_iff.trans (or_congr ((hmade.requests key).trans ?_) ?_)
    · refine exists_congr fun e => exists_congr fun t => ?_
      rw [exists_and_left]
      exact and_congr_right fun ht => (collects_of_made hmade ht).requests key
    · exact and_congr_right fun _ => and_congr_left fun _ => hasDisplacement_of_made hmade rfl
  · rw [hpresent]
    refine and_iff_left_of_imp fun hsome he => ?_
    subst he
    exact ((hpresent _).1 (hbump (hasked hsome))).2 rfl
  · exact hasked ((hpresent _).1 hsome).1

/-- The painted surface asks for no bump, so it is determined by the sections of its program. -/
theorem painted_finished : let compiled := painted.compileBytecode {} .empty
    painted.needsBump = false ∧
      ∃ finished, (∀ e, (compiled.1.program.entries.get? e).isSome = true ↔
        (EntryTable.get? finished e).isSome = true) ∧
        painted.prepare.Determines {} false finished compiled.1.program compiled.2.1.flags
          compiled.2.1.attributes := by
  intro compiled
  have hbump : painted.needsBump = false := by decide +kernel
  obtain ⟨finished, hdetermines, hall⟩ := exists_finished painted {} .empty
  rw [hbump] at hdetermines hall
  exact ⟨hbump, finished, (hall Bool.noConfusion).1, hdetermines⟩

end Shader

end Shading
