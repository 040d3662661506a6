import Shading.Proofs.Preparation
import Shading.Proofs.Section
import Shading.Proofs.SectionGrowth

/-!
# Programs and their sections

A program lays out the sections of the entry points that were compiled, and every section is what
the construction made of the prepared graph.  What is known of finished sections therefore holds of
every entry point of a program (`exists_built`), and since the construction only fails where it runs
out of slots, that is also the only failure of a compilation.
-/

namespace Shading

open Emit List

variable {e e' : EntryPoint} {t : SectionState} {α : Type} {error : BytecodeError}

@[simp] lemma EntryTable.get?_empty : ({} : EntryTable α).get? e = none := by
  cases e <;> rfl

/-- What is left of a table that may have lost something was there before. -/
lemma EntryTable.get?_of_ite_erase {t : EntryTable α} {c : Prop} [Decidable c] {a : α}
    (h : (if c then t.erase e' else t).get? e = some a) :
    t.get? e = some a := by
  split at h
  · rw [erase, get?_set] at h
    split at h
    · cases h
    · exact h
  · exact h

lemma EntryTable.get?_insert_eq_some_iff {table : EntryTable α}
    (hnew : table.get? e = none) {a b : α} :
    (table.insert e a).get? e' = some b ↔ e' = e ∧ a = b ∨ table.get? e' = some b := by
  rw [insert, get?_set]
  split
  · rename_i h
    simp [h, hnew]
  · rename_i h
    simp [h]

/-- An invariant of a loop, indexed by what the loop has come to. -/
lemma foldl_induction {β : Type} {R : α → α → Prop} {I : List α → β → Prop} {f : β → α → β}
    {l : List α} {b : β} (hl : l.Pairwise R) (hstart : I [] b)
    (hstep : ∀ p a c, (∀ x ∈ p, R x a) → I p c → I (p ++ [a]) (f c a)) : I l (l.foldl f b) := by
  induction l using List.reverseRecOn with
  | nil => exact hstart
  | append_singleton p a ih =>
    obtain ⟨hp, _, ha⟩ := pairwise_append.1 hl
    rw [foldl_concat]
    exact hstep p a _ (fun x hx => ha x hx a mem_cons_self) (ih hp)

/-! ## Layout -/

namespace Program

def code (p : Program) (e : EntryPoint) : Array Instruction := (p.section? e).toArray

lemma size_code_le (p : Program) (e : EntryPoint) : (p.code e).size ≤ p.instructions.size := by
  rw [code, section?]
  split
  · simp only [Array.toArray_toList, Array.size_extract]
    omega
  · simp

variable {sections : EntryTable (Array Instruction)} {p : Array Instruction × EntryTable Span}

/-- Sections that stand where the table says, behind a header. -/
structure Places (sections : EntryTable (Array Instruction))
    (p : Array Instruction × EntryTable Span) : Prop where
  header : 0 < p.1.size
  spans : ∀ {e span}, p.2.get? e = some span → 0 < span.start ∧ span.start ≤ span.stop ∧
    span.stop ≤ p.1.size ∧ sections.get? e = some (p.1.extract span.start span.stop)

lemma Places.append (h : Places sections p) (e : EntryPoint) :
    Places sections (appendSection sections p e) := by
  unfold appendSection
  cases hcode : sections.get? e with
  | none => exact h
  | some code =>
    refine ⟨?_, fun {e' span} hspan => ?_⟩
    · rw [Array.size_append]
      exact Nat.add_pos_left h.header _
    · dsimp only [EntryTable.insert] at hspan
      rw [EntryTable.get?_set] at hspan
      split at hspan
      · rename_i he
        subst he
        obtain rfl := Option.some.inj hspan
        refine ⟨h.header, Nat.le_add_right _ _, Array.size_append.ge, ?_⟩
        rw [hcode]
        simp [Array.extract_append]
      · obtain ⟨hstart, hle, hstop, hsection⟩ := h.spans hspan
        refine ⟨hstart, hle, hstop.trans (by simp), ?_⟩
        rw [hsection, Array.extract_append, Nat.sub_eq_zero_of_le hstop]
        simp

lemma Places.foldl (h : Places sections p) (l : List EntryPoint) :
    Places sections (l.foldl (appendSection sections) p) := by
  induction l generalizing p with
  | nil => exact h
  | cons e l ih => exact ih (h.append e)

/-- Neither another header nor a terminator changes what stands between them. -/
lemma extract_framed {code : Array Instruction} {start stop : Nat} (hstart : 0 < start)
    (hstop : stop ≤ code.size) (c : Prop) [Decidable c] (header terminator : Instruction) :
    ((if c then code.push terminator else code).setIfInBounds 0 header).extract start stop =
      code.extract start stop := by
  have hframe : ∀ longer : Array Instruction, stop ≤ longer.size →
      (∀ i < stop, longer[i]? = code[i]?) →
      (longer.setIfInBounds 0 header).extract start stop = code.extract start stop := by
    intro longer hsize hsame
    refine Array.ext_getElem? fun i => ?_
    simp only [Array.getElem?_extract, Array.size_setIfInBounds, Nat.min_eq_left hsize,
      Nat.min_eq_left hstop]
    split
    · have hi : start + i < stop := by omega
      rw [Array.getElem?_setIfInBounds_ne (by omega), hsame _ hi]
    · rfl
  split
  · refine hframe _ (by simp only [Array.size_push]; omega) fun i hi => ?_
    rw [Array.getElem?_push, if_neg (by omega)]
  · exact hframe _ hstop fun _ _ => rfl

/-- The sections before a header and a terminator are set. -/
lemma places_sectionOrder (sections : EntryTable (Array Instruction)) :
    Places sections (sectionOrder.foldl (appendSection sections)
      (#[Instruction.op .shaderJump 0 0 0], {})) :=
  Places.foldl ⟨by simp, by simp⟩ _

/-- The section of an entry point of a program is the one that was laid out. -/
theorem get?_of_entries_ofSections {peak : Nat}
    (h : ((ofSections sections peak).entries.get? e).isSome) :
    sections.get? e = some ((ofSections sections peak).code e) := by
  obtain ⟨span, hspan⟩ := Option.isSome_iff_exists.1 h
  obtain ⟨hstart, _, hstop, hsection⟩ := (places_sectionOrder sections).spans hspan
  rw [hsection, code, section?, hspan]
  dsimp only [ofSections]
  rw [Array.toArray_toList, extract_framed hstart hstop]

end Program

/-! ## Sections and failures -/

namespace Shader

def sectionContext (s : Shader) (options : BytecodeOptions) (e : EntryPoint) : SectionContext :=
  ⟨s.graph, e, options.background, s.displacementMethod⟩

end Shader

namespace SectionResults

variable {options : BytecodeOptions} {s : Shader} {r : SectionResults} {start : ShaderFlags}
  {l : List EntryPoint} {finished : EntryTable SectionState}

/-- The results with the outcome of a section. -/
def addOutcome (r : SectionResults) (options : BytecodeOptions) (e : EntryPoint) :
    EStateM.Result BytecodeError SectionState Unit → SectionResults
  | .ok _ t =>
    { r.addState options e t with
      flags := r.flags.union t.flags
      requests := r.requests.union t.requests
      sections := r.sections.insert e t.code }
  | .error error t => { r.addState options e t with failures := ⟨e, t.phase, error⟩ :: r.failures }

lemma addEntry_eq : r.addEntry options s e = if s.isTerminalLinked e then r.addOutcome options e
      ((s.sectionContext options e).compile (.new options.recordTrace r.ids))
    else r := by
  unfold addEntry
  split
  · dsimp only [Shader.sectionContext, EStateM.run]
    split <;> rename_i h <;> rw [h] <;> rfl
  · rfl

/-- What becomes of the entry points in a list, from the flags `start` on.  Those to which something
is linked have a section that was finished, or a failure. -/
structure Made (options : BytecodeOptions) (s : Shader) (start : ShaderFlags) (l : List EntryPoint)
    (finished : EntryTable SectionState) (r : SectionResults) : Prop where
  present : ∀ e, (finished.get? e).isSome = true ↔
    e ∈ l ∧ s.isTerminalLinked e = true ∧ ∀ f ∈ r.failures, f.entry ≠ e
  runs : ∀ {e t}, finished.get? e = some t → ∃ ids,
    (s.sectionContext options e).compile (.new options.recordTrace ids) = .ok ⟨⟩ t
  failures : ∀ f ∈ r.failures, f.entry ∈ l ∧ s.isTerminalLinked f.entry = true ∧ ∃ ids t,
    (s.sectionContext options f.entry).compile (.new options.recordTrace ids) = .error f.error t
  sections : ∀ e, r.sections.get? e = (finished.get? e).map SectionState.code
  flags : ∀ f, r.flags ≤ f ↔ start ≤ f ∧ ∀ e t, finished.get? e = some t → t.flags ≤ f
  requests : ∀ key, key ∈ r.requests ↔ ∃ e t, finished.get? e = some t ∧ key ∈ t.requests
  peak : ∀ {e t}, finished.get? e = some t → t.stack.peak ≤ r.peak

variable (h : Made options s start l finished r)
include h

lemma Made.linked (ht : finished.get? e = some t) : s.isTerminalLinked e = true :=
  ((h.present e).1 (Option.isSome_iff_exists.2 ⟨t, ht⟩)).2.1

/-- A section that fails adds nothing but its failure, apart from the peak. -/
lemma Made.addError (he : e ∉ l) (hlinked : s.isTerminalLinked e = true)
    (hrun : (s.sectionContext options e).compile (.new options.recordTrace r.ids) =
      .error error t) :
    Made options s start (l ++ [e]) finished (r.addOutcome options e (.error error t)) := by
  refine ⟨fun e' => ?_, h.runs, ?_, h.sections, h.flags, h.requests,
    fun hget => (h.peak hget).trans (le_max_left ..)⟩
  · dsimp only [addOutcome, addState]
    rw [h.present, mem_append, mem_singleton, forall_mem_cons]
    by_cases heq : e' = e
    · simp [heq, he]
    · simp [heq, Ne.symm heq]
  · refine forall_mem_cons.2 ⟨⟨mem_append_right _ mem_cons_self, hlinked, _, t, hrun⟩,
      fun f hf => ?_⟩
    exact (h.failures f hf).imp_left (mem_append_left _)

/-- A section that is finished. -/
lemma Made.addOk (he : e ∉ l) (hlinked : s.isTerminalLinked e = true)
    (hrun : (s.sectionContext options e).compile (.new options.recordTrace r.ids) = .ok ⟨⟩ t) :
    Made options s start (l ++ [e]) (finished.insert e t) (r.addOutcome options e (.ok ⟨⟩ t)) := by
  have hnone : finished.get? e = none := by
    rw [← Option.not_isSome_iff_eq_none, h.present]
    exact fun hmem => he hmem.1
  have hnew : ∀ f ∈ r.failures, f.entry ≠ e := fun f hf heq => he (heq ▸ (h.failures f hf).1)
  have hget : ∀ {e' t'}, (finished.insert e t).get? e' = some t' ↔
      e' = e ∧ t = t' ∨ finished.get? e' = some t' := EntryTable.get?_insert_eq_some_iff hnone
  refine ⟨fun e' => ?_, fun h' => ?_, fun f hf => ?_, fun e' => ?_, fun f => ?_, fun key => ?_,
    fun h' => ?_⟩
  · dsimp only [addOutcome, addState, EntryTable.insert]
    rw [EntryTable.get?_set]
    by_cases heq : e' = e
    · simpa [heq, hlinked] using hnew
    · simp [h.present, heq]
  · obtain ⟨rfl, rfl⟩ | hold := hget.1 h'
    · exact ⟨_, hrun⟩
    · exact h.runs hold
  · exact (h.failures f hf).imp_left (mem_append_left _)
  · dsimp only [addOutcome, EntryTable.insert]
    rw [EntryTable.get?_set, EntryTable.get?_set]
    split
    · rfl
    · exact h.sections e'
  · dsimp only [addOutcome]
    rw [ShaderFlags.union_le_iff, h.flags]
    constructor
    · rintro ⟨⟨hstart, hold⟩, ht⟩
      refine ⟨hstart, fun e' t' h' => ?_⟩
      obtain ⟨rfl, rfl⟩ | h' := hget.1 h'
      · exact ht
      · exact hold e' t' h'
    · rintro ⟨hstart, hfinished⟩
      exact ⟨⟨hstart, fun e' t' h' => hfinished e' t' (hget.2 (.inr h'))⟩,
        hfinished e t (hget.2 (.inl ⟨rfl, rfl⟩))⟩
  · dsimp only [addOutcome]
    rw [OrderedSet.mem_union, h.requests]
    constructor
    · rintro (⟨e', t', h', hkey⟩ | hkey)
      · exact ⟨e', t', hget.2 (.inr h'), hkey⟩
      · exact ⟨e, t, hget.2 (.inl ⟨rfl, rfl⟩), hkey⟩
    · rintro ⟨e', t', h', hkey⟩
      obtain ⟨rfl, rfl⟩ | h' := hget.1 h'
      · exact .inr hkey
      · exact .inl ⟨e', t', h', hkey⟩
  · obtain ⟨rfl, rfl⟩ | hold := hget.1 h'
    · exact le_max_right ..
    · exact (h.peak hold).trans (le_max_left ..)

lemma Made.addEntry (he : e ∉ l) :
    ∃ finished', Made options s start (l ++ [e]) finished' (r.addEntry options s e) := by
  rw [addEntry_eq]
  split
  · rename_i hlinked
    cases hrun : (s.sectionContext options e).compile (.new options.recordTrace r.ids) with
    | error error t => exact ⟨finished, h.addError he hlinked hrun⟩
    | ok u t => exact ⟨_, h.addOk he hlinked hrun⟩
  · rename_i hfree
    refine ⟨finished, fun e' => ?_, h.runs, fun f hf =>
      (h.failures f hf).imp_left (mem_append_left _), h.sections, h.flags, h.requests, h.peak⟩
    by_cases heq : e' = e
    · simp [h.present, heq, he, hfree]
    · simp [h.present, heq]

end SectionResults

/-- The failure of an entry point that ran out of slots. -/
def SectionFailure.overflow (x : EntryPoint × Phase × Nat × Nat) : SectionFailure :=
  ⟨x.1, x.2.1, .stack (.overflow x.2.2.1 x.2.2.2)⟩

namespace Shader

variable {s : Shader} {options : BytecodeOptions} {ids : AttributeIds}

lemma exists_made (s : Shader) (hasBump : Bool) (options : BytecodeOptions) (ids : AttributeIds) :
    ∃ finished, SectionResults.Made options s { hasBump } (bytecodeEntries hasBump) finished
      (s.compileSections hasBump options ids) := by
  refine foldl_induction (I := fun l r => ∃ finished, SectionResults.Made options s { hasBump } l
    finished r) (R := (· ≠ ·)) (by cases hasBump <;> decide) ⟨{}, ?_⟩ fun l e r he h => ?_
  · exact ⟨by simp, by simp, by simp, by simp, by simp, by simp [OrderedSet.not_mem_empty], by simp⟩
  · obtain ⟨finished, hmade⟩ := h
    exact hmade.addEntry fun hmem => he e hmem rfl

/-- A prepared shader is ready for the construction of sections. -/
lemma sound_prepare (hg : s.graph.Reached) : s.prepare.graph.Sound :=
  hg.sound.finalize s.finalizeOptions

/-- A construction for a terminal of the prepared graph that fails has run out of slots. -/
lemma isOverflow_of_compile_eq_error (hg : s.graph.Reached)
    (hl : s.prepare.isTerminalLinked e = true) {record : Bool}
    (h : (s.prepare.sectionContext options e).compile (.new record ids) = .error error t) :
    error.IsOverflow := by
  obtain ⟨⟨root, o⟩, hl⟩ := Option.isSome_iff_exists.1 hl
  have hsound := sound_prepare hg
  have hcompile : Ensures _ (s.prepare.sectionContext options e).compile _ :=
    ensures_compile ⟨hsound.valid, hsound.output, hl⟩ record ids
  exact hcompile.of_error rfl h

/-- The section of an entry point of a program was finished, and its peak is below that of the
program. -/
lemma exists_compile_eq_ok
    (he : ((s.compileBytecode options ids).1.program.entries.get? e).isSome) :
    ∃ ids' t, s.prepare.isTerminalLinked e = true ∧
      (s.prepare.sectionContext options e).compile (.new options.recordTrace ids') = .ok ⟨⟩ t ∧
      t.code = (s.compileBytecode options ids).1.program.code e ∧
      t.stack.peak ≤ (s.compileBytecode options ids).1.program.peakStackUsage := by
  obtain ⟨finished, hmade⟩ := exists_made s.prepare s.needsBump options ids
  have hget := EntryTable.get?_of_ite_erase (Program.get?_of_entries_ofSections he)
  rw [hmade.sections] at hget
  obtain ⟨t, ht, hcode⟩ := Option.map_eq_some_iff.1 hget
  obtain ⟨ids', hrun⟩ := hmade.runs ht
  exact ⟨ids', t, hmade.linked ht, hrun, hcode, hmade.peak ht⟩

/-- The section of an entry point of a program is a finished one, for what feeds its terminal in the
prepared graph. -/
theorem exists_built (hg : s.graph.Reached)
    (he : ((s.compileBytecode options ids).1.program.entries.get? e).isSome) :
    ∃ root o G,
      s.prepare.graph.net.inputLinkByName? s.prepare.graph.output e.terminal = some (root, o) ∧
        Built (s.prepare.sectionContext options e) root G
          ((s.compileBytecode options ids).1.program.code e) := by
  obtain ⟨ids', t, hlinked, hrun, hcode, _⟩ := exists_compile_eq_ok he
  obtain ⟨⟨root, o⟩, hl⟩ := Option.isSome_iff_exists.1 hlinked
  have hsound := sound_prepare hg
  have hcompile : Ensures _ (s.prepare.sectionContext options e).compile _ :=
    ensures_compile ⟨hsound.valid, hsound.output, hl⟩ options.recordTrace ids'
  obtain ⟨G, hG⟩ := hcompile.of_ok rfl hrun
  exact ⟨root, o, G, hl, hcode ▸ hG⟩

/-- Whatever a compilation reports as failed ran out of slots: the failures are overflows, each with
its entry point, its phase, how many slots were asked for and how many were in use. -/
theorem exists_failures_eq_overflows (hg : s.graph.Reached) (options : BytecodeOptions)
    (ids : AttributeIds) :
    ∃ overflows : List (EntryPoint × Phase × Nat × Nat),
      (s.compileBytecode options ids).1.failures = overflows.map SectionFailure.overflow := by
  have hrange : (s.compileBytecode options ids).1.failures ∈
      Set.range (List.map SectionFailure.overflow) := by
    rw [Set.range_list_map]
    intro f hf
    obtain ⟨finished, hmade⟩ := exists_made s.prepare s.needsBump options ids
    obtain ⟨_, hlinked, ids', t, hrun⟩ := hmade.failures f (List.mem_reverse.1 hf)
    obtain ⟨requested, live, herror⟩ := isOverflow_of_compile_eq_error hg hlinked hrun
    exact ⟨(f.entry, f.phase, requested, live), by rw [SectionFailure.overflow, ← herror]⟩
  obtain ⟨overflows, h⟩ := hrange
  exact ⟨overflows, h.symm⟩

end Shader

namespace Graph

/-- A diffuse closure mixed with an emission by whether the ray comes from the camera. -/
def rayMix : Graph :=
  let g := ((((new.add .diffuseBsdf).2.add .emission).2.add .mixClosure).2.add .lightPath).2
  (((g.connected 1 "BSDF" 3 "Closure1").connected 2 "Emission" 3 "Closure2").connected 4
    "IsCameraRay" 3 "Fac").connected 3 "Closure" 0 "Surface"

lemma rayMix_reached : rayMix.Reached := by
  have h : rayMix.Drawn fun _ => True :=
    Drawn.connected (Drawn.connected (Drawn.connected (Drawn.connected
      (Drawn.add (Drawn.add (Drawn.add (Drawn.add .new _) _) _) _) trivial) trivial) trivial) trivial
  exact h.reached

end Graph

namespace Shader

def rayMix : Shader := withGraph "" Graph.rayMix

/-- The failures of the shader with this mix. -/
theorem rayMix_failures :
    rayMix.graph.Reached ∧ ∃ overflows : List (EntryPoint × Phase × Nat × Nat),
      (rayMix.compileBytecode {} .empty).1.failures = overflows.map SectionFailure.overflow :=
  ⟨Graph.rayMix_reached, exists_failures_eq_overflows Graph.rayMix_reached {} .empty⟩

end Shader

end Shading
