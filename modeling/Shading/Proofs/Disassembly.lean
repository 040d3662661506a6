import Shading.Proofs.Boundaries
import Shading.Proofs.Finished
import Shading.Proofs.Operands

/-!
# Every section can be read back

The walk over the closures emits nodes and puts jumps around the sides of mixes, so by induction on
its fuel what it appends is structured code (`yields_visit`).  A finished section is that code, with
the end of the section behind it unless it is a bump.  Decoding such a section meets an opcode at
every step, its jumps are sound, and its operands are below the peak.

Of the sections that were not finished only the peak matters, since the peak of a program is that of
all its sections.
-/

namespace Shading

open Emit SectionContext Machine SectionState

variable {ctx : SectionContext} {id : NodeId} {l : List SlotRange} {α β : Type} {s : Shader}

/-! ## Nodes -/

/-- A weight has at least one slot, whatever the type of the input that it is read from. -/
lemma yields_assignWeight (node : Node) : Yields ctx [] (ctx.assignWeight id node) fun _ => [] := by
  unfold assignWeight
  split
  · exact .pure fun _ _ => inside_nil
  refine .ite (fun _ => (yields_assignInputAt _).bind fun slot => ?_) fun _ =>
    .pure fun _ _ => inside_nil
  intro s hs hl
  refine .modify ?_
  rintro _ rfl
  have hslot := (inside_cons.1 hl).1
  exact ⟨⟨⟨hs.peak, hs.outputs, hs.inputs, hslot.shrink (by omega)⟩, le_rfl, [], by simp, .nil⟩,
    inside_nil⟩

lemma building_yields (hnet : ctx.net.Scripted) :
    Building ctx fun _ m => Yields ctx [] m fun _ => [] where
  pure _ := .pure fun _ _ => inside_nil
  throw := .throw
  bind := .bind
  get_bind _ h := .get_bind fun s _ => ⟨[], inside_nil, h s⟩
  setPhase := yields_setPhase
  release := yields_release
  forgetOutput _ _ := .calm fun _ => ⟨rfl, rfl, SlotTable.erase_sublist.subset,
    (SlotTable.foldl_erase_sublist _).subset, .inl rfl⟩
  forgetInput _ := .calm fun _ =>
    ⟨rfl, rfl, List.Subset.refl _, SlotTable.erase_sublist.subset, .inl rfl⟩
  markDone _ := .calm fun _ => .of_eq
  markClosure _ := .calm fun _ => .of_eq
  modifyFlags _ := .calm fun _ => .of_eq
  request _ := .calm fun _ => .of_eq
  emitNode hnode := yields_emitNode hnet (Graph.require_eq_ok_iff.1 hnode)
  assignWeight _ := yields_assignWeight
  dropWeight := .calm fun _ => ⟨rfl, rfl, List.Subset.refl _, List.Subset.refl _, .inr rfl⟩

/-- A jump over what a step appends. -/
lemma yields_jump {o : Opcode} (ho : o = .jumpIfOne ∨ o = .jumpIfZero) (hb : ctx.entry ≠ .bump)
    {slot n : Nat} {m : Emit Unit} (hm : Yields ctx [] m fun _ => []) {b : β} :
    Yields ctx [(slot, n)] (do
      let position := (← get).code.size
      op o 0 (slotWord slot) 0
      m
      patchJump position
      return b) fun _ => [] := by
  intro s hs hl
  refine .get_bind ?_
  rintro s rfl
  let jump := Instruction.op o 0 (slotWord slot) 0
  let s₁ : SectionState := { s with code := s.code.push jump }
  have hs₁ : Bounded ctx s₁ := ⟨hs.peak, hs.outputs, hs.inputs, hs.weight⟩
  have hop : Leads (· = s) (op o 0 (slotWord slot) 0) (fun _ t => t = s₁) Contained := by
    refine .modify ?_
    rintro _ rfl
    rfl
  refine hop.bind fun _ => (hm s₁ hs₁ inside_nil).bind fun _ => Triple.bind
    (.modify fun t ht => ?_) fun _ => .pure fun _ ht =>
      ⟨ht, inside_nil⟩
  obtain ⟨⟨hbounded, hpeak, words, hcode, hwords⟩, _⟩ := ht
  refine ⟨⟨hbounded.peak, hbounded.outputs, hbounded.inputs, hbounded.weight⟩, hpeak,
    .op o (Int32.ofNat words.length) (slotWord slot) 0 :: words, ?_, ?_⟩
  · have hpush : s₁.code.toList = s.code.toList ++ [jump] := Array.toList_push
    have hlen : t.code.size - s.code.size - 1 = words.length := by
      rw [← Array.length_toList, hcode, hpush, List.length_append, List.length_append,
        Array.length_toList, List.length_singleton]
      omega
    rw [Array.toList_modify, hcode, hpush, List.append_assoc, List.singleton_append, hlen,
      ← Array.length_toList, modify_append_cons]
    rfl
  · have hslot := ((inside_cons.1 hl).1.shrink (m := 1) (by omega)).mono hpeak
    have hranges : Inside t.stack.peak
        (ranges (.op o (Int32.ofNat words.length) (slotWord slot) 0) [] o) := by
      obtain rfl | rfl := ho
      all_goals simpa [ranges, access, Instruction.op] using hslot.word hbounded.peak
    exact .skipped (Opcode.isJump_iff.2 ho.symm) ⟨fun _ => hb, fun _ => hranges⟩ hwords

/-- What the walk over the closures appends is structured.  There are no mixes in the bump section,
so nothing there stands behind a jump. -/
theorem yields_visit (hnet : ctx.net.Scripted) (root : NodeId) (fuel : Nat) (id : NodeId)
    (hleaf : ctx.entry = .bump → ∀ node, ctx.net.node? id = some node →
      node.kind.special ≠ .combineClosure) :
    Yields ctx [] (ctx.visit root fuel id) fun _ => [] := by
  have h := building_yields hnet
  by_cases hb : ctx.entry = .bump
  · cases fuel with
    | zero => exact h.pure _
    | succ fuel =>
      refine h.get_bind (fun _ _ _ => rfl) fun s => h.ite (fun _ => h.pure _) fun _ =>
        h.ofGraph_bind fun node hnode => ?_
      rw [if_pos (hleaf hb node (Graph.require_eq_ok_iff.1 hnode))]
      exact h.bind (h.markClosure _) fun _ => h.bind (h.generateClosure id node) fun _ =>
        h.markDone id
  · refine (h.walking fun ho hm => ?_).visit root fuel id
    exact (yields_assignInputAt _).bind fun slot => yields_jump ho hb hm

/-! ## Sections -/

lemma yields_enterBump : Yields ctx [] ctx.enterBump reservedRange := by
  refine .ite (fun _ => (yields_claim _).bind fun slot => ?_) fun _ => .pure fun _ _ => inside_nil
  refine Yields.bind (yields_op rfl rfl fun p hp hl => ?_) fun _ => .pure fun p hl => ?_
  · have hslot := (inside_cons.1 hl).1.word hp
    simpa [ranges, access, Instruction.op, bumpStateSize] using hslot
  · simpa [reservedRange] using (inside_cons.1 hl).1

lemma yields_leaveBump (state : Option Nat) :
    Yields ctx (reservedRange state) (leaveBump state) fun _ => [] := by
  cases state with
  | none => exact .pure fun _ _ => inside_nil
  | some slot =>
    refine Yields.bind (yields_op rfl rfl fun p hp hl => ?_) fun _ => yields_release _ _
    have hslot := (inside_cons.1 hl).1.word hp
    simpa [ranges, access, Instruction.op, bumpStateSize] using hslot

lemma yields_emitOutput (h : ctx.Regular id .output) :
    Yields ctx l (ctx.emitOutput id) fun _ => [] := by
  unfold emitOutput
  split
  case h_3 | h_4 => exact .pure fun _ _ => inside_nil
  all_goals
    refine .ite (fun _ => (h.input 3 rfl).bind fun slot => ?_) fun _ => .pure fun _ _ => inside_nil
    exact yields_op rfl rfl fun p hp hl => by
      simpa [ranges, access, Instruction.op] using (inside_cons.1 hl).1.word hp

def SectionContext.ending (ctx : SectionContext) : List Instruction :=
  if ctx.entry = .bump then [] else [.op .stop 0 0 0]

/-- A finished section: structured code with operands below the peak, and its end. -/
structure Terminated (ctx : SectionContext) (t : SectionState) : Prop where
  contained : Contained t
  code : ∃ words, t.code.toList = words ++ ctx.ending ∧ Structured (ctx.Operands t.stack.peak) words

lemma leads_terminate {s : SectionState} (hnew : s.code = #[]) : Leads (Lays ctx s) (do
    if ctx.entry ≠ .bump then op .stop 0 0 0
    setPhase .finished) (fun _ => Terminated ctx) Contained := by
  refine .ite (fun hb => ?_) fun hb => ?_
  · refine Triple.bind (Q := fun _ => Terminated ctx) (.modify fun t ht => ?_) fun _ =>
      .modify fun t ht => ⟨ht.contained, ht.code⟩
    obtain ⟨words, hcode, hwords⟩ := ht.code
    exact ⟨ht.bounded.peak, words, by simp [ending, hb, hcode, hnew], hwords⟩
  · refine .modify fun t ht => ?_
    obtain ⟨words, hcode, hwords⟩ := ht.code
    exact ⟨ht.bounded.peak, words, by simp [ending, not_not.1 hb, hcode, hnew], hwords⟩

lemma bounded_new (record : Bool) (ids : AttributeIds) : Bounded ctx (.new record ids) :=
  ⟨Nat.zero_le _, by simp [new], by simp [new], .inl rfl⟩

lemma regular_output (hg : ctx.graph.Scripted) : ctx.Regular ctx.graph.output .output := by
  obtain ⟨node, hn, hk⟩ := Network.kind?_eq_some_iff.1 hg.output
  rw [← hk]
  exact regular_of_scripted hg.net hn (by rw [hk]; rfl)

/-- A section that is compiled is structured code and its end. -/
theorem leads_compile_terminated (hg : ctx.graph.Scripted) (record : Bool) (ids : AttributeIds) :
    Leads (· = .new record ids) ctx.compile (fun _ => Terminated ctx) Contained := by
  set new := new record ids
  have hnew : Bounded ctx new := bounded_new record ids
  have hend state :
      Leads (fun t => Lays ctx new t ∧ Inside t.stack.peak (reservedRange state))
        (ctx.conclude state) (fun _ => Terminated ctx) Contained := by
    refine ((yields_setPhase _).leads_since new).bind fun _ => ?_
    refine ((yields_emitOutput (regular_output hg)).leads_since new).bind fun _ => ?_
    refine ((yields_leaveBump state).leads_since new).bind fun _ => ?_
    exact .pre (fun t ht => ht.1) (leads_terminate rfl)
  have hstart : ∀ t, t = new → Lays ctx new t ∧ Inside t.stack.peak [] := by
    rintro t rfl
    exact ⟨hnew.lays, inside_nil⟩
  refine .ofGraph_bind (fun t ht => ht ▸ hnew.peak) ?_
  rintro ⟨i, ty⟩ hi
  refine .pre hstart ((yields_enterBump.leads_since new).bind fun state => ?_)
  rw [List.append_nil]
  cases hl : ctx.net.inputLink? ctx.graph.output i with
  | none => exact hend state
  | some source =>
    obtain ⟨root, o⟩ := source
    have hflags : Yields ctx (reservedRange state)
        (modifyFlags fun f => f.union (entryFlags ctx.entry)) fun _ => [] :=
      .calm fun _ => .of_eq
    have hvisit : Yields ctx [] (ctx.visitRoot root) fun _ => [] :=
      yields_visit hg.net root _ root fun hb node hn =>
        special_ne_combineClosure hg (.inr hb) hi hl hn
    refine (hflags.leads_since new).bind fun _ => ?_
    exact ((hvisit.weaken (List.nil_subset _)).leads_since new).bind fun _ => hend state

/-- What a section reads as.  It ends with its end, which is nowhere else, or runs on into the
surface if it is a bump.  Its jumps are sound as long as their distances fit into the words that
hold them.  Its operands are below the peak, apart from zero vectors in graphs with a script that
hides a vector. -/
structure SoundSection (g : Graph) (e : EntryPoint) (peak : Nat) (code : Array Instruction)
    (steps : List Step) : Prop where
  decodes : decode? code = some steps
  ends : e ≠ .bump → ∃ body last, steps = body ++ [last] ∧ last.opcode = .stop ∧
    ∀ x ∈ body, x.opcode ≠ .stop
  runsOn : e = .bump → ∀ x ∈ steps, x.opcode ≠ .stop
  jumps : code.size < 2 ^ 31 → SoundJumps code.size steps
  operands : ∀ x ∈ steps, (WritesZero x.data x.opcode → g.Unshadowed) → Inside peak x.operands

/-- Reading a section that was finished. -/
lemma Terminated.exists_steps {t : SectionState} (h : Terminated ctx t) :
    ∃ steps, SoundSection ctx.graph ctx.entry t.stack.peak t.code steps := by
  obtain ⟨words, hcode, hwords⟩ := h.code
  obtain ⟨steps, hdecode, hall, hnested⟩ := hwords.exists_steps 0
  simp only [Nat.zero_add] at hdecode hnested
  have hsize : t.code.size = words.length + ctx.ending.length := by
    rw [← Array.length_toList, hcode, List.length_append]
  have hoperands : ∀ x ∈ steps, (WritesZero x.data x.opcode → ctx.graph.Unshadowed) →
      Inside t.stack.peak x.operands := fun x hx => (hall x hx).2.2
  by_cases hb : ctx.entry = .bump
  · rw [ending, if_pos hb] at hcode hsize
    refine ⟨steps, ?_, fun hne => absurd hb hne, fun _ x hx => (hall x hx).1, fun hlt => ?_,
      hoperands⟩
    · rw [decode?, hcode, hdecode, decodeFrom, Option.map_some, List.append_nil]
    · rw [hsize]
      refine (hnested (by omega)).soundJumps fun x hx hj => ?_
      exact absurd hb ((hall x hx).2.1 hj)
  · rw [ending, if_neg hb] at hcode hsize
    let last : Step := ⟨words.length, .stop, .op .stop 0 0 0, []⟩
    refine ⟨steps ++ [last], ?_, fun _ => ⟨steps, last, rfl, rfl, fun x hx => (hall x hx).1⟩,
      fun hbump => absurd hbump hb, fun hlt => ?_, fun x hx hv => ?_⟩
    · rw [decode?, hcode, hdecode]
      rfl
    · rw [hsize, List.length_singleton] at hlt ⊢
      have hlast : Nested words.length (words.length + 1) [last] :=
        .single last rfl (Nat.lt_succ_self _)
      have hbody := hnested (by omega)
      refine (hbody.append hlast (by omega) (by omega)).soundJumps fun x hx hj => ?_
      obtain hx | hx := List.mem_append.1 hx
      · have := (hbody.jumps x hx hj).2.1
        omega
      · rw [List.mem_singleton.1 hx] at hj
        cases hj
    · obtain hx | hx := List.mem_append.1 hx
      · exact hoperands x hx hv
      · rw [List.mem_singleton.1 hx]
        exact inside_nil

lemma SoundSection.mono {g : Graph} {e : EntryPoint} {p p' : Nat} {code : Array Instruction}
    {steps : List Step} (h : SoundSection g e p code steps) (hp : p ≤ p') :
    SoundSection g e p' code steps :=
  { h with operands := fun x hx hv => (h.operands x hx hv).mono hp }

/-! ## Programs -/

/-- The peak stays inside the stack, also in sections that fail. -/
lemma SectionResults.peak_addEntry_le (hg : s.graph.Scripted)
    {options : BytecodeOptions} {r : SectionResults} (hr : r.peak ≤ Stack.size) (e : EntryPoint) :
    (r.addEntry options s e).peak ≤ Stack.size := by
  let ctx := s.sectionContext options e
  have hrun : Leads (· = .new options.recordTrace r.ids) ctx.compile (fun _ => Terminated ctx)
      Contained := leads_compile_terminated hg _ _
  rw [addEntry_eq]
  split
  · cases h : ctx.compile (.new options.recordTrace r.ids) with
    | ok u t => exact max_le hr (hrun.of_ok rfl h).contained
    | error error t => exact max_le hr (hrun.of_error rfl h)
  · exact hr

namespace Shader

lemma peak_compileSections_le (hg : s.graph.Scripted) (hasBump : Bool)
    (options : BytecodeOptions) (ids : AttributeIds) :
    (s.compileSections hasBump options ids).peak ≤ Stack.size :=
  List.foldlRecOn (motive := fun r : SectionResults => r.peak ≤ Stack.size) _ _ (Nat.zero_le _)
    fun _ hr e _ => SectionResults.peak_addEntry_le hg hr e

/-- Every section of a program reads as a `SoundSection`: from its start to its end, with jumps that
are sound, and with operands below the peak of the program, which is at most 255. -/
theorem exists_soundSection {s : Shader} (hs : s.graph.Assembled) (options : BytecodeOptions)
    (ids : AttributeIds) :
    let program := (s.compileBytecode options ids).1.program
    program.peakStackUsage ≤ 255 ∧ ∀ e, (program.entries.get? e).isSome = true →
      ∃ steps, SoundSection s.prepare.graph e program.peakStackUsage (program.code e) steps := by
  intro program
  have hg := scripted_prepare hs
  refine ⟨peak_compileSections_le hg .., fun e hsome => ?_⟩
  obtain ⟨before, t, _, hrun, hcode, hpeak⟩ := exists_compile_eq_ok hsome
  obtain ⟨steps, hsteps⟩ :=
    ((leads_compile_terminated hg options.recordTrace before).of_ok rfl hrun).exists_steps
  exact ⟨steps, hcode ▸ hsteps.mono hpeak⟩

end Shader

/-- A script gives the factor of a mix, with a closure on one side. -/
def Graph.scriptMix : Graph :=
  let script : Node := ⟨.script (.file "blend.oso"), [], [⟨"Fac", .float⟩]⟩
  let g := (((new.addNode script).2.add .holdout).2.add .mixClosure).2
  let g := (g.connected 1 "Fac" 3 "Fac").connected 2 "Holdout" 3 "Closure1"
  g.connected 3 "Closure" 0 "Surface"

lemma Graph.scriptMix_assembled : scriptMix.Assembled := by
  refine .connected (.connected (.connected ?_))
  refine .edit (.edit ?_ (.add _)) (.add _)
  exact .addScript .new rfl (by decide) (by decide)

namespace Shader

def scriptMix : Shader := withGraph "" Graph.scriptMix

lemma scriptMix_surface :
    let program := (scriptMix.compileBytecode {} .empty).1.program
    (program.entries.get? .surface).isSome = true ∧ (program.code .surface).size < 2 ^ 31 ∧
      scriptMix.prepare.graph.Unshadowed ∧
      (decode? (program.code .surface)).any (·.any Step.isJump) = true := by
  decide +kernel

/-- The mix of the script is read back with a jump in it. -/
theorem scriptMix_soundSection :
    let program := (scriptMix.compileBytecode {} .empty).1.program
    scriptMix.graph.Assembled ∧ program.peakStackUsage ≤ 255 ∧
      (program.entries.get? .surface).isSome = true ∧
      ∃ steps, decode? (program.code .surface) = some steps ∧ (∃ x ∈ steps, x.isJump = true) ∧
        SoundJumps (program.code .surface).size steps ∧
        ∀ x ∈ steps, Inside program.peakStackUsage x.operands := by
  intro program
  obtain ⟨hsome, hsize, hclear, hjump⟩ := scriptMix_surface
  obtain ⟨hpeak, hsound⟩ := exists_soundSection (s := scriptMix) Graph.scriptMix_assembled {} .empty
  obtain ⟨steps, hsteps⟩ := hsound .surface hsome
  rw [hsteps.decodes, Option.any_some] at hjump
  exact ⟨Graph.scriptMix_assembled, hpeak, hsome, steps, hsteps.decodes, List.any_eq_true.1 hjump,
    hsteps.jumps hsize, fun x hx => hsteps.operands x hx fun _ => hclear⟩

end Shader

end Shading
