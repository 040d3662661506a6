import Shading.Proofs.Editing
import Shading.Proofs.Numbering
import Shading.Proofs.Program
import Shading.Proofs.Stability

/-!
# Compiling again

A compilation prepares the graph of its shader and numbers the attributes that it finds.  A second
one meets what the first has left behind: a prepared graph, flags and attributes, and a longer table
of numbers.  None of that changes a section.  Whether there is a bump section is decided before
preparation, though, and preparation can fold away the surface or the displacement that it was
decided on.

An edit makes the prepared network the one from which preparation starts.  There is nothing left to
fold or prune in it, but closures get their weights once more, on top of those they have.  So an edit
that changes nothing is only certain to leave the program as it is if there are no closures.
-/

namespace Shading

open Shading.Graph SectionContext Option

/-! ## Prepared graphs -/

namespace Network

variable {net : Network} {output : NodeId} {name : String}

/-- Preparation leaves the terminals as they are after folding and pruning, the normal apart. -/
lemma Valid.inputLinkByName?_finalize_output (hv : net.Valid) (ho : net.kind? output = some .output)
    (options : FinalizeOptions) (hname : name ≠ "Normal") :
    (net.finalize output options).inputLinkByName? output name =
      (net.pruned output).inputLinkByName? output name := by
  obtain ⟨hvp, hop, _⟩ := hv.pruned_spec ho
  obtain ⟨hvu, hou, _, hbump⟩ := hv.unweighed_spec ho options
  obtain ⟨_, hweighed⟩ := hv.finalize_spec ho options
  obtain ⟨node, hn, _⟩ := kind?_eq_some_iff.1 hop
  obtain ⟨node', hn', _⟩ := kind?_eq_some_iff.1 hou
  rw [hweighed.inputLinkByName? hn' (not_anyWeight hou rfl), hvu.inputLinkByName?_eq hou,
    hvp.inputLinkByName?_eq hop]
  cases hi : (Node.ofKind .output).inputIndex? name with
  | none => rfl
  | some i =>
    refine hbump.link hn i fun e => hname ?_
    rw [Node.inputIndex?, List.findIdx?_eq_some_iff_getElem] at hi
    obtain ⟨_, hi, _⟩ := hi
    obtain ⟨_, rfl⟩ := Prod.mk.inj e
    exact (eq_of_beq hi).symm

/-- A terminal that is unlinked stays so. -/
lemma Valid.inputLinkByName?_pruned_output (hv : net.Valid) (ho : net.kind? output = some .output)
    (h : net.inputLinkByName? output name = none) :
    (net.pruned output).inputLinkByName? output name = none := by
  obtain ⟨hvp, hop, _, hlink, _⟩ := hv.pruned_spec ho
  rw [hv.inputLinkByName?_eq ho, bind_eq_none_iff] at h
  rw [hvp.inputLinkByName?_eq hop, bind_eq_none_iff]
  exact fun i hi => hlink (h i hi)

lemma setValue_eq_self {id : NodeId} {node : Node} {i : Nat} {input : Input}
    (hn : net.node? id = some node) (hi : node.inputs[i]? = some input) :
    net.setValue id i input.value = net := by
  have hnode : node.setValue i input.value = node := by
    have hinputs : node.inputs.modify i (fun j => { j with value := input.value }) = node.inputs := by
      refine List.ext_getElem? fun k => ?_
      rw [List.getElem?_modify]
      by_cases hk : i = k
      · subst hk
        simp [hi]
      · simp [hk]
    rw [Node.setValue, hinputs]
  have hnodes : net.nodes.modify id (Option.map fun m => m.setValue i input.value) = net.nodes := by
    refine Array.ext_getElem? fun k => ?_
    rw [Array.getElem?_modify]
    by_cases hk : id = k
    · subst hk
      rw [if_pos rfl]
      rw [node?] at hn
      cases hm : net.nodes[id]? with
      | none => rfl
      | some m =>
        rw [hm, join_some] at hn
        rw [hn, map_some, map_some, hnode]
    · rw [if_neg hk]
  rw [setValue, modifyNode, hnodes]

end Network

namespace Graph

variable {g : Graph}

/-- The value that an input holds can be set, and the graph counts as edited. -/
lemma setInput_value (hv : g.net.Valid) {id : NodeId} {node : Node} {name : String} {input : Input}
    (hn : g.net.node? id = some node) (hi : node.input? name = some input) :
    g.setInput id name input.value = .ok (g.edit g.net) := by
  obtain ⟨i, hidx⟩ : ∃ i, node.inputIndex? name = some i := by
    rw [← isSome_iff_exists, Node.inputIndex?, List.findIdx?_isSome]
    rw [Node.input?] at hi
    have hname := List.find?_some hi
    exact List.any_eq_true.2 ⟨input, List.mem_of_find?_eq_some hi, hname⟩
  have hget : node.inputs[i]? = some input := (Node.input?_eq_getElem? hidx).symm.trans hi
  have hfits := (hv.standard hn).fits input (List.mem_of_getElem? hget)
  rw [setInput, require_eq_ok_iff.2 hn]
  simp only [bind, Except.bind, hidx, hi, hfits, if_true, Network.setValue_eq_self hn hget]
  rfl

lemma finalize_finalize_of_eq_none (hf : g.finalized = none) (before options : FinalizeOptions) :
    (g.finalize before).finalize options = g.finalize options := by
  by_cases h : before = options
  · rw [h, finalize_finalize]
  · simp [finalize, base, hf, h]

end Graph

/-! ## Sections -/

namespace SectionContext

variable {ctx : SectionContext}

/-- The context with another record of preparations. -/
def recorded (ctx : SectionContext) (finalized : Option FinalizeOptions)
    (unfinalized : Option Network) : SectionContext :=
  { ctx with graph := { ctx.graph with finalized, unfinalized } }

variable {finalized : Option FinalizeOptions} {unfinalized : Option Network}

lemma visit_recorded (root : NodeId) (fuel : Nat) :
    (ctx.recorded finalized unfinalized).visit root fuel = ctx.visit root fuel := by
  induction fuel with
  | zero => rfl
  | succ fuel ih =>
    funext id
    unfold visit
    rw [ih]
    rfl

/-- The construction does not look at the record of preparations. -/
lemma compile_recorded : (ctx.recorded finalized unfinalized).compile = ctx.compile := by
  have hroot : (ctx.recorded finalized unfinalized).visitRoot = ctx.visitRoot :=
    funext fun root => congrFun (visit_recorded ..) root
  unfold compile
  rw [hroot]
  rfl

end SectionContext

/-- Two shaders that differ in nothing a section depends on. -/
structure Shader.Alike (s t : Shader) : Prop where
  net : t.graph.net = s.graph.net
  output : t.graph.output = s.graph.output
  displacementMethod : t.displacementMethod = s.displacementMethod

namespace SectionResults

variable {options : BytecodeOptions} {s t : Shader} {r : SectionResults} {e : EntryPoint}

@[simp] lemma ids_addOutcome (x : EStateM.Result BytecodeError SectionState Unit) :
    (r.addOutcome options e x).ids = (Emit.left x).ids := by
  cases x <;> rfl

lemma addOutcome_renumber (ids : AttributeIds) (x : EStateM.Result BytecodeError SectionState Unit) :
    { r with ids }.addOutcome options e (Emit.renumber ids x) =
      { r.addOutcome options e x with ids } := by
  cases x <;> rfl

/-- An entry point goes on from the table of attributes, and comes out the same with every table that
goes on from the one that it leaves behind. -/
lemma addEntry_spec (options : BytecodeOptions) (s : Shader) (r : SectionResults) (e : EntryPoint) :
    r.ids ≤ (r.addEntry options s e).ids ∧ ∀ ids, (r.addEntry options s e).ids ≤ ids →
      { r with ids }.addEntry options s e = { r.addEntry options s e with ids } := by
  have hcompile : Emit.Numbered (s.sectionContext options e).compile := rendered_compile.numbered
  simp only [addEntry_eq]
  split
  · rw [ids_addOutcome]
    refine ⟨hcompile.grows (.new options.recordTrace r.ids), fun ids hids => ?_⟩
    rw [← addOutcome_renumber, ← hcompile.again hids]
    rfl
  · exact ⟨le_rfl, fun _ _ => rfl⟩

lemma foldl_addEntry_spec (options : BytecodeOptions) (s : Shader) (l : List EntryPoint)
    (r : SectionResults) :
    r.ids ≤ (l.foldl (addEntry options s) r).ids ∧
      ∀ ids, (l.foldl (addEntry options s) r).ids ≤ ids →
        l.foldl (addEntry options s) { r with ids } = { l.foldl (addEntry options s) r with ids } := by
  induction l generalizing r with
  | nil => exact ⟨le_rfl, fun _ _ => rfl⟩
  | cons e l ih =>
    obtain ⟨hle, hagain⟩ := addEntry_spec options s r e
    obtain ⟨hle', hagain'⟩ := ih (r.addEntry options s e)
    refine ⟨hle.trans hle', fun ids hids => ?_⟩
    rw [List.foldl_cons, hagain ids (hle'.trans hids), hagain' ids hids, List.foldl_cons]

lemma addEntry_congr (h : s.Alike t) : addEntry options t = addEntry options s := by
  obtain ⟨hnet, hout, hmethod⟩ := h
  funext r e
  have hctx : t.sectionContext options e =
      (s.sectionContext options e).recorded t.graph.finalized t.graph.unfinalized := by
    simp only [Shader.sectionContext, recorded, ← hnet, ← hout, hmethod]
  rw [addEntry_eq, addEntry_eq, hctx, compile_recorded, Shader.isTerminalLinked,
    Shader.isTerminalLinked, hnet, hout]

end SectionResults

namespace Shader

variable {s t : Shader} {options : BytecodeOptions} {ids : AttributeIds}

/-- The sections of an alike shader, with the table that the first one leaves behind. -/
lemma compileSections_again (h : s.Alike t) (hasBump : Bool) (options : BytecodeOptions)
    (ids : AttributeIds) :
    t.compileSections hasBump options (s.compileSections hasBump options ids).ids =
      s.compileSections hasBump options ids := by
  obtain ⟨_, hagain⟩ := SectionResults.foldl_addEntry_spec options s (bytecodeEntries hasBump)
    { flags := { hasBump := hasBump }, ids }
  unfold compileSections
  rw [SectionResults.addEntry_congr h]
  exact hagain _ le_rfl

/-- Two compilations with the same outcome. -/
structure SameOutcome (x y : BytecodeOutput × Shader × AttributeIds) : Prop where
  output : y.1 = x.1
  flags : y.2.1.flags = x.2.1.flags
  attributes : y.2.1.attributes = x.2.1.attributes
  ids : y.2.2 = x.2.2

/-- What the sections of a prepared shader amount to. -/
def outcome (s : Shader) (r : SectionResults) : BytecodeOutput × Shader × AttributeIds :=
  let sections := if r.sections.surface.isNone then r.sections.erase .bump else r.sections
  let program := Program.ofSections sections r.peak
  let failures := r.failures.reverse
  let summary : Summary :=
    { instructionCount := program.instructions.size
      peakStackUsage := r.peak
      failed := failures.map SectionFailure.entry }
  (⟨program, summary, failures, r.traces⟩,
    { s with flags := r.flags }.updateAttributes r.requests, r.ids)

lemma compileBytecode_eq : s.compileBytecode options ids =
    s.prepare.outcome (s.prepare.compileSections s.needsBump options ids) := rfl

/-- Another shader that is alike once it is prepared gives the same, with the table that the first
one leaves behind. -/
lemma sameOutcome_of_alike (hb : t.needsBump = s.needsBump) (h : s.prepare.Alike t.prepare)
    (options : BytecodeOptions) (ids : AttributeIds) :
    SameOutcome (s.compileBytecode options ids)
      (t.compileBytecode options (s.compileBytecode options ids).2.2) := by
  have hr : t.prepare.compileSections t.needsBump options (s.compileBytecode options ids).2.2 =
      s.prepare.compileSections s.needsBump options ids := by
    rw [hb]
    exact compileSections_again h s.needsBump options ids
  rw [compileBytecode_eq (s := t), hr, compileBytecode_eq]
  refine ⟨rfl, rfl, ?_, rfl⟩
  dsimp only [outcome, updateAttributes]
  rw [h.displacementMethod]

/-! ## Compiling again -/

/-- The second compilation gives the same as the first if preparation does not change whether a bump
is needed. -/
lemma sameOutcome_of_needsBump (hb : s.prepare.needsBump = s.needsBump) (options : BytecodeOptions)
    (ids : AttributeIds) :
    SameOutcome (s.compileBytecode options ids)
      ((s.compileBytecode options ids).2.1.compileBytecode options
        (s.compileBytecode options ids).2.2) := by
  set t := (s.compileBytecode options ids).2.1
  have hbump : t.needsBump = s.needsBump := hb
  have hoptions : t.finalizeOptions = s.finalizeOptions := by
    rw [finalizeOptions, hbump]
    rfl
  have hgraph : t.prepare.graph = s.prepare.graph := by
    calc t.graph.finalize t.finalizeOptions
        = (s.graph.finalize s.finalizeOptions).finalize s.finalizeOptions := by rw [hoptions]; rfl
      _ = s.graph.finalize s.finalizeOptions := finalize_finalize ..
  exact sameOutcome_of_alike hbump ⟨by rw [hgraph], by rw [hgraph], rfl⟩ options ids

variable {g : Graph} {before : FinalizeOptions} {e : EntryPoint}

lemma isTerminalLinked_of_finalize (hg : g.Sound) (hf : g.finalized = none)
    (hs : s.graph = g.finalize before) (he : e.terminal ≠ "Normal") :
    s.isTerminalLinked e =
      ((g.net.pruned g.output).inputLinkByName? g.output e.terminal).isSome := by
  rw [isTerminalLinked, hs, net_finalize hf, output_finalize,
    hg.valid.inputLinkByName?_finalize_output hg.output before he]

/-- Whether a bump section is needed does not depend on the options with which a graph was
prepared. -/
lemma needsBump_of_finalize (hg : g.Sound) (hf : g.finalized = none) {before' : FinalizeOptions}
    (hs : s.graph = g.finalize before) (ht : t.graph = g.finalize before')
    (hm : t.displacementMethod = s.displacementMethod) : t.needsBump = s.needsBump := by
  simp only [needsBump, hm, isTerminalLinked_of_finalize hg hf hs (e := .surface) (by decide),
    isTerminalLinked_of_finalize hg hf hs (e := .displacement) (by decide),
    isTerminalLinked_of_finalize hg hf ht (e := .surface) (by decide),
    isTerminalLinked_of_finalize hg hf ht (e := .displacement) (by decide)]

/-- Preparation links no terminal but the normal. -/
lemma isTerminalLinked_of_prepare (hg : s.graph.Sound) (hf : s.graph.finalized = none)
    (he : e.terminal ≠ "Normal") (h : s.prepare.isTerminalLinked e = true) :
    s.isTerminalLinked e = true := by
  rw [isTerminalLinked_of_finalize hg hf rfl he] at h
  rw [isTerminalLinked, isSome_iff_ne_none]
  intro hnone
  rw [hg.valid.inputLinkByName?_pruned_output hg.output hnone] at h
  cases h

/-- A bump that is needed after preparation was needed before. -/
lemma needsBump_of_prepare (hg : s.graph.Sound) (hf : s.graph.finalized = none)
    (h : s.prepare.needsBump = true) : s.needsBump = true := by
  rw [needsBump, Bool.and_eq_true, Bool.and_eq_true] at h ⊢
  obtain ⟨⟨hm, hsurface⟩, hdisplacement⟩ := h
  exact ⟨⟨hm, isTerminalLinked_of_prepare hg hf (by decide) hsurface⟩,
    isTerminalLinked_of_prepare hg hf (by decide) hdisplacement⟩

/-- A shader whose graph only edits have made is compiled three times, each time as the last
compilation has left it.  The second compilation gives the same as the first, unless preparation has
folded away the surface or the displacement for which the first one made a bump section.  The third
gives the same as the second in any case. -/
theorem compileBytecode_again {allowed : String → Prop} (hg : s.graph.Drawn allowed)
    (options : BytecodeOptions) (ids : AttributeIds) :
    let first := s.compileBytecode options ids
    let second := first.2.1.compileBytecode options first.2.2
    let third := second.2.1.compileBytecode options second.2.2
    ((s.needsBump = true → s.prepare.needsBump = true) → SameOutcome first second) ∧
      SameOutcome second third := by
  intro first second third
  have hf := hg.finalized_eq_none
  constructor
  · intro hb
    exact sameOutcome_of_needsBump
      (Bool.eq_iff_iff.2 ⟨needsBump_of_prepare hg.sound hf, hb⟩) options ids
  · refine sameOutcome_of_needsBump ?_ options first.2.2
    have hgraph : first.2.1.prepare.graph = s.graph.finalize first.2.1.finalizeOptions :=
      Graph.finalize_finalize_of_eq_none hf ..
    exact needsBump_of_finalize hg.sound hf rfl hgraph rfl

/-- A diffuse surface that is bumped by a displacement. -/
def bumped : Shader :=
  let g := (displaced.add .diffuseBsdf).2
  withGraph "" (g.connected 2 "BSDF" 0 "Surface")

lemma bumped_drawn : bumped.graph.Drawn fun _ => True :=
  Drawn.connected (Drawn.add displaced_drawn _) trivial

/-- The bumped surface is compiled again. -/
theorem bumped_again : bumped.needsBump = true ∧ bumped.prepare.needsBump = true ∧
    let first := bumped.compileBytecode {} .empty
    SameOutcome first (first.2.1.compileBytecode {} first.2.2) := by
  have hb : bumped.prepare.needsBump = true := by decide +kernel
  exact ⟨by decide +kernel, hb, (compileBytecode_again bumped_drawn {} .empty).1 fun _ => hb⟩

/-! ## Compiling after an edit that changes nothing -/

/-- Without closures and without a bump, preparation only folds and prunes. -/
lemma prepare_of_unlinked (hf : s.graph.finalized = none) (hb : s.needsBump = false)
    (hsurface : (s.graph.net.pruned s.graph.output).inputLinkByName? s.graph.output "Surface" = none)
    (hvolume : (s.graph.net.pruned s.graph.output).inputLinkByName? s.graph.output "Volume" = none) :
    s.prepare.graph.net = s.graph.net.pruned s.graph.output ∧
      s.prepare.graph.output = s.graph.output := by
  refine ⟨(net_finalize hf _).trans ?_, output_finalize ..⟩
  exact Network.finalize_eq_pruned hb hsurface hvolume

/-- A shader whose graph only edits have made, with nothing linked to its surface and its volume, is
compiled.  Setting an input of a node that is left to the value that it holds succeeds, and compiling
again then gives the same. -/
theorem compileBytecode_setInput {allowed : String → Prop} (hg : s.graph.Drawn allowed)
    (hsurface : s.isTerminalLinked .surface = false) (hvolume : s.isTerminalLinked .volume = false)
    (options : BytecodeOptions) (ids : AttributeIds) :
    let first := s.compileBytecode options ids
    ∀ id node name input, first.2.1.graph.net.node? id = some node →
      node.input? name = some input →
        ∃ g, first.2.1.graph.setInput id name input.value = .ok g ∧
          SameOutcome first ((first.2.1.editGraph g).compileBytecode options first.2.2) := by
  intro first id node name input hn hi
  have hv := hg.sound.valid
  have ho := hg.sound.output
  set P := s.graph.net.pruned s.graph.output
  have hfree : ∀ e : EntryPoint, s.isTerminalLinked e = false →
      P.inputLinkByName? s.graph.output e.terminal = none := fun e he =>
    hv.inputLinkByName?_pruned_output ho (isNone_iff_eq_none.1 (isSome_eq_false_iff.1 he))
  have hbump : s.needsBump = false := by simp [needsBump, hsurface]
  obtain ⟨hnet, hout⟩ := prepare_of_unlinked hg.finalized_eq_none hbump (hfree .surface hsurface)
    (hfree .volume hvolume)
  refine ⟨_, Graph.setInput_value (hg.sound.finalize s.finalizeOptions).valid hn hi, ?_⟩
  -- The edited graph has the network that preparation has made, and nothing is left to do for it.
  set t := first.2.1.editGraph (first.2.1.graph.edit first.2.1.graph.net)
  have hnet' : t.graph.net = P := hnet
  have hout' : t.graph.output = s.graph.output := hout
  have hpruned : t.graph.net.pruned t.graph.output = P := by
    rw [hnet', hout']
    exact hv.pruned_pruned ho
  have hbump' : t.needsBump = false := by
    simp [needsBump, isTerminalLinked, hnet', hout', hfree .surface hsurface]
  obtain ⟨htnet, htout⟩ := prepare_of_unlinked rfl hbump'
    (by rw [hpruned, hout']; exact hfree .surface hsurface)
    (by rw [hpruned, hout']; exact hfree .volume hvolume)
  have halike : s.prepare.Alike t.prepare :=
    ⟨htnet.trans (hpruned.trans hnet.symm), htout.trans (hout'.trans hout.symm), rfl⟩
  exact sameOutcome_of_alike (hbump'.trans hbump.symm) halike options ids

/-- The height of a displacement is set to the value it holds. -/
theorem displaced_setInput : let s := withGraph "" Graph.displaced
    let first := s.compileBytecode {} .empty
    s.isTerminalLinked .surface = false ∧ s.isTerminalLinked .volume = false ∧
      ∃ node input g, first.2.1.graph.net.node? 1 = some node ∧ node.input? "Height" = some input ∧
        first.2.1.graph.setInput 1 "Height" input.value = .ok g ∧
          SameOutcome first ((first.2.1.editGraph g).compileBytecode {} first.2.2) := by
  intro s first
  have hsurface : s.isTerminalLinked .surface = false := by decide +kernel
  have hvolume : s.isTerminalLinked .volume = false := by decide +kernel
  have hinput : ((s.prepare.graph.net.node? 1).bind (·.input? "Height")).isSome = true := by
    decide +kernel
  obtain ⟨input, hinput⟩ := isSome_iff_exists.1 hinput
  obtain ⟨node, hn, hi⟩ := bind_eq_some_iff.1 hinput
  obtain ⟨g, hg, hsame⟩ := compileBytecode_setInput Graph.displaced_drawn hsurface hvolume {} .empty
    1 node "Height" input hn hi
  exact ⟨hsurface, hvolume, node, input, g, hn, hi, hg, hsame⟩

end Shader

end Shading
