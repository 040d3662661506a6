import Shading.Proofs.Recompile
import Shading.Proofs.SectionGrowth

/-!
# Attributes that are read and requested

A compiled shader asks for the attributes of the geometry that it reads.  What it reads are the
operands of its instructions, numbers in the table of names; what it asks for is found node by node.
The two agree, with one exception: where displacement is evaluated, bumps are ignored, so a texture
whose coordinate is fed by a bump reads the attribute of an unlinked coordinate, but does not ask
for it.
-/

namespace Shading

open Emit SectionContext Shading.Graph Machine Network OrderedSet

/-! ## Instructions of a section -/

/-- The instructions that some words stand for, with their opcodes and without their data. -/
def Machine.instructions : List Instruction → List (Opcode × Instruction)
  | [] => []
  | i :: words =>
    match Opcode.ofWord? i.w0 with
    | none => []
    | some o => (o, i) :: instructions (words.drop (width i o - 1))
termination_by words => words.length
decreasing_by
  rw [List.length_drop, List.length_cons]
  omega

variable {K : AttributeKey → Prop} {ids : AttributeIds} {i : Instruction} {requests : AttributeSet}

/-- In a sequence of chunks, attributes are read only where a chunk begins. -/
lemma exists_key_of_mem_instructions {chunks : List (List Instruction)}
    (hc : ∀ c ∈ chunks, Item (ReadsKey ids K) c)
    (hi : (.attr, i) ∈ instructions chunks.flatten) :
    ∃ key, K key ∧ ids.Numbers key i.w1 := by
  induction chunks with
  | nil =>
    rw [List.flatten_nil, instructions] at hi
    cases hi
  | cons c chunks ih =>
    obtain ⟨hfirst, hrest⟩ := List.forall_mem_cons.1 hc
    cases c with
    | nil => exact hfirst.elim
    | cons j data =>
      obtain ⟨o, ho, hwidth, hattr⟩ := hfirst
      have hdrop : (data ++ chunks.flatten).drop (width j o - 1) = chunks.flatten := by
        rw [← hwidth, Nat.add_sub_cancel, List.drop_left]
      rw [List.flatten_cons, List.cons_append, instructions, ho] at hi
      dsimp only at hi
      rw [hdrop] at hi
      obtain hi | hi := List.mem_cons.1 hi
      · cases hi
        exact hattr rfl
      · exact ih hrest hi

/-! ## Nodes -/

/-- The attribute that a texture reads if nothing feeds its coordinate. -/
def NodeKind.coordinate? : NodeKind → Option AttributeKey
  | .imageTexture .. => some (.standard .uv)
  | .checkerTexture => some (.standard .generated)
  | _ => none

/-- Some texture for which an attribute stands in has its coordinate fed by a bump. -/
def Network.BumpsCoordinate (net : Network) (key : AttributeKey) : Prop :=
  ∃ n k source bump, net.kind? n = some k ∧ k.coordinate? = some key ∧
    net.inputLinkByName? n "Vector" = some source ∧ net.kind? source.1 = some bump ∧
      bump.special = .bump

variable {ctx : SectionContext} {n : NodeId} {node : Node} {key : AttributeKey}

/-- An unlinked coordinate of a texture, in the words of the section and of the network. -/
lemma bumpsCoordinate_or_not_isInputLinked (hv : ctx.net.Valid)
    (hn : ctx.net.node? n = some node) (hk : node.kind.coordinate? = some key)
    (hl : ctx.isLinked n "Vector" = false) :
    (ctx.entry = .displacement ∧ ctx.net.BumpsCoordinate key) ∨
      ctx.net.isInputLinked n 0 = false := by
  have hidx : node.inputIndex? "Vector" = some 0 := by
    rw [(hv.standard hn).inputIndex?]
    cases hkind : node.kind <;> rw [hkind] at hk <;> first | rfl | cases hk
  have hlink : ctx.link? n 0 = none := by
    simpa [isLinked, hn, hidx] using hl
  cases hsource : ctx.net.inputLink? n 0 with
  | none =>
    refine .inr ?_
    rw [isInputLinked, hsource]
    rfl
  | some source =>
    refine .inl ?_
    have hskip : ctx.skips n 0 = true := by
      rw [link?, hsource] at hlink
      by_contra h
      rw [if_neg h] at hlink
      cases hlink
    rw [skips, hsource, Option.bind_some] at hskip
    simp only [Bool.and_eq_true, beq_iff_eq, Option.any_eq_true] at hskip
    obtain ⟨hentry, bump, hbump, hspecial⟩ := hskip
    refine ⟨hentry, n, node.kind, source, bump.kind, kind?_of_node? hn, hk, ?_,
      kind?_of_node? hbump, hspecial⟩
    simp [inputLinkByName?, hn, hidx, hsource]

/-- A linked output, in the words of the section and of the network. -/
lemma exists_isOutputLinked (hn : ctx.net.node? n = some node) {name : String}
    (h : ctx.isOutputLinked n name = true) :
    ∃ o, node.outputIndex? name = some o ∧ ctx.net.isOutputLinked n o = true := by
  rw [SectionContext.isOutputLinked, hn, Option.bind_some, Option.any_eq_true] at h
  exact h

/-- What a node reads it asks for, or it is a texture whose coordinate is ignored. -/
lemma requests_bumpsCoordinate (hv : ctx.net.Valid) :
    ctx.Requests fun key => ctx.entry = .displacement ∧ ctx.net.BumpsCoordinate key := by
  intro n node key hn hreads
  have hidx := (hv.standard hn).outputIndex?
  cases hkind : node.kind with
  | namedAttribute name =>
    rw [hkind] at hreads
    obtain ⟨rfl, output, _, hlinked⟩ := hreads
    obtain ⟨o, ho, hlinked⟩ := exists_isOutputLinked hn hlinked
    have hlt : o < node.outputs.length := (List.findIdx?_eq_some_iff_getElem.1 ho).1
    have hany : (List.range node.outputs.length).any (ctx.net.isOutputLinked n) = true :=
      List.any_eq_true.2 ⟨o, List.mem_range.2 hlt, hlinked⟩
    refine .inl fun requests => ?_
    simp only [addAttributes, hn, hkind, hany, if_true]
    exact mem_insert.2 (.inr rfl)
  | textureCoordinate fromDupli transform =>
    rw [hkind] at hreads hidx
    refine .inl fun requests => ?_
    obtain ⟨rfl, hb, hlinked⟩ | ⟨rfl, hlinked⟩ := hreads <;>
      obtain ⟨o, ho, hlinked⟩ := exists_isOutputLinked hn hlinked <;>
      rw [hidx] at ho <;> obtain rfl := Option.some.inj ho
    · simp only [addAttributes, hn, hkind, hb, hlinked, Bool.not_false, Bool.and_self,
        if_true]
      split
      · exact mem_insert.2 (.inl (mem_insert.2 (.inr rfl)))
      · exact mem_insert.2 (.inr rfl)
    · simp only [addAttributes, hn, hkind, hlinked, if_true]
      exact mem_insert.2 (.inr rfl)
  | imageTexture slot filename colorspace =>
    rw [hkind] at hreads
    obtain ⟨rfl, hl⟩ := hreads
    refine (bumpsCoordinate_or_not_isInputLinked hv hn (by rw [hkind]; rfl) hl).symm.imp_left ?_
    intro hfree requests
    simp only [addAttributes, hn, hkind, hfree]
    exact mem_insert.2 (.inr rfl)
  | checkerTexture =>
    rw [hkind] at hreads
    obtain ⟨rfl, hb, hl⟩ := hreads
    refine (bumpsCoordinate_or_not_isInputLinked hv hn (by rw [hkind]; rfl) hl).symm.imp_left ?_
    intro hfree requests
    simp only [addAttributes, hn, hkind, hb, hfree]
    exact mem_insert.2 (.inr rfl)
  | _ =>
    rw [hkind] at hreads
    exact hreads.elim

/-! ## Programs -/

namespace SectionResults

variable {options : BytecodeOptions} {s : Shader} {r : SectionResults}

/-- Whatever the sections read is requested, or the coordinate of a texture that a bump feeds. -/
def Requested (s : Shader) (r : SectionResults) : Prop :=
  ∀ ⦃e code i⦄, r.sections.get? e = some code → (.attr, i) ∈ instructions code.toList →
    ∃ key, (key ∈ r.requests ∨ e = .displacement ∧ s.graph.net.BumpsCoordinate key) ∧
      r.ids.Numbers key i.w1

lemma Requested.addEntry (hv : s.graph.net.Valid) (h : r.Requested s) (e : EntryPoint) :
    (r.addEntry options s e).Requested s := by
  have hids := (addEntry_spec options s r e).1
  rw [addEntry_eq] at hids ⊢
  split
  · rename_i hlinked
    rw [if_pos hlinked] at hids
    obtain ⟨⟨root, o⟩, hl⟩ := Option.isSome_iff_exists.1 hlinked
    cases hrun : (s.sectionContext options e).compile (.new options.recordTrace r.ids) with
    | ok u t =>
      rw [hrun] at hids
      intro e' code i hcode hi
      dsimp only [addOutcome, EntryTable.insert] at hcode
      rw [EntryTable.get?_set] at hcode
      split at hcode
      · rename_i he
        subst he
        obtain rfl := Option.some.inj hcode
        have hreads : (s.sectionContext options e').Requests fun key =>
            e' = .displacement ∧ s.graph.net.BumpsCoordinate key := requests_bumpsCoordinate hv
        obtain ⟨_, _, hgains⟩ := gained_of_compile_eq_ok hreads hl hrun
        obtain ⟨_, chunks, hwords, hc⟩ := hgains.grows
        rw [hwords] at hi
        obtain ⟨key, hkey, hn⟩ := exists_key_of_mem_instructions hc hi
        exact ⟨key, hkey.imp_left fun h => mem_union.2 (.inr h), hn⟩
      · obtain ⟨key, hkey, hn⟩ := h hcode hi
        exact ⟨key, hkey.imp_left fun h => mem_union.2 (.inl h), hn.mono hids⟩
    | error error t =>
      rw [hrun] at hids
      intro e' code i hcode hi
      obtain ⟨key, hkey, hn⟩ := h hcode hi
      exact ⟨key, hkey, hn.mono hids⟩
  · exact h

end SectionResults

namespace Shader

variable {s : Shader} {options : BytecodeOptions} {ids : AttributeIds} {e : EntryPoint}

/-- A compiled shader asks for what its sections have requested, and for the positions before it was
moved if it is both moved and bumped. -/
lemma mem_updateAttributes_iff {key : AttributeKey} :
    key ∈ (s.updateAttributes requests).attributes ↔ key ∈ requests ∨
      key = .standard .positionUndisplaced ∧ s.flags.hasDisplacement = true ∧
        s.displacementMethod = .both := by
  unfold updateAttributes
  split
  · rename_i h
    simp only [Bool.and_eq_true, beq_iff_eq] at h
    simp [AttributeSet.insertStandard, mem_insert, h]
  · rename_i h
    simp only [Bool.and_eq_true, beq_iff_eq] at h
    simp [h]

lemma mem_attributes_updateAttributes {key : AttributeKey}
    (h : key ∈ requests) : key ∈ (s.updateAttributes requests).attributes :=
  mem_updateAttributes_iff.2 (.inl h)

/-- Every attribute that a compiled shader reads has its number in the table, and the shader asks
for it, unless displacement is evaluated and the attribute stands in for the coordinate of a texture
that a bump feeds. -/
theorem exists_requested_attribute (hg : s.graph.Reached) (options : BytecodeOptions)
    (ids : AttributeIds) {i : Instruction}
    (hi : (.attr, i) ∈
      Machine.instructions ((s.compileBytecode options ids).1.program.section? e)) :
    let compiled := s.compileBytecode options ids
    ∃ key number, compiled.2.2.lookupKey key = (number, compiled.2.2) ∧
      i.w1 = Int32.ofNat number ∧
      (key ∈ compiled.2.1.attributes ∨
        e = .displacement ∧ s.prepare.graph.net.BumpsCoordinate key) := by
  intro compiled
  have hsome : (compiled.1.program.entries.get? e).isSome := by
    by_contra hnone
    rw [Option.not_isSome_iff_eq_none] at hnone
    rw [Program.section?, hnone, Machine.instructions] at hi
    cases hi
  have hrequested : (s.prepare.compileSections s.needsBump options ids).Requested s.prepare :=
    List.foldlRecOn _ _ (fun e code i h => by simp at h)
      fun r hr e _ => hr.addEntry (sound_prepare hg).valid e
  have hget := EntryTable.get?_of_ite_erase (Program.get?_of_entries_ofSections hsome)
  obtain ⟨key, hkey, hnumber⟩ := hrequested hget hi
  obtain ⟨number, hlookup, hword⟩ := hnumber _ le_rfl
  refine ⟨key, number, hlookup, hword, hkey.imp_left fun hmem => ?_⟩
  exact mem_attributes_updateAttributes hmem

/-- A diffuse surface with a color that is an attribute of the geometry. -/
def painted : Shader :=
  let g := ((Graph.new.add (.namedAttribute "paint")).2.add .diffuseBsdf).2
  withGraph "" ((g.connected 1 "Color" 2 "Color").connected 2 "BSDF" 0 "Surface")

lemma painted_reached : painted.graph.Reached := by
  have h : painted.graph.Drawn fun _ => True :=
    Drawn.connected (Drawn.connected (Drawn.add (Drawn.add .new _) _)
      trivial) trivial
  exact h.reached

/-- The color of the surface is requested. -/
theorem painted_requested : let compiled := painted.compileBytecode {} .empty
    painted.graph.Reached ∧
      (.attr, .op .attr 21 0 0) ∈ Machine.instructions (compiled.1.program.section? .surface) ∧
      ∃ key number, compiled.2.2.lookupKey key = (number, compiled.2.2) ∧
        21 = Int32.ofNat number ∧ key ∈ compiled.2.1.attributes := by
  intro compiled
  have hread : (.attr, .op .attr 21 0 0) ∈
      Machine.instructions (compiled.1.program.section? .surface) := by decide +kernel
  obtain ⟨key, number, hlookup, hword, hkey⟩ :=
    exists_requested_attribute painted_reached {} .empty hread
  exact ⟨painted_reached, hread, key, number, hlookup, hword,
    hkey.resolve_right fun h => EntryPoint.noConfusion h.1⟩

end Shader

end Shading
