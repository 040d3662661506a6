import Shading.Proofs.Program

/-!
# What runs of a program find and what they skip

Every section of a program has a listing, and every run goes along it.  Three things follow for all
runs, whatever the jumps do.  A line of a node that is of use finds its operands: each of its slots
was last written by the line of the output that feeds the input, or with the constant of an input
that nothing feeds.  A closure takes the weight that a line of its own node has set.  And a closure
is skipped only by a jump of a mix, whose factor the run has found to be one or zero, over a side
that every closure path to it takes.
-/

namespace Shading

open SectionContext Machine

variable {ctx : SectionContext} {root : NodeId} {G : Outline} {code : Array Instruction}
  {lines : List Line} {line : Line} {i : Instruction} {o : Opcode} {a p t : Nat}
  {past : List (Nat × Contents)}

/-! ## Jumps -/

lemma Line.Decodes.effect_eq_jump (hd : line.Decodes i o)
    (ho : o = .jumpIfOne ∨ o = .jumpIfZero) : line.effect = .jump := by
  rw [Line.effect, hd.head, Option.map_some, Option.getD_some, Instruction.effect, hd.opcode]
  obtain rfl | rfl := ho <;> rfl

namespace Built

variable (h : Built ctx root G code)
include h

lemma words_ne_nil : ∀ l ∈ G.lines, l.words ≠ [] :=
  fun l hl => (h.text.compiles l hl).words_ne_nil

lemma position_le_size (ht : t ≤ G.lines.length) : position G.lines t ≤ code.size := by
  rw [← Array.length_toList, h.text.words, ← position_length]
  obtain rfl | hlt := Nat.eq_or_lt_of_le ht
  · exact le_rfl
  · exact (position_lt h.words_ne_nil hlt le_rfl).le

/-- If the distances of jumps fit into words, every jump leads to the target that it was given. -/
lemma exists_jumpsTo (hsize : code.size < 2 ^ 31)
    (hl : G.lines[a]? = some line) (hd : line.Decodes i o)
    (ho : o = .jumpIfOne ∨ o = .jumpIfZero) : ∃ t, (a, t) ∈ G.regions ∧ JumpsTo G.lines i o a t := by
  obtain ⟨t, ht⟩ := h.jumps a line hl (hd.effect_eq_jump ho)
  have hr := h.regions _ ht
  obtain ⟨n, side, slot, _, _, hline, _⟩ := hr.jump
  have hbound := h.text.bounded _ ht
  have hlater := position_lt h.words_ne_nil hr.later hbound
  have hfits := (h.position_le_size hbound).trans_lt hsize
  obtain rfl := Option.some.inj (hl.symm.trans hline)
  obtain rfl : _ = i := Option.some.inj hd.head
  refine ⟨t, ht, ⟨_, hl, hd⟩, ho, hr.later, hbound, ?_⟩
  dsimp only [Instruction.op] at hlater hfits ⊢
  rw [Int32.toInt_ofNat_of_lt (by omega)]
  omega

lemma laid (hsize : code.size < 2 ^ 31) : Laid ctx G.lines code :=
  ⟨h.text.words, h.text.compiles, fun hl hd ho =>
    (h.exists_jumpsTo hsize hl hd ho).imp fun _ ht => ht.2⟩

lemma mem_regions (hsize : code.size < 2 ^ 31) (ht : JumpsTo G.lines i o a t) :
    (a, t) ∈ G.regions := by
  obtain ⟨l, hl, hd⟩ := ht.line
  obtain ⟨t', hmem, ht'⟩ := h.exists_jumpsTo hsize hl hd ht.jump
  have hpos : position G.lines t = position G.lines t' := by
    have := ht.lands
    have := ht'.lands
    omega
  rwa [position_inj h.words_ne_nil ht.inside ht'.inside hpos]

end Built

/-! ## Operands -/

namespace Machine

/-- In a run, the slots of an operand of a node were last written by a line that provides it. -/
def Finds (ctx : SectionContext) (lines : List Line) (code : Array Instruction)
    (past : List (Nat × Contents)) (n : NodeId) (x : Operand × SlotRange) : Prop :=
  ∃ q writer w, lines[q]? = some writer ∧ (w, x.2) ∈ writer.writes ∧ ctx.Provides n x.1 w ∧
    LastWrite code past x.2 (position lines q)

end Machine

/-- A run that comes to a line of a node of use finds what the line reads. -/
lemma Built.finds (h : Built ctx root G code) (hsize : code.size < 2 ^ 31)
    (ha : Along G.lines past p) (hl : G.lines[p]? = some line)
    (hu : ctx.OfUse root line.node) {x : Operand × SlotRange} (hx : x ∈ line.reads) :
    Finds ctx G.lines code past line.node x := by
  obtain ⟨q, w, hkept, hprovides, hregions⟩ := h.text.reads hl x hx
  obtain ⟨writer, hwriter, hw⟩ := hkept.written
  obtain ⟨σ, hσ⟩ := ha.executed hkept.earlier fun i o a t ht haq hqt =>
    hregions hu _ (h.mem_regions hsize ht) haq hqt
  exact ⟨q, writer, w, hwriter, hw, hprovides, hkept.lastWrite (h.laid hsize) ha hσ⟩

/-- Every run stands at a line or at the end.  The machine accesses there what the line says, and if
the line is one of a node of use, the run finds what it reads. -/
def Machine.AlwaysFinds (ctx : SectionContext) (root : NodeId) (lines : List Line)
    (code : Array Instruction) : Prop :=
  ∀ past pc, Run code past pc → ∃ p ≤ lines.length, pc = position lines p ∧
    ∀ line, lines[p]? = some line →
      accessAt code pc = ⟨line.reads.map Prod.snd, line.writes.map Prod.snd⟩ ∧
        (ctx.OfUse root line.node → ∀ x ∈ line.reads, Finds ctx lines code past line.node x)

lemma Built.alwaysFinds (h : Built ctx root G code) (hsize : code.size < 2 ^ 31) :
    AlwaysFinds ctx root G.lines code := by
  intro past pc run
  obtain ⟨p, rfl, ha⟩ := run.along (h.laid hsize)
  exact ⟨p, ha.inside, rfl, fun line hl =>
    ⟨(h.laid hsize).accessAt hl, fun hu x hx => h.finds hsize ha hl hu hx⟩⟩

/-! ## Closures -/

/-- A closure of a finished section is one of a leaf that feeds the terminal. -/
lemma Built.exists_closurePath (h : Built ctx root G code) (hl : G.lines[p]? = some line)
    (hc : line.effect = .closure) :
    ctx.IsLeaf line.node ∧ ∃ π, ctx.net.ClosurePath root π line.node := by
  by_contra hnone
  have hcount := h.closures line.node
  rw [if_neg hnone] at hcount
  exact List.countP_eq_zero.1 hcount line (List.mem_of_getElem? hl) (by simpa using hc)

/-- A run that comes to a closure finds what the closure reads, and the weight was last set by a line
of the same node. -/
def Machine.AlwaysWeighs (ctx : SectionContext) (lines : List Line) (code : Array Instruction) :
    Prop :=
  ∀ past q line, lines[q]? = some line → line.effect = .closure →
    Run code past (position lines q) →
      (∀ x ∈ line.reads, Finds ctx lines code past line.node x) ∧
        ∃ p w, lines[p]? = some w ∧ w.node = line.node ∧ LastWeight code past (position lines p)

lemma Built.alwaysWeighs (h : Built ctx root G code) (hv : ctx.net.Valid)
    (hsize : code.size < 2 ^ 31) : AlwaysWeighs ctx G.lines code := by
  intro past q line hl hc run
  have hlaid := h.laid hsize
  obtain ⟨q', hpos, ha⟩ := run.along hlaid
  obtain rfl := position_inj h.words_ne_nil (List.getElem?_eq_some_iff.1 hl).1.le ha.inside hpos
  obtain ⟨hleaf, π, hπ⟩ := h.exists_closurePath hl hc
  have huse : ctx.OfUse root line.node := .inr (way_of_closurePath hv hπ
    (fun m hm => not_idle_of_mem_closurePath hπ hm) hleaf.not_idle)
  refine ⟨fun x hx => h.finds hsize ha hl huse hx, ?_⟩
  obtain ⟨p, hw, hr⟩ := h.weighs q line hl hc
  obtain ⟨w, l, hw', hl', hnode, _⟩ := hw.weight
  obtain rfl := Option.some.inj (hl.symm.trans hl')
  exact ⟨p, w, hw', hnode, hw.lastWeight hlaid ha fun i o a t ht hlt =>
    hr _ (h.mem_regions hsize ht) hlt⟩

/-! ## Skipped closures -/

namespace Machine

lemma Run.of_append {newer older : List (Nat × Contents)} {pc pc' : Nat} {σ : Contents}
    (run : Run code (newer ++ (pc, σ) :: older) pc') : Run code older pc := by
  induction newer generalizing pc' with
  | nil =>
    cases run with
    | step run _ => exact run
  | cons x newer ih =>
    cases run with
    | step run _ => exact ih run

/-- In a run, the factor of a mix was found to have a value: the run executed a jump of the mix, the
slot that the jump looks at held the value then, and it was last written with the factor. -/
def FindsFactor (ctx : SectionContext) (lines : List Line) (code : Array Instruction)
    (past : List (Nat × Contents)) (m : NodeId) (value : Float32) : Prop :=
  ∃ newer σ older a o distance slot, past = newer ++ (position lines a, σ) :: older ∧
    lines[a]? = some (jumpLine m o distance slot) ∧ (σ slot == value) = true ∧
      Finds ctx lines code older m (.input 0, (slot, 1))

end Machine

/-- The factor with which a mix has nothing of a side. -/
def Side.absence : Side → Float32
  | .first => 1
  | .second => 0

lemma Side.jumps_jump (side : Side) {slot : Nat} (hslot : slot ≤ 255) (distance : Int32)
    (σ : Contents) :
    jumps σ (.op side.jump distance (slotWord slot) 0) side.jump = (σ slot == side.absence) := by
  cases side <;> simp [jumps, Side.jump, Instruction.op, Side.absence, offset_slotWord hslot]


/-- A closure that a run has passed without executing it was skipped by a mix: the run has found the
factor with which the mix has nothing of a side, and every closure path takes that side. -/
def Machine.SkipsByFactor (ctx : SectionContext) (root : NodeId) (lines : List Line)
    (code : Array Instruction) : Prop :=
  ∀ past pc, Run code past pc → ∀ q line, lines[q]? = some line → line.effect = .closure →
    position lines q < pc → (∀ σ, (position lines q, σ) ∉ past) →
      ∃ m side, ctx.graph.net.kind? m = some .mixClosure ∧
        FindsFactor ctx lines code past m side.absence ∧
          ∀ π, ctx.graph.net.ClosurePath root π line.node → (m, side) ∈ π

lemma Built.skipsByFactor (h : Built ctx root G code) (hv : ctx.net.Valid)
    (hsize : code.size < 2 ^ 31) : SkipsByFactor ctx root G.lines code := by
  intro past pc run q line hl hc hq hskipped
  have hlaid := h.laid hsize
  obtain ⟨p, rfl, ha⟩ := run.along hlaid
  have hqp : q < p := by
    by_contra hle
    obtain rfl | hlt := Nat.eq_or_lt_of_le (Nat.le_of_not_lt hle)
    · exact lt_irrefl _ hq
    · exact lt_asymm hq (position_lt h.words_ne_nil hlt (List.getElem?_eq_some_iff.1 hl).1.le)
  obtain ⟨σ, hσ⟩ | ⟨a, t, i, o, σ, hσ, ht, hjumps, haq, hqt, _⟩ := ha.skipped q hqp
  · exact absurd hσ (hskipped σ)
  obtain ⟨m, side, slot, hk, hslot, hline, hpaths⟩ := (h.regions _ (h.mem_regions hsize ht)).jump
  refine ⟨m, side, hk, ?_, hpaths q line haq hqt hl hc⟩
  obtain ⟨l, hl', hd⟩ := ht.line
  obtain rfl := Option.some.inj (hl'.symm.trans hline)
  obtain rfl : _ = i := Option.some.inj hd.head
  obtain rfl : side.jump = o := Option.some.inj ((Opcode.ofWord?_word _).symm.trans hd.opcode)
  rw [Side.jumps_jump side hslot.le] at hjumps
  obtain ⟨newer, older, rfl⟩ := List.append_of_mem hσ
  refine ⟨newer, σ, older, a, _, _, slot, rfl, hline, hjumps, ?_⟩
  -- The mix is on a closure path to the closure, so what it reads does not depend on a jump.
  obtain ⟨_, π, hπ⟩ := h.exists_closurePath hl hc
  have huse := ofUse_of_mem_closurePath hv hπ (hpaths q line haq hqt hl hc π hπ)
  obtain ⟨a', hpos, halong⟩ := run.of_append.along hlaid
  obtain rfl := position_inj h.words_ne_nil (ht.later.le.trans ht.inside) halong.inside hpos
  exact h.finds hsize halong hline huse (mem_placed.2 ⟨hslot.ne, rfl⟩)

/-! ## Programs -/

namespace Shader

variable {s : Shader} {options : BytecodeOptions} {ids : AttributeIds} {e : EntryPoint}

/-- Every run of every compiled entry point finds what it reads, as far as the node that reads can
matter.  The section has a listing in which every output is written by one line only; whenever a run
comes to a line of a node that is fed to the terminal without an idle mix or sum in between, each
slot range that the line reads was last written by the line of the output that feeds the input, or
with the input's constant if nothing feeds it or the section ignores the link.  This holds for every
choice at every jump, as long as the distances of jumps fit into the words that hold them. -/
theorem exists_listing_alwaysFinds (hg : s.graph.Reached)
    (he : ((s.compileBytecode options ids).1.program.entries.get? e).isSome) :
    ∃ root o lines,
      s.prepare.graph.net.inputLinkByName? s.prepare.graph.output e.terminal = some (root, o) ∧
      ((s.compileBytecode options ids).1.program.code e).toList = lines.flatMap Line.words ∧
      (∀ l ∈ lines, Compiles (s.prepare.sectionContext options e) l) ∧
      (∀ (p q : Nat) (l m : Line) t r r', lines[p]? = some l → lines[q]? = some m →
        (Written.output t, r) ∈ l.writes → (Written.output t, r') ∈ m.writes → p = q) ∧
      ((s.compileBytecode options ids).1.program.instructions.size < 2 ^ 31 →
        AlwaysFinds (s.prepare.sectionContext options e) root lines
          ((s.compileBytecode options ids).1.program.code e)) := by
  obtain ⟨root, o, G, hl, hbuilt⟩ := exists_built hg he
  exact ⟨root, o, G.lines, hl, hbuilt.text.words, hbuilt.text.compiles,
    fun _ _ _ _ _ _ _ hp hq => hbuilt.text.once hp hq,
    fun hsize => hbuilt.alwaysFinds ((Program.size_code_le _ e).trans_lt hsize)⟩

lemma rayMix_surface : ((rayMix.compileBytecode {} .empty).1.program.entries.get? .surface).isSome ∧
    (rayMix.compileBytecode {} .empty).1.program.instructions.size < 2 ^ 31 := by
  decide +kernel

/-- What runs of the mix by the kind of ray read. -/
theorem rayMix_alwaysFinds :
    rayMix.graph.Reached ∧
      ((rayMix.compileBytecode {} .empty).1.program.entries.get? .surface).isSome ∧
      ∃ root o lines,
        rayMix.prepare.graph.net.inputLinkByName? rayMix.prepare.graph.output "Surface" =
          some (root, o) ∧
        ((rayMix.compileBytecode {} .empty).1.program.code .surface).toList =
          lines.flatMap Line.words ∧
        AlwaysFinds (rayMix.prepare.sectionContext {} .surface) root lines
          ((rayMix.compileBytecode {} .empty).1.program.code .surface) := by
  obtain ⟨root, o, lines, hl, hwords, _, _, hfinds⟩ :=
    exists_listing_alwaysFinds Graph.rayMix_reached rayMix_surface.1
  exact ⟨Graph.rayMix_reached, rayMix_surface.1, root, o, lines, hl, hwords,
    hfinds rayMix_surface.2⟩

open Classical in
/-- No closure is lost, doubled or skipped without reason.  The section of an entry point has a
listing whose closures are those of the leaves to which closure paths lead from the terminal, one
line for each.  As long as the distances of jumps fit into the words that hold them, every run finds
what the lines read, takes each closure with the weight that its own node has set, and skips a
closure only by a mix on all of its closure paths whose factor the run has found to leave nothing of
the side that they take. -/
theorem exists_listing_skipsByFactor (hg : s.graph.Reached)
    (he : ((s.compileBytecode options ids).1.program.entries.get? e).isSome) :
    let ctx := s.prepare.sectionContext options e
    let program := (s.compileBytecode options ids).1.program
    ∃ root o lines,
      s.prepare.graph.net.inputLinkByName? s.prepare.graph.output e.terminal = some (root, o) ∧
      (program.code e).toList = lines.flatMap Line.words ∧ (∀ l ∈ lines, Compiles ctx l) ∧
      (∀ (p q : Nat) (l m : Line) t r r', lines[p]? = some l → lines[q]? = some m →
        (Written.output t, r) ∈ l.writes → (Written.output t, r') ∈ m.writes → p = q) ∧
      (∀ n, lines.countP (fun l => l.node = n ∧ l.effect = .closure) =
        if ctx.IsLeaf n ∧ ∃ π, s.prepare.graph.net.ClosurePath root π n then 1 else 0) ∧
      (program.instructions.size < 2 ^ 31 →
        AlwaysFinds ctx root lines (program.code e) ∧
        AlwaysWeighs ctx lines (program.code e) ∧
        SkipsByFactor ctx root lines (program.code e)) := by
  intro ctx program
  obtain ⟨root, o, G, hl, hbuilt⟩ := exists_built hg he
  refine ⟨root, o, G.lines, hl, hbuilt.text.words, hbuilt.text.compiles,
    fun _ _ _ _ _ _ _ hp hq => hbuilt.text.once hp hq, hbuilt.closures, fun hlt => ?_⟩
  have hsize := (Program.size_code_le program e).trans_lt hlt
  have hv := (sound_prepare hg).valid
  exact ⟨hbuilt.alwaysFinds hsize, hbuilt.alwaysWeighs hv hsize, hbuilt.skipsByFactor hv hsize⟩

open Classical in
/-- The closures of the mix by the kind of ray. -/
theorem rayMix_skipsByFactor :
    rayMix.graph.Reached ∧
      ((rayMix.compileBytecode {} .empty).1.program.entries.get? .surface).isSome ∧
      let ctx := rayMix.prepare.sectionContext {} .surface
      let code := (rayMix.compileBytecode {} .empty).1.program.code .surface
      ∃ root o lines,
        rayMix.prepare.graph.net.inputLinkByName? rayMix.prepare.graph.output "Surface" =
          some (root, o) ∧
        code.toList = lines.flatMap Line.words ∧ (∀ l ∈ lines, Compiles ctx l) ∧
        (∀ n, lines.countP (fun l => l.node = n ∧ l.effect = .closure) =
          if ctx.IsLeaf n ∧ ∃ π, rayMix.prepare.graph.net.ClosurePath root π n then 1 else 0) ∧
        AlwaysFinds ctx root lines code ∧ AlwaysWeighs ctx lines code ∧
          SkipsByFactor ctx root lines code := by
  obtain ⟨root, o, lines, hl, hwords, hcompiles, _, hcount, hruns⟩ :=
    exists_listing_skipsByFactor Graph.rayMix_reached rayMix_surface.1
  exact ⟨Graph.rayMix_reached, rayMix_surface.1, root, o, lines, hl, hwords, hcompiles, hcount,
    hruns rayMix_surface.2⟩

end Shader

end Shading
