import Shading.Proofs.Assignment

/-!
# Emitting one node

Each kind of node asks for its operands in an order of its own and then appends its lines.  The
kinds are gone through one by one, put together from the steps of `Shading.Proofs.Assignment`
(`Job.At.emits`): the node reads what it should, writes its outputs and nothing else, asks for all
outputs that take slots, and appends one closure if its kind is a closure.  Afterwards slots are
given back, and the section is at rest again with one more node done.
-/

namespace Shading

open Emit SectionContext Instruction List NodeKind

variable {words : List Instruction} {space invert : Bool} {writes : List (Written × SlotRange)}
  {reads : List (Operand × SlotRange)} {m : Nat → Emit PUnit}

/-- Whether the outputs of a kind that take slots are among the given ones. -/
def NodeKind.offersOnly (k : NodeKind) (A : List Nat) : Bool :=
  k.outputs.zipIdx.all fun x => x.1.ty.stackSize?.getD 0 == 0 || A.contains x.2

lemma NodeKind.offersOnly_mono {k : NodeKind} {A A' : List Nat} (h : k.offersOnly A = true)
    (hA : A ⊆ A') : k.offersOnly A' = true := by
  refine all_eq_true.2 fun x hx => ?_
  have := all_eq_true.1 h x hx
  simp only [Bool.or_eq_true, beq_iff_eq, contains_iff_mem] at this ⊢
  exact this.imp_right fun h => hA h

/-- A node has been emitted, with the effects `c`: all its outputs that take slots were asked for. -/
def Emitted (j : Job) (weight : Nat) (T : List (Written × SlotRange)) (c : List Effect)
    (s : SectionState) : Prop :=
  ∃ A R, (∀ k, j.ctx.graph.net.kind? j.id = some k → k.offersOnly A = true) ∧
    Mid j weight T A R [] c s

variable {j : Job} {weight : Nat} {T : List (Written × SlotRange)} {A : List Nat}
  {R : List (Operand × SlotRange)} {W : List (Nat × SlotRange)} {c : List Effect} {node : Node}
  {k : NodeKind}

lemma Mid.emitted {s : SectionState} (h : Mid j weight T A R [] c s)
    (hk : j.ctx.net.kind? j.id = some k) (hA : k.offersOnly A = true) :
    Emitted j weight T c s := by
  refine ⟨A, R, fun k' hk' => ?_, h⟩
  rw [hk] at hk'
  cases hk'
  exact hA

/-- The node of a job has a kind. -/
structure Job.At (j : Job) (node : Node) (k : NodeKind) : Prop where
  ready : j.Ready
  found : j.ctx.graph.net.node? j.id = some node
  kind : node.kind = k

lemma toNat_le_byte (b : Bool) : b.toNat ≤ 255 := (Bool.toNat_le b).trans (by decide)

lemma ClosureType.code_le (closure : ClosureType) : closure.code ≤ 255 := by
  cases closure <;> decide

namespace Job.At

variable {β : Type} {Q : β → SectionState → Prop} {name : String} {i o size : Nat} {f : Nat → Emit β}

section

variable (h : j.At node k)

include h

lemma kind? : j.ctx.net.kind? j.id = some k := h.kind ▸ Network.kind?_of_node? h.found

lemma owns (hk : ∀ invert space, k ≠ .bump invert space := by simp) : ¬ j.ctx.PassesOn j.id :=
  not_passesOn h.kind? hk

/-! ## What comes after a step -/

-- Of a given kind the sockets are found by evaluation.
lemma input (hf : ∀ slot, slot < Stack.size →
      Ensures (Mid j weight T A (reading i slot size ++ R) W c) (f slot) Q)
    (hin : k.HasInput name i size := by exact ⟨rfl, rfl, by decide⟩) :
    Ensures (Mid j weight T A R W c) (j.ctx.assignInput j.id name >>= f) Q :=
  (ensures_assignInput h.ready h.kind? hin).bind fun slot => .of_imp (hf slot)

lemma inputIfLinked (hf : ∀ slot, SlotIf (j.ctx.link? j.id i).isSome slot →
      Ensures (Mid j weight T A (reading i slot size ++ R) W c) (f slot) Q)
    (hin : k.HasInput name i size := by exact ⟨rfl, rfl, by decide⟩) :
    Ensures (Mid j weight T A R W c) (j.ctx.assignInputIfLinked j.id name >>= f) Q :=
  (ensures_assignInputIfLinked h.ready h.kind? hin).bind fun slot => .of_imp (hf slot)

section

variable (hf : ∀ slot, slot ≤ Stack.size →
    Ensures (Mid j weight T (o :: A) R (W ++ placed o slot size) c) (f slot) Q)
include hf

lemma output (hout : k.HasOutput name o size := by exact ⟨rfl, rfl, by decide⟩)
    (hA : o ∉ A := by simp) :
    Ensures (Mid j weight T A R W c) (j.ctx.assignOutput j.id name >>= f) Q :=
  (ensures_assignOutput h.ready h.kind? hout hA).bind fun slot => .of_imp fun hs => hf slot hs.le

lemma outputIfLinked (hout : k.HasOutput name o size := by exact ⟨rfl, rfl, by decide⟩)
    (hA : o ∉ A := by simp) :
    Ensures (Mid j weight T A R W c) (j.ctx.assignOutputIfLinked j.id name >>= f) Q :=
  (ensures_assignOutputIfLinked h.ready h.kind? hout hA).bind fun slot => .of_imp (hf slot)

end

/-- The last line of a node. -/
lemma last {m : Emit PUnit} {b : Effect} (hown : ¬ j.ctx.PassesOn j.id)
    (hm : Appends m (· = words)) (hc : Compiles j.ctx ⟨j.id, words, reads, writes⟩)
    (hr : reads ⊆ R := by grind) (hA : k.offersOnly A = true := by rfl)
    (hw : writes = W.map fun w => (Written.output (j.id, w.1), w.2) := by simp)
    (hb : Line.effect ⟨j.id, words, reads, writes⟩ = b := by rfl) (hne : b ≠ .jump := by decide) :
    Ensures (Mid j weight T A R W c) m fun _ => Emitted j weight T (b.add c) :=
  (ensures_line h.ready hown hm hc hb hr hw hne).post fun _ _ hs => hs.emitted h.kind? hA

end

lemma pack {P : SectionState → Prop} {x y z w : Nat} {f : Int32 → Emit β} (hx : x ≤ 255)
    (hy : y ≤ 255) (hz : z ≤ 255) (hw : w ≤ 255)
    (hf : ∀ word, pack? x y z w = some word → Ensures P (f word) Q) :
    Ensures P (pack x y z w >>= f) Q :=
  (ensures_pack hx hy hz hw).bind fun word => .of_imp (hf word)

end Job.At

/-! ## Closures -/

/-- The weight of the closure that is being emitted can be read, if it has a slot. -/
def HasWeight (j : Job) (node : Node) (weight : Nat) (R : List (Operand × SlotRange)) : Prop :=
  ∃ i, j.ctx.WeighsAt j.id node i weight ∧ reading i weight 1 ⊆ R

namespace Job.At

/-- The color of a closure, which is read or set. -/
lemma closureColor (h : j.At node k) {β : Type} {Q : β → SectionState → Prop} {f : PUnit → Emit β}
    (hf : Ensures (Mid j weight T A R [] (Effect.weight.add c)) (f ⟨⟩) Q)
    (hown : ¬ j.ctx.PassesOn j.id) (hc : k.isClosure = true := by rfl)
    (hk : k ∉ [.holdout, .emission, .background] := by simp)
    (hin : k.HasInput "Color" 0 3 := by exact ⟨rfl, rfl, by decide⟩) :
    Ensures (Mid j weight T A R [] c) (j.ctx.emitClosureColor j.id node >>= f) Q := by
  refine Triple.bind ?_ fun _ => hf
  unfold emitClosureColor
  rw [isLinked_eq h.ready h.kind? hin.1]
  refine .ite (fun hl => h.input (fun slot hslot => ?_) hin) fun hl => ?_
  · refine (ensures_line (b := .weight) h.ready hown (.push _) (.color h.kind? hc hl hslot) rfl
      (subset_append_left _ _) rfl).post fun _ _ hs => hs.weaken (subset_append_right _ _)
  · simp only [mem_cons, not_mem_nil, or_false, not_or] at hk
    have hset : j.ctx.SetsColor j.id node (node.vec3 "Color") := by
      rw [SetsColor, h.kind, if_neg hk.1, if_neg (not_or.2 hk.2)]
      exact ⟨by simpa using hl, rfl⟩
    exact ensures_line h.ready hown (.push _) (.setWeight h.found (h.kind ▸ hc) hset) rfl
      (nil_subset _) rfl

/-- A closure with a roughness. -/
lemma scatter {closure : ClosureType} (h : j.At node k) (hw : HasWeight j node weight R)
    (hown : ¬ j.ctx.PassesOn j.id)
    (hc : (k, closure) ∈ [(.diffuseBsdf, .diffuse), (.glossyBsdf, .glossy)] := by simp)
    (hclosure : k.isClosure = true := by rfl) (hoffers : k.offersOnly [] = true := by rfl)
    (hk : k ∉ [.holdout, .emission, .background] := by simp)
    (hcolor : k.HasInput "Color" 0 3 := by exact ⟨rfl, rfl, by decide⟩)
    (hnormal : k.HasInput "Normal" 2 3 := by exact ⟨rfl, rfl, by decide⟩)
    (hrough : k.HasInput "Roughness" 1 1 := by exact ⟨rfl, rfl, by decide⟩) :
    Ensures (Mid j weight T [] R [] []) (j.ctx.emitBsdf j.id node closure (some "Roughness") none)
      fun _ => Emitted j weight T [.weight, .closure] := by
  obtain ⟨i, hi, hsub⟩ := hw
  refine h.closureColor ?_ hown hclosure hk hcolor
  refine h.inputIfLinked (fun n hn => h.input (fun r hr => .pure_bind ?_) hrough) hnormal
  refine (ensures_closureWeight (i := i) (by grind)).bind_eq ?_
  refine pack closure.code_le hr.le le_rfl hi.le fun w hw => ?_
  exact h.last (b := .closure) hown ((Appends.push _).bind (.push _))
    (.scatter h.found (h.kind ▸ hc) hr hn hi hw) (by grind) hoffers

/-- A closure that gives light.  Either way the weight is set before the closure, and nothing else
is read later. -/
lemma light {opcode : Opcode} (h : j.At node k) (hw : HasWeight j node weight R)
    (hown : ¬ j.ctx.PassesOn j.id)
    (hc : (k, opcode) ∈ [(.emission, .closureEmission), (.background, .closureBackground)] := by simp)
    (hop : opcode.effect = .closure := by rfl)
    (hclosure : k.isClosure = true := by rfl) (hoffers : k.offersOnly [] = true := by rfl)
    (hcolor : k.HasInput "Color" 0 3 := by exact ⟨rfl, rfl, by decide⟩)
    (hstrength : k.HasInput "Strength" 1 1 := by exact ⟨rfl, rfl, by decide⟩) :
    Ensures (Mid j weight T [] R [] []) (j.ctx.emitEmission j.id node opcode)
      fun _ => Emitted j weight T [.weight, .closure] := by
  have hkind : k = .emission ∨ k = .background := by grind
  obtain ⟨i, hi, hsub⟩ := hw
  have hlast : Ensures (Mid j weight T [] R [] [.weight])
      (closureWeight >>= fun w => op opcode (slotWord w) 0 0)
      fun _ => Emitted j weight T [.weight, .closure] := by
    refine (ensures_closureWeight hsub).bind_eq ?_
    refine h.last (b := .closure) hown (.push _)
      (.light h.found (h.kind ▸ mem_append_left [(_, _)] hc) hi) hsub hoffers rfl ?_
    simp [Line.effect, effect, Instruction.op, Opcode.ofWord?_word, hop]
  unfold emitEmission
  rw [isLinked_eq h.ready h.kind? hcolor.1, isLinked_eq h.ready h.kind? hstrength.1]
  refine .ite (fun hl => ?_) fun hl => ?_
  · refine h.input (fun a ha => h.input (fun b hb => ?_) hstrength) hcolor
    refine Triple.bind (ensures_line (b := .weight) h.ready hown (.push _)
      (.emissionWeight h.kind? hkind hl ha hb) rfl (by grind) rfl) fun _ => ?_
    exact .pre (fun s hs => hs.weaken (by grind)) hlast
  · have hset : j.ctx.SetsColor j.id node ((node.vec3 "Color").scale (node.float "Strength")) := by
      rw [SetsColor, h.kind, if_neg (by grind), if_pos hkind]
      simpa using hl
    exact Triple.bind (ensures_line (b := .weight) h.ready hown (.push _)
      (.setWeight h.found (h.kind ▸ hclosure) hset) rfl (nil_subset _) rfl) fun _ => hlast

/-- A transparent surface has no normal. -/
lemma isLinked_normal (h : j.At node .transparentBsdf) :
    j.ctx.isLinked j.id "Normal" = false := by
  have hidx : node.inputIndex? "Normal" = none := by
    rw [(h.ready.valid.standard h.found).inputIndex?, h.kind]
    rfl
  simp [isLinked, h.found, hidx]

end Job.At

/-! ## Quantities of the machine -/

lemma Query.effect {slot size : Nat} (h : Query words slot size)
    (n : NodeId) (reads : List (Operand × SlotRange)) (writes : List (Written × SlotRange)) :
    Line.effect ⟨n, words, reads, writes⟩ = .plain := by
  cases h <;> rfl

lemma appends_emitAttributeRead (key : AttributeKey) (slot : Nat) :
    Appends (emitAttributeRead key slot wideRead) (Query · slot 3) := by
  intro s
  exact ⟨_, s.code.push _, (s.ids.lookupKey key).2, .vector _, Array.toList_push, rfl⟩

lemma appends_emitGenerated (ctx : SectionContext) (slot : Nat) :
    Appends (ctx.emitGenerated slot) (Query · slot 3) := by
  unfold emitGenerated
  split
  · refine (Appends.push _).mono ?_
    rintro _ rfl
    exact .geometry (by decide : 0 < 3)
  · exact appends_emitAttributeRead _ _

lemma appends_coordinate (slot : Nat) :
    Appends (op .texCoord 0 (slotWord slot) 0) (Query · slot 3) := by
  refine (Appends.push _).mono ?_
  rintro _ rfl
  exact .coordinate 0

lemma appends_object (transform : Option Transform) (slot : Nat) : Appends (do
      op .texCoord 1 (slotWord slot) (boolWord transform.isSome)
      if let some t := transform then
        for row in t.rows.toList do
          push (vec4 row)) (Query · slot 3) := by
  cases transform with
  | none =>
    refine ((Appends.push _).bind .nil).mono ?_
    rintro _ rfl
    exact .coordinate 1
  | some t =>
    refine ((Appends.push _).bind ((Appends.forIn _ _).bind .nil)).mono ?_
    rintro _ rfl
    exact .transformed 1 (by simp)

lemma ensures_attributeWord (key : AttributeKey) :
    Ensures (Mid j weight T A R W c) (attributeWord key) fun _ => Mid j weight T A R W c := by
  refine .of_eq fun s hs => ?_
  exact ⟨Int32.ofNat (s.ids.lookupKey key).1, { s with ids := (s.ids.lookupKey key).2 }, rfl,
    hs.congr rfl rfl rfl (fun _ => rfl) rfl rfl rfl⟩

namespace Job.At

section

variable (h : j.At node k) {name : String}

include h

lemma isOutputLinked {o size : Nat} (hout : k.HasOutput name o size) :
    j.ctx.isOutputLinked j.id name = j.ctx.net.isOutputLinked j.id o :=
  isOutputLinked_eq h.ready h.kind? hout.1

lemma query {o size : Nat} (hm : ∀ slot, Appends (m slot) (Query · slot size))
    (hout : k.HasOutput name o size := by exact ⟨rfl, rfl, by decide⟩) (hA : o ∉ A := by simp)
    (hq : k.asksMachine = true := by rfl) :
    Ensures (Mid j weight T A R [] c) (j.ctx.assignOutput j.id name >>= m)
      fun _ => Mid j weight T (o :: A) R [] c := by
  obtain ⟨x, hx, hsize⟩ := Option.bind_eq_some_iff.1 hout.2.1
  refine h.output (fun slot hslot => ?_) hout hA
  exact ensures_appends h.ready (h.owns (by rintro _ _ rfl; cases hq)) (hm slot)
    (fun _ hw => .query h.kind? hq hx hsize hw hslot) (fun _ hw => hw.effect _ _ _)
    (nil_subset _) (by simp)

lemma query_then {o size : Nat} (hm : ∀ slot, Appends (m slot) (Query · slot size))
    {β : Type} {rest : PUnit → Emit β} {Q : β → SectionState → Prop}
    (hrest : Ensures (Mid j weight T (o :: A) R [] c) (rest ⟨⟩) Q)
    (hout : k.HasOutput name o size := by exact ⟨rfl, rfl, by decide⟩) (hA : o ∉ A := by simp)
    (hq : k.asksMachine = true := by rfl) :
    Ensures (Mid j weight T A R [] c)
      (if j.ctx.isOutputLinked j.id name then
        j.ctx.assignOutput j.id name >>= fun slot => m slot >>= rest
      else rest ⟨⟩) Q := by
  rw [h.isOutputLinked hout]
  refine .ite (fun _ => ?_) fun ho => .pre (fun s hs => hs.skip (by simpa using ho)) hrest
  rw [← bind_assoc]
  exact (h.query hm hout hA hq).bind fun _ => hrest

/-- A loop over outputs with different positions, each asked for if it feeds something. -/
lemma queries {β : Type} (l : List β) (name : β → String) (o size : β → Nat)
    (m : β → Nat → Emit PUnit) (hout : ∀ b ∈ l, k.HasOutput (name b) (o b) (size b))
    (hl : (l.map o).Nodup) (hA : ∀ b ∈ l, o b ∉ A)
    (hm : ∀ b ∈ l, ∀ slot, Appends (m b slot) (Query · slot (size b)))
    (hq : k.asksMachine = true := by rfl) :
    Ensures (Mid j weight T A R [] c)
      (ForIn.forIn l PUnit.unit fun b _ => do
        if j.ctx.isOutputLinked j.id (name b) then
          let slot ← j.ctx.assignOutput j.id (name b)
          m b slot
        Pure.pure (ForInStep.yield PUnit.unit))
      fun _ s => ∃ A', A ⊆ A' ∧ l.map o ⊆ A' ∧ Mid j weight T A' R [] c s := by
  induction l generalizing A with
  | nil => exact .pure fun s hs => ⟨A, fun _ h => h, by simp, hs⟩
  | cons b l ih =>
    obtain ⟨hb, hl⟩ := nodup_cons.1 hl
    have hrest := ih (A := o b :: A) (fun x hx => hout x (mem_cons_of_mem _ hx)) hl
      (fun x hx => by
        rw [mem_cons, not_or]
        exact ⟨fun e => hb (e ▸ mem_map_of_mem hx), hA x (mem_cons_of_mem _ hx)⟩)
      (fun x hx => hm x (mem_cons_of_mem _ hx))
    have hafter := hrest.post fun _ s ⟨A', hA', hl', hs⟩ =>
      (⟨A', fun x hx => hA' (mem_cons_of_mem _ hx),
        cons_subset.2 ⟨hA' mem_cons_self, hl'⟩, hs⟩ :
        ∃ A', A ⊆ A' ∧ (b :: l).map o ⊆ A' ∧ Mid j weight T A' R [] c s)
    rw [forIn_cons]
    refine Triple.bind (Q := fun r s => r = .yield PUnit.unit ∧
      Mid j weight T (o b :: A) R [] c s) ?_ fun r => .of_imp fun hr => by subst hr; exact hafter
    exact h.query_then (hm b mem_cons_self) (.pure fun s hs => ⟨rfl, hs⟩)
      (hout b mem_cons_self) (hA b mem_cons_self) hq

lemma emitQueries (opcode : Opcode) (outputs : List String) (size : Nat → Nat)
    (hout : ∀ b ∈ outputs.zipIdx, k.HasOutput b.1 b.2 (size b.2))
    (hm : ∀ b ∈ outputs.zipIdx, ∀ slot,
      Query [.op opcode (Int32.ofNat b.2) (slotWord slot) 0] slot (size b.2))
    (hoffers : k.offersOnly (range' 0 outputs.length) = true := by rfl)
    (hq : k.asksMachine = true := by rfl) :
    Ensures (Mid j weight T [] R [] []) (j.ctx.emitQueries j.id opcode outputs) fun _ =>
      Emitted j weight T [] := by
  have hloop : Ensures (Mid j weight T [] R [] []) _ _ :=
    h.queries outputs.zipIdx Prod.fst Prod.snd (fun b => size b.2)
      (fun b slot => op opcode (Int32.ofNat b.2) (slotWord slot) 0) hout ?_ (by simp)
      (fun b hb slot => (Appends.push _).mono fun _ h => h ▸ hm b hb slot) hq
  · refine hloop.bind fun _ => .pure fun _ ⟨A, _, hA, hs⟩ => ?_
    rw [zipIdx_map_snd] at hA
    exact hs.emitted h.kind? (offersOnly_mono hoffers hA)
  · rw [zipIdx_map_snd]
    exact nodup_range'

end

lemma emitAttribute {name : String} (h : j.At node (.namedAttribute name)) :
    Ensures (Mid j weight T [] R [] []) (j.ctx.emitAttribute j.id name) fun _ =>
      Emitted j weight T [] := by
  refine (ensures_attributeWord _).bind fun w => ?_
  have hloop : Ensures (Mid j weight T [] R [] []) _ _ :=
    h.queries [("Color", wideRead), ("Vector", wideRead), ("Fac", narrowRead)] Prod.fst
      (fun b => ["Color", "Vector", "Fac"].idxOf b.1) (fun b => if b.2 = narrowRead then 1 else 3)
      (fun b slot => op .attr w (slotWord slot) b.2) ?_ ?_ (by simp) ?_
  · refine hloop.bind fun _ => .pure fun _ ⟨A, _, hA, hs⟩ => ?_
    exact hs.emitted h.kind? (offersOnly_mono rfl hA)
  · simp only [forall_mem_cons]
    exact ⟨⟨rfl, rfl, by decide⟩, ⟨rfl, rfl, by decide⟩, ⟨rfl, rfl, by decide⟩, by simp⟩
  · decide
  · intro b hb slot
    refine (Appends.push _).mono ?_
    rintro _ rfl
    simp only [mem_cons, not_mem_nil, or_false] at hb
    obtain rfl | rfl | rfl := hb
    · exact .vector w
    · exact .vector w
    · exact .number w

lemma emitTextureCoordinate {dupli : Bool} {transform : Option Transform}
    (h : j.At node (.textureCoordinate dupli transform)) :
    Ensures (Mid j weight T [] R [] []) (j.ctx.emitTextureCoordinate j.id transform) fun _ =>
      Emitted j weight T [] := by
  have hobject : (textureCoordinate dupli transform).HasOutput "Object" 3 3 := ⟨rfl, rfl, by decide⟩
  unfold SectionContext.emitTextureCoordinate
  refine h.query_then (appends_emitGenerated j.ctx) ?_
  refine h.query_then appends_coordinate ?_
  refine h.query_then (appends_emitAttributeRead _) ?_
  rw [h.isOutputLinked hobject]
  refine .ite (fun _ => ?_) fun ho => .pure fun s hs =>
    (hs.skip (by simpa using ho)).emitted h.kind? rfl
  exact (h.query (appends_object transform) hobject).post fun _ _ hs => hs.emitted h.kind? rfl

/-! ## Textures -/

/-- The coordinate of a texture can be read afterwards.  If it was taken for the occasion, it is a
value outside the tables. -/
lemma coordinate (h : j.At node k) {fallback : Nat → Emit PUnit}
    (hf : ∀ slot, Appends (fallback slot) (Query · slot 3)) (ht : k.isTexture = true := by rfl)
    (hin : k.HasInput "Vector" 0 3 := by exact ⟨rfl, rfl, by decide⟩) :
    Ensures (Mid j weight T A R [] c) (j.ctx.assignCoordinate j.id fallback)
      fun p s => p.1 < Stack.size ∧
        Mid j weight (if p.2 then (.coordinate j.id, (p.1, 3)) :: T else T) A
          (placed (j.ctx.textureOperand j.id) p.1 3 ++ R) [] c s := by
  unfold assignCoordinate textureOperand
  rw [isLinked_eq h.ready h.kind? hin.1]
  refine .ite (fun hl => ?_) fun hl => ?_
  · rw [if_pos hl]
    exact (ensures_assignInput h.ready h.kind? hin).bind fun slot => .pure fun s hs => hs
  · rw [if_neg hl]
    refine .pre (fun s hs => ⟨trivial, hs⟩)
      ((ensures_claim (by decide) fun _ _ h => h).bind fun slot => ?_)
    refine (hf slot).ensures.bind fun _ => .pure ?_
    rintro _ ⟨s, words, code, ids, ⟨hfresh, _, hs⟩, hq, rfl, hcode⟩
    have hlt := hfresh.lt (Nat.succ_pos 2)
    exact ⟨hlt, hs.hold (by decide) hfresh (by simp) .coordinate (.coordinate h.kind? ht hq hlt.le)
      (hq.effect ..) ids hcode⟩

/-- The line of a texture, after which a coordinate that was taken for the occasion is given
back. -/
lemma texture (h : j.At node k) (p : Nat × Bool) {m : Emit PUnit}
    (hown : ¬ j.ctx.PassesOn j.id) (hm : Appends m (· = words))
    (hc : Compiles j.ctx ⟨j.id, words, reads, writes⟩) (hr : reads ⊆ R := by grind)
    (hA : k.offersOnly A = true := by rfl)
    (hw : writes = W.map fun w => (Written.output (j.id, w.1), w.2) := by simp)
    (hb : Line.effect ⟨j.id, words, reads, writes⟩ = .plain := by rfl) :
    Ensures (Mid j weight (if p.2 then (.coordinate j.id, (p.1, 3)) :: T else T) A R W c)
      (m >>= fun _ => releaseCoordinate p) fun _ => Emitted j weight T c := by
  refine Triple.bind (ensures_line h.ready hown hm hc hb hr hw) fun _ => ?_
  refine .ite (fun hp => ?_) fun hp => ?_
  · rw [if_pos hp]
    exact .modify fun s hs =>
      (hs.drop (fun k hk => Stack.count_release hk) rfl).emitted h.kind? hA
  · rw [if_neg hp]
    exact .pure fun s hs => hs.emitted h.kind? hA

/-! ## Bumps -/

/-- A bump without strength: its output shares the slots of the normal that feeds it. -/
lemma shareOutput (h : j.At node (.bump invert space)) (hpass : j.ctx.PassesOn j.id) :
    Ensures (Mid j weight T [] R [] []) (j.ctx.shareOutput j.id "Normal" "Normal") fun _ =>
      Emitted j weight T [] := by
  have hj := h.ready
  have hk := h.kind?
  have hin : (bump invert space).HasInput "Normal" 3 3 := ⟨rfl, rfl, by decide⟩
  have hout : (bump invert space).HasOutput "Normal" 0 3 := ⟨rfl, rfl, by decide⟩
  have hinsize := hin.inputSize hj.valid hk
  obtain ⟨t, ht, hstack⟩ := hout.requireOutput hj.valid hk
  obtain ⟨t', ht'⟩ := hin.requireInput hj.valid hk
  obtain ⟨source, hl⟩ : ∃ source, j.ctx.link? j.id 3 = some source := by
    obtain ⟨node, _, _, _, _, h⟩ := hpass
    simp only [Bool.and_eq_true] at h
    rw [isLinked_eq hj hk hin.1] at h
    exact Option.isSome_iff_exists.1 h.2
  have hsource : j.ctx.outputSize source = 3 := by
    rw [(source_of_link? hj.valid hl).1, hinsize]
  refine (ensures_ofGraph ht).bind_eq ?_
  refine .get_bind fun s hs => ?_
  have hnew := hs.unassigned hj (o := 0) not_mem_nil
  have hnone : s.outputSlots.get? (j.id, 0) = none := by
    by_contra h
    obtain ⟨slot, hslot⟩ := Option.ne_none_iff_exists'.1 h
    exact hnew _ (SlotTable.mem_of_get? hslot) rfl
  rw [hnone]
  refine (ensures_ofGraph ht').bind_eq ?_
  refine .get_bind ?_
  rintro s rfl
  obtain ⟨slot, hget⟩ := SlotTable.exists_get? (hs.holds.wanted _ (hj.wants hl (by omega)))
  have hmem := SlotTable.mem_of_get? hget
  rw [hl, Option.bind_some, hget]
  rw [slotSize, hstack]
  refine .pure_bind ?_
  obtain ⟨G, hG, htext, hslots, hR⟩ := hs.lines
  have howned := mem_owners_of_outputSlots (T := T) j.ctx hmem
  rw [hsource] at howned
  refine (ensures_read hslots howned).bind fun _ => .of_eq ?_
  rintro _ ⟨stack, hc, rfl⟩
  refine ⟨_, _, rfl, Mid.emitted (A := [0]) (R := []) ?_ hk rfl⟩
  refine ((hs.congr_stack hc).weaken (nil_subset _)).share hj hmem hpass hl (by omega)
    ?_ not_mem_nil fun k hk => ?_
  · rw [hout.outputSize hj.valid hk, hsource]
  · rw [hsource]
    exact Stack.count_addUser hk

/-! ## All kinds -/

/-- What emitting a node does, whatever its kind. -/
lemma emits (h : j.At node k) (hw : k.isClosure = true → HasWeight j node weight R) :
    Ensures (Mid j weight T [] R [] []) (j.ctx.emitNode j.id node) fun _ =>
      Emitted j weight T (if k.isClosure then [.weight, .closure] else []) := by
  rw [emitNode, h.kind]
  cases k with
  | output | mixClosure | addClosure => exact .pure fun s hs => hs.emitted h.kind? rfl
  | value v =>
    refine h.output fun slot hslot => ?_
    exact h.last (b := .plain) h.owns (.push _) (.value h.kind? hslot)
  | rgb v =>
    refine h.output fun slot hslot => ?_
    exact h.last (b := .plain) h.owns ((Appends.push _).bind (.push _)) (.rgb h.kind? hslot)
  | math f clamp =>
    refine h.input fun a ha => h.input fun b hb => h.output fun slot hslot => ?_
    refine pack ha.le hb.le (toNat_le_byte clamp) (by decide) fun w hw => ?_
    exact h.last (b := .plain) h.owns (.push _) (.math h.kind? hw hslot)
  | vectorMath f =>
    refine h.input fun a ha => h.input fun b hb => ?_
    refine h.outputIfLinked fun value hvalue => ?_
    refine h.outputIfLinked fun vector hvector => ?_
    refine pack ha.le hb.le hvalue hvector fun w hw => ?_
    exact h.last (b := .plain) h.owns (.push _) (.vectorMath h.kind? hw)
  | mixRgb blend clamp =>
    refine h.input fun f hf => h.input fun a ha => h.input fun b hb => ?_
    refine h.output fun slot hslot => ?_
    exact h.last (b := .plain) h.owns ((Appends.push _).bind (.push _))
      (.mixRgb h.kind? hf.le ha.le hb.le hslot)
  | namedAttribute => exact h.emitAttribute
  | textureCoordinate => exact h.emitTextureCoordinate
  | geometry =>
    refine h.emitQueries _ _ (fun q => if q = 3 then 1 else 3) ?_ ?_
    · simp only [zipIdx_cons, zipIdx_nil, forall_mem_cons]
      exact ⟨⟨rfl, rfl, by decide⟩, ⟨rfl, rfl, by decide⟩, ⟨rfl, rfl, by decide⟩,
        ⟨rfl, rfl, by decide⟩, by simp⟩
    · simp only [zipIdx_cons, zipIdx_nil, forall_mem_cons]
      exact ⟨fun _ => .geometry (by decide), fun _ => .geometry (by decide),
        fun _ => .geometry (by decide), fun _ => .backfacing, by simp⟩
  | lightPath =>
    refine h.emitQueries _ _ (fun _ => 1) ?_ fun _ _ _ => .lightPath _
    simp only [zipIdx_cons, zipIdx_nil, forall_mem_cons]
    exact ⟨⟨rfl, rfl, by decide⟩, ⟨rfl, rfl, by decide⟩, ⟨rfl, rfl, by decide⟩, by simp⟩
  | imageTexture image file space =>
    refine (h.coordinate (appends_emitAttributeRead _)).bind fun p => .of_imp fun hcoord => ?_
    refine h.outputIfLinked fun color hcolor => ?_
    refine h.outputIfLinked fun alpha halpha => ?_
    refine pack hcoord.le hcolor halpha (by split <;> split <;> decide) fun w hw => ?_
    exact h.texture p h.owns (.push _) (.image h.kind? hw)
  | checkerTexture =>
    refine (h.coordinate (appends_emitGenerated j.ctx)).bind fun p => .of_imp fun hcoord => ?_
    refine h.input fun a ha => h.input fun b hb => h.input fun d hd => ?_
    refine h.outputIfLinked fun color hcolor => ?_
    refine h.outputIfLinked fun factor hfactor => ?_
    refine pack hcoord.le ha.le hb.le hd.le fun w hw => ?_
    refine pack hcolor hfactor (by decide) (by decide) fun v hv => ?_
    exact h.texture p h.owns (.push _) (.checker h.kind? hw hv)
  | ambientOcclusion samples near =>
    refine h.input fun a ha => h.input fun b hb => h.inputIfLinked fun n hn => ?_
    refine h.outputIfLinked fun color hcolor => ?_
    refine h.outputIfLinked fun factor hfactor => ?_
    refine pack (toNat_le_byte near) ha.le hb.le hn.le fun w hw => ?_
    refine pack hcolor hfactor (by decide) (by decide) fun v hv => ?_
    exact h.last (b := .plain) h.owns (.push _) (.ambientOcclusion h.kind? hw hv)
  | mixClosureWeight =>
    refine h.input fun a ha => h.input fun b hb => ?_
    refine h.output fun first hfirst => ?_
    refine h.output fun second hsecond => ?_
    refine pack ha.le hb.le hfirst hsecond fun w hw => ?_
    exact h.last (b := .plain) h.owns (.push _) (.splitWeight h.kind? hw)
  | bump invert space =>
    refine .ite (fun hpass => ?_) fun hpass => ?_
    · exact h.shareOutput ⟨node, invert, space, h.found, h.kind, hpass⟩
    · have hown : ¬ j.ctx.PassesOn j.id := by
        rintro ⟨_, _, _, hn, _, hpass'⟩
        cases h.found.symm.trans hn
        exact hpass hpass'
      refine h.inputIfLinked fun n hn => h.input fun d hd => h.input fun a ha => ?_
      refine h.input fun b hb => h.output fun slot hslot => ?_
      refine pack hn.le hd.le (toNat_le_byte invert) (toNat_le_byte space) fun w hw => ?_
      refine pack ha.le hb.le (by decide) (by decide) fun v hv => ?_
      exact h.last (b := .plain) hown (.push _) (.bump h.kind? hw hv hslot)
  | bumpFromDisplacement space =>
    refine h.input fun d hd => h.output fun slot hslot => ?_
    exact h.last (b := .plain) h.owns (.push _) (.bumpFromDisplacement h.kind? hd.le hslot)
  | displacement space =>
    refine h.input fun a ha => h.input fun b hb => h.input fun d hd => ?_
    refine h.inputIfLinked fun n hn => h.output fun slot hslot => ?_
    refine pack ha.le hb.le hd.le hn.le fun w hw => ?_
    exact h.last (b := .plain) h.owns (.push _) (.displacement h.kind? hw hslot)
  | diffuseBsdf | glossyBsdf => exact h.scatter (hw rfl) h.owns
  | emission | background => exact h.light (hw rfl) h.owns
  | holdout =>
    obtain ⟨i, hi, hsub⟩ := hw rfl
    refine (ensures_closureWeight hsub).bind_eq ?_
    have hset : j.ctx.SetsColor j.id node Vec3.one := (if_pos h.kind).mpr rfl
    refine Triple.bind (ensures_line (b := .weight) h.ready h.owns (.push _)
      (.setWeight h.found (h.kind ▸ rfl) hset) rfl (nil_subset _) rfl) fun _ => ?_
    exact h.last (b := .closure) h.owns (.push _) (.light h.found (by simp [h.kind]) hi)
  | transparentBsdf =>
    obtain ⟨i, hi, hsub⟩ := hw rfl
    refine h.closureColor ?_ h.owns
    rw [assignInputIfLinked, h.isLinked_normal]
    refine .pure_bind (.pure_bind (.pure_bind ?_))
    refine (ensures_closureWeight hsub).bind_eq ?_
    refine pack (ClosureType.code_le _) le_rfl le_rfl hi.le fun w hw => ?_
    exact h.last (b := .closure) h.owns ((Appends.push _).bind (.push _))
      (.transparent h.found h.kind hi hw)
  | subsurfaceScattering =>
    obtain ⟨i, hi, hsub⟩ := hw rfl
    refine h.closureColor ?_ h.owns
    refine h.inputIfLinked fun n hn => h.input fun a ha => h.input fun b hb => ?_
    refine (ensures_closureWeight (i := i) (by grind)).bind_eq ?_
    refine pack (ClosureType.code_le _) ha.le hb.le hi.le fun w hw => ?_
    exact h.last (b := .closure) h.owns ((Appends.push _).bind (.push _))
      (.subsurface h.found h.kind ha hb hn hi hw)
  | absorptionVolume =>
    obtain ⟨i, hi, hsub⟩ := hw rfl
    refine h.closureColor ?_ h.owns
    refine h.input fun a ha => .pure_bind ?_
    refine (ensures_closureWeight (i := i) (by grind)).bind_eq ?_
    refine pack (ClosureType.code_le _) ha.le le_rfl hi.le fun w hw => ?_
    exact h.last (b := .closure) h.owns (.push _) (.absorption h.found h.kind ha hi hw)
  | scatterVolume =>
    obtain ⟨i, hi, hsub⟩ := hw rfl
    refine h.closureColor ?_ h.owns
    refine h.input fun a ha => h.input fun b hb => ?_
    refine (ensures_closureWeight (i := i) (by grind)).bind_eq ?_
    refine pack (ClosureType.code_le _) ha.le hb.le hi.le fun w hw => ?_
    exact h.last (b := .closure) h.owns (.push _) (.volume h.found h.kind ha hb hi hw)
  | script source =>
    rw [emitScript, (h.ready.valid.standard h.found).outputs, h.kind]
    exact .pure fun s hs => hs.emitted h.kind? rfl

end Job.At

theorem ensures_emitNode (hj : j.Ready) (hn : j.ctx.net.node? j.id = some node)
    (hw : node.kind.isClosure = true → HasWeight j node weight R) :
    Ensures (Mid j weight T [] R [] []) (j.ctx.emitNode j.id node) fun _ =>
      Emitted j weight T (if node.kind.isClosure then [.weight, .closure] else []) :=
  Job.At.emits ⟨hj, hn, rfl⟩ hw

end Shading
