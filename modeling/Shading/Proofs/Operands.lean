import Shading.Proofs.Extent

/-!
# The operands of a node's instructions

Every kind of node is put together from steps that assign slots to its sockets, and instructions
whose operands are these slots.  The sizes that the machine reads off an instruction are those of
the sockets, and what always has a result gets slots for it.  So the kinds are gone through once,
for all properties of steps that pass on along the slots that are held (`Fitting.emitNode`).

One such property is that operands are below the peak.  For scripts this is only so if no vector is
hidden behind a number of the same name.
-/

namespace Shading

open Emit SectionContext Machine

/-! ## Destinations -/

/-- Where an instruction puts its result, if it always has one. -/
def Machine.destination? (i : Instruction) (data : List Instruction) : Opcode → Option SlotRange
  | .valueF | .lightPath => some (offset i.w2, 1)
  | .valueV => some (offset i.w1, 3)
  | .attr => some (offset i.w2, if i.w3 = narrowRead then 1 else 3)
  | .geometry => some (offset i.w2, if i.w1 = 3 then 1 else 3)
  | .texCoord | .bumpFromDisplacement | .displacement => some (offset i.w2, 3)
  | .math => some (offset i.w3, 1)
  | .mix => (data[0]?).map fun second => (offset second.w3, 3)
  | .setBump => some (offset i.w3, 3)
  | _ => none

attribute [local simp] ranges access Instruction.op SlotRange.Below.word

variable {ctx : SectionContext} {id : NodeId} {k : NodeKind} {node : Node} {α β : Type}
  {source : ScriptSource}

/-! ## Instructions between slots -/

/-- A run of slots that is held, and whether it was taken for a result. -/
abbrev Held := SlotRange × Bool

variable {l : List Held} {o : Opcode} {a b c : Int32} {words : List Instruction} {slot size : Nat}

/-- A result goes to slots that were taken for it. -/
def Goes (l : List Held) (destination : Option SlotRange) : Prop :=
  ∀ r, destination = some r → ∃ x, (x, true) ∈ l ∧ r = (offset (slotWord x.1), x.2)

lemma goes_none : Goes l none := fun _ h => absurd h (Option.some_ne_none _).symm

lemma goes_some (h : ((slot, size), true) ∈ l) : Goes l (some (offset (slotWord slot), size)) :=
  fun _ hr => ⟨_, h, (Option.some.inj hr).symm⟩

/-- An instruction with its data, whose operands are among the slots that are held. -/
inductive Fits (l : List Held) : List Instruction → Prop
  | op {o : Opcode} {a b c : Int32} {data : List Instruction} (ho : o.isInner = true)
      (hw : data.length + 1 = width (.op o a b c) o)
      (hd : Goes l (destination? (.op o a b c) data o))
      (hin : ∀ p, p ≤ Stack.size → Inside p (l.map Prod.fst) →
        Inside p (ranges (.op o a b c) data o)) : Fits l (.op o a b c :: data)

/-- What is asked of the machine goes to the slots that were taken for it. -/
lemma Query.fits (h : Query words slot size) (hl : ((slot, size), true) ∈ l) : Fits l words := by
  have hbelow : ∀ p, p ≤ Stack.size → Inside p (l.map Prod.fst) →
      SlotRange.Below p (offset (slotWord slot), size) :=
    fun p hp hin => (hin _ (List.mem_map.2 ⟨_, hl, rfl⟩)).word hp
  cases h with
  | vector w =>
    refine .op rfl rfl (goes_some hl) fun p hp hin => ?_
    simpa [show wideRead ≠ narrowRead by decide] using hbelow p hp hin
  | number w => exact .op rfl rfl (goes_some hl) fun p hp hin => by simpa using hbelow p hp hin
  | @geometry _ query hq =>
    have hne : Int32.ofNat query ≠ 3 := by interval_cases query <;> decide
    refine .op rfl rfl ?_ fun p hp hin => by simpa [hne] using hbelow p hp hin
    simpa [destination?, hne] using goes_some hl
  | backfacing =>
    refine .op rfl rfl (goes_some hl) fun p hp hin => ?_
    simpa [show Int32.ofNat 3 = 3 by decide] using hbelow p hp hin
  | lightPath w => exact .op rfl rfl (goes_some hl) fun p hp hin => by simpa using hbelow p hp hin
  | coordinate w => exact .op rfl rfl (goes_some hl) fun p hp hin => by simpa using hbelow p hp hin
  | transformed w hrows =>
    refine .op rfl ?_ (goes_some hl) fun p hp hin => by simpa using hbelow p hp hin
    rw [hrows]
    rfl

/-! ## Steps between slots -/

/-- A property of steps that passes on along slots: what is known of some runs when a step begins,
and of others when it ends.  The steps are those that nodes of a kind are put together from. -/
structure Fitting (ctx : SectionContext) (id : NodeId) (k : NodeKind)
    (P : (α : Type) → List Held → Emit α → (α → List Held) → Prop) : Prop where
  pure : ∀ {α l} {a : α} {Q}, Q a ⊆ l → P α l (Pure.pure a) Q
  bind : ∀ {α β l} {m : Emit α} {f : α → Emit β} {Q R}, P α l m Q → (∀ a, P β (Q a ++ l) (f a) R) →
    P β l (m >>= f) R
  weaken : ∀ {α l l'} {m : Emit α} {Q}, P α l m Q → l ⊆ l' → P α l' m Q
  /-- What is nowhere has any size. -/
  nowhere : ∀ {l size}, P Nat l (Pure.pure Stack.invalid) fun slot => [((slot, size), false)]
  input : ∀ {l name} (size : Nat) (_ : k.inputIs name size = true),
    P Nat l (ctx.assignInput id name) fun slot => [((slot, size), false)]
  output : ∀ {l name} (size : Nat) (_ : k.outputIs name size = true),
    P Nat l (ctx.assignOutput id name) fun slot => [((slot, size), true)]
  outputIfLinked : ∀ {l name} (size : Nat) (_ : k.outputIs name size = true),
    P Nat l (ctx.assignOutputIfLinked id name) fun slot => [((slot, size), false)]
  claim : ∀ {l size}, P Nat l (claim size) fun slot => [((slot, size), true)]
  release : ∀ {l} (offset size : Nat), P PUnit l (release offset size) fun _ => []
  weight : ∀ {l}, P Nat l closureWeight fun weight => [((weight, 1), false)]
  word : ∀ {l} (key : AttributeKey), P Int32 l (attributeWord key) fun _ => []
  pack : ∀ {β l R} {x y z w : Nat} {f : Int32 → Emit β}, (∀ word, byte word 0 = x ∧ byte word 1 = y ∧
    byte word 2 = z ∧ byte word 3 = w → P β l (f word) R) → P β l (pack x y z w >>= f) R
  emit : ∀ {l} {m : Emit PUnit} {form : List Instruction → Prop}, Appends m form →
    (∀ words, form words → Fits l words) → P PUnit l m fun _ => []

namespace Fitting

variable {P : (α : Type) → List Held → Emit α → (α → List Held) → Prop} {name : String}

lemma ite (_ : Fitting ctx id k P) {p : Prop} [Decidable p] {m m' : Emit α} {Q : α → List Held}
    (ht : p → P α l m Q) (hf : ¬ p → P α l m' Q) : P α l (if p then m else m') Q := by
  split
  · exact ht ‹_›
  · exact hf ‹_›

section

variable (h : Fitting ctx id k P)
include h

lemma done (x : α) : P α l (Pure.pure x) fun _ => [] := h.pure (List.nil_subset _)

lemma forIn {f : α → β → Emit (ForInStep β)} {xs : List α}
    (hf : ∀ x ∈ xs, ∀ y, P _ [] (f x y) fun _ => []) (y : β) :
    P β [] (ForIn.forIn xs y f) fun _ => [] := by
  induction xs generalizing y with
  | nil => exact h.done _
  | cons x xs ih =>
    rw [List.forIn_cons]
    refine h.bind (hf x List.mem_cons_self y) fun r => ?_
    cases r with
    | done y => exact h.done _
    | yield y => exact ih (fun x hx => hf x (List.mem_cons_of_mem _ hx)) y

lemma inputIfLinked (size : Nat) (hsize : k.inputIs name size = true) :
    P Nat l (ctx.assignInputIfLinked id name) fun slot => [((slot, size), false)] :=
  h.ite (fun _ => h.input size hsize) fun _ => h.nowhere

lemma op (ho : o.isInner = true) (hw : 1 = width (.op o a b c) o)
    (hd : Goes l (destination? (.op o a b c) [] o))
    (hin : ∀ p, p ≤ Stack.size → Inside p (l.map Prod.fst) → Inside p (ranges (.op o a b c) [] o)) :
    P PUnit l (op o a b c) fun _ => [] := by
  refine h.emit (Appends.push _) ?_
  rintro _ rfl
  exact .op ho hw hd hin

lemma data {i : Instruction} (ho : o.isInner = true) (hw : 2 = width (.op o a b c) o)
    (hd : Goes l (destination? (.op o a b c) [i] o))
    (hin : ∀ p, p ≤ Stack.size → Inside p (l.map Prod.fst) →
      Inside p (ranges (.op o a b c) [i] o)) :
    P PUnit l (Emit.op o a b c >>= fun _ => push i) fun _ => [] := by
  refine h.emit ((Appends.push _).bind (.push _)) ?_
  rintro _ rfl
  exact .op ho hw hd hin

/-! ### Quantities of the machine -/

lemma query {m : Emit PUnit} (hm : Appends m (Query · slot size))
    (hl : ((slot, size), true) ∈ l) : P PUnit l m fun _ => [] :=
  h.emit hm fun _ hq => hq.fits hl

/-- Asking for an output that something uses, before the rest. -/
lemma query_then (size : Nat) {m : Nat → Emit PUnit}
    (hm : ∀ slot, Appends (m slot) (Query · slot size)) {rest : PUnit → Emit β}
    (hrest : P β [] (rest ⟨⟩) fun _ => []) (hsize : k.outputIs name size = true) :
    P β [] (if ctx.isOutputLinked id name then
      ctx.assignOutput id name >>= fun slot => m slot >>= rest else rest ⟨⟩) fun _ => [] := by
  refine h.ite (fun _ => h.bind (h.output size hsize) fun slot => ?_) fun _ => hrest
  exact h.bind (h.query (hm slot) (by simp)) fun _ => h.weaken hrest (List.nil_subset _)

omit h in
lemma emitAttribute (h : Fitting ctx id (.namedAttribute name) P) :
    P Unit [] (ctx.emitAttribute id name) fun _ => [] := by
  refine h.bind (h.word _) fun word => h.bind (h.forIn (fun x hx _ => ?_) _) fun _ => h.done _
  have hx : ∃ size, (NodeKind.namedAttribute name).outputIs x.1 size = true ∧
      ∀ slot, Query [.op .attr word (slotWord slot) x.2] slot size := by
    simp only [List.mem_cons, List.not_mem_nil, or_false] at hx
    obtain rfl | rfl | rfl := hx
    · exact ⟨3, rfl, fun _ => .vector word⟩
    · exact ⟨3, rfl, fun _ => .vector word⟩
    · exact ⟨1, rfl, fun _ => .number word⟩
  obtain ⟨size, hsize, hquery⟩ := hx
  exact h.query_then size (fun slot => (Appends.push _).mono fun _ hw => hw ▸ hquery slot) (h.done _)
    hsize

lemma emitQueries {opcode : Opcode} {outputs : List String}
    (hq : ∀ x ∈ outputs.zipIdx, ∃ size, k.outputIs x.1 size = true ∧
      ∀ slot, Query [.op opcode (Int32.ofNat x.2) (slotWord slot) 0] slot size) :
    P Unit [] (ctx.emitQueries id opcode outputs) fun _ => [] := by
  refine h.bind (h.forIn (fun x hx _ => ?_) _) fun _ => h.done _
  obtain ⟨size, hsize, hquery⟩ := hq x hx
  exact h.query_then size (fun slot => (Appends.push _).mono fun _ hw => hw ▸ hquery slot) (h.done _)
    hsize

omit h in
lemma emitTextureCoordinate {dupli : Bool} {transform : Option Transform}
    (h : Fitting ctx id (.textureCoordinate dupli transform) P) :
    P Unit [] (ctx.emitTextureCoordinate id transform) fun _ => [] := by
  unfold SectionContext.emitTextureCoordinate
  refine h.query_then 3 (appends_emitGenerated ctx) ?_ rfl
  refine h.query_then 3 appends_coordinate ?_ rfl
  refine h.query_then 3 (appends_emitAttributeRead _) ?_ rfl
  refine h.ite (fun _ => h.bind (h.output 3 rfl) fun slot => ?_) fun _ => h.done _
  exact h.query (appends_object transform slot) (by simp)

/-! ### Textures -/

lemma assignCoordinate {fallback : Nat → Emit Unit}
    (hf : ∀ slot, Appends (fallback slot) (Query · slot 3))
    (hsize : k.inputIs "Vector" 3 = true) :
    P _ [] (ctx.assignCoordinate id fallback) fun c => [((c.1, 3), c.2)] := by
  refine h.ite (fun _ => h.bind (h.input 3 hsize) fun slot => h.pure (by simp)) fun _ => ?_
  refine h.bind h.claim fun slot => h.bind (h.query (hf slot) (by simp)) fun _ => ?_
  exact h.pure (by simp)

lemma releaseCoordinate (c : Nat × Bool) : P Unit l (releaseCoordinate c) fun _ => [] :=
  h.ite (fun _ => h.release _ _) fun _ => h.done _

omit h in
lemma emitImage {image : UInt32} {filename colorspace : String}
    (h : Fitting ctx id (.imageTexture image filename colorspace) P) :
    P Unit [] (ctx.emitImage id image colorspace) fun _ => [] := by
  refine h.bind (h.assignCoordinate (appends_emitAttributeRead _) rfl) fun coordinate => ?_
  refine h.bind (h.outputIfLinked 3 rfl) fun color => h.bind (h.outputIfLinked 1 rfl) fun alpha => ?_
  refine h.pack fun word hw => h.bind (h.op rfl rfl goes_none ?_) fun _ => h.releaseCoordinate _
  exact fun _ _ _ => by simp_all

omit h in
lemma emitChecker (h : Fitting ctx id .checkerTexture P) :
    P Unit [] (ctx.emitChecker id) fun _ => [] := by
  refine h.bind (h.assignCoordinate (appends_emitGenerated ctx) rfl) fun coordinate => ?_
  refine h.bind (h.input 3 rfl) fun color1 => h.bind (h.input 3 rfl) fun color2 =>
    h.bind (h.input 1 rfl) fun scale => h.bind (h.outputIfLinked 3 rfl) fun color =>
      h.bind (h.outputIfLinked 1 rfl) fun factor => ?_
  refine h.pack fun inputs hi => h.pack fun outputs ho => ?_
  refine h.bind (h.op rfl rfl goes_none ?_) fun _ => h.releaseCoordinate _
  exact fun _ _ _ => by simp_all

/-! ### Closures -/

lemma emitSetWeight (v : Vec3) : P Unit l (emitSetWeight v) fun _ => [] :=
  h.op rfl rfl goes_none fun _ _ _ => by simp_all

lemma emitClosureColor (hcolor : k.inputIs "Color" 3 = true) :
    P Unit [] (ctx.emitClosureColor id node) fun _ => [] := by
  refine h.ite (fun _ => h.bind (h.input 3 hcolor) fun color => ?_) fun _ => h.emitSetWeight _
  exact h.op rfl rfl goes_none fun _ _ _ => by simp_all

lemma assignParameter {name : Option String} (size : Nat)
    (hsize : name.all (k.inputIs · size) = true) :
    P Nat l (ctx.assignParameter id name) fun slot => [((slot, size), false)] := by
  cases name with
  | some name => exact h.input size hsize
  | none => exact h.nowhere

lemma emitBsdf (closure : ClosureType) {first second : Option String}
    (hcolor : k.inputIs "Color" 3 = true)
    (hnormal : k.inputIs "Normal" 3 = true)
    (hfirst : first.all (k.inputIs · 1) = true)
    (hsecond : second.all (k.inputIs · 3) = true) :
    P Unit [] (ctx.emitBsdf id node closure first second) fun _ => [] := by
  refine h.bind (h.emitClosureColor hcolor) fun _ => h.bind (h.inputIfLinked 3 hnormal)
    fun normal => h.bind (h.assignParameter 1 hfirst) fun slot1 =>
      h.bind (h.assignParameter 3 hsecond) fun slot2 => h.bind h.weight fun weight =>
        h.pack fun operands hw => ?_
  exact h.data rfl rfl goes_none fun _ _ _ => by simp_all

lemma emitEmission {o : Opcode} (ho : o = .closureEmission ∨ o = .closureBackground)
    (hcolor : k.inputIs "Color" 3 = true)
    (hstrength : k.inputIs "Strength" 1 = true) :
    P Unit [] (ctx.emitEmission id node o) fun _ => [] := by
  have hend : ∀ l, P Unit l (do Emit.op o (slotWord (← closureWeight)) 0 0) fun _ => [] := by
    intro l
    refine h.bind h.weight fun weight => ?_
    obtain rfl | rfl := ho
    all_goals exact h.op rfl rfl goes_none fun _ _ _ => by simp_all
  refine h.ite (fun _ => ?_) fun _ => h.bind (h.emitSetWeight _) fun _ => hend _
  refine h.bind (h.input 3 hcolor) fun color => h.bind (h.input 1 hstrength) fun strength => ?_
  exact h.bind (h.op rfl rfl goes_none fun _ _ _ => by simp_all) fun _ => hend _

lemma emitVolume (closure : ClosureType) {second : Option String}
    (hcolor : k.inputIs "Color" 3 = true)
    (hdensity : k.inputIs "Density" 1 = true)
    (hsecond : second.all (k.inputIs · 1) = true) :
    P Unit [] (ctx.emitVolume id node closure second) fun _ => [] := by
  refine h.bind (h.emitClosureColor hcolor) fun _ => h.bind (h.input 1 hdensity) fun density =>
    h.bind (h.assignParameter 1 hsecond) fun slot2 => h.bind h.weight fun weight =>
      h.pack fun operands hw => ?_
  exact h.op rfl rfl goes_none fun _ _ _ => by simp_all

end

/-! ### All kinds -/

/-- A bump that has its own result. -/
lemma emitBump {invert useObjectSpace : Bool} (h : Fitting ctx id (.bump invert useObjectSpace) P) :
    P Unit [] (do
      let normal ← ctx.assignInputIfLinked id "Normal"
      let distance ← ctx.assignInput id "Distance"
      let height ← ctx.assignInput id "Height"
      let strength ← ctx.assignInput id "Strength"
      let slot ← ctx.assignOutput id "Normal"
      let settings ← Emit.pack normal distance invert.toNat useObjectSpace.toNat
      let values ← Emit.pack height strength 0 0
      Emit.op .setBump settings values (slotWord slot)) fun _ => [] := by
  refine h.bind (h.inputIfLinked 3 rfl) fun normal => h.bind (h.input 1 rfl) fun distance =>
    h.bind (h.input 1 rfl) fun height => h.bind (h.input 1 rfl) fun strength =>
      h.bind (h.output 3 rfl) fun slot => h.pack fun settings hs => h.pack fun values hv => ?_
  exact h.op rfl rfl (goes_some (by simp)) fun _ _ _ => by simp_all

/-- What holds of steps between the slots of a node holds of the node.  Scripts do not have the
sockets of a kind, and a bump may pass on its normal. -/
theorem emitNode (hfit : ∀ {k}, node.kind = k → (k.isScript || k.special == .bump) = false →
      Fitting ctx id k P)
    (hbump : ∀ {invert space}, node.kind = .bump invert space →
      P Unit [] (ctx.emitBump id node invert space) fun _ => [])
    (hscript : ∀ {source}, node.kind = .script source →
      P Unit [] (ctx.emitScript id node) fun _ => []) :
    P Unit [] (ctx.emitNode id node) fun _ => [] := by
  unfold SectionContext.emitNode
  cases hk : node.kind with
  | output | mixClosure | addClosure => exact (hfit hk rfl).done _
  | value v =>
    have h := hfit hk rfl
    refine h.bind (h.output 1 rfl) fun slot => ?_
    exact h.op rfl rfl (goes_some (by simp)) fun _ _ _ => by simp_all
  | rgb color =>
    have h := hfit hk rfl
    refine h.bind (h.output 3 rfl) fun slot => ?_
    exact h.data rfl rfl (goes_some (by simp)) fun _ _ _ => by simp_all
  | math operation useClamp =>
    have h := hfit hk rfl
    refine h.bind (h.input 1 rfl) fun value1 => h.bind (h.input 1 rfl) fun value2 =>
      h.bind (h.output 1 rfl) fun slot => h.pack fun operands hw => ?_
    exact h.op rfl rfl (goes_some (by simp)) fun _ _ _ => by simp_all
  | vectorMath operation =>
    have h := hfit hk rfl
    refine h.bind (h.input 3 rfl) fun vector1 => h.bind (h.input 3 rfl) fun vector2 =>
      h.bind (h.outputIfLinked 1 rfl) fun value => h.bind (h.outputIfLinked 3 rfl) fun vector =>
        h.pack fun operands hw => ?_
    exact h.op rfl rfl goes_none fun _ _ _ => by simp_all
  | mixRgb blend useClamp =>
    have h := hfit hk rfl
    refine h.bind (h.input 1 rfl) fun factor => h.bind (h.input 3 rfl) fun color1 =>
      h.bind (h.input 3 rfl) fun color2 => h.bind (h.output 3 rfl) fun slot => ?_
    exact h.data rfl rfl (goes_some (by simp)) fun _ _ _ => by simp_all
  | namedAttribute name => exact (hfit hk rfl).emitAttribute
  | textureCoordinate dupli transform => exact (hfit hk rfl).emitTextureCoordinate
  | geometry =>
    refine (hfit hk rfl).emitQueries ?_
    simp only [List.zipIdx_cons, List.zipIdx_nil, List.forall_mem_cons]
    exact ⟨⟨3, rfl, fun _ => .geometry (by decide)⟩, ⟨3, rfl, fun _ => .geometry (by decide)⟩,
      ⟨3, rfl, fun _ => .geometry (by decide)⟩, ⟨1, rfl, fun _ => .backfacing⟩, by simp⟩
  | lightPath =>
    refine (hfit hk rfl).emitQueries ?_
    simp only [List.zipIdx_cons, List.zipIdx_nil, List.forall_mem_cons]
    exact ⟨⟨1, rfl, fun _ => .lightPath _⟩, ⟨1, rfl, fun _ => .lightPath _⟩,
      ⟨1, rfl, fun _ => .lightPath _⟩, by simp⟩
  | imageTexture slot filename colorspace => exact (hfit hk rfl).emitImage
  | checkerTexture => exact (hfit hk rfl).emitChecker
  | ambientOcclusion samples onlyLocal =>
    have h := hfit hk rfl
    refine h.bind (h.input 3 rfl) fun color => h.bind (h.input 1 rfl) fun distance =>
      h.bind (h.inputIfLinked 3 rfl) fun normal => h.bind (h.outputIfLinked 3 rfl) fun colorOut =>
        h.bind (h.outputIfLinked 1 rfl) fun factorOut => h.pack fun inputs hi =>
          h.pack fun outputs ho => ?_
    exact h.op rfl rfl goes_none fun _ _ _ => by simp_all
  | diffuseBsdf | glossyBsdf | transparentBsdf | subsurfaceScattering =>
    exact (hfit hk rfl).emitBsdf _ rfl rfl rfl rfl
  | emission => exact (hfit hk rfl).emitEmission (.inl rfl) rfl rfl
  | background => exact (hfit hk rfl).emitEmission (.inr rfl) rfl rfl
  | holdout =>
    have h := hfit hk rfl
    refine h.bind h.weight fun weight => h.bind (h.emitSetWeight _) fun _ => ?_
    exact h.op rfl rfl goes_none fun _ _ _ => by simp_all
  | absorptionVolume | scatterVolume => exact (hfit hk rfl).emitVolume _ rfl rfl rfl
  | mixClosureWeight =>
    have h := hfit hk rfl
    refine h.bind (h.input 1 rfl) fun factor => h.bind (h.input 1 rfl) fun weight =>
      h.bind (h.output 1 rfl) fun weight1 => h.bind (h.output 1 rfl) fun weight2 =>
        h.pack fun operands hw => ?_
    exact h.op rfl rfl goes_none fun _ _ _ => by simp_all
  | bump invert useObjectSpace => exact hbump hk
  | bumpFromDisplacement useObjectSpace =>
    have h := hfit hk rfl
    refine h.bind (h.input 3 rfl) fun displacement => h.bind (h.output 3 rfl) fun slot => ?_
    exact h.op rfl rfl (goes_some (by simp)) fun _ _ _ => by simp_all
  | displacement useObjectSpace =>
    have h := hfit hk rfl
    refine h.bind (h.input 1 rfl) fun height => h.bind (h.input 1 rfl) fun midlevel =>
      h.bind (h.input 1 rfl) fun scale => h.bind (h.inputIfLinked 3 rfl) fun normal =>
        h.bind (h.output 3 rfl) fun slot => h.pack fun operands hw => ?_
    exact h.op rfl rfl (goes_some (by simp)) fun _ _ _ => by simp_all
  | script source => exact hscript hk

end Fitting

/-! ## Operands below the peak -/

lemma yields_attributeWord {l : List SlotRange} (key : AttributeKey) :
    Yields ctx l (attributeWord key) fun _ => [] := by
  rintro s hs hl s rfl
  have hcalm : Calm s { s with ids := (s.ids.lookupKey key).2 } := .of_eq
  exact ⟨hcalm.lays hs, inside_nil⟩

/-- Operands are below the peak, if those that were held are. -/
lemma SectionContext.Regular.fitting (h : ctx.Regular id k) :
    Fitting ctx id k fun _ l m Q => Yields ctx (l.map Prod.fst) m fun a => (Q a).map Prod.fst where
  pure hQ := .pure fun p hp r hr => hp r (List.map_subset _ hQ hr)
  bind hm hf := hm.bind fun a => by
    rw [← List.map_append]
    exact hf a
  weaken hm hl := hm.weaken (List.map_subset _ hl)
  nowhere := .pure fun p _ => by simpa using SlotRange.below_invalid p _
  input := h.input
  output := h.output
  outputIfLinked size hsize := .ite (fun _ => h.output size hsize) fun _ =>
    .pure fun p _ => by simpa using SlotRange.below_invalid p size
  claim := yields_claim _
  release := yields_release
  weight := yields_closureWeight
  word := yields_attributeWord
  pack := .pack_bind
  emit hm hform := hm.yields_structured fun words p hform' hp hl => by
    cases hform words hform' with
    | op ho hw hd hin => exact structured_op ho hw fun _ => hin p hp hl

/-- An output that passes on what feeds an input. -/
lemma SectionContext.Regular.shareOutput (h : ctx.Regular id k) {input output : String} (size : Nat)
    (hin : k.inputIs input size = true) (hout : k.outputIs output size = true) :
    Yields ctx [] (ctx.shareOutput id input output) fun _ => [] := by
  refine .ofGraph_bind fun r hr => .get_bind fun s _ => ⟨[], inside_nil, ?_⟩
  refine .ite (fun _ => .pure fun _ _ => inside_nil) fun _ => .ofGraph_bind fun x hx => ?_
  obtain ⟨o, ty⟩ := r
  obtain ⟨i, ty'⟩ := x
  refine .get_bind fun t ht => ?_
  cases hl : ctx.link? id i with
  | none => exact ⟨[], inside_nil, .throw _⟩
  | some source =>
    rw [Option.bind_some]
    cases hget : t.outputSlots.get? source with
    | none => exact ⟨[], inside_nil, .throw _⟩
    | some slot =>
      have hslot : SlotRange.Below _ (slot, ctx.outputSize source) :=
        ht.outputs _ (SlotTable.mem_of_get? hget)
      have hroom := h.shrinks (h.inputSize_of hin hx) hl
      refine ⟨[(slot, size)], by simpa using hslot.shrink hroom, ?_⟩
      refine .slotSize_bind fun n _ => (yields_read _ _).bind fun _ => ?_
      refine Yields.bind (.calm fun _ => .of_eq) fun _ => ?_
      refine yields_setOutputSlot ?_
      rw [outputSize_of_form h.form hout hr]
      simp

/-! ### Scripts -/

/-- The slot of an output of a script holds a number, and a vector as well if none is hidden. -/
lemma exists_size_of_script (hn : ctx.net.node? id = some node)
    (hk : node.kind = .script source) {x : Output} (hx : x ∈ node.outputs)
    (hvec : x.ty.isVec3 = true) (hlinked : ctx.isOutputLinked id x.name = true) :
    ∃ size, (∀ o ty, ctx.graph.requireOutput id x.name = .ok (o, ty) →
      ctx.outputSize (id, o) = 0 ∨ 0 < size ∧ size ≤ ctx.outputSize (id, o)) ∧
        (ctx.graph.Unshadowed → size = 3) := by
  by_cases hfree : ctx.graph.Unshadowed
  · refine ⟨3, fun o ty hr => ?_, fun _ => rfl⟩
    obtain ⟨_, hn', hidx, hty⟩ := Graph.requireOutput_eq_ok hr
    obtain rfl := Option.some.inj (hn.symm.trans hn')
    obtain ⟨y, hy, rfl⟩ := Option.map_eq_some_iff.1 hty
    have hfeeds : ctx.net.isOutputLinked id o = true := by
      simpa [isOutputLinked, hn, hidx] using hlinked
    have hne : y.ty.stackSize? ≠ some 1 := by
      intro hone
      have hhides : ctx.graph.hidesVector id node = true := by
        simp only [Graph.hidesVector, hk, NodeKind.isScript, Bool.true_and, List.any_eq_true]
        exact ⟨x, hx, by simp [hvec, hidx, hfeeds, hy, hone]⟩
      have := hfree id (Network.mem_ids.2 ⟨node, hn⟩)
      rw [hn, Option.any_some, hhides] at this
      cases this
    rw [outputSize, hn, Option.bind_some, hy, Option.bind_some]
    cases hsize : y.ty <;> simp_all [SocketType.stackSize?]
  · exact ⟨1, fun o ty _ => by omega, fun h => absurd h hfree⟩

lemma yields_emitScript (hn : ctx.net.node? id = some node)
    (hk : node.kind = .script source) : Yields ctx [] (ctx.emitScript id node) fun _ => [] := by
  refine Yields.bind (.forIn (fun x hx _ => ?_) _) fun _ => .pure fun _ _ => inside_nil
  refine .ite (fun hlinked => ?_) fun _ => .pure fun _ _ => inside_nil
  by_cases hvec : x.ty.isVec3 = true
  · obtain ⟨size, hsize, hwide⟩ := exists_size_of_script hn hk hx hvec hlinked
    refine (yields_assignOutput size hsize).bind fun slot => ?_
    rw [if_pos hvec]
    have hdata : Yields ctx ([(slot, size)] ++ [])
        (op .valueV (slotWord slot) 0 0 >>= fun _ => push (.vec3 Vec3.zero)) fun _ => [] := by
      refine ((Appends.push _).bind (.push _)).yields_structured ?_
      rintro _ p rfl hp hl
      refine structured_op rfl rfl fun hv => ?_
      obtain rfl := hwide (hv ⟨rfl, rfl⟩)
      simp_all
    have hall := hdata.bind (f := fun _ => Pure.pure (ForInStep.yield PUnit.unit))
      (R := fun _ => []) fun _ => .pure fun _ _ => inside_nil
    rwa [bind_assoc] at hall
  · refine (yields_assignOutput 1 fun o ty _ => by omega).bind fun slot => ?_
    rw [if_neg hvec]
    refine Yields.bind (yields_op rfl rfl fun p hp hl => ?_) fun _ => .pure fun _ _ => inside_nil
    simp_all

/-! ### All kinds -/

/-- The instructions of a node are structured and have operands below the peak. -/
theorem yields_emitNode (hnet : ctx.net.Scripted) (hn : ctx.net.node? id = some node) :
    Yields ctx [] (ctx.emitNode id node) fun _ => [] := by
  have hr : ∀ {k}, node.kind = k → k.isScript = false → ctx.Regular id k := by
    rintro _ rfl hs
    exact regular_of_scripted hnet hn hs
  refine Fitting.emitNode (fun hk hs => (hr hk (Bool.or_eq_false_iff.1 hs).1).fitting) ?_
    fun hk => yields_emitScript hn hk
  intro invert space hk
  have h := hr hk rfl
  exact .ite (fun _ => h.shareOutput 3 rfl rfl) fun _ => h.fitting.emitBump

end Shading
