import Shading.Proofs.Groups

/-!
# Layers

For every node of a group the engine is told the parameters of a layer, then the layer, then what
feeds it.  `Mirrors` says that this is what the graph says about the node: every input that holds a
constant is bound once, every input that is fed is connected once, and nothing else is.

The names of the layers tell the nodes apart, and those of the parameters the inputs
(`NodeKind.nodup_names`).
-/

namespace Shading

open GroupContext List

variable {i : Nat} {input : Input} {x : Input × Nat} {value : Param}

variable {α β : Type} {ctx : GroupContext} {n : NodeId} {node : Node} {o : Nat}

/-! ## Parameters -/

/-- Whether the engine has parameters of the type that hold one element. -/
def SocketType.isElement : SocketType → Bool
  | .boolean | .float | .int | .color | .point | .vector | .normal | .point2 | .string | .enum
  | .transform => true
  | _ => false

/-- A value that fits a type of single elements travels as a consistent parameter. -/
lemma SocketValue.exists_toParam {ty : SocketType} {value : SocketValue}
    (hty : ty.isElement = true) (hv : value.fits ty = true) (name : String) :
    ∃ p, value.toParam name ty = .ok p ∧ p.isConsistent = true := by
  cases ty <;> first
    | exact absurd hty Bool.false_ne_true
    | cases value <;> first | exact ⟨_, rfl, rfl⟩ | cases hv

lemma NodeKind.isElement_of_mem_inputs {k : NodeKind} {i : Input} (hi : i ∈ k.inputs)
    (ht : i.ty ≠ .closure) : i.ty.isElement = true := by
  have key : (k.inputs.all fun i => i.ty == .closure || i.ty.isElement) = true := by
    cases k <;> rfl
  have := all_eq_true.1 key i hi
  simpa [ht] using this

def NodeKind.settingNames : NodeKind → List String
  | .value _ => ["value_value"]
  | .rgb _ => ["color_value"]
  | .math .. => ["math_type", "use_clamp"]
  | .vectorMath _ => ["math_type"]
  | .mixRgb .. => ["mix_type", "use_clamp"]
  | .namedAttribute _ => ["name"]
  | .textureCoordinate .. => ["is_background", "from_dupli", "use_transform", "object_itfm"]
  | .imageTexture .. => ["filename", "colorspace"]
  | .ambientOcclusion .. => ["samples", "only_local"]
  | .bump .. => ["invert", "use_object_space"]
  | .bumpFromDisplacement _ | .displacement _ => ["use_object_space"]
  | _ => []

def NodeKind.engineInputs (k : NodeKind) : List String :=
  k.inputs.map fun i => (Node.ofKind k).engineInput i.name

/-- No two parameters of a layer have one name. -/
lemma NodeKind.nodup_names (k : NodeKind) : (k.settingNames ++ k.engineInputs).Nodup := by
  refine of_decide_eq_true ?_
  cases k <;> rfl

/-! ## Names of layers -/

lemma eq_of_append_cons_eq {a : α} {l l' d d' : List α} (hd : a ∉ d) (hd' : a ∉ d')
    (h : l ++ a :: d = l' ++ a :: d') : d = d' := by
  obtain ⟨c, _, hc⟩ | ⟨c, _, hc⟩ := append_eq_append_iff.1 h
  · cases c with
    | nil => exact (cons.inj hc).2
    | cons x c => exact absurd (by simp [(cons.inj hc).2]) hd
  · cases c with
    | nil => exact (cons.inj hc).2.symm
    | cons x c => exact absurd (by simp [(cons.inj hc).2]) hd'

/-- A layer's name tells its node: the number stands behind the last underscore. -/
lemma Node.eq_of_layerName_eq {node node' : Node} {n n' : NodeId}
    (h : node.layerName n = node'.layerName n') : n = n' := by
  have hdigits : ∀ m : NodeId, (toString m).toList = Nat.toDigits 10 m := fun _ => Nat.toList_repr
  have hlist := congrArg String.toList h
  simp only [Node.layerName, String.toList_append, hdigits] at hlist
  rw [show "_".toList = ['_'] from rfl, append_assoc, append_assoc _ ['_']] at hlist
  have hsame := eq_of_append_cons_eq Nat.underscore_not_in_toDigits
    Nat.underscore_not_in_toDigits hlist
  rw [← Nat.ofDigitChars_ten_toDigits (n := n), hsame, Nat.ofDigitChars_ten_toDigits]

/-! ## Calls -/

def EngineCall.layer? : EngineCall → Option String
  | .shader _ _ layer => some layer
  | _ => none

/-- A group is being built. -/
abbrev GroupState.IsOpen (s : GroupState) : Prop := s.host.recorder.openGroup.isSome = true

/-- The call that binds a parameter. -/
abbrev parameterCall (p : String × Param) : EngineCall := .parameter p.1 p.2

/-! ### Constants -/

namespace GroupContext

/-- The parameter for the constant of an input that the group uses and that nothing feeds. -/
def constant? (ctx : GroupContext) (n : NodeId) (node : Node) (x : Input × Nat) :
    Option (String × Param) :=
  if x.1.ty = .closure || ctx.graph.net.isInputLinked n x.2 || ctx.skips n x.2 then none
  else (x.1.value.toParam (node.engineInput x.1.name) x.1.ty).toOption.map
    (node.engineInput x.1.name, ·)

def constants (ctx : GroupContext) (n : NodeId) (node : Node) : List (String × Param) :=
  node.inputs.zipIdx.filterMap (ctx.constant? n node)

end GroupContext

/-! ### Connections -/

/-- The connection for a link into a node. -/
def GroupContext.Connects (ctx : GroupContext) (n : NodeId) (node : Node)
    (link : Nat × NodeId × Nat) (call : EngineCall) : Prop :=
  ∃ input source result, node.inputs[link.1]? = some input ∧
    ctx.graph.net.node? link.2.1 = some source ∧ source.outputs[link.2.2]? = some result ∧
      call = .connect (source.layerName link.2.1) (source.engineOutput result.name)
        (node.layerName n) (node.engineInput input.name)

namespace GroupContext

def link? (ctx : GroupContext) (n : NodeId) (x : Input × Nat) : Option (Nat × NodeId × Nat) :=
  if ctx.skips n x.2 then none else (ctx.graph.net.inputLink? n x.2).map (x.2, ·)

def links (ctx : GroupContext) (n : NodeId) (node : Node) : List (Nat × NodeId × Nat) :=
  node.inputs.zipIdx.filterMap (ctx.link? n)

/-- The call that connects an input, if there is something to connect it to. -/
def connection? (ctx : GroupContext) (n : NodeId) (node : Node) (x : Input × Nat) :
    Option EngineCall := do
  let link ← ctx.link? n x
  let source ← ctx.graph.net.node? link.2.1
  let result ← source.outputs[link.2.2]?
  return .connect (source.layerName link.2.1) (source.engineOutput result.name)
    (node.layerName n) (node.engineInput x.1.name)

def connections (ctx : GroupContext) (n : NodeId) (node : Node) : List EngineCall :=
  node.inputs.zipIdx.filterMap (ctx.connection? n node)

end GroupContext

lemma link?_eq_some_iff {link : Nat × NodeId × Nat} :
    ctx.link? n x = some link ↔ ctx.skips n x.2 = false ∧ link.1 = x.2 ∧
      ctx.net.inputLink? n x.2 = some link.2 := by
  rw [link?]
  split
  · simp [*]
  · obtain ⟨i, l⟩ := link
    cases ctx.net.inputLink? n x.2 <;> simp [*, eq_comm]

/-- An input that is not skipped is there. -/
lemma exists_input_of_skips (hn : ctx.net.node? n = some node) (h : ctx.skips n i = false) :
    ∃ input, node.inputs[i]? = some input ∧ input.internal = false ∧
      (node.kind = .output → input.name = ctx.entry.terminal) := by
  rw [skips, hn] at h
  dsimp only at h
  cases hi : node.inputs[i]? with
  | none =>
    rw [hi] at h
    cases h
  | some input =>
    rw [hi] at h
    dsimp only at h
    split at h
    · cases h
    · rename_i hinternal
      refine ⟨input, rfl, Bool.eq_false_of_not_eq_true hinternal, fun hk => ?_⟩
      have hspecial : node.kind.special = .output := by rw [hk]; rfl
      simpa [hspecial] using h

lemma mem_links (hn : ctx.net.node? n = some node) {source : NodeId} :
    (i, source, o) ∈ ctx.links n node ↔
      ctx.skips n i = false ∧ ctx.net.inputLink? n i = some (source, o) := by
  rw [links, mem_filterMap]
  constructor
  · rintro ⟨x, _, hx⟩
    obtain ⟨hskip, rfl, hlink⟩ := link?_eq_some_iff.1 hx
    exact ⟨hskip, hlink⟩
  · rintro ⟨hskip, hlink⟩
    obtain ⟨input, hi, _⟩ := exists_input_of_skips hn hskip
    exact ⟨(input, i), mem_zipIdx_iff_getElem?.2 hi, link?_eq_some_iff.2 ⟨hskip, rfl, hlink⟩⟩

lemma nodup_links : (ctx.links n node).Nodup := by
  have hindex : node.inputs.zipIdx.Pairwise fun x y => x.2 ≠ y.2 := by
    rw [← pairwise_map, zipIdx_map_snd]
    exact nodup_range'
  refine hindex.filterMap _ fun x y hxy a ha b hb hab => hxy ?_
  obtain ⟨_, hi, _⟩ := link?_eq_some_iff.1 ha
  obtain ⟨_, hj, _⟩ := link?_eq_some_iff.1 hb
  rw [← hi, ← hj, hab]

/-- The output from which a link comes. -/
lemma Network.Valid.exists_output {net : Network} (hv : net.Valid) {d : NodeId}
    (hl : net.inputLink? n i = some (d, o)) :
    ∃ source result, net.node? d = some source ∧ source.outputs[o]? = some result := by
  obtain ⟨_, _, hout, _, _⟩ := hv.joins (Network.feeds_of_inputLink? hl)
  obtain ⟨k, result, hk, hresult, _⟩ := Network.outputType?_eq_some_iff.1 hout
  obtain ⟨source, hsource, rfl⟩ := Network.kind?_eq_some_iff.1 hk
  exact ⟨source, result, hsource, (hv.standard hsource).outputs ▸ hresult⟩

/-- In a valid network every link is connected. -/
lemma forall₂_connections (hv : ctx.net.Valid) :
    Forall₂ (ctx.Connects n node) (ctx.links n node) (ctx.connections n node) := by
  refine rel_filterMap (fun _ _ h => h) (forall₂_same.2 fun x hx => ?_)
  cases hlink : ctx.link? n x with
  | none =>
    rw [connection?, hlink]
    exact .none
  | some link =>
    obtain ⟨i, d, o⟩ := link
    obtain ⟨_, rfl, hl⟩ := link?_eq_some_iff.1 hlink
    obtain ⟨source, result, hsource, hresult⟩ := hv.exists_output hl
    have hcall : ctx.connection? n node x = some (.connect (source.layerName d)
        (source.engineOutput result.name) (node.layerName n) (node.engineInput x.1.name)) := by
      simp [connection?, hlink, hsource, hresult]
    rw [hcall]
    exact .some ⟨x.1, source, result, mem_zipIdx_iff_getElem?.1 hx, hsource, hresult, rfl⟩

/-! ## Layers -/

/-- What the engine is told about a node. -/
structure LayerRecord where
  node : NodeId
  parameters : List (String × Param)
  usage : ShaderUsage
  shader : String
  name : String
  /-- The links into the node that the group uses, with the inputs that they feed. -/
  links : List (Nat × NodeId × Nat)
  connections : List EngineCall

def LayerRecord.calls (l : LayerRecord) : List EngineCall :=
  l.parameters.map parameterCall ++ .shader l.usage l.shader l.name :: l.connections

/-- The calls for a node add one layer. -/
lemma LayerRecord.filterMap_calls {l : LayerRecord} (h : ∀ c ∈ l.connections, c.layer? = none) :
    l.calls.filterMap EngineCall.layer? = [l.name] := by
  have hparameters : (l.parameters.map parameterCall).filterMap EngineCall.layer? = [] := by
    simp [filterMap_map, Function.comp_def, EngineCall.layer?]
  rw [calls, filterMap_append, hparameters, filterMap_cons, filterMap_eq_nil_iff.2 h]
  rfl

/-- An input of which the group may bind the constant: none that is internal, and of an output node
only the group's own terminal. -/
def GroupContext.Admits (ctx : GroupContext) (node : Node) (input : Input) : Prop :=
  input.internal = false ∧ (node.kind = .output → input.name = ctx.entry.terminal)

/-- A layer is what the graph says about its node. -/
structure GroupContext.Mirrors (ctx : GroupContext) (l : LayerRecord) (node : Node) : Prop where
  found : ctx.graph.net.node? l.node = some node
  usage : l.usage = ctx.entry.usage
  shader : l.shader = node.kind.engineShader ctx.entry
  name : l.name = node.layerName l.node
  consistent : ∀ p ∈ l.parameters, p.2.isConsistent = true
  /-- No parameter is bound twice. -/
  nodup : (l.parameters.map Prod.fst).Nodup
  /-- The inputs that are bound are those that hold a constant. -/
  bound : ∀ i input, node.inputs[i]? = some input →
    (node.engineInput input.name ∈ l.parameters.map Prod.fst ↔ input.ty ≠ .closure ∧
      ctx.graph.net.inputLink? l.node i = none ∧ ctx.Admits node input)
  /-- They are bound to their constants. -/
  values : ∀ input ∈ node.inputs, ∀ value, (node.engineInput input.name, value) ∈ l.parameters →
    input.value.toParam (node.engineInput input.name) input.ty = .ok value
  nodup_links : l.links.Nodup
  links : ∀ i source o, (i, source, o) ∈ l.links ↔
    ctx.skips l.node i = false ∧ ctx.graph.net.inputLink? l.node i = some (source, o)
  /-- Every link is connected once, and nothing else is. -/
  connections : Forall₂ (ctx.Connects l.node node) l.links l.connections

/-! ### Names of parameters -/

def Node.engineInputs (node : Node) : List String :=
  node.inputs.map fun i => node.engineInput i.name

/-- What is kept of a list, each element as it would be of all of them. -/
lemma sublist_map_of_filterMap {f : α → Option β} {g : α → β}
    (h : ∀ x b, f x = some b → b = g x) (l : List α) : (l.filterMap f).Sublist (l.map g) := by
  induction l with
  | nil => exact .slnil
  | cons x l ih =>
    rw [filterMap_cons, map_cons]
    cases hx : f x with
    | none => exact ih.cons _
    | some b =>
      rw [h x b hx]
      exact ih.cons_cons _

lemma constant?_eq_some {p : String × Param} (h : ctx.constant? n node x = some p) :
    p.1 = node.engineInput x.1.name ∧ x.1.ty ≠ .closure ∧ ctx.net.inputLink? n x.2 = none ∧
      ctx.skips n x.2 = false ∧ x.1.value.toParam (node.engineInput x.1.name) x.1.ty = .ok p.2 := by
  rw [constant?] at h
  split at h
  · cases h
  · rename_i hused
    simp only [Bool.or_eq_true, decide_eq_true_eq, not_or, Network.isInputLinked, Bool.not_eq_true,
      Option.isSome_eq_false_iff, Option.isNone_iff_eq_none] at hused
    obtain ⟨⟨hty, hlink⟩, hskip⟩ := hused
    cases hparam : x.1.value.toParam (node.engineInput x.1.name) x.1.ty with
    | error e =>
      rw [hparam] at h
      cases h
    | ok value =>
      rw [hparam] at h
      cases h
      exact ⟨rfl, hty, hlink, hskip, rfl⟩

lemma sublist_constants : ((ctx.constants n node).map Prod.fst).Sublist node.engineInputs := by
  rw [constants, map_filterMap, Node.engineInputs]
  have hfst : node.inputs.map (fun i => node.engineInput i.name) =
      node.inputs.zipIdx.map fun x => node.engineInput x.1.name := by
    conv_lhs => rw [← zipIdx_map_fst 0 node.inputs, map_map]
    rfl
  rw [hfst]
  refine sublist_map_of_filterMap (fun x name hx => ?_) _
  obtain ⟨p, hp, rfl⟩ := Option.map_eq_some_iff.1 hx
  exact (constant?_eq_some hp).1

/-- An input that nothing feeds is used if it is admitted. -/
lemma skips_eq_false_iff (hn : ctx.net.node? n = some node)
    (hi : node.inputs[i]? = some input) (hl : ctx.net.inputLink? n i = none) :
    ctx.skips n i = false ↔ ctx.Admits node input := by
  constructor
  · intro h
    obtain ⟨input', hi', hadmits⟩ := exists_input_of_skips hn h
    cases hi.symm.trans hi'
    exact hadmits
  · rintro ⟨hinternal, hname⟩
    rw [skips, hn]
    dsimp only
    rw [hi]
    dsimp only
    rw [if_neg (by simp [hinternal]), hl]
    split
    · rename_i hspecial
      have hk : node.kind = .output := by
        cases hk : node.kind <;> rw [hk] at hspecial <;> first | rfl | cases hspecial
      simp [hname hk]
    · simp

variable {settings : List (String × Param)}

namespace Node.Standard

variable (h : node.Standard)
include h

lemma exists_toParam (hi : input ∈ node.inputs) (hty : input.ty ≠ .closure) (name : String) :
    ∃ p, input.value.toParam name input.ty = .ok p ∧ p.isConsistent = true := by
  obtain ⟨i, hget⟩ := mem_iff_getElem?.1 hi
  have hshape := h.shape_getElem? i
  rw [hget, Option.map_some] at hshape
  obtain ⟨x, hx, hsame⟩ := Option.map_eq_some_iff.1 hshape.symm
  have htype : x.ty = input.ty := congrArg (fun y => y.2.1) hsame
  refine SocketValue.exists_toParam ?_ (h.fits input hi) name
  rw [← htype]
  exact NodeKind.isElement_of_mem_inputs (mem_of_getElem? hx) (htype ▸ hty)

lemma engineInputs :
    node.engineInputs = node.kind.engineInputs := by
  have hnames : node.inputs.map Input.name = node.kind.inputs.map Input.name := by
    have := congrArg (map Prod.fst) h.inputs
    rwa [map_map, map_map] at this
  have hname : node.engineInput = (Node.ofKind node.kind).engineInput := by
    funext name
    rw [engineInput, engineInput, h.outputs]
    rfl
  have hmap := congrArg (map node.engineInput) hnames
  rw [map_map, map_map, hname] at hmap
  rw [Node.engineInputs, NodeKind.engineInputs, hname]
  exact hmap

/-- No parameter of a layer is bound twice. -/
lemma nodup_parameters (hsub : (settings.map Prod.fst).Sublist node.kind.settingNames) :
    ((settings ++ ctx.constants n node).map Prod.fst).Nodup := by
  rw [map_append]
  refine Nodup.sublist (hsub.append sublist_constants) ?_
  rw [h.engineInputs]
  exact node.kind.nodup_names

/-- The name of an input stands for no other input. -/
lemma index_eq {j : Nat} {input' : Input}
    (hi : node.inputs[i]? = some input) (hj : node.inputs[j]? = some input')
    (hname : node.engineInput input.name = node.engineInput input'.name) : i = j := by
  have hnodup : node.engineInputs.Nodup := by
    rw [h.engineInputs]
    exact (nodup_append.1 node.kind.nodup_names).2.1
  have hat : ∀ {k : Nat} {x : Input}, node.inputs[k]? = some x →
      node.engineInputs[k]? = some (node.engineInput x.name) := by
    intro k x hk
    rw [Node.engineInputs, getElem?_map, hk, Option.map_some]
  have hlt : i < node.engineInputs.length := (List.getElem?_eq_some_iff.1 (hat hi)).1
  exact (getElem?_inj hlt hnodup).1 (by rw [hat hi, hat hj, hname])

lemma constant?_of_mem (hi : node.inputs[i]? = some input)
    (hmem : (node.engineInput input.name, value) ∈ ctx.constants n node) :
    ctx.constant? n node (input, i) = some (node.engineInput input.name, value) := by
  obtain ⟨⟨input', j⟩, hx, hconst⟩ := mem_filterMap.1 hmem
  have hj : node.inputs[j]? = some input' := mem_zipIdx_iff_getElem?.1 hx
  obtain rfl := h.index_eq hi hj (constant?_eq_some hconst).1
  cases hi.symm.trans hj
  exact hconst

/-- The parameters for an input are those for its constant. -/
lemma mem_parameters (hsub : (settings.map Prod.fst).Sublist node.kind.settingNames)
    (hi : node.inputs[i]? = some input) :
    (node.engineInput input.name, value) ∈ settings ++ ctx.constants n node ↔
      ctx.constant? n node (input, i) = some (node.engineInput input.name, value) := by
  rw [mem_append]
  constructor
  · rintro (hset | hconst)
    · have hname : node.engineInput input.name ∈ node.kind.engineInputs := by
        rw [← h.engineInputs]
        exact mem_map.2 ⟨input, mem_of_getElem? hi, rfl⟩
      have hsetting := hsub.subset (mem_map.2 ⟨_, hset, rfl⟩)
      exact absurd rfl ((nodup_append.1 node.kind.nodup_names).2.2 _ hsetting _ hname)
    · exact h.constant?_of_mem hi hconst
  · exact fun hconst => .inr (mem_filterMap.2 ⟨_, mem_zipIdx_iff_getElem?.2 hi, hconst⟩)

end Node.Standard

/-- The layer of a node, given the settings of its kind. -/
def GroupContext.layer (ctx : GroupContext) (n : NodeId) (node : Node)
    (settings : List (String × Param)) : LayerRecord where
  node := n
  parameters := settings ++ ctx.constants n node
  usage := ctx.entry.usage
  shader := node.kind.engineShader ctx.entry
  name := node.layerName n
  links := ctx.links n node
  connections := ctx.connections n node

lemma mirrors_layer (hv : ctx.net.Valid) (hn : ctx.net.node? n = some node)
    (hsub : (settings.map Prod.fst).Sublist node.kind.settingNames)
    (hset : ∀ p ∈ settings, p.2.isConsistent = true) :
    ctx.Mirrors (ctx.layer n node settings) node where
  found := hn
  usage := rfl
  shader := rfl
  name := rfl
  consistent := by
    refine forall_mem_append.2 ⟨hset, fun p hp => ?_⟩
    obtain ⟨x, hx, hconst⟩ := mem_filterMap.1 hp
    obtain ⟨_, hty, _, _, hparam⟩ := constant?_eq_some hconst
    obtain ⟨q, hq, hconsistent⟩ := (hv.standard hn).exists_toParam
      (fst_mem_of_mem_zipIdx hx) hty (node.engineInput x.1.name)
    cases hparam.symm.trans hq
    exact hconsistent
  nodup := (hv.standard hn).nodup_parameters hsub
  bound i input hi := by
    have hst := hv.standard hn
    constructor
    · intro hname
      obtain ⟨⟨name, value⟩, hmem, rfl⟩ := mem_map.1 hname
      obtain ⟨_, hty, hl, hskip, _⟩ := constant?_eq_some ((hst.mem_parameters hsub hi).1 hmem)
      exact ⟨hty, hl, (skips_eq_false_iff hn hi hl).1 hskip⟩
    · rintro ⟨hty, hl, hadmits⟩
      obtain ⟨value, hparam, _⟩ := hst.exists_toParam (mem_of_getElem? hi) hty
        (node.engineInput input.name)
      refine mem_map.2 ⟨(_, value), (hst.mem_parameters hsub hi).2 ?_, rfl⟩
      have hlinked : ctx.net.isInputLinked n i = false := by
        rw [Network.isInputLinked, show ctx.net.inputLink? n i = none from hl]
        rfl
      have hskip := (skips_eq_false_iff hn hi hl).2 hadmits
      simp [constant?, hty, hlinked, hskip, hparam, Except.toOption]
  values input hinput value hmem := by
    obtain ⟨i, hi⟩ := mem_iff_getElem?.1 hinput
    exact (constant?_eq_some (((hv.standard hn).mem_parameters hsub hi).1 hmem)).2.2.2.2
  nodup_links := nodup_links
  links _ _ _ := mem_links hn
  connections := forall₂_connections hv

namespace GroupContext.Mirrors

variable {l : LayerRecord}

/-- Every connection is that of a link. -/
lemma exists_link (h : ctx.Mirrors l node) {call : EngineCall} (hc : call ∈ l.connections) :
    ∃ link ∈ l.links, ctx.Connects l.node node link call := by
  obtain ⟨hlength, hget⟩ := forall₂_iff_get.1 h.connections
  obtain ⟨i, hi, rfl⟩ := getElem_of_mem hc
  exact ⟨_, getElem_mem (hlength ▸ hi), hget i (hlength ▸ hi) hi⟩

lemma filterMap_calls (h : ctx.Mirrors l node) :
    l.calls.filterMap EngineCall.layer? = [l.name] := by
  refine LayerRecord.filterMap_calls fun call hc => ?_
  obtain ⟨_, _, _, _, _, _, _, _, rfl⟩ := h.exists_link hc
  rfl

end GroupContext.Mirrors

end Shading
