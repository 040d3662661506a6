import Shading.Proofs.Layers
import Shading.Proofs.Changes

/-!
# Steps and the calls that they make

While a group is built, the engine is told about parameters, layers and connections.  `GroupM.Says`
says of a step which calls it makes and when it succeeds: exactly if the data that it reads are
there and the engine takes the calls.  It is composed along the steps up to the layer of a node
(`addNode_eq_ok_iff`), from which nodes may be absent.  A node of a valid network whose sources have
their layers gets its own, which mirrors it (`exists_layer`).
-/

namespace Shading

open GroupContext GroupM List Recorder

/-! ## Calls for layers -/

/-- Whether a call binds a parameter, adds a layer or connects two. -/
def EngineCall.isForLayer : EngineCall → Bool
  | .parameter .. | .shader .. | .connect .. => true
  | _ => false

namespace Recorder

variable {r r' : Recorder} {calls calls' : List EngineCall} {c : EngineCall}

/-- The engine after calls for layers. -/
def told (r : Recorder) (calls : List EngineCall) : Recorder :=
  { r with
    calls := r.calls ++ calls.toArray
    layers := (calls.filterMap EngineCall.layer?).foldl .insert r.layers }

/-- Whether the engine takes a call for a layer of the open group. -/
def Takes (r : Recorder) : EngineCall → Prop
  | .parameter _ value => value.isConsistent = true
  | .shader _ _ layer => layer ∉ r.layers
  | .connect fromLayer _ toLayer _ => fromLayer ∈ r.layers ∧ toLayer ∈ r.layers
  | _ => False

/-- Whether the engine takes calls one after the other. -/
def TakesAll (r : Recorder) : List EngineCall → Prop
  | [] => True
  | c :: calls => r.Takes c ∧ (r.told [c]).TakesAll calls

lemma told_nil (r : Recorder) : r.told [] = r := by simp [told]

lemma told_append (r : Recorder) (calls calls' : List EngineCall) :
    r.told (calls ++ calls') = (r.told calls).told calls' := by
  simp [told, filterMap_append, foldl_append]

lemma takesAll_append :
    r.TakesAll (calls ++ calls') ↔ r.TakesAll calls ∧ (r.told calls).TakesAll calls' := by
  induction calls generalizing r with
  | nil => simp [TakesAll, told_nil]
  | cons c calls ih =>
    rw [cons_append, TakesAll, ih, TakesAll, and_assoc, ← told_append]
    rfl

lemma mem_layers_told {x : String} :
    x ∈ (r.told calls).layers ↔ x ∈ r.layers ∨ x ∈ calls.filterMap EngineCall.layer? :=
  OrderedSet.mem_foldl_insert

/-- What the engine takes depends on the layers alone. -/
lemma takesAll_congr (h : r.layers = r'.layers) : r.TakesAll calls ↔ r'.TakesAll calls := by
  induction calls generalizing r r' with
  | nil => rfl
  | cons c calls ih =>
    have htakes : r.Takes c ↔ r'.Takes c := by
      cases c <;> simp only [Takes, h]
    have hlayers : (r.told [c]).layers = (r'.told [c]).layers := by
      simp only [told, h]
    rw [TakesAll, TakesAll, htakes, ih hlayers]

/-- A connection that the engine takes starts at a layer that is there. -/
lemma TakesAll.mem_layers (h : r.TakesAll calls) {fromLayer fromParam toLayer toParam : String}
    (hc : .connect fromLayer fromParam toLayer toParam ∈ calls) :
    fromLayer ∈ (r.told calls).layers := by
  obtain ⟨before, after, rfl⟩ := append_of_mem hc
  obtain ⟨_, htakes, _⟩ := takesAll_append.1 h
  rw [mem_layers_told, filterMap_append, mem_append]
  rcases mem_layers_told.1 htakes.1 with hold | hnew
  · exact .inl hold
  · exact .inr (.inl hnew)

lemma record_eq_told (r : Recorder) (h : c.layer? = none) : r.record c = r.told [c] := by
  simp [record, told, h]

lemma parameter_eq_ok_iff (hopen : r.openGroup.isSome = true) {name : String} {value : Param} :
    r.parameter name value = .ok r' ↔
      r.Takes (.parameter name value) ∧ r' = r.told [.parameter name value] := by
  have hrun : r.parameter name value = if value.isConsistent then
      .ok (r.record (.parameter name value))
      else .error (.inconsistent name value.ty value.data.length) := by
    rw [parameter, requireOpen, if_pos hopen]
    rfl
  rw [hrun, record_eq_told r rfl]
  split
  · rw [Except.ok.injEq, eq_comm]
    exact (and_iff_right ‹_›).symm
  · exact iff_of_false (by simp) fun h => absurd h.1 ‹_›

lemma shader_eq_ok_iff (hopen : r.openGroup.isSome = true) {usage : ShaderUsage}
    {shader layer : String} : r.shader usage shader layer = .ok r' ↔
      r.Takes (.shader usage shader layer) ∧ r' = r.told [.shader usage shader layer] := by
  have hrun : r.shader usage shader layer = if r.layers.contains layer then
      .error (.duplicateLayer layer) else .ok (r.told [.shader usage shader layer]) := by
    rw [Recorder.shader, requireOpen, if_pos hopen, told]
    simp [record, EngineCall.layer?]
    rfl
  rw [hrun]
  split
  · exact iff_of_false (by simp) fun h => absurd (OrderedSet.contains_iff.1 ‹_›) h.1
  · rw [Except.ok.injEq, eq_comm]
    exact (and_iff_right fun hmem => absurd (OrderedSet.contains_iff.2 hmem) ‹_›).symm

lemma connect_eq_ok_iff (hopen : r.openGroup.isSome = true)
    {fromLayer fromParam toLayer toParam : String} :
    r.connect fromLayer fromParam toLayer toParam = .ok r' ↔
      r.Takes (.connect fromLayer fromParam toLayer toParam) ∧
        r' = r.told [.connect fromLayer fromParam toLayer toParam] := by
  have hrun : r.connect fromLayer fromParam toLayer toParam =
      if !r.layers.contains fromLayer then .error (.unknownLayer fromLayer)
      else if !r.layers.contains toLayer then .error (.unknownLayer toLayer)
      else .ok (r.record (.connect fromLayer fromParam toLayer toParam)) := by
    rw [connect, requireOpen, if_pos hopen]
    rfl
  rw [hrun, record_eq_told r rfl]
  simp only [Bool.not_eq_true', ← Bool.not_eq_true, OrderedSet.contains_iff]
  split
  · exact iff_of_false (by simp) fun h => absurd h.1.1 ‹_›
  split
  · exact iff_of_false (by simp) fun h => absurd h.1.2 ‹_›
  · rw [Except.ok.injEq, eq_comm]
    exact (and_iff_right ⟨not_not.1 ‹_›, not_not.1 ‹_›⟩).symm

end Recorder

/-! ## Steps that say something -/

/-- The group after calls for layers. -/
def GroupState.told (s : GroupState) (calls : List EngineCall) : GroupState :=
  { s with host := { s.host with recorder := s.host.recorder.told calls } }

lemma GroupState.told_nil (s : GroupState) : s.told [] = s := by
  simp [told, Recorder.told_nil]

lemma GroupState.told_append (s : GroupState) (calls calls' : List EngineCall) :
    s.told (calls ++ calls') = (s.told calls).told calls' := by
  simp [told, Recorder.told_append]

/-- The step succeeds exactly on a condition and if the engine takes some calls, and it does nothing
but make them. -/
def GroupM.Says (m : GroupM Unit) (condition : Prop) (calls : List EngineCall) (s : GroupState) :
    Prop :=
  ∀ s', m s = .ok ⟨⟩ s' ↔ condition ∧ s.host.recorder.TakesAll calls ∧ s' = s.told calls

namespace GroupM.Says

variable {m m' : GroupM Unit} {c c' : Prop} {calls calls' : List EngineCall} {s : GroupState}
  {α : Type} {f : α → GroupM Unit}

lemma congr (h : m.Says c calls s) (hc : c ↔ c') : m.Says c' calls s := by
  intro s'
  rw [← hc]
  exact h s'

lemma pure : Says (Pure.pure ⟨⟩) True [] s := by
  intro s'
  simp only [TakesAll, GroupState.told_nil, true_and]
  exact ⟨fun h => by cases h; rfl, fun h => by rw [h]; rfl⟩

lemma throw (e : GroupFault) : Says (MonadExcept.throw e) False calls s := by
  intro s'
  exact iff_of_false (fun h => by cases h) fun h => h.1

lemma bind (h : m.Says c calls s) (h' : m'.Says c' calls' (s.told calls)) :
    (m >>= fun _ => m').Says (c ∧ c') (calls ++ calls') s := by
  intro s'
  rw [Moves.bind_eq_ok, takesAll_append, GroupState.told_append]
  constructor
  · rintro ⟨_, t, hm, hm'⟩
    obtain ⟨hc, htakes, rfl⟩ := (h t).1 hm
    obtain ⟨hc', htakes', rfl⟩ := (h' s').1 hm'
    exact ⟨⟨hc, hc'⟩, ⟨htakes, htakes'⟩, rfl⟩
  · rintro ⟨⟨hc, hc'⟩, ⟨htakes, htakes'⟩, rfl⟩
    exact ⟨⟨⟩, s.told calls, (h _).2 ⟨hc, htakes, rfl⟩, (h' _).2 ⟨hc', htakes', rfl⟩⟩

lemma get_bind {f : GroupState → GroupM Unit} (h : (f s).Says c calls s) :
    (get >>= f).Says c calls s := h

lemma ofGraph_bind {x : Except GraphError α} {a : α}
    (hx : x = .ok a) (h : (f a).Says c calls s) : (ofGraph x >>= f).Says c calls s := by
  rw [hx]
  exact h

lemma tell {call : Recorder → Except Rejection Recorder} {e : EngineCall}
    (h : ∀ r, call s.host.recorder = .ok r ↔
      s.host.recorder.Takes e ∧ r = s.host.recorder.told [e]) :
    (tell call).Says True [e] s := by
  intro s'
  constructor
  · intro hm
    obtain ⟨t, _, hget, hcall⟩ := Moves.bind_eq_ok.1 hm
    cases hget
    cases hc : call s.host.recorder with
    | ok r =>
      rw [hc] at hcall
      cases hcall
      obtain ⟨htakes, rfl⟩ := (h r).1 hc
      exact ⟨trivial, ⟨htakes, trivial⟩, rfl⟩
    | error e =>
      rw [hc] at hcall
      cases hcall
  · rintro ⟨_, ⟨htakes, _⟩, rfl⟩
    refine Moves.bind_eq_ok.2 ⟨s, s, rfl, ?_⟩
    simp only [(h _).2 ⟨htakes, rfl⟩]
    rfl

/-- Steps one after the other, from states of which something holds that calls do not change. -/
lemma forM {P : GroupState → Prop} (hP : ∀ s calls, P s → P (s.told calls)) {l : List α}
    {c : α → Prop} {calls : α → List EngineCall}
    (h : ∀ x ∈ l, ∀ s, P s → (f x).Says (c x) (calls x) s) (hs : P s) :
    (l.forM f).Says (∀ x ∈ l, c x) (l.flatMap calls) s := by
  induction l generalizing s with
  | nil => exact pure.congr (by simp)
  | cons x l ih =>
    refine congr (bind (h x mem_cons_self s hs) (ih ?_ (hP s _ hs))) ?_
    · exact fun y hy => h y (mem_cons_of_mem _ hy)
    · rw [forall_mem_cons]

end GroupM.Says

/-! ### Settings -/

/-- The settings of a kind, with the name that its image has in the engine. -/
def NodeKind.settings (background : Bool) (image : String) : NodeKind → List (String × Param)
  | .value v => [("value_value", .float v)]
  | .rgb color => [("color_value", .vec3 .color color)]
  | .math op useClamp => [("math_type", .string op.name), ("use_clamp", .bool useClamp)]
  | .vectorMath op => [("math_type", .string op.name)]
  | .mixRgb blend useClamp => [("mix_type", .string blend.name), ("use_clamp", .bool useClamp)]
  | .namedAttribute name => [("name", .attributeName name)]
  | .textureCoordinate fromDupli objectTransform =>
    [("is_background", .bool background), ("from_dupli", .bool fromDupli),
      ("use_transform", .bool objectTransform.isSome)] ++
        (objectTransform.map fun t => ("object_itfm", Param.matrix t)).toList
  | .imageTexture _ _ colorspace =>
    [("filename", .string image), ("colorspace", .string colorspace)]
  | .ambientOcclusion samples onlyLocal =>
    [("samples", .int samples.toInt32), ("only_local", .bool onlyLocal)]
  | .bump invert useObjectSpace =>
    [("invert", .bool invert), ("use_object_space", .bool useObjectSpace)]
  | .bumpFromDisplacement useObjectSpace | .displacement useObjectSpace =>
    [("use_object_space", .bool useObjectSpace)]
  | _ => []

/-- The slot of the image that a kind registers. -/
def NodeKind.imageSlot? : NodeKind → Option UInt32
  | .imageTexture slot _ _ => some slot
  | _ => none

namespace GroupState

/-- The number of the image that is registered next. -/
def nextImage (s : GroupState) : Nat := s.host.textures.slots.size

/-- The group after the image of a kind was registered. -/
def imaged (s : GroupState) (k : NodeKind) : GroupState :=
  k.imageSlot?.elim s fun slot =>
    { s with host := { s.host with textures := (s.host.textures.register slot).2 } }

end GroupState

section

variable (s : GroupState) (k : NodeKind)
include s k

lemma GroupState.recorder_imaged : (s.imaged k).host.recorder = s.host.recorder := by
  rw [imaged]
  cases k.imageSlot? <;> rfl

lemma GroupState.told_imaged : Told s (s.imaged k) := by
  rw [imaged]
  cases k.imageSlot? <;> rfl

lemma GroupState.host_imaged :
    (s.imaged k).host = { s.host with textures := (s.imaged k).host.textures } := by
  rw [imaged]
  cases k.imageSlot? <;> rfl

lemma GroupState.nextImage_imaged :
    (s.imaged k).nextImage = s.nextImage + if k.imageSlot?.isSome then 1 else 0 := by
  rw [imaged]
  cases k.imageSlot? with
  | none => rfl
  | some slot => simp [nextImage, Textures.register]

end

lemma NodeKind.isConsistent_settings (background : Bool) (image : String) (k : NodeKind) :
    ∀ p ∈ k.settings background image, p.2.isConsistent = true := by
  rw [← all_eq_true]
  cases k
  case textureCoordinate fromDupli transform => cases transform <;> rfl
  all_goals rfl

lemma Recorder.takesAll_parameters {r : Recorder} {l : List (String × Param)}
    (h : ∀ p ∈ l, p.2.isConsistent = true) : r.TakesAll (l.map parameterCall) := by
  induction l generalizing r with
  | nil => trivial
  | cons p l ih =>
    rw [forall_mem_cons] at h
    exact ⟨h.1, ih h.2⟩

/-- The settings of a kind are always taken. -/
lemma bindKind_eq_ok (background : Bool) (k : NodeKind) {s : GroupState} (hs : s.IsOpen) :
    bindKind background k s = .ok ⟨⟩ ((s.imaged k).told
      ((k.settings background (Textures.imageName s.nextImage)).map parameterCall)) := by
  have hone : ∀ (name : String) value, value.isConsistent = true → ∀ s : GroupState,
      s.IsOpen → bind name value s = .ok ⟨⟩ (s.told [.parameter name value]) := by
    intro name value hvalue s hs
    have hbind : (bind name value).Says True [.parameter name value] s :=
      .tell fun r => parameter_eq_ok_iff hs
    exact (hbind _).2 ⟨trivial, ⟨hvalue, trivial⟩, rfl⟩
  have hthen : ∀ (name : String) value, value.isConsistent = true →
      ∀ (m : GroupM Unit) calls s, s.IsOpen →
        (∀ s : GroupState, s.IsOpen → m s = .ok ⟨⟩ (s.told calls)) →
          (bind name value >>= fun _ => m) s =
            .ok ⟨⟩ (s.told (.parameter name value :: calls)) := by
    intro name value hvalue m calls s hs hm
    rw [show EngineCall.parameter name value :: calls = [.parameter name value] ++ calls from rfl,
      GroupState.told_append]
    exact Moves.bind_eq_ok.2 ⟨_, _, hone name value hvalue s hs, hm _ hs⟩
  cases k
  case textureCoordinate fromDupli transform =>
    refine hthen _ _ rfl _ _ s hs fun s hs => hthen _ _ rfl _ _ s hs fun s hs =>
      hthen _ _ rfl _ _ s hs fun s hs => ?_
    cases transform with
    | none => exact congrArg (EStateM.Result.ok _) s.told_nil.symm
    | some t => exact hone _ _ rfl s hs
  case imageTexture slot filename colorspace =>
    exact hthen _ _ rfl _ _ (s.imaged (.imageTexture slot filename colorspace)) hs (hone _ _ rfl)
  all_goals first
    | exact congrArg (EStateM.Result.ok _) s.told_nil.symm
    | exact hone _ _ rfl s hs
    | exact hthen _ _ rfl _ _ s hs (hone _ _ rfl)

/-! ## Layers -/

/-- Whether a node of the network is a script. -/
def Network.isScript (net : Network) (n : NodeId) : Bool := (net.kind? n).any NodeKind.isScript

variable {ctx : GroupContext} {n : NodeId} {node : Node} {s s' : GroupState}

namespace GroupContext

/-- The constant of an input can be bound, if the group binds it. -/
def Bindable (ctx : GroupContext) (n : NodeId) (node : Node) (x : Input × Nat) : Prop :=
  (x.1.ty = .closure || ctx.graph.net.isInputLinked n x.2 || ctx.skips n x.2) = true ∨
    ∃ p, x.1.value.toParam (node.engineInput x.1.name) x.1.ty = .ok p

/-- The output that feeds an input is there, if the group connects it. -/
def Connectable (ctx : GroupContext) (absent : NodeId → Bool) (n : NodeId) (x : Input × Nat) :
    Prop :=
  ∀ link, ctx.link? n x = some link → absent link.2.1 = false → ∃ source result,
    ctx.graph.net.node? link.2.1 = some source ∧ source.outputs[link.2.2]? = some result

/-- The call that connects an input, unless it is fed by a node without a layer. -/
def keptConnection? (ctx : GroupContext) (absent : NodeId → Bool) (n : NodeId) (node : Node)
    (x : Input × Nat) : Option EngineCall :=
  if (ctx.link? n x).any fun link => absent link.2.1 then none else ctx.connection? n node x

lemma keptConnection?_false {x : Input × Nat} : ctx.keptConnection? (fun _ => false) n node x =
    ctx.connection? n node x := by
  rw [keptConnection?]
  exact if_neg (by cases ctx.link? n x <;> simp)

/-- The layer of a node that is not connected to absent ones; the image of the node, if it has one,
is registered under the number. -/
def layerWithout (ctx : GroupContext) (absent : NodeId → Bool) (image : Nat) (n : NodeId)
    (node : Node) : LayerRecord :=
  { ctx.layer n node (node.kind.settings ctx.background (Textures.imageName image)) with
    connections := node.inputs.zipIdx.filterMap (ctx.keptConnection? absent n node) }

/-- Everything that the layer of a node needs is there. -/
def Sayable (ctx : GroupContext) (absent : NodeId → Bool) (n : NodeId) (node : Node) : Prop :=
  ∀ x ∈ node.inputs.zipIdx, ctx.Bindable n node x ∧ ctx.Connectable absent n x

end GroupContext

lemma says_bindInput (hs : s.IsOpen) (x : Input × Nat) :
    (ctx.bindInput n node x.2 x.1).Says (ctx.Bindable n node x)
      ((ctx.constant? n node x).toList.map parameterCall) s := by
  unfold bindInput constant? Bindable
  split
  · exact Says.pure.congr (iff_of_true trivial (.inl ‹_›))
  · rename_i hused
    cases hparam : x.1.value.toParam (node.engineInput x.1.name) x.1.ty with
    | ok p =>
      simp only [hparam]
      refine Says.congr (.tell fun r => parameter_eq_ok_iff hs) ?_
      exact iff_of_true trivial (.inr ⟨p, rfl⟩)
    | error e =>
      simp only [hparam]
      refine (Says.throw _).congr (iff_of_false id ?_)
      rintro (hfree | ⟨p, hp⟩)
      · exact hused hfree
      · cases hp

lemma says_connectInput (hs : s.IsOpen) (x : Input × Nat) :
    (ctx.connectInput n node x.2 x.1).Says (ctx.Connectable s.absent.contains n x)
      (ctx.keptConnection? s.absent.contains n node x).toList s := by
  have hnone : ctx.link? n x = none → (pure ⟨⟩ : GroupM Unit).Says
      (ctx.Connectable s.absent.contains n x)
      (ctx.keptConnection? s.absent.contains n node x).toList s := by
    intro hlink
    have hcall : ctx.keptConnection? s.absent.contains n node x = none := by
      simp [keptConnection?, connection?, hlink]
    rw [hcall]
    exact Says.pure.congr (iff_of_true trivial (by simp [Connectable, hlink]))
  unfold connectInput
  split
  · exact hnone (by simp [link?, *])
  cases hl : ctx.net.inputLink? n x.2 with
  | none => exact hnone (by simp [link?, hl])
  | some link =>
    obtain ⟨d, o⟩ := link
    have hlink : ctx.link? n x = some (x.2, d, o) := by simp [link?, *]
    refine .get_bind ?_
    by_cases habsent : s.absent.contains d = true
    · have hcall : ctx.keptConnection? s.absent.contains n node x = none := by
        rw [keptConnection?, hlink]
        exact if_pos habsent
      rw [if_pos habsent, hcall]
      refine Says.pure.congr (iff_of_true trivial fun link hlink' hpresent => ?_)
      cases hlink.symm.trans hlink'
      rw [habsent] at hpresent
      cases hpresent
    · have hcall : ctx.keptConnection? s.absent.contains n node x = ctx.connection? n node x := by
        rw [keptConnection?, hlink]
        exact if_neg habsent
      have hcond : ctx.Connectable s.absent.contains n x ↔ ∃ source result,
          ctx.net.node? d = some source ∧ source.outputs[o]? = some result := by
        simp [Connectable, hlink, Bool.eq_false_of_not_eq_true habsent]
      rw [if_neg habsent, hcall]
      refine Says.congr ?_ hcond.symm
      cases hsource : ctx.net.node? d with
      | none =>
        have hrequire : ctx.graph.require d = .error (.nodeNotFound d) := by
          rw [Graph.require, hsource]
        rw [hrequire]
        exact Says.congr (Says.throw _) (by simp)
      | some source =>
        refine .ofGraph_bind (Graph.require_eq_ok_iff.2 hsource) ?_
        cases hresult : source.outputs[o]? with
        | none => exact (Says.throw _).congr (by simp [hresult])
        | some result =>
          have hsome : ctx.connection? n node x = some (.connect (source.layerName d)
              (source.engineOutput result.name) (node.layerName n)
              (node.engineInput x.1.name)) := by
            simp [connection?, hlink, hsource, hresult]
          rw [hsome]
          refine Says.congr (.tell fun r => connect_eq_ok_iff hs) ?_
          exact iff_of_true trivial ⟨source, result, rfl, hresult⟩

lemma says_bindInputs (hs : s.IsOpen) :
    (node.inputs.zipIdx.forM fun x => ctx.bindInput n node x.2 x.1).Says
      (∀ x ∈ node.inputs.zipIdx, ctx.Bindable n node x)
      ((ctx.constants n node).map parameterCall) s := by
  rw [constants, filterMap_eq_flatMap_toList, map_flatMap]
  exact .forM (fun _ _ hs => hs) (fun x _ s hs => says_bindInput hs x) hs

lemma says_connectInputs (hs : s.IsOpen) :
    (node.inputs.zipIdx.forM fun x => ctx.connectInput n node x.2 x.1).Says
      (∀ x ∈ node.inputs.zipIdx, ctx.Connectable s.absent.contains n x)
      (node.inputs.zipIdx.filterMap (ctx.keptConnection? s.absent.contains n node)) s := by
  rw [filterMap_eq_flatMap_toList]
  refine .forM (P := fun t => t.IsOpen ∧ t.absent = s.absent) (fun _ _ ht => ht) ?_ ⟨hs, rfl⟩
  rintro x _ t ⟨ht, habsent⟩
  rw [← habsent]
  exact says_connectInput ht x

/-- The layer of a node is added exactly if everything that it needs is there and the engine takes
it. -/
lemma says_addLayer (hs : s.IsOpen) (shader : String) :
    (ctx.addLayer n node shader).Says (ctx.Sayable s.absent.contains n node)
      ((ctx.constants n node).map parameterCall ++
        .shader ctx.entry.usage shader (node.layerName n) ::
          node.inputs.zipIdx.filterMap (ctx.keptConnection? s.absent.contains n node)) s := by
  have hshader : ∀ t : GroupState, t.IsOpen →
      (tell (·.shader ctx.entry.usage shader (node.layerName n))).Says True
        [.shader ctx.entry.usage shader (node.layerName n)] t :=
    fun t ht => .tell fun r => shader_eq_ok_iff ht
  refine Says.congr (Says.bind (says_bindInputs hs)
    (Says.bind (hshader _ ?_) (says_connectInputs ?_))) ?_
  · exact hs
  · exact hs
  · rw [true_and]
    exact ⟨fun h x hx => ⟨h.1 x hx, h.2 x hx⟩,
      fun h => ⟨fun x hx => (h x hx).1, fun x hx => (h x hx).2⟩⟩

lemma GroupM.ofGraph_ok_bind {α β : Type} (a : α) (f : α → GroupM β) (s : GroupState) :
    (ofGraph (.ok a) >>= f) s = f a s := rfl

lemma addNode_eq_ok_iff (hn : ctx.net.node? n = some node) (hk : node.kind.isScript = false)
    (hs : s.IsOpen) :
    ctx.addNode n s = .ok ⟨⟩ s' ↔ ctx.Sayable s.absent.contains n node ∧
      s.host.recorder.TakesAll (ctx.layerWithout s.absent.contains s.nextImage n node).calls ∧
        s' = (s.imaged node.kind).told
          (ctx.layerWithout s.absent.contains s.nextImage n node).calls := by
  set settings := node.kind.settings ctx.background (Textures.imageName s.nextImage)
  set t := (s.imaged node.kind).told (settings.map parameterCall) with ht
  have hrun : ctx.addNode n s = ctx.addLayer n node (node.kind.engineShader ctx.entry) t := by
    have hkind : bindKind ctx.background node.kind s = .ok ⟨⟩ t :=
      bindKind_eq_ok ctx.background node.kind hs
    unfold addNode
    rw [Graph.require_eq_ok_iff.2 hn, ofGraph_ok_bind]
    cases hsame : node.kind
    case script source =>
      rw [hsame] at hk
      cases hk
    all_goals
      rw [hsame] at hkind
      change EStateM.bind _ _ s = _
      rw [EStateM.bind, hkind]
  have hrecorder : t.host.recorder = s.host.recorder.told (settings.map parameterCall) := by
    rw [ht, GroupState.told, GroupState.recorder_imaged]
  have habsent : t.absent = s.absent := by
    change (s.imaged node.kind).absent = _
    rw [s.told_imaged node.kind]
  have hopen : t.IsOpen := by
    rw [GroupState.IsOpen, hrecorder]
    exact hs
  have hcalls : (ctx.layerWithout s.absent.contains s.nextImage n node).calls =
      settings.map parameterCall ++ ((ctx.constants n node).map parameterCall ++
        .shader ctx.entry.usage (node.kind.engineShader ctx.entry) (node.layerName n) ::
          node.inputs.zipIdx.filterMap (ctx.keptConnection? s.absent.contains n node)) := by
    simp [LayerRecord.calls, layerWithout, layer, settings]
  have htakes : s.host.recorder.TakesAll (settings.map parameterCall) :=
    takesAll_parameters (node.kind.isConsistent_settings ctx.background _)
  rw [hcalls, takesAll_append, GroupState.told_append, hrun, says_addLayer hopen _ s',
    hrecorder, habsent, and_iff_right htakes]

/-! ## Layers that are taken -/

lemma NodeKind.sublist_settings (background : Bool) (image : String) (k : NodeKind) :
    ((k.settings background image).map Prod.fst).Sublist k.settingNames := by
  cases k
  case textureCoordinate fromDupli transform =>
    cases transform with
    | none => exact of_decide_eq_true rfl
    | some t => exact Sublist.refl _
  all_goals exact Sublist.refl _

/-- Connections between layers that are there are taken. -/
lemma Recorder.takesAll_connections {r : Recorder} {calls : List EngineCall}
    (h : ∀ c ∈ calls, ∃ a x b y, c = .connect a x b y ∧ a ∈ r.layers ∧ b ∈ r.layers) :
    r.TakesAll calls := by
  induction calls generalizing r with
  | nil => trivial
  | cons c calls ih =>
    rw [forall_mem_cons] at h
    obtain ⟨⟨a, x, b, y, rfl, ha, hb⟩, hrest⟩ := h
    exact ⟨⟨ha, hb⟩, ih hrest⟩

/-- In a valid network everything is there. -/
lemma sayable (hv : ctx.net.Valid) (hn : ctx.net.node? n = some node)
    (absent : NodeId → Bool) : ctx.Sayable absent n node := by
  intro x hx
  constructor
  · refine or_iff_not_imp_left.2 fun hused => ?_
    have hty : x.1.ty ≠ .closure := by
      intro hclosure
      simp [hclosure] at hused
    obtain ⟨p, hparam, _⟩ := (hv.standard hn).exists_toParam (fst_mem_of_mem_zipIdx hx) hty
      (node.engineInput x.1.name)
    exact ⟨p, hparam⟩
  · rintro ⟨i, d, o⟩ hlink _
    exact hv.exists_output (link?_eq_some_iff.1 hlink).2.2

end Shading
